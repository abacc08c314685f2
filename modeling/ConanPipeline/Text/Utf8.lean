/-! Bytes as text. Each maximal ill-formed run is shown as one U+FFFD. -/

namespace ConanPipeline.Text

def isContinuation (b : UInt8) : Bool := 0x80 ≤ b && b ≤ 0xbf

/-- Which second bytes may follow the leading byte `b` of a sequence of three or four. -/
def allowsSecond (b s : UInt8) : Bool :=
  if b == 0xe0 then 0xa0 ≤ s && s ≤ 0xbf
  else if b == 0xed then 0x80 ≤ s && s ≤ 0x9f
  else if b == 0xf0 then 0x90 ≤ s && s ≤ 0xbf
  else if b == 0xf4 then 0x80 ≤ s && s ≤ 0x8f
  else isContinuation s

def replacement : Char := '\uFFFD'

def low (b : UInt8) : Nat := b.toNat % 64

/-- The character that starts at `b`, and how many of the following bytes belong to it. -/
def leading (b : UInt8) (rest : List UInt8) : Char × Nat :=
  if b < 0x80 then (Char.ofNat b.toNat, 0)
  else if 0xc2 ≤ b && b ≤ 0xdf then
    match rest with
    | s :: _ =>
      if isContinuation s then (.ofNat (b.toNat % 32 * 64 + low s), 1) else (replacement, 0)
    | [] => (replacement, 0)
  else if 0xe0 ≤ b && b ≤ 0xef then
    match rest with
    | s :: t :: _ =>
      if allowsSecond b s then
        if isContinuation t then (.ofNat ((b.toNat % 16 * 64 + low s) * 64 + low t), 2)
        else (replacement, 1)
      else (replacement, 0)
    | [s] => (replacement, if allowsSecond b s then 1 else 0)
    | [] => (replacement, 0)
  else if 0xf0 ≤ b && b ≤ 0xf4 then
    match rest with
    | s :: more =>
      if allowsSecond b s then
        match more with
        | t :: more =>
          if isContinuation t then
            match more with
            | u :: _ =>
              if isContinuation u then
                (.ofNat (((b.toNat % 8 * 64 + low s) * 64 + low t) * 64 + low u), 3)
              else (replacement, 2)
            | [] => (replacement, 2)
          else (replacement, 1)
        | [] => (replacement, 1)
      else (replacement, 0)
    | [] => (replacement, 0)
  else (replacement, 0)

def decodeLossy : List UInt8 → List Char
  | [] => []
  | b :: rest =>
    let p := leading b rest
    p.1 :: decodeLossy (rest.drop p.2)
termination_by bytes => bytes.length
decreasing_by simp only [List.length_cons, List.length_drop]; omega

/-- Bytes shown as text, whatever they are. -/
def ofBytes (bytes : ByteArray) : String :=
  match String.fromUTF8? bytes with
  | some s => s
  | none => .ofList (decodeLossy bytes.toList)

theorem fromUTF8?_toUTF8 (s : String) : String.fromUTF8? s.toUTF8 = some s := by
  have h : s.toUTF8.IsValidUTF8 := by rw [String.toUTF8_eq_toByteArray]; exact s.isValidUTF8
  simp only [String.fromUTF8?, h, dite_true, Option.some.injEq]
  rfl

@[simp] theorem ofBytes_toUTF8 (s : String) : ofBytes s.toUTF8 = s := by
  simp only [ofBytes, fromUTF8?_toUTF8]

end ConanPipeline.Text
