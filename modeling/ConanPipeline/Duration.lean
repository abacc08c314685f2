/-! Lengths of time and their labels: `850ms`, `12.3s`, `2m 05s`. The middle form
shows the binary fraction of 53 bits that is nearest to the length, not the length
itself, so twelve and thirty-five hundredths is `12.3s`. -/

namespace ConanPipeline

structure Duration where
  seconds : Nat
  nanos : Nat
  deriving DecidableEq, Repr, Inhabited

namespace Duration

/-- Full seconds among the nanoseconds count as seconds. -/
def of (seconds nanos : Nat) : Duration :=
  ⟨seconds + nanos / 1000000000, nanos % 1000000000⟩

/-- The integer nearest to a quotient, the even one of two that are equally near. -/
def roundDiv (num den : Nat) : Nat :=
  let q := num / den
  let r := num % den
  if 2 * r < den then q
  else if 2 * r = den then (if q % 2 = 0 then q else q + 1)
  else q + 1

/-- A quotient below two to the 52 rounded to 53 binary digits, as `m / 2 ^ k`. -/
def nearest53 (num den : Nat) : Nat × Nat :=
  if num = 0 then (0, 0)
  else
    let k := 53 + den.log2 - num.log2
    let k := if Nat.pow 2 53 ≤ num * Nat.pow 2 k / den then k - 1 else k
    (roundDiv (num * Nat.pow 2 k) den, k)

/-- Seconds in tenths, after rounding to binary. -/
def tenths (d : Duration) : Nat :=
  let part := nearest53 d.nanos 1000000000
  let sum := nearest53 (d.seconds * Nat.pow 2 part.2 + part.1) (Nat.pow 2 part.2)
  roundDiv (sum.1 * 10) (Nat.pow 2 sum.2)

def twoDigits (n : Nat) : String := if n < 10 then "0" ++ toString n else toString n

def label (d : Duration) : String :=
  if d.seconds = 0 then toString (d.nanos / 1000000) ++ "ms"
  else if d.seconds < 60 then toString (d.tenths / 10) ++ "." ++ toString (d.tenths % 10) ++ "s"
  else toString (d.seconds / 60) ++ "m " ++ twoDigits (d.seconds % 60) ++ "s"

end Duration

end ConanPipeline
