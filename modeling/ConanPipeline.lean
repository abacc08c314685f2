import ConanPipeline.Cli.Arguments
import ConanPipeline.Cli.Filter
import ConanPipeline.Cli.Options
import ConanPipeline.Cli.Run
import ConanPipeline.Cmake
import ConanPipeline.Command
import ConanPipeline.Command.Words
import ConanPipeline.Conan
import ConanPipeline.Configure
import ConanPipeline.Console
import ConanPipeline.Descriptor
import ConanPipeline.Duration
import ConanPipeline.Errno
import ConanPipeline.Failure
import ConanPipeline.FileSystem.Basic
import ConanPipeline.FileSystem.Change
import ConanPipeline.FileSystem.Replace
import ConanPipeline.FileSystem.Resolve
import ConanPipeline.Generator
import ConanPipeline.Literal
import ConanPipeline.Machine
import ConanPipeline.Machine.Processes
import ConanPipeline.Main
import ConanPipeline.Path
import ConanPipeline.Pipeline
import ConanPipeline.Pipeline.Steps
import ConanPipeline.Plan
import ConanPipeline.Platform
import ConanPipeline.Profile
import ConanPipeline.Programs.Known
import ConanPipeline.Programs.StandIn
import ConanPipeline.Project
import ConanPipeline.Proofs.Cmake
import ConanPipeline.Proofs.Cmake.Below
import ConanPipeline.Proofs.Cmake.Shallowest
import ConanPipeline.Proofs.Cmake.Sources
import ConanPipeline.Proofs.Cmake.Tree
import ConanPipeline.Proofs.Conan.Choice
import ConanPipeline.Proofs.Conan.Home
import ConanPipeline.Proofs.Conan.Runs
import ConanPipeline.Proofs.Configure.Compiler
import ConanPipeline.Proofs.Configure.Frame
import ConanPipeline.Proofs.Configure.Home
import ConanPipeline.Proofs.Configure.Standard
import ConanPipeline.Proofs.Configure.Update
import ConanPipeline.Proofs.Descriptor.Line
import ConanPipeline.Proofs.Descriptor.Lines
import ConanPipeline.Proofs.Descriptor.Rows
import ConanPipeline.Proofs.Descriptor.Store
import ConanPipeline.Proofs.FileSystem.Directories
import ConanPipeline.Proofs.FileSystem.Emptying
import ConanPipeline.Proofs.FileSystem.Links
import ConanPipeline.Proofs.FileSystem.Listed
import ConanPipeline.Proofs.FileSystem.Names
import ConanPipeline.Proofs.FileSystem.Readable
import ConanPipeline.Proofs.FileSystem.Remove
import ConanPipeline.Proofs.FileSystem.Replace
import ConanPipeline.Proofs.FileSystem.Tree
import ConanPipeline.Proofs.FileSystem.Walk
import ConanPipeline.Proofs.FileSystem.Write
import ConanPipeline.Proofs.Literal
import ConanPipeline.Proofs.Literal.Reading
import ConanPipeline.Proofs.Machine.Action
import ConanPipeline.Proofs.Machine.Agreement
import ConanPipeline.Proofs.Machine.Entries
import ConanPipeline.Proofs.Machine.Keeps
import ConanPipeline.Proofs.Machine.Launch
import ConanPipeline.Proofs.Machine.Outcome
import ConanPipeline.Proofs.Path
import ConanPipeline.Proofs.Path.Ancestors
import ConanPipeline.Proofs.Pipeline.Agreement
import ConanPipeline.Proofs.Pipeline.Clean
import ConanPipeline.Proofs.Pipeline.Requests
import ConanPipeline.Proofs.Pipeline.Separate
import ConanPipeline.Proofs.Pipeline.Verbosity
import ConanPipeline.Proofs.Profile.Batch
import ConanPipeline.Proofs.Profile.Edit
import ConanPipeline.Proofs.Profile.InPlace
import ConanPipeline.Proofs.Profile.Line
import ConanPipeline.Proofs.Profile.Reach
import ConanPipeline.Proofs.Profile.ReadBack
import ConanPipeline.Proofs.Profile.Repeated
import ConanPipeline.Proofs.Profile.Store
import ConanPipeline.Proofs.Profile.Untouched
import ConanPipeline.Proofs.Project
import ConanPipeline.Proofs.Report
import ConanPipeline.Proofs.Search
import ConanPipeline.Proofs.Text.Bytes
import ConanPipeline.Proofs.Text.Lines
import ConanPipeline.Proofs.Text.Trim
import ConanPipeline.Proofs.Tool
import ConanPipeline.Proofs.Toolchain
import ConanPipeline.Proofs.Version
import ConanPipeline.Proofs.Words.Display
import ConanPipeline.Proofs.Words.Grammar
import ConanPipeline.Proofs.Words.Protection
import ConanPipeline.Report
import ConanPipeline.Settings
import ConanPipeline.Shell.Arithmetic
import ConanPipeline.Shell.Builtin
import ConanPipeline.Shell.Condition
import ConanPipeline.Shell.Evaluate
import ConanPipeline.Shell.Expand
import ConanPipeline.Shell.Format
import ConanPipeline.Shell.Number
import ConanPipeline.Shell.Pattern
import ConanPipeline.Shell.Reader
import ConanPipeline.Shell.Real
import ConanPipeline.Shell.Redirection
import ConanPipeline.Shell.Search
import ConanPipeline.Shell.Signal
import ConanPipeline.Shell.Start
import ConanPipeline.Shell.State
import ConanPipeline.Shell.Tree
import ConanPipeline.Shell.Variables
import ConanPipeline.Text.Blank
import ConanPipeline.Text.Letter
import ConanPipeline.Text.Property
import ConanPipeline.Text.Quoted
import ConanPipeline.Text.Regular
import ConanPipeline.Text.Utf8
import ConanPipeline.Toml.Document
import ConanPipeline.Toml.Scalar
import ConanPipeline.Toml.Value
import ConanPipeline.Tool
import ConanPipeline.Toolchain
import ConanPipeline.Transcript
import ConanPipeline.Venv
import ConanPipeline.Version
