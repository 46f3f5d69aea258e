import Sockd.Rust.Io
import Sockd.Rust.Time

/-!
# The errors of the library (`error.rs`)

A path is its list of components; a callback's boxed error is known by its
`Display` text only, so a `BoxError` is that text.
-/

namespace Sockd

open Rust

/-- `std::path::PathBuf`: the components of the path. -/
abbrev Path : Type := List String

/-- `Path::parent`. -/
def Path.parent? : Path → Option Path
  | [] => none
  | p => some p.dropLast

/-- `Path::display`. -/
def Path.display (p : Path) : String := "/" ++ "/".intercalate p

/-- `BoxError`: the `Display` text of a callback's error. -/
abbrev BoxError : Type := String

/-- `CallbackResult`. -/
abbrev CallbackResult (α : Type) : Type := Except BoxError α

/-- All errors that sockd can produce. -/
inductive Error
  | io (err : IoError)
  | missingCallback (name : String)
  | invalidFrameMagic (magic : UInt32)
  | unsupportedFrameVersion (version : UInt8)
  | unknownFrameKind (kind : UInt8)
  | unexpectedFrameKind (expected actual : String)
  | payloadTooLarge (len max : Nat)
  | daemonAlreadyRunning (pid : Option UInt32) (socket : Option Path)
  | readyTimeout (socket : Path) (timeout : Duration)
  | shutdownTimeout (socket : Path) (timeout : Duration)
  | daemonReturnedError (message : String)
  | startup (err : BoxError)
  | request (err : BoxError)
  | shutdown (err : BoxError)
  deriving DecidableEq

end Sockd
