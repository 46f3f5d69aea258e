import Sockd.Error

/-!
# The texts of errors (`Display for Error` in `error.rs`)

A path is known by its components here, and is displayed as it was given, so the text of a
path is an argument.
-/

namespace Rust

/-- The digits of `n / 10 ^ w` behind the point, without zeros at the end. -/
def fractionDigits : Nat → Nat → List Char
  | 0, _ => []
  | w + 1, n => if n = 0 then [] else (n / 10 ^ w).digitChar :: fractionDigits w (n % 10 ^ w)

/-- `fmt_decimal`. -/
def fmtDecimal (integer fraction width : Nat) (suffix : String) : String :=
  let digits := fractionDigits width fraction
  toString integer ++ (if digits = [] then "" else "." ++ String.ofList digits) ++ suffix

/-- `Debug for Duration`. -/
def Duration.debug (d : Duration) : String :=
  let secs := d.nanos / nanosPerSec
  let nanos := d.nanos % nanosPerSec
  if secs > 0 then fmtDecimal secs nanos 9 "s"
  else if nanos ≥ 1000000 then fmtDecimal (nanos / 1000000) (nanos % 1000000) 6 "ms"
  else if nanos ≥ 1000 then fmtDecimal (nanos / 1000) (nanos % 1000) 3 "µs"
  else fmtDecimal nanos 0 0 "ns"

/-- `{:08x}`. -/
def hex8 (n : Nat) : String :=
  let digits := Nat.toDigits 16 n
  String.ofList (List.replicate (8 - digits.length) '0' ++ digits)

example : (Duration.fromMillis 2500).debug = "2.5s" := by decide

end Rust

namespace Sockd

open Rust

/-- `Error::fmt`. -/
def Error.display (pathText : Path → String) : Error → String
  | .io err => err.message
  | .missingCallback name => "missing required callback: " ++ name
  | .invalidFrameMagic magic => "invalid frame magic: 0x" ++ hex8 magic.toNat
  | .unsupportedFrameVersion version => "unsupported frame version: " ++ toString version.toNat
  | .unknownFrameKind kind => "unknown frame kind: " ++ toString kind.toNat
  | .unexpectedFrameKind expected actual =>
    "unexpected frame kind: expected " ++ expected ++ ", got " ++ actual
  | .payloadTooLarge len max =>
    "payload length " ++ toString len ++ " exceeds maximum " ++ toString max
  | .daemonAlreadyRunning (some pid) (some socket) =>
    "daemon already running with pid " ++ toString pid.toNat ++ " on socket " ++ pathText socket
  | .daemonAlreadyRunning (some pid) none =>
    "daemon already running with pid " ++ toString pid.toNat
  | .daemonAlreadyRunning none (some socket) =>
    "daemon already running on socket " ++ pathText socket
  | .daemonAlreadyRunning none none => "daemon already running"
  | .readyTimeout socket timeout =>
    "daemon did not become ready on " ++ pathText socket ++ " within " ++ timeout.debug
  | .shutdownTimeout socket timeout =>
    "daemon did not shut down on " ++ pathText socket ++ " within " ++ timeout.debug
  | .daemonReturnedError message => "daemon returned error: " ++ message
  | .startup err => "daemon startup failed: " ++ err
  | .request err => "request handler failed: " ++ err
  | .shutdown err => "daemon shutdown failed: " ++ err

end Sockd
