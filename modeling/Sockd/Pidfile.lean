import Sockd.Sys

/-!
# The PID file (`pidfile.rs`)
-/

namespace Sockd

open Rust Effects

variable {S : Type}

/-! ## What `read_pid` makes of a text -/

/-- `char::is_whitespace`. -/
def isWhitespace (c : Char) : Bool :=
  let n := c.toNat
  (9 ≤ n && n ≤ 13) || n = 0x20 || n = 0x85 || n = 0xa0 || n = 0x1680 ||
    (0x2000 ≤ n && n ≤ 0x200a) || n = 0x2028 || n = 0x2029 || n = 0x202f || n = 0x205f ||
    n = 0x3000

/-- `str::trim`. -/
def trim (text : List Char) : List Char :=
  ((text.dropWhile isWhitespace).reverse.dropWhile isWhitespace).reverse

/-- `str::parse::<u32>`: an optional `+`, then digits, in range. -/
def parseU32 (text : List Char) : Option UInt32 :=
  let digits := match text with
    | '+' :: rest => rest
    | _ => text
  match Bytes.parseDigits digits with
  | some n => if n ≤ u32MaxNat then some (UInt32.ofNat n) else none
  | none => none
where
  /-- `u32::MAX`. -/
  u32MaxNat : Nat := 2 ^ 32 - 1

/-- The pid that a PID file with this text names. -/
def pidOfText (text : List Char) : Option UInt32 := parseU32 (trim text)

/-- What `writeln!(file, "{}", pid)` writes, in the pieces it writes. -/
def pidDigits (pid : UInt32) : Bytes := Bytes.encode (Nat.toDigits 10 pid.toNat)

/-- The line end of `writeln!`. -/
def newline : Bytes := Bytes.encode ['\n']

/-! ## The functions -/

/-- `read_pid`. -/
def readPid (path : Path) : SysTry S (Option UInt32) := do
  match ← (Fs.readToString path).attempt with
  | .ok content => return pidOfText content
  | .error err =>
    if err.kind = .notFound then return none
    else Try.fail (.io err)

/-- `is_process_alive`. `pid as i32` keeps the bits. -/
def isProcessAlive (pid : UInt32) : Sys S Bool := do
  match ← kill pid.toInt32.toInt with
  | .ok () => return true
  | .error errno => return errno == EPERM

/-- `remove_if_exists`. -/
def removeIfExists (path : Path) : SysTry S Unit := do
  match ← (Fs.removeFile path).attempt with
  | .ok () => return ()
  | .error err =>
    if err.kind = .notFound then return ()
    else Try.fail (.io err)

/-- `PidGuard`. -/
structure PidGuard where
  path : Path
  deriving DecidableEq

namespace PidGuard

/-- The part of an attempt that looks at a file that is there: fails if it names a
live process, else removes it. -/
def reclaim (path : Path) : SysTry S Unit := do
  if ← Try.lift (Fs.pathExists path) then
    match ← readPid path with
    | some pid =>
      if ← Try.lift (isProcessAlive pid) then
        Try.fail (.daemonAlreadyRunning (some pid) none)
      else removeIfExists path
    | none => removeIfExists path
  else return ()

/-- Write the pid into the new file. -/
def writePid (file : Nat) : SysTry S Unit := do
  let pid ← Try.lift processId
  ((Fs.fileWriter file).writeAll (pidDigits pid)).mapErr .io
  ((Fs.fileWriter file).writeAll newline).mapErr .io
  (Fs.fileWriter file).flush.mapErr .io

/-- `for _ in 0..3` of `PidGuard::claim`, with `n` attempts left. -/
def attempts (path : Path) : Nat → SysTry S PidGuard
  | 0 => do
    let pid ← readPid path
    Try.fail (.daemonAlreadyRunning pid none)
  | n + 1 => do
    reclaim path
    match ← (Fs.createNew path).attempt with
    | .ok file =>
      writePid file
      return { path }
    | .error err =>
      if err.kind = .alreadyExists then attempts path n
      else Try.fail (.io err)

/-- `PidGuard::claim`. -/
def claim (path : Path) : SysTry S PidGuard := do
  match path.parent? with
  | some parent => (Fs.createDirAll parent).mapErr .io
  | none => pure ()
  attempts path 3

/-- `impl Drop for PidGuard`. -/
def drop (guard : PidGuard) : Sys S Unit :=
  (Fs.removeFile guard.path).run.bind fun _ => .ret ()

end PidGuard

end Sockd
