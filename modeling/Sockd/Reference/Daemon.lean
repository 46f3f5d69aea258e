import Sockd.Effects.Loop
import Sockd.Reference.Layout
import Sockd.Reference.ShortRead
import Sockd.Sys

/-!
# The reference daemon as a process (`reference/router-daemon.c`)

`Router` has what the daemon computes. Here is what it does: `main` from the environment to
the exit code, with the calls it makes to its surroundings, as a program over `daemonSig`.
A call's answer is what the source looks at, so a result that the source throws away is not
in the answer. The lines on standard error are left out, with `G.start_time` and the calls
of `time` that only they need.

A signal handler stores into `G.running` at any time; it is `signalled`, the load of
`G.running` by the loop, that answers whether one has.
-/

namespace Sockd.Reference

open C Effects Prog

/-- `SOCKET_PATH`. -/
def socketPath : String := "/tmp/ios-skills-router.sock"

/-- `PID_PATH`. -/
def pidPath : String := "/tmp/ios-skills-router.pid"

/-- `IDLE_TIMEOUT_SECS`. -/
def idleTimeoutSecs : Int := 300

/-- `SIGKILL`. -/
def SIGKILL : Nat := 9

/-- What `select` returned: the listener is ready, nothing came in time, or an error, `EINTR`
or another. -/
inductive Selected
  | ready | timedOut | interrupted | failed
  deriving DecidableEq, Repr

/-- What `read` delivers (`none` when it fails), and the stack it meets. -/
structure Received where
  bytes : Option { d : Bytes // d.length ≤ requestHeaderSize }
  stack : { d : Bytes // d.length = requestHeaderSize }
  contentBuf : Buffer

/-- As a connection that finds this directory. -/
def Received.connection (received : Received) (dir : Dir) : Connection :=
  { received := received.bytes, stack := received.stack, contentBuf := received.contentBuf
    dir := dir }

/-- The calls of the daemon. -/
inductive DaemonOp
  | getenv (name : String)
  | openPidFile
  | scanPidFile
  | closePidFile
  | kill (pid : Int) (signal : Nat)
  | usleep (usecs : Nat)
  | readSkills (dir : Str)
  | sigaction (signal : Nat)
  | unlink (path : String)
  | socket
  | bindSocket (path : String)
  | listen (backlog : Nat)
  | closeServer
  | createPidFile
  | getpid
  | writePidText (text : Bytes)
  | closeNewPidFile
  | time
  | signalled
  | select (secs : Nat)
  | accept
  | read
  | write (bytes : Bytes)
  | closeClient
  deriving DecidableEq

/-- What each call answers. -/
@[reducible] def DaemonAns : DaemonOp → Type
  | .getenv _ => Option Str
  | .openPidFile => Bool
  | .scanPidFile => Bytes
  | .closePidFile => Unit
  | .kill _ _ => Bool
  | .usleep _ => Unit
  | .readSkills _ => Dir
  | .sigaction _ => Unit
  | .unlink _ => Unit
  | .socket => Bool
  | .bindSocket _ => Bool
  | .listen _ => Bool
  | .closeServer => Unit
  | .createPidFile => Bool
  | .getpid => Nat
  | .writePidText _ => Unit
  | .closeNewPidFile => Unit
  | .time => Int
  | .signalled => Bool
  | .select _ => Selected
  | .accept => Bool
  | .read => Received
  | .write _ => Unit
  | .closeClient => Unit

/-- The interface of the daemon. -/
@[reducible] def daemonSig : Sig := ⟨DaemonOp, DaemonAns⟩

namespace Daemon

/-- The calls that were made, with their answers. -/
abbrev Trace : Type := List (Effects.Event daemonSig)

/-! ## Calls -/

/-- Make one call. -/
abbrev perform (op : DaemonOp) : Prog daemonSig (DaemonAns op) := @Prog.ask daemonSig op

abbrev getenv (name : String) : Prog daemonSig (Option Str) := perform (.getenv name)

abbrev openPidFile : Prog daemonSig Bool := perform .openPidFile

abbrev scanPidFile : Prog daemonSig Bytes := perform .scanPidFile

abbrev closePidFile : Prog daemonSig Unit := perform .closePidFile

abbrev kill (pid : Int) (signal : Nat) : Prog daemonSig Bool := perform (.kill pid signal)

abbrev usleep (usecs : Nat) : Prog daemonSig Unit := perform (.usleep usecs)

abbrev readSkills (dir : Str) : Prog daemonSig Dir := perform (.readSkills dir)

abbrev sigaction (signal : Nat) : Prog daemonSig Unit := perform (.sigaction signal)

abbrev unlink (path : String) : Prog daemonSig Unit := perform (.unlink path)

abbrev socket : Prog daemonSig Bool := perform .socket

abbrev bindSocket (path : String) : Prog daemonSig Bool := perform (.bindSocket path)

abbrev listen (backlog : Nat) : Prog daemonSig Bool := perform (.listen backlog)

abbrev closeServer : Prog daemonSig Unit := perform .closeServer

abbrev createPidFile : Prog daemonSig Bool := perform .createPidFile

abbrev getpid : Prog daemonSig Nat := perform .getpid

abbrev writePidText (text : Bytes) : Prog daemonSig Unit := perform (.writePidText text)

abbrev closeNewPidFile : Prog daemonSig Unit := perform .closeNewPidFile

abbrev time : Prog daemonSig Int := perform .time

abbrev signalled : Prog daemonSig Bool := perform .signalled

abbrev select (secs : Nat) : Prog daemonSig Selected := perform (.select secs)

abbrev accept : Prog daemonSig Bool := perform .accept

abbrev read : Prog daemonSig Received := perform .read

abbrev write (bytes : Bytes) : Prog daemonSig Unit := perform (.write bytes)

abbrev closeClient : Prog daemonSig Unit := perform .closeClient

/-! ## PID file -/

/-- `isspace`. -/
def isSpace (b : UInt8) : Bool := b = 0x20 ∨ 0x09 ≤ b ∧ b ≤ 0x0d

/-- `isdigit`. -/
def isDigit (b : UInt8) : Bool := 0x30 ≤ b ∧ b ≤ 0x39

/-- The value of decimal digits, after the ones that came to `acc`. -/
def digitsValue (acc : Nat) (digits : Bytes) : Nat :=
  digits.foldl (fun acc b => acc * 10 + (b.toNat - 0x30)) acc

/-- The number that `strtol` makes of one: the nearest `long`. -/
def clampLong (v : Int) : Int := max (-2 ^ 63) (min (2 ^ 63 - 1) v)

/-- `fscanf(f, "%d", &n)`: white space, a sign, digits. -/
def scanInt (text : Bytes) : Option Int :=
  let text := text.dropWhile isSpace
  let sign : Int := if text.headD 0 = 0x2d then -1 else 1
  let text := if text.headD 0 = 0x2d ∨ text.headD 0 = 0x2b then text.tail else text
  let digits := text.takeWhile isDigit
  if digits = [] then none else some (int (clampLong (sign * digitsValue 0 digits)))

/-- `fprintf(f, "%d\n", pid)`. -/
def pidText (pid : Nat) : Bytes := Bytes.encode (Nat.toDigits 10 pid ++ ['\n'])

/-- `write_pid_file`. What `fprintf` puts into the buffer of the stream is written when
`fclose` empties it, just before the file is closed. -/
def writePidFile : Prog daemonSig Unit := do
  if ← createPidFile then
    let pid ← getpid
    writePidText (pidText pid)
    closeNewPidFile

/-- What `kill_stale_daemon` does about the process in the PID file: ask it to stop, wait
100 ms, and kill it if it is still there. -/
def killProcess (oldPid : Int) : Prog daemonSig Unit := do
  if ← kill oldPid 0 then
    let _ ← kill oldPid SIGTERM
    usleep 100000
    if ← kill oldPid 0 then
      let _ ← kill oldPid SIGKILL
      usleep 50000

/-- What it does about the number that `fscanf` found. -/
def killScanned : Option Int → Prog daemonSig Unit
  | some oldPid => if oldPid > 0 then killProcess oldPid else pure ()
  | none => pure ()

/-- `kill_stale_daemon`. -/
def killStaleDaemon : Prog daemonSig Unit := do
  if ← openPidFile then
    let text ← scanPidFile
    killScanned (scanInt text)
    closePidFile

/-! ## Connections -/

/-- `setup_socket`: whether there is a socket. -/
def setupSocket : Prog daemonSig Bool := do
  unlink socketPath
  if ← socket then
    if ← bindSocket socketPath then
      if ← listen 5 then
        return true
      else
        closeServer
        unlink socketPath
        return false
    else
      closeServer
      return false
  else
    return false

/-- The skills directory under `G.plugin_root`. -/
def skillsDir (root : Str) : Str := (root ++ Str.lit "/skills").truncate (maxPathLen - 1)

/-- Send the content, if there is any. -/
def writeContent (body : Bytes) : Prog daemonSig Unit :=
  if body = [] then pure () else write body

/-- Send a response and close the connection. -/
def respond (resp : ResponseMsg) (body : Bytes) : Prog daemonSig Unit := do
  write resp.toMem
  writeContent body
  closeClient

/-- `process_connection`. -/
def processConnection (root : Str) (g : Router) : Prog daemonSig Router := do
  let g := g.counted
  let received ← read
  match (received.connection none).accepted with
  | none =>
    closeClient
    return g
  | some req =>
    match req.command? with
    | some .ping =>
      respond (.plain .matched) []
      return g
    | some .shutdown =>
      respond (.plain .matched) []
      return { g with running := false }
    | some .reload =>
      let dir ← readSkills (skillsDir root)
      let g := reload g dir
      respond (.plain .matched) []
      return g
    | none =>
      let served := route g (received.connection none) req
      match served.reply with
      | some (resp, body) =>
        respond resp body
        return served.state
      | none => return served.state

/-! ## `main` -/

/-- How the process ends. -/
inductive Exit
  | success | failure
  deriving DecidableEq, Repr

/-- One round of the `while` of `main`, with `last_activity`. -/
def eventRound (root : Str) : Router × Int → Prog daemonSig ((Router × Int) ⊕ Router)
  | (g, lastActivity) => do
    let signalled ← signalled
    let g := if signalled then { g with running := false } else g
    if g.running then
      match ← select 30 with
      | .failed => return .inr g
      | .interrupted => return .inl (g, lastActivity)
      | .timedOut =>
        let now ← time
        if now - lastActivity > idleTimeoutSecs then return .inr g
        else return .inl (g, lastActivity)
      | .ready =>
        if ← accept then
          let lastActivity ← time
          let g ← processConnection root g
          return .inl (g, lastActivity)
        else return .inl (g, lastActivity)
    else return .inr g

/-- What `main` does after the loop. -/
def cleanShutdown (g : Router) : Prog daemonSig (Exit × Router) := do
  closeServer
  unlink socketPath
  unlink pidPath
  return (.success, unloadAllSkills g)

/-- `main` from the event loop on. -/
def serve (root : Str) (g : Router) : Prog daemonSig (Exit × Router) := do
  let lastActivity ← time
  .loop (eventRound root) (g, lastActivity) cleanShutdown

/-- `main` with a plugin root. -/
def run (root : Str) : Prog daemonSig (Exit × Router) := do
  killStaleDaemon
  let dir ← readSkills (skillsDir root)
  let g := boot dir
  sigaction SIGINT
  sigaction SIGTERM
  if ← setupSocket then
    writePidFile
    serve root g
  else return (.failure, g)

/-- The plugin root in the environment. -/
def pluginRoot : Prog daemonSig (Option Str) := do
  match ← getenv "CLAUDE_PLUGIN_ROOT" with
  | some root => return some root
  | none => getenv "PLUGIN_ROOT"

/-- `main`. -/
def main : Prog daemonSig (Exit × Router) := do
  match ← pluginRoot with
  | some root => run (root.truncate (maxPathLen - 1))
  | none => return (.failure, Router.init)

end Daemon

end Sockd.Reference
