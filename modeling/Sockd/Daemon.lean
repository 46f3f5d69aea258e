import Sockd.Config
import Sockd.Socket

/-!
# The daemon (`daemon.rs`)

`Daemon::run` and what it calls. The callbacks are calls of the interface, so a
daemon is its configuration; the application state that the source passes by
`&mut` is an argument and part of the result.
-/

namespace Sockd

open Rust Effects

variable {S : Type}

/-- `ConnectionOutcome`. -/
inductive ConnectionOutcome
  | continue | shutdown
  deriving DecidableEq, Repr

/-- `install_shutdown_flag`. -/
def installShutdownFlag : SysTry S Unit := do
  (registerSignal SIGINT).mapErr .io
  (registerSignal SIGTERM).mapErr .io

/-- `i32::MAX`. -/
def i32Max : Nat := 2 ^ 31 - 1

/-- The `timeout_ms` that `poll_listener` computes. -/
def pollTimeoutMs (timeout : Duration) : Nat := min timeout.asMillis i32Max

/-- `poll_listener`. -/
def pollListener (listener : Nat) (timeout : Duration) : SysTry S Bool := do
  match ← (pollFd listener (pollTimeoutMs timeout)).attempt with
  | .ok p => return decide (0 < p.ready) && p.pollIn
  | .error err =>
    if err.kind = .interrupted then return false
    else Try.fail (.io err)

/-- `format!("unexpected frame kind: {other:?}")`. -/
def unexpectedKindMessage (kind : FrameKind) : String :=
  "unexpected frame kind: " ++ kind.debug

/-- `message.as_bytes()`. -/
def messageBytes (message : String) : Bytes := Bytes.encode message.toList

/-- Send one frame, then `outcome`. -/
def reply (stream : Stream) (kind : FrameKind) (payload : Bytes) (outcome : ConnectionOutcome) :
    SysTry S ConnectionOutcome := do
  writeFrame stream.writer kind payload
  return outcome

/-- The `match frame.kind` of `process_connection`. -/
def dispatch (stream : Stream) (state : S) (frame : Frame) :
    Sys S (Except Error ConnectionOutcome × S) :=
  match frame.kind with
  | .ping => do
    let r ← (reply stream .pong [] .continue).run
    return (r, state)
  | .shutdown => do
    let r ← (reply stream .shutdownAck [] .shutdown).run
    return (r, state)
  | .request => do
    let (result, state') ← onRequest state frame.payload
    match result with
    | .ok response =>
      let r ← (reply stream .response response .continue).run
      return (r, state')
    | .error err =>
      -- the source rewrites the error of this write to itself
      let r ← (reply stream .error (messageBytes err) .continue).run
      return (r, state')
  | other => do
    let r ← (reply stream .error (messageBytes (unexpectedKindMessage other)) .continue).run
    return (r, state)

/-- `Daemon::process_connection`, up to the drop of the stream. -/
def serveConnection (config : DaemonConfig) (stream : Stream) (state : S) :
    Sys S (Except Error ConnectionOutcome × S) := do
  match ← (readFrame stream.reader config.maxPayloadLen).run with
  | .ok frame => dispatch stream state frame
  | .error err => return (.error err, state)

/-- `Daemon::process_connection`; the stream is dropped on every way out. -/
def processConnection (config : DaemonConfig) (stream : Stream) (state : S) :
    Sys S (Except Error ConnectionOutcome × S) := do
  let out ← serveConnection config stream state
  closeStream stream
  return out

/-- How the accept loop ends: the backlog is drained, or the event loop is over. -/
inductive Drained (S : Type)
  | wouldBlock (lastActivity : Instant) (state : S)
  | over (result : Except Error Unit) (state : S)

/-- One round of the accept loop of `run_event_loop`. -/
def acceptRound (config : DaemonConfig) (listener : Nat) :
    Instant × S → Sys S ((Instant × S) ⊕ Drained S)
  | (lastActivity, state) => do
    match ← (acceptStream listener).run with
    | .ok stream =>
      match ← (setStreamNonblocking stream false).run with
      | .ok () =>
        let lastActivity ← now
        let (outcome, state) ← processConnection config stream state
        match outcome with
        | .ok .continue => return .inl (lastActivity, state)
        | .ok .shutdown => return .inr (.over (.ok ()) state)
        | .error err => return .inr (.over (.error err) state)
      | .error err =>
        closeStream stream
        return .inr (.over (.error (.io err)) state)
    | .error err =>
      if err.kind = .wouldBlock then return .inr (.wouldBlock lastActivity state)
      else return .inr (.over (.error (.io err)) state)

/-- The accept loop. -/
def acceptLoop (config : DaemonConfig) (listener : Nat) (lastActivity : Instant) (state : S) :
    Sys S (Drained S) :=
  .loop (acceptRound config listener) (lastActivity, state) .ret

/-- One round of the `while` of `run_event_loop`. -/
def eventRound (config : DaemonConfig) (listener : Nat) :
    Instant × S → Sys S ((Instant × S) ⊕ (Except Error Unit × S))
  | (lastActivity, state) => do
    if ← loadFlag then return .inr (.ok (), state)
    else
      let t ← now
      let idleRemaining := config.idleTimeout.saturatingSub (t.durationSince lastActivity)
      if idleRemaining.isZero then return .inr (.ok (), state)
      else
        let timeout := idleRemaining.min config.pollInterval
        match ← (pollListener listener timeout).run with
        | .error err => return .inr (.error err, state)
        | .ok false => return .inl (lastActivity, state)
        | .ok true =>
          match ← acceptLoop config listener lastActivity state with
          | .wouldBlock lastActivity state => return .inl (lastActivity, state)
          | .over result state => return .inr (result, state)

/-- `Daemon::run_event_loop`: the result, and the state it leaves. -/
def runEventLoop (config : DaemonConfig) (listener : Nat) (state : S) :
    Sys S (Except Error Unit × S) := do
  let lastActivity ← now
  .loop (eventRound config listener) (lastActivity, state) .ret

/-- What `Daemon::run` does once it holds the PID file, if it has one. -/
def runClaimed (config : DaemonConfig) : SysTry S Unit := do
  let state ← onStart.mapErr .startup
  match ← (Socket.bind config.socketPath).attempt with
  | .ok listener =>
    let (loopResult, state) ← Try.lift (runEventLoop config listener state)
    Try.lift (closeListener listener)
    let cleanupResult ← (Socket.cleanup config.socketPath).attempt
    let stopResult ← ((onStop state).mapErr Error.shutdown).attempt
    Try.ofExcept loopResult
    Try.ofExcept cleanupResult
    Try.ofExcept stopResult
  | .error err =>
    match ← ((onStop state).mapErr Error.shutdown).attempt with
    | .ok () => Try.fail err
    | .error stopErr => Try.fail stopErr

/-- `Daemon::run`; the guard of the PID file is dropped on every way out. -/
def runDaemon (config : DaemonConfig) : SysTry S Unit := do
  installShutdownFlag
  match config.pidFile with
  | some path =>
    let guard ← PidGuard.claim path
    (runClaimed config).ensuring guard.drop
  | none => runClaimed config

end Sockd
