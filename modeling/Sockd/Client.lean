import Sockd.Config
import Sockd.Socket

/-!
# The client (`client.rs`, `process.rs`)
-/

namespace Sockd

open Rust Effects

variable {S : Type}

/-- `process::spawn_detached`. -/
def spawnDetached (autoStart : AutoStart) : SysTry S Unit :=
  (spawn autoStart.program autoStart.args).mapErr .io

/-- `matches_recoverable_connect_error`. -/
def matchesRecoverableConnectError (err : IoError) : Bool :=
  err.kind = .notFound || err.kind = .connectionRefused || err.kind = .connectionAborted ||
    err.kind = .notConnected

/-- `can_attempt_recovery`. -/
def canAttemptRecovery : Error → Bool
  | .io err => matchesRecoverableConnectError err
  | _ => false

/-- `String::from_utf8_lossy(&frame.payload).into_owned()`. -/
def lossyText (payload : Bytes) : String := String.ofList (Bytes.lossy payload)

namespace Client

/-- Write one frame, read one frame. -/
def roundTrip (c : Client) (stream : Stream) (kind : FrameKind) (payload : Bytes) :
    SysTry S Frame := do
  writeFrame stream.writer kind payload
  readFrame stream.reader c.maxPayloadLen

/-- What `send_request_once` makes of the reply. -/
def responseOf (frame : Frame) : Except Error Bytes :=
  match frame.kind with
  | .response => .ok frame.payload
  | .error => .error (.daemonReturnedError (lossyText frame.payload))
  | other => .error (.unexpectedFrameKind FrameKind.response.label other.label)

/-- What `try_ping_once` makes of the reply. -/
def pongOf (frame : Frame) : Except Error Unit :=
  match frame.kind with
  | .pong => .ok ()
  | other => .error (.unexpectedFrameKind FrameKind.pong.label other.label)

/-- `Client::send_request_once`; the stream is dropped at the end. -/
def sendRequestOnce (c : Client) (payload : Bytes) : SysTry S Bytes := do
  let stream ← (Socket.connect c.socketPath).mapErr .io
  Try.ensuring (do
    let frame ← c.roundTrip stream .request payload
    Try.ofExcept (responseOf frame)) (closeStream stream)

/-- `Client::try_ping_once`. -/
def tryPingOnce (c : Client) : SysTry S Unit := do
  let stream ← (Socket.connect c.socketPath).mapErr .io
  Try.ensuring (do
    let frame ← c.roundTrip stream .ping []
    Try.ofExcept (pongOf frame)) (closeStream stream)

/-- `Client::pid_file_points_to_live_process`. -/
def pidFilePointsToLiveProcess (c : Client) : SysTry S Bool :=
  match c.pidFile with
  | none => pure false
  | some pidFile => do
    match ← readPid pidFile with
    | some pid => Try.lift (isProcessAlive pid)
    | none => return false

/-- One round of the loop of `wait_for_ready`. -/
def readyRound (c : Client) (autoStart : AutoStart) (deadline : Instant) (backoff : Duration) :
    SysTry S (Duration ⊕ Unit) := do
  match ← c.tryPingOnce.attempt with
  | .ok () => return .inr ()
  | .error err =>
    if canAttemptRecovery err then
      let t ← Try.lift now
      if t.before deadline then
        Try.lift (sleep backoff)
        return .inl ((backoff.saturatingMul 2).min autoStart.maxBackoff)
      else Try.fail (.readyTimeout c.socketPath autoStart.readyTimeout)
    else Try.fail err

/-- `Client::wait_for_ready`. -/
def waitForReady (c : Client) (autoStart : AutoStart) : SysTry S Unit := do
  let start ← Try.lift now
  let deadline ← Try.lift (addInstant start autoStart.readyTimeout)
  Try.repeating (c.readyRound autoStart deadline) autoStart.initialBackoff

/-- `Client::recover_if_needed`. -/
def recoverIfNeeded (c : Client) (err : Error) : SysTry S Unit :=
  match c.autoStart with
  | none => Try.fail err
  | some autoStart =>
    if canAttemptRecovery err then do
      if ← c.pidFilePointsToLiveProcess then pure () else spawnDetached autoStart
      c.waitForReady autoStart
    else Try.fail err

/-- `Client::ping`. -/
def ping (c : Client) : SysTry S Unit := do
  match ← c.tryPingOnce.attempt with
  | .ok () => return ()
  | .error err => c.recoverIfNeeded err

/-- `Client::request`. -/
def request (c : Client) (payload : Bytes) : SysTry S Bytes := do
  match ← (c.sendRequestOnce payload).attempt with
  | .ok response => return response
  | .error err =>
    c.recoverIfNeeded err
    c.sendRequestOnce payload

/-- `Client::shutdown_complete`. -/
def shutdownComplete (c : Client) : SysTry S Bool := do
  let socketGone ← (do
    match ← (Fs.metadata c.socketPath).attempt with
    | .ok () => return false
    | .error err =>
      if err.kind = .notFound then return true
      else Try.fail (.io err))
  if socketGone then
    let live ← c.pidFilePointsToLiveProcess
    return !live
  else return false

/-- One round of the loop of `wait_for_shutdown`. -/
def shutdownRound (c : Client) (deadline : Instant) : SysTry S (Unit ⊕ Unit) := do
  if ← c.shutdownComplete then return .inr ()
  else
    let t ← Try.lift now
    if t.before deadline then
      Try.lift (sleep (.fromMillis 20))
      return .inl ()
    else Try.fail (.shutdownTimeout c.socketPath c.shutdownTimeout)

/-- `Client::wait_for_shutdown`. -/
def waitForShutdown (c : Client) : SysTry S Unit := do
  let start ← Try.lift now
  let deadline ← Try.lift (addInstant start c.shutdownTimeout)
  Try.repeating (fun _ => c.shutdownRound deadline) ()

/-- `Client::should_treat_connect_error_as_not_running`. -/
def shouldTreatConnectErrorAsNotRunning (c : Client) (err : IoError) : SysTry S Bool :=
  if matchesRecoverableConnectError err then do
    let live ← c.pidFilePointsToLiveProcess
    return !live
  else pure false

/-- What `shutdown` makes of the reply, before it waits. -/
def shutdownAckOf (frame : Frame) : Except Error Unit :=
  match frame.kind with
  | .shutdownAck => .ok ()
  | .error => .error (.daemonReturnedError (lossyText frame.payload))
  | other => .error (.unexpectedFrameKind FrameKind.shutdownAck.label other.label)

/-- `Client::shutdown`; the stream is dropped after the wait. -/
def shutdown (c : Client) : SysTry S Bool := do
  match ← (Socket.connect c.socketPath).attempt with
  | .ok stream =>
    Try.ensuring (do
      let frame ← c.roundTrip stream .shutdown []
      Try.ofExcept (shutdownAckOf frame)
      c.waitForShutdown
      return true) (closeStream stream)
  | .error err =>
    if ← c.shouldTreatConnectErrorAsNotRunning err then return false
    else Try.fail (.io err)

end Client

end Sockd
