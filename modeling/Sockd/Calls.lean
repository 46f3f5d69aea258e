import Sockd.Client
import Sockd.Lifecycle

/-!
# Which calls a function makes

The calls that the daemon makes while it serves (`ServeOp`), over its whole run
without a PID file (`DaemonOp`), those of a client that talks to a daemon or waits
for one (`TalkOp`), and all that a client makes (`ClientOp`), as predicates that hold of
every call whatever the answers. What is not among the calls of a function cannot happen
while it runs.
-/

namespace Sockd

open Rust Effects Effects.Prog

variable {S : Type}

theorem allCalls_readFrame {E : Sig} {A : E.Op → Prop} (r : Reader E) (maxPayloadLen : Nat)
    (hA : ∀ n, A (r.op n)) : AllCalls A (readFrame r maxPayloadLen).run := by
  refine Try.allCalls_bind (Try.allCalls_mapErr (allCalls_readExact r _ hA)) fun buf => ?_
  refine Try.allCalls_bind (allCalls_ret _) fun header => ?_
  rw [Try.run_ite]
  split
  next => trivial
  next =>
    exact Try.allCalls_bind (Try.allCalls_mapErr (allCalls_readExact r _ hA)) fun _ => trivial

theorem allCalls_writeFrame {E : Sig} {A : E.Op → Prop} (w : Writer E) (kind : FrameKind)
    (payload : Bytes) (hA : ∀ buf, A (w.op buf)) (hflush : AllCalls A w.flush.run) :
    AllCalls A (writeFrame w kind payload).run := by
  unfold writeFrame writeFrameWithFlags
  rw [Try.run_ite]
  split
  next => trivial
  next =>
    refine Try.allCalls_bind (Try.allCalls_mapErr (allCalls_writeAll w _ hA)) fun _ => ?_
    refine Try.allCalls_bind (Try.allCalls_mapErr (allCalls_writeAll w _ hA)) fun _ => ?_
    exact Try.allCalls_mapErr hflush

/-! ## The daemon -/

/-- The calls of `process_connection`. -/
def ConnOp : Op S → Prop
  | .read _ _ | .write _ _ | .closeStream _ | .onRequest _ _ => True
  | _ => False

/-- The calls of a round of the accept loop. -/
def AcceptOp : Op S → Prop
  | .now | .accept _ | .streamNonblocking _ _ | .read _ _ | .write _ _ | .closeStream _
  | .onRequest _ _ => True
  | _ => False

/-- The calls of the event loop. -/
def ServeOp : Op S → Prop
  | .now | .loadFlag | .poll _ _ | .accept _ | .streamNonblocking _ _ | .read _ _ | .write _ _
  | .closeStream _ | .onRequest _ _ => True
  | _ => False

theorem ConnOp.acceptOp (op : Op S) (h : ConnOp op) : AcceptOp op := by
  cases op <;> trivial

theorem AcceptOp.serveOp (op : Op S) (h : AcceptOp op) : ServeOp op := by
  cases op <;> trivial

theorem allCalls_reply {stream : Stream} {kind : FrameKind} {payload : Bytes}
    {outcome : ConnectionOutcome} :
    AllCalls ConnOp (reply stream kind payload outcome : SysTry S _).run :=
  Try.allCalls_bind (allCalls_writeFrame _ _ _ (fun _ => trivial) (allCalls_ret _))
    fun _ => trivial

theorem allCalls_dispatch {stream : Stream} {state : S} {frame : Frame} :
    AllCalls ConnOp (dispatch stream state frame) := by
  unfold dispatch
  split
  next => exact allCalls_reply.bind fun _ => trivial
  next => exact allCalls_reply.bind fun _ => trivial
  next =>
    refine ⟨trivial, fun b => ?_⟩
    obtain ⟨result, state'⟩ := b
    cases result with
    | ok response =>
      show AllCalls ConnOp
        ((reply stream .response response .continue).run.bind fun r => .ret (r, state'))
      exact allCalls_reply.bind fun _ => trivial
    | error err =>
      show AllCalls ConnOp
        ((reply stream .error (messageBytes err) .continue).run.bind fun r => .ret (r, state'))
      exact allCalls_reply.bind fun _ => trivial
  next =>
    -- the text of the message plays no part, and is long
    generalize messageBytes _ = payload
    exact allCalls_reply.bind fun _ => trivial

theorem allCalls_processConnection {config : DaemonConfig} {stream : Stream} {state : S} :
    AllCalls ConnOp (processConnection config stream state) := by
  refine AllCalls.bind ?_ fun out => ⟨trivial, fun _ => trivial⟩
  refine AllCalls.bind (allCalls_readFrame _ _ fun _ => trivial) fun r => ?_
  cases r with
  | ok frame => exact allCalls_dispatch
  | error err => trivial

theorem allCalls_acceptRound {config : DaemonConfig} {listener : Nat} {x : Instant × S} :
    AllCalls AcceptOp (acceptRound config listener x) := by
  refine ⟨trivial, fun a => ?_⟩
  cases a with
  | error err =>
    show @AllCalls (sysSig S) AcceptOp _ (if err.kind = .wouldBlock then _ else _)
    split <;> trivial
  | ok stream =>
    refine ⟨trivial, fun b => ?_⟩
    cases b with
    | error err => exact ⟨trivial, fun _ => trivial⟩
    | ok u =>
      refine ⟨trivial, fun t => ?_⟩
      show AllCalls AcceptOp ((processConnection config stream x.2).bind _)
      refine AllCalls.bind (allCalls_processConnection.mono ConnOp.acceptOp) fun out => ?_
      obtain ⟨outcome, state⟩ := out
      cases outcome with
      | ok o => cases o <;> trivial
      | error err => trivial

theorem allCalls_eventRound {config : DaemonConfig} {listener : Nat} {x : Instant × S} :
    AllCalls ServeOp (eventRound config listener x) := by
  refine ⟨trivial, fun (b : Bool) => ?_⟩
  cases b with
  | true => trivial
  | false =>
    refine ⟨trivial, fun (t : Instant) => ?_⟩
    show @AllCalls (sysSig S) ServeOp _ (if Duration.isZero _ = true then _ else _)
    split
    next => trivial
    next =>
      refine AllCalls.bind ?_ fun r => ?_
      · refine Try.allCalls_bind (Try.allCalls_attempt ⟨trivial, fun _ => trivial⟩) fun r => ?_
        split
        next => trivial
        next => rw [Try.run_ite]; split <;> trivial
      · cases r with
        | error err => trivial
        | ok ready =>
          cases ready with
          | false => trivial
          | true =>
            have hdrain : AllCalls ServeOp (acceptLoop config listener x.1 x.2) :=
              ⟨fun _ => allCalls_acceptRound.mono AcceptOp.serveOp, fun _ => trivial⟩
            refine AllCalls.bind hdrain fun d => ?_
            cases d <;> trivial

theorem allCalls_runEventLoop {config : DaemonConfig} {listener : Nat} {state : S} :
    AllCalls ServeOp (runEventLoop config listener state) :=
  ⟨trivial, fun _ => ⟨fun _ => allCalls_eventRound, fun _ => trivial⟩⟩

/-- The calls of a daemon that has no PID file, or has claimed it. -/
def DaemonOp (path : Path) (op : Op S) : Prop :=
  ServeOp op ∨ BindOp path op ∨ op = .onStart ∨ ∃ s, op = .onStop s

theorem allCalls_onStop {path : Path} {state : S} :
    AllCalls (DaemonOp path) (((onStop state).mapErr Error.shutdown) : SysTry S Unit).run :=
  Try.allCalls_mapErr ⟨.inr (.inr (.inr ⟨state, rfl⟩)), fun _ => trivial⟩

theorem allCalls_cleanup {path : Path} :
    AllCalls (BindOp path) (Socket.cleanup path : SysTry S Unit).run := by
  refine Try.allCalls_bind (Try.allCalls_attempt ⟨rfl, fun _ => trivial⟩) fun r => ?_
  split
  next => trivial
  next => rw [Try.run_ite]; split <;> trivial

/-- What `Daemon::run` does with its listener, once the event loop is over. -/
theorem allCalls_afterLoop {path : Path} {listener : Nat} {result : Except Error Unit} {state : S} :
    AllCalls (DaemonOp path) (do
      Try.lift (closeListener listener)
      let cleanupResult ← (Socket.cleanup path).attempt
      let stopResult ← ((onStop state).mapErr Error.shutdown).attempt
      Try.ofExcept result
      Try.ofExcept cleanupResult
      Try.ofExcept stopResult : SysTry S Unit).run := by
  have hbind : ∀ op : Op S, BindOp path op → DaemonOp path op := fun op h => .inr (.inl h)
  refine Try.allCalls_bind (Try.allCalls_lift ⟨hbind _ trivial, fun _ => trivial⟩) fun _ => ?_
  refine Try.allCalls_bind (Try.allCalls_attempt (allCalls_cleanup.mono hbind)) fun _ => ?_
  refine Try.allCalls_bind (Try.allCalls_attempt allCalls_onStop) fun _ => ?_
  refine Try.allCalls_bind (allCalls_ret _) fun _ => ?_
  exact Try.allCalls_bind (allCalls_ret _) fun _ => allCalls_ret _

theorem allCalls_runClaimed {config : DaemonConfig} :
    AllCalls (DaemonOp config.socketPath) (runClaimed config : SysTry S Unit).run := by
  have hbind : ∀ op : Op S, BindOp config.socketPath op → DaemonOp config.socketPath op :=
    fun op h => .inr (.inl h)
  refine Try.allCalls_bind (Try.allCalls_mapErr ⟨.inr (.inr (.inl rfl)), fun _ => trivial⟩) ?_
  intro state
  refine Try.allCalls_bind (Try.allCalls_attempt (Socket.allCalls_bind.mono hbind)) fun r => ?_
  cases r with
  | ok listener =>
    refine Try.allCalls_bind
      (Try.allCalls_lift (allCalls_runEventLoop.mono fun _ h => .inl h)) fun out => ?_
    exact allCalls_afterLoop
  | error err =>
    refine Try.allCalls_bind (Try.allCalls_attempt allCalls_onStop) fun r => ?_
    cases r <;> trivial

/-! ## The client -/

/-- The calls of one attempt to talk to the daemon at `path`. -/
def TryOp (path : Path) : Op S → Prop
  | .connect p => p = path
  | .read _ _ | .write _ _ | .closeStream _ => True
  | _ => False

/-- The calls of a client that talks to the daemon at `path`, or waits for it. -/
def TalkOp (path : Path) : Op S → Prop
  | .connect p => p = path
  | .read _ _ | .write _ _ | .closeStream _ | .now | .sleep _ | .panic => True
  | _ => False

theorem TryOp.talkOp {path : Path} (op : Op S) (h : TryOp path op) : TalkOp path op := by
  cases op with
  | connect p => exact h
  | read | write | closeStream => trivial
  | _ => exact h.elim

/-- The calls of a round of `wait_for_ready`. -/
def ReadyOp (path : Path) (op : Op S) : Prop := TryOp path op ∨ op = .now ∨ ∃ d, op = .sleep d

theorem ReadyOp.talkOp {path : Path} (op : Op S) (h : ReadyOp path op) : TalkOp path op := by
  rcases h with h | rfl | ⟨d, rfl⟩
  · exact TryOp.talkOp op h
  · trivial
  · trivial

namespace Client

variable {c : Client}

theorem allCalls_roundTrip {stream : Stream} {kind : FrameKind} {payload : Bytes} :
    AllCalls (TryOp c.socketPath) (c.roundTrip stream kind payload : SysTry S Frame).run :=
  Try.allCalls_bind (allCalls_writeFrame _ _ _ (fun _ => trivial) (allCalls_ret _))
    fun _ => allCalls_readFrame _ _ fun _ => trivial

theorem allCalls_sendRequestOnce {payload : Bytes} :
    AllCalls (TryOp c.socketPath) (c.sendRequestOnce payload : SysTry S Bytes).run := by
  refine Try.allCalls_bind (Try.allCalls_mapErr ⟨rfl, fun _ => trivial⟩) fun stream => ?_
  refine AllCalls.bind ?_ fun _ => ⟨trivial, fun _ => trivial⟩
  exact Try.allCalls_bind allCalls_roundTrip fun _ => allCalls_ret _

theorem allCalls_tryPingOnce :
    AllCalls (TryOp c.socketPath) (c.tryPingOnce : SysTry S Unit).run := by
  refine Try.allCalls_bind (Try.allCalls_mapErr ⟨rfl, fun _ => trivial⟩) fun stream => ?_
  refine AllCalls.bind ?_ fun _ => ⟨trivial, fun _ => trivial⟩
  exact Try.allCalls_bind allCalls_roundTrip fun _ => allCalls_ret _

theorem allCalls_addInstant {t : Instant} {d : Duration} :
    AllCalls (fun op : Op S => op = .panic) (addInstant t d : Sys S Instant) := by
  unfold addInstant
  split
  next => trivial
  next => exact ⟨rfl, fun b => nomatch b⟩

theorem allCalls_readyRound {autoStart : AutoStart} {deadline : Instant} {backoff : Duration} :
    AllCalls (ReadyOp c.socketPath) (c.readyRound autoStart deadline backoff : SysTry S _).run := by
  refine Try.allCalls_bind (Try.allCalls_attempt (allCalls_tryPingOnce.mono fun _ h => .inl h)) ?_
  intro r
  cases r with
  | ok u => trivial
  | error err =>
    show AllCalls _ (Try.run (if canAttemptRecovery err = true then _ else _))
    rw [Try.run_ite]
    split
    next =>
      refine Try.allCalls_bind (Try.allCalls_lift ⟨.inr (.inl rfl), fun _ => trivial⟩) fun t => ?_
      rw [Try.run_ite]
      split
      next =>
        exact Try.allCalls_bind
          (Try.allCalls_lift ⟨.inr (.inr ⟨_, rfl⟩), fun _ => trivial⟩) fun _ => trivial
      next => trivial
    next => trivial

theorem allCalls_waitForReady {autoStart : AutoStart} :
    AllCalls (TalkOp c.socketPath) (c.waitForReady autoStart : SysTry S Unit).run := by
  refine Try.allCalls_bind (Try.allCalls_lift ⟨trivial, fun _ => trivial⟩) fun start => ?_
  refine Try.allCalls_bind (Try.allCalls_lift ?_) fun deadline => ?_
  · refine allCalls_addInstant.mono fun op h => ?_
    rw [h]
    trivial
  refine ⟨fun backoff => (allCalls_readyRound.mono ReadyOp.talkOp).bind fun r => ?_, fun _ => trivial⟩
  cases r with
  | ok r => cases r <;> trivial
  | error err => trivial

end Client

/-- The calls of a client. -/
def ClientOp (c : Client) (op : Op S) : Prop :=
  TalkOp c.socketPath op ∨ (∃ path, c.pidFile = some path ∧ LookOp path op) ∨
    op = .metadata c.socketPath ∨
    ∃ autoStart, c.autoStart = some autoStart ∧ op = .spawn autoStart.program autoStart.args

theorem TalkOp.clientOp {c : Client} (op : Op S) (h : TalkOp c.socketPath op) : ClientOp c op :=
  .inl h

theorem TryOp.clientOp {c : Client} (op : Op S) (h : TryOp c.socketPath op) : ClientOp c op :=
  .inl (TryOp.talkOp op h)

/-- The calls of a client that waits for a daemon to end. -/
def WaitOp (c : Client) (op : Op S) : Prop :=
  op = .now ∨ op = .panic ∨ (∃ d, op = .sleep d) ∨ op = .metadata c.socketPath ∨
    ∃ path, c.pidFile = some path ∧ LookOp path op

/-- The calls of a round of `wait_for_shutdown`. -/
def GoneOp (c : Client) (op : Op S) : Prop :=
  op = .now ∨ (∃ d, op = .sleep d) ∨ op = .metadata c.socketPath ∨
    ∃ path, c.pidFile = some path ∧ LookOp path op

theorem GoneOp.waitOp {c : Client} (op : Op S) (h : GoneOp c op) : WaitOp c op :=
  h.imp id .inr

theorem WaitOp.clientOp {c : Client} (op : Op S) (h : WaitOp c op) : ClientOp c op := by
  rcases h with rfl | rfl | ⟨d, rfl⟩ | rfl | h
  · exact .inl trivial
  · exact .inl trivial
  · exact .inl trivial
  · exact .inr (.inr (.inl rfl))
  · exact .inr (.inl h)

namespace Client

variable {c : Client}

theorem allCalls_pidFilePointsToLiveProcess :
    AllCalls (fun op => ∃ path, c.pidFile = some path ∧ LookOp path op)
      (c.pidFilePointsToLiveProcess : SysTry S Bool).run := by
  unfold pidFilePointsToLiveProcess
  split
  next => trivial
  next path hp =>
    have hlook : ∀ op : Op S, LookOp path op → ∃ path, c.pidFile = some path ∧ LookOp path op :=
      fun op h => ⟨path, hp, h⟩
    refine Try.allCalls_bind (allCalls_readPid.mono hlook) fun r => ?_
    split
    next => exact Try.allCalls_lift (allCalls_isProcessAlive.mono hlook)
    next => trivial

theorem allCalls_recoverIfNeeded {err : Error} :
    AllCalls (ClientOp c) (c.recoverIfNeeded err : SysTry S Unit).run := by
  unfold recoverIfNeeded
  split
  next => trivial
  next autoStart ha =>
    rw [Try.run_ite]
    split
    next =>
      refine Try.allCalls_bind
        (allCalls_pidFilePointsToLiveProcess.mono fun _ h => .inr (.inl h)) fun live => ?_
      have hwait : AllCalls (ClientOp c) (c.waitForReady autoStart : SysTry S Unit).run :=
        allCalls_waitForReady.mono TalkOp.clientOp
      show AllCalls _ (Try.run (if live = true then _ else _))
      rw [Try.run_ite]
      split
      next => exact hwait
      next =>
        refine Try.allCalls_bind ?_ fun _ => hwait
        exact Try.allCalls_mapErr ⟨.inr (.inr (.inr ⟨autoStart, ha, rfl⟩)), fun _ => trivial⟩
    next => trivial

theorem allCalls_request {payload : Bytes} :
    AllCalls (ClientOp c) (c.request payload : SysTry S Bytes).run := by
  have hsend : AllCalls (ClientOp c) (c.sendRequestOnce payload : SysTry S Bytes).run :=
    allCalls_sendRequestOnce.mono TryOp.clientOp
  refine Try.allCalls_bind (Try.allCalls_attempt hsend) fun r => ?_
  cases r with
  | ok response => trivial
  | error err => exact Try.allCalls_bind allCalls_recoverIfNeeded fun _ => hsend

theorem allCalls_ping : AllCalls (ClientOp c) (c.ping : SysTry S Unit).run := by
  refine Try.allCalls_bind (Try.allCalls_attempt (allCalls_tryPingOnce.mono TryOp.clientOp)) ?_
  intro r
  cases r with
  | ok u => trivial
  | error err => exact allCalls_recoverIfNeeded

theorem allCalls_shutdownComplete :
    AllCalls (GoneOp c) (c.shutdownComplete : SysTry S Bool).run := by
  refine Try.allCalls_bind ?_ fun gone => ?_
  · refine Try.allCalls_bind
      (Try.allCalls_attempt ⟨.inr (.inr (.inl rfl)), fun _ => trivial⟩) fun r => ?_
    cases r with
    | ok u => trivial
    | error err =>
      show AllCalls _ (Try.run (if err.kind = .notFound then _ else _))
      rw [Try.run_ite]
      split <;> trivial
  · rw [Try.run_ite]
    split
    next =>
      refine Try.allCalls_bind (allCalls_pidFilePointsToLiveProcess.mono ?_) fun _ => trivial
      exact fun _ h => .inr (.inr (.inr h))
    next => trivial

theorem allCalls_shutdownRound {deadline : Instant} :
    AllCalls (GoneOp c) (c.shutdownRound deadline : SysTry S (Unit ⊕ Unit)).run := by
  refine Try.allCalls_bind allCalls_shutdownComplete fun done => ?_
  rw [Try.run_ite]
  split
  next => trivial
  next =>
    refine Try.allCalls_bind (Try.allCalls_lift ⟨.inl rfl, fun _ => trivial⟩) fun t => ?_
    rw [Try.run_ite]
    split
    next =>
      exact Try.allCalls_bind
        (Try.allCalls_lift ⟨.inr (.inl ⟨_, rfl⟩), fun _ => trivial⟩) fun _ => trivial
    next => trivial

theorem allCalls_waitForShutdown :
    AllCalls (WaitOp c) (c.waitForShutdown : SysTry S Unit).run := by
  refine Try.allCalls_bind (Try.allCalls_lift ⟨.inl rfl, fun _ => trivial⟩) fun start => ?_
  refine Try.allCalls_bind (Try.allCalls_lift ?_) fun deadline => ?_
  · exact allCalls_addInstant.mono fun op h => .inr (.inl h)
  refine ⟨fun _ => (allCalls_shutdownRound.mono GoneOp.waitOp).bind fun r => ?_, fun _ => trivial⟩
  cases r with
  | ok r => cases r <;> trivial
  | error err => trivial

theorem allCalls_shutdown : AllCalls (ClientOp c) (c.shutdown : SysTry S Bool).run := by
  refine Try.allCalls_bind (Try.allCalls_attempt ⟨.inl rfl, fun _ => trivial⟩) fun r => ?_
  cases r with
  | ok stream =>
    refine AllCalls.bind ?_ fun _ => ⟨.inl trivial, fun _ => trivial⟩
    refine Try.allCalls_bind (allCalls_roundTrip.mono TryOp.clientOp) fun frame => ?_
    refine Try.allCalls_bind (allCalls_ret _) fun _ => ?_
    exact Try.allCalls_bind (allCalls_waitForShutdown.mono WaitOp.clientOp) fun _ => trivial
  | error err =>
    refine Try.allCalls_bind ?_ fun notRunning => ?_
    · unfold shouldTreatConnectErrorAsNotRunning
      rw [Try.run_ite]
      split
      next =>
        exact Try.allCalls_bind
          (allCalls_pidFilePointsToLiveProcess.mono fun _ h => .inr (.inl h)) fun _ => trivial
      next => trivial
    · rw [Try.run_ite]
      split <;> trivial

end Client

end Sockd
