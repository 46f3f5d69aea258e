import Sockd.Client
import Sockd.Daemon
import Sockd.Effects.Asks

/-!
# No function goes round silently

Every loop of the library makes a call in each of its rounds, or is left. So a process that
has not ended stands before a call, whatever it has done (`Productive.stands`).
-/

namespace Sockd

open Rust Effects Effects.Prog

variable {S : Type}

/-! ## Loops of the standard library -/

theorem productive_readExact {E : Sig} (r : Reader E) (n : Nat) :
    Productive (r.readExact n).run := by
  refine ⟨fun acc => ⟨?_, fun y => ?_⟩, fun _ => trivial⟩
  · beta_reduce
    split
    next =>
      intro b
      show Productive (readNext acc (r.answer _ b))
      cases r.answer _ b with
      | ok d => simp only [readNext]; split <;> trivial
      | error e => simp only [readNext]; split <;> trivial
    next => trivial
  · beta_reduce
    split
    next => exact not_silent_call
    next =>
      rw [returns_ret_iff]
      rintro ⟨-, h⟩
      cases h

theorem productive_writeAll {E : Sig} (w : Writer E) (buf : Bytes) :
    Productive (w.writeAll buf).run := by
  refine ⟨fun buf => ⟨?_, fun y => ?_⟩, fun _ => trivial⟩
  · beta_reduce
    split
    next => trivial
    next =>
      intro b
      show Productive (writeNext buf (w.answer _ b))
      cases w.answer _ b with
      | ok k => simp only [writeNext]; split <;> trivial
      | error e => simp only [writeNext]; split <;> trivial
  · beta_reduce
    split
    next =>
      rw [returns_ret_iff]
      rintro ⟨-, h⟩
      cases h
    next => exact not_silent_call

theorem productive_readFrame {E : Sig} (r : Reader E) (maxPayloadLen : Nat) :
    Productive (readFrame r maxPayloadLen).run := by
  refine Try.productive_bind (Try.productive_mapErr (productive_readExact r _)) fun buf => ?_
  refine Try.productive_bind (show Productive (.ret _) from trivial) fun header => ?_
  rw [Try.run_ite]
  split
  next => trivial
  next =>
    exact Try.productive_bind (Try.productive_mapErr (productive_readExact r _)) fun _ => trivial

theorem productive_writeFrame {E : Sig} (w : Writer E) (kind : FrameKind) (payload : Bytes)
    (hflush : Productive w.flush.run) : Productive (writeFrame w kind payload).run := by
  unfold writeFrame writeFrameWithFlags
  rw [Try.run_ite]
  split
  next => trivial
  next =>
    refine Try.productive_bind (Try.productive_mapErr (productive_writeAll w _)) fun _ => ?_
    refine Try.productive_bind (Try.productive_mapErr (productive_writeAll w _)) fun _ => ?_
    exact Try.productive_mapErr hflush

/-- One call whose answer is handed on. -/
theorem productive_perform {op : Op S} : Productive (perform op) := fun _ => trivial

theorem productive_readPid {path : Path} : Productive (readPid path : SysTry S _).run := by
  refine Try.productive_bind (Try.productive_attempt (Try.productive_bind productive_perform ?_)) ?_
  · intro file
    refine Try.productive_bind productive_perform fun bytes => ?_
    split <;> trivial
  · intro r
    split
    next => trivial
    next => rw [Try.run_ite]; split <;> trivial

theorem productive_isProcessAlive {pid : UInt32} : Productive (isProcessAlive pid : Sys S _) := by
  intro b
  cases b <;> trivial

/-! ## The client -/

namespace Client

variable {c : Client}

theorem productive_roundTrip {stream : Stream} {kind : FrameKind} {payload : Bytes} :
    Productive (c.roundTrip stream kind payload : SysTry S Frame).run :=
  Try.productive_bind (productive_writeFrame _ _ _ trivial) fun _ => productive_readFrame _ _

theorem productive_converse {α : Type} (kind : FrameKind) (payload : Bytes)
    (answer : Frame → Except Error α) : Productive ((do
      let stream ← (Socket.connect c.socketPath).mapErr .io
      Try.ensuring (do
        let frame ← c.roundTrip stream kind payload
        Try.ofExcept (answer frame)) (closeStream stream)) : SysTry S α).run := by
  refine Try.productive_bind (Try.productive_mapErr productive_perform) fun stream => ?_
  refine Try.productive_ensuring ?_ productive_perform
  exact Try.productive_bind productive_roundTrip fun _ => trivial

theorem productive_pidFilePointsToLiveProcess :
    Productive (c.pidFilePointsToLiveProcess : SysTry S Bool).run := by
  unfold pidFilePointsToLiveProcess
  split
  next => trivial
  next path hp =>
    refine Try.productive_bind productive_readPid fun r => ?_
    split
    next => exact Try.productive_lift productive_isProcessAlive
    next => trivial

theorem productive_readyRound {autoStart : AutoStart} {deadline : Instant} {backoff : Duration} :
    Productive (c.readyRound autoStart deadline backoff : SysTry S _).run := by
  refine Try.productive_bind (Try.productive_attempt (productive_converse .ping [] pongOf)) ?_
  intro r
  cases r with
  | ok u => trivial
  | error err =>
    show Productive (Try.run (if canAttemptRecovery err = true then _ else _))
    rw [Try.run_ite]
    split
    next =>
      refine Try.productive_bind (Try.productive_lift productive_perform) fun t => ?_
      rw [Try.run_ite]
      split
      next => exact Try.productive_bind (Try.productive_lift productive_perform) fun _ => trivial
      next => trivial
    next => trivial

theorem productive_addInstant {t : Instant} {d : Duration} :
    Productive (addInstant t d : Sys S Instant) := by
  unfold addInstant
  split
  next => trivial
  next => exact fun b => nomatch b

theorem productive_waitForReady {autoStart : AutoStart} :
    Productive (c.waitForReady autoStart : SysTry S Unit).run := by
  refine Try.productive_bind (Try.productive_lift productive_perform) fun start => ?_
  refine Try.productive_bind (Try.productive_lift productive_addInstant) fun deadline => ?_
  exact Try.productive_repeating fun backoff => ⟨productive_readyRound, fun r => not_silent_call⟩

theorem productive_recoverIfNeeded {err : Error} :
    Productive (c.recoverIfNeeded err : SysTry S Unit).run := by
  unfold recoverIfNeeded
  split
  next => trivial
  next autoStart ha =>
    rw [Try.run_ite]
    split
    next =>
      refine Try.productive_bind productive_pidFilePointsToLiveProcess fun live => ?_
      show Productive (Try.run (if live = true then _ else _))
      rw [Try.run_ite]
      split
      next => exact productive_waitForReady
      next =>
        refine Try.productive_bind (Try.productive_mapErr productive_perform) fun _ => ?_
        exact productive_waitForReady
    next => trivial

theorem productive_request {payload : Bytes} :
    Productive (c.request payload : SysTry S Bytes).run := by
  have hsend : Productive (c.sendRequestOnce payload : SysTry S Bytes).run :=
    productive_converse .request payload responseOf
  refine Try.productive_bind (Try.productive_attempt hsend) fun r => ?_
  cases r with
  | ok response => trivial
  | error err => exact Try.productive_bind productive_recoverIfNeeded fun _ => hsend

theorem productive_ping : Productive (c.ping : SysTry S Unit).run := by
  refine Try.productive_bind (Try.productive_attempt (productive_converse .ping [] pongOf)) ?_
  intro r
  cases r with
  | ok u => trivial
  | error err => exact productive_recoverIfNeeded

theorem productive_shutdownComplete : Productive (c.shutdownComplete : SysTry S Bool).run := by
  refine Try.productive_bind ?_ fun gone => ?_
  · refine Try.productive_bind (Try.productive_attempt productive_perform) fun r => ?_
    cases r with
    | ok u => trivial
    | error err =>
      show Productive (Try.run (if err.kind = .notFound then _ else _))
      rw [Try.run_ite]
      split <;> trivial
  · rw [Try.run_ite]
    split
    next =>
      exact Try.productive_bind productive_pidFilePointsToLiveProcess fun _ => trivial
    next => trivial

theorem productive_shutdownRound {deadline : Instant} :
    Productive (c.shutdownRound deadline : SysTry S (Unit ⊕ Unit)).run := by
  refine Try.productive_bind productive_shutdownComplete fun done => ?_
  rw [Try.run_ite]
  split
  next => trivial
  next =>
    refine Try.productive_bind (Try.productive_lift productive_perform) fun t => ?_
    rw [Try.run_ite]
    split
    next => exact Try.productive_bind (Try.productive_lift productive_perform) fun _ => trivial
    next => trivial

theorem productive_waitForShutdown : Productive (c.waitForShutdown : SysTry S Unit).run := by
  refine Try.productive_bind (Try.productive_lift productive_perform) fun start => ?_
  refine Try.productive_bind (Try.productive_lift productive_addInstant) fun deadline => ?_
  exact Try.productive_repeating fun _ => ⟨productive_shutdownRound, fun r => not_silent_call⟩

theorem productive_shutdown : Productive (c.shutdown : SysTry S Bool).run := by
  refine Try.productive_bind (Try.productive_attempt productive_perform) fun r => ?_
  cases r with
  | ok stream =>
    refine Try.productive_ensuring ?_ productive_perform
    refine Try.productive_bind productive_roundTrip fun frame => ?_
    refine Try.productive_bind (show Productive (.ret _) from trivial) fun _ => ?_
    exact Try.productive_bind productive_waitForShutdown fun _ => trivial
  | error err =>
    refine Try.productive_bind ?_ fun notRunning => ?_
    · unfold shouldTreatConnectErrorAsNotRunning
      rw [Try.run_ite]
      split
      next =>
        exact Try.productive_bind productive_pidFilePointsToLiveProcess fun _ => trivial
      next => trivial
    · rw [Try.run_ite]
      split <;> trivial

end Client

/-! ## The daemon -/

section Daemon

variable {config : DaemonConfig}

theorem productive_removeIfExists {path : Path} :
    Productive (removeIfExists path : SysTry S Unit).run := by
  refine Try.productive_bind (Try.productive_attempt productive_perform) fun r => ?_
  split
  next => trivial
  next => rw [Try.run_ite]; split <;> trivial

theorem productive_claim {path : Path} : Productive (PidGuard.claim path : SysTry S _).run := by
  have hreclaim : Productive (PidGuard.reclaim path : SysTry S Unit).run := by
    refine Try.productive_bind (Try.productive_lift productive_perform) fun there => ?_
    rw [Try.run_ite]
    split
    next =>
      refine Try.productive_bind productive_readPid fun pid => ?_
      split
      next =>
        refine Try.productive_bind (Try.productive_lift productive_isProcessAlive) ?_
        intro alive
        rw [Try.run_ite]
        split
        next => trivial
        next => exact productive_removeIfExists
      next => exact productive_removeIfExists
    next => trivial
  have hwrite : ∀ file, Productive (PidGuard.writePid file : SysTry S Unit).run := fun file =>
    Try.productive_bind (Try.productive_lift productive_perform) fun pid =>
      Try.productive_bind (Try.productive_mapErr (productive_writeAll _ _)) fun _ =>
        Try.productive_bind (Try.productive_mapErr (productive_writeAll _ _)) fun _ => trivial
  have hattempts : ∀ n, Productive (PidGuard.attempts path n : SysTry S _).run := by
    intro n
    induction n with
    | zero => exact Try.productive_bind productive_readPid fun _ => trivial
    | succ n ih =>
      refine Try.productive_bind hreclaim fun _ => ?_
      refine Try.productive_bind (Try.productive_attempt productive_perform) fun r => ?_
      split
      next => exact Try.productive_bind (hwrite _) fun _ => trivial
      next =>
        rw [Try.run_ite]
        split
        next => exact ih
        next => trivial
  unfold PidGuard.claim
  split
  next =>
    exact Try.productive_bind (Try.productive_mapErr productive_perform) fun _ => hattempts 3
  next => exact hattempts 3

theorem productive_bindSocket {path : Path} : Productive (Socket.bind path : SysTry S Nat).run := by
  have hreclaim : Productive (Socket.reclaim path : SysTry S Unit).run := by
    refine Try.productive_bind (Try.productive_lift productive_perform) fun there => ?_
    rw [Try.run_ite]
    split
    next =>
      refine Try.productive_bind (Try.productive_mapErr productive_perform) fun fileType => ?_
      rw [Try.run_ite]
      split
      next => trivial
      next =>
        refine Try.productive_bind (Try.productive_attempt productive_perform) fun r => ?_
        split
        next => exact Try.productive_bind (Try.productive_lift productive_perform) fun _ => trivial
        next =>
          rw [Try.run_ite]
          split
          next => exact Try.productive_mapErr productive_perform
          next => trivial
    next => trivial
  have hlisten : Productive (Socket.listen path : SysTry S Nat).run := by
    refine Try.productive_bind (Try.productive_mapErr productive_perform) fun listener => ?_
    refine Try.productive_bind (Try.productive_attempt productive_perform) fun r => ?_
    split
    next => trivial
    next => exact Try.productive_bind (Try.productive_lift productive_perform) fun _ => trivial
  have htail : Productive (do Socket.reclaim path; Socket.listen path : SysTry S Nat).run :=
    Try.productive_bind hreclaim fun _ => hlisten
  unfold Socket.bind
  split
  next => exact Try.productive_bind (Try.productive_mapErr productive_perform) fun _ => htail
  next => exact htail

theorem productive_processConnection {s : Stream} {state : S} :
    Productive (processConnection config s state) := by
  have hreply : ∀ kind payload outcome (state' : S), Productive
      ((reply s kind payload outcome : SysTry S _).run.bind fun r => .ret (r, state')) :=
    fun kind payload outcome state' => Productive.bind
      (Try.productive_bind (productive_writeFrame _ _ _ trivial) fun _ => trivial) fun _ => trivial
  refine Productive.bind ?_ fun out => productive_perform.bind fun _ => trivial
  refine Productive.bind (productive_readFrame _ _) fun r => ?_
  cases r with
  | error err => trivial
  | ok frame =>
    show Productive (dispatch s state frame)
    unfold dispatch
    split
    next => exact hreply _ _ _ _
    next => exact hreply _ _ _ _
    next =>
      intro b
      obtain ⟨result, state'⟩ := b
      cases result with
      | ok response => exact hreply .response response .continue state'
      | error err => exact hreply .error (messageBytes err) .continue state'
    next => exact hreply _ _ _ _

theorem productive_acceptRound {listener : Nat} {x : Instant × S} :
    Productive (acceptRound config listener x) := by
  intro a
  cases a with
  | error err =>
    show @Productive (sysSig S) _ (if err.kind = .wouldBlock then _ else _)
    split <;> trivial
  | ok stream =>
    intro b
    cases b with
    | error err => exact fun _ => trivial
    | ok u =>
      intro t
      show Productive ((processConnection config stream x.2).bind _)
      refine Productive.bind productive_processConnection fun out => ?_
      obtain ⟨outcome, state⟩ := out
      cases outcome with
      | ok o => cases o <;> trivial
      | error err => trivial

theorem productive_eventRound {listener : Nat} {x : Instant × S} :
    Productive (eventRound config listener x) := by
  intro (b : Bool)
  cases b with
  | true => trivial
  | false =>
    intro (t : Instant)
    show @Productive (sysSig S) _ (if Duration.isZero _ = true then _ else _)
    split
    next => trivial
    next =>
      refine Productive.bind ?_ fun r => ?_
      · refine Try.productive_bind (Try.productive_attempt productive_perform) fun r => ?_
        split
        next => trivial
        next => rw [Try.run_ite]; split <;> trivial
      · cases r with
        | error err => trivial
        | ok ready =>
          cases ready with
          | false => trivial
          | true =>
            refine Productive.bind ?_ fun d => ?_
            · exact ⟨fun _ => ⟨productive_acceptRound, fun _ => not_silent_call⟩, fun _ => trivial⟩
            · cases d <;> trivial

theorem productive_runClaimed : Productive (runClaimed config : SysTry S Unit).run := by
  have hstop : ∀ s : S, Productive ((onStop s).mapErr Error.shutdown : SysTry S Unit).run :=
    fun s => Try.productive_mapErr productive_perform
  refine Try.productive_bind (Try.productive_mapErr productive_perform) fun state => ?_
  refine Try.productive_bind (Try.productive_attempt productive_bindSocket) fun r => ?_
  cases r with
  | error err =>
    refine Try.productive_bind (Try.productive_attempt (hstop state)) fun r => ?_
    cases r <;> trivial
  | ok listener =>
    refine Try.productive_bind (Try.productive_lift ?_) fun out => ?_
    · exact fun _ =>
        ⟨fun _ => ⟨productive_eventRound, fun _ => not_silent_call⟩, fun _ => trivial⟩
    refine Try.productive_bind (Try.productive_lift productive_perform) fun _ => ?_
    refine Try.productive_bind (Try.productive_attempt productive_removeIfExists) fun _ => ?_
    refine Try.productive_bind (Try.productive_attempt (hstop out.2)) fun _ => ?_
    refine Try.productive_bind (show Productive (.ret _) from trivial) fun _ => ?_
    exact Try.productive_bind (show Productive (.ret _) from trivial) fun _ => trivial

theorem productive_runDaemon : Productive (runDaemon config : SysTry S Unit).run := by
  refine Try.productive_bind ?_ fun _ => ?_
  · exact Try.productive_bind (Try.productive_mapErr productive_perform)
      fun _ => Try.productive_mapErr productive_perform
  split
  next path hp =>
    refine Try.productive_bind productive_claim fun guard => ?_
    exact Try.productive_ensuring productive_runClaimed (productive_perform.bind fun _ => trivial)
  next => exact productive_runClaimed

end Daemon

end Sockd
