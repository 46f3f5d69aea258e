import Sockd.EventLoop

/-!
# The daemon from start to end

`Daemon::run` around its event loop, as a statement about the ledger after each of
its traces (`RunInv`): no connection is served before `on_start` has returned a
state, the state goes through the calls of the connections in the order of their
acceptance, and `on_stop` gets what the last of them left.
-/

namespace Sockd

open Rust Effects Effects.Prog

variable {S : Type}

/-! ## The calls outside the event loop -/

/-- The calls that look at the PID file `path`, and at the process it names. -/
def LookOp (path : Path) : Op S → Prop
  | .openFile p => p = path
  | .readFile _ | .kill _ => True
  | _ => False

/-- The calls of `pidfile.rs` on the PID file `path`. -/
def PidOp (path : Path) : Op S → Prop
  | .createDirAll p => path.parent? = some p
  | .pathExists p | .openFile p | .removeFile p | .createNew p => p = path
  | .readFile _ | .writeFile _ _ | .processId | .kill _ => True
  | _ => False

theorem LookOp.pidOp {path : Path} (op : Op S) (h : LookOp path op) : PidOp path op := by
  cases op <;> first | exact h | exact h.elim

theorem allCalls_readPid {path : Path} : AllCalls (LookOp path) (readPid path : SysTry S _).run := by
  refine Try.allCalls_bind (Try.allCalls_attempt (Try.allCalls_bind ⟨rfl, fun _ => trivial⟩ ?_)) ?_
  · intro file
    refine Try.allCalls_bind ⟨trivial, fun _ => trivial⟩ ?_
    intro bytes
    split <;> trivial
  · intro r
    split
    next => trivial
    next => rw [Try.run_ite]; split <;> trivial

theorem allCalls_isProcessAlive {path : Path} {pid : UInt32} :
    AllCalls (LookOp path) (isProcessAlive pid : Sys S _) := by
  refine ⟨trivial, fun b => ?_⟩
  cases b <;> trivial

theorem allCalls_removeIfExists_of {A : Op S → Prop} {path : Path} (hremove : A (.removeFile path)) :
    AllCalls A (removeIfExists path : SysTry S _).run := by
  refine Try.allCalls_bind (Try.allCalls_attempt ⟨hremove, fun _ => trivial⟩) ?_
  intro r
  split
  next => trivial
  next => rw [Try.run_ite]; split <;> trivial

theorem allCalls_removeIfExists {path : Path} :
    AllCalls (PidOp path) (removeIfExists path : SysTry S _).run := allCalls_removeIfExists_of rfl

namespace PidGuard

/-- `reclaim` looks at the path, and may remove it. -/
theorem allCalls_reclaim_of {A : Op S → Prop} {path : Path} (hexists : A (.pathExists path))
    (hlook : ∀ op, LookOp path op → A op) (hremove : A (.removeFile path)) :
    AllCalls A (reclaim path : SysTry S _).run := by
  refine Try.allCalls_bind (Try.allCalls_lift ⟨hexists, fun _ => trivial⟩) ?_
  intro there
  rw [Try.run_ite]
  split
  next =>
    refine Try.allCalls_bind (allCalls_readPid.mono hlook) ?_
    intro pid
    split
    next =>
      refine Try.allCalls_bind (Try.allCalls_lift (allCalls_isProcessAlive.mono hlook)) ?_
      intro alive
      rw [Try.run_ite]
      split
      next => trivial
      next => exact allCalls_removeIfExists_of hremove
    next => exact allCalls_removeIfExists_of hremove
  next => trivial

theorem allCalls_reclaim {path : Path} :
    AllCalls (PidOp path) (reclaim path : SysTry S _).run :=
  allCalls_reclaim_of rfl LookOp.pidOp rfl

theorem allCalls_writePid {path : Path} {file : Nat} :
    AllCalls (PidOp path) (writePid file : SysTry S _).run := by
  refine Try.allCalls_bind (Try.allCalls_lift ⟨trivial, fun _ => trivial⟩) fun pid => ?_
  refine Try.allCalls_bind (Try.allCalls_mapErr (allCalls_writeAll _ _ fun _ => trivial)) fun _ => ?_
  exact Try.allCalls_bind (Try.allCalls_mapErr (allCalls_writeAll _ _ fun _ => trivial))
    fun _ => trivial

theorem allCalls_attempts {path : Path} (n : Nat) :
    AllCalls (PidOp path) (attempts path n : SysTry S _).run := by
  induction n with
  | zero => exact Try.allCalls_bind (allCalls_readPid.mono LookOp.pidOp) fun _ => trivial
  | succ n ih =>
    refine Try.allCalls_bind allCalls_reclaim fun _ => ?_
    refine Try.allCalls_bind (Try.allCalls_attempt ⟨rfl, fun _ => trivial⟩) fun r => ?_
    split
    next => exact Try.allCalls_bind allCalls_writePid fun _ => trivial
    next =>
      rw [Try.run_ite]
      split
      next => exact ih
      next => trivial

theorem allCalls_claim {path : Path} : AllCalls (PidOp path) (claim path : SysTry S _).run := by
  unfold claim
  split
  next parent hp =>
    exact Try.allCalls_bind (Try.allCalls_mapErr ⟨hp, fun _ => trivial⟩) fun _ => allCalls_attempts 3
  next => exact allCalls_attempts 3

theorem allCalls_drop {guard : PidGuard} : AllCalls (PidOp guard.path) (guard.drop : Sys S _) :=
  ⟨rfl, fun _ => trivial⟩

end PidGuard

/-- The calls on the PID file leave the ledger alone. -/
theorem step_pidOp {path : Path} (L : Ledger S) (op : Op S) (b : Ans op) (h : PidOp path op) :
    L.step ⟨op, b⟩ = L := by
  cases op <;> first | rfl | exact h.elim

theorem allCalls_installShutdownFlag :
    AllCalls (fun op => ∃ n, op = Op.registerSignal n) (installShutdownFlag : SysTry S Unit).run :=
  Try.allCalls_bind (Try.allCalls_mapErr ⟨⟨_, rfl⟩, fun _ => trivial⟩)
    fun _ => Try.allCalls_mapErr ⟨⟨_, rfl⟩, fun _ => trivial⟩

/-- The calls of `socket::bind` on `path`. -/
def BindOp (path : Path) : Op S → Prop
  | .createDirAll p => path.parent? = some p
  | .pathExists p | .symlinkMetadata p | .connect p | .removeFile p | .bind p => p = path
  | .closeStream _ | .closeListener _ | .listenerNonblocking _ _ => True
  | _ => False

namespace Socket

theorem allCalls_reclaim {path : Path} :
    AllCalls (BindOp path) (reclaim path : SysTry S _).run := by
  refine Try.allCalls_bind (Try.allCalls_lift ⟨rfl, fun _ => trivial⟩) fun there => ?_
  rw [Try.run_ite]
  split
  next =>
    refine Try.allCalls_bind (Try.allCalls_mapErr ⟨rfl, fun _ => trivial⟩) fun fileType => ?_
    rw [Try.run_ite]
    split
    next => trivial
    next =>
      refine Try.allCalls_bind (Try.allCalls_attempt ⟨rfl, fun _ => trivial⟩) fun r => ?_
      split
      next =>
        exact Try.allCalls_bind (Try.allCalls_lift ⟨trivial, fun _ => trivial⟩) fun _ => trivial
      next =>
        rw [Try.run_ite]
        split
        next => exact Try.allCalls_mapErr ⟨rfl, fun _ => trivial⟩
        next => trivial
  next => trivial

theorem allCalls_listen {path : Path} : AllCalls (BindOp path) (listen path : SysTry S _).run := by
  refine Try.allCalls_bind (Try.allCalls_mapErr ⟨rfl, fun _ => trivial⟩) fun listener => ?_
  refine Try.allCalls_bind (Try.allCalls_attempt ⟨trivial, fun _ => trivial⟩) fun r => ?_
  split
  next => trivial
  next =>
    exact Try.allCalls_bind (Try.allCalls_lift ⟨trivial, fun _ => trivial⟩) fun _ => trivial

theorem allCalls_bind {path : Path} : AllCalls (BindOp path) (bind path : SysTry S _).run := by
  have htail : AllCalls (BindOp path) (do reclaim path; listen path : SysTry S _).run :=
    Try.allCalls_bind allCalls_reclaim fun _ => allCalls_listen
  unfold bind
  split
  next parent hp =>
    exact Try.allCalls_bind (Try.allCalls_mapErr ⟨hp, fun _ => trivial⟩) fun _ => htail
  next => exact htail

end Socket

/-! ## The whole run -/

/-- The connections are probes of `socket::bind`: opened, and nothing done on them. -/
def Probes (ps : List (Exchange S)) : Prop :=
  ∀ e ∈ ps, e.accepted = false ∧ e.received = [] ∧ e.sent = [] ∧ e.calls = []

/-- `socket::bind` only adds probes to the ledger. -/
theorem step_bindOp {path : Path} {L M : Ledger S} {op : Op S} (b : Ans op) (h : BindOp path op)
    (hM : ∃ ps, Probes ps ∧ M = L.withExchanges ps) :
    ∃ ps, Probes ps ∧ M.step ⟨op, b⟩ = L.withExchanges ps := by
  obtain ⟨ps, hps, rfl⟩ := hM
  cases op with
  | connect p =>
    cases b with
    | error err => exact ⟨ps, hps, rfl⟩
    | ok s =>
      refine ⟨{ stream := s, accepted := false } :: ps, ?_, rfl⟩
      intro e he
      rcases List.mem_cons.mp he with rfl | he
      · exact ⟨rfl, rfl, rfl, rfl⟩
      · exact hps e he
  | createDirAll | pathExists | symlinkMetadata | removeFile | bind | closeStream
    | closeListener | listenerNonblocking => exact ⟨ps, hps, rfl⟩
  | _ => exact h.elim

/-- The connections of an event loop that is over: all served, but for the newest,
which may have ended the loop. -/
inductive Finished (maxPayloadLen : Nat) (s₀ : S) : List (Exchange S) → S → Prop
  | served (es : List (Exchange S)) (s : S) : AllServed maxPayloadLen s₀ es s →
      Finished maxPayloadLen s₀ es s
  | last (e : Exchange S) (es : List (Exchange S)) (s₁ s : S)
      (r : Except Error ConnectionOutcome) : AllServed maxPayloadLen s₀ es s₁ → e.Ready →
      Served maxPayloadLen e r → Chain s₁ e.calls s → Finished maxPayloadLen s₀ (e :: es) s
  | unready (e : Exchange S) (es : List (Exchange S)) (s : S) (err : IoError) :
      AllServed maxPayloadLen s₀ es s → e.accepted = true → e.setup = some (.error err) →
      e.received = [] → e.sent = [] → e.calls = [] → Finished maxPayloadLen s₀ (e :: es) s

theorem Finished.inService {maxPayloadLen : Nat} {s₀ s : S} {es : List (Exchange S)}
    (h : Finished maxPayloadLen s₀ es s) : ∀ e ∈ es, InService maxPayloadLen e := by
  intro e he
  cases h with
  | served _ _ hall => exact (hall.forall e he).2.inService
  | last e' es s₁ _ r hall _ hserved _ =>
    rcases List.mem_cons.mp he with rfl | he
    · exact hserved.inService
    · exact (hall.forall e he).2.inService
  | unready e' es _ err hall _ _ _ hs hc =>
    rcases List.mem_cons.mp he with rfl | he
    · exact .waiting hs hc
    · exact (hall.forall e he).2.inService

theorem LoopEnd.finished {config : DaemonConfig} {L M : Ledger S} {s₀ s : S}
    {r : Except Error Unit} (h : LoopEnd config L s₀ M r s) :
    ∃ es, M.exchanges = es ++ L.exchanges ∧ Finished config.maxPayloadLen s₀ es s := by
  cases h with
  | flag es s hes hall _ => exact ⟨es, hes, .served es s hall⟩
  | idle es s _ _ hes hall _ _ _ => exact ⟨es, hes, .served es s hall⟩
  | shutdown e es s₁ s hes hall hr hserved hchain =>
    exact ⟨e :: es, hes, .last e es s₁ s _ hall hr hserved hchain⟩
  | failed e es s₁ s err hes hall hr hserved hchain =>
    exact ⟨e :: es, hes, .last e es s₁ s _ hall hr hserved hchain⟩
  | setup e es s err hes hall ha hset h₁ h₂ h₃ =>
    exact ⟨e :: es, hes, .unready e es s err hall ha hset h₁ h₂ h₃⟩
  | listener es s err hes hall _ => exact ⟨es, hes, .served es s hall⟩

/-- A daemon that has gone through its event loop, or failed to bind; `stopped` is
what `on_stop` was called with. -/
structure Over (maxPayloadLen : Nat) (M : Ledger S) (s₀ s : S) (stopped : List S) : Prop where
  started : M.started = [s₀]
  stopped : M.stopped = stopped
  connections : ∃ ps es, Probes ps ∧ M.exchanges = es ++ ps ∧ Finished maxPayloadLen s₀ es s

/-- Where a daemon stands. -/
inductive RunInv (maxPayloadLen : Nat) (M : Ledger S) : Prop
  | starting : M = {} → RunInv maxPayloadLen M
  | running (s₀ s : S) (ps cur es : List (Exchange S)) : M.started = [s₀] → M.stopped = [] →
      Probes ps → M.exchanges = cur ++ (es ++ ps) → AllServed maxPayloadLen s₀ es s →
      Current maxPayloadLen s cur → RunInv maxPayloadLen M
  | over (s₀ s : S) : Over maxPayloadLen M s₀ s [] → RunInv maxPayloadLen M
  | stopped (s₀ s : S) : Over maxPayloadLen M s₀ s [s] → RunInv maxPayloadLen M

/-- Where a daemon stands whose run is complete. -/
def RunDone (maxPayloadLen : Nat) (M : Ledger S) : Prop :=
  M = {} ∨ ∃ s₀ s, Over maxPayloadLen M s₀ s [s]

theorem RunDone.inv {maxPayloadLen : Nat} {M : Ledger S} (h : RunDone maxPayloadLen M) :
    RunInv maxPayloadLen M := by
  rcases h with h | ⟨s₀, s, h⟩
  · exact .starting h
  · exact .stopped s₀ s h

/-- Whatever was accepted is in service, or was. -/
theorem RunInv.inService {maxPayloadLen : Nat} {M : Ledger S} (h : RunInv maxPayloadLen M) :
    ∀ e ∈ M.exchanges, e.accepted = true → InService maxPayloadLen e := by
  have hover : ∀ {s₀ s : S} {l : List S}, Over maxPayloadLen M s₀ s l →
      ∀ e ∈ M.exchanges, e.accepted = true → InService maxPayloadLen e := by
    intro s₀ s l h e he ha
    obtain ⟨ps, es, hps, hes, hfin⟩ := h.connections
    rw [hes] at he
    rcases List.mem_append.mp he with he | he
    · exact hfin.inService e he
    · rw [(hps e he).1] at ha
      cases ha
  cases h with
  | starting hM => rw [hM]; intro e he; cases he
  | «over» s₀ s h => exact hover h
  | stopped s₀ s h => exact hover h
  | running s₀ s ps cur es _ _ hps hes hall hcur =>
    rw [hes]
    intro e he ha
    rcases List.mem_append.mp he with he | he
    · match cur, hcur with
      | [e'], hcur =>
        rw [List.mem_singleton.mp he]
        exact hcur.2.2.1
    · rcases List.mem_append.mp he with he | he
      · exact (hall.forall e he).2.inService
      · rw [(hps e he).1] at ha
        cases ha

/-- What a daemon opened is a probe. -/
theorem RunInv.probes {maxPayloadLen : Nat} {M : Ledger S} (h : RunInv maxPayloadLen M) :
    ∀ e ∈ M.exchanges, e.accepted = false → e.sent = [] := by
  have hall : ∀ {s₀ s : S} {es : List (Exchange S)}, AllServed maxPayloadLen s₀ es s →
      ∀ e ∈ es, e.accepted = false → e.sent = [] := by
    intro s₀ s es h e he ha
    rw [(h.forall e he).1.1] at ha
    cases ha
  have hover : ∀ {s₀ s : S} {l : List S}, Over maxPayloadLen M s₀ s l →
      ∀ e ∈ M.exchanges, e.accepted = false → e.sent = [] := by
    intro s₀ s l h e he ha
    obtain ⟨ps, es, hps, hes, hfin⟩ := h.connections
    rw [hes] at he
    rcases List.mem_append.mp he with he | he
    · cases hfin with
      | served es s h => exact hall h e he ha
      | last e' es s₁ _ r h hr _ _ =>
        rcases List.mem_cons.mp he with rfl | he
        · rw [hr.1] at ha
          cases ha
        · exact hall h e he ha
      | unready e' es _ err h hacc _ _ hs _ =>
        rcases List.mem_cons.mp he with rfl | he
        · exact hs
        · exact hall h e he ha
    · exact (hps e he).2.2.1
  cases h with
  | starting hM => rw [hM]; exact fun e he => nomatch he
  | «over» s₀ s h => exact hover h
  | stopped s₀ s h => exact hover h
  | running s₀ s ps cur es _ _ hps hes h hcur =>
    rw [hes]
    intro e he ha
    rcases List.mem_append.mp he with he | he
    · match cur, hcur with
      | [e'], hcur =>
        rw [List.mem_singleton.mp he, hcur.1] at ha
        cases ha
    · rcases List.mem_append.mp he with he | he
      · exact hall h e he ha
      · exact (hps e he).2.2.1

section Run

variable {config : DaemonConfig} {M : Ledger S} {s₀ s : S} {α : Type}

theorem LoopInv.run {ps : List (Exchange S)} (hps : Probes ps) {L : Ledger S}
    (hstarted : L.started = [s₀]) (hstopped : L.stopped = []) (hex : L.exchanges = ps)
    (h : LoopInv config.maxPayloadLen L s₀ M) : RunInv config.maxPayloadLen M := by
  obtain ⟨cur, es, s, hes, hall, hcur⟩ := h.connections
  rw [hex] at hes
  exact .running s₀ s ps cur es (h.started.trans hstarted) (h.stopped.trans hstopped) hps hes hall
    hcur

/-- The call of `on_stop`, with the state that the event loop left. -/
theorem onStop_spec (h : Over config.maxPayloadLen M s₀ s []) :
    Spec Ledger.step M (((onStop s).mapErr Error.shutdown) : SysTry S _).run
      (RunInv config.maxPayloadLen) (fun _ M' => Over config.maxPayloadLen M' s₀ s [s]) := by
  refine Spec.call (.over s₀ s h) fun b => ?_
  have h' : Over config.maxPayloadLen (M.step ⟨.onStop s, b⟩) s₀ s [s] := by
    refine ⟨h.started, ?_, h.connections⟩
    show M.stopped ++ [s] = [s]
    rw [h.stopped, List.nil_append]
  exact .ret (.stopped s₀ s h') h'

/-- What follows the event loop. -/
theorem afterLoop_spec {listener : Nat} {result : Except Error Unit}
    (h : Over config.maxPayloadLen M s₀ s []) :
    Spec Ledger.step M
      (do
        Try.lift (closeListener listener)
        let cleanupResult ← (Socket.cleanup config.socketPath).attempt
        let stopResult ← ((onStop s).mapErr Error.shutdown).attempt
        Try.ofExcept result
        Try.ofExcept cleanupResult
        Try.ofExcept stopResult : SysTry S Unit).run
      (RunInv config.maxPayloadLen) (fun _ => RunDone config.maxPayloadLen) := by
  refine Spec.lift (R := fun _ M' => M' = M) (Spec.ask (.over s₀ s h) fun _ => ⟨.over s₀ s h, rfl⟩) ?_
  intro _ M₁ _ hM₁
  obtain rfl : M = M₁ := hM₁.symm
  refine Spec.attempt ((Spec.still allCalls_removeIfExists step_pidOp).mono ?_ fun _ _ h => h) ?_
  · intro M' hM'
    exact hM' ▸ .over s₀ s h
  · intro cleanupResult M₁ _ hM₁
    obtain rfl : M = M₁ := hM₁.symm
    refine Spec.attempt (onStop_spec h) ?_
    intro stopResult M₂ hΦ hM₂
    have hdone : RunDone config.maxPayloadLen M₂ := .inr ⟨s₀, s, hM₂⟩
    -- nothing but returning the first of the three failures
    cases result with
    | error err => exact .ret hΦ hdone
    | ok u =>
      cases cleanupResult with
      | error err => exact .ret hΦ hdone
      | ok u => cases stopResult <;> exact .ret hΦ hdone

/-- `Daemon::run` with the PID file claimed, or without one. -/
theorem runClaimed_spec :
    Spec Ledger.step {} (runClaimed config : SysTry S Unit).run (RunInv config.maxPayloadLen)
      (fun _ => RunDone config.maxPayloadLen) := by
  refine Spec.next (R := fun s₀ M => M = { started := [s₀] }) ?_ ?_
  · refine Spec.call (.starting rfl) fun b => ?_
    cases b with
    | ok s₀ =>
      refine .ret (.running s₀ s₀ [] [] [] rfl rfl ?_ rfl rfl trivial) rfl
      intro e he
      cases he
    | error err => exact .ret (.starting rfl) (.inl rfl)
  · intro s₀ M _ hM
    obtain rfl := hM
    have hbind := Spec.keep (I := fun M : Ledger S => ∃ ps, Probes ps ∧
        M = Ledger.withExchanges { started := [s₀] } ps)
      (M := Ledger.step) (@Socket.allCalls_bind S config.socketPath)
      (fun _ op b hop hM => step_bindOp b hop hM) ⟨[], (fun e he => nomatch he), rfl⟩
    refine Spec.attempt (hbind.mono ?_ fun _ _ h => h) ?_
    · intro M hM
      obtain ⟨ps, hps, rfl⟩ := hM
      exact .running s₀ s₀ ps [] [] rfl rfl hps rfl rfl trivial
    · intro r M hΦ hM
      obtain ⟨ps, hps, rfl⟩ := hM
      cases r with
      | error err =>
        have hover : Over config.maxPayloadLen
            (Ledger.withExchanges { started := [s₀] } ps) s₀ s₀ [] :=
          ⟨rfl, rfl, ps, [], hps, rfl, .served [] s₀ rfl⟩
        refine Spec.attempt (onStop_spec hover) ?_
        intro stopResult M₂ hΦ hM₂
        cases stopResult <;> exact .ret hΦ (.inr ⟨s₀, s₀, hM₂⟩)
      | ok listener =>
        refine Spec.lift (R := fun out M => Over config.maxPayloadLen M s₀ out.2 [])
          ((runEventLoop_spec rfl).both.mono ?_ ?_) ?_
        · intro M hM
          exact hM.run hps rfl rfl rfl
        · intro out M hM
          obtain ⟨hinv, hend⟩ := hM
          obtain ⟨es, hes, hfin⟩ := hend.finished
          exact ⟨hinv.started, hinv.stopped, ps, es, hps, hes, hfin⟩
        · intro out M _ hM
          exact afterLoop_spec hM

/-- **`Daemon::run`**, whatever the answers: where the daemon stands at every
moment, and when it has returned. -/
theorem runDaemon_spec :
    Spec Ledger.step {} (runDaemon config : SysTry S Unit).run (RunInv config.maxPayloadLen)
      (fun _ => RunDone config.maxPayloadLen) := by
  have hstart : ∀ M : Ledger S, M = {} → RunInv config.maxPayloadLen M := fun M h => .starting h
  refine Spec.next (R := fun _ M => M = {})
    ((Spec.still allCalls_installShutdownFlag ?_).mono hstart ?_) ?_
  · intro M op b hop
    obtain ⟨n, rfl⟩ := hop
    rfl
  · intro r M hM
    cases r with
    | ok u => exact hM
    | error err => exact .inl hM
  · intro _ M _ hM
    obtain rfl := hM
    cases hp : config.pidFile with
    | none => exact runClaimed_spec
    | some path =>
      refine Spec.next (R := fun _ M => M = {})
        ((Spec.still PidGuard.allCalls_claim step_pidOp).mono hstart ?_) ?_
      · intro r M hM
        cases r with
        | ok guard => exact hM
        | error err => exact .inl hM
      · intro guard M _ hM
        obtain rfl := hM
        refine Spec.bind runClaimed_spec ?_
        intro r M hΦ hdone
        refine Spec.bind ((Spec.still PidGuard.allCalls_drop step_pidOp).mono ?_ fun _ _ h => h) ?_
        · intro M' hM'
          exact hM' ▸ hΦ
        · intro _ M' _ hM'
          obtain rfl : M' = M := hM'
          exact .ret hΦ hdone

end Run

end Sockd
