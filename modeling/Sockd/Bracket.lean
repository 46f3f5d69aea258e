import Sockd.Calls

/-!
# The steps of a daemon's run and their clean-up

`FullRun` lists the complete runs of `Daemon::run` with a PID file: which steps ran,
what each of them did, and the outcomes in the order in which they decide what is
returned. `CallbackOrder` is what can be said of the callbacks at any moment, also of
a run that never ends: `on_stop` comes last, and only after an `on_start` that
succeeded.
-/

namespace Sockd

open Rust Effects Effects.Prog

variable {S : Type}

/-! ## The callbacks -/

/-- The call of a callback. -/
def isCallback : SysEvent S → Bool
  | ⟨.onStart, _⟩ | ⟨.onRequest _ _, _⟩ | ⟨.onStop _, _⟩ => true
  | _ => false

/-- The callbacks of a history. -/
def callbacks (h : History S) : History S := h.filter isCallback

/-- `e` is a call of `on_request`. -/
def IsRequest (e : SysEvent S) : Prop := ∃ s p a, e = ⟨.onRequest s p, a⟩

/-- `on_start` first; if it succeeds, `on_request` any number of times; then `on_stop`,
once. -/
inductive CallbackOrder : History S → Prop
  | none : CallbackOrder []
  | failed (err : BoxError) : CallbackOrder [⟨.onStart, .error err⟩]
  | started (s : S) (rs : History S) : (∀ e ∈ rs, IsRequest e) →
      CallbackOrder (⟨.onStart, .ok s⟩ :: rs)
  | stopped (s s' : S) (rs : History S) (r : CallbackResult Unit) : (∀ e ∈ rs, IsRequest e) →
      CallbackOrder (⟨.onStart, .ok s⟩ :: (rs ++ [⟨.onStop s', r⟩]))

/-- The callbacks of a run that is over: `on_stop` was called iff `on_start` succeeded. -/
inductive CallbacksDone : History S → Prop
  | none : CallbacksDone []
  | failed (err : BoxError) : CallbacksDone [⟨.onStart, .error err⟩]
  | stopped (s s' : S) (rs : History S) (r : CallbackResult Unit) : (∀ e ∈ rs, IsRequest e) →
      CallbacksDone (⟨.onStart, .ok s⟩ :: (rs ++ [⟨.onStop s', r⟩]))

theorem CallbacksDone.order {cs : History S} (h : CallbacksDone cs) : CallbackOrder cs := by
  cases h with
  | none => exact .none
  | failed err => exact .failed err
  | stopped s s' rs r hrs => exact .stopped s s' rs r hrs

/-- The monitor that keeps the callbacks. -/
def keepCallbacks (cs : History S) (e : SysEvent S) : History S :=
  if isCallback e then cs ++ [e] else cs

theorem foldl_keepCallbacks (cs h : History S) : h.foldl keepCallbacks cs = cs ++ callbacks h := by
  induction h generalizing cs with
  | nil => simp [callbacks]
  | cons e h ih =>
    rw [List.foldl_cons, ih, keepCallbacks, callbacks, callbacks, List.filter_cons]
    split
    next => rw [List.append_assoc, List.singleton_append]
    next => rfl

/-- A call that is none of the callbacks. -/
def NoCallback : Op S → Prop
  | .onStart | .onRequest _ _ | .onStop _ => False
  | _ => True

theorem keepCallbacks_other (cs : History S) (op : Op S) (b : Ans op) (h : NoCallback op) :
    keepCallbacks cs ⟨op, b⟩ = cs := by
  cases op <;> first | rfl | exact h.elim

theorem PidOp.noCallback {path : Path} (op : Op S) (h : PidOp path op) : NoCallback op := by
  cases op <;> trivial

theorem BindOp.noCallback {path : Path} (op : Op S) (h : BindOp path op) : NoCallback op := by
  cases op <;> trivial

theorem no_requests : ∀ e ∈ ([] : History S), IsRequest e := fun _ he => nomatch he

section Order

variable {config : DaemonConfig} {cs : History S} {s s' : S}

/-- The event loop adds requests. -/
theorem runEventLoop_callbacks {listener : Nat}
    (hcs : ∃ rs, (∀ e ∈ rs, IsRequest e) ∧ cs = ⟨.onStart, .ok s⟩ :: rs) :
    Spec keepCallbacks cs (runEventLoop config listener s')
      (fun cs => ∃ rs, (∀ e ∈ rs, IsRequest e) ∧ cs = ⟨.onStart, .ok s⟩ :: rs)
      (fun _ cs => ∃ rs, (∀ e ∈ rs, IsRequest e) ∧ cs = ⟨.onStart, .ok s⟩ :: rs) := by
  refine Spec.keep allCalls_runEventLoop ?_ hcs
  intro cs op b hop hcs
  obtain ⟨rs, hrs, rfl⟩ := hcs
  cases op with
  | onRequest st p =>
    refine ⟨rs ++ [⟨.onRequest st p, b⟩], fun e he => ?_, rfl⟩
    rcases List.mem_append.mp he with he | he
    · exact hrs e he
    · exact ⟨st, p, b, List.mem_singleton.mp he⟩
  | onStart | onStop => exact hop.elim
  | _ => exact ⟨rs, hrs, rfl⟩

/-- `on_stop` ends it. -/
theorem onStop_callbacks {rs : History S} (hrs : ∀ e ∈ rs, IsRequest e) :
    Spec keepCallbacks (⟨.onStart, .ok s⟩ :: rs)
      (((onStop s').mapErr Error.shutdown) : SysTry S Unit).run CallbackOrder
      (fun _ => CallbacksDone) := by
  refine Spec.call (.started s rs hrs) fun b => ?_
  have hdone : CallbacksDone (keepCallbacks (⟨.onStart, .ok s⟩ :: rs) ⟨.onStop s', b⟩) :=
    .stopped s s' rs b hrs
  exact .ret hdone.order hdone

/-- What follows the event loop. -/
theorem afterLoop_callbacks {listener : Nat} {result : Except Error Unit} {rs : History S}
    (hrs : ∀ e ∈ rs, IsRequest e) :
    Spec keepCallbacks (⟨.onStart, .ok s⟩ :: rs)
      (do
        Try.lift (closeListener listener)
        let cleanupResult ← (Socket.cleanup config.socketPath).attempt
        let stopResult ← ((onStop s').mapErr Error.shutdown).attempt
        Try.ofExcept result
        Try.ofExcept cleanupResult
        Try.ofExcept stopResult : SysTry S Unit).run CallbackOrder (fun _ => CallbacksDone) := by
  have hstarted : CallbackOrder (⟨.onStart, .ok s⟩ :: rs) := .started s rs hrs
  refine Spec.lift (R := fun _ cs => cs = ⟨.onStart, .ok s⟩ :: rs)
    (Spec.ask hstarted fun _ => ⟨hstarted, rfl⟩) ?_
  intro _ cs _ hcs
  subst hcs
  have hcleanup := Spec.still (M := keepCallbacks) (s := ⟨.onStart, .ok s⟩ :: rs)
    (@allCalls_cleanup S config.socketPath)
    fun cs op b hop => keepCallbacks_other cs op b (BindOp.noCallback op hop)
  refine Spec.attempt (hcleanup.mono (fun cs hcs => hcs ▸ hstarted) fun _ _ h => h) ?_
  intro cleanupResult cs _ hcs
  subst hcs
  refine Spec.attempt (onStop_callbacks hrs) ?_
  intro stopResult cs hΦ hdone
  cases result with
  | error err => exact .ret hΦ hdone
  | ok u =>
    cases cleanupResult with
    | error err => exact .ret hΦ hdone
    | ok u => cases stopResult <;> exact .ret hΦ hdone

theorem runClaimed_callbacks :
    Spec keepCallbacks [] (runClaimed config : SysTry S Unit).run CallbackOrder
      (fun _ => CallbacksDone) := by
  refine Spec.next (R := fun s cs => cs = [⟨.onStart, .ok s⟩]) ?_ ?_
  · refine Spec.call .none fun b => ?_
    cases b with
    | ok s => exact .ret (.started s [] no_requests) rfl
    | error err => exact .ret (.failed err) (.failed err)
  · intro s cs _ hcs
    subst hcs
    have hstarted : CallbackOrder [⟨.onStart, .ok s⟩] := .started s [] no_requests
    have hbind := Spec.still (M := keepCallbacks) (s := [⟨.onStart, .ok s⟩])
      (@Socket.allCalls_bind S config.socketPath)
      fun cs op b hop => keepCallbacks_other cs op b (BindOp.noCallback op hop)
    refine Spec.attempt (hbind.mono (fun cs hcs => hcs ▸ hstarted) fun _ _ h => h) ?_
    intro r cs hΦ hcs
    subst hcs
    cases r with
    | error err =>
      refine Spec.attempt (onStop_callbacks no_requests) ?_
      intro stopResult cs hΦ hdone
      cases stopResult <;> exact .ret hΦ hdone
    | ok listener =>
      have hloop := @runEventLoop_callbacks S config [⟨.onStart, .ok s⟩] s s listener
        ⟨[], no_requests, rfl⟩
      refine Spec.lift (hloop.mono ?_ fun _ _ h => h) ?_
      · intro cs hcs
        obtain ⟨rs, hrs, rfl⟩ := hcs
        exact .started s rs hrs
      · intro out cs _ hcs
        obtain ⟨rs, hrs, rfl⟩ := hcs
        exact afterLoop_callbacks hrs

end Order

/-! ## The complete runs -/

/-- The first failure of a list of outcomes. -/
def firstError : List (Except Error Unit) → Except Error Unit
  | [] => .ok ()
  | .ok () :: os => firstError os
  | .error e :: _ => .error e

theorem firstError_eq_ok {os : List (Except Error Unit)} :
    firstError os = .ok () ↔ ∀ o ∈ os, o = .ok () := by
  induction os with
  | nil => simp [firstError]
  | cons o os ih =>
    cases o with
    | ok u => simp [firstError, ih]
    | error e => simp [firstError]

/-- What `remove_if_exists` makes of an unlink. -/
def removed : Except IoError Unit → Except Error Unit
  | .ok _ => .ok ()
  | .error err => if err.kind = .notFound then .ok () else .error (.io err)

/-- The complete runs once the PID file is claimed: what the steps did, and their
outcomes, those first that come first in what is returned. -/
inductive ClaimedRun (config : DaemonConfig) : History S → List (Except Error Unit) → Prop
  | start (err : BoxError) : ClaimedRun config [⟨.onStart, .error err⟩] [.error (.startup err)]
  | bind {s : S} {hb : History S} {err : Error} {r : CallbackResult Unit} :
      Returns (Socket.bind config.socketPath : SysTry S Nat).run hb (.error err) →
      ClaimedRun config (⟨.onStart, .ok s⟩ :: (hb ++ [⟨.onStop s, r⟩]))
        [r.mapError .shutdown, .error err]
  | served {s s' : S} {hb hl : History S} {listener : Nat} {result : Except Error Unit}
      {a : Except IoError Unit} {r : CallbackResult Unit} :
      Returns (Socket.bind config.socketPath : SysTry S Nat).run hb (.ok listener) →
      Returns (runEventLoop config listener s) hl (result, s') →
      ClaimedRun config (⟨.onStart, .ok s⟩ :: (hb ++ hl ++
        [⟨.closeListener listener, ()⟩, ⟨.removeFile config.socketPath, a⟩, ⟨.onStop s', r⟩]))
        [result, removed a, r.mapError .shutdown]

/-- The PID file is claimed. -/
def Claimed (path : Path) (h : History S) : Prop :=
  ∃ h₁ h₂ guard, h = h₁ ++ h₂ ∧ Returns (installShutdownFlag : SysTry S Unit).run h₁ (.ok ()) ∧
    Returns (PidGuard.claim path : SysTry S PidGuard).run h₂ (.ok guard)

/-- The complete runs with the PID file `path`; a file that was claimed is unlinked at
the end. -/
inductive FullRun (config : DaemonConfig) (path : Path) :
    History S → List (Except Error Unit) → Prop
  | flag {h : History S} {e : Error} :
      Returns (installShutdownFlag : SysTry S Unit).run h (.error e) →
      FullRun config path h [.error e]
  | claim {h₁ h₂ : History S} {e : Error} :
      Returns (installShutdownFlag : SysTry S Unit).run h₁ (.ok ()) →
      Returns (PidGuard.claim path : SysTry S PidGuard).run h₂ (.error e) →
      FullRun config path (h₁ ++ h₂) [.error e]
  | claimed {h₀ h : History S} {os : List (Except Error Unit)} {a : Except IoError Unit} :
      Claimed path h₀ → ClaimedRun config h os →
      FullRun config path (h₀ ++ (h ++ [⟨.removeFile path, a⟩])) os

section Complete

variable {config : DaemonConfig} {path : Path} {h : History S} {r : Except Error Unit}

theorem removeIfExists_returns {o : Except Error Unit}
    (h₀ : Returns (removeIfExists path : SysTry S Unit).run h o) :
    ∃ a, h = [⟨.removeFile path, a⟩] ∧ o = removed a := by
  obtain ⟨a, t, rfl, hrest⟩ := returns_call_iff.mp h₀
  refine ⟨a, ?_⟩
  cases a with
  | ok u =>
    obtain ⟨rfl, rfl⟩ := returns_ret_iff.mp hrest
    exact ⟨rfl, rfl⟩
  | error err =>
    have hrest : Returns (Try.run (if err.kind = .notFound then pure ()
      else Try.fail (Error.io err) : SysTry S Unit)) t o := hrest
    rw [Try.run_ite] at hrest
    unfold removed
    split at hrest
    next hk =>
      obtain ⟨rfl, rfl⟩ := returns_ret_iff.mp hrest
      exact ⟨rfl, (if_pos hk).symm⟩
    next hk =>
      obtain ⟨rfl, rfl⟩ := returns_ret_iff.mp hrest
      exact ⟨rfl, (if_neg hk).symm⟩

theorem onStop_returns {s : S} {o : Except Error Unit}
    (h₀ : Returns ((onStop s).mapErr Error.shutdown : SysTry S Unit).run h o) :
    ∃ a, h = [⟨.onStop s, a⟩] ∧ o = a.mapError .shutdown := by
  obtain ⟨a, t, rfl, hrest⟩ := returns_call_iff.mp h₀
  obtain ⟨rfl, rfl⟩ := returns_ret_iff.mp hrest
  exact ⟨a, rfl, rfl⟩

/-- What follows the event loop. -/
theorem afterLoop_returns {listener : Nat} {result : Except Error Unit} {s : S}
    (h₀ : Returns (do
      Try.lift (closeListener listener)
      let cleanupResult ← (Socket.cleanup config.socketPath).attempt
      let stopResult ← ((onStop s).mapErr Error.shutdown).attempt
      Try.ofExcept result
      Try.ofExcept cleanupResult
      Try.ofExcept stopResult : SysTry S Unit).run h r) :
    ∃ a b, h = [⟨.closeListener listener, ()⟩, ⟨.removeFile config.socketPath, a⟩, ⟨.onStop s, b⟩] ∧
      r = firstError [result, removed a, b.mapError .shutdown] := by
  obtain ⟨_, t, rfl, hclosed⟩ := returns_call_iff.mp h₀
  rcases Try.returns_bind_iff.mp hclosed with ⟨_, -, hcleanup⟩ | ⟨u, v, o, rfl, hcleanup, hrest⟩
  · exact (Try.returns_attempt_error hcleanup).elim
  obtain ⟨a, rfl, rfl⟩ := removeIfExists_returns (Try.returns_attempt_iff.mp hcleanup)
  rcases Try.returns_bind_iff.mp hrest with ⟨_, -, hstop⟩ | ⟨w, x, o, rfl, hstop, hlast⟩
  · exact (Try.returns_attempt_error hstop).elim
  obtain ⟨b, rfl, rfl⟩ := onStop_returns (Try.returns_attempt_iff.mp hstop)
  refine ⟨a, b, ?_⟩
  -- the first of the three failures
  cases result with
  | error e =>
    obtain ⟨rfl, rfl⟩ := returns_ret_iff.mp hlast
    exact ⟨rfl, rfl⟩
  | ok u =>
    cases hr : removed a with
    | error e =>
      rw [hr] at hlast
      obtain ⟨rfl, rfl⟩ := returns_ret_iff.mp hlast
      exact ⟨rfl, rfl⟩
    | ok u =>
      rw [hr] at hlast
      obtain ⟨rfl, rfl⟩ := returns_ret_iff.mp hlast
      refine ⟨rfl, ?_⟩
      cases b <;> rfl

theorem runClaimed_returns (h₀ : Returns (runClaimed config : SysTry S Unit).run h r) :
    ∃ os, ClaimedRun config h os ∧ r = firstError os := by
  rcases Try.returns_bind_iff.mp h₀ with ⟨e, rfl, hstart⟩ | ⟨u, v, s, rfl, hstart, hrest⟩
  · obtain ⟨a, t, rfl, ha⟩ := returns_call_iff.mp hstart
    obtain ⟨rfl, he⟩ := returns_ret_iff.mp ha
    cases a with
    | ok s => cases he
    | error err =>
      injection he with he
      exact ⟨_, .start err, congrArg _ he.symm⟩
  obtain ⟨a, t, rfl, ha⟩ := returns_call_iff.mp hstart
  obtain ⟨rfl, he⟩ := returns_ret_iff.mp ha
  cases a with
  | error err => cases he
  | ok s' =>
    injection he with he
    obtain rfl : s' = s := he
    rcases Try.returns_bind_iff.mp hrest with ⟨_, -, hbind⟩ | ⟨hb, w, b, rfl, hbind, hafter⟩
    · exact (Try.returns_attempt_error hbind).elim
    have hbound := Try.returns_attempt_iff.mp hbind
    cases b with
    | ok listener =>
      rcases Try.returns_bind_iff.mp hafter with ⟨_, -, hloop⟩ | ⟨hl, x, out, rfl, hloop, hlast⟩
      · obtain ⟨_, _, _, -, -, hloop⟩ := Prog.returns_bind_iff.mp hloop
        cases (returns_ret_iff.mp hloop).2
      · obtain ⟨a, c, rfl, rfl⟩ := afterLoop_returns hlast
        have hrun : ClaimedRun config _ _ :=
          .served (a := a) (r := c) hbound (Try.returns_lift_iff.mp hloop)
        refine ⟨_, ?_, rfl⟩
        simpa using hrun
    | error err =>
      rcases Try.returns_bind_iff.mp hafter with ⟨_, -, hstop⟩ | ⟨x, y, o, rfl, hstop, hlast⟩
      · exact (Try.returns_attempt_error hstop).elim
      · obtain ⟨c, rfl, rfl⟩ := onStop_returns (Try.returns_attempt_iff.mp hstop)
        have hrun : ClaimedRun config _ _ := .bind (s := s') (r := c) hbound
        cases c with
        | ok u =>
          obtain ⟨rfl, rfl⟩ := returns_ret_iff.mp hlast
          exact ⟨_, by simpa using hrun, rfl⟩
        | error msg =>
          obtain ⟨rfl, rfl⟩ := returns_ret_iff.mp hlast
          exact ⟨_, by simpa using hrun, rfl⟩

theorem attempts_path {n : Nat} {guard : PidGuard} {h : History S}
    (h₀ : Returns (PidGuard.attempts path n : SysTry S PidGuard).run h (.ok guard)) :
    guard.path = path := by
  induction n generalizing h with
  | zero =>
    obtain ⟨_, _, _, -, -, hfail⟩ := Try.returns_bind_ok h₀
    cases (returns_ret_iff.mp hfail).2
  | succ n ih =>
    obtain ⟨_, _, _, -, -, hcreate⟩ := Try.returns_bind_ok h₀
    obtain ⟨_, v, created, -, -, hrest⟩ := Try.returns_bind_ok hcreate
    cases created with
    | ok file =>
      obtain ⟨_, _, _, -, -, hdone⟩ := Try.returns_bind_ok hrest
      injection (returns_ret_iff.mp hdone).2 with hguard
      exact (congrArg PidGuard.path hguard).symm
    | error err =>
      have hrest : Returns (Try.run (if err.kind = .alreadyExists then PidGuard.attempts path n
        else Try.fail (Error.io err) : SysTry S PidGuard)) v (.ok guard) := hrest
      rw [Try.run_ite] at hrest
      split at hrest
      next => exact ih hrest
      next => cases (returns_ret_iff.mp hrest).2

/-- The guard is that of the path it was asked for. -/
theorem claim_path {guard : PidGuard}
    (h₀ : Returns (PidGuard.claim path : SysTry S PidGuard).run h (.ok guard)) :
    guard.path = path := by
  unfold PidGuard.claim at h₀
  cases hparent : path.parent? with
  | none =>
    rw [hparent] at h₀
    exact attempts_path h₀
  | some parent =>
    rw [hparent] at h₀
    obtain ⟨_, _, _, -, -, hattempts⟩ := Try.returns_bind_ok h₀
    exact attempts_path hattempts

/-- The guard is dropped when the run is over, and at no other time. -/
theorem ensuring_traces {guard : PidGuard} (hguard : guard.path = path)
    (h₀ : Traces ((runClaimed config).ensuring guard.drop : SysTry S Unit).run h) :
    Traces (runClaimed config : SysTry S Unit).run h ∨
      ∃ u r a, h = u ++ [⟨.removeFile path, a⟩] ∧
        Returns (runClaimed config : SysTry S Unit).run u r := by
  rcases traces_bind_iff.mp h₀ with h₁ | ⟨u, v, r, rfl, hrun, hdrop⟩
  · exact .inl h₁
  · rcases traces_call_iff.mp hdrop with rfl | ⟨a, w, rfl, hrest⟩
    · rw [List.append_nil]
      exact .inl hrun.traces
    · obtain rfl := traces_ret_iff.mp hrest
      exact .inr ⟨u, r, a, by rw [← hguard], hrun⟩

theorem runDaemon_returns (hp : config.pidFile = some path)
    (h₀ : Returns (runDaemon config : SysTry S Unit).run h r) :
    ∃ os, FullRun config path h os ∧ r = firstError os := by
  rcases Try.returns_bind_iff.mp h₀ with ⟨e, rfl, hflag⟩ | ⟨h₁, v, _, rfl, hflag, hrest⟩
  · exact ⟨_, .flag hflag, rfl⟩
  rw [hp] at hrest
  rcases Try.returns_bind_iff.mp hrest with ⟨e, rfl, hclaim⟩ | ⟨h₂, w, guard, rfl, hclaim, hrun⟩
  · exact ⟨_, .claim hflag hclaim, rfl⟩
  obtain ⟨t, x, r', rfl, hclaimed, hdrop⟩ := Prog.returns_bind_iff.mp hrun
  obtain ⟨os, hos, rfl⟩ := runClaimed_returns hclaimed
  obtain ⟨a, y, rfl, hlast⟩ := returns_call_iff.mp hdrop
  obtain ⟨rfl, rfl⟩ := returns_ret_iff.mp hlast
  refine ⟨os, ?_, rfl⟩
  have hfull := FullRun.claimed (a := a) ⟨h₁, h₂, guard, rfl, hflag, hclaim⟩ hos
  rw [claim_path hclaim]
  rwa [List.append_assoc] at hfull

end Complete

/-! ## At any moment -/

/-- The PID file is not claimed yet, or claiming it has failed; or it is, and from then
on it is unlinked only when `on_stop` has returned or `on_start` has failed. If the
path is the socket's too, it can also be unlinked as that. -/
def KeepsPidFile (config : DaemonConfig) (path : Path) (h : History S) : Prop :=
  (∀ e ∈ h, PidOp path e.1 ∨ ∃ n, e.1 = .registerSignal n) ∨
  ∃ h₀ t, h = h₀ ++ t ∧ Claimed path h₀ ∧ ∀ t₁ a t₂, t = t₁ ++ ⟨.removeFile path, a⟩ :: t₂ →
    path = config.socketPath ∨
      (t₂ = [] ∧ ((∃ s r, ⟨.onStop s, r⟩ ∈ t₁) ∨ ∃ err, ⟨.onStart, .error err⟩ ∈ t₁))

/-- A complete run. -/
structure Completed (config : DaemonConfig) (path : Path) (h : History S) (r : Except Error Unit)
    (os : List (Except Error Unit)) : Prop where
  steps : FullRun config path h os
  result : r = firstError os
  ok_iff : r = .ok () ↔ ∀ o ∈ os, o = .ok ()
  stopped : CallbacksDone (callbacks h)

section Moment

variable {config : DaemonConfig} {path : Path} {h : History S} {r : Except Error Unit}

/-- A claimed run that is over has called `on_stop`, or its `on_start` had failed. -/
theorem ClaimedRun.over {os : List (Except Error Unit)} (hr : ClaimedRun config h os) :
    (∃ s r, ⟨.onStop s, r⟩ ∈ h) ∨ ∃ err, ⟨.onStart, .error err⟩ ∈ h := by
  cases hr with
  | start err => exact .inr ⟨err, List.mem_singleton_self _⟩
  | @bind s hb err r => exact .inl ⟨s, r, by simp⟩
  | @served s s' hb hl l result a r => exact .inl ⟨s', r, by simp⟩

/-- The event loop and what surrounds it unlink the socket path only. -/
theorem removes_socketPath (ht : Traces (runClaimed config : SysTry S Unit).run h)
    {p : Path} {a : Except IoError Unit} (hmem : ⟨.removeFile p, a⟩ ∈ h) :
    p = config.socketPath := by
  rcases allCalls_runClaimed.traces ht _ hmem with hop | hop | hop | ⟨s, hop⟩
  · exact hop.elim
  · exact hop
  · cases hop
  · cases hop

theorem runDaemon_keepsPidFile (hp : config.pidFile = some path)
    (h₀ : Traces (runDaemon config : SysTry S Unit).run h) : KeepsPidFile config path h := by
  have hflag : ∀ {t : History S}, Traces (installShutdownFlag : SysTry S Unit).run t →
      ∀ e ∈ t, PidOp path e.1 ∨ ∃ n, e.1 = .registerSignal n := by
    intro t ht e he
    exact .inr (allCalls_installShutdownFlag.traces ht e he)
  rcases traces_bind_iff.mp h₀ with h₁ | ⟨h₁, v, r, rfl, hinstall, hrest⟩
  · exact .inl (hflag h₁)
  cases r with
  | error e =>
    obtain rfl := traces_ret_iff.mp hrest
    rw [List.append_nil]
    exact .inl (hflag hinstall.traces)
  | ok u =>
    rw [Try.next_ok, hp] at hrest
    have hclaiming : ∀ {t : History S}, Traces (PidGuard.claim path : SysTry S PidGuard).run t →
        ∀ e ∈ h₁ ++ t, PidOp path e.1 ∨ ∃ n, e.1 = .registerSignal n := by
      intro t ht e he
      rcases List.mem_append.mp he with he | he
      · exact hflag hinstall.traces e he
      · exact .inl (PidGuard.allCalls_claim.traces ht e he)
    rcases traces_bind_iff.mp hrest with h₂ | ⟨h₂, t, r, rfl, hclaim, hrun⟩
    · exact .inl (hclaiming h₂)
    cases r with
    | error e =>
      obtain rfl := traces_ret_iff.mp hrun
      rw [List.append_nil]
      exact .inl (hclaiming hclaim.traces)
    | ok guard =>
      rw [Try.next_ok] at hrun
      refine .inr ⟨h₁ ++ h₂, t, (List.append_assoc ..).symm, ⟨h₁, h₂, guard, rfl, hinstall, hclaim⟩, ?_⟩
      intro t₁ a t₂ ht
      rcases ensuring_traces (claim_path hclaim) hrun with hserving | ⟨u, r, b, rfl, hover⟩
      · exact .inl (removes_socketPath hserving (a := a) (by rw [ht]; simp))
      · rcases List.eq_nil_or_concat t₂ with rfl | ⟨t₃, e, rfl⟩
        · obtain ⟨rfl, -⟩ := List.append_inj' ht rfl
          obtain ⟨os, hos, -⟩ := runClaimed_returns hover
          exact .inr ⟨rfl, hos.over⟩
        · -- an earlier one
          have hmem : ⟨.removeFile path, a⟩ ∈ u := by
            have ht : u ++ [⟨.removeFile path, b⟩] = (t₁ ++ ⟨.removeFile path, a⟩ :: t₃) ++ [e] := by
              simpa using ht
            rw [(List.append_inj' ht rfl).1]
            simp
          exact .inl (removes_socketPath hover.traces hmem)

theorem runDaemon_callbacks (hp : config.pidFile = some path) :
    Spec keepCallbacks [] (runDaemon config : SysTry S Unit).run CallbackOrder
      (fun _ => CallbacksDone) := by
  have hnil : ∀ cs : History S, cs = [] → CallbackOrder cs := fun cs h => h ▸ .none
  refine Spec.next (R := fun _ cs => cs = [])
    ((Spec.still allCalls_installShutdownFlag ?_).mono hnil ?_) ?_
  · intro cs op b hop
    obtain ⟨n, rfl⟩ := hop
    rfl
  · intro r cs hcs
    cases r with
    | ok u => exact hcs
    | error err => exact hcs ▸ .none
  · intro _ cs _ hcs
    subst hcs
    rw [hp]
    refine Spec.next (R := fun _ cs => cs = [])
      ((Spec.still PidGuard.allCalls_claim ?_).mono hnil ?_) ?_
    · intro cs op b hop
      exact keepCallbacks_other cs op b (PidOp.noCallback op hop)
    · intro r cs hcs
      cases r with
      | ok guard => exact hcs
      | error err => exact hcs ▸ .none
    · intro guard cs _ hcs
      subst hcs
      refine Spec.bind runClaimed_callbacks ?_
      intro r cs hΦ hdone
      exact Spec.call hΦ fun _ => .ret hΦ hdone

end Moment

/-- **The lifecycle of a daemon** with a PID file, whatever comes of its steps: the order
of its callbacks and the fate of its PID file at any moment, and its complete runs. -/
theorem lifecycle_bracket (config : DaemonConfig) (path : Path) (h : History S)
    (hp : config.pidFile = some path) :
    (Traces (runDaemon config : SysTry S Unit).run h →
      CallbackOrder (callbacks h) ∧ KeepsPidFile config path h) ∧
    ∀ r, Returns (runDaemon config : SysTry S Unit).run h r →
      ∃ os, Completed config path h r os := by
  refine ⟨fun ht => ⟨?_, runDaemon_keepsPidFile hp ht⟩, fun r hr => ?_⟩
  · obtain ⟨q, hq⟩ := ht
    have horder := (runDaemon_callbacks hp).always hq
    rwa [foldl_keepCallbacks, List.nil_append] at horder
  · have hdone := (runDaemon_callbacks hp).returns hr
    rw [foldl_keepCallbacks, List.nil_append] at hdone
    obtain ⟨os, hos, hres⟩ := runDaemon_returns hp hr
    exact ⟨os, hos, hres, by rw [hres, firstError_eq_ok], hdone⟩

/-- A daemon that claims its PID file and serves until its flag is set. -/
def flaggedRun : History Unit :=
  [⟨.registerSignal SIGINT, .ok ()⟩, ⟨.registerSignal SIGTERM, .ok ()⟩,
    ⟨.createDirAll ["run"], .ok ()⟩, ⟨.pathExists ["run", "app.pid"], false⟩,
    ⟨.createNew ["run", "app.pid"], .ok 0⟩, ⟨.processId, (7 : UInt32)⟩,
    ⟨.writeFile 0 (pidDigits 7), .ok (whole (pidDigits 7))⟩,
    ⟨.writeFile 0 newline, .ok (whole newline)⟩, ⟨.onStart, .ok ()⟩,
    ⟨.createDirAll ["tmp"], .ok ()⟩, ⟨.pathExists ["tmp", "sockd.sock"], false⟩,
    ⟨.bind ["tmp", "sockd.sock"], .ok 0⟩, ⟨.listenerNonblocking 0 true, .ok ()⟩,
    ⟨.now, .zero⟩, ⟨.loadFlag, true⟩, ⟨.closeListener 0, ()⟩,
    ⟨.removeFile ["tmp", "sockd.sock"], .ok ()⟩, ⟨.onStop (), .ok ()⟩,
    ⟨.removeFile ["run", "app.pid"], .ok ()⟩]

theorem lifecycle_bracket_flagged :
    ∃ os, Completed { pidFile := some ["run", "app.pid"] } ["run", "app.pid"] flaggedRun (.ok ()) os :=
  (lifecycle_bracket { pidFile := some ["run", "app.pid"] } ["run", "app.pid"] flaggedRun rfl).2
    (.ok ()) (returns_of_follow 60 (by rfl))

end Sockd
