import Sockd.LastLook
import Sockd.Stands

/-!
# A daemon and the client that it serves do not block each other

The kernel's buffers are bounded: a write takes no more than there is room for
(`Bounded`), whatever the capacities. While a daemon has a connection that it accepted
open, it can make its next call, or the client at the other end can
(`daemon_or_client_can`).

Whichever of the two writes, the other one reads. `Stands` says of either where it stands,
given the newest entry of its ledger, and the entries of the two are about the same bytes
(`opened_run`), so not both of them wait (`not_both_blocked`).
-/

namespace Sockd

open Rust Effects Effects.Prog Effects.System Os

variable {S : Type}

/-! ## Open ends -/

/-- A call that neither opens a connection nor closes this one leaves it open. -/
theorem Line.step_stays (e : Exchange S) {ev : SysEvent S} (hopens : ¬ Opens ev.1)
    (hclose : ev ≠ ⟨.closeStream e.stream, ()⟩) :
    ∃ e', Line.step (some e) ev = some e' ∧ e'.stream = e.stream := by
  obtain ⟨op, a⟩ := ev
  have htouch : ∀ {t : Stream} {f : Exchange S → Exchange S}, (∀ e, (f e).stream = e.stream) →
      ∃ e', (touch t f [e]).head? = some e' ∧ e'.stream = e.stream := by
    intro t f hf
    refine ⟨if e.stream = t then f e else e, head_touch _, ?_⟩
    split
    next => exact hf e
    next => rfl
  cases op with
  | connect | accept => exact absurd trivial hopens
  | closeStream t =>
    have hne : e.stream ≠ t := by
      rintro rfl
      exact hclose rfl
    refine ⟨e, ?_, rfl⟩
    show Option.filter (fun e' : Exchange S => decide (e'.stream ≠ t)) (some e) = some e
    exact Option.filter_eq_some_iff.mpr ⟨rfl, decide_eq_true hne⟩
  | read t n =>
    refine htouch ?_
    exact fun _ => rfl
  | write t buf =>
    refine htouch ?_
    exact fun _ => rfl
  | streamNonblocking t on =>
    refine htouch ?_
    exact fun _ => rfl
  | onRequest => exact ⟨_, rfl, rfl⟩
  | onStart => cases a <;> exact ⟨e, rfl, rfl⟩
  | _ => exact ⟨e, rfl, rfl⟩

/-- A process with a connection open opens no other. -/
theorem Stands.not_opens {maxPayloadLen : Nat} {quiet : Prop} {e : Exchange S} {op : Op S}
    (h : Stands maxPayloadLen quiet (some e) op) : ¬ Opens op := by
  cases h with
  | answered _ _ _ _ _ haside =>
    cases op with
    | connect | accept => exact absurd trivial haside.2
    | _ => exact id
  | begins _ _ _ hop =>
    rcases hop with rfl | rfl <;> exact id
  | _ => exact id

namespace Os

variable {w w' : Os} {i j : Nat} {s : Stream}

/-- An end that is open after a call was open before it, or the call opened it. -/
theorem holds_after {ev : SysEvent S} (hok : isSpurious ev = true ∨ w.answers i ev = true)
    (h : (w.after i ev).Holds j s) :
    (w.Holds j s ∧ ev ≠ ⟨.closeStream s, ()⟩) ∨
      j = i ∧ ((∃ p, ev = ⟨.connect p, .ok s⟩) ∨ ∃ l, ev = ⟨.accept l, .ok s⟩) := by
  by_cases ht : Touches ev
  swap
  · refine .inl ⟨?_, fun he => ht (he ▸ trivial)⟩
    rwa [Holds, (sameConns_after w i ht).ends] at h
  obtain ⟨op, a⟩ := ev
  cases op with
  | connect p =>
    cases a with
    | error err => exact ht.elim
    | ok t =>
      obtain ⟨l, hn, -, rfl⟩ := connect_ok hok
      rw [after_connect hn, Holds, ends_dial] at h
      split at h
      next => cases h.1
      next =>
        split at h
        next hs =>
          rw [hs]
          exact .inr ⟨(Option.some.inj h.1).symm, .inl ⟨p, rfl⟩⟩
        next => exact .inl ⟨h, nofun⟩
  | accept l =>
    cases a with
    | error err => exact ht.elim
    | ok t =>
      have hends : (w.after i (⟨.accept l, .ok t⟩ : SysEvent S)).ends =
          Function.update w.ends t { w.ends t with owner := some i } := rfl
      by_cases hs : s = t
      · rw [Holds, hends, hs, Function.update_self] at h
        rw [hs]
        exact .inr ⟨(Option.some.inj h.1).symm, .inr ⟨l, rfl⟩⟩
      · rw [Holds, hends, Function.update_of_ne hs] at h
        exact .inl ⟨h, nofun⟩
  | bind p =>
    cases a with
    | error err => exact ht.elim
    | ok l => exact .inl ⟨h, nofun⟩
  | read t n =>
    refine .inl ⟨?_, nofun⟩
    have hends : (w.after i (⟨.read t n, a⟩ : SysEvent S)).ends =
        Function.update w.ends t { w.ends t with got := (w.ends t).got ++ delivered a } := rfl
    by_cases hs : s = t
    · rwa [Holds, hends, hs, Function.update_self, ← hs] at h
    · rwa [Holds, hends, Function.update_of_ne hs] at h
  | write t buf =>
    refine .inl ⟨?_, nofun⟩
    have hends : (w.after i (⟨.write t buf, a⟩ : SysEvent S)).ends =
        Function.update w.ends t { w.ends t with sent := (w.ends t).sent ++ taken a } := rfl
    by_cases hs : s = t
    · rwa [Holds, hends, hs, Function.update_self, ← hs] at h
    · rwa [Holds, hends, Function.update_of_ne hs] at h
  | closeStream t =>
    have hopen : ((w.ends s).isOpen && !decide (s = t)) = true := h.2
    rw [Bool.and_eq_true, Bool.not_eq_true', decide_eq_false_iff_not] at hopen
    refine .inl ⟨⟨h.1, hopen.1⟩, fun he => hopen.2 ?_⟩
    cases he
    rfl
  | closeListener l =>
    have hopen : ((w.ends s).isOpen && !w.pendingAt l s) = true := h.2
    rw [Bool.and_eq_true] at hopen
    exact .inl ⟨⟨h.1, hopen.1⟩, nofun⟩
  | _ => exact ht.elim

/-- Outside steps open nothing, and close what a process leaves. -/
theorem holds_outside {o : Outside} (ho : w.outside o = some w') (h : w'.Holds j s) :
    w.Holds j s ∧ (w.Running j → w'.Running j) := by
  cases o with
  | start i pid =>
    simp only [outside, Option.ite_none_right_eq_some] at ho
    obtain rfl := Option.some.inj ho.2
    refine ⟨h, fun hr => ?_⟩
    have hji : j ≠ i := fun he => by rw [← he, hr] at ho; exact absurd ho.1.1 (by decide)
    exact (congrArg Process.status (Function.update_of_ne hji _ _)).trans hr
  | signal i =>
    simp only [outside, Option.ite_none_right_eq_some] at ho
    obtain rfl := Option.some.inj ho.2
    refine ⟨h, fun hr => ?_⟩
    by_cases hji : j = i
    · rw [hji] at hr ⊢
      show (Function.update w.procs i _ i).status = _
      rw [Function.update_self]
      exact hr
    · exact (congrArg Process.status (Function.update_of_ne hji _ _)).trans hr
  | terminate i =>
    simp only [outside, Option.ite_none_right_eq_some] at ho
    obtain rfl := Option.some.inj ho.2
    have hopen : ((w.ends s).isOpen && !(decide ((w.ends s).owner = some i) || _)) = true := h.2
    rw [Bool.and_eq_true, Bool.not_eq_true', Bool.or_eq_false_iff, decide_eq_false_iff_not] at hopen
    have howner : (w.ends s).owner = some j := h.1
    refine ⟨⟨howner, hopen.1⟩, fun hr => ?_⟩
    have hji : j ≠ i := fun he => hopen.2.1 (he ▸ howner)
    exact (congrArg Process.status (Function.update_of_ne hji _ _)).trans hr
  | reap i =>
    simp only [outside, Option.ite_none_right_eq_some] at ho
    obtain rfl := Option.some.inj ho.2
    refine ⟨h, fun hr => ?_⟩
    have hji : j ≠ i := fun he => by rw [← he, hr] at ho; exact absurd ho.1 (by decide)
    exact (congrArg Process.status (Function.update_of_ne hji _ _)).trans hr


end Os

section Runs

variable {role : Nat → Role} {cond : HostConfig S → HostLabel S → Prop} {w₀ : Os}
  {ls : List (HostLabel S)} {c c' : HostConfig S} {i j : Nat} {s : Stream}

/-- Whoever has an end open is running, and has no other connection open. -/
def Opened (c : HostConfig S) : Prop :=
  ∀ j s, c.world.Holds j s →
    c.world.Running j ∧ ∃ e, Line.of (c.hist j) = some e ∧ e.stream = s

theorem Opened.step (h : Opened c) {l : HostLabel S} (hs : (host role).step c l = some c')
    (hb : ∀ i ev, l = .act i ev → (role i).Traces (c'.hist i)) : Opened c' := by
  intro j s hj
  cases l with
  | outside o =>
    obtain ⟨ho, hh⟩ := step_outside.mp hs
    obtain ⟨hold, hr⟩ := holds_outside ho hj
    obtain ⟨hrun, he⟩ := h j s hold
    rw [hh]
    exact ⟨hr hrun, he⟩
  | act i ev =>
    obtain ⟨hrun, hok, hw⟩ := act_eq_some.mp (step_act.mp hs).1
    have ht := hb i ev rfl
    rw [hist_act_self hs] at ht
    have hstands := Role.stands ht
    rw [hw] at hj ⊢
    rcases holds_after hok hj with ⟨hold, hne⟩ | ⟨rfl, hopened⟩
    · obtain ⟨hr, e, he, rfl⟩ := h j s hold
      refine ⟨(running_after _ _ _ _).mpr hr, ?_⟩
      by_cases hji : j = i
      · subst hji
        rw [he] at hstands
        rw [hist_act_self hs, Line.of_append, he]
        exact Line.step_stays e hstands.not_opens hne
      · rw [hist_act_ne hs hji]
        exact ⟨e, he, rfl⟩
    · refine ⟨(running_after _ _ _ _).mpr hrun, ?_⟩
      -- it had none open before
      have hnone : Line.of (c.hist j) = none := by
        cases he : Line.of (c.hist j) with
        | none => rfl
        | some e =>
          rw [he] at hstands
          rcases hopened with ⟨p, rfl⟩ | ⟨k, rfl⟩ <;> exact absurd trivial hstands.not_opens
      rw [hist_act_self hs, Line.of_append, hnone]
      rcases hopened with ⟨p, rfl⟩ | ⟨k, rfl⟩ <;> exact ⟨_, rfl, rfl⟩

/-- **In every run** an open end has an entry, the newest of its process. -/
theorem opened_run (h₀ : w₀.Initial) (hr : Run (host role) cond (.start w₀) ls c)
    (h : c.world.Holds j s) :
    c.world.Running j ∧ ∃ e, Line.of (c.hist j) = some e ∧ e.stream = s ∧
      e ∈ (ledgers c j).exchanges ∧ e.Matches (c.world.ends s) := by
  have hopened : Opened c := by
    refine hr.inv (I := Opened) ?_ fun c l c' hI hs hb _ => hI.step hs hb
    intro j s hj
    have hends : w₀.ends s = {} := h₀.ends s
    rw [Holds, show (Config.start w₀ : HostConfig S).world.ends s = {} from hends] at hj
    cases hj.1
  obtain ⟨hrun, e, he, rfl⟩ := hopened j s h
  have hmem : e ∈ (ledgers c j).exchanges := List.mem_of_mem_head? (Line.newest he)
  exact ⟨hrun, e, he, rfl, hmem, (agrees_run h₀ hr).agrees j e hmem⟩

end Runs

/-! ## The clock -/

/-- The clock was read. -/
def ReadClock (h : History S) : Prop := ∃ t : Instant, ⟨.now, t⟩ ∈ h

/-- The event loop reads the clock before it accepts. -/
def Ticked (h : History S) : Prop := Outer h ∨ ReadClock h

section Clock

variable {config : DaemonConfig} {h : History S}

theorem ReadClock.keep {α : Type} {p : Sys S α} (hh : ReadClock h) :
    Spec Spec.record h p Ticked (fun _ => Ticked) := by
  have hkeep : Spec Spec.record h p ReadClock (fun _ => ReadClock) :=
    Spec.keep (allCalls_any p) (fun h op b _ hI => by
      obtain ⟨t, ht⟩ := hI
      exact ⟨t, List.mem_append_left _ ht⟩) hh
  exact hkeep.mono (fun _ h => .inr h) fun _ _ h => .inr h

theorem Outer.keep_ticked {α : Type} {p : Sys S α} (hp : AllCalls OuterOp p) (hh : Outer h) :
    Spec Spec.record h p Ticked (fun _ => Outer) := by
  have hkeep : Spec Spec.record h p Outer (fun _ => Outer) :=
    Spec.keep hp (fun _ op b hop hI => hI.snoc (e := ⟨op, b⟩) hop) hh
  exact hkeep.mono (fun _ h => .inl h) fun _ _ h => h

/-- Where a step that fails ends the run. -/
theorem Outer.orElse {α β : Type} (r : Except Error α) (hh : Outer h) :
    Spec.orElse (fun _ : Except Error β => Ticked) (fun _ => Outer) r h := by
  cases r with
  | ok a => exact hh
  | error err => exact .inl hh

theorem runClaimed_ticked (hh : Outer h) :
    Spec Spec.record h (runClaimed config : SysTry S Unit).run Ticked (fun _ => Ticked) := by
  have hstart : AllCalls OuterOp ((onStart.mapErr .startup) : SysTry S S).run :=
    Try.allCalls_mapErr ⟨trivial, fun _ => trivial⟩
  refine Spec.next (R := fun _ => Outer)
    ((hh.keep_ticked hstart).mono (fun _ h => h) fun r _ h => h.orElse r) ?_
  intro state h₁ _ hh
  refine Spec.attempt (hh.keep_ticked (Socket.allCalls_bind.mono BindOp.outer)) ?_
  intro r h₂ _ hh
  cases r with
  | error err =>
    refine Spec.attempt (hh.keep_ticked (Try.allCalls_mapErr ⟨trivial, fun _ => trivial⟩)) ?_
    intro stopResult h₃ hΦ _
    cases stopResult <;> exact .ret hΦ hΦ
  | ok listener =>
    -- the first call of the event loop
    have hloop : Spec Spec.record h₂ (runEventLoop config listener state) Ticked
        (fun _ => ReadClock) := by
      refine Spec.call (.inl hh) fun (t : Instant) => ?_
      have hread : ReadClock (Spec.record h₂ ⟨.now, t⟩) :=
        ⟨t, List.mem_append_right _ (List.mem_singleton_self _)⟩
      refine (Spec.keep (allCalls_any _) (I := ReadClock) (fun h op b _ hI => ?_) hread).mono
        (fun _ h => .inr h) fun _ _ h => h
      obtain ⟨t', ht'⟩ := hI
      exact ⟨t', List.mem_append_left _ ht'⟩
    refine Spec.lift hloop ?_
    intro out h₃ _ hread
    exact hread.keep

/-- A daemon reads the clock before it accepts. -/
theorem runDaemon_ticked :
    Spec Spec.record [] (runDaemon config : SysTry S Unit).run Ticked (fun _ => Ticked) := by
  have hflag : AllCalls OuterOp (installShutdownFlag : SysTry S Unit).run := by
    refine allCalls_installShutdownFlag.mono fun op hop => ?_
    obtain ⟨n, rfl⟩ := hop
    trivial
  have houter : Outer ([] : History S) := fun e he => nomatch he
  refine Spec.next ((houter.keep_ticked hflag).mono (fun _ h => h) fun r _ h => h.orElse r) ?_
  intro _ h₁ _ hh
  cases config.pidFile with
  | none => exact runClaimed_ticked hh
  | some path =>
    refine Spec.next ((hh.keep_ticked (PidGuard.allCalls_claim.mono PidOp.outer)).mono
      (fun _ h => h) fun r _ h => h.orElse r) ?_
    intro guard h₂ _ hh
    refine Spec.bind (runClaimed_ticked hh) fun r h₃ _ hΦ => ?_
    refine Spec.bind (R := fun _ => Ticked) ?_ fun _ h₄ hΦ _ => .ret hΦ hΦ
    rcases hΦ with hh | hread
    · exact (hh.keep_ticked (PidGuard.allCalls_drop.mono PidOp.outer)).mono (fun _ h => h)
        fun _ _ h => .inl h
    · exact hread.keep

end Clock

section Runs

variable {role : Nat → Role} {cond : HostConfig S → HostLabel S → Prop} {w₀ : Os}
  {ls : List (HostLabel S)} {c : HostConfig S} {e : Exchange S} {j : Nat}

theorem Os.clock_after (w : Os) (i : Nat) {ev : SysEvent S} (h : ev.1 ≠ .now) :
    (w.after i ev).clock = w.clock := by
  unfold after
  split
  next => rfl
  next => rfl
  next => rfl
  next => split <;> rfl
  next => rfl
  next => rfl
  next => rfl
  next => rfl
  next => rfl
  next => rfl
  next => exact absurd rfl h
  next => rfl

theorem Os.clock_outside {w w' : Os} {o : Outside} (ho : w.outside o = some w') :
    w'.clock = w.clock := by
  cases o <;>
    · simp only [Os.outside, Option.ite_none_right_eq_some] at ho
      rw [← Option.some.inj ho.2]
      rfl

/-- Once the clock was read, it shows what an `Instant` can. -/
theorem clock_lt (hr : Run (host role) cond (.start w₀) ls c) (h : ReadClock (c.hist j)) :
    c.world.clock < instantLimit := by
  refine hr.inv (I := fun c => ∀ j, ReadClock (c.hist j) → c.world.clock < instantLimit) ?_ ?_ j h
  · rintro j ⟨t, ht⟩
    cases ht
  · intro c l c' hI hs _ _ j hread
    cases l with
    | outside o =>
      obtain ⟨ho, hh⟩ := step_outside.mp hs
      rw [hh] at hread
      rw [clock_outside ho]
      exact hI j hread
    | act i ev =>
      obtain ⟨-, -, hw⟩ := act_eq_some.mp (step_act.mp hs).1
      rw [hw]
      by_cases hnow : ev.1 = .now
      · obtain ⟨op, t⟩ := ev
        obtain rfl : op = .now := hnow
        exact Instant.lt_limit t
      · rw [clock_after c.world i hnow]
        by_cases hji : j = i
        · subst hji
          rw [hist_act_self hs] at hread
          obtain ⟨t, ht⟩ := hread
          refine hI j ⟨t, (List.mem_append.mp ht).resolve_right fun he => hnow ?_⟩
          rw [← List.mem_singleton.mp he]
        · rw [hist_act_ne hs hji] at hread
          exact hI j hread

/-- So it does when something was accepted. -/
theorem clock_of_accepted (hr : Run (host role) cond (.start w₀) ls c)
    (he : e ∈ (ledgers c j).exchanges) (ha : e.accepted = true) :
    c.world.clock < instantLimit := by
  obtain ⟨config, hrole, -⟩ := accepted_inService hr he ha
  have ht : (role j).Traces (c.hist j) := hr.behaviour (Role.traces_nil _)
  rw [hrole] at ht
  obtain ⟨q, hq⟩ := ht
  have hticked := runDaemon_ticked.always hq
  rw [Spec.foldl_record, List.nil_append] at hticked
  refine clock_lt hr (hticked.resolve_left fun houter => ?_)
  rw [houter.ledger.2 e he] at ha
  cases ha

end Runs

/-! ## Bounded buffers -/

/-- A write takes no more than there is room for in the buffer of its stream, and a
connection is made only where the backlog of the listener has room. -/
def withinBuffers (cap : Stream → Nat) (backlog : Nat → Nat) (c : HostConfig S) :
    HostLabel S → Bool
  | .act _ ⟨.write s _, .ok k⟩ =>
    decide ((c.world.ends s).sent.length + k.1 ≤ (c.world.ends s.peer).got.length + cap s)
  | .act _ ⟨.connect p, .ok _⟩ => match c.world.nodes p with
    | some (.socket l) => decide ((c.world.listeners l).backlog.length < backlog l)
    | _ => true
  | _ => true

/-- The steps that the kernel's buffers allow. -/
def Bounded (cap : Stream → Nat) (backlog : Nat → Nat) (c : HostConfig S) (l : HostLabel S) :
    Prop := withinBuffers cap backlog c l = true

/-- Process `j` can take a step: its next call has an answer, other than a failure for a
reason that is not modelled. -/
def CanStep (role : Nat → Role) (cap : Stream → Nat) (backlog : Nat → Nat) (c : HostConfig S)
    (j : Nat) : Prop :=
  ∃ ev c', c.world.answers j ev = true ∧ isSpurious ev = false ∧
    Run (host role) (Bounded cap backlog) c [.act j ev] c'

/-- Where a process waits for the other end of its connection: there is nothing to read,
or no room for what it writes. -/
inductive Blocked (cap : Stream → Nat) (w : Os) (role : Role) (e : Exchange S) : Prop
  | reading (n : Nat) : Stands role.maxPayloadLen role.Quiet (some e) (.read e.stream n) →
      w.Drained e.stream → Blocked cap w role e
  | writing (buf : Bytes) : Stands role.maxPayloadLen role.Quiet (some e) (.write e.stream buf) →
      (w.ends e.stream.peer).got.length + cap e.stream ≤ (w.ends e.stream).sent.length →
      Blocked cap w role e

section Stuck

variable {role : Nat → Role} {cap : Stream → Nat} {backlog : Nat → Nat} {c : HostConfig S}
  {j : Nat} {e : Exchange S}

theorem CanStep.of_answers (ev : SysEvent S) (hrun : c.world.Running j)
    (hans : c.world.answers j ev = true) (hspurious : isSpurious ev = false)
    (ht : (role j).Traces (c.hist j ++ [ev])) (hb : Bounded cap backlog c (.act j ev)) :
    CanStep role cap backlog c j := by
  have hs : (host role).step c (.act j ev) = some ⟨c.world.after j ev,
      fun k => if k = j then c.hist j ++ [ev] else c.hist k⟩ :=
    step_act.mpr ⟨act_eq_some.mpr ⟨hrun, .inr hans, rfl⟩, rfl⟩
  refine ⟨ev, _, hans, hspurious, Run.nil.snoc hs (fun i ev' he => ?_) hb⟩
  cases he
  rw [hist_act_self hs]
  exact ht

/-- A strict beginning goes on. -/
theorem exists_next {a b : Bytes} (h : a <+: b) (hne : a ≠ b) : ∃ x, a ++ [x] <+: b := by
  obtain ⟨t, rfl⟩ := h
  cases t with
  | nil => exact absurd (List.append_nil a).symm hne
  | cons x t => exact ⟨x, t, by rw [List.append_assoc, List.singleton_append]⟩

/-- The clock can be read. -/
theorem exists_instant {t : Int} (h : t < instantLimit) : ∃ u : Instant, t ≤ u.nanos := by
  by_cases hge : -instantLimit ≤ t
  · exact ⟨⟨t, hge, h⟩, Int.le_refl t⟩
  · have hpos : 0 < instantLimit := by decide
    refine ⟨.zero, ?_⟩
    show t ≤ 0
    omega

variable (cap backlog)

/-- A process with an end open can take a step, or waits for the other end, or is a client
that has its reply. -/
theorem step_or_blocked (hrun : c.world.Running j)
    (ht : (role j).Traces (c.hist j)) (hline : Line.of (c.hist j) = some e)
    (hholds : c.world.Holds j e.stream)
    (horder : (c.world.ends e.stream).got <+: (c.world.ends e.stream.peer).sent)
    (hclock : e.accepted = true → c.world.clock < instantLimit) :
    CanStep role cap backlog c j ∨
      (c.world.ends e.stream.peer).isOpen = true ∧ Blocked cap c.world (role j) e ∨
      e.accepted = false ∧ ∃ g, Exact (role j).maxPayloadLen g e.received := by
  rcases Role.next ht with hnone | ⟨op, hstands, hnext⟩
  · rw [hline] at hnone
    cases hnone
  rw [hline] at hstands
  have hhas : decide (c.world.Holds j e.stream) = true := decide_eq_true hholds
  have hread : ∀ n, 0 < n → op = .read e.stream n → CanStep role cap backlog c j ∨
      (c.world.ends e.stream.peer).isOpen = true ∧ Blocked cap c.world (role j) e := by
    rintro n hn rfl
    by_cases hdrained : c.world.Drained e.stream
    · cases hpeer : (c.world.ends e.stream.peer).isOpen with
      | true => exact .inr ⟨rfl, .reading n hstands hdrained⟩
      | false =>
        -- end-of-file
        refine .inl (.of_answers ⟨.read e.stream n, .ok (nothing n)⟩ hrun ?_ rfl
          (hnext _) rfl)
        show (decide _ && (decide (_ <+: _) && (_ || (decide _ && !_)))) = true
        rw [hhas, hpeer, decide_eq_true hdrained, Bool.not_false, Bool.and_true, Bool.or_true,
          Bool.and_true, Bool.true_and, decide_eq_true_eq]
        rw [show (nothing n).1 = [] from rfl, List.append_nil]
        exact horder
    · obtain ⟨x, hx⟩ := exists_next horder hdrained
      refine .inl (.of_answers ⟨.read e.stream n, .ok ⟨[x], hn⟩⟩ hrun ?_ rfl (hnext _) rfl)
      show (decide _ && (decide (_ <+: _) && (decide _ || _))) = true
      rw [hhas, Bool.true_and, decide_eq_true hx, Bool.true_and, Bool.or_eq_true, decide_eq_true_eq]
      exact .inl (.inl (List.cons_ne_nil _ _))
  have hwrite : ∀ buf, buf ≠ [] → op = .write e.stream buf → CanStep role cap backlog c j ∨
      (c.world.ends e.stream.peer).isOpen = true ∧ Blocked cap c.world (role j) e := by
    rintro buf hne rfl
    have hpos : 1 ≤ buf.length := List.length_pos_of_ne_nil hne
    cases hpeer : (c.world.ends e.stream.peer).isOpen with
    | false =>
      refine .inl (.of_answers ⟨.write e.stream buf, .error ⟨.brokenPipe, ""⟩⟩ hrun ?_ rfl
        (hnext _) rfl)
      show (decide _ && (!_ && _)) = true
      rw [hhas, hpeer]
      rfl
    | true =>
      by_cases hroom : (c.world.ends e.stream).sent.length + 1 ≤
          (c.world.ends e.stream.peer).got.length + cap e.stream
      · refine .inl (.of_answers ⟨.write e.stream buf, .ok ⟨1, hpos⟩⟩ hrun ?_ rfl (hnext _)
          (decide_eq_true hroom))
        show (decide _ && (_ && decide _)) = true
        rw [hhas, hpeer]
        rfl
      · exact .inr ⟨rfl, .writing buf hstands (by omega)⟩
  have hclose : op = .closeStream e.stream → CanStep role cap backlog c j := by
    rintro rfl
    exact .of_answers ⟨.closeStream e.stream, ()⟩ hrun hhas rfl (hnext _) rfl
  cases hstands with
  | asks _ f buf _ _ _ hne _ => exact (hwrite buf hne rfl).imp_right .inl
  | awaits _ f n _ _ _ hw => exact (hread n hw.1 rfl).imp_right .inl
  | answered _ g _ haccepted hg _ => exact .inr (.inr ⟨haccepted, g, hg⟩)
  | leaves _ _ _ => exact .inl (hclose rfl)
  | begins _ _ haccepted hop =>
    rcases hop with rfl | rfl
    · exact .inl (.of_answers ⟨.streamNonblocking e.stream false, .ok ()⟩ hrun hhas rfl
        (hnext _) rfl)
    · obtain ⟨t, ht⟩ := exists_instant (hclock haccepted)
      exact .inl (.of_answers ⟨.now, t⟩ hrun (decide_eq_true ht) rfl (hnext _) rfl)
  | listens _ n _ _ hw => exact (hread n hw.1 rfl).imp_right .inl
  | handles _ state payload _ =>
    exact .inl (.of_answers ⟨.onRequest state payload, (.ok [], state)⟩ hrun rfl rfl
      (hnext _) rfl)
  | replies _ f reply buf _ _ _ hne _ => exact (hwrite buf hne rfl).imp_right .inl
  | drops _ _ => exact .inl (hclose rfl)

end Stuck

/-! ## Not both wait -/

section Waiting

variable {maxPayloadLen : Nat} {quiet : Prop} {e : Exchange S} {t : Stream}

/-- Who reads is a client that has sent its frame, or a daemon that has sent nothing. -/
theorem Stands.of_read {n : Nat} (h : Stands maxPayloadLen quiet (some e) (.read t n)) :
    t = e.stream ∧ Wanted maxPayloadLen e.received n ∧
      (e.accepted = false ∧ (∃ f : Frame, f.Fits ∧ e.sent = f.wire) ∨
        e.accepted = true ∧ e.sent = []) := by
  cases h with
  | awaits _ f _ haccepted hfits hsent hw => exact ⟨rfl, hw, .inl ⟨haccepted, f, hfits, hsent⟩⟩
  | answered _ _ _ _ _ haside => exact absurd trivial haside.1
  | begins _ _ _ hop => rcases hop with hop | hop <;> cases hop
  | listens _ _ haccepted hsent hw => exact ⟨rfl, hw, .inr ⟨haccepted, hsent⟩⟩

/-- Who writes has not written its whole frame; a daemon has read just one. -/
theorem Stands.of_write {buf : Bytes} (h : Stands maxPayloadLen quiet (some e) (.write t buf)) :
    t = e.stream ∧ buf ≠ [] ∧ ∃ f : Frame, f.Fits ∧ e.sent ++ buf <+: f.wire ∧
      (e.accepted = true → ∃ g, Exact maxPayloadLen g e.received) := by
  cases h with
  | asks _ f _ haccepted _ hfits hne hle =>
    refine ⟨rfl, hne, f, hfits, hle, fun h => ?_⟩
    rw [haccepted] at h
    cases h
  | answered _ _ _ _ _ haside => exact absurd trivial haside.1
  | begins _ _ _ hop => rcases hop with hop | hop <;> cases hop
  | replies _ g f _ _ hg hfits hne hle => exact ⟨rfl, hne, f, hfits, hle, fun _ => ⟨g, hg⟩⟩

/-- Nothing can follow a frame within another one. -/
theorem eq_nil_of_wire_le {f g : Frame} (hf : f.Fits) (hg : g.Fits) {d buf : Bytes}
    (h : f.wire <+: d) (hle : d ++ buf <+: g.wire) : buf = [] := by
  obtain ⟨r, rfl⟩ := h
  obtain ⟨t, ht⟩ := hle
  have heq : f.wire ++ (r ++ buf ++ t) = g.wire ++ [] := by
    rw [List.append_nil, ← ht]
    simp only [List.append_assoc]
  have hnil := (wire_inj hf hg heq).2
  rw [List.append_assoc, List.append_eq_nil_iff, List.append_eq_nil_iff] at hnil
  exact hnil.2.1

/-- A whole frame is enough for `read_frame`, if only to refuse it. -/
theorem parse_wire_ne_more {f : Frame} (hf : f.Fits) : parse maxPayloadLen f.wire ≠ .more := by
  have hlen := length_headerEncode f.header
  have hparse := @parse_header maxPayloadLen ⟨f.header.encode, hlen⟩ f.payload
  rw [Frame.wire, hparse]
  split
  next =>
    intro h
    cases h
  next hd hc =>
    have hhd : hd = f.header := by
      have hdec := (checkHeader_eq_ok hc).1
      rw [decode_encode] at hdec
      exact (Except.ok.inj hdec).symm
    rw [hhd, hf.payloadLen, if_neg (Nat.lt_irrefl _)]
    intro h
    cases h

end Waiting

section Served

variable {cap : Stream → Nat} {w : Os} {daemon client : Role} {e e' : Exchange S}

/-- **Whoever of the two waits, the other one does not**: not a daemon and the client at
the other end. -/
theorem not_both_blocked (hcap : ∀ s, 0 < cap s) (hs : e'.stream = e.stream.peer)
    (haccepted : e.accepted = true) (hopened : e'.accepted = false)
    (hm : e.Matches (w.ends e.stream)) (hm' : e'.Matches (w.ends e'.stream))
    (horder : e.received <+: e'.sent) (horder' : e'.received <+: e.sent)
    (hblocked : Blocked cap w daemon e) :
    ¬ Blocked cap w client e' ∧ ∀ m g, ¬ Exact m g e'.received := by
  have hs' : e'.stream.peer = e.stream := by rw [hs, Stream.peer_peer]
  cases hblocked with
  | reading n hstands hdrained =>
    obtain ⟨-, ⟨-, hmore⟩, hsent⟩ := hstands.of_read
    have hnil : e.sent = [] := by
      refine (hsent.resolve_left fun h => ?_).2
      rw [haccepted] at h
      cases h.1
    rw [Os.Drained, hm.got, ← hs, hm'.sent] at hdrained
    refine ⟨fun hblocked' => ?_, fun m g hg => ?_⟩
    · cases hblocked' with
      | reading n' hstands' _ =>
        -- the client has sent its frame, and all of it was read
        obtain ⟨-, -, hsent'⟩ := hstands'.of_read
        obtain ⟨-, f, hfits, hwire⟩ := hsent'.resolve_right fun h => by
          rw [hopened] at h
          cases h.1
        rw [hdrained, hwire] at hmore
        exact parse_wire_ne_more hfits hmore
      | writing buf _ hfull =>
        -- all that the client has sent was read, so there is room
        rw [hs', hm.got, hm'.sent, hdrained] at hfull
        have hpos := hcap e'.stream
        omega
    · rw [hnil] at horder'
      exact hg.ne_nil (List.prefix_nil.mp horder')
  | writing buf hstands hfull =>
    obtain ⟨-, hne, reply, hfits, hle, hread⟩ := hstands.of_write
    obtain ⟨f, hf⟩ := hread haccepted
    refine ⟨fun hblocked' => ?_, fun m g hg => ?_⟩
    · cases hblocked' with
      | reading n' _ hdrained =>
        -- all that the daemon has sent was read, so there is room
        rw [Os.Drained, hm'.got, hs', hm.sent] at hdrained
        rw [← hs, hm'.got, hm.sent, hdrained] at hfull
        have hpos := hcap e.stream
        omega
      | writing buf' hstands' _ =>
        -- the daemon has read a whole frame, so nothing is left for the client to write
        obtain ⟨-, hne', request, hfits', hle', -⟩ := hstands'.of_write
        exact hne' (eq_nil_of_wire_le hf.fits hfits' (hf.eq_wire ▸ horder) hle')
    · -- the client has read a whole frame, so nothing is left for the daemon to write
      exact hne (eq_nil_of_wire_le hg.fits hfits (hg.eq_wire ▸ horder') hle)

end Served

section Runs

variable {role : Nat → Role} {cond : HostConfig S → HostLabel S → Prop} {w₀ : Os}
  {ls : List (HostLabel S)} {c : HostConfig S} {d : Nat} {s : Stream} {cap : Stream → Nat}
  {backlog : Nat → Nat}

/-- **Nobody is stuck**: while a connection that was accepted is open, its daemon or the
client at the other end can take a step. -/
theorem daemon_or_client_can (hcap : ∀ s, 0 < cap s) (h₀ : w₀.Initial)
    (hr : Run (host role) cond (.start w₀) ls c) (hs : s.side = .server)
    (hd : c.world.Holds d s) :
    ∃ j, (j = d ∨ (c.world.ends s.peer).owner = some j) ∧ CanStep role cap backlog c j := by
  have horder := (agrees_run h₀ hr).order
  have htraces : ∀ j, (role j).Traces (c.hist j) := fun j => hr.behaviour (Role.traces_nil _)
  obtain ⟨hrun, e, hline, rfl, he, hm⟩ := opened_run h₀ hr hd
  have haccepted : e.accepted = true := hm.side.mpr hs
  rcases step_or_blocked cap backlog hrun (htraces d) hline hd (horder _)
    (fun ha => clock_of_accepted hr he ha) with hcan | ⟨hpeer, hblocked⟩ | ⟨hnot, -⟩
  · exact ⟨d, .inl rfl, hcan⟩
  swap
  · rw [haccepted] at hnot
    cases hnot
  -- the daemon waits, and the other end is open
  have howned : ∃ i, (c.world.ends e.stream.peer).owner = some i := by
    have hpeer' : e.stream.peer = ⟨e.stream.conn, .client⟩ := by
      rw [Stream.peer, hs]
      rfl
    rw [hpeer']
    refine Option.ne_none_iff_exists'.mp ((queued_run h₀ hr).dialed _ (.inr ?_))
    rw [show (⟨e.stream.conn, .server⟩ : Stream) = e.stream by rw [← hs], hd.1]
    exact Option.some_ne_none d
  obtain ⟨i, hi⟩ := howned
  obtain ⟨hrun', e', hline', hs', he', hm'⟩ := opened_run h₀ hr ⟨hi, hpeer⟩
  have hopened : e'.accepted = false := by
    rw [← Bool.not_eq_true, hm'.side, hs', Stream.peer, hs]
    intro h
    cases h
  obtain ⟨hle, hle'⟩ : e.received <+: e'.sent ∧ e'.received <+: e.sent := by
    have h₁ := horder e.stream
    have h₂ := horder e.stream.peer
    rw [← hs'] at hm'
    rw [← hs', hm.got, hm'.sent] at h₁
    rw [Stream.peer_peer, ← hs', hm.sent, hm'.got] at h₂
    exact ⟨h₁, h₂⟩
  rw [← hs'] at hm'
  obtain ⟨hfree, hread⟩ : ¬ Blocked cap c.world (role i) e' ∧ ∀ m g, ¬ Exact m g e'.received :=
    not_both_blocked hcap hs' haccepted hopened hm hm' hle hle' hblocked
  rcases step_or_blocked cap backlog hrun' (htraces i) hline'
    (hs' ▸ ⟨hi, hpeer⟩) (horder _) (fun ha => clock_of_accepted hr he' ha) with
    hcan | ⟨-, hblocked'⟩ | ⟨-, g, hg⟩
  · exact ⟨i, .inr hi, hcan⟩
  · exact absurd hblocked' hfree
  · exact absurd hg (hread _ g)

end Runs

end Sockd
