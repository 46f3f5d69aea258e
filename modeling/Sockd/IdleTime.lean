import Sockd.Signal

/-!
# How long a daemon is idle before it exits

`last_activity` is stamped when a connection is accepted, before it is processed. The
idle branch therefore measures from the last `accept`: a request that takes longer than
the idle timeout lets the daemon exit as soon as it is done (`exits_after_long_request`).
A history carries the time of each of its events here (`Timed`); the readings of the
clock are those times.
-/

namespace Sockd

open Rust Effects Effects.Prog

variable {S : Type}

/-- A history with the time of each event, in nanoseconds. -/
abbrev Timed (S : Type) : Type := List (SysEvent S × Int)

/-- The history without the times. -/
def Timed.events (th : Timed S) : History S := th.map Prod.fst

/-- Time does not go back, and the clock shows it. -/
structure Clocked (th : Timed S) : Prop where
  sorted : th.Pairwise fun x y => x.2 ≤ y.2
  readings : ∀ t τ, (⟨.now, t⟩, τ) ∈ th → t.nanos = τ

/-- `e` ends the processing of a connection. -/
def Closes (e : SysEvent S) : Prop := ∃ s u, e = ⟨.closeStream s, u⟩

/-- No connection was accepted after the time `τ`, or still being processed. -/
def QuietSince (τ : Int) (th : Timed S) : Prop :=
  ∀ x ∈ th, Accepts x.1 ∨ Closes x.1 → x.2 ≤ τ

/-- The run ends in the idle branch, on reading the time `t`: the other ways out of the
loop do not end with a reading of the clock. -/
def IdleExit (config : DaemonConfig) (listener : Nat) (state : S) (th : Timed S) (t : Instant) :
    Prop :=
  (∃ s, Returns (runEventLoop config listener state) th.events (.ok (), s)) ∧
    th.events.getLast? = some ⟨.now, t⟩

/-- The time `t` lies in the window that opens when the idle timeout has passed since
the last stamp, and closes when it has passed since the end of a connection. -/
def InWindow (idle : Duration) (t : Instant) (th : Timed S) : Prop :=
  ∃ t₀, (Ledger.of th.events).lastActivity = some t₀ ∧ t₀.nanos + idle.nanos ≤ t.nanos ∧
    ∃ x ∈ th, Closes x.1 ∧ t.nanos < x.2 + idle.nanos

/-! ## What the loop measures -/

/-- The monitor that keeps the ledger and the last event. -/
def watch (m : Ledger S × Option (SysEvent S)) (e : SysEvent S) : Ledger S × Option (SysEvent S) :=
  (m.1.step e, some e)

theorem foldl_watch (h : History S) : h.foldl watch ({}, none) = (Ledger.of h, h.getLast?) := by
  induction h using List.reverseRecOn with
  | nil => rfl
  | append_singleton h e ih =>
    rw [List.foldl_append, ih, List.getLast?_concat, Ledger.of_append]
    rfl

/-- The stamp of the last activity is `t`. -/
def StampedAt (t : Instant) (m : Ledger S × Option (SysEvent S)) : Prop :=
  m.1.armed = false ∧ m.1.lastActivity = some t

/-- If the last event is a reading of the clock, the idle timeout has passed. -/
def IdleElapsed (idle : Duration) (m : Ledger S × Option (SysEvent S)) : Prop :=
  ∀ t, m.2 = some ⟨.now, t⟩ →
    ∃ t₀, StampedAt t₀ m ∧ idle.nanos ≤ (t.durationSince t₀).nanos

section Loop

variable {config : DaemonConfig} {listener : Nat} {t : Instant} {state : S}
  {m : Ledger S × Option (SysEvent S)} {idle : Duration}

/-- Another event came last. -/
theorem idleElapsed_of_ne {op : Op S} {b : Ans op} (hop : op ≠ .now) :
    IdleElapsed idle (watch m ⟨op, b⟩) := by
  intro t ht
  injection ht with ht
  injection ht with hnow _
  exact absurd hnow hop

theorem StampedAt.connOp {op : Op S} (b : Ans op) (hop : ConnOp op) (h : StampedAt t m) :
    StampedAt t (watch m ⟨op, b⟩) := by
  cases op with
  | read | write | closeStream | onRequest => exact h
  | _ => exact hop.elim

theorem processConnection_watched {stream : Stream} (h : StampedAt t m) :
    Spec watch m (processConnection config stream state) (fun _ => True)
      (fun _ m => StampedAt t m ∧ IdleElapsed config.idleTimeout m) := by
  have hserve : AllCalls ConnOp (serveConnection config stream state : Sys S _) := by
    refine AllCalls.bind (allCalls_readFrame _ _ fun _ => trivial) fun r => ?_
    cases r with
    | ok frame => exact allCalls_dispatch
    | error err => trivial
  have hkept : Spec watch m (serveConnection config stream state) (StampedAt t)
      (fun _ => StampedAt t) :=
    Spec.keep hserve (fun _ _ b hop hm => StampedAt.connOp b hop hm) h
  refine Spec.bind (hkept.mono (fun _ _ => trivial) fun _ _ h => h) ?_
  intro out m _ hm
  refine Spec.call trivial fun _ => .ret trivial ⟨hm, ?_⟩
  exact idleElapsed_of_ne nofun

theorem acceptRound_watched (x : Instant × S) (h : StampedAt x.1 m) :
    Spec watch m (acceptRound config listener x) (fun _ => True)
      (fun r m => Sum.elim (fun x : Instant × S => StampedAt x.1 m)
        (fun d => match d with
          | .wouldBlock t _ => StampedAt t m
          | .over _ _ => IdleElapsed config.idleTimeout m) r) := by
  refine Spec.call trivial fun a => ?_
  cases a with
  | error err =>
    show Spec _ _ (if err.kind = .wouldBlock then _ else _) _ _
    split
    next => exact .ret trivial h
    next => exact .ret trivial (idleElapsed_of_ne nofun)
  | ok stream =>
    refine Spec.call trivial fun b => ?_
    cases b with
    | error err => exact Spec.call trivial fun _ => .ret trivial (idleElapsed_of_ne nofun)
    | ok u =>
      refine Spec.call trivial fun (t : Instant) => ?_
      -- the stamp
      have hstamp : StampedAt t (watch (watch (watch m ⟨.accept listener, .ok stream⟩)
          ⟨.streamNonblocking stream false, .ok u⟩) ⟨.now, t⟩) := ⟨rfl, rfl⟩
      show Spec _ _ ((processConnection config stream x.2).bind _) _ _
      refine Spec.bind (processConnection_watched hstamp) ?_
      intro out m' _ hm
      obtain ⟨outcome, state⟩ := out
      cases outcome with
      | ok o =>
        cases o with
        | «continue» => exact .ret trivial hm.1
        | shutdown => exact .ret trivial hm.2
      | error err => exact .ret trivial hm.2

theorem pollListener_watched (idle : Duration) {timeout : Duration} (h : StampedAt t m) :
    Spec watch m (pollListener listener timeout : SysTry S Bool).run (fun _ => True)
      (fun _ m => StampedAt t m ∧ IdleElapsed idle m) := by
  refine Spec.call trivial fun a => ?_
  have h' : StampedAt t (watch m ⟨.poll listener (pollTimeoutMs timeout), a⟩) := h
  have hne : IdleElapsed idle (watch m ⟨.poll listener (pollTimeoutMs timeout), a⟩) :=
    idleElapsed_of_ne nofun
  cases a with
  | ok p => exact .ret trivial ⟨h', hne⟩
  | error err =>
    show Spec _ _ (Try.run (if err.kind = .interrupted then pure false
      else Try.fail (Error.io err))) _ _
    rw [Try.run_ite]
    split
    next => exact .ret trivial ⟨h', hne⟩
    next => exact .ret trivial ⟨h', hne⟩

theorem eventRound_watched (x : Instant × S) (h : StampedAt x.1 m) :
    Spec watch m (eventRound config listener x) (fun _ => True)
      (fun r m => Sum.elim (fun x : Instant × S => StampedAt x.1 m)
        (fun _ => IdleElapsed config.idleTimeout m) r) := by
  refine Spec.call trivial fun (b : Bool) => ?_
  cases b with
  | true => exact .ret trivial (idleElapsed_of_ne nofun)
  | false =>
    refine Spec.call trivial fun (t : Instant) => ?_
    have hstamp : StampedAt x.1 (watch (watch m ⟨.loadFlag, false⟩) ⟨.now, t⟩) := by
      refine ⟨rfl, ?_⟩
      show (if m.1.armed = true then some t else m.1.lastActivity) = some x.1
      rw [h.1]
      exact h.2
    show Spec _ _ (if _ then _ else _) _ _
    split
    next hzero =>
      refine .ret trivial fun t' ht' => ⟨x.1, hstamp, ?_⟩
      injection ht' with ht'
      injection ht' with _ ht'
      subst ht'
      have hzero := (Duration.isZero_iff _).mp hzero
      rw [Duration.nanos_saturatingSub] at hzero
      omega
    next =>
      refine Spec.bind (pollListener_watched config.idleTimeout hstamp) ?_
      intro r m' _ hm'
      match r with
      | .error err => exact .ret trivial hm'.2
      | .ok false => exact .ret trivial hm'.1
      | .ok true =>
        have hdrain : Spec watch m' (acceptLoop config listener x.1 x.2) (fun _ => True)
            (fun d m => match d with
              | .wouldBlock t _ => StampedAt t m
              | .over _ _ => IdleElapsed config.idleTimeout m) := by
          refine Spec.loop (fun (x : Instant × S) m => StampedAt x.1 m) (fun d m => match d with
              | .wouldBlock t _ => StampedAt t m
              | .over _ _ => IdleElapsed config.idleTimeout m) hm'.1 ?_
            fun d m _ hd => .ret trivial hd
          intro x m hm
          refine (acceptRound_watched x hm).mono (fun _ h => h) fun r m h => ?_
          cases r <;> exact h
        refine Spec.bind hdrain ?_
        intro d m _ hd
        cases d with
        | wouldBlock t s => exact .ret trivial hd
        | «over» result s => exact .ret trivial hd

theorem runEventLoop_watched :
    Spec watch ({}, none) (runEventLoop config listener state) (fun _ => True)
      (fun _ => IdleElapsed config.idleTimeout) := by
  refine Spec.call trivial fun (t : Instant) => ?_
  have hstamp : StampedAt t (watch (({}, none) : Ledger S × _) ⟨.now, t⟩) := ⟨rfl, rfl⟩
  refine Spec.loop (fun (x : Instant × S) m => StampedAt x.1 m)
    (fun _ => IdleElapsed config.idleTimeout) hstamp ?_ fun _ _ _ h => .ret trivial h
  intro x m hm
  refine (eventRound_watched x hm).mono (fun _ h => h) fun r m h => ?_
  cases r <;> exact h

end Loop

/-! ## The stamps and the times -/

/-- What the stamp of a timed history is worth: it is not later than the last event,
and unless a connection was accepted since, no `accept` is later than it. -/
structure Stamps (th : Timed S) : Prop where
  le_last : ∀ t₀, (Ledger.of th.events).lastActivity = some t₀ → ∀ x ∈ th.getLast?, t₀.nanos ≤ x.2
  accepts_le : (Ledger.of th.events).armed = false →
    ∀ t₀, (Ledger.of th.events).lastActivity = some t₀ → ∀ x ∈ th, Accepts x.1 → x.2 ≤ t₀.nanos

theorem not_accepts {op : Op S} {b : Ans op} (h : ∀ l, op ≠ .accept l) :
    ¬ Accepts (⟨op, b⟩ : SysEvent S) := by
  intro ha
  obtain ⟨l, s, he⟩ := ha
  injection he with hop _
  exact h l hop

/-- What an event does to the stamp. -/
theorem step_stamp (L : Ledger S) (e : SysEvent S) :
    (∃ t : Instant, e = ⟨.now, t⟩ ∧ (L.step e).lastActivity = some t) ∨
    ((L.step e).lastActivity = L.lastActivity ∧
      ((L.step e).armed = false → L.armed = false ∧ ¬ Accepts e)) := by
  obtain ⟨op, b⟩ := e
  cases op with
  | now =>
    by_cases harmed : L.armed = true
    · exact .inl ⟨b, rfl, if_pos harmed⟩
    · refine .inr ⟨if_neg harmed, fun _ => ⟨Bool.eq_false_iff.mpr harmed, ?_⟩⟩
      exact not_accepts fun _ h => nomatch h
  | accept l =>
    right
    cases b with
    | ok s => exact ⟨rfl, fun h => nomatch h⟩
    | error err =>
      refine ⟨rfl, fun h => ⟨h, fun ha => ?_⟩⟩
      obtain ⟨l', s, he⟩ := ha
      cases he
  | connect p =>
    right
    cases b <;> exact ⟨rfl, fun h => ⟨h, not_accepts fun _ h => nomatch h⟩⟩
  | onStart =>
    right
    cases b <;> exact ⟨rfl, fun h => ⟨h, not_accepts fun _ h => nomatch h⟩⟩
  | _ => exact .inr ⟨rfl, fun h => ⟨h, not_accepts fun _ h => nomatch h⟩⟩

theorem Clocked.init {th : Timed S} {x : SysEvent S × Int} (h : Clocked (th ++ [x])) :
    Clocked th ∧ ∀ y ∈ th, y.2 ≤ x.2 := by
  have hsorted := List.pairwise_append.mp h.sorted
  refine ⟨⟨hsorted.1, fun t τ hmem => h.readings t τ (List.mem_append_left _ hmem)⟩, ?_⟩
  intro y hy
  exact hsorted.2.2 y hy x (List.mem_singleton_self x)

theorem events_append (th : Timed S) (x : SysEvent S × Int) :
    Timed.events (th ++ [x]) = th.events ++ [x.1] := by simp [Timed.events]

/-- A clock that does not go back makes the stamps mean something. -/
theorem Clocked.stamps {th : Timed S} (h : Clocked th) : Stamps th := by
  induction th using List.reverseRecOn with
  | nil => exact ⟨(fun _ h => nomatch h), fun _ _ h => nomatch h⟩
  | append_singleton th x ih =>
    obtain ⟨hth, hle⟩ := h.init
    have ih := ih hth
    -- what was stamped before is not later than the new event
    have hold : ∀ t₀, (Ledger.of (Timed.events th)).lastActivity = some t₀ → t₀.nanos ≤ x.2 := by
      intro t₀ ht₀
      cases hlast : th.getLast? with
      | none =>
        rw [List.getLast?_eq_none_iff.mp hlast] at ht₀
        cases ht₀
      | some y => exact (ih.le_last t₀ ht₀ y hlast).trans (hle y (List.mem_of_getLast? hlast))
    obtain ⟨e, τ⟩ := x
    constructor
    · intro t₀ ht₀ y hy
      rw [List.getLast?_concat, Option.mem_some_iff] at hy
      subst hy
      rw [events_append, Ledger.of_append] at ht₀
      rcases step_stamp (Ledger.of (Timed.events th)) e with ⟨t, rfl, hact⟩ | ⟨hact, -⟩
      · obtain rfl : t = t₀ := Option.some.inj (hact.symm.trans ht₀)
        exact le_of_eq (h.readings t τ (by simp))
      · exact hold t₀ (hact.symm.trans ht₀)
    · intro harmed t₀ ht₀ y hy hacc
      rw [events_append, Ledger.of_append] at harmed ht₀
      rcases step_stamp (Ledger.of (Timed.events th)) e with ⟨t, rfl, hact⟩ | ⟨hact, hkeep⟩
      · obtain rfl : t = t₀ := Option.some.inj (hact.symm.trans ht₀)
        rw [h.readings t τ (by simp)]
        rcases List.mem_append.mp hy with hy | hy
        · exact hle y hy
        · rw [List.mem_singleton.mp hy]
      · obtain ⟨harmed, hnot⟩ := hkeep harmed
        rcases List.mem_append.mp hy with hy | hy
        · exact ih.accepts_le harmed t₀ (hact.symm.trans ht₀) y hy hacc
        · rw [List.mem_singleton.mp hy] at hacc
          exact absurd hacc hnot

/-- **The idle branch**: a run that ends in it has been idle for the idle timeout iff the
reading that ended it does not lie in the window between the stamp of the last accepted
connection and the end of its processing, both delayed by the idle timeout. -/
theorem idle_exit_quiet_iff (config : DaemonConfig) (listener : Nat) (state : S) (th : Timed S)
    (t : Instant) (hclock : Clocked th) (hidle : IdleExit config listener state th t) :
    QuietSince (t.nanos - config.idleTimeout.nanos) th ↔ ¬ InWindow config.idleTimeout t th := by
  obtain ⟨⟨s, hret⟩, hlast⟩ := hidle
  have helapsed := runEventLoop_watched.returns hret
  rw [foldl_watch] at helapsed
  obtain ⟨t₀, ⟨harmed, ht₀⟩, hnanos⟩ := helapsed t hlast
  -- the clock has not gone back since the stamp
  have hle : t₀.nanos ≤ t.nanos := by
    unfold Timed.events at hlast
    rw [List.getLast?_map, Option.map_eq_some_iff] at hlast
    obtain ⟨⟨e, τ⟩, hlast, rfl⟩ := hlast
    rw [hclock.readings t τ (List.mem_of_getLast? hlast)]
    exact hclock.stamps.le_last t₀ ht₀ _ hlast
  rw [Instant.nanos_durationSince] at hnanos
  have hpassed : t₀.nanos + config.idleTimeout.nanos ≤ t.nanos := by omega
  constructor
  · intro hquiet hwindow
    obtain ⟨_, -, -, x, hx, hcloses, hlt⟩ := hwindow
    have hxle := hquiet x hx (.inr hcloses)
    omega
  · intro hout x hx hkind
    rcases hkind with hacc | hcloses
    · have hxle := hclock.stamps.accepts_le harmed t₀ ht₀ x hx hacc
      omega
    · by_contra hlt
      exact hout ⟨t₀, ht₀, hpassed, x, hx, hcloses, by omega⟩

/-! ## A request that takes longer than the idle timeout -/

/-- So many seconds after `noon`. -/
def secondsLater (n : Fin 100) : Instant :=
  ⟨n.1 * nanosPerSec, by simp [instantLimit, nanosPerSec]; omega, by
    simp [instantLimit, nanosPerSec]; omega⟩

/-- A daemon that exits after two idle seconds. -/
def impatient : DaemonConfig := { idleTimeout := .fromSecs 2 }

/-- Events at one time. -/
def atTime (τ : Int) (h : History Unit) : Timed Unit := h.map fun e => (e, τ)

/-- One connection, whose request takes `n` seconds; the loop ends at `m` seconds. -/
def timedRun (n m : Fin 100) : Timed Unit :=
  atTime 0 (beforeSignal ++ (servesRequest 0).take 3) ++
    atTime (secondsLater n).nanos
      ((servesRequest 0).drop 3 ++ [⟨.accept 0, .error ⟨.wouldBlock, ""⟩⟩]) ++
    atTime (secondsLater m).nanos [⟨.loadFlag, false⟩, ⟨.now, secondsLater m⟩]

/-- `Clocked`, checked. -/
theorem clocked_of_check {th : Timed Unit} (hsorted : th.Pairwise fun x y => x.2 ≤ y.2)
    (hall : th.all (fun x => match x.1 with
      | ⟨.now, t⟩ => decide (t.nanos = x.2)
      | _ => true) = true) : Clocked th :=
  ⟨hsorted, fun _ _ hmem => of_decide_eq_true (List.all_eq_true.mp hall _ hmem)⟩

/-- The idle branch can end the loop although a request has just been finished. -/
theorem exits_after_long_request :
    ¬ ∀ (config : DaemonConfig) (listener : Nat) (state : Unit) (th : Timed Unit) (t : Instant),
      Clocked th → IdleExit config listener state th t →
        QuietSince (t.nanos - config.idleTimeout.nanos) th := by
  intro hclaim
  have hclock : Clocked (timedRun 3 3) := clocked_of_check (by decide +kernel) (by decide +kernel)
  have hidle : IdleExit impatient 0 () (timedRun 3 3) (secondsLater 3) :=
    ⟨⟨(), returns_of_follow 60 (by rfl)⟩, rfl⟩
  have hquiet := hclaim impatient 0 () (timedRun 3 3) (secondsLater 3) hclock hidle
    (⟨.closeStream ⟨0, .server⟩, ()⟩, (secondsLater 3).nanos) (List.mem_of_getElem? (i := 10) rfl)
    (.inr ⟨_, _, rfl⟩)
  exact absurd hquiet (by decide +kernel)

/-- With an instantaneous request the daemon was idle for the idle timeout. -/
theorem idle_exit_quiet_iff_instantaneous :
    QuietSince ((secondsLater 2).nanos - impatient.idleTimeout.nanos) (timedRun 0 2) ↔
      ¬ InWindow impatient.idleTimeout (secondsLater 2) (timedRun 0 2) :=
  idle_exit_quiet_iff impatient 0 () (timedRun 0 2) (secondsLater 2)
    (clocked_of_check (by decide +kernel) (by decide +kernel))
    ⟨⟨(), returns_of_follow 60 (by rfl)⟩, rfl⟩

end Sockd
