import Sockd.Backoff
import Sockd.Effects.Total

/-!
# The waits of a client

`Client::wait_for_shutdown` looks at the socket and at the PID file until both say that the
daemon is gone, and `Client::wait_for_ready` pings until there is an answer; both sleep
between one look and the next. Each comes to its end whatever it finds, because the clock
passes the deadline after as many sleeps as fit before it (`shutdown_wait_ends`,
`ready_wait_ends`). The loops of `std::io` below a ping retry what was interrupted, so the
interruptions must not go on for ever. Every call gets an answer here: nothing else makes the
`read` of a ping return when a daemon does not.
-/

namespace Sockd.Client

open Rust Effects Effects.Prog

variable {S : Type}

/-- The clock, how often the client has slept, and how often it can still be interrupted. -/
structure Naps where
  now : Int
  sleeps : Nat
  interrupts : Nat

/-- The clock does not go back; the other calls answer what they like. -/
def Timely (s : Naps) : SysEvent S → Prop
  | ⟨.now, t⟩ => s.now ≤ t.nanos
  | ⟨.read _ _, .error err⟩ => err.kind = .interrupted → 0 < s.interrupts
  | ⟨.write _ _, .error err⟩ => err.kind = .interrupted → 0 < s.interrupts
  | _ => True

/-- A sleep takes its time, and some time in any case. -/
def Naps.pass (s : Naps) : SysEvent S → Naps
  | ⟨.now, t⟩ => { s with now := t.nanos }
  | ⟨.sleep d, _⟩ => { s with now := s.now + (max 1 d.nanos : Nat), sleeps := s.sleeps + 1 }
  | ⟨.read _ _, .error err⟩ =>
    if err.kind = .interrupted then { s with interrupts := s.interrupts - 1 } else s
  | ⟨.write _ _, .error err⟩ =>
    if err.kind = .interrupted then { s with interrupts := s.interrupts - 1 } else s
  | _ => s

/-- How many sleeps of at least this time begin before the deadline. -/
def napsBefore (nap : Nat) (deadline : Instant) (s : Naps) : Nat :=
  ((deadline.nanos - s.now).toNat + (nap - 1)) / nap

/-- An `Instant` can hold what the clock shows. -/
def Naps.OnClock (s : Naps) : Prop := -instantLimit ≤ s.now ∧ s.now < instantLimit

section Wait

variable {c : Client} {s : Naps} {deadline : Instant}

theorem readPid_ends (path : Path) :
    Total Timely Naps.pass (readPid path : SysTry S (Option UInt32)).run s fun _ s' => s' = s := by
  refine Total.attempt (R := fun _ s' => s' = s) ?_ ?_
  · refine Total.keeping (.call ⟨.error ⟨.notFound, ""⟩, trivial⟩ fun _ _ => .ret rfl) ?_
    rintro file _ rfl
    refine Total.keeping (.call ⟨.ok [], trivial⟩ fun _ _ => .ret rfl) ?_
    rintro bytes _ rfl
    split <;> exact .ret rfl
  · rintro r _ rfl
    split
    next => exact .ret rfl
    next =>
      rw [Try.run_ite]
      split <;> exact .ret rfl

theorem isProcessAlive_ends (pid : UInt32) :
    Total Timely Naps.pass (isProcessAlive pid : Sys S Bool) s fun _ s' => s' = s := by
  refine .call ⟨.ok (), trivial⟩ fun answer _ => ?_
  cases answer <;> exact .ret rfl

theorem pidFilePointsToLiveProcess_ends :
    Total Timely Naps.pass (c.pidFilePointsToLiveProcess : SysTry S Bool).run s
      fun _ s' => s' = s := by
  unfold pidFilePointsToLiveProcess
  split
  next => exact .ret rfl
  next path _ =>
    refine Total.keeping (readPid_ends path) ?_
    rintro pid? _ rfl
    split
    next pid => exact (isProcessAlive_ends pid).bind fun _ _ hs => .ret hs
    next => exact .ret rfl

theorem shutdownComplete_ends :
    Total Timely Naps.pass (c.shutdownComplete : SysTry S Bool).run s fun _ s' => s' = s := by
  refine Total.keeping ?_ ?_
  · refine Total.attempt (R := fun _ s' => s' = s)
      (.call ⟨.ok (), trivial⟩ fun _ _ => .ret rfl) ?_
    rintro r _ rfl
    cases r with
    | ok u => exact .ret rfl
    | error err =>
      show Total _ _ (Try.run (if err.kind = .notFound then _ else _)) _ _
      rw [Try.run_ite]
      split <;> exact .ret rfl
  · rintro gone _ rfl
    rw [Try.run_ite]
    split
    next =>
      refine Total.keeping pidFilePointsToLiveProcess_ends ?_
      rintro live _ rfl
      exact .ret rfl
    next => exact .ret rfl

/-- Rounding up, one step of `q` less. -/
theorem steps_lt {a b q : Nat} (hq : 0 < q) (hb : 0 < b) (h : a ≤ b - q) :
    (a + (q - 1)) / q < (b + (q - 1)) / q := by
  rcases Nat.le_total q b with hle | hle
  · calc (a + (q - 1)) / q < (a + (q - 1)) / q + 1 := Nat.lt_succ_self _
      _ = (a + (q - 1) + q) / q := (Nat.add_div_right _ hq).symm
      _ ≤ (b + (q - 1)) / q := Nat.div_le_div_right (by omega)
  · have ha : a = 0 := by omega
    rw [ha, Nat.zero_add, Nat.div_eq_of_lt (Nat.sub_one_lt_of_lt hq)]
    exact Nat.div_pos (by omega) hq

/-- A sleep that begins before the deadline. -/
theorem napsBefore_lt {nap : Nat} (hnap : 0 < nap) {s' : Naps} (hbefore : s.now < deadline.nanos)
    (hslept : s.now + nap ≤ s'.now) : napsBefore nap deadline s' < napsBefore nap deadline s :=
  steps_lt hnap (by omega) (by omega)

/-! ## The wait for a daemon to be gone -/

/-- How long a sleep of `wait_for_shutdown` takes. -/
def nap : Nat := (Duration.fromMillis 20).nanos

/-- A round goes on only after a sleep that began before the deadline. -/
theorem shutdownRound_ends (hs : s.OnClock) (hdeadline : deadline.nanos + nap ≤ instantLimit) :
    Total Timely Naps.pass (c.shutdownRound deadline : SysTry S (Unit ⊕ Unit)).run s fun r s' =>
      match r with
      | .ok (.inl ()) => s'.OnClock ∧ s'.sleeps = s.sleeps + 1 ∧
          napsBefore nap deadline s' < napsBefore nap deadline s
      | _ => s'.sleeps = s.sleeps := by
  refine shutdownComplete_ends.bind ?_
  rintro r s rfl
  cases r with
  | error err => exact .ret rfl
  | ok gone =>
    cases gone with
    | true => exact .ret rfl
    | false =>
      refine .call ⟨(⟨s.now, hs.1, hs.2⟩ : Instant), le_refl s.now⟩ fun (t : Instant) ht => ?_
      have ht : s.now ≤ t.nanos := ht
      show Total _ _ (Try.run (if t.before deadline = true then _ else _)) _ _
      rw [Try.run_ite]
      split
      next hbefore =>
        have hbefore := (Instant.before_iff t deadline).mp hbefore
        have hge := hs.1
        refine .call ⟨(), trivial⟩ fun _ _ => .ret ⟨⟨?_, ?_⟩, rfl,
          napsBefore_lt (by decide) (by omega) ?_⟩
        · show -instantLimit ≤ t.nanos + (nap : Nat)
          omega
        · show t.nanos + (nap : Nat) < instantLimit
          omega
        · show s.now + (nap : Nat) ≤ t.nanos + (nap : Nat)
          omega
      next => exact .ret rfl

/-- Whatever it finds, a client that waits for a daemon to be gone comes to the end of the wait;
it sleeps at most as often as sleeps of 20 milliseconds begin before the deadline. -/
theorem shutdown_wait_ends (hs : s.OnClock) (hdeadline : deadline.nanos + nap ≤ instantLimit) :
    Total Timely Naps.pass
      (Try.repeating (fun _ => c.shutdownRound deadline) () : SysTry S Unit).run s fun _ s' =>
        s'.sleeps ≤ s.sleeps + napsBefore nap deadline s := by
  refine Total.mono (.loop_of_budget (fun _ s' => s'.OnClock)
    (fun _ s' => napsBefore nap deadline s') Naps.sleeps (fun _ _ => True) ?_ hs)
    fun _ _ hend => hend.2
  intro _ s' hs'
  refine (shutdownRound_ends hs' hdeadline).bind fun r s'' hround => ?_
  match r, hround with
  | .error err, hsleeps => exact .ret ⟨trivial, hsleeps.le.trans (Nat.le_add_right _ _)⟩
  | .ok (.inr ()), hsleeps => exact .ret ⟨trivial, hsleeps.le.trans (Nat.le_add_right _ _)⟩
  | .ok (.inl ()), ⟨hclock, hsleeps, hfewer⟩ =>
    exact .ret ⟨hclock, hfewer, Nat.le_of_eq hsleeps⟩

/-- A wait for a second. -/
theorem shutdown_wait_ends_second : Total Timely Naps.pass
    (Try.repeating (fun _ => ({ socketPath := ["s"] } : Client).shutdownRound
      ⟨1000000000, by decide, by decide⟩) () : SysTry Unit Unit).run ⟨0, 0, 0⟩ fun _ s =>
        s.sleeps ≤ 0 + 50 :=
  shutdown_wait_ends ⟨by decide, by decide⟩ (by decide)

/-! ## The wait for a daemon to be ready -/

/-- No time has passed that counts. -/
def Naps.Same (s s' : Naps) : Prop := s'.now = s.now ∧ s'.sleeps = s.sleeps

theorem Naps.Same.trans {s₁ s₂ : Naps} (h : s.Same s₁) (h' : s₁.Same s₂) : s.Same s₂ :=
  ⟨h'.1.trans h.1, h'.2.trans h.2⟩

/-- Every read makes progress, fails, or uses up an interruption. -/
theorem readExact_ends (stream : Stream) (n : Nat) :
    Total Timely Naps.pass (stream.reader.readExact n : SysIo S (Filled n)).run s
      fun _ s' => s.Same s' := by
  refine .loop_of_measure (fun _ s' => s.Same s')
    (fun (acc : Chunk n) s' => n - acc.1.length + s'.interrupts) (fun _ s' => s.Same s') ?_
    (fun r s' (hend : s.Same s') => .ret (a := r) hend) ⟨rfl, rfl⟩
  intro acc s' hsame
  split
  next hlt =>
    -- what is missing and what can interrupt it, together, go down
    refine .call ⟨.ok (nothing _), trivial⟩ fun b hb => ?_
    cases b with
    | ok d =>
      show Total _ _ (readNext acc (.ok d)) _ _
      rw [readNext]
      split
      next => exact .ret hsame
      next hne =>
        refine .ret ⟨hsame, ?_⟩
        have hpos := List.length_pos_of_ne_nil hne
        show n - (acc.1 ++ d.1).length + s'.interrupts < n - acc.1.length + s'.interrupts
        rw [List.length_append]
        omega
    | error err =>
      show Total _ _ (readNext acc (.error err)) (if err.kind = .interrupted then _ else _) _
      rw [readNext]
      split
      next hinterrupted =>
        have hleft : 0 < s'.interrupts := hb hinterrupted
        refine .ret ⟨hsame, ?_⟩
        show n - acc.1.length + (s'.interrupts - 1) < n - acc.1.length + s'.interrupts
        omega
      next => exact .ret hsame
  next => exact .ret hsame

/-- Every write makes progress, fails, or uses up an interruption. -/
theorem writeAll_ends (stream : Stream) (buf : Bytes) :
    Total Timely Naps.pass (stream.writer.writeAll buf : SysIo S Unit).run s
      fun _ s' => s.Same s' := by
  refine .loop_of_measure (fun _ s' => s.Same s')
    (fun (rest : Bytes) s' => rest.length + s'.interrupts) (fun _ s' => s.Same s') ?_
    (fun r s' (hend : s.Same s') => .ret (a := r) hend) ⟨rfl, rfl⟩
  intro rest s' hsame
  split
  next => exact .ret hsame
  next hne =>
    refine .call ⟨.ok (whole _), trivial⟩ fun b hb => ?_
    cases b with
    | ok k =>
      show Total _ _ (writeNext rest (.ok k)) _ _
      rw [writeNext]
      split
      next => exact .ret hsame
      next htaken =>
        refine .ret ⟨hsame, ?_⟩
        have hpos := List.length_pos_of_ne_nil hne
        show (rest.drop k.1).length + s'.interrupts < rest.length + s'.interrupts
        rw [List.length_drop]
        omega
    | error err =>
      show Total _ _ (writeNext rest (.error err)) (if err.kind = .interrupted then _ else _) _
      rw [writeNext]
      split
      next hinterrupted =>
        have hleft : 0 < s'.interrupts := hb hinterrupted
        refine .ret ⟨hsame, ?_⟩
        show rest.length + (s'.interrupts - 1) < rest.length + s'.interrupts
        omega
      next => exact .ret hsame

theorem mapErr_ends {α ε ε' : Type} {p : Try (sysSig S) ε α} {f : ε → ε'} {R : Naps → Prop}
    (hp : Total Timely Naps.pass p.run s fun _ => R) :
    Total Timely Naps.pass (p.mapErr f).run s fun _ => R :=
  hp.bind fun _ _ hs => .ret hs

theorem readFrame_ends (stream : Stream) (maxPayloadLen : Nat) :
    Total Timely Naps.pass (readFrame stream.reader maxPayloadLen : SysTry S Frame).run s
      fun _ s' => s.Same s' := by
  refine Total.keeping (mapErr_ends (readExact_ends stream headerLen)) fun headerBuf s₁ h₁ => ?_
  refine Total.keeping (.ret h₁) fun header s₂ h₂ => ?_
  rw [Try.run_ite]
  split
  next => exact .ret h₂
  next =>
    refine Total.keeping (mapErr_ends ((readExact_ends stream _).mono fun _ _ => h₂.trans)) ?_
    exact fun _ _ h₃ => .ret h₃

theorem writeFrame_ends (stream : Stream) (kind : FrameKind) (payload : Bytes) :
    Total Timely Naps.pass (writeFrame stream.writer kind payload : SysTry S Unit).run s
      fun _ s' => s.Same s' := by
  unfold writeFrame writeFrameWithFlags
  rw [Try.run_ite]
  split
  next => exact .ret ⟨rfl, rfl⟩
  next =>
    refine Total.keeping (mapErr_ends (writeAll_ends stream _)) fun _ s₁ h₁ => ?_
    refine Total.keeping (mapErr_ends ((writeAll_ends stream _).mono fun _ _ => h₁.trans)) ?_
    exact fun _ _ h₂ => .ret h₂

theorem tryPingOnce_ends :
    Total Timely Naps.pass (c.tryPingOnce : SysTry S Unit).run s fun _ s' => s.Same s' := by
  refine Total.keeping (mapErr_ends (.call ⟨.error ⟨.notFound, ""⟩, trivial⟩ fun _ _ =>
    .ret ⟨rfl, rfl⟩)) fun stream s₁ h₁ => ?_
  refine Total.bind (R := fun _ s' => s.Same s') ?_ fun _ _ h =>
    .call ⟨(), trivial⟩ fun _ _ => .ret h
  refine Total.keeping ?_ fun frame s₂ h₂ => .ret h₂
  refine Total.keeping ((writeFrame_ends stream .ping []).mono fun _ _ => h₁.trans) ?_
  exact fun _ s₂ h₂ => (readFrame_ends stream c.maxPayloadLen).mono fun _ _ => h₂.trans

/-- The shortest sleep of `wait_for_ready`. -/
def shortestNap (a : AutoStart) : Nat := max 1 (min a.initialBackoff.nanos a.maxBackoff.nanos)

/-- The longest. -/
def longestNap (a : AutoStart) : Nat := max 1 (max a.initialBackoff.nanos a.maxBackoff.nanos)

/-- A backoff between the smaller and the larger of the two that are set. -/
def Bounded (a : AutoStart) (backoff : Duration) : Prop :=
  min a.initialBackoff.nanos a.maxBackoff.nanos ≤ backoff.nanos ∧
    backoff.nanos ≤ max a.initialBackoff.nanos a.maxBackoff.nanos

theorem bounded_initial (a : AutoStart) : Bounded a a.initialBackoff :=
  ⟨Nat.min_le_left _ _, Nat.le_max_left _ _⟩

/-- Doubling a backoff up to the longest one keeps it between the bounds. -/
theorem Bounded.next {a : AutoStart} {backoff : Duration} (h : Bounded a backoff) :
    Bounded a ((backoff.saturatingMul 2).min a.maxBackoff) := by
  have hdouble := backoff.le_saturatingMul
  obtain ⟨hshort, hlong⟩ := h
  unfold Bounded
  unfold Duration.min
  split <;> omega

/-- A sleep for it is between the shortest and the longest. -/
theorem Bounded.naps {a : AutoStart} {backoff : Duration} (h : Bounded a backoff) :
    shortestNap a ≤ max 1 backoff.nanos ∧ max 1 backoff.nanos ≤ longestNap a := by
  obtain ⟨hshort, hlong⟩ := h
  unfold shortestNap longestNap
  omega

/-- A round goes on only after a sleep that began before the deadline. -/
theorem readyRound_ends {a : AutoStart} {backoff : Duration} (hs : s.OnClock)
    (hbackoff : Bounded a backoff) (hdeadline : deadline.nanos + longestNap a ≤ instantLimit) :
    Total Timely Naps.pass (c.readyRound a deadline backoff : SysTry S (Duration ⊕ Unit)).run s
      fun r s' => match r with
        | .ok (.inl next) => Bounded a next ∧ s'.OnClock ∧ s'.sleeps = s.sleeps + 1 ∧
            napsBefore (shortestNap a) deadline s' < napsBefore (shortestNap a) deadline s
        | _ => s'.sleeps = s.sleeps := by
  refine Total.attempt tryPingOnce_ends fun r s₁ hsame => ?_
  cases r with
  | ok u => exact .ret hsame.2
  | error err =>
    show Total _ _ (Try.run (if canAttemptRecovery err = true then _ else _)) _ _
    rw [Try.run_ite]
    split
    next =>
      have hnow : s₁.OnClock := by
        unfold Naps.OnClock
        rwa [hsame.1]
      refine .call ⟨(⟨s₁.now, hnow.1, hnow.2⟩ : Instant), le_refl s₁.now⟩ fun (t : Instant) ht => ?_
      have ht : s.now ≤ t.nanos := hsame.1 ▸ ht
      show Total _ _ (Try.run (if t.before deadline = true then _ else _)) _ _
      rw [Try.run_ite]
      split
      next hbefore =>
        have hbefore := (Instant.before_iff t deadline).mp hbefore
        have hge := hs.1
        have hnext := hbackoff.next
        obtain ⟨hshort, hlong⟩ := hbackoff.naps
        -- a backoff of zero still takes some time
        have hpos : 0 < shortestNap a := Nat.lt_of_lt_of_le Nat.one_pos (Nat.le_max_left _ _)
        refine .call ⟨(), trivial⟩ fun _ _ => .ret ⟨hnext, ⟨?_, ?_⟩, ?_,
          napsBefore_lt hpos (by omega) ?_⟩
        · show -instantLimit ≤ t.nanos + (max 1 backoff.nanos : Nat)
          omega
        · show t.nanos + (max 1 backoff.nanos : Nat) < instantLimit
          omega
        · exact congrArg (· + 1) hsame.2
        · show s.now + shortestNap a ≤ t.nanos + (max 1 backoff.nanos : Nat)
          omega
      next => exact .ret hsame.2
    next => exact .ret hsame.2

/-- The sleeps of a wait are for backoffs between the bounds. -/
theorem ready_wait_sleeps (a : AutoStart) :
    Spec Spec.record []
      (Try.repeating (c.readyRound a deadline) a.initialBackoff : SysTry S Unit).run
      (fun h => ∀ d u, ⟨.sleep d, u⟩ ∈ h → Bounded a d) fun _ _ => True := by
  refine Spec.loop (fun backoff h => Bounded a backoff ∧ ∀ d u, ⟨.sleep d, u⟩ ∈ h → Bounded a d)
    (fun _ _ => True) ⟨bounded_initial a, nofun⟩ ?_ fun _ _ hsleeps _ => .ret hsleeps trivial
  rintro backoff h ⟨hbackoff, hsleeps⟩
  have hround : Spec Spec.record h (c.readyRound a deadline backoff : SysTry S _).run
      (fun h => ∀ d u, ⟨.sleep d, u⟩ ∈ h → Bounded a d)
      (fun r _ => ∀ next, r = .ok (.inl next) → Bounded a next) := by
    refine ⟨fun hr => ?_, fun hr => ?_⟩
    · rw [Spec.foldl_record]
      intro d u hd
      rcases List.mem_append.mp hd with hd | hd
      · exact hsleeps d u hd
      · -- a round sleeps for the backoff that it was given
        rw [(readyRound_sleeps ⟨_, hr⟩ d u hd).1]
        exact hbackoff
    · rintro next rfl
      cases readyRound_returns hr
      exact hbackoff.next
  refine Spec.bind hround fun r h hsleeps hnext => ?_
  cases r with
  | error err => exact .ret hsleeps trivial
  | ok r =>
    cases r with
    | inl next => exact .ret hsleeps ⟨hnext next rfl, hsleeps⟩
    | inr u => exact .ret hsleeps trivial

/-- Whatever its pings come to, a client that waits for a daemon to be ready comes to the end of
the wait; it sleeps at most as often as sleeps of the shortest kind begin before the deadline.
No sleep of it is shorter or longer than the two backoffs that are set. -/
theorem ready_wait_ends (a : AutoStart) (hs : s.OnClock)
    (hdeadline : deadline.nanos + longestNap a ≤ instantLimit) :
    Total Timely Naps.pass
      (Try.repeating (c.readyRound a deadline) a.initialBackoff : SysTry S Unit).run s (fun _ s' =>
        s'.sleeps ≤ s.sleeps + napsBefore (shortestNap a) deadline s) ∧
      ∀ h, Traces (Try.repeating (c.readyRound a deadline) a.initialBackoff : SysTry S Unit).run h →
        ∀ d u, ⟨.sleep d, u⟩ ∈ h → Bounded a d := by
  constructor
  · refine Total.mono (.loop_of_budget (fun backoff s' => Bounded a backoff ∧ s'.OnClock)
      (fun _ s' => napsBefore (shortestNap a) deadline s') Naps.sleeps (fun _ _ => True) ?_
      ⟨bounded_initial a, hs⟩) fun _ _ hend => hend.2
    rintro backoff s' ⟨hbackoff, hs'⟩
    refine (readyRound_ends hs' hbackoff hdeadline).bind fun r s'' hround => ?_
    match r, hround with
    | .error err, hsleeps => exact .ret ⟨trivial, hsleeps.le.trans (Nat.le_add_right _ _)⟩
    | .ok (.inr ()), hsleeps => exact .ret ⟨trivial, hsleeps.le.trans (Nat.le_add_right _ _)⟩
    | .ok (.inl next), ⟨hnext, hclock, hsleeps, hfewer⟩ =>
      exact .ret ⟨⟨hnext, hclock⟩, hfewer, Nat.le_of_eq hsleeps⟩
  · rintro h ⟨q, hq⟩ d u hd
    have hsleeps := (ready_wait_sleeps a).always hq
    rw [Spec.foldl_record] at hsleeps
    exact hsleeps d u hd

/-- A wait of two seconds that begins with sleeps of 50 milliseconds. -/
theorem ready_wait_ends_default :
    Total Timely Naps.pass
      (Try.repeating (({ socketPath := ["s"] } : Client).readyRound { program := ["d"] }
        ⟨2000000000, by decide, by decide⟩) (.fromMillis 50) : SysTry Unit Unit).run ⟨0, 0, 3⟩
        (fun _ s => s.sleeps ≤ 0 + 40) ∧
      ∀ h, Traces (Try.repeating (({ socketPath := ["s"] } : Client).readyRound
          { program := ["d"] } ⟨2000000000, by decide, by decide⟩) (.fromMillis 50) :
            SysTry Unit Unit).run h →
        ∀ d u, ⟨.sleep d, u⟩ ∈ h → Bounded { program := ["d"] } d :=
  ready_wait_ends { program := ["d"] } ⟨by decide, by decide⟩ (by decide)

end Wait

end Sockd.Client
