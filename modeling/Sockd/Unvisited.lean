import Sockd.Durations
import Sockd.Effects.Total

/-!
# A daemon that nobody visits

`Durations` says that no poll outlasts the idle time. Here the loop is followed to its
end: from any round on, a daemon that nobody connects to leaves its loop, with its state
as it was and without a call of a callback (`unvisited_stops`). The timeout of a poll is
in whole milliseconds, so the last one before the end is cut off, and what is left of
the idle time then is spent in polls that do not wait. `pollsWithin` counts both kinds.
A poll that a signal interrupts need not wait at all, so those are counted apart, and one
that fails is the last.
-/

namespace Sockd

open Rust Effects

variable {S : Type}

/-- The clock, how often the daemon has polled, how often a poll can still be interrupted,
and the failure of a poll. -/
structure Vigil where
  now : Int
  polls : Nat
  interrupts : Nat
  failed : Option IoError

/-- Nobody connects, and the clock does not go back. -/
def Unvisited (s : Vigil) : SysEvent S → Prop
  | ⟨.loadFlag, _⟩ => True
  | ⟨.now, t⟩ => s.now ≤ t.nanos
  | ⟨.poll _ _, .ok p⟩ => p.ready = 0
  | ⟨.poll _ _, .error err⟩ => err.kind = .interrupted → 0 < s.interrupts
  | _ => False

/-- A poll takes its timeout, and some time in any case. -/
def took (timeout : Duration) : Nat := max 1 (pollTimeoutMs timeout * 1000000)

/-- The clock goes on while the daemon polls, unless the poll is cut short. -/
def Vigil.pass (s : Vigil) : SysEvent S → Vigil
  | ⟨.now, t⟩ => { s with now := t.nanos }
  | ⟨.poll _ ms, .ok _⟩ =>
    { s with now := s.now + (max 1 (ms * 1000000) : Nat), polls := s.polls + 1 }
  | ⟨.poll _ _, .error err⟩ =>
    if err.kind = .interrupted then
      { s with polls := s.polls + 1, interrupts := s.interrupts - 1 }
    else { s with polls := s.polls + 1, failed := some err }
  | _ => s

/-- What the loop is left with. -/
def Vigil.outcome (s : Vigil) : Except Error Unit :=
  match s.failed with
  | none => .ok ()
  | some err => .error (.io err)

/-- The idle time that is left. -/
def Vigil.left (s : Vigil) (config : DaemonConfig) (lastActivity : Instant) : Nat :=
  config.idleTimeout.nanos - (s.now - lastActivity.nanos).toNat

/-- The longest a poll waits. -/
def longestPoll (config : DaemonConfig) : Nat := pollTimeoutMs config.pollInterval * 1000000

/-- How many polls fit into this time. -/
def pollsWithin (config : DaemonConfig) (left : Nat) : Nat :=
  if longestPoll config = 0 then left else left / longestPoll config + min left 1000000

/-- How many polls there can still be: those, and the ones that are interrupted. -/
def Vigil.pollsLeft (s : Vigil) (config : DaemonConfig) (lastActivity : Instant) : Nat :=
  pollsWithin config (s.left config lastActivity) + s.interrupts

section Unvisited

variable {config : DaemonConfig} {listener : Nat} {lastActivity : Instant} {state : S} {s : Vigil}

theorem pollsWithin_mono {a b : Nat} (h : a ≤ b) : pollsWithin config a ≤ pollsWithin config b := by
  unfold pollsWithin
  split
  next => exact h
  next =>
    have hdiv : a / longestPoll config ≤ b / longestPoll config := Nat.div_le_div_right h
    omega

/-- A poll of the longest kind, or one that leaves less than a millisecond. -/
theorem fewer_within {left spent q : Nat} (hq : 0 < q)
    (h : q ≤ spent ∧ spent ≤ left ∨ left - spent < left ∧ left - spent < 1000000) :
    (left - spent) / q + min (left - spent) 1000000 < left / q + min left 1000000 := by
  have hle : left - spent ≤ left := Nat.sub_le _ _
  rcases h with ⟨hspent, hleft⟩ | ⟨hless, hshort⟩
  · have hdiv : (left - spent) / q < left / q := by
      calc (left - spent) / q ≤ (left - q) / q := Nat.div_le_div_right (Nat.sub_le_sub_left hspent _)
        _ = left / q - 1 := by
          have hstep := Nat.sub_mul_div left q 1
          rwa [Nat.mul_one] at hstep
        _ < left / q :=
          Nat.sub_one_lt_of_lt (Nat.div_pos (hspent.trans hleft) hq)
    exact Nat.add_lt_add_of_lt_of_le hdiv (min_le_min_right _ hle)
  · have hmin : min (left - spent) 1000000 < min left 1000000 :=
      Nat.lt_of_le_of_lt (Nat.min_le_left _ _) (lt_min hless hshort)
    exact Nat.add_lt_add_of_le_of_lt (Nat.div_le_div_right hle) hmin

/-- What is left after a poll that is cut off is less than a millisecond. -/
theorem cut_off {left : Nat} (hleft : 0 < left) :
    left - max 1 (left / 1000000 * 1000000) < left ∧
      left - max 1 (left / 1000000 * 1000000) < 1000000 := by
  omega

/-- A poll takes time away from what is left, and not more than that. -/
theorem took_le {left : Duration} (hleft : 0 < left.nanos) :
    took (left.min config.pollInterval) ≤ left.nanos :=
  Nat.max_le.mpr ⟨hleft, (pollTimeoutMs_le _).2.trans (min_le_left _ _)⟩

/-- One poll less fits into what a poll leaves. -/
theorem pollsWithin_lt {left : Duration} (hleft : 0 < left.nanos) :
    pollsWithin config (left.nanos - took (left.min config.pollInterval)) <
      pollsWithin config left.nanos := by
  have htook : took (left.min config.pollInterval) ≤ left.nanos := took_le hleft
  unfold took at htook ⊢
  unfold pollsWithin
  split
  next => exact Nat.sub_lt hleft (Nat.lt_of_lt_of_le Nat.one_pos (Nat.le_max_left _ _))
  next hq =>
    refine fewer_within (Nat.pos_of_ne_zero hq) ?_
    unfold Duration.min at htook ⊢
    split at htook
    next hle =>
      rw [if_pos hle]
      -- `poll` takes no more than `i32::MAX` milliseconds
      rcases Nat.le_total (left.nanos / 1000000) i32Max with hfits | hmax
      · have hms : pollTimeoutMs left = left.nanos / 1000000 := Nat.min_eq_left hfits
        rw [hms]
        exact .inr (cut_off hleft)
      · have hms : pollTimeoutMs left = i32Max := Nat.min_eq_right hmax
        refine .inl ⟨?_, htook⟩
        rw [hms]
        exact (Nat.mul_le_mul_right _ (pollTimeoutMs_le _).1).trans (Nat.le_max_right _ _)
    next hlong =>
      rw [if_neg hlong]
      exact .inl ⟨Nat.le_max_right _ _, htook⟩

/-- The end of the idle time can be read off the clock, and has not come before `s`; no poll
has failed yet. -/
structure InTime (config : DaemonConfig) (lastActivity : Instant) (s : Vigil) : Prop where
  later : lastActivity.nanos ≤ s.now
  clock : s.now < instantLimit
  ends : lastActivity.nanos + config.idleTimeout.nanos < instantLimit
  well : s.failed = none

/-- What a poll of a daemon that nobody visits comes to. -/
inductive PollEnd (timeout : Duration) (s : Vigil) : Except Error Bool → Vigil → Prop
  | timedOut : PollEnd timeout s (.ok false)
      { s with now := s.now + took timeout, polls := s.polls + 1 }
  | interrupted : 0 < s.interrupts → PollEnd timeout s (.ok false)
      { s with polls := s.polls + 1, interrupts := s.interrupts - 1 }
  | failed (err : IoError) : PollEnd timeout s (.error (.io err))
      { s with polls := s.polls + 1, failed := some err }

theorem pollListener_unvisited (timeout : Duration) :
    Total Unvisited Vigil.pass (pollListener listener timeout : SysTry S Bool).run s
      (PollEnd timeout s) := by
  refine .call ⟨.ok ⟨0, false⟩, rfl⟩ fun polled hpolled => ?_
  cases polled with
  | ok p =>
    have hready : p.ready = 0 := hpolled
    have hnothing : (decide (0 < p.ready) && p.pollIn) = false := by
      rw [hready]
      rfl
    show Total _ _ (Prog.ret (Except.ok (decide (0 < p.ready) && p.pollIn))) _ _
    rw [hnothing]
    exact .ret .timedOut
  | error err =>
    have hbudget : err.kind = .interrupted → 0 < s.interrupts := hpolled
    show Total _ _ (Try.run (if err.kind = .interrupted then _ else _))
      (if err.kind = .interrupted then _ else _) _
    rw [Try.run_ite]
    split
    next hinterrupted => exact .ret (.interrupted (hbudget hinterrupted))
    next => exact .ret (.failed err)

/-- A round ends the loop, or it is a poll that nothing came of. -/
theorem eventRound_unvisited (hs : InTime config lastActivity s) :
    Total Unvisited Vigil.pass (eventRound config listener (lastActivity, state)) s fun r s' =>
      Sum.elim
        (fun x => (x = (lastActivity, state) ∧ InTime config lastActivity s') ∧
          s'.pollsLeft config lastActivity < s.pollsLeft config lastActivity ∧
          s'.polls ≤ s.polls + 1)
        (fun out => out = (s'.outcome, state) ∧
          s'.polls ≤ s.polls + s.pollsLeft config lastActivity) r := by
  have hover : (Except.ok () : Except Error Unit) = s.outcome := by
    unfold Vigil.outcome
    rw [hs.well]
  refine .call ⟨false, trivial⟩ fun (b : Bool) _ => ?_
  cases b with
  | true => exact .ret ⟨Prod.ext hover rfl, Nat.le_add_right _ _⟩
  | false =>
    have hnow : -instantLimit ≤ s.now := lastActivity.ge_limit.trans hs.later
    -- the clock may show any time that is not before `s`
    refine .call ⟨(⟨s.now, hnow, hs.clock⟩ : Instant), le_refl s.now⟩ fun (t : Instant) ht => ?_
    have ht : s.now ≤ t.nanos := ht
    show Total _ _ (if _ then _ else _) _ _
    split
    next => exact .ret ⟨Prod.ext hover rfl, Nat.le_add_right _ _⟩
    next hleft =>
      have hidle : (config.idleTimeout.saturatingSub (t.durationSince lastActivity)).nanos =
          config.idleTimeout.nanos - (t.nanos - lastActivity.nanos).toNat := rfl
      generalize config.idleTimeout.saturatingSub (t.durationSince lastActivity) = left
        at hidle hleft ⊢
      have hpos : 0 < left.nanos := Nat.pos_of_ne_zero (mt (Duration.isZero_iff _).mpr hleft)
      have hlater : lastActivity.nanos ≤ t.nanos := hs.later.trans ht
      have hbefore : left.nanos ≤ s.left config lastActivity := by
        unfold Vigil.left
        omega
      have hless : pollsWithin config (left.nanos - took (left.min config.pollInterval)) <
          pollsWithin config (s.left config lastActivity) :=
        Nat.lt_of_lt_of_le (pollsWithin_lt hpos) (pollsWithin_mono hbefore)
      refine Total.bind (pollListener_unvisited (left.min config.pollInterval)) ?_
      intro _ _ hpolled
      cases hpolled with
      | timedOut =>
        -- the poll waits for what is left at most, so the clock stays within the idle time
        have hfits : took (left.min config.pollInterval) ≤ left.nanos := took_le hpos
        have hends := hs.ends
        refine .ret ⟨⟨rfl, ?_, ?_, hends, hs.well⟩, ?_, Nat.le_refl _⟩
        · show lastActivity.nanos ≤ t.nanos + took _
          omega
        · show t.nanos + took _ < instantLimit
          omega
        · have hafter : config.idleTimeout.nanos -
              (t.nanos + took (left.min config.pollInterval) - lastActivity.nanos).toNat =
                left.nanos - took (left.min config.pollInterval) := by omega
          show pollsWithin config (config.idleTimeout.nanos -
              (t.nanos + took (left.min config.pollInterval) - lastActivity.nanos).toNat) +
              s.interrupts < pollsWithin config (s.left config lastActivity) + s.interrupts
          rw [hafter]
          exact Nat.add_lt_add_right hless _
      | interrupted hbudget =>
        have hbudget : 0 < s.interrupts := hbudget
        -- the clock need not have moved, but one interruption less can come
        refine .ret ⟨⟨rfl, hlater, t.lt_limit, hs.ends, hs.well⟩, ?_, Nat.le_refl _⟩
        show pollsWithin config (config.idleTimeout.nanos - (t.nanos - lastActivity.nanos).toNat) +
          (s.interrupts - 1) < pollsWithin config (s.left config lastActivity) + s.interrupts
        rw [← hidle]
        have hle : pollsWithin config left.nanos ≤ pollsWithin config (s.left config lastActivity) :=
          pollsWithin_mono hbefore
        omega
      | failed err =>
        refine .ret ⟨rfl, ?_⟩
        show s.polls + 1 ≤ s.polls + (pollsWithin config (s.left config lastActivity) + _)
        omega

/-- From any round of its loop on, a daemon that nobody visits comes to the end of the loop,
after no more polls than fit into the idle time that is left and those that are interrupted.
It ends well, unless a poll has failed, and has made no call but these, so its state is as it
was. -/
theorem unvisited_stops (hs : InTime config lastActivity s) :
    Total Unvisited Vigil.pass
      (.loop (eventRound config listener) (lastActivity, state) .ret :
        Sys S (Except Error Unit × S)) s fun out s' =>
      out = (s'.outcome, state) ∧
        s'.polls ≤ s.polls + (pollsWithin config (s.left config lastActivity) + s.interrupts) := by
  refine .loop_of_budget (fun x s' => x = (lastActivity, state) ∧ InTime config lastActivity s')
    (fun _ s' => s'.pollsLeft config lastActivity) Vigil.polls
    (fun (out : Except Error Unit × S) s' => out = (s'.outcome, state)) ?_ ⟨rfl, hs⟩
  rintro x s' ⟨rfl, hs'⟩
  exact eventRound_unvisited hs'

/-- With two seconds left, a poll every 250 milliseconds, and three signals at most. -/
theorem unvisited_stops_soon : Total Unvisited Vigil.pass
    (.loop (eventRound { idleTimeout := .fromSecs 2 } 0) (.zero, ()) .ret :
      Sys Unit (Except Error Unit × Unit)) ⟨0, 0, 3, none⟩ fun out s =>
      out = (s.outcome, ()) ∧ s.polls ≤ 0 + (8 + 1000000 + 3) :=
  unvisited_stops ⟨by decide, by decide, by decide, rfl⟩

end Unvisited

end Sockd
