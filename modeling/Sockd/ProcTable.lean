import Sockd.Host

/-!
# The process table, and what `kill` makes of it

`kill(q, 0)` is about one process only when `q` is positive: 0 is the caller's own
process group, -1 every process it can reach, and any other negative number a process
group. `is_process_alive` hands it a pid as an `i32`, so what it asks about depends on
the sign that the cast gives (`isAlive_iff`).
-/

namespace Sockd

open Rust Effects Effects.Prog

/-- A process, as another one sees it. -/
structure Task where
  pid : Nat
  group : Nat
  /-- The caller may signal it. -/
  permitted : Bool
  /-- It is among the processes that `kill(-1, _)` is about; the caller itself and
  some system processes are not. -/
  reached : Bool

/-- The ids of the process are ones that a `pid_t` can hold. -/
def Task.Valid (t : Task) : Prop := 1 ≤ t.pid ∧ t.pid < 2 ^ 31 ∧ 1 ≤ t.group ∧ t.group < 2 ^ 31

/-- The processes of a system, as one of them sees it. -/
structure ProcTable where
  /-- The caller. -/
  self : Task
  others : List Task
  valid : ∀ t ∈ self :: others, t.Valid
  /-- A process may signal itself. -/
  self_permitted : self.permitted = true

namespace ProcTable

variable (T : ProcTable)

/-- All processes. -/
def tasks : List Task := T.self :: T.others

/-- There is a process with this id. -/
def Has (pid : Nat) : Prop := ∃ t ∈ T.tasks, t.pid = pid

/-- The processes that `kill(q, _)` is about. -/
def targets (q : Int) : List Task :=
  if 0 < q then T.tasks.filter fun t => (t.pid : Int) = q
  else if q = 0 then T.tasks.filter fun t => t.group = T.self.group
  else if q = -1 then T.tasks.filter fun t => t.reached
  else T.tasks.filter fun t => (t.group : Int) = -q

/-- `kill(q, 0)`: there must be such processes, and the caller may signal one of them. -/
def kill (q : Int) : Except Nat Unit :=
  if T.targets q = [] then .error ESRCH
  else if (T.targets q).any fun t => t.permitted then .ok ()
  else .error EPERM

/-- What `is_process_alive` returns. -/
def isAlive (pid : UInt32) : Bool :=
  match T.kill pid.toInt32.toInt with
  | .ok () => true
  | .error errno => errno == EPERM

variable {T}

/-- A process is taken for alive if `kill` is about any process at all. -/
theorem isAlive_iff {pid : UInt32} : T.isAlive pid = true ↔ T.targets pid.toInt32.toInt ≠ [] := by
  unfold isAlive kill
  by_cases h : T.targets pid.toInt32.toInt = []
  · rw [if_pos h]
    exact ⟨nofun, fun hne => absurd h hne⟩
  · rw [if_neg h]
    refine ⟨fun _ => h, fun _ => ?_⟩
    split
    next => rfl
    next errno he =>
      split at he
      next => cases he
      next =>
        obtain rfl := Except.error.inj he
        rfl

/-- The cast of a pid to a `pid_t`. -/
theorem toInt_toInt32 (pid : UInt32) : pid.toInt32.toInt =
    if pid.toNat < 2 ^ 31 then (pid.toNat : Int) else pid.toNat - (2 ^ 32 : Nat) := by
  split
  next h => exact Os.toInt32_pid h
  next h =>
    show pid.toBitVec.toInt = _
    rw [BitVec.toInt_eq_toNat_cond, UInt32.toNat_toBitVec, if_neg (by omega)]

/-- For a positive `pid_t`, and for the one whose group no process can be in, `kill` is
about the process with that id. -/
theorem has_of_isAlive {pid : UInt32} (hpos : 1 ≤ pid.toNat) (hle : pid.toNat ≤ 2 ^ 31)
    (h : T.isAlive pid = true) : T.Has pid.toNat := by
  rw [isAlive_iff, toInt_toInt32] at h
  unfold targets at h
  split at h
  next hlt =>
    rw [if_pos (by omega)] at h
    obtain ⟨t, ht⟩ := List.exists_mem_of_ne_nil _ h
    obtain ⟨hmem, heq⟩ := List.mem_filter.mp ht
    exact ⟨t, hmem, by simpa using heq⟩
  next hge =>
    have hlast : pid.toNat = 2 ^ 31 := by omega
    rw [hlast, if_neg (by decide), if_neg (by decide), if_neg (by decide)] at h
    obtain ⟨t, ht⟩ := List.exists_mem_of_ne_nil _ h
    obtain ⟨hmem, heq⟩ := List.mem_filter.mp ht
    have hgroup := (T.valid t hmem).2.2.2
    have heq : (t.group : Int) = -((2 ^ 31 : Nat) - (2 ^ 32 : Nat)) := of_decide_eq_true heq
    omega

/-- Two processes, the caller in the group `g`. -/
def pair (g : Nat) (h : 1 ≤ g ∧ g < 2 ^ 31) : ProcTable where
  self := ⟨1, g, true, false⟩
  others := [⟨2, 1, true, true⟩]
  valid := by
    intro t ht
    simp only [List.mem_cons, List.not_mem_nil, or_false] at ht
    rcases ht with rfl | rfl
    · exact ⟨Nat.le_refl _, (by decide : 1 < 2 ^ 31), h.1, h.2⟩
    · exact ⟨by decide, by decide, Nat.le_refl _, by decide⟩
  self_permitted := rfl

/-- 0 and the pids above `2 ^ 31` are taken for alive without a process with that id:
the caller's group, all processes, or some group answers. -/
theorem exists_isAlive_not_has {pid : UInt32} (h : ¬ (1 ≤ pid.toNat ∧ pid.toNat ≤ 2 ^ 31)) :
    ∃ T : ProcTable, T.isAlive pid = true ∧ ¬ T.Has pid.toNat := by
  have hlt := pid.toNat_lt
  have hout : ∀ T : ProcTable, ¬ T.Has pid.toNat := by
    rintro T ⟨t, ht, heq⟩
    have hvalid := T.valid t ht
    unfold Task.Valid at hvalid
    omega
  by_cases hzero : pid.toNat = 0
  · refine ⟨pair 1 (by decide), isAlive_iff.mpr ?_, hout _⟩
    rw [toInt_toInt32, hzero]
    exact nofun
  · have hg : 1 ≤ 2 ^ 32 - pid.toNat ∧ 2 ^ 32 - pid.toNat < 2 ^ 31 := by omega
    refine ⟨pair (2 ^ 32 - pid.toNat) hg, isAlive_iff.mpr ?_, hout _⟩
    rw [toInt_toInt32, if_neg (by omega), targets, if_neg (by omega), if_neg (by omega)]
    split
    next => exact nofun
    next =>
      -- the caller is in the group that the cast gives
      refine List.ne_nil_of_mem (a := (pair (2 ^ 32 - pid.toNat) hg).self)
        (List.mem_filter.mpr ⟨List.mem_cons_self, decide_eq_true ?_⟩)
      show ((2 ^ 32 - pid.toNat : Nat) : Int) = -(pid.toNat - (2 ^ 32 : Nat))
      omega

/-- What `is_process_alive` answers is about that process only, whatever the process
table, exactly for the pids from 1 to `2 ^ 31`. -/
theorem isAlive_only_iff {pid : UInt32} :
    (∀ T : ProcTable, T.isAlive pid = true → T.Has pid.toNat) ↔
      1 ≤ pid.toNat ∧ pid.toNat ≤ 2 ^ 31 := by
  constructor
  · intro h
    by_contra hnot
    obtain ⟨T, halive, hno⟩ := exists_isAlive_not_has hnot
    exact hno (h T halive)
  · exact fun h T => has_of_isAlive h.1 h.2

end ProcTable

end Sockd
