import Sockd.Reference.Orderly

/-!
# Handing over from one reference daemon to the next

A daemon that starts stops the one whose pid it finds in the PID file, and only then takes the
socket. As long as no daemon looks at the PID file while another is between that look and its
own PID file (`InTurn`; the source relies on hooks that come one after the other), this works
out: a daemon that serves has its socket file and its PID file for as long as it runs, whatever
is killed, crashes or is being cleaned up around it, and there is at most one such daemon
(`handover_safe`). Out of turn it does not (`race_out_of_turn`).
-/

namespace Sockd.Reference.Daemon

open C Effects Prog System

/-- No daemon is running yet; anything can have been left in `/tmp`. -/
def Machine.Initial (w : Machine) : Prop := ∀ i, (w.tasks i).status = .absent

/-- A daemon looks at the PID file only while no other is between that and its own PID file,
and can create its own. -/
def InTurn (c : MachineConfig) (l : MachineLabel) : Prop :=
  (∀ i ok, l = .act i ⟨.openPidFile, ok⟩ → ∀ j, i ≠ j → c.world.Running j →
    (stage (c.hist j)).starting = false) ∧
  ∀ i, l ≠ .act i ⟨.createPidFile, false⟩

theorem orderly_initial {w : Machine} (hw : w.Initial) : Orderly w fun _ => .fresh where
  table :=
    { pids := fun i hi => by
        rcases hi with hi | hi
        · cases (hw i).symm.trans hi
        · cases (hw i).symm.trans hi
      range := fun i hi => nomatch (hw i).symm.trans hi }
  absent _ _ := rfl
  own i hi := by cases (hw i).symm.trans hi
  turn i _ _ hi := by cases (hw i).symm.trans hi
  knows i _ _ hi := by cases (hw i).symm.trans hi

theorem orderly_run {w₀ : Machine} {ls : List MachineLabel} {c : MachineConfig} (h₀ : w₀.Initial)
    (hr : Run daemons InTurn (.start w₀) ls c) : Orderly c.world fun i => stage (c.hist i) := by
  refine hr.inv (I := fun c => Orderly c.world fun i => stage (c.hist i)) (orderly_initial h₀) ?_
  intro c l c' h hs hb hturn
  cases l with
  | outside o =>
    obtain ⟨ho, hist⟩ := step_outside.mp hs
    rw [hist]
    exact h.outside ho
  | act i e =>
    have hnext : (stage (c.hist i)).next e = some (stage (c'.hist i)) := by
      have hmain := hb i e rfl
      rw [hist_act_self hs] at hmain ⊢
      exact stage_next hmain
    have hst : (fun j => stage (c'.hist j)) =
        Function.update (fun j => stage (c.hist j)) i (stage (c'.hist i)) := by
      funext j
      by_cases hji : j = i
      · subst hji
        rw [Function.update_self]
      · rw [Function.update_of_ne hji, hist_act_ne hs hji]
    rw [hst]
    refine h.act (step_act.mp hs).1 hnext ?_ ?_
    · intro hop
      obtain ⟨op, b⟩ := e
      cases hop
      exact hturn.1 i b rfl
    · rintro rfl
      exact hturn.2 i rfl

/-- While daemons start in turn, whatever is killed, crashes or cleans up around it, a daemon
that serves keeps its socket file and its PID file as long as it runs, it is the only one, and
no client is ever taken by another. -/
theorem handover_safe {w₀ : Machine} {ls : List MachineLabel} {c : MachineConfig}
    (h₀ : w₀.Initial) (hr : Run daemons InTurn (.start w₀) ls c) :
    (∀ i, c.world.Running i → (stage (c.hist i)).claiming = true → ∃ file,
      c.world.pidFile = some file ∧ c.world.content file = pidText (c.world.tasks i).pid) ∧
    (∀ i, c.world.Running i → stage (c.hist i) = .serving → c.world.socketFile = some i) ∧
    (∀ i j, c.world.Running i → c.world.Running j → (stage (c.hist i)).claiming = true →
      (stage (c.hist j)).claiming = true → i = j) ∧
    ∀ i ok, c.world.Running i → Traces main (c.hist i ++ [⟨.accept, ok⟩]) →
      c.world.socketFile = some i := by
  have h := orderly_run h₀ hr
  have howned : ∀ i, c.world.Running i → stage (c.hist i) = .serving →
      c.world.socketFile = some i := by
    intro i hi hs
    exact (h.own i hi).owned (by rw [hs]; rfl)
  refine ⟨fun i hi => (h.own i hi).claimed, howned, fun i j hi hj => h.claiming_unique hi hj, ?_⟩
  intro i ok hi hmain
  exact howned i hi (serving_of_accept hmain)

/-! ### A handover -/

/-- A machine on which nothing has happened. -/
def quietMachine : Machine where
  pidFile := none
  content := fun _ => []
  nextFile := 0
  socketFile := none
  tasks := fun _ => {}
  pids := fun _ => none

/-- A daemon from its start up to its first round, after `kill_stale_daemon`. -/
def settles (pid : Nat) : Trace :=
  [⟨.readSkills (skillsDir (Str.lit "/p")), none⟩, ⟨.sigaction SIGINT, ()⟩,
    ⟨.sigaction SIGTERM, ()⟩, ⟨.unlink socketPath, ()⟩, ⟨.socket, true⟩,
    ⟨.bindSocket socketPath, true⟩, ⟨.listen 5, true⟩, ⟨.createPidFile, true⟩, ⟨.getpid, pid⟩,
    ⟨.writePidText (pidText pid), ()⟩, ⟨.closeNewPidFile, ()⟩, ⟨.time, 0⟩]

/-- The first daemon on the machine. -/
def first : Trace :=
  [⟨.getenv "CLAUDE_PLUGIN_ROOT", some (Str.lit "/p")⟩, ⟨.openPidFile, false⟩] ++ settles 100

/-- The second asks it to stop. -/
def asks : Trace :=
  [⟨.getenv "CLAUDE_PLUGIN_ROOT", some (Str.lit "/p")⟩, ⟨.openPidFile, true⟩,
    ⟨.scanPidFile, pidText 100⟩, ⟨.kill 100 0, true⟩, ⟨.kill 100 SIGTERM, true⟩]

/-- The first does. -/
def stops : Trace :=
  [⟨.signalled, true⟩, ⟨.closeServer, ()⟩, ⟨.unlink socketPath, ()⟩, ⟨.unlink pidPath, ()⟩]

/-- The second takes its place. -/
def follows : Trace :=
  [⟨.usleep 100000, ()⟩, ⟨.kill 100 0, false⟩, ⟨.closePidFile, ()⟩] ++ settles 200

def handoverSchedule : List MachineLabel :=
  [.outside (.start 0 100)] ++ first.map (.act 0) ++ [.outside (.start 1 200)] ++
    asks.map (.act 1) ++ stops.map (.act 0) ++ [.outside (.exit 0), .outside (.reap 0)] ++
    follows.map (.act 1)

/-- Two processes, and neither looks at the PID file while the other starts. -/
def keepsTurn (c : MachineConfig) : MachineLabel → Bool
  | .act i ⟨.openPidFile, _⟩ => decide (i < 2) && (stage (c.hist (1 - i))).starting == false
  | .act i ⟨.createPidFile, ok⟩ => decide (i < 2) && ok
  | .act i _ => decide (i < 2)
  | _ => true

theorem inTurn_of_keepsTurn {c : MachineConfig} {l : MachineLabel}
    (hidle : ∀ j, 2 ≤ j → c.hist j = []) (hok : keepsTurn c l = true) : InTurn c l := by
  constructor
  · rintro i ok rfl j hij hj
    simp only [keepsTurn, Bool.and_eq_true, decide_eq_true_eq, beq_iff_eq] at hok
    by_cases hj2 : 2 ≤ j
    · rw [hidle j hj2]
      rfl
    · have hother : j = 1 - i := by omega
      rw [hother]
      exact hok.2
  · rintro i rfl
    simp [keepsTurn] at hok

theorem lt_of_keepsTurn {c : MachineConfig} {i : Nat} {e : Effects.Event daemonSig}
    (hok : keepsTurn c (.act i e) = true) : i < 2 := by
  unfold keepsTurn at hok
  split at hok
  next heq => cases heq; simp_all
  next heq => cases heq; simp_all
  next heq => cases heq; simp_all
  next h => exact absurd rfl (h i e)

theorem run_of_keepsTurn {ls : List MachineLabel} {c : MachineConfig}
    (hr : Run daemons (fun c l => keepsTurn c l = true) (.start quietMachine) ls c) :
    Run daemons InTurn (.start quietMachine) ls c := by
  refine hr.mono_inv (I := fun c => ∀ j, 2 ≤ j → c.hist j = []) (fun _ _ => rfl) ?_
  intro c l c' hidle hs _ hok
  refine ⟨fun j hj => ?_, inTurn_of_keepsTurn hidle hok⟩
  cases l with
  | outside o =>
    rw [(step_outside.mp hs).2]
    exact hidle j hj
  | act i e =>
    have hi := lt_of_keepsTurn hok
    rw [hist_act_ne hs (by omega)]
    exact hidle j hj

/-- A schedule of two daemons that plays is a run, if each did what `main` does. -/
theorem run_of_two {ok : MachineConfig → MachineLabel → Bool} {ls : List MachineLabel}
    {c : MachineConfig} (hc : daemons.play ok (.start quietMachine) ls = some c)
    (h₀ : Traces main (ls.filterMap (Label.of? 0))) (h₁ : Traces main (ls.filterMap (Label.of? 1)))
    (hrest : ∀ i, ls.filterMap (Label.of? (i + 2)) = []) :
    Run daemons (fun c l => ok c l = true) (.start quietMachine) ls c := by
  refine Run.of_play (S := daemons) (fun _ _ _ => Traces.cut) hc fun i => ?_
  rw [hist_play hc i]
  match i with
  | 0 => exact h₀
  | 1 => exact h₁
  | i + 2 =>
    rw [hrest i]
    exact traces_nil _

/-- After the handover the second daemon has the socket. -/
theorem handover_safe_second : ∃ c : MachineConfig,
    Run daemons InTurn (.start quietMachine) handoverSchedule c ∧ c.world.Running 1 ∧
      stage (c.hist 1) = .serving ∧ c.world.socketFile = some 1 := by
  have hplay : (daemons.play keepsTurn (.start quietMachine) handoverSchedule).map
      (fun c => decide (c.world.Running 1 ∧ stage (c.hist 1) = .serving)) = some true := by
    decide +kernel
  obtain ⟨c, hc, hend⟩ := Option.map_eq_some_iff.mp hplay
  obtain ⟨hrun, hserving⟩ := of_decide_eq_true hend
  have hr := run_of_keepsTurn
    (run_of_two hc (traces_of_follow 80 (by rfl)) (traces_of_follow 80 (by rfl)) fun _ => rfl)
  obtain ⟨-, howned, -, -⟩ := handover_safe (fun _ => rfl) hr
  exact ⟨c, hr, hrun, hserving, howned 1 hrun hserving⟩

/-- The same two, both of which look at the PID file before there is one. -/
def outOfTurn : List MachineLabel :=
  [.outside (.start 0 100), .outside (.start 1 200)] ++ (first.take 2).map (.act 0) ++
    (first.take 2).map (.act 1) ++ (settles 100).map (.act 0) ++ (settles 200).map (.act 1)

/-- Out of turn, the second takes the socket of the first, which goes on without. -/
theorem race_out_of_turn : ∃ c : MachineConfig,
    Run daemons anyStep (.start quietMachine) outOfTurn c ∧ c.world.Running 0 ∧
      stage (c.hist 0) = .serving ∧ c.world.socketFile = some 1 := by
  have hplay : (daemons.play (fun _ _ => true) (.start quietMachine) outOfTurn).map
      (fun c => decide (c.world.Running 0 ∧ stage (c.hist 0) = .serving ∧
        c.world.socketFile = some 1)) = some true := by decide +kernel
  obtain ⟨c, hc, hend⟩ := Option.map_eq_some_iff.mp hplay
  have hr :=
    run_of_two hc (traces_of_follow 80 (by rfl)) (traces_of_follow 80 (by rfl)) fun _ => rfl
  exact ⟨c, hr.any, of_decide_eq_true hend⟩

end Sockd.Reference.Daemon
