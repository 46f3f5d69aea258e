import Sockd.Effects.Total
import Sockd.Reference.Hook
import Sockd.Reference.Mappings
import Sockd.Reference.Run

/-!
# How the reference daemon ends

A run of `main` that ends well was ended by a signal, by a `SHUTDOWN`, by an error of
`select`, or because for more than `IDLE_TIMEOUT_SECS` nobody was accepted: nothing else that
a client sends makes the loop end (`daemon_ends`). And a daemon that is left alone does end,
after at most eleven calls of `select` (`left_alone`).

A client that does not wait for its answer can still end the process, which does not handle
`SIGPIPE`; but then `main` does not return.
-/

namespace Sockd.Reference.Daemon

open C Effects Prog

variable {root : Str} {tr : Trace}

/-! ## Why the loop was left -/

/-- The only thing a client can do to `G.running`. -/
theorem running_processConnection (g : Router) (c : Connection) :
    (Reference.processConnection g c).state.running =
      (g.running && c.command != some .shutdown) := by
  rw [processConnection_eq]
  cases haccepted : c.accepted with
  | none => simp [Connection.command, haccepted, Router.counted]
  | some req =>
    dsimp only
    have hcommand : c.command = req.command? := by rw [Connection.command, haccepted]; rfl
    rw [hcommand]
    cases hreq : req.command? with
    | none =>
      dsimp only
      rw [(route_frame g.counted c req).2.2]
      simp [Router.counted]
    | some command =>
      cases command with
      | ping => simp [Command.serve, Router.counted]
      | shutdown => simp [Command.serve]
      | reload =>
        dsimp only [Command.serve]
        rw [running_reload]
        simp [Router.counted]

/-- The daemon has a reason to leave its loop. -/
inductive Ending (root : Str) : Trace → Prop
  /-- `SIGINT` or `SIGTERM` -/
  | signal (t : Trace) : Ending root (t ++ [⟨.signalled, true⟩])
  /-- the command of the client that was served last -/
  | shutdown (t : Trace) (g : Router) (c : Connection) : c.command = some .shutdown →
      Ending root (t ++ conversation root g c ++ [⟨.signalled, false⟩])
  | selectFailed (t : Trace) :
      Ending root (t ++ [⟨.signalled, false⟩, ⟨.select 30, .failed⟩])
  /-- nobody was accepted since `last`, the time of the last accept or of the start -/
  | idle (t u : Trace) (last now : Int) : now - last > idleTimeoutSecs →
      (t.getLast? = some ⟨.accept, true⟩ ∨ ∃ dir, Returns opening t (.inr (root, dir))) →
      (∀ e ∈ u, e ≠ ⟨.accept, true⟩) →
      Ending root (t ++ ⟨.time, last⟩ ::
        (u ++ [⟨.signalled, false⟩, ⟨.select 30, .timedOut⟩, ⟨.time, now⟩]))

/-- What a round that went on says about `G.running`. -/
theorem Round.running {x y : Router × Int} (h : Round root x.1 x.2 tr (.inl y)) :
    y.1.running = true ∨ ∃ t g c, tr = t ++ conversation root g c ∧
      c.command = some .shutdown := by
  cases h with
  | interrupted hrunning => exact .inl hrunning
  | waits now hrunning _ => exact .inl hrunning
  | refused hrunning => exact .inl hrunning
  | serves now c hrunning =>
    by_cases hcommand : c.command = some .shutdown
    · exact .inr ⟨[⟨.signalled, false⟩, ⟨.select 30, .ready⟩, ⟨.accept, true⟩, ⟨.time, now⟩],
        x.1, c, rfl, hcommand⟩
    · rw [running_processConnection, hrunning]
      exact .inl (by simp [hcommand])

/-- A round that goes on was begun by a running daemon. -/
theorem Round.was_running {x y : Router × Int} (h : Round root x.1 x.2 tr (.inl y)) :
    x.1.running = true := by
  cases h with
  | interrupted hrunning => exact hrunning
  | waits now hrunning _ => exact hrunning
  | refused hrunning => exact hrunning
  | serves now c hrunning => exact hrunning

/-- A daemon that is not running any more was told so by the client that it served last. -/
theorem running_rounds {x y : Router × Int} (h : Rounds (eventRound root) x tr y)
    (hx : x.1.running = true) :
    y.1.running = true ∨ ∃ t g c, tr = t ++ conversation root g c ∧
      c.command = some .shutdown := by
  induction h with
  | nil => exact .inl hx
  | @cons x y z t u hround hrounds ih =>
    by_cases hrunning : y.1.running = true
    · rcases ih hrunning with hend | ⟨t', g, c, rfl, hcommand⟩
      · exact .inl hend
      · exact .inr ⟨t ++ t', g, c, (List.append_assoc ..).symm, hcommand⟩
    · rcases (returns_eventRound hround).running with hend | ⟨t', g, c, rfl, hcommand⟩
      · exact absurd hend hrunning
      · cases hrounds with
        | nil => exact .inr ⟨t', g, c, by rw [List.append_nil], hcommand⟩
        | cons hnext _ => exact absurd (returns_eventRound hnext).was_running hrunning

/-- The time of the last accept, or the one at the start if nobody was accepted. -/
theorem activity_rounds {x y : Router × Int} (h : Rounds (eventRound root) x tr y) :
    ((∀ e ∈ tr, e ≠ ⟨.accept, true⟩) ∧ y.2 = x.2) ∨
      ∃ t u, tr = t ++ ⟨.accept, true⟩ :: ⟨.time, y.2⟩ :: u ∧ ∀ e ∈ u, e ≠ ⟨.accept, true⟩ := by
  induction h with
  | nil => exact .inl ⟨nofun, rfl⟩
  | @cons x y z t u hround _ ih =>
    rcases ih with ⟨hnone, hlast⟩ | ⟨t', u', rfl, hnone⟩
    · rw [hlast]
      have hround := returns_eventRound hround
      have hquiet : (∀ e ∈ t, e ≠ ⟨.accept, true⟩) → y.2 = x.2 →
          ((∀ e ∈ t ++ u, e ≠ ⟨.accept, true⟩) ∧ y.2 = x.2) := fun hfirst hsame =>
        ⟨fun e he => (List.mem_append.mp he).elim (hfirst e) (hnone e), hsame⟩
      cases hround with
      | interrupted _ => exact .inl (hquiet (by simp) rfl)
      | waits now _ _ => exact .inl (hquiet (by simp) rfl)
      | refused _ => exact .inl (hquiet (by simp) rfl)
      | serves now c _ =>
        refine .inr ⟨[⟨.signalled, false⟩, ⟨.select 30, .ready⟩], conversation root x.1 c ++ u,
          rfl, fun e he => ?_⟩
        rcases List.mem_append.mp he with he | he
        · rintro rfl
          rw [← heard_conversation] at he
          exact absurd (List.mem_filter.mp he).2 Bool.false_ne_true
        · exact hnone e he
    · exact .inr ⟨t ++ t', u', (List.append_assoc ..).symm, hnone⟩

theorem running_boot (dir : Dir) : (boot dir).running = true := by
  obtain ⟨skills, space, hload⟩ := loadAllSkills_frame Router.init dir
  unfold boot loadRules
  dsimp only
  rw [hload]
  rfl

/-- A run of `main` that ends well was ended by a signal, by a client that said so, by an error
of `select`, or by idleness. -/
theorem daemon_ends {g : Router} (h : Returns main tr (.success, g)) : ∃ root t,
    Ending root t ∧
      tr = t ++ [⟨.closeServer, ()⟩, ⟨.unlink socketPath, ()⟩, ⟨.unlink pidPath, ()⟩] := by
  rw [main_eq] at h
  obtain ⟨t, u, r, rfl, hopening, h₁⟩ := returns_bind_iff.mp h
  rcases returns_opening hopening with ⟨rfl, -⟩ | ⟨root, dir, -, rfl | rfl⟩
  · cases (returns_ret_iff.mp h₁).2
  · cases (returns_ret_iff.mp h₁).2
  · obtain ⟨start, u, rfl, h₂⟩ := returns_perform h₁
    obtain ⟨⟨g₁, last⟩, t₁, t₂, g₂, v, hrounds, hround, h₃, rfl⟩ := returns_loop h₂
    obtain ⟨rfl, -⟩ := returns_cleanShutdown h₃
    refine ⟨root, t ++ ⟨.time, start⟩ :: (t₁ ++ t₂), ?_, ?_⟩
    · have hround := returns_eventRound hround
      cases hround with
      | signalled =>
        rw [← List.cons_append, ← List.append_assoc]
        exact .signal _
      | failed _ =>
        rw [← List.cons_append, ← List.append_assoc]
        exact .selectFailed _
      | stopped hstopped =>
        rcases running_rounds hrounds (running_boot dir) with
          hrunning | ⟨t', g, c, rfl, hcommand⟩
        · exact absurd (hrunning.symm.trans hstopped) nofun
        · have hend : Ending root _ := .shutdown (t ++ ⟨.time, start⟩ :: t') g c hcommand
          simp only [List.append_assoc, List.cons_append] at hend ⊢
          exact hend
      | idle now _ hidle =>
        rcases activity_rounds hrounds with ⟨hnone, rfl⟩ | ⟨t', u, rfl, hnone⟩
        · exact .idle t t₁ last now hidle (.inr ⟨dir, hopening⟩) hnone
        · have hend : Ending root _ := .idle (t ++ ⟨.time, start⟩ :: t' ++ [⟨.accept, true⟩]) u last
            now hidle (.inl List.getLast?_concat) hnone
          simp only [List.append_assoc, List.cons_append, List.nil_append] at hend ⊢
          exact hend
    · simp only [List.append_assoc, List.cons_append]

theorem returns_onceTrace : Returns main onceTrace
    (.success, unloadAllSkills { (boot none).counted with running := false }) :=
  returns_of_follow 60 rfl

theorem daemon_ends_once : ∃ root t, Ending root t ∧
    onceTrace = t ++ [⟨.closeServer, ()⟩, ⟨.unlink socketPath, ()⟩, ⟨.unlink pidPath, ()⟩] :=
  daemon_ends returns_onceTrace

/-! ## A daemon that is left alone -/

/-- The clock, and how often `select` was called. -/
structure Waited where
  now : Int
  selects : Nat

/-- Nobody connects, and no signal comes. -/
def Alone (s : Waited) : Effects.Event daemonSig → Prop
  | ⟨.signalled, signalled⟩ => signalled = false
  | ⟨.select _, selected⟩ => selected = .timedOut
  | ⟨.time, now⟩ => s.now ≤ now
  | _ => True

/-- A `select` that times out takes its time. -/
def Waited.pass (s : Waited) : Effects.Event daemonSig → Waited
  | ⟨.select secs, _⟩ => ⟨s.now + secs, s.selects + 1⟩
  | ⟨.time, now⟩ => ⟨now, s.selects⟩
  | _ => s

theorem total_cleanShutdown (g : Router) (s : Waited) :
    Total Alone Waited.pass (cleanShutdown g) s fun r s' =>
      r = (.success, unloadAllSkills g) ∧ s' = s := by
  refine .call ⟨(), trivial⟩ fun _ _ => .call ⟨(), trivial⟩ fun _ _ => ?_
  exact .call ⟨(), trivial⟩ fun _ _ => .ret ⟨rfl, rfl⟩

/-- One round of a daemon that is left alone. -/
theorem total_eventRound {g : Router} (hrunning : g.running = true) (last : Int) (s : Waited) :
    Total Alone Waited.pass (eventRound root (g, last)) s fun r s' =>
      s.now + 30 ≤ s'.now ∧ s'.selects = s.selects + 1 ∧
        ((r = .inl (g, last) ∧ s'.now - last ≤ idleTimeoutSecs) ∨ r = .inr g) := by
  refine .call ⟨false, rfl⟩ fun signalled hsignalled => ?_
  obtain rfl : signalled = false := hsignalled
  show Total _ _ (if g.running = true then _ else _) _ _
  rw [if_pos hrunning]
  refine .call ⟨.timedOut, rfl⟩ fun selected hselected => ?_
  obtain rfl : selected = .timedOut := hselected
  refine .call ⟨s.now + 30, le_rfl⟩ fun now hnow => ?_
  have hnow : s.now + 30 ≤ now := hnow
  show Total _ _ (if now - last > idleTimeoutSecs then _ else _) _ _
  split
  next hidle => exact .ret ⟨hnow, rfl, .inr rfl⟩
  next hwaits => exact .ret ⟨hnow, rfl, .inl ⟨rfl, Int.not_lt.mp hwaits⟩⟩

/-- A daemon that is left alone ends, after at most eleven calls of `select`. -/
theorem left_alone {g : Router} (hrunning : g.running = true) {last : Int} {s : Waited}
    (hlast : last ≤ s.now) :
    Total Alone Waited.pass (.loop (eventRound root) (g, last) cleanShutdown) s fun r s' =>
      r = (.success, unloadAllSkills g) ∧ s'.selects ≤ s.selects + 11 := by
  -- ten time-outs fit into the idle timeout
  let I : Router × Int → Waited → Prop := fun x s' => x = (g, last) ∧ ∃ k : Nat, k ≤ 10 ∧
    s'.selects = s.selects + k ∧ last + 30 * k ≤ s'.now
  refine .loop_of_measure I (fun _ s' => s.selects + 10 - s'.selects)
    (fun g' s' => g' = g ∧ s'.selects ≤ s.selects + 11) ?_ ?_ ⟨rfl, 0, by omega, rfl, by simpa⟩
  · rintro x s' ⟨rfl, k, hk, hselects, hnow⟩
    refine (total_eventRound hrunning last s').mono fun r s'' hround => ?_
    obtain ⟨hlater, hselects', ⟨rfl, hwaits⟩ | rfl⟩ := hround
    · have hidle : idleTimeoutSecs = 300 := rfl
      refine ⟨⟨rfl, k + 1, ?_, ?_, ?_⟩, ?_⟩
      · omega
      · omega
      · push_cast
        omega
      · omega
    · exact ⟨rfl, by omega⟩
  · rintro g' s' ⟨rfl, hselects⟩
    refine (total_cleanShutdown g' s').mono fun r s'' hend => ?_
    obtain ⟨rfl, rfl⟩ := hend
    exact ⟨rfl, hselects⟩

theorem left_alone_boot :
    Total Alone Waited.pass (.loop (eventRound (Str.lit "/p")) (boot none, 0) cleanShutdown) ⟨0, 0⟩
      fun r s => r = (.success, unloadAllSkills (boot none)) ∧ s.selects ≤ 0 + 11 :=
  left_alone (running_boot none) le_rfl

end Sockd.Reference.Daemon
