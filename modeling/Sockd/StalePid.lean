import Sockd.Calls
import Sockd.Reclaim

/-!
# A PID file whose process is gone

What is made of a PID file that names a pid no process has: `PidGuard::claim` should
replace it, a client with auto-start should spawn a daemon, and `Client::shutdown`
should take the daemon for gone. All of it rests on `is_process_alive` being about
that one process, which it is for the pids from 1 to `2 ^ 31` (`pidOnly_iff`).
-/

namespace Sockd

open Rust Effects Effects.Prog

variable {S : Type} {T : ProcTable} {i : Nat} {path : Path} {w : Os} {d : Bytes} {pid : UInt32}

/-- There is a PID file that names `pid`, and no process has that pid. -/
structure Stale (T : ProcTable) (i : Nat) (path : Path) (d : Bytes) (pid : UInt32) (w : Os) :
    Prop where
  file : FileAt path d w
  names : pidOfBytes d = some pid
  shows : Shows T w i
  gone : ¬ T.Has pid.toNat

/-- The same where the socket is gone too. -/
def CalmGone (T : ProcTable) (i : Nat) (path socket : Path) (w : Os) (ev : SysEvent S) : Prop :=
  Calm T i path w ev ∧
    ∀ a, ev = ⟨.metadata socket, a⟩ → ∃ err, a = .error err ∧ err.kind = .notFound

/-- Every answer about this pid is about that one process, and nobody is kept from
anything by a file that names it when there is no such process. -/
structure PidOnly (S : Type) (pid : UInt32) : Prop where
  alive : ∀ T : ProcTable, T.isAlive pid = true → T.Has pid.toNat
  /-- `PidGuard::claim` replaces the file. -/
  reclaimed : ∀ T i path d w, Stale T i path d pid w →
    Settles T i path (PidGuard.claim path : SysTry S PidGuard).run w fun r w' =>
      r = .ok ⟨path⟩ ∧ FileAt path (pidDigits (w.procs i).pid ++ newline) w'
  /-- A client that has to recover spawns. -/
  spawns : ∀ T i path d w, Stale T i path d pid w → ∀ (c : Client) (autoStart : AutoStart) err,
    c.pidFile = some path → c.autoStart = some autoStart → canAttemptRecovery err = true →
    Inevitable (Calm T i path) (fun w ev => w.after i ev)
      (fun ev => ev.1 = .spawn autoStart.program autoStart.args)
      (c.recoverIfNeeded err : SysTry S Unit).run w
  /-- A client that waits for the end of the daemon sees it once the socket is gone. -/
  completes : ∀ T i path d w, Stale T i path d pid w → ∀ c : Client, c.pidFile = some path →
    Total (CalmGone T i path c.socketPath) (fun w ev => w.after i ev)
      (c.shutdownComplete : SysTry S Bool).run w fun r _ => r = .ok true
  /-- A client that cannot connect takes the daemon for not running. -/
  notRunning : ∀ T i path d w, Stale T i path d pid w → ∀ (c : Client) err,
    c.pidFile = some path → matchesRecoverableConnectError err = true →
    Settles T i path (c.shouldTreatConnectErrorAsNotRunning err : SysTry S Bool).run w
      fun r _ => r = .ok true

/-! ## Whoever looks finds no process -/

theorem Stale.decodes (h : Stale T i path d pid w) : Bytes.decode? d ≠ none := by
  intro hnone
  have hnames := h.names
  rw [pidOfBytes, hnone] at hnames
  cases hnames

/-- Where the answers are about that process, a stale file names nothing live. -/
theorem Stale.not_alive (h : Stale T i path d pid w)
    (halive : T.isAlive pid = true → T.Has pid.toNat) : T.isAlive pid = false := by
  cases hlive : T.isAlive pid with
  | false => rfl
  | true => exact absurd (halive hlive) h.gone

theorem Stale.not_livePid (h : Stale T i path d pid w)
    (halive : T.isAlive pid = true → T.Has pid.toNat) (pid' : UInt32) :
    ¬ LivePid T d pid' := by
  intro hnames
  obtain rfl : pid = pid' := Option.some.inj (h.names.symm.trans hnames.1)
  have hlive := hnames.2
  rw [h.not_alive halive] at hlive
  cases hlive

namespace Client

variable {c : Client}

theorem pidFilePointsToLiveProcess_total (hc : c.pidFile = some path)
    (h : Stale T i path d pid w) (halive : T.isAlive pid = true → T.Has pid.toNat) :
    Settles T i path (c.pidFilePointsToLiveProcess : SysTry S Bool).run w
      fun r w' => r = .ok false ∧ w' = w := by
  unfold pidFilePointsToLiveProcess
  rw [hc]
  obtain ⟨text, htext, hpid⟩ := Option.bind_eq_some_iff.mp h.names
  have hresult : readPidResult d = .ok (some pid) := by
    rw [readPidResult, htext]
    exact congrArg Except.ok hpid
  refine Total.next (R := fun p w' => p = some pid ∧ w' = w)
    ((readPid_total h.file).mono fun r w' hr => ⟨_, hr.1.trans hresult, rfl, hr.2⟩) ?_
  rintro _ w ⟨rfl, rfl⟩
  refine (isProcessAlive_total h.shows pid).bind ?_
  rintro _ w ⟨rfl, rfl⟩
  exact .ret ⟨congrArg Except.ok (h.not_alive halive), rfl⟩

end Client

/-! ## The three decisions -/

theorem claim_stale (h : Stale T i path d pid w)
    (halive : T.isAlive pid = true → T.Has pid.toNat) :
    Settles T i path (PidGuard.claim path : SysTry S PidGuard).run w fun r w' =>
      r = .ok ⟨path⟩ ∧ FileAt path (pidDigits (w.procs i).pid ++ newline) w' := by
  refine (claim_total h.file h.decodes h.shows).mono fun r w' hend => ?_
  rcases hend with ⟨pid', hlive, -⟩ | ⟨-, hr, hfile, -⟩
  · exact absurd hlive (h.not_livePid halive pid')
  · exact ⟨hr, hfile⟩

namespace Client

variable {c : Client}

theorem recoverIfNeeded_stale {autoStart : AutoStart} {err : Error} (hc : c.pidFile = some path)
    (ha : c.autoStart = some autoStart) (herr : canAttemptRecovery err = true)
    (h : Stale T i path d pid w) (halive : T.isAlive pid = true → T.Has pid.toNat) :
    Inevitable (Calm T i path) (fun w ev => w.after i ev)
      (fun ev => ev.1 = .spawn autoStart.program autoStart.args)
      (c.recoverIfNeeded err : SysTry S Unit).run w := by
  unfold recoverIfNeeded
  rw [ha]
  dsimp only
  rw [if_pos herr]
  refine Inevitable.after (pidFilePointsToLiveProcess_total hc h halive) ?_
  rintro _ w ⟨rfl, rfl⟩
  -- not alive: the next call is the spawn
  refine Inevitable.bind (Inevitable.bind (.call ⟨.ok (), nofun⟩ ?_))
  exact fun b _ hno => absurd rfl hno

theorem shutdownComplete_stale (hc : c.pidFile = some path) (h : Stale T i path d pid w)
    (halive : T.isAlive pid = true → T.Has pid.toNat) :
    Total (CalmGone T i path c.socketPath) (fun w ev => w.after i ev)
      (c.shutdownComplete : SysTry S Bool).run w fun r _ => r = .ok true := by
  have hlook : Total (CalmGone T i path c.socketPath) (fun w ev => w.after i ev)
      (c.pidFilePointsToLiveProcess : SysTry S Bool).run w fun r w' => r = .ok false ∧ w' = w := by
    refine (pidFilePointsToLiveProcess_total hc h halive).of_calls
      allCalls_pidFilePointsToLiveProcess fun w ev hev => ⟨And.left, fun hcalm => ⟨hcalm, ?_⟩⟩
    rintro a rfl
    obtain ⟨path', -, hop⟩ := hev
    exact hop.elim
  have hgone : Total (CalmGone T i path c.socketPath) (fun w ev => w.after i ev)
      (Fs.metadata c.socketPath : SysIo S Unit).run w
      fun r w' => (∃ err, r = .error err ∧ err.kind = .notFound) ∧ w' = w := by
    refine .call ⟨.error ⟨.notFound, ""⟩, nofun, ?_⟩ fun b hb => .ret ⟨hb.2 b rfl, rfl⟩
    rintro a he
    cases he
    exact ⟨_, rfl, rfl⟩
  unfold shutdownComplete
  refine Total.next (R := fun gone w' => gone = true ∧ w' = w) (Total.attempt hgone ?_) ?_
  · rintro _ w ⟨⟨err, rfl, herr⟩, rfl⟩
    dsimp only
    rw [if_pos herr]
    exact .ret ⟨_, rfl, rfl, rfl⟩
  rintro _ w ⟨rfl, rfl⟩
  dsimp only
  rw [if_pos rfl]
  refine Total.bind hlook ?_
  rintro _ w ⟨rfl, rfl⟩
  exact .ret rfl

theorem shouldTreat_stale {err : IoError} (hc : c.pidFile = some path)
    (herr : matchesRecoverableConnectError err = true) (h : Stale T i path d pid w)
    (halive : T.isAlive pid = true → T.Has pid.toNat) :
    Settles T i path (c.shouldTreatConnectErrorAsNotRunning err : SysTry S Bool).run w
      fun r _ => r = .ok true := by
  unfold shouldTreatConnectErrorAsNotRunning
  rw [if_pos herr]
  refine Total.bind (pidFilePointsToLiveProcess_total hc h halive) ?_
  rintro _ w ⟨rfl, rfl⟩
  exact .ret rfl

end Client

/-! ## Which pids -/

theorem pidOnly_iff (pid : UInt32) : PidOnly S pid ↔ 1 ≤ pid.toNat ∧ pid.toNat ≤ 2 ^ 31 := by
  refine ⟨fun h => ProcTable.isAlive_only_iff.mp h.alive, fun hpid => ?_⟩
  have halive := ProcTable.isAlive_only_iff.mpr hpid
  exact {
    alive := halive
    reclaimed := fun T i path d w h => claim_stale h (halive T)
    spawns := fun T i path d w h c autoStart err hc ha herr =>
      Client.recoverIfNeeded_stale hc ha herr h (halive T)
    completes := fun T i path d w h c hc => Client.shutdownComplete_stale hc h (halive T)
    notRunning := fun T i path d w h c err hc herr =>
      Client.shouldTreat_stale hc herr h (halive T) }

/-- A file with the text `0` names no process, and is taken for one of a live process:
`kill(0, 0)` is about the group of the caller. -/
theorem zero_taken_for_alive : ¬ ∀ pid, PidOnly Unit pid := by
  intro h
  have hzero : ¬ (1 ≤ (0 : UInt32).toNat ∧ (0 : UInt32).toNat ≤ 2 ^ 31) :=
    fun hpid => absurd hpid.1 (by decide)
  obtain ⟨T, halive, hno⟩ := ProcTable.exists_isAlive_not_has hzero
  exact hno ((h 0).alive T halive)

end Sockd
