import Sockd.Conversation
import Sockd.SecondStart

/-!
# A client that starts the daemon when it is gone

`recover_if_needed` samples the PID file once. If it names a live process, the client
waits instead of spawning, as documented; a daemon that was about to exit then leaves
it waiting for nothing (`waits_for_exiting_daemon`). What does hold is that a call
which returns `ReadyTimeout` without having spawned has found the process named by
the PID file alive (`timeout_found_alive`).
-/

namespace Sockd

open Rust Effects Effects.Prog Effects.System

variable {S : Type}

/-! ## What a call of a client does before it waits -/

/-- Not `ReadyTimeout`. -/
def NotTimeout (e : Error) : Prop := ∀ socket timeout, e ≠ .readyTimeout socket timeout

theorem notTimeout_io (err : IoError) : NotTimeout (.io err) := nofun

theorem decode_notTimeout {buf : Filled headerLen} {e : Error}
    (h : Header.decode buf = .error e) : NotTimeout e := by
  rcases decode_rejects h with ⟨m, rfl⟩ | ⟨v, rfl⟩ | ⟨k, rfl⟩ <;> exact nofun

theorem readFrame_notTimeout {E : Sig} (r : Reader E) (maxPayloadLen : Nat) :
    Try.Fails NotTimeout (readFrame r maxPayloadLen) := by
  refine Try.fails_bind (Try.fails_mapErr notTimeout_io) fun buf => ?_
  refine Try.fails_bind (Try.fails_ofExcept fun e he => decode_notTimeout he) fun header => ?_
  dsimp only
  split
  next => exact Try.fails_fail nofun
  next => exact Try.fails_bind (Try.fails_mapErr notTimeout_io) fun _ => Try.fails_pure _

theorem writeFrame_notTimeout {E : Sig} (w : Writer E) (kind : FrameKind) (payload : Bytes) :
    Try.Fails NotTimeout (writeFrame w kind payload) := by
  unfold writeFrame writeFrameWithFlags
  split
  next => exact Try.fails_fail nofun
  next =>
    refine Try.fails_bind (Try.fails_mapErr notTimeout_io) fun _ => ?_
    exact Try.fails_bind (Try.fails_mapErr notTimeout_io) fun _ => Try.fails_mapErr notTimeout_io

namespace Client

variable {c : Client} {payload : Bytes}

theorem roundTrip_notTimeout {stream : Stream} {kind : FrameKind} :
    Try.Fails NotTimeout (c.roundTrip stream kind payload : SysTry S Frame) :=
  Try.fails_bind (writeFrame_notTimeout _ _ _) fun _ => readFrame_notTimeout _ _

/-- A single attempt does not fail with `ReadyTimeout`. -/
theorem sendRequestOnce_notTimeout :
    Try.Fails NotTimeout (c.sendRequestOnce payload : SysTry S Bytes) := by
  refine Try.fails_bind (Try.fails_mapErr notTimeout_io) fun stream => ?_
  refine Try.fails_ensuring (Try.fails_bind roundTrip_notTimeout fun frame => ?_)
  refine Try.fails_ofExcept fun e he => ?_
  unfold responseOf at he
  split at he <;> cases he <;> exact nofun

theorem tryPingOnce_notTimeout : Try.Fails NotTimeout (c.tryPingOnce : SysTry S Unit) := by
  refine Try.fails_bind (Try.fails_mapErr notTimeout_io) fun stream => ?_
  refine Try.fails_ensuring (Try.fails_bind roundTrip_notTimeout fun frame => ?_)
  refine Try.fails_ofExcept fun e he => ?_
  unfold pongOf at he
  split at he <;> cases he
  exact nofun

end Client

/-! ## What `recover_if_needed` has looked at -/

theorem isProcessAlive_true {pid : UInt32} {t : History S}
    (h : Returns (isProcessAlive pid : Sys S Bool) t true) :
    ∃ a, Alive a ∧ t = [⟨.kill pid.toInt32.toInt, a⟩] := by
  obtain ⟨a, t, rfl, h'⟩ := returns_call_iff.mp h
  clear h
  refine ⟨a, ?_⟩
  cases a with
  | ok u =>
    obtain ⟨rfl, -⟩ := returns_ret_iff.mp h'
    exact ⟨.inl rfl, rfl⟩
  | error errno =>
    obtain ⟨rfl, he⟩ := returns_ret_iff.mp h'
    exact ⟨.inr (congrArg _ (eq_of_beq he)), rfl⟩

theorem readToString_ok {path : Path} {text : List Char} {t : History S}
    (h : Returns (Fs.readToString path : SysIo S _).run t (.ok text)) :
    ∃ f d, Bytes.decode? d = some text ∧ t = [⟨.openFile path, .ok f⟩, ⟨.readFile f, .ok d⟩] := by
  obtain ⟨u, v, f, rfl, hopen, hrest⟩ := Try.returns_bind_ok h
  obtain ⟨v, w, d, rfl, hread, hlast⟩ := Try.returns_bind_ok hrest
  obtain ⟨_, _, rfl, hopened⟩ := returns_call_iff.mp hopen
  obtain ⟨rfl, rfl⟩ := returns_ret_iff.mp hopened
  obtain ⟨_, _, rfl, hreaded⟩ := returns_call_iff.mp hread
  obtain ⟨rfl, rfl⟩ := returns_ret_iff.mp hreaded
  split at hlast
  next text' htext =>
    obtain ⟨rfl, he⟩ := returns_ret_iff.mp hlast
    injection he with he
    exact ⟨f, d, he ▸ htext, rfl⟩
  next => cases (returns_ret_iff.mp hlast).2

theorem readPid_some {path : Path} {pid : UInt32} {t : History S}
    (h : Returns (readPid path : SysTry S _).run t (.ok (some pid))) :
    ∃ f d, pidOfBytes d = some pid ∧ t = [⟨.openFile path, .ok f⟩, ⟨.readFile f, .ok d⟩] := by
  obtain ⟨u, v, r, rfl, hread, hrest⟩ := Try.returns_bind_ok h
  have htext := Try.returns_attempt_iff.mp hread
  cases r with
  | ok text =>
    obtain ⟨rfl, he⟩ := returns_ret_iff.mp hrest
    injection he with he
    obtain ⟨f, d, hd, rfl⟩ := readToString_ok htext
    refine ⟨f, d, ?_, rfl⟩
    rw [pidOfBytes, hd]
    exact he
  | error err =>
    dsimp only at hrest
    split at hrest <;> cases (returns_ret_iff.mp hrest).2

namespace Client

variable {c : Client} {path : Path} {t : History S}

theorem pidFilePointsToLiveProcess_true (hp : c.pidFile = some path)
    (h : Returns (c.pidFilePointsToLiveProcess : SysTry S Bool).run t (.ok true)) :
    ∃ f d pid a, pidOfBytes d = some pid ∧ Alive a ∧ t = look path f d pid a := by
  unfold pidFilePointsToLiveProcess at h
  rw [hp] at h
  obtain ⟨u, v, r, rfl, hread, hrest⟩ := Try.returns_bind_ok h
  cases r with
  | none => cases (returns_ret_iff.mp hrest).2
  | some pid =>
    obtain ⟨f, d, hd, rfl⟩ := readPid_some hread
    obtain ⟨a, ha, rfl⟩ := isProcessAlive_true (Try.returns_lift_iff.mp hrest)
    exact ⟨f, d, pid, a, hd, ha, rfl⟩

end Client

/-- A daemon was started. -/
def Spawned (t : History S) : Prop := ∃ program args, ⟨.spawn program args, .ok ()⟩ ∈ t

/-- The PID file was looked at, and the process it names was found alive. -/
def FoundAlive (path : Path) (t : History S) : Prop :=
  ∃ f d pid a, pidOfBytes d = some pid ∧ Alive a ∧ look path f d pid a <:+: t

theorem spawnDetached_ok {autoStart : AutoStart} {t : History S}
    (h : Returns (spawnDetached autoStart : SysTry S Unit).run t (.ok ())) : Spawned t := by
  obtain ⟨u, v, r, rfl, hspawn, hrest⟩ := Prog.returns_bind_iff.mp h
  obtain ⟨a, w, rfl, hanswer⟩ := returns_call_iff.mp hspawn
  obtain ⟨rfl, rfl⟩ := returns_ret_iff.mp hanswer
  cases a with
  | ok x => exact ⟨_, _, List.mem_append_left _ (List.mem_cons_self ..)⟩
  | error err => cases (returns_ret_iff.mp hrest).2

theorem Spawned.inside {t u : History S} (h : Spawned t) (hle : t <:+: u) : Spawned u := by
  obtain ⟨program, args, h⟩ := h
  exact ⟨program, args, hle.subset h⟩

theorem FoundAlive.inside {path : Path} {t u : History S} (h : FoundAlive path t)
    (hle : t <:+: u) : FoundAlive path u := by
  obtain ⟨f, d, pid, a, hd, ha, hlook⟩ := h
  exact ⟨f, d, pid, a, hd, ha, hlook.trans hle⟩

namespace Client

variable {c : Client} {path socket : Path} {timeout : Duration} {payload : Bytes} {t : History S}

/-- A recovery that ends in `ReadyTimeout` started a daemon, or it found one alive. -/
theorem recoverIfNeeded_readyTimeout (hp : c.pidFile = some path) {err : Error}
    (herr : NotTimeout err)
    (h : Returns (c.recoverIfNeeded err : SysTry S Unit).run t
      (.error (.readyTimeout socket timeout))) : Spawned t ∨ FoundAlive path t := by
  have hfail : ∀ {t : History S}, ¬ Returns (Try.fail err : SysTry S Unit).run t
      (.error (.readyTimeout socket timeout)) :=
    fun h => Try.fails_fail (P := NotTimeout) herr h _ _ rfl
  unfold recoverIfNeeded at h
  split at h
  next => exact (hfail h).elim
  next autoStart _ =>
    split at h
    next =>
      rcases Try.returns_bind_iff.mp h with ⟨e, he, hlook⟩ | ⟨u, v, live, rfl, hlook, hrest⟩
      · cases he
        exact (look_fails notTimeout_io hlook _ _ rfl).elim
      · cases live with
        | true =>
          obtain ⟨f, d, pid, a, hd, ha, rfl⟩ := pidFilePointsToLiveProcess_true hp hlook
          exact .inr ⟨f, d, pid, a, hd, ha, (List.prefix_append _ _).isInfix⟩
        | false =>
          rcases Try.returns_bind_iff.mp hrest with ⟨e, he, hspawn⟩ | ⟨v, w, _, rfl, hspawn, -⟩
          · cases he
            exact (Try.fails_mapErr notTimeout_io hspawn _ _ rfl).elim
          · exact .inl ((spawnDetached_ok hspawn).inside ⟨u, w, List.append_assoc ..⟩)
    next => exact (hfail h).elim

theorem request_readyTimeout (hp : c.pidFile = some path)
    (h : Returns (c.request payload : SysTry S Bytes).run t
      (.error (.readyTimeout socket timeout))) : Spawned t ∨ FoundAlive path t := by
  rcases Try.returns_bind_iff.mp h with ⟨e, -, hfirst⟩ | ⟨u, v, r, rfl, hfirst, hrest⟩
  · exact (Try.returns_attempt_error hfirst).elim
  · have hsent := Try.returns_attempt_iff.mp hfirst
    cases r with
    | ok response => cases (returns_ret_iff.mp hrest).2
    | error err =>
      have herr := sendRequestOnce_notTimeout hsent
      rcases Try.returns_bind_iff.mp hrest with ⟨e, he, hrec⟩ | ⟨v, w, _, rfl, -, hagain⟩
      · cases he
        have hv : v <:+: u ++ v := (List.suffix_append _ _).isInfix
        exact (recoverIfNeeded_readyTimeout hp herr hrec).imp (·.inside hv) (·.inside hv)
      · exact (sendRequestOnce_notTimeout hagain _ _ rfl).elim

theorem ping_readyTimeout (hp : c.pidFile = some path)
    (h : Returns (c.ping : SysTry S Unit).run t (.error (.readyTimeout socket timeout))) :
    Spawned t ∨ FoundAlive path t := by
  rcases Try.returns_bind_iff.mp h with ⟨e, -, hfirst⟩ | ⟨u, v, r, rfl, hfirst, hrest⟩
  · exact (Try.returns_attempt_error hfirst).elim
  · have hpinged := Try.returns_attempt_iff.mp hfirst
    cases r with
    | ok _ => cases (returns_ret_iff.mp hrest).2
    | error err =>
      have hv : v <:+: u ++ v := (List.suffix_append _ _).isInfix
      exact (recoverIfNeeded_readyTimeout hp (tryPingOnce_notTimeout hpinged) hrest).imp
        (·.inside hv) (·.inside hv)

end Client

/-! ## On the host -/

/-- The call of a process, if it is a client's, returned `ReadyTimeout`. -/
def Role.TimedOut (role : Role) (t : History S) : Prop :=
  ∃ socket timeout, match role with
    | .request cl payload =>
      Returns (cl.request payload : SysTry S Bytes).run t (.error (.readyTimeout socket timeout))
    | .ping cl => Returns (cl.ping : SysTry S Unit).run t (.error (.readyTimeout socket timeout))
    | _ => False

/-- The client that makes a request or a ping. -/
def Role.client? : Role → Option Client
  | .request cl _ | .ping cl => some cl
  | _ => none

theorem Role.TimedOut.spawned_or_foundAlive {role : Role} {t : History S} {cl : Client}
    {path : Path} (h : role.TimedOut t) (hcl : role.client? = some cl)
    (hp : cl.pidFile = some path) : Spawned t ∨ FoundAlive path t := by
  obtain ⟨socket, timeout, h⟩ := h
  cases role with
  | request cl' payload =>
    cases hcl
    exact Client.request_readyTimeout hp h
  | ping cl' =>
    cases hcl
    exact Client.ping_readyTimeout hp h
  | _ => exact h.elim

/-- A configuration that the run `ls` from `w₀` went through. -/
def Passed (role : Nat → Role) (w₀ : Os) (ls : List (HostLabel S)) (c : HostConfig S) : Prop :=
  ∃ ls₁ ls₂, ls = ls₁ ++ ls₂ ∧ Run (host role) anyStep (.start w₀) ls₁ c

/-- When process `i` looked at the PID file, one call after the other, the path named a
file, the file named a pid, and that pid was alive, if it is one that a process can have:
below that `kill` looks for a group. -/
def SampledAlive (role : Nat → Role) (w₀ : Os) (ls : List (HostLabel S)) (i : Nat) (path : Path) :
    Prop :=
  ∃ h f d pid, ∃ c₁ c₂ c₃ : HostConfig S,
    Passed role w₀ ls c₁ ∧ c₁.hist i = h ∧ c₁.world.nodes path = some (.file f) ∧
    Passed role w₀ ls c₂ ∧ c₂.hist i = h ++ [⟨.openFile path, .ok f⟩] ∧
      (c₂.world.inodes f).content = d ∧ pidOfBytes d = some pid ∧
    Passed role w₀ ls c₃ ∧ c₃.hist i = h ++ [⟨.openFile path, .ok f⟩, ⟨.readFile f, .ok d⟩] ∧
      (0 < pid.toInt32.toInt → c₃.world.live pid.toInt32.toInt = true)

section

variable {role : Nat → Role} {w₀ : Os} {ls : List (HostLabel S)} {c : HostConfig S} {i : Nat}

/-- The moment before an event of a history. -/
theorem passed_before (hr : Run (host role) anyStep (.start w₀) ls c) {e : SysEvent S}
    {h₁ h₂ : History S} (hh : c.hist i = h₁ ++ e :: h₂) :
    ∃ c₁ : HostConfig S, Passed role w₀ ls c₁ ∧ c₁.hist i = h₁ ∧
      (Os.isSpurious e = true ∨ c₁.world.answers i e = true) := by
  obtain ⟨ls₁, ls₂, c₁, c₂, rfl, hr₁, hh₁, hs, -⟩ := hr.occurred hh
  obtain ⟨-, hans, -⟩ := Os.act_eq_some.mp (step_act.mp hs).1
  exact ⟨c₁, ⟨ls₁, _, rfl, hr₁⟩, hh₁, hans⟩

/-- What was found was so. -/
theorem sampledAlive_of_foundAlive (hr : Run (host role) anyStep (.start w₀) ls c) {path : Path}
    (hf : FoundAlive path (c.hist i)) : SampledAlive role w₀ ls i path := by
  obtain ⟨f, d, pid, a, hd, ha, h, rest, hh⟩ := hf
  have hh₁ : c.hist i = h ++ ⟨.openFile path, .ok f⟩ ::
      (⟨.readFile f, .ok d⟩ :: ⟨.kill pid.toInt32.toInt, a⟩ :: rest) := by
    rw [← hh]
    simp [look]
  have hh₂ : c.hist i = (h ++ [⟨.openFile path, .ok f⟩]) ++ ⟨.readFile f, .ok d⟩ ::
      (⟨.kill pid.toInt32.toInt, a⟩ :: rest) := by
    rw [hh₁]
    simp
  have hh₃ : c.hist i = (h ++ [⟨.openFile path, .ok f⟩, ⟨.readFile f, .ok d⟩]) ++
      ⟨.kill pid.toInt32.toInt, a⟩ :: rest := by
    rw [hh₁]
    simp
  obtain ⟨c₁, hc₁, hist₁, hopen⟩ := passed_before hr hh₁
  obtain ⟨c₂, hc₂, hist₂, hread⟩ := passed_before hr hh₂
  obtain ⟨c₃, hc₃, hist₃, hkill⟩ := passed_before hr hh₃
  refine ⟨h, f, d, pid, c₁, c₂, c₃, hc₁, hist₁, ?_, hc₂, hist₂, ?_, hd, hc₃, hist₃, ?_⟩
  · exact beq_iff_eq.mp (hopen.resolve_left Bool.false_ne_true)
  · have hread := hread.resolve_left Bool.false_ne_true
    simp only [Os.answers, Bool.and_eq_true, beq_iff_eq] at hread
    exact hread.2
  · intro hpos
    have hkill := hkill.resolve_left Bool.false_ne_true
    have hnpos : ¬ pid.toInt32.toInt ≤ 0 := by omega
    rcases ha with rfl | rfl
    · simpa [Os.answers, Os.killAnswer, hnpos] using hkill
    · simp only [Os.answers, Os.killAnswer, Bool.or_eq_true, decide_eq_true_eq] at hkill
      have herrno := hkill.resolve_left hnpos
      split at herrno
      next hlive => exact hlive
      next => cases herrno

end

/-- A request or a ping with a PID file configured that returned `ReadyTimeout` had
spawned a daemon, or it had found alive what the PID file names. -/
theorem timeout_found_alive (role : Nat → Role) (i : Nat) (cl : Client) (path : Path) (w₀ : Os)
    (ls : List (HostLabel S)) (c : HostConfig S)
    (hr : Run (host role) anyStep (.start w₀) ls c) (hcl : (role i).client? = some cl)
    (hp : cl.pidFile = some path) (ht : (role i).TimedOut (c.hist i)) :
    Spawned (c.hist i) ∨ SampledAlive role w₀ ls i path :=
  (ht.spawned_or_foundAlive hcl hp).imp id (sampledAlive_of_foundAlive hr)

/-! ## A daemon that exits -/

/-- The PID file names a live process. -/
def NamesLive (w : Os) (path : Path) : Prop :=
  ∃ f pid, w.nodes path = some (.file f) ∧ pidOfBytes (w.inodes f).content = some pid ∧
    w.live pid.toInt32.toInt = true

/-- A daemon and a client's request. -/
def oneClient (config : DaemonConfig) (cl : Client) (payload : Bytes) : Nat → Role
  | 0 => .daemon config
  | _ => .request cl payload

/-- Two seconds after `noon`. -/
def later : Instant := ⟨2 * nanosPerSec, by decide, by decide⟩

/-- The client of that daemon. -/
def appClient : Client where
  socketPath := sockPath
  pidFile := some pidPath
  autoStart := some { program := ["bin", "app"] }

/-- Nothing answers at the socket path. -/
def findsNothing : SysEvent Unit := ⟨.connect sockPath, .error ⟨.notFound, "No such file or directory"⟩⟩

/-- The daemon stops serving, and removes its socket file. -/
def leavesLoop : History Unit :=
  [⟨.poll 0 250, .ok ⟨0, false⟩⟩, ⟨.loadFlag, true⟩, ⟨.closeListener 0, ()⟩,
    ⟨.removeFile sockPath, .ok ()⟩]

/-- The client finds the daemon gone and its PID file in place, and begins to wait. -/
def beginsToWait : History Unit :=
  findsNothing :: look pidPath 0 (pidDigits 100 ++ newline) 100 (.ok ()) ++
    [⟨.now, noon⟩, findsNothing, ⟨.now, noon⟩, ⟨.sleep (.fromMillis 50), ()⟩]

/-- The daemon exits while the client waits. -/
def exitSchedule : List (HostLabel Unit) :=
  [.outside (.start 0 100), .outside (.start 1 101)] ++
    (installsFlag ++ claimsFile ++ serves).map (.act 0) ++ [.outside (.signal 0)] ++
    leavesLoop.map (.act 0) ++ beginsToWait.map (.act 1) ++
    [.act 0 ⟨.onStop (), .ok ()⟩, .act 0 ⟨.removeFile pidPath, .ok ()⟩]

/-- The client waits in vain. -/
def timesOut : List (HostLabel Unit) := [findsNothing, ⟨.now, later⟩].map (.act 1)

/-- The daemon and the client of the schedule. -/
def exitingRole : Nat → Role := oneClient { pidFile := some pidPath } appClient []

/-- What the schedule leads to. -/
structure WaitsInVain (c₁ c : HostConfig Unit) : Prop where
  run : Run (host exitingRole) anyStep (.start emptyHost) (exitSchedule ++ timesOut) c
  passed : Passed exitingRole emptyHost (exitSchedule ++ timesOut) c₁
  gone : c₁.world.nodes pidPath = none
  waiting : (∃ t, ⟨.now, t⟩ ∈ c₁.hist 1) ∧ c₁.hist 1 ≠ c.hist 1
  timedOut : (exitingRole 1).TimedOut (c.hist 1)
  unspawned : ¬ Spawned (c.hist 1)

theorem exists_waitsInVain : ∃ c₁ c : HostConfig Unit, WaitsInVain c₁ c := by
  have hplay : ((host exitingRole).play (fun _ _ => true) (.start emptyHost) exitSchedule).map
      (fun c => decide (c.world.nodes pidPath = none)) = some true := by decide +kernel
  have hends : ((host exitingRole).play (fun _ _ => true) (.start emptyHost)
      (exitSchedule ++ timesOut)).isSome = true := by decide +kernel
  obtain ⟨c₁, hc₁, hgone⟩ := Option.map_eq_some_iff.mp hplay
  obtain ⟨c, hc⟩ := Option.isSome_iff_exists.mp hends
  have htimeout : Returns (appClient.request [] : SysTry Unit Bytes).run
      ((exitSchedule ++ timesOut).filterMap (Label.of? 1))
      (.error (.readyTimeout sockPath (.fromSecs 2))) := returns_of_follow 60 (by rfl)
  have hist := hist_of_play hc 1
  have hist₁ := hist_of_play hc₁ 1
  refine ⟨c₁, c, ?_, ⟨_, _, rfl, ?_⟩, of_decide_eq_true hgone, ⟨⟨noon, ?_⟩, ?_⟩,
    ⟨sockPath, .fromSecs 2, ?_⟩, ?_⟩
  · refine (run_of_play hc fun i => ?_).any
    match i with
    | 0 => exact traces_of_follow 60 (by rfl)
    | 1 => exact htimeout.traces
    | i + 2 => exact Role.traces_nil _
  · refine (run_of_play hc₁ fun i => ?_).any
    match i with
    | 0 => exact traces_of_follow 60 (by rfl)
    | 1 => exact traces_of_follow 60 (by rfl)
    | i + 2 => exact Role.traces_nil _
  · rw [hist₁]
    exact List.mem_of_getElem? (i := 4) rfl
  · intro he
    have hlen := congrArg List.length he
    rw [hist, hist₁] at hlen
    cases hlen
  · show Returns (appClient.request [] : SysTry Unit Bytes).run (c.hist 1) _
    rw [hist]
    exact htimeout
  · intro hspawned
    obtain ⟨program, args, hspawn⟩ := hspawned
    rw [hist] at hspawn
    have hnone : ((exitSchedule ++ timesOut).filterMap (Label.of? 1)).all
        (fun e => match e.1 with
          | .spawn _ _ => false
          | _ => true) = true := rfl
    cases List.all_eq_true.mp hnone _ hspawn

/-- A client that finds an exiting daemon alive waits for nothing: it returns
`ReadyTimeout` without having spawned, although the PID file is gone for most of its
wait. -/
theorem waits_for_exiting_daemon :
    ¬ ∀ (config : DaemonConfig) (cl : Client) (payload : Bytes) (path : Path) (w₀ : Os)
      (ls : List (HostLabel Unit)) (c : HostConfig Unit), w₀.Initial →
      Run (host (oneClient config cl payload)) anyStep (.start w₀) ls c →
      config.socketPath = cl.socketPath → config.pidFile = some path → cl.pidFile = some path →
      (oneClient config cl payload 1).TimedOut (c.hist 1) →
        Spawned (c.hist 1) ∨
        ∀ c₁, Passed (oneClient config cl payload) w₀ ls c₁ → (∃ t, ⟨.now, t⟩ ∈ c₁.hist 1) →
          c₁.hist 1 ≠ c.hist 1 → NamesLive c₁.world path := by
  intro hclaim
  obtain ⟨c₁, c, hvain⟩ := exists_waitsInVain
  rcases hclaim _ appClient [] pidPath emptyHost _ c emptyHost_initial hvain.run rfl rfl rfl
    hvain.timedOut with hspawned | hlive
  · exact hvain.unspawned hspawned
  · obtain ⟨f, pid, hnode, -⟩ := hlive c₁ hvain.passed hvain.waiting.1 hvain.waiting.2
    rw [hvain.gone] at hnode
    cases hnode

/-- That client had found the exiting daemon alive. -/
theorem timeout_found_alive_exiting :
    ∃ c : HostConfig Unit, (exitingRole 1).TimedOut (c.hist 1) ∧
      SampledAlive exitingRole emptyHost (exitSchedule ++ timesOut) 1 pidPath := by
  obtain ⟨c₁, c, hvain⟩ := exists_waitsInVain
  refine ⟨c, hvain.timedOut, ?_⟩
  exact (timeout_found_alive exitingRole 1 appClient pidPath emptyHost _ c hvain.run rfl rfl
    hvain.timedOut).resolve_left hvain.unspawned

end Sockd
