import Sockd.Exclusion
import Sockd.SocketPath
import Sockd.Survival

/-!
# A second daemon at the same socket

A daemon that is refused because its PID file names a live process has only looked at
the host: the run without it is a run in which everyone else does the same
(`refused_start_harmless`). A daemon that gets as far as the probe of `socket::bind`
is refused too, but its probe is a connection, which the serving daemon accepts and
reads to its end; and that makes the serving daemon leave its loop
(`probe_ends_first_daemon`).
-/

namespace Sockd

open Rust Effects Effects.Prog Effects.System PidGuard

variable {S : Type}

/-! ## The run of a daemon that is refused at its PID file -/

/-- What `claim` does about the directory of the file. -/
def createsParent (path : Path) : History S :=
  match path.parent? with
  | some parent => [⟨.createDirAll parent, .ok ()⟩]
  | none => []

/-- Up to the look at the PID file. -/
def beforeLook (path : Path) : History S :=
  [⟨.registerSignal SIGINT, .ok ()⟩, ⟨.registerSignal SIGTERM, .ok ()⟩] ++ createsParent path ++
    [⟨.pathExists path, true⟩]

/-- The look: the file `f` holds `d`, which names `pid`, which is probed. -/
def look (path : Path) (f : Nat) (d : Bytes) (pid : UInt32) (a : Except Nat Unit) : History S :=
  [⟨.openFile path, .ok f⟩, ⟨.readFile f, .ok d⟩, ⟨.kill pid.toInt32.toInt, a⟩]

/-- The answers of a process that is there. -/
def Alive (a : Except Nat Unit) : Prop := a = .ok () ∨ a = .error EPERM

section Refusal

variable {config : DaemonConfig} {path : Path} {f : Nat} {d : Bytes} {pid : UInt32}
  {a : Except Nat Unit}

theorem readPid_returns (hd : pidOfBytes d = some pid) :
    Returns (readPid path : SysTry S _).run [⟨.openFile path, .ok f⟩, ⟨.readFile f, .ok d⟩]
      (.ok (some pid)) := by
  obtain ⟨text, htext, hpid⟩ := Option.bind_eq_some_iff.mp hd
  have hread : Returns (Fs.readToString path : SysIo S _).run
      [⟨.openFile path, .ok f⟩, ⟨.readFile f, .ok d⟩] (.ok text) := by
    refine Try.returns_bind (p := Fs.openFile path) (Reach.call .refl) ?_
    refine Try.returns_bind (p := Fs.readToEnd f) (u := []) (Reach.call .refl) ?_
    rw [htext]
    exact .refl
  refine Try.returns_bind (u := []) (Try.returns_attempt hread) ?_
  show Returns (.ret (Except.ok (pidOfText text))) [] _
  rw [hpid]
  exact .refl

theorem reclaim_refused (hd : pidOfBytes d = some pid) (ha : Alive a) :
    Returns (reclaim path : SysTry S _).run (⟨.pathExists path, true⟩ :: look path f d pid a)
      (.error (.daemonAlreadyRunning (some pid) none)) := by
  refine Try.returns_bind (Try.returns_lift (returns_ask _)) ?_
  refine Try.returns_bind (readPid_returns hd) ?_
  have hprobe : Returns (isProcessAlive pid : Sys S Bool) [⟨.kill pid.toInt32.toInt, a⟩] true := by
    rcases ha with rfl | rfl
    · exact Reach.call .refl
    · exact Reach.call .refl
  exact Try.returns_bind (u := []) (Try.returns_lift hprobe) .refl

/-- The whole of its run. -/
theorem refused_returns (hp : config.pidFile = some path) (hd : pidOfBytes d = some pid)
    (ha : Alive a) :
    Returns (runDaemon config : SysTry S Unit).run (beforeLook path ++ look path f d pid a)
      (.error (.daemonAlreadyRunning (some pid) none)) := by
  have hattempts : Returns (attempts path 3 : SysTry S _).run
      (⟨.pathExists path, true⟩ :: look path f d pid a)
      (.error (.daemonAlreadyRunning (some pid) none)) :=
    Try.returns_bind_error (reclaim_refused hd ha)
  have hclaim : Returns (claim path : SysTry S _).run
      (createsParent path ++ ⟨.pathExists path, true⟩ :: look path f d pid a)
      (.error (.daemonAlreadyRunning (some pid) none)) := by
    unfold claim createsParent
    cases path.parent? with
    | none => exact hattempts
    | some parent => exact Reach.call hattempts
  have hrun : Returns (runDaemon config : SysTry S Unit).run
      ([⟨.registerSignal SIGINT, .ok ()⟩, ⟨.registerSignal SIGTERM, .ok ()⟩] ++
        (createsParent path ++ ⟨.pathExists path, true⟩ :: look path f d pid a))
      (.error (.daemonAlreadyRunning (some pid) none)) := by
    refine Try.returns_bind (Reach.call (Reach.call .refl)) ?_
    rw [hp]
    exact Try.returns_bind_error hclaim
  simpa [beforeLook] using hrun

/-- The answer to one of these calls that lets the refusal go on. -/
def KeepsRefusing : SysEvent S → Prop
  | ⟨.registerSignal _, a⟩ => a = .ok ()
  | ⟨.createDirAll _, a⟩ => a = .ok ()
  | ⟨.pathExists _, b⟩ => b = true
  | ⟨.openFile _, a⟩ => ∃ f, a = .ok f
  | ⟨.readFile _, a⟩ => ∃ d, a = .ok d ∧ ∃ pid, pidOfBytes d = some pid
  | ⟨.kill _, a⟩ => Alive a
  | _ => True

/-- A part of the run of a daemon that is refused. -/
def Refusing (path : Path) (h : History S) : Prop :=
  ∃ f d pid a, pidOfBytes d = some pid ∧ Alive a ∧ h <+: beforeLook path ++ look path f d pid a

theorem refusing_nil : Refusing path ([] : History S) :=
  ⟨0, pidDigits 1, 1, .ok (), by decide +kernel, .inl rfl, List.nil_prefix⟩

/-- Before the look nothing depends on what is found. -/
theorem beforeLook_event {h : History S} {e₀ e : SysEvent S} (hle : h ++ [e₀] <+: beforeLook path)
    (hop : e.1 = e₀.1) (hk : KeepsRefusing e) : e = e₀ := by
  have hmem : e₀ ∈ beforeLook path := hle.subset (by simp)
  obtain ⟨op, b⟩ := e
  obtain ⟨op₀, b₀⟩ := e₀
  obtain rfl : op = op₀ := hop
  simp only [beforeLook, createsParent, List.cons_append, List.nil_append, List.mem_cons,
    List.mem_append, List.not_mem_nil, or_false] at hmem
  rcases hmem with hmem | hmem | hmem | hmem
  · cases hmem
    rw [show b = .ok () from hk]
  · cases hmem
    rw [show b = .ok () from hk]
  · cases hpar : path.parent? with
    | none =>
      rw [hpar] at hmem
      cases hmem
    | some parent =>
      rw [hpar] at hmem
      cases List.mem_singleton.mp hmem
      rw [show b = .ok () from hk]
  · cases hmem
    rw [show b = true from hk]

/-- The look goes on with what is found. -/
theorem look_event {l t : History S} {e₀ e : SysEvent S} (hd : pidOfBytes d = some pid)
    (ha : Alive a) (hl : l ++ e₀ :: t = look path f d pid a) (hop : e.1 = e₀.1)
    (hk : KeepsRefusing e) :
    ∃ f d pid a, pidOfBytes d = some pid ∧ Alive a ∧ l ++ [e] <+: look path f d pid a := by
  obtain ⟨op, b⟩ := e
  unfold look at hl
  rcases l with _ | ⟨o, _ | ⟨r, _ | ⟨k, l⟩⟩⟩
  · simp only [List.nil_append, List.cons.injEq] at hl
    obtain ⟨rfl, -⟩ := hl
    obtain rfl : op = _ := hop
    obtain ⟨f', rfl⟩ := hk
    exact ⟨f', d, pid, a, hd, ha, ⟨_, rfl⟩⟩
  · simp only [List.cons_append, List.nil_append, List.cons.injEq] at hl
    obtain ⟨rfl, rfl, -⟩ := hl
    obtain rfl : op = _ := hop
    obtain ⟨d', rfl, pid', hd'⟩ := hk
    exact ⟨f, d', pid', a, hd', ha, ⟨_, rfl⟩⟩
  · simp only [List.cons_append, List.nil_append, List.cons.injEq] at hl
    obtain ⟨rfl, rfl, rfl, -⟩ := hl
    obtain rfl : op = _ := hop
    exact ⟨f, d, pid, b, hd, hk, ⟨[], rfl⟩⟩
  · have hlen := congrArg List.length hl
    simp at hlen

/-- One more event. -/
theorem Refusing.step {h : History S} {e : SysEvent S} (hp : config.pidFile = some path)
    (hr : Refusing path h) (ht : Prog.Traces (runDaemon config : SysTry S Unit).run (h ++ [e]))
    (hk : KeepsRefusing e) : Refusing path (h ++ [e]) := by
  obtain ⟨f, d, pid, a, hd, ha, t, hfull⟩ := hr
  have hall := refused_returns (S := S) (f := f) hp hd ha
  cases t with
  | nil =>
    rw [← hfull, List.append_nil] at hall
    exact (hall.stops ht).elim
  | cons e₀ t =>
    have ht₀ : Prog.Traces (runDaemon config : SysTry S Unit).run (h ++ [e₀]) := by
      have hcut := hall.traces
      rw [← hfull, List.append_cons] at hcut
      exact hcut.cut
    have hop := ht.same_call ht₀
    rcases List.append_eq_append_iff.mp hfull with ⟨l, hpre, hlook⟩ | ⟨l, hpre, hlook⟩
    · cases l with
      | cons e₁ l =>
        -- still before the look
        obtain ⟨rfl, -⟩ := List.cons.inj hlook
        have hle : h ++ [e₀] <+: beforeLook path := ⟨l, by rw [hpre]; simp⟩
        rw [beforeLook_event hle hop hk]
        exact ⟨f, d, pid, a, hd, ha, hle.trans (List.prefix_append _ _)⟩
      | nil =>
        rw [List.append_nil] at hpre
        obtain ⟨f', d', pid', a', hd', ha', hle⟩ := look_event (l := []) hd ha hlook hop hk
        rw [← hpre]
        exact ⟨f', d', pid', a', hd', ha', (List.prefix_append_right_inj _).mpr hle⟩
    · obtain ⟨f', d', pid', a', hd', ha', hle⟩ := look_event hd ha hlook.symm hop hk
      rw [hpre, List.append_assoc]
      exact ⟨f', d', pid', a', hd', ha', (List.prefix_append_right_inj _).mpr hle⟩

/-- The calls of a daemon that is refused. -/
def LooksOnly : Op S → Prop
  | .registerSignal _ | .createDirAll _ | .pathExists _ | .openFile _ | .readFile _ | .kill _ => True
  | _ => False

theorem looksOnly_of_mem {e : SysEvent S} (h : e ∈ beforeLook path ++ look path f d pid a) :
    LooksOnly e.1 := by
  simp only [beforeLook, look, createsParent, List.mem_append, List.mem_cons, List.not_mem_nil,
    or_false] at h
  rcases h with (((rfl | rfl) | h) | rfl) | (rfl | rfl | rfl)
  · trivial
  · trivial
  · cases hpar : path.parent? with
    | none =>
      rw [hpar] at h
      cases h
    | some parent =>
      rw [hpar] at h
      cases List.mem_singleton.mp h
      trivial
  all_goals trivial

theorem Refusing.looksOnly {h : History S} {e : SysEvent S} (hr : Refusing path (h ++ [e])) :
    LooksOnly e.1 := by
  obtain ⟨f, d, pid, a, -, -, hle⟩ := hr
  exact looksOnly_of_mem (hle.subset (by simp))

/-- A daemon that is being refused has returned, or it is about to make another of
these calls. -/
theorem Refusing.next {h : History S} (hp : config.pidFile = some path) (hr : Refusing path h) :
    (∃ pid, Returns (runDaemon config : SysTry S Unit).run h
      (.error (.daemonAlreadyRunning (some pid) none))) ∨
    ∃ op k, LooksOnly op ∧ Reach (runDaemon config : SysTry S Unit).run h (.call op k) := by
  obtain ⟨f, d, pid, a, hd, ha, t, hfull⟩ := hr
  have hall := refused_returns (S := S) (f := f) hp hd ha
  cases t with
  | nil =>
    rw [← hfull, List.append_nil] at hall
    exact .inl ⟨pid, hall⟩
  | cons e₀ t =>
    have hcut := hall.traces
    rw [← hfull, List.append_cons] at hcut
    obtain ⟨k, hk⟩ := hcut.cut.before
    have hmem : e₀ ∈ beforeLook path ++ look path f d pid a := by
      rw [← hfull]
      simp
    exact .inr ⟨e₀.1, k, looksOnly_of_mem hmem, hk⟩

theorem Refusing.length_le {h : History S} (hr : Refusing path h) : h.length ≤ 7 := by
  obtain ⟨f, d, pid, a, -, -, hle⟩ := hr
  refine hle.length_le.trans ?_
  have hparent : (createsParent path : History S).length ≤ 1 := by
    unfold createsParent
    split <;> simp
  simp only [beforeLook, look, List.length_append, List.length_cons, List.length_nil]
  omega

end Refusal

/-! ## On the host -/

/-- What the process finds when it makes this call, if it looks at its PID file: the
file is there, it names a process, and that process is alive. -/
def findsLive (w : Os) : Op S → Bool
  | .pathExists path => (w.nodes path).isSome
  | .openFile path => match w.nodes path with
    | some (.file _) => true
    | _ => false
  | .readFile f => decide (f < w.nextFile) && (pidOfBytes (w.inodes f).content).isSome
  | .kill q => w.live q
  | _ => true

/-- The calls of daemon `b` do not fail for reasons that are not modelled. -/
def Healthy (b : Nat) (_ : HostConfig S) (l : HostLabel S) : Prop :=
  ∀ e, l = .act b e → Os.isSpurious e = false

/-- Daemon `b` has a PID file, and whenever it looks at it, it names a live process. -/
def RefusedAtPidFile (b : Nat) (config : DaemonConfig) (c : HostConfig S) (l : HostLabel S) :
    Prop :=
  ∀ e, l = .act b e → config.pidFile ≠ none ∧ findsLive c.world e.1 = true

section Step

variable {w w' : Os} {b : Nat} {e : SysEvent S}

/-- What such a process is answered. -/
theorem keepsRefusing_of_findsLive (h : findsLive w e.1 = true) (hs : Os.isSpurious e = false)
    (ha : w.act b e = some w') : KeepsRefusing e := by
  obtain ⟨-, hans, -⟩ := Os.act_eq_some.mp ha
  rw [hs] at hans
  have hans : w.answers b e = true := hans.resolve_left nofun
  obtain ⟨op, a⟩ := e
  cases op with
  | registerSignal n =>
    cases a with
    | ok u => rfl
    | error err => cases hans
  | createDirAll p =>
    cases a with
    | ok u => rfl
    | error err => cases hans
  | pathExists p =>
    have hans' : ((w.nodes p).isSome == a) = true := hans
    rw [show (w.nodes p).isSome = true from h] at hans'
    exact (beq_iff_eq.mp hans').symm
  | openFile p =>
    cases a with
    | ok g => exact ⟨g, rfl⟩
    | error err =>
      simp only [findsLive] at h
      simp only [Os.answers] at hans
      split at h
      next hf =>
        rw [hf] at hans
        cases hans
      next => cases h
  | readFile f =>
    simp only [findsLive, Bool.and_eq_true, Option.isSome_iff_exists] at h
    obtain ⟨-, pid, hpid⟩ := h
    cases a with
    | ok d =>
      simp only [Os.answers, Bool.and_eq_true, beq_iff_eq] at hans
      exact ⟨d, rfl, pid, hans.2 ▸ hpid⟩
    | error err => cases hans
  | kill q =>
    have hlive : w.live q = true := h
    cases a with
    | ok u => exact .inl rfl
    | error errno =>
      have hpos : 0 < q := by
        rw [Os.live, Bool.and_eq_true, decide_eq_true_eq] at hlive
        exact hlive.1
      simp only [Os.answers, Os.killAnswer, hlive, if_true, Bool.or_eq_true,
        decide_eq_true_eq] at hans
      rcases hans with hans | rfl
      · omega
      · exact .inr rfl
  | _ => trivial

/-- These calls change nothing. -/
theorem LooksOnly.after (h : LooksOnly e.1) : w.after b e = w := by
  obtain ⟨op, a⟩ := e
  cases op <;> first | rfl | exact h.elim

/-- Such a call can be answered. -/
theorem answered_of_findsLive {op : Op S} (hl : LooksOnly op) (h : findsLive w op = true)
    (hb : w.Running b) : ∃ a, Os.isSpurious ⟨op, a⟩ = false ∧ w.act b ⟨op, a⟩ = some w := by
  have hact : ∀ a, w.answers b ⟨op, a⟩ = true → w.act b ⟨op, a⟩ = some w := fun a ha =>
    Os.act_eq_some.mpr ⟨hb, .inr ha, (LooksOnly.after hl).symm⟩
  cases op with
  | registerSignal n => exact ⟨.ok (), rfl, hact _ rfl⟩
  | createDirAll p => exact ⟨.ok (), rfl, hact _ rfl⟩
  | pathExists p =>
    refine ⟨true, rfl, hact _ ?_⟩
    exact beq_iff_eq.mpr h
  | openFile p =>
    simp only [findsLive] at h
    split at h
    next f hf =>
      refine ⟨.ok f, rfl, hact _ ?_⟩
      exact beq_iff_eq.mpr hf
    next => cases h
  | readFile f =>
    simp only [findsLive, Bool.and_eq_true, decide_eq_true_eq] at h
    refine ⟨.ok (w.inodes f).content, rfl, hact _ ?_⟩
    simp [Os.answers, h.1]
  | kill q =>
    refine ⟨.ok (), rfl, hact _ ?_⟩
    have hlive : w.live q = true := h
    simp [Os.answers, Os.killAnswer, hlive]
  | _ => exact hl.elim

end Step

/-- Daemon `a` is serving: it listens at its socket path, and its next call is one of
its event loop. -/
def Serving (config : DaemonConfig) (c : HostConfig S) (a : Nat) : Prop :=
  (∃ l, c.world.Listens a l ∧ c.world.nodes config.socketPath = some (.socket l)) ∧
    ∃ op k, ServeOp op ∧ Reach (runDaemon config : SysTry S Unit).run (c.hist a) (.call op k)

/-- A reachable state in which daemon `a` is serving, and daemon `b` with the same
socket path is about to begin. -/
structure Beside (role : Nat → Role) (a b : Nat) (configA configB : DaemonConfig)
    (c₀ : HostConfig S) : Prop where
  ne : a ≠ b
  first : role a = .daemon configA
  second : role b = .daemon configB
  socket : configB.socketPath = configA.socketPath
  reachable : ∃ w₀ ls, w₀.Initial ∧ Run (host role) anyStep (.start w₀) ls c₀
  serving : Serving configA c₀ a
  begins : c₀.hist b = []

/-- What is left of the run in which `b` ran is as if it had not: it was refused, its
calls touched neither a name nor a file, and everyone else can do without it exactly
what they did. -/
structure Harmless (role : Nat → Role) (b : Nat) (configB : DaemonConfig) (c₀ : HostConfig S)
    (ls : List (HostLabel S)) (c : HostConfig S) : Prop where
  refused : ∀ r, Returns (runDaemon configB : SysTry S Unit).run (c.hist b) r →
    ∃ pid socket, r = .error (.daemonAlreadyRunning pid socket)
  untouched : Run (host role) (fun c l => ∀ e c', l = .act b e → (host role).step c l = some c' →
    c'.world.nodes = c.world.nodes ∧ c'.world.inodes = c.world.inodes) c₀ ls c
  as_if : ∃ c', Run (host role) anyStep c₀ (without b ls) c' ∧ ∀ j, j ≠ b → c'.hist j = c.hist j

section Run

variable {role : Nat → Role} {a b : Nat} {configA configB : DaemonConfig}
  {c₀ c c' : HostConfig S} {ls : List (HostLabel S)} {path : Path}

/-- Where `b` stands: it has begun to be refused at its PID file, if it has one. -/
def Rebuffed (b : Nat) (configB : DaemonConfig) (path : Path) (c : HostConfig S) : Prop :=
  (configB.pidFile = none ∧ c.hist b = []) ∨
    (configB.pidFile = some path ∧ Refusing path (c.hist b))

theorem Rebuffed.congr (h : Rebuffed b configB path c) (hh : c'.hist b = c.hist b) :
    Rebuffed b configB path c' := by
  unfold Rebuffed
  rw [hh]
  exact h

/-- One step of a run in which `b` is refused. -/
theorem Rebuffed.step {l : HostLabel S} (h : Rebuffed b configB path c)
    (hb : role b = .daemon configB) (hs : (host role).step c l = some c')
    (ht : ∀ i e, l = .act i e → (host role).behaviour i (c'.hist i)) (hh : Healthy b c l)
    (hf : RefusedAtPidFile b configB c l) :
    Rebuffed b configB path c' ∧ Inert (host role) b c l := by
  cases l with
  | outside o =>
    refine ⟨h.congr ?_, fun e c' he => nomatch he⟩
    rw [(step_outside.mp hs).2]
  | act i e =>
    by_cases hi : i = b
    · subst hi
      rcases h with ⟨hnone, -⟩ | ⟨hp, hr⟩
      · exact absurd hnone (hf e rfl).1
      have hself := hist_act_self hs
      have htrace : Prog.Traces (runDaemon configB : SysTry S Unit).run (c.hist i ++ [e]) := by
        have hbeh : (role i).Traces (c'.hist i) := ht i e rfl
        rwa [hb, hself] at hbeh
      have hk := keepsRefusing_of_findsLive (hf e rfl).2 (hh e rfl) (step_act.mp hs).1
      have hr' := hr.step hp htrace hk
      refine ⟨.inr ⟨hp, hself ▸ hr'⟩, fun e' c'' he hs' => ?_⟩
      obtain ⟨-, -, hw⟩ := Os.act_eq_some.mp (step_act.mp hs').1
      injection he with _ he
      subst he
      rw [hw]
      exact hr'.looksOnly.after
    · refine ⟨h.congr (hist_act_ne hs (Ne.symm hi)), fun e' c'' he => ?_⟩
      injection he with he _
      exact absurd he hi

/-- What it returns, when it does. -/
theorem Rebuffed.returns (h : Rebuffed b configB path c) {r : Except Error Unit}
    (hret : Returns (runDaemon configB : SysTry S Unit).run (c.hist b) r) :
    ∃ pid socket, r = .error (.daemonAlreadyRunning pid socket) := by
  rcases h with ⟨-, hnil⟩ | ⟨hp, hr⟩
  · rw [hnil] at hret
    have hfirst : Prog.Traces (runDaemon configB : SysTry S Unit).run
        ([] ++ [⟨.registerSignal SIGINT, .ok ()⟩]) := ⟨_, Reach.call .refl⟩
    exact (hret.stops hfirst).elim
  · rcases hr.next hp with ⟨pid, hret'⟩ | ⟨op, k, -, hk⟩
    · exact ⟨some pid, none, hret.det hret'⟩
    · cases Reach.det hret hk trivial trivial

end Run

/-- **A refused second start is harmless** where the second daemon is refused at its
PID file. It then ends: it makes seven calls at most, and until it has returned it can
make the next one. -/
theorem refused_start_harmless (role : Nat → Role) (a b : Nat) (configA configB : DaemonConfig)
    (c₀ c : HostConfig S) (ls : List (HostLabel S)) (h : Beside role a b configA configB c₀)
    (hr : Run (host role) (fun c l => Healthy b c l ∧ RefusedAtPidFile b configB c l) c₀ ls c) :
    Harmless role b configB c₀ ls c ∧ (c.hist b).length ≤ 7 ∧
      (c.world.Running b → configB.pidFile ≠ none →
        (∃ r, Returns (runDaemon configB : SysTry S Unit).run (c.hist b) r) ∨
        ∃ op k, Reach (runDaemon configB : SysTry S Unit).run (c.hist b) (.call op k) ∧
          (findsLive c.world op = true →
            ∃ b', Os.isSpurious ⟨op, b'⟩ = false ∧ (c.world.act b ⟨op, b'⟩).isSome = true)) := by
  obtain ⟨path, hpath⟩ : ∃ path, configB.pidFile = none ∨ configB.pidFile = some path := by
    cases configB.pidFile with
    | none => exact ⟨[], .inl rfl⟩
    | some path => exact ⟨path, .inr rfl⟩
  have h₀ : Rebuffed b configB path c₀ := by
    rcases hpath with hp | hp
    · exact .inl ⟨hp, h.begins⟩
    · exact .inr ⟨hp, h.begins ▸ refusing_nil⟩
  have hstep : ∀ (c : HostConfig S) l c', Rebuffed b configB path c →
      (host role).step c l = some c' →
      (∀ i e, l = .act i e → (host role).behaviour i (c'.hist i)) →
      (Healthy b c l ∧ RefusedAtPidFile b configB c l) →
      Rebuffed b configB path c' ∧ Inert (host role) b c l :=
    fun c l c' hI hs ht hc => hI.step h.second hs ht hc.1 hc.2
  have hinert := hr.mono_inv h₀ hstep
  have hrebuffed : Rebuffed b configB path c :=
    hr.inv h₀ fun c l c' hI hs ht hc => (hstep c l c' hI hs ht hc).1
  refine ⟨⟨fun r hret => hrebuffed.returns hret, ?_, ?_⟩, ?_, fun hrun hp => ?_⟩
  · refine hinert.mono fun c l hc e c' he hs => ?_
    rw [hc e c' he hs]
    exact ⟨rfl, rfl⟩
  · obtain ⟨c', hr', -, hh⟩ := hinert.erase
    exact ⟨c', hr', hh⟩
  · rcases hrebuffed with ⟨-, hnil⟩ | ⟨-, hr⟩
    · rw [hnil]
      exact Nat.zero_le _
    · exact hr.length_le
  · rcases hrebuffed with ⟨hnone, -⟩ | ⟨hp, hr⟩
    · exact absurd hnone hp
    · rcases hr.next hp with ⟨pid, hret⟩ | ⟨op, k, hl, hk⟩
      · exact .inl ⟨_, hret⟩
      · refine .inr ⟨op, k, hk, fun hfinds => ?_⟩
        obtain ⟨b', hs, ha⟩ := answered_of_findsLive hl hfinds hrun
        exact ⟨b', hs, by rw [ha]; rfl⟩

/-! ## Two runs -/

/-- A host with nothing on it. -/
def emptyHost : Os where
  nodes _ := none
  inodes _ := {}
  nextFile := 0
  listeners _ := {}
  nextListener := 0
  ends _ := {}
  target _ := 0
  nextConn := 0
  procs _ := {}
  pids _ := none
  clock := 0

theorem emptyHost_initial : emptyHost.Initial where
  procs _ := rfl
  pids _ := rfl
  file_lt _ _ h := nomatch h
  socket_lt _ _ h := nomatch h
  creator _ := rfl
  listeners _ := rfl
  ends _ := rfl

/-- What a daemon does first. -/
def installsFlag : History Unit :=
  [⟨.registerSignal SIGINT, .ok ()⟩, ⟨.registerSignal SIGTERM, .ok ()⟩]

/-- From `on_start` to the first look at the listener. -/
def serves : History Unit :=
  [⟨.onStart, .ok ()⟩, ⟨.createDirAll ["tmp"], .ok ()⟩, ⟨.pathExists sockPath, false⟩,
    ⟨.bind sockPath, .ok 0⟩, ⟨.listenerNonblocking 0 true, .ok ()⟩, ⟨.now, noon⟩,
    ⟨.loadFlag, false⟩, ⟨.now, noon⟩]

/-- From `on_start` to the end of a daemon whose probe is answered. -/
def probesLive : History Unit :=
  [⟨.onStart, .ok ()⟩, ⟨.createDirAll ["tmp"], .ok ()⟩, ⟨.pathExists sockPath, true⟩,
    ⟨.symlinkMetadata sockPath, .ok .socket⟩, ⟨.connect sockPath, .ok ⟨0, .client⟩⟩,
    ⟨.closeStream ⟨0, .client⟩, ()⟩, ⟨.onStop (), .ok ()⟩]

/-- What the probe makes of the daemon that serves. -/
def meetsProbe : History Unit :=
  [⟨.poll 0 250, .ok ⟨1, true⟩⟩, ⟨.accept 0, .ok ⟨0, .server⟩⟩,
    ⟨.streamNonblocking ⟨0, .server⟩ false, .ok ()⟩, ⟨.now, noon⟩,
    ⟨.read ⟨0, .server⟩ 12, .ok (nothing 12)⟩, ⟨.closeStream ⟨0, .server⟩, ()⟩,
    ⟨.closeListener 0, ()⟩]

/-- The first daemon serves. -/
def servingSchedule : List (HostLabel Unit) :=
  [.outside (.start 0 100), .outside (.start 1 101)] ++ (installsFlag ++ serves).map (.act 0)

/-- The second one probes it. -/
def probeSchedule : List (HostLabel Unit) :=
  (installsFlag ++ probesLive).map (.act 1) ++ meetsProbe.map (.act 0)

/-- Two daemons with this configuration. -/
def twins (config : DaemonConfig) (_ : Nat) : Role := .daemon config

/-- Where the first daemon serves after a schedule, the second can begin. -/
theorem beside_of_play {config : DaemonConfig} {ok : HostConfig Unit → HostLabel Unit → Bool}
    {ls : List (HostLabel Unit)} {c₀ : HostConfig Unit} {op : Op Unit} {k : Ans op → Sys Unit _}
    (hc₀ : (host (twins config)).play ok (.start emptyHost) ls = some c₀)
    (ht : ∀ i, (twins config i).Traces (ls.filterMap (Label.of? i)))
    (hl : ∃ l, c₀.world.Listens 0 l ∧ c₀.world.nodes config.socketPath = some (.socket l))
    (hk : Reach (runDaemon config : SysTry Unit Unit).run (ls.filterMap (Label.of? 0)) (.call op k))
    (hop : ServeOp op)
    (hb : ls.filterMap (Label.of? 1) = []) : Beside (twins config) 0 1 config config c₀ where
  ne := by decide
  first := rfl
  second := rfl
  socket := rfl
  reachable := ⟨emptyHost, ls, emptyHost_initial, (run_of_play hc₀ ht).any⟩
  serving := ⟨hl, op, k, hop, by rw [hist_of_play hc₀]; exact hk⟩
  begins := by rw [hist_of_play hc₀]; exact hb

/-- A second daemon without a PID file is refused, but its probe makes the first one
leave its event loop. -/
theorem probe_ends_first_daemon :
    ¬ ∀ (role : Nat → Role) (a b : Nat) (configA configB : DaemonConfig)
      (c₀ c : HostConfig Unit) (ls : List (HostLabel Unit)),
      Beside role a b configA configB c₀ → Run (host role) (Healthy b) c₀ ls c →
        Harmless role b configB c₀ ls c := by
  intro hclaim
  -- the calls of the second daemon do not fail
  let ok : HostConfig Unit → HostLabel Unit → Bool := fun _ l => match l with
    | .act i e => i != 1 || !Os.isSpurious e
    | .outside _ => true
  have hplay₀ : ((host (twins {})).play ok (.start emptyHost) servingSchedule).map
      (fun c => decide (c.world.Listens 0 0 ∧ c.world.nodes sockPath = some (.socket 0))) =
        some true := by decide +kernel
  have hplay : ((host (twins {})).play ok (.start emptyHost)
      (servingSchedule ++ probeSchedule)).isSome = true := by decide +kernel
  have herased : ((host (twins {})).play (fun _ _ => true) (.start emptyHost)
      (servingSchedule ++ without 1 probeSchedule)).isSome = false := by decide +kernel
  obtain ⟨c₀, hc₀, hl⟩ := Option.map_eq_some_iff.mp hplay₀
  obtain ⟨c, hc⟩ := Option.isSome_iff_exists.mp hplay
  have hserves : ∀ i, (twins {} i).Traces (servingSchedule.filterMap (Label.of? i)) := fun i =>
    match i with
    | 0 => traces_of_follow 60 (by rfl)
    | i + 1 => Role.traces_nil _
  have hnext : Prog.Traces (runDaemon {} : SysTry Unit Unit).run
      (servingSchedule.filterMap (Label.of? 0) ++ [⟨.poll 0 250, .ok ⟨1, true⟩⟩]) :=
    traces_of_follow 60 (by rfl)
  obtain ⟨k, hk⟩ := hnext.before
  have hbeside := beside_of_play hc₀ hserves ⟨0, of_decide_eq_true hl⟩ hk trivial rfl
  rw [play_append, hc₀, Option.bind_some] at hc
  have hrun : Run (host (twins {})) (fun c l => ok c l = true) c₀ probeSchedule c := by
    refine run_of_play_after hc₀ hc fun i => ?_
    match i with
    | 0 => exact traces_of_follow 60 (by rfl)
    | 1 => exact traces_of_follow 60 (by rfl)
    | i + 2 => exact Role.traces_nil _
  have hhealthy := hrun.mono fun c l hok => show Healthy 1 c l from fun e he => by
    rw [he] at hok
    simpa [ok] using hok
  obtain ⟨c', hr', -⟩ := (hclaim (twins {}) 0 1 {} {} c₀ c probeSchedule hbeside hhealthy).as_if
  -- without the probe there is nothing to accept
  rw [play_append, (run_of_play hc₀ hserves).play, Option.bind_some, hr'.play] at herased
  cases herased

/-- The daemon with a PID file: it claims the file before it serves. -/
def claimsFile : History Unit :=
  [⟨.createDirAll ["run"], .ok ()⟩, ⟨.pathExists pidPath, false⟩] ++ (takes 0 100).tail

/-- The first daemon serves, holding its PID file. -/
def claimedSchedule : List (HostLabel Unit) :=
  [.outside (.start 0 100), .outside (.start 1 101)] ++
    (installsFlag ++ claimsFile ++ serves).map (.act 0)

/-- The second one looks at that file. -/
def refusedSchedule : List (HostLabel Unit) :=
  (installsFlag ++ looks 0 100 (.ok ())).map (.act 1)

/-- In the run of these schedules the second daemon is refused, and nothing comes of it. -/
theorem refused_start_harmless_twins : ∃ c₀ c : HostConfig Unit,
    Beside (twins { pidFile := some pidPath }) 0 1 { pidFile := some pidPath }
      { pidFile := some pidPath } c₀ ∧
    Returns (runDaemon { pidFile := some pidPath } : SysTry Unit Unit).run (c.hist 1)
      (.error (.daemonAlreadyRunning (some 100) none)) ∧
    Harmless (twins { pidFile := some pidPath }) 1 { pidFile := some pidPath } c₀
      refusedSchedule c := by
  let ok : HostConfig Unit → HostLabel Unit → Bool := fun c l => match l with
    | .act i e => i != 1 || (!Os.isSpurious e && findsLive c.world e.1)
    | .outside _ => true
  have hplay₀ : ((host (twins { pidFile := some pidPath })).play (fun _ _ => true)
      (.start emptyHost) claimedSchedule).map (fun c => decide (c.world.Listens 0 0 ∧
        c.world.nodes sockPath = some (.socket 0))) = some true := by decide +kernel
  have hplay : (((host (twins { pidFile := some pidPath })).play (fun _ _ => true)
      (.start emptyHost) claimedSchedule).bind fun c₀ =>
        (host (twins { pidFile := some pidPath })).play ok c₀ refusedSchedule).isSome = true := by
    decide +kernel
  obtain ⟨c₀, hc₀, hl⟩ := Option.map_eq_some_iff.mp hplay₀
  rw [hc₀, Option.bind_some] at hplay
  obtain ⟨c, hc⟩ := Option.isSome_iff_exists.mp hplay
  have hserves : ∀ i, (twins { pidFile := some pidPath } i).Traces
      (claimedSchedule.filterMap (Label.of? i)) := fun i =>
    match i with
    | 0 => traces_of_follow 60 (by rfl)
    | i + 1 => Role.traces_nil _
  have hnext : Prog.Traces (runDaemon { pidFile := some pidPath } : SysTry Unit Unit).run
      (claimedSchedule.filterMap (Label.of? 0) ++ [⟨.poll 0 250, .ok ⟨1, true⟩⟩]) :=
    traces_of_follow 60 (by rfl)
  obtain ⟨k, hk⟩ := hnext.before
  have hbeside := beside_of_play hc₀ hserves ⟨0, of_decide_eq_true hl⟩ hk trivial rfl
  have hrefused : Returns (runDaemon { pidFile := some pidPath } : SysTry Unit Unit).run
      (refusedSchedule.filterMap (Label.of? 1)) (.error (.daemonAlreadyRunning (some 100) none)) :=
    returns_of_follow 60 (by rfl)
  have hrun : Run (host (twins { pidFile := some pidPath })) (fun c l => ok c l = true) c₀
      refusedSchedule c := by
    refine run_of_play_after hc₀ hc fun i => ?_
    match i with
    | 0 => exact traces_of_follow 60 (by rfl)
    | 1 => exact hrefused.traces
    | i + 2 => exact Role.traces_nil _
  have hcond := hrun.mono fun c l hok =>
    show Healthy 1 c l ∧ RefusedAtPidFile 1 { pidFile := some pidPath } c l by
      refine ⟨fun e he => ?_, fun e he => ⟨nofun, ?_⟩⟩
      all_goals
        rw [he] at hok
        simp only [ok, bne_self_eq_false, Bool.false_or, Bool.and_eq_true,
          Bool.not_eq_true'] at hok
      · exact hok.1
      · exact hok.2
  have hharmless := (refused_start_harmless _ 0 1 _ _ c₀ c refusedSchedule hbeside hcond).1
  refine ⟨c₀, c, hbeside, ?_, hharmless⟩
  rw [hist_play hc 1, hist_of_play hc₀ 1]
  exact hrefused

end Sockd
