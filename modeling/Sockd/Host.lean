import Sockd.Client
import Sockd.Daemon
import Sockd.Os

/-!
# Processes on one host

Each process of a host runs one of the library's functions (`Role`): it is a daemon,
or one call of a client, or it holds a PID file. A client that makes several calls
one after the other is several processes here, whose steps do not overlap. `host` is
the system of them: their calls interleave in any order, and they are started,
signalled and killed at any time.

`Table` says that the process table is in order. What a call leaves alone is said
field by field of the host (`procs_after` and its like).
-/

namespace Sockd

open Rust Effects Effects.Prog Effects.System

variable {S : Type}

/-- What a process does. -/
inductive Role
  | daemon (config : DaemonConfig)
  | request (client : Client) (payload : Bytes)
  | ping (client : Client)
  | shutdown (client : Client)
  | guard (path : Path)

/-- Claim the PID file, and drop the guard again. -/
def guardPidFile (path : Path) : Sys S Unit :=
  (PidGuard.claim path).run.bind fun
    | .ok guard => guard.drop
    | .error _ => .ret ()

/-- The histories that a process can have. -/
def Role.Traces : Role → History S → Prop
  | .daemon config => Prog.Traces (runDaemon config).run
  | .request client payload => Prog.Traces (client.request payload).run
  | .ping client => Prog.Traces client.ping.run
  | .shutdown client => Prog.Traces client.shutdown.run
  | .guard path => Prog.Traces (guardPidFile path)

/-- The host whose process `i` does `role i`. -/
def host (role : Nat → Role) : System (sysSig S) Os Os.Outside where
  acts := Os.act
  outside := Os.outside
  behaviour i := (role i).Traces

/-- Configurations of a host. -/
abbrev HostConfig (S : Type) : Type := Config (sysSig S) Os

/-- Steps of a host. -/
abbrev HostLabel (S : Type) : Type := Label (sysSig S) Os.Outside

theorem Role.traces_nil (role : Role) : role.Traces ([] : History S) := by
  cases role <;> exact Prog.traces_nil _

theorem Role.traces_cut {role : Role} {t₁ t₂ : History S} (h : role.Traces (t₁ ++ t₂)) :
    role.Traces t₁ := by
  cases role <;> exact Prog.Traces.cut h

/-- What a process has done when a schedule has been played. -/
theorem hist_of_play {role : Nat → Role} {ok : HostConfig S → HostLabel S → Bool}
    {ls : List (HostLabel S)} {w₀ : Os} {c : HostConfig S}
    (h : (host role).play ok (.start w₀) ls = some c) (i : Nat) :
    c.hist i = ls.filterMap (Label.of? i) := hist_play h i

/-- A schedule of the host that plays is a run, if every process does what its role
says. -/
theorem run_of_play {role : Nat → Role} {ok : HostConfig S → HostLabel S → Bool}
    {ls : List (HostLabel S)} {w₀ : Os} {c : HostConfig S}
    (h : (host role).play ok (.start w₀) ls = some c)
    (hb : ∀ i, (role i).Traces (ls.filterMap (Label.of? i))) :
    Run (host role) (fun c l => ok c l = true) (.start w₀) ls c := by
  refine Run.of_play (fun i _ _ => Role.traces_cut) h fun i => ?_
  rw [hist_of_play h i]
  exact hb i

/-- The same for the second of two schedules. -/
theorem run_of_play_after {role : Nat → Role} {ok₀ ok : HostConfig S → HostLabel S → Bool}
    {ls₀ ls : List (HostLabel S)} {w₀ : Os} {c₀ c : HostConfig S}
    (h₀ : (host role).play ok₀ (.start w₀) ls₀ = some c₀) (h : (host role).play ok c₀ ls = some c)
    (hb : ∀ i, (role i).Traces ((ls₀ ++ ls).filterMap (Label.of? i))) :
    Run (host role) (fun c l => ok c l = true) c₀ ls c := by
  refine Run.of_play (fun i t₁ t₂ ht => Role.traces_cut ht) h fun i => ?_
  rw [hist_play h i, hist_of_play h₀ i, ← List.filterMap_append]
  exact hb i

namespace Os

/-! ## What a call leaves alone -/

section Frame

variable (w : Os) (i : Nat) (ev : SysEvent S)

@[simp] theorem procs_after : (w.after i ev).procs = w.procs := by
  unfold after
  split <;> first | rfl | (split <;> rfl)

@[simp] theorem pids_after : (w.after i ev).pids = w.pids := by
  unfold after
  split <;> first | rfl | (split <;> rfl)

/-- Names change when something is created, bound or removed. -/
theorem nodes_after (hop : ∀ p, ev.1 ≠ .removeFile p ∧ ev.1 ≠ .createNew p ∧ ev.1 ≠ .bind p) :
    (w.after i ev).nodes = w.nodes := by
  unfold after
  split
  next p _ => exact absurd rfl (hop p).1
  next p _ => exact absurd rfl (hop p).2.1
  next => rfl
  next => split <;> rfl
  next p _ => exact absurd rfl (hop p).2.2
  all_goals rfl

theorem nextListener_after (hop : ∀ p, ev.1 ≠ .bind p) :
    (w.after i ev).nextListener = w.nextListener := by
  unfold after
  split
  next => rfl
  next => rfl
  next => rfl
  next => split <;> rfl
  next p _ => exact absurd rfl (hop p)
  all_goals rfl

/-- Replacing a listener opens none but that one. -/
theorem isOpen_setListener {l k : Nat} {v : Listener}
    (hv : v.isOpen = true → (w.listeners l).isOpen = true)
    (hk : ((w.setListener l v).listeners k).isOpen = true) : (w.listeners k).isOpen = true := by
  have hk' : (Function.update w.listeners l v k).isOpen = true := hk
  by_cases hkl : k = l
  · subst hkl
    rw [Function.update_self] at hk'
    exact hv hk'
  · rwa [Function.update_of_ne hkl] at hk'

/-- Listeners are opened by `bind` only. -/
theorem isOpen_after (hop : ∀ p, ev.1 ≠ .bind p) (l : Nat)
    (hl : ((w.after i ev).listeners l).isOpen = true) : (w.listeners l).isOpen = true := by
  unfold after at hl
  split at hl
  next => exact hl
  next => exact hl
  next => exact hl
  next =>
    split at hl
    next k _ =>
      refine isOpen_setListener w (l := k) ?_ hl
      exact fun h => h
    next => exact hl
  next p _ => exact absurd rfl (hop p)
  next k _ =>
    refine isOpen_setListener w (l := k) ?_ hl
    exact fun h => h
  next => exact hl
  next => exact hl
  next => exact hl
  next k _ =>
    refine isOpen_setListener w (l := k) ?_ hl
    exact fun h => nomatch h
  next => exact hl
  next => exact hl

theorem running_after (j : Nat) : (w.after i ev).Running j ↔ w.Running j := by
  rw [Running, Running, procs_after]

end Frame

theorem act_eq_some {w w' : Os} {i : Nat} {ev : SysEvent S} :
    w.act i ev = some w' ↔
      w.Running i ∧ (isSpurious ev = true ∨ w.answers i ev = true) ∧ w' = w.after i ev := by
  unfold act
  split
  next h =>
    rw [Option.some.injEq]
    exact ⟨fun hw => ⟨h.1, h.2, hw.symm⟩, fun hw => hw.2.2.symm⟩
  next h =>
    refine ⟨fun hw => (nomatch hw), fun hw => ?_⟩
    exact absurd ⟨hw.1, hw.2.1⟩ h

/-! ## What the answers say -/

section Answers

variable {w : Os} {i : Nat}

/-- A new file gets a name that was free. -/
theorem createNew_ok {p : Path} {f : Nat}
    (h : isSpurious (⟨.createNew p, .ok f⟩ : SysEvent S) = true ∨
      w.answers i (⟨.createNew p, .ok f⟩ : SysEvent S) = true) :
    w.nodes p = none ∧ f = w.nextFile := by
  have hans : ((w.nodes p).isNone && decide (f = w.nextFile)) = true :=
    h.resolve_left Bool.false_ne_true
  rwa [Bool.and_eq_true, decide_eq_true_eq, Option.isNone_iff_eq_none] at hans

/-- So does a new listener. -/
theorem bind_ok {p : Path} {l : Nat}
    (h : isSpurious (⟨.bind p, .ok l⟩ : SysEvent S) = true ∨
      w.answers i (⟨.bind p, .ok l⟩ : SysEvent S) = true) :
    w.nodes p = none ∧ l = w.nextListener := by
  have hans : ((w.nodes p).isNone && decide (l = w.nextListener)) = true :=
    h.resolve_left Bool.false_ne_true
  rwa [Bool.and_eq_true, decide_eq_true_eq, Option.isNone_iff_eq_none] at hans

/-- A connection is made to a listener that is open; it is the next one. -/
theorem connect_ok {p : Path} {s : Stream}
    (h : isSpurious (⟨.connect p, .ok s⟩ : SysEvent S) = true ∨
      w.answers i (⟨.connect p, .ok s⟩ : SysEvent S) = true) :
    ∃ l, w.nodes p = some (.socket l) ∧ (w.listeners l).isOpen = true ∧
      s = ⟨w.nextConn, .client⟩ := by
  have hans : w.connectAnswer (w.nodes p) (.ok s) = true := h.resolve_left Bool.false_ne_true
  cases hn : w.nodes p with
  | none => rw [hn] at hans; cases hans
  | some node =>
    rw [hn] at hans
    cases node with
    | socket l =>
      have hopen : ((w.listeners l).isOpen && decide (s = ⟨w.nextConn, .client⟩)) = true := hans
      rw [Bool.and_eq_true, decide_eq_true_eq] at hopen
      exact ⟨l, rfl, hopen⟩
    | file f => cases hans
    | directory => cases hans

/-- What is accepted is the server's end of the connection that has waited longest. -/
theorem accept_ok {l : Nat} {s : Stream}
    (h : isSpurious (⟨.accept l, .ok s⟩ : SysEvent S) = true ∨
      w.answers i (⟨.accept l, .ok s⟩ : SysEvent S) = true) :
    w.Listens i l ∧ s.side = .server ∧ (w.listeners l).backlog.head? = some s.conn := by
  have hans : (decide (w.Listens i l) && decide (s.side = .server) &&
      (w.listeners l).backlog.head? == some s.conn) = true := h.resolve_left Bool.false_ne_true
  simp only [Bool.and_eq_true, decide_eq_true_eq, beq_iff_eq] at hans
  exact ⟨hans.1.1, hans.1.2, hans.2⟩

/-- Who reads from a stream has it open. -/
theorem read_answers {s : Stream} {n : Nat} {a : Except IoError (Chunk n)}
    (h : w.answers i (⟨.read s n, a⟩ : SysEvent S) = true) :
    w.Holds i s ∧ w.readAnswer s n a = true := by
  have hans : (decide (w.Holds i s) && w.readAnswer s n a) = true := h
  rwa [Bool.and_eq_true, decide_eq_true_eq] at hans

/-- So has who writes to it. -/
theorem write_answers {s : Stream} {buf : Bytes} {a : Except IoError (Taken buf)}
    (h : w.answers i (⟨.write s buf, a⟩ : SysEvent S) = true) :
    w.Holds i s ∧ w.writeAnswer s buf a = true := by
  have hans : (decide (w.Holds i s) && w.writeAnswer s buf a) = true := h
  rwa [Bool.and_eq_true, decide_eq_true_eq] at hans

end Answers

/-! ## Names and files -/

/-- What a call of process `i` does to the names and the files: it is one of four, or
it does nothing to them. -/
inductive FileStep (w w' : Os) (i : Nat) (ev : SysEvent S) : Prop
  | created (p : Path) : ev = ⟨.createNew p, .ok w.nextFile⟩ → w.nodes p = none →
      w'.nodes = Function.update w.nodes p (some (.file w.nextFile)) →
      w'.inodes = Function.update w.inodes w.nextFile { creator := some i } →
      w'.nextFile = w.nextFile + 1 → FileStep w w' i ev
  | written (f : Nat) (buf : Bytes) (k : Taken buf) : ev = ⟨.writeFile f buf, .ok k⟩ →
      (w.inodes f).creator = some i → w'.nodes = w.nodes →
      w'.inodes = Function.update w.inodes f
        { w.inodes f with content := (w.inodes f).content ++ buf.take k.1 } →
      w'.nextFile = w.nextFile → FileStep w w' i ev
  | removed (p : Path) : ev = ⟨.removeFile p, .ok ()⟩ → (w.nodes p).isSome →
      w'.nodes = Function.update w.nodes p none → w'.inodes = w.inodes →
      w'.nextFile = w.nextFile → FileStep w w' i ev
  | bound (p : Path) (l : Nat) : ev = ⟨.bind p, .ok l⟩ → w.nodes p = none →
      w'.nodes = Function.update w.nodes p (some (.socket l)) → w'.inodes = w.inodes →
      w'.nextFile = w.nextFile → FileStep w w' i ev
  | other : (∀ p f, ev ≠ ⟨.createNew p, .ok f⟩) → (∀ f buf k, ev ≠ ⟨.writeFile f buf, .ok k⟩) →
      (∀ p, ev ≠ ⟨.removeFile p, .ok ()⟩) → w'.nodes = w.nodes → w'.inodes = w.inodes →
      w'.nextFile = w.nextFile → FileStep w w' i ev

theorem fileStep_act {w w' : Os} {i : Nat} {ev : SysEvent S} (h : w.act i ev = some w') :
    FileStep w w' i ev := by
  obtain ⟨-, hok, rfl⟩ := act_eq_some.mp h
  obtain ⟨op, a⟩ := ev
  cases op with
  | createNew p =>
    cases a with
    | error err => exact .other nofun nofun nofun rfl rfl rfl
    | ok f =>
      obtain ⟨hnone, rfl⟩ := createNew_ok hok
      exact .created p rfl hnone rfl rfl rfl
  | writeFile f buf =>
    cases a with
    | error err => exact .other nofun nofun nofun rfl rfl rfl
    | ok k =>
      have hans : ((w.inodes f).creator == some i && decide (0 < k.1 ∨ buf = [])) = true :=
        hok.resolve_left fun he => nomatch he
      rw [Bool.and_eq_true, beq_iff_eq] at hans
      exact .written f buf k rfl hans.1 rfl rfl rfl
  | removeFile p =>
    cases a with
    | error err => exact .other nofun nofun nofun rfl rfl rfl
    | ok u =>
      refine .removed p rfl ?_ rfl rfl rfl
      have hans : w.answers i (⟨.removeFile p, .ok u⟩ : SysEvent S) = true :=
        hok.resolve_left fun he => nomatch he
      cases hp : w.nodes p with
      | none => simp only [answers, hp] at hans; cases hans
      | some node => rfl
  | bind p =>
    cases a with
    | error err => exact .other nofun nofun nofun rfl rfl rfl
    | ok l =>
      exact .bound p l rfl (bind_ok hok).1 rfl rfl rfl
  | connect p =>
    refine .other nofun nofun nofun ?_ ?_ ?_
    all_goals
      cases a with
      | error err => rfl
      | ok s =>
        unfold after
        dsimp only
        split <;> rfl
  | accept l | closeListener l | read s n | write s b | closeStream s =>
    refine .other nofun nofun nofun ?_ ?_ ?_ <;> cases a <;> rfl
  | _ => exact .other nofun nofun nofun rfl rfl rfl

/-! ## The process table -/

/-- Every process that has not been reaped is in the table under its pid. -/
def Table (w : Os) : Prop :=
  ∀ i, (w.Running i ∨ (w.procs i).status = .zombie) →
    w.pids (w.procs i).pid = some i ∧ 0 < (w.procs i).pid.toNat ∧ (w.procs i).pid.toNat < 2 ^ 31

theorem Initial.table {w : Os} (h : w.Initial) : w.Table := by
  intro i hi
  rw [Running, h.procs i] at hi
  rcases hi with hi | hi <;> cases hi

theorem Table.after {w : Os} (h : w.Table) (i : Nat) (ev : SysEvent S) : (w.after i ev).Table := by
  intro j hj
  rw [running_after, procs_after] at hj
  rw [pids_after, procs_after]
  exact h j hj

/-- What an outside step does to the processes: at most one changes, and it goes
forward in its life. -/
theorem outside_procs {w w' : Os} {o : Outside} (h : w.outside o = some w') :
    ∃ i p, w'.procs = Function.update w.procs i p ∧
      ((w.procs i).status = .absent ∧ p.status = .running ∧ 0 < p.pid.toNat ∧
          p.pid.toNat < 2 ^ 31 ∧ w.pids p.pid = none ∧ w'.pids = Function.update w.pids p.pid (some i) ∨
        (w.Running i ∧ p.pid = (w.procs i).pid ∧ (p.status = .running ∨ p.status = .zombie) ∧
          w'.pids = w.pids) ∨
        ((w.procs i).status = .zombie ∧ p.status = .gone ∧
          w'.pids = Function.update w.pids (w.procs i).pid none)) := by
  cases o with
  | start i pid =>
    simp only [outside, Option.ite_none_right_eq_some] at h
    obtain ⟨⟨hs, hp, hpos, hlt⟩, hw⟩ := h
    obtain rfl := Option.some.inj hw
    exact ⟨i, _, rfl, .inl ⟨hs, rfl, hpos, hlt, hp, rfl⟩⟩
  | signal i =>
    simp only [outside, Option.ite_none_right_eq_some] at h
    obtain ⟨hr, hw⟩ := h
    obtain rfl := Option.some.inj hw
    exact ⟨i, _, rfl, .inr (.inl ⟨hr, rfl, .inl hr, rfl⟩)⟩
  | terminate i =>
    simp only [outside, Option.ite_none_right_eq_some] at h
    obtain ⟨hr, hw⟩ := h
    obtain rfl := Option.some.inj hw
    exact ⟨i, _, rfl, .inr (.inl ⟨hr, rfl, .inr rfl, rfl⟩)⟩
  | reap i =>
    simp only [outside, Option.ite_none_right_eq_some] at h
    obtain ⟨hz, hw⟩ := h
    obtain rfl := Option.some.inj hw
    exact ⟨i, _, rfl, .inr (.inr ⟨hz, rfl, rfl⟩)⟩

/-- What an outside step does to the files: nothing. -/
theorem outside_files {w w' : Os} {o : Outside} (h : w.outside o = some w') :
    w'.nodes = w.nodes ∧ w'.nextFile = w.nextFile ∧ w'.inodes = w.inodes := by
  cases o <;>
    · simp only [outside, Option.ite_none_right_eq_some] at h
      obtain rfl := Option.some.inj h.2
      exact ⟨rfl, rfl, rfl⟩

/-- What an outside step does to the listeners: it closes some. -/
theorem outside_listeners {w w' : Os} {o : Outside} (h : w.outside o = some w') :
    w'.nextListener = w.nextListener ∧
      ∀ l, (w'.listeners l).isOpen = true → (w.listeners l).isOpen = true := by
  cases o with
  | terminate i =>
    simp only [outside, Option.ite_none_right_eq_some] at h
    obtain rfl := Option.some.inj h.2
    refine ⟨rfl, fun l hl => ?_⟩
    have hl' : (if (w.listeners l).owner = some i then { owner := some i }
      else w.listeners l : Listener).isOpen = true := hl
    split at hl'
    next => cases hl'
    next => exact hl'
  | start | signal | reap =>
    simp only [outside, Option.ite_none_right_eq_some] at h
    obtain rfl := Option.some.inj h.2
    exact ⟨rfl, fun l hl => hl⟩

theorem Table.outside {w w' : Os} {o : Outside} (h : w.Table) (ho : w.outside o = some w') :
    w'.Table := by
  obtain ⟨i, p, hprocs, hcase⟩ := outside_procs ho
  intro j hj
  rw [Running, hprocs] at hj
  rw [hprocs]
  by_cases hji : j = i
  · subst hji
    rw [Function.update_self] at hj ⊢
    rcases hcase with ⟨-, -, hpos, hlt, -, hpids⟩ | ⟨hr, hpid, -, hpids⟩ | ⟨-, hg, -⟩
    · rw [hpids, Function.update_self]
      exact ⟨rfl, hpos, hlt⟩
    · rw [hpids, hpid]
      exact h j (.inl hr)
    · rw [hg] at hj
      rcases hj with hj | hj <;> cases hj
  · rw [Function.update_of_ne hji] at hj ⊢
    obtain ⟨hj₁, hj₂⟩ := h j hj
    rcases hcase with ⟨-, -, -, -, hnone, hpids⟩ | ⟨-, -, -, hpids⟩ | ⟨hz, -, hpids⟩
    · rw [hpids, Function.update_of_ne]
      · exact ⟨hj₁, hj₂⟩
      · intro he
        rw [← he, hj₁] at hnone
        cases hnone
    · rw [hpids]
      exact ⟨hj₁, hj₂⟩
    · rw [hpids, Function.update_of_ne]
      · exact ⟨hj₁, hj₂⟩
      · intro he
        have hi := (h i (.inr hz)).1
        rw [← he, hj₁] at hi
        exact hji (Option.some.inj hi)

/-- A process that was running and is no longer absent stays what it was, but for
ending. -/
theorem running_of_outside {w w' : Os} {o : Outside} (ho : w.outside o = some w') {j : Nat}
    (hj : w'.Running j) (hs : (w.procs j).status ≠ .absent) :
    w.Running j ∧ (w'.procs j).pid = (w.procs j).pid := by
  obtain ⟨i, p, hprocs, hcase⟩ := outside_procs ho
  rw [Running, hprocs] at hj
  rw [hprocs]
  by_cases hji : j = i
  · subst hji
    rw [Function.update_self] at hj ⊢
    rcases hcase with ⟨ha, -⟩ | ⟨hr, hpid, -⟩ | ⟨-, hg, -⟩
    · exact absurd ha hs
    · exact ⟨hr, hpid⟩
    · rw [hg] at hj
      cases hj
  · rw [Function.update_of_ne hji] at hj ⊢
    exact ⟨hj, rfl⟩

/-- Nobody becomes absent again. -/
theorem not_absent_of_outside {w w' : Os} {o : Outside} (ho : w.outside o = some w') {j : Nat}
    (hs : (w.procs j).status ≠ .absent) : (w'.procs j).status ≠ .absent := by
  obtain ⟨i, p, hprocs, hcase⟩ := outside_procs ho
  rw [hprocs]
  by_cases hji : j = i
  · subst hji
    rw [Function.update_self]
    rcases hcase with ⟨-, hp, -⟩ | ⟨-, -, hp | hp, -⟩ | ⟨-, hp, -⟩ <;> rw [hp] <;> decide
  · rw [Function.update_of_ne hji]
    exact hs

/-- Nobody has done anything before being started. -/
def Fresh (c : HostConfig S) : Prop := ∀ i, (c.world.procs i).status = .absent → c.hist i = []

theorem Fresh.act {role : Nat → Role} {c c' : HostConfig S} {i : Nat} {e : SysEvent S}
    (h : Fresh c) (hs : (host role).step c (.act i e) = some c') : Fresh c' := by
  obtain ⟨hi, -, hw⟩ := act_eq_some.mp (step_act.mp hs).1
  intro j hj
  rw [hw, procs_after] at hj
  have hji : j ≠ i := by
    intro hji
    subst hji
    cases hj.symm.trans hi
  rw [hist_act_ne hs hji]
  exact h j hj

theorem Fresh.outside {role : Nat → Role} {c c' : HostConfig S} {o : Outside}
    (h : Fresh c) (hs : (host role).step c (.outside o) = some c') : Fresh c' := by
  obtain ⟨ho, hh⟩ := step_outside.mp hs
  intro j hj
  rw [hh]
  by_cases hs : (c.world.procs j).status = .absent
  · exact h j hs
  · exact absurd hj (not_absent_of_outside ho hs)

/-- A pid as `kill` gets it. -/
theorem toInt32_pid {pid : UInt32} (h : pid.toNat < 2 ^ 31) : pid.toInt32.toInt = pid.toNat := by
  have h2 : 2 * pid.toBitVec.toNat < 2 ^ 32 := by
    rw [UInt32.toNat_toBitVec]
    omega
  show pid.toBitVec.toInt = _
  rw [BitVec.toInt_eq_toNat_of_lt h2, UInt32.toNat_toBitVec]

/-- `kill` reaches a process that is running. -/
theorem Table.live {w : Os} (h : w.Table) {i : Nat} (hi : w.Running i) :
    w.live (w.procs i).pid.toInt32.toInt = true := by
  obtain ⟨hp, hpos, hlt⟩ := h i (.inl hi)
  rw [toInt32_pid hlt]
  simp [Os.live, hp, hpos]

end Os

end Sockd
