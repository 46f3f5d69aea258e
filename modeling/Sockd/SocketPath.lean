import Sockd.Calls
import Sockd.Host

/-!
# Who owns the socket path

Any number of daemons without a PID file start, serve and exit on one socket path,
their calls interleaved in any order. `socket::bind` and `socket::cleanup` decide and
unlink by path in separate steps, so a daemon can unlink the socket of another one
that is listening (`starter_unlinks_listener`). Where nobody binds the path while
another daemon is about to unlink it (`NobodyAboutToUnlink`), none does, and a daemon
that has bound the path is the one that answers there (`listener_keeps_path`).

The invariant (`Reachable`) is that an open listener is what the path names, and that
what the path names is no open listener while somebody is about to unlink it.
-/

namespace Sockd

open Rust Effects Effects.Prog Effects.System

variable {S : Type}

/-- A configuration with this socket path, and without a PID file. -/
def DaemonConfig.at (config : DaemonConfig) (path : Path) : DaemonConfig :=
  { config with socketPath := path, pidFile := none }

/-- Any number of daemons, each with its own configuration but for the socket path,
and without a PID file. -/
def daemonsAt (path : Path) (config : Nat → DaemonConfig) : System (sysSig S) Os Os.Outside :=
  host fun i => .daemon ((config i).at path)

/-! ## What comes before `remove_file` -/

/-- What makes a daemon unlink the path in its next step: its probe failed in a way
that `bind` takes for stale, or it dropped its listener. -/
def LeadsToUnlink (path : Path) : SysEvent S → Prop
  | ⟨.connect p, .error err⟩ => p = path ∧ Socket.isStaleKind err.kind = true
  | ⟨.closeListener _, _⟩ => True
  | _ => False

section Trace

variable {path : Path} {m : Option (SysEvent S) × Prop}

/-- The monitor of this section. -/
abbrev unlinkMonitor (path : Path) : Option (SysEvent S) × Prop → SysEvent S →
    Option (SysEvent S) × Prop :=
  Spec.precede (fun op => op = Op.removeFile path) (LeadsToUnlink path)

/-- A call that is not `remove_file`. -/
theorem unlinkMonitor_other (path : Path) {m : Option (SysEvent S) × Prop} (hm : m.2) (op : Op S)
    (b : Ans op) (hop : op ≠ .removeFile path) : (unlinkMonitor path m ⟨op, b⟩).2 :=
  ⟨hm, fun h => absurd h hop⟩

theorem reclaim_unlink (hm : m.2) :
    Spec (unlinkMonitor path) m (Socket.reclaim path : SysTry S Unit).run (·.2) (fun _ m => m.2) := by
  refine Spec.call hm fun (there : Bool) => ?_
  have h₁ := unlinkMonitor_other path hm (.pathExists path) there (by simp)
  generalize unlinkMonitor path m ⟨.pathExists path, there⟩ = m₁ at h₁
  cases there with
  | false => exact .ret h₁ h₁
  | true =>
    refine Spec.call h₁ fun a => ?_
    have h₂ := unlinkMonitor_other path h₁ (.symlinkMetadata path) a (by simp)
    generalize unlinkMonitor path m₁ ⟨.symlinkMetadata path, a⟩ = m₂ at h₂
    cases a with
    | error err => exact .ret h₂ h₂
    | ok fileType =>
      show Spec _ _ (Try.run (if fileType ≠ .socket then _ else _)) _ _
      rw [Try.run_ite]
      split
      next => exact .ret h₂ h₂
      next =>
        refine Spec.call h₂ fun b => ?_
        have h₃ := unlinkMonitor_other path h₂ (.connect path) b (by simp)
        cases b with
        | ok stream =>
          refine Spec.call h₃ fun u => ?_
          have h₄ := unlinkMonitor_other path h₃ (.closeStream stream) u (by simp)
          exact .ret h₄ h₄
        | error err =>
          show Spec _ _ (Try.run (if _ then _ else _)) _ _
          rw [Try.run_ite]
          split
          next hk =>
            -- the probe was the step before
            refine Spec.call h₃ fun c => ?_
            have h₄ : (unlinkMonitor path (unlinkMonitor path m₂ ⟨.connect path, .error err⟩)
                ⟨.removeFile path, c⟩).2 := ⟨h₃, fun _ => ⟨_, rfl, rfl, hk⟩⟩
            exact .ret h₄ h₄
          next => exact .ret h₃ h₃

theorem bind_unlink (hm : m.2) :
    Spec (unlinkMonitor path) m (Socket.bind path : SysTry S Nat).run (·.2) (fun _ m => m.2) := by
  have hlisten : AllCalls (fun op => ¬ op = Op.removeFile path)
      (Socket.listen path : SysTry S Nat).run := by
    refine Try.allCalls_bind (Try.allCalls_mapErr ⟨(nomatch ·), fun _ => trivial⟩) ?_
    intro listener
    refine Try.allCalls_bind (Try.allCalls_attempt ⟨(nomatch ·), fun _ => trivial⟩) ?_
    intro r
    split
    next => trivial
    next =>
      exact Try.allCalls_bind (Try.allCalls_lift ⟨(nomatch ·), fun _ => trivial⟩)
        fun _ => trivial
  have htail : ∀ {m : Option (SysEvent S) × Prop}, m.2 →
      Spec (unlinkMonitor path) m (do Socket.reclaim path; Socket.listen path : SysTry S Nat).run
        (·.2) (fun _ m => m.2) := by
    intro m hm
    refine Spec.andThen (reclaim_unlink hm) fun _ m hm _ => ?_
    exact Spec.precede_of_allCalls hlisten hm
  unfold Socket.bind
  split
  next parent hp =>
    refine Spec.andThen ?_ fun _ m hm _ => htail hm
    refine Spec.call hm fun a => ?_
    have h₁ := unlinkMonitor_other path hm (.createDirAll parent) a (by simp)
    cases a <;> exact .ret h₁ h₁
  next => exact htail hm

/-- **Before `remove_file`**: a daemon without a PID file unlinks its socket path only
right after a failed probe or the drop of its listener. -/
theorem runDaemon_unlink {config : DaemonConfig} (hpath : config.socketPath = path)
    (hpid : config.pidFile = none) :
    Spec (unlinkMonitor path) (none, True) (runDaemon config : SysTry S Unit).run
      (·.2) (fun _ m => m.2) := by
  subst hpath
  have hflag : AllCalls (fun op => ¬ op = Op.removeFile config.socketPath)
      (installShutdownFlag : SysTry S Unit).run := by
    refine allCalls_installShutdownFlag.mono fun op hop => ?_
    obtain ⟨n, rfl⟩ := hop
    exact (nomatch ·)
  have hstart : AllCalls (fun op => ¬ op = Op.removeFile config.socketPath)
      ((onStart.mapErr .startup) : SysTry S S).run :=
    Try.allCalls_mapErr ⟨(nomatch ·), fun _ => trivial⟩
  have hstop : ∀ state : S, AllCalls (fun op => ¬ op = Op.removeFile config.socketPath)
      (((onStop state).mapErr Error.shutdown) : SysTry S Unit).run := fun state =>
    Try.allCalls_mapErr ⟨(nomatch ·), fun _ => trivial⟩
  have hloop : ∀ (listener : Nat) (state : S),
      AllCalls (fun op => ¬ op = Op.removeFile config.socketPath)
        (runEventLoop config listener state) := fun listener state =>
    allCalls_runEventLoop.mono fun op hop h => by subst h; exact hop
  refine Spec.andThen (Spec.precede_of_allCalls hflag trivial) ?_
  intro _ m hm _
  rw [hpid]
  refine Spec.andThen (Spec.precede_of_allCalls hstart hm) ?_
  intro state m hm _
  refine Spec.attempt (bind_unlink hm) ?_
  intro r m hm _
  cases r with
  | error err =>
    refine Spec.attempt (Spec.precede_of_allCalls (hstop state) hm) ?_
    intro stopResult m hm _
    cases stopResult <;> exact .ret hm hm
  | ok listener =>
    refine Spec.lift (Spec.precede_of_allCalls (hloop listener state) hm) ?_
    intro out m hm _
    -- the listener is dropped, and then the path is unlinked
    refine Spec.call hm fun u => ?_
    have h₁ := unlinkMonitor_other config.socketPath hm (.closeListener listener) u (by simp)
    show Spec _ _ ((Socket.cleanup config.socketPath).attempt >>= _ : SysTry S Unit).run _ _
    refine Spec.attempt (R := fun _ m => m.2) ?_ ?_
    · refine Spec.call h₁ fun a => ?_
      have h₂ : (unlinkMonitor config.socketPath (unlinkMonitor config.socketPath m
          ⟨.closeListener listener, u⟩) ⟨.removeFile config.socketPath, a⟩).2 :=
        ⟨h₁, fun _ => ⟨_, rfl, trivial⟩⟩
      cases a with
      | ok v => exact .ret h₂ h₂
      | error err =>
        show Spec _ _ (Try.run (if _ then _ else _)) _ _
        rw [Try.run_ite]
        split <;> exact .ret h₂ h₂
    · intro cleanupResult m hm _
      refine Spec.attempt (Spec.precede_of_allCalls (hstop out.2) hm) ?_
      intro stopResult m hm _
      refine Spec.andThen (.ret hm hm) fun _ m hm _ => ?_
      refine Spec.andThen (.ret hm hm) fun _ m hm _ => ?_
      exact .ret hm hm

/-- All its calls are about this path. -/
theorem allCalls_runDaemon {config : DaemonConfig} (hpid : config.pidFile = none) :
    AllCalls (fun op => DaemonOp config.socketPath op ∨ ∃ n, op = Op.registerSignal n)
      (runDaemon config : SysTry S Unit).run := by
  refine Try.allCalls_bind (allCalls_installShutdownFlag.mono fun _ h => .inr h) fun _ => ?_
  rw [hpid]
  exact allCalls_runClaimed.mono fun _ h => .inl h

end Trace

/-! ## Any number of them -/

/-- The next call of daemon `i` is to unlink the path. -/
def AboutToUnlink (path : Path) (config : Nat → DaemonConfig) (c : HostConfig S) (i : Nat) : Prop :=
  ∃ k, Reach (runDaemon ((config i).at path)).run (c.hist i) (.call (.removeFile path) k)

/-- The step is not that a daemon binds the path while another one, which is running,
is about to unlink it. -/
def NobodyAboutToUnlink (path : Path) (config : Nat → DaemonConfig) (c : HostConfig S)
    (l : HostLabel S) : Prop :=
  ∀ i listener, l = .act i ⟨.bind path, .ok listener⟩ →
    ∀ j, j ≠ i → c.world.Running j → ¬ AboutToUnlink path config c j

/-- The step unlinks a socket on which another daemon, which is running, listens. -/
def ForeignSocketUnlink (path : Path) (c : HostConfig S) (l : HostLabel S) : Prop :=
  ∃ i j listener, l = .act i ⟨.removeFile path, .ok ()⟩ ∧
    c.world.nodes path = some (.socket listener) ∧ j ≠ i ∧ c.world.Running j ∧
    c.world.Listens j listener

/-- The invariant. -/
structure Reachable (path : Path) (config : Nat → DaemonConfig) (c : HostConfig S) : Prop where
  fresh : Os.Fresh c
  socket_lt : ∀ l, c.world.nodes path = some (.socket l) → l < c.world.nextListener
  /-- The path names every open listener. -/
  named : ∀ l, (c.world.listeners l).isOpen = true → c.world.nodes path = some (.socket l)
  /-- Whoever is about to unlink the path has seen to it that nobody listens there. -/
  unlink : ∀ i, c.world.Running i → AboutToUnlink path config c i →
    ∀ l, c.world.nodes path = some (.socket l) → (c.world.listeners l).isOpen = false

section Run

variable {path : Path} {config : Nat → DaemonConfig} {c c' : HostConfig S} {i : Nat}

/-- The last event of a daemon that is about to unlink the path. -/
theorem AboutToUnlink.last (h : AboutToUnlink path config c i) :
    ∃ e, (c.hist i).getLast? = some e ∧ LeadsToUnlink path e := by
  obtain ⟨k, hk⟩ := h
  exact Spec.preceded (runDaemon_unlink rfl rfl) hk rfl (.ok ())

namespace Reachable

theorem initial {w₀ : Os} (hw : w₀.Initial) :
    Reachable path config (Config.start w₀ : HostConfig S) where
  fresh := fun _ _ => rfl
  socket_lt := fun l hl => hw.socket_lt path l hl
  named := fun l hl => by
    rw [show (Config.start w₀ : HostConfig S).world = w₀ from rfl, hw.listeners l] at hl
    cases hl
  unlink := fun i hi => by
    cases (show (w₀.procs i).status = .running from hi).symm.trans (hw.procs i)

/-- A call that leaves the path alone and opens no listener. -/
theorem still {e : SysEvent S} (h : Reachable path config c)
    (hs : (daemonsAt path config).step c (.act i e) = some c')
    (hnodes : c'.world.nodes path = c.world.nodes path)
    (hopen : ∀ l, (c'.world.listeners l).isOpen = true → (c.world.listeners l).isOpen = true)
    (hnext : c'.world.nextListener = c.world.nextListener)
    (hself : LeadsToUnlink path e →
      ∀ l, c'.world.nodes path = some (.socket l) → (c'.world.listeners l).isOpen = false) :
    Reachable path config c' where
  fresh := h.fresh.act hs
  socket_lt := by
    intro l hl
    rw [hnext]
    exact h.socket_lt l (hnodes ▸ hl)
  named := by
    intro l hl
    rw [hnodes]
    exact h.named l (hopen l hl)
  unlink := by
    intro j hj hun l hl
    by_cases hji : j = i
    · subst hji
      obtain ⟨e', he', hlead⟩ := hun.last
      rw [hist_act_self hs, List.getLast?_concat] at he'
      obtain rfl := Option.some.inj he'
      exact hself hlead l hl
    · have hrun : c.world.Running j := by
        rwa [(Os.act_eq_some.mp (step_act.mp hs).1).2.2, Os.running_after] at hj
      have hun' : AboutToUnlink path config c j := by
        obtain ⟨k, hk⟩ := hun
        rw [hist_act_ne hs hji] at hk
        exact ⟨k, hk⟩
      have hclosed := h.unlink j hrun hun' l (hnodes ▸ hl)
      by_contra hne
      rw [Bool.not_eq_false] at hne
      rw [hopen l hne] at hclosed
      cases hclosed

/-- One call. -/
theorem act {e : SysEvent S} (h : Reachable path config c)
    (hs : (daemonsAt path config).step c (.act i e) = some c')
    (hb : (daemonsAt path config).behaviour i (c'.hist i))
    (hn : NobodyAboutToUnlink path config c (.act i e)) : Reachable path config c' := by
  obtain ⟨hi, hans, hw⟩ := Os.act_eq_some.mp (step_act.mp hs).1
  have htrace : Prog.Traces (runDaemon ((config i).at path)).run (c.hist i ++ [e]) := by
    rw [← hist_act_self hs]
    exact hb
  have hop : DaemonOp path e.1 ∨ ∃ n, e.1 = Op.registerSignal n :=
    (allCalls_runDaemon rfl).traces htrace e (by simp)
  -- a call that neither names anything nor opens a listener
  have hquiet : (∀ p, e.1 ≠ .removeFile p ∧ e.1 ≠ .createNew p ∧ e.1 ≠ .bind p) →
      (LeadsToUnlink path e →
        ∀ l, c'.world.nodes path = some (.socket l) → (c'.world.listeners l).isOpen = false) →
      Reachable path config c' := by
    intro hne hself
    have hbind : ∀ p, e.1 ≠ .bind p := fun p => (hne p).2.2
    refine h.still hs ?_ ?_ ?_ hself <;> rw [hw]
    · rw [Os.nodes_after _ _ _ hne]
    · exact Os.isOpen_after _ _ _ hbind
    · exact Os.nextListener_after _ _ _ hbind
  obtain ⟨op, a⟩ := e
  cases op with
  | connect p =>
    refine hquiet (fun p => by simp) fun hlead l hl => ?_
    cases a with
    | ok s => exact hlead.elim
    | error err =>
      -- the probe failed because nobody listens at the path
      obtain ⟨rfl, hk⟩ := hlead
      rw [hw] at hl ⊢
      have hl' : c.world.nodes p = some (.socket l) := hl
      rcases hans with hsp | hans
      · simp only [Os.isSpurious, Os.isSpuriousAnswer, Os.isSpuriousKind, Bool.or_eq_true,
          decide_eq_true_eq] at hsp
        rcases hsp with ((hsp | hsp) | hsp) | hsp <;> rw [hsp] at hk <;> cases hk
      · simp only [Os.answers, Os.connectAnswer, hl', Bool.and_eq_true, Bool.not_eq_true'] at hans
        exact hans.1
  | closeListener k =>
    refine hquiet (fun p => by simp) fun _ l hl => ?_
    rw [hw] at hl ⊢
    have hlistens : c.world.Listens i k := by
      simpa [Os.isSpurious, Os.answers] using hans
    have hk := h.named k hlistens.2
    have hl' : c.world.nodes path = some (.socket l) := hl
    rw [hk] at hl'
    injection hl' with hl'
    injection hl' with hl'
    subst hl'
    show (Function.update (c.world.shut (c.world.pendingAt k)).listeners k
      { owner := (c.world.listeners k).owner } k).isOpen = false
    rw [Function.update_self]
  | removeFile p =>
    have hp : p = path := by
      rcases hop with (hop | hop | hop | ⟨_, hop⟩) | ⟨_, hop⟩
      · exact hop.elim
      · exact hop
      all_goals cases hop
    subst hp
    cases a with
    | error err =>
      refine h.still hs ?_ ?_ ?_ (fun hf => hf.elim) <;> rw [hw]
      · rfl
      · exact fun _ hl => hl
      · rfl
    | ok u =>
      have hnone : c'.world.nodes p = none := by
        rw [hw]
        exact Os.nodes_setNode_self _ _ _
      have hclosed := h.unlink i hi htrace.before
      refine ⟨h.fresh.act hs, ?_, ?_, ?_⟩
      · intro l hl
        rw [hnone] at hl
        cases hl
      · intro l hl
        rw [hw] at hl
        have hl' : (c.world.listeners l).isOpen = true := hl
        rw [hclosed l (h.named l hl')] at hl'
        cases hl'
      · intro j _ _ l hl
        rw [hnone] at hl
        cases hl
  | bind p =>
    have hp : p = path := by
      rcases hop with (hop | hop | hop | ⟨_, hop⟩) | ⟨_, hop⟩
      · exact hop.elim
      · exact hop
      all_goals cases hop
    subst hp
    cases a with
    | error err =>
      refine h.still hs ?_ ?_ ?_ (fun hf => hf.elim) <;> rw [hw]
      · rfl
      · exact fun _ hl => hl
      · rfl
    | ok l =>
      have hans' : (c.world.nodes p).isNone && decide (l = c.world.nextListener) := by
        simpa [Os.isSpurious, Os.isSpuriousAnswer, Os.answers] using hans
      simp only [Bool.and_eq_true, decide_eq_true_eq, Option.isNone_iff_eq_none] at hans'
      obtain ⟨hnone, rfl⟩ := hans'
      have hnew : c'.world.nodes p = some (.socket c.world.nextListener) := by
        rw [hw]
        exact Os.nodes_setNode_self _ _ _
      refine ⟨h.fresh.act hs, ?_, ?_, ?_⟩
      · intro k hk
        rw [hnew] at hk
        cases hk
        rw [hw]
        exact Nat.lt_succ_self _
      · -- nobody else listened, as the path was free
        intro k hk
        rw [hw] at hk
        have hk' : (Function.update c.world.listeners c.world.nextListener
            { owner := some i, isOpen := true } k).isOpen = true := hk
        by_cases hkl : k = c.world.nextListener
        · rw [hkl]
          exact hnew
        · rw [Function.update_of_ne hkl] at hk'
          rw [h.named k hk'] at hnone
          cases hnone
      · intro j hj hun k _
        exfalso
        by_cases hji : j = i
        · subst hji
          obtain ⟨e', he', hlead⟩ := hun.last
          rw [hist_act_self hs, List.getLast?_concat] at he'
          obtain rfl := Option.some.inj he'
          exact hlead
        · refine hn i _ rfl j hji ?_ ?_
          · rwa [hw, Os.running_after] at hj
          · obtain ⟨k, hk⟩ := hun
            rw [hist_act_ne hs hji] at hk
            exact ⟨k, hk⟩
  | createNew p =>
    rcases hop with (hop | hop | hop | ⟨_, hop⟩) | ⟨_, hop⟩
    · exact hop.elim
    · exact hop.elim
    all_goals cases hop
  | _ => exact hquiet (fun p => by simp) fun hlead => hlead.elim

theorem outside {o : Os.Outside} (h : Reachable path config c)
    (hs : (daemonsAt path config).step c (.outside o) = some c') : Reachable path config c' := by
  obtain ⟨ho, hh⟩ := step_outside.mp hs
  obtain ⟨hnext, hopen⟩ := Os.outside_listeners ho
  have hnodes : c'.world.nodes path = c.world.nodes path := by rw [(Os.outside_files ho).1]
  refine ⟨h.fresh.outside hs, ?_, ?_, ?_⟩
  · intro l hl
    rw [hnext]
    exact h.socket_lt l (hnodes ▸ hl)
  · intro l hl
    rw [hnodes]
    exact h.named l (hopen l hl)
  · intro j hj hun l hl
    have hun' : AboutToUnlink path config c j := by
      obtain ⟨k, hk⟩ := hun
      exact ⟨k, hh ▸ hk⟩
    have hstarted : (c.world.procs j).status ≠ .absent := by
      intro habs
      obtain ⟨e, he, -⟩ := hun'.last
      rw [h.fresh j habs] at he
      cases he
    have hclosed := h.unlink j (Os.running_of_outside ho hj hstarted).1 hun' l (hnodes ▸ hl)
    by_contra hne
    rw [Bool.not_eq_false] at hne
    rw [hopen l hne] at hclosed
    cases hclosed

end Reachable

/-- **Who owns the socket path**: in a run in which nobody binds it while another
daemon is about to unlink it, whoever listens is reachable there, and none unlinks the
socket of another. -/
theorem listener_keeps_path (path : Path) (config : Nat → DaemonConfig) (w₀ : Os)
    (ls : List (HostLabel S)) (c : HostConfig S) (hw : w₀.Initial)
    (hr : Run (daemonsAt path config) (NobodyAboutToUnlink path config) (.start w₀) ls c) :
    (∀ i l, c.world.Listens i l → c.world.nodes path = some (.socket l)) ∧
      Run (daemonsAt path config) (fun c l => ¬ ForeignSocketUnlink path c l) (.start w₀) ls c := by
  have hstep : ∀ (c : HostConfig S) l c', Reachable path config c →
      (daemonsAt path config).step c l = some c' →
      (∀ i e, l = .act i e → (daemonsAt path config).behaviour i (c'.hist i)) →
      NobodyAboutToUnlink path config c l →
      Reachable path config c' ∧ ¬ ForeignSocketUnlink path c l := by
    intro c l c' h hs hb hn
    cases l with
    | outside o =>
      refine ⟨h.outside hs, fun hf => ?_⟩
      obtain ⟨i, j, listener, he, -⟩ := hf
      cases he
    | act k e =>
      refine ⟨h.act hs (hb k e rfl) hn, fun hf => ?_⟩
      obtain ⟨i, j, listener, he, hnode, hne, hrun, hlistens⟩ := hf
      injection he with hk he
      subst hk he
      have htrace : Prog.Traces (runDaemon ((config k).at path)).run
          (c.hist k ++ [⟨.removeFile path, .ok ()⟩]) := by
        rw [← hist_act_self hs]
        exact hb _ _ rfl
      have hi := (Os.act_eq_some.mp (step_act.mp hs).1).1
      have hclosed := h.unlink k hi htrace.before listener hnode
      rw [hlistens.2] at hclosed
      cases hclosed
  have hinv : Reachable path config c :=
    hr.inv (.initial hw) fun c l c' h hs hb hn => (hstep c l c' h hs hb hn).1
  exact ⟨fun i l hl => hinv.named l hl.2, hr.mono_inv (.initial hw) hstep⟩

end Run

/-! ## Two runs -/

/-- Where the socket is. -/
def sockPath : Path := ["tmp", "sockd.sock"]

/-- A host on which a socket is left that nobody listens on. -/
def staleSocketHost : Os where
  nodes p := if p = sockPath then some (.socket 0) else none
  inodes _ := {}
  nextFile := 0
  listeners _ := {}
  nextListener := 1
  ends _ := {}
  target _ := 0
  nextConn := 0
  procs _ := {}
  pids _ := none
  clock := 0

theorem staleSocketHost_initial : staleSocketHost.Initial where
  procs _ := rfl
  pids _ := rfl
  file_lt p f h := by
    simp only [staleSocketHost] at h
    split at h <;> cases h
  socket_lt p l h := by
    simp only [staleSocketHost] at h
    split at h
    next =>
      cases h
      exact Nat.zero_lt_one
    next => cases h
  creator _ := rfl
  listeners _ := rfl
  ends _ := rfl

/-- A daemon's start up to the probe of a stale socket. -/
def probesStale : History Unit :=
  [⟨.registerSignal SIGINT, .ok ()⟩, ⟨.registerSignal SIGTERM, .ok ()⟩, ⟨.onStart, .ok ()⟩,
    ⟨.createDirAll ["tmp"], .ok ()⟩, ⟨.pathExists sockPath, true⟩,
    ⟨.symlinkMetadata sockPath, .ok .socket⟩,
    ⟨.connect sockPath, .error ⟨.connectionRefused, "Connection refused"⟩⟩]

/-- The rest of `socket::bind`. -/
def bindsPath (listener : Nat) : History Unit :=
  [⟨.removeFile sockPath, .ok ()⟩, ⟨.bind sockPath, .ok listener⟩,
    ⟨.listenerNonblocking listener true, .ok ()⟩]

/-- Both probe the stale socket before either unlinks it. -/
def unlinkSchedule : List (HostLabel Unit) :=
  [.outside (.start 0 100), .outside (.start 1 101)] ++ probesStale.map (.act 0) ++
    probesStale.map (.act 1) ++ (bindsPath 1).map (.act 1) ++
    [.act 0 ⟨.removeFile sockPath, .ok ()⟩]

/-- A daemon that starts can unlink the socket of one that has just bound it. -/
theorem starter_unlinks_listener :
    ¬ ∀ (path : Path) (config : Nat → DaemonConfig) (w₀ : Os) (ls : List (HostLabel Unit))
      (c : HostConfig Unit), w₀.Initial → Run (daemonsAt path config) anyStep (.start w₀) ls c →
        (∀ i l, c.world.Listens i l → c.world.nodes path = some (.socket l)) ∧
          Run (daemonsAt path config) (fun c l => ¬ ForeignSocketUnlink path c l)
            (.start w₀) ls c := by
  intro hclaim
  have hplay : ((daemonsAt sockPath fun _ => {}).play (fun _ _ => true) (.start staleSocketHost)
      unlinkSchedule).map (fun c => decide (c.world.Listens 1 1 ∧ c.world.nodes sockPath = none)) =
        some true := by decide +kernel
  obtain ⟨c, hc, hlost⟩ := Option.map_eq_some_iff.mp hplay
  obtain ⟨hlistens, hgone⟩ := of_decide_eq_true hlost
  have hrun := run_of_play hc fun i => ?_
  · have hkeeps := (hclaim sockPath _ staleSocketHost unlinkSchedule c staleSocketHost_initial
      hrun.any).1 1 1 hlistens
    rw [hgone] at hkeeps
    cases hkeeps
  · match i with
    | 0 => exact traces_of_follow 60 (by rfl)
    | 1 => exact traces_of_follow 60 (by rfl)
    | i + 2 => exact Role.traces_nil _

/-- One daemon takes over the stale socket. -/
def takeOverSchedule : List (HostLabel Unit) :=
  [.outside (.start 0 100), .outside (.start 1 101)] ++ (probesStale ++ bindsPath 1).map (.act 0)

/-- In the run of the schedule the daemon is reachable at the path. -/
theorem listener_keeps_path_one :
    ∃ c : HostConfig Unit, c.world.Listens 0 1 ∧ c.world.nodes sockPath = some (.socket 1) ∧
      Run (daemonsAt sockPath fun _ => {}) (fun c l => ¬ ForeignSocketUnlink sockPath c l)
        (.start staleSocketHost) takeOverSchedule c := by
  have hplay : ((daemonsAt sockPath fun _ => {}).play
      (fun _ l => match l with | .act i _ => i == 0 | .outside _ => true)
      (.start staleSocketHost) takeOverSchedule).map (fun c => decide (c.world.Listens 0 1)) =
        some true := by decide +kernel
  obtain ⟨c, hc, hl⟩ := Option.map_eq_some_iff.mp hplay
  have hlistens := of_decide_eq_true hl
  have hrun := run_of_play hc fun i => ?_
  · -- only the first daemon does anything
    have hnobody : Run (daemonsAt sockPath fun _ => {}) (NobodyAboutToUnlink sockPath fun _ => {})
        (.start staleSocketHost) takeOverSchedule c := by
      refine hrun.mono_inv (I := fun c => ∀ j, j ≠ 0 → c.hist j = []) (fun _ _ => rfl) ?_
      intro c l c' hI hs _ hok
      cases l with
      | outside o =>
        refine ⟨?_, fun i listener he => nomatch he⟩
        rw [(step_outside.mp hs).2]
        exact hI
      | act i e =>
        obtain rfl : i = 0 := by simpa using hok
        refine ⟨fun j hj => ?_, ?_⟩
        · rw [hist_act_ne hs hj]
          exact hI j hj
        · intro i listener he j hji _ hun
          injection he with hi _
          subst hi
          obtain ⟨e', he', -⟩ := hun.last
          rw [hI j hji] at he'
          cases he'
    obtain ⟨hkeeps, hun⟩ := listener_keeps_path sockPath (fun _ => {}) staleSocketHost
      takeOverSchedule c staleSocketHost_initial hnobody
    exact ⟨c, hlistens, hkeeps 0 1 hlistens, hun⟩
  · match i with
    | 0 => exact traces_of_follow 60 (by rfl)
    | i + 1 => exact Role.traces_nil _

end Sockd
