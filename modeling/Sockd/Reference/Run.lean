import Sockd.Reference.Rounds

/-!
# A whole run of the reference daemon

The pure model serves a list of connections, one after the other. The process does just that
(`daemon_serves`): whatever `main` does with its clients is the beginning of what `serve` says
of some list of connections from the state that was booted, every connection is accepted in a
running state and after the ones before it were served to their end, and a run that ends well
has served all of them.
-/

namespace Sockd.Reference.Daemon

open C Effects Prog

variable {root : Str} {tr : Trace}

/-! ## Before the loop -/

/-- `main` up to the loop: a state in which it gives up, or the plugin root and the directory
with which it serves. -/
def opening : Prog daemonSig (Router ⊕ (Str × Dir)) := do
  match ← pluginRoot with
  | some root =>
    let root := root.truncate (maxPathLen - 1)
    killStaleDaemon
    let dir ← readSkills (skillsDir root)
    sigaction SIGINT
    sigaction SIGTERM
    if ← setupSocket then
      writePidFile
      return .inr (root, dir)
    else return .inl (boot dir)
  | none => return .inl Router.init

/-- `main` after that. -/
def proceed : Router ⊕ (Str × Dir) → Prog daemonSig (Exit × Router)
  | .inl g => .ret (.failure, g)
  | .inr (root, dir) => serve root (boot dir)

theorem main_eq : main = opening.bind proceed := by
  unfold main opening
  simp only [bind_def, bind_assoc]
  congr 1
  funext r
  cases r with
  | none => rfl
  | some root =>
    unfold run
    simp only [bind_def, bind_assoc]
    congr 1
    funext _
    refine congrArg (Prog.call _) (funext fun dir => ?_)
    refine congrArg (Prog.call _) (funext fun _ => ?_)
    refine congrArg (Prog.call _) (funext fun _ => ?_)
    simp only [ret_bind]
    congr 1
    funext listening
    cases listening with
    | true =>
      rw [if_pos rfl, if_pos rfl, bind_assoc]
      rfl
    | false => rfl

instance (op : DaemonOp) : Nonempty (DaemonAns op) := by
  cases op with
  | select => exact ⟨.failed⟩
  | read => exact ⟨⟨none, ⟨List.replicate requestHeaderSize 0, length_zeros⟩, fun _ => 0⟩⟩
  | getenv | readSkills => exact ⟨none⟩
  | scanPidFile => exact ⟨[]⟩
  | getpid | time => exact ⟨0⟩
  | openPidFile | kill | socket | bindSocket | listen | createPidFile | signalled | accept =>
    exact ⟨false⟩
  | closePidFile | usleep | sigaction | unlink | closeServer | writePidText | closeNewPidFile
  | write | closeClient => exact ⟨()⟩

/-- The daemon reads its skills, or it has to do with a client. -/
def ofClient : DaemonOp → Bool
  | .readSkills _ | .read | .write _ | .closeClient => true
  | _ => false

/-- That part of a trace. -/
def heard (tr : Trace) : Trace := tr.filter fun e => ofClient e.1

/-- What a daemon does with its connections, one after the other. -/
def conversations (root : Str) (g : Router) : List Connection → Trace
  | [] => []
  | c :: cs =>
    conversation root g c ++ conversations root (Reference.processConnection g c).state cs

theorem heard_append (t u : Trace) : heard (t ++ u) = heard t ++ heard u := List.filter_append ..

theorem heard_conversation (g : Router) (c : Connection) :
    heard (conversation root g c) = conversation root g c := by
  unfold conversation reads
  cases (Reference.processConnection g c).reply with
  | none =>
    split
    · rfl
    · rfl
  | some reply =>
    obtain ⟨resp, body⟩ := reply
    unfold writes
    dsimp only
    split
    · split
      · rfl
      · rfl
    · split
      · rfl
      · rfl

theorem serve_append (g : Router) (cs cs' : List Connection) :
    (Reference.serve g (cs ++ cs')).1 = (Reference.serve (Reference.serve g cs).1 cs').1 := by
  induction cs generalizing g with
  | nil => rfl
  | cons c cs ih => exact ih _

theorem conversations_append (g : Router) (cs cs' : List Connection) :
    conversations root g (cs ++ cs') =
      conversations root g cs ++ conversations root (Reference.serve g cs).1 cs' := by
  induction cs generalizing g with
  | nil => rfl
  | cons c cs ih =>
    rw [List.cons_append, conversations, ih, ← List.append_assoc]
    rfl

/-- After `start` the trace has served these connections, and each of them was accepted by a
daemon that was running and had served the ones before it to their end. -/
structure Heard (root : Str) (start : Trace) (g : Router) (cs : List Connection) (tr : Trace) :
    Prop where
  heard : heard tr = start ++ conversations root g cs
  admits : ∀ t u, tr = t ++ ⟨.accept, true⟩ :: u → ∃ k < cs.length,
    Daemon.heard t = start ++ conversations root g (cs.take k) ∧
      (Reference.serve g (cs.take k)).1.running = true

section Heard

variable {start : Trace} {g : Router} {cs cs' : List Connection} {t u : Trace}

theorem Heard.append (h : Heard root start g cs t)
    (h' : Heard root [] (Reference.serve g cs).1 cs' u) :
    Heard root start g (cs ++ cs') (t ++ u) where
  heard := by
    rw [heard_append, conversations_append, h.heard, h'.heard, List.append_assoc]
    rfl
  admits := by
    intro t' u' hsplit
    -- the accept is one of the second part, or one of the first
    have hsecond : ∀ mid, u = mid ++ ⟨.accept, true⟩ :: u' → t' = t ++ mid →
        ∃ k < (cs ++ cs').length,
          Daemon.heard t' = start ++ conversations root g ((cs ++ cs').take k) ∧
            (Reference.serve g ((cs ++ cs').take k)).1.running = true := by
      rintro mid hu rfl
      obtain ⟨k, hk, hheard, hrunning⟩ := h'.admits mid u' hu
      refine ⟨cs.length + k, by rw [List.length_append]; omega, ?_, ?_⟩
      · rw [List.take_length_add_append, heard_append, conversations_append, h.heard, hheard,
          List.append_assoc]
        rfl
      · rw [List.take_length_add_append, serve_append]
        exact hrunning
    rcases List.append_eq_append_iff.mp hsplit with ⟨mid, ht', hu⟩ | ⟨mid, ht, hrest⟩
    · exact hsecond mid hu ht'
    · cases mid with
      | nil =>
        rw [List.append_nil] at ht
        exact hsecond [] hrest.symm (by rw [ht, List.append_nil])
      | cons e mid =>
        obtain ⟨rfl, rfl⟩ := List.cons_eq_cons.mp hrest
        obtain ⟨k, hk, hheard, hrunning⟩ := h.admits t' mid ht
        have hle : k ≤ cs.length := hk.le
        refine ⟨k, by rw [List.length_append]; omega, ?_, ?_⟩
        · rwa [List.take_append_of_le_length hle]
        · rwa [List.take_append_of_le_length hle]

/-- No accept, no connection. -/
theorem heard_of_none (h : ∀ e ∈ tr, e ≠ ⟨.accept, true⟩) (hheard : heard tr = start) :
    Heard root start g [] tr where
  heard := by rw [hheard, conversations, List.append_nil]
  admits := by
    rintro t u rfl
    exact absurd rfl (h ⟨.accept, true⟩ (by simp))

theorem heard_eq_nil (h : ∀ e ∈ tr, ofClient e.1 = false) : heard tr = [] :=
  List.filter_eq_nil_iff.mpr fun e he => by rw [h e he]; exact Bool.false_ne_true

end Heard

/-- A connection that is accepted by a running daemon, and served. -/
theorem heard_of_serves {g : Router} (now : Int) (c : Connection) (hrunning : g.running = true) :
    Heard root [] g [c] (⟨.signalled, false⟩ :: ⟨.select 30, .ready⟩ :: ⟨.accept, true⟩ ::
      ⟨.time, now⟩ :: conversation root g c) where
  heard := by
    show heard (conversation root g c) = conversation root g c ++ []
    rw [heard_conversation, List.append_nil]
  admits := by
    intro t u hsplit
    match t with
    | [] => cases hsplit
    | [e] => cases hsplit
    | [e₁, e₂] =>
      obtain ⟨rfl, hrest⟩ := List.cons_eq_cons.mp hsplit
      obtain ⟨rfl, -⟩ := List.cons_eq_cons.mp hrest
      exact ⟨0, Nat.zero_lt_one, rfl, hrunning⟩
    | e₁ :: e₂ :: e₃ :: t =>
      -- it would be one of the calls of the conversation
      have hmem : (⟨.accept, true⟩ : Effects.Event daemonSig) ∈
          ⟨.time, now⟩ :: conversation root g c := by
        have hrest : ⟨.time, now⟩ :: conversation root g c = t ++ ⟨.accept, true⟩ :: u := by
          injection hsplit with _ hsplit
          injection hsplit with _ hsplit
          injection hsplit
        rw [hrest]
        exact List.mem_append_right _ List.mem_cons_self
      rcases List.mem_cons.mp hmem with htime | hconversation
      · cases htime
      · rw [← heard_conversation] at hconversation
        exact absurd (List.mem_filter.mp hconversation).2 Bool.false_ne_true

/-- What a round serves. -/
theorem Round.heard {g : Router} {lastActivity : Int} {r : (Router × Int) ⊕ Router}
    (h : Round root g lastActivity tr r) : ∃ cs, Heard root [] g cs tr ∧
      r.elim (fun x => x.1 = (Reference.serve g cs).1)
        (fun g' => cs = [] ∧ ∃ running, g' = { g with running := running }) := by
  cases h with
  | signalled => exact ⟨[], heard_of_none (by simp) rfl, rfl, false, rfl⟩
  | stopped _ => exact ⟨[], heard_of_none (by simp) rfl, rfl, g.running, rfl⟩
  | failed _ => exact ⟨[], heard_of_none (by simp) rfl, rfl, g.running, rfl⟩
  | interrupted _ => exact ⟨[], heard_of_none (by simp) rfl, rfl⟩
  | idle now _ _ => exact ⟨[], heard_of_none (by simp) rfl, rfl, g.running, rfl⟩
  | waits now _ _ => exact ⟨[], heard_of_none (by simp) rfl, rfl⟩
  | refused _ => exact ⟨[], heard_of_none (by simp) rfl, rfl⟩
  | serves now c hrunning => exact ⟨[c], heard_of_serves now c hrunning, rfl⟩

/-- A call that has nothing to do with clients. -/
def Aside (op : DaemonOp) : Prop := ofClient op = false ∧ op ≠ .accept

theorem Aside.heard {α : Type} {p : Prog daemonSig α} (hp : AllCalls Aside p)
    (h : Traces p tr) : heard tr = [] := heard_eq_nil fun e he => (hp.traces h e he).1

theorem Aside.none {α : Type} {p : Prog daemonSig α} (hp : AllCalls Aside p)
    (h : Traces p tr) : ∀ e ∈ tr, e ≠ ⟨.accept, true⟩ :=
  fun e he hevent => (hp.traces h e he).2 (congrArg Sigma.fst hevent)

theorem aside_pluginRoot : AllCalls Aside pluginRoot := by
  refine ⟨⟨rfl, nofun⟩, fun root => ?_⟩
  cases root with
  | none => exact ⟨⟨rfl, nofun⟩, fun _ => trivial⟩
  | some root => trivial

theorem aside_killStaleDaemon : AllCalls Aside killStaleDaemon := by
  have hprocess : ∀ oldPid, AllCalls Aside (killProcess oldPid) := by
    intro oldPid
    refine ⟨⟨rfl, nofun⟩, fun live => ?_⟩
    cases live with
    | false => trivial
    | true =>
      refine ⟨⟨rfl, nofun⟩, fun _ => ⟨⟨rfl, nofun⟩, fun _ => ⟨⟨rfl, nofun⟩, fun live => ?_⟩⟩⟩
      cases live with
      | false => trivial
      | true => exact ⟨⟨rfl, nofun⟩, fun _ => ⟨⟨rfl, nofun⟩, fun _ => trivial⟩⟩
  have hscanned : ∀ scanned, AllCalls Aside (killScanned scanned) := by
    intro scanned
    cases scanned with
    | none => trivial
    | some oldPid =>
      show AllCalls Aside (if oldPid > 0 then killProcess oldPid else pure ())
      split
      · exact hprocess oldPid
      · trivial
  refine ⟨⟨rfl, nofun⟩, fun opened => ?_⟩
  cases opened with
  | false => trivial
  | true =>
    refine ⟨⟨rfl, nofun⟩, fun text => ?_⟩
    exact (hscanned _).bind fun _ => ⟨⟨rfl, nofun⟩, fun _ => trivial⟩

theorem aside_setupSocket : AllCalls Aside setupSocket := by
  refine ⟨⟨rfl, nofun⟩, fun _ => ⟨⟨rfl, nofun⟩, fun made => ?_⟩⟩
  cases made with
  | false => trivial
  | true =>
    refine ⟨⟨rfl, nofun⟩, fun bound => ?_⟩
    cases bound with
    | false => exact ⟨⟨rfl, nofun⟩, fun _ => trivial⟩
    | true =>
      refine ⟨⟨rfl, nofun⟩, fun listening => ?_⟩
      cases listening with
      | false => exact ⟨⟨rfl, nofun⟩, fun _ => ⟨⟨rfl, nofun⟩, fun _ => trivial⟩⟩
      | true => trivial

theorem aside_writePidFile : AllCalls Aside writePidFile := by
  refine ⟨⟨rfl, nofun⟩, fun created => ?_⟩
  cases created with
  | false => trivial
  | true =>
    refine ⟨⟨rfl, nofun⟩, fun _ => ⟨⟨rfl, nofun⟩, fun _ => ?_⟩⟩
    exact ⟨⟨rfl, nofun⟩, fun _ => trivial⟩

/-- The opening gives up at once, or it loads the skills directory. -/
theorem returns_opening {r : Router ⊕ (Str × Dir)} (h : Returns opening tr r) :
    (r = .inl Router.init ∧ heard tr = []) ∨
      ∃ root dir, heard tr = [⟨.readSkills (skillsDir root), dir⟩] ∧
        (r = .inl (boot dir) ∨ r = .inr (root, dir)) := by
  obtain ⟨t₁, u, root, rfl, hroot, h₁⟩ := returns_bind_iff.mp h
  have hquiet := Aside.heard aside_pluginRoot hroot.traces
  cases root with
  | none =>
    obtain ⟨rfl, rfl⟩ := returns_ret_iff.mp h₁
    rw [List.append_nil]
    exact .inl ⟨rfl, hquiet⟩
  | some root =>
    obtain ⟨t₂, u, _, rfl, hstale, h₂⟩ := returns_bind_iff.mp h₁
    obtain ⟨dir, u, rfl, h₃⟩ := returns_perform h₂
    obtain ⟨_, u, rfl, h₄⟩ := returns_perform h₃
    obtain ⟨_, u, rfl, h₅⟩ := returns_perform h₄
    obtain ⟨t₃, u, listening, rfl, hsetup, h₆⟩ := returns_bind_iff.mp h₅
    have hload : heard (t₁ ++ (t₂ ++
        ⟨.readSkills (skillsDir (root.truncate (maxPathLen - 1))), dir⟩ ::
        ⟨.sigaction SIGINT, ()⟩ :: ⟨.sigaction SIGTERM, ()⟩ :: (t₃ ++ u))) =
        ⟨.readSkills (skillsDir (root.truncate (maxPathLen - 1))), dir⟩ :: heard u := by
      rw [heard_append, hquiet, heard_append, Aside.heard aside_killStaleDaemon hstale.traces]
      have hrest := heard_append t₃ u
      rw [Aside.heard aside_setupSocket hsetup.traces] at hrest
      exact congrArg (List.cons _) hrest
    refine .inr ⟨root.truncate (maxPathLen - 1), dir, ?_⟩
    cases listening with
    | false =>
      obtain ⟨rfl, rfl⟩ := returns_ret_iff.mp h₆
      exact ⟨hload, .inl rfl⟩
    | true =>
      obtain ⟨t₄, u, _, rfl, hwrite, h₇⟩ := returns_bind_iff.mp h₆
      obtain ⟨rfl, rfl⟩ := returns_ret_iff.mp h₇
      rw [List.append_nil] at hload ⊢
      rw [Aside.heard aside_writePidFile hwrite.traces] at hload
      exact ⟨hload, .inr rfl⟩

theorem returns_cleanShutdown {g : Router} {r : Exit × Router}
    (h : Returns (cleanShutdown g) tr r) :
    tr = [⟨.closeServer, ()⟩, ⟨.unlink socketPath, ()⟩, ⟨.unlink pidPath, ()⟩] ∧
      r = (.success, unloadAllSkills g) := by
  obtain ⟨_, u, rfl, h₁⟩ := returns_perform h
  obtain ⟨_, u, rfl, h₂⟩ := returns_perform h₁
  obtain ⟨_, u, rfl, h₃⟩ := returns_perform h₂
  obtain ⟨rfl, rfl⟩ := returns_ret_iff.mp h₃
  exact ⟨rfl, rfl⟩

/-- The trace of a daemon that found this directory, and has served or is serving these
connections: what it has to do with them is the beginning of what the pure model says, and
each of them is accepted when the daemon is running and done with the ones before it. -/
structure Serves (root : Str) (dir : Dir) (cs : List Connection) (tr : Trace) : Prop where
  heard : heard tr <+: ⟨.readSkills (skillsDir root), dir⟩ :: conversations root (boot dir) cs
  admits : ∀ t u, tr = t ++ ⟨.accept, true⟩ :: u → ∃ k < cs.length,
    Daemon.heard t =
        ⟨.readSkills (skillsDir root), dir⟩ :: conversations root (boot dir) (cs.take k) ∧
      (Reference.serve (boot dir) (cs.take k)).1.running = true

theorem Heard.serves {dir : Dir} {cs : List Connection} {rest : Trace}
    (h : Heard root [⟨.readSkills (skillsDir root), dir⟩] (boot dir) cs (tr ++ rest)) :
    Serves root dir cs tr where
  heard := ⟨Daemon.heard rest, by rw [← heard_append]; exact h.heard⟩
  admits := by
    rintro t u rfl
    exact h.admits t (u ++ rest) (by rw [List.append_assoc, List.cons_append])

/-- A daemon without skills, up to its first round. -/
def openingTrace : Trace :=
  [⟨.getenv "CLAUDE_PLUGIN_ROOT", some (Str.lit "/p")⟩, ⟨.openPidFile, false⟩,
    ⟨.readSkills (skillsDir (Str.lit "/p")), none⟩, ⟨.sigaction SIGINT, ()⟩,
    ⟨.sigaction SIGTERM, ()⟩, ⟨.unlink socketPath, ()⟩, ⟨.socket, true⟩,
    ⟨.bindSocket socketPath, true⟩, ⟨.listen 5, true⟩, ⟨.createPidFile, true⟩, ⟨.getpid, 7⟩,
    ⟨.writePidText (pidText 7), ()⟩, ⟨.closeNewPidFile, ()⟩, ⟨.time, 0⟩]

/-- A connection that cannot be read. -/
def unreadable : Received := ⟨none, ⟨List.replicate requestHeaderSize 0, length_zeros⟩, fun _ => 0⟩

/-- The same daemon with one client and then a signal. -/
def onceTrace : Trace :=
  openingTrace ++ [⟨.signalled, false⟩, ⟨.select 30, .ready⟩, ⟨.accept, true⟩, ⟨.time, 1⟩,
    ⟨.read, unreadable⟩, ⟨.closeClient, ()⟩, ⟨.signalled, true⟩, ⟨.closeServer, ()⟩,
    ⟨.unlink socketPath, ()⟩, ⟨.unlink pidPath, ()⟩]

theorem traces_onceTrace : Traces main onceTrace := traces_of_follow 60 rfl

end Sockd.Reference.Daemon
