import Sockd.Effects.Spec
import Sockd.Reference.Daemon

/-!
# The stages of a reference daemon

What a daemon does to `/tmp` and to other processes it does in a fixed order. `Stage` is how
far it has come, `Stage.next` the stage after a call, where the call is one that a daemon makes
at that stage; `stage_next` says that `main` makes no others. Other processes can then be
argued about by their stage alone.
-/

namespace Sockd.Reference.Daemon

open C Effects Prog

/-- How far a daemon has come. -/
inductive Stage
  /-- It has not looked at the PID file. -/
  | fresh
  /-- It has the old PID file open. -/
  | opened
  /-- It has read this pid there. -/
  | found (pid : Int)
  /-- It has seen that there is such a process, -/
  | live (pid : Int)
  /-- asked it to stop, -/
  | termed (pid : Int)
  /-- and seen that it did not. -/
  | stubborn (pid : Int)
  /-- `kill_stale_daemon` is done with the other process. -/
  | cleared
  /-- It has bound the socket, -/
  | bound
  /-- created its PID file, -/
  | created
  /-- and asked for its own pid. -/
  | named (pid : Nat)
  | serving
  /-- It has taken its socket away. -/
  | unbound
  /-- Nothing of it is in `/tmp` any more. -/
  | done
  deriving DecidableEq

namespace Stage

/-- After `fscanf`. -/
def scanned : Option Int → Stage
  | some pid => if pid > 0 then .found pid else .cleared
  | none => .cleared

/-- After `kill`. -/
def killed (s : Stage) (pid : Int) (signal : Nat) (sent : Bool) : Option Stage :=
  match s with
  | .found p => if pid = p ∧ signal = 0 then some (if sent then .live p else .cleared) else none
  | .live p => if pid = p ∧ signal = SIGTERM then some (.termed p) else none
  | .termed p =>
    if pid = p ∧ signal = 0 then some (if sent then .stubborn p else .cleared) else none
  | .stubborn p => if pid = p ∧ signal = SIGKILL then some .cleared else none
  | _ => none

/-- After `unlink`. -/
def unlinked (s : Stage) (path : String) : Option Stage :=
  match s with
  | .cleared => if path = socketPath then some .cleared else none
  | .bound => if path = socketPath then some .done else none
  | .serving => if path = socketPath then some .unbound else none
  | .unbound => if path = pidPath then some .done else none
  | _ => none

/-- After `getpid`. -/
def pidKnown (s : Stage) (pid : Nat) : Option Stage :=
  match s with
  | .created => some (.named pid)
  | _ => none

/-- After the PID file was written. -/
def written (s : Stage) (text : Bytes) : Option Stage :=
  match s with
  | .named pid => if text = pidText pid then some .serving else none
  | _ => none

/-- The stage after a call, if it is one of the stage. -/
def next (s : Stage) : Effects.Event daemonSig → Option Stage
  | ⟨.openPidFile, ok⟩ => match s with
    | .fresh => some (if ok then .opened else .cleared)
    | _ => none
  | ⟨.scanPidFile, text⟩ => match s with
    | .opened => some (scanned (scanInt text))
    | _ => none
  | ⟨.kill pid signal, sent⟩ => s.killed pid signal sent
  | ⟨.unlink path, _⟩ => s.unlinked path
  | ⟨.bindSocket _, ok⟩ => match s with
    | .cleared => some (if ok then .bound else .cleared)
    | _ => none
  | ⟨.createPidFile, ok⟩ => match s with
    | .bound => some (if ok then .created else .serving)
    | _ => none
  | ⟨.getpid, pid⟩ => s.pidKnown pid
  | ⟨.writePidText text, _⟩ => s.written text
  | ⟨.signalled, _⟩ | ⟨.select _, _⟩ | ⟨.accept, _⟩ | ⟨.read, _⟩ | ⟨.write _, _⟩
  | ⟨.closeClient, _⟩ => if s = .serving then some .serving else none
  | _ => some s

/-! ### Kinds of stages -/

/-- It has looked at the PID file, and its own is not written yet. -/
def starting : Stage → Bool
  | .fresh | .serving | .unbound | .done => false
  | _ => true

/-- The PID file is its own. -/
def claiming : Stage → Bool
  | .serving | .unbound => true
  | _ => false

/-- The pid that it is about to stop. -/
def suspect : Stage → Option Int
  | .found pid | .live pid | .termed pid | .stubborn pid => some pid
  | _ => none

/-- It is done with the other process. -/
def succeeding : Stage → Bool
  | .cleared | .bound | .created | .named _ => true
  | _ => false

/-- The socket file is its own. -/
def owning : Stage → Bool
  | .bound | .created | .named _ | .serving => true
  | _ => false

/-- It is about to write its PID file. -/
def filing : Stage → Bool
  | .created | .named _ => true
  | _ => false

theorem starting_of_succeeding {s : Stage} (h : s.succeeding = true) : s.starting = true := by
  cases s <;> first | rfl | cases h

theorem owning_of_filing {s : Stage} (h : s.filing = true) : s.owning = true := by
  cases s <;> first | rfl | cases h

theorem owning_of_idle {s : Stage} (hsucceeding : s.succeeding = false)
    (hclaiming : s.claiming = false) : s.owning = false := by
  cases s <;> simp_all [succeeding, claiming, owning]

theorem succeeding_of_idle {s : Stage} (hstarting : s.starting = false) :
    s.succeeding = false := by
  cases s <;> simp_all [starting, succeeding]

end Stage

/-- The stage after these calls, if each was one of its stage. -/
def passed (s : Option Stage) (e : Effects.Event daemonSig) : Option Stage :=
  s.bind fun s => s.next e

/-- The stage of a daemon with this history. -/
def stage (h : Trace) : Stage := (h.foldl passed (some .fresh)).getD .done

/-! ## `main` -/

theorem passes_perform {α : Type} {op : DaemonOp} {f : DaemonAns op → Prog daemonSig α}
    {s : Stage} {Q : α → Option Stage → Prop}
    (hf : ∀ b, Spec passed (s.next ⟨op, b⟩) (f b) (· ≠ none) Q) :
    Spec passed (some s) (perform op >>= f) (· ≠ none) Q := Spec.call nofun hf

theorem passes_last {op : DaemonOp} {s : Stage} {Q : DaemonAns op → Option Stage → Prop}
    (hlast : ∀ b, s.next ⟨op, b⟩ ≠ none ∧ Q b (s.next ⟨op, b⟩)) :
    Spec passed (some s) (perform op) (· ≠ none) Q := Spec.ask nofun hlast

/-- A call that leaves a daemon at its stage. -/
def Quiet (s : Stage) (op : DaemonOp) : Prop := ∀ b : DaemonAns op, s.next ⟨op, b⟩ = some s

theorem passes_quiet {α : Type} {p : Prog daemonSig α} {s : Stage} (hp : AllCalls (Quiet s) p) :
    Spec passed (some s) p (· ≠ none) fun _ s' => s' = some s := by
  have hstill : Spec passed (some s) p (· = some s) (fun _ s' => s' = some s) := by
    refine Spec.keep hp ?_ rfl
    rintro s' op b hop rfl
    exact hop b
  exact hstill.mono (fun s' hs' => by rw [hs']; nofun) fun _ _ h => h

theorem quiet_perform {α : Type} {op : DaemonOp} {f : DaemonAns op → Prog daemonSig α} {s : Stage}
    (hop : ∀ b, s.next ⟨op, b⟩ = some s) (hf : ∀ b, AllCalls (Quiet s) (f b)) :
    AllCalls (Quiet s) (perform op >>= f) := ⟨hop, hf⟩

theorem quiet_last {op : DaemonOp} {s : Stage} (hop : ∀ b, s.next ⟨op, b⟩ = some s) :
    AllCalls (Quiet s) (perform op) := ⟨hop, fun _ => trivial⟩

theorem quiet_pluginRoot : AllCalls (Quiet .fresh) pluginRoot := by
  refine quiet_perform (fun _ => rfl) fun root => ?_
  cases root with
  | none => exact quiet_last fun _ => rfl
  | some root => trivial

/-- Nothing happens to the files and processes while a connection is served. -/
theorem quiet_processConnection (root : Str) (g : Router) :
    AllCalls (Quiet .serving) (processConnection root g) := by
  have hcontent : ∀ body, AllCalls (Quiet .serving) (writeContent body) := by
    intro body
    unfold writeContent
    split
    · trivial
    · exact quiet_last fun _ => rfl
  have hrespond : ∀ resp body, AllCalls (Quiet .serving) (respond resp body) := by
    intro resp body
    refine quiet_perform (fun _ => rfl) fun _ => (hcontent body).bind fun _ => ?_
    exact quiet_last fun _ => rfl
  refine quiet_perform (fun _ => rfl) fun received => ?_
  show @AllCalls daemonSig (Quiet .serving) _ _
  split
  next => exact quiet_perform (fun _ => rfl) fun _ => trivial
  next req _ =>
    split
    next => exact (hrespond _ _).bind fun _ => trivial
    next => exact (hrespond _ _).bind fun _ => trivial
    next => exact quiet_perform (fun _ => rfl) fun dir => (hrespond _ _).bind fun _ => trivial
    next =>
      dsimp only
      split
      next => exact (hrespond _ _).bind fun _ => trivial
      next hnone => cases hnone

theorem quiet_eventRound (root : Str) (x : Router × Int) :
    AllCalls (Quiet .serving) (eventRound root x) := by
  obtain ⟨g, lastActivity⟩ := x
  refine quiet_perform (fun _ => rfl) fun signalled => ?_
  dsimp only
  generalize (if signalled = true then { g with running := false } else g) = g
  show @AllCalls daemonSig (Quiet .serving) _ _
  split
  next =>
    refine quiet_perform (fun _ => rfl) fun selected => ?_
    show @AllCalls daemonSig (Quiet .serving) _ _
    cases selected with
    | failed | interrupted => trivial
    | timedOut =>
      refine quiet_perform (fun _ => rfl) fun now => ?_
      show @AllCalls daemonSig (Quiet .serving) _ _
      split <;> trivial
    | ready =>
      refine quiet_perform (fun _ => rfl) fun accepted => ?_
      cases accepted with
      | false => trivial
      | true =>
        refine quiet_perform (fun _ => rfl) fun now => ?_
        exact (quiet_processConnection root g).bind fun _ => trivial
  next => trivial

theorem passes_killProcess (oldPid : Int) : Spec passed (some (.found oldPid)) (killProcess oldPid)
    (· ≠ none) fun _ s => s = some .cleared := by
  refine passes_perform fun sent => ?_
  cases sent with
  | false => exact .ret (by simp [Stage.next, Stage.killed]) (by simp [Stage.next, Stage.killed])
  | true =>
    have hlive : (Stage.found oldPid).next ⟨.kill oldPid 0, true⟩ = some (.live oldPid) := by
      simp [Stage.next, Stage.killed]
    rw [hlive]
    refine passes_perform fun _ => ?_
    have htermed : ∀ b : Bool,
        (Stage.live oldPid).next ⟨.kill oldPid SIGTERM, b⟩ = some (.termed oldPid) := by
      simp [Stage.next, Stage.killed]
    rw [htermed]
    refine passes_perform fun _ => passes_perform fun sent => ?_
    cases sent with
    | false => exact .ret (by simp [Stage.next, Stage.killed]) (by simp [Stage.next, Stage.killed])
    | true =>
      have hstubborn :
          (Stage.termed oldPid).next ⟨.kill oldPid 0, true⟩ = some (.stubborn oldPid) := by
        simp [Stage.next, Stage.killed]
      show Spec passed ((Stage.termed oldPid).next ⟨.kill oldPid 0, true⟩) _ _ _
      rw [hstubborn]
      refine passes_perform fun b => ?_
      have hcleared : (Stage.stubborn oldPid).next ⟨.kill oldPid SIGKILL, b⟩ = some .cleared := by
        simp [Stage.next, Stage.killed]
      rw [hcleared]
      exact passes_last fun _ => ⟨nofun, rfl⟩

theorem passes_killStaleDaemon : Spec passed (some .fresh) killStaleDaemon (· ≠ none)
    fun _ s => s = some .cleared := by
  refine passes_perform fun ok => ?_
  cases ok with
  | false => exact .ret nofun rfl
  | true =>
    refine passes_perform fun text => ?_
    have hscanned : Spec passed (some (Stage.scanned (scanInt text))) (killScanned (scanInt text))
        (· ≠ none) fun _ s => s = some .cleared := by
      cases scanInt text with
      | none => exact .ret nofun rfl
      | some oldPid =>
        show Spec passed (some (if oldPid > 0 then Stage.found oldPid else .cleared))
          (if oldPid > 0 then killProcess oldPid else pure ()) _ _
        split
        · exact passes_killProcess oldPid
        · exact .ret nofun rfl
    refine hscanned.bind ?_
    rintro _ _ - rfl
    exact passes_last fun _ => ⟨nofun, rfl⟩

theorem passes_setupSocket : Spec passed (some .cleared) setupSocket (· ≠ none) fun listening s =>
    listening = true → s = some .bound := by
  refine passes_perform fun u => ?_
  have hcleared : Stage.cleared.next ⟨.unlink socketPath, u⟩ = some .cleared := by
    simp [Stage.next, Stage.unlinked]
  rw [hcleared]
  refine passes_perform fun made => ?_
  cases made with
  | false => exact .ret nofun nofun
  | true =>
    refine passes_perform fun ok => ?_
    cases ok with
    | false => exact passes_perform fun _ => .ret nofun nofun
    | true =>
      refine passes_perform fun listening => ?_
      cases listening with
      | true => exact .ret nofun fun _ => rfl
      | false =>
        refine passes_perform fun _ => passes_perform fun u => ?_
        have hdone : Stage.bound.next ⟨.unlink socketPath, u⟩ = some .done := by
          simp [Stage.next, Stage.unlinked]
        rw [if_pos rfl, hdone]
        exact .ret nofun nofun

theorem passes_writePidFile : Spec passed (some .bound) writePidFile (· ≠ none) fun _ s =>
    s = some .serving := by
  refine passes_perform fun ok => ?_
  cases ok with
  | false => exact .ret nofun rfl
  | true =>
    refine passes_perform fun pid => passes_perform fun u => ?_
    have hserving :
        (Stage.named pid).next ⟨.writePidText (pidText pid), u⟩ = some .serving := by
      simp [Stage.next, Stage.written]
    rw [hserving]
    exact passes_last fun _ => ⟨nofun, rfl⟩

theorem passes_cleanShutdown (g : Router) : Spec passed (some .serving) (cleanShutdown g)
    (· ≠ none) fun _ _ => True := by
  refine passes_perform fun _ => passes_perform fun u => ?_
  have hunbound : Stage.serving.next ⟨.unlink socketPath, u⟩ = some .unbound := by
    simp [Stage.next, Stage.unlinked]
  rw [hunbound]
  refine passes_perform fun u => ?_
  have hdone : Stage.unbound.next ⟨.unlink pidPath, u⟩ = some .done := by
    simp [Stage.next, Stage.unlinked]
  rw [hdone]
  exact .ret nofun trivial

theorem passes_main : Spec passed (some .fresh) main (· ≠ none) fun _ _ => True := by
  refine (passes_quiet quiet_pluginRoot).bind ?_
  rintro root _ - rfl
  cases root with
  | none => exact .ret nofun trivial
  | some root =>
    refine passes_killStaleDaemon.bind ?_
    rintro _ _ - rfl
    refine passes_perform fun dir => passes_perform fun _ => passes_perform fun _ => ?_
    refine passes_setupSocket.bind ?_
    intro listening s hs hlistening
    cases listening with
    | false => exact .ret hs trivial
    | true =>
      obtain rfl := hlistening rfl
      refine passes_writePidFile.bind ?_
      rintro _ _ - rfl
      refine passes_perform fun last => ?_
      refine .loop (fun _ s => s = some .serving) (fun _ s => s = some .serving) rfl ?_ ?_
      · rintro x _ rfl
        refine (passes_quiet (quiet_eventRound _ x)).mono (fun _ h => h) fun r s h => ?_
        cases r with
        | inl y => exact h
        | inr g => exact h
      · rintro g _ - rfl
        exact passes_cleanShutdown g

/-- Every call of a daemon is one of the stage it is at. -/
theorem stage_next {h : Trace} {e : Effects.Event daemonSig} (hmain : Traces main (h ++ [e])) :
    (stage h).next e = some (stage (h ++ [e])) := by
  obtain ⟨q, hq⟩ := hmain
  have hpassed := passes_main.always hq
  rw [List.foldl_append] at hpassed
  unfold stage
  rw [List.foldl_append]
  cases hs : h.foldl passed (some .fresh) with
  | none =>
    rw [hs] at hpassed
    exact absurd rfl hpassed
  | some s =>
    rw [hs] at hpassed
    obtain ⟨s', hs'⟩ := Option.ne_none_iff_exists'.mp hpassed
    show s.next e = some ((s.next e).getD .done)
    have hnext : s.next e = some s' := hs'
    rw [hnext]
    rfl

/-- A daemon that takes a client is serving. -/
theorem serving_of_accept {h : Trace} {ok : Bool} (hmain : Traces main (h ++ [⟨.accept, ok⟩])) :
    stage h = .serving := by
  have hnext : (if stage h = .serving then some Stage.serving else none) =
      some (stage (h ++ [⟨.accept, ok⟩])) := stage_next hmain
  by_contra hne
  rw [if_neg hne] at hnext
  cases hnext

end Sockd.Reference.Daemon
