import Sockd.Effects.Spec
import Sockd.Reference.Run

/-!
# What the reference daemon holds

`Held` is what a daemon has open and what it has put into `/tmp`: the stream of the old PID
file, the listener and its file, its own PID file and the stream of it, and a client.
`Held.use` says of each call what it needs and what it changes; a close of what is not open,
or a read from a client that is gone, has no result.

No run of `main` ever makes such a call, and one that comes to its end, however it ends, has
closed every descriptor and removed both files (`daemon_releases`).
-/

namespace Sockd.Reference.Daemon

open C Effects Prog

/-- What is open, and what is there because of this daemon. -/
structure Held where
  /-- the stream of `kill_stale_daemon` -/
  stream : Bool := false
  /-- `G.server_fd` -/
  server : Bool := false
  /-- the file at `SOCKET_PATH` -/
  bound : Bool := false
  listening : Bool := false
  /-- the file at `PID_PATH` -/
  pidFile : Bool := false
  /-- the stream of `write_pid_file` -/
  out : Bool := false
  /-- `client_fd` -/
  client : Bool := false
  deriving DecidableEq

/-- What the call does to that, when it is in order. -/
def Held.use (h : Held) : Effects.Event daemonSig → Option Held
  | ⟨.openPidFile, opened⟩ => if h.stream then none else some { h with stream := opened }
  | ⟨.scanPidFile, _⟩ => if h.stream then some h else none
  | ⟨.closePidFile, _⟩ => if h.stream then some { h with stream := false } else none
  | ⟨.socket, made⟩ => if h.server then none else some { h with server := made }
  | ⟨.bindSocket _, bound⟩ =>
    if h.server ∧ ¬ h.bound then some { h with bound := bound } else none
  | ⟨.listen _, listening⟩ =>
    if h.server ∧ h.bound then some { h with listening := listening } else none
  | ⟨.closeServer, _⟩ =>
    if h.server ∧ ¬ h.client then some { h with server := false, listening := false } else none
  | ⟨.unlink path, _⟩ =>
    if path = socketPath then some { h with bound := false }
    else if path = pidPath then some { h with pidFile := false }
    else none
  | ⟨.createPidFile, created⟩ =>
    if h.listening ∧ ¬ h.pidFile ∧ ¬ h.out then some { h with pidFile := created, out := created }
    else none
  | ⟨.writePidText _, _⟩ => if h.out then some h else none
  | ⟨.closeNewPidFile, _⟩ => if h.out then some { h with out := false } else none
  | ⟨.select _, _⟩ => if h.listening ∧ ¬ h.client then some h else none
  | ⟨.accept, accepted⟩ =>
    if h.listening ∧ ¬ h.client then some { h with client := accepted } else none
  | ⟨.read, _⟩ | ⟨.write _, _⟩ => if h.client then some h else none
  | ⟨.closeClient, _⟩ => if h.client then some { h with client := false } else none
  | _ => some h

/-- What is held after these calls, if they were all in order. -/
def held (s : Option Held) (e : Effects.Event daemonSig) : Option Held := s.bind fun h => h.use e

variable {root : Str}

theorem spec_perform {α : Type} {op : DaemonOp} {f : DaemonAns op → Prog daemonSig α} {h : Held}
    {Q : α → Option Held → Prop}
    (hf : ∀ b, Spec held (h.use ⟨op, b⟩) (f b) (· ≠ none) Q) :
    Spec held (some h) (perform op >>= f) (· ≠ none) Q := Spec.call nofun hf

theorem spec_last {op : DaemonOp} {h : Held} {Q : DaemonAns op → Option Held → Prop}
    (hlast : ∀ b, h.use ⟨op, b⟩ ≠ none ∧ Q b (h.use ⟨op, b⟩)) :
    Spec held (some h) (perform op) (· ≠ none) Q := Spec.ask nofun hlast

theorem use_unlink_socketPath (h : Held) (u : Unit) :
    h.use ⟨.unlink socketPath, u⟩ = some { h with bound := false } := by
  unfold Held.use
  dsimp only
  rw [if_pos rfl]

theorem use_unlink_pidPath (h : Held) (u : Unit) :
    h.use ⟨.unlink pidPath, u⟩ = some { h with pidFile := false } := by
  have hne : pidPath ≠ socketPath := by decide
  unfold Held.use
  dsimp only
  rw [if_neg hne, if_pos rfl]

/-! ## Before the loop -/

theorem held_pluginRoot : Spec held (some {}) pluginRoot (· ≠ none) fun _ s => s = some {} := by
  refine spec_perform fun root => ?_
  cases root with
  | none => exact spec_last fun _ => ⟨nofun, rfl⟩
  | some root => exact .ret nofun rfl

theorem held_killProcess (oldPid : Int) (h : Held) :
    Spec held (some h) (killProcess oldPid) (· ≠ none) fun _ s => s = some h := by
  refine spec_perform fun live => ?_
  cases live with
  | false => exact .ret nofun rfl
  | true =>
    refine spec_perform fun _ => spec_perform fun _ => spec_perform fun live => ?_
    cases live with
    | false => exact .ret nofun rfl
    | true => exact spec_perform fun _ => spec_last fun _ => ⟨nofun, rfl⟩

theorem held_killStaleDaemon :
    Spec held (some {}) killStaleDaemon (· ≠ none) fun _ s => s = some {} := by
  refine spec_perform fun opened => ?_
  cases opened with
  | false => exact .ret nofun rfl
  | true =>
    refine spec_perform fun text => ?_
    have hscanned : Spec held (some { stream := true }) (killScanned (scanInt text)) (· ≠ none)
        fun _ s => s = some { stream := true } := by
      unfold killScanned
      split
      · split
        · exact held_killProcess _ _
        · exact .ret nofun rfl
      · exact .ret nofun rfl
    refine hscanned.bind ?_
    rintro _ _ - rfl
    exact spec_last fun _ => ⟨nofun, rfl⟩

/-- A daemon that has its socket. -/
def ready : Held := { server := true, bound := true, listening := true }

theorem held_setupSocket : Spec held (some {}) setupSocket (· ≠ none) fun listening s =>
    s = some (if listening then ready else {}) := by
  refine spec_perform fun u => ?_
  rw [use_unlink_socketPath]
  refine spec_perform fun made => ?_
  cases made with
  | false => exact .ret nofun rfl
  | true =>
    refine spec_perform fun bound => ?_
    cases bound with
    | false => exact spec_perform fun _ => .ret nofun rfl
    | true =>
      refine spec_perform fun listening => ?_
      cases listening with
      | true => exact .ret nofun rfl
      | false =>
        refine spec_perform fun _ => spec_perform fun u => ?_
        rw [use_unlink_socketPath]
        exact .ret nofun rfl

/-- A daemon that serves, with its PID file or without. -/
def serving (pidFile : Bool) : Held := { ready with pidFile := pidFile }

theorem held_writePidFile : Spec held (some ready) writePidFile (· ≠ none) fun _ s =>
    ∃ pidFile, s = some (serving pidFile) := by
  refine spec_perform fun created => ?_
  cases created with
  | false => exact .ret nofun ⟨false, rfl⟩
  | true =>
    exact spec_perform fun pid => spec_perform fun _ => spec_last fun _ => ⟨nofun, true, rfl⟩

/-! ## The loop -/

/-- A daemon with a client. -/
def busy (pidFile : Bool) : Held := { serving pidFile with client := true }

theorem held_respond (pidFile : Bool) (resp : ResponseMsg) (body : Bytes) :
    Spec held (some (busy pidFile)) (respond resp body) (· ≠ none) fun _ s =>
      s = some (serving pidFile) := by
  refine spec_perform fun _ => ?_
  have hcontent : Spec held (some (busy pidFile)) (writeContent body) (· ≠ none) fun _ s =>
      s = some (busy pidFile) := by
    unfold writeContent
    split
    · exact .ret nofun rfl
    · exact spec_last fun _ => ⟨nofun, rfl⟩
  refine hcontent.bind ?_
  rintro _ _ - rfl
  exact spec_last fun _ => ⟨nofun, rfl⟩

/-- A client is closed, whatever it sent. -/
theorem held_processConnection (root : Str) (g : Router) (pidFile : Bool) :
    Spec held (some (busy pidFile)) (processConnection root g) (· ≠ none) fun _ s =>
      s = some (serving pidFile) := by
  have hplain : ∀ (resp : ResponseMsg) (body : Bytes) (g : Router),
      Spec held (some (busy pidFile)) (respond resp body >>= fun _ => pure g) (· ≠ none)
        fun _ s => s = some (serving pidFile) := by
    intro resp body g
    refine (held_respond pidFile resp body).bind ?_
    rintro _ _ - rfl
    exact .ret nofun rfl
  refine spec_perform fun received => ?_
  show Spec held (some (busy pidFile)) _ _ _
  split
  next => exact spec_perform fun _ => .ret nofun rfl
  next req _ =>
    split
    next => exact hplain _ _ _
    next => exact hplain _ _ _
    next => exact spec_perform fun dir => hplain _ _ _
    next =>
      dsimp only
      split
      next => exact hplain _ _ _
      next hnone => cases hnone

theorem held_eventRound (root : Str) (x : Router × Int) (pidFile : Bool) :
    Spec held (some (serving pidFile)) (eventRound root x) (· ≠ none) fun _ s =>
      s = some (serving pidFile) := by
  obtain ⟨g, lastActivity⟩ := x
  refine spec_perform fun signalled => ?_
  dsimp only
  generalize (if signalled = true then { g with running := false } else g) = g
  show Spec held (some (serving pidFile)) _ _ _
  split
  next =>
    refine spec_perform fun selected => ?_
    show Spec held (some (serving pidFile)) _ _ _
    cases selected with
    | failed => exact .ret nofun rfl
    | interrupted => exact .ret nofun rfl
    | timedOut =>
      refine spec_perform fun now => ?_
      show Spec held (some (serving pidFile)) _ _ _
      split
      next => exact .ret nofun rfl
      next => exact .ret nofun rfl
    | ready =>
      refine spec_perform fun accepted => ?_
      cases accepted with
      | false => exact .ret nofun rfl
      | true =>
        refine spec_perform fun now => ?_
        refine (held_processConnection root g pidFile).bind ?_
        rintro g' _ - rfl
        exact .ret nofun rfl
  next => exact .ret nofun rfl

theorem held_cleanShutdown (g : Router) (pidFile : Bool) :
    Spec held (some (serving pidFile)) (cleanShutdown g) (· ≠ none) fun _ s => s = some {} := by
  refine spec_perform fun _ => spec_perform fun u => ?_
  rw [use_unlink_socketPath]
  refine spec_perform fun u => ?_
  rw [use_unlink_pidPath]
  exact .ret nofun rfl

/-! ## The whole run -/

theorem held_main : Spec held (some {}) main (· ≠ none) fun _ s => s = some {} := by
  refine held_pluginRoot.bind ?_
  rintro root _ - rfl
  cases root with
  | none => exact .ret nofun rfl
  | some root =>
    refine held_killStaleDaemon.bind ?_
    rintro _ _ - rfl
    refine spec_perform fun dir => spec_perform fun _ => spec_perform fun _ => ?_
    refine held_setupSocket.bind ?_
    rintro listening _ - rfl
    cases listening with
    | false => exact .ret nofun rfl
    | true =>
      refine held_writePidFile.bind ?_
      rintro _ _ - ⟨pidFile, rfl⟩
      refine spec_perform fun last => ?_
      refine .loop (fun _ s => s = some (serving pidFile))
        (fun _ s => s = some (serving pidFile)) rfl ?_ ?_
      · rintro x _ rfl
        refine (held_eventRound _ x pidFile).mono (fun _ h => h) fun r s h => ?_
        cases r with
        | inl y => exact h
        | inr g => exact h
      · rintro g _ - rfl
        exact held_cleanShutdown g pidFile

/-- In no run does the daemon use what it does not have: it reads and writes only while a client
is connected, accepts only when the one before is gone, closes each descriptor once. When it
comes to its end, well or not, every descriptor is closed and its files are gone. -/
theorem daemon_releases {tr : Trace} (h : Traces main tr) :
    (∃ holds, tr.foldl held (some {}) = some holds) ∧
      ∀ r, Returns main tr r → tr.foldl held (some {}) = some {} := by
  obtain ⟨q, hq⟩ := h
  exact ⟨Option.ne_none_iff_exists'.mp (held_main.always hq), fun r hr => held_main.returns hr⟩

theorem daemon_releases_once : (∃ holds, onceTrace.foldl held (some {}) = some holds) ∧
    ∀ r, Returns main onceTrace r → onceTrace.foldl held (some {}) = some {} :=
  daemon_releases traces_onceTrace

end Sockd.Reference.Daemon
