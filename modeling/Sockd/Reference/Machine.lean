import Mathlib.Logic.Function.Basic
import Sockd.Effects.Interleave
import Sockd.Os
import Sockd.Reference.Daemon

/-!
# Reference daemons on one machine

What the daemons of one machine share: the two names in `/tmp`, the files behind the PID file,
and the process table. `answers` says which answers a call can get, `after` what it changes;
calls that have to do with none of this can answer anything.

A name and the file behind it are kept apart, so a stream that was opened before a PID file
is unlinked can still be read after. A pid can be used again once its process was reaped, and
a process that never makes a call can be any other program.
-/

namespace Sockd.Reference.Daemon

open C Effects Prog

/-- A process. -/
structure Task where
  pid : Nat := 0
  status : Status := .absent
  /-- The file that it opened as the old PID file. -/
  stream : Nat := 0
  /-- The file that it created as its PID file. -/
  out : Nat := 0
  /-- The signals that `handle_signal` was installed for. -/
  handled : List Nat := []
  /-- `handle_signal` ran. -/
  flagged : Bool := false

/-- A machine. -/
structure Machine where
  /-- The file at `PID_PATH`. -/
  pidFile : Option Nat
  content : Nat → Bytes
  nextFile : Nat
  /-- The process that bound the file at `SOCKET_PATH`; a file of a process that is not known
  belongs to a number that no process has. -/
  socketFile : Option Nat
  tasks : Nat → Task
  /-- The process table: who has a pid. -/
  pids : Nat → Option Nat

namespace Machine

/-- Process `i` is running. -/
def Running (w : Machine) (i : Nat) : Prop := (w.tasks i).status = .running

instance (w : Machine) (i : Nat) : Decidable (w.Running i) :=
  inferInstanceAs (Decidable ((w.tasks i).status = .running))

/-- Change a process. -/
def setTask (w : Machine) (i : Nat) (t : Task) : Machine :=
  { w with tasks := Function.update w.tasks i t }

@[simp] theorem tasks_setTask_self (w : Machine) (i : Nat) (t : Task) :
    (w.setTask i t).tasks i = t := Function.update_self _ _ _

/-- Change the content of a file. -/
def setFile (w : Machine) (file : Nat) (text : Bytes) : Machine :=
  { w with content := Function.update w.content file text }

@[simp] theorem content_setFile_self (w : Machine) (file : Nat) (text : Bytes) :
    (w.setFile file text).content file = text := Function.update_self _ _ _

/-! ## Signals -/

/-- Who has the pid. -/
def target (w : Machine) (pid : Int) : Option Nat := if 0 < pid then w.pids pid.toNat else none

/-- A signal to process `i`, one that ends a process by default: `handle_signal` runs if it is
installed, else the process ends. -/
def deliver (w : Machine) (signal i : Nat) : Machine :=
  if w.Running i ∧ signal ≠ 0 then
    if signal ≠ SIGKILL ∧ signal ∈ (w.tasks i).handled then
      w.setTask i { w.tasks i with flagged := true }
    else w.setTask i { w.tasks i with status := .zombie }
  else w

/-- A signal to whoever has the pid. -/
def deliverTo (w : Machine) (signal : Nat) : Option Nat → Machine
  | some i => w.deliver signal i
  | none => w

/-! ## Calls -/

/-- The answers that process `i` can get. -/
def answers (w : Machine) (i : Nat) : Effects.Event daemonSig → Bool
  | ⟨.openPidFile, opened⟩ => opened == w.pidFile.isSome
  | ⟨.scanPidFile, text⟩ => text == w.content (w.tasks i).stream
  | ⟨.kill pid _, sent⟩ => sent == (w.target pid).isSome
  | ⟨.getpid, pid⟩ => pid == (w.tasks i).pid
  | ⟨.bindSocket _, bound⟩ => !bound || w.socketFile.isNone
  | ⟨.signalled, flagged⟩ => flagged == (w.tasks i).flagged
  | _ => true

/-- `fopen(PID_PATH, "w")`: the file that is there, emptied, or a new one. -/
def create (w : Machine) (i : Nat) : Machine :=
  match w.pidFile with
  | some file => (w.setFile file []).setTask i { w.tasks i with out := file }
  | none =>
    { (w.setFile w.nextFile []).setTask i { w.tasks i with out := w.nextFile } with
      pidFile := some w.nextFile
      nextFile := w.nextFile + 1 }

/-- `unlink`. -/
def unlink (w : Machine) (path : String) : Machine :=
  if path = socketPath then { w with socketFile := none }
  else if path = pidPath then { w with pidFile := none }
  else w

/-- The machine after a call of process `i`. -/
def after (w : Machine) (i : Nat) : Effects.Event daemonSig → Machine
  | ⟨.openPidFile, _⟩ =>
    w.setTask i { w.tasks i with stream := w.pidFile.getD (w.tasks i).stream }
  | ⟨.kill pid signal, _⟩ => w.deliverTo signal (w.target pid)
  | ⟨.sigaction signal, _⟩ =>
    w.setTask i { w.tasks i with handled := signal :: (w.tasks i).handled }
  | ⟨.unlink path, _⟩ => w.unlink path
  | ⟨.bindSocket _, bound⟩ => if bound then { w with socketFile := some i } else w
  | ⟨.createPidFile, created⟩ => if created then w.create i else w
  | ⟨.writePidText text, _⟩ =>
    w.setFile (w.tasks i).out (text ++ (w.content (w.tasks i).out).drop text.length)
  | _ => w

/-- A call of process `i` with its answer, if it is possible. -/
def act (w : Machine) (i : Nat) (e : Effects.Event daemonSig) : Option Machine :=
  if w.Running i ∧ w.answers i e then some (w.after i e) else none

/-! ## What nobody calls for -/

/-- The steps that are no daemon's call. -/
inductive Outside
  | start (i pid : Nat)
  | signal (i signal : Nat)
  | exit (i : Nat)
  | reap (i : Nat)
  deriving DecidableEq

/-- A step that is no daemon's call, if it is possible. A process ends at any time, whatever it
is doing; its pid is free again when it has been reaped. -/
def outside (w : Machine) : Outside → Option Machine
  | .start i pid =>
    if (w.tasks i).status = .absent ∧ w.pids pid = none ∧ 0 < pid ∧ pid < 2 ^ 31 then
      some { w.setTask i { pid := pid, status := .running } with
        pids := Function.update w.pids pid (some i) }
    else none
  | .signal i signal => if w.Running i then some (w.deliver signal i) else none
  | .exit i =>
    if w.Running i then some (w.setTask i { w.tasks i with status := .zombie }) else none
  | .reap i =>
    if (w.tasks i).status = .zombie then
      some { w.setTask i { w.tasks i with status := .gone } with
        pids := Function.update w.pids (w.tasks i).pid none }
    else none

end Machine

/-- Any number of reference daemons on one machine. -/
def daemons : System daemonSig Machine Machine.Outside where
  acts := Machine.act
  outside := Machine.outside
  behaviour _ := Traces main

/-- Configurations of these. -/
abbrev MachineConfig : Type := Config daemonSig Machine

/-- Their steps. -/
abbrev MachineLabel : Type := Label daemonSig Machine.Outside

/-! ## What a call leaves alone -/

section Frame

variable {w w' : Machine} {i j : Nat}

/-- What a call of process `i` leaves as it is: who has which pid, and of the other processes
all but that they may end. -/
structure Leaves (w w' : Machine) (i : Nat) : Prop where
  pids : w'.pids = w.pids
  pid : ∀ j, (w'.tasks j).pid = (w.tasks j).pid
  status : ∀ j, (w'.tasks j).status = (w.tasks j).status ∨
    w.Running j ∧ (w'.tasks j).status = .zombie
  stream : ∀ j, j ≠ i → (w'.tasks j).stream = (w.tasks j).stream
  out : ∀ j, j ≠ i → (w'.tasks j).out = (w.tasks j).out

theorem leaves_of_tasks (hpids : w'.pids = w.pids) (htasks : w'.tasks = w.tasks) :
    Leaves w w' i := by
  refine ⟨hpids, fun j => ?_, fun j => .inl ?_, fun j _ => ?_, fun j _ => ?_⟩
  all_goals rw [htasks]

theorem leaves_of_update {t : Task} (hpids : w'.pids = w.pids)
    (htasks : w'.tasks = Function.update w.tasks i t) (hpid : t.pid = (w.tasks i).pid)
    (hstatus : t.status = (w.tasks i).status ∨ w.Running i ∧ t.status = .zombie) :
    Leaves w w' i := by
  refine ⟨hpids, fun j => ?_, fun j => ?_, fun j hj => ?_, fun j hj => ?_⟩
  · by_cases hj : j = i
    · subst hj
      rw [htasks, Function.update_self, hpid]
    · rw [htasks, Function.update_of_ne hj]
  · by_cases hj : j = i
    · subst hj
      rw [htasks, Function.update_self]
      exact hstatus
    · rw [htasks, Function.update_of_ne hj]
      exact .inl rfl
  · rw [htasks, Function.update_of_ne hj]
  · rw [htasks, Function.update_of_ne hj]

/-- A signal leaves alone what every process has open, too. -/
theorem leaves_deliver (signal k : Nat) : Leaves w (w.deliver signal k) i := by
  have hset : ∀ t : Task, t.pid = (w.tasks k).pid → t.stream = (w.tasks k).stream →
      t.out = (w.tasks k).out →
      (t.status = (w.tasks k).status ∨ w.Running k ∧ t.status = .zombie) →
      Leaves w (w.setTask k t) i := by
    intro t hpid hstream hout hstatus
    obtain ⟨hpids, hpid, hstatus, hstream', hout'⟩ :=
      show Leaves w (w.setTask k t) k from leaves_of_update rfl rfl hpid hstatus
    refine ⟨hpids, hpid, hstatus, fun j _ => ?_, fun j _ => ?_⟩
    · by_cases hj : j = k
      · subst hj
        rw [Machine.tasks_setTask_self, hstream]
      · exact hstream' j hj
    · by_cases hj : j = k
      · subst hj
        rw [Machine.tasks_setTask_self, hout]
      · exact hout' j hj
  unfold Machine.deliver
  split
  next hrun =>
    split
    next => exact hset _ rfl rfl rfl (.inl rfl)
    next => exact hset _ rfl rfl rfl (.inr ⟨hrun.1, rfl⟩)
  next => exact leaves_of_tasks rfl rfl

theorem leaves_after (w : Machine) (i : Nat) (e : Effects.Event daemonSig) :
    Leaves w (w.after i e) i := by
  obtain ⟨op, b⟩ := e
  cases op with
  | openPidFile => exact leaves_of_update rfl rfl rfl (.inl rfl)
  | sigaction signal => exact leaves_of_update rfl rfl rfl (.inl rfl)
  | kill pid signal =>
    show Leaves w (w.deliverTo signal (w.target pid)) i
    cases w.target pid with
    | none => exact leaves_of_tasks rfl rfl
    | some k => exact leaves_deliver signal k
  | unlink path =>
    show Leaves w (w.unlink path) i
    unfold Machine.unlink
    split
    · exact leaves_of_tasks rfl rfl
    · split <;> exact leaves_of_tasks rfl rfl
  | bindSocket path =>
    show Leaves w (if b = true then { w with socketFile := some i } else w) i
    split <;> exact leaves_of_tasks rfl rfl
  | createPidFile =>
    show Leaves w (if b = true then w.create i else w) i
    split
    · unfold Machine.create
      split <;> exact leaves_of_update rfl rfl rfl (.inl rfl)
    · exact leaves_of_tasks rfl rfl
  | _ => exact leaves_of_tasks rfl rfl

theorem Leaves.running (h : Leaves w w' i) (hj : w'.Running j) : w.Running j := by
  rcases h.status j with hstatus | ⟨hrun, -⟩
  · exact hstatus.symm.trans hj
  · exact hrun

theorem Leaves.absent (h : Leaves w w' i) (hj : (w'.tasks j).status = .absent) :
    (w.tasks j).status = .absent := by
  rcases h.status j with hstatus | ⟨-, hzombie⟩
  · exact hstatus.symm.trans hj
  · rw [hzombie] at hj
    cases hj

theorem unlink_socketPath (w : Machine) : w.unlink socketPath = { w with socketFile := none } :=
  if_pos rfl

theorem unlink_pidPath (w : Machine) : w.unlink pidPath = { w with pidFile := none } := by
  rw [Machine.unlink, if_neg (by decide), if_pos rfl]

/-- Nothing in `/tmp` has changed. -/
structure SameFiles (w w' : Machine) : Prop where
  pidFile : w'.pidFile = w.pidFile
  content : w'.content = w.content
  socketFile : w'.socketFile = w.socketFile

theorem sameFiles_deliver (signal i : Nat) : SameFiles w (w.deliver signal i) := by
  unfold Machine.deliver
  split
  · split <;> exact ⟨rfl, rfl, rfl⟩
  · exact ⟨rfl, rfl, rfl⟩

theorem not_running_of_sigkill (w : Machine) (j : Nat) : ¬ (w.deliver SIGKILL j).Running j := by
  intro hrun
  by_cases hj : w.Running j
  · have hdead : w.deliver SIGKILL j = w.setTask j { w.tasks j with status := .zombie } := by
      rw [Machine.deliver, if_pos ⟨hj, by decide⟩, if_neg (by simp)]
    rw [hdead, Machine.Running, Machine.tasks_setTask_self] at hrun
    cases hrun
  · have hsame : w.deliver SIGKILL j = w := by
      rw [Machine.deliver, if_neg (by simp [hj])]
    rw [hsame] at hrun
    exact hj hrun

end Frame

/-! ## The process table -/

/-- The process table is in order. -/
structure Table (w : Machine) : Prop where
  pids : ∀ i, (w.tasks i).status = .running ∨ (w.tasks i).status = .zombie →
    w.pids (w.tasks i).pid = some i
  range : ∀ i, w.Running i → 0 < (w.tasks i).pid ∧ (w.tasks i).pid < 2 ^ 31

theorem Table.leaves {w w' : Machine} {i : Nat} (ht : Table w) (h : Leaves w w' i) : Table w' where
  pids j hj := by
    rw [h.pids, h.pid]
    refine ht.pids j ?_
    rcases h.status j with hstatus | ⟨hrun, -⟩
    · rwa [hstatus] at hj
    · exact .inl hrun
  range j hj := by
    rw [h.pid]
    exact ht.range j (h.running hj)

/-- A running process is found under its pid. -/
theorem Table.target {w : Machine} {i : Nat} (ht : Table w) (hi : w.Running i) :
    w.target ((w.tasks i).pid : Int) = some i := by
  have hpos : (0 : Int) < (w.tasks i).pid := by
    have := (ht.range i hi).1
    omega
  rw [Machine.target, if_pos hpos]
  exact ht.pids i (.inl hi)

end Sockd.Reference.Daemon
