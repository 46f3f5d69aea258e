import Mathlib.Logic.Function.Basic
import Sockd.Effects.Interleave
import Sockd.Sys

/-!
# The operating system

The surroundings that the processes of one host share: the names of the file
system, the files and listeners behind them, the connections, the process table
and the clock. `answers` says which answers a call can get from a process in a given
state of the host, and `after` what the call changes; both are executable, so a
schedule can be played.

A name and what it names are kept apart: `remove_file` takes away a name only, and
a file or a listener can outlive its name. A connection is a pair of byte streams,
each read in the order in which it was written. Two connections never share a
number, and neither do two files or two listeners.

A call can also fail for reasons that are not modelled (`Spurious`): with one of a
few kinds of error, and then it changes nothing. On a connected stream the only one
of these is `Interrupted`.
-/

namespace Sockd

open Rust Effects

variable {S : Type}

/-- What a path names. -/
inductive Node
  | file (file : Nat)
  | socket (listener : Nat)
  | directory
  deriving DecidableEq

/-- A file. -/
structure Inode where
  content : Bytes := []
  /-- The process that created it, if one of the host's did. -/
  creator : Option Nat := none

/-- A listening socket. -/
structure Listener where
  owner : Option Nat := none
  isOpen : Bool := false
  /-- The connections that wait to be accepted, the oldest first. -/
  backlog : List Nat := []

/-- One end of a connection. -/
structure Endpoint where
  /-- The process that opened or accepted it; a server end that waits has none. -/
  owner : Option Nat := none
  isOpen : Bool := false
  sent : Bytes := []
  got : Bytes := []
  /-- The other end was closed before everything sent to it was read. -/
  reset : Bool := false

/-- The life of a process. -/
inductive Status
  | absent | running | zombie | gone
  deriving DecidableEq

/-- A process. -/
structure Process where
  pid : UInt32 := 0
  status : Status := .absent
  /-- The flag that `signal_hook` sets. -/
  flagged : Bool := false

/-- A host. -/
structure Os where
  nodes : Path → Option Node
  inodes : Nat → Inode
  nextFile : Nat
  listeners : Nat → Listener
  nextListener : Nat
  ends : Stream → Endpoint
  /-- The listener a connection was made to. -/
  target : Nat → Nat
  nextConn : Nat
  procs : Nat → Process
  /-- The process table: who has a pid. -/
  pids : UInt32 → Option Nat
  clock : Int

namespace Os

/-- Process `i` is running. -/
def Running (w : Os) (i : Nat) : Prop := (w.procs i).status = .running

instance (w : Os) (i : Nat) : Decidable (w.Running i) :=
  inferInstanceAs (Decidable ((w.procs i).status = .running))

/-- `q` is the pid of a process in the table. -/
def live (w : Os) (q : Int) : Bool :=
  decide (0 < q) && (w.pids (UInt32.ofNat q.toNat)).isSome

/-- What can be read of a stream now. -/
def unread (w : Os) (s : Stream) : Bytes := (w.ends s.peer).sent.drop (w.ends s).got.length

/-- Everything the other end sent has been read. -/
def Drained (w : Os) (s : Stream) : Prop := (w.ends s).got = (w.ends s.peer).sent

instance (w : Os) (s : Stream) : Decidable (w.Drained s) :=
  inferInstanceAs (Decidable ((w.ends s).got = (w.ends s.peer).sent))

/-- Process `i` has the stream open. -/
def Holds (w : Os) (i : Nat) (s : Stream) : Prop :=
  (w.ends s).owner = some i ∧ (w.ends s).isOpen = true

instance (w : Os) (i : Nat) (s : Stream) : Decidable (w.Holds i s) :=
  inferInstanceAs (Decidable (_ ∧ _))

/-- Process `i` has the listener open. -/
def Listens (w : Os) (i : Nat) (l : Nat) : Prop :=
  (w.listeners l).owner = some i ∧ (w.listeners l).isOpen = true

instance (w : Os) (i : Nat) (l : Nat) : Decidable (w.Listens i l) :=
  inferInstanceAs (Decidable (_ ∧ _))

/-! ## What a call can answer -/

/-- The kinds of errors that a call can always fail with. -/
def isSpuriousKind (kind : ErrorKind) : Bool :=
  kind = .permissionDenied || kind = .timedOut || kind = .interrupted || kind = .other

/-- The failure is one of those that are not modelled. -/
def isSpuriousAnswer {α : Type} : Except IoError α → Bool
  | .ok _ => false
  | .error err => isSpuriousKind err.kind

/-- The call failed for a reason that is not modelled. -/
def isSpurious : SysEvent S → Bool
  | ⟨.createDirAll _, a⟩ | ⟨.symlinkMetadata _, a⟩ | ⟨.metadata _, a⟩ | ⟨.openFile _, a⟩
  | ⟨.readFile _, a⟩ | ⟨.removeFile _, a⟩ | ⟨.createNew _, a⟩ | ⟨.writeFile _ _, a⟩
  | ⟨.spawn _ _, a⟩ | ⟨.registerSignal _, a⟩ | ⟨.connect _, a⟩ | ⟨.bind _, a⟩
  | ⟨.listenerNonblocking _ _, a⟩ | ⟨.streamNonblocking _ _, a⟩ | ⟨.poll _ _, a⟩
  | ⟨.accept _, a⟩ => isSpuriousAnswer a
  | ⟨.read _ _, .error err⟩ | ⟨.write _ _, .error err⟩ => err.kind = .interrupted
  | _ => false

/-- `symlink_metadata` and `metadata` at a name; `symlink_metadata` tells sockets apart. -/
def statAnswer (node : Option Node) : Except IoError FileType → Bool
  | .ok .socket => match node with
    | some (.socket _) => true
    | _ => false
  | .ok .other => match node with
    | some (.file _) | some .directory => true
    | _ => false
  | .error err => node.isNone && err.kind = .notFound

/-- `kill(q, 0)`; what it does for process groups (`q ≤ 0`) is left open. -/
def killAnswer (w : Os) (q : Int) : Except Nat Unit → Bool
  | .ok _ => decide (q ≤ 0) || w.live q
  | .error errno => decide (q ≤ 0) || decide (errno = if w.live q then EPERM else ESRCH)

/-- `connect` to a name. -/
def connectAnswer (w : Os) (node : Option Node) : Except IoError Stream → Bool
  | .ok s => match node with
    | some (.socket l) => (w.listeners l).isOpen && decide (s = ⟨w.nextConn, .client⟩)
    | _ => false
  | .error err => match node with
    | none => err.kind = .notFound
    | some (.socket l) => !(w.listeners l).isOpen && err.kind = .connectionRefused
    | some _ => err.kind = .connectionRefused

/-- `read` of at most `n` bytes: some of what is unread, in order; end-of-file or
`ConnectionReset` only when nothing is and the other end is closed. -/
def readAnswer (w : Os) (s : Stream) (n : Nat) : Except IoError (Chunk n) → Bool
  | .ok d => decide ((w.ends s).got ++ d.1 <+: (w.ends s.peer).sent) &&
    (decide (d.1 ≠ [] ∨ n = 0) || (decide (w.Drained s) && !(w.ends s.peer).isOpen))
  | .error err => decide (err.kind = .connectionReset) && (w.ends s).reset &&
    decide (w.Drained s) && !(w.ends s.peer).isOpen

/-- `write`: some of the buffer while the other end is open. -/
def writeAnswer (w : Os) (s : Stream) (buf : Bytes) : Except IoError (Taken buf) → Bool
  | .ok k => (w.ends s.peer).isOpen && decide (0 < k.1 ∨ buf = [])
  | .error err => !(w.ends s.peer).isOpen &&
    (err.kind = .brokenPipe || err.kind = .connectionReset)

/-- The answers that process `i` can get. -/
def answers (w : Os) (i : Nat) : SysEvent S → Bool
  | ⟨.createDirAll _, .ok _⟩ => true
  | ⟨.pathExists p, b⟩ => (w.nodes p).isSome == b
  | ⟨.symlinkMetadata p, a⟩ => statAnswer (w.nodes p) a
  | ⟨.metadata p, .ok _⟩ => (w.nodes p).isSome
  | ⟨.metadata p, .error err⟩ => (w.nodes p).isNone && err.kind = .notFound
  | ⟨.openFile p, .ok f⟩ => w.nodes p == some (.file f)
  | ⟨.openFile p, .error err⟩ => match w.nodes p with
    | none => err.kind = .notFound
    | some (.file _) => false
    | some _ => err.kind = .other
  | ⟨.readFile f, .ok d⟩ => decide (f < w.nextFile) && (w.inodes f).content == d
  | ⟨.removeFile p, .ok _⟩ => match w.nodes p with
    | none | some .directory => false
    | some _ => true
  | ⟨.removeFile p, .error err⟩ => match w.nodes p with
    | none => err.kind = .notFound
    | some .directory => err.kind = .other
    | some _ => false
  | ⟨.createNew p, .ok f⟩ => (w.nodes p).isNone && decide (f = w.nextFile)
  | ⟨.createNew p, .error err⟩ => (w.nodes p).isSome && err.kind = .alreadyExists
  | ⟨.writeFile f buf, .ok k⟩ => (w.inodes f).creator == some i && decide (0 < k.1 ∨ buf = [])
  | ⟨.processId, pid⟩ => (w.procs i).pid == pid
  | ⟨.kill q, a⟩ => w.killAnswer q a
  | ⟨.spawn _ _, .ok _⟩ => true
  | ⟨.registerSignal _, .ok _⟩ => true
  | ⟨.loadFlag, b⟩ => (w.procs i).flagged == b
  | ⟨.connect p, a⟩ => w.connectAnswer (w.nodes p) a
  | ⟨.bind p, .ok l⟩ => (w.nodes p).isNone && decide (l = w.nextListener)
  | ⟨.bind p, .error err⟩ => (w.nodes p).isSome && err.kind = .addrInUse
  | ⟨.listenerNonblocking l _, .ok _⟩ => decide (w.Listens i l)
  | ⟨.streamNonblocking s _, .ok _⟩ => decide (w.Holds i s)
  | ⟨.poll l _, .ok polled⟩ => decide (w.Listens i l) &&
    decide (polled = if (w.listeners l).backlog = [] then ⟨0, false⟩ else ⟨1, true⟩)
  | ⟨.accept l, .ok s⟩ => decide (w.Listens i l) && decide (s.side = .server) &&
    (w.listeners l).backlog.head? == some s.conn
  | ⟨.accept l, .error err⟩ => decide (w.Listens i l) && decide ((w.listeners l).backlog = []) &&
    decide (err.kind = .wouldBlock)
  | ⟨.read s n, a⟩ => decide (w.Holds i s) && w.readAnswer s n a
  | ⟨.write s buf, a⟩ => decide (w.Holds i s) && w.writeAnswer s buf a
  | ⟨.closeStream s, _⟩ => decide (w.Holds i s)
  | ⟨.closeListener l, _⟩ => decide (w.Listens i l)
  | ⟨.now, t⟩ => decide (w.clock ≤ t.nanos)
  | ⟨.sleep _, _⟩ => true
  | ⟨.onStart, _⟩ => true
  | ⟨.onRequest _ _, _⟩ => true
  | ⟨.onStop _, _⟩ => true
  | _ => false

/-! ## What a call changes -/

/-- Give a path a new meaning. -/
def setNode (w : Os) (p : Path) (node : Option Node) : Os :=
  { w with nodes := Function.update w.nodes p node }

@[simp] theorem nodes_setNode_self (w : Os) (p : Path) (node : Option Node) :
    (w.setNode p node).nodes p = node := Function.update_self _ _ _

/-- Replace a file. -/
def setFile (w : Os) (f : Nat) (inode : Inode) : Os :=
  { w with inodes := Function.update w.inodes f inode }

/-- Replace a listener. -/
def setListener (w : Os) (l : Nat) (listener : Listener) : Os :=
  { w with listeners := Function.update w.listeners l listener }

/-- Replace one end of a connection. -/
def setEnd (w : Os) (s : Stream) (e : Endpoint) : Os :=
  { w with ends := Function.update w.ends s e }

/-- Close the ends in `C`. The other end of each learns of it when something that was
sent to the closed end was not read, or the closed end was never accepted. -/
def shut (w : Os) (C : Stream → Bool) : Os :=
  { w with ends := fun s =>
      { w.ends s with
        isOpen := (w.ends s).isOpen && !C s
        reset := (w.ends s).reset || (C s.peer && (w.ends s.peer).isOpen &&
          (decide (¬ w.Drained s.peer) || (w.ends s.peer).owner.isNone)) } }

/-- The server ends that wait at the listener. -/
def pendingAt (w : Os) (l : Nat) (s : Stream) : Bool :=
  decide (s.side = .server) && (w.ends s).owner.isNone && decide (w.target s.conn = l)

/-- A new connection of process `i` to the listener `l`. -/
def dial (w : Os) (i l : Nat) : Os :=
  let s : Stream := ⟨w.nextConn, .client⟩
  let w := (w.setEnd s { owner := some i, isOpen := true }).setEnd s.peer { isOpen := true }
  let w := w.setListener l { w.listeners l with backlog := (w.listeners l).backlog ++ [s.conn] }
  { w with target := Function.update w.target s.conn l, nextConn := w.nextConn + 1 }

/-- The host after a call of process `i`; a call that fails changes nothing. -/
def after (w : Os) (i : Nat) : SysEvent S → Os
  | ⟨.removeFile p, .ok _⟩ => w.setNode p none
  | ⟨.createNew p, .ok f⟩ =>
    { (w.setNode p (some (.file f))).setFile f { creator := some i } with
      nextFile := w.nextFile + 1 }
  | ⟨.writeFile f buf, .ok k⟩ =>
    w.setFile f { w.inodes f with content := (w.inodes f).content ++ buf.take k.1 }
  | ⟨.connect p, .ok _⟩ => match w.nodes p with
    | some (.socket l) => w.dial i l
    | _ => w
  | ⟨.bind p, .ok l⟩ =>
    { (w.setNode p (some (.socket l))).setListener l { owner := some i, isOpen := true } with
      nextListener := w.nextListener + 1 }
  | ⟨.accept l, .ok s⟩ =>
    (w.setListener l { w.listeners l with backlog := (w.listeners l).backlog.tail }).setEnd s
      { w.ends s with owner := some i }
  | ⟨.read s _, a⟩ => w.setEnd s { w.ends s with got := (w.ends s).got ++ delivered a }
  | ⟨.write s _, a⟩ => w.setEnd s { w.ends s with sent := (w.ends s).sent ++ taken a }
  | ⟨.closeStream s, _⟩ => w.shut fun t => decide (t = s)
  | ⟨.closeListener l, _⟩ =>
    (w.shut (w.pendingAt l)).setListener l { owner := (w.listeners l).owner }
  | ⟨.now, t⟩ => { w with clock := t.nanos }
  | _ => w

/-- A call of process `i` with its answer, if it is possible. -/
def act (w : Os) (i : Nat) (ev : SysEvent S) : Option Os :=
  if w.Running i ∧ (isSpurious ev ∨ w.answers i ev) then some (w.after i ev) else none

/-! ## What nobody calls for -/

/-- The steps of the host that are no process's call. -/
inductive Outside
  | start (i : Nat) (pid : UInt32)
  | signal (i : Nat)
  | terminate (i : Nat)
  | reap (i : Nat)
  deriving DecidableEq

/-- Change a process. -/
def setProc (w : Os) (i : Nat) (p : Process) : Os := { w with procs := Function.update w.procs i p }

/-- Give a pid to a process, or take it back. -/
def setPid (w : Os) (pid : UInt32) (i : Option Nat) : Os :=
  { w with pids := Function.update w.pids pid i }

/-- What a process leaves behind when it ends: its streams and listeners are closed. -/
def abandon (w : Os) (i : Nat) : Os :=
  let owned := fun s => decide ((w.ends s).owner = some i) ||
    decide (w.pendingAt (w.target s.conn) s ∧ (w.listeners (w.target s.conn)).owner = some i)
  { w.shut owned with
    listeners := fun l =>
      if (w.listeners l).owner = some i then { owner := some i } else w.listeners l }

/-- A step that is no process's call, if it is possible. A process ends at any time,
whatever it is doing; its pid is free again when it has been reaped. -/
def outside (w : Os) : Outside → Option Os
  | .start i pid =>
    if (w.procs i).status = .absent ∧ w.pids pid = none ∧ 0 < pid.toNat ∧ pid.toNat < 2 ^ 31 then
      some ((w.setProc i { pid := pid, status := .running }).setPid pid (some i))
    else none
  | .signal i =>
    if w.Running i then some (w.setProc i { w.procs i with flagged := true }) else none
  | .terminate i =>
    if w.Running i then some ((w.abandon i).setProc i { w.procs i with status := .zombie }) else none
  | .reap i =>
    if (w.procs i).status = .zombie then
      some ((w.setProc i { w.procs i with status := .gone }).setPid (w.procs i).pid none)
    else none

/-- A host on which nothing has been started: there may be names, and what they name,
but no listener is open and no connection was made. -/
structure Initial (w : Os) : Prop where
  procs : ∀ i, (w.procs i).status = .absent
  pids : ∀ pid, w.pids pid = none
  file_lt : ∀ p f, w.nodes p = some (.file f) → f < w.nextFile
  socket_lt : ∀ p l, w.nodes p = some (.socket l) → l < w.nextListener
  creator : ∀ f, (w.inodes f).creator = none
  listeners : ∀ l, w.listeners l = {}
  ends : ∀ s, w.ends s = {}

end Os

end Sockd
