import Sockd.Bytes.Decimal
import Sockd.Bytes.Utf8
import Sockd.Error

/-!
# The calls of the library

Everything `sockd` asks of its surroundings, as one interface: the file system,
the process table, signals, Unix sockets, the clock, and the three callbacks of a
daemon with application state `S`. A file or a connection that a call opens is
known by the number the call answers; `Stream` is one end of a connection. The
wrappers below carry `std`'s names; where `std` builds a function out of several
calls (`read_to_string`, `writeln!`) the wrapper does.
-/

namespace Sockd

open Rust Effects

/-- The two ends of a connection. -/
inductive Side
  | client | server
  deriving DecidableEq, Repr

/-- The other end. -/
def Side.other : Side → Side
  | client => server
  | server => client

/-- `UnixStream`: an end of a connection. -/
structure Stream where
  conn : Nat
  side : Side
  deriving DecidableEq, Repr

/-- The stream at the other end. -/
def Stream.peer (s : Stream) : Stream := ⟨s.conn, s.side.other⟩

@[simp] theorem Stream.peer_peer (s : Stream) : s.peer.peer = s := by
  obtain ⟨c, side⟩ := s
  cases side <;> rfl

/-- `std::fs::FileType`, as far as `is_socket` tells. -/
inductive FileType
  | socket | other
  deriving DecidableEq, Repr

/-- What `poll` on one descriptor returned: how many descriptors are ready, and
whether `POLLIN` is among the events. -/
structure Polled where
  ready : Nat
  pollIn : Bool
  deriving DecidableEq, Repr

/-- `libc::EPERM`. -/
def EPERM : Nat := 1

/-- `libc::ESRCH`. -/
def ESRCH : Nat := 3

/-- `SIGINT`. -/
def SIGINT : Nat := 2

/-- `SIGTERM`. -/
def SIGTERM : Nat := 15

/-- The calls, for a daemon with state `S`. -/
inductive Op (S : Type)
  | createDirAll (path : Path)
  | pathExists (path : Path)
  | symlinkMetadata (path : Path)
  | metadata (path : Path)
  | openFile (path : Path)
  | readFile (file : Nat)
  | removeFile (path : Path)
  | createNew (path : Path)
  | writeFile (file : Nat) (buf : Bytes)
  | processId
  | kill (pid : Int)
  | spawn (program : Path) (args : List String)
  | registerSignal (signal : Nat)
  | loadFlag
  | connect (path : Path)
  | bind (path : Path)
  | listenerNonblocking (listener : Nat) (on : Bool)
  | streamNonblocking (stream : Stream) (on : Bool)
  | poll (listener : Nat) (timeoutMs : Nat)
  | accept (listener : Nat)
  | read (stream : Stream) (n : Nat)
  | write (stream : Stream) (buf : Bytes)
  | closeStream (stream : Stream)
  | closeListener (listener : Nat)
  | now
  | sleep (duration : Duration)
  | onStart
  | onRequest (state : S) (payload : Bytes)
  | onStop (state : S)
  | panic
  deriving DecidableEq

/-- What each call answers. -/
def Ans {S : Type} : Op S → Type
  | .createDirAll _ => Except IoError Unit
  | .pathExists _ => Bool
  | .symlinkMetadata _ => Except IoError FileType
  | .metadata _ => Except IoError Unit
  | .openFile _ => Except IoError Nat
  | .readFile _ => Except IoError Bytes
  | .removeFile _ => Except IoError Unit
  | .createNew _ => Except IoError Nat
  | .writeFile _ buf => Except IoError (Taken buf)
  | .processId => UInt32
  | .kill _ => Except Nat Unit
  | .spawn _ _ => Except IoError Unit
  | .registerSignal _ => Except IoError Unit
  | .loadFlag => Bool
  | .connect _ => Except IoError Stream
  | .bind _ => Except IoError Nat
  | .listenerNonblocking _ _ => Except IoError Unit
  | .streamNonblocking _ _ => Except IoError Unit
  | .poll _ _ => Except IoError Polled
  | .accept _ => Except IoError Stream
  | .read _ n => Except IoError (Chunk n)
  | .write _ buf => Except IoError (Taken buf)
  | .closeStream _ => Unit
  | .closeListener _ => Unit
  | .now => Instant
  | .sleep _ => Unit
  | .onStart => CallbackResult S
  | .onRequest _ _ => CallbackResult Bytes × S
  | .onStop _ => CallbackResult Unit
  | .panic => Empty

/-- The interface of the library. -/
@[reducible] def sysSig (S : Type) : Sig := ⟨Op S, Ans⟩

/-- Programs over these calls. -/
abbrev Sys (S α : Type) : Type 1 := Prog (sysSig S) α

/-- Programs that fail with an `io::Error`. -/
abbrev SysIo (S α : Type) : Type 1 := Try (sysSig S) IoError α

/-- Programs that fail with an error of the library. -/
abbrev SysTry (S α : Type) : Type 1 := Try (sysSig S) Error α

/-- The events of such programs. -/
abbrev SysEvent (S : Type) : Type := Event (sysSig S)

/-- Histories of such programs. -/
abbrev History (S : Type) : Type := List (SysEvent S)

variable {S : Type}

/-- Make one call. -/
def perform (op : Op S) : Sys S (Ans op) := @Prog.ask (sysSig S) op

/-! ## `std::fs` -/

namespace Fs

/-- `fs::create_dir_all`. -/
def createDirAll (path : Path) : SysIo S Unit := ⟨perform (.createDirAll path)⟩

/-- `Path::exists`. -/
def pathExists (path : Path) : Sys S Bool := perform (.pathExists path)

/-- `fs::symlink_metadata`, then `file_type`. -/
def symlinkMetadata (path : Path) : SysIo S FileType := ⟨perform (.symlinkMetadata path)⟩

/-- `fs::metadata`. -/
def metadata (path : Path) : SysIo S Unit := ⟨perform (.metadata path)⟩

/-- `File::open`. -/
def openFile (path : Path) : SysIo S Nat := ⟨perform (.openFile path)⟩

/-- `Read::read_to_end` on a file; the content is read in one piece. -/
def readToEnd (file : Nat) : SysIo S Bytes := ⟨perform (.readFile file)⟩

/-- `fs::read_to_string`: the file is opened and its bytes are read, if they are
UTF-8. -/
def readToString (path : Path) : SysIo S (List Char) := do
  let file ← openFile path
  let bytes ← readToEnd file
  match Bytes.decode? bytes with
  | some text => return text
  | none => Try.fail ⟨.invalidData, "stream did not contain valid UTF-8"⟩

/-- The text of the bytes that were read. -/
def decoded (bytes : Bytes) : SysIo S (List Char) :=
  match Bytes.decode? bytes with
  | some text => return text
  | none => Try.fail ⟨.invalidData, "stream did not contain valid UTF-8"⟩

theorem decoded_some {bytes : Bytes} {text : List Char} (h : Bytes.decode? bytes = some text) :
    (decoded bytes : SysIo S (List Char)) = pure text := by
  unfold decoded
  rw [h]

theorem decoded_none {bytes : Bytes} (h : Bytes.decode? bytes = none) :
    (decoded bytes : SysIo S (List Char)) =
      Try.fail ⟨.invalidData, "stream did not contain valid UTF-8"⟩ := by
  unfold decoded
  rw [h]

/-- `fs::remove_file`. -/
def removeFile (path : Path) : SysIo S Unit := ⟨perform (.removeFile path)⟩

/-- `OpenOptions::new().create_new(true).write(true).open(path)`. -/
def createNew (path : Path) : SysIo S Nat := ⟨perform (.createNew path)⟩

/-- `impl Write for File`. -/
def fileWriter (file : Nat) : Writer (sysSig S) where
  op := .writeFile file
  answer _ b := b
  flush := pure ()

end Fs

/-! ## Processes and time -/

/-- `std::process::id`. -/
def processId : Sys S UInt32 := perform .processId

/-- `libc::kill(pid, 0)`, with `errno` when it is not 0. -/
def kill (pid : Int) : Sys S (Except Nat Unit) := perform (.kill pid)

/-- `signal_hook::flag::register`. -/
def registerSignal (signal : Nat) : SysIo S Unit := ⟨perform (.registerSignal signal)⟩

/-- `shutdown.load(Ordering::Relaxed)`. -/
def loadFlag : Sys S Bool := perform .loadFlag

/-- `Command::spawn`, with `setsid` before `exec` and the standard streams null. -/
def spawn (program : Path) (args : List String) : SysIo S Unit := ⟨perform (.spawn program args)⟩

/-- `Instant::now`. -/
def now : Sys S Instant := perform .now

/-- `thread::sleep`. -/
def sleep (duration : Duration) : Sys S Unit := perform (.sleep duration)

/-- `Instant + Duration`, which panics on overflow. -/
def addInstant (t : Instant) (d : Duration) : Sys S Instant :=
  match t.checkedAdd? d with
  | some u => .ret u
  | none => .call .panic Empty.elim

/-! ## Unix sockets -/

/-- `impl Read for UnixStream`. -/
def Stream.reader (s : Stream) : Reader (sysSig S) where
  op := .read s
  answer _ b := b

/-- `impl Write for UnixStream`; `flush` does nothing. -/
def Stream.writer (s : Stream) : Writer (sysSig S) where
  op := .write s
  answer _ b := b
  flush := pure ()

/-- `UnixStream::connect`. -/
def connectStream (path : Path) : SysIo S Stream := ⟨perform (.connect path)⟩

/-- `UnixListener::bind`. -/
def bindListener (path : Path) : SysIo S Nat := ⟨perform (.bind path)⟩

/-- `listener.accept()`; the address it also gives is not used. -/
def acceptStream (listener : Nat) : SysIo S Stream := ⟨perform (.accept listener)⟩

/-- `UnixListener::set_nonblocking`. -/
def setListenerNonblocking (listener : Nat) (on : Bool) : SysIo S Unit :=
  ⟨perform (.listenerNonblocking listener on)⟩

/-- `UnixStream::set_nonblocking`. -/
def setStreamNonblocking (s : Stream) (on : Bool) : SysIo S Unit :=
  ⟨perform (.streamNonblocking s on)⟩

/-- `libc::poll` for `POLLIN` on one listener. -/
def pollFd (listener : Nat) (timeoutMs : Nat) : SysIo S Polled :=
  ⟨perform (.poll listener timeoutMs)⟩

/-- Dropping a `UnixStream`. -/
def closeStream (s : Stream) : Sys S Unit := perform (.closeStream s)

/-- Dropping a `UnixListener`. -/
def closeListener (listener : Nat) : Sys S Unit := perform (.closeListener listener)

/-! ## Callbacks -/

/-- `(self.on_start)()`. -/
def onStart : Try (sysSig S) BoxError S := ⟨perform .onStart⟩

/-- `(self.on_request)(state, payload)`: the result, and the state it leaves. -/
def onRequest (state : S) (payload : Bytes) : Sys S (CallbackResult Bytes × S) :=
  perform (.onRequest state payload)

/-- `(self.on_stop)(state)`. -/
def onStop (state : S) : Try (sysSig S) BoxError Unit := ⟨perform (.onStop state)⟩

end Sockd
