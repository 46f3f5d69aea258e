import Sockd.Pidfile

/-!
# The socket path (`socket.rs`)
-/

namespace Sockd

open Rust Effects

variable {S : Type}

namespace Socket

/-- `socket::connect`. -/
def connect (path : Path) : SysIo S Stream := connectStream path

/-- The kinds of a probe's failure after which `bind` takes the path for stale. -/
def isStaleKind (kind : ErrorKind) : Bool :=
  kind = .connectionRefused || kind = .connectionAborted || kind = .notFound

/-- The part of `bind` that looks at a path that is there: fails if something
answers at it or it is no socket, else removes it. -/
def reclaim (path : Path) : SysTry S Unit := do
  if ← Try.lift (Fs.pathExists path) then
    let fileType ← (Fs.symlinkMetadata path).mapErr .io
    if fileType ≠ .socket then
      Try.fail (.io ⟨.alreadyExists,
        "socket path exists and is not a socket: " ++ path.display⟩)
    else
      match ← (connectStream path).attempt with
      | .ok stream =>
        Try.lift (closeStream stream)
        Try.fail (.daemonAlreadyRunning none (some path))
      | .error err =>
        if isStaleKind err.kind then (Fs.removeFile path).mapErr .io
        else Try.fail (.io err)
  else return ()

/-- `UnixListener::bind`, then `set_nonblocking`; the listener is dropped when that
fails. -/
def listen (path : Path) : SysTry S Nat := do
  let listener ← (bindListener path).mapErr .io
  match ← (setListenerNonblocking listener true).attempt with
  | .ok () => return listener
  | .error err =>
    Try.lift (closeListener listener)
    Try.fail (.io err)

/-- `socket::bind`. -/
def bind (path : Path) : SysTry S Nat := do
  match path.parent? with
  | some parent => (Fs.createDirAll parent).mapErr .io
  | none => pure ()
  reclaim path
  listen path

/-- `socket::cleanup`: what `remove_if_exists` does, at the socket path. -/
def cleanup (path : Path) : SysTry S Unit := removeIfExists path

end Socket

end Sockd
