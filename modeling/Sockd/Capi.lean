import Sockd.C.Heap
import Sockd.C.Strings
import Sockd.Client
import Sockd.Display
import Sockd.Ffi

/-!
# The C interface with its memory (`ffi.rs`)

`Ffi` has the setters of texts, as far as the error convention of the header goes. Here is
the whole interface with what the library allocates for its caller: configurations, error
strings and response buffers, in one heap. A pointer is `none` when it is null; the
out-pointers point to variables of the caller. Code whose behaviour may be undefined returns
`none` (`Defined`): a configuration that is not there, a string or a buffer that is released
twice, or as something else than it was allocated for.

The calls that talk to the daemon are those of the library's client, so they are programs
over its interface.
-/

namespace Sockd.Capi

open C Rust Effects

/-- `SOCKD_ERR_OPERATION`. -/
def SOCKD_ERR_OPERATION : Nat := 3

/-- What the library allocates. -/
inductive Block
  /-- a `Box<SockdClientConfig>` -/
  | config (c : SockdClientConfig)
  /-- a `CString` -/
  | string (bytes : Bytes)
  /-- a `Vec<u8>` with a capacity of its length -/
  | buffer (bytes : Bytes)

/-- The heap, and the variables of the caller. -/
structure Memory where
  heap : Heap Block
  errors : Nat → Option Nat
  responses : Nat → Option Nat
  lengths : Nat → Nat
  stopped : Nat → Bool

/-- The outcome of code that may have undefined behaviour. -/
abbrev Defined (α : Type) : Type := Option α

/-- What texts name: a path depends on the working directory, a program on `PATH`. -/
structure Naming where
  path : String → Path
  program : String → Path

variable {S : Type} (N : Naming) (A : Allocator Block)

/-! ## Helpers -/

/-- The bytes that `write_error` makes a `CString` of. -/
def errorBytes (message : String) : Bytes :=
  (Bytes.encode message.toList).filter (fun byte => byte ≠ 0) ++ [0]

/-- `write_error`. -/
def writeError (errorOut : Option Nat) (message : String) (code : Nat) (m : Memory) :
    Nat × Memory :=
  match errorOut with
  | none => (code, m)
  | some slot =>
    let (ptr, heap) := m.heap.alloc A (.string (errorBytes message))
    (code, { m with heap := heap, errors := Function.update m.errors slot (some ptr) })

/-- `config_mut`, and `config_ref`: the pointer and what it points to. -/
def configMut (config : Option Nat) (errorOut : Option Nat) (m : Memory) :
    Defined (Option (Nat × SockdClientConfig) × Memory) :=
  match config with
  | none =>
    some (none, (writeError A errorOut "config pointer must not be null" SOCKD_ERR_NULL m).2)
  | some ptr =>
    match m.heap.block ptr with
    | some (.config c) => some (some (ptr, c), m)
    | _ => none

/-- `c_string_result`. -/
def cStringResult (input : CStr) (errorOut : Option Nat) (m : Memory) : Option String × Memory :=
  match cString input with
  | .ok value => (some value, m)
  | .error message => (none, (writeError A errorOut message SOCKD_ERR_UTF8 m).2)

/-- The `for` of `c_string_vec`, with what it has pushed so far. -/
def pushArgs (errorOut : Option Nat) :
    List CStr → List String → Memory → Option (List String) × Memory
  | [], out, m => (some out, m)
  | arg :: rest, out, m =>
    match cStringResult A arg errorOut m with
    | (some value, m) => pushArgs errorOut rest (out ++ [value]) m
    | (none, m) => (none, m)

/-- `c_string_vec`. -/
def cStringVec (argc : Nat) (argv : Option (Nat → CStr)) (errorOut : Option Nat) (m : Memory) :
    Option (List String) × Memory :=
  if argc = 0 then (some [], m)
  else
    match argv with
    | none =>
      (none, (writeError A errorOut "argv pointer must not be null when argc > 0"
        SOCKD_ERR_NULL m).2)
    | some argv => pushArgs A errorOut ((List.range argc).map argv) [] m

/-! ## Configurations -/

/-- `sockd_client_config_new`. -/
def sockdClientConfigNew (socketPath : CStr) (m : Memory) : Option Nat × Memory :=
  match cString socketPath with
  | .ok socketPath =>
    let (ptr, heap) := m.heap.alloc A (.config { socketPath := socketPath })
    (some ptr, { m with heap := heap })
  | .error _ => (none, m)

/-- `sockd_client_config_free`. -/
def sockdClientConfigFree (config : Option Nat) (m : Memory) : Defined Memory :=
  match config with
  | none => some m
  | some ptr =>
    match m.heap.block ptr with
    | some (.config _) => some { m with heap := m.heap.free ptr }
    | _ => none

/-- A setter: `value` reads the arguments, and gives what becomes of the configuration unless
one of them is at fault. -/
def set (config errorOut : Option Nat)
    (value : Memory → Option (SockdClientConfig → SockdClientConfig) × Memory) (m : Memory) :
    Defined (Nat × Memory) :=
  match configMut A config errorOut m with
  | none => none
  | some (none, m) => some (SOCKD_ERR_NULL, m)
  | some (some (ptr, c), m) =>
    match value m with
    | (none, m) => some (SOCKD_ERR_UTF8, m)
    | (some update, m) =>
      some (SOCKD_OK, { m with heap := m.heap.set ptr (some (.config (update c))) })

/-- `sockd_client_config_set_pid_file`. -/
def sockdClientConfigSetPidFile (config : Option Nat) (pidFile : CStr) (errorOut : Option Nat)
    (m : Memory) : Defined (Nat × Memory) :=
  set A config errorOut (fun m =>
    match cStringResult A pidFile errorOut m with
    | (none, m) => (none, m)
    | (some pidFile, m) => (some fun c => { c with pidFile := some pidFile }, m)) m

/-- `sockd_client_config_set_auto_start`. -/
def sockdClientConfigSetAutoStart (config : Option Nat) (program : CStr) (argc : Nat)
    (argv : Option (Nat → CStr)) (errorOut : Option Nat) (m : Memory) : Defined (Nat × Memory) :=
  set A config errorOut (fun m =>
    match cStringResult A program errorOut m with
    | (none, m) => (none, m)
    | (some program, m) =>
      match cStringVec A argc argv errorOut m with
      | (none, m) => (none, m)
      | (some args, m) =>
        (some fun c => { c with autoStartProgram := some program, autoStartArgs := args }, m)) m

/-- `sockd_client_config_set_max_payload_len`. -/
def sockdClientConfigSetMaxPayloadLen (config : Option Nat) (maxPayloadLen : Nat)
    (errorOut : Option Nat) (m : Memory) : Defined (Nat × Memory) :=
  set A config errorOut (fun m => (some fun c => { c with maxPayloadLen := maxPayloadLen }, m)) m

/-- `sockd_client_config_set_shutdown_timeout_ms`. -/
def sockdClientConfigSetShutdownTimeoutMs (config : Option Nat) (shutdownTimeoutMs : Nat)
    (errorOut : Option Nat) (m : Memory) : Defined (Nat × Memory) :=
  set A config errorOut
    (fun m => (some fun c => { c with shutdownTimeoutMs := shutdownTimeoutMs }, m)) m

/-- `SockdClientConfig::build_client`. -/
def buildClient (c : SockdClientConfig) : Client where
  socketPath := N.path c.socketPath
  maxPayloadLen := c.maxPayloadLen
  shutdownTimeout := .fromMillis c.shutdownTimeoutMs
  pidFile := c.pidFile.map N.path
  autoStart := c.autoStartProgram.map fun program =>
    { program := N.program program, args := c.autoStartArgs }

/-! ## Operations -/

/-- An operation looks at its configuration, and goes on unless the pointer is null. -/
def withConfig (config errorOut : Option Nat) (m : Memory)
    (k : SockdClientConfig → Sys S (Defined (Nat × Memory))) : Sys S (Defined (Nat × Memory)) :=
  match configMut A config errorOut m with
  | none => .ret none
  | some (none, m) => .ret (some (SOCKD_ERR_NULL, m))
  | some (some (_, c), _) => k c

/-- The end of an operation; the only path in an error of the client is its socket. -/
def finish {α : Type} (c : SockdClientConfig) (errorOut : Option Nat) (m : Memory)
    (ok : α → Memory) (result : Except Error α) : Defined (Nat × Memory) :=
  match result with
  | .ok a => some (SOCKD_OK, ok a)
  | .error err =>
    some (writeError A errorOut (err.display fun _ => c.socketPath) SOCKD_ERR_OPERATION m)

/-- `sockd_client_ping`. -/
def sockdClientPing (config errorOut : Option Nat) (m : Memory) : Sys S (Defined (Nat × Memory)) :=
  withConfig A config errorOut m fun c =>
    (buildClient N c).ping.run.bind fun result => .ret (finish A c errorOut m (fun _ => m) result)

/-- `NonNull::dangling()`: where an empty vector points. -/
def dangling : Nat := 1

/-- The pointer of the response, which is forgotten; an empty one has no block. -/
def forget (response : Bytes) (m : Memory) : Nat × Memory :=
  if response = [] then (dangling, m)
  else
    let (ptr, heap) := m.heap.alloc A (.buffer response)
    (ptr, { m with heap := heap })

/-- What `sockd_client_request` does with a response. -/
def deliver (ptrOut lenOut : Nat) (m : Memory) (response : Bytes) : Memory :=
  let (ptr, m) := forget A response m
  { m with
    responses := Function.update m.responses ptrOut (some ptr)
    lengths := Function.update m.lengths lenOut response.length }

/-- `sockd_client_request`; `requestPtr` is what can be read from the pointer on. -/
def sockdClientRequest (config : Option Nat) (requestPtr : Option (Nat → UInt8)) (requestLen : Nat)
    (responsePtrOut responseLenOut errorOut : Option Nat) (m : Memory) :
    Sys S (Defined (Nat × Memory)) :=
  withConfig A config errorOut m fun c =>
    match responsePtrOut, responseLenOut with
    | some ptrOut, some lenOut =>
      let send (request : Bytes) : Sys S (Defined (Nat × Memory)) :=
        ((buildClient N c).request request).run.bind fun result =>
          .ret (finish A c errorOut m (deliver A ptrOut lenOut m) result)
      if requestLen = 0 then send []
      else
        match requestPtr with
        | none =>
          .ret (some (writeError A errorOut
            "request pointer must not be null when request_len > 0" SOCKD_ERR_NULL m))
        | some bytes => send ((List.range requestLen).map bytes)
    | _, _ =>
      .ret (some (writeError A errorOut "response output pointers must not be null"
        SOCKD_ERR_NULL m))

/-- `sockd_client_shutdown`. -/
def sockdClientShutdown (config stoppedOut errorOut : Option Nat) (m : Memory) :
    Sys S (Defined (Nat × Memory)) :=
  withConfig A config errorOut m fun c =>
    match stoppedOut with
    | none =>
      .ret (some (writeError A errorOut "stopped_out pointer must not be null" SOCKD_ERR_NULL m))
    | some slot =>
      (buildClient N c).shutdown.run.bind fun result =>
        .ret (finish A c errorOut m
          (fun stopped => { m with stopped := Function.update m.stopped slot stopped }) result)

/-! ## Releases -/

/-- `sockd_buffer_free`: the vector is rebuilt with `len` for its capacity and dropped, and
one without capacity has no block. -/
def sockdBufferFree (ptr : Option Nat) (len : Nat) (m : Memory) : Defined Memory :=
  match ptr with
  | none => some m
  | some ptr =>
    if len = 0 then some m
    else
      match m.heap.block ptr with
      | some (.buffer bytes) =>
        if bytes.length = len then some { m with heap := m.heap.free ptr } else none
      | _ => none

/-- `sockd_string_free`: `CString::from_raw` takes the length up to the first NUL for that of
the allocation. -/
def sockdStringFree (ptr : Option Nat) (m : Memory) : Defined Memory :=
  match ptr with
  | none => some m
  | some ptr =>
    match m.heap.block ptr with
    | some (.string bytes) =>
      if (Str.ofMem bytes).strlen + 1 = bytes.length then
        some { m with heap := m.heap.free ptr }
      else none
    | _ => none

/-! ## Calls -/

/-- A call of the interface. -/
inductive Call
  | configNew (socketPath : CStr)
  | configFree (config : Option Nat)
  | setPidFile (config : Option Nat) (pidFile : CStr) (errorOut : Option Nat)
  | setAutoStart (config : Option Nat) (program : CStr) (argc : Nat)
      (argv : Option (Nat → CStr)) (errorOut : Option Nat)
  | setMaxPayloadLen (config : Option Nat) (maxPayloadLen : Nat) (errorOut : Option Nat)
  | setShutdownTimeoutMs (config : Option Nat) (shutdownTimeoutMs : Nat) (errorOut : Option Nat)
  | ping (config errorOut : Option Nat)
  | request (config : Option Nat) (requestPtr : Option (Nat → UInt8)) (requestLen : Nat)
      (responsePtrOut responseLenOut errorOut : Option Nat)
  | shutdown (config stoppedOut errorOut : Option Nat)
  | bufferFree (ptr : Option Nat) (len : Nat)
  | stringFree (ptr : Option Nat)

/-- What a call returns. -/
inductive Ret
  | unit
  | code (code : Nat)
  | config (ptr : Option Nat)
  deriving DecidableEq

/-- A call that returns a code. -/
def coded (result : Defined (Nat × Memory)) : Defined (Ret × Memory) :=
  result.map fun r => (.code r.1, r.2)

/-- A call that returns nothing. -/
def done (result : Defined Memory) : Defined (Ret × Memory) := result.map fun m => (.unit, m)

/-- Make the call. -/
def Call.run (m : Memory) : Call → Sys S (Defined (Ret × Memory))
  | configNew socketPath =>
    let (ptr, m) := sockdClientConfigNew A socketPath m
    .ret (some (.config ptr, m))
  | configFree config => .ret (done (sockdClientConfigFree config m))
  | setPidFile config pidFile errorOut =>
    .ret (coded (sockdClientConfigSetPidFile A config pidFile errorOut m))
  | setAutoStart config program argc argv errorOut =>
    .ret (coded (sockdClientConfigSetAutoStart A config program argc argv errorOut m))
  | setMaxPayloadLen config maxPayloadLen errorOut =>
    .ret (coded (sockdClientConfigSetMaxPayloadLen A config maxPayloadLen errorOut m))
  | setShutdownTimeoutMs config shutdownTimeoutMs errorOut =>
    .ret (coded (sockdClientConfigSetShutdownTimeoutMs A config shutdownTimeoutMs errorOut m))
  | ping config errorOut => (sockdClientPing N A config errorOut m).bind fun r => .ret (coded r)
  | request config requestPtr requestLen responsePtrOut responseLenOut errorOut =>
    (sockdClientRequest N A config requestPtr requestLen responsePtrOut responseLenOut errorOut
      m).bind fun r => .ret (coded r)
  | shutdown config stoppedOut errorOut =>
    (sockdClientShutdown N A config stoppedOut errorOut m).bind fun r => .ret (coded r)
  | bufferFree ptr len => .ret (done (sockdBufferFree ptr len m))
  | stringFree ptr => .ret (done (sockdStringFree ptr m))

/-! ## The setters of `Ffi` -/

/-- The configurations are those of the other model. -/
def Configured (m : Memory) (abi : Abi) : Prop :=
  ∀ ptr c, m.heap.block ptr = some (.config c) → abi.configs ptr = c

/-- A setter here and the same one there: they return the same code, and leave the same
configurations. -/
def Matches (here : Defined (Nat × Memory)) (there : Nat × Abi) : Prop :=
  ∃ m, here = some (there.1, m) ∧ Configured m there.2

/-- What is read here and there: the same, or an error that leaves the configurations. -/
inductive Reads (m : Memory) (abi : Abi) {α : Type} :
    Option α × Memory → Option α × Abi → Prop
  | ok (value : α) : Reads m abi (some value, m) (some value, abi)
  | error {m' : Memory} {abi' : Abi} : Configured m' abi' → Reads m abi (none, m') (none, abi')

section Matches

variable {A} {m : Memory} {abi : Abi} {errorOut : Option Nat}

theorem Configured.writeError (h : Configured m abi) (message : String) (code : Nat)
    (slot : Option Nat) (text : Bytes) :
    Configured (writeError A errorOut message code m).2 (abi.report slot text) := by
  intro ptr c hblock
  rw [configs_report]
  cases errorOut with
  | none => exact h ptr c hblock
  | some slot =>
    by_cases hptr : ptr = A.address m.heap (.string (errorBytes message))
    · subst hptr
      have hself := m.heap.block_alloc_self A (.string (errorBytes message))
      cases hblock.symm.trans hself
    · exact h ptr c ((m.heap.block_set_of_ne hptr _).symm.trans hblock)

theorem Configured.set (h : Configured m abi) (ptr : Nat) (c : SockdClientConfig) :
    Configured { m with heap := m.heap.set ptr (some (.config c)) }
      { abi with configs := Function.update abi.configs ptr c } := by
  intro ptr' c' hblock
  by_cases hptr : ptr' = ptr
  · subst hptr
    rw [Heap.block_set_self] at hblock
    obtain rfl := Block.config.inj (Option.some.inj hblock)
    exact Function.update_self ..
  · exact (Function.update_of_ne hptr ..).trans
      (h ptr' c' ((m.heap.block_set_of_ne hptr _).symm.trans hblock))

theorem cStringResult_reads (h : Configured m abi) (input : CStr) :
    Reads m abi (cStringResult A input errorOut m) (Sockd.cStringResult input errorOut abi) := by
  unfold cStringResult Sockd.cStringResult
  cases cString input with
  | ok value => exact .ok value
  | error message => exact .error (h.writeError message SOCKD_ERR_UTF8 errorOut _)

theorem pushArgs_reads (h : Configured m abi) (args : List CStr) (out : List String) :
    Reads m abi (pushArgs A errorOut args out m) (Sockd.pushArgs errorOut args out abi) := by
  induction args generalizing out with
  | nil => exact .ok out
  | cons arg rest ih =>
    have harg : Reads m abi (cStringResult A arg errorOut m) _ := cStringResult_reads h arg
    rw [pushArgs, Sockd.pushArgs]
    generalize cStringResult A arg errorOut m = here at harg
    generalize Sockd.cStringResult arg errorOut abi = there at harg
    cases harg with
    | ok value => exact ih _
    | error hconfigs => exact .error hconfigs

theorem cStringVec_reads (h : Configured m abi) (argc : Nat) (argv : Option (Nat → CStr)) :
    Reads m abi (cStringVec A argc argv errorOut m)
      (Sockd.cStringVec argc argv errorOut abi) := by
  unfold cStringVec Sockd.cStringVec
  split
  next => exact .ok []
  next =>
    cases argv with
    | none => exact .error (h.writeError _ SOCKD_ERR_NULL errorOut _)
    | some argv => exact pushArgs_reads h _ _

/-- The pointer is null, or leads to a configuration. -/
def Live (m : Memory) (config : Option Nat) : Prop :=
  ∀ ptr, config = some ptr → ∃ c, m.heap.block ptr = some (.config c)

theorem configMut_eq {ptr : Nat} {c : SockdClientConfig}
    (hblock : m.heap.block ptr = some (.config c)) :
    configMut A (some ptr) errorOut m = some (some (ptr, c), m) := by
  unfold configMut
  dsimp only
  rw [hblock]

theorem setPidFile_matches (h : Configured m abi) {config : Option Nat} (hlive : Live m config)
    (pidFile : CStr) : Matches (sockdClientConfigSetPidFile A config pidFile errorOut m)
      (Sockd.sockdClientConfigSetPidFile config pidFile errorOut abi) := by
  unfold sockdClientConfigSetPidFile Sockd.sockdClientConfigSetPidFile set
  cases config with
  | none => exact ⟨_, rfl, h.writeError _ SOCKD_ERR_NULL errorOut _⟩
  | some ptr =>
    obtain ⟨c, hblock⟩ := hlive ptr rfl
    have hread : Reads m abi (cStringResult A pidFile errorOut m) _ :=
      cStringResult_reads h pidFile
    rw [configMut_eq hblock, ← h ptr c hblock]
    unfold Sockd.configMut
    dsimp only
    generalize cStringResult A pidFile errorOut m = here at hread
    generalize Sockd.cStringResult pidFile errorOut abi = there at hread
    cases hread with
    | ok value => exact ⟨_, rfl, h.set ptr _⟩
    | error hconfigs => exact ⟨_, rfl, hconfigs⟩

theorem setAutoStart_matches (h : Configured m abi) {config : Option Nat} (hlive : Live m config)
    (program : CStr) (argc : Nat) (argv : Option (Nat → CStr)) :
    Matches (sockdClientConfigSetAutoStart A config program argc argv errorOut m)
      (Sockd.sockdClientConfigSetAutoStart config program argc argv errorOut abi) := by
  unfold sockdClientConfigSetAutoStart Sockd.sockdClientConfigSetAutoStart set
  cases config with
  | none => exact ⟨_, rfl, h.writeError _ SOCKD_ERR_NULL errorOut _⟩
  | some ptr =>
    obtain ⟨c, hblock⟩ := hlive ptr rfl
    have hread : Reads m abi (cStringResult A program errorOut m) _ :=
      cStringResult_reads h program
    have hargs : Reads m abi (cStringVec A argc argv errorOut m) _ :=
      cStringVec_reads h argc argv
    rw [configMut_eq hblock, ← h ptr c hblock]
    unfold Sockd.configMut
    dsimp only
    generalize cStringResult A program errorOut m = here at hread
    generalize Sockd.cStringResult program errorOut abi = there at hread
    cases hread with
    | error hconfigs => exact ⟨_, rfl, hconfigs⟩
    | ok value =>
      dsimp only
      generalize cStringVec A argc argv errorOut m = here at hargs
      generalize Sockd.cStringVec argc argv errorOut abi = there at hargs
      cases hargs with
      | ok args => exact ⟨_, rfl, h.set ptr _⟩
      | error hconfigs => exact ⟨_, rfl, hconfigs⟩

end Matches

end Sockd.Capi
