import Mathlib.Logic.Function.Basic
import Sockd.Bytes.Utf8
import Sockd.Config

/-!
# The C interface: setters of a client configuration (`ffi.rs`)

`Abi` is the memory that the setters write: the configurations, and for every place
that an `error_out` can point to, the strings that were put there, in order. A pointer
is `none` when it is null. A C string that is not null is known by its bytes before
the NUL.

The header says which of two error codes a setter returns: one for a null pointer, one
for a string that is not UTF-8. `AbiCall.firstFault` is the first argument at fault,
in the order in which a caller reads the parameters, and `Honours` is what the header
promises about one call.
-/

namespace Sockd

open Rust

/-- `SOCKD_OK`. -/
def SOCKD_OK : Nat := 0

/-- `SOCKD_ERR_NULL`. -/
def SOCKD_ERR_NULL : Nat := 1

/-- `SOCKD_ERR_UTF8`. -/
def SOCKD_ERR_UTF8 : Nat := 2

/-- `SockdClientConfig`. -/
structure SockdClientConfig where
  socketPath : String
  pidFile : Option String := none
  autoStartProgram : Option String := none
  autoStartArgs : List String := []
  maxPayloadLen : Nat := defaultMaxPayloadLen
  shutdownTimeoutMs : Nat := 2000

/-- `*const c_char`: null, or the bytes before the NUL. -/
abbrev CStr : Type := Option Bytes

/-- What the setters write. -/
@[ext] structure Abi where
  configs : Nat → SockdClientConfig
  /-- The strings that were written to each `error_out`. -/
  errors : Nat → List Bytes

/-- Put a string where `error_out` points, unless it is null. -/
def Abi.report (m : Abi) (errorOut : Option Nat) (text : Bytes) : Abi :=
  match errorOut with
  | some slot => { m with errors := Function.update m.errors slot (m.errors slot ++ [text]) }
  | none => m

/-- `write_error`. -/
def writeError (errorOut : Option Nat) (message : String) (code : Nat) (m : Abi) : Nat × Abi :=
  (code, m.report errorOut ((Bytes.encode message.toList).filter fun byte => byte ≠ 0))

/-- `c_string`. -/
def cString (input : CStr) : Except String String :=
  match input with
  | none => .error "pointer must not be null"
  | some bytes =>
    match Bytes.decode? bytes with
    | some text => .ok (String.ofList text)
    | none => .error "value must be valid UTF-8"

/-- `config_mut`. -/
def configMut (config : Option Nat) (errorOut : Option Nat) (m : Abi) : Option Nat × Abi :=
  match config with
  | none => (none, (writeError errorOut "config pointer must not be null" SOCKD_ERR_NULL m).2)
  | some config => (some config, m)

/-- `c_string_result`. -/
def cStringResult (input : CStr) (errorOut : Option Nat) (m : Abi) : Option String × Abi :=
  match cString input with
  | .ok value => (some value, m)
  | .error message => (none, (writeError errorOut message SOCKD_ERR_UTF8 m).2)

/-- The `for` of `c_string_vec`, with what it has pushed so far. -/
def pushArgs (errorOut : Option Nat) :
    List CStr → List String → Abi → Option (List String) × Abi
  | [], out, m => (some out, m)
  | arg :: rest, out, m =>
    match cStringResult arg errorOut m with
    | (some value, m) => pushArgs errorOut rest (out ++ [value]) m
    | (none, m) => (none, m)

/-- `c_string_vec`. -/
def cStringVec (argc : Nat) (argv : Option (Nat → CStr)) (errorOut : Option Nat) (m : Abi) :
    Option (List String) × Abi :=
  if argc = 0 then (some [], m)
  else
    match argv with
    | none =>
      (none, (writeError errorOut "argv pointer must not be null when argc > 0" SOCKD_ERR_NULL m).2)
    | some argv => pushArgs errorOut ((List.range argc).map argv) [] m

/-- `sockd_client_config_set_pid_file`. -/
def sockdClientConfigSetPidFile (config : Option Nat) (pidFile : CStr) (errorOut : Option Nat)
    (m : Abi) : Nat × Abi :=
  match configMut config errorOut m with
  | (none, m) => (SOCKD_ERR_NULL, m)
  | (some config, m) =>
    match cStringResult pidFile errorOut m with
    | (none, m) => (SOCKD_ERR_UTF8, m)
    | (some pidFile, m) =>
      let new := { m.configs config with pidFile := some pidFile }
      (SOCKD_OK, { m with configs := Function.update m.configs config new })

/-- `sockd_client_config_set_auto_start`. -/
def sockdClientConfigSetAutoStart (config : Option Nat) (program : CStr) (argc : Nat)
    (argv : Option (Nat → CStr)) (errorOut : Option Nat) (m : Abi) : Nat × Abi :=
  match configMut config errorOut m with
  | (none, m) => (SOCKD_ERR_NULL, m)
  | (some config, m) =>
    match cStringResult program errorOut m with
    | (none, m) => (SOCKD_ERR_UTF8, m)
    | (some program, m) =>
      match cStringVec argc argv errorOut m with
      | (none, m) => (SOCKD_ERR_UTF8, m)
      | (some args, m) =>
        let new := { m.configs config with autoStartProgram := some program, autoStartArgs := args }
        (SOCKD_OK, { m with configs := Function.update m.configs config new })

/-! ## Calls and their faults -/

/-- A call of one of the two setters. -/
inductive AbiCall
  | setPidFile (config : Option Nat) (pidFile : CStr) (errorOut : Option Nat)
  | setAutoStart (config : Option Nat) (program : CStr) (argc : Nat)
      (argv : Option (Nat → CStr)) (errorOut : Option Nat)

/-- What can be wrong with an argument. -/
inductive Fault
  | null | utf8
  deriving DecidableEq, Repr

/-- What is wrong with a string. -/
def stringFault : CStr → Option Fault
  | none => some .null
  | some bytes => if (Bytes.decode? bytes).isSome then none else some .utf8

/-- The text of a string that is not at fault. -/
def textOf (input : CStr) : String := String.ofList ((input.bind Bytes.decode?).getD [])

namespace AbiCall

/-- Make the call. -/
def run : AbiCall → Abi → Nat × Abi
  | setPidFile config pidFile errorOut => sockdClientConfigSetPidFile config pidFile errorOut
  | setAutoStart config program argc argv errorOut =>
    sockdClientConfigSetAutoStart config program argc argv errorOut

/-- The argument `config`. -/
def config : AbiCall → Option Nat
  | setPidFile config _ _ | setAutoStart config _ _ _ _ => config

/-- The argument `error_out`. -/
def errorOut : AbiCall → Option Nat
  | setPidFile _ _ errorOut | setAutoStart _ _ _ _ errorOut => errorOut

/-- What is wrong with the arguments after `config`, one after the other; of `argv` only
the first `argc` entries are arguments, and none of it when `argc` is 0. -/
def argFaults : AbiCall → List (Option Fault)
  | setPidFile _ pidFile _ => [stringFault pidFile]
  | setAutoStart _ program argc argv _ =>
    stringFault program ::
      if argc = 0 then []
      else match argv with
        | none => [some .null]
        | some argv => (List.range argc).map fun i => stringFault (argv i)

/-- The first argument at fault. -/
def firstFault (call : AbiCall) : Option Fault :=
  if call.config = none then some .null else call.argFaults.findSome? id

/-- The configuration with exactly the values that the call gives. -/
def configured : AbiCall → SockdClientConfig → SockdClientConfig
  | setPidFile _ pidFile _, c => { c with pidFile := some (textOf pidFile) }
  | setAutoStart _ program argc argv _, c =>
    { c with
      autoStartProgram := some (textOf program)
      autoStartArgs := (List.range argc).map fun i => textOf (argv.bind fun argv => argv i) }

end AbiCall

/-- What the header promises about a call: the code names the first fault; on an error
the configurations are as they were and `error_out` gets one message; else the
configuration has the given values and nothing else has changed. -/
structure Honours (m : Abi) (call : AbiCall) : Prop where
  null_iff : (call.run m).1 = SOCKD_ERR_NULL ↔ call.firstFault = some .null
  utf8_iff : (call.run m).1 = SOCKD_ERR_UTF8 ↔ call.firstFault = some .utf8
  ok_iff : (call.run m).1 = SOCKD_OK ↔ call.firstFault = none
  failed : (call.run m).1 ≠ SOCKD_OK → ∃ text, (call.run m).2 = m.report call.errorOut text
  succeeded : (call.run m).1 = SOCKD_OK → ∃ config, call.config = some config ∧
    (call.run m).2 =
      { m with configs := Function.update m.configs config (call.configured (m.configs config)) }

/-- Every call of the sequence honours it, where it is made. -/
def AllHonour (m : Abi) : List AbiCall → Prop
  | [] => True
  | call :: calls => Honours m call ∧ AllHonour (call.run m).2 calls

/-! ## What the helpers do -/

@[simp] theorem configs_report (m : Abi) (errorOut : Option Nat) (text : Bytes) :
    (m.report errorOut text).configs = m.configs := by
  cases errorOut <;> rfl

/-- A string that is not at fault is read; else there is one message. -/
theorem cStringResult_cases (input : CStr) (errorOut : Option Nat) (m : Abi) :
    (stringFault input = none ∧ cStringResult input errorOut m = (some (textOf input), m)) ∨
      (stringFault input ≠ none ∧
        ∃ text, cStringResult input errorOut m = (none, m.report errorOut text)) := by
  cases input with
  | none => exact .inr ⟨nofun, _, rfl⟩
  | some bytes =>
    unfold stringFault cStringResult cString textOf
    dsimp only [Option.bind_some]
    cases Bytes.decode? bytes with
    | none => exact .inr ⟨nofun, _, rfl⟩
    | some text => exact .inl ⟨rfl, rfl⟩

/-- The loop stops at the first string at fault, with one message. -/
theorem pushArgs_cases (errorOut : Option Nat) (args : List CStr) (out : List String) (m : Abi) :
    ((args.map stringFault).findSome? id = none ∧
        pushArgs errorOut args out m = (some (out ++ args.map textOf), m)) ∨
      ((args.map stringFault).findSome? id ≠ none ∧
        ∃ text, pushArgs errorOut args out m = (none, m.report errorOut text)) := by
  induction args generalizing out with
  | nil => exact .inl ⟨rfl, by simp [pushArgs]⟩
  | cons arg rest ih =>
    rw [List.map_cons, List.findSome?_cons]
    rcases cStringResult_cases arg errorOut m with ⟨hfault, hread⟩ | ⟨hfault, text, hread⟩
    · rcases ih (out ++ [textOf arg]) with ⟨hnone, hrest⟩ | ⟨hsome, text, hrest⟩
      · refine .inl ⟨by rw [hfault]; exact hnone, ?_⟩
        simp only [pushArgs, hread, hrest, List.map_cons, List.append_assoc, List.singleton_append]
      · refine .inr ⟨by rw [hfault]; exact hsome, text, ?_⟩
        simp only [pushArgs, hread, hrest]
    · refine .inr ⟨?_, text, by simp only [pushArgs, hread]⟩
      obtain ⟨fault, hfault⟩ := Option.ne_none_iff_exists'.mp hfault
      rw [hfault]
      exact nofun

/-- What `argv` is read to. -/
theorem cStringVec_cases (argc : Nat) (argv : Option (Nat → CStr)) (errorOut : Option Nat)
    (config : Option Nat) (program : CStr) (hprogram : stringFault program = none) (m : Abi) :
    let call := AbiCall.setAutoStart config program argc argv errorOut
    (call.argFaults.findSome? id = none ∧ cStringVec argc argv errorOut m =
        (some ((List.range argc).map fun i => textOf (argv.bind fun argv => argv i)), m)) ∨
      (call.argFaults.findSome? id ≠ none ∧
        ∃ text, cStringVec argc argv errorOut m = (none, m.report errorOut text)) := by
  intro call
  have hfaults : call.argFaults.findSome? id = (if argc = 0 then [] else match argv with
      | none => [some .null]
      | some argv => (List.range argc).map fun i => stringFault (argv i)).findSome? id := by
    show (stringFault program :: _).findSome? id = _
    rw [List.findSome?_cons, hprogram]
    rfl
  rw [hfaults]
  unfold cStringVec
  split
  next h =>
    subst h
    exact .inl ⟨rfl, rfl⟩
  next =>
    cases argv with
    | none => exact .inr ⟨nofun, _, rfl⟩
    | some argv =>
      have h := pushArgs_cases errorOut ((List.range argc).map argv) [] m
      rw [List.map_map, List.map_map] at h
      exact h

namespace AbiCall

/-- Every call does one of two things: it sets what it was given, or it reports. The
code of an error only says whether `config` was null. -/
theorem run_cases (call : AbiCall) (m : Abi) :
    (call.firstFault = none ∧ ∃ config, call.config = some config ∧ call.run m = (SOCKD_OK,
        { m with
          configs := Function.update m.configs config (call.configured (m.configs config)) })) ∨
      (call.firstFault ≠ none ∧ ∃ text, call.run m =
        (if call.config = none then SOCKD_ERR_NULL else SOCKD_ERR_UTF8,
          m.report call.errorOut text)) := by
  cases call with
  | setPidFile config pidFile errorOut =>
    cases config with
    | none => exact .inr ⟨nofun, _, rfl⟩
    | some config =>
      have hfirst : (setPidFile (some config) pidFile errorOut).firstFault =
          stringFault pidFile := by
        show [stringFault pidFile].findSome? id = _
        cases stringFault pidFile <;> rfl
      rw [hfirst]
      simp only [run, sockdClientConfigSetPidFile, configMut]
      rcases cStringResult_cases pidFile errorOut m with ⟨hfault, hread⟩ | ⟨hfault, text, hread⟩
      · rw [hread]
        exact .inl ⟨hfault, config, rfl, rfl⟩
      · rw [hread]
        exact .inr ⟨hfault, text, rfl⟩
  | setAutoStart config program argc argv errorOut =>
    cases config with
    | none => exact .inr ⟨nofun, _, rfl⟩
    | some config =>
      have hfirst : (setAutoStart (some config) program argc argv errorOut).firstFault =
          (setAutoStart (some config) program argc argv errorOut).argFaults.findSome? id := rfl
      rw [hfirst]
      simp only [run, sockdClientConfigSetAutoStart, configMut]
      rcases cStringResult_cases program errorOut m with ⟨hfault, hread⟩ | ⟨hfault, text, hread⟩
      · rw [hread]
        rcases cStringVec_cases argc argv errorOut (some config) program hfault m with
          ⟨hnone, hargs⟩ | ⟨hsome, text, hargs⟩
        · dsimp only
          rw [hargs]
          exact .inl ⟨hnone, config, rfl, rfl⟩
        · dsimp only
          rw [hargs]
          exact .inr ⟨hsome, text, rfl⟩
      · rw [hread]
        refine .inr ⟨?_, text, rfl⟩
        show (stringFault program :: _).findSome? id ≠ none
        obtain ⟨fault, hfault⟩ := Option.ne_none_iff_exists'.mp hfault
        rw [List.findSome?_cons, hfault]
        exact nofun

end AbiCall

/-- A call honours the convention unless the first argument at fault is null and is not `config`. -/
theorem honours_iff (m : Abi) (call : AbiCall) :
    Honours m call ↔ (call.firstFault = some .null → call.config = none) := by
  rcases call.run_cases m with ⟨hnone, config, hconfig, hrun⟩ | ⟨hsome, text, hrun⟩
  · refine ⟨fun _ h => ?_, fun _ => ?_⟩
    · rw [hnone] at h
      cases h
    refine ⟨?_, ?_, ?_, fun h => ?_, fun _ => ⟨config, hconfig, by rw [hrun]⟩⟩
    · rw [hrun, hnone]
      exact ⟨nofun, nofun⟩
    · rw [hrun, hnone]
      exact ⟨nofun, nofun⟩
    · rw [hrun, hnone]
      exact ⟨fun _ => rfl, fun _ => rfl⟩
    · rw [hrun] at h
      exact absurd rfl h
  · constructor
    · intro h hnull
      by_contra hconfig
      have hcode := h.null_iff.mpr hnull
      rw [hrun, if_neg hconfig] at hcode
      cases hcode
    · intro h
      have hnotOk : (call.run m).1 ≠ SOCKD_OK := by
        rw [hrun]
        dsimp only
        split <;> exact nofun
      refine ⟨?_, ?_, ⟨fun he => absurd he hnotOk, fun he => absurd he hsome⟩,
        fun _ => ⟨text, by rw [hrun]⟩, fun he => absurd he hnotOk⟩
      all_goals
        rw [hrun]
        by_cases hconfig : call.config = none
        · have hnull : call.firstFault = some .null := if_pos hconfig
          rw [if_pos hconfig, hnull]
          simp [SOCKD_ERR_NULL, SOCKD_ERR_UTF8]
        · have hutf8 : call.firstFault = some .utf8 := by
            obtain ⟨fault, hfault⟩ := Option.ne_none_iff_exists'.mp hsome
            cases fault with
            | null => exact absurd (h hfault) hconfig
            | utf8 => exact hfault
          rw [if_neg hconfig, hutf8]
          simp [SOCKD_ERR_NULL, SOCKD_ERR_UTF8]

/-- So does every call of a sequence: what was called before does not matter. -/
theorem allHonour_iff (m : Abi) (calls : List AbiCall) :
    AllHonour m calls ↔
      ∀ call ∈ calls, call.firstFault = some .null → call.config = none := by
  induction calls generalizing m with
  | nil => simp [AllHonour]
  | cons call calls ih =>
    rw [AllHonour, honours_iff, ih, List.forall_mem_cons]

/-- A null `pid_file` is reported as a string that is not UTF-8. -/
theorem nullPidFile_not_honoured : ¬ ∀ (m : Abi) (calls : List AbiCall), AllHonour m calls := by
  intro h
  let m : Abi := ⟨fun _ => { socketPath := "/tmp/sockd.sock" }, fun _ => []⟩
  have hcall := (h m [.setPidFile (some 0) none (some 0)]).1.null_iff.mpr rfl
  cases hcall

end Sockd
