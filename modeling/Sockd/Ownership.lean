import Sockd.Capi
import Sockd.Effects.Spec

/-!
# Who owns what at the C interface

The header has ownership rules: what the library allocates belongs to its caller from the
call that hands it out to the call that releases it, and everything else is borrowed.
`Session` is any sequence of calls in which the caller keeps to them: it uses configurations
that it owns, and it releases what it owns, as what it is.

Whatever the surroundings answer, and wherever the allocator puts the blocks, no call of a
session has undefined behaviour (`session_defined`); and the blocks in use are always just
those that the caller owns (`session_owns`), so nothing is leaked and nothing is freed
behind its back.
-/

namespace Sockd.Capi

open C Rust Effects Prog

/-! ## The rules -/

/-- As what a block is owned. -/
inductive Kind
  | config
  | string
  | buffer (len : Nat)
  deriving DecidableEq

/-- As what a block is handed out. -/
def Block.kind : Block → Kind
  | config _ => .config
  | string _ => .string
  | buffer bytes => .buffer bytes.length

namespace Call

/-- The configuration that the call looks at. -/
def uses : Call → Option Nat
  | setPidFile config _ _ | setAutoStart config _ _ _ _ | setMaxPayloadLen config _ _
  | setShutdownTimeoutMs config _ _ | ping config _ | request config _ _ _ _ _
  | shutdown config _ _ => config
  | configNew _ | configFree _ | bufferFree _ _ | stringFree _ => none

/-- The argument `error_out`. -/
def errorOut : Call → Option Nat
  | setPidFile _ _ errorOut | setAutoStart _ _ _ _ errorOut | setMaxPayloadLen _ _ errorOut
  | setShutdownTimeoutMs _ _ errorOut | ping _ errorOut | request _ _ _ _ _ errorOut
  | shutdown _ _ errorOut => errorOut
  | configNew _ | configFree _ | bufferFree _ _ | stringFree _ => none

/-- What the call releases. -/
def takes : Call → Option (Nat × Kind)
  | configFree ptr => ptr.map (·, .config)
  | stringFree ptr => ptr.map (·, .string)
  | bufferFree ptr len => if len = 0 then none else ptr.map (·, .buffer len)
  | _ => none

/-- The response that a successful call hands out, in the variables of the caller. -/
def response (m : Memory) : Call → Option (Nat × Kind)
  | request _ _ _ (some ptrOut) (some lenOut) _ =>
    if m.lengths lenOut = 0 then none
    else (m.responses ptrOut).map (·, .buffer (m.lengths lenOut))
  | _ => none

/-- What the caller gets, as the header says: the configuration that is returned, the string
in `*error_out` after an error, the response after a success. -/
def gives (call : Call) (m : Memory) : Ret → Option (Nat × Kind)
  | .unit => none
  | .config ptr => ptr.map (·, .config)
  | .code code =>
    if code = SOCKD_OK then call.response m
    else call.errorOut.bind fun slot => (m.errors slot).map (·, .string)

/-- A caller that owns these blocks may make the call. -/
structure Permitted (owned : List (Nat × Kind)) (call : Call) : Prop where
  uses : ∀ ptr, call.uses = some ptr → (ptr, .config) ∈ owned
  takes : ∀ x, call.takes = some x → x ∈ owned

/-- What the caller owns after the call. -/
def after (owned : List (Nat × Kind)) (call : Call) (ret : Ret) (m : Memory) : List (Nat × Kind) :=
  (call.gives m ret).toList ++ (match call.takes with
    | some x => owned.erase x
    | none => owned)

end Call

/-- A call that was made: what it returned, the memory it left, and what it asked of the
surroundings. -/
structure Made (S : Type) where
  call : Call
  ret : Ret
  memory : Memory
  trace : List (Event (sysSig S))

variable {S : Type} (N : Naming) (A : Allocator Block)

/-- What the caller owns after these calls. -/
def owned (calls : List (Made S)) : List (Nat × Kind) :=
  calls.foldl (fun owned made => made.call.after owned made.ret made.memory) []

/-- The calls of a caller that keeps to the rules, the last one last, and the memory after
them. The variables of the caller hold anything at first. -/
inductive Session : List (Made S) → Memory → Prop
  | start {m : Memory} : m.heap = Heap.empty → Session [] m
  | call {calls : List (Made S)} {m m' : Memory} {call : Call} {ret : Ret}
      {tr : List (Event (sysSig S))} : Session calls m → call.Permitted (owned calls) →
      Returns (call.run N A m) tr (some (ret, m')) → Session (calls ++ [⟨call, ret, m', tr⟩]) m'

/-! ## What a call can do -/

/-- The configuration that a setter makes of one. -/
def Call.configured : Call → SockdClientConfig → SockdClientConfig
  | .setPidFile _ pidFile _, c => { c with pidFile := some (textOf pidFile) }
  | .setAutoStart _ program argc argv _, c =>
    { c with
      autoStartProgram := some (textOf program)
      autoStartArgs := (List.range argc).map fun i => textOf (argv.bind fun argv => argv i) }
  | .setMaxPayloadLen _ maxPayloadLen _, c => { c with maxPayloadLen := maxPayloadLen }
  | .setShutdownTimeoutMs _ shutdownTimeoutMs _, c =>
    { c with shutdownTimeoutMs := shutdownTimeoutMs }
  | _, c => c

/-- The call is one of a setter. -/
def Call.isSetter : Call → Bool
  | .setPidFile .. | .setAutoStart .. | .setMaxPayloadLen .. | .setShutdownTimeoutMs .. => true
  | _ => false

/-- What a call does to the heap. -/
inductive Effect (m : Memory) (call : Call) : Ret → Memory → Prop
  /-- an error, with one string for the caller who asks for it -/
  | reported (code : Nat) (message : String) : code ≠ SOCKD_OK → call.takes = none →
      Effect m call (.code code) (writeError A call.errorOut message code m).2
  | refused : call.takes = none → Effect m call (.config none) m
  | created (socketPath : CStr) : call = .configNew socketPath →
      Effect m call
        (.config (some (A.address m.heap (.config { socketPath := textOf socketPath }))))
        { m with heap := (m.heap.alloc A (.config { socketPath := textOf socketPath })).2 }
  | configured (ptr : Nat) (c : SockdClientConfig) : call.isSetter = true →
      call.uses = some ptr → m.heap.block ptr = some (.config c) →
      Effect m call (.code SOCKD_OK)
        { m with heap := m.heap.set ptr (some (.config (call.configured c))) }
  /-- a success that hands out nothing -/
  | answered (m' : Memory) : call.isSetter = false → call.takes = none → m'.heap = m.heap →
      call.response m' = none → Effect m call (.code SOCKD_OK) m'
  /-- a success that hands out a response -/
  | delivered (m' : Memory) (response : Bytes) : call.isSetter = false → call.takes = none →
      m'.heap = (m.heap.alloc A (.buffer response)).2 →
      call.response m' = some ((m.heap.alloc A (.buffer response)).1, .buffer response.length) →
      Effect m call (.code SOCKD_OK) m'
  | released (x : Nat × Kind) : call.takes = some x →
      Effect m call .unit { m with heap := m.heap.free x.1 }
  | nothing : call.takes = none → Effect m call .unit m

/-- The block is as it was allocated: a string ends at its first NUL. -/
def Block.Proper : Block → Prop
  | string bytes => ∃ text : Bytes, 0 ∉ text ∧ bytes = text ++ [0]
  | _ => True

/-- What the call needs is there. -/
structure Call.Safe (m : Memory) (call : Call) : Prop where
  uses : ∀ ptr, call.uses = some ptr → ∃ c, m.heap.block ptr = some (.config c)
  takes : ∀ x, call.takes = some x → ∃ b, m.heap.block x.1 = some b ∧ b.kind = x.2 ∧ b.Proper

/-- The length up to the first NUL is that of the allocation. -/
theorem strlen_proper {bytes : Bytes} (h : (Block.string bytes).Proper) :
    (Str.ofMem bytes).strlen + 1 = bytes.length := by
  obtain ⟨text, hnul, rfl⟩ := h
  have htext := Str.ofMem_append_zero ⟨text, hnul⟩ []
  rw [htext, List.length_append]
  rfl

section Helpers

variable {A} {m : Memory} {errorOut : Option Nat}

theorem writeError_fst (message : String) (code : Nat) :
    (writeError A errorOut message code m).1 = code := by
  cases errorOut <;> rfl

/-- The code is not written anywhere. -/
theorem writeError_snd (message : String) (code code' : Nat) :
    (writeError A errorOut message code m).2 = (writeError A errorOut message code' m).2 := by
  cases errorOut <;> rfl

theorem cString_cases (input : CStr) :
    cString input = .ok (textOf input) ∨ ∃ message, cString input = .error message := by
  unfold cString textOf
  cases input with
  | none => exact .inr ⟨_, rfl⟩
  | some bytes =>
    dsimp only [Option.bind_some]
    cases Bytes.decode? bytes with
    | none => exact .inr ⟨_, rfl⟩
    | some text => exact .inl rfl

variable (A m errorOut)

/-- A string is read, or there is one message. -/
theorem cStringResult_cases (input : CStr) :
    (cStringResult A input errorOut m = (some (textOf input), m)) ∨
      ∃ message, cStringResult A input errorOut m =
        (none, (writeError A errorOut message SOCKD_ERR_UTF8 m).2) := by
  unfold cStringResult
  rcases cString_cases input with hread | ⟨message, hread⟩
  · rw [hread]
    exact .inl rfl
  · rw [hread]
    exact .inr ⟨message, rfl⟩

theorem pushArgs_cases (args : List CStr) (out : List String) :
    (pushArgs A errorOut args out m = (some (out ++ args.map textOf), m)) ∨
      ∃ message, pushArgs A errorOut args out m =
        (none, (writeError A errorOut message SOCKD_ERR_UTF8 m).2) := by
  induction args generalizing out with
  | nil => exact .inl (by rw [pushArgs, List.map_nil, List.append_nil])
  | cons arg rest ih =>
    rw [pushArgs]
    rcases cStringResult_cases A m errorOut arg with
      hread | ⟨message, hread⟩
    · rw [hread]
      dsimp only
      rcases ih (out ++ [textOf arg]) with hrest | ⟨message, hrest⟩
      · rw [hrest, List.map_cons, List.append_assoc, List.singleton_append]
        exact .inl rfl
      · exact .inr ⟨message, hrest⟩
    · rw [hread]
      exact .inr ⟨message, rfl⟩

theorem cStringVec_cases (argc : Nat) (argv : Option (Nat → CStr)) :
    (cStringVec A argc argv errorOut m =
        (some ((List.range argc).map fun i => textOf (argv.bind fun argv => argv i)), m)) ∨
      ∃ message, cStringVec A argc argv errorOut m =
        (none, (writeError A errorOut message SOCKD_ERR_UTF8 m).2) := by
  unfold cStringVec
  split
  next hzero =>
    subst hzero
    exact .inl rfl
  next =>
    cases argv with
    | none =>
      refine .inr ⟨"argv pointer must not be null when argc > 0", ?_⟩
      dsimp only
      rw [writeError_snd]
    | some argv =>
      have h := pushArgs_cases A m errorOut
        ((List.range argc).map argv) []
      rw [List.map_map] at h
      exact h

/-- A configuration pointer is null, or it leads to a configuration, or nobody knows. -/
theorem configMut_cases (config : Option Nat) :
    (config = none ∧ ∃ message, configMut A config errorOut m =
        some (none, (writeError A errorOut message SOCKD_ERR_NULL m).2)) ∨
      (∃ ptr c, config = some ptr ∧ m.heap.block ptr = some (.config c) ∧
        configMut A config errorOut m = some (some (ptr, c), m)) ∨
      ∃ ptr, config = some ptr ∧ (∀ c, m.heap.block ptr ≠ some (.config c)) ∧
        configMut A config errorOut m = none := by
  cases config with
  | none => exact .inl ⟨rfl, _, rfl⟩
  | some ptr =>
    unfold configMut
    dsimp only
    split
    next c hblock => exact .inr (.inl ⟨ptr, c, rfl, hblock, rfl⟩)
    next hother => exact .inr (.inr ⟨ptr, rfl, hother, rfl⟩)

end Helpers

/-- What may come of a call. -/
def Call.Outcome (m : Memory) (call : Call) : Defined (Ret × Memory) → Prop
  | none => ¬ call.Safe m
  | some (out, m') => Effect A m call out m'

section Outcomes

variable {A} {m : Memory} {call : Call}

theorem outcome_reported (call : Call) (htakes : call.takes = none) {code : Nat}
    (hcode : code ≠ SOCKD_OK) (message : String) :
    call.Outcome A m (coded (some (writeError A call.errorOut message code m))) := by
  have heffect : Effect A m call (.code code) (writeError A call.errorOut message code m).2 :=
    .reported code message hcode htakes
  show Effect A m call (.code (writeError A call.errorOut message code m).1) _
  rwa [writeError_fst]

theorem outcome_undefined {ptr : Nat} (huses : call.uses = some ptr)
    (hblock : ∀ c, m.heap.block ptr ≠ some (.config c)) : call.Outcome A m (coded none) := by
  intro hsafe
  obtain ⟨c, hc⟩ := hsafe.uses ptr huses
  exact hblock c hc

/-- A setter, when its arguments are read to what it should set. -/
theorem outcome_set (hsetter : call.isSetter = true) (htakes : call.takes = none)
    {value : Memory → Option (SockdClientConfig → SockdClientConfig) × Memory}
    (hvalue : value m = (some call.configured, m) ∨
      ∃ message, value m = (none, (writeError A call.errorOut message SOCKD_ERR_UTF8 m).2)) :
    call.Outcome A m (coded (set A call.uses call.errorOut value m)) := by
  unfold set
  rcases configMut_cases A m call.errorOut call.uses with
    ⟨-, message, hconfig⟩ | ⟨ptr, c, huses, hblock, hconfig⟩ | ⟨ptr, huses, hblock, hconfig⟩
  · rw [hconfig]
    exact .reported SOCKD_ERR_NULL message (by decide) htakes
  · rw [hconfig]
    dsimp only
    rcases hvalue with hread | ⟨message, hread⟩
    · rw [hread]
      exact .configured ptr c hsetter huses hblock
    · rw [hread]
      exact .reported SOCKD_ERR_UTF8 message (by decide) htakes
  · rw [hconfig]
    exact outcome_undefined huses hblock

/-- An operation, when it is right from where its configuration is known. -/
theorem outcome_withConfig (call : Call) (htakes : call.takes = none)
    {k : SockdClientConfig → Sys S (Defined (Nat × Memory))} {tr : List (Event (sysSig S))}
    {r : Defined (Nat × Memory)}
    (hk : ∀ c, Returns (k c) tr r → call.Outcome A m (coded r))
    (h : Returns (withConfig A call.uses call.errorOut m k) tr r) :
    call.Outcome A m (coded r) := by
  unfold withConfig at h
  rcases configMut_cases A m call.errorOut call.uses with
    ⟨-, message, hconfig⟩ | ⟨ptr, c, huses, hblock, hconfig⟩ | ⟨ptr, huses, hblock, hconfig⟩
  · rw [hconfig] at h
    obtain ⟨-, rfl⟩ := returns_ret_iff.mp h
    exact .reported SOCKD_ERR_NULL message (by decide) htakes
  · rw [hconfig] at h
    exact hk c h
  · rw [hconfig] at h
    obtain ⟨-, rfl⟩ := returns_ret_iff.mp h
    exact outcome_undefined huses hblock

/-- The end of an operation, when its success is right. -/
theorem outcome_finish {α : Type} (call : Call) (htakes : call.takes = none) {c : SockdClientConfig}
    {ok : α → Memory} (hok : ∀ a, Effect A m call (.code SOCKD_OK) (ok a))
    (result : Except Error α) :
    call.Outcome A m (coded (finish A c call.errorOut m ok result)) := by
  cases result with
  | ok a => exact hok a
  | error err => exact outcome_reported call htakes (by decide) _

end Outcomes

theorem heap_deliver (ptrOut lenOut : Nat) (m : Memory) (response : Bytes) :
    (deliver A ptrOut lenOut m response).heap =
      if response = [] then m.heap else (m.heap.alloc A (.buffer response)).2 := by
  unfold deliver forget
  by_cases hempty : response = []
  · rw [if_pos hempty, if_pos hempty]
  · rw [if_neg hempty, if_neg hempty]

/-- A response is handed out with its length, and an empty one is not handed out. -/
theorem response_deliver (config : Option Nat) (requestPtr : Option (Nat → UInt8))
    (requestLen ptrOut lenOut : Nat) (errorOut : Option Nat) (m : Memory) (response : Bytes) :
    (Call.request config requestPtr requestLen (some ptrOut) (some lenOut) errorOut).response
        (deliver A ptrOut lenOut m response) =
      if response = [] then none
      else some ((m.heap.alloc A (.buffer response)).1, .buffer response.length) := by
  have hresponse : ∀ (m' : Memory) (ptr : Nat), m'.responses ptrOut = some ptr →
      m'.lengths lenOut = response.length →
      (Call.request config requestPtr requestLen (some ptrOut) (some lenOut) errorOut).response m' =
        if response = [] then none else some (ptr, .buffer response.length) := by
    intro m' ptr hptr hlen
    unfold Call.response
    dsimp only
    rw [hptr, hlen]
    exact if_congr List.length_eq_zero_iff rfl rfl
  unfold deliver forget
  by_cases hempty : response = []
  · rw [if_pos hempty]
    exact hresponse _ dangling (Function.update_self ..) (Function.update_self ..) |>.trans
      (if_pos hempty) |>.trans (if_pos hempty).symm
  · rw [if_neg hempty]
    exact hresponse _ _ (Function.update_self ..) (Function.update_self ..) |>.trans (if_neg hempty)
      |>.trans (if_neg hempty).symm

theorem deliver_effect (m : Memory) (config : Option Nat) (requestPtr : Option (Nat → UInt8))
    (requestLen ptrOut lenOut : Nat) (errorOut : Option Nat) (response : Bytes) :
    Effect A m (.request config requestPtr requestLen (some ptrOut) (some lenOut) errorOut)
      (.code SOCKD_OK) (deliver A ptrOut lenOut m response) := by
  have hheap := heap_deliver A ptrOut lenOut m response
  have hresponse :=
    response_deliver A config requestPtr requestLen ptrOut lenOut errorOut m response
  by_cases hempty : response = []
  · rw [if_pos hempty] at hheap hresponse
    exact .answered _ rfl rfl hheap hresponse
  · rw [if_neg hempty] at hheap hresponse
    exact .delivered _ response rfl rfl hheap hresponse

/-- Every call does one of these things, or it lacked what it needs. -/
theorem run_outcome {m : Memory} {call : Call} {tr : List (Event (sysSig S))}
    {r : Defined (Ret × Memory)} (h : Returns (call.run N A m) tr r) :
    call.Outcome A m r := by
  cases call with
  | configNew socketPath =>
    obtain ⟨-, rfl⟩ := returns_ret_iff.mp h
    rcases cString_cases socketPath with hread | ⟨message, hread⟩
    · rw [hread]
      exact .created socketPath rfl
    · rw [hread]
      exact .refused rfl
  | configFree config =>
    obtain ⟨-, rfl⟩ := returns_ret_iff.mp h
    cases config with
    | none => exact .nothing rfl
    | some ptr =>
      unfold sockdClientConfigFree
      dsimp only
      split
      next c _ => exact .released (ptr, .config) rfl
      next hother =>
        intro hsafe
        obtain ⟨b, hb, hkind, -⟩ := hsafe.takes (ptr, .config) rfl
        cases b with
        | config c => exact hother c hb
        | string bytes => cases hkind
        | buffer bytes => cases hkind
  | setPidFile config pidFile errorOut =>
    obtain ⟨-, rfl⟩ := returns_ret_iff.mp h
    refine outcome_set rfl rfl ?_
    rcases cStringResult_cases A m errorOut pidFile with
      hread | ⟨message, hread⟩
    · rw [hread]
      exact .inl rfl
    · rw [hread]
      exact .inr ⟨message, rfl⟩
  | setAutoStart config program argc argv errorOut =>
    obtain ⟨-, rfl⟩ := returns_ret_iff.mp h
    refine outcome_set rfl rfl ?_
    rcases cStringResult_cases A m errorOut program with
      hread | ⟨message, hread⟩
    · rw [hread]
      dsimp only
      rcases cStringVec_cases A m errorOut argc argv with
        hargs | ⟨message, hargs⟩
      · rw [hargs]
        exact .inl rfl
      · rw [hargs]
        exact .inr ⟨message, rfl⟩
    · rw [hread]
      exact .inr ⟨message, rfl⟩
  | setMaxPayloadLen config maxPayloadLen errorOut =>
    obtain ⟨-, rfl⟩ := returns_ret_iff.mp h
    exact outcome_set rfl rfl (.inl rfl)
  | setShutdownTimeoutMs config shutdownTimeoutMs errorOut =>
    obtain ⟨-, rfl⟩ := returns_ret_iff.mp h
    exact outcome_set rfl rfl (.inl rfl)
  | ping config errorOut =>
    obtain ⟨t, u, result, rfl, hping, hret⟩ := returns_bind_iff.mp h
    obtain ⟨-, rfl⟩ := returns_ret_iff.mp hret
    refine outcome_withConfig (.ping config errorOut) rfl (fun c hc => ?_) hping
    obtain ⟨t, u, pong, rfl, -, hret⟩ := returns_bind_iff.mp hc
    obtain ⟨-, rfl⟩ := returns_ret_iff.mp hret
    exact outcome_finish (.ping config errorOut) rfl (fun _ => .answered m rfl rfl rfl rfl) pong
  | request config requestPtr requestLen responsePtrOut responseLenOut errorOut =>
    obtain ⟨t, u, result, rfl, hrequest, hret⟩ := returns_bind_iff.mp h
    obtain ⟨-, rfl⟩ := returns_ret_iff.mp hret
    refine outcome_withConfig (.request config requestPtr requestLen responsePtrOut responseLenOut
      errorOut) rfl (fun c hc => ?_) hrequest
    have hnull : ∀ message, (Call.request config requestPtr requestLen responsePtrOut
        responseLenOut errorOut).Outcome A m
          (coded (some (writeError A errorOut message SOCKD_ERR_NULL m))) :=
      outcome_reported _ rfl (by decide)
    cases responsePtrOut with
    | none =>
      obtain ⟨-, rfl⟩ := returns_ret_iff.mp hc
      exact hnull _
    | some ptrOut =>
      cases responseLenOut with
      | none =>
        obtain ⟨-, rfl⟩ := returns_ret_iff.mp hc
        exact hnull _
      | some lenOut =>
        have hok := deliver_effect A m config requestPtr requestLen ptrOut lenOut errorOut
        dsimp only at hc
        split at hc
        · obtain ⟨t, u, response, rfl, -, hret⟩ := returns_bind_iff.mp hc
          obtain ⟨-, rfl⟩ := returns_ret_iff.mp hret
          exact outcome_finish _ rfl hok response
        · cases requestPtr with
          | none =>
            obtain ⟨-, rfl⟩ := returns_ret_iff.mp hc
            exact hnull _
          | some bytes =>
            obtain ⟨t, u, response, rfl, -, hret⟩ := returns_bind_iff.mp hc
            obtain ⟨-, rfl⟩ := returns_ret_iff.mp hret
            exact outcome_finish _ rfl hok response
  | shutdown config stoppedOut errorOut =>
    obtain ⟨t, u, result, rfl, hshutdown, hret⟩ := returns_bind_iff.mp h
    obtain ⟨-, rfl⟩ := returns_ret_iff.mp hret
    refine outcome_withConfig (.shutdown config stoppedOut errorOut) rfl (fun c hc => ?_) hshutdown
    cases stoppedOut with
    | none =>
      obtain ⟨-, rfl⟩ := returns_ret_iff.mp hc
      exact outcome_reported (.shutdown config none errorOut) rfl (by decide) _
    | some slot =>
      obtain ⟨t, u, ack, rfl, -, hret⟩ := returns_bind_iff.mp hc
      obtain ⟨-, rfl⟩ := returns_ret_iff.mp hret
      have hok : ∀ stopped, Effect A m (.shutdown config (some slot) errorOut) (.code SOCKD_OK)
          { m with stopped := Function.update m.stopped slot stopped } :=
        fun _ => .answered _ rfl rfl rfl rfl
      exact outcome_finish _ rfl hok ack
  | bufferFree ptr len =>
    obtain ⟨-, rfl⟩ := returns_ret_iff.mp h
    cases ptr with
    | none => exact .nothing (ite_self none)
    | some ptr =>
      unfold sockdBufferFree
      by_cases hlen : len = 0
      · dsimp only
        rw [if_pos hlen]
        exact .nothing (if_pos hlen)
      have htakes : (Call.bufferFree (some ptr) len).takes = some (ptr, .buffer len) := if_neg hlen
      dsimp only
      rw [if_neg hlen]
      split
      next bytes hblock =>
        split
        next => exact .released (ptr, .buffer len) htakes
        next hlength =>
          intro hsafe
          obtain ⟨b, hb, hkind, -⟩ := hsafe.takes _ htakes
          obtain rfl := Option.some.inj (hblock.symm.trans hb)
          exact hlength (Kind.buffer.inj hkind)
      next hother =>
        intro hsafe
        obtain ⟨b, hb, hkind, -⟩ := hsafe.takes _ htakes
        cases b with
        | config c => cases hkind
        | string bytes => cases hkind
        | buffer bytes => exact hother bytes hb
  | stringFree ptr =>
    obtain ⟨-, rfl⟩ := returns_ret_iff.mp h
    cases ptr with
    | none => exact .nothing rfl
    | some ptr =>
      unfold sockdStringFree
      dsimp only
      split
      next bytes hblock =>
        split
        next => exact .released (ptr, .string) rfl
        next hlength =>
          intro hsafe
          obtain ⟨b, hb, -, hproper⟩ := hsafe.takes (ptr, .string) rfl
          obtain rfl := Option.some.inj (hblock.symm.trans hb)
          exact hlength (strlen_proper hproper)
      next hother =>
        intro hsafe
        obtain ⟨b, hb, hkind, -⟩ := hsafe.takes (ptr, .string) rfl
        cases b with
        | config c => cases hkind
        | string bytes => exact hother bytes hb
        | buffer bytes => cases hkind

/-! ## What the caller owns is what is in use -/

/-- The caller owns the blocks in use, and they are as they were allocated. -/
structure Orderly (m : Memory) (owned : List (Nat × Kind)) : Prop where
  owns : Owns m.heap Block.kind owned
  proper : ∀ p b, m.heap.block p = some b → b.Proper

section Orderly

variable {A} {m : Memory} {owned : List (Nat × Kind)} {call : Call}

/-- A permitted call has what it needs. -/
theorem Orderly.safe (h : Orderly m owned) (hcall : call.Permitted owned) : call.Safe m where
  uses := by
    intro ptr huses
    obtain ⟨b, hb, hkind⟩ := h.owns.block (hcall.uses ptr huses)
    cases b with
    | config c => exact ⟨c, hb⟩
    | string bytes => cases hkind
    | buffer bytes => cases hkind
  takes := by
    intro x htakes
    obtain ⟨b, hb, hkind⟩ := h.owns.block (hcall.takes x htakes)
    exact ⟨b, hb, hkind, h.proper x.1 b hb⟩

theorem Orderly.alloc (h : Orderly m owned) {b : Block} (hb : b.Proper) {m' : Memory}
    (hheap : m'.heap = (m.heap.alloc A b).2) :
    Orderly m' (((m.heap.alloc A b).1, b.kind) :: owned) := by
  refine ⟨hheap ▸ h.owns.alloc A b, fun p b' hp => ?_⟩
  rw [hheap] at hp
  by_cases he : p = (m.heap.alloc A b).1
  · rw [he, Heap.block_alloc_self] at hp
    exact Option.some.inj hp ▸ hb
  · exact h.proper p b' ((m.heap.block_set_of_ne he _).symm.trans hp)

theorem Orderly.free (h : Orderly m owned) {x : Nat × Kind} (hx : x ∈ owned) :
    Orderly { m with heap := m.heap.free x.1 } (owned.erase x) := by
  refine ⟨h.owns.free hx, fun p b hp => ?_⟩
  by_cases he : p = x.1
  · subst he
    rw [Heap.free, Heap.block_set_self] at hp
    cases hp
  · exact h.proper p b ((m.heap.block_set_of_ne he _).symm.trans hp)

theorem Call.after_eq {out : Ret} {m' : Memory} (htakes : call.takes = none) :
    call.after owned out m' = (call.gives m' out).toList ++ owned := by
  rw [Call.after, htakes]

theorem errorBytes_proper (message : String) : (Block.string (errorBytes message)).Proper :=
  ⟨_, by simp, rfl⟩

/-- Setters hand nothing out and release nothing. -/
theorem Call.setter_neutral (h : call.isSetter = true) (m : Memory) :
    call.response m = none ∧ call.takes = none := by
  cases call <;> first | exact ⟨rfl, rfl⟩ | cases h

/-- The rules are kept by what a call does. -/
theorem Effect.orderly {out : Ret} {m' : Memory} (he : Effect A m call out m')
    (h : Orderly m owned) (hcall : call.Permitted owned) :
    Orderly m' (call.after owned out m') := by
  cases he with
  | reported code message hcode htakes =>
    rw [Call.after_eq htakes, Call.gives]
    rw [if_neg hcode]
    cases hslot : call.errorOut with
    | none => exact h
    | some slot =>
      have hptr : (writeError A (some slot) message code m).2.errors slot =
          some (m.heap.alloc A (.string (errorBytes message))).1 := Function.update_self ..
      rw [Option.bind_some, hptr]
      exact h.alloc (errorBytes_proper message) rfl
  | refused htakes =>
    rw [Call.after_eq htakes]
    exact h
  | created socketPath hnew =>
    subst hnew
    exact h.alloc (b := .config { socketPath := textOf socketPath }) trivial rfl
  | configured ptr c hsetter huses hblock =>
    obtain ⟨hresponse, htakes⟩ := Call.setter_neutral hsetter
      { m with heap := m.heap.set ptr (some (.config (call.configured c))) }
    rw [Call.after_eq htakes, Call.gives]
    dsimp only
    rw [if_pos rfl, hresponse]
    refine ⟨h.owns.write (hcall.uses ptr huses), fun p b hp => ?_⟩
    by_cases hne : p = ptr
    · rw [hne, Heap.block_set_self] at hp
      exact Option.some.inj hp ▸ trivial
    · exact h.proper p b ((m.heap.block_set_of_ne hne _).symm.trans hp)
  | answered m' _ htakes hheap hresponse =>
    rw [Call.after_eq htakes, Call.gives]
    rw [if_pos rfl, hresponse]
    exact ⟨hheap ▸ h.owns, hheap ▸ h.proper⟩
  | delivered m' response _ htakes hheap hresponse =>
    rw [Call.after_eq htakes, Call.gives]
    rw [if_pos rfl, hresponse]
    exact h.alloc (b := .buffer response) trivial hheap
  | released x htakes =>
    rw [Call.after, htakes]
    exact h.free (hcall.takes x htakes)
  | nothing htakes =>
    rw [Call.after_eq htakes]
    exact h

end Orderly

variable {N A}

/-- After every session the caller owns the blocks in use. -/
theorem Session.orderly {calls : List (Made S)} {m : Memory} (h : Session N A calls m) :
    Orderly m (owned calls) := by
  induction h with
  | start hempty => exact ⟨hempty ▸ Owns.empty, fun p b hp => by rw [hempty] at hp; cases hp⟩
  | @call calls m m' call out tr _ hcall hrun ih =>
    have heffect : Effect A m call out m' := run_outcome N A hrun
    rw [owned, List.foldl_append]
    exact heffect.orderly ih hcall

/-- A caller that keeps to the rules of the header makes no call with undefined behaviour. -/
theorem session_defined {calls : List (Made S)} {m : Memory} (h : Session N A calls m)
    {call : Call} (hcall : call.Permitted (owned calls)) {tr : List (Event (sysSig S))}
    {result : Defined (Ret × Memory)} (hrun : Returns (call.run N A m) tr result) :
    ∃ out m', result = some (out, m') ∧ Session N A (calls ++ [⟨call, out, m', tr⟩]) m' := by
  cases result with
  | none => exact absurd (h.orderly.safe hcall) (run_outcome N A hrun)
  | some r => exact ⟨r.1, r.2, rfl, .call h hcall hrun⟩

/-- The blocks in use are those that were handed out and not released, each as what it was
handed out; so no block is in use when the caller has released all it got. -/
theorem session_owns {calls : List (Made S)} {m : Memory} (h : Session N A calls m) :
    ((owned calls).map Prod.fst).Nodup ∧
      (∀ x : Nat × Kind, x ∈ owned calls ↔ (m.heap.block x.1).map Block.kind = some x.2) ∧
      (owned calls = [] → ∀ p, m.heap.block p = none) := by
  have howns := h.orderly.owns
  refine ⟨howns.once, howns.mem_iff, fun hnone p => ?_⟩
  rw [hnone] at howns
  exact howns.block_eq_none p

/-- Texts name paths of one component. -/
def plainNaming : Naming := ⟨fun text => [text], fun text => [text]⟩

/-- Nothing is allocated, and the variables are zero. -/
def blank : Memory := ⟨.empty, fun _ => none, fun _ => none, fun _ => 0, fun _ => false⟩

/-- `sockd_client_config_new("s")`. -/
def madeNew : Made Unit :=
  ⟨.configNew (some [0x73]), .config (some 0),
    (sockdClientConfigNew (.upward Block) (some [0x73]) blank).2, []⟩

/-- `sockd_client_config_set_max_payload_len(config, 8, NULL)`. -/
def madeSet : Made Unit :=
  ⟨.setMaxPayloadLen (some 0) 8 none, .code SOCKD_OK,
    { madeNew.memory with
      heap := madeNew.memory.heap.set 0
        (some (.config { socketPath := "s", maxPayloadLen := 8 })) }, []⟩

/-- `sockd_client_ping(config, &error)`, when no daemon is there. -/
def madePing : Made Unit :=
  ⟨.ping (some 0) (some 0), .code SOCKD_ERR_OPERATION,
    (writeError (.upward Block) (some 0) "not found" SOCKD_ERR_OPERATION madeSet.memory).2,
    [⟨.connect ["s"], .error ⟨.notFound, "not found"⟩⟩]⟩

theorem session_new : Session plainNaming (.upward Block) [madeNew] madeNew.memory := by
  have hstart : Session plainNaming (.upward Block) ([] : List (Made Unit)) blank := .start rfl
  exact hstart.call ⟨nofun, nofun⟩ .refl

theorem session_set : Session plainNaming (.upward Block) [madeNew, madeSet] madeSet.memory := by
  refine session_new.call ⟨?_, nofun⟩ .refl
  decide

theorem session_ping :
    Session plainNaming (.upward Block) [madeNew, madeSet, madePing] madePing.memory := by
  refine session_set.call ⟨?_, nofun⟩ ?_
  · decide
  · exact returns_of_follow 10 rfl

theorem session_defined_ping :
    ∃ out m', some (madePing.ret, madePing.memory) = some (out, m') ∧
      Session plainNaming (.upward Block) ([madeNew, madeSet] ++
        [⟨madePing.call, out, m', madePing.trace⟩]) m' := by
  have hpermitted : madePing.call.Permitted (owned [madeNew, madeSet]) := ⟨by decide, nofun⟩
  exact session_defined session_set hpermitted (returns_of_follow 10 rfl)

theorem session_owns_ping :
    ((owned [madeNew, madeSet, madePing]).map Prod.fst).Nodup ∧
      (∀ x : Nat × Kind, x ∈ owned [madeNew, madeSet, madePing] ↔
        (madePing.memory.heap.block x.1).map Block.kind = some x.2) ∧
      (owned [madeNew, madeSet, madePing] = [] → ∀ p, madePing.memory.heap.block p = none) :=
  session_owns session_ping

end Sockd.Capi
