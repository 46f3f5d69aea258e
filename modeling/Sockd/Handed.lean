import Sockd.Ownership

/-!
# What the C interface hands out

A configuration of a session has, for each setting, the value of the last call that set it
successfully (`Session.config`). An operation on it is one call of the client that has these
settings, and what the operation hands out, a response or the text of an error, stays as it
is until the caller releases it, whatever other calls come in between (`session_operation`).
-/

namespace Sockd.Capi

open C Rust Effects Prog

variable {S : Type} {N : Naming} {A : Allocator Block}

/-! ## Parts of a session -/

/-- A session up to some call. -/
theorem Session.split {before since : List (Made S)} {m : Memory}
    (h : Session N A (before ++ since) m) : ∃ m₁, Session N A before m₁ := by
  induction since using List.reverseRecOn generalizing m with
  | nil => exact ⟨m, by rwa [List.append_nil] at h⟩
  | append_singleton since made ih =>
    rw [← List.append_assoc] at h
    generalize hcalls : before ++ since ++ [made] = calls at h
    cases h with
    | start => simp at hcalls
    | call hrest _ _ =>
      obtain ⟨rfl, -⟩ := List.append_inj' hcalls rfl
      exact ih hrest

/-- The last call of a session. -/
theorem Session.last {calls : List (Made S)} {made : Made S} {m : Memory}
    (h : Session N A (calls ++ [made]) m) :
    m = made.memory ∧ ∃ m₁, Session N A calls m₁ ∧ made.call.Permitted (owned calls) ∧
      Returns (made.call.run N A m₁) made.trace (some (made.ret, made.memory)) := by
  generalize hcalls : calls ++ [made] = all at h
  cases h with
  | start => simp at hcalls
  | @call calls' m₁ _ call out tr hrest hpermitted hrun =>
    obtain ⟨rfl, hmade⟩ := List.append_inj' hcalls rfl
    obtain rfl := List.singleton_inj.mp hmade
    exact ⟨rfl, m₁, hrest, hpermitted, hrun⟩

/-- The call does not release the block at this address. -/
def Call.Keeps (call : Call) (ptr : Nat) : Prop := ∀ kind, call.takes ≠ some (ptr, kind)

section Blocks

variable {m m' : Memory} {call : Call} {out : Ret} {ptr : Nat}

/-- A configuration that is not released is what the setters make of it. -/
theorem Effect.config (he : Effect A m call out m') (hkeeps : call.Keeps ptr)
    {c : SockdClientConfig} (hblock : m.heap.block ptr = some (.config c)) :
    m'.heap.block ptr = some (.config
      (if call.isSetter = true ∧ call.uses = some ptr ∧ out = .code SOCKD_OK then call.configured c
        else c)) := by
  cases he with
  | reported code message hcode htakes =>
    rw [if_neg fun h => hcode (Ret.code.inj h.2.2)]
    cases call.errorOut with
    | none => exact hblock
    | some slot => exact m.heap.block_alloc_of_some A _ hblock
  | refused htakes =>
    rw [if_neg (by simp)]
    exact hblock
  | created socketPath hnew =>
    rw [if_neg (by simp)]
    exact m.heap.block_alloc_of_some A _ hblock
  | configured ptr' c' hsetter huses hblock' =>
    by_cases hptr : ptr' = ptr
    · subst hptr
      obtain rfl := Block.config.inj (Option.some.inj (hblock.symm.trans hblock'))
      rw [if_pos ⟨hsetter, huses, rfl⟩]
      exact m.heap.block_set_self _ _
    · rw [if_neg fun h => hptr (Option.some.inj (huses.symm.trans h.2.1))]
      exact (m.heap.block_set_of_ne (Ne.symm hptr) _).trans hblock
  | answered m' hsetter _ hheap _ =>
    rw [if_neg (by simp [hsetter]), hheap]
    exact hblock
  | delivered m' response hsetter _ hheap _ =>
    rw [if_neg (by simp [hsetter]), hheap]
    exact m.heap.block_alloc_of_some A _ hblock
  | released x htakes =>
    rw [if_neg (by simp)]
    have hne : ptr ≠ x.1 := fun he => hkeeps x.2 (by rw [htakes, he])
    exact (m.heap.block_set_of_ne hne _).trans hblock
  | nothing _ =>
    rw [if_neg (by simp)]
    exact hblock

/-- Anything else that is not released stays as it is. -/
theorem Effect.kept (he : Effect A m call out m') (hkeeps : call.Keeps ptr) {b : Block}
    (hblock : m.heap.block ptr = some b) (hb : ∀ c, b ≠ .config c) :
    m'.heap.block ptr = some b := by
  cases he with
  | reported code message hcode htakes =>
    cases call.errorOut with
    | none => exact hblock
    | some slot => exact m.heap.block_alloc_of_some A _ hblock
  | refused htakes => exact hblock
  | created socketPath hnew => exact m.heap.block_alloc_of_some A _ hblock
  | configured ptr' c' hsetter huses hblock' =>
    have hne : ptr ≠ ptr' := by
      rintro rfl
      exact hb c' (Option.some.inj (hblock.symm.trans hblock'))
    exact (m.heap.block_set_of_ne hne _).trans hblock
  | answered m' hsetter _ hheap _ =>
    rw [hheap]
    exact hblock
  | delivered m' response hsetter _ hheap _ =>
    rw [hheap]
    exact m.heap.block_alloc_of_some A _ hblock
  | released x htakes =>
    have hne : ptr ≠ x.1 := fun he => hkeeps x.2 (by rw [htakes, he])
    exact (m.heap.block_set_of_ne hne _).trans hblock
  | nothing _ => exact hblock

end Blocks

/-- A string or a buffer stays as it is through the calls that do not release it. -/
theorem Session.kept {before since : List (Made S)} {made : Made S} {m : Memory}
    (h : Session N A (before ++ made :: since) m) {ptr : Nat}
    (hkeeps : ∀ later ∈ since, later.call.Keeps ptr) {b : Block}
    (hblock : made.memory.heap.block ptr = some b) (hb : ∀ c, b ≠ .config c) :
    m.heap.block ptr = some b := by
  induction since using List.reverseRecOn generalizing m with
  | nil => exact h.last.1 ▸ hblock
  | append_singleton since later ih =>
    rw [← List.cons_append, ← List.append_assoc] at h
    obtain ⟨rfl, m₁, hrest, -, hrun⟩ := h.last
    have heffect : Effect A m₁ later.call later.ret later.memory := run_outcome N A hrun
    refine heffect.kept (hkeeps later (by simp)) ?_ hb
    exact ih hrest fun later' hlater' => hkeeps later' (by simp [hlater'])

/-! ## Settings -/

namespace Call

/-- What the call gives for the PID file. -/
def pidFile? : Call → Option String
  | setPidFile _ pidFile _ => some (textOf pidFile)
  | _ => none

/-- What it gives for the program to start, and its arguments. -/
def autoStart? : Call → Option (String × List String)
  | setAutoStart _ program argc argv _ =>
    some (textOf program, (List.range argc).map fun i => textOf (argv.bind fun argv => argv i))
  | _ => none

/-- What it gives for the payload limit. -/
def maxPayloadLen? : Call → Option Nat
  | setMaxPayloadLen _ maxPayloadLen _ => some maxPayloadLen
  | _ => none

/-- What it gives for the timeout of a shutdown. -/
def shutdownTimeoutMs? : Call → Option Nat
  | setShutdownTimeoutMs _ shutdownTimeoutMs _ => some shutdownTimeoutMs
  | _ => none

end Call

/-- The call succeeded on the configuration. -/
def Made.Set (made : Made S) (ptr : Nat) : Prop :=
  made.ret = .code SOCKD_OK ∧ made.call.uses = some ptr

instance (made : Made S) (ptr : Nat) : Decidable (made.Set ptr) :=
  inferInstanceAs (Decidable (_ ∧ _))

/-- What the last successful call gave. -/
def lastGiven {α : Type} (given : Call → Option α) (ptr : Nat) (calls : List (Made S)) : Option α :=
  ((calls.filter fun made => made.Set ptr).filterMap fun made => given made.call).getLast?

/-- The configuration that was created with this path, after these calls. -/
def configAfter (socketPath : CStr) (ptr : Nat) (calls : List (Made S)) : SockdClientConfig where
  socketPath := textOf socketPath
  pidFile := lastGiven Call.pidFile? ptr calls
  autoStartProgram := (lastGiven Call.autoStart? ptr calls).map Prod.fst
  autoStartArgs := ((lastGiven Call.autoStart? ptr calls).map Prod.snd).getD []
  maxPayloadLen := (lastGiven Call.maxPayloadLen? ptr calls).getD defaultMaxPayloadLen
  shutdownTimeoutMs := (lastGiven Call.shutdownTimeoutMs? ptr calls).getD 2000

section Settings

variable {α : Type} {ptr : Nat} {calls : List (Made S)} {made : Made S}

theorem lastGiven_of_set (given : Call → Option α) (hset : made.Set ptr) :
    lastGiven given ptr (calls ++ [made]) = (given made.call).or (lastGiven given ptr calls) := by
  unfold lastGiven
  rw [List.filter_append, List.filter_cons_of_pos (by simpa using hset), List.filter_nil,
    List.filterMap_append, List.filterMap_cons, List.filterMap_nil]
  cases given made.call with
  | none => rw [List.append_nil, Option.none_or]
  | some v => rw [List.getLast?_concat, Option.some_or]

theorem lastGiven_of_not_set (given : Call → Option α) (hset : ¬ made.Set ptr) :
    lastGiven given ptr (calls ++ [made]) = lastGiven given ptr calls := by
  unfold lastGiven
  rw [List.filter_append, List.filter_cons_of_neg (by simpa using hset), List.filter_nil,
    List.append_nil]

/-- The last call, if it is a successful setter, gives its settings. -/
theorem configAfter_concat (socketPath : CStr) :
    configAfter socketPath ptr (calls ++ [made]) =
      if made.call.isSetter = true ∧ made.call.uses = some ptr ∧ made.ret = .code SOCKD_OK then
        made.call.configured (configAfter socketPath ptr calls)
      else configAfter socketPath ptr calls := by
  unfold configAfter
  by_cases hset : made.Set ptr
  · simp only [lastGiven_of_set _ hset]
    obtain ⟨hret, huses⟩ := hset
    obtain ⟨call, out, m⟩ := made
    cases call with
    | setPidFile | setAutoStart | setMaxPayloadLen | setShutdownTimeoutMs =>
      rw [if_pos ⟨rfl, huses, hret⟩]
      rfl
    | configNew | configFree | ping | request | shutdown | bufferFree | stringFree =>
      rw [if_neg fun h => Bool.false_ne_true h.1]
      rfl
  · simp only [lastGiven_of_not_set _ hset]
    rw [if_neg fun h => hset ⟨h.2.2, h.2.1⟩]

end Settings

/-- A configuration that was not released has for each setting the value of the last
successful call that set it, and a default when there was none. -/
theorem Session.config {before since : List (Made S)} {socketPath : CStr} {ptr : Nat}
    {m₀ m : Memory} {tr₀ : List (Event (sysSig S))} (h : Session N A
      (before ++ ⟨.configNew socketPath, .config (some ptr), m₀, tr₀⟩ :: since) m)
    (hkeeps : ∀ later ∈ since, later.call.Keeps ptr) :
    m.heap.block ptr = some (.config (configAfter socketPath ptr since)) := by
  induction since using List.reverseRecOn generalizing m with
  | nil =>
    obtain ⟨rfl, m₁, hrest, -, hrun⟩ := h.last
    have heffect : Effect A m₁ (.configNew socketPath) (.config (some ptr)) m :=
      run_outcome N A hrun
    generalize hout : Ret.config (some ptr) = out at heffect
    cases heffect with
    | created path hnew =>
      obtain rfl := Call.configNew.inj hnew
      obtain rfl := Option.some.inj (Ret.config.inj hout)
      exact m₁.heap.block_set_self _ _
    | reported => cases hout
    | refused => cases hout
    | configured => cases hout
    | answered => cases hout
    | delivered => cases hout
    | released => cases hout
    | nothing => cases hout
  | append_singleton since later ih =>
    rw [← List.cons_append, ← List.append_assoc] at h
    obtain ⟨rfl, m₁, hrest, -, hrun⟩ := h.last
    have heffect : Effect A m₁ later.call later.ret later.memory := run_outcome N A hrun
    rw [configAfter_concat]
    refine heffect.config (hkeeps later (by simp)) ?_
    exact ih hrest fun later' hlater' => hkeeps later' (by simp [hlater'])

/-! ## Operations -/

/-- What an operation of the client ends with. -/
inductive Result
  | pong
  | response (bytes : Bytes)
  | stopped (stopped : Bool)

/-- The operation of the client that the call is, unless an argument that it needs is null. -/
def Call.operation (client : Client) : Call → Option (Sys S (Except Error Result))
  | ping _ _ => some (client.ping.run.bind fun r => .ret (r.map fun _ => .pong))
  | request _ requestPtr requestLen (some _) (some _) _ =>
    if requestLen = 0 then
      some ((client.request []).run.bind fun r => .ret (r.map Result.response))
    else
      requestPtr.map fun bytes => (client.request ((List.range requestLen).map bytes)).run.bind
        fun r => .ret (r.map Result.response)
  | shutdown _ (some _) _ => some (client.shutdown.run.bind fun r => .ret (r.map Result.stopped))
  | _ => none

/-- How a call ends whose operation ended so. -/
inductive Finished (A : Allocator Block) (m : Memory) (c : SockdClientConfig) (call : Call) :
    Except Error Result → Ret → Memory → Prop
  | failed (err : Error) : Finished A m c call (.error err) (.code SOCKD_ERR_OPERATION)
      (writeError A call.errorOut (err.display fun _ => c.socketPath) SOCKD_ERR_OPERATION m).2
  | pong : Finished A m c call (.ok .pong) (.code SOCKD_OK) m
  | response {config : Option Nat} {requestPtr : Option (Nat → UInt8)} {requestLen : Nat}
      {ptrOut lenOut : Nat} {errorOut : Option Nat} (bytes : Bytes) :
      call = .request config requestPtr requestLen (some ptrOut) (some lenOut) errorOut →
      Finished A m c call (.ok (.response bytes)) (.code SOCKD_OK) (deliver A ptrOut lenOut m bytes)
  | stopped {config : Option Nat} {slot : Nat} {errorOut : Option Nat} (stopped : Bool) :
      call = .shutdown config (some slot) errorOut →
      Finished A m c call (.ok (.stopped stopped)) (.code SOCKD_OK)
        { m with stopped := Function.update m.stopped slot stopped }

section Operations

variable {m m' : Memory} {c : SockdClientConfig} {call : Call} {out : Ret} {ptr : Nat}
  {tr : List (Event (sysSig S))}

/-- The end of an operation. -/
theorem finished_of_finish {α : Type} (call : Call) (wrap : α → Result)
    {operation : Sys S (Except Error α)}
    {ok : α → Memory} (hok : ∀ a, Finished A m c call (.ok (wrap a)) (.code SOCKD_OK) (ok a))
    {r : Defined (Nat × Memory)} (h : Returns (operation.bind fun result =>
      .ret (finish A c call.errorOut m ok result)) tr r)
    (hr : coded r = some (out, m')) : ∃ result,
      Returns (operation.bind fun r => .ret (r.map wrap)) tr result ∧
        Finished A m c call result out m' := by
  obtain ⟨t, u, result, rfl, hrun, hret⟩ := returns_bind_iff.mp h
  obtain ⟨rfl, rfl⟩ := returns_ret_iff.mp hret
  refine ⟨result.map wrap, returns_bind_iff.mpr ⟨t, [], result, rfl, hrun, .refl⟩, ?_⟩
  cases result with
  | ok a =>
    obtain ⟨rfl, rfl⟩ := Prod.mk.inj (Option.some.inj hr)
    exact hok a
  | error err =>
    obtain ⟨rfl, rfl⟩ := Prod.mk.inj (Option.some.inj hr)
    show Finished A m c call (.error err) (.code (writeError ..).1) _
    rw [writeError_fst]
    exact .failed err

/-- A call on a configuration that is no setter is one operation of its client, or a pointer
was null. -/
theorem run_operation (hblock : m.heap.block ptr = some (.config c)) (huses : call.uses = some ptr)
    (hsetter : call.isSetter = false)
    (h : Returns (call.run N A m) tr (some (out, m'))) :
    (call.operation (S := S) (buildClient N c) = none ∧ out = .code SOCKD_ERR_NULL ∧ tr = []) ∨
      ∃ operation result, call.operation (buildClient N c) = some operation ∧
        Returns operation tr result ∧ Finished A m c call result out m' := by
  have hconfig : ∀ errorOut, configMut A (some ptr) errorOut m = some (some (ptr, c), m) := by
    intro errorOut
    unfold configMut
    dsimp only
    rw [hblock]
  -- an error that is found before the operation
  have hnull : ∀ {t u : List (Event (sysSig S))} {errorOut : Option Nat} {message : String}
      {r : Defined (Nat × Memory)},
      Returns (.ret (some (writeError A errorOut message SOCKD_ERR_NULL m))) t r →
      Returns (Prog.ret (coded r)) u (some (out, m')) →
      out = .code SOCKD_ERR_NULL ∧ t ++ u = [] := by
    intro t u errorOut message r hr hret
    obtain ⟨rfl, rfl⟩ := returns_ret_iff.mp hr
    obtain ⟨rfl, hr⟩ := returns_ret_iff.mp hret
    obtain ⟨rfl, -⟩ := Prod.mk.inj (Option.some.inj hr)
    exact ⟨by rw [writeError_fst], rfl⟩
  cases call with
  | configNew | configFree | bufferFree | stringFree => cases huses
  | setPidFile | setAutoStart | setMaxPayloadLen | setShutdownTimeoutMs => cases hsetter
  | ping config errorOut =>
    obtain rfl : config = some ptr := huses
    obtain ⟨t, u, r, rfl, hping, hret⟩ := returns_bind_iff.mp h
    obtain ⟨rfl, hr⟩ := returns_ret_iff.mp hret
    unfold sockdClientPing withConfig at hping
    rw [hconfig] at hping
    obtain ⟨result, hrun, hfinished⟩ := finished_of_finish (.ping (some ptr) errorOut)
      (fun _ => .pong) (fun _ => .pong) hping hr
    rw [List.append_nil]
    exact .inr ⟨_, result, rfl, hrun, hfinished⟩
  | request config requestPtr requestLen responsePtrOut responseLenOut errorOut =>
    obtain rfl : config = some ptr := huses
    obtain ⟨t, u, r, rfl, hrequest, hret⟩ := returns_bind_iff.mp h
    unfold sockdClientRequest withConfig at hrequest
    rw [hconfig] at hrequest
    dsimp only at hrequest
    match responsePtrOut, responseLenOut with
    | none, _ => exact .inl ⟨rfl, hnull hrequest hret⟩
    | some ptrOut, none => exact .inl ⟨rfl, hnull hrequest hret⟩
    | some ptrOut, some lenOut =>
      have hdone : ∀ payload, Returns (((buildClient N c).request payload).run.bind
          fun result => .ret (finish A c errorOut m (deliver A ptrOut lenOut m) result)) t r →
          ∃ result, Returns (((buildClient N c).request payload).run.bind
            fun r => .ret (r.map Result.response)) (t ++ u) result ∧
            Finished A m c (.request (some ptr) requestPtr requestLen (some ptrOut) (some lenOut)
              errorOut) result out m' := by
        intro payload hsend
        obtain ⟨rfl, hr⟩ := returns_ret_iff.mp hret
        rw [List.append_nil]
        exact finished_of_finish (.request (some ptr) requestPtr requestLen (some ptrOut)
          (some lenOut) errorOut) .response (fun bytes => .response bytes rfl) hsend hr
      unfold Call.operation
      dsimp only at hrequest ⊢
      by_cases hlen : requestLen = 0
      · rw [if_pos hlen] at hrequest ⊢
        obtain ⟨result, hrun, hfinished⟩ := hdone [] hrequest
        exact .inr ⟨_, result, rfl, hrun, hfinished⟩
      · rw [if_neg hlen] at hrequest ⊢
        cases requestPtr with
        | none => exact .inl ⟨rfl, hnull hrequest hret⟩
        | some bytes =>
          obtain ⟨result, hrun, hfinished⟩ := hdone _ hrequest
          exact .inr ⟨_, result, rfl, hrun, hfinished⟩
  | shutdown config stoppedOut errorOut =>
    obtain rfl : config = some ptr := huses
    obtain ⟨t, u, r, rfl, hshutdown, hret⟩ := returns_bind_iff.mp h
    unfold sockdClientShutdown withConfig at hshutdown
    rw [hconfig] at hshutdown
    cases stoppedOut with
    | none => exact .inl ⟨rfl, hnull hshutdown hret⟩
    | some slot =>
      obtain ⟨rfl, hr⟩ := returns_ret_iff.mp hret
      obtain ⟨result, hrun, hfinished⟩ := finished_of_finish
        (.shutdown (some ptr) (some slot) errorOut) .stopped (fun b => .stopped b rfl) hshutdown hr
      rw [List.append_nil]
      exact .inr ⟨_, result, rfl, hrun, hfinished⟩

end Operations

/-! ## What is handed out -/

/-- The call hands out a block with these contents, and it has them until it is released. -/
def Holds (made : Made S) (later : List (Made S)) (m : Memory) (b : Block) : Prop :=
  ∃ ptr, made.call.gives made.memory made.ret = some (ptr, b.kind) ∧
    ((∀ other ∈ later, other.call.Keeps ptr) → m.heap.block ptr = some b)

/-- How the call answers its caller when its operation ended so. -/
structure Answers (c : SockdClientConfig) (made : Made S) (later : List (Made S)) (m : Memory)
    (result : Except Error Result) : Prop where
  ok_iff : made.ret = .code SOCKD_OK ↔ ∃ r, result = .ok r
  error : ∀ err, result = .error err → made.ret = .code SOCKD_ERR_OPERATION ∧
    (made.call.errorOut ≠ none →
      Holds made later m (.string (errorBytes (err.display fun _ => c.socketPath))))
  response : ∀ bytes, result = .ok (.response bytes) →
    if bytes = [] then made.call.gives made.memory made.ret = none
    else Holds made later m (.buffer bytes)
  stopped : ∀ stopped config slot errorOut, result = .ok (.stopped stopped) →
    made.call = .shutdown config (some slot) errorOut → made.memory.stopped slot = stopped

section Answers

variable {before later : List (Made S)} {made : Made S} {m m₁ : Memory} {c : SockdClientConfig}
  {result : Except Error Result}

theorem Call.gives_error {call : Call} {code slot ptr : Nat} (hcode : code ≠ SOCKD_OK)
    (hslot : call.errorOut = some slot) (hptr : m.errors slot = some ptr) :
    call.gives m (.code code) = some (ptr, .string) := by
  unfold Call.gives
  dsimp only
  rw [if_neg hcode, hslot, Option.bind_some, hptr]
  rfl

/-- What an operation leaves is answered as it should be, and stays. -/
theorem Session.answers (h : Session N A (before ++ made :: later) m)
    (hfinished : Finished A m₁ c made.call result made.ret made.memory) :
    Answers c made later m result := by
  have hholds : ∀ (ptr : Nat) (b : Block), (∀ c, b ≠ .config c) →
      made.call.gives made.memory made.ret = some (ptr, b.kind) →
      made.memory.heap.block ptr = some b → Holds made later m b :=
    fun _ _ hb hgives hblock => ⟨_, hgives, fun hkeeps => h.kept hkeeps hblock hb⟩
  obtain ⟨call, out, m₂⟩ := made
  dsimp only at hfinished hholds
  cases hfinished with
  | failed err =>
    refine ⟨⟨nofun, nofun⟩, fun err' he => ?_, nofun, nofun⟩
    obtain rfl := Except.error.inj he
    refine ⟨rfl, fun hout => ?_⟩
    obtain ⟨slot, hslot⟩ := Option.ne_none_iff_exists'.mp hout
    dsimp only at hslot
    refine hholds (m₁.heap.alloc A (.string (errorBytes (err.display fun _ => c.socketPath)))).1
      _ nofun ?_ ?_
    · refine Call.gives_error (by decide) hslot ?_
      rw [hslot]
      exact Function.update_self ..
    · rw [hslot]
      exact m₁.heap.block_alloc_self A _
  | pong => exact ⟨⟨fun _ => ⟨_, rfl⟩, fun _ => rfl⟩, nofun, nofun, nofun⟩
  | @response config requestPtr requestLen ptrOut lenOut errorOut bytes hcall =>
    subst hcall
    refine ⟨⟨fun _ => ⟨_, rfl⟩, fun _ => rfl⟩, nofun, fun bytes' he => ?_, nofun⟩
    injection he with he
    injection he with he
    subst he
    have hheap := heap_deliver A ptrOut lenOut m₁ bytes
    have hresponse :=
      response_deliver A config requestPtr requestLen ptrOut lenOut errorOut m₁ bytes
    split
    next hempty =>
      rw [if_pos hempty] at hresponse
      exact hresponse
    next hne =>
      rw [if_neg hne] at hheap hresponse
      refine hholds _ _ nofun hresponse ?_
      rw [hheap]
      exact m₁.heap.block_alloc_self A _
  | @stopped config slot errorOut stopped hcall =>
    subst hcall
    refine ⟨⟨fun _ => ⟨_, rfl⟩, fun _ => rfl⟩, nofun, nofun, ?_⟩
    intro stopped' config' slot' errorOut' he hcall
    injection he with he
    injection he with he
    injection hcall with _ hslot _
    injection hslot with hslot
    subst he hslot
    exact Function.update_self ..

end Answers

/-- An operation on a configuration that was not released is one operation of the client that
has the settings given last, and its answer stays. When a pointer that it needs is null it is
none, and nothing is asked of the surroundings. -/
theorem session_operation {before since later : List (Made S)} {socketPath : CStr} {ptr : Nat}
    {m₀ m : Memory} {tr₀ : List (Event (sysSig S))} {made : Made S} (h : Session N A
      (before ++ ⟨.configNew socketPath, .config (some ptr), m₀, tr₀⟩ ::
        (since ++ made :: later)) m)
    (hkeeps : ∀ other ∈ since, other.call.Keeps ptr) (huses : made.call.uses = some ptr)
    (hsetter : made.call.isSetter = false) :
    (made.call.operation (S := S) (buildClient N (configAfter socketPath ptr since)) = none ∧
        made.ret = .code SOCKD_ERR_NULL ∧ made.trace = []) ∨
      ∃ operation result,
        made.call.operation (buildClient N (configAfter socketPath ptr since)) =
          some operation ∧
        Returns operation made.trace result ∧
        Answers (configAfter socketPath ptr since) made later m result := by
  have hwhole : before ++ ⟨.configNew socketPath, .config (some ptr), m₀, tr₀⟩ ::
      (since ++ made :: later) =
      (before ++ ⟨.configNew socketPath, .config (some ptr), m₀, tr₀⟩ :: since) ++ [made] ++
        later := by
    simp
  rw [hwhole] at h
  obtain ⟨m', hmade⟩ := h.split
  obtain ⟨rfl, m₁, hrest, -, hrun⟩ := hmade.last
  have hblock := hrest.config hkeeps
  rcases run_operation hblock huses hsetter hrun with
    hnull | ⟨operation, result, hsome, hreturns, hfinished⟩
  · exact .inl hnull
  · rw [List.append_assoc, List.singleton_append] at h
    exact .inr ⟨operation, result, hsome, hreturns, h.answers hfinished⟩

theorem session_operation_ping :
    (madePing.call.operation (S := Unit)
          (buildClient plainNaming (configAfter (some [0x73]) 0 [madeSet])) = none ∧
        madePing.ret = .code SOCKD_ERR_NULL ∧ madePing.trace = []) ∨
      ∃ operation result,
        madePing.call.operation (buildClient plainNaming (configAfter (some [0x73]) 0 [madeSet])) =
          some operation ∧
        Returns operation madePing.trace result ∧
        Answers (configAfter (some [0x73]) 0 [madeSet]) madePing [] madePing.memory result := by
  have hparts : Session plainNaming (.upward Block)
      ([] ++ madeNew :: ([madeSet] ++ madePing :: [])) madePing.memory := session_ping
  refine session_operation hparts ?_ rfl rfl
  exact List.forall_mem_singleton.mpr nofun

end Sockd.Capi
