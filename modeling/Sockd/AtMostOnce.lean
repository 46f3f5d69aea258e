import Sockd.AutoStart
import Sockd.Ends
import Sockd.Signal

/-!
# At most one invocation for one request

A call of `Client::request` is retried when it could not connect, and for no other
reason (`request_spec`); so it sends its request on one connection at most, which at
most one daemon accepts and serves once. Whatever happens to the daemons in the
meantime, `on_request` is invoked at most once on behalf of the call, and a response
that the call returns is what that invocation returned (`request_at_most_once`).
-/

namespace Sockd

open Rust Effects Effects.Prog Effects.System Os

variable {S : Type}

/-! ## The result of a request -/

/-- What a client makes of what `on_request` returned. -/
def clientResult : CallbackResult Bytes → Except Error Bytes
  | .ok response => .ok response
  | .error message => .error (.daemonReturnedError message)

/-- A message goes through UTF-8 and back. -/
theorem responseOf_replyTo (result : CallbackResult Bytes) :
    Client.responseOf (replyTo result) = clientResult result := by
  cases result with
  | ok response => rfl
  | error message =>
    show Except.error (Error.daemonReturnedError (lossyText (messageBytes message))) = _
    rw [lossyText, messageBytes, Bytes.lossy_encode, String.ofList_toList]
    rfl

/-- Different results of `on_request` are different results of the call. -/
theorem clientResult_inj {a b : CallbackResult Bytes} (h : clientResult a = clientResult b) :
    a = b := by
  cases a with
  | ok p =>
    cases b with
    | ok q =>
      injection h with h
      rw [h]
    | error m => cases h
  | error m =>
    cases b with
    | ok q => cases h
    | error m' =>
      injection h with h
      injection h with h
      rw [h]

section Answered

variable {f reply : Frame} {calls : List (Call S)}

/-- The calls that a frame leads to. -/
theorem Answered.of_request (h : Answered f calls reply)
    (hk : f.kind = .request) :
    ∃ call, calls = [call] ∧ call.payload = f.payload ∧ reply = replyTo call.result := by
  cases h with
  | request call _ hp => exact ⟨call, rfl, hp, rfl⟩
  | other hne => exact absurd hk hne

end Answered

/-! ## The request and its invocation -/

/-- `on_request` was invoked by the daemon `j`, on the connection `e` that process `i`
had opened. -/
structure Invoked (c : HostConfig S) (i j : Nat) (e : Exchange S) (call : Call S) : Prop where
  entry : e ∈ (ledgers c j).exchanges
  accepted : e.accepted = true
  opener : (c.world.ends e.stream.peer).owner = some i
  called : call ∈ e.calls

theorem InService.called {maxPayloadLen : Nat} {e : Exchange S} {call : Call S}
    (h : InService maxPayloadLen e) (hc : call ∈ e.calls) :
    ∃ f, Exact maxPayloadLen f e.received ∧ f.kind = .request ∧ e.calls = [call] ∧
      call.payload = f.payload := by
  cases h with
  | waiting _ hnil =>
    rw [hnil] at hc
    cases hc
  | answering f reply hx ha _ _ =>
    generalize hcalls : e.calls = calls at ha hc
    cases ha with
    | request call' hk hp =>
      obtain rfl := List.mem_singleton.mp hc
      exact ⟨f, hx, hk, rfl, hp⟩
    | other _ => cases hc

section Request

variable {role : Nat → Role} {w₀ : Os} {ls : List (HostLabel S)} {c : HostConfig S}
  {i j : Nat} {cl : Client} {payload : Bytes} {e : Exchange S} {call : Call S}

/-- What a request does, in a run. -/
theorem asking_run (hrole : role i = .request cl payload) (h₀ : w₀.Initial)
    (hr : Run (host role) anyStep (.start w₀) ls c) :
    Asking (requestFrame payload) (ledgers c i) := by
  have ht : (role i).Traces (c.hist i) := hr.behaviour (Role.traces_nil _)
  rw [hrole] at ht
  obtain ⟨q, hq⟩ := ht
  exact ((Client.request_spec payload).always hq).resolve_left (not_failedLikeConnect h₀ hr i)

/-- An invocation on behalf of a request has its payload, and belongs to the newest of
the connections that the call opened. -/
theorem Invoked.newest (hrole : role i = .request cl payload) (h₀ : w₀.Initial)
    (hr : Run (host role) anyStep (.start w₀) ls c) (h : Invoked c i j e call) :
    e.calls = [call] ∧ call.payload = payload ∧
      ∃ e', (ledgers c i).exchanges.head? = some e' ∧ e'.stream = e.stream.peer := by
  obtain ⟨config, -, hserv⟩ := accepted_inService hr h.entry h.accepted
  obtain ⟨f, hx, hkind, hcalls, hp⟩ := hserv.called h.called
  obtain ⟨e', he', hs, hle, -⟩ := peer_entry h₀ hr h.entry h.opener
  obtain ⟨ps, hps, hspeaking⟩ := asking_run hrole h₀ hr
  -- a ping is not what was served
  have hping : ∀ e ∈ ps, e' ≠ e := by
    intro e hmem heq
    subst heq
    have hf := (hps e' hmem).frame_eq hx hle
    rw [hf] at hkind
    cases hkind
  rcases hspeaking with hes | ⟨e₀, hes, htalk⟩
  · rw [hes] at he'
    exact absurd rfl (hping e' he')
  · have heq : e' = e₀ := by
      rw [hes] at he'
      exact (List.mem_cons.mp he').resolve_right fun hmem => hping e' hmem rfl
    subst heq
    have hf := htalk.frame_eq hx hle
    refine ⟨hcalls, ?_, e', ?_, hs⟩
    · rw [hp, hf]
      rfl
    · rw [hes]
      rfl

/-- There is one invocation on behalf of a request. -/
theorem Invoked.unique (hrole : role i = .request cl payload) (h₀ : w₀.Initial)
    (hr : Run (host role) anyStep (.start w₀) ls c) (h : Invoked c i j e call) {j' : Nat}
    {e' : Exchange S} {call' : Call S} (h' : Invoked c i j' e' call') :
    j' = j ∧ e' = e ∧ call' = call := by
  obtain ⟨hcalls, -, e₁, hhead, hs⟩ := h.newest hrole h₀ hr
  obtain ⟨hcalls', -, e₁', hhead', hs'⟩ := h'.newest hrole h₀ hr
  rw [hhead] at hhead'
  obtain rfl := Option.some.inj hhead'
  -- both are the other end of the same connection
  have hstream : e'.stream = e.stream := by
    rw [← Stream.peer_peer e'.stream, ← hs', hs, Stream.peer_peer]
  obtain ⟨rfl, rfl⟩ := entry_unique h₀ hr h'.entry h.entry hstream
  rw [hcalls] at hcalls'
  injection hcalls' with hcall
  exact ⟨rfl, rfl, hcall.symm⟩

/-- What a handler can have returned is what an invocation has returned. -/
theorem request_answered (h₀ : w₀.Initial) (hr : Run (host role) anyStep (.start w₀) ls c)
    {result : CallbackResult Bytes} (hret : Returns (cl.request payload : SysTry S Bytes).run
      (c.hist i) (clientResult result)) :
    ∃ j e call, Invoked c i j e call ∧ call.result = result := by
  have hasked := ((Client.request_spec payload).returns hret).resolve_left
    (not_failedLikeConnect h₀ hr i)
  have hnot : ∀ {err : Error}, NotReturned err → clientResult result ≠ .error err := by
    intro err hnot he
    cases result with
    | ok r => cases he
    | error message =>
      injection he with he
      exact hnot message he.symm
  generalize hres : clientResult result = res at hasked
  cases hasked with
  | unasked err _ h => exact absurd hres (hnot h)
  | talked ps e' out _ hes htalked =>
    cases out with
    | error err => exact absurd hres (hnot htalked.notReturned)
    | ok g =>
      have he' : e' ∈ (ledgers c i).exchanges := by
        show e' ∈ (Ledger.of (c.hist i)).exchanges
        rw [Ledger.of, hes]
        exact List.mem_cons_self
      obtain ⟨htalking, hout⟩ := htalked
      cases hout with
      | replied _ _ hx =>
        obtain ⟨j, _, f, _, e, he, ha, _, howner, hf, hle, hans⟩ :=
          replied_by h₀ hr he' htalking.opened hx
        obtain rfl := htalking.frame_eq hf hle
        obtain ⟨call, hcalls, -, rfl⟩ := hans.of_request rfl
        refine ⟨j, e, call, ⟨he, ha, howner, ?_⟩, clientResult_inj ?_⟩
        · rw [hcalls]
          exact List.mem_singleton_self call
        · rw [← responseOf_replyTo]
          exact hres.symm

/-- **At most one invocation.** In every run, whatever the daemons and the other
processes do and wherever they are killed: `on_request` is invoked at most once on
behalf of a call of `Client::request`, with its payload; and if the call returns
`Ok(r)`, it was invoked, and returned `r`. -/
theorem request_at_most_once (role : Nat → Role) (i : Nat) (cl : Client) (payload : Bytes)
    (w₀ : Os) (ls : List (HostLabel S)) (c : HostConfig S) (hrole : role i = .request cl payload)
    (h₀ : w₀.Initial) (hr : Run (host role) anyStep (.start w₀) ls c) :
    (∀ j e call, Invoked c i j e call → e.calls = [call] ∧ call.payload = payload ∧
      ∀ j' e' call', Invoked c i j' e' call' → j' = j ∧ e' = e ∧ call' = call) ∧
    ∀ r, Returns (cl.request payload : SysTry S Bytes).run (c.hist i) (.ok r) →
      ∃ j e call, Invoked c i j e call ∧ call.payload = payload ∧ call.result = .ok r := by
  refine ⟨?_, ?_⟩
  · intro j e call h
    obtain ⟨hcalls, hp, -⟩ := h.newest hrole h₀ hr
    exact ⟨hcalls, hp, fun j' e' call' h' => h.unique hrole h₀ hr h'⟩
  · intro r hret
    have hret : Returns (cl.request payload : SysTry S Bytes).run (c.hist i)
        (clientResult (.ok r)) := hret
    obtain ⟨j, e, call, h, hresult⟩ := request_answered h₀ hr hret
    exact ⟨j, e, call, h, (h.newest hrole h₀ hr).2.1, hresult⟩

end Request

/-- An empty request, up to the wait for its response. -/
def asks : History Unit :=
  [⟨.connect sockPath, .ok ⟨0, .client⟩⟩,
    ⟨.write ⟨0, .client⟩ (requestFrame []).wire, .ok ⟨12, by decide⟩⟩]

/-- The daemon accepts the first connection. -/
def acceptsFirst : History Unit := [⟨.poll 0 250, .ok ⟨1, true⟩⟩, ⟨.accept 0, .ok ⟨0, .server⟩⟩]

/-- The empty response. -/
def isAnswered : History Unit :=
  [⟨.read ⟨0, .client⟩ 12, .ok ⟨(⟨.response, 0, []⟩ : Frame).wire, by decide⟩⟩,
    ⟨.closeStream ⟨0, .client⟩, ()⟩]

/-- A daemon serves one request. -/
def answerSchedule : List (HostLabel Unit) :=
  [.outside (.start 0 100), .outside (.start 1 101)] ++ (installsFlag ++ serves).map (.act 0) ++
    asks.map (.act 1) ++ (acceptsFirst ++ servesRequest 0).map (.act 0) ++ isAnswered.map (.act 1)

theorem exists_answered : ∃ c : HostConfig Unit,
    Run (host (oneClient {} { socketPath := sockPath } [])) anyStep (.start emptyHost)
      answerSchedule c ∧
    (∀ i, c.hist i = answerSchedule.filterMap (Label.of? i)) ∧
    Returns (Client.request { socketPath := sockPath } [] : SysTry Unit Bytes).run (c.hist 1)
      (.ok []) := by
  have hplay : ((host (oneClient {} { socketPath := sockPath } [])).play (fun _ _ => true)
      (.start emptyHost) answerSchedule).isSome = true := by decide +kernel
  obtain ⟨c, hc⟩ := Option.isSome_iff_exists.mp hplay
  have hret : Returns (Client.request { socketPath := sockPath } [] : SysTry Unit Bytes).run
      (answerSchedule.filterMap (Label.of? 1)) (.ok []) := returns_of_follow 60 (by rfl)
  refine ⟨c, (run_of_play hc fun i => ?_).any, hist_of_play hc, ?_⟩
  · match i with
    | 0 => exact traces_of_follow 60 (by rfl)
    | 1 => exact hret.traces
    | i + 2 => exact Role.traces_nil _
  · rw [hist_of_play hc 1]
    exact hret

/-- In the run of this schedule the response is that of an invocation. -/
theorem request_at_most_once_answered : ∃ c : HostConfig Unit,
    Run (host (oneClient {} { socketPath := sockPath } [])) anyStep (.start emptyHost)
      answerSchedule c ∧
    ∃ j e call, Invoked c 1 j e call ∧ call.payload = [] ∧ call.result = .ok [] := by
  obtain ⟨c, hrun, -, hret⟩ := exists_answered
  exact ⟨c, hrun, (request_at_most_once _ 1 _ [] emptyHost answerSchedule c rfl emptyHost_initial
    hrun).2 [] hret⟩

end Sockd
