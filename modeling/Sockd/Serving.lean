import Sockd.Daemon
import Sockd.Ledger

/-!
# One connection of the daemon

What `process_connection` does on a connection, whatever the peer and the callback
do. `Served` relates its result to the connection's entry in the ledger: which
reply the frame that was read calls for (`Answered`), how much of it went out, and
why the call failed if it did. `InService` is what can be said at any moment
before it returns: nothing is sent, and `on_request` is not called, before a whole
frame has been read.
-/

namespace Sockd

open Rust Effects Effects.Prog Ledger

variable {S : Type}

/-- The reply to a request, from what `on_request` returned. -/
def replyTo : CallbackResult Bytes → Frame
  | .ok response => ⟨.response, 0, response⟩
  | .error err => ⟨.error, 0, messageBytes err⟩

/-- The reply to a frame of some kind, `on_request` returning `result`. -/
def replyFor (kind : FrameKind) (result : CallbackResult Bytes) : Frame :=
  match kind with
  | .ping => ⟨.pong, 0, []⟩
  | .shutdown => ⟨.shutdownAck, 0, []⟩
  | .request => replyTo result
  | other => ⟨.error, 0, messageBytes (unexpectedKindMessage other)⟩

/-- `reply` is what the frame `f` calls for, `on_request` having been called as in
`calls`: once for a request, with its payload, and never for another kind. -/
inductive Answered (f : Frame) : List (Call S) → Frame → Prop
  | request (c : Call S) : f.kind = .request → c.payload = f.payload →
      Answered f [c] (replyTo c.result)
  | other : f.kind ≠ .request → Answered f [] (replyFor f.kind (.ok []))

/-- Exactly the bytes `d` of a frame within the limit. -/
structure Exact (maxPayloadLen : Nat) (f : Frame) (d : Bytes) : Prop where
  fits : f.Fits
  le_max : f.payload.length ≤ maxPayloadLen
  eq_wire : d = f.wire

/-- The calls take the state from the first to the last, each getting what the one
before it left. -/
def Chain : S → List (Call S) → S → Prop
  | s, [], s' => s' = s
  | s, c :: cs, s' => c.before = s ∧ Chain c.after cs s'

/-- A connection the daemon is busy with: nothing went out yet, or what did is the
beginning of the reply. -/
inductive InService (maxPayloadLen : Nat) (e : Exchange S) : Prop
  | waiting : e.sent = [] → e.calls = [] → InService maxPayloadLen e
  | answering (f reply : Frame) : Exact maxPayloadLen f e.received → Answered f e.calls reply →
      e.sent <+: reply.wire → (reply.Fits ∨ e.sent = []) → InService maxPayloadLen e

/-- How sending `reply` went. -/
inductive ReplySent (reply : Frame) (e : Exchange S) : Except Error Unit → Prop
  | all : reply.Fits → e.sent = reply.wire → ReplySent reply e (.ok ())
  | tooLarge : ¬ reply.Fits → e.sent = [] →
      ReplySent reply e (.error (.payloadTooLarge reply.payload.length u32Max))
  | part (err : IoError) : reply.Fits → e.sent <+: reply.wire →
      e.sent.length < reply.wire.length → err ∈ e.writeFaults →
      ReplySent reply e (.error (.io err))

/-- What `process_connection` returns after a whole frame. -/
def outcomeOf (f : Frame) : ConnectionOutcome :=
  match f.kind with
  | .shutdown => .shutdown
  | _ => .continue

/-- A connection that `process_connection` is done with, and what it returned. -/
inductive Served (maxPayloadLen : Nat) (e : Exchange S) : Except Error ConnectionOutcome → Prop
  | unread (err : IoError) : parse maxPayloadLen e.received = .more → e.sent = [] →
      e.calls = [] → err ∈ e.readFaults → Served maxPayloadLen e (.error (.io err))
  | refused (err : Error) : parse maxPayloadLen e.received = .reject err → e.sent = [] →
      e.calls = [] → Served maxPayloadLen e (.error err)
  | answered (f reply : Frame) (r : Except Error Unit) : Exact maxPayloadLen f e.received →
      Answered f e.calls reply → ReplySent reply e r →
      Served maxPayloadLen e (r.map fun _ => outcomeOf f)

theorem ReplySent.le {reply : Frame} {e : Exchange S} {r : Except Error Unit}
    (h : ReplySent reply e r) : e.sent <+: reply.wire ∧ (reply.Fits ∨ e.sent = []) := by
  cases h with
  | all hf hs => exact ⟨hs ▸ List.prefix_refl _, .inl hf⟩
  | tooLarge _ hs => exact ⟨hs ▸ List.nil_prefix, .inr hs⟩
  | part err hf hs _ _ => exact ⟨hs, .inl hf⟩

theorem Served.inService {maxPayloadLen : Nat} {e : Exchange S}
    {r : Except Error ConnectionOutcome} (h : Served maxPayloadLen e r) :
    InService maxPayloadLen e := by
  cases h with
  | unread err _ hs hc _ => exact .waiting hs hc
  | refused err _ hs hc => exact .waiting hs hc
  | answered f reply r hx ha hr => exact .answering f reply hx ha hr.le.1 hr.le.2

/-! ## The calls on the newest connection -/

/-- The ledger `L`, with one more connection in front of `es` of which `P` holds. -/
def Newest (L : Ledger S) (es : List (Exchange S)) (P : Exchange S → Prop) (M : Ledger S) : Prop :=
  ∃ e, M = L.withExchanges (e :: es) ∧ P e

theorem Newest.mono {L M : Ledger S} {es : List (Exchange S)} {P Q : Exchange S → Prop}
    (h : Newest L es P M) (hPQ : ∀ e, P e → Q e) : Newest L es Q M := by
  obtain ⟨e, hM, he⟩ := h
  exact ⟨e, hM, hPQ e he⟩

/-- `read_frame` on a new connection. -/
theorem readFrame_newest {maxPayloadLen : Nat} {L M : Ledger S} {es : List (Exchange S)}
    {e : Exchange S} (hM : M = L.withExchanges (e :: es)) (he : e.received = []) :
    Spec Ledger.step M (readFrame e.stream.reader maxPayloadLen).run
      (Newest L es fun e' => ∃ d fs, e' = { e with received := d, readFaults := fs })
      (fun res => Newest L es fun e' => ∃ d fs, e' = { e with received := d, readFaults := fs } ∧
        match res with
        | .ok f => Exact maxPayloadLen f d
        | .error err =>
          (∃ io, err = .io io ∧ parse maxPayloadLen d = .more ∧ io ∈ fs) ∨
            parse maxPayloadLen d = .reject err) := by
  subst hM
  refine (readFrame_spec e.stream.reader maxPayloadLen).of_record.mono ?_ ?_
  · intro M hM
    obtain ⟨t, rfl, d, hd⟩ := hM
    obtain ⟨fs, hfold, -⟩ := foldl_reading hd (exchanges_withExchanges L _)
    rw [he, List.nil_append] at hfold
    exact ⟨_, hfold, d, _, rfl⟩
  · intro res M hM
    obtain ⟨t, rfl, d, hd, hres⟩ := hM
    obtain ⟨fs, hfold, hfs⟩ := foldl_reading hd (exchanges_withExchanges L _)
    rw [he, List.nil_append] at hfold
    refine ⟨_, hfold, d, _, rfl, ?_⟩
    cases res with
    | ok f => exact ⟨hres.1, hres.2.1, hres.2.2⟩
    | error err =>
      rcases hres with ⟨io, rfl, hmore, hfault⟩ | ⟨-, hrej⟩
      · exact .inl ⟨io, rfl, hmore, List.mem_append_right _ (hfs io hfault)⟩
      · exact .inr hrej

/-- `write_frame` on a connection on which nothing was sent yet. -/
theorem writeFrame_newest {L M : Ledger S} {es : List (Exchange S)} {e : Exchange S}
    (hM : M = L.withExchanges (e :: es)) (he : e.sent = []) (f : Frame) (hflags : f.flags = 0) :
    Spec Ledger.step M (writeFrame e.stream.writer f.kind f.payload).run
      (Newest L es fun e' => ∃ d fs, e' = { e with sent := d, writeFaults := fs } ∧
        d <+: f.wire ∧ (f.Fits ∨ d = []))
      (fun res => Newest L es fun e' => ∃ d fs, e' = { e with sent := d, writeFaults := fs } ∧
        ReplySent f e' res) := by
  subst hM
  have hwrite := writeFrame_spec (e.stream.writer : Writer (sysSig S)) rfl f
  rw [hflags] at hwrite
  refine hwrite.of_record.mono ?_ ?_
  · intro M hM
    obtain ⟨t, rfl, d, hd, hfit⟩ := hM
    obtain ⟨fs, hfold, -⟩ := foldl_writing hd (exchanges_withExchanges L _)
    rw [he, List.nil_append] at hfold
    exact ⟨_, hfold, d, _, rfl, hd.le, hfit⟩
  · intro res M hM
    obtain ⟨t, rfl, d, hd, hres⟩ := hM
    obtain ⟨fs, hfold, hfs⟩ := foldl_writing hd (exchanges_withExchanges L _)
    rw [he, List.nil_append] at hfold
    refine ⟨_, hfold, d, _, rfl, ?_⟩
    cases res with
    | ok u => exact .all hres.1 hres.2
    | error err =>
      rcases hres with ⟨hbig, rfl, rfl⟩ | ⟨hfit, hlt, io, rfl, hfault⟩
      · obtain rfl : d = [] := hd.eq_nil
        exact .tooLarge hbig rfl
      · exact .part io hfit hd.le hlt (List.mem_append_right _ (hfs io hfault))

/-- Sending a reply on a connection on which nothing was sent yet. -/
theorem reply_newest {L M : Ledger S} {es : List (Exchange S)} {e : Exchange S}
    (hM : M = L.withExchanges (e :: es)) (he : e.sent = []) (f : Frame) (hflags : f.flags = 0)
    (o : ConnectionOutcome) :
    Spec Ledger.step M (reply e.stream f.kind f.payload o).run
      (Newest L es fun e' => ∃ d fs, e' = { e with sent := d, writeFaults := fs } ∧
        d <+: f.wire ∧ (f.Fits ∨ d = []))
      (fun res => Newest L es fun e' => ∃ d fs, e' = { e with sent := d, writeFaults := fs } ∧
        ∃ r, ReplySent f e' r ∧ res = r.map fun _ => o) := by
  refine Spec.next (R := fun _ => Newest L es fun e' =>
    ∃ d fs, e' = { e with sent := d, writeFaults := fs } ∧ ReplySent f e' (.ok ()))
    ((writeFrame_newest hM he f hflags).mono (fun _ h => h) ?_) ?_
  · intro res M hM
    cases res with
    | ok u => exact hM
    | error err =>
      refine hM.mono fun e' he' => ?_
      obtain ⟨d, fs, rfl, hsent⟩ := he'
      exact ⟨d, fs, rfl, .error err, hsent, rfl⟩
  · intro _ M hΦ hM
    refine .ret hΦ (hM.mono fun e' he' => ?_)
    obtain ⟨d, fs, rfl, hsent⟩ := he'
    exact ⟨d, fs, rfl, .ok (), hsent, rfl⟩

/-- The fields of an entry that serving the connection does not change. -/
def Exchange.SameConn (e e₀ : Exchange S) : Prop :=
  e.stream = e₀.stream ∧ e.accepted = e₀.accepted ∧ e.setup = e₀.setup

/-- Where the connection `e₀` stands after `process_connection`, and the state. -/
structure AfterServing (maxPayloadLen : Nat) (e₀ : Exchange S) (state : S)
    (out : Except Error ConnectionOutcome × S) (e : Exchange S) : Prop where
  same : e.SameConn e₀
  served : Served maxPayloadLen e out.1
  chain : Chain state e.calls out.2

/-- Where the connection `e₀` stands at any moment of `process_connection`. -/
structure WhileServing (maxPayloadLen : Nat) (e₀ : Exchange S) (state : S) (e : Exchange S) :
    Prop where
  same : e.SameConn e₀
  inService : InService maxPayloadLen e
  chain : ∃ state', Chain state e.calls state'

section Serve

variable {config : DaemonConfig} {state : S} {L M : Ledger S} {es : List (Exchange S)}
  {e e₀ : Exchange S} {f : Frame}

/-- The reply to the frame that was read, once the calls it needs are made. -/
theorem reply_serving {state' : S} {g : Frame} (hM : M = L.withExchanges (e :: es))
    (hs : e.SameConn e₀) (hsent : e.sent = []) (hx : Exact config.maxPayloadLen f e.received)
    (ha : Answered f e.calls g) (hflags : g.flags = 0) (hchain : Chain state e.calls state') :
    Spec Ledger.step M (reply e₀.stream g.kind g.payload (outcomeOf f)).run
      (Newest L es (WhileServing config.maxPayloadLen e₀ state))
      (fun r => Newest L es (AfterServing config.maxPayloadLen e₀ state (r, state'))) := by
  rw [← hs.1]
  refine (reply_newest hM hsent g hflags (outcomeOf f)).mono ?_ ?_
  · intro M hM
    refine hM.mono fun e' he' => ?_
    obtain ⟨d, fs, rfl, hle, hfit⟩ := he'
    exact ⟨hs, .answering f g hx ha hle hfit, state', hchain⟩
  · intro res M hM
    refine hM.mono fun e' he' => ?_
    obtain ⟨d, fs, rfl, r, hr, rfl⟩ := he'
    exact ⟨hs, .answered f g r hx ha hr, hchain⟩

/-- The dispatch on the kind of the frame that was read. -/
theorem dispatch_spec (hM : M = L.withExchanges (e :: es)) (hs : e.SameConn e₀)
    (hsent : e.sent = []) (hcalls : e.calls = []) (hx : Exact config.maxPayloadLen f e.received) :
    Spec Ledger.step M (dispatch e₀.stream state f)
      (Newest L es (WhileServing config.maxPayloadLen e₀ state))
      (fun out => Newest L es (AfterServing config.maxPayloadLen e₀ state out)) := by
  have hchain : Chain state e.calls state := by rw [hcalls]; rfl
  -- every kind but `Request` is answered without touching the state
  have hother : ∀ g, f.kind ≠ .request → replyFor f.kind (.ok []) = g → g.flags = 0 →
      Spec Ledger.step M (reply e₀.stream g.kind g.payload (outcomeOf f)).run
        (Newest L es (WhileServing config.maxPayloadLen e₀ state))
        (fun r => Newest L es (AfterServing config.maxPayloadLen e₀ state (r, state))) := by
    intro g hk hg hflags
    refine reply_serving hM hs hsent hx ?_ hflags hchain
    rw [hcalls, ← hg]
    exact .other hk
  have hout : outcomeOf f = match f.kind with | .shutdown => .shutdown | _ => .continue := rfl
  unfold dispatch
  cases hk : f.kind with
  | ping =>
    rw [hk] at hout hother
    refine Spec.bind (hout ▸ hother ⟨.pong, 0, []⟩ (by decide) rfl rfl) ?_
    intro r M hΦ hQ
    exact .ret hΦ hQ
  | shutdown =>
    rw [hk] at hout hother
    refine Spec.bind (hout ▸ hother ⟨.shutdownAck, 0, []⟩ (by decide) rfl rfl) ?_
    intro r M hΦ hQ
    exact .ret hΦ hQ
  | request =>
    rw [hk] at hout
    refine Spec.call ⟨e, hM, hs, .waiting hsent hcalls, state, hchain⟩ fun b => ?_
    obtain ⟨result, state'⟩ := b
    have hM' : M.step ⟨.onRequest state f.payload, (result, state')⟩ =
        L.withExchanges ({ e with calls := [⟨state, f.payload, result, state'⟩] } :: es) := by
      subst hM
      show (L.withExchanges (touchNewest _ (e :: es))) = _
      rw [touchNewest, hcalls, List.nil_append]
    have hreply : ∀ g, replyTo result = g → g.flags = 0 →
        Spec Ledger.step (M.step ⟨.onRequest state f.payload, (result, state')⟩)
          (reply e₀.stream g.kind g.payload (outcomeOf f)).run
          (Newest L es (WhileServing config.maxPayloadLen e₀ state))
          (fun r => Newest L es (AfterServing config.maxPayloadLen e₀ state (r, state'))) := by
      intro g hg hflags
      refine reply_serving hM' hs hsent hx ?_ hflags ⟨rfl, rfl⟩
      rw [← hg]
      exact .request ⟨state, f.payload, result, state'⟩ hk rfl
    cases result with
    | ok response =>
      show Spec _ _ ((reply e₀.stream .response response .continue).run.bind fun r => .ret (r, state')) _ _
      refine Spec.bind (hout ▸ hreply ⟨.response, 0, response⟩ rfl rfl) ?_
      intro r M hΦ hQ
      exact .ret hΦ hQ
    | error err =>
      show Spec _ _ ((reply e₀.stream .error (messageBytes err) .continue).run.bind
        fun r => .ret (r, state')) _ _
      refine Spec.bind (hout ▸ hreply ⟨.error, 0, messageBytes err⟩ rfl rfl) ?_
      intro r M hΦ hQ
      exact .ret hΦ hQ
  | response | pong | error | shutdownAck =>
    rw [hk] at hout hother
    refine Spec.bind (hout ▸ hother ⟨.error, 0, messageBytes (unexpectedKindMessage _)⟩
      (by decide) rfl rfl) ?_
    intro r M hΦ hQ
    exact .ret hΦ hQ

/-- **`process_connection`** on a new connection, whatever the answers. -/
theorem processConnection_spec (hM : M = L.withExchanges (e :: es))
    (hreceived : e.received = []) (hsent : e.sent = []) (hcalls : e.calls = []) :
    Spec Ledger.step M (processConnection config e.stream state)
      (Newest L es (WhileServing config.maxPayloadLen e state))
      (fun out => Newest L es (AfterServing config.maxPayloadLen e state out)) := by
  refine Spec.bind (R := fun out => Newest L es
    (AfterServing config.maxPayloadLen e state out)) ?_ ?_
  · refine Spec.bind (R := fun res => Newest L es fun e' =>
      ∃ d fs, e' = { e with received := d, readFaults := fs } ∧
        match res with
        | .ok f => Exact config.maxPayloadLen f d
        | .error err =>
          (∃ io, err = .io io ∧ parse config.maxPayloadLen d = .more ∧ io ∈ fs) ∨
            parse config.maxPayloadLen d = .reject err)
      ((readFrame_newest hM hreceived).mono ?_ fun _ _ h => h) ?_
    · intro M hM
      refine hM.mono fun e' he' => ?_
      obtain ⟨d, fs, rfl⟩ := he'
      exact ⟨⟨rfl, rfl, rfl⟩, .waiting hsent hcalls, state, by simp only [hcalls]; rfl⟩
    · intro res M hΦ hR
      obtain ⟨e', hM', d, fs, rfl, hres⟩ := hR
      cases res with
      | ok f => exact dispatch_spec hM' ⟨rfl, rfl, rfl⟩ hsent hcalls hres
      | error err =>
        refine .ret hΦ ⟨_, hM', ⟨rfl, rfl, rfl⟩, ?_, by simp only [hcalls]; rfl⟩
        rcases hres with ⟨io, rfl, hmore, hmem⟩ | hrej
        · exact .unread io hmore hsent hcalls hmem
        · exact .refused err hrej hsent hcalls
  · intro out M hΦ hQ
    refine Spec.call hΦ fun b => ?_
    exact .ret hΦ hQ

end Serve

end Sockd
