import Sockd.Survival

/-!
# Which requests reach the callback, and in which order

Over whole runs of `Daemon::run`, finished or not, and whichever of its calls fail,
`accept` and `poll` among them: the payloads passed to `on_request` are those of
the accepted connections that begin with a whole `Request` frame within the limit,
in the order of acceptance; each call gets the state the one before it left, and
`on_stop` gets the last. What a visit contributes (`requestPayload?`) does not
depend on anything but its first frame's kind and payload.
-/

namespace Sockd

open Rust Effects Effects.Prog

variable {S : Type}

/-- The request that a visit makes, if the daemon can read one. -/
def requestPayload? (maxPayloadLen : Nat) (v : Visit) : Option Bytes :=
  match v.setup, parse maxPayloadLen v.sends with
  | .ok (), .frame f => if f.kind = .request then some f.payload else none
  | _, _ => none

/-- The calls of `on_request`, in the order they were made. -/
def callsOf : List (Exchange S) → List (Call S)
  | [] => []
  | e :: es => callsOf es ++ e.calls

/-- The visit of the connection `e` is a readable `Shutdown`. -/
def Visit.ShutsDown (maxPayloadLen : Nat) (v : Visit) : Prop :=
  v.setup = .ok () ∧ ∃ f, parse maxPayloadLen v.sends = .frame f ∧ f.kind = .shutdown

section Connection

variable {maxPayloadLen : Nat} {v : Visit} {visits : List Visit} {e : Exchange S}
  {es ps : List (Exchange S)} {s₀ s : S}

theorem requestPayload?_frame {f : Frame} (hs : v.setup = .ok ())
    (hp : parse maxPayloadLen v.sends = .frame f) :
    requestPayload? maxPayloadLen v = if f.kind = .request then some f.payload else none := by
  simp only [requestPayload?, hs, hp]

/-- What a whole frame makes the daemon call. -/
theorem Answered.payloads {f reply : Frame} {calls : List (Call S)} (h : Answered f calls reply) :
    calls.map Call.payload = (if f.kind = .request then some f.payload else none).toList := by
  cases h with
  | request c hk hp => simp [hk, hp]
  | other hk => simp [hk]

theorem Served.payloads {r : Except Error ConnectionOutcome} (h : Served maxPayloadLen e r)
    (hw : Within v e) (hr : e.Ready) :
    e.calls.map Call.payload = (requestPayload? maxPayloadLen v).toList := by
  have hs : v.setup = .ok () := (hw.setup _ hr.2).symm
  cases h with
  | unread err hmore _ hc hmem =>
    rw [hw.readFaults (List.ne_nil_of_mem hmem)] at hmore
    simp [requestPayload?, hs, hmore, hc]
  | refused err hrej _ hc =>
    obtain ⟨rest, hrest⟩ := hw.received
    have hrej' : parse maxPayloadLen v.sends = .reject err := by
      rw [← hrest]
      exact parse_reject_append hrej rest
    simp [requestPayload?, hs, hrej', hc]
  | answered f reply r hx ha _ =>
    rw [requestPayload?_frame hs (hw.parse_sends hx)]
    exact ha.payloads

theorem length_accepted_cons (h : e.accepted = true) :
    (accepted (e :: es)).length = (accepted es).length + 1 := by
  simp [accepted, h]

/-- The connections behind the newest are answered for, and it is. -/
theorem payloads_cons (ha : e.accepted = true) (hv : visits[(accepted es).length]? = some v)
    (hes : (callsOf es).map Call.payload
      = (visits.take (accepted es).length).filterMap (requestPayload? maxPayloadLen))
    (he : e.calls.map Call.payload = (requestPayload? maxPayloadLen v).toList) :
    (callsOf (e :: es)).map Call.payload
      = (visits.take (accepted (e :: es)).length).filterMap (requestPayload? maxPayloadLen) := by
  rw [length_accepted_cons ha, List.take_add_one, hv, callsOf, List.map_append,
    List.filterMap_append, hes, he]
  congr 1

theorem Probes.payloads (hps : Probes ps) :
    accepted ps = [] ∧ callsOf ps = [] := by
  induction ps with
  | nil => exact ⟨rfl, rfl⟩
  | cons e ps ih =>
    obtain ⟨h₁, h₂⟩ := ih fun e' he' => hps e' (by simp [he'])
    obtain ⟨ha, -, -, hc⟩ := hps e (by simp)
    refine ⟨?_, ?_⟩
    · simpa [accepted, ha] using h₁
    · rw [callsOf, h₂, hc]
      rfl

theorem AllServed.payloads (h : AllServed maxPayloadLen s₀ es s) (hps : Probes ps)
    (hm : Matches visits (es ++ ps)) :
    (callsOf (es ++ ps)).map Call.payload
      = (visits.take (accepted (es ++ ps)).length).filterMap (requestPayload? maxPayloadLen) := by
  induction es generalizing s with
  | nil =>
    rw [List.nil_append, hps.payloads.1, hps.payloads.2]
    simp
  | cons e es ih =>
    obtain ⟨s₁, hall, hr, hserved, -⟩ := h
    obtain ⟨v, hv, hw⟩ := hm.1 hr.1
    exact payloads_cons hr.1 hv (ih hall hm.2) (hserved.payloads hw hr)

theorem Finished.payloads (h : Finished maxPayloadLen s₀ es s) (hps : Probes ps)
    (hm : Matches visits (es ++ ps)) :
    (callsOf (es ++ ps)).map Call.payload
      = (visits.take (accepted (es ++ ps)).length).filterMap (requestPayload? maxPayloadLen) := by
  cases h with
  | served _ _ hall => exact hall.payloads hps hm
  | last e es s₁ _ r hall hr hserved _ =>
    obtain ⟨v, hv, hw⟩ := hm.1 hr.1
    exact payloads_cons hr.1 hv (hall.payloads hps hm.2) (hserved.payloads hw hr)
  | unready e es _ err hall ha hset _ _ hc =>
    obtain ⟨v, hv, hw⟩ := hm.1 ha
    refine payloads_cons ha hv (hall.payloads hps hm.2) ?_
    have hs : v.setup = .error err := (hw.setup _ hset).symm
    rw [hc, requestPayload?, hs]
    rfl

theorem Chain.append {cs ds : List (Call S)} {s₁ s₂ : S} (h₁ : Chain s₀ cs s₁)
    (h₂ : Chain s₁ ds s₂) : Chain s₀ (cs ++ ds) s₂ := by
  induction cs generalizing s₀ with
  | nil => exact (show s₁ = s₀ from h₁) ▸ h₂
  | cons c cs ih => exact ⟨h₁.1, ih h₁.2⟩

theorem AllServed.chain (h : AllServed maxPayloadLen s₀ es s) : Chain s₀ (callsOf es) s := by
  induction es generalizing s with
  | nil => exact h
  | cons e es ih =>
    obtain ⟨s₁, hall, -, -, hchain⟩ := h
    exact (ih hall).append hchain

theorem Finished.chain (h : Finished maxPayloadLen s₀ es s) : Chain s₀ (callsOf es) s := by
  cases h with
  | served _ _ hall => exact hall.chain
  | last e es s₁ _ r hall _ _ hchain => exact hall.chain.append hchain
  | unready e es _ err hall _ _ _ _ hc =>
    rw [callsOf, hc, List.append_nil]
    exact hall.chain

theorem callsOf_append (hps : Probes ps) : callsOf (es ++ ps) = callsOf es := by
  induction es with
  | nil => exact hps.payloads.2
  | cons e es ih => simp only [List.cons_append, callsOf, ih]

/-- The state goes from `on_start` through the calls to `on_stop`. -/
theorem RunInv.state {L : Ledger S} (h : RunInv maxPayloadLen L) :
    (L.started = [] ∧ L.stopped = [] ∧ callsOf L.exchanges = []) ∨
      ∃ s₀ s, L.started = [s₀] ∧ Chain s₀ (callsOf L.exchanges) s ∧
        (L.stopped = [] ∨ L.stopped = [s]) := by
  have hover : ∀ {s₀ s : S} {l : List S}, Over maxPayloadLen L s₀ s l →
      Chain s₀ (callsOf L.exchanges) s := by
    intro s₀ s l h
    obtain ⟨ps, es, hps, hes, hfin⟩ := h.connections
    rw [hes, callsOf_append hps]
    exact hfin.chain
  cases h with
  | starting hL =>
    rw [hL]
    exact .inl ⟨rfl, rfl, rfl⟩
  | «over» s₀ s h => exact .inr ⟨s₀, s, h.started, hover h, .inl h.stopped⟩
  | stopped s₀ s h => exact .inr ⟨s₀, s, h.started, hover h, .inr h.stopped⟩
  | running s₀ s ps cur es hstarted hstopped hps hes hall hcur =>
    rw [hes]
    match cur, hcur with
    | [], _ =>
      refine .inr ⟨s₀, s, hstarted, ?_, .inl hstopped⟩
      rw [List.nil_append, callsOf_append hps]
      exact hall.chain
    | [e], hcur =>
      obtain ⟨-, -, -, s', hchain⟩ := hcur
      refine .inr ⟨s₀, s', hstarted, ?_, .inl hstopped⟩
      rw [List.cons_append, List.nil_append, callsOf, callsOf_append hps]
      exact hall.chain.append hchain

/-! ## The reply, and `Shutdown` -/

/-- What went out on a connection is the beginning of the reply to its frame. -/
theorem InService.sent_le (h : InService maxPayloadLen e) (hw : Within v e) {f : Frame}
    (hp : parse maxPayloadLen v.sends = .frame f) :
    e.sent <+: (replyFor f.kind v.result).wire := by
  cases h with
  | waiting hs _ => rw [hs]; exact List.nil_prefix
  | answering g reply hx ha hle _ =>
    rw [hw.parse_sends hx] at hp
    injection hp with hp
    subst hp
    rw [← ha.reply_eq hw.calls]
    exact hle

/-- The loop goes on only after a frame that is no `Shutdown`. -/
theorem Served.not_shutsDown (h : Served maxPayloadLen e (.ok .continue)) (hw : Within v e) :
    ¬ v.ShutsDown maxPayloadLen := by
  intro hv
  obtain ⟨-, g, hg, hk⟩ := hv
  generalize hres : (Except.ok .continue : Except Error ConnectionOutcome) = res at h
  cases h with
  | unread => cases hres
  | refused => cases hres
  | answered f reply r hx _ _ =>
    rw [hw.parse_sends hx] at hg
    injection hg with hg
    subst hg
    cases r with
    | error err => cases hres
    | ok u => simp [Except.map, outcomeOf, hk] at hres

theorem AllServed.not_shutsDown (h : AllServed maxPayloadLen s₀ es s) (hps : Probes ps)
    (hm : Matches visits (es ++ ps)) :
    ∀ v ∈ visits.take (accepted (es ++ ps)).length, ¬ v.ShutsDown maxPayloadLen := by
  refine hm.forall_take ?_
  intro e he ha v hw
  rcases List.mem_append.mp he with he | he
  · exact (h.forall e he).2.not_shutsDown hw
  · rw [(hps e he).1] at ha
    cases ha

theorem dropLast_take_accepted (ha : e.accepted = true)
    (hv : visits[(accepted es).length]? = some v) :
    (visits.take (accepted (e :: es)).length).dropLast = visits.take (accepted es).length := by
  rw [length_accepted_cons ha, List.take_add_one, hv]
  simp

end Connection

/-- Everything there is to say about a moment of a run: the calls so far, the state,
the replies, and that no connection is served after a `Shutdown`. -/
structure Dispatched (maxPayloadLen : Nat) (visits : List Visit) (L : Ledger S) : Prop where
  /-- The requests of the accepted visits have been dispatched, but for the newest
  if it is still being read. -/
  payloads : (callsOf L.exchanges).map Call.payload
      = (visits.take (accepted L.exchanges).length).filterMap (requestPayload? maxPayloadLen) ∨
    L.stopped = [] ∧ (callsOf L.exchanges).map Call.payload
      = (visits.take (accepted L.exchanges).length).dropLast.filterMap
          (requestPayload? maxPayloadLen)
  /-- The state goes from `on_start` through the calls to `on_stop`. -/
  state : (L.started = [] ∧ L.stopped = [] ∧ callsOf L.exchanges = []) ∨
    ∃ s₀ s, L.started = [s₀] ∧ Chain s₀ (callsOf L.exchanges) s ∧
      (L.stopped = [] ∨ L.stopped = [s])
  /-- What goes out depends on the kind of the frame and the callback's result only. -/
  replies : ∀ e ∈ L.exchanges, e.accepted = true →
    ∃ v ∈ visits.take (accepted L.exchanges).length, Within v e ∧
      ∀ f, parse maxPayloadLen v.sends = .frame f → e.sent <+: (replyFor f.kind v.result).wire
  /-- A `Shutdown` is the last visit. -/
  last : ∀ v ∈ (visits.take (accepted L.exchanges).length).dropLast, ¬ v.ShutsDown maxPayloadLen

section Moment

variable {maxPayloadLen : Nat} {visits : List Visit} {L : Ledger S}

theorem RunInv.replies (h : RunInv maxPayloadLen L) (hm : Matches visits L.exchanges) :
    ∀ e ∈ L.exchanges, e.accepted = true →
      ∃ v ∈ visits.take (accepted L.exchanges).length, Within v e ∧
        ∀ f, parse maxPayloadLen v.sends = .frame f →
          e.sent <+: (replyFor f.kind v.result).wire := by
  intro e he ha
  obtain ⟨v, hv, hw⟩ := hm.exists_take he ha
  exact ⟨v, hv, hw, fun f hp => (h.inService e he ha).sent_le hw hp⟩

/-- A daemon whose event loop is over. -/
theorem Over.dispatched {s₀ s : S} {stopped : List S} (h : Over maxPayloadLen L s₀ s stopped)
    (hinv : RunInv maxPayloadLen L) (hm : Matches visits L.exchanges) :
    Dispatched maxPayloadLen visits L := by
  have hreplies := hinv.replies hm
  obtain ⟨ps, es, hps, hes, hfin⟩ := h.connections
  rw [hes] at hm
  refine ⟨.inl ?_, hinv.state, hreplies, ?_⟩
  · rw [hes]
    exact hfin.payloads hps hm
  · rw [hes]
    cases hfin with
    | served _ _ hall =>
      intro v hv
      exact hall.not_shutsDown hps hm v (List.dropLast_subset _ hv)
    | last e es s₁ _ r hall hr _ _ =>
      rw [List.cons_append] at hm ⊢
      obtain ⟨v₀, hv₀, -⟩ := hm.1 hr.1
      rw [dropLast_take_accepted hr.1 hv₀]
      exact hall.not_shutsDown hps hm.2
    | unready e es _ err hall ha _ _ _ _ =>
      rw [List.cons_append] at hm ⊢
      obtain ⟨v₀, hv₀, -⟩ := hm.1 ha
      rw [dropLast_take_accepted ha hv₀]
      exact hall.not_shutsDown hps hm.2

theorem RunInv.dispatched (h : RunInv maxPayloadLen L) (hm : Matches visits L.exchanges) :
    Dispatched maxPayloadLen visits L := by
  have hreplies := h.replies hm
  have hstate := h.state
  cases h with
  | starting hL =>
    subst hL
    refine ⟨.inl ?_, hstate, hreplies, ?_⟩
    · simp [accepted, callsOf]
    · intro v hv
      simp [accepted] at hv
  | «over» s₀ s h => exact h.dispatched (.over s₀ s h) hm
  | stopped s₀ s h => exact h.dispatched (.stopped s₀ s h) hm
  | running s₀ s ps cur es hstarted hstopped hps hes hall hcur =>
    rw [hes] at hm
    cases cur with
    | nil =>
      rw [List.nil_append] at hes hm
      refine ⟨.inl ?_, hstate, hreplies, ?_⟩
      · rw [hes]
        exact hall.payloads hps hm
      · rw [hes]
        intro v hv
        exact hall.not_shutsDown hps hm v (List.dropLast_subset _ hv)
    | cons e rest =>
      obtain rfl : rest = [] := by
        cases rest with
        | nil => rfl
        | cons e' rest => exact hcur.elim
      obtain ⟨ha, hready, hserv, s', hchain⟩ := hcur
      rw [List.cons_append, List.nil_append] at hes hm
      obtain ⟨v, hv, hw⟩ := hm.1 ha
      have hrest := hall.payloads hps hm.2
      refine ⟨?_, hstate, hreplies, ?_⟩
      · rw [hes]
        cases hserv with
        | waiting _ hc =>
          refine .inr ⟨hstopped, ?_⟩
          rw [dropLast_take_accepted ha hv, callsOf, hc, List.append_nil]
          exact hrest
        | answering f reply hx hans _ _ =>
          have hr : e.Ready := by
            rcases hready with hnil | hr
            · have hlen := congrArg List.length hx.eq_wire
              rw [hnil, length_wire] at hlen
              simp [headerLen] at hlen
              omega
            · exact hr
          refine .inl (payloads_cons ha hv hrest ?_)
          rw [requestPayload?_frame (hw.setup _ hr.2).symm (hw.parse_sends hx)]
          exact hans.payloads
      · rw [hes, dropLast_take_accepted ha hv]
        exact hall.not_shutsDown hps hm.2

end Moment

/-- **Requests reach the callback once, in order**: at every moment of every run of
the daemon, whatever the visits and whatever else fails. -/
theorem dispatch_in_order (config : DaemonConfig) (visits : List Visit) (h : History S)
    (hrun : Traces (runDaemon config : SysTry S Unit).run h) (hvisits : Visited visits {} h) :
    Dispatched config.maxPayloadLen visits (Ledger.of h) ∧
      ∀ r, Returns (runDaemon config : SysTry S Unit).run h r →
        (Ledger.of h).started ≠ [] → (Ledger.of h).stopped ≠ [] := by
  have hm : Matches visits (Ledger.of h).exchanges :=
    hvisits.matches (L := {}) trivial
  obtain ⟨q, hq⟩ := hrun
  have hinv := (@runDaemon_spec S config).always hq
  refine ⟨RunInv.dispatched hinv hm, ?_⟩
  intro r hr hstarted
  rcases (@runDaemon_spec S config).returns hr with hM | ⟨s₀, s, hover⟩
  · exact absurd (congrArg Ledger.started hM) hstarted
  · have hstopped : (Ledger.of h).stopped = [s] := hover.stopped
    rw [hstopped]
    exact List.cons_ne_nil _ _

/-- A peer that makes the request `7`, which is answered with `8`. -/
def requestVisit : Visit :=
  ⟨(⟨.request, 9, [7]⟩ : Frame).wire, .open, none, .ok (), .ok [8]⟩

/-- A daemon that starts, serves it, and leaves when the flag is set. -/
def requestRun : History Unit :=
  [⟨.registerSignal 2, .ok ()⟩, ⟨.registerSignal 15, .ok ()⟩, ⟨.onStart, .ok ()⟩,
    ⟨.createDirAll ["tmp"], .ok ()⟩, ⟨.pathExists ["tmp", "sockd.sock"], false⟩,
    ⟨.bind ["tmp", "sockd.sock"], .ok 0⟩, ⟨.listenerNonblocking 0 true, .ok ()⟩] ++
  acceptOne ++
  [⟨.read ⟨0, .server⟩ 12, .ok ⟨(⟨.request, 9, [7]⟩ : Frame).header.encode, by decide⟩⟩,
    ⟨.read ⟨0, .server⟩ 1, .ok ⟨[7], by decide⟩⟩, ⟨.onRequest () [7], (.ok [8], ())⟩,
    ⟨.write ⟨0, .server⟩ (⟨.response, 0, [8]⟩ : Frame).header.encode, .ok ⟨12, by decide⟩⟩,
    ⟨.write ⟨0, .server⟩ [8], .ok ⟨1, by decide⟩⟩,
    ⟨.closeStream ⟨0, .server⟩, ()⟩, ⟨.accept 0, .error ⟨.wouldBlock, ""⟩⟩, ⟨.loadFlag, true⟩,
    ⟨.closeListener 0, ()⟩, ⟨.removeFile ["tmp", "sockd.sock"], .ok ()⟩, ⟨.onStop (), .ok ()⟩]

theorem dispatch_in_order_request :
    Dispatched defaultMaxPayloadLen [requestVisit] (Ledger.of requestRun) ∧
      ∀ r, Returns (runDaemon {} : SysTry Unit Unit).run requestRun r →
        (Ledger.of requestRun).started ≠ [] → (Ledger.of requestRun).stopped ≠ [] := by
  have hrun : Returns (runDaemon {} : SysTry Unit Unit).run requestRun (.ok ()) :=
    returns_of_follow 60 (by rfl)
  refine dispatch_in_order {} [requestVisit] requestRun hrun.traces ?_
  refine ⟨trivial, trivial, trivial, trivial, trivial, trivial, trivial, trivial, trivial, trivial,
    trivial, Nat.zero_lt_one, ?_, trivial, ?_, ?_, ?_, ?_, ?_, trivial, trivial, trivial, trivial,
    trivial, trivial, trivial⟩
  · exact ⟨fun _ _ => ⟨requestVisit, rfl, rfl⟩, trivial⟩
  · exact ⟨fun _ _ => ⟨requestVisit, rfl, List.prefix_append _ _, fun _ h => nomatch h⟩, trivial⟩
  · exact ⟨fun _ _ => ⟨requestVisit, rfl, List.prefix_refl _, fun _ h => nomatch h⟩, trivial⟩
  · exact fun _ => ⟨requestVisit, rfl, rfl⟩
  · exact ⟨fun _ _ => ⟨requestVisit, rfl, fun _ => Nat.succ_pos _, fun _ h => nomatch h⟩, trivial⟩
  · exact ⟨fun _ _ => ⟨requestVisit, rfl, fun _ => Nat.succ_pos _, fun _ h => nomatch h⟩, trivial⟩

end Sockd
