import Sockd.Serving

/-!
# The event loop of the daemon

The nested loops of `run_event_loop`, on top of the specification of one
connection. At the head of a round all connections accepted so far have been
served, the state having gone through their calls (`AtHead`); `LoopEnd` says why
the loop is over. Both loops keep the one invariant `LoopInv`, which allows for a
newest connection that is not finished.
-/

namespace Sockd

open Rust Effects Effects.Prog

variable {S : Type}

/-- A connection that was accepted and made blocking. -/
def Exchange.Ready (e : Exchange S) : Prop := e.accepted = true ∧ e.setup = some (.ok ())

/-- The connections `es`, newest first, have been served one after another, the
state going from `s` to the last argument. -/
def AllServed (maxPayloadLen : Nat) (s : S) : List (Exchange S) → S → Prop
  | [], s' => s' = s
  | e :: es, s' => ∃ s₁, AllServed maxPayloadLen s es s₁ ∧ e.Ready ∧
      Served maxPayloadLen e (.ok .continue) ∧ Chain s₁ e.calls s'

theorem AllServed.forall {maxPayloadLen : Nat} {s₀ : S} {es : List (Exchange S)} :
    ∀ {s : S}, AllServed maxPayloadLen s₀ es s →
      ∀ e ∈ es, e.Ready ∧ Served maxPayloadLen e (.ok .continue) := by
  induction es with
  | nil => intro s _ e he; cases he
  | cons e' es ih =>
    intro s h e he
    obtain ⟨s₁, hall, hr, hserved, -⟩ := h
    rcases List.mem_cons.mp he with rfl | he
    · exact ⟨hr, hserved⟩
    · exact ih hall e he

/-- The connection being served, if there is one. -/
def Current (maxPayloadLen : Nat) (s : S) : List (Exchange S) → Prop
  | [] => True
  | [e] => e.accepted = true ∧ (e.received = [] ∨ e.Ready) ∧ InService maxPayloadLen e ∧
    ∃ s', Chain s e.calls s'
  | _ => False

/-- At every moment of the event loop that began with the ledger `L` and the state
`s₀`. -/
structure LoopInv (maxPayloadLen : Nat) (L : Ledger S) (s₀ : S) (M : Ledger S) : Prop where
  started : M.started = L.started
  stopped : M.stopped = L.stopped
  connections : ∃ cur es s, M.exchanges = cur ++ (es ++ L.exchanges) ∧
    AllServed maxPayloadLen s₀ es s ∧ Current maxPayloadLen s cur

/-- At the head of a round, with the loop's variables `t` and `s`. -/
structure AtHead (maxPayloadLen : Nat) (L : Ledger S) (s₀ : S) (t : Instant) (s : S)
    (M : Ledger S) : Prop where
  started : M.started = L.started
  stopped : M.stopped = L.stopped
  armed : M.armed = false
  lastActivity : M.lastActivity = some t
  connections : ∃ es, M.exchanges = es ++ L.exchanges ∧ AllServed maxPayloadLen s₀ es s

/-- Why the event loop is over, its result, and the state it leaves. -/
inductive LoopEnd (config : DaemonConfig) (L : Ledger S) (s₀ : S) (M : Ledger S) :
    Except Error Unit → S → Prop
  | flag (es : List (Exchange S)) (s : S) : M.exchanges = es ++ L.exchanges →
      AllServed config.maxPayloadLen s₀ es s → M.flag = true → LoopEnd config L s₀ M (.ok ()) s
  | idle (es : List (Exchange S)) (s : S) (t₀ t : Instant) : M.exchanges = es ++ L.exchanges →
      AllServed config.maxPayloadLen s₀ es s → M.lastActivity = some t₀ → M.lastNow = some t →
      config.idleTimeout.nanos ≤ (t.durationSince t₀).nanos → LoopEnd config L s₀ M (.ok ()) s
  | shutdown (e : Exchange S) (es : List (Exchange S)) (s₁ s : S) :
      M.exchanges = e :: (es ++ L.exchanges) → AllServed config.maxPayloadLen s₀ es s₁ →
      e.Ready → Served config.maxPayloadLen e (.ok .shutdown) →
      Chain s₁ e.calls s → LoopEnd config L s₀ M (.ok ()) s
  | failed (e : Exchange S) (es : List (Exchange S)) (s₁ s : S) (err : Error) :
      M.exchanges = e :: (es ++ L.exchanges) → AllServed config.maxPayloadLen s₀ es s₁ →
      e.Ready → Served config.maxPayloadLen e (.error err) →
      Chain s₁ e.calls s → LoopEnd config L s₀ M (.error err) s
  | setup (e : Exchange S) (es : List (Exchange S)) (s : S) (err : IoError) :
      M.exchanges = e :: (es ++ L.exchanges) → AllServed config.maxPayloadLen s₀ es s →
      e.accepted = true → e.setup = some (.error err) → e.received = [] → e.sent = [] → e.calls = [] →
      LoopEnd config L s₀ M (.error (.io err)) s
  | listener (es : List (Exchange S)) (s : S) (err : IoError) : M.exchanges = es ++ L.exchanges →
      AllServed config.maxPayloadLen s₀ es s → err ∈ M.listenerFaults →
      LoopEnd config L s₀ M (.error (.io err)) s

section Loop

variable {config : DaemonConfig} {listener : Nat} {L M : Ledger S} {s₀ s : S} {t : Instant}

theorem AtHead.inv (h : AtHead config.maxPayloadLen L s₀ t s M) :
    LoopInv config.maxPayloadLen L s₀ M := by
  obtain ⟨es, hes, hall⟩ := h.connections
  exact ⟨h.started, h.stopped, [], es, s, hes, hall, trivial⟩

/-- What the accept loop leaves to the event loop. -/
def AfterDrain (config : DaemonConfig) (L : Ledger S) (s₀ : S) (d : Drained S) (M : Ledger S) :
    Prop :=
  match d with
  | .wouldBlock t s => AtHead config.maxPayloadLen L s₀ t s M
  | .over result s => LoopEnd config L s₀ M result s

/-- What an answer of `accept` that is no connection leads to. -/
theorem acceptError_spec {err : IoError} (h : AtHead config.maxPayloadLen L s₀ t s M) :
    Spec Ledger.step (M.step ⟨.accept listener, .error err⟩)
      (if err.kind = .wouldBlock then .ret (.inr (.wouldBlock t s))
        else .ret (.inr (.over (.error (.io err)) s)))
      (LoopInv config.maxPayloadLen L s₀)
      (fun r => Sum.elim (fun x : Instant × S => AtHead config.maxPayloadLen L s₀ x.1 x.2)
        (AfterDrain config L s₀) r) := by
  obtain ⟨es, hes, hall⟩ := h.connections
  have hinv : LoopInv config.maxPayloadLen L s₀ (M.step ⟨.accept listener, .error err⟩) :=
    ⟨h.started, h.stopped, [], es, s, hes, hall, trivial⟩
  split
  next hk => exact .ret hinv ⟨h.started, h.stopped, h.armed, h.lastActivity, es, hes, hall⟩
  next hk =>
    refine .ret hinv (.listener es s err hes hall ?_)
    show err ∈ M.listenerFaults ++ faultOf (α := Unit) .wouldBlock (.error err)
    simp [faultOf, hk]

/-- What the outcome of a connection leads to. -/
theorem afterConnection_spec {e₀ : Exchange S} {es : List (Exchange S)}
    {out : Except Error ConnectionOutcome × S} {M' : Ledger S}
    (hM : Newest M (es ++ L.exchanges) (AfterServing config.maxPayloadLen e₀ s out) M')
    (hready : e₀.Ready) (hall : AllServed config.maxPayloadLen s₀ es s)
    (hstarted : M.started = L.started) (hstopped : M.stopped = L.stopped)
    (harmed : M.armed = false) (hlast : M.lastActivity = some t) :
    Spec Ledger.step M'
      (match out.1 with
        | .ok .continue => .ret (.inl (t, out.2))
        | .ok .shutdown => .ret (.inr (.over (.ok ()) out.2))
        | .error err => .ret (.inr (.over (.error err) out.2)))
      (LoopInv config.maxPayloadLen L s₀)
      (fun r => Sum.elim (fun x : Instant × S => AtHead config.maxPayloadLen L s₀ x.1 x.2)
        (AfterDrain config L s₀) r) := by
  obtain ⟨e, rfl, ⟨-, hacc, hset⟩, hserved, hchain⟩ := hM
  obtain ⟨res, s'⟩ := out
  have hr : e.Ready := ⟨hacc.trans hready.1, hset.trans hready.2⟩
  have hinv : LoopInv config.maxPayloadLen L s₀ (M.withExchanges (e :: (es ++ L.exchanges))) :=
    ⟨hstarted, hstopped, [e], es, s, rfl, hall, hr.1, .inr hr, hserved.inService, s', hchain⟩
  cases res with
  | ok o =>
    cases o with
    | «continue» =>
      refine .ret hinv ⟨hstarted, hstopped, harmed, hlast, e :: es, rfl, ?_⟩
      exact ⟨s, hall, hr, hserved, hchain⟩
    | shutdown => exact .ret hinv (.shutdown e es s s' rfl hall hr hserved hchain)
  | error err => exact .ret hinv (.failed e es s s' err rfl hall hr hserved hchain)

/-- One connection: accepted, and served. -/
theorem acceptRound_spec (h : AtHead config.maxPayloadLen L s₀ t s M) :
    Spec Ledger.step M (acceptRound config listener (t, s)) (LoopInv config.maxPayloadLen L s₀)
      (fun r => Sum.elim (fun x : Instant × S => AtHead config.maxPayloadLen L s₀ x.1 x.2)
        (AfterDrain config L s₀) r) := by
  obtain ⟨es, hes, hall⟩ := h.connections
  refine Spec.call h.inv fun a => ?_
  cases a with
  | error err => exact acceptError_spec h
  | ok stream =>
    -- the new connection, nothing done on it yet
    have hnew : (M.step ⟨.accept listener, .ok stream⟩).exchanges
        = { stream := stream, accepted := true } :: (es ++ L.exchanges) := by
      show _ :: M.exchanges = _
      rw [hes]
    generalize hM₁ : M.step ⟨.accept listener, .ok stream⟩ = M₁ at hnew
    have hstarted : M₁.started = L.started := by rw [← hM₁]; exact h.started
    have hstopped : M₁.stopped = L.stopped := by rw [← hM₁]; exact h.stopped
    have harmed : M₁.armed = true := by rw [← hM₁]; rfl
    have hcur : ∀ e : Exchange S, e.accepted = true → e.received = [] → e.sent = [] →
        e.calls = [] → Current config.maxPayloadLen s [e] := by
      intro e ha hr hs hc
      exact ⟨ha, .inl hr, .waiting hs hc, s, by rw [hc]; rfl⟩
    refine Spec.call ⟨hstarted, hstopped, [_], es, s, hnew, hall, hcur _ rfl rfl rfl rfl⟩ fun b => ?_
    have hset : (M₁.step ⟨.streamNonblocking stream false, b⟩)
        = M₁.withExchanges 
          ({ stream := stream, accepted := true, setup := some b } :: (es ++ L.exchanges)) := by
      show M₁.withExchanges (touch stream _ M₁.exchanges) = _
      rw [hnew, touch, if_pos rfl]
    rw [hset]
    cases b with
    | error err =>
      refine Spec.call ⟨hstarted, hstopped, [_], es, s, rfl, hall, hcur _ rfl rfl rfl rfl⟩ fun _ => ?_
      exact .ret ⟨hstarted, hstopped, [_], es, s, rfl, hall, hcur _ rfl rfl rfl rfl⟩
        (.setup _ es s err rfl hall rfl rfl rfl rfl rfl)
    | ok u =>
      refine Spec.call ⟨hstarted, hstopped, [_], es, s, rfl, hall, hcur _ rfl rfl rfl rfl⟩
        fun (t' : Instant) => ?_
      generalize hM₂ : (M₁.withExchanges _).step ⟨.now, t'⟩ = M₂
      have hM₂' : M₂ = M₂.withExchanges
          ({ stream := stream, accepted := true, setup := some (.ok ()) } :: (es ++ L.exchanges)) := by
        rw [← hM₂]; rfl
      have hstarted₂ : M₂.started = L.started := by rw [← hM₂]; exact hstarted
      have hstopped₂ : M₂.stopped = L.stopped := by rw [← hM₂]; exact hstopped
      have harmed₂ : M₂.armed = false := by rw [← hM₂]; rfl
      have hlast₂ : M₂.lastActivity = some t' := by
        rw [← hM₂]
        show (if M₁.armed = true then some t' else _) = some t'
        exact if_pos harmed
      show Spec _ _ ((processConnection config stream s).bind _) _ _
      refine Spec.bind ((processConnection_spec hM₂' rfl rfl rfl).mono ?_ fun _ _ h => h) ?_
      · intro M' hM'
        obtain ⟨e, rfl, hw⟩ := hM'
        exact ⟨hstarted₂, hstopped₂, [e], es, s, rfl, hall, hw.same.2.1,
          .inr ⟨hw.same.2.1, hw.same.2.2⟩, hw.inService, hw.chain⟩
      · intro out M' _ hM'
        exact afterConnection_spec hM' ⟨rfl, rfl⟩ hall hstarted₂ hstopped₂ harmed₂ hlast₂

/-- The accept loop. -/
theorem acceptLoop_spec (h : AtHead config.maxPayloadLen L s₀ t s M) :
    Spec Ledger.step M (acceptLoop config listener t s) (LoopInv config.maxPayloadLen L s₀)
      (AfterDrain config L s₀) := by
  refine Spec.loop (fun x : Instant × S => AtHead config.maxPayloadLen L s₀ x.1 x.2)
    (AfterDrain config L s₀) h ?_ ?_
  · intro x M' hx
    exact acceptRound_spec hx
  · intro d M' hΦ hd
    exact .ret hΦ hd

/-- `poll_listener` changes nothing, and fails only with a failure of `poll`. -/
theorem pollListener_spec {timeout : Duration} (h : AtHead config.maxPayloadLen L s₀ t s M) :
    Spec Ledger.step M (pollListener listener timeout).run (LoopInv config.maxPayloadLen L s₀)
      (fun r M' => AtHead config.maxPayloadLen L s₀ t s M' ∧
        ∀ err, r = .error err → ∃ io, err = .io io ∧ io ∈ M'.listenerFaults) := by
  obtain ⟨es, hes, hall⟩ := h.connections
  refine Spec.call h.inv fun a => ?_
  have h' : AtHead config.maxPayloadLen L s₀ t s
      (M.step ⟨.poll listener (pollTimeoutMs timeout), a⟩) :=
    ⟨h.started, h.stopped, h.armed, h.lastActivity, es, hes, hall⟩
  cases a with
  | ok p =>
    refine .ret h'.inv ⟨h', ?_⟩
    intro err herr
    cases herr
  | error io =>
    show Spec _ _ (Try.run (if io.kind = .interrupted then pure false
      else Try.fail (Error.io io))) _ _
    rw [Try.run_ite]
    split
    next hk =>
      refine .ret h'.inv ⟨h', ?_⟩
      intro err herr
      cases herr
    next hk =>
      refine .ret h'.inv ⟨h', ?_⟩
      intro err herr
      cases herr
      refine ⟨io, rfl, ?_⟩
      show io ∈ M.listenerFaults ++ faultOf (α := Polled) .interrupted (.error io)
      simp [faultOf, hk]

/-- One round of the event loop. -/
theorem eventRound_spec (h : AtHead config.maxPayloadLen L s₀ t s M) :
    Spec Ledger.step M (eventRound config listener (t, s)) (LoopInv config.maxPayloadLen L s₀)
      (fun r => Sum.elim (fun x : Instant × S => AtHead config.maxPayloadLen L s₀ x.1 x.2)
        (fun out M => LoopEnd config L s₀ M out.1 out.2) r) := by
  obtain ⟨es, hes, hall⟩ := h.connections
  refine Spec.call h.inv fun b => ?_
  have h₁ : AtHead config.maxPayloadLen L s₀ t s (M.step ⟨.loadFlag, b⟩) :=
    ⟨h.started, h.stopped, h.armed, h.lastActivity, es, hes, hall⟩
  cases b with
  | true => exact .ret h₁.inv (.flag es s hes hall rfl)
  | false =>
    generalize hM₁ : M.step ⟨.loadFlag, false⟩ = M₁ at h₁
    obtain ⟨es, hes, hall⟩ := h₁.connections
    refine Spec.call h₁.inv fun (t' : Instant) => ?_
    have hlast : (M₁.step ⟨.now, t'⟩).lastActivity = some t := by
      show (if M₁.armed = true then some t' else M₁.lastActivity) = some t
      rw [h₁.armed]
      exact h₁.lastActivity
    have h₂ : AtHead config.maxPayloadLen L s₀ t s (M₁.step ⟨.now, t'⟩) :=
      ⟨h₁.started, h₁.stopped, rfl, hlast, es, hes, hall⟩
    have hnow : (M₁.step ⟨.now, t'⟩).lastNow = some t' := rfl
    generalize M₁.step ⟨.now, t'⟩ = M₂ at h₂ hnow
    show Spec _ _ (if _ then _ else _) _ _
    split
    next hz =>
      obtain ⟨es, hes, hall⟩ := h₂.connections
      refine .ret h₂.inv (.idle es s t t' hes hall h₂.lastActivity hnow ?_)
      have hz := (Duration.isZero_iff _).mp hz
      rw [Duration.nanos_saturatingSub] at hz
      omega
    next hz =>
      refine Spec.bind (pollListener_spec h₂) ?_
      intro r M₃ _ hr
      obtain ⟨h₃, herr⟩ := hr
      cases r with
      | error err =>
        obtain ⟨es, hes, hall⟩ := h₃.connections
        obtain ⟨io, rfl, hio⟩ := herr err rfl
        exact .ret h₃.inv (.listener es s io hes hall hio)
      | ok ready =>
        cases ready with
        | false => exact .ret h₃.inv h₃
        | true =>
          refine Spec.bind (acceptLoop_spec h₃) ?_
          intro d M₄ hΦ hd
          cases d with
          | wouldBlock t s => exact .ret hΦ hd
          | «over» result s => exact .ret hΦ hd

/-- **The event loop**, whatever the answers: what holds at every moment, and why it
is over when it is. -/
theorem runEventLoop_spec (harmed : L.armed = true) :
    Spec Ledger.step L (runEventLoop config listener s) (LoopInv config.maxPayloadLen L s)
      (fun out M => LoopEnd config L s M out.1 out.2) := by
  have hinv : LoopInv config.maxPayloadLen L s L := ⟨rfl, rfl, [], [], s, rfl, rfl, trivial⟩
  refine Spec.call hinv fun (t : Instant) => ?_
  have hlast : (L.step ⟨.now, t⟩).lastActivity = some t := by
    show (if L.armed = true then some t else L.lastActivity) = some t
    exact if_pos harmed
  have hhead : AtHead config.maxPayloadLen L s t s (L.step ⟨.now, t⟩) :=
    ⟨rfl, rfl, rfl, hlast, [], rfl, rfl⟩
  refine Spec.loop (fun x : Instant × S => AtHead config.maxPayloadLen L s x.1 x.2)
    (fun out M => LoopEnd config L s M out.1 out.2) hhead ?_ ?_
  · intro x M hx
    exact eventRound_spec hx
  · intro out M hΦ hout
    exact .ret hΦ hout

end Loop

end Sockd
