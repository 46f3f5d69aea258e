import Sockd.Visits

/-!
# What the event loop survives

`run_event_loop` returns the error of a connection (`?` on `process_connection`,
which has `?` on `read_frame` and `write_frame`), so one peer that does not send a
whole frame, or does not take the whole reply, ends the daemon. The loop is left
for one of the three documented reasons iff every accepted visit is `Harmless`.
-/

namespace Sockd

open Rust Effects Effects.Prog

variable {S : Type}

/-- A visit that leaves the loop running: a whole frame within the limit, and a reply
that fits its length field and is taken. -/
def Visit.Harmless (maxPayloadLen : Nat) (v : Visit) : Prop :=
  v.setup = .ok () ∧ ∃ f, parse maxPayloadLen v.sends = .frame f ∧
    (replyFor f.kind v.result).Fits ∧
    ∀ n, v.takes = some n → (replyFor f.kind v.result).wire.length ≤ n

/-- One of the three reasons to leave the loop: the flag was set, the idle timeout
had elapsed, or the last frame that was read is a `Shutdown`. -/
def LeftProperly (config : DaemonConfig) (M : Ledger S) : Prop :=
  M.flag = true ∨
  (∃ t₀ t, M.lastActivity = some t₀ ∧ M.lastNow = some t ∧
    config.idleTimeout.nanos ≤ (t.durationSince t₀).nanos) ∨
  ∃ e es f, M.exchanges = e :: es ∧ parse config.maxPayloadLen e.received = .frame f ∧
    f.kind = .shutdown

section Visit

variable {visits : List Visit} {v : Visit} {e : Exchange S} {es : List (Exchange S)}
  {f : Frame} {maxPayloadLen : Nat}

/-- The reply depends on the kind, and for a request on the callback's result. -/
theorem Answered.reply_eq {calls : List (Call S)} {reply : Frame} {result : CallbackResult Bytes}
    (h : Answered f calls reply) (hc : ∀ c ∈ calls, c.result = result) :
    reply = replyFor f.kind result := by
  cases h with
  | request c hk _ =>
    rw [hk, ← hc c (by simp)]
    rfl
  | other hk =>
    cases hkind : f.kind with
    | request => exact absurd hkind hk
    | ping | shutdown | response | pong | error | shutdownAck => rfl

/-- A frame that was read is what the peer sent first. -/
theorem Within.parse_sends (hw : Within v e) (hx : Exact maxPayloadLen f e.received) :
    parse maxPayloadLen v.sends = .frame f := by
  obtain ⟨rest, hrest⟩ := hw.received
  rw [← hrest, hx.eq_wire]
  exact parse_wire hx.fits hx.le_max rest

theorem Exact.parse {d : Bytes} (hx : Exact maxPayloadLen f d) :
    Sockd.parse maxPayloadLen d = .frame f := by
  have h := parse_wire hx.fits hx.le_max []
  rwa [List.append_nil, ← hx.eq_wire] at h

theorem Served.harmless {o : ConnectionOutcome} (h : Served maxPayloadLen e (.ok o))
    (hw : Within v e) (hr : e.Ready) : v.Harmless maxPayloadLen := by
  refine ⟨(hw.setup _ hr.2).symm, ?_⟩
  generalize hres : (Except.ok o : Except Error ConnectionOutcome) = res at h
  cases h with
  | unread => cases hres
  | refused => cases hres
  | answered f reply r hx ha hs =>
    refine ⟨f, hw.parse_sends hx, ?_⟩
    obtain rfl := ha.reply_eq hw.calls
    cases hs with
    | all hfit hsent =>
      refine ⟨hfit, fun n hn => ?_⟩
      rw [← hsent]
      exact hw.sent n hn
    | tooLarge => cases hres
    | part => cases hres

theorem Served.not_harmless {err : Error} (h : Served maxPayloadLen e (.error err))
    (hw : Within v e) : ¬ v.Harmless maxPayloadLen := by
  intro hh
  obtain ⟨-, g, hg, hfit, htakes⟩ := hh
  generalize hres : (Except.error err : Except Error ConnectionOutcome) = res at h
  cases h with
  | unread io hmore _ _ hmem =>
    rw [← hw.readFaults (List.ne_nil_of_mem hmem), hmore] at hg
    cases hg
  | refused e' hrej _ _ =>
    obtain ⟨rest, hrest⟩ := hw.received
    rw [← hrest, parse_reject_append hrej] at hg
    cases hg
  | answered f reply r hx ha hs =>
    rw [hw.parse_sends hx] at hg
    injection hg with hg
    subst hg
    obtain rfl := ha.reply_eq hw.calls
    cases hs with
    | all => cases hres
    | tooLarge hbig _ => exact hbig hfit
    | part io _ _ hlt hmem =>
      have hle := htakes _ (hw.writeFaults (List.ne_nil_of_mem hmem))
      omega

/-- The visits that were accepted are those of the accepted connections. -/
theorem Matches.forall_take {P : Visit → Prop} (hm : Matches visits es)
    (h : ∀ e ∈ es, e.accepted = true → ∀ v, Within v e → P v) :
    ∀ v ∈ visits.take (accepted es).length, P v := by
  induction es with
  | nil => intro v hv; simp [accepted] at hv
  | cons e es ih =>
    have hrest := ih hm.2 fun e' he' => h e' (by simp [he'])
    by_cases ha : e.accepted = true
    · obtain ⟨v₀, hv₀, hw⟩ := hm.1 ha
      have hlen : (accepted (e :: es)).length = (accepted es).length + 1 := by
        simp [accepted, ha]
      intro v hv
      rw [hlen, List.take_add_one, hv₀, List.mem_append] at hv
      rcases hv with hv | hv
      · exact hrest v hv
      · rw [List.mem_singleton.mp hv]
        exact h e (by simp) ha v₀ hw
    · have hlen : accepted (e :: es) = accepted es := by simp [accepted, ha]
      rw [hlen]
      exact hrest

/-- Each accepted connection has its visit among them. -/
theorem Matches.exists_take (hm : Matches visits es) (he : e ∈ es) (ha : e.accepted = true) :
    ∃ v ∈ visits.take (accepted es).length, Within v e := by
  induction es with
  | nil => cases he
  | cons e' es ih =>
    rcases List.mem_cons.mp he with rfl | he
    · obtain ⟨v, hv, hw⟩ := hm.1 ha
      have hlen : (accepted (e :: es)).length = (accepted es).length + 1 := by
        simp [accepted, ha]
      refine ⟨v, ?_, hw⟩
      rw [hlen, List.take_add_one, hv]
      simp
    · obtain ⟨v, hv, hw⟩ := ih hm.2 he
      refine ⟨v, ?_, hw⟩
      have hle : (accepted es).length ≤ (accepted (e' :: es)).length := by
        simp only [accepted, List.filter_cons]
        split <;> simp
      exact List.take_subset_take_left _ hle hv

end Visit

/-- **What the event loop survives**: a run of it that ends was left for one of the
three reasons, with `Ok`, iff every connection it accepted was harmless. -/
theorem survival_iff_harmless (config : DaemonConfig) (listener : Nat) (state : S)
    (visits : List Visit) (h : History S) (out : Except Error Unit × S)
    (hrun : Returns (runEventLoop config listener state) h out) (hvisits : Conforms visits {} h) :
    (out.1 = .ok () ∧ LeftProperly config (Ledger.of h)) ↔
      ∀ v ∈ visits.take (accepted (Ledger.of h).exchanges).length,
        v.Harmless config.maxPayloadLen := by
  have hend := (runEventLoop_spec (L := {}) rfl).returns hrun
  have hexp : Explained visits (Ledger.of h) :=
    hvisits.explained (.empty visits)
  have hm := hexp.connections
  change LoopEnd config {} state (Ledger.of h) out.1 out.2 at hend
  -- connections that were served are harmless
  have hall : ∀ {es : List (Exchange S)} {s : S}, AllServed config.maxPayloadLen state es s →
      ∀ e ∈ es, e.accepted = true → ∀ v, Within v e → v.Harmless config.maxPayloadLen := by
    intro es s hes e he _ v hw
    obtain ⟨hr, hserved⟩ := hes.forall e he
    exact hserved.harmless hw hr
  generalize hr : out.1 = res at hend
  cases hend with
  | flag es _ hes hserved hflag =>
    rw [List.append_nil] at hes
    refine iff_of_true ⟨rfl, .inl hflag⟩ (hm.forall_take ?_)
    rw [hes]
    exact hall hserved
  | idle es _ t₀ t hes hserved h₁ h₂ h₃ =>
    rw [List.append_nil] at hes
    refine iff_of_true ⟨rfl, .inr (.inl ⟨t₀, t, h₁, h₂, h₃⟩)⟩ (hm.forall_take ?_)
    rw [hes]
    exact hall hserved
  | shutdown e es s₁ _ hes hserved hready hlast _ =>
    rw [List.append_nil] at hes
    refine iff_of_true ⟨rfl, .inr (.inr ?_)⟩ (hm.forall_take ?_)
    · generalize hres : (Except.ok .shutdown : Except Error ConnectionOutcome) = res at hlast
      cases hlast with
      | unread => cases hres
      | refused => cases hres
      | answered f reply r hx _ _ =>
        refine ⟨e, es, f, hes, hx.parse, ?_⟩
        cases r with
        | error err => cases hres
        | ok u =>
          cases hk : f.kind with
          | shutdown => rfl
          | request | response | ping | pong | error | shutdownAck =>
            simp [Except.map, outcomeOf, hk] at hres
    · rw [hes]
      intro e' he' ha v hw
      rcases List.mem_cons.mp he' with rfl | he'
      · exact hlast.harmless hw hready
      · exact hall hserved e' he' ha v hw
  | failed e es s₁ _ err hes hserved hready hlast _ =>
    refine iff_of_false (fun hok => ?_) (fun hharm => ?_)
    · cases hok.1
    · obtain ⟨v, hv, hw⟩ := hm.exists_take (e := e) (by rw [hes]; simp) hready.1
      exact hlast.not_harmless hw (hharm v hv)
  | setup e es _ err hes _ ha hset _ _ _ =>
    refine iff_of_false (fun hok => ?_) (fun hharm => ?_)
    · cases hok.1
    · obtain ⟨v, hv, hw⟩ := hm.exists_take (e := e) (by rw [hes]; simp) ha
      have hv' := (hw.setup _ hset).trans (hharm v hv).1
      cases hv'
  | listener es _ err hes hserved hmem =>
    rw [hexp.listener] at hmem
    cases hmem

/-! ## A visit that ends the daemon, and one that does not -/

/-- The clock of the runs below stands still. -/
def noon : Instant := .zero

/-- What the event loop does up to the first byte of a connection. -/
def acceptOne : History Unit :=
  [⟨.now, noon⟩, ⟨.loadFlag, false⟩, ⟨.now, noon⟩, ⟨.poll 0 250, .ok ⟨1, true⟩⟩,
    ⟨.accept 0, .ok ⟨0, .server⟩⟩, ⟨.streamNonblocking ⟨0, .server⟩ false, .ok ()⟩, ⟨.now, noon⟩]

/-- A peer that connects and closes. -/
def silentVisit : Visit := ⟨[], .closed, none, .ok (), .ok []⟩

/-- The run that it ends. -/
def silentRun : History Unit :=
  acceptOne ++ [⟨.read ⟨0, .server⟩ 12, .ok (nothing 12)⟩, ⟨.closeStream ⟨0, .server⟩, ()⟩]

/-- A peer that pings. -/
def pingVisit : Visit := ⟨(⟨.ping, 0, []⟩ : Frame).wire, .open, none, .ok (), .ok []⟩

/-- The run in which it is answered, before the flag is set. -/
def pingRun : History Unit :=
  acceptOne ++
    [⟨.read ⟨0, .server⟩ 12, .ok ⟨(⟨.ping, 0, []⟩ : Frame).wire, by decide⟩⟩,
      ⟨.write ⟨0, .server⟩ (⟨.pong, 0, []⟩ : Frame).wire, .ok ⟨12, by decide⟩⟩,
      ⟨.closeStream ⟨0, .server⟩, ()⟩, ⟨.accept 0, .error ⟨.wouldBlock, ""⟩⟩, ⟨.loadFlag, true⟩]

/-- The event loop does not survive every visit: a peer that closes without sending
makes it return `UnexpectedEof`. -/
theorem silent_peer_ends_loop :
    ¬ ∀ (config : DaemonConfig) (listener : Nat) (state : Unit) (visits : List Visit)
      (h : History Unit) (out : Except Error Unit × Unit),
      Returns (runEventLoop config listener state) h out → Conforms visits {} h →
        out.1 = .ok () ∧ LeftProperly config (Ledger.of h) := by
  intro hclaim
  have hrun : Returns (runEventLoop {} 0 ()) silentRun (.error (.io readExactEof), ()) :=
    returns_of_follow 40 (by rfl)
  have hvisits : Conforms [silentVisit] {} silentRun := by
    refine ⟨trivial, trivial, trivial, trivial, Nat.zero_lt_one, ?_, trivial, ?_, trivial, trivial⟩
    · exact ⟨fun _ _ => ⟨silentVisit, rfl, rfl⟩, trivial⟩
    · exact ⟨fun _ _ => ⟨silentVisit, rfl, List.nil_prefix, fun _ _ => ⟨rfl, rfl⟩⟩, trivial⟩
  have hok := (hclaim {} 0 () [silentVisit] silentRun _ hrun hvisits).1
  cases hok

/-- The run that answers a ping. -/
theorem survival_iff_harmless_ping :
    ((.ok () : Except Error Unit) = .ok () ∧ LeftProperly {} (Ledger.of pingRun)) ↔
      ∀ v ∈ [pingVisit].take (accepted (Ledger.of pingRun).exchanges).length,
        v.Harmless defaultMaxPayloadLen := by
  refine survival_iff_harmless {} 0 () [pingVisit] pingRun (.ok (), ())
    (returns_of_follow 40 (by rfl)) ?_
  refine ⟨trivial, trivial, trivial, trivial, Nat.zero_lt_one, ?_, trivial, ?_, ?_, trivial, rfl,
    trivial, trivial⟩
  · exact ⟨fun _ _ => ⟨pingVisit, rfl, rfl⟩, trivial⟩
  · exact ⟨fun _ _ => ⟨pingVisit, rfl, List.prefix_refl _, fun _ h => nomatch h⟩, trivial⟩
  · exact ⟨fun _ _ => ⟨pingVisit, rfl, fun _ => Nat.succ_pos _, fun _ h => nomatch h⟩, trivial⟩

end Sockd
