import Sockd.Calls
import Sockd.Serving

/-!
# A client's conversations

What a client does on a connection, as the entry of its ledger says it: it sends one
frame, then reads one (`Talked`). A failed conversation is repeated only after an error
that `matches_recoverable_connect_error` accepts. No stream fails with one of these
(`FailedLikeConnect` says that one did), so what is repeated is a connect: at most one
conversation of a call is about its request (`request_spec`), and the result of the
call is what came of it.
-/

namespace Sockd

open Rust Effects Effects.Prog Ledger

variable {S : Type}

/-! ## One conversation -/

/-- A connection of a client that sends the frame `f`. -/
structure Talking (f : Frame) (e : Exchange S) : Prop where
  opened : e.accepted = false
  calls : e.calls = []
  sent_le : e.sent <+: f.wire
  fits : f.Fits ∨ e.sent = []
  /-- Nothing is read before everything was sent. -/
  received : e.received = [] ∨ e.sent = f.wire

/-- What came of sending `f` and reading one frame. -/
inductive Outcome (maxPayloadLen : Nat) (f : Frame) (e : Exchange S) : Except Error Frame → Prop
  | unsent (err : Error) : ReplySent f e (.error err) → e.received = [] →
      Outcome maxPayloadLen f e (.error err)
  | unread (err : IoError) : e.sent = f.wire → parse maxPayloadLen e.received = .more →
      err ∈ e.readFaults → Outcome maxPayloadLen f e (.error (.io err))
  | refused (err : Error) : e.sent = f.wire → parse maxPayloadLen e.received = .reject err →
      Outcome maxPayloadLen f e (.error err)
  | replied (g : Frame) : e.sent = f.wire → Exact maxPayloadLen g e.received →
      Outcome maxPayloadLen f e (.ok g)

/-- A connection of a client that is done with sending `f` and reading. -/
structure Talked (maxPayloadLen : Nat) (f : Frame) (e : Exchange S) (r : Except Error Frame) :
    Prop where
  talking : Talking f e
  outcome : Outcome maxPayloadLen f e r

/-- A stream has failed in a way in which only `connect` should. -/
def FailedLikeConnect (M : Ledger S) : Prop :=
  ∃ e ∈ M.exchanges, ∃ err ∈ e.readFaults ++ e.writeFaults,
    matchesRecoverableConnectError err = true

/-- Only errors of streams are recoverable. -/
theorem canAttemptRecovery_io {err : Error} (h : canAttemptRecovery err = true) :
    ∃ io, err = .io io ∧ matchesRecoverableConnectError io = true := by
  cases err with
  | io io => exact ⟨io, rfl, h⟩
  | _ => cases h

/-- A conversation fails recoverably only when the stream fails like a connect. -/
theorem Talked.recoverable {maxPayloadLen : Nat} {f : Frame} {e : Exchange S} {err : Error}
    (h : Talked maxPayloadLen f e (.error err)) (hrec : canAttemptRecovery err = true) :
    ∃ io ∈ e.readFaults ++ e.writeFaults, matchesRecoverableConnectError io = true := by
  obtain ⟨io, rfl, hm⟩ := canAttemptRecovery_io hrec
  obtain ⟨-, hout⟩ := h
  cases hout with
  | unsent _ hsent _ =>
    cases hsent with
    | part _ _ _ _ hmem => exact ⟨io, List.mem_append_right _ hmem, hm⟩
  | unread _ _ _ hmem => exact ⟨io, List.mem_append_left _ hmem, hm⟩
  | refused _ _ hrej =>
    rcases parse_rejects hrej with ⟨_, he⟩ | ⟨_, he⟩ | ⟨_, he⟩ | ⟨_, he⟩ <;> cases he

/-- Not an error that a daemon has returned. -/
def NotReturned (err : Error) : Prop := ∀ message, err ≠ .daemonReturnedError message

/-- A conversation that fails does so before the reply is understood. -/
theorem Talked.notReturned {maxPayloadLen : Nat} {f : Frame} {e : Exchange S} {err : Error}
    (h : Talked maxPayloadLen f e (.error err)) : NotReturned err := by
  obtain ⟨-, hout⟩ := h
  cases hout with
  | unsent _ hsent _ =>
    cases hsent with
    | tooLarge _ _ => exact nofun
    | part _ _ _ _ _ => exact nofun
  | unread _ _ _ _ => exact nofun
  | refused _ _ hrej =>
    rcases parse_rejects hrej with ⟨_, rfl⟩ | ⟨_, rfl⟩ | ⟨_, rfl⟩ | ⟨_, rfl⟩ <;> exact nofun

section Conversation

variable {c : Client} {L M : Ledger S} {es : List (Exchange S)} {e : Exchange S}

/-- `round_trip` on a new connection. -/
theorem Client.roundTrip_spec (hM : M = L.withExchanges (e :: es)) (hopened : e.accepted = false)
    (hcalls : e.calls = []) (hreceived : e.received = []) (hsent : e.sent = []) (f : Frame)
    (hflags : f.flags = 0) :
    Spec Ledger.step M (c.roundTrip e.stream f.kind f.payload : SysTry S Frame).run
      (Newest L es (Talking f)) (fun r => Newest L es fun e' => Talked c.maxPayloadLen f e' r) := by
  refine Spec.next (R := fun _ => Newest L es fun e' =>
    ∃ d fs, e' = { e with sent := d, writeFaults := fs } ∧ ReplySent f e' (.ok ()))
    ((writeFrame_newest hM hsent f hflags).mono ?_ ?_) ?_
  · intro M hM
    refine hM.mono fun e' he' => ?_
    obtain ⟨d, fs, rfl, hle, hfits⟩ := he'
    exact ⟨hopened, hcalls, hle, hfits, .inl hreceived⟩
  · intro res M hM
    cases res with
    | ok u => exact hM
    | error err =>
      refine hM.mono fun e' he' => ?_
      obtain ⟨d, fs, rfl, hs⟩ := he'
      exact ⟨⟨hopened, hcalls, hs.le.1, hs.le.2, .inl hreceived⟩, .unsent err hs hreceived⟩
  · intro _ M₁ _ hM₁
    obtain ⟨e₁, hM₁, d, fs, rfl, hs⟩ := hM₁
    cases hs with
    | all hfits hwire =>
      refine (readFrame_newest hM₁ hreceived).mono ?_ ?_
      · intro M hM
        refine hM.mono fun e' he' => ?_
        obtain ⟨d', fs', rfl⟩ := he'
        exact ⟨hopened, hcalls, hwire ▸ List.prefix_rfl, .inl hfits, .inr hwire⟩
      · intro res M hM
        refine hM.mono fun e' he' => ?_
        obtain ⟨d', fs', rfl, hres⟩ := he'
        refine ⟨⟨hopened, hcalls, hwire ▸ List.prefix_rfl, .inl hfits, .inr hwire⟩, ?_⟩
        cases res with
        | ok g => exact .replied g hwire hres
        | error err =>
          rcases hres with ⟨io, rfl, hmore, hmem⟩ | hrej
          · exact .unread io hwire hmore hmem
          · exact .refused err hwire hrej

/-- At any moment of connecting, sending `f` and reading. -/
def Speaking (f : Frame) (es : List (Exchange S)) (M : Ledger S) : Prop :=
  M.exchanges = es ∨ ∃ e, M.exchanges = e :: es ∧ Talking f e

/-- What came of connecting, sending `f` and reading, where `answer` says what the
reply means. -/
inductive Spoke {α : Type} (maxPayloadLen : Nat) (f : Frame) (answer : Frame → Except Error α)
    (es : List (Exchange S)) (M : Ledger S) : Except Error α → Prop
  | unconnected (err : IoError) : M.exchanges = es →
      Spoke maxPayloadLen f answer es M (.error (.io err))
  | talked (e : Exchange S) (r : Except Error Frame) : M.exchanges = e :: es →
      Talked maxPayloadLen f e r → Spoke maxPayloadLen f answer es M (r.bind answer)

theorem Spoke.speaking {α : Type} {maxPayloadLen : Nat} {f : Frame}
    {answer : Frame → Except Error α} {r : Except Error α}
    (h : Spoke maxPayloadLen f answer es M r) : Speaking f es M := by
  cases h with
  | unconnected err hM => exact .inl hM
  | talked e r hM ht => exact .inr ⟨e, hM, ht.talking⟩

/-- After a recoverable error there was no connection. -/
theorem Spoke.recoverable {α : Type} {maxPayloadLen : Nat} {f : Frame}
    {answer : Frame → Except Error α} {err : Error}
    (hanswer : ∀ g err, answer g = .error err → canAttemptRecovery err = false)
    (h : Spoke maxPayloadLen f answer es M (.error err)) (hrec : canAttemptRecovery err = true)
    (hfail : ¬ FailedLikeConnect M) : M.exchanges = es := by
  generalize hr : (Except.error err : Except Error α) = r at h
  cases h with
  | unconnected io hM => exact hM
  | talked e r hM ht =>
    cases r with
    | ok g =>
      rw [hanswer g err hr.symm] at hrec
      cases hrec
    | error err' =>
      have he : err = err' := by injection hr
      subst he
      obtain ⟨io, hio, hm⟩ := ht.recoverable hrec
      refine absurd ⟨e, ?_, io, hio, hm⟩ hfail
      rw [hM]
      exact List.mem_cons_self

/-- Connect, send `f`, read the reply, and drop the stream. -/
theorem Client.converse_spec {α : Type} (f : Frame) (hflags : f.flags = 0)
    (answer : Frame → Except Error α) (hM : M.exchanges = es) :
    Spec Ledger.step M ((do
        let stream ← (Socket.connect c.socketPath).mapErr .io
        Try.ensuring (do
          let frame ← c.roundTrip stream f.kind f.payload
          Try.ofExcept (answer frame)) (closeStream stream)) : SysTry S α).run
      (Speaking f es) (fun r M => Spoke c.maxPayloadLen f answer es M r) := by
  refine Spec.call (.inl hM) fun a => ?_
  cases a with
  | error err => exact .ret (.inl hM) (.unconnected err hM)
  | ok stream =>
    have hnew : M.step ⟨.connect c.socketPath, .ok stream⟩ =
        M.withExchanges ({ stream := stream, accepted := false } :: es) := by
      rw [← hM]
      rfl
    have htalk := Client.roundTrip_spec (c := c) hnew rfl rfl rfl rfl f hflags
    show Spec _ _ ((((c.roundTrip stream f.kind f.payload : SysTry S Frame).run.bind
      (Try.next fun frame => .ret (answer frame))) : Sys S _).bind _) _ _
    refine Spec.bind (R := fun r M => Spoke c.maxPayloadLen f answer es M r) ?_ ?_
    · refine Spec.bind (R := fun r M => ∃ e, M.exchanges = e :: es ∧ Talked c.maxPayloadLen f e r)
        (htalk.mono ?_ ?_) ?_
      · intro M hM
        obtain ⟨e, rfl, he⟩ := hM
        exact .inr ⟨e, rfl, he⟩
      · intro r M hM
        obtain ⟨e, rfl, he⟩ := hM
        exact ⟨e, rfl, he⟩
      · intro r M hΦ hM
        obtain ⟨e, hM, he⟩ := hM
        cases r with
        | ok g => exact .ret hΦ (.talked e (.ok g) hM he)
        | error err => exact .ret hΦ (.talked e (.error err) hM he)
    · intro r M hΦ hr
      exact Spec.call hΦ fun _ => .ret hΦ hr

end Conversation

/-! ## Trying again -/

theorem mem_touch_of_mem {s : Stream} {f : Exchange S → Exchange S} {es : List (Exchange S)}
    {e : Exchange S} (h : e ∈ es) : e ∈ touch s f es ∨ f e ∈ touch s f es := by
  induction es with
  | nil => cases h
  | cons e' es ih =>
    unfold touch
    split
    next =>
      rcases List.mem_cons.mp h with rfl | h
      · exact .inr List.mem_cons_self
      · exact .inl (List.mem_cons_of_mem _ h)
    next =>
      rcases List.mem_cons.mp h with rfl | h
      · exact .inl List.mem_cons_self
      · exact (ih h).imp (List.mem_cons_of_mem _) (List.mem_cons_of_mem _)

/-- What has failed stays on record. -/
theorem FailedLikeConnect.step {M : Ledger S} (h : FailedLikeConnect M) (ev : SysEvent S) :
    FailedLikeConnect (M.step ev) := by
  obtain ⟨e, he, err, herr, hm⟩ := h
  have htouch : ∀ {s : Stream} {f : Exchange S → Exchange S},
      err ∈ (f e).readFaults ++ (f e).writeFaults →
      ∃ e' ∈ touch s f M.exchanges, ∃ err ∈ e'.readFaults ++ e'.writeFaults,
        matchesRecoverableConnectError err = true := by
    intro s f hf
    rcases mem_touch_of_mem (s := s) (f := f) he with h | h
    · exact ⟨e, h, err, herr, hm⟩
    · exact ⟨f e, h, err, hf, hm⟩
  unfold Ledger.step
  split
  next => exact ⟨e, List.mem_cons_of_mem _ he, err, herr, hm⟩
  next => exact ⟨e, List.mem_cons_of_mem _ he, err, herr, hm⟩
  next => exact ⟨e, he, err, herr, hm⟩
  next => exact ⟨e, he, err, herr, hm⟩
  next => exact htouch herr
  next =>
    refine htouch ?_
    rcases List.mem_append.mp herr with h | h
    · exact List.mem_append_left _ (List.mem_append_left _ h)
    · exact List.mem_append_right _ h
  next =>
    refine htouch ?_
    rcases List.mem_append.mp herr with h | h
    · exact List.mem_append_left _ h
    · exact List.mem_append_right _ (List.mem_append_left _ h)
  next =>
    show ∃ e' ∈ touchNewest _ M.exchanges, _
    cases hL : M.exchanges with
    | nil =>
      rw [hL] at he
      cases he
    | cons e₁ es =>
      rw [hL] at he
      rcases List.mem_cons.mp he with rfl | he
      · exact ⟨_, List.mem_cons_self, err, herr, hm⟩
      · exact ⟨e, List.mem_cons_of_mem _ he, err, herr, hm⟩
  all_goals exact ⟨e, he, err, herr, hm⟩

/-- Unless a stream has failed like a connect, `Φ` holds. -/
def Sound (Φ : Ledger S → Prop) (M : Ledger S) : Prop := FailedLikeConnect M ∨ Φ M

theorem Spec.sound {α : Type} {p : Sys S α} {M : Ledger S} {Φ : Ledger S → Prop}
    {Q : α → Ledger S → Prop}
    (h : ¬ FailedLikeConnect M → Spec Ledger.step M p (Sound Φ) (fun a => Sound (Q a))) :
    Spec Ledger.step M p (Sound Φ) (fun a => Sound (Q a)) :=
  (Spec.excusing (fun _ op b hs => hs.step ⟨op, b⟩) h).mono (fun _ h => h.elim .inl id)
    fun _ _ h => h.elim .inl id

/-- The frame of a request. -/
def requestFrame (payload : Bytes) : Frame := ⟨.request, 0, payload⟩

/-- The frame of a ping. -/
def pingFrame : Frame := ⟨.ping, 0, []⟩

section Retry

variable {c : Client} {M : Ledger S} {es : List (Exchange S)}

theorem responseOf_notIo (g : Frame) (err : Error) (h : Client.responseOf g = .error err) :
    canAttemptRecovery err = false := by
  unfold Client.responseOf at h
  split at h
  next => cases h
  next =>
    injection h with h
    subst h
    rfl
  next =>
    injection h with h
    subst h
    rfl

theorem pongOf_notIo (g : Frame) (err : Error) (h : Client.pongOf g = .error err) :
    canAttemptRecovery err = false := by
  unfold Client.pongOf at h
  split at h
  next => cases h
  next =>
    injection h with h
    subst h
    rfl

/-- What came of a ping, where the wait may have ended without one. -/
inductive Waited (maxPayloadLen : Nat) (es : List (Exchange S)) (M : Ledger S) :
    Except Error Unit → Prop
  | given_up (err : Error) : M.exchanges = es → NotReturned err →
      Waited maxPayloadLen es M (.error err)
  | spoke (r : Except Error Unit) : Spoke maxPayloadLen pingFrame Client.pongOf es M r →
      Waited maxPayloadLen es M r

theorem Waited.speaking {maxPayloadLen : Nat} {r : Except Error Unit}
    (h : Waited maxPayloadLen es M r) : Speaking pingFrame es M := by
  cases h with
  | given_up err hM _ => exact .inl hM
  | spoke r hr => exact hr.speaking

/-- A round of `wait_for_ready`. -/
theorem Client.readyRound_spec {autoStart : AutoStart} {deadline : Instant} {backoff : Duration}
    (hM : M.exchanges = es) :
    Spec Ledger.step M (c.readyRound autoStart deadline backoff : SysTry S _).run
      (Sound (Speaking pingFrame es))
      (fun r => Sound fun M => match r with
        | .ok (.inl _) => M.exchanges = es
        | .ok (.inr u) => Waited c.maxPayloadLen es M (.ok u)
        | .error err => Waited c.maxPayloadLen es M (.error err)) := by
  have hping : Spec Ledger.step M (c.tryPingOnce : SysTry S Unit).run (Speaking pingFrame es)
      (fun r M => Spoke c.maxPayloadLen pingFrame Client.pongOf es M r) :=
    Client.converse_spec pingFrame rfl _ hM
  refine Spec.attempt (hping.mono (fun _ h => .inr h) fun _ _ h => h) ?_
  intro r M₁ hΦ hr
  cases r with
  | ok u => exact .ret hΦ (.inr (.spoke _ hr))
  | error err =>
    show Spec _ _ (Try.run (if canAttemptRecovery err = true then _ else _)) _ _
    rw [Try.run_ite]
    split
    next hrec =>
      refine Spec.sound fun hfail => ?_
      have hM₁ := hr.recoverable pongOf_notIo hrec hfail
      have hΦ₁ : Sound (Speaking pingFrame es) M₁ := .inr (.inl hM₁)
      refine Spec.call hΦ₁ fun (t : Instant) => ?_
      show Spec _ _ (Try.run (if t.before deadline = true then _ else _)) _ _
      rw [Try.run_ite]
      split
      next => exact Spec.call hΦ₁ fun _ => .ret hΦ₁ (.inr hM₁)
      next => exact .ret hΦ₁ (.inr (.given_up _ hM₁ nofun))
    next => exact .ret hΦ (.inr (.spoke _ hr))

/-- `wait_for_ready`: at most one ping gets a connection. -/
theorem Client.waitForReady_spec {autoStart : AutoStart} (hM : M.exchanges = es) :
    Spec Ledger.step M (c.waitForReady autoStart : SysTry S Unit).run
      (Sound (Speaking pingFrame es)) (fun r => Sound fun M => Waited c.maxPayloadLen es M r) := by
  refine Spec.call (.inr (.inl hM)) fun (t : Instant) => ?_
  have hM₁ : (M.step ⟨.now, t⟩).exchanges = es := hM
  refine Spec.lift (R := fun _ M' => M'.exchanges = es)
    ((Spec.still Client.allCalls_addInstant ?_).mono ?_ ?_) ?_
  · intro L op b hop
    subst hop
    exact nomatch b
  · intro M' hM'
    rw [hM']
    exact .inr (.inl hM₁)
  · intro _ M' hM'
    rw [hM']
    exact hM₁
  · intro deadline M₂ _ hM₂
    refine Spec.loop (fun _ => Sound fun M => M.exchanges = es)
      (fun r => Sound fun M => Waited c.maxPayloadLen es M r) (.inr hM₂) ?_ ?_
    · intro backoff M hI
      rcases hI with hfail | hM
      · refine (Spec.sound (Φ := fun _ => False) (Q := fun _ _ => False) ?_).mono ?_ ?_
        · exact fun h => absurd hfail h
        · exact fun _ h => .inl (h.resolve_right id)
        · intro r M h
          cases r <;> exact .inl (h.resolve_right id)
      · refine Spec.bind (Client.readyRound_spec hM) ?_
        intro r M' hΦ hr
        cases r with
        | ok r =>
          cases r with
          | inl backoff => exact .ret hΦ hr
          | inr u => exact .ret hΦ hr
        | error err => exact .ret hΦ hr
    · intro r M hΦ hr
      exact .ret hΦ hr

/-- The calls of a client that do not show in its ledger. -/
theorem step_lookOp {path : Path} (L : Ledger S) (op : Op S) (b : Ans op) (h : LookOp path op) :
    L.step ⟨op, b⟩ = L := step_pidOp L op b (LookOp.pidOp op h)

theorem Client.recoverIfNeeded_of_not {err : Error} (h : ¬ canAttemptRecovery err = true) :
    (c.recoverIfNeeded err : SysTry S Unit) = Try.fail err := by
  unfold recoverIfNeeded
  split
  next => rfl
  next => exact if_neg h

theorem readPid_fails {P : Error → Prop} (hP : ∀ io, P (.io io)) {path : Path} :
    Try.Fails P (readPid path : SysTry S _) := by
  refine Try.fails_bind (fun h => (Try.returns_attempt_error h).elim) fun r => ?_
  cases r with
  | ok text => exact Try.fails_pure _
  | error err =>
    dsimp only
    split
    next => exact Try.fails_pure _
    next => exact Try.fails_fail (hP err)

/-- The look at the PID file fails with an error of the file only. -/
theorem Client.look_fails {P : Error → Prop} (hP : ∀ io, P (.io io)) :
    Try.Fails P (c.pidFilePointsToLiveProcess : SysTry S Bool) := by
  unfold pidFilePointsToLiveProcess
  split
  next => exact Try.fails_pure _
  next =>
    refine Try.fails_bind (readPid_fails hP) fun r => ?_
    cases r with
    | none => exact Try.fails_pure _
    | some pid =>
      intro t e h
      obtain ⟨u, v, a, -, -, hret⟩ := Prog.returns_bind_iff.mp h
      cases (returns_ret_iff.mp hret).2

/-- And it does not show in the ledger. -/
theorem Client.look_spec :
    Spec Ledger.step M (c.pidFilePointsToLiveProcess : SysTry S Bool).run (fun M' => M' = M)
      (fun r M' => M' = M ∧ ∀ err, r = .error err → NotReturned err) := by
  have hfails : Spec Ledger.step M (c.pidFilePointsToLiveProcess : SysTry S Bool).run
      (fun _ => True) (fun r _ => ∀ err, r = .error err → NotReturned err) := by
    refine ⟨fun _ => trivial, fun hret err he => ?_⟩
    exact Client.look_fails (fun _ => nofun) (he ▸ hret)
  refine ((Spec.still Client.allCalls_pidFilePointsToLiveProcess ?_).and hfails).mono
    (fun _ h => h.1) fun _ _ h => h
  intro L op b hop
  obtain ⟨path, -, hop⟩ := hop
  exact step_lookOp L op b hop

/-- `recover_if_needed` after a failed connect: as `wait_for_ready`, or it fails at once. -/
theorem Client.recoverIfNeeded_spec {io : IoError} (hM : M.exchanges = es) :
    Spec Ledger.step M (c.recoverIfNeeded (.io io) : SysTry S Unit).run
      (Sound (Speaking pingFrame es)) (fun r => Sound fun M => Waited c.maxPayloadLen es M r) := by
  have hΦ : Sound (Speaking pingFrame es) M := .inr (.inl hM)
  unfold recoverIfNeeded
  split
  next => exact .ret hΦ (.inr (.given_up _ hM nofun))
  next autoStart _ =>
    rw [Try.run_ite]
    split
    next =>
      refine Spec.next (R := fun _ M' => M' = M) (look_spec.mono ?_ ?_) ?_
      · intro M' hM'
        rw [hM']
        exact hΦ
      · intro r M' hM'
        obtain ⟨rfl, hr⟩ := hM'
        cases r with
        | ok live => rfl
        | error err => exact .inr (.given_up err hM (hr err rfl))
      · intro live M' _ hM'
        subst hM'
        show Spec _ _ (Try.run (if live = true then _ else _)) _ _
        rw [Try.run_ite]
        split
        next => exact waitForReady_spec hM
        next =>
          refine Spec.call hΦ fun b => ?_
          cases b with
          | ok u => exact waitForReady_spec hM
          | error io => exact .ret hΦ (.inr (.given_up _ hM nofun))
    next => exact .ret hΦ (.inr (.given_up _ hM nofun))

/-- **`ping`**: at most one conversation, and the result is what came of it. -/
theorem Client.ping_spec (hM : M.exchanges = es) :
    Spec Ledger.step M (c.ping : SysTry S Unit).run (Sound (Speaking pingFrame es))
      (fun r => Sound fun M => Waited c.maxPayloadLen es M r) := by
  have hping : Spec Ledger.step M (c.tryPingOnce : SysTry S Unit).run (Speaking pingFrame es)
      (fun r M => Spoke c.maxPayloadLen pingFrame Client.pongOf es M r) :=
    Client.converse_spec pingFrame rfl _ hM
  refine Spec.attempt (hping.mono (fun _ h => .inr h) fun _ _ h => h) ?_
  intro r M₁ hΦ hr
  cases r with
  | ok u => exact .ret hΦ (.inr (.spoke _ hr))
  | error err =>
    by_cases hrec : canAttemptRecovery err = true
    · refine Spec.sound fun hfail => ?_
      have hM₁ := hr.recoverable pongOf_notIo hrec hfail
      obtain ⟨io, rfl, -⟩ := canAttemptRecovery_io hrec
      exact recoverIfNeeded_spec hM₁
    · show Spec _ _ (c.recoverIfNeeded err).run _ _
      rw [recoverIfNeeded_of_not hrec]
      exact .ret hΦ (.inr (.spoke _ hr))

/-- What a request is doing: pinging a daemon that it waits for, or asking. -/
def Asking (f : Frame) (M : Ledger S) : Prop :=
  ∃ ps, (∀ e ∈ ps, Talking pingFrame e) ∧ Speaking f ps M

/-- What came of a request. -/
inductive Asked (maxPayloadLen : Nat) (f : Frame) (M : Ledger S) : Except Error Bytes → Prop
  | unasked (err : Error) : (∀ e ∈ M.exchanges, Talking pingFrame e) → NotReturned err →
      Asked maxPayloadLen f M (.error err)
  | talked (ps : List (Exchange S)) (e : Exchange S) (r : Except Error Frame) :
      (∀ e ∈ ps, Talking pingFrame e) → M.exchanges = e :: ps → Talked maxPayloadLen f e r →
      Asked maxPayloadLen f M (r.bind Client.responseOf)

theorem Waited.pings {maxPayloadLen : Nat} {r : Except Error Unit}
    (h : Waited maxPayloadLen [] M r) : ∀ e ∈ M.exchanges, Talking pingFrame e := by
  rcases h.speaking with hM | ⟨e, hM, he⟩
  · rw [hM]
    exact fun e he => nomatch he
  · rw [hM]
    intro e' he'
    rw [List.mem_singleton.mp he']
    exact he

theorem Waited.notReturned {maxPayloadLen : Nat} {err : Error}
    (h : Waited maxPayloadLen es M (.error err)) : NotReturned err := by
  generalize hr : (Except.error err : Except Error Unit) = r at h
  cases h with
  | given_up err' _ hnot =>
    cases hr
    exact hnot
  | spoke r hspoke =>
    cases hspoke with
    | unconnected io _ =>
      cases hr
      exact nofun
    | talked e out _ ht =>
      cases out with
      | error err' =>
        cases hr
        exact ht.notReturned
      | ok g =>
        have hpong : Client.pongOf g = .error err := hr.symm
        unfold Client.pongOf at hpong
        split at hpong
        next => cases hpong
        next =>
          cases hpong
          exact nofun

theorem Spoke.asked {maxPayloadLen : Nat} {f : Frame} {r : Except Error Bytes}
    (h : Spoke maxPayloadLen f Client.responseOf es M r) (hes : ∀ e ∈ es, Talking pingFrame e) :
    Asked maxPayloadLen f M r := by
  cases h with
  | unconnected err hM => exact .unasked _ (by rw [hM]; exact hes) nofun
  | talked e r hM ht => exact .talked es e r hes hM ht

/-- **`request`**: at most one conversation is about the request, the last one, and the
result is what came of it. -/
theorem Client.request_spec (payload : Bytes) :
    Spec Ledger.step {} (c.request payload : SysTry S Bytes).run
      (Sound (Asking (requestFrame payload)))
      (fun r => Sound fun M => Asked c.maxPayloadLen (requestFrame payload) M r) := by
  have hsend : ∀ {M : Ledger S} {es : List (Exchange S)}, M.exchanges = es →
      Spec Ledger.step M (c.sendRequestOnce payload : SysTry S Bytes).run
        (Speaking (requestFrame payload) es)
        (fun r M => Spoke c.maxPayloadLen (requestFrame payload) Client.responseOf es M r) :=
    fun hM => Client.converse_spec (requestFrame payload) rfl _ hM
  have hnil : ∀ e ∈ ([] : List (Exchange S)), Talking pingFrame e := fun e he => nomatch he
  refine Spec.attempt ((hsend rfl).mono (fun M h => .inr ⟨[], hnil, h⟩) fun _ _ h => h) ?_
  intro r M₁ hΦ hr
  cases r with
  | ok u => exact .ret hΦ (.inr (hr.asked hnil))
  | error err =>
    show Spec _ _ ((c.recoverIfNeeded err : SysTry S Unit).run.bind _) _ _
    by_cases hrec : canAttemptRecovery err = true
    swap
    · rw [recoverIfNeeded_of_not hrec]
      exact .ret hΦ (.inr (hr.asked hnil))
    · -- a recoverable error means that there was no connection
      refine Spec.sound fun hfail => ?_
      have hM₁ := hr.recoverable responseOf_notIo hrec hfail
      obtain ⟨io, rfl, -⟩ := canAttemptRecovery_io hrec
      refine Spec.next (R := fun _ => Sound fun M => ∀ e ∈ M.exchanges, Talking pingFrame e)
        ((recoverIfNeeded_spec hM₁).mono ?_ ?_) ?_
      · intro M hM
        refine hM.imp id fun hM => ?_
        rcases hM with hM | ⟨e, hM, he⟩
        · exact ⟨[], hnil, .inl hM⟩
        · refine ⟨[e], fun e' he' => ?_, .inl hM⟩
          rw [List.mem_singleton.mp he']
          exact he
      · intro r M hM
        cases r with
        | ok u => exact hM.imp id Waited.pings
        | error err => exact hM.imp id fun hw => .unasked err hw.pings hw.notReturned
      · intro _ M _ hM
        refine Spec.sound fun hfail => ?_
        have hps := hM.resolve_left hfail
        refine (hsend rfl).mono (fun M h => .inr ⟨_, hps, h⟩) fun r M h => .inr (h.asked hps)

end Retry

/-! ## Shutting down -/

/-- The frame of a shutdown. -/
def shutdownFrame : Frame := ⟨.shutdown, 0, []⟩

/-- What came of a shutdown: no connection, a reply that is no acknowledgement, or a
wait for the daemon to end. -/
inductive ShutDown (maxPayloadLen : Nat) (M : Ledger S) : Except Error Bool → Prop
  | unconnected (r : Except Error Bool) : M.exchanges = [] → r ≠ .ok true →
      ShutDown maxPayloadLen M r
  | refused (e : Exchange S) (r : Except Error Frame) (err : Error) : M.exchanges = [e] →
      Talked maxPayloadLen shutdownFrame e r → r.bind Client.shutdownAckOf = .error err →
      ShutDown maxPayloadLen M (.error err)
  | waited (e : Exchange S) (g : Frame) (r : Except Error Unit) : M.exchanges = [e] →
      Talked maxPayloadLen shutdownFrame e (.ok g) → Client.shutdownAckOf g = .ok () →
      ShutDown maxPayloadLen M (r.map fun _ => true)

theorem WaitOp.step {c : Client} {M : Ledger S} {op : Op S} {b : Ans op} (h : WaitOp c op) :
    (M.step ⟨op, b⟩).exchanges = M.exchanges := by
  rcases h with rfl | rfl | ⟨d, rfl⟩ | rfl | ⟨path, -, h⟩
  · rfl
  · exact nomatch b
  · rfl
  · rfl
  · rw [step_lookOp M op b h]

/-- **`shutdown`**: one conversation at most, and `Ok(true)` only after a wait. -/
theorem Client.shutdown_spec {c : Client} :
    Spec Ledger.step {} (c.shutdown : SysTry S Bool).run (Speaking shutdownFrame [])
      (fun r M => ShutDown c.maxPayloadLen M r) := by
  have hnil : ∀ {M : Ledger S}, M.exchanges = [] → Speaking shutdownFrame [] M := fun h => .inl h
  refine Spec.attempt (R := fun r M =>
    (∀ stream, r = .ok stream →
      M = Ledger.withExchanges {} [{ stream := stream, accepted := false }]) ∧
      ∀ err, r = .error err → M = {}) ?_ ?_
  · refine Spec.call (hnil rfl) fun a => ?_
    cases a with
    | ok stream =>
      refine .ret (.inr ⟨_, rfl, rfl, rfl, List.nil_prefix, .inr rfl, .inl rfl⟩) ?_
      refine ⟨fun s hs => ?_, fun err he => by cases he⟩
      obtain rfl := Except.ok.inj hs
      rfl
    | error err => exact .ret (hnil rfl) ⟨fun s hs => (by cases hs), fun _ _ => rfl⟩
  · intro r M hΦ hM
    cases r with
    | error err =>
      obtain rfl := hM.2 err rfl
      refine Spec.next (R := fun _ M => M = {})
        ((Spec.still (A := fun op => ∃ path, c.pidFile = some path ∧ LookOp path op) ?_ ?_).mono
          ?_ ?_) ?_
      · unfold shouldTreatConnectErrorAsNotRunning
        rw [Try.run_ite]
        split
        next => exact Try.allCalls_bind allCalls_pidFilePointsToLiveProcess fun _ => trivial
        next => trivial
      · intro L op b hop
        obtain ⟨path, -, hop⟩ := hop
        exact step_lookOp L op b hop
      · exact fun M hM => hM ▸ hnil rfl
      · intro r M hM
        cases r with
        | ok u => exact hM
        | error err => exact .unconnected _ (hM ▸ rfl) fun he => by cases he
      · intro notRunning M _ hM
        subst hM
        rw [Try.run_ite]
        split
        next => exact .ret (hnil rfl) (.unconnected _ rfl fun he => by cases he)
        next => exact .ret (hnil rfl) (.unconnected _ rfl fun he => by cases he)
    | ok stream =>
      have hM := hM.1 stream rfl
      have htalk := Client.roundTrip_spec (c := c) hM rfl rfl rfl rfl shutdownFrame rfl
      refine Spec.bind (R := fun r M => ShutDown c.maxPayloadLen M r) ?_ ?_
      · refine Spec.next (R := fun g M => ∃ e, M.exchanges = [e] ∧
          Talked c.maxPayloadLen shutdownFrame e (.ok g)) (htalk.mono ?_ ?_) ?_
        · intro M hM
          obtain ⟨e, rfl, he⟩ := hM
          exact .inr ⟨e, rfl, he⟩
        · intro r M hM
          obtain ⟨e, rfl, he⟩ := hM
          cases r with
          | ok g => exact ⟨e, rfl, he⟩
          | error err => exact .refused e _ err rfl he rfl
        · intro g M hΦ hM
          obtain ⟨e, hM, he⟩ := hM
          show Spec _ _ (Try.run (do
            Try.ofExcept (shutdownAckOf g)
            c.waitForShutdown
            return true)) _ _
          cases hack : shutdownAckOf g with
          | error err => exact .ret hΦ (.refused e _ err hM he hack)
          | ok u =>
            show Spec _ _ ((c.waitForShutdown : SysTry S Unit).run.bind _) _ _
            refine Spec.bind (R := fun _ M => M.exchanges = [e]) ?_ ?_
            · refine (Spec.keep (I := fun M : Ledger S => M.exchanges = [e])
                allCalls_waitForShutdown ?_ hM).mono ?_ fun _ _ h => h
              · exact fun M op b hop hM => hop.step.trans hM
              · exact fun M hM => .inr ⟨e, hM, he.talking⟩
            · intro r M hΦ hM
              cases r with
              | ok u => exact .ret hΦ (.waited e g (.ok u) hM he hack)
              | error err => exact .ret hΦ (.waited e g (.error err) hM he hack)
      · intro r M hΦ hr
        exact Spec.call hΦ fun _ => .ret hΦ hr

end Sockd
