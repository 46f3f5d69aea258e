import Sockd.AutoStart
import Sockd.IdleTime

/-!
# How long a client waits for a daemon

`wait_for_ready` tries a ping, and sleeps between tries for a backoff that doubles up
to `max_backoff`. `Rounds` are the events of the tries after which it slept, and
`RoundEnd` is what one round can come to; every run of the loop is rounds, and then
the beginning of one more (`waitForReady_rounds`).

A history carries times here (`Timed`), and time passes in the calls of a ping and in
the sleeps only: `Paced`. The first backoff is `initial_backoff`, whatever
`max_backoff` is, so the bounds hold exactly where it is not greater, or no time is
given at all (`readyBounds_iff`).
-/

namespace Sockd

open Rust Effects Effects.Prog

variable {S : Type}

namespace Client

/-! ## Rounds -/

section Rounds

variable (c : Client) (a : AutoStart) (deadline : Instant)

/-- What a round of `wait_for_ready` with this backoff does and comes to. -/
inductive RoundEnd (backoff : Duration) : History S → Except Error (Duration ⊕ Unit) → Prop
  | ponged {ping : History S} : Returns (c.tryPingOnce : SysTry S Unit).run ping (.ok ()) →
      RoundEnd backoff ping (.ok (.inr ()))
  | stopped {ping : History S} {err : Error} :
      Returns (c.tryPingOnce : SysTry S Unit).run ping (.error err) → ¬ canAttemptRecovery err →
      RoundEnd backoff ping (.error err)
  | gaveUp {ping : History S} {err : Error} {t : Instant} :
      Returns (c.tryPingOnce : SysTry S Unit).run ping (.error err) → canAttemptRecovery err →
      ¬ t.before deadline →
      RoundEnd backoff (ping ++ [⟨.now, t⟩]) (.error (.readyTimeout c.socketPath a.readyTimeout))
  | slept {ping : History S} {err : Error} {t : Instant} :
      Returns (c.tryPingOnce : SysTry S Unit).run ping (.error err) → canAttemptRecovery err →
      t.before deadline →
      RoundEnd backoff (ping ++ [⟨.now, t⟩, ⟨.sleep backoff, ()⟩])
        (.ok (.inl ((backoff.saturatingMul 2).min a.maxBackoff)))

/-- The events are rounds after which the client slept, and this is the next backoff. -/
inductive Rounds : History S → Duration → Prop
  | start : Rounds [] a.initialBackoff
  | again {h round : History S} {backoff next : Duration} : Rounds h backoff →
      RoundEnd c a deadline backoff round (.ok (.inl next)) → Rounds (h ++ round) next

end Rounds

variable {c : Client} {a : AutoStart} {deadline : Instant}

theorem readyRound_returns {backoff : Duration} {h : History S}
    {r : Except Error (Duration ⊕ Unit)}
    (hr : Returns (c.readyRound a deadline backoff : SysTry S _).run h r) :
    RoundEnd c a deadline backoff h r := by
  rcases Try.returns_bind_iff.mp hr with ⟨e, -, he⟩ | ⟨ping, v, out, rfl, hping, hrest⟩
  · exact (Try.returns_attempt_error he).elim
  have hping := Try.returns_attempt_iff.mp hping
  cases out with
  | ok u =>
    obtain ⟨rfl, rfl⟩ := returns_ret_iff.mp hrest
    rw [List.append_nil]
    exact .ponged hping
  | error err =>
    have hrest : Returns (Try.run (if canAttemptRecovery err = true then _ else _)) v r := hrest
    rw [Try.run_ite] at hrest
    split at hrest
    next hrec =>
      obtain ⟨t, u, rfl, hread⟩ := returns_call_iff.mp hrest
      have hread : Returns (Try.run (if t.before deadline = true then _ else _)) u r := hread
      rw [Try.run_ite] at hread
      split at hread
      next hbefore =>
        obtain ⟨_, w, rfl, hslept⟩ := returns_call_iff.mp hread
        obtain ⟨rfl, rfl⟩ := returns_ret_iff.mp hslept
        exact .slept hping hrec hbefore
      next hlate =>
        obtain ⟨rfl, rfl⟩ := returns_ret_iff.mp hread
        exact .gaveUp hping hrec hlate
    next hrec =>
      obtain ⟨rfl, rfl⟩ := returns_ret_iff.mp hrest
      rw [List.append_nil]
      exact .stopped hping hrec

/-- What the round makes of the loop, for the loop. -/
theorem returns_readyRound {backoff : Duration} {h : History S}
    {r : Except Error (Duration ⊕ Unit)} (hr : RoundEnd c a deadline backoff h r) :
    Returns (c.readyRound a deadline backoff : SysTry S _).run h r := by
  cases hr with
  | ponged hping =>
    have h : Returns (c.readyRound a deadline backoff : SysTry S _).run (h ++ [])
        (.ok (.inr ())) := Try.returns_bind (Try.returns_attempt hping) .refl
    rwa [List.append_nil] at h
  | @stopped ping err hping hrec =>
    have h : Returns (c.readyRound a deadline backoff : SysTry S _).run (h ++ [])
        (.error err) := by
      refine Try.returns_bind (Try.returns_attempt hping) ?_
      show Returns (Try.run (if canAttemptRecovery err = true then _ else _)) [] _
      rw [if_neg hrec]
      exact .refl
    rwa [List.append_nil] at h
  | @gaveUp ping err t hping hrec hlate =>
    refine Try.returns_bind (Try.returns_attempt hping) ?_
    show Returns (Try.run (if canAttemptRecovery err = true then _ else _)) _ _
    rw [if_pos hrec]
    refine Reach.call ?_
    show Returns (Try.run (if t.before deadline = true then _ else _)) [] _
    rw [if_neg hlate]
    exact .refl
  | @slept ping err t hping hrec hbefore =>
    refine Try.returns_bind (Try.returns_attempt hping) ?_
    show Returns (Try.run (if canAttemptRecovery err = true then _ else _)) _ _
    rw [if_pos hrec]
    refine Reach.call ?_
    show Returns (Try.run (if t.before deadline = true then _ else _)) _ _
    rw [if_pos hbefore]
    exact Reach.call .refl

/-- How far a run of `wait_for_ready` has got when it has these events. -/
inductive Waiting (c : Client) (a : AutoStart) : History S → Prop
  | none : Waiting c a []
  | started (t₀ : Instant) : Waiting c a [⟨.now, t₀⟩]
  | trying {t₀ deadline : Instant} {g p : History S} {backoff : Duration} :
      t₀.checkedAdd? a.readyTimeout = some deadline → Rounds c a deadline g backoff →
      Traces (c.readyRound a deadline backoff : SysTry S _).run p →
      Waiting c a (⟨.now, t₀⟩ :: (g ++ p))

/-- The outcome of the last round, for the whole. -/
def lastOutcome : Except Error Unit → Except Error (Duration ⊕ Unit)
  | .ok () => .ok (.inr ())
  | .error err => .error err

/-- `wait_for_ready` has returned `r`: after some rounds the last one came to that. -/
def WaitedFor (c : Client) (a : AutoStart) (r : Except Error Unit) (h : History S) : Prop :=
  ∃ t₀ deadline g backoff last, t₀.checkedAdd? a.readyTimeout = some deadline ∧
    h = ⟨.now, t₀⟩ :: (g ++ last) ∧ Rounds c a deadline g backoff ∧
    RoundEnd c a deadline backoff last (lastOutcome r)

theorem waitForReady_rounds :
    Spec Spec.record [] (c.waitForReady a : SysTry S Unit).run (Waiting c a)
      (WaitedFor c a) := by
  refine Spec.call .none fun (t₀ : Instant) => ?_
  show Spec _ _ (((addInstant t₀ a.readyTimeout).bind _).bind _) _ _
  unfold addInstant
  cases hadd : t₀.checkedAdd? a.readyTimeout with
  | none => exact Spec.call (.started t₀) fun b => nomatch b
  | some deadline =>
    refine Spec.loop (fun backoff (h : History S) =>
        ∃ g, h = (⟨.now, t₀⟩ : SysEvent S) :: g ∧ Rounds c a deadline g backoff)
      (fun r h => WaitedFor c a r h) ⟨[], rfl, .start⟩ ?_ fun r h hΦ hr => .ret hΦ hr
    intro backoff h hI
    obtain ⟨g, rfl, hg⟩ := hI
    have hround : Spec Spec.record ((⟨.now, t₀⟩ : SysEvent S) :: g)
        (c.readyRound a deadline backoff : SysTry S _).run (Waiting c a)
        (fun r h => ∃ p, h = (⟨.now, t₀⟩ : SysEvent S) :: (g ++ p) ∧
          RoundEnd c a deadline backoff p r) := by
      refine ⟨fun hr => ?_, fun hr => ?_⟩
      · rw [Spec.foldl_record]
        exact .trying hadd hg ⟨_, hr⟩
      · rw [Spec.foldl_record]
        exact ⟨_, rfl, readyRound_returns hr⟩
    refine Spec.bind hround ?_
    intro r h hΦ hr
    obtain ⟨p, rfl, hp⟩ := hr
    cases r with
    | error err => exact .ret hΦ ⟨t₀, deadline, g, backoff, p, hadd, rfl, hg, hp⟩
    | ok r =>
      cases r with
      | inl next => exact .ret hΦ ⟨g ++ p, rfl, .again hg hp⟩
      | inr u => exact .ret hΦ ⟨t₀, deadline, g, backoff, p, hadd, rfl, hg, hp⟩

/-! ## Sleeps -/

/-- Every sleep of the events is for `backoff`, and the clock had shown a time before
the deadline. -/
def SleepsBefore (backoff : Duration) (deadline : Instant) (h : History S) : Prop :=
  ∀ d u, ⟨.sleep d, u⟩ ∈ h → d = backoff ∧ ∃ t : Instant, ⟨.now, t⟩ ∈ h ∧ t.before deadline

theorem sleepsBefore_of_not {backoff : Duration} {h : History S}
    (hh : ∀ e ∈ h, ∀ d, e.1 ≠ .sleep d) : SleepsBefore backoff deadline h :=
  fun d _ he => absurd rfl (hh _ he d)

theorem readyRound_sleeps {backoff : Duration} {h : History S}
    (ht : Traces (c.readyRound a deadline backoff : SysTry S _).run h) :
    SleepsBefore backoff deadline h := by
  have hspec : Spec Spec.record [] (c.readyRound a deadline backoff : SysTry S _).run
      (SleepsBefore backoff deadline) (fun _ _ => True) := by
    have hping : Spec Spec.record [] (c.tryPingOnce : SysTry S Unit).run
        (fun h => ∀ e ∈ h, ∀ d, e.1 ≠ .sleep d) (fun _ h => ∀ e ∈ h, ∀ d, e.1 ≠ .sleep d) := by
      refine Spec.keep allCalls_tryPingOnce ?_ (fun _ he => nomatch he)
      intro h op b hop hh e he d
      rcases List.mem_append.mp he with he | he
      · exact hh e he d
      · rw [List.mem_singleton.mp he]
        intro hsleep
        obtain rfl : op = .sleep d := hsleep
        exact hop
    refine Spec.attempt (hping.mono (fun _ h => sleepsBefore_of_not h) fun _ _ h => h) ?_
    intro r h hΦ hh
    cases r with
    | ok u => exact .ret hΦ trivial
    | error err =>
      show Spec _ _ (Try.run (if canAttemptRecovery err = true then _ else _)) _ _
      rw [Try.run_ite]
      split
      next =>
        refine Spec.call hΦ fun (t : Instant) => ?_
        have hread : SleepsBefore backoff deadline (Spec.record h ⟨.now, t⟩) := by
          refine sleepsBefore_of_not fun e he d => ?_
          rcases List.mem_append.mp he with he | he
          · exact hh e he d
          · rw [List.mem_singleton.mp he]
            exact nofun
        show Spec _ _ (Try.run (if t.before deadline = true then _ else _)) _ _
        rw [Try.run_ite]
        split
        next hbefore =>
          refine Spec.call hread fun u => .ret ?_ trivial
          intro d u' he
          refine ⟨?_, t, by simp [Spec.record], hbefore⟩
          rcases List.mem_append.mp he with he | he
          · exact (hread d u' he).1
          · cases List.mem_singleton.mp he
            rfl
        next => exact .ret hread trivial
      next => exact .ret hΦ trivial
  obtain ⟨q, hq⟩ := ht
  have h := hspec.always hq
  rwa [Spec.foldl_record] at h

theorem Rounds.sleep_mem {g : History S} {backoff d : Duration} {u : Unit}
    (hg : Rounds c a deadline g backoff) (hd : ⟨.sleep d, u⟩ ∈ g) :
    ∃ g' : History S, Rounds c a deadline g' d ∧
      ∃ t : Instant, ⟨.now, t⟩ ∈ g ∧ t.before deadline := by
  induction hg with
  | start => cases hd
  | @again h round backoff next hh hround ih =>
    rcases List.mem_append.mp hd with hd | hd
    · obtain ⟨g', hg', t, ht, hbefore⟩ := ih hd
      exact ⟨g', hg', t, List.mem_append_left _ ht, hbefore⟩
    · obtain ⟨rfl, t, ht, hbefore⟩ := readyRound_sleeps (returns_readyRound hround).traces d u hd
      exact ⟨h, hh, t, List.mem_append_right _ ht, hbefore⟩

/-- A sleep is for the backoff after some rounds, and before the deadline. -/
theorem Waiting.sleep_mem {h : History S} {d : Duration} {u : Unit} (hw : Waiting c a h)
    (hd : ⟨.sleep d, u⟩ ∈ h) :
    ∃ (t₀ deadline t : Instant) (g : History S), h.head? = some ⟨.now, t₀⟩ ∧
      t₀.checkedAdd? a.readyTimeout = some deadline ∧ Rounds c a deadline g d ∧
      ⟨.now, t⟩ ∈ h ∧ t.before deadline := by
  cases hw with
  | none => cases hd
  | started t₀ => cases List.mem_singleton.mp hd
  | @trying t₀ deadline g p backoff hadd hg hp =>
    have hd : ⟨.sleep d, u⟩ ∈ g ++ p := by
      rcases List.mem_cons.mp hd with hd | hd
      · cases hd
      · exact hd
    rcases List.mem_append.mp hd with hd | hd
    · obtain ⟨g', hg', t, ht, hbefore⟩ := hg.sleep_mem hd
      exact ⟨t₀, deadline, t, g', rfl, hadd, hg',
        List.mem_cons_of_mem _ (List.mem_append_left _ ht), hbefore⟩
    · obtain ⟨rfl, t, ht, hbefore⟩ := readyRound_sleeps hp d u hd
      exact ⟨t₀, deadline, t, g, rfl, hadd, hg,
        List.mem_cons_of_mem _ (List.mem_append_right _ ht), hbefore⟩

/-- From a first backoff within `max_backoff` every backoff is. -/
theorem Rounds.backoff_le {g : History S} {backoff : Duration}
    (hg : Rounds c a deadline g backoff) (ha : a.initialBackoff.nanos ≤ a.maxBackoff.nanos) :
    backoff.nanos ≤ a.maxBackoff.nanos := by
  cases hg with
  | start => exact ha
  | again _ hround =>
    cases hround
    unfold Duration.min
    split
    next h => exact h
    next => exact Nat.le_refl _

/-- Rounds end with a sleep, that began before the deadline. -/
theorem Rounds.last {g : History S} {backoff : Duration} (hg : Rounds c a deadline g backoff) :
    g = [] ∨ ∃ (h g' : History S) (t : Instant) (d : Duration),
      g = h ++ [⟨.now, t⟩, ⟨.sleep d, ()⟩] ∧ t.before deadline ∧ Rounds c a deadline g' d := by
  cases hg with
  | start => exact .inl rfl
  | @again h round d next hh hround =>
    cases hround with
    | @slept ping err t hping hrec hbefore =>
      exact .inr ⟨h ++ ping, h, t, d, (List.append_assoc _ _ _).symm, hbefore, hh⟩

end Client

/-! ## Times -/

/-- The time of the last event. -/
def Timed.endTime (th : Timed S) : Int := (th.getLast?.map Prod.snd).getD 0

/-- One event after another: the clock does not go back, a reading of it takes no time,
and a sleep takes exactly as long as was asked for. -/
def Passes (x y : SysEvent S × Int) : Prop :=
  x.2 ≤ y.2 ∧ (∀ (d : Duration) u, y.1 = ⟨.sleep d, u⟩ → y.2 = x.2 + d.nanos) ∧
    ∀ t, y.1 = ⟨.now, t⟩ → y.2 = x.2

/-- Time passes in this way, and the clock shows it. -/
structure Paced (th : Timed S) : Prop where
  chain : th.IsChain Passes
  readings : ∀ t τ, (⟨.now, t⟩, τ) ∈ th → t.nanos = τ

@[simp] theorem endTime_concat (th : Timed S) (x : SysEvent S × Int) :
    Timed.endTime (th ++ [x]) = x.2 := by simp [Timed.endTime]

namespace Paced

variable {th u v : Timed S} {x : SysEvent S × Int}

theorem cut (h : Paced (u ++ v)) : Paced u :=
  ⟨(List.isChain_append.mp h.chain).1, fun t τ hm => h.readings t τ (List.mem_append_left _ hm)⟩

/-- The last event comes after the one before it. -/
theorem concat (h : Paced (th ++ [x])) (hne : th ≠ []) :
    ∃ e, Passes (e, th.endTime) x := by
  obtain ⟨y, hy⟩ := Option.ne_none_iff_exists'.mp (mt List.getLast?_eq_none_iff.mp hne)
  have hstep := (List.isChain_append.mp h.chain).2.2 y hy x rfl
  rw [Timed.endTime, hy]
  exact ⟨y.1, hstep⟩

/-- The times do not go back. -/
theorem sorted (h : Paced th) : th.Pairwise fun x y => x.2 ≤ y.2 := by
  have hle : th.IsChain fun x y => x.2 ≤ y.2 := h.chain.imp fun _ _ hxy => hxy.1
  have : IsTrans (SysEvent S × Int) fun x y => x.2 ≤ y.2 := ⟨fun _ _ _ => Int.le_trans⟩
  exact List.isChain_iff_pairwise.mp hle

/-- No reading is earlier than the first event's. -/
theorem reading_ge (h : Paced th) {t₀ t : Instant} (h₀ : th.events.head? = some ⟨.now, t₀⟩)
    (ht : (⟨.now, t⟩ : SysEvent S) ∈ th.events) : t₀.nanos ≤ t.nanos := by
  obtain ⟨⟨e, τ⟩, hm, rfl⟩ := List.mem_map.mp ht
  cases th with
  | nil => cases h₀
  | cons y th =>
    obtain ⟨e₀, τ₀⟩ := y
    obtain rfl : e₀ = ⟨.now, t₀⟩ := Option.some.inj h₀
    have hτ := h.readings t τ hm
    have hτ₀ := h.readings t₀ τ₀ List.mem_cons_self
    rcases List.mem_cons.mp hm with hm | hm
    · cases hm
      omega
    · have hle := (List.pairwise_cons.mp h.sorted).1 _ hm
      dsimp only at hle
      omega

end Paced

theorem events_split {th : Timed S} {g h : History S} (he : th.events = g ++ h) :
    ∃ u v : Timed S, th = u ++ v ∧ u.events = g ∧ v.events = h := List.map_eq_append_iff.mp he

/-! ## The bounds -/

/-- The events are a ping that was answered with a `Pong` frame. -/
def Ponged (c : Client) (ping : History S) : Prop :=
  ∃ (stream : Stream) (w : History S) (u : Unit) (frame : Frame),
    ping = ⟨.connect c.socketPath, .ok stream⟩ :: (w ++ [⟨.closeStream stream, u⟩]) ∧
      Returns (c.roundTrip stream .ping [] : SysTry S Frame).run w (.ok frame) ∧ frame.kind = .pong

/-- What is promised of a run of `wait_for_ready` that read the time `t₀` first, finished
or not. -/
structure ReadyBounds (c : Client) (a : AutoStart) (t₀ : Instant) (th : Timed S) : Prop where
  /-- No sleep is longer than `max_backoff`. -/
  sleeps : ∀ d u, (⟨.sleep d, u⟩ : SysEvent S) ∈ th.events → d.nanos ≤ a.maxBackoff.nanos
  /-- It is over at most `max_backoff` and its last ping after the deadline. -/
  inTime : ∀ r, Returns (c.waitForReady a : SysTry S Unit).run th.events r →
    ∃ (before ping after : Timed S) (out : Except Error Unit), th = before ++ ping ++ after ∧
      Returns (c.tryPingOnce : SysTry S Unit).run ping.events out ∧
      th.endTime ≤ t₀.nanos + a.readyTimeout.nanos + a.maxBackoff.nanos +
        (Timed.endTime (before ++ ping) - before.endTime)
  /-- It times out only after a ping that failed recoverably at or after the deadline. -/
  timedOut : ∀ socket timeout,
    Returns (c.waitForReady a : SysTry S Unit).run th.events
        (.error (.readyTimeout socket timeout)) →
    ∃ (before ping after : Timed S) (err : Error), th = before ++ ping ++ after ∧
      Returns (c.tryPingOnce : SysTry S Unit).run ping.events (.error err) ∧
      canAttemptRecovery err ∧
      t₀.nanos + a.readyTimeout.nanos ≤ Timed.endTime (before ++ ping)
  /-- It succeeds only with a `Pong`. -/
  ponged : Returns (c.waitForReady a : SysTry S Unit).run th.events (.ok ()) →
    ∃ before ping : Timed S, th = before ++ ping ∧ Ponged c ping.events
  /-- Every ping that is not the last has failed recoverably. -/
  attempts : Client.Waiting c a th.events
  /-- After a ping that failed otherwise there is nothing more. -/
  stops : ∀ (deadline : Instant) (g ping rest : History S) (backoff : Duration) (err : Error),
    t₀.checkedAdd? a.readyTimeout = some deadline →
    th.events = ⟨.now, t₀⟩ :: (g ++ ping ++ rest) → Client.Rounds c a deadline g backoff →
    Returns (c.tryPingOnce : SysTry S Unit).run ping (.error err) → ¬ canAttemptRecovery err →
    rest = [] ∧ Returns (c.waitForReady a : SysTry S Unit).run th.events (.error err)

section Bounds

variable {c : Client} {a : AutoStart} {t₀ deadline : Instant} {th : Timed S}

theorem ponged_of_returns {ping : History S}
    (h : Returns (c.tryPingOnce : SysTry S Unit).run ping (.ok ())) : Ponged c ping := by
  obtain ⟨u, v, stream, rfl, hconn, hrest⟩ := Try.returns_bind_ok h
  obtain ⟨u, x, r, rfl, hcall, hmap⟩ := Prog.returns_bind_iff.mp hconn
  obtain ⟨b, y, rfl, hdone⟩ := returns_call_iff.mp hcall
  obtain ⟨rfl, rfl⟩ := returns_ret_iff.mp hdone
  obtain ⟨rfl, hok⟩ := returns_ret_iff.mp hmap
  cases b with
  | error err => exact nomatch hok
  | ok s =>
    obtain rfl : s = stream := Except.ok.inj hok
    obtain ⟨w, x, out, rfl, hbody, hclose⟩ := Prog.returns_bind_iff.mp hrest
    obtain ⟨z, y, rfl, hend⟩ := returns_call_iff.mp hclose
    obtain ⟨rfl, rfl⟩ := returns_ret_iff.mp hend
    obtain ⟨w, x, frame, rfl, htrip, hof⟩ := Try.returns_bind_ok hbody
    obtain ⟨rfl, hpong⟩ := returns_ret_iff.mp hof
    refine ⟨s, w, z, frame, by simp, htrip, ?_⟩
    unfold Client.pongOf at hpong
    split at hpong
    next hk => exact hk
    next => cases hpong

theorem nanos_of_checkedAdd {d : Duration} (h : t₀.checkedAdd? d = some deadline) :
    deadline.nanos = t₀.nanos + d.nanos := by
  unfold Instant.checkedAdd? at h
  split at h
  next =>
    obtain rfl := Option.some.inj h
    rfl
  next => cases h

/-- Where the first backoff is within `max_backoff`, or there is no time at all, so is
every backoff for which the client sleeps. -/
theorem backoff_le (ha : a.initialBackoff.nanos ≤ a.maxBackoff.nanos ∨ a.readyTimeout.nanos = 0)
    (hp : Paced th) (h₀ : th.events.head? = some ⟨.now, t₀⟩)
    (hadd : t₀.checkedAdd? a.readyTimeout = some deadline) {t : Instant}
    (ht : (⟨.now, t⟩ : SysEvent S) ∈ th.events) (hbefore : t.before deadline) {g : History S}
    {d : Duration} (hg : Client.Rounds c a deadline g d) : d.nanos ≤ a.maxBackoff.nanos := by
  rcases ha with ha | hzero
  · exact hg.backoff_le ha
  · -- the deadline is the first reading, and no reading is before that
    have hdeadline := nanos_of_checkedAdd hadd
    have hge := hp.reading_ge h₀ ht
    have hlt := (Instant.before_iff t deadline).mp hbefore
    omega

/-- Rounds are over at most `max_backoff` after the deadline. -/
theorem endTime_rounds (ha : a.initialBackoff.nanos ≤ a.maxBackoff.nanos ∨
      a.readyTimeout.nanos = 0) (hp : Paced th)
    (hadd : t₀.checkedAdd? a.readyTimeout = some deadline) {g : History S} {d : Duration}
    (he : th.events = ⟨.now, t₀⟩ :: g) (hg : Client.Rounds c a deadline g d) :
    th.endTime ≤ deadline.nanos + a.maxBackoff.nanos := by
  have hdeadline := nanos_of_checkedAdd hadd
  rcases hg.last with rfl | ⟨h, g', t, d, rfl, hbefore, hd⟩
  · obtain ⟨⟨e, τ⟩, u, rfl, rfl, hu⟩ := List.map_eq_cons_iff.mp he
    obtain rfl := List.map_eq_nil_iff.mp hu
    have hτ : t₀.nanos = τ := hp.readings t₀ τ (List.mem_singleton_self _)
    show τ ≤ _
    omega
  · have he' : th.events = (⟨.now, t₀⟩ :: h) ++ ([⟨.now, t⟩] ++ [⟨.sleep d, ()⟩]) := he
    obtain ⟨u, v, rfl, hu, hv⟩ := events_split he'
    obtain ⟨v, w, rfl, hv, hw⟩ := events_split hv
    obtain ⟨x, rfl, hx⟩ := List.map_eq_singleton_iff.mp hv
    obtain ⟨y, rfl, hy⟩ := List.map_eq_singleton_iff.mp hw
    have hmem : (⟨.now, t⟩ : SysEvent S) ∈ Timed.events (u ++ ([x] ++ [y])) := by rw [he']; simp
    have hle := backoff_le ha hp (by rw [he]; rfl) hadd hmem hbefore hd
    have hlt := (Instant.before_iff t deadline).mp hbefore
    have hx₂ : t.nanos = x.2 := hp.readings t x.2 (by simp [← hx])
    rw [← List.append_assoc] at hp ⊢
    obtain ⟨e, -, hsleep, -⟩ := hp.concat (by simp)
    have hy₂ := hsleep d () hy
    rw [endTime_concat] at hy₂ ⊢
    omega

/-- Rounds lead from the loop to the loop. -/
theorem reach_of_rounds {g : History S} {d : Duration} (hg : Client.Rounds c a deadline g d) :
    Reach (Try.repeating (c.readyRound a deadline) a.initialBackoff : SysTry S Unit).run g
      (Try.repeating (c.readyRound a deadline) d : SysTry S Unit).run := by
  induction hg with
  | start => exact .refl
  | @again h round d next _ hround ih =>
    have hround := Reach.bind (Client.returns_readyRound hround)
      (Reach.refl : Reach (Try.round (.ok (.inl next)) : Sys S (Duration ⊕ Except Error Unit)) [] _)
    have hagain := Reach.bind hround (Reach.refl : Reach
      (again (fun d => (c.readyRound a deadline d : SysTry S _).run.bind Try.round) .ret
        (.inl next)) [] _)
    rw [List.append_nil, List.append_nil] at hagain
    exact ih.trans hagain.loop

/-- So a run of `wait_for_ready` gets there. -/
theorem reach_waiting (hadd : t₀.checkedAdd? a.readyTimeout = some deadline) {g : History S}
    {d : Duration} (hg : Client.Rounds c a deadline g d) :
    Reach (c.waitForReady a : SysTry S Unit).run (⟨.now, t₀⟩ :: g)
      (Try.repeating (c.readyRound a deadline) d : SysTry S Unit).run := by
  refine Reach.call ?_
  show Reach (((addInstant t₀ a.readyTimeout).bind _).bind _) _ _
  unfold addInstant
  rw [hadd]
  exact reach_of_rounds hg

/-- A ping that fails otherwise is the end of it. -/
theorem returns_of_stopped (hadd : t₀.checkedAdd? a.readyTimeout = some deadline)
    {g ping : History S} {d : Duration} {err : Error} (hg : Client.Rounds c a deadline g d)
    (hping : Returns (c.tryPingOnce : SysTry S Unit).run ping (.error err))
    (hrec : ¬ canAttemptRecovery err) :
    Returns (c.waitForReady a : SysTry S Unit).run (⟨.now, t₀⟩ :: (g ++ ping)) (.error err) := by
  have hround := Reach.bind
    (Client.returns_readyRound (.stopped hping hrec : Client.RoundEnd c a deadline d ping _))
    (Reach.refl : Reach (Try.round (.error err) : Sys S (Duration ⊕ Except Error Unit)) [] _)
  have hagain := Reach.bind hround (Reach.refl : Reach
    (again (fun d => (c.readyRound a deadline d : SysTry S _).run.bind Try.round) .ret
      (.inr (.error err))) [] _)
  rw [List.append_nil, List.append_nil] at hagain
  exact (reach_waiting hadd hg).trans hagain.loop

/-- How a run of `wait_for_ready` that has returned splits. -/
theorem waitedFor_split {r : Except Error Unit} (h₀ : th.events.head? = some ⟨.now, t₀⟩)
    (hret : Returns (c.waitForReady a : SysTry S Unit).run th.events r) :
    ∃ (deadline : Instant) (g last : History S) (d : Duration) (u v : Timed S),
      t₀.checkedAdd? a.readyTimeout = some deadline ∧ th = u ++ v ∧
        u.events = ⟨.now, t₀⟩ :: g ∧ v.events = last ∧ Client.Rounds c a deadline g d ∧
        Client.RoundEnd c a deadline d last (Client.lastOutcome r) := by
  have hw := Client.waitForReady_rounds.returns hret
  rw [Spec.foldl_record, List.nil_append] at hw
  obtain ⟨t, deadline, g, d, last, hadd, he, hg, hlast⟩ := hw
  rw [he] at h₀
  cases h₀
  have he' : th.events = (⟨.now, t₀⟩ :: g) ++ last := he
  obtain ⟨u, v, rfl, hu, hv⟩ := events_split he'
  exact ⟨deadline, g, last, d, u, v, hadd, rfl, hu, hv, hg, hlast⟩

/-- A reading of the clock after other events takes no time. -/
theorem Paced.reading {u v : Timed S} {t : Instant} (hp : Paced (u ++ v)) (hne : u ≠ [])
    (hv : v.events = [⟨.now, t⟩]) :
    Timed.endTime (u ++ v) = u.endTime ∧ u.endTime = t.nanos := by
  obtain ⟨x, rfl, hx⟩ := List.map_eq_singleton_iff.mp hv
  obtain ⟨e, -, -, hnow⟩ := hp.concat hne
  have ht : t.nanos = x.2 := hp.readings t x.2 (by simp [← hx])
  have hx₂ : x.2 = u.endTime := hnow t hx
  rw [endTime_concat]
  exact ⟨hx₂, by rw [← hx₂, ht]⟩

theorem ne_nil_of_events {u : Timed S} {e : SysEvent S} {g : History S}
    (hu : u.events = e :: g) : u ≠ [] := by
  rintro rfl
  cases hu

theorem readyBounds_of (ha : a.initialBackoff.nanos ≤ a.maxBackoff.nanos ∨
      a.readyTimeout.nanos = 0) (ht : Traces (c.waitForReady a : SysTry S Unit).run th.events)
    (h₀ : th.events.head? = some ⟨.now, t₀⟩) (hp : Paced th) : ReadyBounds c a t₀ th := by
  obtain ⟨q, hq⟩ := ht
  have hw := Client.waitForReady_rounds.always hq
  rw [Spec.foldl_record, List.nil_append] at hw
  refine ⟨?_, ?_, ?_, ?_, hw, ?_⟩
  · intro d u hd
    obtain ⟨t, deadline, t', g, h₀', hadd, hg, ht', hbefore⟩ := hw.sleep_mem hd
    rw [h₀] at h₀'
    cases h₀'
    exact backoff_le ha hp h₀ hadd ht' hbefore hg
  · intro r hret
    obtain ⟨deadline, g, last, d, u, v, hadd, rfl, hu, hv, hg, hlast⟩ := waitedFor_split h₀ hret
    have hdeadline := nanos_of_checkedAdd hadd
    have hend := endTime_rounds ha hp.cut hadd hu hg
    generalize hr : Client.lastOutcome r = out at hlast
    cases hlast with
    | ponged hping =>
      refine ⟨u, v, [], .ok (), (List.append_nil _).symm, hv ▸ hping, ?_⟩
      omega
    | stopped hping hrec =>
      refine ⟨u, v, [], _, (List.append_nil _).symm, hv ▸ hping, ?_⟩
      omega
    | gaveUp hping hrec hlate =>
      obtain ⟨v, w, rfl, hv, hw⟩ := events_split hv
      refine ⟨u, v, w, _, (List.append_assoc _ _ _).symm, hv ▸ hping, ?_⟩
      rw [← List.append_assoc] at hp ⊢
      have hread := (hp.reading (List.append_ne_nil_of_left_ne_nil (ne_nil_of_events hu) v) hw).1
      omega
    | slept hping hrec hbefore =>
      cases r <;> cases hr
  · intro socket timeout hret
    obtain ⟨deadline, g, last, d, u, v, hadd, rfl, hu, hv, hg, hlast⟩ := waitedFor_split h₀ hret
    have hdeadline := nanos_of_checkedAdd hadd
    generalize hr : Client.lastOutcome (.error (.readyTimeout socket timeout)) = out at hlast
    cases hlast with
    | ponged hping => cases hr
    | stopped hping hrec =>
      cases hr
      exact absurd rfl (Client.tryPingOnce_notTimeout hping socket timeout)
    | @gaveUp ping err t hping hrec hlate =>
      obtain ⟨v, w, rfl, hv, hw⟩ := events_split hv
      refine ⟨u, v, w, err, (List.append_assoc _ _ _).symm, hv ▸ hping, hrec, ?_⟩
      rw [← List.append_assoc] at hp
      have hread := (hp.reading (List.append_ne_nil_of_left_ne_nil (ne_nil_of_events hu) v) hw).2
      have hlate := mt (Instant.before_iff t deadline).mpr hlate
      omega
    | slept hping hrec hbefore => cases hr
  · intro hret
    obtain ⟨deadline, g, last, d, u, v, hadd, rfl, hu, hv, hg, hlast⟩ := waitedFor_split h₀ hret
    generalize hr : Client.lastOutcome (.ok ()) = out at hlast
    cases hlast with
    | ponged hping => exact ⟨u, v, rfl, ponged_of_returns (hv ▸ hping)⟩
    | stopped hping hrec => cases hr
    | gaveUp hping hrec hlate => cases hr
    | slept hping hrec hbefore => cases hr
  · intro deadline g ping rest d err hadd he hg hping hrec
    have hret := returns_of_stopped hadd hg hping hrec
    have hall : th.events = (⟨.now, t₀⟩ :: (g ++ ping)) ++ rest := by rw [he]; rfl
    cases rest with
    | nil =>
      rw [List.append_nil] at hall
      exact ⟨rfl, hall ▸ hret⟩
    | cons e rest =>
      -- nothing comes after a return
      rw [hall, List.append_cons] at hq
      exact (hret.stops (Traces.cut ⟨q, hq⟩)).elim

/-- The first try fails at once, and the client sleeps. -/
def firstSleep (c : Client) (a : AutoStart) (t₀ : Instant) : Timed S :=
  [(⟨.now, t₀⟩, t₀.nanos), (⟨.connect c.socketPath, .error ⟨.notFound, ""⟩⟩, t₀.nanos),
    (⟨.now, t₀⟩, t₀.nanos),
    (⟨.sleep a.initialBackoff, ()⟩, t₀.nanos + a.initialBackoff.nanos)]

theorem op_eq {op op' : Op S} {b : Ans op} {b' : Ans op'}
    (h : (⟨op, b⟩ : SysEvent S) = ⟨op', b'⟩) : op = op' := congrArg Sigma.fst h

theorem paced_firstSleep : Paced (firstSleep c a t₀ : Timed S) := by
  have hsleep : Passes ((⟨.now, t₀⟩ : SysEvent S), t₀.nanos)
      (⟨.sleep a.initialBackoff, ()⟩, t₀.nanos + a.initialBackoff.nanos) := by
    refine ⟨?_, ?_, fun t he => (nomatch op_eq he)⟩
    · show t₀.nanos ≤ t₀.nanos + a.initialBackoff.nanos
      omega
    · intro d u hd
      cases hd
      rfl
  have hread : Passes ((⟨.connect c.socketPath, .error ⟨.notFound, ""⟩⟩ : SysEvent S), t₀.nanos)
      (⟨.now, t₀⟩, t₀.nanos) :=
    ⟨Int.le_refl _, fun _ u he => (nomatch op_eq he), fun _ _ => rfl⟩
  have hconnect : Passes ((⟨.now, t₀⟩ : SysEvent S), t₀.nanos)
      (⟨.connect c.socketPath, .error ⟨.notFound, ""⟩⟩, t₀.nanos) :=
    ⟨Int.le_refl _, fun _ u he => (nomatch op_eq he), fun t he => (nomatch op_eq he)⟩
  refine ⟨.cons_cons hconnect (.cons_cons hread (.cons_cons hsleep (.singleton _))), ?_⟩
  intro t τ hm
  simp only [firstSleep, List.mem_cons, List.not_mem_nil, or_false] at hm
  rcases hm with hm | hm | hm | hm <;> cases hm <;> rfl

theorem traces_firstSleep (hadd : t₀.checkedAdd? a.readyTimeout = some deadline)
    (hbefore : t₀.before deadline) :
    Traces (c.waitForReady a : SysTry S Unit).run (Timed.events (firstSleep c a t₀)) := by
  have hping : Returns (c.tryPingOnce : SysTry S Unit).run
      [⟨.connect c.socketPath, .error ⟨.notFound, ""⟩⟩] (.error (.io ⟨.notFound, ""⟩)) :=
    Reach.call .refl
  exact ⟨_, reach_waiting hadd (.again .start (.slept hping rfl hbefore))⟩

/-- `wait_for_ready` keeps within its bounds, whatever the answers and the times, exactly
for the configurations whose first backoff is not greater than `max_backoff`, or that
allow no time for waiting. -/
theorem readyBounds_iff (c : Client) (a : AutoStart) :
    (∀ (t₀ : Instant) (th : Timed S), t₀.nanos + a.readyTimeout.nanos < instantLimit →
      Traces (c.waitForReady a : SysTry S Unit).run th.events →
      th.events.head? = some ⟨.now, t₀⟩ → Paced th → ReadyBounds c a t₀ th) ↔
    a.initialBackoff.nanos ≤ a.maxBackoff.nanos ∨ a.readyTimeout.nanos = 0 := by
  constructor
  · intro h
    by_contra hnot
    -- the earliest instant: from there every timeout ends in time
    let t₀ : Instant := ⟨-instantLimit, le_refl _, by decide⟩
    have hlimit := a.readyTimeout.lt_limit
    have hlt : t₀.nanos + a.readyTimeout.nanos < instantLimit := by
      simp only [t₀, instantLimit, durationLimit, nanosPerSec] at *
      omega
    have hadd : t₀.checkedAdd? a.readyTimeout =
        some ⟨t₀.nanos + a.readyTimeout.nanos, by have := t₀.ge_limit; omega, hlt⟩ := dif_pos hlt
    have hbefore := (Instant.before_iff t₀
      ⟨t₀.nanos + a.readyTimeout.nanos, by have := t₀.ge_limit; omega, hlt⟩).mpr (by
        show t₀.nanos < t₀.nanos + a.readyTimeout.nanos
        omega)
    have hbounds := h t₀ (firstSleep c a t₀) hlt (traces_firstSleep hadd hbefore) rfl
      paced_firstSleep
    have hle := hbounds.sleeps a.initialBackoff () (by simp [firstSleep, Timed.events])
    omega
  · intro ha t₀ th _ ht h₀ hp
    exact readyBounds_of ha ht h₀ hp

/-- With a first backoff of a second and a `max_backoff` of a quarter, the first sleep is
too long. -/
theorem firstSleep_too_long : ¬ ∀ (c : Client) (a : AutoStart) (t₀ : Instant) (th : Timed Unit),
    t₀.nanos + a.readyTimeout.nanos < instantLimit →
      Traces (c.waitForReady a : SysTry Unit Unit).run th.events →
      th.events.head? = some ⟨.now, t₀⟩ → Paced th → ReadyBounds c a t₀ th := by
  intro h
  let c : Client := { socketPath := ["tmp", "sockd.sock"] }
  let a : AutoStart := { program := ["bin", "sockd"], initialBackoff := .fromSecs 1 }
  have hbounds := h c a noon (firstSleep c a noon) (by decide)
    (traces_firstSleep (dif_pos (by decide)) (by decide)) rfl paced_firstSleep
  have hle := hbounds.sleeps (.fromSecs 1) () (by simp [firstSleep, Timed.events, a])
  exact absurd hle (by decide)

end Bounds

end Sockd
