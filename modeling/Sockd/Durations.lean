import Sockd.Backoff

/-!
# Durations and the clock

Which durations the library can be given without harm. Everything that the daemon
computes from `idle_timeout` and `poll_interval` saturates, and what it hands to `poll`
fits an `i32` and the idle time that is left (`polls_inTime`). A client adds
`ready_timeout` or `shutdown_timeout` to the clock, and that is the one operation that
can panic: `durationsTotal_iff` says when it does.
-/

namespace Sockd

open Rust Effects Effects.Prog

variable {S : Type}

/-- After these events the program panics. -/
def Panics {α : Type} (p : Sys S α) (h : History S) : Prop := ∃ k, Reach p h (.call .panic k)

theorem not_panics {α : Type} {p : Sys S α} {A : Op S → Prop} (hp : AllCalls A p)
    (hA : ¬ A .panic) (h : History S) : ¬ Panics p h := by
  rintro ⟨k, n, hn⟩
  exact hA (hp.steps hn).1.1

/-! ## The daemon -/

/-- A poll for `ms` milliseconds, where these events come before it: the clock has just
been read, `ms` fits an `i32`, and the idle time that was left then is not shorter. -/
def PollsInTime (config : DaemonConfig) (h : History S) (ms : Nat) : Prop :=
  ms ≤ i32Max ∧ ∃ t t₀ : Instant, h.getLast? = some ⟨.now, t⟩ ∧
    (Ledger.of h).lastActivity = some t₀ ∧
    (t.durationSince t₀).nanos + ms * 1000000 ≤ config.idleTimeout.nanos

/-- Every poll of the events is like that. -/
def AllPollsInTime (config : DaemonConfig) (h : History S) : Prop :=
  ∀ (h₁ h₂ : History S) l ms a, h = h₁ ++ ⟨.poll l ms, a⟩ :: h₂ → PollsInTime config h₁ ms

section Polls

variable {config : DaemonConfig} {listener : Nat} {state : S} {h : History S}

/-- Another call than `poll`, or one that is in time. -/
theorem AllPollsInTime.snoc {e : SysEvent S} (hh : AllPollsInTime config h)
    (he : ∀ l ms, e.1 = .poll l ms → PollsInTime config h ms) :
    AllPollsInTime config (h ++ [e]) := by
  intro h₁ h₂ l ms a hsplit
  rcases List.append_eq_append_iff.mp hsplit with ⟨u, rfl, hu⟩ | ⟨u, rfl, hu⟩
  · cases u with
    | nil =>
      obtain ⟨rfl, -⟩ := List.cons.inj hu
      rw [List.append_nil]
      exact he l ms rfl
    | cons x u =>
      -- the poll would come after the last event
      have hlen := congrArg List.length hu
      simp at hlen
  · cases u with
    | nil =>
      obtain ⟨rfl, -⟩ := List.cons.inj hu
      rw [List.append_nil] at he
      exact he l ms rfl
    | cons x u =>
      obtain ⟨rfl, -⟩ := List.cons.inj hu
      exact hh h₁ u l ms a rfl

theorem AllPollsInTime.keep {α : Type} {p : Sys S α} (hp : AllCalls AcceptOp p)
    (hh : AllPollsInTime config h) :
    Spec Spec.record h p (AllPollsInTime config) (fun _ => AllPollsInTime config) :=
  Spec.keep hp (fun _ op _ hop hI => hI.snoc fun l ms he => by
    obtain rfl : op = .poll l ms := he
    exact hop.elim) hh

/-- The timeout of a poll is a part of the time that is left. -/
theorem pollTimeoutMs_le (timeout : Duration) :
    pollTimeoutMs timeout ≤ i32Max ∧ pollTimeoutMs timeout * 1000000 ≤ timeout.nanos := by
  refine ⟨Nat.min_le_right _ _, ?_⟩
  have hle : pollTimeoutMs timeout ≤ timeout.nanos / 1000000 := Nat.min_le_left _ _
  omega

theorem min_le_left (a b : Duration) : (a.min b).nanos ≤ a.nanos := by
  unfold Duration.min
  split
  next => exact Nat.le_refl _
  next h => omega

theorem eventRound_polls (x : Instant × S) (hstamp : StampedAt x.1 (h.foldl watch ({}, none)))
    (hh : AllPollsInTime config h) :
    Spec Spec.record h (eventRound config listener x) (AllPollsInTime config)
      (fun _ => AllPollsInTime config) := by
  refine Spec.call hh fun (b : Bool) => ?_
  have hflag : AllPollsInTime config (Spec.record h ⟨.loadFlag, b⟩) :=
    hh.snoc fun _ _ he => by cases he
  cases b with
  | true => exact .ret hflag hflag
  | false =>
    refine Spec.call hflag fun (t : Instant) => ?_
    have hread : AllPollsInTime config (Spec.record (Spec.record h ⟨.loadFlag, false⟩) ⟨.now, t⟩) :=
      hflag.snoc fun _ _ he => by cases he
    show Spec _ _ (if _ then _ else _) _ _
    split
    next => exact .ret hread hread
    next hleft =>
      -- the stamp is still there, and the clock was read right before the poll
      have hintime : PollsInTime config (Spec.record (Spec.record h ⟨.loadFlag, false⟩) ⟨.now, t⟩)
          (pollTimeoutMs ((config.idleTimeout.saturatingSub (t.durationSince x.1)).min
            config.pollInterval)) := by
        have hms := pollTimeoutMs_le
          ((config.idleTimeout.saturatingSub (t.durationSince x.1)).min config.pollInterval)
        have hmin := min_le_left (config.idleTimeout.saturatingSub (t.durationSince x.1))
          config.pollInterval
        have hpos := mt (Duration.isZero_iff _).mpr hleft
        rw [Duration.nanos_saturatingSub] at hmin hpos
        rw [foldl_watch] at hstamp
        refine ⟨hms.1, t, x.1, List.getLast?_concat, ?_, by omega⟩
        rw [Spec.record, Spec.record, Ledger.of_append, Ledger.of_append]
        show (if (Ledger.of h).armed = true then some t else (Ledger.of h).lastActivity) = some x.1
        rw [if_neg (by rw [hstamp.1]; exact Bool.false_ne_true)]
        exact hstamp.2
      refine Spec.bind (R := fun _ => AllPollsInTime config) ?_ ?_
      · refine Spec.call hread fun a => ?_
        have hpoll : AllPollsInTime config
            (Spec.record (Spec.record (Spec.record h ⟨.loadFlag, false⟩) ⟨.now, t⟩)
              ⟨.poll listener (pollTimeoutMs ((config.idleTimeout.saturatingSub
                (t.durationSince x.1)).min config.pollInterval)), a⟩) := by
          refine hread.snoc fun l ms he => ?_
          obtain ⟨rfl, rfl⟩ := Op.poll.inj he
          exact hintime
        cases a with
        | ok p => exact .ret hpoll hpoll
        | error err =>
          show Spec _ _ (Try.run (if err.kind = .interrupted then pure false
            else Try.fail (Error.io err))) _ _
          rw [Try.run_ite]
          split
          next => exact .ret hpoll hpoll
          next => exact .ret hpoll hpoll
      · intro r h' _ hh'
        cases r with
        | error err => exact .ret hh' hh'
        | ok ready =>
          cases ready with
          | false => exact .ret hh' hh'
          | true =>
            have hdrain : AllCalls AcceptOp (acceptLoop config listener x.1 x.2) :=
              ⟨fun _ => allCalls_acceptRound, fun _ => trivial⟩
            refine Spec.bind (AllPollsInTime.keep hdrain hh') ?_
            intro d h'' _ hh''
            cases d with
            | wouldBlock t s => exact .ret hh'' hh''
            | «over» result s => exact .ret hh'' hh''

theorem runEventLoop_polls :
    Spec Spec.record [] (runEventLoop config listener state) (AllPollsInTime config)
      (fun _ => AllPollsInTime config) := by
  refine Spec.call (fun h₁ h₂ l ms a he => ?_) fun (t : Instant) => ?_
  · cases h₁ <;> cases he
  have hstart : AllPollsInTime config (Spec.record [] (⟨.now, t⟩ : SysEvent S)) := by
    refine AllPollsInTime.snoc (fun h₁ h₂ l ms a he => ?_) nofun
    cases h₁ <;> cases he
  refine Spec.loop (fun (x : Instant × S) h => AllPollsInTime config h ∧
      StampedAt x.1 (h.foldl watch ({}, none)))
    (fun _ => AllPollsInTime config) ⟨hstart, rfl, rfl⟩ ?_ fun _ _ hΦ hr => .ret hΦ hr
  intro x h hI
  have hpolls : Spec Spec.record h (eventRound config listener x) _ _ :=
    eventRound_polls x hI.2 hI.1
  have hwatched : Spec watch (h.foldl watch ({}, none)) (eventRound config listener x) _ _ :=
    eventRound_watched x hI.2
  refine (hpolls.and hwatched.recorded).mono (fun _ h => h.1) fun r h' hr => ?_
  cases r with
  | inl y => exact hr
  | inr out => exact hr.1

/-- Where the event loop is about to poll, it polls in time. -/
theorem polls_inTime {l ms : Nat} {k : Ans (Op.poll l ms : Op S) → _}
    (hr : Reach (runEventLoop config listener state) h (.call (.poll l ms) k)) :
    PollsInTime config h ms := by
  let a : Ans (Op.poll l ms : Op S) := .ok ⟨0, false⟩
  have hpolled := runEventLoop_polls.always (hr.trans (.call (b := a) .refl))
  rw [Spec.foldl_record, List.nil_append] at hpolled
  exact hpolled h [] l ms _ rfl

end Polls

/-! ## The client -/

section Waits

variable {c : Client} {a : AutoStart} {t deadline : Instant}

theorem shutdownComplete_fails {P : Error → Prop} (hP : ∀ io, P (.io io)) :
    Try.Fails P (c.shutdownComplete : SysTry S Bool) := by
  refine Try.fails_bind (Try.fails_bind (fun h => (Try.returns_attempt_error h).elim) fun r => ?_)
    fun gone => ?_
  · cases r with
    | ok u => exact Try.fails_pure _
    | error err =>
      show Try.Fails P (if err.kind = .notFound then _ else _)
      split
      next => exact Try.fails_pure _
      next => exact Try.fails_fail (hP err)
  · split
    next =>
      exact Try.fails_bind (Client.look_fails hP) fun live => Try.fails_pure _
    next => exact Try.fails_pure _

/-- The last event read the clock, and it showed `τ` or later. -/
def ReadFrom (τ : Int) (h : History S) : Prop :=
  ∃ t : Instant, h.getLast? = some ⟨.now, t⟩ ∧ τ ≤ t.nanos

theorem shutdownRound_timeout {h : History S} {socket : Path} {timeout : Duration}
    (hr : Returns (c.shutdownRound deadline : SysTry S _).run h
      (.error (.shutdownTimeout socket timeout))) : ReadFrom deadline.nanos h := by
  rcases Try.returns_bind_iff.mp hr with ⟨e, he, hfail⟩ | ⟨u, v, done, rfl, -, hrest⟩
  · cases he
    exact (shutdownComplete_fails (P := fun e => e ≠ Error.shutdownTimeout socket timeout)
      (fun _ => nofun) hfail rfl).elim
  · rw [Try.run_ite] at hrest
    split at hrest
    next => cases (returns_ret_iff.mp hrest).2
    next =>
      obtain ⟨t, w, rfl, hread⟩ := returns_call_iff.mp hrest
      have hread : Returns (Try.run (if t.before deadline = true then _ else _)) w
          (Except.error (Error.shutdownTimeout socket timeout)) := hread
      rw [Try.run_ite] at hread
      split at hread
      next =>
        obtain ⟨_, x, rfl, hslept⟩ := returns_call_iff.mp hread
        cases (returns_ret_iff.mp hslept).2
      next hlate =>
        obtain ⟨rfl, -⟩ := returns_ret_iff.mp hread
        have hlate := mt (Instant.before_iff t deadline).mpr hlate
        exact ⟨t, List.getLast?_concat, by omega⟩

theorem waitForShutdown_timeout {h : History S} {socket : Path} {timeout : Duration}
    (hr : Returns (c.waitForShutdown : SysTry S Unit).run (⟨.now, t⟩ :: h)
      (.error (.shutdownTimeout socket timeout))) :
    ReadFrom (t.nanos + c.shutdownTimeout.nanos) h := by
  obtain ⟨t', h', he, hrest⟩ := returns_call_iff.mp hr
  cases he
  have hrest : Returns (((addInstant t c.shutdownTimeout).bind _).bind _) h
      (Except.error (Error.shutdownTimeout socket timeout) : Except Error Unit) := hrest
  unfold addInstant at hrest
  cases hadd : t.checkedAdd? c.shutdownTimeout with
  | none =>
    rw [hadd] at hrest
    obtain ⟨b, -⟩ := returns_call_iff.mp hrest
    exact nomatch b
  | some deadline =>
    rw [hadd] at hrest
    rw [← nanos_of_checkedAdd hadd]
    have hloop : Spec Spec.record []
        (Try.repeating (fun _ => c.shutdownRound deadline) () : SysTry S Unit).run (fun _ => True)
        (fun r h => r = .error (.shutdownTimeout socket timeout) → ReadFrom deadline.nanos h) := by
      refine Spec.loop (fun _ _ => True)
        (fun r h => r = .error (.shutdownTimeout socket timeout) → ReadFrom deadline.nanos h)
        trivial ?_ fun r h _ hr => .ret trivial hr
      intro _ g _
      have hround : Spec Spec.record g (c.shutdownRound deadline : SysTry S _).run (fun _ => True)
          (fun r h =>
            r = .error (.shutdownTimeout socket timeout) → ReadFrom deadline.nanos h) := by
        refine ⟨fun _ => trivial, fun {w} r hret he => ?_⟩
        obtain ⟨t', hlast, hle⟩ := shutdownRound_timeout (he ▸ hret)
        rw [Spec.foldl_record]
        exact ⟨t', by rw [List.getLast?_append, hlast]; rfl, hle⟩
      refine Spec.bind hround fun r h _ hr => ?_
      cases r with
      | error err => exact .ret trivial fun he => hr (congrArg _ (Except.error.inj he))
      | ok r =>
        cases r with
        | inl _ => exact .ret trivial trivial
        | inr _ => exact .ret trivial nofun
    have hend := hloop.returns hrest rfl
    rwa [Spec.foldl_record, List.nil_append] at hend

theorem waitForReady_timeout {h : History S} {socket : Path} {timeout : Duration}
    (hr : Returns (c.waitForReady a : SysTry S Unit).run (⟨.now, t⟩ :: h)
      (.error (.readyTimeout socket timeout))) :
    ReadFrom (t.nanos + a.readyTimeout.nanos) h := by
  have hw := Client.waitForReady_rounds.returns hr
  rw [Spec.foldl_record, List.nil_append] at hw
  obtain ⟨t', deadline, g, d, last, hadd, he, hg, hlast⟩ := hw
  cases he
  generalize hout : Client.lastOutcome (.error (.readyTimeout socket timeout)) = out at hlast
  cases hlast with
  | ponged hping => cases hout
  | stopped hping hrec =>
    cases hout
    exact absurd rfl (Client.tryPingOnce_notTimeout hping socket timeout)
  | @gaveUp ping err t' hping hrec hlate =>
    have hlate := mt (Instant.before_iff t' deadline).mpr hlate
    rw [← nanos_of_checkedAdd hadd]
    exact ⟨t', by rw [← List.append_assoc, List.getLast?_concat], by omega⟩
  | slept hping hrec hbefore => cases hout

/-- A wait, after it has read the clock: it panics at once if the deadline is out of
range, and never if what comes then does not. -/
theorem panics_wait_iff {α : Type} {d : Duration} {f : Instant → SysTry S α}
    (hf : ∀ deadline h, ¬ Panics (f deadline).run h) :
    (∃ h, Panics (do
      let start ← Try.lift now
      let deadline ← Try.lift (addInstant start d)
      f deadline : SysTry S α).run (⟨.now, t⟩ :: h)) ↔ instantLimit ≤ t.nanos + d.nanos := by
  constructor
  · rintro ⟨h, k, n, hn⟩
    by_contra hlt
    have hadd : t.checkedAdd? d =
        some ⟨t.nanos + d.nanos, by have := t.ge_limit; omega, by omega⟩ :=
      dif_pos (by omega)
    generalize hu : (⟨.now, t⟩ : SysEvent S) :: h = u at hn
    cases hn with
    | call hn =>
      cases hu
      have hn : Steps _ (((addInstant t d).bind _).bind _) h _ := hn
      unfold addInstant at hn
      rw [hadd] at hn
      exact hf _ h ⟨k, _, hn⟩
  · intro hle
    have hadd : t.checkedAdd? d = none := dif_neg (by omega)
    refine ⟨[], ?_⟩
    have hpanic : ∃ k, ((addInstant t d).bind fun u => (.ret (.ok u) : Sys S _)).bind
        (Try.next fun deadline => (f deadline).run) = .call .panic k := by
      unfold addInstant
      rw [hadd]
      exact ⟨_, rfl⟩
    obtain ⟨k, hk⟩ := hpanic
    exact ⟨k, Reach.call (hk ▸ .refl)⟩

theorem not_panics_rounds {α σ : Type} {body : σ → SysTry S (σ ⊕ α)} {A : Op S → Prop} {x : σ}
    (hbody : ∀ x, AllCalls A (body x).run) (hA : ¬ A .panic) (h : History S) :
    ¬ Panics (Try.repeating body x).run h := by
  have hall : AllCalls A (Try.repeating body x).run := by
    refine ⟨fun x => (hbody x).bind fun r => ?_, fun _ => trivial⟩
    cases r with
    | error err => trivial
    | ok r => cases r <;> trivial
  exact not_panics hall hA h

theorem not_panics_readyRounds (h : History S) : ¬ Panics
    (Try.repeating (c.readyRound a deadline) a.initialBackoff : SysTry S Unit).run h := by
  refine not_panics_rounds (fun _ => Client.allCalls_readyRound) (fun hop => ?_) h
  rcases hop with hop | hop | ⟨d, hop⟩
  · exact hop
  · cases hop
  · cases hop

theorem not_panics_shutdownRounds (h : History S) : ¬ Panics
    (Try.repeating (fun _ => c.shutdownRound deadline) () : SysTry S Unit).run h := by
  refine not_panics_rounds (fun _ => Client.allCalls_shutdownRound) (fun hop => ?_) h
  rcases hop with hop | ⟨d, hop⟩ | hop | ⟨path, -, hop⟩
  · cases hop
  · cases hop
  · cases hop
  · exact hop

end Waits

/-- The arithmetic with these durations is total, where a wait of the client begins at
the time `t`: nothing panics, every poll is in time, and no deadline is earlier than
was asked for. -/
structure DurationsTotal (S : Type) (config : DaemonConfig) (c : Client) (a : AutoStart)
    (t : Instant) : Prop where
  loop : ∀ listener (state : S) h, ¬ Panics (runEventLoop config listener state) h
  poll : ∀ listener timeout (h : History S), ¬ Panics (pollListener listener timeout).run h
  polls : ∀ listener (state : S) h l ms k,
    Reach (runEventLoop config listener state) h (.call (.poll l ms) k) → PollsInTime config h ms
  ready : ¬ ∃ h : History S, Panics (c.waitForReady a).run (⟨.now, t⟩ :: h)
  readyDeadline : ∀ (h : History S) socket timeout,
    Returns (c.waitForReady a).run (⟨.now, t⟩ :: h) (.error (.readyTimeout socket timeout)) →
    ReadFrom (t.nanos + a.readyTimeout.nanos) h
  shutdown : ¬ ∃ h : History S, Panics c.waitForShutdown.run (⟨.now, t⟩ :: h)
  shutdownDeadline : ∀ (h : History S) socket timeout,
    Returns c.waitForShutdown.run (⟨.now, t⟩ :: h) (.error (.shutdownTimeout socket timeout)) →
    ReadFrom (t.nanos + c.shutdownTimeout.nanos) h

theorem pollListener_allCalls {listener : Nat} {timeout : Duration} :
    AllCalls ServeOp (pollListener listener timeout : SysTry S Bool).run := by
  refine Try.allCalls_bind (Try.allCalls_attempt ⟨trivial, fun _ => trivial⟩) fun r => ?_
  split
  next => trivial
  next => rw [Try.run_ite]; split <;> trivial

/-- The arithmetic is total exactly when the clock can show the two deadlines. -/
theorem durationsTotal_iff (config : DaemonConfig) (c : Client) (a : AutoStart) (t : Instant) :
    DurationsTotal S config c a t ↔ t.nanos + a.readyTimeout.nanos < instantLimit ∧
      t.nanos + c.shutdownTimeout.nanos < instantLimit := by
  have hiff := panics_wait_iff (t := t) (d := a.readyTimeout) fun deadline h =>
    (not_panics_readyRounds h :
      ¬ Panics (Try.repeating (c.readyRound a deadline) _ : SysTry S _).run h)
  have hiff' := panics_wait_iff (t := t) (d := c.shutdownTimeout) fun deadline h =>
    (not_panics_shutdownRounds h :
      ¬ Panics (Try.repeating (fun _ => c.shutdownRound deadline) () : SysTry S _).run h)
  constructor
  · intro h
    have h₁ := mt hiff.mpr h.ready
    have h₂ := mt hiff'.mpr h.shutdown
    omega
  · rintro ⟨h₁, h₂⟩
    refine ⟨fun _ _ h => ?_, fun _ _ h => ?_, fun _ _ _ _ _ _ hr => polls_inTime hr, ?_,
      fun _ _ _ hr => waitForReady_timeout hr, ?_, fun _ _ _ hr => waitForShutdown_timeout hr⟩
    · exact not_panics allCalls_runEventLoop id h
    · exact not_panics pollListener_allCalls id h
    · exact mt hiff.mp (by omega)
    · exact mt hiff'.mp (by omega)

/-- `Duration::MAX` as the shutdown timeout: the client panics after the daemon has
acknowledged. -/
theorem max_timeout_panics : ¬ ∀ (config : DaemonConfig) (c : Client) (a : AutoStart) (t : Instant),
    DurationsTotal Unit config c a t := by
  intro h
  let c : Client := { socketPath := ["tmp", "sockd.sock"], shutdownTimeout := .max }
  refine (h {} c { program := ["bin", "sockd"] } noon).shutdown ?_
  refine (panics_wait_iff fun deadline h => ?_).mpr (by decide)
  exact not_panics_shutdownRounds h

end Sockd
