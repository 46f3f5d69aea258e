import Sockd.InSequence
import Sockd.IdleTime

/-!
# The last look before an idle exit

The idle test stands at the head of the event loop and does not look at the listener:
between the last call that found the backlog empty and the drop of the listener a client
can connect, and it is dropped with the listener (`idle_exit_drops_client`). The history
of a daemon about to drop its listener on the idle timeout is read here (`LeftIdle`):
everything it accepted was served, and since the last of these connections it has found
the backlog empty. So an idle exit drops nobody iff nobody has connected since then
(`idle_exit_drops_nobody_iff`).
-/

namespace Sockd

open Rust Effects Effects.Prog Effects.System Os

variable {S : Type}

/-! ## Looking at the listener -/

/-- The listener `l` has an empty backlog: it is new, or a call has found it so. -/
def FoundEmpty (l : Nat) : SysEvent S → Prop
  | ⟨.bind _, .ok k⟩ => k = l
  | ⟨.poll k _, .ok p⟩ => k = l ∧ p.ready = 0
  | ⟨.accept k, .error err⟩ => k = l ∧ err.kind = .wouldBlock
  | _ => False

/-- Since it last accepted a connection the daemon has found the listener empty. -/
def LooksAgain (l : Nat) (h : History S) : Prop :=
  ∀ a e b, h = a ++ e :: b → Accepts e → ∃ e' ∈ b, FoundEmpty l e'

section LooksAgain

variable {l : Nat} {h : History S} {e : SysEvent S}

theorem looksAgain_of_forall (hh : ∀ e ∈ h, ¬ Accepts e) : LooksAgain l h := by
  intro a e b hsplit he
  exact absurd he (hh e (by rw [hsplit]; simp))

/-- Another event. -/
theorem LooksAgain.snoc (hh : LooksAgain l h) (he : ¬ Accepts e) : LooksAgain l (h ++ [e]) := by
  intro a e' b hsplit he'
  rcases List.eq_nil_or_concat b with rfl | ⟨b', x, rfl⟩
  · obtain ⟨-, heq⟩ := List.append_inj' hsplit rfl
    rw [← List.singleton_injective heq] at he'
    exact absurd he' he
  · have hcut : h ++ [e] = (a ++ e' :: b') ++ [x] := by simpa using hsplit
    obtain ⟨rfl, -⟩ := List.append_inj' hcut rfl
    obtain ⟨e'', hmem, hfound⟩ := hh a e' b' rfl he'
    exact ⟨e'', by simp [hmem], hfound⟩

/-- The listener is found empty. -/
theorem looksAgain_of_found (he : FoundEmpty l e) : LooksAgain l (h ++ [e]) := by
  intro a e' b hsplit he'
  rcases List.eq_nil_or_concat b with rfl | ⟨b', x, rfl⟩
  · obtain ⟨-, heq⟩ := List.append_inj' hsplit rfl
    rw [← List.singleton_injective heq] at he'
    obtain ⟨k, s, rfl⟩ := he'
    exact he.elim
  · have hcut : h ++ [e] = (a ++ e' :: b') ++ [x] := by simpa using hsplit
    obtain ⟨-, hx⟩ := List.append_inj' hcut rfl
    rw [List.singleton_injective hx] at he
    exact ⟨x, by simp, he⟩

/-- The last time the listener was found empty. -/
theorem LooksAgain.last (hh : LooksAgain l h) (hfound : ∃ e ∈ h, FoundEmpty l e) :
    ∃ a e b, h = a ++ e :: b ∧ FoundEmpty l e ∧ ∀ e' ∈ b, ¬ Accepts e' := by
  classical
  induction h using List.reverseRecOn with
  | nil =>
    obtain ⟨e, he, -⟩ := hfound
    cases he
  | append_singleton h e ih =>
    by_cases he : FoundEmpty l e
    · exact ⟨h, e, [], rfl, he, fun e' he' => nomatch he'⟩
    · have hnot : ¬ Accepts e := by
        intro hacc
        obtain ⟨e', he', -⟩ := hh h e [] rfl hacc
        cases he'
      obtain ⟨e₀, he₀, hfound₀⟩ := hfound
      have hmem : e₀ ∈ h := by
        rcases List.mem_append.mp he₀ with he₀ | he₀
        · exact he₀
        · rw [List.mem_singleton.mp he₀] at hfound₀
          exact absurd hfound₀ he
      -- a look after an accept is not the event that came last
      have hh' : LooksAgain l h := by
        intro a e' b hsplit he'
        obtain ⟨e'', he'', hfound''⟩ := hh a e' (b ++ [e]) (by rw [hsplit]; simp) he'
        rcases List.mem_append.mp he'' with he'' | he''
        · exact ⟨e'', he'', hfound''⟩
        · rw [List.mem_singleton.mp he''] at hfound''
          exact absurd hfound'' he
      obtain ⟨a, e', b, rfl, hfound', hb⟩ := ih hh' ⟨e₀, hmem, hfound₀⟩
      refine ⟨a, e', b ++ [e], by simp, hfound', fun x hx => ?_⟩
      rcases List.mem_append.mp hx with hx | hx
      · exact hb x hx
      · rw [List.mem_singleton.mp hx]
        exact hnot

end LooksAgain

/-! ## The event loop -/

section Loop

variable {config : DaemonConfig} {l : Nat} {h : History S}

/-- The accept loop ends with a look, or not with a reading of the clock. -/
def DrainLooked (l : Nat) (d : Drained S) (h : History S) : Prop :=
  match d with
  | .wouldBlock _ _ => LooksAgain l h
  | .over _ _ => ∀ t, h.getLast? ≠ some ⟨.now, t⟩

theorem getLast?_ne {op : Op S} {b : Ans op} (hop : op ≠ .now) (t : Instant) :
    (h ++ [(⟨op, b⟩ : SysEvent S)]).getLast? ≠ some ⟨.now, t⟩ := by
  rw [List.getLast?_concat]
  intro he
  injection he with he
  injection he with hnow _
  exact hop hnow

theorem acceptRound_looked (x : Instant × S) :
    Spec Spec.record h (acceptRound config l x) (fun _ => True)
      (fun r h' => Sum.elim (fun _ => True) (fun d => DrainLooked l d h') r) := by
  refine Spec.call trivial fun a => ?_
  cases a with
  | error err =>
    show Spec _ _ (if err.kind = .wouldBlock then _ else _) _ _
    split
    next hk => exact .ret trivial (looksAgain_of_found ⟨rfl, hk⟩)
    next => exact .ret trivial (getLast?_ne nofun)
  | ok stream =>
    refine Spec.call trivial fun b => ?_
    cases b with
    | error err => exact Spec.call trivial fun _ => .ret trivial (getLast?_ne nofun)
    | ok u =>
      refine Spec.call trivial fun _ => ?_
      -- the stream is closed at the end of the connection
      have hserved : ∀ h', Spec Spec.record h' (processConnection config stream x.2)
          (fun _ => True) (fun _ h => ∀ t, h.getLast? ≠ some ⟨.now, t⟩) := by
        intro h'
        refine Spec.bind Spec.any fun out h'' _ _ => ?_
        exact Spec.call trivial fun _ => .ret trivial (getLast?_ne nofun)
      show Spec _ _ ((processConnection config stream x.2).bind _) _ _
      refine Spec.bind (hserved _) fun out h' _ hlast => ?_
      obtain ⟨outcome, state⟩ := out
      cases outcome with
      | ok o =>
        cases o with
        | «continue» => exact .ret trivial trivial
        | shutdown => exact .ret trivial hlast
      | error err => exact .ret trivial hlast

theorem acceptLoop_looked (x : Instant × S) :
    Spec Spec.record h (acceptLoop config l x.1 x.2) (fun _ => True) (DrainLooked l) := by
  refine Spec.loop (fun _ _ => True) (DrainLooked l) trivial ?_ fun d h' _ hd => .ret trivial hd
  intro x h' _
  refine (acceptRound_looked x).mono (fun _ h => h) fun r h h' => ?_
  cases r <;> exact h'

/-- How a round of the event loop ends that began after `h`: with a look after every
connection, or, if with a reading of the clock, then because that says that the idle
timeout has passed. -/
def RoundLooked (config : DaemonConfig) (l : Nat) (h : History S) (x : Instant × S)
    (r : (Instant × S) ⊕ (Except Error Unit × S)) (h' : History S) : Prop :=
  Sum.elim (fun _ => LooksAgain l h')
    (fun _ => ∀ t, h'.getLast? = some ⟨.now, t⟩ →
      h' = h ++ [⟨.loadFlag, false⟩] ++ [⟨.now, t⟩] ∧
        config.idleTimeout.nanos ≤ (t.durationSince x.1).nanos) r

theorem eventRound_looked (x : Instant × S) (hh : LooksAgain l h) :
    Spec Spec.record h (eventRound config l x) (fun _ => True) (RoundLooked config l h x) := by
  have hnever : ∀ {out : Except Error Unit × S} {h' : History S},
      (∀ t, h'.getLast? ≠ some ⟨.now, t⟩) → RoundLooked config l h x (.inr out) h' :=
    fun hne t ht => absurd ht (hne t)
  refine Spec.call trivial fun (b : Bool) => ?_
  cases b with
  | true => exact .ret trivial (hnever (getLast?_ne nofun))
  | false =>
    refine Spec.call trivial fun (t : Instant) => ?_
    have h₁ : LooksAgain l (h ++ [⟨.loadFlag, false⟩]) := hh.snoc (not_accepts fun _ => nofun)
    have h₂ : LooksAgain l (h ++ [⟨.loadFlag, false⟩] ++ [⟨.now, t⟩]) :=
      h₁.snoc (not_accepts fun _ => nofun)
    show Spec _ _ (if _ then _ else _) _ _
    split
    next hzero =>
      refine .ret trivial fun t' ht' => ?_
      have ht : t = t' := by
        change (h ++ [(⟨.loadFlag, false⟩ : SysEvent S)] ++ [(⟨.now, t⟩ : SysEvent S)]).getLast? = _ at ht'
        rw [List.getLast?_concat] at ht'
        injection ht' with ht'
        injection ht'
      subst ht
      refine ⟨rfl, ?_⟩
      have hzero := (Duration.isZero_iff _).mp hzero
      rw [Duration.nanos_saturatingSub] at hzero
      omega
    next =>
      refine Spec.bind (R := fun r h' => LooksAgain l h' ∧ ∀ err, r = .error err →
        ∀ t, h'.getLast? ≠ some ⟨.now, t⟩) ?_ ?_
      · refine Spec.call trivial fun a => ?_
        have h₃ := h₂.snoc (e := ⟨.poll l (pollTimeoutMs _), a⟩) (not_accepts fun _ => nofun)
        cases a with
        | ok p => exact .ret trivial ⟨h₃, fun err herr => nomatch herr⟩
        | error err =>
          show Spec _ _ (Try.run (if err.kind = .interrupted then pure false
            else Try.fail (Error.io err))) _ _
          rw [Try.run_ite]
          split
          next => exact .ret trivial ⟨h₃, fun err herr => nomatch herr⟩
          next => exact .ret trivial ⟨h₃, fun _ _ => getLast?_ne nofun⟩
      · intro r h' _ hr
        match r, hr with
        | .error err, hr => exact .ret trivial (hnever (hr.2 err rfl))
        | .ok false, hr => exact .ret trivial hr.1
        | .ok true, _ =>
          refine Spec.bind (acceptLoop_looked x) fun d h'' _ hd => ?_
          cases d with
          | wouldBlock t s => exact .ret trivial hd
          | «over» result s => exact .ret trivial (hnever hd)

/-! ## A daemon that is about to drop its listener -/

/-- The history of a daemon that is about to drop its listener `l` because the idle
timeout has passed. -/
structure LeftIdle (config : DaemonConfig) (l : Nat) (h : History S) : Prop where
  looked : LooksAgain l h
  found : ∃ e ∈ h, FoundEmpty l e
  served : ∀ e ∈ (Ledger.of h).exchanges, e.accepted = true →
    Served config.maxPayloadLen e (.ok .continue)
  elapsed : ∃ t₀ t, (Ledger.of h).lastActivity = some t₀ ∧ (Ledger.of h).lastNow = some t ∧
    config.idleTimeout.nanos ≤ (t.durationSince t₀).nanos

/-- The calls outside the event loop: no clock is read, and nothing accepted. -/
def OuterOp : Op S → Prop
  | .now | .accept _ => False
  | _ => True

theorem PidOp.outer {path : Path} (op : Op S) (h : PidOp path op) : OuterOp op := by
  cases op <;> trivial

theorem BindOp.outer {path : Path} (op : Op S) (h : BindOp path op) : OuterOp op := by
  cases op <;> trivial

/-- Before the event loop. -/
def Outer (h : History S) : Prop := ∀ e ∈ h, OuterOp e.1

theorem Outer.snoc {e : SysEvent S} (hh : Outer h) (he : OuterOp e.1) : Outer (h ++ [e]) := by
  intro e' he'
  rcases List.mem_append.mp he' with he' | he'
  · exact hh e' he'
  · rw [List.mem_singleton.mp he']
    exact he

/-- What the ledger says before the event loop. -/
theorem Outer.ledger (hh : Outer h) :
    (Ledger.of h).armed = true ∧ ∀ e ∈ (Ledger.of h).exchanges, e.accepted = false := by
  induction h using List.reverseRecOn with
  | nil => exact ⟨rfl, fun e he => nomatch he⟩
  | append_singleton h e ih =>
    obtain ⟨harmed, hacc⟩ := ih fun e' he' => hh e' (List.mem_append_left _ he')
    have he : OuterOp e.1 := hh e (by simp)
    rw [Ledger.of_append]
    refine ⟨?_, not_accepted_step (fun k hk => ?_) hacc⟩
    · obtain ⟨op, b⟩ := e
      cases op with
      | now | accept => exact he.elim
      | connect p => cases b <;> exact harmed
      | onStart => cases b <;> exact harmed
      | _ => exact harmed
    · rw [hk] at he
      exact he

/-- The idle test at the head of a round ends the loop. -/
theorem AtHead.leftIdle {L : Ledger S} {s₀ s : S} {t₀ t : Instant}
    (hhead : AtHead config.maxPayloadLen L s₀ t₀ s (Ledger.of h)) (hlooked : LooksAgain l h)
    (hfound : ∃ e ∈ h, FoundEmpty l e) (hL : ∀ e ∈ L.exchanges, e.accepted = false)
    (hpassed : config.idleTimeout.nanos ≤ (t.durationSince t₀).nanos) :
    LeftIdle config l (h ++ [⟨.loadFlag, false⟩] ++ [⟨.now, t⟩]) := by
  have hof : Ledger.of (h ++ [⟨.loadFlag, false⟩] ++ [⟨.now, t⟩]) =
      ((Ledger.of h).step ⟨.loadFlag, false⟩).step ⟨.now, t⟩ := by
    rw [Ledger.of_append, Ledger.of_append]
  have hlast : (((Ledger.of h).step ⟨.loadFlag, false⟩).step ⟨.now, t⟩).lastActivity = some t₀ := by
    show (if (Ledger.of h).armed = true then some t else (Ledger.of h).lastActivity) = some t₀
    rw [hhead.armed]
    exact hhead.lastActivity
  refine ⟨?_, ?_, ?_, t₀, t, by rw [hof]; exact hlast, by rw [hof]; rfl, hpassed⟩
  · have h₁ : LooksAgain l (h ++ [⟨.loadFlag, false⟩]) := hlooked.snoc (not_accepts fun _ => nofun)
    exact h₁.snoc (not_accepts fun _ => nofun)
  · obtain ⟨e, he, hfound⟩ := hfound
    exact ⟨e, by simp [he], hfound⟩
  · rw [hof]
    intro e he ha
    have he : e ∈ (Ledger.of h).exchanges := he
    obtain ⟨es, hes, hall⟩ := hhead.connections
    rw [hes] at he
    rcases List.mem_append.mp he with he | he
    · exact (hall.forall e he).2
    · rw [hL e he] at ha
      cases ha

theorem runEventLoop_looked {state : S} (hh : Outer h) (hfound : ∃ e ∈ h, FoundEmpty l e) :
    Spec Spec.record h (runEventLoop config l state) (fun _ => True)
      (fun _ h' => ∀ t, h'.getLast? = some ⟨.now, t⟩ → LeftIdle config l h') := by
  obtain ⟨harmed, hacc⟩ := hh.ledger
  have hnone : ∀ e ∈ h, ¬ Accepts e := by
    intro e he ha
    obtain ⟨k, s, rfl⟩ := ha
    exact hh _ he
  refine Spec.call trivial fun (t : Instant) => ?_
  -- the invariant at the heads: every connection was served, and looked after
  refine Spec.loop (fun (x : Instant × S) h' => LooksAgain l h' ∧ (∃ e ∈ h', FoundEmpty l e) ∧
      AtHead config.maxPayloadLen (Ledger.of h) state x.1 x.2 (Ledger.of h'))
    (fun _ h' => ∀ t, h'.getLast? = some ⟨.now, t⟩ → LeftIdle config l h') ?_ ?_
    fun _ _ _ hR => .ret trivial hR
  · refine ⟨(looksAgain_of_forall hnone).snoc (not_accepts fun _ => nofun), ?_, ?_⟩
    · obtain ⟨e, he, hfound⟩ := hfound
      exact ⟨e, List.mem_append_left _ he, hfound⟩
    · rw [Spec.record, Ledger.of_append]
      refine ⟨rfl, rfl, rfl, ?_, [], rfl, rfl⟩
      show (if (Ledger.of h).armed = true then some t else _) = some t
      exact if_pos harmed
  · intro x h' hI
    obtain ⟨hlooked, hfound', hhead⟩ := hI
    have hkeep := Spec.keep (M := Spec.record) (s := h') (I := fun h => ∃ e ∈ h, FoundEmpty l e)
      (allCalls_any (eventRound config l x)) (fun _ _ _ _ hI => by
        obtain ⟨e, he, hfound⟩ := hI
        exact ⟨e, List.mem_append_left _ he, hfound⟩) hfound'
    have hround := (eventRound_looked x hlooked).and
      (hkeep.and (eventRound_spec hhead).recorded)
    refine hround.mono (fun _ _ => trivial) fun r h'' hr => ?_
    obtain ⟨hlast, hfound'', hspec⟩ := hr
    cases r with
    | inl y => exact ⟨hlast, hfound'', hspec⟩
    | inr out =>
      intro t' ht'
      obtain ⟨rfl, hpassed⟩ := hlast t' ht'
      exact hhead.leftIdle hlooked hfound' hacc hpassed

end Loop

section Run

variable {config : DaemonConfig} {l : Nat} {h : History S}

/-- Who drops a listener right after reading the clock has left the event loop on the
idle timeout. -/
def DropsIdle (config : DaemonConfig) (h : History S) : Prop :=
  ∀ h' l u t, h = h' ++ [⟨.closeListener l, u⟩] → h'.getLast? = some ⟨.now, t⟩ →
    LeftIdle config l h'

theorem Outer.dropsIdle (hh : Outer h) : DropsIdle config h := by
  intro h' l u t hsplit hlast
  refine (hh ⟨.now, t⟩ ?_).elim
  rw [hsplit]
  exact List.mem_append_left _ (List.mem_of_getLast? hlast)

/-- The calls before the event loop. -/
theorem Outer.keep {α : Type} {p : Sys S α} (hp : AllCalls OuterOp p) (hh : Outer h) :
    Spec Spec.record h p (DropsIdle config) (fun _ => Outer) := by
  refine (Spec.keep hp (I := Outer) (fun _ op b hop hI => hI.snoc (e := ⟨op, b⟩) hop) hh).mono ?_
    fun _ _ h => h
  exact fun _ hI => hI.dropsIdle

/-- A call that drops no listener. -/
def KeepOp (op : Op S) : Prop := ∀ k, op ≠ .closeListener k

theorem dropsIdle_of_keepOp {op : Op S} {b : Ans op} (hop : KeepOp op) :
    DropsIdle config (h ++ [⟨op, b⟩]) := by
  intro h' l u t hsplit _
  obtain ⟨-, he⟩ := List.append_inj' hsplit rfl
  have he : (⟨op, b⟩ : SysEvent S) = ⟨.closeListener l, u⟩ := List.singleton_injective he
  injection he with he
  exact absurd he (hop l)

theorem DropsIdle.keep {α : Type} {p : Sys S α} (hp : AllCalls KeepOp p) (hh : DropsIdle config h) :
    Spec Spec.record h p (DropsIdle config) (fun _ => DropsIdle config) :=
  Spec.keep hp (fun _ _ _ hop _ => dropsIdle_of_keepOp hop) hh

theorem PidOp.keepOp {path : Path} (op : Op S) (h : PidOp path op) : KeepOp op := by
  intro k hk
  subst hk
  exact h

/-- What is done after the drop. -/
theorem allCalls_afterDrop {path : Path} {state : S} {result : Except Error Unit} :
    AllCalls KeepOp (do
      let cleanupResult ← (Socket.cleanup path).attempt
      let stopResult ← ((onStop state).mapErr Error.shutdown).attempt
      Try.ofExcept result
      Try.ofExcept cleanupResult
      Try.ofExcept stopResult : SysTry S Unit).run := by
  refine Try.allCalls_bind (Try.allCalls_attempt (allCalls_removeIfExists.mono PidOp.keepOp)) ?_
  intro cleanupResult
  refine Try.allCalls_bind (Try.allCalls_attempt (Try.allCalls_mapErr ⟨nofun, fun _ => trivial⟩)) ?_
  intro stopResult
  exact Try.allCalls_bind trivial fun _ => Try.allCalls_bind trivial fun _ => trivial

/-- A listener that `socket::bind` returns was bound. -/
theorem bind_binds {path : Path} :
    Spec Spec.record h (Socket.bind path : SysTry S Nat).run (fun _ => True)
      (fun r h' => ∀ l, r = .ok l → ⟨.bind path, .ok l⟩ ∈ h') := by
  have hlisten : ∀ h, Spec Spec.record h (Socket.listen path : SysTry S Nat).run (fun _ => True)
      (fun r h' => ∀ l, r = .ok l → ⟨.bind path, .ok l⟩ ∈ h') := by
    intro h
    refine Spec.call trivial fun a => ?_
    cases a with
    | error err => exact .ret trivial fun l hl => by cases hl
    | ok listener =>
      refine Spec.call trivial fun b => ?_
      cases b with
      | ok u =>
        refine .ret trivial fun l hl => ?_
        obtain rfl : listener = l := Except.ok.inj hl
        simp [Spec.record]
      | error err => exact Spec.call trivial fun _ => .ret trivial fun l hl => by cases hl
  have hany : ∀ {α : Type} (h : History S) (p : Sys S (Except Error α)),
      Spec Spec.record h p (fun _ => True)
        (Spec.orElse (fun (r : Except Error Nat) h' => ∀ l, r = .ok l → ⟨.bind path, .ok l⟩ ∈ h')
          fun _ _ => True) := by
    intro α h p
    refine Spec.any.mono (fun _ h => h) fun r _ _ => ?_
    cases r with
    | ok a => trivial
    | error err => exact fun l hl => by cases hl
  have htail : ∀ h, Spec Spec.record h
      (do Socket.reclaim path; Socket.listen path : SysTry S Nat).run (fun _ => True)
      (fun r h' => ∀ l, r = .ok l → ⟨.bind path, .ok l⟩ ∈ h') :=
    fun h => Spec.next (hany h _) fun _ h' _ _ => hlisten h'
  unfold Socket.bind
  split
  next => exact Spec.next (hany h _) fun _ h' _ _ => htail h'
  next => exact htail h

theorem runClaimed_drops (hh : Outer h) :
    Spec Spec.record h (runClaimed config : SysTry S Unit).run (DropsIdle config)
      (fun _ => DropsIdle config) := by
  have hstart : AllCalls OuterOp ((onStart.mapErr .startup) : SysTry S S).run :=
    Try.allCalls_mapErr ⟨trivial, fun _ => trivial⟩
  refine Spec.next (R := fun _ => Outer) ((hh.keep hstart).mono (fun _ h => h) ?_) ?_
  · intro r h' hI
    cases r with
    | ok s => exact hI
    | error err => exact hI.dropsIdle
  · intro state h₁ _ hh
    have houter : Spec Spec.record h₁ (Socket.bind config.socketPath : SysTry S Nat).run
        (DropsIdle config) (fun _ => Outer) := hh.keep (Socket.allCalls_bind.mono BindOp.outer)
    have hbind := houter.and bind_binds
    refine Spec.attempt (hbind.mono (fun _ h => h.1) fun _ _ h => h) ?_
    intro r h₂ _ hr
    obtain ⟨hh, hbound⟩ := hr
    cases r with
    | error err =>
      refine Spec.attempt (hh.keep (Try.allCalls_mapErr ⟨trivial, fun _ => trivial⟩)) ?_
      intro stopResult h₃ hΦ _
      cases stopResult <;> exact .ret hΦ hΦ
    | ok listener =>
      have hloop : Spec Spec.record h₂ (runEventLoop config listener state) (DropsIdle config)
          (fun _ h' => ∀ t, h'.getLast? = some ⟨.now, t⟩ → LeftIdle config listener h') := by
        have hkeep : AllCalls KeepOp (runEventLoop config listener state) := by
          refine allCalls_runEventLoop.mono fun op hop k hk => ?_
          subst hk
          exact hop
        have hdrops : DropsIdle config h₂ := hh.dropsIdle
        refine ((hdrops.keep hkeep).and (runEventLoop_looked hh ⟨_, hbound listener rfl, rfl⟩)).mono
          ?_ ?_
        · exact fun _ h => h.1
        · exact fun _ _ h => h.2
      refine Spec.lift hloop ?_
      intro out h₃ hΦ hleft
      refine Spec.call hΦ fun u => ?_
      refine DropsIdle.keep allCalls_afterDrop ?_
      intro h' k u' t hsplit hlast
      obtain ⟨rfl, he⟩ := List.append_inj' hsplit rfl
      have he : (⟨.closeListener listener, u⟩ : SysEvent S) = ⟨.closeListener k, u'⟩ :=
        List.singleton_injective he
      injection he with he
      obtain rfl : listener = k := by injection he
      exact hleft t hlast

/-- **A daemon that drops its listener right after reading the clock** has left its event
loop on the idle timeout. -/
theorem runDaemon_drops :
    Spec Spec.record [] (runDaemon config : SysTry S Unit).run (DropsIdle config)
      (fun _ => DropsIdle config) := by
  have hflag : AllCalls OuterOp (installShutdownFlag : SysTry S Unit).run := by
    refine allCalls_installShutdownFlag.mono fun op hop => ?_
    obtain ⟨n, rfl⟩ := hop
    trivial
  have houter : Outer ([] : History S) := fun e he => nomatch he
  -- a step that fails ends the run
  have horElse : ∀ {α : Type} (r : Except Error α) (h : History S), Outer h →
      Spec.orElse (fun _ : Except Error Unit => DropsIdle config) (fun _ => Outer) r h := by
    intro α r h hh
    cases r with
    | ok a => exact hh
    | error err => exact hh.dropsIdle
  refine Spec.next ((houter.keep hflag).mono (fun _ h => h) horElse) ?_
  intro _ h₁ _ hh
  cases config.pidFile with
  | none => exact runClaimed_drops hh
  | some path =>
    refine Spec.next ((hh.keep (PidGuard.allCalls_claim.mono PidOp.outer)).mono (fun _ h => h)
      horElse) ?_
    intro guard h₂ _ hh
    refine Spec.bind (runClaimed_drops hh) fun r h₃ _ hΦ => ?_
    refine Spec.bind (hΦ.keep (PidGuard.allCalls_drop.mono PidOp.keepOp)) fun _ h₄ hΦ _ => ?_
    exact .ret hΦ hΦ

end Run

/-! ## What connects after the look -/

section Runs

variable {role : Nat → Role} {cond : HostConfig S → HostLabel S → Prop} {w₀ : Os}
  {ls₁ ls₂ : List (HostLabel S)} {c c₁ c₂ : HostConfig S} {d i j l n : Nat} {e : SysEvent S}

/-- A listener that was found empty is open. -/
theorem found_empty_step (hs : (host role).step c (.act d e) = some c₁) (he : FoundEmpty l e) :
    (c₁.world.listeners l).isOpen = true ∧ (c₁.world.listeners l).backlog = [] := by
  obtain ⟨-, hok, hw⟩ := act_eq_some.mp (step_act.mp hs).1
  rw [hw]
  obtain ⟨op, b⟩ := e
  cases op with
  | bind p =>
    cases b with
    | error err => exact he.elim
    | ok k =>
      obtain rfl : k = l := he
      have hself : (c.world.after d (⟨.bind p, .ok k⟩ : SysEvent S)).listeners k =
          { owner := some d, isOpen := true } := Function.update_self _ _ _
      rw [hself]
      exact ⟨rfl, rfl⟩
  | poll k ms =>
    cases b with
    | error err => exact he.elim
    | ok p =>
      obtain ⟨rfl, hready⟩ := he
      have hans : (decide (c.world.Listens d k) &&
          decide (p = if (c.world.listeners k).backlog = [] then ⟨0, false⟩ else ⟨1, true⟩)) = true :=
        hok.resolve_left fun h => nomatch h
      rw [Bool.and_eq_true, decide_eq_true_eq, decide_eq_true_eq] at hans
      refine ⟨hans.1.2, ?_⟩
      by_contra hne
      have hne : (c.world.listeners k).backlog ≠ [] := hne
      rw [hans.2, if_neg hne] at hready
      cases hready
  | accept k =>
    cases b with
    | ok s => exact he.elim
    | error err =>
      obtain ⟨rfl, hkind⟩ := he
      have hspurious : ¬ isSpurious (⟨.accept k, .error err⟩ : SysEvent S) = true := by
        show ¬ isSpuriousKind err.kind = true
        rw [hkind]
        decide
      have hans : (decide (c.world.Listens d k) && decide ((c.world.listeners k).backlog = []) &&
          decide (err.kind = .wouldBlock)) = true := hok.resolve_left hspurious
      simp only [Bool.and_eq_true, decide_eq_true_eq] at hans
      exact ⟨hans.1.1.2, hans.1.2⟩
  | _ => exact he.elim

/-- What is in a history was a step of the run. -/
theorem mem_labels (hr : Run (host role) cond c₁ ls₂ c) (he : e ∈ c.hist i) :
    e ∈ c₁.hist i ∨ .act i e ∈ ls₂ := by
  rw [hr.hist i] at he
  rcases List.mem_append.mp he with he | he
  · exact .inl he
  · obtain ⟨x, hx, hxe⟩ := List.mem_filterMap.mp he
    rw [Label.of?_eq_some.mp hxe] at hx
    exact .inr hx

theorem mem_hist (hr : Run (host role) cond c₁ ls₂ c) (he : .act i e ∈ ls₂) : e ∈ c.hist i := by
  rw [hr.hist i]
  exact List.mem_append_right _ (List.mem_filterMap.mpr ⟨_, he, Label.of?_eq_some.mpr rfl⟩)

/-- Who owns a client's end has connected. -/
theorem connected (h₀ : w₀.Initial) (hr : Run (host role) cond (.start w₀) ls₁ c)
    (ho : (c.world.ends ⟨n, .client⟩).owner = some i) :
    ∃ p, ⟨.connect p, .ok ⟨n, .client⟩⟩ ∈ c.hist i := by
  rcases mem_streams.mp (((agrees_run h₀ hr).owned i _).mp ho) with h | ⟨l, h⟩
  · exact h
  · rcases mem_labels hr h with h | h
    · cases h
    · cases accepts_run hr h

/-- Who owns a server's end has accepted it. -/
theorem accepted_by (h₀ : w₀.Initial) (hr : Run (host role) cond (.start w₀) ls₁ c)
    (ho : (c.world.ends ⟨n, .server⟩).owner = some i) :
    ∃ l, ⟨.accept l, .ok ⟨n, .server⟩⟩ ∈ c.hist i := by
  rcases mem_streams.mp (((agrees_run h₀ hr).owned i _).mp ho) with ⟨p, h⟩ | h
  · rcases mem_labels hr h with h | h
    · cases h
    · cases (connects_run hr h).1
  · exact h

/-- What waits at a listener that was found empty has connected since. -/
theorem late_of_mem_backlog (h₀ : w₀.Initial) (hr₁ : Run (host role) cond (.start w₀) ls₁ c₁)
    (hr : Run (host role) cond c₁ ls₂ c) (hr₂ : Run (host role) cond (.start w₀) (ls₁ ++ ls₂) c)
    (hopen : (c₁.world.listeners l).isOpen = true) (hempty : (c₁.world.listeners l).backlog = [])
    (hn : n ∈ (c.world.listeners l).backlog) :
    ∃ i p, .act i ⟨.connect p, .ok ⟨n, .client⟩⟩ ∈ ls₂ := by
  have hq := queued_run h₀ hr₂
  have hopen' : (c.world.listeners l).isOpen = true := by
    by_contra hclosed
    rw [hq.closed l (Bool.eq_false_iff.mpr hclosed)] at hn
    cases hn
  obtain ⟨ht, hcl, ho⟩ := (hq.mem_backlog hopen').mp hn
  obtain ⟨i, hi⟩ := Option.ne_none_iff_exists'.mp hcl
  obtain ⟨p, hp⟩ := connected h₀ hr₂ hi
  rcases mem_labels hr hp with hold | hnew
  · -- it would have been found waiting
    have hq₁ := queued_run h₀ hr₁
    have hi₁ : (c₁.world.ends ⟨n, .client⟩).owner = some i :=
      ((agrees_run h₀ hr₁).owned i _).mpr (mem_streams.mpr (.inl ⟨p, hold⟩))
    have hlt : n < c₁.world.nextConn := by
      by_contra hge
      rw [hq₁.given ⟨n, .client⟩ (Nat.le_of_not_lt hge)] at hi₁
      cases hi₁
    have hmem : n ∈ (c₁.world.listeners l).backlog := by
      refine (hq₁.mem_backlog hopen).mpr ⟨?_, by rw [hi₁]; exact Option.some_ne_none i, ?_⟩
      · rw [← (grows_run hr).target n hlt]
        exact ht
      · by_contra hne
        obtain ⟨j, hj⟩ := Option.ne_none_iff_exists'.mp hne
        obtain ⟨k, hk⟩ := accepted_by h₀ hr₁ hj
        have hk' : ⟨.accept k, .ok ⟨n, .server⟩⟩ ∈ c.hist j := by
          rw [hr.hist j]
          exact List.mem_append_left _ hk
        rw [((agrees_run h₀ hr₂).owned j _).mpr (mem_streams.mpr (.inr ⟨k, hk'⟩))] at ho
        cases ho
    rw [hempty] at hmem
    cases hmem
  · exact ⟨i, p, hnew⟩

/-- A connection that was made since the last look waits, if the listener is open and
its owner has accepted nothing since. -/
theorem mem_backlog_of_late (h₀ : w₀.Initial) (hr₁ : Run (host role) cond (.start w₀) ls₁ c₁)
    (hr : Run (host role) cond c₁ ls₂ c) (hr₂ : Run (host role) cond (.start w₀) (ls₁ ++ ls₂) c)
    (hlistens : c.world.Listens d l)
    (hnone : ∀ e, .act d e ∈ ls₂ → ¬ Accepts e) {p : Path} {s : Stream}
    (hs : .act i ⟨.connect p, .ok s⟩ ∈ ls₂) (ht : c.world.target s.conn = l) :
    s.conn ∈ (c.world.listeners l).backlog := by
  have hq := queued_run h₀ hr₂
  obtain ⟨hside, hle⟩ := connects_run hr hs
  obtain ⟨n, side⟩ := s
  obtain rfl : side = .client := hside
  refine (hq.mem_backlog hlistens.2).mpr ⟨ht, ?_, ?_⟩
  · have howned := ((agrees_run h₀ hr₂).owned i _).mpr (mem_streams.mpr (.inl ⟨p, mem_hist hr hs⟩))
    rw [howned]
    exact Option.some_ne_none i
  · by_contra hne
    obtain ⟨j, hj⟩ := Option.ne_none_iff_exists'.mp hne
    -- only the owner of the listener can have accepted it, and before it was made
    have hjd : j = d := by
      have hown := hq.acceptor n j hj
      rw [ht, hlistens.1] at hown
      exact (Option.some.inj hown).symm
    subst hjd
    obtain ⟨k, hk⟩ := accepted_by h₀ hr₂ hj
    rcases mem_labels hr hk with hold | hnew
    · have howner := ((agrees_run h₀ hr₁).owned j _).mpr (mem_streams.mpr (.inr ⟨k, hold⟩))
      rw [(queued_run h₀ hr₁).given ⟨n, .server⟩ hle] at howner
      cases howner
    · exact hnone _ hnew ⟨_, _, rfl⟩

end Runs

/-! ## The idle exit -/

/-- The daemon `d` leaves its event loop on the idle timeout and drops its listener `l`:
its last call before the drop read the clock. -/
structure LeavesIdle (role : Nat → Role) (d l : Nat) (c c' : HostConfig S) : Prop where
  read : ∃ t, (c.hist d).getLast? = some ⟨.now, t⟩
  drop : (host role).step c (.act d ⟨.closeListener l, ()⟩) = some c'
  behaves : (role d).Traces (c'.hist d)

/-- Every connection made to the listener on which a frame was sent has its reply: the
daemon has read the frame, and sent what it calls for. -/
def RepliesAll (c : HostConfig S) (d l : Nat) : Prop :=
  ∀ n f, (c.world.ends ⟨n, .client⟩).owner ≠ none → c.world.target n = l → f.Fits →
    f.wire <+: (c.world.ends ⟨n, .client⟩).sent →
    ∃ e ∈ (ledgers c d).exchanges, e.stream = ⟨n, .server⟩ ∧ e.received = f.wire ∧
      ∃ reply, Answered f e.calls reply ∧ reply.Fits ∧
        (c.world.ends ⟨n, .server⟩).sent = reply.wire

/-- The drop of the listener drops no client. -/
structure DropsNobody (c : HostConfig S) (d l : Nat) : Prop where
  accepted : (c.world.listeners l).backlog = []
  replies : RepliesAll c d l

/-- Nobody has connected to the listener since a call of `d` found it empty. -/
def NobodySince (ls : List (HostLabel S)) (c : HostConfig S) (d l : Nat) : Prop :=
  ∃ ls₁ look ls₂, ls = ls₁ ++ .act d look :: ls₂ ∧ FoundEmpty l look ∧
    ∀ i p s, .act i ⟨.connect p, .ok s⟩ ∈ ls₂ → c.world.target s.conn ≠ l

section Exit

variable {role : Nat → Role} {w₀ : Os} {ls : List (HostLabel S)} {c c' : HostConfig S}
  {config : DaemonConfig} {d l : Nat}

/-- It is the idle branch: what the daemon has done so far. -/
theorem LeavesIdle.left (h : LeavesIdle role d l c c') (hrole : role d = .daemon config) :
    LeftIdle config l (c.hist d) := by
  obtain ⟨t, ht⟩ := h.read
  have hb := h.behaves
  rw [hrole, hist_act_self h.drop] at hb
  obtain ⟨q, hq⟩ := hb
  have hdrops := runDaemon_drops.always hq
  rw [Spec.foldl_record, List.nil_append] at hdrops
  exact hdrops _ l () t rfl ht

theorem LeavesIdle.listens (h : LeavesIdle role d l c c') : c.world.Listens d l := by
  obtain ⟨-, hok, -⟩ := act_eq_some.mp (step_act.mp h.drop).1
  have hans : decide (c.world.Listens d l) = true := hok.resolve_left fun he => nomatch he
  exact of_decide_eq_true hans

/-- Where nothing waits, everybody has been answered. -/
theorem LeavesIdle.replies (h : LeavesIdle role d l c c') (hrole : role d = .daemon config)
    (h₀ : w₀.Initial) (hr : Run (host role) anyStep (.start w₀) ls c)
    (hempty : (c.world.listeners l).backlog = []) : RepliesAll c d l := by
  intro n f hcl ht hfits hsent
  have hq := queued_run h₀ hr
  have hagrees := agrees_run h₀ hr
  -- it has been accepted, by this daemon
  have howner : (c.world.ends ⟨n, .server⟩).owner = some d := by
    have hne : (c.world.ends ⟨n, .server⟩).owner ≠ none := by
      intro hnone
      have hmem := (hq.mem_backlog h.listens.2).mpr ⟨ht, hcl, hnone⟩
      rw [hempty] at hmem
      cases hmem
    obtain ⟨j, hj⟩ := Option.ne_none_iff_exists'.mp hne
    have hown := hq.acceptor n j hj
    rw [ht, h.listens.1] at hown
    rw [hj, hown]
  obtain ⟨e, he, hs⟩ := List.mem_map.mp ((hagrees.owned d _).mp howner)
  have hm := hagrees.agrees d e he
  have hacc : e.accepted = true := hm.side.mpr (by rw [hs])
  obtain ⟨g, reply, hx, ha, hreply, hwire⟩ := ((h.left hrole).served e he hacc).ok
  -- the frame it has served is the one that was sent
  have hread : e.received <+: (c.world.ends ⟨n, .client⟩).sent := by
    have horder := hagrees.order e.stream
    rw [hm.got, hs] at horder
    exact horder
  have hgf : g = f := by
    rw [hx.eq_wire] at hread
    rcases List.prefix_or_prefix_of_prefix hread hsent with hle | hle
    · obtain ⟨rest, hrest⟩ := hle
      exact (wire_inj hx.fits hfits (r := rest) (s := []) (by rw [hrest, List.append_nil])).1
    · obtain ⟨rest, hrest⟩ := hle
      exact (wire_inj hfits hx.fits (r := rest) (s := []) (by rw [hrest, List.append_nil])).1.symm
  subst hgf
  refine ⟨e, he, hs, hx.eq_wire, reply, ha, hreply, ?_⟩
  rw [← hs, hm.sent, hwire]

/-- **An idle exit drops nobody** iff nobody has connected since the daemon last found
its listener empty. -/
theorem idle_exit_drops_nobody_iff (role : Nat → Role) (d l : Nat) (config : DaemonConfig)
    (w₀ : Os) (ls : List (HostLabel S)) (c c' : HostConfig S) (hrole : role d = .daemon config)
    (h₀ : w₀.Initial) (hr : Run (host role) anyStep (.start w₀) ls c)
    (hexit : LeavesIdle role d l c c') : DropsNobody c d l ↔ NobodySince ls c d l := by
  constructor
  · intro hdrops
    -- the last look, after which nothing was accepted
    have hleft := hexit.left hrole
    obtain ⟨a, look, b, hh, hfound, hb⟩ := hleft.looked.last hleft.found
    obtain ⟨ls₁, ls₂, c₀, c₁, rfl, -, hh₀, hs, hr₁⟩ := hr.occurred hh
    refine ⟨ls₁, look, ls₂, rfl, hfound, fun i p s hmem ht => ?_⟩
    have hr' := hr
    rw [List.append_cons] at hr'
    obtain ⟨c₂, h₂, hr₂⟩ := hr'.split
    have hafter : ls₂.filterMap (Label.of? d) = b := by
      have hhist := hr₂.hist d
      rw [h₂.hist d, ← hr₁.hist d, hist_act_self hs, hh₀, hh, List.append_assoc] at hhist
      exact (List.cons.inj (List.append_cancel_left hhist)).2.symm
    have hnone : ∀ e, .act d e ∈ ls₂ → ¬ Accepts e := by
      intro e he
      refine hb e ?_
      rw [← hafter]
      exact List.mem_filterMap.mpr ⟨_, he, by simp [Label.of?]⟩
    have hlate := mem_backlog_of_late h₀ h₂ hr₂ hr' hexit.listens hnone hmem ht
    rw [hdrops.accepted] at hlate
    cases hlate
  · intro hsince
    obtain ⟨ls₁, look, ls₂, rfl, hfound, hnone⟩ := hsince
    have hr' := hr
    rw [List.append_cons] at hr'
    obtain ⟨c₁, h₁, hr₁⟩ := hr'.split
    obtain ⟨c₀, h₀', hs, -⟩ := h₁.snoc_inv
    obtain ⟨hopen, hempty⟩ := found_empty_step hs hfound
    have haccepted : (c.world.listeners l).backlog = [] := by
      refine List.eq_nil_iff_forall_not_mem.mpr fun n hn => ?_
      obtain ⟨i, p, hlate⟩ := late_of_mem_backlog h₀ h₁ hr₁ hr' hopen hempty hn
      exact hnone i p _ hlate ((queued_run h₀ hr).backlog l n hn).1
    exact ⟨haccepted, hexit.replies hrole h₀ hr haccepted⟩

end Exit

/-! ## Two exits -/

/-- A look at the listener, at which nobody waits. -/
def pollsNobody : SysEvent Unit := ⟨.poll 0 250, .ok ⟨0, false⟩⟩

/-- The idle test ends the loop. -/
def findsIdle : History Unit := [⟨.loadFlag, false⟩, ⟨.now, later⟩]

/-- The listener is dropped. -/
def dropsListener : SysEvent Unit := ⟨.closeListener 0, ()⟩

/-- The daemon and its one client. -/
def impatientRole : Nat → Role := oneClient impatient { socketPath := sockPath } []

/-- A client connects, and sends its request, after the last look. -/
def lateSchedule : List (HostLabel Unit) :=
  [.outside (.start 0 100), .outside (.start 1 101)] ++
    (installsFlag ++ serves ++ [pollsNobody]).map (.act 0) ++
    asks.map (.act 1) ++ findsIdle.map (.act 0)

/-- A schedule after which the daemon leaves on the idle timeout. -/
theorem leavesIdle_of_play {ls : List (HostLabel Unit)} {c : HostConfig Unit}
    (hc : (host impatientRole).play (fun _ _ => true) (.start emptyHost) ls = some c)
    (hdrop : ((host impatientRole).step c (.act 0 dropsListener)).isSome = true)
    (hlast : (ls.filterMap (Label.of? 0)).getLast? = some ⟨.now, later⟩)
    (ht₀ : (impatientRole 0).Traces (ls.filterMap (Label.of? 0) ++ [dropsListener]))
    (ht₁ : (impatientRole 1).Traces (ls.filterMap (Label.of? 1)))
    (hnil : ∀ i, ls.filterMap (Label.of? (i + 2)) = []) :
    Run (host impatientRole) anyStep (.start emptyHost) ls c ∧
      ∃ c', LeavesIdle impatientRole 0 0 c c' := by
  obtain ⟨c', hc'⟩ := Option.isSome_iff_exists.mp hdrop
  refine ⟨(run_of_play hc fun i => ?_).any, c', ⟨later, ?_⟩, hc', ?_⟩
  · match i with
    | 0 => exact Role.traces_cut ht₀
    | 1 => exact ht₁
    | i + 2 =>
      rw [hnil i]
      exact Role.traces_nil _
  · rw [hist_of_play hc 0]
    exact hlast
  · rw [hist_act_self hc', hist_of_play hc 0]
    exact ht₀

/-- A client that connects after the last look is not accepted, and gets no reply. -/
theorem idle_exit_drops_client :
    ¬ ∀ (role : Nat → Role) (d l : Nat) (config : DaemonConfig) (w₀ : Os)
      (ls : List (HostLabel Unit)) (c c' : HostConfig Unit), role d = .daemon config → w₀.Initial →
        Run (host role) anyStep (.start w₀) ls c → LeavesIdle role d l c c' →
          (c.world.listeners l).backlog = [] ∨ RepliesAll c d l := by
  intro hclaim
  have hplay : ((host impatientRole).play (fun _ _ => true) (.start emptyHost) lateSchedule).map
      (fun c => ((host impatientRole).step c (.act 0 dropsListener)).isSome &&
        decide ((c.world.listeners 0).backlog ≠ [] ∧ c.world.target 0 = 0 ∧
          (c.world.ends ⟨0, .client⟩).owner ≠ none ∧
          (c.world.ends ⟨0, .client⟩).sent = (requestFrame []).wire ∧
          (c.world.ends ⟨0, .server⟩).sent = [])) = some true := by decide +kernel
  obtain ⟨c, hc, hfacts⟩ := Option.map_eq_some_iff.mp hplay
  rw [Bool.and_eq_true, decide_eq_true_eq] at hfacts
  obtain ⟨hdrop, hwaits, htarget, howner, hsent, hsilent⟩ := hfacts
  obtain ⟨hr, c', hexit⟩ := leavesIdle_of_play hc hdrop rfl (traces_of_follow 60 (by rfl))
    (traces_of_follow 60 (by rfl)) fun _ => rfl
  rcases hclaim impatientRole 0 0 impatient emptyHost lateSchedule c c' rfl emptyHost_initial hr
    hexit with hempty | hreplies
  · exact hwaits hempty
  · have hfits : (requestFrame []).Fits := Nat.zero_le _
    obtain ⟨e, -, -, -, reply, -, -, hreply⟩ := hreplies 0 (requestFrame []) howner htarget hfits
      (hsent ▸ List.prefix_rfl)
    have hlen := congrArg List.length (hsilent.symm.trans hreply)
    rw [length_wire, List.length_nil] at hlen
    exact absurd hlen (by simp [headerLen]; omega)

/-- The drain is over. -/
def drainsAll : SysEvent Unit := ⟨.accept 0, .error ⟨.wouldBlock, ""⟩⟩

/-- The client is served before the last look. -/
def earlySchedule : List (HostLabel Unit) :=
  answerSchedule ++ ([drainsAll] ++ findsIdle).map (.act 0)

theorem idle_exit_drops_nobody_iff_early : ∃ c c' : HostConfig Unit,
    Run (host impatientRole) anyStep (.start emptyHost) earlySchedule c ∧
      LeavesIdle impatientRole 0 0 c c' ∧ DropsNobody c 0 0 := by
  have hplay : ((host impatientRole).play (fun _ _ => true) (.start emptyHost) earlySchedule).map
      (fun c => ((host impatientRole).step c (.act 0 dropsListener)).isSome) = some true := by
    decide +kernel
  obtain ⟨c, hc, hdrop⟩ := Option.map_eq_some_iff.mp hplay
  obtain ⟨hr, c', hexit⟩ := leavesIdle_of_play hc hdrop rfl (traces_of_follow 60 (by rfl))
    (traces_of_follow 60 (by rfl)) fun _ => rfl
  refine ⟨c, c', hr, hexit, (idle_exit_drops_nobody_iff impatientRole 0 0 impatient emptyHost
    earlySchedule c c' rfl emptyHost_initial hr hexit).mpr ?_⟩
  -- the last look, and the idle test after it
  refine ⟨answerSchedule, drainsAll, findsIdle.map (.act 0), rfl, ⟨rfl, rfl⟩, ?_⟩
  intro i p s hmem
  obtain ⟨e, he, heq⟩ := List.mem_map.mp hmem
  injection heq with _ heq
  rw [heq] at he
  rcases List.mem_cons.mp he with he | he
  · cases he
  · cases List.mem_singleton.mp he

end Sockd
