import Sockd.Bracket
import Sockd.Survival

/-!
# After the shutdown flag is set

The flag is tested at the head of the outer loop only, so a drain that is under way
goes on: every connection that `accept` returns is served, also those that arrive after
the signal (`serves_after_signal`). What the flag does end is the outer loop: once
`accept` has reported an empty backlog, or `poll` nothing to accept, the next call is the
test, and it is the last one (`signal_ends_after_drain`).
-/

namespace Sockd

open Rust Effects Effects.Prog Effects.Spec

variable {S : Type}

/-- After this event the event loop is at its head, or over. -/
def AtTest : SysEvent S → Prop
  | ⟨.loadFlag, b⟩ => b = true
  | ⟨.accept _, .error _⟩ => True
  | ⟨.poll _ _, .ok p⟩ => (decide (0 < p.ready) && p.pollIn) = false
  | ⟨.poll _ _, .error _⟩ => True
  | _ => False

/-- What follows at the head: the test of the flag, unless it was just found set. -/
def TestedNext (e₀ e : SysEvent S) : Prop :=
  AtTest e₀ → e.1 = .loadFlag ∧ e₀.1 ≠ .loadFlag

/-- Where the monitor stands when the next event may be anything. -/
def Anywhere (m : Option (SysEvent S) × Prop) : Prop := m.2 ∧ ∀ e₀ ∈ m.1, ¬ AtTest e₀

/-- Where it stands at the head of the loop. -/
def Heading (m : Option (SysEvent S) × Prop) : Prop :=
  m.2 ∧ ∀ e₀ ∈ m.1, e₀.1 ≠ .loadFlag

section Loop

variable {config : DaemonConfig} {listener : Nat} {m : Option (SysEvent S) × Prop} {state : S}

/-- An event after which anything may follow. -/
theorem Anywhere.step {e : SysEvent S} (h : Anywhere m) (he : ¬ AtTest e) :
    Anywhere (linked TestedNext m e) := by
  refine ⟨⟨h.1, fun e₀ he₀ hstop => absurd hstop (h.2 e₀ he₀)⟩, fun e₀ he₀ => ?_⟩
  rwa [← Option.some.inj he₀]

/-- An event after which the flag is tested. -/
theorem Anywhere.head {e : SysEvent S} (h : Anywhere m) (he : e.1 ≠ .loadFlag) :
    Heading (linked TestedNext m e) := by
  refine ⟨⟨h.1, fun e₀ he₀ hstop => absurd hstop (h.2 e₀ he₀)⟩, fun e₀ he₀ => ?_⟩
  rwa [← Option.some.inj he₀]

/-- The test of the flag. -/
theorem Heading.test (h : Heading m) (b : Bool) : (linked TestedNext m ⟨.loadFlag, b⟩).2 :=
  ⟨h.1, fun e₀ he₀ _ => ⟨rfl, h.2 e₀ he₀⟩⟩

theorem Anywhere.keep {α : Type} {p : Sys S α} (hp : AllCalls ConnOp p) (h : Anywhere m) :
    Spec (linked TestedNext) m p Anywhere (fun _ => Anywhere) := by
  refine Spec.keep hp (fun m op b hop hm => ?_) h
  cases op with
  | read | write | closeStream | onRequest => exact hm.step nofun
  | _ => exact hop.elim

/-- One connection. -/
theorem acceptRound_tested (x : Instant × S) (h : Anywhere m) :
    Spec (linked TestedNext) m (acceptRound config listener x) (·.2)
      (fun r m => Sum.elim (fun _ => Anywhere m)
        (fun d => match d with
          | .wouldBlock _ _ => Heading m
          | .over _ _ => m.2) r) := by
  refine Spec.call h.1 fun a => ?_
  cases a with
  | error err =>
    have hhead : Heading (linked TestedNext m ⟨.accept listener, .error err⟩) := h.head nofun
    show Spec _ _ (if err.kind = .wouldBlock then _ else _) _ _
    split
    next => exact .ret hhead.1 hhead
    next => exact .ret hhead.1 hhead.1
  | ok stream =>
    have h₁ : Anywhere (linked TestedNext m ⟨.accept listener, .ok stream⟩) := h.step nofun
    refine Spec.call h₁.1 fun b => ?_
    have h₂ := h₁.step (e := ⟨.streamNonblocking stream false, b⟩) nofun
    cases b with
    | error err =>
      refine Spec.call h₂.1 fun u => ?_
      have h₃ := h₂.step (e := ⟨.closeStream stream, u⟩) nofun
      exact .ret h₃.1 h₃.1
    | ok u =>
      refine Spec.call h₂.1 fun t => ?_
      have h₃ := h₂.step (e := ⟨.now, t⟩) nofun
      show Spec _ _ ((processConnection config stream x.2).bind _) _ _
      refine Spec.bind (Spec.mono (Anywhere.keep allCalls_processConnection h₃)
        (fun m hm => hm.1) fun _ _ h => h) ?_
      intro out m' _ hm
      obtain ⟨outcome, state⟩ := out
      cases outcome with
      | ok o =>
        cases o with
        | «continue» => exact .ret hm.1 hm
        | shutdown => exact .ret hm.1 hm.1
      | error err => exact .ret hm.1 hm.1

/-- The poll: not ready, and the flag is next. -/
theorem pollListener_tested {timeout : Duration} (h : Anywhere m) :
    Spec (linked TestedNext) m (pollListener listener timeout : SysTry S Bool).run (·.2)
      (fun r m => match r with
        | .ok true => Anywhere m
        | .ok false => Heading m
        | .error _ => m.2) := by
  refine Spec.call h.1 fun a => ?_
  have hhead : Heading (linked TestedNext m ⟨.poll listener (pollTimeoutMs timeout), a⟩) :=
    h.head nofun
  cases a with
  | ok p =>
    show Spec _ _ (.ret (Except.ok (decide (0 < p.ready) && p.pollIn))) _ _
    cases hready : decide (0 < p.ready) && p.pollIn with
    | false => exact .ret hhead.1 hhead
    | true =>
      have hgo : ¬ AtTest (⟨.poll listener (pollTimeoutMs timeout), .ok p⟩ : SysEvent S) := by
        intro hstop
        have hstop : (decide (0 < p.ready) && p.pollIn) = false := hstop
        rw [hready] at hstop
        cases hstop
      exact .ret hhead.1 (h.step hgo)
  | error err =>
    show Spec _ _ (Try.run (if err.kind = .interrupted then pure false
      else Try.fail (Error.io err))) _ _
    rw [Try.run_ite]
    split
    next => exact .ret hhead.1 hhead
    next => exact .ret hhead.1 hhead.1

/-- One round of the event loop. -/
theorem eventRound_tested (x : Instant × S) (h : Heading m) :
    Spec (linked TestedNext) m (eventRound config listener x) (·.2)
      (fun r m => Sum.elim (fun _ => Heading m) (fun _ => m.2) r) := by
  refine Spec.call h.1 fun (b : Bool) => ?_
  have h₁ := h.test b
  cases b with
  | true => exact .ret h₁ h₁
  | false =>
    have hgo : Anywhere (linked TestedNext m ⟨.loadFlag, false⟩) :=
      ⟨h₁, fun e₀ he₀ hstop => by
        rw [← Option.some.inj he₀] at hstop
        cases hstop⟩
    refine Spec.call h₁ fun (t : Instant) => ?_
    have h₂ := hgo.step (e := ⟨.now, t⟩) nofun
    show Spec _ _ (if _ then _ else _) _ _
    split
    next => exact .ret h₂.1 h₂.1
    next =>
      refine Spec.bind (pollListener_tested h₂) ?_
      intro r m' hm' hr
      match r, hr with
      | .error err, hr => exact .ret hm' hr
      | .ok false, hr => exact .ret hm' hr
      | .ok true, hr =>
        have hdrain : Spec (linked TestedNext) m' (acceptLoop config listener x.1 x.2) (·.2)
            (fun d m => match d with
              | .wouldBlock _ _ => Heading m
              | .over _ _ => m.2) := by
          refine Spec.loop (fun _ m => Anywhere m) (fun d m => match d with
              | .wouldBlock _ _ => Heading m
              | .over _ _ => m.2) hr ?_ fun d m hm hd => .ret hm hd
          intro x m hm
          refine (acceptRound_tested x hm).mono (fun _ h => h) fun r m h => ?_
          cases r <;> exact h
        refine Spec.bind hdrain ?_
        intro d m hm hd
        cases d with
        | wouldBlock t s => exact .ret hm hd
        | «over» result s => exact .ret hm hd

/-- The event loop: consecutive events. -/
theorem runEventLoop_tested :
    Spec (linked TestedNext) (none, True) (runEventLoop config listener state) (·.2)
      (fun _ m => m.2) := by
  have h₀ : Anywhere ((none, True) : Option (SysEvent S) × Prop) :=
    ⟨trivial, fun e₀ he₀ => nomatch he₀⟩
  refine Spec.call h₀.1 fun (t : Instant) => ?_
  have h₁ := h₀.head (e := ⟨.now, t⟩) nofun
  refine Spec.loop (fun _ m => Heading m) (fun _ m => m.2) h₁ ?_ fun _ m hm _ => .ret hm hm
  intro x m hm
  refine (eventRound_tested x hm).mono (fun _ h => h) fun r m h => ?_
  cases r <;> exact h

end Loop

/-- From here on the flag is found set. -/
def FlagSet (h : History S) : Prop := ∀ b, ⟨.loadFlag, b⟩ ∈ h → b = true

/-- `e` accepts a connection. -/
def Accepts (e : SysEvent S) : Prop := ∃ l s, e = ⟨.accept l, .ok s⟩

/-- At the head of the loop with the flag set, the test is the last call. -/
theorem last_of_tested {e : SysEvent S} {b : History S} (hlinked : List.IsChain TestedNext (e :: b))
    (hflag : FlagSet (e :: b)) (hstop : AtTest e) : b = [] ∨ b = [⟨.loadFlag, true⟩] := by
  cases b with
  | nil => exact .inl rfl
  | cons e₁ b =>
    rw [List.isChain_cons_cons] at hlinked
    obtain ⟨hop, -⟩ := hlinked.1 hstop
    obtain ⟨op, ans⟩ := e₁
    obtain rfl : op = .loadFlag := hop
    obtain rfl : ans = true := hflag ans (by simp)
    cases b with
    | nil => exact .inr rfl
    | cons e₂ b =>
      have hnext := (List.isChain_cons_cons.mp hlinked.2).1 (show AtTest ⟨.loadFlag, true⟩ from rfl)
      exact absurd rfl hnext.2

/-- **A signal ends the event loop after the drain**: when the flag is set, what follows
an `accept` without a connection, or a `poll` without one, is at most the test of the
flag. So whatever is accepted or requested later belongs to the drain under way. -/
theorem signal_ends_after_drain (config : DaemonConfig) (listener : Nat) (state : S)
    (h₁ h₂ : History S) (ht : Traces (runEventLoop config listener state) (h₁ ++ h₂))
    (hflag : FlagSet h₂) :
    (∀ a e b, h₂ = a ++ e :: b → AtTest e → b = [] ∨ b = [⟨.loadFlag, true⟩]) ∧
    ∀ a e b, h₂ = a ++ e :: b → IsRequest e ∨ Accepts e → ∀ e₀ ∈ a, ¬ AtTest e₀ := by
  have hends : ∀ a e b, h₂ = a ++ e :: b → AtTest e → b = [] ∨ b = [⟨.loadFlag, true⟩] := by
    intro a e b hsplit hstop
    obtain ⟨q, hq⟩ := ht
    have hlinked := runEventLoop_tested.always hq
    rw [foldl_linked, hsplit, ← List.append_assoc] at hlinked
    refine last_of_tested (List.isChain_append.mp hlinked).2.1 (fun c hc => hflag c ?_) hstop
    rw [hsplit]
    exact List.mem_append_right _ hc
  refine ⟨hends, ?_⟩
  intro a e b hsplit he e₀ he₀ hstop
  obtain ⟨a₁, a₂, rfl⟩ := List.append_of_mem he₀
  have hrest := hends a₁ e₀ (a₂ ++ e :: b) (by rw [hsplit]; simp) hstop
  -- the test of the flag is neither
  have hnot : e ≠ ⟨.loadFlag, true⟩ := by
    intro heq
    subst heq
    rcases he with ⟨s, p, r, he⟩ | ⟨l, s, he⟩ <;> cases he
  have hmem : e ∈ a₂ ++ e :: b := by simp
  rcases hrest with hnil | hone
  · rw [hnil] at hmem
    cases hmem
  · rw [hone] at hmem
    exact hnot (List.mem_singleton.mp hmem)

/-! ## A connection that is served after the signal -/

/-- The connection `n` with an empty request, from the end of its `accept` on. -/
def servesRequest (n : Nat) : History Unit :=
  [⟨.streamNonblocking ⟨n, .server⟩ false, .ok ()⟩, ⟨.now, noon⟩,
    ⟨.read ⟨n, .server⟩ 12, .ok ⟨(⟨.request, 0, []⟩ : Frame).wire, by decide⟩⟩,
    ⟨.onRequest () [], (.ok [], ())⟩,
    ⟨.write ⟨n, .server⟩ (⟨.response, 0, []⟩ : Frame).wire, .ok ⟨12, by decide⟩⟩,
    ⟨.closeStream ⟨n, .server⟩, ()⟩]

/-- Up to the signal, which arrives when one connection has been accepted. -/
def beforeSignal : History Unit :=
  [⟨.now, noon⟩, ⟨.loadFlag, false⟩, ⟨.now, noon⟩, ⟨.poll 0 250, .ok ⟨1, true⟩⟩,
    ⟨.accept 0, .ok ⟨0, .server⟩⟩]

/-- From the signal on: another connection is accepted and served. -/
def afterSignal : History Unit :=
  servesRequest 0 ++ [⟨.accept 0, .ok ⟨1, .server⟩⟩] ++ servesRequest 1 ++
    [⟨.accept 0, .error ⟨.wouldBlock, ""⟩⟩, ⟨.loadFlag, true⟩]

theorem afterSignal_flagSet : FlagSet afterSignal := by
  have hall : afterSignal.all (fun e => match e with
    | ⟨.loadFlag, b⟩ => b
    | _ => true) = true := rfl
  exact fun b hb => List.all_eq_true.mp hall _ hb

/-- A request of a connection that is accepted after the signal reaches `on_request`. -/
theorem serves_after_signal :
    ¬ ∀ (config : DaemonConfig) (listener : Nat) (state : Unit) (h₁ h₂ : History Unit),
      Traces (runEventLoop config listener state) (h₁ ++ h₂) → FlagSet h₂ →
        ∀ a e b, h₂ = a ++ e :: b → IsRequest e → ∀ e₀ ∈ a, ¬ Accepts e₀ := by
  intro hclaim
  have ht : Traces (runEventLoop {} 0 ()) (beforeSignal ++ afterSignal) :=
    traces_of_follow 60 (by rfl)
  have hsplit : afterSignal = (servesRequest 0 ++ [⟨.accept 0, .ok ⟨1, .server⟩⟩] ++
      (servesRequest 1).take 3) ++ ⟨.onRequest () [], (.ok [], ())⟩ ::
        ((servesRequest 1).drop 4 ++
          [⟨.accept 0, .error ⟨.wouldBlock, ""⟩⟩, ⟨.loadFlag, true⟩]) := rfl
  refine hclaim {} 0 () beforeSignal afterSignal ht afterSignal_flagSet _ _ _ hsplit ⟨_, _, _, rfl⟩
    ⟨.accept 0, .ok ⟨1, .server⟩⟩ ?_ ⟨_, _, rfl⟩
  exact List.mem_append_left _ (List.mem_append_right _ (List.mem_singleton_self _))

/-- In that run the request is served in the drain under way, and nothing follows it. -/
theorem signal_ends_after_drain_second :
    (∀ a e b, afterSignal = a ++ e :: b → AtTest e → b = [] ∨ b = [⟨.loadFlag, true⟩]) ∧
    ∀ a e b, afterSignal = a ++ e :: b → IsRequest e ∨ Accepts e → ∀ e₀ ∈ a, ¬ AtTest e₀ :=
  signal_ends_after_drain {} 0 () beforeSignal afterSignal (traces_of_follow 60 (by rfl))
    afterSignal_flagSet

end Sockd
