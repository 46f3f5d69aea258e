import Sockd.Effects.Spec

/-!
# What a program is about to do

`Spec` speaks about what has happened; this is about the call that comes next.
`Asks M P s p Q` says of `p`, started when the monitor `M` is in state `s`, that `P`
holds of the state and the call whenever `p` stands before a call, and `Q` when it
returns. A program stands before a call, or has returned, after each of its traces if it
is `Productive`: no loop goes round without one (`Productive.stands`).
-/

namespace Effects

open Prog

variable {E : Sig} {α β σ τ ε ε' : Type}

/-! ## No silent rounds -/

namespace Prog

/-- Every round of a loop that is not its last makes a call. -/
def Productive : {α : Type} → Prog E α → Prop
  | _, ret _ => True
  | _, call _ k => ∀ b, Productive (k b)
  | _, loop body _ k =>
    (∀ x, Productive (body x) ∧ ∀ y, ¬ Returns (body x) [] (.inl y)) ∧ ∀ b, Productive (k b)

namespace Productive

variable {p : Prog E α}

theorem bind {f : α → Prog E β} (hp : Productive p) (hf : ∀ a, Productive (f a)) :
    Productive (p.bind f) := by
  induction p with
  | ret a => exact hf a
  | call op k ih => exact fun b => ih b (hp b) hf
  | loop body s k _ ih => exact ⟨hp.1, fun b => ih b (hp.2 b) hf⟩

theorem steps {n : Nat} {q : Prog E α} {tr : List (Event E)} (hp : Productive p)
    (h : Steps n p tr q) : Productive q := by
  induction h with
  | refl => exact hp
  | call _ ih => exact ih (hp _)
  | loop _ ih =>
    refine ih ((hp.1 _).1.bind fun r => ?_)
    cases r with
    | inl x => exact hp
    | inr b => exact hp.2 b

/-- Before its first call a program returns, or comes to a call. -/
theorem begins (hp : Productive p) :
    (∃ a, Returns p [] a) ∨ ∃ op k, Reach p [] (.call op k) := by
  induction p with
  | ret a => exact .inl ⟨a, .refl⟩
  | call op k _ => exact .inr ⟨op, k, .refl⟩
  | loop body x k ihbody ih =>
    rcases ihbody x (hp.1 x).1 with ⟨r, hr⟩ | ⟨op, k', hr⟩
    · cases r with
      | inl y => exact absurd hr ((hp.1 x).2 y)
      | inr b =>
        -- the loop is left in its first round
        have hleft : ∀ {q : Prog E _}, Reach (k b) [] q → Reach (.loop body x k) [] q :=
          fun hq => .loop (Reach.bind hr hq)
        rcases ih b (hp.2 b) with ⟨a, ha⟩ | ⟨op, k', hk⟩
        · exact .inl ⟨a, hleft ha⟩
        · exact .inr ⟨op, k', hleft hk⟩
    · exact .inr ⟨op, _, .loop (hr.bind_left _)⟩

/-- After each of its traces a program has returned, or stands before a call. -/
theorem stands {tr : List (Event E)} (hp : Productive p) (ht : Traces p tr) :
    (∃ a, Returns p tr a) ∨ ∃ op k, Reach p tr (.call op k) := by
  obtain ⟨q, n, hq⟩ := ht
  rcases (hp.steps hq).begins with ⟨a, ha⟩ | ⟨op, k, hk⟩
  · have hall := Reach.trans ⟨n, hq⟩ ha
    rw [List.append_nil] at hall
    exact .inl ⟨a, hall⟩
  · have hall := Reach.trans ⟨n, hq⟩ hk
    rw [List.append_nil] at hall
    exact .inr ⟨op, k, hall⟩

end Productive

theorem not_silent_call {op : E.Op} {k : E.Ans op → Prog E α} {a : α} :
    ¬ Returns (.call op k) [] a := by
  intro h
  obtain ⟨b, u, hu, -⟩ := returns_call_iff.mp h
  cases hu

theorem not_silent_bind {p : Prog E α} {f : α → Prog E β} (hp : ∀ a, ¬ Returns p [] a) {b : β} :
    ¬ Returns (p.bind f) [] b := by
  intro h
  obtain ⟨t₁, t₂, a, ht, h₁, -⟩ := returns_bind_iff.mp h
  obtain ⟨rfl, -⟩ := List.append_eq_nil_iff.mp ht.symm
  exact hp a h₁

end Prog

namespace Try

variable {p : Try E ε α}

theorem productive_bind {f : α → Try E ε β} (hp : Productive p.run)
    (hf : ∀ a, Productive (f a).run) : Productive (p >>= f).run := by
  refine hp.bind fun r => ?_
  cases r with
  | ok a => exact hf a
  | error e => trivial

theorem productive_mapErr {f : ε → ε'} (hp : Productive p.run) : Productive (p.mapErr f).run :=
  hp.bind fun _ => trivial

theorem productive_attempt (hp : Productive p.run) :
    Productive (p.attempt : Try E ε' (Except ε α)).run :=
  hp.bind fun _ => trivial

theorem productive_lift {p : Prog E α} (hp : Productive p) :
    Productive (Try.lift p : Try E ε α).run :=
  hp.bind fun _ => trivial

theorem productive_ensuring {after : Prog E Unit} (hp : Productive p.run)
    (hafter : Productive after) : Productive (p.ensuring after).run :=
  hp.bind fun _ => hafter.bind fun _ => trivial

/-- A loop of `Try`. -/
theorem productive_repeating {body : τ → Try E ε (τ ⊕ β)} {x : τ}
    (hbody : ∀ x, Productive (body x).run ∧ ∀ r, ¬ Returns (body x).run [] r) :
    Productive (Try.repeating body x).run := by
  refine ⟨fun x => ⟨(hbody x).1.bind fun r => ?_, fun y => not_silent_bind (hbody x).2⟩,
    fun _ => trivial⟩
  cases r with
  | ok r => cases r <;> trivial
  | error e => trivial

end Try

/-! ## Before every call -/

/-- Whenever `p` stands before a call, `P` holds of it and of the monitor; when `p`
returns `a`, `Q a` does. -/
structure Asks (M : σ → Event E → σ) (P : σ → E.Op → Prop) (s : σ) (p : Prog E α)
    (Q : α → σ → Prop) : Prop where
  asks : ∀ {tr : List (Event E)} {op : E.Op} {k : E.Ans op → Prog E α},
    Reach p tr (.call op k) → P (tr.foldl M s) op
  returns : ∀ {tr : List (Event E)} {a : α}, Returns p tr a → Q a (tr.foldl M s)

namespace Asks

variable {M : σ → Event E → σ} {P : σ → E.Op → Prop} {s : σ} {p : Prog E α}
  {Q R : α → σ → Prop}

theorem mono (h : Asks M P s p Q) (hQ : ∀ a s, Q a s → R a s) : Asks M P s p R :=
  ⟨h.asks, fun hr => hQ _ _ (h.returns hr)⟩

theorem ret {a : α} (hQ : Q a s) : Asks M P s (.ret a) Q where
  asks := by
    rintro tr op k ⟨n, h⟩
    cases h
  returns := by
    intro tr b h
    obtain ⟨rfl, rfl⟩ := returns_ret_iff.mp h
    exact hQ

theorem call {op : E.Op} {k : E.Ans op → Prog E α} (hop : P s op)
    (hk : ∀ b, Asks M P (M s ⟨op, b⟩) (k b) Q) : Asks M P s (.call op k) Q where
  asks := by
    rintro tr op' k' ⟨n, h⟩
    cases h with
    | refl => exact hop
    | call h => exact (hk _).asks ⟨_, h⟩
  returns := by
    rintro tr a ⟨n, h⟩
    cases h with
    | call h => exact (hk _).returns ⟨_, h⟩

theorem bind {p : Prog E β} {f : β → Prog E α} {R : β → σ → Prop} (hp : Asks M P s p R)
    (hf : ∀ b s, R b s → Asks M P s (f b) Q) : Asks M P s (p.bind f) Q where
  asks := by
    intro tr op k h
    rcases reach_bind_iff.mp h with ⟨p', hp', hq⟩ | ⟨t₁, t₂, b, rfl, h₁, h₂⟩
    · cases p' with
      | ret b =>
        have hstart : Reach (f b) [] (.call op k) := by
          rw [show f b = .call op k from hq.symm]
          exact .refl
        exact (hf b _ (hp.returns hp')).asks hstart
      | call op' k' =>
        cases hq
        exact hp.asks hp'
      | loop body x k' => cases hq
    · rw [List.foldl_append]
      exact (hf b _ (hp.returns h₁)).asks h₂
  returns := by
    intro tr a h
    obtain ⟨t₁, t₂, b, rfl, h₁, h₂⟩ := returns_bind_iff.mp h
    rw [List.foldl_append]
    exact (hf b _ (hp.returns h₁)).returns h₂

/-- One round of a loop, then what is left of it; the part of a trace that lies in the
loop is shorter by the unfolding. -/
private theorem asks_loop {body : τ → Prog E (τ ⊕ β)} {k : β → Prog E α} {I : τ → σ → Prop}
    {R : β → σ → Prop} (hbody : ∀ x s, I x s → Asks M P s (body x) (fun r => Sum.elim I R r))
    (hk : ∀ b s, R b s → Asks M P s (k b) Q) (n : Nat) :
    ∀ {m x s tr q}, m ≤ n → I x s → Steps m (.loop body x k) tr q →
      (∀ op k', q = .call op k' → P (tr.foldl M s) op) ∧
        ∀ a, q = .ret a → Q a (tr.foldl M s) := by
  induction n with
  | zero =>
    intro m x s tr q hm hI h
    obtain rfl : m = 0 := by omega
    cases h
    exact ⟨fun _ _ hq => (by cases hq), fun _ hq => (by cases hq)⟩
  | succ n ih =>
    intro m x s tr q hm hI h
    cases h with
    | refl => exact ⟨fun _ _ hq => (by cases hq), fun _ hq => (by cases hq)⟩
    | loop h =>
      rcases h.bind_inv with ⟨p', hp', rfl⟩ | ⟨t₁, t₂, r, l, rfl, hl, h₁, h₂⟩
      · have hround := hbody x s hI
        cases p' with
        | ret r =>
          have hr := hround.returns ⟨_, hp'⟩
          cases r with
          | inl y => exact ⟨fun _ _ hq => (by cases hq), fun _ hq => (by cases hq)⟩
          | inr b =>
            have hstart : ∀ {q : Prog E α}, k b = q → Reach (k b) [] q := fun hq => hq ▸ .refl
            exact ⟨fun _ _ hq => (hk b _ hr).asks (hstart hq),
              fun _ hq => (hk b _ hr).returns (hstart hq)⟩
        | call op k' =>
          refine ⟨fun op' k'' hq => ?_, fun a hq => (by cases hq)⟩
          cases hq
          exact hround.asks ⟨_, hp'⟩
        | loop body' x' k' => exact ⟨fun _ _ hq => (by cases hq), fun _ hq => (by cases hq)⟩
      · have hr := (hbody x s hI).returns ⟨_, h₁⟩
        rw [List.foldl_append]
        cases r with
        | inl y => exact ih (by omega) hr h₂
        | inr b =>
          refine ⟨fun op k' hq => ?_, fun a hq => ?_⟩
          · exact (hk b _ hr).asks ⟨l, hq ▸ h₂⟩
          · exact (hk b _ hr).returns ⟨l, hq ▸ h₂⟩

/-- The loop rule: `I` holds at the head of every round, `R` on leaving. -/
theorem loop {body : τ → Prog E (τ ⊕ β)} {x : τ} {k : β → Prog E α} (I : τ → σ → Prop)
    (R : β → σ → Prop) (hx : I x s)
    (hbody : ∀ x s, I x s → Asks M P s (body x) (fun r => Sum.elim I R r))
    (hk : ∀ b s, R b s → Asks M P s (k b) Q) : Asks M P s (.loop body x k) Q where
  asks := by
    rintro tr op k' ⟨n, h⟩
    exact (asks_loop hbody hk n (Nat.le_refl _) hx h).1 op k' rfl
  returns := by
    rintro tr a ⟨n, h⟩
    exact (asks_loop hbody hk n (Nat.le_refl _) hx h).2 a rfl

/-- Calls for which `P` holds, and that leave the monitor alone. -/
theorem still {A : E.Op → Prop} (hp : AllCalls A p) (hP : ∀ op, A op → P s op)
    (hM : ∀ op b, A op → M s ⟨op, b⟩ = s) : Asks M P s p (fun _ s' => s' = s) := by
  have hfold : ∀ (tr : List (Event E)), (∀ e ∈ tr, A e.1) → tr.foldl M s = s := by
    intro tr htr
    induction tr with
    | nil => rfl
    | cons e tr ih =>
      rw [List.foldl_cons, hM e.1 e.2 (htr e List.mem_cons_self)]
      exact ih fun e' he' => htr e' (List.mem_cons_of_mem _ he')
  refine ⟨?_, ?_⟩
  · rintro tr op k ⟨n, h⟩
    obtain ⟨hq, htr⟩ := hp.steps h
    rw [hfold tr htr]
    exact hP op hq.1
  · intro tr a h
    exact hfold tr (hp.traces h.traces)

/-! ### Programs that may fail -/

theorem next {p : Prog E (Except ε α)} {f : α → Prog E (Except ε β)}
    {Q : Except ε β → σ → Prop} {R : α → σ → Prop} (hp : Asks M P s p (Spec.orElse Q R))
    (hf : ∀ a s, R a s → Asks M P s (f a) Q) : Asks M P s (p.bind (Try.next f)) Q := by
  refine hp.bind fun r s hr => ?_
  cases r with
  | ok a => exact hf a s hr
  | error e => exact .ret hr

/-- The same, where the claim does not depend on the outcome. -/
theorem andThen {p : Prog E (Except ε α)} {f : α → Prog E (Except ε β)} {R : σ → Prop}
    (hp : Asks M P s p fun _ => R) (hf : ∀ a s, R s → Asks M P s (f a) fun _ => R) :
    Asks M P s (p.bind (Try.next f)) fun _ => R := by
  refine next (R := fun _ => R) (hp.mono fun r s hr => ?_) hf
  cases r <;> exact hr

theorem mapErr {p : Try E ε α} {f : ε → ε'} {Q : Except ε' α → σ → Prop}
    (hp : Asks M P s p.run fun r => Q (r.mapError f)) : Asks M P s (p.mapErr f).run Q :=
  hp.bind fun _ _ hr => .ret hr

/-- After a program that cannot fail. -/
theorem lift {p : Prog E α} {f : α → Try E ε β} {Q : Except ε β → σ → Prop} {R : α → σ → Prop}
    (hp : Asks M P s p R) (hf : ∀ a s, R a s → Asks M P s (f a).run Q) :
    Asks M P s (Try.lift p >>= f).run Q := by
  rw [Try.run_bind, Try.run_lift, bind_assoc]
  exact hp.bind hf

/-- After a program whose outcome is looked at. -/
theorem attempt {p : Try E ε' α} {f : Except ε' α → Try E ε β} {Q : Except ε β → σ → Prop}
    {R : Except ε' α → σ → Prop} (hp : Asks M P s p.run R)
    (hf : ∀ r s, R r s → Asks M P s (f r).run Q) : Asks M P s (p.attempt >>= f).run Q := by
  rw [Try.run_bind, Try.run_attempt, bind_assoc]
  exact hp.bind hf

end Asks

end Effects
