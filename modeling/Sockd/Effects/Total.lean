import Sockd.Effects.Prog

/-!
# Programs that come to an end

Surroundings that choose among several answers leave a program many runs.
`Total ok M p s Q` says of `p`, started when the monitor `M` is in state `s`: as long
as every answer is one that `ok` allows, `p` comes to an end, and then `Q` holds of
the value it returns and of the state of the monitor. At every call there is an
allowed answer, so `p` is never stuck either. Where `Spec` is partial correctness this
is total correctness, and accordingly the loop rule (`Total.loop_of_measure`) asks for
a measure.
-/

namespace Effects

open Prog

variable {E : Sig} {α β σ τ ε ε' : Type}

/-- Every run of `p` from monitor state `s` whose answers are allowed ends, with `Q`. -/
inductive Total (ok : σ → Event E → Prop) (M : σ → Event E → σ) :
    {α : Type} → Prog E α → σ → (α → σ → Prop) → Prop
  | ret {α : Type} {a : α} {s : σ} {Q : α → σ → Prop} : Q a s → Total ok M (.ret a) s Q
  | call {α : Type} {op : E.Op} {k : E.Ans op → Prog E α} {s : σ} {Q : α → σ → Prop} :
      (∃ b, ok s ⟨op, b⟩) → (∀ b, ok s ⟨op, b⟩ → Total ok M (k b) (M s ⟨op, b⟩) Q) →
      Total ok M (.call op k) s Q
  | loop {α τ β : Type} {body : τ → Prog E (τ ⊕ β)} {x : τ} {k : β → Prog E α} {s : σ}
      {Q : α → σ → Prop} :
      Total ok M ((body x).bind (again body k)) s Q → Total ok M (.loop body x k) s Q

namespace Total

variable {ok : σ → Event E → Prop} {M : σ → Event E → σ} {s : σ} {p : Prog E α}
  {Q R : α → σ → Prop}

theorem mono (h : Total ok M p s Q) (hQ : ∀ a s, Q a s → R a s) : Total ok M p s R := by
  induction h with
  | ret h => exact .ret (hQ _ _ h)
  | call hb _ ih => exact .call hb fun b hok => ih b hok hQ
  | loop _ ih => exact .loop (ih hQ)

theorem bind {f : α → Prog E β} {Q : β → σ → Prop} (hp : Total ok M p s R)
    (hf : ∀ a s, R a s → Total ok M (f a) s Q) : Total ok M (p.bind f) s Q := by
  induction hp with
  | ret h => exact hf _ _ h
  | call hb _ ih => exact .call hb fun b hok => ih b hok hf
  | loop _ ih =>
    refine .loop ?_
    rw [again_bind_fun, ← bind_assoc]
    exact ih hf

/-- The loop rule: `I` holds at the head of every round, and `μ` goes down from round
to round; `R` holds on leaving. -/
theorem loop_of_measure {body : τ → Prog E (τ ⊕ β)} {k : β → Prog E α} (I : τ → σ → Prop)
    (μ : τ → σ → Nat) (R : β → σ → Prop)
    (hbody : ∀ x s, I x s → Total ok M (body x) s fun r s' =>
      Sum.elim (fun y => I y s' ∧ μ y s' < μ x s) (fun b => R b s') r)
    (hk : ∀ b s, R b s → Total ok M (k b) s Q) {x : τ} (hx : I x s) :
    Total ok M (.loop body x k) s Q := by
  induction hn : μ x s using Nat.strongRecOn generalizing x s with
  | _ n ih =>
    subst hn
    refine .loop (bind (hbody x s hx) ?_)
    intro r s' hr
    cases r with
    | inl y => exact ih _ hr.2 hr.1 rfl
    | inr b => exact hk b s' hr

/-- The loop rule for a cost: a round that goes on costs one at most and lowers the measure, and
the last one costs no more than what is left of it, so the loop costs no more than the measure
says at its start. -/
theorem loop_of_budget {body : τ → Prog E (τ ⊕ β)} (I : τ → σ → Prop) (μ : τ → σ → Nat)
    (cost : σ → Nat) (R : β → σ → Prop)
    (hbody : ∀ x s, I x s → Total ok M (body x) s fun r s' =>
      Sum.elim (fun y => I y s' ∧ μ y s' < μ x s ∧ cost s' ≤ cost s + 1)
        (fun b => R b s' ∧ cost s' ≤ cost s + μ x s) r) {x : τ} (hx : I x s) :
    Total ok M (.loop body x .ret) s fun b s' => R b s' ∧ cost s' ≤ cost s + μ x s := by
  -- what was spent and what can still be spent are never more than at the start
  refine loop_of_measure (fun y s' => I y s' ∧ cost s' + μ y s' ≤ cost s + μ x s) μ
    (fun b s' => R b s' ∧ cost s' ≤ cost s + μ x s) ?_ (fun b s' hb => .ret hb) ⟨hx, Nat.le_refl _⟩
  rintro y s' ⟨hy, hpaid⟩
  refine (hbody y s' hy).mono fun r s'' hr => ?_
  cases r with
  | inl z =>
    obtain ⟨hz, hless, hcost⟩ := hr
    exact ⟨⟨hz, by omega⟩, hless⟩
  | inr b =>
    obtain ⟨hb, hcost⟩ := hr
    exact ⟨hb, by omega⟩

/-- A call with one allowed answer gets it. -/
theorem ask {op : E.Op} {b : E.Ans op} {Q : E.Ans op → σ → Prop} (hb : ok s ⟨op, b⟩)
    (hunique : ∀ b', ok s ⟨op, b'⟩ → b' = b) (hQ : Q b (M s ⟨op, b⟩)) :
    Total ok M (Prog.ask op) s Q :=
  .call ⟨b, hb⟩ fun b' hb' => .ret (hunique b' hb' ▸ hQ)

/-- Two facts about one program. -/
theorem and (h₁ : Total ok M p s Q) (h₂ : Total ok M p s R) :
    Total ok M p s fun a s => Q a s ∧ R a s := by
  induction h₁ with
  | ret h => cases h₂ with | ret h' => exact .ret ⟨h, h'⟩
  | call hb _ ih => cases h₂ with | call _ h₂ => exact .call hb fun b hok => ih b hok (h₂ b hok)
  | loop _ ih => cases h₂ with | loop h₂ => exact .loop (ih h₂)

/-- Every answer of the trace is one that was allowed. -/
def Allowed (ok : σ → Event E → Prop) (M : σ → Event E → σ) : σ → List (Event E) → Prop
  | _, [] => True
  | s, e :: tr => ok s e ∧ Allowed ok M (M s e) tr

theorem Allowed.append_inv {t₁ t₂ : List (Event E)} (h : Allowed ok M s (t₁ ++ t₂)) :
    Allowed ok M s t₁ ∧ Allowed ok M (t₁.foldl M s) t₂ := by
  induction t₁ generalizing s with
  | nil => exact ⟨trivial, h⟩
  | cons e t₁ ih =>
    obtain ⟨h₁, h₂⟩ := ih h.2
    exact ⟨⟨h.1, h₁⟩, h₂⟩

/-- A run whose answers were allowed ends as was said. -/
theorem returns (h : Total ok M p s Q) {tr : List (Event E)} {a : α} (hr : Returns p tr a)
    (hok : Allowed ok M s tr) : Q a (tr.foldl M s) := by
  induction h generalizing tr with
  | ret h =>
    obtain ⟨rfl, rfl⟩ := returns_ret_iff.mp hr
    exact h
  | call _ _ ih =>
    obtain ⟨b, u, rfl, hrest⟩ := returns_call_iff.mp hr
    exact ih b hok.1 hrest hok.2
  | loop _ ih =>
    obtain ⟨n, hn⟩ := hr
    cases hn with
    | loop hn => exact ih ⟨_, hn⟩ hok

/-- There is a run. -/
theorem exists_end (h : Total ok M p s Q) : ∃ a s, Q a s := by
  induction h with
  | ret h => exact ⟨_, _, h⟩
  | call hb _ ih =>
    obtain ⟨b, hok⟩ := hb
    exact ih b hok
  | loop _ ih => exact ih

/-! ## Programs that may fail -/

/-- The program succeeds, with `R`. -/
def succeeds (R : α → σ → Prop) (r : Except ε α) (s : σ) : Prop := ∃ a, r = .ok a ∧ R a s

theorem next {p : Prog E (Except ε α)} {f : α → Prog E (Except ε β)}
    {Q : Except ε β → σ → Prop} (hp : Total ok M p s (succeeds R))
    (hf : ∀ a s, R a s → Total ok M (f a) s Q) : Total ok M (p.bind (Try.next f)) s Q := by
  refine hp.bind fun r s hr => ?_
  obtain ⟨a, rfl, ha⟩ := hr
  exact hf a s ha

/-- After a program that cannot fail. -/
theorem lift {p : Prog E α} {f : α → Try E ε β} {Q : Except ε β → σ → Prop}
    (hp : Total ok M p s R) (hf : ∀ a s, R a s → Total ok M (f a).run s Q) :
    Total ok M (Try.lift p >>= f).run s Q := by
  rw [Try.run_bind, Try.run_lift, bind_assoc]
  exact hp.bind hf

/-- After a program whose outcome is looked at. -/
theorem attempt {p : Try E ε' α} {f : Except ε' α → Try E ε β} {Q : Except ε β → σ → Prop}
    {R : Except ε' α → σ → Prop} (hp : Total ok M p.run s R)
    (hf : ∀ r s, R r s → Total ok M (f r).run s Q) : Total ok M (p.attempt >>= f).run s Q := by
  rw [Try.run_bind, Try.run_attempt, bind_assoc]
  exact hp.bind hf

/-- What each part keeps of the state, the whole keeps, also when it fails on the way. -/
theorem keeping {R : σ → Prop} {p : Try E ε α} {f : α → Try E ε β}
    (hp : Total ok M p.run s fun _ => R) (hf : ∀ a s, R s → Total ok M (f a).run s fun _ => R) :
    Total ok M (p >>= f).run s fun _ => R := by
  refine hp.bind fun r s' hs => ?_
  cases r with
  | ok a => exact hf a s' hs
  | error e => exact .ret hs

theorem mapErr {p : Try E ε α} {f : ε → ε'} (hp : Total ok M p.run s (succeeds R)) :
    Total ok M (p.mapErr f).run s (succeeds R) := by
  refine hp.bind fun r s hr => ?_
  obtain ⟨a, rfl, ha⟩ := hr
  exact .ret ⟨a, rfl, ha⟩

/-- Surroundings that answer the calls of the program in the same way are as good. -/
theorem of_calls {ok' : σ → Event E → Prop} {C : E.Op → Prop} (h : Total ok M p s Q)
    (hp : AllCalls C p) (hok : ∀ s (e : Event E), C e.1 → (ok' s e ↔ ok s e)) :
    Total ok' M p s Q := by
  induction h with
  | ret h => exact .ret h
  | call hb _ ih =>
    obtain ⟨b, hb⟩ := hb
    exact .call ⟨b, (hok _ _ hp.1).mpr hb⟩ fun b' hb' =>
      ih b' ((hok _ _ hp.1).mp hb') (hp.2 b')
  | loop _ ih =>
    refine .loop (ih (AllCalls.bind (hp.1 _) fun r => ?_))
    cases r with
    | inl x => exact hp
    | inr b => exact hp.2 b

end Total

/-! ## A call that is bound to come -/

/-- Every run of `p` whose answers are allowed comes to an event with `P`, whatever
becomes of it after that. -/
inductive Inevitable (ok : σ → Event E → Prop) (M : σ → Event E → σ) (P : Event E → Prop) :
    {α : Type} → Prog E α → σ → Prop
  | call {α : Type} {op : E.Op} {k : E.Ans op → Prog E α} {s : σ} :
      (∃ b, ok s ⟨op, b⟩) →
      (∀ b, ok s ⟨op, b⟩ → ¬ P ⟨op, b⟩ → Inevitable ok M P (k b) (M s ⟨op, b⟩)) →
      Inevitable ok M P (.call op k) s
  | loop {α τ β : Type} {body : τ → Prog E (τ ⊕ β)} {x : τ} {k : β → Prog E α} {s : σ} :
      Inevitable ok M P ((body x).bind (again body k)) s → Inevitable ok M P (.loop body x k) s

namespace Inevitable

variable {ok : σ → Event E → Prop} {M : σ → Event E → σ} {P : Event E → Prop} {s : σ}
  {p : Prog E α}

/-- It comes before what follows. -/
theorem bind {f : α → Prog E β} (h : Inevitable ok M P p s) :
    Inevitable ok M P (p.bind f) s := by
  induction h with
  | call hb _ ih => exact .call hb fun b hok hP => ih b hok hP
  | loop _ ih =>
    refine .loop ?_
    rw [again_bind_fun, ← bind_assoc]
    exact ih

/-- It comes after a program that ends. -/
theorem after {R : α → σ → Prop} {f : α → Prog E β} (hp : Total ok M p s R)
    (hf : ∀ a s, R a s → Inevitable ok M P (f a) s) : Inevitable ok M P (p.bind f) s := by
  induction hp with
  | ret h => exact hf _ _ h
  | call hb _ ih => exact .call hb fun b hok _ => ih b hok hf
  | loop _ ih =>
    refine .loop ?_
    rw [again_bind_fun, ← bind_assoc]
    exact ih hf

end Inevitable

end Effects
