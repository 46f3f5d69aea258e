import Sockd.Effects.Prog

/-!
# Running a program against a handler

A handler answers every call from a state of its own. Against a handler a
program has one run at most: `Evals h p w a w'` says that the run ends, with the
value `a` and the handler in state `w'`. `Halts` is that it ends at all. A run
against a handler is also a trace of the program (`Evals.returns`), so what is
known of all traces of a program applies to it.
-/

namespace Effects

open Prog

/-- Answers every call, and changes its state in doing so. -/
abbrev Handler (E : Sig) (W : Type) : Type := W → (op : E.Op) → E.Ans op × W

variable {E : Sig} {W : Type} {α β σ : Type} {h : Handler E W}

/-- Run against `h` from state `w`, `p` ends with `a` and leaves `h` in `w'`. -/
inductive Evals (h : Handler E W) : {α : Type} → Prog E α → W → α → W → Prop
  | ret {α : Type} {a : α} {w : W} : Evals h (.ret a) w a w
  | call {α : Type} {op : E.Op} {k : E.Ans op → Prog E α} {w w' : W} {a : α} :
      Evals h (k (h w op).1) (h w op).2 a w' → Evals h (.call op k) w a w'
  | loop {α σ β : Type} {body : σ → Prog E (σ ⊕ β)} {s : σ} {k : β → Prog E α} {w w' : W} {a : α} :
      Evals h ((body s).bind (again body k)) w a w' → Evals h (.loop body s k) w a w'

/-- The run of `p` against `h` ends. -/
def Halts (h : Handler E W) (p : Prog E α) (w : W) : Prop := ∃ a w', Evals h p w a w'

namespace Evals

variable {p : Prog E α} {f : α → Prog E β} {w w₁ w₂ : W} {a a₁ a₂ : α} {b : β}

/-- A handler leaves no choice. -/
theorem det (h₁ : Evals h p w a₁ w₁) (h₂ : Evals h p w a₂ w₂) : a₁ = a₂ ∧ w₁ = w₂ := by
  induction h₁ with
  | ret => cases h₂; exact ⟨rfl, rfl⟩
  | call _ ih => cases h₂ with | call h₂ => exact ih h₂
  | loop _ ih => cases h₂ with | loop h₂ => exact ih h₂

theorem bind (h₁ : Evals h p w a w₁) (h₂ : Evals h (f a) w₁ b w₂) :
    Evals h (p.bind f) w b w₂ := by
  induction h₁ with
  | ret => exact h₂
  | call _ ih => exact .call (ih h₂)
  | loop _ ih =>
    refine .loop ?_
    rw [again_bind_fun, ← bind_assoc]
    exact ih h₂

/-- The events of a run against `h`. -/
inductive Consistent (h : Handler E W) : W → List (Event E) → W → Prop
  | nil {w : W} : Consistent h w [] w
  | cons {w w' : W} {op : E.Op} {tr : List (Event E)} :
      Consistent h (h w op).2 tr w' → Consistent h w (⟨op, (h w op).1⟩ :: tr) w'

theorem Consistent.append_inv {w w' : W} {t₁ t₂ : List (Event E)}
    (hc : Consistent h w (t₁ ++ t₂) w') :
    ∃ w₁, Consistent h w t₁ w₁ ∧ Consistent h w₁ t₂ w' := by
  induction t₁ generalizing w with
  | nil => exact ⟨w, .nil, hc⟩
  | cons e t₁ ih =>
    cases hc with
    | cons hc =>
      obtain ⟨w₁, h₁, h₂⟩ := ih hc
      exact ⟨w₁, .cons h₁, h₂⟩

/-- One event: the handler's answer and its next state. -/
theorem Consistent.single {w w' : W} {op : E.Op} {b : E.Ans op}
    (hc : Consistent h w [⟨op, b⟩] w') : b = (h w op).1 ∧ w' = (h w op).2 := by
  cases hc with
  | cons hc => cases hc; exact ⟨rfl, rfl⟩

/-- A run against `h` is a trace of the program. -/
theorem returns (hp : Evals h p w a w₁) : ∃ tr, Returns p tr a ∧ Consistent h w tr w₁ := by
  induction hp with
  | ret => exact ⟨[], .refl, .nil⟩
  | call _ ih =>
    obtain ⟨tr, hr, hc⟩ := ih
    exact ⟨_ :: tr, .call hr, .cons hc⟩
  | loop _ ih =>
    obtain ⟨tr, hr, hc⟩ := ih
    exact ⟨tr, .loop hr, hc⟩

end Evals

theorem Halts.bind {p : Prog E α} {f : α → Prog E β} {w : W} (hp : Halts h p w)
    (hf : ∀ a w', Evals h p w a w' → Halts h (f a) w') : Halts h (p.bind f) w := by
  obtain ⟨a, w₁, h₁⟩ := hp
  obtain ⟨b, w₂, h₂⟩ := hf a w₁ h₁
  exact ⟨b, w₂, h₁.bind h₂⟩

theorem Halts.ret {a : α} {w : W} : Halts h (.ret a : Prog E α) w := ⟨a, w, .ret⟩

theorem Halts.call {op : E.Op} {k : E.Ans op → Prog E α} {w : W}
    (hk : Halts h (k (h w op).1) (h w op).2) : Halts h (.call op k) w := by
  obtain ⟨a, w', hk⟩ := hk
  exact ⟨a, w', .call hk⟩

theorem Halts.loop {body : σ → Prog E (σ ⊕ β)} {s : σ} {k : β → Prog E α} {w : W}
    (hb : Halts h ((body s).bind (again body k)) w) : Halts h (.loop body s k) w := by
  obtain ⟨a, w', hb⟩ := hb
  exact ⟨a, w', .loop hb⟩

end Effects
