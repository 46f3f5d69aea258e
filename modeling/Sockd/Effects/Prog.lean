import Mathlib.Data.List.Basic

/-!
# Programs over an interface of calls

A program that talks to its surroundings is a tree: it returns, or it makes a
call and goes on with the answer, or it loops. `Prog E α` is that tree for an
interface `E` (`Sig`: the calls and the type of each call's answers). Nothing
here says what a call does; the answers are whatever the surroundings give.

What a program may do is therefore its set of *traces*: the lists of
call-and-answer events it can go through. `Reach p tr q` says that `p` goes
through `tr` and is then `q`; a completed run is one that ends in `ret`. A loop
is unfolded silently, so an unbounded loop has arbitrarily long traces and a
diverging one simply never reaches a `ret`.

`Try E ε α` are the programs that may fail early: `bind` skips the rest after an
`error`, which is the `?` operator of the languages these programs come from.

The one theorem everything rests on is `Steps.bind_inv`: a trace of `p.bind f` is
a trace of `p`, or a completed trace of `p` followed by a trace of `f`.
-/

namespace Effects

/-- An interface: the calls a program can make and what each one answers. -/
structure Sig where
  Op : Type
  Ans : Op → Type

/-- A call together with the answer it got. -/
abbrev Event (E : Sig) : Type := Σ op : E.Op, E.Ans op

/-- Programs over the interface `E` that return an `α`. -/
inductive Prog (E : Sig) : Type → Type 1
  | ret {α : Type} (a : α) : Prog E α
  | call {α : Type} (op : E.Op) (k : E.Ans op → Prog E α) : Prog E α
  /-- Run `body`; on `inl s` again from `s`, on `inr b` leave with `b`. -/
  | loop {σ β α : Type} (body : σ → Prog E (σ ⊕ β)) (s : σ) (k : β → Prog E α) : Prog E α

namespace Prog

variable {E : Sig} {α β γ σ : Type}

/-- Run `p`, then `f` on what it returned. -/
def bind : Prog E α → (α → Prog E β) → Prog E β
  | ret a, f => f a
  | call op k, f => call op fun b => (k b).bind f
  | loop body s k, f => loop body s fun b => (k b).bind f

instance : Monad (Prog E) where
  pure := ret
  bind := bind

/-- Make one call and return its answer. -/
def ask (op : E.Op) : Prog E (E.Ans op) := call op ret

@[simp] theorem pure_def (a : α) : (pure a : Prog E α) = ret a := rfl

@[simp] theorem bind_def (p : Prog E α) (f : α → Prog E β) : (p >>= f) = p.bind f := rfl

@[simp] theorem ret_bind (a : α) (f : α → Prog E β) : (ret a).bind f = f a := rfl

@[simp] theorem call_bind {op : E.Op} (k : E.Ans op → Prog E α) (f : α → Prog E β) :
    (call op k).bind f = call op fun b => (k b).bind f := rfl

@[simp] theorem ask_bind {op : E.Op} (f : E.Ans op → Prog E β) :
    (ask op).bind f = call op f := rfl

theorem bind_assoc (p : Prog E α) (f : α → Prog E β) (g : β → Prog E γ) :
    (p.bind f).bind g = p.bind fun a => (f a).bind g := by
  induction p with
  | ret a => rfl
  | call op k ih => simp only [bind, ih]
  | loop body s k _ ih => simp only [bind, ih]

/-- What a loop does with the outcome of one round of its body. -/
def again (body : σ → Prog E (σ ⊕ β)) (k : β → Prog E α) : σ ⊕ β → Prog E α
  | .inl s => loop body s k
  | .inr b => k b

theorem again_bind (body : σ → Prog E (σ ⊕ β)) (k : β → Prog E α) (f : α → Prog E γ)
    (r : σ ⊕ β) :
    (again body k r).bind f = again body (fun b => (k b).bind f) r := by
  cases r <;> rfl

theorem again_bind_fun (body : σ → Prog E (σ ⊕ β)) (k : β → Prog E α) (f : α → Prog E γ) :
    again body (fun b => (k b).bind f) = fun r => (again body k r).bind f :=
  funext fun r => (again_bind body k f r).symm

/-! ## Traces -/

/-- `p` goes through the events `tr` in `n` steps (calls and loop unfoldings) and
is then `q`. -/
inductive Steps : {α : Type} → Nat → Prog E α → List (Event E) → Prog E α → Prop
  | refl {α : Type} {n : Nat} {p : Prog E α} : Steps n p [] p
  | call {α : Type} {n : Nat} {op : E.Op} {k : E.Ans op → Prog E α} {b : E.Ans op}
      {tr : List (Event E)} {q : Prog E α} :
      Steps n (k b) tr q → Steps (n + 1) (call op k) (⟨op, b⟩ :: tr) q
  | loop {α σ β : Type} {n : Nat} {body : σ → Prog E (σ ⊕ β)} {s : σ} {k : β → Prog E α}
      {tr : List (Event E)} {q : Prog E α} :
      Steps n ((body s).bind (again body k)) tr q → Steps (n + 1) (loop body s k) tr q

/-- `p` can go through the events `tr` and is then `q`. -/
def Reach (p : Prog E α) (tr : List (Event E)) (q : Prog E α) : Prop :=
  ∃ n, Steps n p tr q

/-- `tr` is a trace of `p`, finished or not. -/
def Traces (p : Prog E α) (tr : List (Event E)) : Prop :=
  ∃ q, Reach p tr q

/-- `tr` is a trace of `p` at whose end it returns `a`. -/
def Returns (p : Prog E α) (tr : List (Event E)) (a : α) : Prop :=
  Reach p tr (ret a)

theorem Reach.refl {p : Prog E α} : Reach p [] p := ⟨0, .refl⟩

theorem Reach.call {op : E.Op} {k : E.Ans op → Prog E α} {b : E.Ans op}
    {tr : List (Event E)} {q : Prog E α} (h : Reach (k b) tr q) :
    Reach (.call op k) (⟨op, b⟩ :: tr) q := by
  obtain ⟨n, h⟩ := h
  exact ⟨n + 1, .call h⟩

theorem Reach.loop {body : σ → Prog E (σ ⊕ β)} {s : σ} {k : β → Prog E α}
    {tr : List (Event E)} {q : Prog E α} (h : Reach ((body s).bind (again body k)) tr q) :
    Reach (.loop body s k) tr q := by
  obtain ⟨n, h⟩ := h
  exact ⟨n + 1, .loop h⟩

theorem Steps.mono {n m : Nat} {p q : Prog E α} {tr : List (Event E)}
    (h : Steps n p tr q) (hnm : n ≤ m) : Steps m p tr q := by
  induction h generalizing m with
  | refl => exact .refl
  | call _ ih =>
    obtain ⟨m, rfl⟩ : ∃ k, m = k + 1 := ⟨m - 1, by omega⟩
    exact .call (ih (by omega))
  | loop _ ih =>
    obtain ⟨m, rfl⟩ : ∃ k, m = k + 1 := ⟨m - 1, by omega⟩
    exact .loop (ih (by omega))

/-- A trace of `p.bind f` stays inside `p`, or completes `p` and goes on in `f`.
The steps of the second part are counted, for inductions over loops. -/
theorem Steps.bind_inv {n : Nat} {f : α → Prog E β} {tr : List (Event E)} {q : Prog E β} :
    ∀ {p : Prog E α}, Steps n (p.bind f) tr q →
      (∃ p', Steps n p tr p' ∧ q = p'.bind f) ∨
      ∃ t₁ t₂ a m, tr = t₁ ++ t₂ ∧ m ≤ n ∧ Steps n p t₁ (ret a) ∧ Steps m (f a) t₂ q := by
  induction n generalizing tr with
  | zero =>
    intro p h
    cases p with
    | ret a => exact .inr ⟨[], tr, a, 0, rfl, Nat.le_refl _, .refl, h⟩
    | call op k => cases h; exact .inl ⟨_, .refl, rfl⟩
    | loop body s k => cases h; exact .inl ⟨_, .refl, rfl⟩
  | succ n ih =>
    intro p h
    cases p with
    | ret a => exact .inr ⟨[], tr, a, n + 1, rfl, Nat.le_refl _, .refl, h⟩
    | call op k =>
      cases h with
      | refl => exact .inl ⟨_, .refl, rfl⟩
      | call h =>
        rcases ih h with ⟨p', hp, rfl⟩ | ⟨t₁, t₂, a, m, rfl, hm, h₁, h₂⟩
        · exact .inl ⟨p', .call hp, rfl⟩
        · exact .inr ⟨_ :: t₁, t₂, a, m, rfl, by omega, .call h₁, h₂⟩
    | loop body s k =>
      cases h with
      | refl => exact .inl ⟨_, .refl, rfl⟩
      | loop h =>
        -- one round of the loop, then the rest: the same shape one step earlier
        rw [again_bind_fun, ← bind_assoc] at h
        rcases ih h with ⟨p', hp, rfl⟩ | ⟨t₁, t₂, a, m, rfl, hm, h₁, h₂⟩
        · exact .inl ⟨p', .loop hp, rfl⟩
        · exact .inr ⟨t₁, t₂, a, m, rfl, by omega, .loop h₁, h₂⟩

theorem Steps.bind_left {n : Nat} {p p' : Prog E α} {tr : List (Event E)}
    (h : Steps n p tr p') (f : α → Prog E β) : Steps n (p.bind f) tr (p'.bind f) := by
  induction h with
  | refl => exact .refl
  | call _ ih => exact .call ih
  | loop _ ih =>
    refine .loop ?_
    rw [again_bind_fun, ← bind_assoc]
    exact ih

theorem Reach.trans {p q r : Prog E α} {t₁ t₂ : List (Event E)}
    (h₁ : Reach p t₁ q) (h₂ : Reach q t₂ r) : Reach p (t₁ ++ t₂) r := by
  obtain ⟨n, h₁⟩ := h₁
  induction h₁ with
  | refl => exact h₂
  | call _ ih => exact .call (ih h₂)
  | loop _ ih => exact .loop (ih h₂)

/-- One call, answered with `b`. -/
theorem returns_ask {op : E.Op} (b : E.Ans op) : Returns (ask op) [⟨op, b⟩] b := .call .refl

/-- Sequencing completed and partial traces. -/
theorem Reach.bind {p : Prog E α} {f : α → Prog E β} {a : α} {t₁ t₂ : List (Event E)}
    {q : Prog E β} (h₁ : Returns p t₁ a) (h₂ : Reach (f a) t₂ q) :
    Reach (p.bind f) (t₁ ++ t₂) q := by
  obtain ⟨n, h₁⟩ := h₁
  exact Reach.trans ⟨n, h₁.bind_left f⟩ h₂

/-- The trace that only gets as far as `p`. -/
theorem Reach.bind_left {p p' : Prog E α} {tr : List (Event E)} (h : Reach p tr p')
    (f : α → Prog E β) : Reach (p.bind f) tr (p'.bind f) := by
  obtain ⟨n, h⟩ := h
  exact ⟨n, h.bind_left f⟩

theorem reach_bind_iff {p : Prog E α} {f : α → Prog E β} {tr : List (Event E)} {q : Prog E β} :
    Reach (p.bind f) tr q ↔
      (∃ p', Reach p tr p' ∧ q = p'.bind f) ∨
      ∃ t₁ t₂ a, tr = t₁ ++ t₂ ∧ Returns p t₁ a ∧ Reach (f a) t₂ q := by
  constructor
  · rintro ⟨n, h⟩
    rcases h.bind_inv with ⟨p', hp, rfl⟩ | ⟨t₁, t₂, a, m, rfl, -, h₁, h₂⟩
    · exact .inl ⟨p', ⟨n, hp⟩, rfl⟩
    · exact .inr ⟨t₁, t₂, a, rfl, ⟨n, h₁⟩, ⟨m, h₂⟩⟩
  · rintro (⟨p', hp, rfl⟩ | ⟨t₁, t₂, a, rfl, h₁, h₂⟩)
    · exact hp.bind_left f
    · exact Reach.bind h₁ h₂

theorem returns_bind_iff {p : Prog E α} {f : α → Prog E β} {tr : List (Event E)} {b : β} :
    Returns (p.bind f) tr b ↔
      ∃ t₁ t₂ a, tr = t₁ ++ t₂ ∧ Returns p t₁ a ∧ Returns (f a) t₂ b := by
  constructor
  · intro h
    rcases reach_bind_iff.mp h with ⟨p', hp, hq⟩ | h
    · -- only a `ret` can be bound to a `ret` without a further step
      cases p' with
      | ret a => exact ⟨tr, [], a, by simp, hp, by rw [Returns, ← ret_bind a f, ← hq]; exact .refl⟩
      | call op k => cases hq
      | loop body s k => cases hq
    · exact h
  · rintro ⟨t₁, t₂, a, rfl, h₁, h₂⟩
    exact Reach.bind h₁ h₂

theorem returns_call_iff {op : E.Op} {k : E.Ans op → Prog E α} {tr : List (Event E)} {a : α} :
    Returns (call op k) tr a ↔ ∃ b u, tr = ⟨op, b⟩ :: u ∧ Returns (k b) u a := by
  constructor
  · intro h
    obtain ⟨n, h⟩ := h
    cases h with
    | call h => exact ⟨_, _, rfl, _, h⟩
  · intro h
    obtain ⟨b, u, rfl, h⟩ := h
    exact .call h

@[simp] theorem returns_ret_iff {a b : α} {tr : List (Event E)} :
    Returns (ret a : Prog E α) tr b ↔ tr = [] ∧ a = b := by
  constructor
  · rintro ⟨n, h⟩
    cases h
    exact ⟨rfl, rfl⟩
  · rintro ⟨rfl, rfl⟩
    exact .refl

theorem traces_nil (p : Prog E α) : Traces p [] := ⟨p, .refl⟩

theorem Returns.traces {p : Prog E α} {tr : List (Event E)} {a : α} (h : Returns p tr a) :
    Traces p tr := ⟨_, h⟩

@[simp] theorem traces_ret_iff {a : α} {tr : List (Event E)} :
    Traces (ret a : Prog E α) tr ↔ tr = [] := by
  constructor
  · intro h
    obtain ⟨q, n, h⟩ := h
    cases h
    rfl
  · intro h
    exact h ▸ traces_nil _

theorem traces_call_iff {op : E.Op} {k : E.Ans op → Prog E α} {tr : List (Event E)} :
    Traces (call op k) tr ↔ tr = [] ∨ ∃ b u, tr = ⟨op, b⟩ :: u ∧ Traces (k b) u := by
  constructor
  · intro h
    obtain ⟨q, n, h⟩ := h
    cases h with
    | refl => exact .inl rfl
    | call h => exact .inr ⟨_, _, rfl, q, _, h⟩
  · intro h
    rcases h with rfl | ⟨b, u, rfl, q, h⟩
    · exact traces_nil _
    · exact ⟨q, .call h⟩

theorem traces_bind_iff {p : Prog E α} {f : α → Prog E β} {tr : List (Event E)} :
    Traces (p.bind f) tr ↔
      Traces p tr ∨ ∃ t₁ t₂ a, tr = t₁ ++ t₂ ∧ Returns p t₁ a ∧ Traces (f a) t₂ := by
  constructor
  · intro h
    obtain ⟨q, h⟩ := h
    rcases reach_bind_iff.mp h with ⟨p', hp', -⟩ | ⟨t₁, t₂, a, rfl, h₁, h₂⟩
    · exact .inl ⟨p', hp'⟩
    · exact .inr ⟨t₁, t₂, a, rfl, h₁, q, h₂⟩
  · intro h
    rcases h with ⟨p', hp'⟩ | ⟨t₁, t₂, a, rfl, h₁, q, h₂⟩
    · exact ⟨_, hp'.bind_left f⟩
    · exact ⟨q, Reach.bind h₁ h₂⟩

/-- A trace can be cut anywhere. -/
theorem Steps.split {n : Nat} {p q : Prog E α} {t₁ t₂ : List (Event E)}
    (h : Steps n p (t₁ ++ t₂) q) : ∃ r, Reach p t₁ r ∧ Reach r t₂ q := by
  induction n generalizing p t₁ with
  | zero =>
    generalize ht : t₁ ++ t₂ = t at h
    cases h
    obtain ⟨rfl, rfl⟩ := List.append_eq_nil_iff.mp ht
    exact ⟨_, .refl, .refl⟩
  | succ n ih =>
    cases t₁ with
    | nil => exact ⟨p, .refl, ⟨_, h⟩⟩
    | cons e t₁ =>
      generalize ht : e :: t₁ ++ t₂ = t at h
      cases h with
      | refl => cases ht
      | call h =>
        rw [List.cons_append] at ht
        injection ht with he ht
        subst he
        obtain ⟨r, h₁, h₂⟩ := ih (ht ▸ h)
        exact ⟨r, .call h₁, h₂⟩
      | loop h =>
        subst ht
        obtain ⟨r, h₁, h₂⟩ := ih h
        exact ⟨r, .loop h₁, h₂⟩

theorem Traces.cut {p : Prog E α} {t₁ t₂ : List (Event E)} (h : Traces p (t₁ ++ t₂)) :
    Traces p t₁ := by
  obtain ⟨q, n, h⟩ := h
  obtain ⟨r, h₁, -⟩ := h.split
  exact ⟨r, h₁⟩

/-- Before the last event of a trace the program stood at its call. -/
theorem Traces.before {p : Prog E α} {h : List (Event E)} {e : Event E} (ht : Traces p (h ++ [e])) :
    ∃ k, Reach p h (.call e.1 k) := by
  obtain ⟨q, n, hs⟩ := ht
  obtain ⟨r, hr, m, hm⟩ := hs.split
  generalize ht : [e] = t at hm
  have hcall : ∃ k, Reach r [] (.call e.1 k) := by
    clear hr hs
    induction hm with
    | refl => cases ht
    | call _ _ =>
      cases ht
      exact ⟨_, .refl⟩
    | loop _ ih =>
      obtain ⟨k, hk⟩ := ih ht
      exact ⟨k, .loop hk⟩
  obtain ⟨k, hk⟩ := hcall
  have hall := hr.trans hk
  rw [List.append_nil] at hall
  exact ⟨k, hall⟩

/-! ## Answers determine what happens -/

/-- A program that has returned, or whose next step is a call. -/
def Settled : Prog E α → Prop
  | loop .. => False
  | _ => True

/-- A trace leads to one place, up to loops yet to be unfolded. -/
theorem Steps.det {n : Nat} {p q₁ : Prog E α} {tr : List (Event E)} (h₁ : Steps n p tr q₁) :
    ∀ {m : Nat} {q₂ : Prog E α}, Steps m p tr q₂ → q₁.Settled → q₂.Settled → q₁ = q₂ := by
  induction h₁ with
  | @refl n p =>
    intro m q₂ h₂ hs₁ hs₂
    cases p with
    | ret a => cases h₂; rfl
    | call op k => cases h₂; rfl
    | loop body s k => exact hs₁.elim
  | call _ ih =>
    intro m q₂ h₂ hs₁ hs₂
    cases h₂ with
    | call h₂ => exact ih h₂ hs₁ hs₂
  | loop _ ih =>
    intro m q₂ h₂ hs₁ hs₂
    cases h₂ with
    | refl => exact hs₂.elim
    | loop h₂ => exact ih h₂ hs₁ hs₂

theorem Reach.det {p q₁ q₂ : Prog E α} {tr : List (Event E)} (h₁ : Reach p tr q₁)
    (h₂ : Reach p tr q₂) (hs₁ : q₁.Settled) (hs₂ : q₂.Settled) : q₁ = q₂ := by
  obtain ⟨n, h₁⟩ := h₁
  obtain ⟨m, h₂⟩ := h₂
  exact h₁.det h₂ hs₁ hs₂

/-- A program returns one thing. -/
theorem Returns.det {p : Prog E α} {tr : List (Event E)} {a b : α} (h₁ : Returns p tr a)
    (h₂ : Returns p tr b) : a = b := by
  injection Reach.det h₁ h₂ trivial trivial

/-- A program that has returned makes no further call. -/
theorem Returns.stops {p : Prog E α} {tr : List (Event E)} {a : α} {e : Event E}
    (h₁ : Returns p tr a) (h₂ : Traces p (tr ++ [e])) : False := by
  obtain ⟨k, hk⟩ := h₂.before
  cases Reach.det h₁ hk trivial trivial

/-- After the same events a program makes the same call. -/
theorem Traces.same_call {p : Prog E α} {tr : List (Event E)} {e₁ e₂ : Event E}
    (h₁ : Traces p (tr ++ [e₁])) (h₂ : Traces p (tr ++ [e₂])) : e₁.1 = e₂.1 := by
  obtain ⟨k₁, hk₁⟩ := h₁.before
  obtain ⟨k₂, hk₂⟩ := h₂.before
  injection Reach.det hk₁ hk₂ trivial trivial

/-! ## Following a given trace -/

/-- Follow the events `tr` through `p`, unfolding at most `n` calls and loops. -/
def follow [DecidableEq E.Op] : {α : Type} → Nat → Prog E α → List (Event E) → Option (Prog E α)
  | _, 0, p, [] => some p
  | _, 0, _, _ :: _ => none
  | _, _ + 1, ret a, [] => some (ret a)
  | _, _ + 1, ret _, _ :: _ => none
  | _, _ + 1, call op k, [] => some (call op k)
  | _, n + 1, call op k, e :: tr => if h : e.1 = op then follow n (k (h ▸ e.2)) tr else none
  | _, n + 1, loop body s k, tr => follow n ((body s).bind (again body k)) tr

theorem follow_steps [DecidableEq E.Op] {n : Nat} {p q : Prog E α} {tr : List (Event E)}
    (h : follow n p tr = some q) : Steps n p tr q := by
  induction n generalizing p tr with
  | zero =>
    cases tr with
    | nil => simp only [follow, Option.some.injEq] at h; subst h; exact .refl
    | cons e tr => simp [follow] at h
  | succ n ih =>
    cases p with
    | ret a =>
      cases tr with
      | nil => simp only [follow, Option.some.injEq] at h; subst h; exact .refl
      | cons e tr => simp [follow] at h
    | call op k =>
      cases tr with
      | nil => simp only [follow, Option.some.injEq] at h; subst h; exact .refl
      | cons e tr =>
        obtain ⟨op', b⟩ := e
        simp only [follow] at h
        split at h
        next he => subst he; exact .call (ih h)
        next => simp at h
    | loop body s k => exact .loop (ih h)

/-- A trace that `follow` accepts is one. -/
theorem traces_of_follow [DecidableEq E.Op] {p : Prog E α} {tr : List (Event E)} (n : Nat)
    (h : (follow n p tr).isSome = true) : Traces p tr := by
  obtain ⟨q, hq⟩ := Option.isSome_iff_exists.mp h
  exact ⟨q, n, follow_steps hq⟩

/-- What a program has returned, if it has. -/
def result? : Prog E α → Option α
  | ret a => some a
  | _ => none

theorem returns_of_follow [DecidableEq E.Op] {p : Prog E α} {tr : List (Event E)} {a : α} (n : Nat)
    (h : (follow n p tr).bind result? = some a) : Returns p tr a := by
  obtain ⟨q, hq, hr⟩ := Option.bind_eq_some_iff.mp h
  cases q with
  | ret b =>
    simp only [result?, Option.some.injEq] at hr
    subst hr
    exact ⟨n, follow_steps hq⟩
  | call op k => simp [result?] at hr
  | loop body s k => simp [result?] at hr

/-! ## Which calls a program makes -/

/-- Every call in `p`, whatever the answers, satisfies `A`. -/
def AllCalls (A : E.Op → Prop) : {α : Type} → Prog E α → Prop
  | _, ret _ => True
  | _, call op k => A op ∧ ∀ b, AllCalls A (k b)
  | _, loop body _ k => (∀ s, AllCalls A (body s)) ∧ ∀ b, AllCalls A (k b)

theorem allCalls_ret {A : E.Op → Prop} (a : α) : AllCalls A (ret a : Prog E α) := trivial

theorem AllCalls.bind {A : E.Op → Prop} {p : Prog E α} {f : α → Prog E β}
    (hp : AllCalls A p) (hf : ∀ a, AllCalls A (f a)) : AllCalls A (p.bind f) := by
  induction p with
  | ret a => exact hf a
  | call op k ih => exact ⟨hp.1, fun b => ih b (hp.2 b) hf⟩
  | loop body s k _ ih => exact ⟨hp.1, fun b => ih b (hp.2 b) hf⟩

theorem AllCalls.mono {A B : E.Op → Prop} {p : Prog E α} (h : AllCalls A p)
    (hAB : ∀ op, A op → B op) : AllCalls B p := by
  induction p with
  | ret a => trivial
  | call op k ih => exact ⟨hAB op h.1, fun b => ih b (h.2 b)⟩
  | loop body s k ihb ih => exact ⟨fun s => ihb s (h.1 s), fun b => ih b (h.2 b)⟩

theorem allCalls_any (p : Prog E α) : AllCalls (fun _ => True) p := by
  induction p with
  | ret a => trivial
  | call op k ih => exact ⟨trivial, ih⟩
  | loop body s k ihb ih => exact ⟨ihb, ih⟩

theorem AllCalls.steps {A : E.Op → Prop} {n : Nat} {p q : Prog E α} {tr : List (Event E)}
    (hp : AllCalls A p) (h : Steps n p tr q) : AllCalls A q ∧ ∀ e ∈ tr, A e.1 := by
  induction h with
  | refl => exact ⟨hp, fun e he => absurd he (by simp)⟩
  | call _ ih =>
    obtain ⟨hq, htr⟩ := ih (hp.2 _)
    refine ⟨hq, fun e he => ?_⟩
    rcases List.mem_cons.mp he with rfl | he
    · exact hp.1
    · exact htr e he
  | loop _ ih =>
    refine ih (AllCalls.bind (hp.1 _) fun r => ?_)
    cases r with
    | inl s => exact hp
    | inr b => exact hp.2 b

/-- The events of a trace are the program's calls. -/
theorem AllCalls.traces {A : E.Op → Prop} {p : Prog E α} {tr : List (Event E)}
    (hp : AllCalls A p) (h : Traces p tr) : ∀ e ∈ tr, A e.1 := by
  obtain ⟨q, n, h⟩ := h
  exact (hp.steps h).2

end Prog

/-! ## Programs that may fail -/

/-- Programs that return an `α` or fail with an `ε`. -/
structure Try (E : Sig) (ε α : Type) : Type 1 where
  run : Prog E (Except ε α)

namespace Try

open Prog

variable {E : Sig} {ε ε' α β σ : Type}

/-- What comes after a program that may fail: nothing, if it failed. -/
def next (f : α → Prog E (Except ε β)) : Except ε α → Prog E (Except ε β)
  | .ok a => f a
  | .error e => .ret (.error e)

instance : Monad (Try E ε) where
  pure a := ⟨.ret (.ok a)⟩
  bind p f := ⟨p.run.bind (next fun a => (f a).run)⟩

/-- Fail. -/
def fail (e : ε) : Try E ε α := ⟨.ret (.error e)⟩

/-- A value that is already known, or not. -/
def ofExcept (r : Except ε α) : Try E ε α := ⟨.ret r⟩

/-- A program that cannot fail. -/
def lift (p : Prog E α) : Try E ε α := ⟨p.bind fun a => .ret (.ok a)⟩

/-- Look at the outcome of `p` instead of failing with it. -/
def attempt (p : Try E ε α) : Try E ε' (Except ε α) := ⟨p.run.bind fun r => .ret (.ok r)⟩

/-- Rewrite the failure of `p`. -/
def mapErr (p : Try E ε α) (f : ε → ε') : Try E ε' α := ⟨p.run.bind fun r => .ret (r.mapError f)⟩

/-- What a round of a loop that may fail leaves to the loop. -/
def round : Except ε (σ ⊕ β) → Prog E (σ ⊕ Except ε β)
  | .ok (.inl s) => .ret (.inl s)
  | .ok (.inr b) => .ret (.inr (.ok b))
  | .error e => .ret (.inr (.error e))

/-- A loop whose body may fail, and then ends the loop with its failure. -/
def repeating (body : σ → Try E ε (σ ⊕ β)) (s : σ) : Try E ε β :=
  ⟨.loop (fun s => (body s).run.bind round) s .ret⟩

/-- Run `after` on every way out of `p`. -/
def ensuring (p : Try E ε α) (after : Prog E Unit) : Try E ε α :=
  ⟨p.run.bind fun r => after.bind fun _ => .ret r⟩

@[simp] theorem run_pure (a : α) : (pure a : Try E ε α).run = .ret (.ok a) := rfl

@[simp] theorem run_bind (p : Try E ε α) (f : α → Try E ε β) :
    (p >>= f).run = p.run.bind (next fun a => (f a).run) := rfl

@[simp] theorem run_fail (e : ε) : (fail e : Try E ε α).run = .ret (.error e) := rfl

@[simp] theorem run_ofExcept (r : Except ε α) : (ofExcept r : Try E ε α).run = .ret r := rfl

@[simp] theorem run_lift (p : Prog E α) :
    (lift p : Try E ε α).run = p.bind fun a => .ret (.ok a) := rfl

@[simp] theorem run_attempt (p : Try E ε α) :
    (p.attempt : Try E ε' (Except ε α)).run = p.run.bind fun r => .ret (.ok r) := rfl

@[simp] theorem run_mapErr (p : Try E ε α) (f : ε → ε') :
    (p.mapErr f).run = p.run.bind fun r => .ret (r.mapError f) := rfl

@[simp] theorem run_ensuring (p : Try E ε α) (after : Prog E Unit) :
    (p.ensuring after).run = p.run.bind fun r => after.bind fun _ => .ret r := rfl

@[simp] theorem run_ite (c : Prop) [Decidable c] (p q : Try E ε α) :
    (if c then p else q).run = if c then p.run else q.run := by
  split <;> rfl

section Calls

variable {A : E.Op → Prop} {p : Try E ε α} {f : α → Try E ε β}

theorem allCalls_bind (hp : AllCalls A p.run) (hf : ∀ a, AllCalls A (f a).run) :
    AllCalls A (p >>= f).run :=
  hp.bind fun r => by
    cases r with
    | ok a => exact hf a
    | error e => trivial

theorem allCalls_mapErr {g : ε → ε'} (hp : AllCalls A p.run) : AllCalls A (p.mapErr g).run :=
  hp.bind fun _ => trivial

theorem allCalls_attempt (hp : AllCalls A p.run) :
    AllCalls A (p.attempt : Try E ε' (Except ε α)).run :=
  hp.bind fun _ => trivial

theorem allCalls_lift {q : Prog E α} (hq : AllCalls A q) : AllCalls A (lift q : Try E ε α).run :=
  hq.bind fun _ => trivial

end Calls

section Returning

variable {p : Try E ε α} {f : α → Try E ε β} {t u : List (Event E)} {a : α} {e : ε}

theorem returns_bind {r : Except ε β} (hp : Returns p.run t (.ok a))
    (hf : Returns (f a).run u r) : Returns (p >>= f).run (t ++ u) r :=
  Reach.bind hp hf

/-- After a failure nothing more is done. -/
theorem returns_bind_error (hp : Returns p.run t (.error e)) :
    Returns (p >>= f).run t (.error e) := by
  have h : Returns (p >>= f).run (t ++ []) (.error e) := Reach.bind hp .refl
  rwa [List.append_nil] at h

theorem returns_lift {q : Prog E α} (hq : Returns q t a) :
    Returns (lift q : Try E ε α).run t (.ok a) := by
  have h : Returns (lift q : Try E ε α).run (t ++ []) (.ok a) := Reach.bind hq .refl
  rwa [List.append_nil] at h

theorem returns_attempt {r : Except ε α} (hp : Returns p.run t r) :
    Returns (p.attempt : Try E ε' (Except ε α)).run t (.ok r) := by
  have h : Returns (p.attempt : Try E ε' (Except ε α)).run (t ++ []) (.ok r) := Reach.bind hp .refl
  rwa [List.append_nil] at h

theorem returns_bind_iff {r : Except ε β} :
    Returns (p >>= f).run t r ↔
      (∃ e, r = .error e ∧ Returns p.run t (.error e)) ∨
      ∃ u v a, t = u ++ v ∧ Returns p.run u (.ok a) ∧ Returns (f a).run v r := by
  constructor
  · intro h
    obtain ⟨u, v, r', rfl, h₁, h₂⟩ := Prog.returns_bind_iff.mp h
    cases r' with
    | ok a => exact .inr ⟨u, v, a, rfl, h₁, h₂⟩
    | error e =>
      obtain ⟨rfl, rfl⟩ := returns_ret_iff.mp h₂
      rw [List.append_nil]
      exact .inl ⟨e, rfl, h₁⟩
  · intro h
    rcases h with ⟨e, rfl, h⟩ | ⟨u, v, a, rfl, h₁, h₂⟩
    · exact returns_bind_error h
    · exact returns_bind h₁ h₂

theorem returns_bind_ok {b : β} (h : Returns (p >>= f).run t (.ok b)) :
    ∃ u v a, t = u ++ v ∧ Returns p.run u (.ok a) ∧ Returns (f a).run v (.ok b) := by
  rcases returns_bind_iff.mp h with ⟨e, he, -⟩ | h
  · cases he
  · exact h

/-- An attempt does not fail, and it returns what came of it. -/
theorem returns_attempt_iff {r : Except ε α} :
    Returns (p.attempt : Try E ε' (Except ε α)).run t (.ok r) ↔ Returns p.run t r := by
  constructor
  · intro h
    obtain ⟨u, v, r', rfl, h₁, h₂⟩ := Prog.returns_bind_iff.mp h
    obtain ⟨rfl, hr⟩ := returns_ret_iff.mp h₂
    injection hr with hr
    rw [List.append_nil]
    exact hr ▸ h₁
  · exact returns_attempt

theorem returns_attempt_error {e : ε'} :
    ¬ Returns (p.attempt : Try E ε' (Except ε α)).run t (.error e) := by
  intro h
  obtain ⟨u, v, r', rfl, h₁, h₂⟩ := Prog.returns_bind_iff.mp h
  cases (returns_ret_iff.mp h₂).2

theorem returns_lift_iff {q : Prog E α} :
    Returns (lift q : Try E ε α).run t (.ok a) ↔ Returns q t a := by
  constructor
  · intro h
    obtain ⟨u, v, a', rfl, h₁, h₂⟩ := Prog.returns_bind_iff.mp h
    obtain ⟨rfl, ha⟩ := returns_ret_iff.mp h₂
    injection ha with ha
    rw [List.append_nil]
    exact ha ▸ h₁
  · exact returns_lift

end Returning

section Failing

variable {P : ε → Prop} {p : Try E ε α} {f : α → Try E ε β}

/-- Whatever `p` fails with, `P` holds of it. -/
def Fails (P : ε → Prop) (p : Try E ε α) : Prop :=
  ∀ {t : List (Event E)} {e : ε}, Returns p.run t (.error e) → P e

theorem fails_pure (a : α) : Fails P (pure a : Try E ε α) := by
  intro t e h
  obtain ⟨-, h⟩ := returns_ret_iff.mp h
  cases h

theorem fails_fail {e : ε} (he : P e) : Fails P (fail e : Try E ε α) := by
  intro t e' h
  obtain ⟨-, h⟩ := returns_ret_iff.mp h
  injection h with h
  exact h ▸ he

theorem fails_ofExcept {r : Except ε α} (hr : ∀ e, r = .error e → P e) :
    Fails P (ofExcept r : Try E ε α) := by
  intro t e h
  exact hr e (returns_ret_iff.mp h).2

theorem fails_bind (hp : Fails P p) (hf : ∀ a, Fails P (f a)) : Fails P (p >>= f) := by
  intro t e h
  rcases returns_bind_iff.mp h with ⟨e', he, h⟩ | ⟨u, v, a, -, -, h⟩
  · injection he with he
    exact he ▸ hp h
  · exact hf a h

theorem fails_mapErr {p : Try E ε' α} {g : ε' → ε} (hg : ∀ e, P (g e)) :
    Fails P (p.mapErr g) := by
  intro t e h
  obtain ⟨u, v, r, -, -, h⟩ := Prog.returns_bind_iff.mp h
  obtain ⟨-, h⟩ := returns_ret_iff.mp h
  cases r with
  | ok a => cases h
  | error e' =>
    injection h with h
    exact h ▸ hg e'

theorem fails_ensuring {q : Prog E Unit} (hp : Fails P p) : Fails P (p.ensuring q) := by
  intro t e h
  obtain ⟨_, _, r, -, h₁, h⟩ := Prog.returns_bind_iff.mp h
  obtain ⟨_, _, _, -, -, h⟩ := Prog.returns_bind_iff.mp h
  obtain ⟨-, h⟩ := returns_ret_iff.mp h
  exact hp (h ▸ h₁)

end Failing

@[simp] theorem next_ok (f : α → Prog E (Except ε β)) (a : α) : next f (.ok a) = f a := rfl

@[simp] theorem next_error (f : α → Prog E (Except ε β)) (e : ε) :
    next f (.error e) = .ret (.error e) := rfl

end Try

end Effects
