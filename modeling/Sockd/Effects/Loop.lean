import Sockd.Effects.Prog

/-!
# The traces of a loop

A trace of a loop is that of some rounds which went on (`Rounds`), and then of a last round
that has not come to its end, or of one that left the loop and of what follows
(`traces_loop`, `returns_loop`). When the body is `Straight`, without loops of its own, a
round that was begun can be finished, so its trace is the beginning of one that the rules for
`Returns` describe (`Straight.completes`).
-/

namespace Effects

namespace Prog

variable {E : Sig} {α β σ : Type}

/-! ## Rounds -/

/-- Rounds of a loop that went on, from one state to another. -/
inductive Rounds (body : σ → Prog E (σ ⊕ β)) : σ → List (Event E) → σ → Prop
  | nil (x : σ) : Rounds body x [] x
  | cons {x y z : σ} {t u : List (Event E)} :
      Returns (body x) t (.inl y) → Rounds body y u z → Rounds body x (t ++ u) z

section Rounds

variable {body : σ → Prog E (σ ⊕ β)} {k : β → Prog E α} {x : σ} {tr : List (Event E)}

/-- Where a program stands after some steps of a loop: at the head of a round, inside of one,
or behind the loop. -/
theorem Steps.loop_inv {n : Nat} {q : Prog E α} (h : Steps n (.loop body x k) tr q) :
    (∃ y, Rounds body x tr y ∧ q = .loop body y k) ∨
      (∃ y t u p, Rounds body x t y ∧ Reach (body y) u p ∧ q = p.bind (again body k) ∧
        tr = t ++ u) ∨
      ∃ y t u b v, Rounds body x t y ∧ Returns (body y) u (.inr b) ∧ Reach (k b) v q ∧
        tr = t ++ (u ++ v) := by
  induction n using Nat.strongRecOn generalizing x tr with
  | _ n ih =>
    cases h with
    | refl => exact .inl ⟨x, .nil x, rfl⟩
    | @loop _ _ m _ _ _ _ _ h =>
      rcases h.bind_inv with ⟨p, hp, rfl⟩ | ⟨t, u, r, j, rfl, hj, hround, hrest⟩
      · exact .inr (.inl ⟨x, [], tr, p, .nil x, ⟨m, hp⟩, rfl, rfl⟩)
      · cases r with
        | inr b => exact .inr (.inr ⟨x, [], t, b, u, .nil x, ⟨m, hround⟩, ⟨j, hrest⟩, rfl⟩)
        | inl y =>
          have hone : Returns (body x) t (.inl y) := ⟨m, hround⟩
          rcases ih j (by omega) hrest with
            ⟨z, hz, rfl⟩ | ⟨z, t', u', p, hz, hp, rfl, rfl⟩ | ⟨z, t', u', b, v, hz, hb, hq, rfl⟩
          · exact .inl ⟨z, .cons hone hz, rfl⟩
          · exact .inr (.inl ⟨z, _, u', p, .cons hone hz, hp, rfl, (List.append_assoc ..).symm⟩)
          · exact .inr (.inr ⟨z, _, u', b, v, .cons hone hz, hb, hq, (List.append_assoc ..).symm⟩)

/-- A loop that returns: rounds that went on, one that left it, and what came after. -/
theorem returns_loop {a : α} (h : Returns (.loop body x k) tr a) :
    ∃ y t u b v, Rounds body x t y ∧ Returns (body y) u (.inr b) ∧ Returns (k b) v a ∧
      tr = t ++ (u ++ v) := by
  obtain ⟨n, h⟩ := h
  rcases h.loop_inv with ⟨y, -, hq⟩ | ⟨y, t, u, p, hy, hp, hq, rfl⟩ | hleft
  · cases hq
  · cases p with
    | call op k => cases hq
    | loop body x k => cases hq
    | ret r =>
      cases r with
      | inl z => cases hq
      | inr b =>
        have hk : Returns (k b) [] a := by
          rw [Returns, hq]
          exact .refl
        exact ⟨y, t, u, b, [], hy, hp, hk, by rw [List.append_nil]⟩
  · exact hleft

end Rounds

/-! ## Straight programs -/

/-- A program without loops, each of whose calls has an answer. -/
def Straight : {α : Type} → Prog E α → Prop
  | _, ret _ => True
  | _, call op k => Nonempty (E.Ans op) ∧ ∀ b, Straight (k b)
  | _, loop .. => False

theorem Straight.bind {p : Prog E α} {f : α → Prog E β} (hp : Straight p)
    (hf : ∀ a, Straight (f a)) : Straight (p.bind f) := by
  induction p with
  | ret a => exact hf a
  | call op k ih => exact ⟨hp.1, fun b => ih b (hp.2 b) hf⟩
  | loop => exact hp.elim

/-- A straight program comes to its end. -/
theorem Straight.returns {p : Prog E α} (hp : Straight p) : ∃ tr a, Returns p tr a := by
  induction p with
  | ret a => exact ⟨[], a, .refl⟩
  | call op k ih =>
    obtain ⟨b⟩ := hp.1
    obtain ⟨tr, a, h⟩ := ih b (hp.2 b)
    exact ⟨_, a, h.call⟩
  | loop => exact hp.elim

theorem Straight.reach {p q : Prog E α} {tr : List (Event E)} (hp : Straight p)
    (h : Reach p tr q) : Straight q := by
  obtain ⟨n, h⟩ := h
  induction h with
  | refl => exact hp
  | call _ ih => exact ih (hp.2 _)
  | loop => exact hp.elim

/-- What was begun can be finished. -/
theorem Straight.completes {p : Prog E α} {tr : List (Event E)} (hp : Straight p)
    (h : Traces p tr) : ∃ rest a, Returns p (tr ++ rest) a := by
  obtain ⟨q, hq⟩ := h
  obtain ⟨rest, a, h⟩ := (hp.reach hq).returns
  exact ⟨rest, a, hq.trans h⟩

end Prog

end Effects
