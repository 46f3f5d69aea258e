import Mathlib.Data.List.Nodup
import Mathlib.Logic.Function.Basic

/-!
# The heap of a C program

Blocks are allocated and freed by their address. Which address a new block gets is up to the
allocator, any that is not in use, so that the address of a freed block can come back.

A program that owns blocks knows each by its address and by what it may do with it. `Owns`
says that it knows just the blocks in use, each once, and the rules below say what keeps
it so: it may only give up what it owns.
-/

namespace C

variable {α β : Type}

/-- A heap; finitely many blocks are in use. -/
structure Heap (α : Type) where
  block : Nat → Option α
  top : Nat
  above : ∀ p, top ≤ p → block p = none

/-- Where new blocks go. -/
structure Allocator (α : Type) where
  address : Heap α → α → Nat
  unused : ∀ (h : Heap α) (a : α), h.block (address h a) = none

/-- An allocator that never uses an address twice in a row of allocations. -/
def Allocator.upward (α : Type) : Allocator α where
  address h _ := h.top
  unused h _ := h.above h.top (Nat.le_refl _)

namespace Heap

/-- No block is in use. -/
def empty : Heap α := ⟨fun _ => none, 0, fun _ _ => rfl⟩

/-- Put a block, or none, at an address. -/
def set (h : Heap α) (p : Nat) (a : Option α) : Heap α where
  block := Function.update h.block p a
  top := max h.top (p + 1)
  above q hq := by
    rw [Function.update_of_ne (by omega)]
    exact h.above q (by omega)

/-- A new block: its address and the heap with it. -/
def alloc (h : Heap α) (A : Allocator α) (a : α) : Nat × Heap α :=
  (A.address h a, h.set (A.address h a) (some a))

/-- The heap without the block. -/
def free (h : Heap α) (p : Nat) : Heap α := h.set p none

@[simp] theorem block_empty (p : Nat) : (empty : Heap α).block p = none := rfl

@[simp] theorem block_set_self (h : Heap α) (p : Nat) (a : Option α) : (h.set p a).block p = a := by
  show Function.update h.block p a p = a
  rw [Function.update_self]

theorem block_set_of_ne (h : Heap α) {p q : Nat} (hne : q ≠ p) (a : Option α) :
    (h.set p a).block q = h.block q := by
  show Function.update h.block p a q = h.block q
  rw [Function.update_of_ne hne]

/-- A block that is in use is still there after an allocation. -/
theorem block_alloc_of_some (h : Heap α) (A : Allocator α) (a : α) {p : Nat} {b : α}
    (hp : h.block p = some b) : (h.alloc A a).2.block p = some b := by
  have hne : p ≠ A.address h a := by
    intro he
    rw [he, A.unused] at hp
    cases hp
  exact (h.block_set_of_ne hne _).trans hp

@[simp] theorem block_alloc_self (h : Heap α) (A : Allocator α) (a : α) :
    (h.alloc A a).2.block (h.alloc A a).1 = some a := h.block_set_self _ _

end Heap

/-! ## Ownership -/

/-- The owned blocks are just those in use, each known once, by its address and its kind. -/
structure Owns (h : Heap α) (kind : α → β) (owned : List (Nat × β)) : Prop where
  once : (owned.map Prod.fst).Nodup
  mem_iff : ∀ x : Nat × β, x ∈ owned ↔ (h.block x.1).map kind = some x.2

namespace Owns

variable {h : Heap α} {kind : α → β} {owned : List (Nat × β)}

theorem empty : Owns (Heap.empty : Heap α) kind [] :=
  ⟨List.nodup_nil, fun x => by simp⟩

/-- What is owned is in use, as what it is. -/
theorem block (ho : Owns h kind owned) {p : Nat} {b : β} (hp : (p, b) ∈ owned) :
    ∃ a, h.block p = some a ∧ kind a = b := by
  obtain ⟨a, ha, hb⟩ := Option.map_eq_some_iff.mp ((ho.mem_iff (p, b)).mp hp)
  exact ⟨a, ha, hb⟩

/-- When nothing is owned, no block is in use. -/
theorem block_eq_none (ho : Owns h kind []) (p : Nat) : h.block p = none := by
  cases hp : h.block p with
  | none => rfl
  | some a =>
    have hmem := (ho.mem_iff (p, kind a)).mpr (by rw [hp, Option.map_some])
    cases hmem

theorem alloc (ho : Owns h kind owned) (A : Allocator α) (a : α) :
    Owns (h.alloc A a).2 kind (((h.alloc A a).1, kind a) :: owned) := by
  have hnew : ∀ b, (A.address h a, b) ∉ owned := by
    intro b hb
    have hused := (ho.mem_iff _).mp hb
    rw [A.unused] at hused
    cases hused
  refine ⟨?_, ?_⟩
  · rw [List.map_cons, List.nodup_cons]
    refine ⟨fun hmem => ?_, ho.once⟩
    obtain ⟨x, hx, hfst⟩ := List.mem_map.mp hmem
    refine hnew x.2 ?_
    rwa [show (A.address h a, x.2) = x from Prod.ext hfst.symm rfl]
  · rintro ⟨p, b⟩
    rw [List.mem_cons]
    by_cases hp : p = A.address h a
    · subst hp
      rw [Heap.alloc, Heap.block_set_self, Option.map_some]
      constructor
      · rintro (he | hold)
        · rw [(Prod.mk.inj he).2]
        · exact absurd hold (hnew b)
      · intro he
        exact .inl (Prod.ext rfl (Option.some.inj he).symm)
    · rw [Heap.alloc, Heap.block_set_of_ne _ hp, ← ho.mem_iff (p, b)]
      refine ⟨fun hmem => hmem.resolve_left fun he => hp (Prod.mk.inj he).1, .inr⟩

/-- A block of the same kind in its place. -/
theorem write (ho : Owns h kind owned) {p : Nat} {a : α} (hp : (p, kind a) ∈ owned) :
    Owns (h.set p (some a)) kind owned := by
  refine ⟨ho.once, ?_⟩
  rintro ⟨q, b⟩
  rw [ho.mem_iff]
  by_cases hq : q = p
  · subst hq
    rw [Heap.block_set_self, (ho.mem_iff _).mp hp, Option.map_some]
  · rw [Heap.block_set_of_ne _ hq]

/-- Giving up a block that is owned. -/
theorem free [DecidableEq β] (ho : Owns h kind owned) {x : Nat × β} (hx : x ∈ owned) :
    Owns (h.free x.1) kind (owned.erase x) := by
  have hnodup : owned.Nodup := ho.once.of_map
  have hsame : ∀ y ∈ owned, y.1 = x.1 → y = x := by
    intro y hy hfst
    have hyb := (ho.mem_iff y).mp hy
    rw [hfst, (ho.mem_iff x).mp hx] at hyb
    exact Prod.ext hfst (Option.some.inj hyb).symm
  refine ⟨ho.once.sublist (List.erase_sublist.map Prod.fst), ?_⟩
  intro y
  rw [hnodup.mem_erase_iff]
  by_cases hy : y.1 = x.1
  · rw [hy, Heap.free, Heap.block_set_self, Option.map_none]
    exact iff_of_false (fun h => h.1 (hsame y h.2 hy)) nofun
  · rw [Heap.free, Heap.block_set_of_ne _ hy, ← ho.mem_iff]
    exact and_iff_right fun he => hy (congrArg Prod.fst he)

end Owns

end C
