import Mathlib.Data.Finset.Prod
import Mathlib.Data.Finset.Card
import Mathlib.Data.List.Infix

/-!
# What follows a word

How many letters can follow a word `u` somewhere in a list `w`. Those that do not occur in
`u` themselves follow it in places that do not overlap, so there are at most
`w.length / (u.length + 1)` of them (`card_mul_le`). In a list that is short against the
alphabet some letter therefore never follows the end of the list before
(`exists_not_following`).
-/

namespace Followers

variable {α : Type} {u w : List α}

/-- A place where a word occurs. -/
theorem exists_place {v : List α} (h : v <:+: w) : ∃ i, ∀ t < v.length, w[i + t]? = v[t]? := by
  obtain ⟨a, b, rfl⟩ := h
  refine ⟨a.length, fun t ht => ?_⟩
  rw [List.append_assoc, List.getElem?_append_right (Nat.le_add_right _ _), Nat.add_sub_cancel_left,
    List.getElem?_append_left ht]

/-- Letters that follow `u` and are not in `u` follow it in places apart. -/
theorem card_mul_le {S : Finset α} (hS : ∀ c ∈ S, u ++ [c] <:+: w) (hnot : ∀ c ∈ S, c ∉ u) :
    S.card * (u.length + 1) ≤ w.length := by
  have hplace : ∀ c, ∃ i, c ∈ S → ∀ t < u.length + 1, w[i + t]? = (u ++ [c])[t]? := by
    intro c
    by_cases hc : c ∈ S
    · obtain ⟨i, hi⟩ := exists_place (hS c hc)
      rw [List.length_append, List.length_singleton] at hi
      exact ⟨i, fun _ => hi⟩
    · exact ⟨0, fun hc' => absurd hc' hc⟩
  choose place hplace using hplace
  have hlast : ∀ c ∈ S, w[place c + u.length]? = some c := by
    intro c hc
    rw [hplace c hc u.length (Nat.lt_succ_self _),
      List.getElem?_append_right (Nat.le_refl _), Nat.sub_self]
    rfl
  -- the letter after the first place would be one of the word at the second
  have hapart : ∀ c ∈ S, ∀ d ∈ S, place c < place d → place c + u.length < place d := by
    intro c hc d hd hlt
    by_contra hnear
    obtain ⟨t, ht⟩ : ∃ t, place c + u.length = place d + t :=
      Nat.exists_eq_add_of_le (Nat.le_of_not_lt hnear)
    have hat := hplace d hd t (by omega)
    rw [← ht, hlast c hc, List.getElem?_append_left (by omega)] at hat
    exact hnot c hc (List.mem_of_getElem? hat.symm)
  have hmap : Set.MapsTo (fun x : α × Nat => place x.1 + x.2)
      (S ×ˢ Finset.range (u.length + 1) : Finset (α × Nat)) (Finset.range w.length) := by
    intro x hx
    obtain ⟨hc, ht⟩ := Finset.mem_product.mp hx
    have hlt := (List.getElem?_eq_some_iff.mp (hlast x.1 hc)).1
    have ht := Finset.mem_range.mp ht
    have hin : place x.1 + x.2 < w.length := by omega
    exact Finset.mem_coe.mpr (Finset.mem_range.mpr hin)
  have hinj : Set.InjOn (fun x : α × Nat => place x.1 + x.2)
      (S ×ˢ Finset.range (u.length + 1) : Finset (α × Nat)) := by
    intro x hx y hy hxy
    obtain ⟨hx, htx⟩ := Finset.mem_product.mp (Finset.mem_coe.mp hx)
    obtain ⟨hy, hty⟩ := Finset.mem_product.mp (Finset.mem_coe.mp hy)
    have htx := Finset.mem_range.mp htx
    have hty := Finset.mem_range.mp hty
    have hxy : place x.1 + x.2 = place y.1 + y.2 := hxy
    have hsame : place x.1 = place y.1 := by
      rcases lt_trichotomy (place x.1) (place y.1) with hlt | heq | hlt
      · have := hapart x.1 hx y.1 hy hlt
        omega
      · exact heq
      · have := hapart y.1 hy x.1 hx hlt
        omega
    have hletter := hlast x.1 hx
    rw [hsame, hlast y.1 hy] at hletter
    exact Prod.ext (Option.some.inj hletter).symm (by omega)
  have hcard := Finset.card_le_card_of_injOn _ hmap hinj
  rw [Finset.card_product, Finset.card_range, Finset.card_range] at hcard
  exact hcard

/-- Some letter of a large alphabet does not follow the last `k` letters of the list
anywhere in it. -/
theorem exists_not_following [DecidableEq α] (S : Finset α) (w : List α) (k : Nat)
    (hk : k < S.card) (hw : w.length < (S.card - k) * (k + 1)) :
    ∃ c ∈ S, ∃ v, v.length ≤ k ∧ v ++ [c] <:+ w ++ [c] ∧ ¬ v ++ [c] <:+: w := by
  by_contra hnone
  have hv : w.drop (w.length - k) <:+ w := List.drop_suffix _ _
  have hlen : (w.drop (w.length - k)).length = min k w.length := by
    rw [List.length_drop]
    omega
  have hfollow : ∀ c ∈ S, w.drop (w.length - k) ++ [c] <:+: w := by
    intro c hc
    by_contra hnot
    refine hnone ⟨c, hc, _, by omega, ?_, hnot⟩
    obtain ⟨a, ha⟩ := hv
    exact ⟨a, by rw [← List.append_assoc, ha]⟩
  have hcard := card_mul_le (S := S \ (w.drop (w.length - k)).toFinset)
    (fun c hc => hfollow c (Finset.mem_sdiff.mp hc).1)
    (fun c hc hmem => (Finset.mem_sdiff.mp hc).2 (List.mem_toFinset.mpr hmem))
  have hrest : S.card - k ≤ (S \ (w.drop (w.length - k)).toFinset).card := by
    have hle := Finset.le_card_sdiff (w.drop (w.length - k)).toFinset S
    have hfew := List.toFinset_card_le (w.drop (w.length - k))
    omega
  rw [hlen] at hcard
  rcases Nat.le_total k w.length with hle | hle
  · rw [Nat.min_eq_left hle] at hcard
    exact absurd ((Nat.mul_le_mul_right _ hrest).trans hcard) (Nat.not_le_of_lt hw)
  · rw [Nat.min_eq_right hle] at hcard
    have hpos : 1 * (w.length + 1) ≤ (S \ (w.drop (w.length - k)).toFinset).card *
        (w.length + 1) := Nat.mul_le_mul_right _ (by omega)
    omega

end Followers
