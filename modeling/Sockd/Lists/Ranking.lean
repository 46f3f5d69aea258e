import Mathlib.Data.List.Induction
import Mathlib.Data.List.Sort

/-!
# Rankings

A list of offers, each with a priority and a tag, ranks its tags: one with a higher
highest priority comes first, and of two with the same highest priority the one that
is first offered at it. `Ranked` says this of a list of tags without an algorithm, and
`ranked_unique` that there is at most one such list. The algorithm is insertion sort,
highest priority first and stable (`stableSort`), after which every tag but its first
occurrence is dropped (`ranked_ranking`).
-/

namespace Ranking

variable {α β κ τ : Type} [LinearOrder κ] {prio : α → κ} {tag : α → τ}

/-! ## What a ranking is -/

/-- The offer `h` at position `i` is the best one for its tag `x`: the first of those
with the highest priority. -/
structure Leads (prio : α → κ) (tag : α → τ) (hits : List α) (x : τ) (i : Nat) (h : α) : Prop where
  at_i : hits[i]? = some h
  tag_eq : tag h = x
  best : ∀ j h', hits[j]? = some h' → tag h' = x → prio h' < prio h ∨ prio h' = prio h ∧ i ≤ j

/-- The best offer for `x` comes before the best one for `y`. -/
def Ahead (prio : α → κ) (tag : α → τ) (hits : List α) (x y : τ) : Prop :=
  ∃ i h j h', Leads prio tag hits x i h ∧ Leads prio tag hits y j h' ∧
    (prio h' < prio h ∨ prio h' = prio h ∧ i < j)

/-- `ranking` lists the tags of the offers in their order. -/
structure Ranked (prio : α → κ) (tag : α → τ) (hits : List α) (ranking : List τ) : Prop where
  mem_iff : ∀ x, x ∈ ranking ↔ ∃ h ∈ hits, tag h = x
  ordered : ranking.Pairwise (Ahead prio tag hits)

section Order

variable {hits : List α} {x y : τ} {i j : Nat} {h h' : α}

/-- There is one best offer. -/
theorem Leads.unique (hi : Leads prio tag hits x i h) (hj : Leads prio tag hits x j h') :
    i = j := by
  rcases hi.best j h' hj.at_i hj.tag_eq with hlt | ⟨heq, hle⟩
  · rcases hj.best i h hi.at_i hi.tag_eq with hlt' | ⟨heq', -⟩
    · exact absurd (hlt.trans hlt') (lt_irrefl _)
    · exact absurd heq' hlt.ne'
  · rcases hj.best i h hi.at_i hi.tag_eq with hlt' | ⟨-, hle'⟩
    · exact absurd heq hlt'.ne'
    · omega

theorem Leads.eq (hi : Leads prio tag hits x i h) (hj : Leads prio tag hits x i h') : h = h' :=
  Option.some.inj (hi.at_i.symm.trans hj.at_i)

/-- No two tags come before each other. -/
theorem Ahead.asymm (hxy : Ahead prio tag hits x y) : ¬ Ahead prio tag hits y x := by
  obtain ⟨i, h, j, h', hi, hj, hlt⟩ := hxy
  rintro ⟨k, g, l, g', hk, hl, hlt'⟩
  obtain rfl := hj.unique hk
  obtain rfl := hi.unique hl
  obtain rfl := hj.eq hk
  obtain rfl := hi.eq hl
  rcases hlt with hlt | ⟨heq, hlt⟩
  · rcases hlt' with hlt' | ⟨heq', -⟩
    · exact absurd (hlt.trans hlt') (lt_irrefl _)
    · exact absurd heq' hlt.ne'
  · rcases hlt' with hlt' | ⟨-, hlt'⟩
    · exact absurd heq hlt'.ne'
    · omega

/-- There is at most one ranking. -/
theorem ranked_unique {r₁ r₂ : List τ} (h₁ : Ranked prio tag hits r₁)
    (h₂ : Ranked prio tag hits r₂) : r₁ = r₂ := by
  have : Std.Irrefl (Ahead prio tag hits) := ⟨fun x hx => hx.asymm hx⟩
  have : Std.Antisymm (Ahead prio tag hits) := ⟨fun x y hxy hyx => absurd hyx hxy.asymm⟩
  exact h₁.ordered.eq_of_mem_iff h₂.ordered fun x => (h₁.mem_iff x).trans (h₂.mem_iff x).symm

/-- More offers are no better for their tags than some that there are. -/
def Covered (prio : α → κ) (tag : α → τ) (hits more : List α) : Prop :=
  ∀ m ∈ more, ∃ h ∈ hits, tag h = tag m ∧ prio m ≤ prio h

theorem Leads.append {more : List α} (hlead : Leads prio tag hits x i h)
    (hmore : Covered prio tag hits more) : Leads prio tag (hits ++ more) x i h := by
  obtain ⟨hi, rfl⟩ := List.getElem?_eq_some_iff.mp hlead.at_i
  refine ⟨?_, hlead.tag_eq, fun j m hj htag => ?_⟩
  · rw [List.getElem?_append_left hi]
    exact hlead.at_i
  · by_cases hlt : j < hits.length
    · rw [List.getElem?_append_left hlt] at hj
      exact hlead.best j m hj htag
    · rw [List.getElem?_append_right (Nat.le_of_not_lt hlt)] at hj
      obtain ⟨h', hmem, htag', hle⟩ := hmore m (List.mem_of_getElem? hj)
      obtain ⟨k, hk⟩ := List.getElem?_of_mem hmem
      rcases hlead.best k h' hk (htag'.trans htag) with hlt' | ⟨heq, -⟩
      · exact .inl (hle.trans_lt hlt')
      · rcases hle.lt_or_eq with hlt' | heq'
        · exact .inl (hlt'.trans_eq heq)
        · exact .inr ⟨heq'.trans heq, by omega⟩

/-- Such offers do not change the ranking. -/
theorem Ranked.append {more : List α} {ranking : List τ} (hranked : Ranked prio tag hits ranking)
    (hmore : Covered prio tag hits more) : Ranked prio tag (hits ++ more) ranking := by
  refine ⟨fun x => ?_, hranked.ordered.imp fun hahead => ?_⟩
  · rw [hranked.mem_iff]
    constructor
    · intro h
      obtain ⟨h, hmem, htag⟩ := h
      exact ⟨h, List.mem_append_left _ hmem, htag⟩
    · intro h
      obtain ⟨m, hmem, htag⟩ := h
      rcases List.mem_append.mp hmem with hmem | hmem
      · exact ⟨m, hmem, htag⟩
      · obtain ⟨h, hh, htag', -⟩ := hmore m hmem
        exact ⟨h, hh, htag'.trans htag⟩
  · obtain ⟨i, h, j, h', hi, hj, hlt⟩ := hahead
    exact ⟨i, h, j, h', hi.append hmore, hj.append hmore, hlt⟩

end Order

/-! ## Stable insertion sort -/

/-- `tmp` moves over the elements of lower priority. The list is from the last element
to the first. -/
def slide (prio : α → κ) (tmp : α) : List α → List α
  | [] => [tmp]
  | h :: rest => if prio h < prio tmp then h :: slide prio tmp rest else tmp :: h :: rest

/-- Insertion sort, highest priority first. -/
def stableSort (prio : α → κ) (hits : List α) : List α :=
  (hits.foldl (fun sorted tmp => slide prio tmp sorted) []).reverse

theorem slide_map (f : β → α) (tmp : β) (sorted : List β) :
    slide prio (f tmp) (sorted.map f) = (slide (fun b => prio (f b)) tmp sorted).map f := by
  induction sorted with
  | nil => rfl
  | cons h rest ih =>
    simp only [List.map_cons, slide]
    split
    next => rw [ih, List.map_cons]
    next => rfl

theorem stableSort_map (f : β → α) (hits : List β) :
    stableSort prio (hits.map f) = (stableSort (fun b => prio (f b)) hits).map f := by
  have hfold : ∀ sorted : List β, (hits.map f).foldl (fun sorted tmp => slide prio tmp sorted)
      (sorted.map f) = (hits.foldl (fun sorted tmp => slide (fun b => prio (f b)) tmp sorted)
        sorted).map f := by
    induction hits with
    | nil => exact fun _ => rfl
    | cons h rest ih =>
      intro sorted
      rw [List.map_cons, List.foldl_cons, List.foldl_cons, slide_map, ih]
  unfold stableSort
  rw [List.map_reverse, ← hfold []]
  rfl

theorem slide_perm (tmp : α) (sorted : List α) : (slide prio tmp sorted).Perm (tmp :: sorted) := by
  induction sorted with
  | nil => exact .refl _
  | cons h rest ih =>
    unfold slide
    split
    next => exact (ih.cons h).trans (.swap tmp h rest)
    next => exact .refl _

theorem stableSort_perm (hits : List α) : (stableSort prio hits).Perm hits := by
  have hfold : ∀ sorted : List α,
      (hits.foldl (fun sorted tmp => slide prio tmp sorted) sorted).Perm (hits ++ sorted) := by
    induction hits with
    | nil => exact fun _ => .refl _
    | cons h rest ih =>
      intro sorted
      refine (ih _).trans ?_
      exact ((slide_perm h sorted).append_left rest).trans List.perm_middle
  have hnil := hfold []
  rw [List.append_nil] at hnil
  exact (List.reverse_perm _).trans hnil

/-- Of two offers with their positions, the one that a stable sort puts first. -/
def Before (prio : α → κ) (a b : α × Nat) : Prop :=
  prio b.1 < prio a.1 ∨ prio b.1 = prio a.1 ∧ a.2 < b.2

/-- An offer from behind all sorted ones slides to its place. -/
theorem pairwise_slide {tmp : α × Nat} {sorted : List (α × Nat)}
    (hsorted : sorted.Pairwise fun b a => Before prio a b) (hlast : ∀ a ∈ sorted, a.2 < tmp.2) :
    (slide (fun a => prio a.1) tmp sorted).Pairwise fun b a => Before prio a b := by
  induction sorted with
  | nil => exact List.pairwise_singleton _ _
  | cons h rest ih =>
    obtain ⟨hhead, hrest⟩ := List.pairwise_cons.mp hsorted
    unfold slide
    split
    next hlt =>
      refine List.pairwise_cons.mpr ⟨fun a ha => ?_, ih hrest fun a ha => hlast a (by simp [ha])⟩
      rcases List.mem_cons.mp ((slide_perm tmp rest).mem_iff.mp ha) with rfl | ha
      · exact .inl hlt
      · exact hhead a ha
    next hge =>
      refine List.pairwise_cons.mpr ⟨fun a ha => ?_, hsorted⟩
      have hnot : ∀ {b : α × Nat}, prio h.1 ≤ prio b.1 → b.2 < tmp.2 → Before prio b tmp := by
        intro b hle hidx
        rcases ((not_lt.mp hge).trans hle).lt_or_eq with hlt | heq
        · exact .inl hlt
        · exact .inr ⟨heq, hidx⟩
      rcases List.mem_cons.mp ha with rfl | ha'
      · exact hnot le_rfl (hlast _ ha)
      · refine hnot ?_ (hlast a ha)
        rcases hhead a ha' with hlt | ⟨heq, -⟩
        · exact hlt.le
        · exact heq.le

/-- The sort keeps offers of equal priority in their order. -/
theorem pairwise_stableSort (hits : List α) :
    (stableSort (fun a => prio a.1) hits.zipIdx).Pairwise (Before prio) := by
  refine List.pairwise_reverse.mpr ?_
  have hfold : ∀ (k : Nat) (sorted : List (α × Nat)),
      sorted.Pairwise (fun b a => Before prio a b) → (∀ a ∈ sorted, a.2 < k) →
      ((hits.zipIdx k).foldl (fun sorted tmp => slide (fun a => prio a.1) tmp sorted)
        sorted).Pairwise fun b a => Before prio a b := by
    induction hits with
    | nil => exact fun _ _ hsorted _ => hsorted
    | cons h rest ih =>
      intro k sorted hsorted hlast
      rw [List.zipIdx_cons, List.foldl_cons]
      refine ih (k + 1) _ (pairwise_slide hsorted hlast) fun a ha => ?_
      rcases List.mem_cons.mp ((slide_perm _ _).mem_iff.mp ha) with rfl | ha
      · exact Nat.lt_succ_self _
      · exact Nat.lt_succ_of_lt (hlast a ha)
  exact hfold 0 [] .nil (fun a ha => absurd ha List.not_mem_nil)

/-- In a sorted list the first offer for a tag is its best one. -/
theorem leads_of_first {hits : List α} {a c : List (α × Nat)} {s : α × Nat}
    (hsplit : stableSort (fun a => prio a.1) hits.zipIdx = a ++ s :: c)
    (hfirst : ∀ r ∈ a, tag r.1 ≠ tag s.1) : Leads prio tag hits (tag s.1) s.2 s.1 := by
  have hmem : ∀ r, r ∈ a ++ s :: c ↔ hits[r.2]? = some r.1 := by
    intro r
    rw [← hsplit, (stableSort_perm _).mem_iff, List.mem_zipIdx_iff_getElem?]
  have hordered : (stableSort (fun a => prio a.1) hits.zipIdx).Pairwise (Before prio) :=
    pairwise_stableSort hits
  rw [hsplit] at hordered
  refine ⟨(hmem s).mp (by simp), rfl, fun j h' hj htag => ?_⟩
  rcases List.mem_append.mp ((hmem (h', j)).mpr hj) with ha | hc
  · exact absurd htag (hfirst _ ha)
  · rcases List.mem_cons.mp hc with rfl | hc
    · exact .inr ⟨rfl, le_rfl⟩
    · have hbefore := List.rel_of_pairwise_cons (List.pairwise_append.mp hordered).2.1 hc
      exact hbefore.imp id fun h => ⟨h.1, h.2.le⟩

/-! ## First occurrences -/

section First

variable [DecidableEq τ]

theorem mem_eraseDups {l : List τ} {x : τ} : x ∈ l.eraseDups ↔ x ∈ l := by
  induction l using List.reverseRecOn with
  | nil => rfl
  | append_singleton l y ih =>
    rw [List.eraseDups_append, List.mem_append, ih, List.mem_append, List.cons_removeAll]
    split
    next => simp
    next hy =>
      have hy : y ∈ l := by simpa using hy
      simp only [List.nil_removeAll, List.eraseDups_nil, List.not_mem_nil, or_false,
        List.mem_singleton]
      exact ⟨.inl, fun h => h.elim id fun h => h ▸ hy⟩

/-- The first `x` comes before the first `y`. -/
def FirstBefore (l : List τ) (x y : τ) : Prop :=
  ∃ a b c, l = a ++ x :: b ++ y :: c ∧ x ∉ a ∧ y ∉ a ++ x :: b

/-- First occurrences are kept in their order. -/
theorem pairwise_eraseDups (l : List τ) : l.eraseDups.Pairwise (FirstBefore l) := by
  induction l using List.reverseRecOn with
  | nil => exact .nil
  | append_singleton l z ih =>
    have hmono : l.eraseDups.Pairwise (FirstBefore (l ++ [z])) := by
      refine ih.imp fun h => ?_
      obtain ⟨a, b, c, rfl, hx, hy⟩ := h
      exact ⟨a, b, c ++ [z], by simp, hx, hy⟩
    rw [List.eraseDups_append, List.cons_removeAll]
    split
    next hz =>
      have hz : z ∉ l := by simpa using hz
      refine List.pairwise_append.mpr ⟨hmono, ?_, fun x hx y hy => ?_⟩
      · exact List.pairwise_singleton _ _
      · obtain rfl : y = z := List.mem_singleton.mp hy
        obtain ⟨a, b, rfl, hxa⟩ := List.eq_append_cons_of_mem (mem_eraseDups.mp hx)
        exact ⟨a, b, [], rfl, hxa, hz⟩
    next =>
      rw [List.nil_removeAll, List.eraseDups_nil, List.append_nil]
      exact hmono

/-- The tags in the order of the sorted offers. -/
def ranking (prio : α → κ) (tag : α → τ) (hits : List α) : List τ :=
  ((stableSort prio hits).map tag).eraseDups

/-- A stable sort and dropping what is not first gives the ranking. -/
theorem ranked_ranking (hits : List α) : Ranked prio tag hits (ranking prio tag hits) where
  mem_iff x := by
    unfold ranking
    rw [mem_eraseDups, List.mem_map]
    exact exists_congr fun h => and_congr_left fun _ => (stableSort_perm hits).mem_iff
  ordered := by
    have hsort : stableSort prio hits =
        (stableSort (fun a => prio a.1) hits.zipIdx).map Prod.fst := by
      rw [← stableSort_map, List.zipIdx_map_fst]
    unfold ranking
    rw [hsort, List.map_map]
    refine (pairwise_eraseDups _).imp ?_
    rintro x y ⟨a, b, c, hsplit, hx, hy⟩
    obtain ⟨u, v, huv, hu, hv⟩ := List.map_eq_append_iff.mp hsplit
    obtain ⟨t, w, rfl, rfl, rfl⟩ := List.map_eq_cons_iff.mp hv
    obtain ⟨u, q, rfl, rfl, hq⟩ := List.map_eq_append_iff.mp hu
    obtain ⟨s, q, rfl, rfl, rfl⟩ := List.map_eq_cons_iff.mp hq
    have hs : Leads prio tag hits (tag s.1) s.2 s.1 := by
      refine leads_of_first (a := u) (c := q ++ t :: w) (by simpa using huv) fun r hr htag => ?_
      exact hx (List.mem_map.mpr ⟨r, hr, htag⟩)
    have ht : Leads prio tag hits (tag t.1) t.2 t.1 := by
      refine leads_of_first (a := u ++ s :: q) huv fun r hr htag => ?_
      refine hy ?_
      have hmap : tag t.1 ∈ (u ++ s :: q).map (tag ∘ Prod.fst) := List.mem_map.mpr ⟨r, hr, htag⟩
      simpa using hmap
    have hordered : (stableSort (fun a => prio a.1) hits.zipIdx).Pairwise (Before prio) :=
    pairwise_stableSort hits
    rw [huv] at hordered
    have hbefore := (List.pairwise_append.mp hordered).2.2 s (by simp) t (by simp)
    exact ⟨s.2, s.1, t.2, t.1, hs, ht, hbefore⟩

end First

end Ranking
