import Sockd.Lists.Ranking
import Sockd.Reference.Dedup

/-!
# The byte budget of the reference router

Phase 3 of `handle_request` against the selection it is meant to make. A `Choice` is the
state of that selection, and its `step` counts bytes exactly, where the code adds
`int`s and narrows the sizes of files to `int`. As long as the narrowing makes no
difference (`Exact`) the code follows the choice and writes within the buffer; in the
first round where it does, a sum overflows or a copy goes out of bounds
(`selectHits_cases`). So the condition of `within_iff` is exact.
-/

namespace Sockd.Reference

open C

/-! ## The selection that is meant -/

/-- What has been selected, and the dedup table; `allDeduped` as long as every skill
that came up was injected before. -/
structure Choice where
  skills : List Nat
  dedup : Table DedupEntry maxDedupEntries
  allDeduped : Bool

/-- The choice at the start of a request. -/
def Choice.start (g : Router) : Choice := ⟨[], g.dedup, true⟩

/-- There is room for another skill, and this one is not injected in the session. -/
def Choice.Open (g : Router) (session : Str) (c : Choice) (x : Nat) : Prop :=
  c.skills.length < maxSkillsPerResponse ∧ isDeduped c.dedup session (g.skill x).id.str = false

instance (g : Router) (session : Str) (c : Choice) (x : Nat) : Decidable (c.Open g session x) :=
  inferInstanceAs (Decidable (_ ∧ _))

/-- The skill comes up: it is chosen if the response with it is not longer than the buffer. -/
def Choice.step (g : Router) (session : Str) (bufSize : Int) (c : Choice) (x : Nat) : Choice :=
  if c.Open g session x then
    if ((g.joined (c.skills ++ [x])).length : Int) ≤ bufSize then
      ⟨c.skills ++ [x], (markDeduped c.dedup session (g.skill x).id.str).1, false⟩
    else { c with allDeduped := false }
  else c

/-- The number of bytes of a choice. -/
def Choice.total (g : Router) (c : Choice) : Int := (g.joined c.skills).length

/-- Narrowing the size of `x` to `int` makes no difference: no sum that is formed for it
overflows, and if they are found to be within the buffer the size is what it was. -/
structure Choice.Exact (g : Router) (bufSize : Int) (c : Choice) (x : Nat) : Prop where
  sum : c.total g + int (g.skill x).size.toNat < 2 ^ 31
  sumSep : c.total g + int (g.skill x).size.toNat ≤ bufSize → c.skills ≠ [] →
    c.total g + sepLen < 2 ^ 31 ∧ c.total g + sepLen + int (g.skill x).size.toNat < 2 ^ 31
  narrow : c.total g + int (g.skill x).size.toNat ≤ bufSize →
    (c.skills ≠ [] → c.total g + sepLen + int (g.skill x).size.toNat ≤ bufSize) →
    (g.skill x).size.toNat < 2 ^ 31

/-- So it is for every one of these skills that comes up, one after the other. -/
def Choice.AllExact (g : Router) (session : Str) (bufSize : Int) : Choice → List Nat → Prop
  | _, [] => True
  | c, x :: rest => (c.Open g session x → c.Exact g bufSize x) ∧
    AllExact g session bufSize (c.step g session bufSize x) rest

/-! ## What the copies amount to -/

/-- The offset and the length of a copy. -/
def Event.copied? : Event → Option (Int × Nat)
  | .separated off size => some (off, size)
  | .placed _ _ off size => some (off, size)
  | _ => none

/-- The number of bytes that are copied. -/
def written (events : List Event) : Nat := ((events.filterMap Event.copied?).map Prod.snd).sum

theorem written_append (events more : List Event) :
    written (events ++ more) = written events + written more := by
  unfold written
  rw [List.filterMap_append, List.map_append, List.sum_append]

/-- After these events: a sum fits an `int`, and a copy starts where the last one ended
and stays within the buffer. -/
def Event.Sound (bufSize : Int) (before : List Event) : Event → Prop
  | .summed value => -2 ^ 31 ≤ value ∧ value < 2 ^ 31
  | .separated off size => off = written before ∧ off + size ≤ bufSize
  | .placed _ _ off size => off = written before ∧ off + size ≤ bufSize
  | _ => True

/-- Every event is like that. -/
def AllSound (bufSize : Int) (events : List Event) : Prop :=
  ∀ before e after, events = before ++ e :: after → e.Sound bufSize before

section Sound

variable {bufSize : Int} {events more : List Event} {e : Event}

theorem AllSound.nil : AllSound bufSize [] := by
  intro before e after h
  simp at h

theorem AllSound.snoc (h : AllSound bufSize events) (he : e.Sound bufSize events) :
    AllSound bufSize (events ++ [e]) := by
  intro before e' after hsplit
  rcases List.eq_nil_or_concat after with rfl | ⟨after, last, rfl⟩
  · obtain ⟨rfl, hlast⟩ := List.append_inj' hsplit rfl
    obtain rfl := List.singleton_inj.mp hlast
    exact he
  · rw [List.concat_eq_append, ← List.cons_append, ← List.append_assoc] at hsplit
    exact h before e' after (List.append_inj' hsplit rfl).1

/-- The events so far, and the one after them. -/
theorem AllSound.of_append (h : AllSound bufSize (events ++ more)) : AllSound bufSize events := by
  rintro before e after rfl
  exact h before e (after ++ more) (by simp)

theorem AllSound.head (h : AllSound bufSize (events ++ e :: more)) : e.Sound bufSize events :=
  h events e more rfl

/-- What `mark_deduped` does has nothing to do with the buffer. -/
theorem marked_plain (dedup : Table DedupEntry maxDedupEntries) (session skillId : Str) :
    ∀ e ∈ (markDeduped dedup session skillId).2, e = .reset ∨ ∃ entry, e = .marked entry := by
  unfold markDeduped
  intro e he
  split at he
  next =>
    obtain rfl := List.mem_singleton.mp he
    exact .inr ⟨_, rfl⟩
  next =>
    rcases List.mem_cons.mp he with rfl | he
    · exact .inl rfl
    · obtain rfl := List.mem_singleton.mp he
      exact .inr ⟨_, rfl⟩

theorem AllSound.marks (h : AllSound bufSize events)
    (hmore : ∀ e ∈ more, e = .reset ∨ ∃ entry, e = .marked entry) :
    AllSound bufSize (events ++ more) := by
  induction more generalizing events with
  | nil =>
    rw [List.append_nil]
    exact h
  | cons e more ih =>
    rw [List.append_cons]
    refine ih (h.snoc ?_) fun e' he' => hmore e' (List.mem_cons_of_mem _ he')
    rcases hmore e List.mem_cons_self with rfl | ⟨entry, rfl⟩ <;> trivial

theorem written_marks (hmore : ∀ e ∈ more, e = .reset ∨ ∃ entry, e = .marked entry) :
    written more = 0 := by
  have hnone : more.filterMap Event.copied? = [] := by
    refine List.filterMap_eq_nil_iff.mpr fun e he => ?_
    rcases hmore e he with rfl | ⟨entry, rfl⟩ <;> rfl
  rw [written, hnone]
  rfl

theorem placements_marks (hmore : ∀ e ∈ more, e = .reset ∨ ∃ entry, e = .marked entry) :
    placements more = [] := by
  refine List.filterMap_eq_nil_iff.mpr fun e he => ?_
  rcases hmore e he with rfl | ⟨entry, rfl⟩ <;> rfl

end Sound

/-! ## One round -/

/-- The loop has made this choice, and all it did so far was sound. -/
structure Follows (g : Router) (session : Str) (bufSize : Int) (c : Choice) (s : Selection) :
    Prop where
  selected : s.selected = c.skills.length
  total : s.totalBytes = c.total g
  le : s.totalBytes ≤ bufSize
  content : s.content.first (g.joined c.skills).length = g.joined c.skills
  dedup : s.dedup = c.dedup
  allDeduped : s.allDeduped = c.allDeduped
  sound : AllSound bufSize s.events
  written : (written s.events : Int) = s.totalBytes
  placed : placements s.events = c.skills.map fun x => (session, (g.skill x).id.str)

section Round

variable {g : Router} {session : Str} {bufSize : Int} {c : Choice} {s : Selection} {x : Nat}

theorem Choice.total_nonneg (c : Choice) : 0 ≤ c.total g := Int.natCast_nonneg _

theorem Choice.step_of_not_open (h : ¬ c.Open g session x) : c.step g session bufSize x = c :=
  if_neg h

/-- A sum was formed. -/
theorem Follows.sum (h : Follows g session bufSize c s) {a b : Int} (hle : -2 ^ 31 ≤ a + b)
    (hlt : a + b < 2 ^ 31) : Follows g session bufSize c (s.sum a b) where
  selected := h.selected
  total := h.total
  le := h.le
  content := h.content
  dedup := h.dedup
  allDeduped := h.allDeduped
  sound := h.sound.snoc ⟨hle, hlt⟩
  written := by
    show ((Reference.written (s.events ++ [.summed (a + b)]) : Nat) : Int) = s.totalBytes
    rw [written_append, ← h.written]
    rfl
  placed := by
    show placements (s.events ++ [.summed (a + b)]) = _
    rw [placements_append, h.placed]
    exact List.append_nil _

/-- A skill came up that was not injected before. -/
def cleared (s : Selection) : Selection := { s with allDeduped := false }

theorem Follows.cleared (h : Follows g session bufSize c s) :
    Follows g session bufSize { c with allDeduped := false } (cleared s) :=
  ⟨h.selected, h.total, h.le, h.content, h.dedup, rfl, h.sound, h.written, h.placed⟩

/-- The separator is copied: it belongs to no skill yet. -/
structure Separated (g : Router) (session : Str) (bufSize : Int) (c : Choice) (s : Selection) :
    Prop where
  selected : s.selected = c.skills.length
  total : s.totalBytes = c.total g + (if c.skills = [] then 0 else sepLen : Nat)
  content : s.content.first s.totalBytes.toNat =
    g.joined c.skills ++ (if c.skills = [] then [] else sep)
  dedup : s.dedup = c.dedup
  allDeduped : s.allDeduped = c.allDeduped
  sound : AllSound bufSize s.events
  written : (written s.events : Int) = s.totalBytes
  placed : placements s.events = c.skills.map fun x => (session, (g.skill x).id.str)

/-- Nothing to separate before the first skill. -/
theorem Follows.first (h : Follows g session bufSize c s) (hempty : c.skills = []) :
    Separated g session bufSize c s where
  selected := h.selected
  total := by
    rw [if_pos hempty, h.total]
    exact (Int.add_zero _).symm
  content := by
    rw [if_pos hempty, List.append_nil, h.total]
    exact h.content
  dedup := h.dedup
  allDeduped := h.allDeduped
  sound := h.sound
  written := h.written
  placed := h.placed

theorem Follows.separate (h : Follows g session bufSize c s) (hne : c.skills ≠ [])
    (hfit : c.total g + sepLen ≤ bufSize) (hlt : c.total g + sepLen < 2 ^ 31) :
    Separated g session bufSize c s.separate := by
  have hnonneg := c.total_nonneg (g := g)
  have hsum : int (s.totalBytes + sepLen) = s.totalBytes + sepLen := by
    rw [h.total]
    exact int_eq (by omega) hlt
  have hoff : s.totalBytes = ((g.joined c.skills).length : Int) := h.total
  refine ⟨h.selected, ?_, ?_, h.dedup, h.allDeduped, ?_, ?_, ?_⟩
  · rw [if_neg hne, ← h.total]
    exact hsum
  · rw [if_neg hne]
    show Buffer.first (memcpy s.content s.totalBytes (fun i => sep.getD i 0) sepLen)
      (int (s.totalBytes + sepLen)).toNat = g.joined c.skills ++ sep
    rw [hsum, hoff, ← Int.natCast_add, Int.toNat_natCast, Buffer.first_memcpy, h.content,
      map_getD_sep]
  · have hcopied : AllSound bufSize (s.events ++ [.separated s.totalBytes sepLen]) :=
      h.sound.snoc ⟨h.written.symm, by rw [h.total]; exact hfit⟩
    have hsummed := hcopied.snoc (e := .summed (s.totalBytes + sepLen))
      (show -2 ^ 31 ≤ s.totalBytes + sepLen ∧ s.totalBytes + sepLen < 2 ^ 31 by
        rw [h.total]
        exact ⟨by omega, hlt⟩)
    rw [List.append_assoc] at hsummed
    exact hsummed
  · show ((Reference.written (s.events ++ _) : Nat) : Int) = int (s.totalBytes + sepLen)
    rw [hsum, written_append, Int.natCast_add, h.written]
    rfl
  · show placements (s.events ++ _) = _
    rw [placements_append, h.placed]
    exact List.append_nil _

/-- The skill is copied behind what is there, and marked. -/
theorem Separated.place (h : Separated g session bufSize c s)
    (hfit : ((g.joined (c.skills ++ [x])).length : Int) ≤ bufSize) (hbuf : bufSize < 2 ^ 31) :
    Follows g session bufSize
      ⟨c.skills ++ [x], (markDeduped c.dedup session (g.skill x).id.str).1, c.allDeduped⟩
      (s.place g session (g.skill x)) := by
  have hlen := g.length_joined_concat c.skills x
  have hnonneg := c.total_nonneg (g := g)
  have htotal : s.totalBytes + (g.skill x).size.toNat = (g.joined (c.skills ++ [x])).length := by
    rw [h.total, hlen, Choice.total]
    push_cast
    rfl
  have hsum : int (s.totalBytes + (g.skill x).size.toNat) =
      (g.joined (c.skills ++ [x])).length := by
    rw [htotal]
    exact int_eq (by omega) (by omega)
  have hoff : s.totalBytes = (s.totalBytes.toNat : Int) := by
    have hle : 0 ≤ s.totalBytes := by
      rw [h.total]
      omega
    exact (Int.toNat_of_nonneg hle).symm
  have hmarks := marked_plain s.dedup session (g.skill x).id.str
  refine ⟨?_, hsum, ?_, ?_, ?_, h.allDeduped, ?_, ?_, ?_⟩
  · show s.selected + 1 = _
    rw [h.selected, List.length_append]
    rfl
  · exact hsum.trans_le hfit
  · show Buffer.first (memcpy s.content s.totalBytes _ (g.skill x).size.toNat) _ = _
    have hnat : (g.joined (c.skills ++ [x])).length =
        s.totalBytes.toNat + (g.skill x).size.toNat := by omega
    rw [hnat, hoff, Int.toNat_natCast, Buffer.first_memcpy, h.content, g.joined_concat]
    rfl
  · show (markDeduped s.dedup session _).1 = _
    rw [h.dedup]
  · have hplaced := h.sound.snoc
      (e := .placed session (g.skill x).id.str s.totalBytes (g.skill x).size.toNat)
      ⟨h.written.symm, by rw [htotal]; exact hfit⟩
    have hall := hplaced.marks hmarks
    rw [List.append_assoc] at hall
    exact hall
  · show ((Reference.written (s.events ++ _ :: _) : Nat) : Int) = int _
    rw [hsum, ← htotal, List.append_cons, written_append, written_append, written_marks hmarks,
      Nat.add_zero, Int.natCast_add, h.written]
    rfl
  · show placements (s.events ++ _ :: _) = _
    rw [List.append_cons, placements_append, placements_append, placements_marks hmarks,
      List.append_nil, h.placed, List.map_append]
    rfl

/-! ## Where the narrowing makes a difference -/

/-- Events are only added. -/
theorem sum_keeps (s : Selection) (a b : Int) : s.events <+: (s.sum a b).events :=
  List.prefix_append _ _

theorem separate_keeps (s : Selection) : s.events <+: s.separate.events := List.prefix_append _ _

theorem place_keeps (s : Selection) (g : Router) (session : Str) (skill : MappedSkill) :
    s.events <+: (s.place g session skill).events := List.prefix_append _ _

theorem separate_place_keeps (s : Selection) (g : Router) (session : Str) (skill : MappedSkill) :
    s.events <+: (s.separate.place g session skill).events :=
  (separate_keeps s).trans (place_keeps s.separate g session skill)

theorem AllSound.of_prefix {events all : List Event} (h : AllSound bufSize all)
    (hle : events <+: all) : AllSound bufSize events := by
  obtain ⟨more, rfl⟩ := hle
  exact h.of_append

/-- A sum that was formed fits. -/
theorem AllSound.of_sum {a b : Int} {all : List Event} (h : AllSound bufSize all)
    (hle : (s.sum a b).events <+: all) : -2 ^ 31 ≤ a + b ∧ a + b < 2 ^ 31 :=
  (h.of_prefix hle).head

/-- A copy of 2 GiB or more does not fit. -/
theorem not_allSound_place (hbuf : bufSize < 2 ^ 31) (hsize : 2 ^ 31 ≤ (g.skill x).size.toNat) :
    ¬ AllSound bufSize (s.place g session (g.skill x)).events := by
  intro h
  obtain ⟨hoff, hfit⟩ := h.head
  rw [hoff] at hfit
  omega

/-- A skill that is too long is not chosen. -/
theorem Choice.step_of_long (hopen : c.Open g session x)
    (hlong : bufSize < (g.joined (c.skills ++ [x])).length) :
    c.step g session bufSize x = { c with allDeduped := false } := by
  unfold Choice.step
  rw [if_pos hopen, if_neg (by omega)]

theorem Choice.step_of_fits (hopen : c.Open g session x)
    (hfit : ((g.joined (c.skills ++ [x])).length : Int) ≤ bufSize) :
    c.step g session bufSize x =
      ⟨c.skills ++ [x], (markDeduped c.dedup session (g.skill x).id.str).1, false⟩ := by
  unfold Choice.step
  rw [if_pos hopen, if_pos hfit]

/-- Narrowing keeps small sizes. -/
theorem int_size (h : (g.skill x).size.toNat < 2 ^ 31) :
    int (g.skill x).size.toNat = (g.skill x).size.toNat := int_eq (by omega) (by omega)

/-- A skill that is found too long is too long. -/
theorem length_of_over (hbuf : bufSize < 2 ^ 31)
    (hover : bufSize < c.total g + (if c.skills = [] then 0 else sepLen : Nat) +
      int (g.skill x).size.toNat) :
    bufSize < (g.joined (c.skills ++ [x])).length := by
  have hnonneg := c.total_nonneg (g := g)
  rw [g.length_joined_concat]
  unfold Choice.total at hover hnonneg
  by_cases hsize : (g.skill x).size.toNat < 2 ^ 31
  · rw [int_size hsize] at hover
    push_cast at hover ⊢
    exact hover
  · push_cast
    omega

/-- The code of a round for a skill that comes up. -/
theorem selectHit_eq {earlier : List Hit} {hit : Hit}
    (hnew : ¬ (earlier.any fun e => e.skillIdx == hit.skillIdx) = true)
    (hdedup : ¬ isDeduped s.dedup session (g.skill hit.skillIdx).id.str = true) :
    selectHit g session bufSize earlier s hit =
      let n := int (g.skill hit.skillIdx).size.toNat
      let s₁ := (cleared s).sum s.totalBytes n
      let s₂ := (s₁.sum s.totalBytes sepLen).sum (int (s.totalBytes + sepLen)) n
      if int (s.totalBytes + n) > bufSize then s₁
      else if s.selected > 0 then
        if int (int (s.totalBytes + sepLen) + n) > bufSize then s₂
        else s₂.separate.place g session (g.skill hit.skillIdx)
      else s₁.place g session (g.skill hit.skillIdx) := by
  unfold selectHit
  dsimp only
  rw [if_neg hnew, if_neg hdedup]
  rfl

/-- A round for a skill that comes up: it goes as it is meant to, or narrowing the size
makes a difference, and then the round is not sound. -/
theorem selectHit_cases (h : Follows g session bufSize c s) (hbuf : bufSize < 2 ^ 31)
    {earlier : List Hit} {hit : Hit} (hopen : c.Open g session hit.skillIdx)
    (hnew : ¬ (earlier.any fun e => e.skillIdx == hit.skillIdx) = true) :
    (c.Exact g bufSize hit.skillIdx ∧ Follows g session bufSize
        (c.step g session bufSize hit.skillIdx) (selectHit g session bufSize earlier s hit)) ∨
      (¬ c.Exact g bufSize hit.skillIdx ∧
        ¬ AllSound bufSize (selectHit g session bufSize earlier s hit).events) := by
  have hnonneg := c.total_nonneg (g := g)
  have hle : c.total g ≤ bufSize := h.total ▸ h.le
  have hdedup : ¬ isDeduped s.dedup session (g.skill hit.skillIdx).id.str = true := by
    rw [h.dedup, hopen.2]
    exact Bool.false_ne_true
  rw [selectHit_eq hnew hdedup, h.total, h.selected]
  clear hdedup hnew
  generalize hit.skillIdx = x at *
  obtain ⟨hlo, hhi⟩ := int_bounds (g.skill x).size.toNat
  dsimp only
  generalize hn : int (g.skill x).size.toNat = n at *
  by_cases hsum : c.total g + n < 2 ^ 31
  swap
  · -- the first sum overflows
    refine .inr ⟨fun hexact => hsum (hn ▸ hexact.sum), fun hall => hsum ?_⟩
    refine (hall.of_sum (s := cleared s) ?_).2
    split
    next => exact List.prefix_refl _
    next =>
      split
      next =>
        split
        next => exact (sum_keeps _ _ _).trans (sum_keeps _ _ _)
        next =>
          exact (sum_keeps _ _ _).trans
            ((sum_keeps _ _ _).trans (separate_place_keeps _ _ _ _))
      next => exact place_keeps _ _ _ _
  rw [int_eq (by omega) hsum]
  have h₁ := h.cleared.sum (a := c.total g) (b := n) (by omega) hsum
  by_cases hover : c.total g + n > bufSize
  · rw [if_pos hover]
    refine .inl ⟨⟨hn ▸ hsum, ?_, ?_⟩, ?_⟩
    · rw [hn]
      exact fun hfit => absurd hfit (by omega)
    · rw [hn]
      exact fun hfit => absurd hfit (by omega)
    · rw [Choice.step_of_long hopen (length_of_over hbuf (by rw [hn]; split <;> omega))]
      exact h₁
  rw [if_neg hover]
  by_cases hempty : c.skills = []
  · -- the first skill of the response
    rw [if_neg (by simp [hempty])]
    by_cases hsize : (g.skill x).size.toNat < 2 ^ 31
    · have hfit : ((g.joined (c.skills ++ [x])).length : Int) ≤ bufSize := by
        rw [int_size hsize] at hn
        rw [g.length_joined_concat, if_pos hempty, hn.symm] at *
        unfold Choice.total at hover
        push_cast
        omega
      refine .inl ⟨⟨hn ▸ hsum, fun _ hne => absurd hempty hne, fun _ _ => hsize⟩, ?_⟩
      rw [Choice.step_of_fits hopen hfit]
      exact (h₁.first hempty).place hfit hbuf
    · refine .inr ⟨fun hexact => hsize (hexact.narrow ?_ fun hne => absurd hempty hne), ?_⟩
      · rw [hn]
        omega
      · exact not_allSound_place hbuf (by omega)
  rw [if_pos (List.length_pos_of_ne_nil hempty)]
  by_cases hsep : c.total g + sepLen < 2 ^ 31 ∧ c.total g + sepLen + n < 2 ^ 31
  swap
  · -- a sum with the separator overflows
    refine .inr ⟨fun hexact => hsep (hn ▸ hexact.sumSep (by rw [hn]; omega) hempty), fun hall => ?_⟩
    have hfirst := hall.of_sum (s := (cleared s).sum (c.total g) n)
      (a := c.total g) (b := sepLen) (by
        split
        next => exact sum_keeps _ _ _
        next =>
          exact (sum_keeps _ _ _).trans (separate_place_keeps _ _ _ _))
    have hsecond := hall.of_sum
      (s := ((cleared s).sum (c.total g) n).sum (c.total g) sepLen)
      (a := int (c.total g + sepLen)) (b := n) (by
        split
        next => exact List.prefix_refl _
        next => exact separate_place_keeps _ _ _ _)
    rw [int_eq hfirst.1 hfirst.2] at hsecond
    exact hsep ⟨hfirst.2, hsecond.2⟩
  have hseplen : (0 : Int) ≤ (sepLen : Int) := Int.natCast_nonneg _
  rw [int_eq (by omega) hsep.1, int_eq (by omega) hsep.2]
  have h₂ := (h₁.sum (a := c.total g) (b := sepLen) (by omega) hsep.1).sum
    (a := c.total g + sepLen) (b := n) (by omega) hsep.2
  by_cases hover₂ : c.total g + sepLen + n > bufSize
  · rw [if_pos hover₂]
    refine .inl ⟨⟨hn ▸ hsum, fun _ _ => hn ▸ hsep, fun _ hfit => ?_⟩, ?_⟩
    · rw [hn] at hfit
      exact absurd (hfit hempty) (by omega)
    · rw [Choice.step_of_long hopen (length_of_over hbuf (by rw [hn, if_neg hempty]; omega))]
      exact h₂
  rw [if_neg hover₂]
  by_cases hsize : (g.skill x).size.toNat < 2 ^ 31
  · have hfit : ((g.joined (c.skills ++ [x])).length : Int) ≤ bufSize := by
      rw [int_size hsize] at hn
      rw [g.length_joined_concat, if_neg hempty]
      unfold Choice.total at hover₂
      push_cast
      omega
    refine .inl ⟨⟨hn ▸ hsum, fun _ _ => hn ▸ hsep, fun _ _ => hsize⟩, ?_⟩
    rw [Choice.step_of_fits hopen hfit]
    have hfits : c.total g + sepLen ≤ bufSize := by
      rw [int_size hsize] at hn
      omega
    exact (h₂.separate hempty hfits hsep.1).place hfit hbuf
  · refine .inr ⟨fun hexact => hsize (hexact.narrow ?_ fun _ => ?_), ?_⟩
    · rw [hn]
      omega
    · rw [hn]
      omega
    · exact not_allSound_place hbuf (by omega)

end Round

/-! ## The rounds -/

section Rounds

variable {g : Router} {session : Str} {bufSize : Int} {c : Choice} {s : Selection}

theorem selectHit_keeps (s : Selection) (earlier : List Hit) (hit : Hit) :
    s.events <+: (selectHit g session bufSize earlier s hit).events := by
  by_cases hnew : (earlier.any fun e => e.skillIdx == hit.skillIdx) = true
  · unfold selectHit
    dsimp only
    rw [if_pos hnew]
  by_cases hdedup : isDeduped s.dedup session (g.skill hit.skillIdx).id.str = true
  · unfold selectHit
    dsimp only
    rw [if_neg hnew, if_pos hdedup]
  rw [selectHit_eq hnew hdedup]
  dsimp only
  split
  next => exact sum_keeps (cleared s) _ _
  next =>
    split
    next =>
      split
      next => exact (sum_keeps (cleared s) _ _).trans ((sum_keeps _ _ _).trans (sum_keeps _ _ _))
      next =>
        exact (sum_keeps (cleared s) _ _).trans ((sum_keeps _ _ _).trans
          ((sum_keeps _ _ _).trans (separate_place_keeps _ _ _ _)))
    next => exact (sum_keeps (cleared s) _ _).trans (place_keeps _ _ _ _)

theorem selectHits_keeps (s : Selection) (earlier hits : List Hit) :
    s.events <+: (selectHits g session bufSize earlier hits s).events := by
  induction hits generalizing earlier s with
  | nil => exact List.prefix_refl _
  | cons hit hits ih =>
    unfold selectHits
    split
    next => exact (selectHit_keeps s earlier hit).trans (ih _ _)
    next => exact List.prefix_refl _

/-- Once the response is full nothing comes up any more. -/
theorem Choice.full (hfull : ¬ c.skills.length < maxSkillsPerResponse) (rest : List Nat) :
    c.AllExact g session bufSize rest ∧ rest.foldl (Choice.step g session bufSize) c = c := by
  have hclosed : ∀ x, ¬ c.Open g session x := fun x hopen => hfull hopen.1
  induction rest with
  | nil => exact ⟨trivial, rfl⟩
  | cons x rest ih =>
    unfold Choice.AllExact
    rw [List.foldl_cons, Choice.step_of_not_open (hclosed x)]
    exact ⟨⟨fun hopen => absurd hopen (hclosed x), ih.1⟩, ih.2⟩

theorem removeAll_concat (xs ys : List Nat) (y : Nat) :
    xs.removeAll (ys ++ [y]) = (xs.removeAll ys).filter fun x => !x == y := by
  simp only [List.removeAll, List.filter_filter]
  refine List.filter_congr fun x _ => ?_
  grind

/-- The skills that come up in these rounds: those of the hits, in their order, that
were not among the earlier ones. -/
def upcoming (earlier hits : List Hit) : List Nat :=
  ((hits.map Hit.skillIdx).removeAll (earlier.map Hit.skillIdx)).eraseDups

theorem mem_earlier_iff {earlier : List Hit} {hit : Hit} :
    (earlier.any fun e => e.skillIdx == hit.skillIdx) = true ↔
      hit.skillIdx ∈ earlier.map Hit.skillIdx := by
  simp [List.any_eq_true, List.mem_map]

theorem upcoming_cons (earlier : List Hit) (hit : Hit) (hits : List Hit) :
    upcoming earlier (hit :: hits) =
      if (earlier.any fun e => e.skillIdx == hit.skillIdx) = true then
        upcoming (earlier ++ [hit]) hits
      else hit.skillIdx :: upcoming (earlier ++ [hit]) hits := by
  unfold upcoming
  rw [List.map_append, List.map_cons, List.map_cons, List.map_nil, removeAll_concat,
    List.cons_removeAll]
  split
  next hnot =>
    have hnot : hit.skillIdx ∉ earlier.map Hit.skillIdx := by simpa using hnot
    rw [if_neg (mt mem_earlier_iff.mp hnot), List.eraseDups_cons]
  next hmem =>
    have hmem : hit.skillIdx ∈ earlier.map Hit.skillIdx := by simpa using hmem
    rw [if_pos (mem_earlier_iff.mpr hmem)]
    congr 1
    -- what is dropped for the hit was dropped before
    refine (List.filter_eq_self.mpr fun x hx => ?_).symm
    have hx : x ∉ earlier.map Hit.skillIdx := by
      simp only [List.removeAll, List.mem_filter] at hx
      simpa using hx.2
    have hne : x ≠ hit.skillIdx := fun he => hx (he ▸ hmem)
    simpa using hne

/-- The rounds of phase 3: they make the choice, or in one of them narrowing a size makes
a difference, and then not everything is sound. -/
theorem selectHits_cases (h : Follows g session bufSize c s) (hbuf : bufSize < 2 ^ 31)
    (earlier hits : List Hit) :
    (c.AllExact g session bufSize (upcoming earlier hits) ∧ Follows g session bufSize
        ((upcoming earlier hits).foldl (Choice.step g session bufSize) c)
        (selectHits g session bufSize earlier hits s)) ∨
      (¬ c.AllExact g session bufSize (upcoming earlier hits) ∧
        ¬ AllSound bufSize (selectHits g session bufSize earlier hits s).events) := by
  induction hits generalizing earlier c s with
  | nil => exact .inl ⟨trivial, h⟩
  | cons hit hits ih =>
    unfold selectHits
    split
    next hroom =>
      rw [upcoming_cons]
      by_cases hseen : (earlier.any fun e => e.skillIdx == hit.skillIdx) = true
      · rw [if_pos hseen]
        have hsame : selectHit g session bufSize earlier s hit = s := by
          unfold selectHit
          dsimp only
          rw [if_pos hseen]
        rw [hsame]
        exact ih h _
      rw [if_neg hseen]
      unfold Choice.AllExact
      rw [List.foldl_cons]
      by_cases hopen : c.Open g session hit.skillIdx
      · rcases selectHit_cases h hbuf hopen hseen with ⟨hexact, hnext⟩ | ⟨hnot, hbroken⟩
        · rcases ih hnext (earlier ++ [hit]) with ⟨hall, hend⟩ | ⟨hnot, hbroken⟩
          · exact .inl ⟨⟨fun _ => hexact, hall⟩, hend⟩
          · exact .inr ⟨fun hall => hnot hall.2, hbroken⟩
        · refine .inr ⟨fun hall => hnot (hall.1 hopen), fun hall => hbroken ?_⟩
          exact hall.of_prefix (selectHits_keeps _ _ _)
      · have hdedup : isDeduped s.dedup session (g.skill hit.skillIdx).id.str = true := by
          rw [h.dedup]
          by_contra hnot
          exact hopen ⟨h.selected ▸ hroom, Bool.eq_false_iff.mpr hnot⟩
        have hsame : selectHit g session bufSize earlier s hit = s := by
          unfold selectHit
          dsimp only
          rw [if_neg hseen, if_pos hdedup]
        rw [hsame, Choice.step_of_not_open hopen]
        rcases ih h (earlier ++ [hit]) with ⟨hall, hend⟩ | ⟨hnot, hbroken⟩
        · exact .inl ⟨⟨fun hopen' => absurd hopen' hopen, hall⟩, hend⟩
        · exact .inr ⟨fun hall => hnot hall.2, hbroken⟩
    next hfull =>
      rw [h.selected] at hfull
      obtain ⟨hall, hend⟩ := Choice.full hfull
        (upcoming earlier (hit :: hits))
      rw [hend]
      exact .inl ⟨hall, h⟩

theorem follows_start (contentBuf : Buffer) (hle : 0 ≤ bufSize) :
    Follows g session bufSize (Choice.start g) (Selection.start g contentBuf) :=
  ⟨rfl, rfl, hle, rfl, rfl, rfl, .nil, rfl, rfl⟩

end Rounds

/-! ## Requests -/

/-- The skills of the hits that phase 1 collects, each once, in the order of phase 2. -/
def Router.ranked (g : Router) (req : RequestMsg) : List Nat :=
  match g.rulesFor req with
  | none => []
  | some rules => upcoming [] (sortHits (collectHits rules req.pathStr req.basename))

/-- A request for which no sum overflows, every copy starts where the last one ended and
stays within the buffer, and the byte count is that of the copies. -/
structure Within (bufSize : Int) (r : Routed) : Prop where
  sound : AllSound bufSize r.events
  total : r.totalBytes = written r.events
  nonneg : 0 ≤ r.totalBytes
  le : r.totalBytes ≤ bufSize

/-- A request stays within the buffer exactly if narrowing a size to `int` makes no
difference for any skill that comes up. -/
theorem within_iff (g : Router) (req : RequestMsg) (contentBuf : Buffer) {bufSize : Int}
    (hle : 0 ≤ bufSize) (hbuf : bufSize < 2 ^ 31) (outSkillCount : UInt8) :
    Within bufSize (handleRequest g req contentBuf bufSize outSkillCount) ↔
      (Choice.start g).AllExact g req.session bufSize (g.ranked req) := by
  unfold handleRequest Router.ranked
  cases g.rulesFor req with
  | none => exact ⟨fun _ => trivial, fun _ => ⟨.nil, rfl, le_rfl, hle⟩⟩
  | some rules =>
    dsimp only
    split
    next hnone =>
      rw [hnone]
      exact ⟨fun _ => trivial, fun _ => ⟨.nil, rfl, le_rfl, hle⟩⟩
    next =>
      rcases selectHits_cases (follows_start contentBuf hle) hbuf []
        (sortHits (collectHits rules req.pathStr req.basename)) with ⟨hall, hend⟩ | ⟨hnot, hbroken⟩
      · refine ⟨fun _ => hall, fun _ => ⟨hend.sound, hend.written.symm, ?_, hend.le⟩⟩
        exact (Int.natCast_nonneg _).trans_eq hend.written
      · exact ⟨fun h => absurd h.sound hbroken, fun h => absurd h hnot⟩

/-! ## A file of 2 GiB -/

/-- One skill of this size. -/
def skillOfSize (size : UInt64) : Dir :=
  some [⟨Str.lit "martinlasek--swift-coding-guideline", true, some ⟨size, fun _ => 65⟩, true⟩]

/-- A request for a Swift file. -/
def swiftRequest : RequestMsg where
  magic := protocolMagic
  version := protocolVersion
  toolType := ToolType.read.code
  pathLen := 7
  sessionId := [115, 0]
  path := Bytes.encode "a.swift".toList ++ [0]

theorem within_iff_small :
    Within maxResponseContent
        (handleRequest (boot (skillOfSize 1)) swiftRequest (fun _ => 0) maxResponseContent 0) ↔
      (Choice.start (boot (skillOfSize 1))).AllExact (boot (skillOfSize 1)) swiftRequest.session
        maxResponseContent ((boot (skillOfSize 1)).ranked swiftRequest) :=
  within_iff _ _ _ (by decide) (by decide) 0

theorem AllSound.copied_le {bufSize : Int} {events : List Event} (h : AllSound bufSize events)
    {e : Event} (he : e ∈ events) {off : Int} {size : Nat}
    (hcopied : e.copied? = some (off, size)) :
    off + size ≤ bufSize := by
  obtain ⟨before, after, rfl⟩ := List.append_of_mem he
  have hsound := h before e after rfl
  cases e with
  | separated off' size' =>
    obtain ⟨rfl, rfl⟩ := Prod.mk.inj (Option.some.inj hcopied)
    exact hsound.2
  | placed session skillId off' size' =>
    obtain ⟨rfl, rfl⟩ := Prod.mk.inj (Option.some.inj hcopied)
    exact hsound.2
  | summed value => cases hcopied
  | reset => cases hcopied
  | marked entry => cases hcopied

/-- A file of 2 GiB has a negative size as an `int`, passes the budget check, and is
copied into a buffer of 24 KiB. -/
theorem overflows_content_buf : ¬ ∀ (g : Router) (req : RequestMsg) (contentBuf : Buffer)
    (outSkillCount : UInt8), Within maxResponseContent
      (handleRequest g req contentBuf maxResponseContent outSkillCount) := by
  intro h
  have hsound := (h (boot (skillOfSize 2147483648)) swiftRequest (fun _ => 0) 0).sound
  have hcopy : ((handleRequest (boot (skillOfSize 2147483648)) swiftRequest (fun _ => 0)
      maxResponseContent 0).events.map Event.copied?)[1]? = some (some (0, 2147483648)) := by
    decide +kernel
  rw [List.getElem?_map] at hcopy
  obtain ⟨e, he, hcopied⟩ := Option.map_eq_some_iff.mp hcopy
  exact absurd (hsound.copied_le (List.mem_of_getElem? he) hcopied) (by decide)

end Sockd.Reference
