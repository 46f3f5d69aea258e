import Sockd.Reference.Reload

/-!
# Session dedup of the reference router

A run is read as the sequence of its `Event`s. `current` is what the events say
the dedup table holds: the pairs added since it was last emptied. `Tracked` is
the invariant that ties the table to the events; a round of phase 3 keeps it
(`Selecting.selectHit`), also when marking a skill empties the table in the middle
of a request, and from there requests and whole runs do (`tracked_serve`).

`Selecting` ties the events to the bytes as well: the skills that were copied are what
`content_buf` and `total_bytes` hold (`Router.copies`), so the entries that a request
adds are those of the skills in its reply (`ReplyHolds`).
-/

namespace Sockd.Reference

open C

/-- The (session, skill) pair of an entry. -/
def DedupEntry.pair (e : DedupEntry) : Str × Str := (e.sessionId.str, e.skillId.str)

/-- What one event does to the pairs in the table. -/
def Event.apply (pairs : List (Str × Str)) : Event → List (Str × Str)
  | .reset => []
  | .marked entry => pairs ++ [entry.pair]
  | _ => pairs

/-- The pairs added since the table was last emptied. -/
def current (events : List Event) : List (Str × Str) := events.foldl Event.apply []

/-- The pair whose content an event copies. -/
def Event.placement? : Event → Option (Str × Str)
  | .placed session skillId _ _ => some (session, skillId)
  | _ => none

/-- The pair whose entry an event adds. -/
def Event.addition? : Event → Option (Str × Str)
  | .marked entry => some entry.pair
  | _ => none

/-- The pairs whose content was copied into a response, in order. -/
def placements (events : List Event) : List (Str × Str) := events.filterMap Event.placement?

/-- The pairs whose entries were added, in order. -/
def additions (events : List Event) : List (Str × Str) := events.filterMap Event.addition?

theorem placements_append (events more : List Event) :
    placements (events ++ more) = placements events ++ placements more :=
  List.filterMap_append

theorem additions_append (events more : List Event) :
    additions (events ++ more) = additions events ++ additions more :=
  List.filterMap_append

/-- An event of the byte budget, which has nothing to do with the table. -/
def Event.Plain : Event → Prop
  | .summed _ => True
  | .separated _ _ => True
  | _ => False

section
variable {e : Event} (he : e.Plain)
include he

theorem Event.Plain.placement?_eq_none : e.placement? = none := by
  cases e <;> first | rfl | exact he.elim

theorem Event.Plain.addition?_eq_none : e.addition? = none := by
  cases e <;> first | rfl | exact he.elim

theorem Event.Plain.apply_eq (pairs : List (Str × Str)) : e.apply pairs = pairs := by
  cases e <;> first | rfl | exact he.elim

end

theorem current_append_singleton (events : List Event) (e : Event) :
    current (events ++ [e]) = e.apply (current events) := by
  simp [current]

/-- Without a reset after it, an entry that was added is current. -/
theorem mem_current {before after : List Event} {entry : DedupEntry}
    (h : Event.reset ∉ after) : entry.pair ∈ current (before ++ .marked entry :: after) := by
  induction after using List.reverseRecOn with
  | nil =>
    rw [current_append_singleton]
    exact List.mem_append_right _ (List.mem_singleton_self _)
  | append_singleton after e ih =>
    rw [List.mem_append, not_or] at h
    have hmem := ih h.1
    rw [← List.cons_append, ← List.append_assoc, current_append_singleton]
    cases e with
    | reset => exact absurd (List.mem_singleton_self _) h.2
    | marked entry' => exact List.mem_append_left _ hmem
    | summed value => exact hmem
    | separated off size => exact hmem
    | placed session skillId off size => exact hmem

/-- No pair was current when its content was copied. -/
def Fresh (events : List Event) : Prop :=
  ∀ before session skillId off size,
    before ++ [Event.placed session skillId off size] <+: events →
      (session, skillId) ∉ current before

/-- One more event, which copies at most a pair that is not current. -/
theorem Fresh.append_singleton {events : List Event} (h : Fresh events) {e : Event}
    (he : ∀ pair, e.placement? = some pair → pair ∉ current events) : Fresh (events ++ [e]) := by
  intro before session skillId off size hinit
  rcases List.prefix_concat_iff.mp hinit with heq | hshort
  · obtain ⟨rfl, hlast⟩ := List.append_inj' heq rfl
    obtain rfl := List.singleton_inj.mp hlast
    exact he _ rfl
  · exact h before session skillId off size hshort

/-- Between the adding of an entry and the next copy of its pair lies a reset. -/
theorem Fresh.reset_between {before between after : List Event} {entry : DedupEntry} {off : Int}
    {size : Nat} (h : Fresh (before ++ .marked entry :: (between ++
      .placed entry.sessionId.str entry.skillId.str off size :: after))) :
    Event.reset ∈ between := by
  by_contra hno
  apply h (before ++ .marked entry :: between) entry.sessionId.str entry.skillId.str off size
  · exact ⟨after, by simp⟩
  · exact mem_current hno

/-- After each of the events no two current pairs are the same. -/
def Distinct (events : List Event) : Prop := ∀ before, before <+: events → (current before).Nodup

theorem Distinct.append_singleton {events : List Event} (h : Distinct events) {e : Event}
    (he : (current (events ++ [e])).Nodup) : Distinct (events ++ [e]) := by
  intro before hinit
  rcases List.prefix_concat_iff.mp hinit with heq | hshort
  · rw [heq]
    exact he
  · exact h before hshort

/-- The table and the events so far: the entries in use are the current pairs,
which were distinct all the time, entries were added for the copies that were
made, and no pair was current when its content was copied. -/
structure Tracked (events : List Event) (dedup : Table DedupEntry maxDedupEntries) : Prop where
  live : dedup.live.map DedupEntry.pair = current events
  distinct : Distinct events
  paired : placements events = additions events
  fresh : Fresh events

namespace Tracked

variable {events : List Event} {dedup : Table DedupEntry maxDedupEntries}

/-- An empty table at the start of the events. -/
theorem nil (hempty : dedup.count = 0) : Tracked [] dedup where
  live := by
    rw [Table.live_of_count hempty]
    rfl
  distinct := by
    intro before hinit
    rw [List.prefix_nil.mp hinit]
    exact List.nodup_nil
  paired := rfl
  fresh := by
    intro before session skillId off size hinit
    rw [List.prefix_nil] at hinit
    simp at hinit

/-- The byte budget does not touch the table. -/
theorem plain (h : Tracked events dedup) {e : Event} (he : e.Plain) :
    Tracked (events ++ [e]) dedup := by
  have hplace := he.placement?_eq_none
  have hadd := he.addition?_eq_none
  have hcurrent : current (events ++ [e]) = current events := by
    rw [current_append_singleton, he.apply_eq]
  refine ⟨?_, ?_, ?_, ?_⟩
  · rw [hcurrent]
    exact h.live
  · apply h.distinct.append_singleton
    rw [hcurrent]
    exact h.distinct events List.prefix_rfl
  · have hsame : placements [e] = additions [e] := by simp [placements, additions, hplace, hadd]
    rw [placements_append, additions_append, h.paired, hsame]
  · apply h.fresh.append_singleton
    intro pair hpair
    rw [hplace] at hpair
    cases hpair

theorem plains (h : Tracked events dedup) {more : List Event} (hmore : ∀ e ∈ more, e.Plain) :
    Tracked (events ++ more) dedup := by
  induction more generalizing events with
  | nil =>
    rw [List.append_nil]
    exact h
  | cons e more ih =>
    rw [List.append_cons]
    apply ih (h.plain (hmore e List.mem_cons_self))
    exact fun e' he' => hmore e' (List.mem_cons_of_mem _ he')

/-- `is_deduped` looks for the pair among the current ones. -/
theorem isDeduped_iff (h : Tracked events dedup) (session skillId : Str) :
    isDeduped dedup session skillId = true ↔ (session, skillId) ∈ current events := by
  rw [← h.live]
  simp [isDeduped, DedupEntry.pair]

end Tracked

/-- What is read back from an entry is what was copied into it, when it fits. -/
theorem DedupEntry.pair_write {session skillId : Str} (hsession : session.strlen ≤ 63)
    (hskill : skillId.strlen ≤ 127) (e : DedupEntry) :
    (e.write session skillId).pair = (session, skillId) := by
  simp only [DedupEntry.pair, DedupEntry.write, Field.str_strncpy]
  rw [Str.truncate_of_le hsession, Str.truncate_of_le hskill]

/-- `mark_deduped` adds one entry for the pair: to the table, or after emptying it. -/
theorem markDeduped_cases (dedup : Table DedupEntry maxDedupEntries) {session skillId : Str}
    (hsession : session.strlen ≤ 63) (hskill : skillId.strlen ≤ 127) :
    ∃ entry, entry.pair = (session, skillId) ∧
      ((markDeduped dedup session skillId).2 = [.marked entry] ∧
          (markDeduped dedup session skillId).1.live = dedup.live ++ [entry] ∨
        (markDeduped dedup session skillId).2 = [.reset, .marked entry] ∧
          (markDeduped dedup session skillId).1.live = [entry]) := by
  unfold markDeduped
  split
  · next room =>
    refine ⟨_, DedupEntry.pair_write hsession hskill _, .inl ⟨rfl, ?_⟩⟩
    exact Table.live_grow _ _ _
  · refine ⟨_, DedupEntry.pair_write hsession hskill _, .inr ⟨rfl, ?_⟩⟩
    rw [Table.live_grow, Table.live_clear, List.nil_append]

/-- The copy of a skill that is not in the table yet, and its marking. -/
theorem Tracked.inject {events : List Event} {dedup : Table DedupEntry maxDedupEntries}
    (h : Tracked events dedup) {session skillId : Str} (hsession : session.strlen ≤ 63)
    (hskill : skillId.strlen ≤ 127) (hnew : isDeduped dedup session skillId = false) (off : Int)
    (size : Nat) :
    Tracked (events ++ .placed session skillId off size :: (markDeduped dedup session skillId).2)
      (markDeduped dedup session skillId).1 := by
  have hfree : (session, skillId) ∉ current events := by
    rw [← h.isDeduped_iff, hnew]
    exact Bool.false_ne_true
  have hplaced : Fresh (events ++ [.placed session skillId off size]) := by
    apply h.fresh.append_singleton
    intro pair hpair
    cases hpair
    exact hfree
  have hcurrent : current (events ++ [.placed session skillId off size]) = current events :=
    current_append_singleton _ _
  have hdistinct : Distinct (events ++ [.placed session skillId off size]) := by
    apply h.distinct.append_singleton
    rw [hcurrent]
    exact h.distinct events List.prefix_rfl
  obtain ⟨entry, hpair, hmark⟩ := markDeduped_cases dedup hsession hskill
  rcases hmark with ⟨hevents, hlive⟩ | ⟨hevents, hlive⟩
  · -- there was room
    have hcons : events ++ .placed session skillId off size :: [.marked entry] =
        events ++ [.placed session skillId off size] ++ [.marked entry] := by simp
    have hnow : current (events ++ [.placed session skillId off size] ++ [.marked entry]) =
        current events ++ [(session, skillId)] := by
      rw [current_append_singleton, hcurrent]
      simp [Event.apply, hpair]
    rw [hevents, hcons]
    refine ⟨?_, ?_, ?_, ?_⟩
    · rw [hnow, hlive, List.map_append, h.live]
      simp [hpair]
    · apply hdistinct.append_singleton
      rw [hnow]
      apply (h.distinct events List.prefix_rfl).append (List.nodup_singleton _)
      simpa using hfree
    · rw [List.append_assoc, placements_append, additions_append, h.paired]
      exact congrArg (additions events ++ [·]) hpair.symm
    · apply hplaced.append_singleton
      intro pair hp
      cases hp
  · -- the table was full and is emptied first
    have hcons : events ++ .placed session skillId off size :: [.reset, .marked entry] =
        events ++ [.placed session skillId off size] ++ [.reset] ++ [.marked entry] := by simp
    have hnow : current (events ++ [.placed session skillId off size] ++ [.reset] ++
        [.marked entry]) = [(session, skillId)] := by
      rw [current_append_singleton, current_append_singleton]
      simp [Event.apply, hpair]
    rw [hevents, hcons]
    refine ⟨?_, ?_, ?_, ?_⟩
    · rw [hnow, hlive]
      simp [hpair]
    · apply Distinct.append_singleton
      · apply hdistinct.append_singleton
        rw [current_append_singleton]
        exact List.nodup_nil
      · rw [hnow]
        exact List.nodup_singleton _
    · rw [List.append_assoc, List.append_assoc, placements_append, additions_append, h.paired]
      exact congrArg (additions events ++ [·]) hpair.symm
    · apply Fresh.append_singleton
      · apply hplaced.append_singleton
        intro pair hp
        cases hp
      · intro pair hp
        cases hp

/-! ## The content of a response -/

/-- The content of a skill. -/
def Router.contentOf (g : Router) (idx : Nat) : Bytes :=
  (List.range (g.skill idx).size.toNat).map (g.bytesAt (g.skill idx).data)

/-- The contents of these skills, with the separator between them. -/
def Router.joined (g : Router) (skills : List Nat) : Bytes :=
  sep.intercalate (skills.map g.contentOf)

/-- `content_buf` and `total_bytes` once the separator is copied behind what is there. -/
def withSep (w : Buffer × Int) : Buffer × Int :=
  (memcpy w.1 w.2 (fun i => sep.getD i 0) sepLen, int (w.2 + sepLen))

/-- The same once the content of a skill is. -/
def Router.appended (g : Router) (w : Buffer × Int) (x : Nat) : Buffer × Int :=
  (memcpy w.1 w.2 (g.bytesAt (g.skill x).data) (g.skill x).size.toNat,
    int (w.2 + (g.skill x).size.toNat))

/-- `content_buf` and `total_bytes` after the contents of these skills were copied one
after the other, with the separator between them. -/
def Router.copies (g : Router) (contentBuf : Buffer) : List Nat → Buffer × Int
  | [] => (contentBuf, 0)
  | x :: rest => rest.foldl (fun w y => g.appended (withSep w) y) (g.appended (contentBuf, 0) x)

section Joined

variable (g : Router) (contentBuf : Buffer) (skills : List Nat) (x : Nat)

theorem intercalate_concat {α : Type} (sep : List α) (parts : List (List α)) (part : List α) :
    sep.intercalate (parts ++ [part]) =
      sep.intercalate parts ++ (if parts = [] then [] else sep) ++ part := by
  induction parts with
  | nil => simp
  | cons first rest ih =>
    have hne : rest ++ [part] ≠ [] := by simp
    rw [List.cons_append, List.intercalate_cons_of_ne_nil hne, ih, if_neg (List.cons_ne_nil _ _)]
    by_cases hrest : rest = []
    · subst hrest
      simp
    · rw [List.intercalate_cons_of_ne_nil hrest, if_neg hrest]
      simp only [List.append_assoc]

theorem Router.joined_concat :
    g.joined (skills ++ [x]) =
      g.joined skills ++ (if skills = [] then [] else sep) ++ g.contentOf x := by
  unfold Router.joined
  rw [List.map_append, List.map_cons, List.map_nil, intercalate_concat]
  simp only [List.map_eq_nil_iff]

theorem Router.length_contentOf : (g.contentOf x).length = (g.skill x).size.toNat := by
  rw [Router.contentOf, List.length_map, List.length_range]

/-- The length of a response with another skill. -/
theorem Router.length_joined_concat :
    (g.joined (skills ++ [x])).length = (g.joined skills).length +
      (if skills = [] then 0 else sepLen) + (g.skill x).size.toNat := by
  rw [g.joined_concat, List.length_append, List.length_append, g.length_contentOf]
  split <;> rfl

/-- Another skill is copied behind the others. -/
theorem Router.copies_concat :
    g.copies contentBuf (skills ++ [x]) = g.appended (if skills = [] then
      g.copies contentBuf skills else withSep (g.copies contentBuf skills)) x := by
  cases skills with
  | nil => rfl
  | cons first rest =>
    rw [if_neg (List.cons_ne_nil _ _), List.cons_append]
    exact List.foldl_concat _ _ _ _

theorem map_getD_sep : (List.range sepLen).map (fun i => sep.getD i 0) = sep := by decide

/-- The buffer starts with these bytes, and they are all that is counted. -/
def Filled (w : Buffer × Int) (bytes : Bytes) : Prop :=
  w.2 = bytes.length ∧ w.1.first bytes.length = bytes

/-- What is copied behind them is counted too, as long as the sum fits. -/
theorem Filled.append {w : Buffer × Int} {bytes : Bytes} (h : Filled w bytes)
    (src : Nat → UInt8) {size : Nat} (hfits : bytes.length + size < 2 ^ 31) :
    Filled (memcpy w.1 w.2 src size, int (w.2 + size)) (bytes ++ (List.range size).map src) := by
  obtain ⟨htotal, hfirst⟩ := h
  have hlen : (bytes ++ (List.range size).map src).length = bytes.length + size := by simp
  constructor
  · show int (w.2 + size) = _
    rw [hlen, htotal, int_eq (by omega) (by omega)]
    rfl
  · show Buffer.first (memcpy w.1 w.2 src size) _ = _
    rw [hlen, htotal, Buffer.first_memcpy, hfirst]

/-- As long as the sums fit an `int`, the copies make up the joined contents. -/
theorem Router.filled_copies (h : (g.joined skills).length < 2 ^ 31) :
    Filled (g.copies contentBuf skills) (g.joined skills) := by
  induction skills using List.reverseRecOn with
  | nil => exact ⟨rfl, rfl⟩
  | append_singleton skills x ih =>
    have hlen := g.length_joined_concat skills x
    have hbefore := ih (by omega)
    -- the separator comes first, unless the buffer is still empty
    have hsep : Filled
        (if skills = [] then g.copies contentBuf skills else withSep (g.copies contentBuf skills))
        (g.joined skills ++ if skills = [] then [] else sep) := by
      by_cases hempty : skills = []
      · rw [if_pos hempty, if_pos hempty, List.append_nil]
        exact hbefore
      · rw [if_neg hempty] at hlen
        rw [if_neg hempty, if_neg hempty, ← map_getD_sep]
        exact hbefore.append _ (by omega)
    rw [g.copies_concat, g.joined_concat]
    refine hsep.append _ ?_
    rw [g.joined_concat, List.length_append, g.length_contentOf] at h
    exact h

variable {g} {g' : Router} (hskills : g'.skills = g.skills) (hspace : g'.space = g.space)
include hskills hspace

/-- The skills and their mappings are all that matters. -/
theorem Router.copies_congr : g'.copies = g.copies := by
  have happended : g'.appended = g.appended := by
    funext w x
    unfold Router.appended Router.bytesAt Router.skill
    rw [hskills, hspace]
  funext contentBuf skills
  cases skills with
  | nil => rfl
  | cons x rest =>
    unfold Router.copies
    rw [happended]

end Joined

/-! ## One request -/

/-- The pairs of these skills with the session. -/
def Router.pairs (g : Router) (session : Str) (skills : List Nat) : List (Str × Str) :=
  skills.map fun x => (session, (g.skill x).id.str)

/-- Phase 3 in a request of the session, after the events `before`: the table is
tracked, and the skills that were copied and counted are those in the buffer. -/
structure Selecting (g : Router) (contentBuf : Buffer) (before : List Event) (session : Str)
    (s : Selection) : Prop where
  tracked : Tracked (before ++ s.events) s.dedup
  copied : ∃ skills, placements s.events = g.pairs session skills ∧ skills.length = s.selected ∧
    (s.content, s.totalBytes) = g.copies contentBuf skills
  few : s.selected ≤ maxSkillsPerResponse

namespace Selecting

variable {g : Router} {contentBuf : Buffer} {before : List Event} {session : Str} {s : Selection}

theorem placements_plains {events : List Event} (hplain : ∀ e ∈ events, e.Plain) :
    placements events = [] := by
  apply List.filterMap_eq_nil_iff.mpr
  intro e he
  exact (hplain e he).placement?_eq_none

/-- What phase 3 does beside copying keeps the invariant. -/
theorem note (h : Selecting g contentBuf before session s) {s' : Selection} (events : List Event)
    (hplain : ∀ e ∈ events, e.Plain) (hevents : s'.events = s.events ++ events)
    (hdedup : s'.dedup = s.dedup) (hselected : s'.selected = s.selected)
    (hcontent : s'.content = s.content) (htotal : s'.totalBytes = s.totalBytes) :
    Selecting g contentBuf before session s' := by
  refine ⟨?_, ?_, ?_⟩
  · rw [hevents, hdedup, ← List.append_assoc]
    exact h.tracked.plains hplain
  · rw [hevents, placements_append, placements_plains hplain, List.append_nil, hselected,
      hcontent, htotal]
    exact h.copied
  · rw [hselected]
    exact h.few

theorem sum (h : Selecting g contentBuf before session s) (a b : Int) :
    Selecting g contentBuf before session (s.sum a b) :=
  h.note [.summed (a + b)] (by simp [Event.Plain]) rfl rfl rfl rfl rfl

/-- The copy of a skill is the one placement that it makes: marking copies nothing. -/
theorem placements_place (skill : MappedSkill) :
    placements (s.place g session skill).events =
      placements s.events ++ [(session, skill.id.str)] := by
  have hmark : placements (markDeduped s.dedup session skill.id.str).2 = [] := by
    unfold markDeduped
    split
    next => rfl
    next => rfl
  show placements (s.events ++ ([_] ++ (markDeduped s.dedup session skill.id.str).2)) = _
  rw [placements_append, placements_append, hmark, List.append_nil]
  rfl

/-- The copy of a skill, behind a separator unless it is the first. -/
theorem place (h : Selecting g contentBuf before session s) (hsession : session.strlen ≤ 63)
    (hroom : s.selected < maxSkillsPerResponse) (x : Nat)
    (hnew : isDeduped s.dedup session (g.skill x).id.str = false) :
    Selecting g contentBuf before session
      ((if s.selected > 0 then s.separate else s).place g session (g.skill x)) := by
  obtain ⟨skills, hplaced, hcount, hcopies⟩ := h.copied
  obtain ⟨t, ht⟩ : ∃ t, t = if s.selected > 0 then s.separate else s := ⟨_, rfl⟩
  -- the separator is neither counted nor marked
  obtain ⟨events, hplain, hevents, hdedup, hselected⟩ : ∃ events, (∀ e ∈ events, e.Plain) ∧
      t.events = s.events ++ events ∧ t.dedup = s.dedup ∧ t.selected = s.selected := by
    rw [ht]
    split
    next => exact ⟨_, by simp [Event.Plain], rfl, rfl, rfl⟩
    next => exact ⟨[], nofun, (List.append_nil _).symm, rfl, rfl⟩
  have hbuffer : (t.content, t.totalBytes) = if skills = [] then g.copies contentBuf skills
      else withSep (g.copies contentBuf skills) := by
    rw [ht, ← hcopies, ← hcount]
    by_cases hempty : skills = []
    · rw [if_pos hempty, hempty]
      rfl
    · rw [if_neg hempty, if_pos (List.length_pos_of_ne_nil hempty)]
      rfl
  rw [← ht]
  have hmore : placements (t.place g session (g.skill x)).events =
      placements s.events ++ [(session, (g.skill x).id.str)] := by
    rw [placements_place, hevents, placements_append, placements_plains hplain, List.append_nil]
  refine ⟨?_, ⟨skills ++ [x], ?_, ?_, ?_⟩, ?_⟩
  · show Tracked (before ++ (t.events ++ _ :: (markDeduped t.dedup session (g.skill x).id.str).2)) _
    have htracked : Tracked (before ++ t.events) t.dedup := by
      rw [hevents, hdedup, ← List.append_assoc]
      exact h.tracked.plains hplain
    rw [← hdedup] at hnew
    rw [← List.append_assoc]
    exact htracked.inject hsession (g.skill x).id.strlen_str_le hnew _ _
  · rw [hmore, hplaced]
    unfold Router.pairs
    rw [List.map_append]
    rfl
  · rw [List.length_append, hcount, ← hselected]
    rfl
  · rw [g.copies_concat, ← hbuffer]
    rfl
  · show t.selected + 1 ≤ _
    rw [hselected]
    exact hroom

theorem placeBehind (h : Selecting g contentBuf before session s) (hsession : session.strlen ≤ 63)
    (hroom : s.selected < maxSkillsPerResponse) (x : Nat)
    (hnew : isDeduped s.dedup session (g.skill x).id.str = false) (hpos : s.selected > 0) :
    Selecting g contentBuf before session (s.separate.place g session (g.skill x)) := by
  have hplace := h.place hsession hroom x hnew
  rw [if_pos hpos] at hplace
  exact hplace

theorem placeFirst (h : Selecting g contentBuf before session s) (hsession : session.strlen ≤ 63)
    (hroom : s.selected < maxSkillsPerResponse) (x : Nat)
    (hnew : isDeduped s.dedup session (g.skill x).id.str = false) (hfirst : ¬ s.selected > 0) :
    Selecting g contentBuf before session (s.place g session (g.skill x)) := by
  have hplace := h.place hsession hroom x hnew
  rw [if_neg hfirst] at hplace
  exact hplace

/-- A round of phase 3. -/
theorem selectHit (h : Selecting g contentBuf before session s) (hsession : session.strlen ≤ 63)
    (hroom : s.selected < maxSkillsPerResponse) (bufSize : Int) (earlier : List Hit) (hit : Hit) :
    Selecting g contentBuf before session (selectHit g session bufSize earlier s hit) := by
  unfold Reference.selectHit
  dsimp only
  split
  · exact h
  · split
    · exact h
    · next hnew =>
      rw [Bool.not_eq_true] at hnew
      -- from here on the skill is new to the session
      have hsum : Selecting g contentBuf before session ({ s with allDeduped := false }.sum
          s.totalBytes (int (g.skill hit.skillIdx).size.toNat)) :=
        h.note [.summed _] (by simp [Event.Plain]) rfl rfl rfl rfl rfl
      split
      · exact hsum
      · split
        · next hpos =>
          split
          · exact (hsum.sum _ _).sum _ _
          · exact ((hsum.sum _ _).sum _ _).placeBehind hsession hroom hit.skillIdx hnew hpos
        · next hfirst => exact hsum.placeFirst hsession hroom hit.skillIdx hnew hfirst

theorem selectHits (h : Selecting g contentBuf before session s) (hsession : session.strlen ≤ 63)
    (bufSize : Int) (earlier hits : List Hit) :
    Selecting g contentBuf before session (selectHits g session bufSize earlier hits s) := by
  induction hits generalizing earlier s with
  | nil => exact h
  | cons hit hits ih =>
    unfold Reference.selectHits
    split
    · next hroom => exact ih (h.selectHit hsession hroom bufSize earlier hit) _
    · exact h

end Selecting

/-- What a request of the session did: the table stays tracked, and the skills that were
copied for the session are those in the buffer, as many as the response says. -/
structure Answered (g : Router) (contentBuf : Buffer) (before : List Event) (session : Str)
    (r : Routed) : Prop where
  tracked : Tracked (before ++ r.events) r.state.dedup
  copied : ∃ skills, placements r.events = g.pairs session skills ∧
    r.skillCount.toNat = skills.length ∧ (r.content, r.totalBytes) = g.copies contentBuf skills

/-- The session id of a terminated request is short enough for an entry. -/
theorem RequestMsg.Terminated.strlen_session {req : RequestMsg} (h : req.Terminated)
    (hsize : req.sessionId.length ≤ sessionIdLen) : req.session.strlen ≤ 63 := by
  unfold RequestMsg.session
  rw [Str.ofMem_append_of_mem h.1]
  have := Str.strlen_ofMem_lt h.1
  have : sessionIdLen = 64 := rfl
  omega

/-- The count in the response is the number of skills selected. -/
theorem toNat_skillCount {n : Nat} (h : n ≤ maxSkillsPerResponse) :
    (if n > 0 then UInt8.ofNat n else 0).toNat = n := by
  have hle : n ≤ 3 := h
  split
  · rw [UInt8.toNat_ofNat']
    omega
  · show 0 = n
    omega

theorem answered_handleRequest {g : Router} {before : List Event} (h : Tracked before g.dedup)
    {req : RequestMsg} (hsession : req.session.strlen ≤ 63) (contentBuf : Buffer) (bufSize : Int) :
    Answered g contentBuf before req.session (handleRequest g req contentBuf bufSize 0) := by
  have hstart : Selecting g contentBuf before req.session (Selection.start g contentBuf) := by
    refine ⟨?_, ⟨[], rfl, rfl, rfl⟩, Nat.zero_le _⟩
    show Tracked (before ++ []) g.dedup
    rw [List.append_nil]
    exact h
  unfold handleRequest
  dsimp only
  have hnone : Answered g contentBuf before req.session ⟨g, contentBuf, 0, 0, .noMatch, []⟩ :=
    ⟨hstart.tracked, ⟨[], rfl, rfl, rfl⟩⟩
  split
  · exact hnone
  · split
    · exact hnone
    · next rules hrules hhits =>
      have hend := hstart.selectHits hsession bufSize []
        (sortHits (collectHits rules req.pathStr req.basename))
      obtain ⟨skills, hplaced, hcount, hcopies⟩ := hend.copied
      refine ⟨hend.tracked, ⟨skills, hplaced, ?_, hcopies⟩⟩
      exact (toNat_skillCount hend.few).trans hcount.symm

/-! ## Runs -/

/-- When `read` succeeds, the strings of the request end inside of their arrays. -/
def Connection.Terminated (c : Connection) : Prop :=
  ∀ d, c.received = some d → (c.request d.1).Terminated

/-- The reply holds the contents of these skills: what copying one after the other leaves
in the buffer, counted as the code counts it. As long as the sums fit an `int` that is the
contents themselves, with the separator between them. -/
structure ReplyHolds (g : Router) (contentBuf : Buffer) (skills : List Nat) (resp : ResponseMsg)
    (body : Bytes) : Prop where
  count : resp.skillCount.toNat = skills.length
  length : resp.contentLen =
    UInt32.ofNat ((g.copies contentBuf skills).2 % 2 ^ 32).toNat
  copied : body = if 0 < (g.copies contentBuf skills).2 then
    (g.copies contentBuf skills).1.first (g.copies contentBuf skills).2.toNat else []
  joined : (g.joined skills).length < 2 ^ 31 →
    body = g.joined skills ∧ resp.contentLen.toNat = (g.joined skills).length

/-- What a connection did: it added an entry for each skill it copied, for its own session,
and these are the skills that its reply holds; without a reply there are none. -/
structure Injected (c : Connection) (served : Served) : Prop where
  paired : placements served.events = additions served.events
  own : ∀ pair ∈ placements served.events,
    ∃ d, c.received = some d ∧ pair.1 = (c.request d.1).session
  replied : ∀ resp body, served.reply = some (resp, body) →
    ∃ skills, (placements served.events).map Prod.snd =
        skills.map (fun x => (served.state.skill x).id.str) ∧
      ReplyHolds served.state c.contentBuf skills resp body
  silent : served.reply = none → placements served.events = []

/-- The events of a run, in order. -/
def eventsOf (run : List Served) : List Event := run.flatMap Served.events

/-- Loading and unloading skills does not touch the dedup table. -/
theorem dedup_reload (g : Router) (dir : Dir) : (reload g dir).dedup = g.dedup := by
  have hentry : ∀ (g : Router) (entry : DirEnt), (loadEntry g entry).dedup = g.dedup := by
    intro g entry
    unfold loadEntry mmapSkill
    repeat' split
    all_goals rfl
  have hload : ∀ g : Router, (loadAllSkills g dir).dedup = g.dedup := by
    intro g
    unfold loadAllSkills
    split
    · rfl
    · next entries =>
      induction entries generalizing g with
      | nil => rfl
      | cons entry entries ih => rw [List.foldl_cons, ih, hentry]
  simp only [reload, loadRules, hload, unloadAllSkills]

/-- A reply that is made of the copies. -/
theorem replyHolds_of_copies {g : Router} {contentBuf : Buffer} {skills : List Nat}
    {resp : ResponseMsg} {body : Bytes} (hcount : resp.skillCount.toNat = skills.length)
    (hlen : resp.contentLen = UInt32.ofNat ((g.copies contentBuf skills).2 % 2 ^ 32).toNat)
    (hbody : body = if 0 < (g.copies contentBuf skills).2 then
      (g.copies contentBuf skills).1.first (g.copies contentBuf skills).2.toNat else []) :
    ReplyHolds g contentBuf skills resp body := by
  refine ⟨hcount, hlen, hbody, fun hfits => ?_⟩
  obtain ⟨htotal, hfirst⟩ := g.filled_copies contentBuf skills hfits
  rw [htotal] at hlen hbody
  constructor
  · rw [hbody, Int.toNat_natCast, hfirst]
    -- nothing is written when nothing was copied
    split
    next => rfl
    next hzero =>
      have hempty : (g.joined skills).length = 0 := by omega
      exact (List.eq_nil_of_length_eq_zero hempty).symm
  · rw [hlen, UInt32.toNat_ofNat']
    omega

/-- The reply to a request holds the skills that were copied for its session. -/
theorem Answered.replied {g : Router} {before : List Event} {c : Connection} {req : RequestMsg}
    (h : Answered g c.contentBuf before req.session
      (handleRequest g req c.contentBuf maxResponseContent 0)) :
    ∃ skills, placements (route g c req).events = g.pairs req.session skills ∧
      ∀ resp body, (route g c req).reply = some (resp, body) →
        ReplyHolds (route g c req).state c.contentBuf skills resp body := by
  obtain ⟨skills, hplaced, hcount, hcopies⟩ := h.copied
  have hcontent : (handleRequest g req c.contentBuf maxResponseContent 0).content =
      (g.copies c.contentBuf skills).1 := congrArg Prod.fst hcopies
  have htotal : (handleRequest g req c.contentBuf maxResponseContent 0).totalBytes =
      (g.copies c.contentBuf skills).2 := congrArg Prod.snd hcopies
  obtain ⟨totalMatches, totalDeduped, hstate⟩ := route_state g c req
  refine ⟨skills, hplaced, ?_⟩
  intro resp body hreply
  obtain ⟨rfl, rfl⟩ := Prod.mk.inj (Option.some.inj hreply)
  have hsame : (route g c req).state.copies = g.copies := by
    rw [hstate]
    exact Router.copies_congr rfl rfl
  refine replyHolds_of_copies hcount ?_ ?_
  · rw [hsame, ← htotal]
  · rw [hsame, ← htotal, ← hcontent]

/-- Routing a request whose session id fits. -/
theorem tracked_route {g : Router} {before : List Event} (h : Tracked before g.dedup)
    (c : Connection) {req : RequestMsg} (hsession : req.session.strlen ≤ 63) :
    Tracked (before ++ (route g c req).events) (route g c req).state.dedup ∧
      placements (route g c req).events = additions (route g c req).events ∧
      (∀ pair ∈ placements (route g c req).events, pair.1 = req.session) ∧
      ∀ resp body, (route g c req).reply = some (resp, body) →
        ∃ skills, (placements (route g c req).events).map Prod.snd =
            skills.map (fun x => ((route g c req).state.skill x).id.str) ∧
          ReplyHolds (route g c req).state c.contentBuf skills resp body := by
  have hanswered := answered_handleRequest h hsession c.contentBuf maxResponseContent
  have htracked := hanswered.tracked
  obtain ⟨skills, hplaced, hholds⟩ := hanswered.replied
  obtain ⟨totalMatches, totalDeduped, hstate⟩ := route_state g c req
  have hskill : (route g c req).state.skill = g.skill := by
    rw [hstate]
    rfl
  refine ⟨?_, ?_, ?_, ?_⟩
  · rw [hstate]
    exact htracked
  · -- the events before the request are paired already
    have hpaired := htracked.paired
    rw [placements_append, additions_append, h.paired] at hpaired
    exact List.append_cancel_left hpaired
  · rw [hplaced]
    intro pair hpair
    obtain ⟨x, -, rfl⟩ := List.mem_map.mp hpair
    rfl
  · intro resp body hreply
    refine ⟨skills, ?_, hholds resp body hreply⟩
    rw [hplaced, hskill, Router.pairs, List.map_map]
    rfl

theorem tracked_processConnection {g : Router} {before : List Event}
    (h : Tracked before g.dedup) {c : Connection} (hc : c.Terminated) :
    Tracked (before ++ (processConnection g c).events) (processConnection g c).state.dedup ∧
      Injected c (processConnection g c) := by
  unfold processConnection
  rcases vet_cases g c with ⟨reply, hreply, hvet⟩ | ⟨d, hd, hvet⟩
  · -- not routed: no event, and the dedup table stays
    have hstay : ∀ state : Router, state.dedup = g.dedup →
        Tracked (before ++ []) state.dedup ∧ Injected c ⟨state, reply, []⟩ := by
      intro state hstate
      refine ⟨?_, rfl, fun pair hpair => (nomatch hpair), ?_, fun _ => rfl⟩
      · rw [hstate, List.append_nil]
        exact h
      · intro resp body hresp
        rcases hreply with hnone | hplain
        · exact nomatch hnone.symm.trans hresp
        · obtain ⟨rfl, rfl⟩ := Prod.mk.inj (Option.some.inj (hplain.symm.trans hresp))
          exact ⟨[], rfl, replyHolds_of_copies rfl rfl rfl⟩
    rcases hvet with hvet | hvet | hvet
    · rw [hvet]
      exact hstay g.counted rfl
    · rw [hvet]
      exact hstay { g.counted with running := false } rfl
    · rw [hvet]
      exact hstay (reload g.counted c.dir) (dedup_reload g.counted c.dir)
  · rw [hvet]
    have hsize : (c.request d.1).sessionId.length ≤ sessionIdLen := List.length_take_le _ _
    obtain ⟨htracked, hpaired, hown, hreplied⟩ :=
      tracked_route (show Tracked before g.counted.dedup from h) c ((hc d hd).strlen_session hsize)
    exact ⟨htracked, hpaired, fun pair hpair => ⟨d, hd, hown pair hpair⟩, hreplied,
      fun hnone => nomatch hnone⟩

theorem tracked_serve {g : Router} {before : List Event} (h : Tracked before g.dedup)
    {cs : List Connection} (hcs : ∀ c ∈ cs, c.Terminated) :
    Tracked (before ++ eventsOf (serve g cs).2) (serve g cs).1.dedup ∧
      List.Forall₂ Injected cs (serve g cs).2 := by
  induction cs generalizing g before with
  | nil =>
    refine ⟨?_, List.Forall₂.nil⟩
    show Tracked (before ++ []) g.dedup
    rw [List.append_nil]
    exact h
  | cons c cs ih =>
    obtain ⟨hone, hinjected⟩ := tracked_processConnection h (hcs c List.mem_cons_self)
    obtain ⟨hrest, hothers⟩ := ih hone fun c' hc' => hcs c' (List.mem_cons_of_mem _ hc')
    refine ⟨?_, List.Forall₂.cons hinjected hothers⟩
    show Tracked (before ++ eventsOf (processConnection g c :: _)) _
    rw [eventsOf, List.flatMap_cons, ← List.append_assoc]
    exact hrest

/-- What is to be said of the dedup table after the connections `cs`. -/
structure DedupsSessions (cs : List Connection) (run : Router × List Served) : Prop where
  /-- At most 1024 entries are in use. -/
  bounded : run.1.dedup.count ≤ maxDedupEntries
  /-- They are the pairs added since the table was last emptied. -/
  live : run.1.dedup.live.map DedupEntry.pair = current (eventsOf run.2)
  /-- They were distinct after every event, also in the middle of a request. -/
  distinct : ∀ before, before <+: eventsOf run.2 → (current before).Nodup
  /-- Entries were added exactly for what the replies hold. -/
  injected : List.Forall₂ Injected cs run.2
  /-- Between the adding of an entry and the next copy of its pair the table was emptied. -/
  reset : ∀ before entry between off size after,
    eventsOf run.2 = before ++ .marked entry :: (between ++
      .placed entry.sessionId.str entry.skillId.str off size :: after) →
    Event.reset ∈ between

/-- **Session dedup**: from an empty table, with any rules and skills, for any connections. -/
theorem session_dedup (g : Router) (hempty : g.dedup.count = 0) (cs : List Connection)
    (hcs : ∀ c ∈ cs, c.Terminated) : DedupsSessions cs (serve g cs) := by
  obtain ⟨htracked, hinjected⟩ := tracked_serve (Tracked.nil hempty) hcs
  rw [List.nil_append] at htracked
  refine ⟨(serve g cs).1.dedup.count_le, htracked.live, htracked.distinct, hinjected, ?_⟩
  intro before entry between off size after hevents
  have hfresh : Fresh (eventsOf (serve g cs).2) := htracked.fresh
  rw [hevents] at hfresh
  exact hfresh.reset_between

/-- The same request twice, for an empty session id. -/
def twice : List Connection :=
  [message .read (Bytes.encode "View.swift".toList) none,
    message .read (Bytes.encode "View.swift".toList) none]

theorem session_dedup_twice :
    DedupsSessions twice (serve { boot (oneSkill "twostraws--swiftui-pro") with
      dedup := Table.zero DedupEntry.zero } twice) := by
  refine session_dedup _ rfl twice ?_
  intro c hc d hd
  have hsame : c = message .read (Bytes.encode "View.swift".toList) none := by
    simpa [twice] using hc
  subst hsame
  obtain rfl := Option.some.inj hd
  exact ⟨by decide, by decide⟩

end Sockd.Reference
