import Sockd.Reference.Budget

/-!
# What the reference router selects

The skills of all matching rules, ranked by their highest matching priority with ties in
rule order, and from the ranking the greedy choice of at most three that are not injected
yet and fit the buffer (`greedy`). `handle_request` collects 64 hits at most, before it
sorts them; apart from that it returns this choice (`selects_ranked`). So what it returns
is right exactly if leaving out the later hits is harmless (`correct_iff`).
-/

namespace Sockd.Reference

open C

/-! ## What is meant -/

/-- The skills of all matching rules with their priorities, in rule order. -/
def matchingHits (rules : Table Rule maxRules) (path basename : Str) : List Hit :=
  (rules.live.filter fun rule => ruleMatches rule path basename).flatMap fun rule =>
    rule.skillIndices.live.map fun idx => ⟨idx, rule.priority⟩

/-- The matching rules of a request, in the table for its tool. -/
def Router.matching (g : Router) (req : RequestMsg) : List Hit :=
  match g.rulesFor req with
  | none => []
  | some rules => matchingHits rules req.pathStr req.basename

/-- The ranking of the skills of these hits. -/
abbrev RankedSkills (hits : List Hit) (ranking : List Nat) : Prop :=
  Ranking.Ranked Hit.priority Hit.skillIdx hits ranking

/-- The skill was injected in the session before the request. -/
def Router.Injected (g : Router) (session : Str) (x : Nat) : Prop :=
  isDeduped g.dedup session (g.skill x).id.str = true

instance (g : Router) (session : Str) (x : Nat) : Decidable (g.Injected session x) :=
  inferInstanceAs (Decidable (_ = _))

/-- One step of the greedy choice. -/
def Router.pick (g : Router) (session : Str) (bufSize : Int) (chosen : List Nat) (x : Nat) :
    List Nat :=
  if chosen.length < maxSkillsPerResponse ∧ ¬ g.Injected session x ∧
      ((g.joined (chosen ++ [x])).length : Int) ≤ bufSize then chosen ++ [x]
  else chosen

/-- The greedy choice from a ranking. -/
def Router.greedy (g : Router) (session : Str) (bufSize : Int) (ranking : List Nat) : List Nat :=
  ranking.foldl (g.pick session bufSize) []

/-- There is a match, and every matching skill was injected before. -/
def Router.AllInjected (g : Router) (session : Str) (ranking : List Nat) : Prop :=
  ranking ≠ [] ∧ ∀ x ∈ ranking, g.Injected session x

instance (g : Router) (session : Str) (ranking : List Nat) :
    Decidable (g.AllInjected session ranking) :=
  inferInstanceAs (Decidable (_ ∧ ∀ x ∈ ranking, g.Injected session x))

/-- The response is the greedy choice from the ranking. -/
structure Selects (g : Router) (req : RequestMsg) (bufSize : Int) (ranking : List Nat)
    (r : Routed) : Prop where
  skills : placements r.events =
    (g.greedy req.session bufSize ranking).map fun x => (req.session, (g.skill x).id.str)
  content : r.content.first r.totalBytes.toNat = g.joined (g.greedy req.session bufSize ranking)
  total : r.totalBytes = (g.joined (g.greedy req.session bufSize ranking)).length
  count : g.greedy req.session bufSize ranking ≠ [] →
    r.skillCount.toNat = (g.greedy req.session bufSize ranking).length
  matched : r.status = .matched ↔ g.greedy req.session bufSize ranking ≠ []
  deduped : r.status = .deduped ↔ g.AllInjected req.session ranking
  noMatch : r.status = .noMatch ↔
    g.greedy req.session bufSize ranking = [] ∧ ¬ g.AllInjected req.session ranking

/-- The response is the greedy choice from the skills of all matching rules. -/
def Correct (g : Router) (req : RequestMsg) (bufSize : Int) (r : Routed) : Prop :=
  ∃ ranking, RankedSkills (g.matching req) ranking ∧ Selects g req bufSize ranking r

/-! ## The states -/

/-- The rule tables that `add_rule` can build for these skills. -/
inductive Built (skills : Table MappedSkill maxMappedSkills) (isBash : Bool) :
    Table Rule maxRules → Prop
  | empty {rules : Table Rule maxRules} : rules.count = 0 → Built skills isBash rules
  | add {rules : Table Rule maxRules} (patterns : Str) (priority : Int) (skillIds : List Str) :
      Built skills isBash rules →
      Built skills isBash (addRule skills rules isBash patterns priority skillIds)

/-- The states in question: skills with distinct ids and sizes below 2 ^ 30, rules for
them, and a dedup table with room for three more entries. -/
structure Routable (g : Router) : Prop where
  distinct : (g.skills.live.map fun skill => skill.id.str).Nodup
  sizes : ∀ skill ∈ g.skills.live, 0 < skill.size.toNat ∧ skill.size.toNat < 2 ^ 30
  fileRules : Built g.skills false g.fileRules
  bashRules : Built g.skills true g.bashRules
  room : g.dedup.count + maxSkillsPerResponse ≤ maxDedupEntries

/-- The index is that of a skill. -/
abbrev Router.Valid (g : Router) (x : Nat) : Prop := x < g.skills.count

section Valid

variable {g : Router} {x y : Nat}

theorem Router.mem_live_skill (hx : g.Valid x) : g.skill x ∈ g.skills.live :=
  List.mem_of_getElem? (g.skills.slot_eq_live MappedSkill.zero hx)

/-- Distinct skills have distinct ids. -/
theorem Routable.id_inj (hg : Routable g) (hx : g.Valid x) (hy : g.Valid y)
    (h : (g.skill x).id.str = (g.skill y).id.str) : x = y := by
  have hat : ∀ {z}, g.Valid z → (g.skills.live.map fun skill => skill.id.str)[z]? =
      some (g.skill z).id.str := by
    intro z hz
    rw [List.getElem?_map, g.skills.slot_eq_live MappedSkill.zero hz]
    rfl
  have hlen : x < (g.skills.live.map fun skill => skill.id.str).length := by
    rw [List.length_map, g.skills.length_live]
    exact hx
  exact (List.getElem?_inj hlen hg.distinct).mp ((hat hx).trans (h ▸ (hat hy).symm))

theorem findSkillIndex_valid {skills : Table MappedSkill maxMappedSkills} {id : Str} {idx : Nat}
    (h : findSkillIndex skills id = some idx) : idx < skills.count := by
  obtain ⟨hlt, -⟩ := List.findIdx?_eq_some_iff_getElem.mp h
  rw [skills.length_live] at hlt
  exact hlt

theorem live_fill_items {cap : Nat} (t : Table Nat cap) (items : List Nat) :
    (t.fill (fun item _ => item) items).live = t.live ++ items.take (cap - t.count) :=
  (Table.live_fill (f := id) (fun _ _ => rfl) t items).trans (by rw [List.map_id])

/-- Rules refer to skills that there are. -/
theorem Built.valid {skills : Table MappedSkill maxMappedSkills} {isBash : Bool}
    {rules : Table Rule maxRules} (h : Built skills isBash rules) :
    ∀ rule ∈ rules.live, ∀ idx ∈ rule.skillIndices.live, idx < skills.count := by
  induction h with
  | empty hcount =>
    rw [Table.live_of_count hcount]
    exact nofun
  | @add rules patterns priority skillIds _ ih =>
    unfold addRule
    split
    next room =>
      intro rule hrule idx hidx
      rw [Table.live_grow] at hrule
      rcases List.mem_append.mp hrule with hrule | hrule
      · exact ih rule hrule idx hidx
      · obtain rfl := List.mem_singleton.mp hrule
        dsimp only at hidx
        rw [live_fill_items, Table.live_clear, List.nil_append] at hidx
        obtain ⟨id, -, hid⟩ := List.mem_filterMap.mp (List.mem_of_mem_take hidx)
        exact findSkillIndex_valid hid
    next => exact ih

theorem Routable.valid_rulesFor (hg : Routable g) {req : RequestMsg} {rules : Table Rule maxRules}
    (h : g.rulesFor req = some rules) :
    ∀ rule ∈ rules.live, ∀ idx ∈ rule.skillIndices.live, g.Valid idx := by
  unfold Router.rulesFor at h
  dsimp only at h
  split at h
  next =>
    obtain rfl := Option.some.inj h
    exact hg.fileRules.valid
  next =>
    split at h
    next =>
      obtain rfl := Option.some.inj h
      exact hg.bashRules.valid
    next => cases h

/-- Hits are of skills that there are. -/
theorem Routable.valid_matching (hg : Routable g) {req : RequestMsg} :
    ∀ hit ∈ g.matching req, g.Valid hit.skillIdx := by
  unfold Router.matching
  split
  next => exact nofun
  next rules hrules =>
    intro hit hhit
    obtain ⟨rule, hrule, hhit⟩ := List.mem_flatMap.mp hhit
    obtain ⟨idx, hidx, rfl⟩ := List.mem_map.mp hhit
    exact hg.valid_rulesFor hrules rule (List.mem_filter.mp hrule).1 idx hidx

end Valid

/-! ## Phases 1 and 2 -/

/-- The inner loop of phase 1. -/
theorem foldl_collect (f : Nat → Hit) (idxs : List Nat) (hits : List Hit) :
    idxs.foldl (fun hits idx => if hits.length ≥ 64 then hits else hits ++ [f idx]) hits =
      hits ++ (idxs.map f).take (64 - hits.length) := by
  induction idxs generalizing hits with
  | nil => simp
  | cons idx idxs ih =>
    rw [List.foldl_cons]
    split
    next hfull =>
      have hzero : 64 - hits.length = 0 := by omega
      rw [ih, hzero, List.take_zero, List.take_zero]
    next hroom =>
      obtain ⟨k, hk⟩ : ∃ k, 64 - hits.length = k + 1 := ⟨63 - hits.length, by omega⟩
      have hk' : 64 - (hits ++ [f idx]).length = k := by
        rw [List.length_append, List.length_singleton]
        omega
      rw [ih, hk, hk', List.map_cons, List.take_succ_cons, List.append_assoc]
      rfl

/-- Phase 1 keeps the first 64 hits of the matching rules. -/
theorem collectHits_eq (rules : Table Rule maxRules) (path basename : Str) :
    collectHits rules path basename = (matchingHits rules path basename).take 64 := by
  have hfold : ∀ (rs : List Rule) (hits : List Hit), rs.foldl (collectRule path basename) hits =
      hits ++ ((rs.filter fun rule => ruleMatches rule path basename).flatMap fun rule =>
        rule.skillIndices.live.map fun idx => (⟨idx, rule.priority⟩ : Hit)).take
          (64 - hits.length) := by
    intro rs
    induction rs with
    | nil => simp
    | cons rule rs ih =>
      intro hits
      rw [List.foldl_cons, ih]
      unfold collectRule
      split
      next hmatch =>
        rw [foldl_collect fun idx => ⟨idx, rule.priority⟩, List.filter_cons, if_pos hmatch,
          List.flatMap_cons, List.take_append, List.append_assoc]
        congr 2
        simp only [List.length_append, List.length_take, List.length_map]
        congr 1
        omega
      next hmatch => rw [List.filter_cons, if_neg hmatch]
  exact (hfold rules.live []).trans (List.nil_append _)

/-- Phase 2 is a stable sort. -/
theorem sortHits_eq (hits : List Hit) : sortHits hits = Ranking.stableSort Hit.priority hits := by
  have hshift : ∀ tmp sorted, shiftHit tmp sorted = Ranking.slide Hit.priority tmp sorted := by
    intro tmp sorted
    induction sorted with
    | nil => rfl
    | cons h rest ih =>
      unfold shiftHit Ranking.slide
      rw [ih]
  have hfold : (fun sorted tmp => shiftHit tmp sorted) =
      fun sorted tmp => Ranking.slide Hit.priority tmp sorted := by
    funext sorted tmp
    exact hshift tmp sorted
  unfold sortHits Ranking.stableSort
  rw [hfold]

/-- The skills come up in the order of the ranking of the first 64 hits. -/
theorem ranked_eq (g : Router) (req : RequestMsg) :
    g.ranked req = Ranking.ranking Hit.priority Hit.skillIdx ((g.matching req).take 64) := by
  unfold Router.ranked Router.matching
  cases g.rulesFor req with
  | none => rfl
  | some rules =>
    dsimp only
    rw [upcoming, List.map_nil, List.removeAll_nil, sortHits_eq, collectHits_eq]
    rfl

theorem rankedSkills_ranked (g : Router) (req : RequestMsg) :
    RankedSkills ((g.matching req).take 64) (g.ranked req) := by
  rw [ranked_eq]
  exact Ranking.ranked_ranking _

/-! ## Phase 3 -/

section Choosing

variable {g : Router} {session : Str} {bufSize : Int} {c : Choice} {x : Nat}

/-- A choice that is within the buffer stays so. -/
theorem total_step_le (hc : c.total g ≤ bufSize) :
    (c.step g session bufSize x).total g ≤ bufSize := by
  unfold Choice.step
  split
  next =>
    split
    next hfit => exact hfit
    next => exact hc
  next => exact hc

/-- What is chosen was not injected before. -/
theorem not_injected_of_mem_greedy {ranking : List Nat}
    (hx : x ∈ g.greedy session bufSize ranking) :
    x ∈ ranking ∧ ¬ g.Injected session x := by
  induction ranking using List.reverseRecOn with
  | nil => cases hx
  | append_singleton ranking y ih =>
    rw [Router.greedy, List.foldl_concat] at hx
    unfold Router.pick at hx
    split at hx
    next hpick =>
      rcases List.mem_append.mp hx with hx | hx
      · exact (ih hx).imp (List.mem_append_left _) id
      · obtain rfl := List.mem_singleton.mp hx
        exact ⟨by simp, hpick.2.1⟩
    next => exact (ih hx).imp (List.mem_append_left _) id

/-- Sizes below 2 ^ 30 are not narrowed. -/
theorem Routable.exact (hg : Routable g) (hbuf : bufSize ≤ 2 ^ 30) (hx : g.Valid x)
    (hc : c.total g ≤ bufSize) : c.Exact g bufSize x := by
  have hsize := (hg.sizes _ (Router.mem_live_skill hx)).2
  have hint : int (g.skill x).size.toNat = (g.skill x).size.toNat :=
    int_size (hsize.trans (by decide))
  have hsep : (sepLen : Int) = 7 := rfl
  refine ⟨?_, fun hfit _ => ?_, fun _ _ => hsize.trans (by decide)⟩
  · rw [hint]
    omega
  · rw [hint] at hfit ⊢
    omega

theorem Routable.allExact (hg : Routable g) (hbuf : bufSize ≤ 2 ^ 30) {ranking : List Nat}
    (hvalid : ∀ x ∈ ranking, g.Valid x) (hc : c.total g ≤ bufSize) :
    c.AllExact g session bufSize ranking := by
  induction ranking generalizing c with
  | nil => trivial
  | cons x rest ih =>
    refine ⟨fun _ => hg.exact hbuf (hvalid x List.mem_cons_self) hc, ?_⟩
    exact ih (fun y hy => hvalid y (List.mem_cons_of_mem _ hy)) (total_step_le hc)

/-- With room in the table, marking a skill does not touch the others. -/
theorem isDeduped_markDeduped {dedup : Table DedupEntry maxDedupEntries} {skillId other : Str}
    (hroom : dedup.count < maxDedupEntries) (hlen : skillId.strlen ≤ 127) (hne : skillId ≠ other) :
    isDeduped (markDeduped dedup session skillId).1 session other =
      isDeduped dedup session other := by
  unfold markDeduped isDeduped
  rw [dif_pos hroom, Table.live_grow, List.any_append, List.any_cons, List.any_nil]
  have hid : (dedup.slots[dedup.count].write session skillId).skillId.str = skillId := by
    rw [DedupEntry.write, Field.str_strncpy, Str.truncate_of_le hlen]
  rw [hid, beq_eq_false_iff_ne.mpr hne, Bool.and_false, Bool.or_false, Bool.or_false]

theorem count_markDeduped {dedup : Table DedupEntry maxDedupEntries} {skillId : Str}
    (hroom : dedup.count < maxDedupEntries) :
    (markDeduped dedup session skillId).1.count = dedup.count + 1 := by
  unfold markDeduped
  rw [dif_pos hroom]
  rfl

/-- After these skills came up the choice is the greedy one; the marks that were made do
not touch the skills to come. -/
structure Made (g : Router) (session : Str) (bufSize : Int) (done : List Nat) (c : Choice) :
    Prop where
  skills : c.skills = g.greedy session bufSize done
  subset : ∀ x ∈ c.skills, x ∈ done
  few : c.skills.length ≤ maxSkillsPerResponse
  dedup : ∀ y, g.Valid y → y ∉ c.skills →
    isDeduped c.dedup session (g.skill y).id.str = isDeduped g.dedup session (g.skill y).id.str
  room : c.dedup.count + (maxSkillsPerResponse - c.skills.length) ≤ maxDedupEntries
  flag : c.skills = [] → (c.allDeduped = true ↔ ∀ y ∈ done, g.Injected session y)

theorem Made.step (hg : Routable g) {done : List Nat} (h : Made g session bufSize done c)
    (hx : g.Valid x) (hnew : x ∉ done) :
    Made g session bufSize (done ++ [x]) (c.step g session bufSize x) := by
  have hgreedy : g.greedy session bufSize (done ++ [x]) = g.pick session bufSize c.skills x := by
    rw [h.skills]
    exact List.foldl_concat _ _ _ _
  have hnot : x ∉ c.skills := fun hmem => hnew (h.subset x hmem)
  have hopen : c.Open g session x ↔
      c.skills.length < maxSkillsPerResponse ∧ ¬ g.Injected session x := by
    unfold Choice.Open Router.Injected
    rw [h.dedup x hx hnot, Bool.not_eq_true]
  have hsubset : ∀ y ∈ c.skills, y ∈ done ++ [x] :=
    fun y hy => List.mem_append_left _ (h.subset y hy)
  unfold Choice.step
  split
  next hisOpen =>
    obtain ⟨hlen, hfresh⟩ := hopen.mp hisOpen
    split
    next hfit =>
      have hroom : c.dedup.count < maxDedupEntries := by
        have hroom := h.room
        omega
      refine ⟨?_, ?_, ?_, ?_, ?_, fun hempty => absurd hempty (by simp)⟩
      · rw [hgreedy, Router.pick, if_pos ⟨hlen, hfresh, hfit⟩]
      · intro y hy
        rcases List.mem_append.mp hy with hy | hy
        · exact hsubset y hy
        · exact List.mem_append_right _ hy
      · rw [List.length_append]
        exact hlen
      · intro y hy hynot
        rw [List.mem_append, not_or, List.mem_singleton] at hynot
        have hne : (g.skill x).id.str ≠ (g.skill y).id.str :=
          fun he => hynot.2 (hg.id_inj hx hy he).symm
        exact (isDeduped_markDeduped hroom (g.skill x).id.strlen_str_le hne).trans
          (h.dedup y hy hynot.1)
      · have hcount := h.room
        rw [count_markDeduped hroom, List.length_append, List.length_singleton]
        omega
    next hlong =>
      refine ⟨?_, hsubset, h.few, h.dedup, h.room, fun _ => ⟨nofun, fun hall => ?_⟩⟩
      · rw [hgreedy, Router.pick, if_neg fun hpick => hlong hpick.2.2]
      · exact absurd (hall x (by simp)) hfresh
  next hclosed =>
    refine ⟨?_, hsubset, h.few, h.dedup, h.room, fun hempty => ?_⟩
    · rw [hgreedy, Router.pick, if_neg fun hpick => hclosed (hopen.mpr ⟨hpick.1, hpick.2.1⟩)]
    · -- nothing is chosen yet, so the skill was injected before
      have hinjected : g.Injected session x := by
        by_contra hfresh
        exact hclosed (hopen.mpr ⟨by rw [hempty]; decide, hfresh⟩)
      rw [h.flag hempty]
      constructor
      · intro hall y hy
        rcases List.mem_append.mp hy with hy | hy
        · exact hall y hy
        · exact List.mem_singleton.mp hy ▸ hinjected
      · exact fun hall y hy => hall y (List.mem_append_left _ hy)

theorem made_start (hg : Routable g) : Made g session bufSize [] (Choice.start g) :=
  ⟨rfl, nofun, Nat.zero_le _, fun _ _ _ => rfl, hg.room, fun _ => ⟨fun _ => nofun, fun _ => rfl⟩⟩

theorem Made.foldl (hg : Routable g) {done rest : List Nat} (h : Made g session bufSize done c)
    (hvalid : ∀ y ∈ done ++ rest, g.Valid y) (hnodup : (done ++ rest).Nodup) :
    Made g session bufSize (done ++ rest) (rest.foldl (Choice.step g session bufSize) c) := by
  induction rest generalizing done c with
  | nil =>
    rw [List.append_nil]
    exact h
  | cons x rest ih =>
    rw [List.append_cons] at hvalid hnodup ⊢
    have hnew : x ∉ done := by
      have hparts := (List.nodup_append.mp hnodup).1
      rw [List.nodup_append] at hparts
      exact fun hmem => hparts.2.2 x hmem x (by simp) rfl
    exact ih (h.step hg (hvalid x (by simp)) hnew) hvalid hnodup

/-- A loop that made the greedy choice returns it. -/
theorem selects_result {req : RequestMsg} {ranking : List Nat} {s : Selection}
    (hend : Follows g req.session bufSize c s) (hmade : Made g req.session bufSize ranking c)
    (hne : ranking ≠ []) : Selects g req bufSize ranking (s.result g) := by
  have hall : c.skills = [] → (s.allDeduped = true ↔ g.AllInjected req.session ranking) := by
    intro hempty
    rw [hend.allDeduped, hmade.flag hempty]
    exact ⟨fun h => ⟨hne, h⟩, fun h => h.2⟩
  have hpicked : c.skills ≠ [] → ¬ g.AllInjected req.session ranking := by
    intro hchosen hinjected
    obtain ⟨x, hx⟩ := List.exists_mem_of_ne_nil _ hchosen
    rw [hmade.skills] at hx
    obtain ⟨hmem, hfresh⟩ := not_injected_of_mem_greedy hx
    exact hfresh (hinjected.2 x hmem)
  have hstatus : (s.result g).status =
      if c.skills ≠ [] then .matched else if s.allDeduped then .deduped else .noMatch := by
    show (if s.selected > 0 then _ else _) = _
    rw [hend.selected]
    exact if_congr List.length_pos_iff rfl rfl
  have htotal : s.totalBytes = ((g.joined c.skills).length : Int) := hend.total
  have hcases : ∀ status, (s.result g).status = status ↔
      (if c.skills ≠ [] then .matched
        else if g.AllInjected req.session ranking then .deduped else .noMatch) = status := by
    intro status
    rw [hstatus]
    by_cases hempty : c.skills = []
    · rw [if_neg (not_not.mpr hempty), if_neg (not_not.mpr hempty)]
      exact Iff.of_eq (congrArg (· = status) (if_congr (hall hempty) rfl rfl))
    · rw [if_pos hempty, if_pos hempty]
  refine ⟨?_, ?_, ?_, ?_, ?_, ?_, ?_⟩
  · rw [← hmade.skills]
    exact hend.placed
  · rw [← hmade.skills]
    show s.content.first s.totalBytes.toNat = _
    rw [htotal, Int.toNat_natCast]
    exact hend.content
  · rw [← hmade.skills]
    exact htotal
  · intro _
    have hfew : s.selected ≤ maxSkillsPerResponse := hend.selected ▸ hmade.few
    rw [← hmade.skills]
    exact (toNat_skillCount hfew).trans hend.selected
  · rw [hcases, ← hmade.skills]
    split
    next hne => simp [hne]
    next hempty => split <;> simp [hempty]
  · rw [hcases]
    split
    next hne => simp [hpicked hne]
    next hempty => split <;> simp [*]
  · rw [hcases, ← hmade.skills]
    split
    next hne => simp [hne]
    next hempty =>
      have hempty := not_not.mp hempty
      split <;> simp [*]

end Choosing

/-- The response is the greedy choice from the first 64 hits. -/
theorem selects_ranked {g : Router} (hg : Routable g) (req : RequestMsg) (contentBuf : Buffer)
    {bufSize : Int} (hle : 0 ≤ bufSize) (hbuf : bufSize ≤ 2 ^ 30) (outSkillCount : UInt8) :
    Selects g req bufSize (g.ranked req)
      (handleRequest g req contentBuf bufSize outSkillCount) := by
  have hranked := rankedSkills_ranked g req
  have hvalid : ∀ x ∈ g.ranked req, g.Valid x := by
    intro x hx
    obtain ⟨hit, hhit, rfl⟩ := (hranked.mem_iff x).mp hx
    exact hg.valid_matching hit (List.mem_of_mem_take hhit)
  have hnodup : (g.ranked req).Nodup :=
    hranked.ordered.imp fun hxy he => (he ▸ hxy).asymm (he ▸ hxy)
  have hnothing : g.ranked req = [] → Selects g req bufSize (g.ranked req)
      ⟨g, contentBuf, 0, outSkillCount, .noMatch, []⟩ := by
    intro hempty
    rw [hempty]
    refine ⟨rfl, rfl, rfl, fun h => absurd rfl h, ⟨nofun, fun h => absurd rfl h⟩, ⟨nofun, ?_⟩,
      fun _ => ⟨rfl, fun h => h.1 rfl⟩, fun _ => rfl⟩
    exact fun h => absurd rfl h.1
  have hmade : Made g req.session bufSize (g.ranked req)
      ((g.ranked req).foldl (Choice.step g req.session bufSize) (Choice.start g)) :=
    (made_start hg).foldl hg hvalid hnodup
  unfold handleRequest
  cases hrules : g.rulesFor req with
  | none =>
    refine hnothing ?_
    unfold Router.ranked
    rw [hrules]
  | some rules =>
    have hupcoming : g.ranked req =
        upcoming [] (sortHits (collectHits rules req.pathStr req.basename)) := by
      unfold Router.ranked
      rw [hrules]
    dsimp only
    split
    next hnone =>
      refine hnothing ?_
      rw [hupcoming, hnone]
      rfl
    next hsome =>
      have hne : g.ranked req ≠ [] := by
        obtain ⟨hit, hhit⟩ := List.exists_mem_of_ne_nil _ hsome
        rw [collectHits_eq] at hhit
        have hmatch : hit ∈ (g.matching req).take 64 := by
          unfold Router.matching
          rw [hrules]
          exact hhit
        exact List.ne_nil_of_mem ((hranked.mem_iff hit.skillIdx).mpr ⟨hit, hmatch, rfl⟩)
      have hexact : (Choice.start g).AllExact g req.session bufSize (g.ranked req) :=
        hg.allExact hbuf hvalid hle
      rw [hupcoming] at hexact
      rcases selectHits_cases (follows_start contentBuf hle) (by omega) []
        (sortHits (collectHits rules req.pathStr req.basename)) with ⟨-, hend⟩ | ⟨hnot, -⟩
      swap
      · exact absurd hexact hnot
      rw [← hupcoming] at hend
      exact selects_result hend hmade hne

/-! ## The hits after the 64th -/

/-- Leaving out the hits after the 64th changes neither the greedy choice nor whether
every matching skill was injected before. -/
def CapHarmless (g : Router) (req : RequestMsg) (bufSize : Int) : Prop :=
  ∃ all kept, RankedSkills (g.matching req) all ∧ RankedSkills ((g.matching req).take 64) kept ∧
    g.greedy req.session bufSize all = g.greedy req.session bufSize kept ∧
    (g.AllInjected req.session all ↔ g.AllInjected req.session kept)

/-- It does not even change the ranking. -/
def RankingKept (g : Router) (req : RequestMsg) : Prop :=
  ∃ ranking, RankedSkills (g.matching req) ranking ∧ RankedSkills ((g.matching req).take 64) ranking

theorem RankingKept.capHarmless {g : Router} {req : RequestMsg} (h : RankingKept g req)
    (bufSize : Int) : CapHarmless g req bufSize := by
  obtain ⟨ranking, hall, hkept⟩ := h
  exact ⟨ranking, ranking, hall, hkept, rfl, Iff.rfl⟩

/-- Later hits of skills that have as good a hit among the first 64 do not change it. -/
theorem rankingKept_of_covered {g : Router} {req : RequestMsg}
    (h : Ranking.Covered Hit.priority Hit.skillIdx ((g.matching req).take 64)
      ((g.matching req).drop 64)) : RankingKept g req := by
  have hkept : RankedSkills ((g.matching req).take 64) _ := Ranking.ranked_ranking _
  have hall := hkept.append h
  rw [List.take_append_drop] at hall
  exact ⟨_, hall, hkept⟩

/-- With at most 64 hits there is nothing to leave out. -/
theorem rankingKept_of_le {g : Router} {req : RequestMsg} (h : (g.matching req).length ≤ 64) :
    RankingKept g req := by
  refine rankingKept_of_covered ?_
  rw [List.drop_eq_nil_of_le h]
  exact nofun

section Cap

variable {g : Router} {req : RequestMsg} {bufSize : Int} {r₁ r₂ : List Nat} {r : Routed}

/-- Rankings with the same greedy choice ask for the same response. -/
theorem Selects.congr (h : Selects g req bufSize r₁ r)
    (hgreedy : g.greedy req.session bufSize r₂ = g.greedy req.session bufSize r₁)
    (hinjected : g.AllInjected req.session r₂ ↔ g.AllInjected req.session r₁) :
    Selects g req bufSize r₂ r := by
  refine ⟨?_, ?_, ?_, ?_, ?_, ?_, ?_⟩
  · rw [hgreedy]
    exact h.skills
  · rw [hgreedy]
    exact h.content
  · rw [hgreedy]
    exact h.total
  · rw [hgreedy]
    exact h.count
  · rw [hgreedy]
    exact h.matched
  · rw [hinjected]
    exact h.deduped
  · rw [hgreedy, hinjected]
    exact h.noMatch

/-- Skills that the response names alike are the same. -/
theorem Routable.named_inj (hg : Routable g) {session : Str} {xs ys : List Nat}
    (hxs : ∀ x ∈ xs, g.Valid x) (hys : ∀ y ∈ ys, g.Valid y)
    (h : (xs.map fun x => (session, (g.skill x).id.str)) =
      ys.map fun y => (session, (g.skill y).id.str)) : xs = ys := by
  induction xs generalizing ys with
  | nil => exact (List.map_eq_nil_iff.mp h.symm).symm
  | cons x xs ih =>
    obtain ⟨y, ys, rfl, hy, htail⟩ := List.map_eq_cons_iff.mp h.symm
    obtain rfl := hg.id_inj (hxs x (by simp)) (hys y (by simp)) (Prod.mk.inj hy).2.symm
    rw [ih (fun z hz => hxs z (by simp [hz])) (fun z hz => hys z (by simp [hz])) htail.symm]

/-- The response tells the choice. -/
theorem Selects.greedy_eq (hg : Routable g) (h₁ : Selects g req bufSize r₁ r)
    (h₂ : Selects g req bufSize r₂ r) (hv₁ : ∀ x ∈ r₁, g.Valid x) (hv₂ : ∀ x ∈ r₂, g.Valid x) :
    g.greedy req.session bufSize r₁ = g.greedy req.session bufSize r₂ := by
  refine hg.named_inj (fun x hx => ?_) (fun x hx => ?_) (h₁.skills.symm.trans h₂.skills)
  · exact hv₁ x (not_injected_of_mem_greedy hx).1
  · exact hv₂ x (not_injected_of_mem_greedy hx).1

/-- Rankings list skills that there are. -/
theorem Routable.valid_ranking (hg : Routable g) {hits : List Hit} {ranking : List Nat}
    (h : RankedSkills hits ranking) (hsub : ∀ hit ∈ hits, hit ∈ g.matching req) :
    ∀ x ∈ ranking, g.Valid x := by
  intro x hx
  obtain ⟨hit, hhit, rfl⟩ := (h.mem_iff x).mp hx
  exact hg.valid_matching hit (hsub hit hhit)

/-- The response is right exactly if the hits after the 64th make no difference. -/
theorem correct_iff_capHarmless (hg : Routable g) (contentBuf : Buffer) (hle : 0 ≤ bufSize)
    (hbuf : bufSize ≤ 2 ^ 30) (outSkillCount : UInt8) :
    Correct g req bufSize (handleRequest g req contentBuf bufSize outSkillCount) ↔
      CapHarmless g req bufSize := by
  have hkept := selects_ranked hg req contentBuf hle hbuf outSkillCount
  have hranked := rankedSkills_ranked g req
  constructor
  · intro hcorrect
    obtain ⟨all, hall, hselects⟩ := hcorrect
    have hv₁ := hg.valid_ranking hall fun _ => id
    have hv₂ := hg.valid_ranking hranked fun _ => List.mem_of_mem_take
    exact ⟨all, _, hall, hranked, hselects.greedy_eq hg hkept hv₁ hv₂,
      hselects.deduped.symm.trans hkept.deduped⟩
  · intro hharmless
    obtain ⟨all, kept, hall, hkept', hgreedy, hinjected⟩ := hharmless
    obtain rfl := Ranking.ranked_unique hkept' hranked
    exact ⟨all, hall, hkept.congr hgreedy hinjected⟩

end Cap

/-! ## Other skills, the same rules -/

/-- The states have the same rules. -/
structure SameRules (g g' : Router) : Prop where
  fileRules : g'.fileRules = g.fileRules
  bashRules : g'.bashRules = g.bashRules

/-- The same rules match. -/
theorem SameRules.matching_eq {g g' : Router} (h : SameRules g g') (req : RequestMsg) :
    g'.matching req = g.matching req := by
  unfold Router.matching Router.rulesFor
  rw [h.fileRules, h.bashRules]

/-- The skills with other sizes, and nothing injected. -/
def Router.resized (g : Router) (size : Nat → UInt64) : Router :=
  { g with
    skills := { g.skills with
      slots := g.skills.slots.mapFinIdx fun i skill _ => { skill with size := size i } }
    dedup := Table.zero DedupEntry.zero }

section Resized

variable {g : Router} {size : Nat → UInt64} {x : Nat}

theorem resized_live_getElem? (hx : g.Valid x) :
    (g.resized size).skills.live[x]? = some { g.skill x with size := size x } := by
  have hslot := g.skills.slot_eq_live MappedSkill.zero hx
  have hlt : x < maxMappedSkills := Nat.lt_of_lt_of_le hx g.skills.count_le
  unfold Table.live at hslot ⊢
  rw [List.getElem?_take_of_lt hx, Vector.getElem?_toList] at hslot
  rw [List.getElem?_take_of_lt (show x < (g.resized size).skills.count from hx),
    Vector.getElem?_toList]
  unfold Router.resized Router.skill
  rw [Vector.getElem?_eq_getElem hlt] at hslot ⊢
  rw [Vector.getElem_mapFinIdx, ← Option.some.inj hslot]

theorem resized_skill (hx : g.Valid x) :
    (g.resized size).skill x = { g.skill x with size := size x } := by
  have hslot := (g.resized size).skills.slot_eq_live MappedSkill.zero hx
  exact Option.some.inj (hslot.symm.trans (resized_live_getElem? hx))

theorem resized_ids :
    (g.resized size).skills.live.map (fun skill => skill.id.str) =
      g.skills.live.map fun skill => skill.id.str := by
  refine List.ext_getElem? fun x => ?_
  rw [List.getElem?_map, List.getElem?_map]
  by_cases hx : g.Valid x
  · rw [resized_live_getElem? hx, g.skills.slot_eq_live MappedSkill.zero hx]
    rfl
  · have hout : ∀ t : Table MappedSkill maxMappedSkills, t.count = g.skills.count →
        t.live[x]? = none := by
      intro t ht
      rw [List.getElem?_eq_none_iff, t.length_live, ht]
      exact Nat.le_of_not_lt hx
    rw [hout (g.resized size).skills rfl, hout g.skills rfl]

/-- What `add_rule` builds depends on the ids of the skills only. -/
theorem Built.of_ids {skills skills' : Table MappedSkill maxMappedSkills} {isBash : Bool}
    {rules : Table Rule maxRules} (h : Built skills isBash rules)
    (hids : skills'.live.map (fun skill => skill.id.str) =
      skills.live.map fun skill => skill.id.str) : Built skills' isBash rules := by
  have hfind : findSkillIndex skills = findSkillIndex skills' := by
    funext id
    have hmap : ∀ t : Table MappedSkill maxMappedSkills, findSkillIndex t id =
        (t.live.map fun skill => skill.id.str).findIdx? fun str => str == id := by
      intro t
      rw [List.findIdx?_map]
      rfl
    rw [hmap, hmap, hids]
  induction h with
  | empty hcount => exact .empty hcount
  | @add rules patterns priority skillIds _ ih =>
    have hadd : addRule skills rules isBash patterns priority skillIds =
        addRule skills' rules isBash patterns priority skillIds := by
      unfold addRule
      rw [hfind]
    rw [hadd]
    exact .add patterns priority skillIds ih

theorem Routable.resized (hg : Routable g)
    (hsize : ∀ x, 0 < (size x).toNat ∧ (size x).toNat < 2 ^ 30) : Routable (g.resized size) where
  distinct := by
    rw [resized_ids]
    exact hg.distinct
  sizes := by
    intro skill hskill
    obtain ⟨x, hx⟩ := List.getElem?_of_mem hskill
    have hvalid : g.Valid x := by
      have hlt := (List.getElem?_eq_some_iff.mp hx).1
      rw [Table.length_live] at hlt
      exact hlt
    rw [resized_live_getElem? hvalid] at hx
    obtain rfl := Option.some.inj hx
    exact hsize x
  fileRules := hg.fileRules.of_ids resized_ids
  bashRules := hg.bashRules.of_ids resized_ids
  room := show 0 + maxSkillsPerResponse ≤ maxDedupEntries by decide

/-- Two lists that differ part somewhere. -/
theorem exists_parting {α : Type} {l₁ l₂ : List α} (h : l₁ ≠ l₂) :
    ∃ p t₁ t₂, l₁ = p ++ t₁ ∧ l₂ = p ++ t₂ ∧ t₁.head? ≠ t₂.head? := by
  induction l₁ generalizing l₂ with
  | nil =>
    cases l₂ with
    | nil => exact absurd rfl h
    | cons y l₂ => exact ⟨[], [], y :: l₂, rfl, rfl, nofun⟩
  | cons x l₁ ih =>
    cases l₂ with
    | nil => exact ⟨[], x :: l₁, [], rfl, rfl, nofun⟩
    | cons y l₂ =>
      by_cases hxy : x = y
      · subst hxy
        obtain ⟨p, t₁, t₂, rfl, rfl, hne⟩ := ih fun he => h (he ▸ rfl)
        exact ⟨x :: p, t₁, t₂, rfl, rfl, hne⟩
      · exact ⟨[], x :: l₁, y :: l₂, rfl, rfl, fun he => hxy (Option.some.inj he)⟩

/-- The size of the buffer for the skills outside of this list, one more for those in it. -/
def fitOutside (p : List Nat) (x : Nat) : UInt64 :=
  if x ∈ p then UInt64.ofNat (maxResponseContent + 1) else UInt64.ofNat maxResponseContent

theorem toNat_fitOutside (p : List Nat) (x : Nat) :
    (fitOutside p x).toNat = if x ∈ p then maxResponseContent + 1 else maxResponseContent := by
  unfold fitOutside
  split
  next => exact UInt64.toNat_ofNat'.trans (Nat.mod_eq_of_lt (by decide))
  next => exact UInt64.toNat_ofNat'.trans (Nat.mod_eq_of_lt (by decide))

/-- Only the first skill outside of the list is chosen. -/
theorem greedy_fitOutside {session : Str} {p t : List Nat} (hvalid : ∀ x ∈ p ++ t, g.Valid x)
    (hnodup : (p ++ t).Nodup) :
    (g.resized (fitOutside p)).greedy session maxResponseContent (p ++ t) = t.head?.toList := by
  have hlen : ∀ {chosen x}, g.Valid x →
      ((g.resized (fitOutside p)).joined (chosen ++ [x])).length =
        ((g.resized (fitOutside p)).joined chosen).length +
          (if chosen = [] then 0 else sepLen) +
            (if x ∈ p then maxResponseContent + 1 else maxResponseContent) := by
    intro chosen x hx
    rw [Router.length_joined_concat, resized_skill hx, toNat_fitOutside]
  have hskip : ∀ q : List Nat, (∀ x ∈ q, x ∈ p ∧ g.Valid x) →
      q.foldl ((g.resized (fitOutside p)).pick session maxResponseContent) [] = [] := by
    intro q
    induction q with
    | nil => exact fun _ => rfl
    | cons x q ih =>
      intro hq
      rw [List.foldl_cons, Router.pick, if_neg]
      · exact ih fun y hy => hq y (by simp [hy])
      · intro hpick
        have hfit := hpick.2.2
        rw [hlen (hq x (by simp)).2, if_pos (hq x (by simp)).1] at hfit
        omega
  have hfull : ∀ (x : Nat) (q : List Nat), (∀ y ∈ q, g.Valid y) → g.Valid x → x ∉ p →
      q.foldl ((g.resized (fitOutside p)).pick session maxResponseContent) [x] = [x] := by
    intro x q hq hx hxp
    induction q with
    | nil => rfl
    | cons y q ih =>
      rw [List.foldl_cons, Router.pick, if_neg]
      · exact ih fun z hz => hq z (by simp [hz])
      · intro hpick
        have hfit := hpick.2.2
        have hone : ((g.resized (fitOutside p)).joined ([] ++ [x])).length = _ := hlen hx
        rw [List.nil_append, if_neg hxp] at hone
        rw [hlen (hq y (by simp)), hone, if_neg (List.cons_ne_nil _ _)] at hfit
        have hsep : sepLen = 7 := rfl
        omega
  unfold Router.greedy
  rw [List.foldl_append, hskip p fun x hx => ⟨hx, hvalid x (by simp [hx])⟩]
  cases t with
  | nil => rfl
  | cons x t =>
    have hx : g.Valid x := hvalid x (by simp)
    have hxp : x ∉ p := fun hmem => (List.nodup_append.mp hnodup).2.2 x hmem x (by simp) rfl
    have hpick : (g.resized (fitOutside p)).pick session maxResponseContent [] x = [x] := by
      unfold Router.pick
      refine if_pos ⟨by decide, nofun, ?_⟩
      have hnil : ((g.resized (fitOutside p)).joined []).length = 0 := rfl
      rw [hlen hx, if_neg hxp, if_pos rfl, hnil, Nat.zero_add]
    rw [List.foldl_cons, hpick]
    exact hfull x t (fun y hy => hvalid y (by simp [hy])) hx hxp

end Resized

/-- No skill is ranked twice. -/
theorem nodup_of_ranked {hits : List Hit} {ranking : List Nat} (h : RankedSkills hits ranking) :
    ranking.Nodup :=
  h.ordered.imp fun hxy he => (he ▸ hxy).asymm (he ▸ hxy)

/-- For given skills the response is right exactly if the hits after the 64th make no
difference to the choice. For the given rules it is right whatever the skills exactly if
these hits do not change the ranking. -/
theorem correct_iff {g : Router} (hg : Routable g) (req : RequestMsg) :
    (∀ (contentBuf : Buffer) (bufSize : Int) (outSkillCount : UInt8), 0 ≤ bufSize →
      bufSize ≤ 2 ^ 30 →
        (Correct g req bufSize (handleRequest g req contentBuf bufSize outSkillCount) ↔
          CapHarmless g req bufSize)) ∧
      ((∀ (g' : Router) (contentBuf : Buffer) (outSkillCount : UInt8), SameRules g g' →
        Routable g' → Correct g' req maxResponseContent
          (handleRequest g' req contentBuf maxResponseContent outSkillCount)) ↔
        RankingKept g req) := by
  refine ⟨fun contentBuf bufSize outSkillCount hle hbuf =>
    correct_iff_capHarmless hg contentBuf hle hbuf outSkillCount, fun hcorrect => ?_, ?_⟩
  · have hall : RankedSkills (g.matching req) _ := Ranking.ranked_ranking _
    have hkept : RankedSkills ((g.matching req).take 64) _ := Ranking.ranked_ranking _
    by_contra hnot
    -- where the two rankings part, one skill fits and the ones before do not
    have hparting : Ranking.ranking Hit.priority Hit.skillIdx (g.matching req) ≠
        Ranking.ranking Hit.priority Hit.skillIdx ((g.matching req).take 64) :=
      fun he => hnot ⟨_, hall, he ▸ hkept⟩
    obtain ⟨p, t₁, t₂, ht₁, ht₂, hne⟩ := exists_parting hparting
    have hsame : SameRules g (g.resized (fitOutside p)) := ⟨rfl, rfl⟩
    have hroutable : Routable (g.resized (fitOutside p)) := by
      refine hg.resized fun x => ?_
      unfold fitOutside
      split <;> decide
    obtain ⟨all, kept, hall', hkept', hgreedy, -⟩ :=
      (correct_iff_capHarmless hroutable (fun _ => 0) (by decide) (by decide) 0).mp
        (hcorrect _ (fun _ => 0) 0 hsame hroutable)
    rw [hsame.matching_eq] at hall' hkept'
    obtain rfl := Ranking.ranked_unique hall hall'
    obtain rfl := Ranking.ranked_unique hkept hkept'
    have hv₁ := hg.valid_ranking hall fun _ => id
    have hv₂ := hg.valid_ranking hkept fun _ => List.mem_of_mem_take
    have hd₁ := nodup_of_ranked hall
    have hd₂ := nodup_of_ranked hkept
    rw [ht₁] at hv₁ hd₁ hgreedy
    rw [ht₂] at hv₂ hd₂ hgreedy
    rw [greedy_fitOutside hv₁ hd₁, greedy_fitOutside hv₂ hd₂] at hgreedy
    exact hne (by simpa using congrArg List.head? hgreedy)
  · intro hrankings g' contentBuf outSkillCount hsame hg'
    refine (correct_iff_capHarmless hg' contentBuf (by decide) (by decide) outSkillCount).mpr ?_
    refine RankingKept.capHarmless ?_ _
    unfold RankingKept
    rw [hsame.matching_eq]
    exact hrankings

/-! ## Two routers -/

theorem Built.addRules {skills : Table MappedSkill maxMappedSkills} {isBash : Bool}
    {rules : Table Rule maxRules} (h : Built skills isBash rules) (calls : List RuleCall) :
    Built skills isBash (addRules skills isBash calls rules) := by
  induction calls generalizing rules with
  | nil => exact h
  | cons call calls ih => exact ih (h.add _ _ _)

/-- Four skills of one byte each. -/
def fourSkills : Router :=
  loadAllSkills Router.init (some (["a", "b", "c", "d"].map fun name =>
    ⟨Str.lit name, true, some ⟨1, fun _ => 65⟩, true⟩))

/-- Twenty-two rules of priority 1 for three of them, and one of priority 10 for the last. -/
def crowded : Router :=
  { fourSkills with
    fileRules := addRules fourSkills.skills false
      (List.replicate 22 ⟨".swift", 1, ["a", "b", "c"]⟩ ++ [⟨".swift", 10, ["d"]⟩])
      fourSkills.fileRules }

theorem routable_crowded : Routable crowded where
  distinct := by decide +kernel
  sizes := by
    have hall : crowded.skills.live.all (fun skill =>
        decide (0 < skill.size.toNat ∧ skill.size.toNat < 2 ^ 30)) = true := by decide +kernel
    exact fun skill hskill => of_decide_eq_true (List.all_eq_true.mp hall skill hskill)
  fileRules := (Built.empty rfl).addRules _
  bashRules := .empty rfl
  room := by decide +kernel

theorem correct_iff_crowded :
    (∀ (contentBuf : Buffer) (bufSize : Int) (outSkillCount : UInt8), 0 ≤ bufSize →
      bufSize ≤ 2 ^ 30 →
        (Correct crowded swiftRequest bufSize
            (handleRequest crowded swiftRequest contentBuf bufSize outSkillCount) ↔
          CapHarmless crowded swiftRequest bufSize)) ∧
      ((∀ (g' : Router) (contentBuf : Buffer) (outSkillCount : UInt8),
        SameRules crowded g' → Routable g' →
          Correct g' swiftRequest maxResponseContent
            (handleRequest g' swiftRequest contentBuf maxResponseContent outSkillCount)) ↔
        RankingKept crowded swiftRequest) :=
  correct_iff routable_crowded swiftRequest

/-- The hit of the highest priority is the 67th and is left out. -/
theorem crowded_out : ¬ ∀ (g : Router) (req : RequestMsg) (contentBuf : Buffer) (bufSize : Int)
    (outSkillCount : UInt8), Routable g → 0 ≤ bufSize → bufSize ≤ 2 ^ 30 →
      Correct g req bufSize (handleRequest g req contentBuf bufSize outSkillCount) := by
  intro h
  obtain ⟨ranking, hranked, hselects⟩ := h crowded swiftRequest (fun _ => 0) maxResponseContent 0
    routable_crowded (by decide) (by decide)
  rw [Ranking.ranked_unique hranked (Ranking.ranked_ranking _)] at hselects
  have hplaced : placements (handleRequest crowded swiftRequest (fun _ => 0)
      maxResponseContent 0).events ≠
      (crowded.greedy swiftRequest.session maxResponseContent
        (Ranking.ranking Hit.priority Hit.skillIdx (crowded.matching swiftRequest))).map
          fun x => (swiftRequest.session, (crowded.skill x).id.str) := by
    decide +kernel
  exact hplaced hselects.skills

end Sockd.Reference
