import Mathlib.Data.List.Forall2
import Sockd.Reference.Requests

/-!
# The rules after a reload

Rules keep raw indices into the skill table, and the skills are unmapped and
loaded again in directory order. `Wired` says that the tables fit together: every
skill in use is mapped, and the rules are those of the last `load_rules`, with
every index at a skill that carries the id the rule named. `boot` and `reload`
establish it for any directory (`wired_loadRules`), nothing else touches the
tables (`wired_processConnection`), so it holds at every call of
`handle_request` (`reload_invariant`).
-/

namespace Sockd.Reference

open C

/-- The skill's address holds the mapping of a file of its size. -/
def Mapped (space : Space) (skill : MappedSkill) : Prop :=
  ∃ addr m, skill.data = some addr ∧ addr < space.next ∧ space.mapped addr = some m ∧
    m.size = skill.size ∧ skill.size ≠ 0

/-- Every skill in use is mapped. -/
def Loaded (skills : Table MappedSkill maxMappedSkills) (space : Space) : Prop :=
  ∀ skill ∈ skills.live, Mapped space skill

/-- The index is that of a mapped skill with this id. -/
def Carries (skills : Table MappedSkill maxMappedSkills) (space : Space) (id : Str) (idx : Nat) :
    Prop :=
  idx < skills.count ∧ Mapped space (skills.slot MappedSkill.zero idx) ∧
    (skills.slot MappedSkill.zero idx).id.str = id

/-- The ids of the call that `add_rule` looks up and finds. -/
def RuleCall.found (skills : Table MappedSkill maxMappedSkills) (call : RuleCall) : List Str :=
  ((call.skillIds.map Str.lit).take 3).filter fun id => (findSkillIndex skills id).isSome

/-- The rule is what `add_rule` made of the call: its indices are those of the
skills that the call named and that are loaded, in the call's order. -/
structure Resolves (skills : Table MappedSkill maxMappedSkills) (space : Space) (isBash : Bool)
    (call : RuleCall) (rule : Rule) : Prop where
  patterns_le : rule.patterns.count ≤ maxPatternsPerRule
  indices_le : rule.skillIndices.count ≤ 3
  isBash_eq : rule.isBash = isBash
  priority_eq : rule.priority = call.priority
  carries : List.Forall₂ (Carries skills space) (call.found skills) rule.skillIndices.live

/-- The tables fit together. -/
def Wired (g : Router) : Prop :=
  Loaded g.skills g.space ∧
    List.Forall₂ (Resolves g.skills g.space false) fileRuleCalls g.fileRules.live ∧
      List.Forall₂ (Resolves g.skills g.space true) bashRuleCalls g.bashRules.live

/-! ## Loading skills -/

/-- A new mapping leaves a mapped skill mapped. -/
theorem Mapped.mmap {space : Space} {skill : MappedSkill} (h : Mapped space skill) (m : Mapping) :
    Mapped (space.mmap m).2 skill := by
  obtain ⟨addr, m', hdata, hlt, hm, hsize, hpos⟩ := h
  refine ⟨addr, m', hdata, ?_, ?_, hsize, hpos⟩
  · exact Nat.lt_succ_of_lt hlt
  · rw [Space.mapped_mmap_of_lt hlt, hm]

theorem loaded_mmapSkill {g : Router} (h : Loaded g.skills g.space) (entry : DirEnt) :
    Loaded (mmapSkill g entry).2.skills (mmapSkill g entry).2.space := by
  unfold mmapSkill
  split
  · next room =>
    split
    · exact h
    · next file hfile =>
      split
      · exact h
      · next hsize =>
        split
        · intro skill hskill
          rw [Table.live_grow, List.mem_append, List.mem_singleton] at hskill
          rcases hskill with hold | hnew
          · exact (h skill hold).mmap file
          · subst hnew
            refine ⟨g.space.next, file, rfl, Nat.lt_succ_self _, ?_, rfl, hsize⟩
            exact g.space.mapped_mmap file
        · exact h
  · exact h

theorem loaded_loadEntry {g : Router} (h : Loaded g.skills g.space) (entry : DirEnt) :
    Loaded (loadEntry g entry).skills (loadEntry g entry).space := by
  unfold loadEntry
  split
  · exact h
  · split
    · exact loaded_mmapSkill h entry
    · exact h

/-- Whatever the directory holds, the skills that get loaded are mapped. -/
theorem loaded_loadAllSkills {g : Router} (h : Loaded g.skills g.space) (dir : Dir) :
    Loaded (loadAllSkills g dir).skills (loadAllSkills g dir).space := by
  unfold loadAllSkills
  split
  · exact h
  · next entries =>
    induction entries generalizing g with
    | nil => exact h
    | cons entry entries ih =>
      rw [List.foldl_cons]
      exact ih (loaded_loadEntry h entry)

/-- After `unload_all_skills` no skill is in use. -/
theorem loaded_unloadAllSkills (g : Router) :
    Loaded (unloadAllSkills g).skills (unloadAllSkills g).space := by
  intro skill hskill
  simp [unloadAllSkills] at hskill

/-! ## Building rules -/

/-- The index that is found is in use and carries the id. -/
theorem carries_of_find {skills : Table MappedSkill maxMappedSkills} {space : Space} {id : Str}
    {idx : Nat} (hloaded : Loaded skills space) (h : findSkillIndex skills id = some idx) :
    Carries skills space id idx := by
  unfold findSkillIndex at h
  obtain ⟨hlt, hid, -⟩ := List.findIdx?_eq_some_iff_getElem.mp h
  have hcount : idx < skills.count := by
    rw [skills.length_live] at hlt
    exact hlt
  have hslot : skills.live[idx] = skills.slot MappedSkill.zero idx := by
    have := skills.slot_eq_live MappedSkill.zero hcount
    rw [List.getElem?_eq_getElem hlt] at this
    exact Option.some.inj this
  refine ⟨hcount, ?_, ?_⟩
  · rw [← hslot]
    exact hloaded _ (List.getElem_mem hlt)
  · rw [← hslot]
    exact beq_iff_eq.mp hid

/-- Looking up a list of keys relates the keys that are found to what is found. -/
private theorem forall₂_filterMap {α β : Type} {R : α → β → Prop} {f : α → Option β}
    (hf : ∀ a b, f a = some b → R a b) (as : List α) :
    List.Forall₂ R (as.filter fun a => (f a).isSome) (as.filterMap f) := by
  induction as with
  | nil => exact List.Forall₂.nil
  | cons a as ih =>
    cases hfa : f a with
    | none => simpa [hfa] using ih
    | some b => simpa [hfa] using ⟨hf a b hfa, ih⟩

/-- `add_rule` with room left appends a rule that resolves its call. -/
theorem addRule_live {skills : Table MappedSkill maxMappedSkills} {space : Space}
    (hloaded : Loaded skills space) (rules : Table Rule maxRules) (room : rules.count < maxRules)
    (isBash : Bool) (call : RuleCall) :
    ∃ rule, (addRule skills rules isBash (Str.lit call.patterns) call.priority
        (call.skillIds.map Str.lit)).live = rules.live ++ [rule] ∧
      Resolves skills space isBash call rule := by
  unfold addRule
  rw [dif_pos room, Table.live_grow]
  refine ⟨_, rfl, Table.count_le _, Table.count_le _, rfl, rfl, ?_⟩
  rw [Table.live_fill (f := fun idx => idx) (fun _ _ => rfl), Table.live_clear, Table.count_clear,
    List.map_id', List.nil_append]
  -- at most three ids are looked up, so the three slots take all that is found
  have hlen : (((call.skillIds.map Str.lit).take 3).filterMap (findSkillIndex skills)).length ≤ 3 :=
    (List.length_filterMap_le _ _).trans (List.length_take_le _ _)
  rw [List.take_of_length_le (by simpa using hlen)]
  exact forall₂_filterMap (fun _ _ => carries_of_find hloaded) _

/-- A table with room for all the calls gets a rule for each of them. -/
theorem addRules_live {skills : Table MappedSkill maxMappedSkills} {space : Space}
    (hloaded : Loaded skills space) (isBash : Bool) (calls : List RuleCall)
    (rules : Table Rule maxRules) (room : rules.count + calls.length ≤ maxRules) :
    ∃ added, (addRules skills isBash calls rules).live = rules.live ++ added ∧
      List.Forall₂ (Resolves skills space isBash) calls added := by
  induction calls generalizing rules with
  | nil => exact ⟨[], (List.append_nil _).symm, List.Forall₂.nil⟩
  | cons call calls ih =>
    rw [List.length_cons] at room
    obtain ⟨rule, hlive, hrule⟩ :=
      addRule_live hloaded rules (by omega) isBash call
    have hcount := congrArg List.length hlive
    rw [Table.length_live, List.length_append, Table.length_live, List.length_singleton] at hcount
    obtain ⟨added, hadded, hcalls⟩ := ih (addRule skills rules isBash
      (Str.lit call.patterns) call.priority (call.skillIds.map Str.lit)) (by omega)
    refine ⟨rule :: added, ?_, List.Forall₂.cons hrule hcalls⟩
    show (addRules skills isBash calls _).live = _
    rw [hadded, hlive, List.append_assoc, List.singleton_append]

/-- `load_rules` on empty rule tables makes the tables fit. -/
theorem wired_loadRules {g : Router} (hloaded : Loaded g.skills g.space)
    (hfile : g.fileRules.count = 0) (hbash : g.bashRules.count = 0) : Wired (loadRules g) := by
  obtain ⟨files, hfiles, hfileCalls⟩ := addRules_live hloaded false fileRuleCalls
    g.fileRules (by rw [hfile]; decide)
  obtain ⟨bashes, hbashes, hbashCalls⟩ := addRules_live hloaded true bashRuleCalls
    g.bashRules (by rw [hbash]; decide)
  rw [Table.live_of_count hfile, List.nil_append] at hfiles
  rw [Table.live_of_count hbash, List.nil_append] at hbashes
  unfold Wired loadRules
  dsimp only
  rw [hfiles, hbashes]
  exact ⟨hloaded, hfileCalls, hbashCalls⟩

/-! ## Runs -/

/-- Loading skills does not touch the rule tables. -/
theorem rules_loadAllSkills (g : Router) (dir : Dir) :
    (loadAllSkills g dir).fileRules = g.fileRules ∧
      (loadAllSkills g dir).bashRules = g.bashRules := by
  have hentry : ∀ (g : Router) (entry : DirEnt), (loadEntry g entry).fileRules = g.fileRules ∧
      (loadEntry g entry).bashRules = g.bashRules := by
    intro g entry
    unfold loadEntry mmapSkill
    repeat' split
    all_goals exact ⟨rfl, rfl⟩
  unfold loadAllSkills
  split
  · exact ⟨rfl, rfl⟩
  · next entries =>
    induction entries generalizing g with
    | nil => exact ⟨rfl, rfl⟩
    | cons entry entries ih =>
      rw [List.foldl_cons, (ih _).1, (ih _).2]
      exact hentry g entry

theorem wired_boot (dir : Dir) : Wired (boot dir) := by
  obtain ⟨hfile, hbash⟩ := rules_loadAllSkills Router.init dir
  apply wired_loadRules
  · apply loaded_loadAllSkills
    intro skill hskill
    simp [Router.init] at hskill
  · rw [hfile]
    rfl
  · rw [hbash]
    rfl

theorem wired_reload (g : Router) (dir : Dir) : Wired (reload g dir) :=
  wired_loadRules (loaded_loadAllSkills (loaded_unloadAllSkills g) dir) rfl rfl

/-- Up to the routing a connection leaves the tables alone or reloads them. -/
theorem wired_vet {g : Router} (h : Wired g) (c : Connection) :
    (vet g c).elim (fun served => Wired served.state) fun call => Wired call.1 := by
  rcases vet_cases g c with ⟨reply, -, hc | hc | hc⟩ | ⟨d, -, hc⟩
  · rw [hc]
    exact h
  · rw [hc]
    exact h
  · rw [hc]
    exact wired_reload g.counted c.dir
  · rw [hc]
    exact h

/-- Routing leaves the tables alone. -/
theorem wired_route {g : Router} (h : Wired g) (c : Connection) (req : RequestMsg) :
    Wired (route g c req).state := by
  obtain ⟨totalMatches, totalDeduped, hstate⟩ := route_state g c req
  rw [hstate]
  exact h

theorem wired_processConnection {g : Router} (h : Wired g) (c : Connection) :
    Wired (processConnection g c).state := by
  have hvet := wired_vet h c
  unfold processConnection
  split
  · next served hc =>
    rw [hc] at hvet
    exact hvet
  · next g' req hc =>
    rw [hc] at hvet
    exact wired_route hvet c req

theorem wired_serve {g : Router} (h : Wired g) (cs : List Connection) : Wired (serve g cs).1 := by
  induction cs generalizing g with
  | nil => exact h
  | cons c cs ih => exact ih (wired_processConnection h c)

/-- At every call of `handle_request`, after any connections and any contents of
the skills directory, each rule has at most 16 patterns and 3 skills, and its
indices are those of mapped skills that carry the ids its `add_rule` named. -/
theorem reload_invariant (dir : Dir) (cs : List Connection) (c : Connection) (g : Router)
    (req : RequestMsg) (hcall : vet (serve (boot dir) cs).1 c = .inr (g, req)) :
    List.Forall₂ (Resolves g.skills g.space false) fileRuleCalls g.fileRules.live ∧
      List.Forall₂ (Resolves g.skills g.space true) bashRuleCalls g.bashRules.live := by
  have h := wired_vet (wired_serve (wired_boot dir) cs) c
  rw [hcall] at h
  exact h.2

/-- A message of the tool type with this path, received into a zeroed stack. -/
def message (toolType : ToolType) (path : Bytes) (dir : Dir) : Connection where
  received := some ⟨([0x52, 0x53, 0x4f, 0x49, 1, toolType.code, 0, 0] ++
    List.replicate sessionIdLen 0 ++ path).take requestHeaderSize, List.length_take_le _ _⟩
  stack := ⟨List.replicate requestHeaderSize 0, List.length_replicate⟩
  contentBuf := fun _ => 0
  dir := dir

/-- One skill of one byte. -/
def oneSkill (id : String) : Dir := some [⟨Str.lit id, true, some ⟨1, fun _ => 65⟩, true⟩]

/-- A reload from another directory, then a request for a Swift file. -/
theorem reload_invariant_swap :
    let reloading := message .unknown (Bytes.encode "RELOAD".toList) (oneSkill "efremidze")
    let g := (serve (boot (oneSkill "twostraws--swiftui-pro")) [reloading]).1.counted
    List.Forall₂ (Resolves g.skills g.space false) fileRuleCalls g.fileRules.live ∧
      List.Forall₂ (Resolves g.skills g.space true) bashRuleCalls g.bashRules.live :=
  reload_invariant _ [_] (message .read (Bytes.encode "View.swift".toList) none) _ _ rfl

end Sockd.Reference
