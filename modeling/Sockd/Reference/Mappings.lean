import Sockd.Reference.Shipped

/-!
# No mapping is lost

Each skill in the table has a mapping, of its own, and there are no other mappings (`Tidy`).
Loading and unloading keep that, so it holds after any connections, with any contents of the
skills directory at the start and at each `RELOAD` (`mappings_tidy`): a reload drops no
mapping that nothing points to any more, `munmap` is called on each mapping once, and after
the last `unload_all_skills` none is left.
-/

namespace Sockd.Reference

open C

/-- The mappings are those of the skills, one each. -/
structure Tidy (g : Router) : Prop where
  backed : ∀ skill ∈ g.skills.live, ∃ addr, skill.data = some addr
  once : (g.skills.live.map MappedSkill.data).Nodup
  mapped : ∀ addr, g.space.mapped addr ≠ none ↔ some addr ∈ g.skills.live.map MappedSkill.data
  fresh : ∀ addr, g.space.next ≤ addr → g.space.mapped addr = none

section Tidy

variable {g : Router}

/-- A state with the same skills and mappings. -/
theorem Tidy.congr {g' : Router} (h : Tidy g) (hskills : g'.skills = g.skills)
    (hspace : g'.space = g.space) : Tidy g' := by
  refine ⟨?_, ?_, ?_, ?_⟩
  · rw [hskills]
    exact h.backed
  · rw [hskills]
    exact h.once
  · rw [hskills, hspace]
    exact h.mapped
  · rw [hspace]
    exact h.fresh

/-- A new mapping for a new skill. -/
theorem Tidy.grow (h : Tidy g) (file : Mapping) {write : MappedSkill → MappedSkill}
    (hwrite : ∀ skill, (write skill).data = some g.space.next)
    (room : g.skills.count < maxMappedSkills) :
    Tidy { g with skills := g.skills.grow write room, space := (g.space.mmap file).2 } := by
  have hunused : some g.space.next ∉ g.skills.live.map MappedSkill.data := fun hmem =>
    (h.mapped g.space.next).mpr hmem (h.fresh g.space.next le_rfl)
  refine ⟨?_, ?_, fun addr => ?_, fun addr hle => ?_⟩
  · rw [Table.live_grow]
    intro skill hskill
    rcases List.mem_append.mp hskill with hskill | hskill
    · exact h.backed skill hskill
    · -- the new skill keeps the address that `mmap` gave
      rw [List.mem_singleton.mp hskill]
      exact ⟨_, hwrite _⟩
  · rw [Table.live_grow, List.map_append, List.map_singleton, hwrite]
    exact List.nodup_append.mpr ⟨h.once, List.nodup_singleton _, fun a ha b hb => by
      rw [List.mem_singleton.mp hb]
      rintro rfl
      exact hunused ha⟩
  · rw [Table.live_grow, List.map_append, List.map_singleton, hwrite, List.mem_append,
      List.mem_singleton, ← h.mapped addr]
    by_cases haddr : addr = g.space.next
    · subst haddr
      rw [Space.mapped_mmap]
      simp
    · have hsame : (g.space.mmap file).2.mapped addr = g.space.mapped addr := if_neg haddr
      rw [hsame]
      simp [haddr]
  · have hlt : g.space.next < addr := hle
    have hsame : (g.space.mmap file).2.mapped addr = g.space.mapped addr := if_neg hlt.ne'
    exact hsame.trans (h.fresh addr hlt.le)

theorem Tidy.loadEntry (h : Tidy g) (entry : DirEnt) : Tidy (loadEntry g entry) := by
  unfold Reference.loadEntry
  split
  next => exact h
  next =>
    split
    swap
    next => exact h
    next =>
      unfold mmapSkill
      split
      swap
      next => exact h
      next room =>
        split
        next => exact h
        next file _ =>
          split
          next => exact h
          next =>
            split
            swap
            next => exact h
            next => exact h.grow file (fun _ => rfl) room

theorem Tidy.loadAllSkills (h : Tidy g) (dir : Dir) : Tidy (loadAllSkills g dir) := by
  rw [loadAllSkills_eq]
  induction dir.entries generalizing g with
  | nil => exact h
  | cons entry entries ih => exact ih (h.loadEntry entry)

/-- What `munmap` leaves, address by address. -/
theorem mapped_unload (skills : List MappedSkill) (space : Space) (addr : Nat) :
    ((skills.foldl (fun space skill => match skill.data with
      | none => space
      | some addr => space.munmap addr) space).mapped addr =
      if some addr ∈ skills.map MappedSkill.data then none else space.mapped addr) := by
  induction skills generalizing space with
  | nil => rfl
  | cons skill skills ih =>
    rw [List.foldl_cons, ih, List.map_cons]
    by_cases hrest : some addr ∈ skills.map MappedSkill.data
    · rw [if_pos hrest, if_pos (List.mem_cons_of_mem _ hrest)]
    · rw [if_neg hrest]
      cases hdata : skill.data with
      | none => simp [hrest]
      | some a =>
        dsimp only [Space.munmap]
        by_cases haddr : addr = a
        · simp [haddr]
        · simp [haddr, hrest]

/-- All mappings are released. -/
theorem Tidy.unmapped (h : Tidy g) (addr : Nat) :
    (unloadAllSkills g).space.mapped addr = none := by
  have hunload := mapped_unload g.skills.live g.space addr
  refine hunload.trans ?_
  split
  next => rfl
  next hno => exact not_not.mp fun hne => hno ((h.mapped addr).mp hne)

theorem Tidy.unloadAllSkills (h : Tidy g) : Tidy (unloadAllSkills g) := by
  refine ⟨?_, ?_, fun addr => ?_, fun addr _ => h.unmapped addr⟩
  · exact fun _ hskill => nomatch hskill
  · exact List.nodup_nil
  · exact ⟨fun hne => absurd (h.unmapped addr) hne, fun hmem => nomatch hmem⟩

theorem Tidy.reload (h : Tidy g) (dir : Dir) : Tidy (reload g dir) := by
  refine (h.unloadAllSkills.loadAllSkills dir).congr ?_ ?_
  · unfold Reference.reload loadRules
    dsimp only
  · unfold Reference.reload loadRules
    dsimp only

/-- Routing leaves skills, mappings and the flag alone. -/
theorem route_frame (g : Router) (c : Connection) (req : RequestMsg) :
    (route g c req).state.skills = g.skills ∧ (route g c req).state.space = g.space ∧
      (route g c req).state.running = g.running := by
  obtain ⟨totalMatches, totalDeduped, hstate⟩ := route_state g c req
  rw [hstate]
  exact ⟨rfl, rfl, rfl⟩

theorem Tidy.processConnection (h : Tidy g) (c : Connection) :
    Tidy (processConnection g c).state := by
  have hcounted : Tidy g.counted := h.congr rfl rfl
  rw [processConnection_eq]
  cases c.accepted with
  | none => exact hcounted
  | some req =>
    cases hcommand : req.command? with
    | none =>
      dsimp only
      rw [hcommand]
      obtain ⟨hskills, hspace, -⟩ := route_frame g.counted c req
      exact hcounted.congr hskills hspace
    | some command =>
      dsimp only
      rw [hcommand]
      cases command with
      | ping => exact hcounted
      | shutdown => exact hcounted.congr rfl rfl
      | reload => exact hcounted.reload c.dir

theorem Tidy.serve (h : Tidy g) (cs : List Connection) : Tidy (serve g cs).1 := by
  induction cs generalizing g with
  | nil => exact h
  | cons c cs ih => exact ih (h.processConnection c)

end Tidy

theorem tidy_boot (dir : Dir) : Tidy (boot dir) := by
  have hinit : Tidy Router.init :=
    ⟨fun _ hskill => (nomatch hskill), List.nodup_nil,
      fun addr => ⟨fun hne => absurd rfl hne, nofun⟩, fun addr _ => rfl⟩
  refine (hinit.loadAllSkills dir).congr ?_ ?_
  · unfold boot loadRules
    dsimp only
  · unfold boot loadRules
    dsimp only

/-- After any connections, whatever directories are read on the way: each skill has a mapping
of its own, there are no others, and `unload_all_skills` releases them all. -/
theorem mappings_tidy (dir : Dir) (cs : List Connection) :
    Tidy (serve (boot dir) cs).1 ∧
      ∀ addr, (unloadAllSkills (serve (boot dir) cs).1).space.mapped addr = none :=
  have htidy := (tidy_boot dir).serve cs
  ⟨htidy, htidy.unmapped⟩

end Sockd.Reference
