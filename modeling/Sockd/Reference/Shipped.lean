import Sockd.Reference.Reload
import Sockd.Reference.Selection
import Sockd.Reference.ShortRead

/-!
# What the shipped rules select

`handle_request` collects 64 hits at most before it sorts them, and `Selection` says when
that is harmless. The rules that `load_rules` builds name so few skills that it always is
(`rankingKept_of_wired`). So in every state that the daemon comes to, with skills directories
as file systems have them (`Dir.Sane`), a routed request is answered with the greedy choice
from the skills of all matching rules (`correct_reached`).
-/

namespace Sockd.Reference

open C

/-! ## Few hits -/

section Hits

variable {skills : Table MappedSkill maxMappedSkills} {space : Space} {isBash : Bool}

/-- How many skills the calls name. -/
def named (calls : List RuleCall) : Nat := (calls.map fun call => call.skillIds.length).sum

/-- A rule has no more skills than its call names. -/
theorem Resolves.length_le {call : RuleCall} {rule : Rule}
    (h : Resolves skills space isBash call rule) :
    rule.skillIndices.live.length ≤ call.skillIds.length := by
  rw [← h.carries.length_eq, RuleCall.found]
  refine (List.length_filter_le _ _).trans ((List.length_take_le' _ _).trans ?_)
  rw [List.length_map]

/-- The hits of any of these rules are no more than the skills that their calls name. -/
theorem length_matchingHits_le {calls : List RuleCall} {rules : Table Rule maxRules}
    (h : List.Forall₂ (Resolves skills space isBash) calls rules.live) (path basename : Str) :
    (matchingHits rules path basename).length ≤ named calls := by
  unfold matchingHits named
  generalize rules.live = live at h
  induction h with
  | nil => exact Nat.le_refl _
  | @cons call rule calls live hrule _ ih =>
    have hle := hrule.length_le
    rw [List.filter_cons, List.map_cons, List.sum_cons]
    split
    next =>
      rw [List.flatMap_cons, List.length_append, List.length_map]
      omega
    next => omega

/-- The shipped rules have no hits that are left out. -/
theorem length_matching_le {g : Router} (h : Wired g) (req : RequestMsg) :
    (g.matching req).length ≤ 64 := by
  obtain ⟨-, hfile, hbash⟩ := h
  have hfew : named fileRuleCalls ≤ 64 ∧ named bashRuleCalls ≤ 64 := by decide
  unfold Router.matching Router.rulesFor
  dsimp only
  split
  next => exact Nat.zero_le _
  next rules hrules =>
    split at hrules
    next =>
      obtain rfl := Option.some.inj hrules
      exact (length_matchingHits_le hfile _ _).trans hfew.1
    next =>
      split at hrules
      next =>
        obtain rfl := Option.some.inj hrules
        exact (length_matchingHits_le hbash _ _).trans hfew.2
      next => cases hrules

theorem rankingKept_of_wired {g : Router} (h : Wired g) (req : RequestMsg) : RankingKept g req :=
  rankingKept_of_le (length_matching_le h req)

end Hits

/-! ## Skills directories -/

/-- What `readdir` gives, nothing when `opendir` fails. -/
def Dir.entries (dir : Dir) : List DirEnt := dir.getD []

theorem loadAllSkills_eq (g : Router) (dir : Dir) :
    loadAllSkills g dir = dir.entries.foldl loadEntry g := by
  cases dir <;> rfl

/-- The names are distinct and shorter than the array for them, and no file has a gibibyte
or more. -/
structure Dir.Sane (dir : Dir) : Prop where
  distinct : (dir.entries.map DirEnt.dName).Nodup
  short : ∀ entry ∈ dir.entries, entry.dName.strlen ≤ 127
  small : ∀ entry ∈ dir.entries, ∀ file ∈ entry.file, file.size.toNat < 2 ^ 30

/-- The skills have distinct ids and sizes below 2 ^ 30, and the rules are for them. -/
structure Stocked (g : Router) : Prop where
  distinct : (g.skills.live.map fun skill => skill.id.str).Nodup
  sizes : ∀ skill ∈ g.skills.live, 0 < skill.size.toNat ∧ skill.size.toNat < 2 ^ 30
  fileRules : Built g.skills false g.fileRules
  bashRules : Built g.skills true g.bashRules

/-- The skills that are loaded after these entries. -/
structure Loading (done : List DirEnt) (g : Router) : Prop where
  ids : (g.skills.live.map fun skill => skill.id.str).Sublist (done.map DirEnt.dName)
  sizes : ∀ skill ∈ g.skills.live, 0 < skill.size.toNat ∧ skill.size.toNat < 2 ^ 30

theorem Loading.entry {done : List DirEnt} {g : Router} (h : Loading done g) {entry : DirEnt}
    (hshort : entry.dName.strlen ≤ 127)
    (hsmall : ∀ file ∈ entry.file, file.size.toNat < 2 ^ 30) :
    Loading (done ++ [entry]) (loadEntry g entry) := by
  have hskip : Loading (done ++ [entry]) g := by
    refine ⟨h.ids.trans ?_, h.sizes⟩
    rw [List.map_append]
    exact List.sublist_append_left _ _
  unfold loadEntry
  split
  next => exact hskip
  next =>
    split
    swap
    next => exact hskip
    next =>
      unfold mmapSkill
      split
      swap
      next => exact hskip
      next room =>
        split
        next => exact hskip
        next file hfile =>
          split
          next => exact hskip
          next hsize =>
            split
            swap
            next => exact hskip
            next =>
              have hpos : 0 < file.size.toNat := by
                refine Nat.pos_of_ne_zero fun hzero => hsize ?_
                exact UInt64.toNat_inj.mp (hzero.trans UInt64.toNat_zero.symm)
              constructor
              · show (((g.skills.grow _ room).live.map fun skill => skill.id.str)).Sublist _
                rw [Table.live_grow, List.map_append, List.map_append, List.map_singleton,
                  List.map_singleton, Field.str_strncpy, Str.truncate_of_le hshort]
                exact h.ids.append (List.Sublist.refl _)
              · intro skill hskill
                rw [Table.live_grow, List.mem_append, List.mem_singleton] at hskill
                rcases hskill with hold | rfl
                · exact h.sizes skill hold
                · exact ⟨hpos, hsmall file hfile⟩

/-- Loading a sane directory into an empty table. -/
theorem loading_loadAllSkills {g : Router} (hempty : g.skills.count = 0) {dir : Dir}
    (hdir : dir.Sane) : Loading dir.entries (loadAllSkills g dir) := by
  rw [loadAllSkills_eq]
  have hstart : Loading [] g := by
    refine ⟨?_, ?_⟩
    · rw [Table.live_of_count hempty]
      exact List.Sublist.refl _
    · rw [Table.live_of_count hempty]
      exact nofun
  have hall : ∀ (rest done : List DirEnt) (g : Router), Loading done g →
      (∀ entry ∈ rest, entry ∈ dir.entries) → Loading (done ++ rest) (rest.foldl loadEntry g) := by
    intro rest
    induction rest with
    | nil =>
      intro done g h _
      rw [List.append_nil]
      exact h
    | cons entry rest ih =>
      intro done g h hrest
      have hentry := hrest entry List.mem_cons_self
      have hnext := ih (done ++ [entry]) (loadEntry g entry)
        (h.entry (hdir.short entry hentry) (hdir.small entry hentry))
        fun e he => hrest e (List.mem_cons_of_mem _ he)
      rwa [List.append_assoc, List.singleton_append] at hnext
  exact hall dir.entries [] g hstart fun _ he => he

/-- Loading the rules after the skills. -/
theorem stocked_loadRules {g : Router} {dir : Dir} (hdir : dir.Sane) (h : Loading dir.entries g)
    (hfile : g.fileRules.count = 0) (hbash : g.bashRules.count = 0) : Stocked (loadRules g) := by
  have hrules : Built (loadRules g).skills false (loadRules g).fileRules ∧
      Built (loadRules g).skills true (loadRules g).bashRules := by
    unfold loadRules
    dsimp only
    exact ⟨(Built.empty hfile).addRules fileRuleCalls, (Built.empty hbash).addRules bashRuleCalls⟩
  have hskills : (loadRules g).skills = g.skills := by
    unfold loadRules
    dsimp only
  refine ⟨?_, ?_, hrules.1, hrules.2⟩
  · rw [hskills]
    exact h.ids.nodup hdir.distinct
  · rw [hskills]
    exact h.sizes

theorem stocked_boot {dir : Dir} (hdir : dir.Sane) : Stocked (boot dir) := by
  obtain ⟨hfile, hbash⟩ := rules_loadAllSkills Router.init dir
  refine stocked_loadRules hdir (loading_loadAllSkills rfl hdir) ?_ ?_
  · rw [hfile]
    rfl
  · rw [hbash]
    rfl

theorem stocked_reload (g : Router) {dir : Dir} (hdir : dir.Sane) : Stocked (reload g dir) := by
  have hload := loading_loadAllSkills (g := unloadAllSkills g) rfl hdir
  exact stocked_loadRules hdir ⟨hload.ids, hload.sizes⟩ rfl rfl

/-! ## Every state that the daemon comes to -/

/-- Where the connection reloads, it finds a sane directory. -/
def Connection.Sane (c : Connection) : Prop := c.command = some .reload → c.dir.Sane

/-- Routing leaves the tables alone. -/
theorem Stocked.route {g : Router} (h : Stocked g) (c : Connection) (req : RequestMsg) :
    Stocked (route g c req).state := by
  obtain ⟨totalMatches, totalDeduped, hstate⟩ := route_state g c req
  rw [hstate]
  exact ⟨h.distinct, h.sizes, h.fileRules, h.bashRules⟩

/-- A connection keeps the tables in order. -/
theorem Stocked.processConnection {g : Router} (h : Stocked g) {c : Connection} (hc : c.Sane) :
    Stocked (processConnection g c).state := by
  have hcounted : Stocked g.counted := ⟨h.distinct, h.sizes, h.fileRules, h.bashRules⟩
  rw [processConnection_eq]
  cases haccepted : c.accepted with
  | none => exact hcounted
  | some req =>
    cases hcommand : req.command? with
    | none =>
      dsimp only
      rw [hcommand]
      exact hcounted.route c req
    | some command =>
      dsimp only
      rw [hcommand]
      cases command with
      | ping => exact hcounted
      | shutdown => exact ⟨h.distinct, h.sizes, h.fileRules, h.bashRules⟩
      | reload =>
        refine stocked_reload g.counted (hc ?_)
        rw [Connection.command, haccepted]
        exact hcommand

theorem Stocked.serve {g : Router} (h : Stocked g) {cs : List Connection}
    (hcs : ∀ c ∈ cs, c.Sane) : Stocked (serve g cs).1 := by
  induction cs generalizing g with
  | nil => exact h
  | cons c cs ih =>
    exact ih (h.processConnection (hcs c List.mem_cons_self))
      fun c' hc' => hcs c' (List.mem_cons_of_mem _ hc')

/-- The daemon comes to this state, from sane directories. -/
def Reached (g : Router) : Prop :=
  ∃ (dir : Dir) (cs : List Connection), dir.Sane ∧ (∀ c ∈ cs, c.Sane) ∧ g = (serve (boot dir) cs).1

variable {g : Router}

theorem Reached.stocked (h : Reached g) : Stocked g := by
  obtain ⟨dir, cs, hdir, hcs, rfl⟩ := h
  exact (stocked_boot hdir).serve hcs

theorem Reached.wired (h : Reached g) : Wired g := by
  obtain ⟨dir, cs, -, -, rfl⟩ := h
  exact wired_serve (wired_boot dir) cs

theorem sane_oneSkill {id : String} (hshort : (Str.lit id).strlen ≤ 127) :
    Dir.Sane (oneSkill id) where
  distinct := List.nodup_singleton _
  short := by
    rintro entry (_ | ⟨_, ⟨⟩⟩)
    exact hshort
  small := by
    rintro entry (_ | ⟨_, ⟨⟩⟩) file hfile
    obtain rfl := Option.mem_some_iff.mp hfile
    decide

/-- The state after a reload from another directory and a request for a Swift file. -/
def swapped : Router :=
  (serve (boot (oneSkill "efremidze")) [
    message .unknown (Bytes.encode "RELOAD".toList) (oneSkill "twostraws--swiftui-pro"),
    message .read (Bytes.encode "View.swift".toList) none]).1

theorem reached_swapped : Reached swapped := by
  refine ⟨_, _, sane_oneSkill (by decide), ?_, rfl⟩
  refine List.forall_mem_cons.mpr ⟨fun _ => sane_oneSkill (by decide), ?_⟩
  exact List.forall_mem_singleton.mpr fun hreload => absurd hreload (by decide +kernel)

end Sockd.Reference
