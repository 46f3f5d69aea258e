import Sockd.Reference.Machine
import Sockd.Reference.PidText
import Sockd.Reference.Stages

/-!
# Daemons that start in turn

`Orderly` says of a machine and the stages of its daemons that they are in order. What the stage
of one daemon says about the machine is `Own`, what it says about a daemon that claims the PID
file is `Knows`. A daemon past the kill is the only one that starts, and none claims the PID
file (`Orderly.others_idle`); so most calls have only the daemon itself to care about, and come
under one of `Orderly.prepare`, `Orderly.succeed` and `Orderly.leave`. `Orderly.act` puts the
calls together, `Orderly.outside` the other steps.
-/

namespace Sockd.Reference.Daemon

open C Effects Prog

/-- What the stage of process `i` says about the machine. -/
structure Own (w : Machine) (i : Nat) (s : Stage) : Prop where
  claimed : s.claiming = true →
    ∃ file, w.pidFile = some file ∧ w.content file = pidText (w.tasks i).pid
  owned : s.owning = true → w.socketFile = some i
  filed : s.filing = true → w.pidFile = some (w.tasks i).out ∧ w.content (w.tasks i).out = []
  named : ∀ pid, s = .named pid → pid = (w.tasks i).pid

/-- What it says about a daemon with this pid that claims the PID file. -/
structure Knows (w : Machine) (i : Nat) (s : Stage) (pid : Nat) : Prop where
  opened : s = .opened → w.content (w.tasks i).stream = pidText pid
  suspect : ∀ p, s.suspect = some p → p = pid
  before : s.succeeding = false

/-- What holds on a machine with daemons at these stages that start in turn. -/
structure Orderly (w : Machine) (st : Nat → Stage) : Prop where
  table : Table w
  absent : ∀ i, (w.tasks i).status = .absent → st i = .fresh
  own : ∀ i, w.Running i → Own w i (st i)
  turn : ∀ i j, i ≠ j → w.Running i → w.Running j → (st i).starting = true →
    (st j).starting = false
  knows : ∀ i j, i ≠ j → w.Running i → w.Running j → (st j).claiming = true →
    Knows w i (st i) (w.tasks j).pid

section Orderly

variable {w w' : Machine} {st : Nat → Stage} {i j : Nat} {s : Stage}

theorem Own.of_not_owning (hclaimed : s.claiming = true →
    ∃ file, w.pidFile = some file ∧ w.content file = pidText (w.tasks i).pid)
    (howning : s.owning = false) : Own w i s where
  claimed := hclaimed
  owned h := by rw [howning] at h; cases h
  filed h := by rw [Stage.owning_of_filing h] at howning; cases howning
  named := by
    rintro pid rfl
    cases howning

theorem Own.of_idle (hclaiming : s.claiming = false) (howning : s.owning = false) : Own w i s :=
  .of_not_owning (fun h => by rw [hclaiming] at h; cases h) howning

theorem Knows.of_idle {pid : Nat} (hstarting : s.starting = false) : Knows w i s pid where
  opened := by
    rintro rfl
    cases hstarting
  suspect p h := by cases s <;> first | cases h; done | exact nomatch hstarting
  before := by cases s <;> first | rfl | exact nomatch hstarting

theorem Knows.of_suspect {p : Int} {pid : Nat} (hsuspect : s.suspect = some p) (hp : p = pid)
    (hbefore : s.succeeding = false) : Knows w i s pid where
  opened := by
    rintro rfl
    cases hsuspect
  suspect q hq := by
    rw [hsuspect] at hq
    exact (Option.some.inj hq).symm.trans hp
  before := hbefore

/-- There is at most one daemon that claims the PID file. -/
theorem Orderly.claiming_unique (h : Orderly w st) (hi : w.Running i) (hj : w.Running j)
    (hsi : (st i).claiming = true) (hsj : (st j).claiming = true) : i = j := by
  obtain ⟨file, hfile, htext⟩ := (h.own i hi).claimed hsi
  obtain ⟨file', hfile', htext'⟩ := (h.own j hj).claimed hsj
  obtain rfl : file = file' := Option.some.inj (hfile.symm.trans hfile')
  have hpid : (w.tasks i).pid = (w.tasks j).pid :=
    pidText_injective (h.table.range i hi).2 (h.table.range j hj).2 (htext.symm.trans htext')
  have hpids := h.table.pids i (.inl hi)
  rw [hpid, h.table.pids j (.inl hj)] at hpids
  exact (Option.some.inj hpids).symm

/-- Beside a daemon past the kill, no other starts or claims the PID file. -/
theorem Orderly.others_idle (h : Orderly w st) (hi : w.Running i)
    (hsi : (st i).succeeding = true) (hij : i ≠ j) (hj : w.Running j) :
    (st j).starting = false ∧ (st j).claiming = false := by
  refine ⟨h.turn i j hij hi hj (Stage.starting_of_succeeding hsi), ?_⟩
  by_contra hclaiming
  have hknows := h.knows i j hij hi hj (by simpa using hclaiming)
  rw [hknows.before] at hsi
  cases hsi

/-! ## How a step keeps order -/

theorem Own.same (h : Own w i s) (hfiles : SameFiles w w')
    (hpid : (w'.tasks i).pid = (w.tasks i).pid) (hout : (w'.tasks i).out = (w.tasks i).out) :
    Own w' i s where
  claimed hs := by
    rw [hfiles.pidFile, hfiles.content, hpid]
    exact h.claimed hs
  owned hs := hfiles.socketFile.trans (h.owned hs)
  filed hs := by
    rw [hfiles.pidFile, hfiles.content, hout]
    exact h.filed hs
  named pid hs := (h.named pid hs).trans hpid.symm

theorem Knows.same {pid : Nat} (h : Knows w i s pid) (hcontent : w'.content = w.content)
    (hstream : (w'.tasks i).stream = (w.tasks i).stream) : Knows w' i s pid where
  opened hs := by
    rw [hcontent, hstream]
    exact h.opened hs
  suspect := h.suspect
  before := h.before

/-- Processes end, and nothing else changes. -/
theorem Orderly.fewer (h : Orderly w st) (htable : Table w')
    (habsent : ∀ j, (w'.tasks j).status = .absent → (w.tasks j).status = .absent)
    (hrun : ∀ j, w'.Running j → w.Running j)
    (htask : ∀ j, w'.Running j → (w'.tasks j).pid = (w.tasks j).pid ∧
      (w'.tasks j).stream = (w.tasks j).stream ∧ (w'.tasks j).out = (w.tasks j).out)
    (hfiles : SameFiles w w') : Orderly w' st where
  table := htable
  absent j hj := h.absent j (habsent j hj)
  own j hj := (h.own j (hrun j hj)).same hfiles (htask j hj).1 (htask j hj).2.2
  turn j k hjk hj hk := h.turn j k hjk (hrun j hj) (hrun k hk)
  knows j k hjk hj hk hs := by
    rw [(htask k hk).1]
    exact (h.knows j k hjk (hrun j hj) (hrun k hk) hs).same hfiles.content (htask j hj).2.1

theorem Orderly.absent_update (h : Orderly w st) (hw : Leaves w w' i) (hi : w.Running i) :
    ∀ j, (w'.tasks j).status = .absent → Function.update st i s j = .fresh := by
  intro j hj
  have hold := hw.absent hj
  have hji : j ≠ i := by
    rintro rfl
    cases hold.symm.trans hi
  rw [Function.update_of_ne hji]
  exact h.absent j hold

/-- A daemon goes on before it takes the socket. It only has to care about what it knows of a
daemon that claims the PID file. -/
theorem Orderly.prepare (h : Orderly w st) (hw : Leaves w w' i) (hfiles : SameFiles w w')
    (hi : w.Running i) (hturn : ∀ j, i ≠ j → w.Running j → (st j).starting = false)
    (hclaiming : s.claiming = false) (howning : s.owning = false)
    (hknows : ∀ j, i ≠ j → w'.Running j → (st j).claiming = true →
      Knows w' i s (w.tasks j).pid) :
    Orderly w' (Function.update st i s) where
  table := h.table.leaves hw
  absent := h.absent_update hw hi
  own j hj := by
    by_cases hji : j = i
    · subst hji
      rw [Function.update_self]
      exact .of_idle hclaiming howning
    · rw [Function.update_of_ne hji]
      exact (h.own j (hw.running hj)).same hfiles (hw.pid j) (hw.out j hji)
  turn j k hjk hj hk hs := by
    by_cases hji : j = i
    · subst hji
      rw [Function.update_of_ne (Ne.symm hjk)]
      exact hturn k hjk (hw.running hk)
    · rw [Function.update_of_ne hji, hturn j (Ne.symm hji) (hw.running hj)] at hs
      cases hs
  knows j k hjk hj hk hs := by
    by_cases hki : k = i
    · subst hki
      rw [Function.update_self, hclaiming] at hs
      cases hs
    · rw [Function.update_of_ne hki] at hs
      rw [hw.pid k]
      by_cases hji : j = i
      · subst hji
        rw [Function.update_self]
        exact hknows k hjk hk hs
      · rw [Function.update_of_ne hji]
        exact (h.knows j k hjk (hw.running hj) (hw.running hk) hs).same hfiles.content
          (hw.stream j hji)

/-- A daemon past the kill goes on. It only has to care about itself. -/
theorem Orderly.succeed (h : Orderly w st) (hw : Leaves w w' i) (hi : w.Running i)
    (hsi : (st i).succeeding = true) (hown : w'.Running i → Own w' i s) :
    Orderly w' (Function.update st i s) where
  table := h.table.leaves hw
  absent := h.absent_update hw hi
  own j hj := by
    by_cases hji : j = i
    · subst hji
      rw [Function.update_self]
      exact hown hj
    · obtain ⟨hstarting, hclaiming⟩ := h.others_idle hi hsi (Ne.symm hji) (hw.running hj)
      rw [Function.update_of_ne hji]
      exact .of_idle hclaiming
        (Stage.owning_of_idle (Stage.succeeding_of_idle hstarting) hclaiming)
  turn j k hjk hj hk hs := by
    by_cases hji : j = i
    · subst hji
      rw [Function.update_of_ne (Ne.symm hjk)]
      exact (h.others_idle hi hsi hjk (hw.running hk)).1
    · rw [Function.update_of_ne hji,
        (h.others_idle hi hsi (Ne.symm hji) (hw.running hj)).1] at hs
      cases hs
  knows j k hjk hj hk hs := by
    by_cases hki : k = i
    · subst hki
      rw [Function.update_of_ne hjk]
      exact .of_idle (h.others_idle hi hsi (Ne.symm hjk) (hw.running hj)).1
    · rw [Function.update_of_ne hki,
        (h.others_idle hi hsi (Ne.symm hki) (hw.running hk)).2] at hs
      cases hs

/-- A daemon that claims the PID file takes one of its files away. A daemon that starts may be
looking at it, but has nothing in `/tmp` yet. -/
theorem Orderly.leave (h : Orderly w st) (hw : Leaves w w' i) (hi : w.Running i)
    (hsi : (st i).claiming = true) (hcontent : w'.content = w.content)
    (hstarting : s.starting = false) (hown : w'.Running i → Own w' i s) :
    Orderly w' (Function.update st i s) where
  table := h.table.leaves hw
  absent := h.absent_update hw hi
  own j hj := by
    by_cases hji : j = i
    · subst hji
      rw [Function.update_self]
      exact hown hj
    · have hclaiming : (st j).claiming = false := by
        by_contra hclaiming
        exact hji (h.claiming_unique (hw.running hj) hi (by simpa using hclaiming) hsi)
      rw [Function.update_of_ne hji]
      exact .of_idle hclaiming
        (Stage.owning_of_idle (h.knows j i hji (hw.running hj) hi hsi).before hclaiming)
  turn j k hjk hj hk hs := by
    by_cases hji : j = i
    · subst hji
      rw [Function.update_self, hstarting] at hs
      cases hs
    · rw [Function.update_of_ne hji] at hs
      by_cases hki : k = i
      · subst hki
        rw [Function.update_self]
        exact hstarting
      · rw [Function.update_of_ne hki]
        exact h.turn j k hjk (hw.running hj) (hw.running hk) hs
  knows j k hjk hj hk hs := by
    by_cases hki : k = i
    · subst hki
      rw [Function.update_of_ne hjk, hw.pid k]
      exact (h.knows j k hjk (hw.running hj) hi hsi).same hcontent (hw.stream j hjk)
    · rw [Function.update_of_ne hki] at hs
      exact absurd (h.claiming_unique (hw.running hk) hi hs hsi) hki

/-! ## The calls one by one -/

theorem Orderly.openPidFile (h : Orderly w st) {ok : Bool} (hi : w.Running i)
    (hok : ok = w.pidFile.isSome)
    (hturn : ∀ j, i ≠ j → w.Running j → (st j).starting = false) :
    Orderly (w.after i ⟨.openPidFile, ok⟩)
      (Function.update st i (if ok = true then .opened else .cleared)) := by
  subst hok
  refine h.prepare (leaves_after w i _) ⟨rfl, rfl, rfl⟩ hi hturn ?_ ?_ ?_
  · split <;> rfl
  · split <;> rfl
  · intro j hij hj hsj
    obtain ⟨file, hfile, htext⟩ :=
      (h.own j ((leaves_after w i _).running hj)).claimed hsj
    rw [hfile, Option.isSome_some, if_pos rfl]
    refine ⟨fun _ => ?_, nofun, rfl⟩
    have hstream : ((w.after i ⟨.openPidFile, true⟩).tasks i).stream = file := by
      simp [Machine.after, hfile]
    show w.content _ = _
    rw [hstream, htext]

theorem Orderly.scanPidFile (h : Orderly w st) (hi : w.Running i) (hsi : st i = .opened) :
    Orderly w (Function.update st i (Stage.scanned (scanInt (w.content (w.tasks i).stream)))) := by
  have hstarting : (st i).starting = true := by rw [hsi]; rfl
  refine h.prepare (leaves_of_tasks rfl rfl) ⟨rfl, rfl, rfl⟩ hi
    (fun j hij hj => h.turn i j hij hi hj hstarting) ?_ ?_ ?_
  · unfold Stage.scanned
    split
    · split <;> rfl
    · rfl
  · unfold Stage.scanned
    split
    · split <;> rfl
    · rfl
  · intro j hij hj hsj
    have hrange := h.table.range j hj
    rw [(h.knows i j hij hi hj hsj).opened hsi, scanInt_pidText hrange.2]
    have hpos : ((w.tasks j).pid : Int) > 0 := by omega
    rw [Stage.scanned, if_pos hpos]
    exact .of_suspect rfl rfl rfl

/-- A daemon that claims the PID file is the one that is about to be stopped. -/
theorem Orderly.suspect_target (h : Orderly w st) (hi : w.Running i) (hij : i ≠ j)
    (hj : w.Running j) (hsj : (st j).claiming = true) {pid : Int}
    (hpid : (st i).suspect = some pid) : pid = (w.tasks j).pid ∧ w.target pid = some j := by
  have heq := (h.knows i j hij hi hj hsj).suspect pid hpid
  exact ⟨heq, by rw [heq, h.table.target hj]⟩

theorem Orderly.kill (h : Orderly w st) (hi : w.Running i) {pid : Int} {signal : Nat} {sent : Bool}
    (hsent : sent = (w.target pid).isSome) (hs : (st i).killed pid signal sent = some s) :
    Orderly (w.deliverTo signal (w.target pid)) (Function.update st i s) := by
  have hw : Leaves w (w.deliverTo signal (w.target pid)) i :=
    leaves_after w i ⟨.kill pid signal, sent⟩
  have hfiles : SameFiles w (w.deliverTo signal (w.target pid)) := by
    cases w.target pid with
    | none => exact ⟨rfl, rfl, rfl⟩
    | some k => exact sameFiles_deliver signal k
  -- a probe that finds nobody finds no daemon that claims the PID file
  have hprobe : ∀ (p : Int) (s₁ : Stage), (st i).starting = true → (st i).suspect = some p →
      pid = p → s₁.claiming = false → s₁.owning = false → s₁.suspect = some p →
      s₁.succeeding = false → s = (if sent = true then s₁ else .cleared) →
      Orderly (w.deliverTo signal (w.target pid)) (Function.update st i s) := by
    rintro p s₁ hstarting hsuspect rfl hclaiming howning hsuspect₁ hbefore rfl
    refine h.prepare hw hfiles hi (fun j hij hj => h.turn i j hij hi hj hstarting) ?_ ?_ ?_
    · split
      · exact hclaiming
      · rfl
    · split
      · exact howning
      · rfl
    · intro j hij hj hsj
      obtain ⟨hpid, htarget⟩ := h.suspect_target hi hij (hw.running hj) hsj hsuspect
      rw [hsent, htarget, Option.isSome_some, if_pos rfl]
      exact .of_suspect hsuspect₁ hpid hbefore
  cases hst : st i with
  | found p =>
    rw [hst, Stage.killed, Option.ite_none_right_eq_some] at hs
    obtain ⟨⟨hp, -⟩, hs⟩ := hs
    exact hprobe p (.live p) (by rw [hst]; rfl) (by rw [hst]; rfl) hp rfl rfl rfl rfl
      (Option.some.inj hs).symm
  | live p =>
    rw [hst, Stage.killed, Option.ite_none_right_eq_some] at hs
    obtain ⟨⟨rfl, -⟩, hs⟩ := hs
    obtain rfl := Option.some.inj hs
    refine h.prepare hw hfiles hi (fun j hij hj => h.turn i j hij hi hj (by rw [hst]; rfl))
      rfl rfl fun j hij hj hsj => ?_
    obtain ⟨hpid, -⟩ := h.suspect_target hi hij (hw.running hj) hsj (by rw [hst]; rfl)
    exact .of_suspect rfl hpid rfl
  | termed p =>
    rw [hst, Stage.killed, Option.ite_none_right_eq_some] at hs
    obtain ⟨⟨hp, -⟩, hs⟩ := hs
    exact hprobe p (.stubborn p) (by rw [hst]; rfl) (by rw [hst]; rfl) hp rfl rfl rfl rfl
      (Option.some.inj hs).symm
  | stubborn p =>
    rw [hst, Stage.killed, Option.ite_none_right_eq_some] at hs
    obtain ⟨⟨rfl, rfl⟩, hs⟩ := hs
    obtain rfl := Option.some.inj hs
    refine h.prepare hw hfiles hi (fun j hij hj => h.turn i j hij hi hj (by rw [hst]; rfl))
      rfl rfl fun j hij hj hsj => ?_
    obtain ⟨-, htarget⟩ := h.suspect_target hi hij (hw.running hj) hsj (by rw [hst]; rfl)
    rw [htarget] at hj
    exact absurd hj (not_running_of_sigkill w j)
  | _ =>
    rw [hst] at hs
    cases hs

theorem Orderly.unlink (h : Orderly w st) (hi : w.Running i) {path : String}
    (hs : (st i).unlinked path = some s) :
    Orderly (w.unlink path) (Function.update st i s) := by
  have hw : Leaves w (w.unlink path) i := leaves_after w i ⟨.unlink path, ()⟩
  cases hst : st i with
  | cleared =>
    rw [hst, Stage.unlinked, Option.ite_none_right_eq_some] at hs
    obtain ⟨rfl, hs⟩ := hs
    obtain rfl := Option.some.inj hs
    exact h.succeed hw hi (by rw [hst]; rfl) fun _ => .of_idle rfl rfl
  | bound =>
    rw [hst, Stage.unlinked, Option.ite_none_right_eq_some] at hs
    obtain ⟨rfl, hs⟩ := hs
    obtain rfl := Option.some.inj hs
    exact h.succeed hw hi (by rw [hst]; rfl) fun _ => .of_idle rfl rfl
  | serving =>
    rw [hst, Stage.unlinked, Option.ite_none_right_eq_some] at hs
    obtain ⟨rfl, hs⟩ := hs
    obtain rfl := Option.some.inj hs
    have hclaimed := (h.own i hi).claimed (by rw [hst]; rfl)
    rw [unlink_socketPath] at hw ⊢
    exact h.leave hw hi (by rw [hst]; rfl) rfl rfl fun _ =>
      .of_not_owning (fun _ => hclaimed) rfl
  | unbound =>
    rw [hst, Stage.unlinked, Option.ite_none_right_eq_some] at hs
    obtain ⟨rfl, hs⟩ := hs
    obtain rfl := Option.some.inj hs
    rw [unlink_pidPath] at hw ⊢
    exact h.leave hw hi (by rw [hst]; rfl) rfl rfl fun _ => .of_idle rfl rfl
  | _ =>
    rw [hst] at hs
    cases hs

theorem Orderly.bindSocket (h : Orderly w st) (hi : w.Running i) (hsi : st i = .cleared)
    (path : String) (ok : Bool) :
    Orderly (w.after i ⟨.bindSocket path, ok⟩)
      (Function.update st i (if ok = true then .bound else .cleared)) := by
  refine h.succeed (leaves_after w i _) hi (by rw [hsi]; rfl) fun _ => ?_
  cases ok with
  | true => exact ⟨nofun, fun _ => rfl, nofun, nofun⟩
  | false => exact .of_idle rfl rfl

theorem Orderly.createPidFile (h : Orderly w st) (hi : w.Running i) (hsi : st i = .bound) :
    Orderly (w.create i) (Function.update st i .created) := by
  have howned : w.socketFile = some i := (h.own i hi).owned (by rw [hsi]; rfl)
  refine h.succeed (leaves_after w i ⟨.createPidFile, true⟩) hi (by rw [hsi]; rfl) fun _ => ?_
  unfold Machine.create
  split
  next file hfile =>
    refine ⟨nofun, fun _ => howned, fun _ => ?_, nofun⟩
    rw [Machine.tasks_setTask_self]
    exact ⟨hfile, Machine.content_setFile_self w file []⟩
  next =>
    refine ⟨nofun, fun _ => howned, fun _ => ?_, nofun⟩
    have hout : ((w.setFile w.nextFile []).setTask i { w.tasks i with out := w.nextFile }).tasks i
        = { w.tasks i with out := w.nextFile } := Machine.tasks_setTask_self _ _ _
    dsimp only
    rw [hout]
    exact ⟨rfl, Machine.content_setFile_self w w.nextFile []⟩

theorem Orderly.getpid (h : Orderly w st) (hi : w.Running i)
    (hs : (st i).pidKnown (w.tasks i).pid = some s) : Orderly w (Function.update st i s) := by
  cases hst : st i with
  | created =>
    rw [hst] at hs
    obtain rfl := Option.some.inj hs
    have hown := h.own i hi
    rw [hst] at hown
    refine h.succeed (leaves_of_tasks rfl rfl) hi (by rw [hst]; rfl) fun _ => ?_
    exact ⟨nofun, fun _ => hown.owned rfl, fun _ => hown.filed rfl, fun pid hpid => by
      injection hpid with hpid
      exact hpid.symm⟩
  | _ =>
    rw [hst] at hs
    cases hs

theorem Orderly.writePidText (h : Orderly w st) (hi : w.Running i) {text : Bytes}
    (hs : (st i).written text = some s) :
    Orderly (w.setFile (w.tasks i).out (text ++ (w.content (w.tasks i).out).drop text.length))
      (Function.update st i s) := by
  cases hst : st i with
  | named pid =>
    rw [hst, Stage.written, Option.ite_none_right_eq_some] at hs
    obtain ⟨rfl, hs⟩ := hs
    obtain rfl := Option.some.inj hs
    have hown := h.own i hi
    rw [hst] at hown
    obtain rfl := hown.named pid rfl
    obtain ⟨hfile, hempty⟩ := hown.filed rfl
    refine h.succeed (leaves_of_tasks rfl rfl) hi (by rw [hst]; rfl) fun _ => ?_
    refine ⟨fun _ => ⟨(w.tasks i).out, hfile, ?_⟩, fun _ => hown.owned rfl, ?_, ?_⟩
    · rw [Machine.content_setFile_self, hempty, List.drop_nil, List.append_nil]
      rfl
    · intro hfiling
      cases hfiling
    · intro _ hnamed
      cases hnamed
  | _ =>
    rw [hst] at hs
    cases hs

/-- A call that has to do with none of it. -/
theorem Orderly.quiet (h : Orderly w st) (hw : Leaves w w' i) (hfiles : SameFiles w w')
    (hstream : (w'.tasks i).stream = (w.tasks i).stream) (hout : (w'.tasks i).out = (w.tasks i).out)
    (hs : s = st i) : Orderly w' (Function.update st i s) := by
  rw [hs, Function.update_eq_self]
  refine h.fewer (h.table.leaves hw) (fun j => hw.absent) (fun j => hw.running) (fun j _ => ?_)
    hfiles
  by_cases hji : j = i
  · subst hji
    exact ⟨hw.pid j, hstream, hout⟩
  · exact ⟨hw.pid j, hw.stream j hji, hw.out j hji⟩

/-- A call of a daemon keeps order, if it does not look at the PID file while another starts,
and can create its own. -/
theorem Orderly.act (h : Orderly w st) {e : Effects.Event daemonSig}
    (hact : w.act i e = some w') (hnext : (st i).next e = some s)
    (hturn : e.1 = .openPidFile → ∀ j, i ≠ j → w.Running j → (st j).starting = false)
    (hcreate : e ≠ ⟨.createPidFile, false⟩) : Orderly w' (Function.update st i s) := by
  rw [Machine.act, Option.ite_none_right_eq_some] at hact
  obtain ⟨⟨hi, hanswers⟩, hact⟩ := hact
  obtain rfl := Option.some.inj hact
  obtain ⟨op, b⟩ := e
  cases op with
  | openPidFile =>
    have hok : b = w.pidFile.isSome := by simpa [Machine.answers] using hanswers
    have hfresh : some (if b = true then Stage.opened else .cleared) = some s := by
      simp only [Stage.next] at hnext
      split at hnext
      · exact hnext
      · cases hnext
    obtain rfl := Option.some.inj hfresh
    exact h.openPidFile hi hok (hturn rfl)
  | scanPidFile =>
    have htext : b = w.content (w.tasks i).stream := by simpa [Machine.answers] using hanswers
    subst htext
    have hopened : st i = .opened ∧
        some (Stage.scanned (scanInt (w.content (w.tasks i).stream))) = some s := by
      simp only [Stage.next] at hnext
      split at hnext
      next hst => exact ⟨hst, hnext⟩
      next => cases hnext
    obtain ⟨hst, hs⟩ := hopened
    obtain rfl := Option.some.inj hs
    exact h.scanPidFile hi hst
  | kill pid signal =>
    have hsent : b = (w.target pid).isSome := by simpa [Machine.answers] using hanswers
    exact h.kill hi hsent hnext
  | unlink path => exact h.unlink hi hnext
  | bindSocket path =>
    have hcleared : st i = .cleared ∧
        some (if b = true then Stage.bound else .cleared) = some s := by
      simp only [Stage.next] at hnext
      split at hnext
      next hst => exact ⟨hst, hnext⟩
      next => cases hnext
    obtain ⟨hst, hs⟩ := hcleared
    obtain rfl := Option.some.inj hs
    exact h.bindSocket hi hst path b
  | createPidFile =>
    cases b with
    | false => exact absurd rfl hcreate
    | true =>
      have hbound : st i = .bound ∧ some Stage.created = some s := by
        simp only [Stage.next] at hnext
        split at hnext
        next hst => exact ⟨hst, by simpa using hnext⟩
        next => cases hnext
      obtain ⟨hst, hs⟩ := hbound
      obtain rfl := Option.some.inj hs
      exact h.createPidFile hi hst
  | getpid =>
    have hpid : b = (w.tasks i).pid := by simpa [Machine.answers] using hanswers
    subst hpid
    exact h.getpid hi hnext
  | writePidText text => exact h.writePidText hi hnext
  | sigaction signal =>
    refine h.quiet (leaves_after w i _) ⟨rfl, rfl, rfl⟩ ?_ ?_ (Option.some.inj hnext).symm
    · simp [Machine.after]
    · simp [Machine.after]
  | signalled | select | accept | read | write | closeClient =>
    have hserving : (if st i = .serving then some Stage.serving else none) = some s := hnext
    rw [Option.ite_none_right_eq_some] at hserving
    exact h.quiet (leaves_of_tasks rfl rfl) ⟨rfl, rfl, rfl⟩ rfl rfl
      ((Option.some.inj hserving.2).symm.trans hserving.1.symm)
  | _ =>
    exact h.quiet (leaves_of_tasks rfl rfl) ⟨rfl, rfl, rfl⟩ rfl rfl (Option.some.inj hnext).symm

/-! ## The steps that nobody calls for -/

theorem Orderly.start (h : Orderly w st) {pid : Nat} (hi : (w.tasks i).status = .absent)
    (hfree : w.pids pid = none) (hpos : 0 < pid) (hlt : pid < 2 ^ 31) :
    Orderly { w.setTask i { pid := pid, status := .running } with
      pids := Function.update w.pids pid (some i) } st := by
  have hfresh := h.absent i hi
  have hother : ∀ j, j ≠ i →
      Function.update w.tasks i { pid := pid, status := .running } j = w.tasks j :=
    fun j hj => Function.update_of_ne hj _ _
  have hself : Function.update w.tasks i { pid := pid, status := .running } i =
      { pid := pid, status := .running } := Function.update_self _ _ _
  refine ⟨⟨fun j hj => ?_, fun j hj => ?_⟩, fun j hj => ?_, fun j hj => ?_,
    fun j k hjk hj hk hs => ?_, fun j k hjk hj hk hs => ?_⟩
  all_goals simp only [Machine.Running, Machine.setTask] at *
  · by_cases hji : j = i
    · subst hji
      rw [hself, Function.update_self]
    · rw [hother j hji] at hj ⊢
      have hpids := h.table.pids j hj
      have hne : (w.tasks j).pid ≠ pid := by
        intro heq
        rw [heq, hfree] at hpids
        cases hpids
      rw [Function.update_of_ne hne, hpids]
  · by_cases hji : j = i
    · subst hji
      rw [hself]
      exact ⟨hpos, hlt⟩
    · rw [hother j hji] at hj ⊢
      exact h.table.range j hj
  · by_cases hji : j = i
    · subst hji
      exact hfresh
    · rw [hother j hji] at hj
      exact h.absent j hj
  · by_cases hji : j = i
    · subst hji
      rw [hfresh]
      exact .of_idle rfl rfl
    · rw [hother j hji] at hj
      refine (h.own j hj).same ⟨rfl, rfl, rfl⟩ ?_ ?_
      · dsimp only
        rw [hother j hji]
      · dsimp only
        rw [hother j hji]
  · by_cases hji : j = i
    · subst hji
      rw [hfresh] at hs
      cases hs
    · by_cases hki : k = i
      · subst hki
        rw [hfresh]
        rfl
      · rw [hother j hji] at hj
        rw [hother k hki] at hk
        exact h.turn j k hjk hj hk hs
  · by_cases hki : k = i
    · subst hki
      rw [hfresh] at hs
      cases hs
    · by_cases hji : j = i
      · subst hji
        rw [hfresh]
        exact .of_idle rfl
      · rw [hother j hji] at hj
        rw [hother k hki] at hk ⊢
        refine (h.knows j k hjk hj hk hs).same rfl ?_
        dsimp only
        rw [hother j hji]

theorem Orderly.signal (h : Orderly w st) (signal i : Nat) : Orderly (w.deliver signal i) st := by
  have hw : ∀ j, Leaves w (w.deliver signal i) j := fun j => leaves_deliver signal i
  refine h.fewer (h.table.leaves (hw 0)) (fun j => (hw 0).absent) (fun j => (hw 0).running)
    (fun j _ => ?_) (sameFiles_deliver signal i)
  exact ⟨(hw j).pid j, (hw (j + 1)).stream j (by omega), (hw (j + 1)).out j (by omega)⟩

theorem Orderly.exit (h : Orderly w st) (hi : w.Running i) :
    Orderly (w.setTask i { w.tasks i with status := .zombie }) st := by
  have hw : Leaves w (w.setTask i { w.tasks i with status := .zombie }) i :=
    leaves_of_update rfl rfl rfl (.inr ⟨hi, rfl⟩)
  have hquiet := h.quiet (s := st i) hw ⟨rfl, rfl, rfl⟩ (by simp) (by simp) rfl
  rwa [Function.update_eq_self] at hquiet

theorem Orderly.reap (h : Orderly w st) (hi : (w.tasks i).status = .zombie) :
    Orderly { w.setTask i { w.tasks i with status := .gone } with
      pids := Function.update w.pids (w.tasks i).pid none } st := by
  have hother : ∀ j, j ≠ i →
      Function.update w.tasks i { w.tasks i with status := .gone } j = w.tasks j :=
    fun j hj => Function.update_of_ne hj _ _
  have hself : Function.update w.tasks i { w.tasks i with status := .gone } i =
      { w.tasks i with status := .gone } := Function.update_self _ _ _
  have hne : ∀ j,
      (Function.update w.tasks i { w.tasks i with status := .gone } j).status = .running ∨
        (Function.update w.tasks i { w.tasks i with status := .gone } j).status = .zombie →
      j ≠ i := by
    rintro j hj rfl
    rw [hself] at hj
    rcases hj with hj | hj <;> cases hj
  refine h.fewer ⟨fun j hj => ?_, fun j hj => ?_⟩ (fun j hj => ?_) (fun j hj => ?_)
    (fun j hj => ?_) ⟨rfl, rfl, rfl⟩
  all_goals simp only [Machine.Running, Machine.setTask] at *
  · have hji := hne j hj
    rw [hother j hji] at hj ⊢
    have hpids := h.table.pids j hj
    have hpid : (w.tasks j).pid ≠ (w.tasks i).pid := by
      intro heq
      rw [heq, h.table.pids i (.inr hi)] at hpids
      exact hji (Option.some.inj hpids).symm
    rw [Function.update_of_ne hpid, hpids]
  · have hji := hne j (.inl hj)
    rw [hother j hji] at hj ⊢
    exact h.table.range j hj
  · by_cases hji : j = i
    · subst hji
      rw [hself] at hj
      cases hj
    · rwa [hother j hji] at hj
  · rwa [hother j (hne j (.inl hj))] at hj
  · rw [hother j (hne j (.inl hj))]
    exact ⟨rfl, rfl, rfl⟩

theorem Orderly.outside (h : Orderly w st) {l : Machine.Outside} (hl : w.outside l = some w') :
    Orderly w' st := by
  cases l with
  | start i pid =>
    rw [Machine.outside, Option.ite_none_right_eq_some] at hl
    obtain ⟨⟨hi, hfree, hpos, hlt⟩, hl⟩ := hl
    obtain rfl := Option.some.inj hl
    exact h.start hi hfree hpos hlt
  | signal i signal =>
    rw [Machine.outside, Option.ite_none_right_eq_some] at hl
    obtain rfl := Option.some.inj hl.2
    exact h.signal signal i
  | exit i =>
    rw [Machine.outside, Option.ite_none_right_eq_some] at hl
    obtain rfl := Option.some.inj hl.2
    exact h.exit hl.1
  | reap i =>
    rw [Machine.outside, Option.ite_none_right_eq_some] at hl
    obtain rfl := Option.some.inj hl.2
    exact h.reap hl.1

end Orderly

end Sockd.Reference.Daemon
