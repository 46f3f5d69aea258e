import Mathlib.Data.List.Induction
import Sockd.Effects.Prog

/-!
# Processes interleaved over a shared world

A `System` has any number of processes, numbered, each with the set of traces it
can go through (`behaviour`; for a program `p` that is `p.Traces`), and a world
they share. A step is either one call of one process, answered by the world
(`acts`), or a step nobody's program takes (`outside`: a process is started, or
killed). A configuration is the world and what each process has done so far; a
process's *history* is thus all there is to know about where it stands.

`Run cond` are the runs whose every step meets `cond`, a predicate on the
configuration before the step. `Run.inv` is the invariant rule;
`Run.of_play` turns a schedule that was merely executed into a run; and
`Run.occurred` finds the moment of the run at which an event happened.
-/

namespace Effects

open Prog

/-- Processes over a world `W`, with outside steps `L`. -/
structure System (E : Sig) (W L : Type) where
  /-- Process `i` makes a call and gets this answer; `none` if it cannot. -/
  acts : W → Nat → Event E → Option W
  outside : W → L → Option W
  behaviour : Nat → List (Event E) → Prop

/-- A step: a call of process `i` with its answer, or an outside step. -/
inductive Label (E : Sig) (L : Type)
  | act (i : Nat) (e : Event E)
  | outside (l : L)

/-- The event of a step, if it is process `i` that makes it. -/
def Label.of? {E : Sig} {L : Type} (i : Nat) : Label E L → Option (Event E)
  | .act j e => if i = j then some e else none
  | .outside _ => none

theorem Label.of?_eq_some {E : Sig} {L : Type} {i : Nat} {e : Event E} {l : Label E L} :
    l.of? i = some e ↔ l = .act i e := by
  cases l with
  | act j e' =>
    simp only [of?, Option.ite_none_right_eq_some, Option.some.injEq, act.injEq]
    exact ⟨fun h => ⟨h.1.symm, h.2⟩, fun h => ⟨h.1.symm, h.2⟩⟩
  | outside l => simp [of?]

/-- The world, and what every process has done. -/
structure Config (E : Sig) (W : Type) where
  world : W
  hist : Nat → List (Event E)

/-- The configuration before any process has done anything. -/
def Config.start {E : Sig} {W : Type} (w : W) : Config E W := ⟨w, fun _ => []⟩

namespace System

variable {E : Sig} {W L : Type} {S : System E W L} {c c' c₀ : Config E W}
  {cond cond' : Config E W → Label E L → Prop} {ls : List (Label E L)} {l : Label E L}

/-- The effect of a step, if the world allows it. -/
def step (S : System E W L) (c : Config E W) : Label E L → Option (Config E W)
  | .act i e => (S.acts c.world i e).map fun w =>
      ⟨w, fun j => if j = i then c.hist i ++ [e] else c.hist j⟩
  | .outside l => (S.outside c.world l).map fun w => ⟨w, c.hist⟩

/-- Runs from `c₀` along the labels `ls`, every step of which meets `cond`. -/
inductive Run (S : System E W L) (cond : Config E W → Label E L → Prop) (c₀ : Config E W) :
    List (Label E L) → Config E W → Prop
  | nil : Run S cond c₀ [] c₀
  | snoc {ls : List (Label E L)} {c c' : Config E W} {l : Label E L} :
      Run S cond c₀ ls c → S.step c l = some c' →
      (∀ i e, l = .act i e → S.behaviour i (c'.hist i)) → cond c l →
      Run S cond c₀ (ls ++ [l]) c'

/-- No condition on the steps. -/
def anyStep : Config E W → Label E L → Prop := fun _ _ => True

theorem Run.mono (h : ∀ c l, cond c l → cond' c l) (hr : Run S cond c₀ ls c) :
    Run S cond' c₀ ls c := by
  induction hr with
  | nil => exact .nil
  | snoc _ hs hb hc ih => exact .snoc ih hs hb (h _ _ hc)

theorem Run.any (hr : Run S cond c₀ ls c) : Run S anyStep c₀ ls c :=
  hr.mono fun _ _ _ => trivial

/-- What a call does to a configuration. -/
theorem step_act {i : Nat} {e : Event E} :
    S.step c (.act i e) = some c' ↔
      S.acts c.world i e = some c'.world ∧
        c'.hist = fun j => if j = i then c.hist i ++ [e] else c.hist j := by
  obtain ⟨w', h'⟩ := c'
  simp only [step, Option.map_eq_some_iff, Config.mk.injEq]
  constructor
  · rintro ⟨w, hw, rfl, rfl⟩
    exact ⟨hw, rfl⟩
  · rintro ⟨hw, hh⟩
    exact ⟨w', hw, rfl, hh.symm⟩

/-- What an outside step does to a configuration. -/
theorem step_outside {o : L} :
    S.step c (.outside o) = some c' ↔ S.outside c.world o = some c'.world ∧ c'.hist = c.hist := by
  obtain ⟨w', h'⟩ := c'
  simp only [step, Option.map_eq_some_iff, Config.mk.injEq]
  constructor
  · rintro ⟨w, hw, rfl, rfl⟩
    exact ⟨hw, rfl⟩
  · rintro ⟨hw, hh⟩
    exact ⟨w', hw, rfl, hh.symm⟩

theorem hist_act_self {i : Nat} {e : Event E} (h : S.step c (.act i e) = some c') :
    c'.hist i = c.hist i ++ [e] := by
  rw [(step_act.mp h).2]
  simp

theorem hist_act_ne {i j : Nat} {e : Event E} (h : S.step c (.act i e) = some c') (hij : j ≠ i) :
    c'.hist j = c.hist j := by
  rw [(step_act.mp h).2]
  simp [hij]

/-- The invariant rule, with the behaviour of every process at hand. -/
theorem Run.inv {I : Config E W → Prop} (hr : Run S cond c₀ ls c) (h₀ : I c₀)
    (hstep : ∀ c l c', I c → S.step c l = some c' →
      (∀ i e, l = .act i e → S.behaviour i (c'.hist i)) → cond c l → I c') : I c := by
  induction hr with
  | nil => exact h₀
  | snoc _ hs hb hc ih => exact hstep _ _ _ ih hs hb hc

/-- Steps that meet one condition meet another, where the invariant holds. -/
theorem Run.mono_inv {I : Config E W → Prop} (hr : Run S cond c₀ ls c) (h₀ : I c₀)
    (hstep : ∀ c l c', I c → S.step c l = some c' →
      (∀ i e, l = .act i e → S.behaviour i (c'.hist i)) → cond c l → I c' ∧ cond' c l) :
    Run S cond' c₀ ls c := by
  induction hr with
  | nil => exact .nil
  | snoc hr hs hb hc ih =>
    have hI := hr.inv h₀ fun c l c' hI hs hb hc => (hstep c l c' hI hs hb hc).1
    exact .snoc ih hs hb (hstep _ _ _ hI hs hb hc).2

/-- Every process's history is one of its traces. -/
theorem Run.behaviour {w : W} (hr : Run S cond (.start w) ls c) {i : Nat}
    (h₀ : S.behaviour i []) : S.behaviour i (c.hist i) := by
  refine hr.inv (I := fun c => S.behaviour i (c.hist i)) h₀ ?_
  intro c l c' hI hs hb hc
  cases l with
  | act j e =>
    by_cases hij : i = j
    · subst hij
      exact hb i e rfl
    · rw [hist_act_ne hs hij]
      exact hI
  | outside o =>
    rw [(step_outside.mp hs).2]
    exact hI

/-- The last step of a run. -/
theorem Run.snoc_inv (hr : Run S cond c₀ (ls ++ [l]) c') :
    ∃ c, Run S cond c₀ ls c ∧ S.step c l = some c' ∧
      (∀ i e, l = .act i e → S.behaviour i (c'.hist i)) ∧ cond c l := by
  generalize hall : ls ++ [l] = ls' at hr
  cases hr with
  | nil => exact absurd hall (by simp)
  | snoc hr hs hb hc =>
    obtain ⟨rfl, hl⟩ := List.append_inj' hall rfl
    obtain rfl := List.singleton_injective hl
    exact ⟨_, hr, hs, hb, hc⟩

/-- A run of one step. -/
theorem Run.single (hr : Run S cond c [l] c') :
    S.step c l = some c' ∧ (∀ i e, l = .act i e → S.behaviour i (c'.hist i)) ∧ cond c l := by
  have hr : Run S cond c ([] ++ [l]) c' := hr
  obtain ⟨c₁, hr₁, hs, hb, hc⟩ := hr.snoc_inv
  generalize hnil : ([] : List (Label E L)) = ls at hr₁
  cases hr₁ with
  | nil => exact ⟨hs, hb, hc⟩
  | snoc _ _ _ _ => exact absurd hnil.symm (by simp)

/-- A run goes through a configuration after any of its steps. -/
theorem Run.split {ls₁ ls₂ : List (Label E L)} (hr : Run S cond c₀ (ls₁ ++ ls₂) c) :
    ∃ c₁, Run S cond c₀ ls₁ c₁ ∧ Run S cond c₁ ls₂ c := by
  induction ls₂ using List.reverseRecOn generalizing c with
  | nil =>
    rw [List.append_nil] at hr
    exact ⟨c, hr, .nil⟩
  | append_singleton ls₂ l ih =>
    rw [← List.append_assoc] at hr
    obtain ⟨c', hr', hs, hb, hc⟩ := hr.snoc_inv
    obtain ⟨c₁, h₁, h₂⟩ := ih hr'
    exact ⟨c₁, h₁, h₂.snoc hs hb hc⟩

/-- A step of a run, and the configuration in which it was taken. -/
theorem Run.mem (hr : Run S cond c₀ ls c) (hl : l ∈ ls) :
    ∃ ls₁ c₁ c₂, Run S cond c₀ ls₁ c₁ ∧ S.step c₁ l = some c₂ := by
  obtain ⟨ls₁, ls₂, rfl⟩ := List.append_of_mem hl
  rw [List.append_cons] at hr
  obtain ⟨c₂, h₂, -⟩ := hr.split
  obtain ⟨c₁, h₁, hs, -⟩ := h₂.snoc_inv
  exact ⟨ls₁, c₁, c₂, h₁, hs⟩

/-! ## Leaving out a process -/

/-- The steps that are not calls of process `b`. -/
def without (b : Nat) (ls : List (Label E L)) : List (Label E L) :=
  ls.filter fun l => (l.of? b).isNone

/-- The calls of process `b` leave the world as it is. -/
def Inert (S : System E W L) (b : Nat) (c : Config E W) (l : Label E L) : Prop :=
  ∀ e c', l = .act b e → S.step c l = some c' → c'.world = c.world

/-- If the calls of a process leave the world as it is, the run without them is a run,
in which everyone else does the same. -/
theorem Run.erase {b : Nat} (hr : Run S (Inert S b) c₀ ls c) :
    ∃ c', Run S anyStep c₀ (without b ls) c' ∧ c'.world = c.world ∧
      ∀ j, j ≠ b → c'.hist j = c.hist j := by
  induction hr with
  | nil => exact ⟨c₀, .nil, rfl, fun _ _ => rfl⟩
  | @snoc ls c c₁ l _ hs hb hc ih =>
    obtain ⟨c', hr', hw, hh⟩ := ih
    have happend : without b (ls ++ [l]) = without b ls ++ without b [l] := List.filter_append ..
    rw [happend]
    cases l with
    | outside o =>
      obtain ⟨ho, hist⟩ := step_outside.mp hs
      refine ⟨⟨c₁.world, c'.hist⟩, hr'.snoc ?_ (fun i e he => nomatch he) trivial, rfl, ?_⟩
      · exact step_outside.mpr ⟨hw ▸ ho, rfl⟩
      · intro j hj
        rw [hist]
        exact hh j hj
    | act i e =>
      by_cases hib : i = b
      · -- one of the calls that are left out
        subst hib
        have hnil : without i [(.act i e : Label E L)] = [] := by simp [without, Label.of?]
        rw [hnil, List.append_nil]
        refine ⟨c', hr', hw.trans (hc e c₁ rfl hs).symm, fun j hj => ?_⟩
        rw [hist_act_ne hs hj]
        exact hh j hj
      · have hself : without b [(.act i e : Label E L)] = [.act i e] := by
          simp [without, Label.of?, Ne.symm hib]
        have hi : c'.hist i = c.hist i := hh i hib
        rw [hself]
        refine ⟨⟨c₁.world, fun j => if j = i then c'.hist i ++ [e] else c'.hist j⟩,
          hr'.snoc ?_ ?_ trivial, rfl, ?_⟩
        · exact step_act.mpr ⟨hw ▸ (step_act.mp hs).1, rfl⟩
        · intro k e' he
          injection he with hk he
          subst hk he
          have := hb i e rfl
          rw [hist_act_self hs] at this
          simpa [hi] using this
        · intro j hj
          by_cases hji : j = i
          · subst hji
            rw [hist_act_self hs]
            simp [hi]
          · rw [hist_act_ne hs hji]
            simpa [hji] using hh j hj

/-! ## Executing a schedule -/

/-- Take the steps of a schedule one after another, as long as each meets `ok`. -/
def play (S : System E W L) (ok : Config E W → Label E L → Bool) (c : Config E W) :
    List (Label E L) → Option (Config E W)
  | [] => some c
  | l :: ls => if ok c l then (S.step c l).bind fun c' => play S ok c' ls else none

section Play

variable {ok : Config E W → Label E L → Bool}

theorem play_cons {ls : List (Label E L)} :
    S.play ok c (l :: ls) = some c' ↔
      ok c l = true ∧ ∃ c₁, S.step c l = some c₁ ∧ S.play ok c₁ ls = some c' := by
  simp only [play, Option.ite_none_right_eq_some, Option.bind_eq_some_iff]

theorem play_append (ls ls' : List (Label E L)) :
    S.play ok c (ls ++ ls') = (S.play ok c ls).bind fun c' => S.play ok c' ls' := by
  induction ls generalizing c with
  | nil => rfl
  | cons l ls ih =>
    simp only [List.cons_append, play]
    split
    next =>
      cases S.step c l with
      | none => rfl
      | some c' => exact ih
    next => rfl

/-- A schedule says what every process does. -/
theorem hist_play (h : S.play ok c ls = some c') (i : Nat) :
    c'.hist i = c.hist i ++ ls.filterMap (Label.of? i) := by
  induction ls generalizing c with
  | nil =>
    simp only [play, Option.some.injEq] at h
    simp [h]
  | cons l ls ih =>
    obtain ⟨-, c₁, h₁, h₂⟩ := play_cons.mp h
    rw [ih h₂]
    cases l with
    | outside o =>
      rw [(step_outside.mp h₁).2]
      rfl
    | act j e =>
      by_cases hij : i = j
      · subst hij
        rw [hist_act_self h₁]
        simp [Label.of?]
      · rw [hist_act_ne h₁ hij]
        simp [Label.of?, hij]

/-- A schedule that plays is a run, if what every process did in all is one of
its traces: traces can be cut short. -/
theorem Run.of_play (hcut : ∀ i t₁ t₂, S.behaviour i (t₁ ++ t₂) → S.behaviour i t₁)
    (h : S.play ok c₀ ls = some c) (hb : ∀ i, S.behaviour i (c.hist i)) :
    Run S (fun c l => ok c l = true) c₀ ls c := by
  induction ls using List.reverseRecOn generalizing c with
  | nil =>
    simp only [play, Option.some.injEq] at h
    subst h
    exact .nil
  | append_singleton ls l ih =>
    rw [play_append, Option.bind_eq_some_iff] at h
    obtain ⟨c₁, h₁, h₂⟩ := h
    obtain ⟨hok, c₂, hs, h₃⟩ := play_cons.mp h₂
    obtain rfl := Option.some.inj h₃
    refine .snoc (ih h₁ fun i => ?_) hs (fun i _ _ => hb i) hok
    exact hcut i _ _ (hist_play h₂ i ▸ hb i)

/-- A run can be executed. -/
theorem Run.play (hr : Run S cond c₀ ls c) : S.play (fun _ _ => true) c₀ ls = some c := by
  induction hr with
  | nil => rfl
  | snoc _ hs _ _ ih =>
    rw [play_append, ih, Option.bind_some, play_cons]
    exact ⟨rfl, _, hs, rfl⟩

/-- What a process has done, with what it did in the run. -/
theorem Run.hist (hr : Run S cond c₀ ls c) (i : Nat) :
    c.hist i = c₀.hist i ++ ls.filterMap (Label.of? i) := hist_play hr.play i

/-- One run after another. -/
theorem Run.append {ls' : List (Label E L)} (h₁ : Run S cond c₀ ls c)
    (h₂ : Run S cond c ls' c') : Run S cond c₀ (ls ++ ls') c' := by
  induction h₂ with
  | nil =>
    rw [List.append_nil]
    exact h₁
  | snoc _ hs hb hc ih =>
    rw [← List.append_assoc]
    exact ih.snoc hs hb hc

/-- An event that a process adds to its history is a step of the run, between the
configuration before it and the one after it. -/
theorem Run.moment (hr : Run S cond c₀ ls c) {i : Nat} {e : Event E} {h₁ h₂ : List (Event E)}
    (hh : c.hist i = c₀.hist i ++ (h₁ ++ e :: h₂)) :
    ∃ ls₁ ls₂ c₁ c₂, ls = ls₁ ++ .act i e :: ls₂ ∧ Run S cond c₀ ls₁ c₁ ∧
      c₁.hist i = c₀.hist i ++ h₁ ∧ S.step c₁ (.act i e) = some c₂ ∧
      Run S cond c₁ [.act i e] c₂ ∧ Run S cond c₂ ls₂ c := by
  rw [hr.hist i] at hh
  obtain ⟨ls₁, rest, rfl, hls₁, hrest⟩ :=
    List.filterMap_eq_append_iff.mp (List.append_cancel_left hh)
  obtain ⟨skipped, l, ls₂, rfl, hskipped, hl, -⟩ := List.filterMap_eq_cons_iff.mp hrest
  obtain rfl : l = .act i e := Label.of?_eq_some.mp hl
  rw [← List.append_assoc, List.append_cons] at hr
  obtain ⟨c₂, hr₂, hlast⟩ := hr.split
  obtain ⟨c₁, hr₁, hs, hb, hc⟩ := hr₂.snoc_inv
  refine ⟨ls₁ ++ skipped, ls₂, c₁, c₂, (List.append_assoc _ _ _).symm, hr₁, ?_, hs,
    Run.nil.snoc hs hb hc, hlast⟩
  rw [hr₁.hist i, List.filterMap_append, hls₁, List.filterMap_eq_nil_iff.mpr hskipped,
    List.append_nil]

/-- The same for an event in the history of a whole run. -/
theorem Run.occurred {w : W} (hr : Run S cond (.start w) ls c) {i : Nat} {e : Event E}
    {h₁ h₂ : List (Event E)} (hh : c.hist i = h₁ ++ e :: h₂) :
    ∃ ls₁ ls₂ c₁ c₂, ls = ls₁ ++ .act i e :: ls₂ ∧ Run S cond (.start w) ls₁ c₁ ∧
      c₁.hist i = h₁ ∧ S.step c₁ (.act i e) = some c₂ ∧
      Run S cond (.start w) (ls₁ ++ [.act i e]) c₂ := by
  obtain ⟨ls₁, ls₂, c₁, c₂, hls, hr₁, hh₁, hs, hr₂, -⟩ := hr.moment hh
  exact ⟨ls₁, ls₂, c₁, c₂, hls, hr₁, hh₁, hs, hr₁.append hr₂⟩

end Play

end System

end Effects
