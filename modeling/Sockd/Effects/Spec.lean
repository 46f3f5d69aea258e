import Mathlib.Data.List.Chain
import Mathlib.Data.List.Induction
import Sockd.Effects.Prog

/-!
# Reasoning about every trace of a program

A *monitor* `M : σ → Event E → σ` folds the events of a trace into a state: the
list of events itself (`record`), a few ghost fields, or the surroundings the
program runs in (then `σ` is an `Option`, `none` once an answer was impossible).

`Spec M s p Φ Q` says of the program `p`, started in monitor state `s`, that `Φ`
holds after every event and `Q a` holds when it returns `a`. It is partial
correctness plus an invariant, so it speaks about runs that are cut short too.
The rules follow the constructors of `Prog`; `Spec.loop` is the loop rule, and
the only one with an induction in it (over the steps of the run).
-/

namespace Effects

open Prog

variable {E : Sig} {α β σ τ υ ε ε' : Type}

/-- Along every trace of `p` from monitor state `s`, `Φ` holds; when `p` returns
`a`, `Q a` holds. -/
structure Spec (M : σ → Event E → σ) (s : σ) (p : Prog E α) (Φ : σ → Prop)
    (Q : α → σ → Prop) : Prop where
  always : ∀ {tr : List (Event E)} {q : Prog E α}, Reach p tr q → Φ (tr.foldl M s)
  returns : ∀ {tr : List (Event E)} {a : α}, Returns p tr a → Q a (tr.foldl M s)

namespace Spec

variable {M : σ → Event E → σ} {s : σ} {p : Prog E α} {Φ Ψ : σ → Prop} {Q R : α → σ → Prop}

/-- The invariant holds at the start. -/
theorem here (h : Spec M s p Φ Q) : Φ s := h.always .refl

theorem mono (h : Spec M s p Φ Q) (hΦ : ∀ s, Φ s → Ψ s) (hQ : ∀ a s, Q a s → R a s) :
    Spec M s p Ψ R :=
  ⟨fun hr => hΦ _ (h.always hr), fun hr => hQ _ _ (h.returns hr)⟩

theorem ret {a : α} (hΦ : Φ s) (hQ : Q a s) : Spec M s (.ret a) Φ Q where
  always := by
    rintro tr q ⟨n, h⟩
    cases h
    exact hΦ
  returns := by
    intro tr b h
    obtain ⟨rfl, rfl⟩ := returns_ret_iff.mp h
    exact hQ

theorem call {op : E.Op} {k : E.Ans op → Prog E α} (hΦ : Φ s)
    (hk : ∀ b, Spec M (M s ⟨op, b⟩) (k b) Φ Q) : Spec M s (.call op k) Φ Q where
  always := by
    rintro tr q ⟨n, h⟩
    cases h with
    | refl => exact hΦ
    | call h => exact (hk _).always ⟨_, h⟩
  returns := by
    rintro tr a ⟨n, h⟩
    cases h with
    | call h => exact (hk _).returns ⟨_, h⟩

theorem ask {op : E.Op} {Q : E.Ans op → σ → Prop} (hΦ : Φ s)
    (hk : ∀ b, Φ (M s ⟨op, b⟩) ∧ Q b (M s ⟨op, b⟩)) : Spec M s (Prog.ask op) Φ Q :=
  call hΦ fun b => ret (hk b).1 (hk b).2

theorem bind {p : Prog E β} {f : β → Prog E α} {R : β → σ → Prop} (hp : Spec M s p Φ R)
    (hf : ∀ b s, Φ s → R b s → Spec M s (f b) Φ Q) : Spec M s (p.bind f) Φ Q where
  always := by
    intro tr q h
    rcases reach_bind_iff.mp h with ⟨p', hp', -⟩ | ⟨t₁, t₂, b, rfl, h₁, h₂⟩
    · exact hp.always hp'
    · rw [List.foldl_append]
      exact (hf b _ (hp.always h₁) (hp.returns h₁)).always h₂
  returns := by
    intro tr a h
    obtain ⟨t₁, t₂, b, rfl, h₁, h₂⟩ := returns_bind_iff.mp h
    rw [List.foldl_append]
    exact (hf b _ (hp.always h₁) (hp.returns h₁)).returns h₂

/-- One round of a loop, then what is left of it; the part of a trace that lies
in the loop is shorter by the unfolding. -/
private theorem loop_steps {body : τ → Prog E (τ ⊕ β)} {k : β → Prog E α}
    {I : τ → σ → Prop} {R : β → σ → Prop}
    (hbody : ∀ x s, I x s → Spec M s (body x) Φ (fun r => Sum.elim I R r))
    (hk : ∀ b s, Φ s → R b s → Spec M s (k b) Φ Q) (n : Nat) :
    ∀ {m x s tr q}, m ≤ n → I x s → Steps m (.loop body x k) tr q →
      Φ (tr.foldl M s) ∧ ∀ a, q = .ret a → Q a (tr.foldl M s) := by
  induction n with
  | zero =>
    intro m x s tr q hm hI h
    obtain rfl : m = 0 := by omega
    cases h
    exact ⟨(hbody x s hI).here, fun a ha => by cases ha⟩
  | succ n ih =>
    intro m x s tr q hm hI h
    cases h with
    | refl => exact ⟨(hbody x s hI).here, fun a ha => by cases ha⟩
    | loop h =>
      rcases h.bind_inv with ⟨p', hp', rfl⟩ | ⟨t₁, t₂, r, l, rfl, hl, h₁, h₂⟩
      · refine ⟨(hbody x s hI).always ⟨_, hp'⟩, fun a ha => ?_⟩
        cases p' with
        | ret r =>
          have hR := (hbody x s hI).returns ⟨_, hp'⟩
          cases r with
          | inl y => cases ha
          | inr b =>
            have hΦ := (hbody x s hI).always ⟨_, hp'⟩
            exact (hk b _ hΦ hR).returns (by rw [Returns, ← ha]; exact .refl)
        | call op k' => cases ha
        | loop body' s' k' => cases ha
      · have hr := (hbody x s hI).returns ⟨_, h₁⟩
        have hΦ := (hbody x s hI).always ⟨_, h₁⟩
        rw [List.foldl_append]
        cases r with
        | inl y => exact ih (by omega) hr h₂
        | inr b =>
          exact ⟨(hk b _ hΦ hr).always ⟨l, h₂⟩, fun a ha => (hk b _ hΦ hr).returns ⟨l, ha ▸ h₂⟩⟩

/-- The loop rule: `I` holds at the head of every round, `R` on leaving. -/
theorem loop {body : τ → Prog E (τ ⊕ β)} {x : τ} {k : β → Prog E α}
    (I : τ → σ → Prop) (R : β → σ → Prop) (hx : I x s)
    (hbody : ∀ x s, I x s → Spec M s (body x) Φ (fun r => Sum.elim I R r))
    (hk : ∀ b s, Φ s → R b s → Spec M s (k b) Φ Q) : Spec M s (.loop body x k) Φ Q where
  always := by
    rintro tr q ⟨n, h⟩
    exact (loop_steps hbody hk n (Nat.le_refl _) hx h).1
  returns := by
    rintro tr a ⟨n, h⟩
    exact (loop_steps hbody hk n (Nat.le_refl _) hx h).2 a rfl

/-- Two facts about one program. -/
theorem and (h₁ : Spec M s p Φ Q) (h₂ : Spec M s p Ψ R) :
    Spec M s p (fun s => Φ s ∧ Ψ s) (fun a s => Q a s ∧ R a s) :=
  ⟨fun hr => ⟨h₁.always hr, h₂.always hr⟩, fun hr => ⟨h₁.returns hr, h₂.returns hr⟩⟩

/-- The invariant holds when the program returns, too. -/
theorem both (h : Spec M s p Φ Q) : Spec M s p Φ (fun a s => Φ s ∧ Q a s) :=
  ⟨h.always, fun hr => ⟨h.always hr, h.returns hr⟩⟩

/-- What every call of a program keeps, the program keeps. -/
theorem keep {A : E.Op → Prop} {I : σ → Prop} (hp : AllCalls A p)
    (hI : ∀ s op b, A op → I s → I (M s ⟨op, b⟩)) (h : I s) : Spec M s p I (fun _ => I) := by
  have hfold : ∀ (tr : List (Event E)) (s : σ), (∀ e ∈ tr, A e.1) → I s → I (tr.foldl M s) := by
    intro tr
    induction tr with
    | nil => intro s _ hs; exact hs
    | cons e tr ih =>
      intro s htr hs
      exact ih _ (fun e' he' => htr e' (by simp [he'])) (hI s e.1 e.2 (htr e (by simp)) hs)
  exact ⟨fun hr => hfold _ _ (hp.traces ⟨_, hr⟩) h, fun hr => hfold _ _ (hp.traces hr.traces) h⟩

/-- A claim about a program that matters only as long as `G` does not hold, where `G`
holds for good once it does. -/
theorem excusing {G : σ → Prop} (hG : ∀ s op b, G s → G (M s ⟨op, b⟩))
    (h : ¬ G s → Spec M s p Φ Q) : Spec M s p (fun s => G s ∨ Φ s) (fun a s => G s ∨ Q a s) := by
  by_cases hs : G s
  · have hkeep := keep (allCalls_any p) (fun s op b _ => hG s op b) hs
    exact hkeep.mono (fun _ h => .inl h) fun _ _ h => .inl h
  · exact (h hs).mono (fun _ h => .inr h) fun _ _ h => .inr h

/-- A program whose calls leave the monitor alone leaves it alone. -/
theorem still {A : E.Op → Prop} (hp : AllCalls A p) (hA : ∀ s op b, A op → M s ⟨op, b⟩ = s) :
    Spec M s p (fun s' => s' = s) (fun _ s' => s' = s) :=
  keep hp (fun s' op b hop hs => (hA s' op b hop).trans hs) rfl

/-! ## Programs that may fail -/

/-- What holds after a program that may fail: `R a` on success, else the claim
about the whole. -/
def orElse (Q : Except ε β → σ → Prop) (R : α → σ → Prop) : Except ε α → σ → Prop
  | .ok a, s => R a s
  | .error e, s => Q (.error e) s

theorem next {p : Prog E (Except ε α)} {f : α → Prog E (Except ε β)}
    {Q : Except ε β → σ → Prop} {R : α → σ → Prop} (hp : Spec M s p Φ (orElse Q R))
    (hf : ∀ a s, Φ s → R a s → Spec M s (f a) Φ Q) : Spec M s (p.bind (Try.next f)) Φ Q := by
  refine hp.bind fun r s hΦ hr => ?_
  cases r with
  | ok a => exact hf a s hΦ hr
  | error e => exact .ret hΦ hr

/-- The same, where the claim does not depend on the outcome. -/
theorem andThen {p : Prog E (Except ε α)} {f : α → Prog E (Except ε β)} {R : σ → Prop}
    (hp : Spec M s p Φ fun _ => R) (hf : ∀ a s, Φ s → R s → Spec M s (f a) Φ fun _ => R) :
    Spec M s (p.bind (Try.next f)) Φ fun _ => R := by
  refine next (R := fun _ => R) (hp.mono (fun _ h => h) fun r s hr => ?_) hf
  cases r <;> exact hr

theorem mapErr {p : Try E ε α} {f : ε → ε'} {Q : Except ε' α → σ → Prop}
    (hp : Spec M s p.run Φ fun r => Q (r.mapError f)) : Spec M s (p.mapErr f).run Φ Q :=
  hp.bind fun _ _ hΦ hr => .ret hΦ hr

/-- After a program that cannot fail. -/
theorem lift {p : Prog E α} {f : α → Try E ε β} {Q : Except ε β → σ → Prop} {R : α → σ → Prop}
    (hp : Spec M s p Φ R) (hf : ∀ a s, Φ s → R a s → Spec M s (f a).run Φ Q) :
    Spec M s (Try.lift p >>= f).run Φ Q := by
  rw [Try.run_bind, Try.run_lift, bind_assoc]
  exact hp.bind hf

/-- After a program whose outcome is looked at. -/
theorem attempt {p : Try E ε' α} {f : Except ε' α → Try E ε β} {Q : Except ε β → σ → Prop}
    {R : Except ε' α → σ → Prop} (hp : Spec M s p.run Φ R)
    (hf : ∀ r s, Φ s → R r s → Spec M s (f r).run Φ Q) : Spec M s (p.attempt >>= f).run Φ Q := by
  rw [Try.run_bind, Try.run_attempt, bind_assoc]
  exact hp.bind hf

/-! ## The trace itself as monitor state -/

/-- The monitor that keeps the whole trace. -/
def record (h : List (Event E)) (e : Event E) : List (Event E) := h ++ [e]

@[simp] theorem foldl_record (h tr : List (Event E)) : tr.foldl record h = h ++ tr := by
  induction tr generalizing h with
  | nil => simp
  | cons e tr ih => simp [record, ih]

/-- A fact about the traces of `p` read under any monitor. -/
theorem of_record {Φ : List (Event E) → Prop} {Q : α → List (Event E) → Prop}
    (h : Spec record [] p Φ Q) :
    Spec M s p (fun s' => ∃ t, s' = t.foldl M s ∧ Φ t)
      (fun a s' => ∃ t, s' = t.foldl M s ∧ Q a t) where
  always := fun {tr} _ hr => ⟨tr, rfl, by simpa using h.always hr⟩
  returns := fun {tr} _ hr => ⟨tr, rfl, by simpa using h.returns hr⟩

/-- A fact about the traces of `p`, after a history. -/
theorem after {h₀ : List (Event E)} {Φ : List (Event E) → Prop} {Q : α → List (Event E) → Prop}
    (h : Spec record [] p Φ Q) :
    Spec record h₀ p (fun tr => ∃ t, tr = h₀ ++ t ∧ Φ t) (fun a tr => ∃ t, tr = h₀ ++ t ∧ Q a t) := by
  refine h.of_record.mono ?_ ?_
  · rintro tr ⟨t, ht, hΦ⟩
    exact ⟨t, by rw [ht, foldl_record], hΦ⟩
  · rintro a tr ⟨t, ht, hQ⟩
    exact ⟨t, by rw [ht, foldl_record], hQ⟩

/-- A fact about `p` under any monitor, as one about the whole trace. -/
theorem recorded {s₀ : σ} {h₀ : List (Event E)} (h : Spec M (h₀.foldl M s₀) p Φ Q) :
    Spec record h₀ p (fun tr => Φ (tr.foldl M s₀)) (fun a tr => Q a (tr.foldl M s₀)) where
  always hr := by
    rw [foldl_record, List.foldl_append]
    exact h.always hr
  returns hr := by
    rw [foldl_record, List.foldl_append]
    exact h.returns hr

/-- Nothing is claimed. -/
theorem any : Spec M s p (fun _ => True) (fun _ _ => True) :=
  ⟨fun _ => trivial, fun _ => trivial⟩

/-- A loop that is left has come out of one of its rounds. -/
theorem returns_repeating_ok {body : τ → Try E ε (τ ⊕ β)} {x : τ} {t : List (Event E)} {b : β}
    (h : Returns (Try.repeating body x).run t (.ok b)) :
    ∃ t₁ t₂ y, t = t₁ ++ t₂ ∧ Returns (body y).run t₂ (.ok (.inr b)) := by
  have hloop : Spec record [] (Try.repeating body x).run (fun _ => True) (fun r t =>
      ∀ b, r = .ok b → ∃ t₁ t₂ y, t = t₁ ++ t₂ ∧ Returns (body y).run t₂ (.ok (.inr b))) := by
    refine loop (fun _ _ => True) (fun r t =>
      ∀ b, r = .ok b → ∃ t₁ t₂ y, t = t₁ ++ t₂ ∧ Returns (body y).run t₂ (.ok (.inr b)))
      trivial (fun y t₀ _ => ⟨fun _ => trivial, fun hr => ?_⟩) fun _ _ _ hr => .ret trivial hr
    obtain ⟨u, v, out, rfl, hbody, hround⟩ := returns_bind_iff.mp hr
    -- how the round ended
    match out with
    | .ok (.inl y) =>
      obtain ⟨-, rfl⟩ := returns_ret_iff.mp hround
      exact trivial
    | .ok (.inr b) =>
      obtain ⟨rfl, rfl⟩ := returns_ret_iff.mp hround
      intro b' hb'
      obtain rfl := Except.ok.inj hb'
      exact ⟨t₀, u, y, by rw [foldl_record, List.append_nil], hbody⟩
    | .error e =>
      obtain ⟨-, rfl⟩ := returns_ret_iff.mp hround
      exact fun _ he => by cases he
  simpa using hloop.returns h b rfl

/-! ## One event right after another -/

/-- The monitor that keeps the last event, and whether every call in `A` came right
after an event in `B`. -/
def precede (A : E.Op → Prop) (B : Event E → Prop) (m : Option (Event E) × Prop) (e : Event E) :
    Option (Event E) × Prop :=
  (some e, m.2 ∧ (A e.1 → ∃ e₀, m.1 = some e₀ ∧ B e₀))

variable {A : E.Op → Prop} {B : Event E → Prop} {m : Option (Event E) × Prop}

theorem foldl_precede_fst (h : List (Event E)) :
    (h.foldl (precede A B) (none, True)).1 = h.getLast? := by
  induction h using List.reverseRecOn with
  | nil => rfl
  | append_singleton h e _ =>
    rw [List.foldl_append, List.getLast?_concat]
    rfl

/-- A program that makes no call in `A`. -/
theorem precede_of_allCalls (hp : AllCalls (fun op => ¬ A op) p) (hm : m.2) :
    Spec (precede A B) m p (·.2) (fun _ m => m.2) :=
  keep hp (fun _ _ _ hop hm => ⟨hm, fun h => absurd h hop⟩) hm

/-- Where a program stands right before a call in `A`, its last event was in `B`. -/
theorem preceded {Q : α → Option (Event E) × Prop → Prop} {h : List (Event E)} {op : E.Op}
    {k : E.Ans op → Prog E α} (hp : Spec (precede A B) (none, True) p (·.2) Q)
    (hr : Reach p h (.call op k)) (hop : A op) (b : E.Ans op) : ∃ e, h.getLast? = some e ∧ B e := by
  have hnext := hp.always (hr.trans (.call (b := b) .refl))
  rw [List.foldl_append] at hnext
  have hlast := hnext.2 hop
  rwa [foldl_precede_fst] at hlast

/-! ## Events one after another -/

/-- The monitor that keeps the last event, and whether all consecutive events were
related by `R`. -/
def linked (R : Event E → Event E → Prop) (m : Option (Event E) × Prop) (e : Event E) :
    Option (Event E) × Prop :=
  (some e, m.2 ∧ ∀ e₀ ∈ m.1, R e₀ e)

theorem foldl_linked {R : Event E → Event E → Prop} (h : List (Event E)) :
    h.foldl (linked R) (none, True) = (h.getLast?, List.IsChain R h) := by
  induction h using List.reverseRecOn with
  | nil => simp
  | append_singleton h e ih =>
    rw [List.foldl_append, ih, List.getLast?_concat]
    have hchain : List.IsChain R (h ++ [e]) ↔ List.IsChain R h ∧ ∀ e₀ ∈ h.getLast?, R e₀ e := by
      simp [List.isChain_append]
    simp only [linked, List.foldl_cons, List.foldl_nil, hchain]

end Spec

end Effects
