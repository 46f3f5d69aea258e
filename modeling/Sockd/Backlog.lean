import Mathlib.Data.List.Nodup
import Sockd.Host

/-!
# The backlogs of a host

What waits at an open listener is exactly what was connected to it and not accepted,
each connection once, and who has accepted one owns the listener it was made to
(`Queued`). It holds in every run, whatever the processes do (`queued_run`): `dial`,
`bind`, `accept`, a transfer of bytes and the closing of ends are the ways in which a
step can change connections and listeners.
-/

namespace Sockd

open Rust Effects Effects.Prog Effects.System

variable {S : Type}

namespace Os

/-- The ends after a `connect`. -/
theorem ends_dial (w : Os) (i l : Nat) (t : Stream) :
    (w.dial i l).ends t = if t = ⟨w.nextConn, .server⟩ then { isOpen := true }
      else if t = ⟨w.nextConn, .client⟩ then { owner := some i, isOpen := true } else w.ends t := by
  show Function.update (Function.update w.ends ⟨w.nextConn, .client⟩ _) ⟨w.nextConn, .server⟩ _ t = _
  rw [Function.update_apply, Function.update_apply]

/-- A `connect` that a listener answers. -/
theorem after_connect {w : Os} {i l : Nat} {p : Path} {s : Stream}
    (hn : w.nodes p = some (.socket l)) :
    w.after i (⟨.connect p, .ok s⟩ : SysEvent S) = w.dial i l := by
  unfold after
  dsimp only
  rw [hn]

/-- The events that change connections or listeners. -/
def Touches : SysEvent S → Prop
  | ⟨.connect _, .ok _⟩ | ⟨.accept _, .ok _⟩ | ⟨.bind _, .ok _⟩ | ⟨.read _ _, _⟩
  | ⟨.write _ _, _⟩ | ⟨.closeStream _, _⟩ | ⟨.closeListener _, _⟩ => True
  | _ => False

/-- The connections and listeners of two hosts are the same. -/
structure SameConns (w' w : Os) : Prop where
  ends : w'.ends = w.ends
  listeners : w'.listeners = w.listeners
  target : w'.target = w.target
  nextConn : w'.nextConn = w.nextConn
  nextListener : w'.nextListener = w.nextListener

theorem sameConns_after (w : Os) (i : Nat) {ev : SysEvent S} (h : ¬ Touches ev) :
    SameConns (w.after i ev) w := by
  unfold after
  split
  next => exact ⟨rfl, rfl, rfl, rfl, rfl⟩
  next => exact ⟨rfl, rfl, rfl, rfl, rfl⟩
  next => exact ⟨rfl, rfl, rfl, rfl, rfl⟩
  next => exact absurd trivial h
  next => exact absurd trivial h
  next => exact absurd trivial h
  next => exact absurd trivial h
  next => exact absurd trivial h
  next => exact absurd trivial h
  next => exact absurd trivial h
  next => exact ⟨rfl, rfl, rfl, rfl, rfl⟩
  next => exact ⟨rfl, rfl, rfl, rfl, rfl⟩

/-- An end whose number was not given out is as it was. -/
theorem ends_shut_fresh {w : Os} {s : Stream} (hs : ∀ side, w.ends ⟨s.conn, side⟩ = {})
    (C : Stream → Bool) : (w.shut C).ends s = {} := by
  have hself : w.ends s = {} := hs s.side
  have hpeer : w.ends s.peer = {} := hs s.side.other
  simp [shut, hself, hpeer]

/-! ## The backlogs -/

/-- What waits at the listeners. -/
structure Queued (w : Os) : Prop where
  backlog : ∀ l, ∀ c ∈ (w.listeners l).backlog, w.target c = l ∧
    (w.ends ⟨c, .server⟩).owner = none ∧ (w.ends ⟨c, .server⟩).isOpen = true
  nodup : ∀ l, (w.listeners l).backlog.Nodup
  /-- Nobody has accepted it and it is open: it is in the backlog. -/
  waiting : ∀ c, (w.ends ⟨c, .server⟩).owner = none → (w.ends ⟨c, .server⟩).isOpen = true →
    c ∈ (w.listeners (w.target c)).backlog
  /-- It stays open as long as the listener does. -/
  kept : ∀ c, (w.ends ⟨c, .client⟩).owner ≠ none → (w.ends ⟨c, .server⟩).owner = none →
    (w.listeners (w.target c)).isOpen = true → (w.ends ⟨c, .server⟩).isOpen = true
  /-- Who has accepted it owns the listener. -/
  acceptor : ∀ c i, (w.ends ⟨c, .server⟩).owner = some i →
    (w.listeners (w.target c)).owner = some i
  target_lt : ∀ c, (w.ends ⟨c, .client⟩).owner ≠ none → w.target c < w.nextListener
  fresh : ∀ l, w.nextListener ≤ l → w.listeners l = {}
  closed : ∀ l, (w.listeners l).isOpen = false → (w.listeners l).backlog = []
  /-- No end has a number that was not given out. -/
  given : ∀ s, w.nextConn ≤ s.conn → w.ends s = {}
  /-- An open or accepted end has a client's. -/
  dialed : ∀ c, (w.ends ⟨c, .server⟩).isOpen = true ∨ (w.ends ⟨c, .server⟩).owner ≠ none →
    (w.ends ⟨c, .client⟩).owner ≠ none

theorem Initial.queued {w : Os} (h : w.Initial) : w.Queued where
  backlog l c hc := by rw [h.listeners l] at hc; cases hc
  nodup l := by rw [h.listeners l]; exact List.nodup_nil
  waiting c _ ho := by rw [h.ends] at ho; cases ho
  kept c hc := by rw [h.ends] at hc; exact absurd rfl hc
  acceptor c i hc := by rw [h.ends] at hc; cases hc
  target_lt c hc := by rw [h.ends] at hc; exact absurd rfl hc
  fresh l _ := h.listeners l
  closed l _ := by rw [h.listeners l]
  given s _ := h.ends s
  dialed c hc := by
    rw [h.ends] at hc
    rcases hc with ho | ho
    · cases ho
    · exact absurd rfl ho

namespace Queued

variable {w w' : Os} {i : Nat}

theorem same (h : w.Queued) (hw : SameConns w' w) : w'.Queued := by
  obtain ⟨hends, hlisteners, htarget, hconn, hlistener⟩ := hw
  refine ⟨?_, ?_, ?_, ?_, ?_, ?_, ?_, ?_, ?_, ?_⟩
  · rw [hends, hlisteners, htarget]
    exact h.backlog
  · rw [hlisteners]
    exact h.nodup
  · rw [hends, hlisteners, htarget]
    exact h.waiting
  · rw [hends, hlisteners, htarget]
    exact h.kept
  · rw [hends, hlisteners, htarget]
    exact h.acceptor
  · rw [hends, htarget, hlistener]
    exact h.target_lt
  · rw [hlisteners, hlistener]
    exact h.fresh
  · rw [hlisteners]
    exact h.closed
  · rw [hends, hconn]
    exact h.given
  · rw [hends]
    exact h.dialed

/-- Bytes going through an end. -/
theorem transfer (h : w.Queued) {s : Stream} {x : Endpoint} (hx : x.owner = (w.ends s).owner ∧
      x.isOpen = (w.ends s).isOpen) (hfresh : w.nextConn ≤ s.conn → x = {}) :
    (w.setEnd s x).Queued := by
  have howner : ∀ t, ((w.setEnd s x).ends t).owner = (w.ends t).owner := by
    intro t
    by_cases ht : t = s
    · subst ht
      exact (congrArg Endpoint.owner (Function.update_self _ _ _)).trans hx.1
    · exact congrArg Endpoint.owner (Function.update_of_ne ht _ _)
  have hopen : ∀ t, ((w.setEnd s x).ends t).isOpen = (w.ends t).isOpen := by
    intro t
    by_cases ht : t = s
    · subst ht
      exact (congrArg Endpoint.isOpen (Function.update_self _ _ _)).trans hx.2
    · exact congrArg Endpoint.isOpen (Function.update_of_ne ht _ _)
  refine ⟨?_, h.nodup, ?_, ?_, ?_, ?_, h.fresh, h.closed, ?_, ?_⟩
  · intro l c hc
    rw [howner, hopen]
    exact h.backlog l c hc
  · intro c
    rw [howner, hopen]
    exact h.waiting c
  · intro c
    rw [howner, howner, hopen]
    exact h.kept c
  · intro c j
    rw [howner]
    exact h.acceptor c j
  · intro c
    rw [howner]
    exact h.target_lt c
  · intro t ht
    by_cases hts : t = s
    · subst hts
      exact (Function.update_self _ _ _).trans (hfresh ht)
    · exact (Function.update_of_ne hts _ _).trans (h.given t ht)
  · intro c
    rw [howner, howner, hopen]
    exact h.dialed c

/-- Closing ends, of which those that wait are dropped from their backlogs with the
listener: the listeners in `D`. -/
theorem shut (h : w.Queued) {C : Stream → Bool} {D : Nat → Prop}
    (hC : ∀ c, (w.ends ⟨c, .server⟩).owner = none → (w.ends ⟨c, .server⟩).isOpen = true →
      (C ⟨c, .server⟩ = true ↔ D (w.target c)))
    (hends : w'.ends = (w.shut C).ends)
    (hclosed : ∀ l, D l → w'.listeners l = { owner := (w.listeners l).owner })
    (hopen : ∀ l, ¬ D l → w'.listeners l = w.listeners l)
    (htarget : w'.target = w.target) (hconn : w'.nextConn = w.nextConn)
    (hlistener : w'.nextListener = w.nextListener) : w'.Queued := by
  have howner : ∀ t, (w'.ends t).owner = (w.ends t).owner := by
    intro t
    rw [hends]
    rfl
  have hisOpen : ∀ t, (w'.ends t).isOpen = ((w.ends t).isOpen && !C t) := by
    intro t
    rw [hends]
    rfl
  have hlowner : ∀ l, (w'.listeners l).owner = (w.listeners l).owner := by
    intro l
    by_cases hl : D l
    · rw [hclosed l hl]
    · rw [hopen l hl]
  refine ⟨?_, ?_, ?_, ?_, ?_, ?_, ?_, ?_, ?_, ?_⟩
  · intro l c hc
    by_cases hl : D l
    · rw [hclosed l hl] at hc
      cases hc
    · rw [hopen l hl] at hc
      obtain ⟨ht, ho, hop⟩ := h.backlog l c hc
      have hCc : C ⟨c, .server⟩ = false := by
        rw [← Bool.not_eq_true, hC c ho hop, ht]
        exact hl
      rw [htarget, howner, hisOpen, hop, hCc]
      exact ⟨ht, ho, rfl⟩
  · intro l
    by_cases hl : D l
    · rw [hclosed l hl]
      exact List.nodup_nil
    · rw [hopen l hl]
      exact h.nodup l
  · intro c ho hop
    rw [howner] at ho
    rw [hisOpen, Bool.and_eq_true, Bool.not_eq_true'] at hop
    have hl : ¬ D (w.target c) := by
      rw [← hC c ho hop.1, hop.2]
      exact Bool.false_ne_true
    rw [htarget, hopen _ hl]
    exact h.waiting c ho hop.1
  · intro c hcl ho hlo
    rw [howner] at hcl ho
    rw [htarget] at hlo
    have hl : ¬ D (w.target c) := by
      intro hl
      rw [hclosed _ hl] at hlo
      cases hlo
    rw [hopen _ hl] at hlo
    have hop := h.kept c hcl ho hlo
    have hCc : C ⟨c, .server⟩ = false := by
      rw [← Bool.not_eq_true, hC c ho hop]
      exact hl
    rw [hisOpen, hop, hCc]
    rfl
  · intro c j
    rw [howner, htarget, hlowner]
    exact h.acceptor c j
  · intro c
    rw [howner, htarget, hlistener]
    exact h.target_lt c
  · intro l hl
    rw [hlistener] at hl
    have hfresh := h.fresh l hl
    by_cases hd : D l
    · rw [hclosed l hd, hfresh]
    · rw [hopen l hd, hfresh]
  · intro l hlo
    by_cases hl : D l
    · rw [hclosed l hl]
    · rw [hopen l hl] at hlo ⊢
      exact h.closed l hlo
  · intro s hs
    rw [hconn] at hs
    rw [hends]
    exact ends_shut_fresh (fun side => h.given _ hs) C
  · intro c hc
    rw [howner]
    apply h.dialed c
    rcases hc with hop | ho
    · rw [hisOpen, Bool.and_eq_true] at hop
      exact .inl hop.1
    · rw [howner] at ho
      exact .inr ho

/-- `connect` to an open listener. -/
theorem dial (h : w.Queued) (i : Nat) {l : Nat} (hl : (w.listeners l).isOpen = true) :
    (w.dial i l).Queued := by
  have hfree : ∀ side, w.ends ⟨w.nextConn, side⟩ = {} := fun side => h.given _ (Nat.le_refl _)
  have hold : ∀ c side, c ≠ w.nextConn → (w.dial i l).ends ⟨c, side⟩ = w.ends ⟨c, side⟩ := by
    intro c side hc
    rw [ends_dial, if_neg (by simp [hc]), if_neg (by simp [hc])]
  have hclient : (w.dial i l).ends ⟨w.nextConn, .client⟩ = { owner := some i, isOpen := true } := by
    rw [ends_dial, if_neg (by simp), if_pos rfl]
  have hserver : (w.dial i l).ends ⟨w.nextConn, .server⟩ = { isOpen := true } := by
    rw [ends_dial, if_pos rfl]
  have htarget : (w.dial i l).target w.nextConn = l := Function.update_self _ _ _
  have htarget' : ∀ c, c ≠ w.nextConn → (w.dial i l).target c = w.target c :=
    fun c hc => Function.update_of_ne hc _ _
  have hlistener : (w.dial i l).listeners l =
      { w.listeners l with backlog := (w.listeners l).backlog ++ [w.nextConn] } :=
    Function.update_self _ _ _
  have hlistener' : ∀ k, k ≠ l → (w.dial i l).listeners k = w.listeners k :=
    fun k hk => Function.update_of_ne hk _ _
  -- the new connection was in no backlog
  have hnew : ∀ k, ∀ c ∈ (w.listeners k).backlog, c ≠ w.nextConn := by
    intro k c hc he
    have hop := (h.backlog k c hc).2.2
    rw [he, hfree] at hop
    cases hop
  have hstate : ∀ k, ((w.dial i l).listeners k).isOpen = (w.listeners k).isOpen ∧
      ((w.dial i l).listeners k).owner = (w.listeners k).owner := by
    intro k
    by_cases hk : k = l
    · rw [hk, hlistener]
      exact ⟨rfl, rfl⟩
    · rw [hlistener' k hk]
      exact ⟨rfl, rfl⟩
  refine ⟨?_, ?_, ?_, ?_, ?_, ?_, ?_, ?_, ?_, ?_⟩
  · have hothers : ∀ k, ∀ c ∈ (w.listeners k).backlog, (w.dial i l).target c = k ∧
        ((w.dial i l).ends ⟨c, .server⟩).owner = none ∧
          ((w.dial i l).ends ⟨c, .server⟩).isOpen = true := by
      intro k c hc
      rw [htarget' c (hnew k c hc), hold c _ (hnew k c hc)]
      exact h.backlog k c hc
    intro k c hc
    by_cases hk : k = l
    · subst hk
      rw [hlistener] at hc
      rcases List.mem_append.mp hc with hc | hc
      · exact hothers k c hc
      · rw [List.mem_singleton.mp hc, htarget, hserver]
        exact ⟨rfl, rfl, rfl⟩
    · rw [hlistener' k hk] at hc
      exact hothers k c hc
  · intro k
    by_cases hk : k = l
    · subst hk
      rw [hlistener]
      refine List.nodup_append.mpr ⟨h.nodup k, List.nodup_singleton _, ?_⟩
      intro c hc c' hc' he
      exact hnew k c hc (he.trans (List.mem_singleton.mp hc'))
    · rw [hlistener' k hk]
      exact h.nodup k
  · intro c ho hop
    by_cases hc : c = w.nextConn
    · rw [hc, htarget, hlistener]
      exact List.mem_append_right _ (List.mem_singleton_self _)
    · rw [hold c _ hc] at ho hop
      rw [htarget' c hc]
      have hmem := h.waiting c ho hop
      by_cases hk : w.target c = l
      · rw [hk] at hmem ⊢
        rw [hlistener]
        exact List.mem_append_left _ hmem
      · rw [hlistener' _ hk]
        exact hmem
  · intro c hcl ho hlo
    by_cases hc : c = w.nextConn
    · rw [hc, hserver]
    · rw [hold c _ hc] at hcl ho ⊢
      rw [htarget' c hc, (hstate _).1] at hlo
      exact h.kept c hcl ho hlo
  · intro c j ho
    by_cases hc : c = w.nextConn
    · rw [hc, hserver] at ho
      cases ho
    · rw [hold c _ hc] at ho
      rw [htarget' c hc, (hstate _).2]
      exact h.acceptor c j ho
  · intro c hcl
    show (w.dial i l).target c < w.nextListener
    by_cases hc : c = w.nextConn
    · rw [hc, htarget]
      by_contra hge
      rw [h.fresh l (Nat.le_of_not_lt hge)] at hl
      cases hl
    · rw [hold c _ hc] at hcl
      rw [htarget' c hc]
      exact h.target_lt c hcl
  · intro k hk
    have hfresh := h.fresh k hk
    rw [hlistener' k (fun he => by rw [he] at hfresh; rw [hfresh] at hl; cases hl)]
    exact hfresh
  · intro k hk
    rw [(hstate k).1] at hk
    rw [hlistener' k (fun he => by rw [he, hl] at hk; cases hk)]
    exact h.closed k hk
  · intro s hs
    have hlt : w.nextConn < s.conn := hs
    have hs' : (w.dial i l).ends s = w.ends s := hold s.conn s.side (Nat.ne_of_gt hlt)
    rw [hs']
    exact h.given s (Nat.le_of_lt hlt)
  · intro c hc
    by_cases hcn : c = w.nextConn
    · rw [hcn, hclient]
      exact fun he => nomatch he
    · rw [hold c _ hcn] at hc ⊢
      exact h.dialed c hc

/-- `bind`. -/
theorem bind (h : w.Queued) (i : Nat) {l : Nat} (hl : l = w.nextListener)
    (hlisteners : w'.listeners =
      Function.update w.listeners l { owner := some i, isOpen := true })
    (hends : w'.ends = w.ends) (htarget : w'.target = w.target) (hconn : w'.nextConn = w.nextConn)
    (hnext : w'.nextListener = w.nextListener + 1) : w'.Queued := by
  have hself : w'.listeners l = { owner := some i, isOpen := true } := by
    rw [hlisteners, Function.update_self]
  have hold : ∀ k, k ≠ l → w'.listeners k = w.listeners k := by
    intro k hk
    rw [hlisteners, Function.update_of_ne hk]
  -- nothing was connected to it before
  have hempty : (w.listeners l).backlog = [] := by rw [h.fresh l (Nat.le_of_eq hl.symm)]
  have hnew : ∀ c, (w.ends ⟨c, .client⟩).owner ≠ none → w.target c ≠ l :=
    fun c hc => Nat.ne_of_lt (hl ▸ h.target_lt c hc)
  have hbacklog : ∀ k, (w'.listeners k).backlog = (w.listeners k).backlog := by
    intro k
    by_cases hk : k = l
    · rw [hk, hself, hempty]
    · rw [hold k hk]
  refine ⟨?_, ?_, ?_, ?_, ?_, ?_, ?_, ?_, ?_, ?_⟩
  · intro k c hc
    rw [hbacklog] at hc
    rw [hends, htarget]
    exact h.backlog k c hc
  · intro k
    rw [hbacklog]
    exact h.nodup k
  · intro c
    rw [hends, htarget, hbacklog]
    exact h.waiting c
  · intro c hcl ho hlo
    rw [hends] at hcl ho ⊢
    rw [htarget, hold _ (hnew c hcl)] at hlo
    exact h.kept c hcl ho hlo
  · intro c j ho
    rw [hends] at ho
    have hcl := h.dialed c (.inr (by rw [ho]; exact fun he => nomatch he))
    rw [htarget, hold _ (hnew c hcl)]
    exact h.acceptor c j ho
  · intro c hcl
    rw [hends] at hcl
    rw [htarget, hnext]
    exact Nat.lt_succ_of_lt (h.target_lt c hcl)
  · intro k hk
    rw [hnext] at hk
    rw [hold k (by omega)]
    exact h.fresh k (Nat.le_of_succ_le hk)
  · intro k hk
    rw [hbacklog]
    by_cases hkl : k = l
    · rw [hkl]
      exact hempty
    · rw [hold k hkl] at hk
      exact h.closed k hk
  · rw [hends, hconn]
    exact h.given
  · rw [hends]
    exact h.dialed

/-- `accept` of the connection that has waited longest. -/
theorem accept (h : w.Queued) {l : Nat} {s : Stream} (hl : w.Listens i l)
    (hside : s.side = .server) (hhead : (w.listeners l).backlog.head? = some s.conn) :
    ((w.setListener l { w.listeners l with backlog := (w.listeners l).backlog.tail }).setEnd s
      { w.ends s with owner := some i }).Queued := by
  obtain ⟨c₀, side⟩ := s
  obtain rfl : side = .server := hside
  generalize hw' : (w.setListener l _).setEnd _ _ = w'
  have hbacklog : (w.listeners l).backlog = c₀ :: (w.listeners l).backlog.tail :=
    List.eq_cons_of_mem_head? hhead
  have hmem : c₀ ∈ (w.listeners l).backlog := by
    rw [hbacklog]
    exact List.mem_cons_self
  obtain ⟨htarget₀, hfree, hopen₀⟩ := h.backlog l c₀ hmem
  have htarget : w'.target = w.target := by rw [← hw']; rfl
  have hself : w'.ends ⟨c₀, .server⟩ = { w.ends ⟨c₀, .server⟩ with owner := some i } := by
    rw [← hw']
    exact Function.update_self _ _ _
  have hold : ∀ t : Stream, t ≠ ⟨c₀, .server⟩ → w'.ends t = w.ends t := by
    intro t ht
    rw [← hw']
    exact Function.update_of_ne ht _ _
  have hlistener : w'.listeners l =
      { w.listeners l with backlog := (w.listeners l).backlog.tail } := by
    rw [← hw']
    exact Function.update_self _ _ _
  have hlistener' : ∀ k, k ≠ l → w'.listeners k = w.listeners k := by
    intro k hk
    rw [← hw']
    exact Function.update_of_ne hk _ _
  have hstate : ∀ k, (w'.listeners k).isOpen = (w.listeners k).isOpen ∧
      (w'.listeners k).owner = (w.listeners k).owner := by
    intro k
    by_cases hk : k = l
    · rw [hk, hlistener]
      exact ⟨rfl, rfl⟩
    · rw [hlistener' k hk]
      exact ⟨rfl, rfl⟩
  -- what is left of the backlogs was in them, and is another connection
  have hrest : ∀ k, ∀ c ∈ (w'.listeners k).backlog, c ∈ (w.listeners k).backlog ∧ c ≠ c₀ := by
    intro k c hc
    by_cases hk : k = l
    · subst hk
      rw [hlistener] at hc
      have hnodup := h.nodup k
      rw [hbacklog, List.nodup_cons] at hnodup
      refine ⟨List.mem_of_mem_tail hc, fun he => hnodup.1 ?_⟩
      rw [← he]
      exact hc
    · rw [hlistener' k hk] at hc
      refine ⟨hc, fun he => hk ?_⟩
      rw [← (h.backlog k c hc).1, he, htarget₀]
  have hclient : ∀ c, w'.ends ⟨c, .client⟩ = w.ends ⟨c, .client⟩ := fun c => hold _ (by simp)
  have hserver : ∀ c, c ≠ c₀ → w'.ends ⟨c, .server⟩ = w.ends ⟨c, .server⟩ :=
    fun c hc => hold _ (by simp [hc])
  refine ⟨?_, ?_, ?_, ?_, ?_, ?_, ?_, ?_, ?_, ?_⟩
  · intro k c hc
    obtain ⟨hc, hne⟩ := hrest k c hc
    rw [htarget, hserver c hne]
    exact h.backlog k c hc
  · intro k
    by_cases hk : k = l
    · rw [hk, hlistener]
      exact (h.nodup l).sublist (List.tail_sublist _)
    · rw [hlistener' k hk]
      exact h.nodup k
  · intro c ho hop
    have hc : c ≠ c₀ := by
      rintro rfl
      rw [hself] at ho
      cases ho
    rw [hserver c hc] at ho hop
    have hwait := h.waiting c ho hop
    rw [htarget]
    by_cases hk : w.target c = l
    · rw [hk] at hwait ⊢
      rw [hbacklog] at hwait
      rw [hlistener]
      exact (List.mem_cons.mp hwait).resolve_left hc
    · rw [hlistener' _ hk]
      exact hwait
  · intro c hcl ho hlo
    have hc : c ≠ c₀ := by
      rintro rfl
      rw [hself] at ho
      cases ho
    rw [hclient] at hcl
    rw [hserver c hc] at ho ⊢
    rw [htarget, (hstate _).1] at hlo
    exact h.kept c hcl ho hlo
  · intro c j ho
    rw [htarget, (hstate _).2]
    by_cases hc : c = c₀
    · subst hc
      rw [hself] at ho
      rw [htarget₀, ← ho]
      exact hl.1
    · rw [hserver c hc] at ho
      exact h.acceptor c j ho
  · intro c hcl
    rw [hclient] at hcl
    rw [htarget, ← hw']
    exact h.target_lt c hcl
  · intro k hk
    have hfresh := h.fresh k (by rw [← hw'] at hk; exact hk)
    rw [hlistener' k (fun he => by rw [he] at hfresh; rw [hfresh] at hmem; cases hmem)]
    exact hfresh
  · intro k hk
    rw [(hstate k).1] at hk
    rw [hlistener' k (fun he => by rw [he, hl.2] at hk; cases hk)]
    exact h.closed k hk
  · intro t ht
    have hgiven := h.given t (by rw [← hw'] at ht; exact ht)
    rw [hold t (fun he => by rw [he] at hgiven; rw [hgiven] at hopen₀; cases hopen₀)]
    exact hgiven
  · intro c hc
    rw [hclient]
    by_cases hcn : c = c₀
    · subst hcn
      exact h.dialed c (.inl hopen₀)
    · rw [hserver c hcn] at hc
      exact h.dialed c hc

/-- Any call of a process. -/
theorem act (h : w.Queued) {ev : SysEvent S} (hok : isSpurious ev = true ∨ w.answers i ev = true) :
    (w.after i ev).Queued := by
  -- a transfer concerns an end that somebody has, or moves nothing
  have hmove : ∀ s g d, (isSpurious ev = true → g = [] ∧ d = []) →
      (w.answers i ev = true → w.Holds i s) → (w.setEnd s
        { w.ends s with got := (w.ends s).got ++ g, sent := (w.ends s).sent ++ d }).Queued := by
    intro s g d hspur hans
    refine h.transfer ⟨rfl, rfl⟩ fun hs => ?_
    have hgiven := h.given s hs
    rcases hok with hspurious | hanswer
    · obtain ⟨rfl, rfl⟩ := hspur hspurious
      rw [hgiven]
      rfl
    · have hown := (hans hanswer).1
      rw [hgiven] at hown
      cases hown
  by_cases ht : Touches ev
  swap
  · exact h.same (sameConns_after w i ht)
  obtain ⟨op, a⟩ := ev
  cases op with
  | connect p =>
    cases a with
    | error err => exact ht.elim
    | ok s =>
      obtain ⟨l, hn, hopen, -⟩ := connect_ok hok
      rw [after_connect hn]
      exact h.dial i hopen
  | accept l =>
    cases a with
    | error err => exact ht.elim
    | ok s =>
      obtain ⟨hlistens, hside, hhead⟩ := accept_ok hok
      exact h.accept hlistens hside hhead
  | bind p =>
    cases a with
    | error err => exact ht.elim
    | ok l =>
      exact h.bind i (bind_ok hok).2 rfl rfl rfl rfl rfl
  | read s n =>
    have hm := hmove s (delivered a) []
    rw [List.append_nil] at hm
    refine hm ?_ ?_
    · intro hs
      cases a with
      | ok d => cases hs
      | error err => exact ⟨rfl, rfl⟩
    · exact fun hans => (read_answers hans).1
  | write s buf =>
    have hm := hmove s [] (taken a)
    rw [List.append_nil] at hm
    refine hm ?_ ?_
    · intro hs
      cases a with
      | ok k => cases hs
      | error err => exact ⟨rfl, rfl⟩
    · exact fun hans => (write_answers hans).1
  | closeStream s =>
    have hans : decide (w.Holds i s) = true := hok.resolve_left Bool.false_ne_true
    have hholds := of_decide_eq_true hans
    refine h.shut (C := fun t => decide (t = s)) (D := fun _ => False) ?_ rfl
      (fun _ hl => hl.elim) (fun _ _ => rfl) rfl rfl rfl
    intro c ho _
    refine ⟨fun he => ?_, False.elim⟩
    rw [of_decide_eq_true he, hholds.1] at ho
    cases ho
  | closeListener l =>
    refine h.shut (C := w.pendingAt l) (D := fun k => k = l) ?_ rfl ?_ ?_ rfl rfl rfl
    · intro c ho _
      simp [pendingAt, ho]
    · intro k hk
      rw [hk]
      exact Function.update_self _ _ _
    · intro k hk
      exact Function.update_of_ne hk _ _
  | _ => exact ht.elim

/-- A step that is no process's call. -/
theorem outside (h : w.Queued) {o : Outside} (ho : w.outside o = some w') : w'.Queued := by
  cases o with
  | terminate j =>
    simp only [Os.outside, Option.ite_none_right_eq_some] at ho
    obtain rfl := Option.some.inj ho.2
    have habandon : (w.abandon j).Queued := by
      refine h.shut (D := fun l => (w.listeners l).owner = some j) ?_ rfl ?_ ?_ rfl rfl rfl
      · intro c hfree _
        simp [pendingAt, hfree]
      · intro l hl
        show (if (w.listeners l).owner = some j then _ else _ : Listener) = _
        rw [if_pos hl, hl]
      · intro l hl
        exact if_neg hl
    exact habandon.same ⟨rfl, rfl, rfl, rfl, rfl⟩
  | start j pid =>
    simp only [Os.outside, Option.ite_none_right_eq_some] at ho
    obtain rfl := Option.some.inj ho.2
    exact h.same ⟨rfl, rfl, rfl, rfl, rfl⟩
  | signal j =>
    simp only [Os.outside, Option.ite_none_right_eq_some] at ho
    obtain rfl := Option.some.inj ho.2
    exact h.same ⟨rfl, rfl, rfl, rfl, rfl⟩
  | reap j =>
    simp only [Os.outside, Option.ite_none_right_eq_some] at ho
    obtain rfl := Option.some.inj ho.2
    exact h.same ⟨rfl, rfl, rfl, rfl, rfl⟩

end Queued

/-- The connections that wait at an open listener. -/
theorem Queued.mem_backlog {w : Os} (h : w.Queued) {l n : Nat}
    (hopen : (w.listeners l).isOpen = true) : n ∈ (w.listeners l).backlog ↔
      w.target n = l ∧ (w.ends ⟨n, .client⟩).owner ≠ none ∧ (w.ends ⟨n, .server⟩).owner = none := by
  constructor
  · intro hn
    obtain ⟨ht, ho, hop⟩ := h.backlog l n hn
    exact ⟨ht, h.dialed n (.inl hop), ho⟩
  · intro hn
    obtain ⟨rfl, hcl, ho⟩ := hn
    exact h.waiting n ho (h.kept n hcl ho hopen)

/-! ## The numbers of the connections -/

/-- New connections get new numbers, and the others keep their listeners. -/
structure Grows (w w' : Os) : Prop where
  nextConn : w.nextConn ≤ w'.nextConn
  target : ∀ n < w.nextConn, w'.target n = w.target n

theorem Grows.refl (w : Os) : Grows w w := ⟨Nat.le_refl _, fun _ _ => rfl⟩

theorem Grows.trans {w₁ w₂ w₃ : Os} (h : Grows w₁ w₂) (h' : Grows w₂ w₃) : Grows w₁ w₃ where
  nextConn := h.nextConn.trans h'.nextConn
  target n hn := (h'.target n (Nat.lt_of_lt_of_le hn h.nextConn)).trans (h.target n hn)

theorem Grows.dial (w : Os) (i l : Nat) : Grows w (w.dial i l) where
  nextConn := Nat.le_succ _
  target _ hn := Function.update_of_ne (Nat.ne_of_lt hn) _ _

theorem grows_after (w : Os) (i : Nat) (ev : SysEvent S) : Grows w (w.after i ev) := by
  unfold after
  split
  next => exact ⟨Nat.le_refl _, fun _ _ => rfl⟩
  next => exact ⟨Nat.le_refl _, fun _ _ => rfl⟩
  next => exact ⟨Nat.le_refl _, fun _ _ => rfl⟩
  next =>
    split
    next l _ => exact .dial w i l
    next => exact .refl w
  all_goals exact ⟨Nat.le_refl _, fun _ _ => rfl⟩

theorem grows_outside {w w' : Os} {o : Outside} (ho : w.outside o = some w') : Grows w w' := by
  cases o with
  | start | signal | terminate | reap =>
    simp only [outside, Option.ite_none_right_eq_some] at ho
    obtain rfl := Option.some.inj ho.2
    exact ⟨Nat.le_refl _, fun _ _ => rfl⟩

/-! ## In every run -/

section Runs

variable {role : Nat → Role} {cond : HostConfig S → HostLabel S → Prop} {w₀ : Os}
  {ls : List (HostLabel S)} {c c' : HostConfig S}

theorem Queued.step (h : c.world.Queued) {l : HostLabel S} (hs : (host role).step c l = some c') :
    c'.world.Queued := by
  cases l with
  | act i ev =>
    obtain ⟨-, hok, hw⟩ := act_eq_some.mp (step_act.mp hs).1
    rw [hw]
    exact h.act hok
  | outside o => exact h.outside (step_outside.mp hs).1

/-- **In every run** what waits at the listeners is what was connected and not accepted. -/
theorem queued_run (h₀ : w₀.Initial) (hr : Run (host role) cond (.start w₀) ls c) :
    c.world.Queued :=
  hr.inv (I := fun c => c.world.Queued) h₀.queued fun _ _ _ hI hs _ _ => hI.step hs

variable {c₁ : HostConfig S} {i : Nat} {s : Stream}

theorem grows_run (hr : Run (host role) cond c₁ ls c) : Grows c₁.world c.world := by
  refine hr.inv (I := fun c => Grows c₁.world c.world) (.refl _) ?_
  intro c l c' hI hs _ _
  cases l with
  | act i ev =>
    rw [(act_eq_some.mp (step_act.mp hs).1).2.2]
    exact hI.trans (grows_after _ _ _)
  | outside o => exact hI.trans (grows_outside (step_outside.mp hs).1)

/-- A connection made in a run is a new one. -/
theorem connects_run (hr : Run (host role) cond c₁ ls c) {p : Path}
    (hl : .act i ⟨.connect p, .ok s⟩ ∈ ls) : s.side = .client ∧ c₁.world.nextConn ≤ s.conn := by
  obtain ⟨ls₁, c₂, c₃, h₂, hs⟩ := hr.mem hl
  obtain ⟨-, hok, -⟩ := act_eq_some.mp (step_act.mp hs).1
  obtain ⟨-, -, -, rfl⟩ := connect_ok hok
  exact ⟨rfl, (grows_run h₂).nextConn⟩

theorem accepts_run (hr : Run (host role) cond c₁ ls c) {l : Nat}
    (hl : .act i ⟨.accept l, .ok s⟩ ∈ ls) : s.side = .server := by
  obtain ⟨ls₁, c₂, c₃, h₂, hs⟩ := hr.mem hl
  exact (accept_ok (act_eq_some.mp (step_act.mp hs).1).2.1).2.1

end Runs

end Os

end Sockd
