import Sockd.Backlog
import Sockd.Ledger

/-!
# What histories say about the connections of a host

Every process's ledger says what it received and sent on its connections. `Agrees`
ties the ledgers of all processes to the ends that the host keeps: a process has an
entry for exactly the ends it owns, with the bytes that went through them, and what
was received is the beginning of what the other end sent. It holds in every run,
whatever the processes do (`agrees_run`).
-/

namespace Sockd

open Rust Effects Effects.Prog Effects.System

variable {S : Type}

/-! ## Entries -/

/-- What an entry says about the end of the connection. -/
structure Exchange.Matches (e : Exchange S) (x : Endpoint) : Prop where
  got : x.got = e.received
  sent : x.sent = e.sent
  side : e.accepted = true ↔ e.stream.side = .server

/-- The streams of a ledger, the newest first. -/
def Ledger.streams (L : Ledger S) : List Stream := L.exchanges.map Exchange.stream

theorem mem_touch {s : Stream} {f : Exchange S → Exchange S} {es : List (Exchange S)}
    (hnodup : (es.map Exchange.stream).Nodup)
    {e : Exchange S} (h : e ∈ touch s f es) :
    (e ∈ es ∧ e.stream ≠ s) ∨ ∃ e₀ ∈ es, e₀.stream = s ∧ e = f e₀ := by
  induction es with
  | nil => cases h
  | cons e' es ih =>
    rw [List.map_cons, List.nodup_cons] at hnodup
    unfold touch at h
    split at h
    next hs =>
      rcases List.mem_cons.mp h with heq | hmem
      · exact .inr ⟨e', List.mem_cons_self, hs, heq⟩
      · refine .inl ⟨List.mem_cons_of_mem _ hmem, fun hes => hnodup.1 ?_⟩
        rw [hs, ← hes]
        exact List.mem_map_of_mem hmem
    next hs =>
      rcases List.mem_cons.mp h with heq | hmem
      · rw [heq]
        exact .inl ⟨List.mem_cons_self, hs⟩
      · rcases ih hnodup.2 hmem with ⟨hold, hne⟩ | ⟨e₀, hold, hs₀, heq⟩
        · exact .inl ⟨List.mem_cons_of_mem _ hold, hne⟩
        · exact .inr ⟨e₀, List.mem_cons_of_mem _ hold, hs₀, heq⟩

theorem streams_touch {s : Stream} {f : Exchange S → Exchange S} (hf : ∀ e, (f e).stream = e.stream)
    (es : List (Exchange S)) : (touch s f es).map Exchange.stream = es.map Exchange.stream := by
  induction es with
  | nil => rfl
  | cons e es ih =>
    unfold touch
    split
    next => rw [List.map_cons, List.map_cons, hf]
    next => rw [List.map_cons, List.map_cons, ih]

/-- An entry that says the same about the bytes. -/
def Exchange.Alike (e e₀ : Exchange S) : Prop :=
  e.stream = e₀.stream ∧ e.accepted = e₀.accepted ∧ e.received = e₀.received ∧ e.sent = e₀.sent

theorem Exchange.Alike.refl (e : Exchange S) : e.Alike e := ⟨rfl, rfl, rfl, rfl⟩

theorem Exchange.Matches.alike {e e₀ : Exchange S} {x : Endpoint} (h : e₀.Matches x)
    (he : e.Alike e₀) : e.Matches x := by
  obtain ⟨hs, ha, hr, ht⟩ := he
  refine ⟨h.got.trans hr.symm, h.sent.trans ht.symm, ?_⟩
  rw [ha, hs]
  exact h.side

/-- Two ledgers with the same connections and bytes. -/
def Ledger.Alike (L L₀ : Ledger S) : Prop :=
  List.Forall₂ Exchange.Alike L.exchanges L₀.exchanges

theorem Ledger.Alike.refl (L : Ledger S) : L.Alike L :=
  List.forall₂_same.mpr fun e _ => .refl e

theorem streams_alike {es es₀ : List (Exchange S)} (h : List.Forall₂ Exchange.Alike es es₀) :
    es.map Exchange.stream = es₀.map Exchange.stream := by
  induction h with
  | nil => rfl
  | cons he _ ih => rw [List.map_cons, List.map_cons, he.1, ih]

theorem mem_alike {es es₀ : List (Exchange S)} (h : List.Forall₂ Exchange.Alike es es₀)
    {e : Exchange S} (he : e ∈ es) : ∃ e₀ ∈ es₀, e.Alike e₀ := by
  induction h with
  | nil => cases he
  | cons hhead _ ih =>
    rcases List.mem_cons.mp he with heq | hmem
    · rw [heq]
      exact ⟨_, List.mem_cons_self, hhead⟩
    · obtain ⟨e₀, he₀, halike⟩ := ih hmem
      exact ⟨e₀, List.mem_cons_of_mem _ he₀, halike⟩

theorem Ledger.Alike.streams {L L₀ : Ledger S} (h : L.Alike L₀) : L.streams = L₀.streams :=
  streams_alike h

theorem Ledger.Alike.mem {L L₀ : Ledger S} (h : L.Alike L₀) {e : Exchange S}
    (he : e ∈ L.exchanges) : ∃ e₀ ∈ L₀.exchanges, e.Alike e₀ :=
  mem_alike h he

theorem alike_touch {s : Stream} {f : Exchange S → Exchange S} (hf : ∀ e, (f e).Alike e)
    (es : List (Exchange S)) : List.Forall₂ Exchange.Alike (touch s f es) es := by
  induction es with
  | nil => exact .nil
  | cons e es ih =>
    unfold touch
    split
    next => exact .cons (hf e) (List.forall₂_same.mpr fun e _ => .refl e)
    next => exact .cons (.refl e) ih

theorem alike_touchNewest {f : Exchange S → Exchange S} (hf : ∀ e, (f e).Alike e)
    (es : List (Exchange S)) : List.Forall₂ Exchange.Alike (touchNewest f es) es := by
  cases es with
  | nil => exact .nil
  | cons e es => exact .cons (hf e) (List.forall₂_same.mpr fun e _ => .refl e)

/-- The events that open a connection or move bytes. -/
def Moves : SysEvent S → Prop
  | ⟨.connect _, .ok _⟩ | ⟨.accept _, .ok _⟩ | ⟨.read _ _, _⟩ | ⟨.write _ _, _⟩ => True
  | _ => False

/-- The other events do not show in the connections of a ledger. -/
theorem alike_step (L : Ledger S) {ev : SysEvent S} (h : ¬ Moves ev) : (L.step ev).Alike L := by
  unfold Ledger.step
  split
  next => exact absurd trivial h
  next => exact absurd trivial h
  next => exact .refl L
  next => exact .refl L
  next =>
    refine alike_touch ?_ _
    exact fun e => ⟨rfl, rfl, rfl, rfl⟩
  next => exact absurd trivial h
  next => exact absurd trivial h
  next =>
    refine alike_touchNewest ?_ _
    exact fun e => ⟨rfl, rfl, rfl, rfl⟩
  all_goals exact .refl L

/-- A ledger has the streams that were opened and accepted. -/
theorem streams_step (L : Ledger S) (ev : SysEvent S) (s : Stream) :
    s ∈ (L.step ev).streams ↔ s ∈ L.streams ∨
      (∃ p, ev = ⟨.connect p, .ok s⟩) ∨ ∃ l, ev = ⟨.accept l, .ok s⟩ := by
  have hkeep : (L.step ev).streams = L.streams → (∀ p, ev ≠ ⟨.connect p, .ok s⟩) →
      (∀ l, ev ≠ ⟨.accept l, .ok s⟩) → (s ∈ (L.step ev).streams ↔ s ∈ L.streams ∨
        (∃ p, ev = ⟨.connect p, .ok s⟩) ∨ ∃ l, ev = ⟨.accept l, .ok s⟩) := by
    intro hs hc ha
    rw [hs]
    refine ⟨.inl, fun h => ?_⟩
    rcases h with h | ⟨p, h⟩ | ⟨l, h⟩
    · exact h
    · exact absurd h (hc p)
    · exact absurd h (ha l)
  by_cases hmoves : Moves ev
  · obtain ⟨op, b⟩ := ev
    cases op with
    | connect p =>
      cases b with
      | error err => exact hmoves.elim
      | ok t =>
        show s ∈ t :: L.streams ↔ _
        rw [List.mem_cons]
        constructor
        · intro h
          rcases h with rfl | h
          · exact .inr (.inl ⟨p, rfl⟩)
          · exact .inl h
        · intro h
          rcases h with h | ⟨p', h⟩ | ⟨l, h⟩
          · exact .inr h
          · cases h
            exact .inl rfl
          · cases h
    | accept l =>
      cases b with
      | error err => exact hmoves.elim
      | ok t =>
        show s ∈ t :: L.streams ↔ _
        rw [List.mem_cons]
        constructor
        · intro h
          rcases h with rfl | h
          · exact .inr (.inr ⟨l, rfl⟩)
          · exact .inl h
        · intro h
          rcases h with h | ⟨p, h⟩ | ⟨l', h⟩
          · exact .inr h
          · cases h
          · cases h
            exact .inl rfl
    | read t n =>
      refine hkeep ?_ nofun nofun
      exact streams_touch (by exact fun _ => rfl) L.exchanges
    | write t buf =>
      refine hkeep ?_ nofun nofun
      exact streams_touch (by exact fun _ => rfl) L.exchanges
    | _ => exact hmoves.elim
  · refine hkeep (alike_step L hmoves).streams ?_ ?_
    · intro p he
      rw [he] at hmoves
      exact hmoves trivial
    · intro l he
      rw [he] at hmoves
      exact hmoves trivial

theorem mem_streams {h : History S} {s : Stream} : s ∈ (Ledger.of h).streams ↔
    (∃ p, ⟨.connect p, .ok s⟩ ∈ h) ∨ ∃ l, ⟨.accept l, .ok s⟩ ∈ h := by
  induction h using List.reverseRecOn with
  | nil =>
    constructor
    · exact fun h => nomatch h
    · intro h
      rcases h with ⟨p, h⟩ | ⟨l, h⟩ <;> cases h
  | append_singleton h e ih =>
    rw [Ledger.of_append, streams_step, ih]
    simp only [List.mem_append, List.mem_singleton, exists_or, eq_comm (b := e)]
    tauto

namespace Os

/-- An end as the ledgers see it. -/
structure Alike (x y : Endpoint) : Prop where
  owner : x.owner = y.owner
  got : x.got = y.got
  sent : x.sent = y.sent

/-! ## The ledgers and the ends -/

/-- The ledgers of the processes agree with the ends of the connections. -/
structure Agrees (w : Os) (L : Nat → Ledger S) : Prop where
  /-- No end has a number that was not given out. -/
  fresh : ∀ s, w.nextConn ≤ s.conn → w.ends s = {}
  owned : ∀ i s, (w.ends s).owner = some i ↔ s ∈ (L i).streams
  nodup : ∀ i, (L i).streams.Nodup
  agrees : ∀ i, ∀ e ∈ (L i).exchanges, e.Matches (w.ends e.stream)
  /-- Nothing goes through an end that nobody has accepted. -/
  unowned : ∀ s, (w.ends s).owner = none → (w.ends s).sent = [] ∧ (w.ends s).got = []
  /-- What was read is the beginning of what was written. -/
  order : ∀ s, (w.ends s).got <+: (w.ends s.peer).sent

theorem Initial.agrees {w : Os} (h : w.Initial) : w.Agrees fun _ => ({} : Ledger S) where
  fresh s _ := h.ends s
  owned i s := by
    rw [h.ends s]
    exact ⟨fun hs => (nomatch hs), fun hs => (nomatch hs)⟩
  nodup _ := List.nodup_nil
  agrees _ _ he := nomatch he
  unowned s _ := by rw [h.ends s]; exact ⟨rfl, rfl⟩
  order s := by rw [h.ends s]; exact List.nil_prefix

namespace Agrees

variable {w w' : Os} {L : Nat → Ledger S} {i : Nat}

/-- What does not move bytes keeps the agreement. -/
theorem frame (h : w.Agrees L) {L' : Nat → Ledger S}
    (hfresh : ∀ s, w'.nextConn ≤ s.conn → w'.ends s = {})
    (hends : ∀ s, Alike (w'.ends s) (w.ends s)) (hL : ∀ i, (L' i).Alike (L i)) : w'.Agrees L' := by
  have hstreams : ∀ i, (L' i).streams = (L i).streams := fun i => (hL i).streams
  refine ⟨hfresh, ?_, ?_, ?_, ?_, ?_⟩
  · intro i s
    rw [(hends s).owner, hstreams]
    exact h.owned i s
  · intro i
    rw [hstreams]
    exact h.nodup i
  · intro i e he
    obtain ⟨e₀, he₀, halike⟩ := (hL i).mem he
    have hm := (h.agrees i e₀ he₀).alike halike
    rw [← halike.1] at hm
    refine ⟨?_, ?_, hm.side⟩
    · rw [(hends _).got]
      exact hm.got
    · rw [(hends _).sent]
      exact hm.sent
  · intro s hs
    rw [(hends s).owner] at hs
    rw [(hends s).sent, (hends s).got]
    exact h.unowned s hs
  · intro s
    rw [(hends s).got, (hends s.peer).sent]
    exact h.order s

/-- A connection whose number was not given out is in no ledger. -/
theorem not_mem_streams (h : w.Agrees L) {s : Stream} (hs : w.nextConn ≤ s.conn) (j : Nat) :
    s ∉ (L j).streams := by
  rw [← h.owned, h.fresh s hs]
  exact fun he => nomatch he

/-- `connect`. -/
theorem dial (h : w.Agrees L) (i l : Nat) {M : Ledger S}
    (hM : M.exchanges = { stream := ⟨w.nextConn, .client⟩, accepted := false } :: (L i).exchanges) :
    (w.dial i l).Agrees (Function.update L i M) := by
  have hstreams : M.streams = ⟨w.nextConn, .client⟩ :: (L i).streams := by
    rw [Ledger.streams, hM]
    rfl
  have hne : ∀ {t : Stream} {j : Nat}, t ∈ (L j).streams → t.conn ≠ w.nextConn := by
    intro t j ht he
    exact h.not_mem_streams (Nat.le_of_eq he.symm) j ht
  have hold : ∀ t : Stream, t.conn ≠ w.nextConn → (w.dial i l).ends t = w.ends t := by
    intro t ht
    rw [ends_dial, if_neg (fun he => ht (by rw [he])), if_neg (fun he => ht (by rw [he]))]
  have hclient : (w.dial i l).ends ⟨w.nextConn, .client⟩ = { owner := some i, isOpen := true } := by
    rw [ends_dial, if_neg (by simp), if_pos rfl]
  have hserver : (w.dial i l).ends ⟨w.nextConn, .server⟩ = { isOpen := true } := by
    rw [ends_dial, if_pos rfl]
  refine ⟨?_, ?_, ?_, ?_, ?_, ?_⟩
  · intro t ht
    have hlt : w.nextConn < t.conn := ht
    rw [hold t (Nat.ne_of_gt hlt)]
    exact h.fresh t (Nat.le_of_lt hlt)
  · intro j t
    by_cases hj : j = i
    · subst hj
      rw [Function.update_self, hstreams, List.mem_cons]
      by_cases ht : t.conn = w.nextConn
      · obtain ⟨c, side⟩ := t
        obtain rfl : c = w.nextConn := ht
        have hno := h.not_mem_streams (s := ⟨w.nextConn, side⟩) (Nat.le_refl _) j
        cases side with
        | client => simp [hclient]
        | server => simp [hserver, hno]
      · rw [hold t ht, h.owned]
        refine ⟨.inr, fun hor => hor.resolve_left fun he => ht (by rw [he])⟩
    · rw [Function.update_of_ne hj]
      by_cases ht : t.conn = w.nextConn
      · refine ⟨fun ho => ?_, fun hmem => absurd ht (hne hmem)⟩
        obtain ⟨c, side⟩ := t
        obtain rfl : c = w.nextConn := ht
        cases side with
        | client =>
          rw [hclient] at ho
          exact absurd (Option.some.inj ho).symm hj
        | server =>
          rw [hserver] at ho
          cases ho
      · rw [hold t ht, h.owned]
  · intro j
    by_cases hj : j = i
    · subst hj
      rw [Function.update_self, hstreams, List.nodup_cons]
      exact ⟨h.not_mem_streams (Nat.le_refl _) j, h.nodup j⟩
    · rw [Function.update_of_ne hj]
      exact h.nodup j
  · intro j e he
    by_cases hj : j = i
    · subst hj
      rw [Function.update_self, hM] at he
      rcases List.mem_cons.mp he with heq | hmem
      · rw [heq, hclient]
        exact ⟨rfl, rfl, by simp⟩
      · rw [hold _ (hne (List.mem_map_of_mem hmem))]
        exact h.agrees j e hmem
    · rw [Function.update_of_ne hj] at he
      rw [hold _ (hne (List.mem_map_of_mem he))]
      exact h.agrees j e he
  · intro t ht
    by_cases htc : t.conn = w.nextConn
    · obtain ⟨c, side⟩ := t
      obtain rfl : c = w.nextConn := htc
      cases side with
      | client =>
        rw [hclient]
        exact ⟨rfl, rfl⟩
      | server =>
        rw [hserver]
        exact ⟨rfl, rfl⟩
    · rw [hold t htc] at ht ⊢
      exact h.unowned t ht
  · intro t
    by_cases htc : t.conn = w.nextConn
    · obtain ⟨c, side⟩ := t
      obtain rfl : c = w.nextConn := htc
      cases side with
      | client =>
        rw [hclient]
        exact List.nil_prefix
      | server =>
        rw [hserver]
        exact List.nil_prefix
    · rw [hold t htc, hold t.peer htc]
      exact h.order t

/-- `accept` of an end that nobody has. -/
theorem accept (h : w.Agrees L) {s : Stream} (hside : s.side = .server)
    (hconn : s.conn < w.nextConn) (hfree : (w.ends s).owner = none) {M : Ledger S}
    (hM : M.exchanges = { stream := s, accepted := true } :: (L i).exchanges)
    (hends : w'.ends = Function.update w.ends s { w.ends s with owner := some i })
    (hnext : w'.nextConn = w.nextConn) : w'.Agrees (Function.update L i M) := by
  have hstreams : M.streams = s :: (L i).streams := by
    rw [Ledger.streams, hM]
    rfl
  have hnot : ∀ j, s ∉ (L j).streams := by
    intro j hmem
    rw [← h.owned, hfree] at hmem
    cases hmem
  have hself : w'.ends s = { w.ends s with owner := some i } := by rw [hends, Function.update_self]
  have hold : ∀ t : Stream, t ≠ s → w'.ends t = w.ends t := by
    intro t ht
    rw [hends, Function.update_of_ne ht]
  have hbytes : ∀ t, (w'.ends t).got = (w.ends t).got ∧ (w'.ends t).sent = (w.ends t).sent := by
    intro t
    by_cases ht : t = s
    · subst ht
      rw [hself]
      exact ⟨rfl, rfl⟩
    · rw [hold t ht]
      exact ⟨rfl, rfl⟩
  refine ⟨?_, ?_, ?_, ?_, ?_, ?_⟩
  · intro t ht
    rw [hnext] at ht
    rw [hold t (fun he => absurd hconn (by rw [← he]; omega))]
    exact h.fresh t ht
  · intro j t
    by_cases hj : j = i
    · subst hj
      rw [Function.update_self, hstreams, List.mem_cons]
      by_cases ht : t = s
      · subst ht
        rw [hself]
        simp
      · rw [hold t ht, h.owned]
        exact ⟨.inr, fun hor => hor.resolve_left ht⟩
    · rw [Function.update_of_ne hj]
      by_cases ht : t = s
      · subst ht
        rw [hself]
        refine ⟨fun ho => absurd (Option.some.inj ho).symm hj, fun hmem => absurd hmem (hnot j)⟩
      · rw [hold t ht, h.owned]
  · intro j
    by_cases hj : j = i
    · subst hj
      rw [Function.update_self, hstreams, List.nodup_cons]
      exact ⟨hnot j, h.nodup j⟩
    · rw [Function.update_of_ne hj]
      exact h.nodup j
  · have hothers : ∀ j, ∀ e ∈ (L j).exchanges, e.Matches (w'.ends e.stream) := by
      intro j e he
      rw [hold _ (fun hes => hnot j (hes ▸ List.mem_map_of_mem he))]
      exact h.agrees j e he
    intro j e he
    by_cases hj : j = i
    · subst hj
      rw [Function.update_self, hM] at he
      rcases List.mem_cons.mp he with heq | hmem
      · obtain ⟨hsent, hgot⟩ := h.unowned s hfree
        rw [heq, hself]
        exact ⟨hgot, hsent, by simp [hside]⟩
      · exact hothers j e hmem
    · rw [Function.update_of_ne hj] at he
      exact hothers j e he
  · intro t ht
    rw [(hbytes t).1, (hbytes t).2]
    by_cases hts : t = s
    · rw [hts]
      exact h.unowned s hfree
    · rw [hold t hts] at ht
      exact h.unowned t ht
  · intro t
    rw [(hbytes t).1, (hbytes t.peer).2]
    exact h.order t

/-- Bytes that go through an end of process `i`: `g` are read from it, and `d` written
to it. -/
theorem transfer (h : w.Agrees L) {s : Stream} {g d : Bytes} {f : Exchange S → Exchange S}
    (hown : (w.ends s).owner = some i ∨ g = [] ∧ d = [])
    (horder : (w.ends s).got ++ g <+: (w.ends s.peer).sent)
    (hf : ∀ e, (f e).stream = e.stream ∧ (f e).accepted = e.accepted ∧
      (f e).received = e.received ++ g ∧ (f e).sent = e.sent ++ d) {M : Ledger S}
    (hM : M.exchanges = touch s f (L i).exchanges)
    (hends : w'.ends = Function.update w.ends s
      { w.ends s with got := (w.ends s).got ++ g, sent := (w.ends s).sent ++ d })
    (hnext : w'.nextConn = w.nextConn) : w'.Agrees (Function.update L i M) := by
  have hstreams : M.streams = (L i).streams := by
    rw [Ledger.streams, hM]
    exact streams_touch (fun e => (hf e).1) _
  have hself : w'.ends s =
      { w.ends s with got := (w.ends s).got ++ g, sent := (w.ends s).sent ++ d } := by
    rw [hends, Function.update_self]
  have hold : ∀ t : Stream, t ≠ s → w'.ends t = w.ends t := by
    intro t ht
    rw [hends, Function.update_of_ne ht]
  -- an end that is not `i`'s keeps its bytes
  have hnone : (w.ends s).owner ≠ some i → w'.ends s = w.ends s := by
    intro hne
    obtain ⟨rfl, rfl⟩ := hown.resolve_left hne
    rw [hself, List.append_nil, List.append_nil]
  refine ⟨?_, ?_, ?_, ?_, ?_, ?_⟩
  · intro t ht
    rw [hnext] at ht
    by_cases hts : t = s
    · subst hts
      rw [hnone (by rw [h.fresh t ht]; exact fun he => nomatch he)]
      exact h.fresh t ht
    · rw [hold t hts]
      exact h.fresh t ht
  · have howner : ∀ t, (w'.ends t).owner = (w.ends t).owner := by
      intro t
      by_cases hts : t = s
      · subst hts
        rw [hself]
      · rw [hold t hts]
    intro j t
    rw [howner, h.owned]
    by_cases hj : j = i
    · subst hj
      rw [Function.update_self, hstreams]
    · rw [Function.update_of_ne hj]
  · intro j
    by_cases hj : j = i
    · subst hj
      rw [Function.update_self, hstreams]
      exact h.nodup j
    · rw [Function.update_of_ne hj]
      exact h.nodup j
  · intro j e he
    by_cases hj : j = i
    · subst hj
      rw [Function.update_self, hM] at he
      rcases mem_touch (h.nodup j) he with ⟨hmem, hne⟩ | ⟨e₀, hmem, hes, rfl⟩
      · rw [hold _ hne]
        exact h.agrees j e hmem
      · obtain ⟨hstream, hacc, hrec, hsent⟩ := hf e₀
        have hm := h.agrees j e₀ hmem
        rw [hes] at hm
        rw [hstream, hes, hself]
        refine ⟨?_, ?_, ?_⟩
        · show (w.ends s).got ++ g = _
          rw [hrec, hm.got]
        · show (w.ends s).sent ++ d = _
          rw [hsent, hm.sent]
        · rw [hacc, hstream]
          exact hm.side
    · rw [Function.update_of_ne hj] at he
      have hm := h.agrees j e he
      by_cases hes : e.stream = s
      · -- the end is `j`'s, so nothing moved
        have hj' : (w.ends s).owner = some j := by
          rw [h.owned, ← hes]
          exact List.mem_map_of_mem he
        rw [hes] at hm ⊢
        rw [hnone (by rw [hj']; exact fun he => hj (Option.some.inj he))]
        exact hm
      · rw [hold _ hes]
        exact hm
  · intro t ht
    by_cases hts : t = s
    · subst hts
      have hfree : (w.ends t).owner = none := by
        rw [hself] at ht
        exact ht
      rw [hnone (by rw [hfree]; exact fun he => nomatch he)]
      exact h.unowned t hfree
    · rw [hold t hts] at ht ⊢
      exact h.unowned t ht
  · intro t
    have hmore : ∀ u, (w.ends u).sent <+: (w'.ends u).sent := by
      intro u
      by_cases hus : u = s
      · subst hus
        rw [hself]
        exact List.prefix_append _ _
      · simp only [hold u hus, List.prefix_rfl]
    by_cases hts : t = s
    · subst hts
      rw [hself]
      exact horder.trans (hmore t.peer)
    · rw [hold t hts]
      exact (h.order t).trans (hmore t.peer)

end Agrees

/-- Closing ends changes none of what the ledgers see. -/
theorem alike_shut (w : Os) (C : Stream → Bool) (s : Stream) :
    Alike ((w.shut C).ends s) (w.ends s) := ⟨rfl, rfl, rfl⟩

/-! ## In every run -/

/-- Events that do not move bytes leave the ends as the ledgers see them. -/
theorem alike_after (w : Os) (i : Nat) {ev : SysEvent S} (h : ¬ Moves ev) (s : Stream) :
    Alike ((w.after i ev).ends s) (w.ends s) := by
  unfold after
  split
  next => exact ⟨rfl, rfl, rfl⟩
  next => exact ⟨rfl, rfl, rfl⟩
  next => exact ⟨rfl, rfl, rfl⟩
  next => exact absurd trivial h
  next => exact ⟨rfl, rfl, rfl⟩
  next => exact absurd trivial h
  next => exact absurd trivial h
  next => exact absurd trivial h
  next => exact alike_shut w _ s
  next => exact alike_shut w _ s
  next => exact ⟨rfl, rfl, rfl⟩
  next => exact ⟨rfl, rfl, rfl⟩

namespace Agrees

variable {w w' : Os} {L : Nat → Ledger S} {i : Nat}

/-- Any call of a process, which is in its ledger afterwards. -/
theorem act (h : w.Agrees L) (hq : w.Queued) {ev : SysEvent S}
    (hok : isSpurious ev = true ∨ w.answers i ev = true) :
    (w.after i ev).Agrees (Function.update L i ((L i).step ev)) := by
  by_cases hm : Moves ev
  swap
  · refine h.frame (hq.act hok).given (alike_after w i hm) fun j => ?_
    by_cases hj : j = i
    · subst hj
      rw [Function.update_self]
      exact alike_step _ hm
    · rw [Function.update_of_ne hj]
      exact .refl _
  obtain ⟨op, a⟩ := ev
  cases op with
  | connect p =>
    cases a with
    | error err => exact hm.elim
    | ok s =>
      -- a connection is only made to a listener
      obtain ⟨l, hn, -, rfl⟩ := connect_ok hok
      rw [after_connect hn]
      exact h.dial i l rfl
  | accept l =>
    cases a with
    | error err => exact hm.elim
    | ok s =>
      obtain ⟨-, hside, hhead⟩ := accept_ok hok
      obtain ⟨-, hfree, hopen⟩ := hq.backlog l s.conn (List.mem_of_mem_head? hhead)
      have hs : (⟨s.conn, .server⟩ : Stream) = s := by rw [← hside]
      rw [hs] at hfree hopen
      refine h.accept hside ?_ hfree rfl rfl rfl
      by_contra hge
      rw [hq.given s (Nat.le_of_not_lt hge)] at hopen
      cases hopen
  | read s n =>
    -- what was read is what came before the end of what was sent
    have hans : (delivered a = []) ∨ (w.ends s).owner = some i ∧
        (w.ends s).got ++ delivered a <+: (w.ends s.peer).sent := by
      cases a with
      | error err => exact .inl rfl
      | ok d =>
        obtain ⟨hholds, hans⟩ := read_answers (hok.resolve_left Bool.false_ne_true)
        simp only [readAnswer, Bool.and_eq_true, decide_eq_true_eq] at hans
        exact .inr ⟨hholds.1, hans.1⟩
    have hends : ∀ x : Endpoint, x.sent = x.sent ++ [] := fun x => (List.append_nil _).symm
    refine h.transfer (s := s) (g := delivered a) (d := []) ?_ ?_ ?_ rfl ?_ rfl
    · rcases hans with hnil | ⟨hown, -⟩
      · exact .inr ⟨hnil, rfl⟩
      · exact .inl hown
    · rcases hans with hnil | ⟨-, hle⟩
      · rw [hnil, List.append_nil]
        exact h.order s
      · exact hle
    · intro e
      exact ⟨rfl, rfl, rfl, (List.append_nil _).symm⟩
    · rw [← hends]
      rfl
  | write s buf =>
    have hans : taken a = [] ∨ (w.ends s).owner = some i := by
      cases a with
      | error err => exact .inl rfl
      | ok k =>
        exact .inr (write_answers (hok.resolve_left Bool.false_ne_true)).1.1
    have hends : ∀ x : Endpoint, x.got = x.got ++ [] := fun x => (List.append_nil _).symm
    refine h.transfer (s := s) (g := []) (d := taken a) ?_ ?_ ?_ rfl ?_ rfl
    · rcases hans with hnil | hown
      · exact .inr ⟨rfl, hnil⟩
      · exact .inl hown
    · rw [List.append_nil]
      exact h.order s
    · intro e
      exact ⟨rfl, rfl, (List.append_nil _).symm, rfl⟩
    · rw [← hends]
      rfl
  | _ => exact hm.elim

/-- A step that is no process's call. -/
theorem outside (h : w.Agrees L) (hq : w.Queued) {o : Outside} (ho : w.outside o = some w') :
    w'.Agrees L := by
  refine h.frame (hq.outside ho).given (fun s => ?_) fun _ => .refl _
  cases o <;>
    · simp only [Os.outside, Option.ite_none_right_eq_some] at ho
      obtain rfl := Option.some.inj ho.2
      exact ⟨rfl, rfl, rfl⟩

end Agrees

section Runs

variable {role : Nat → Role} {cond : HostConfig S → HostLabel S → Prop} {w₀ : Os}
  {ls : List (HostLabel S)} {c c' : HostConfig S}

/-- What every process's ledger says. -/
def ledgers (c : HostConfig S) (i : Nat) : Ledger S := Ledger.of (c.hist i)

theorem ledgers_act {i : Nat} {ev : SysEvent S} (hs : (host role).step c (.act i ev) = some c') :
    ledgers c' = Function.update (ledgers c) i ((ledgers c i).step ev) := by
  funext j
  by_cases hj : j = i
  · subst hj
    rw [Function.update_self, ledgers, hist_act_self hs, Ledger.of_append, ledgers]
  · rw [Function.update_of_ne hj, ledgers, hist_act_ne hs hj, ledgers]

theorem Agrees.step (h : c.world.Agrees (ledgers c)) (hq : c.world.Queued) {l : HostLabel S}
    (hs : (host role).step c l = some c') : c'.world.Agrees (ledgers c') := by
  cases l with
  | act i ev =>
    obtain ⟨-, hok, hw⟩ := act_eq_some.mp (step_act.mp hs).1
    rw [hw, ledgers_act hs]
    exact h.act hq hok
  | outside o =>
    obtain ⟨ho, hh⟩ := step_outside.mp hs
    have hl : ledgers c' = ledgers c := by
      funext j
      rw [ledgers, hh, ledgers]
    rw [hl]
    exact h.outside hq ho

/-- **In every run** the ledgers agree with the ends of the connections. -/
theorem agrees_run (h₀ : w₀.Initial) (hr : Run (host role) cond (.start w₀) ls c) :
    c.world.Agrees (ledgers c) := by
  have hboth : c.world.Agrees (ledgers c) ∧ c.world.Queued := by
    refine hr.inv (I := fun c => c.world.Agrees (ledgers c) ∧ c.world.Queued)
      ⟨h₀.agrees, h₀.queued⟩ ?_
    intro c l c' hI hs _ _
    exact ⟨hI.1.step hI.2 hs, hI.2.step hs⟩
  exact hboth.1

end Runs

/-! ## What failed -/

/-- The failures on record on a connection with the ends `x` and `y`: no kind that
`connect` fails with, and reads have failed only when there was nothing more to read. -/
structure Faults (e : Exchange S) (x y : Endpoint) : Prop where
  read : ∀ err ∈ e.readFaults, err.kind = .unexpectedEof ∨ err.kind = .connectionReset
  write : ∀ err ∈ e.writeFaults,
    err.kind = .writeZero ∨ err.kind = .brokenPipe ∨ err.kind = .connectionReset
  ended : e.readFaults ≠ [] → x.got = y.sent ∧ y.isOpen = false

/-- Where an entry of the ledger after an event comes from, and what failed with it. -/
inductive FaultStep (L : Ledger S) (ev : SysEvent S) (e : Exchange S) : Prop
  | new : e.readFaults = [] → e.writeFaults = [] → FaultStep L ev e
  | same (e₀ : Exchange S) : e₀ ∈ L.exchanges → e.stream = e₀.stream →
      e.readFaults = e₀.readFaults → e.writeFaults = e₀.writeFaults → FaultStep L ev e
  | read (e₀ : Exchange S) (n : Nat) (a : Except IoError (Chunk n)) : e₀ ∈ L.exchanges →
      e.stream = e₀.stream → ev = ⟨.read e₀.stream n, a⟩ →
      e.readFaults = e₀.readFaults ++ readFaultOf a → e.writeFaults = e₀.writeFaults →
      FaultStep L ev e
  | write (e₀ : Exchange S) (buf : Bytes) (a : Except IoError (Taken buf)) : e₀ ∈ L.exchanges →
      e.stream = e₀.stream → ev = ⟨.write e₀.stream buf, a⟩ →
      e.readFaults = e₀.readFaults → e.writeFaults = e₀.writeFaults ++ writeFaultOf a →
      FaultStep L ev e

theorem faultStep (L : Ledger S) (hnodup : L.streams.Nodup) (ev : SysEvent S) {e : Exchange S}
    (he : e ∈ (L.step ev).exchanges) : FaultStep L ev e := by
  have hkeep : e ∈ L.exchanges → FaultStep L ev e := fun h => .same e h rfl rfl rfl
  unfold Ledger.step at he
  split at he
  next =>
    rcases List.mem_cons.mp he with rfl | he
    · exact .new rfl rfl
    · exact hkeep he
  next =>
    rcases List.mem_cons.mp he with rfl | he
    · exact .new rfl rfl
    · exact hkeep he
  next => exact hkeep he
  next => exact hkeep he
  next =>
    rcases mem_touch hnodup he with ⟨he, -⟩ | ⟨e₀, he₀, -, rfl⟩
    · exact hkeep he
    · exact .same e₀ he₀ rfl rfl rfl
  next =>
    rcases mem_touch hnodup he with ⟨he, -⟩ | ⟨e₀, he₀, rfl, rfl⟩
    · exact hkeep he
    · exact .read e₀ _ _ he₀ rfl rfl rfl rfl
  next =>
    rcases mem_touch hnodup he with ⟨he, -⟩ | ⟨e₀, he₀, rfl, rfl⟩
    · exact hkeep he
    · exact .write e₀ _ _ he₀ rfl rfl rfl rfl
  next =>
    cases hL : L.exchanges with
    | nil =>
      rw [hL] at he
      cases he
    | cons e₁ es =>
      rw [hL] at he
      rcases List.mem_cons.mp he with rfl | he
      · exact .same e₁ (by rw [hL]; exact List.mem_cons_self) rfl rfl rfl
      · exact hkeep (by rw [hL]; exact List.mem_cons_of_mem _ he)
  all_goals exact hkeep he

/-- Bytes are not unread, and a closed end stays closed. -/
structure Later (w w' : Os) (s : Stream) : Prop where
  got : (w.ends s).got <+: (w'.ends s).got
  closed : (w.ends s).isOpen = false → s.conn < w.nextConn →
    (w'.ends s).isOpen = false ∧ (w'.ends s).sent = (w.ends s).sent

theorem Later.shut (w : Os) (C : Stream → Bool) (s : Stream) : Later w (w.shut C) s := by
  refine ⟨List.prefix_rfl, fun hs _ => ⟨?_, rfl⟩⟩
  show ((w.ends s).isOpen && !C s) = false
  rw [hs]
  rfl

theorem Later.setEnd (w : Os) {s : Stream} {x : Endpoint} (hgot : (w.ends s).got <+: x.got)
    (hclosed : (w.ends s).isOpen = false → x.isOpen = false ∧ x.sent = (w.ends s).sent)
    (t : Stream) : Later w (w.setEnd s x) t := by
  by_cases ht : t = s
  · subst ht
    have hself : (w.setEnd t x).ends t = x := Function.update_self _ _ _
    refine ⟨?_, fun hs _ => ?_⟩
    · rw [hself]
      exact hgot
    · rw [hself]
      exact hclosed hs
  · have hother : (w.setEnd s x).ends t = w.ends t := Function.update_of_ne ht _ _
    refine ⟨?_, fun hs _ => ?_⟩
    · simp only [hother, List.prefix_rfl]
    · rw [hother]
      exact ⟨hs, rfl⟩

theorem Later.dial {w : Os} (hq : w.Queued) (i l : Nat) (t : Stream) : Later w (w.dial i l) t := by
  by_cases ht : t.conn = w.nextConn
  · refine ⟨?_, fun _ hlt => absurd hlt (by omega)⟩
    rw [hq.given t (Nat.le_of_eq ht.symm)]
    exact List.nil_prefix
  · have hother : (w.dial i l).ends t = w.ends t := by
      rw [ends_dial, if_neg (fun he => ht (by rw [he])), if_neg (fun he => ht (by rw [he]))]
    refine ⟨?_, fun hs _ => ?_⟩
    · simp only [hother, List.prefix_rfl]
    · rw [hother]
      exact ⟨hs, rfl⟩

theorem later_after {w : Os} (hq : w.Queued) {i : Nat} {ev : SysEvent S}
    (hok : isSpurious ev = true ∨ w.answers i ev = true) (t : Stream) : Later w (w.after i ev) t := by
  have hsame : Later w w t := ⟨List.prefix_rfl, fun hs _ => ⟨hs, rfl⟩⟩
  unfold after
  split
  next => exact ⟨hsame.got, hsame.closed⟩
  next => exact ⟨hsame.got, hsame.closed⟩
  next => exact ⟨hsame.got, hsame.closed⟩
  next =>
    split
    next l _ => exact .dial hq i l t
    next => exact hsame
  next => exact ⟨hsame.got, hsame.closed⟩
  next l s =>
    have hend := Later.setEnd w (s := s) (x := { w.ends s with owner := some i })
      List.prefix_rfl (fun hs => ⟨hs, rfl⟩) t
    exact ⟨hend.got, hend.closed⟩
  next s n a =>
    exact Later.setEnd w (x := { w.ends s with got := (w.ends s).got ++ delivered a })
      (List.prefix_append _ _) (fun hs => ⟨hs, rfl⟩) t
  next s buf a =>
    refine Later.setEnd w (x := { w.ends s with sent := (w.ends s).sent ++ taken a })
      List.prefix_rfl (fun hs => ⟨hs, ?_⟩) t
    -- a closed end takes no bytes
    have htaken : taken a = [] := by
      cases a with
      | error err => rfl
      | ok k =>
        have hopen := (write_answers (hok.resolve_left fun he => nomatch he)).1.2
        rw [hs] at hopen
        cases hopen
    show (w.ends s).sent ++ taken a = _
    rw [htaken, List.append_nil]
  next => exact .shut w _ t
  next => exact ⟨(Later.shut w _ t).got, (Later.shut w _ t).closed⟩
  next => exact ⟨hsame.got, hsame.closed⟩
  next => exact hsame

theorem later_outside {w w' : Os} {o : Outside} (ho : w.outside o = some w') (t : Stream) :
    Later w w' t := by
  cases o with
  | terminate i =>
    simp only [outside, Option.ite_none_right_eq_some] at ho
    obtain rfl := Option.some.inj ho.2
    have hshut := Later.shut w (fun s => decide ((w.ends s).owner = some i) ||
      decide (w.pendingAt (w.target s.conn) s ∧ (w.listeners (w.target s.conn)).owner = some i)) t
    exact ⟨hshut.got, hshut.closed⟩
  | start | signal | reap =>
    simp only [outside, Option.ite_none_right_eq_some] at ho
    obtain rfl := Option.some.inj ho.2
    exact ⟨List.prefix_rfl, fun hs _ => ⟨hs, rfl⟩⟩

/-- The failures on record in all ledgers. -/
def Faulted (w : Os) (L : Nat → Ledger S) : Prop :=
  ∀ i, ∀ e ∈ (L i).exchanges, Faults e (w.ends e.stream) (w.ends e.stream.peer)

section Faulted

variable {w w' : Os} {L : Nat → Ledger S} {e e₀ : Exchange S} {i : Nat}

/-- A connection that somebody has was given out. -/
theorem Agrees.conn_lt (h : w.Agrees L) (he : e ∈ (L i).exchanges) : e.stream.conn < w.nextConn := by
  by_contra hge
  exact h.not_mem_streams (Nat.le_of_not_lt hge) i (List.mem_map_of_mem he)

/-- What has failed stays on record, and nothing more can be read. -/
theorem Faults.later (h : Faults e₀ (w.ends e₀.stream) (w.ends e₀.stream.peer))
    (hconn : e₀.stream.conn < w.nextConn) (horder : (w'.ends e₀.stream).got <+:
      (w'.ends e₀.stream.peer).sent) (hlater : ∀ s, Later w w' s) (hs : e.stream = e₀.stream)
    (hr : e.readFaults = e₀.readFaults) (hw : e.writeFaults = e₀.writeFaults) :
    Faults e (w'.ends e.stream) (w'.ends e.stream.peer) := by
  rw [hs]
  refine ⟨?_, ?_, fun hne => ?_⟩
  · rw [hr]
    exact h.read
  · rw [hw]
    exact h.write
  · rw [hr] at hne
    obtain ⟨hgot, hclosed⟩ := h.ended hne
    obtain ⟨hclosed', hsent⟩ := (hlater e₀.stream.peer).closed hclosed hconn
    refine ⟨?_, hclosed'⟩
    rw [hsent] at horder ⊢
    rw [← hgot] at horder ⊢
    exact horder.eq_of_length_le (hlater e₀.stream).got.length_le

/-- What a failed read says. -/
theorem readFault_answers {s : Stream} {n : Nat} {a : Except IoError (Chunk n)}
    (hok : isSpurious (⟨.read s n, a⟩ : SysEvent S) = true ∨
      w.answers i (⟨.read s n, a⟩ : SysEvent S) = true) {err : IoError} (herr : err ∈ readFaultOf a) :
    (err.kind = .unexpectedEof ∨ err.kind = .connectionReset) ∧ delivered a = [] ∧
      w.Drained s ∧ (w.ends s.peer).isOpen = false := by
  cases a with
  | ok d =>
    have hans := (read_answers (hok.resolve_left Bool.false_ne_true)).2
    have herr : err ∈ (if 0 < n ∧ d.1 = [] then [readExactEof] else []) := herr
    split at herr
    next hd =>
      rw [List.mem_singleton.mp herr]
      simp only [readAnswer, Bool.and_eq_true, Bool.or_eq_true, decide_eq_true_eq,
        Bool.not_eq_true'] at hans
      have hend := hans.2.resolve_left fun hor => hor.elim (fun hne => hne hd.2) (by omega)
      exact ⟨.inl rfl, hd.2, hend.1, hend.2⟩
    next => cases herr
  | error io =>
    have herr : err ∈ (if io.kind = .interrupted then [] else [io]) := herr
    split at herr
    next => cases herr
    next hk =>
      obtain rfl := List.mem_singleton.mp herr
      have hans := (read_answers (hok.resolve_left fun he => hk (of_decide_eq_true he))).2
      simp only [readAnswer, Bool.and_eq_true, decide_eq_true_eq, Bool.not_eq_true'] at hans
      exact ⟨.inr hans.1.1.1, rfl, hans.1.2, hans.2⟩

/-- What a failed write says. -/
theorem writeFault_answers {s : Stream} {buf : Bytes} {a : Except IoError (Taken buf)}
    (hok : isSpurious (⟨.write s buf, a⟩ : SysEvent S) = true ∨
      w.answers i (⟨.write s buf, a⟩ : SysEvent S) = true) {err : IoError}
    (herr : err ∈ writeFaultOf a) :
    err.kind = .writeZero ∨ err.kind = .brokenPipe ∨ err.kind = .connectionReset := by
  cases a with
  | ok k =>
    have herr : err ∈ (if buf ≠ [] ∧ k.1 = 0 then [writeAllEof] else []) := herr
    split at herr
    next =>
      rw [List.mem_singleton.mp herr]
      exact .inl rfl
    next => cases herr
  | error io =>
    have herr : err ∈ (if io.kind = .interrupted then [] else [io]) := herr
    split at herr
    next => cases herr
    next hk =>
      obtain rfl := List.mem_singleton.mp herr
      have hans := (write_answers (hok.resolve_left fun he => hk (of_decide_eq_true he))).2
      simp only [writeAnswer, Bool.and_eq_true, Bool.or_eq_true, decide_eq_true_eq] at hans
      exact .inr hans.2

theorem Faulted.act (h : w.Faulted L) (ha : w.Agrees L) (hq : w.Queued) {ev : SysEvent S}
    (hok : isSpurious ev = true ∨ w.answers i ev = true) :
    (w.after i ev).Faulted (Function.update L i ((L i).step ev)) := by
  have hlater : ∀ s, Later w (w.after i ev) s := later_after hq hok
  have horder := (ha.act hq hok).order
  intro j e he
  by_cases hj : j = i
  swap
  · rw [Function.update_of_ne hj] at he
    exact (h j e he).later (ha.conn_lt he) (horder _) hlater rfl rfl rfl
  · subst hj
    rw [Function.update_self] at he
    rcases faultStep (L j) (ha.nodup j) ev he with
      ⟨hr, hw⟩ | ⟨e₀, he₀, hs, hr, hw⟩ | ⟨e₀, n, a, he₀, hs, rfl, hr, hw⟩ |
      ⟨e₀, buf, a, he₀, hs, rfl, hr, hw⟩
    · refine ⟨?_, ?_, fun hne => absurd hr hne⟩
      · rw [hr]
        exact fun err herr => nomatch herr
      · rw [hw]
        exact fun err herr => nomatch herr
    · exact (h j e₀ he₀).later (ha.conn_lt he₀) (horder _) hlater hs hr hw
    · -- a read: what was on record, and this one
      cases hf : readFaultOf a with
      | nil =>
        rw [hf, List.append_nil] at hr
        exact (h j e₀ he₀).later (ha.conn_lt he₀) (horder _) hlater hs hr hw
      | cons err₀ errs =>
        have hall : ∀ err ∈ readFaultOf a, _ := fun err herr => readFault_answers hok herr
        obtain ⟨-, hnil, hdrained, hclosed⟩ := hall err₀ (by rw [hf]; exact List.mem_cons_self)
        refine ⟨?_, ?_, fun _ => ?_⟩
        · rw [hr]
          intro err herr
          rcases List.mem_append.mp herr with herr | herr
          · exact (h j e₀ he₀).read err herr
          · exact (hall err herr).1
        · rw [hw]
          exact (h j e₀ he₀).write
        · rw [hs]
          obtain ⟨hclosed', hsent⟩ := (hlater e₀.stream.peer).closed hclosed (ha.conn_lt he₀)
          refine ⟨?_, hclosed'⟩
          rw [hsent]
          refine Eq.trans ?_ hdrained
          show (Function.update w.ends e₀.stream _ e₀.stream).got = _
          rw [Function.update_self]
          show (w.ends e₀.stream).got ++ delivered a = _
          rw [hnil, List.append_nil]
    · -- a write
      have hkeep := (h j e₀ he₀).later (e := e₀) (ha.conn_lt he₀) (horder _) hlater rfl rfl rfl
      rw [hs]
      refine ⟨?_, ?_, ?_⟩
      · rw [hr]
        exact hkeep.read
      · rw [hw]
        intro err herr
        rcases List.mem_append.mp herr with herr | herr
        · exact hkeep.write err herr
        · exact writeFault_answers hok herr
      · rw [hr]
        exact hkeep.ended

theorem Faulted.outside (h : w.Faulted L) (ha : w.Agrees L) (hq : w.Queued) {o : Outside}
    (ho : w.outside o = some w') : w'.Faulted L := fun i e he =>
  (h i e he).later (ha.conn_lt he) ((ha.outside hq ho).order _) (later_outside ho) rfl rfl rfl

end Faulted

section Runs

variable {role : Nat → Role} {cond : HostConfig S → HostLabel S → Prop} {w₀ : Os}
  {ls : List (HostLabel S)} {c : HostConfig S}

/-- **In every run** the failures on record are those of connected streams. -/
theorem faulted_run (h₀ : w₀.Initial) (hr : Run (host role) cond (.start w₀) ls c) :
    c.world.Faulted (ledgers c) := by
  have hall : c.world.Faulted (ledgers c) ∧ c.world.Agrees (ledgers c) ∧ c.world.Queued := by
    refine hr.inv (I := fun c => c.world.Faulted (ledgers c) ∧ c.world.Agrees (ledgers c) ∧
      c.world.Queued) ⟨fun i e he => (nomatch he), h₀.agrees, h₀.queued⟩ ?_
    intro c l c' hI hs _ _
    obtain ⟨hf, ha, hq⟩ := hI
    refine ⟨?_, ha.step hq hs, hq.step hs⟩
    cases l with
    | act i ev =>
      obtain ⟨-, hok, hw⟩ := act_eq_some.mp (step_act.mp hs).1
      rw [hw, ledgers_act hs]
      exact hf.act ha hq hok
    | outside o =>
      obtain ⟨ho, hh⟩ := step_outside.mp hs
      have hl : ledgers c' = ledgers c := by
        funext j
        rw [ledgers, hh, ledgers]
      rw [hl]
      exact hf.outside ha hq ho
  exact hall.1

end Runs

end Os

end Sockd
