import Sockd.Lifecycle

/-!
# The daemon and its visitors

A `Visit` is one connection as the daemon meets it: what the peer sends altogether
and how it ends, how much of the reply it takes, and what `on_request` returns if
it is called. `Conforms visits` are the histories in which the connections that
are accepted are the given visits, in order, and the listener does not fail;
nothing is said about when they arrive, how their bytes are cut, the clock, the
flag, or any other call. `Matches` is what such a history makes of the ledger.

The event loop survives exactly the visits that are `Harmless`
(`survival_iff_harmless`), and the calls of `on_request` are determined by the
visits alone (`dispatch_in_order`).
-/

namespace Sockd

open Rust Effects Effects.Prog

variable {S : Type}

/-- What follows the bytes a peer sends. -/
inductive Ending
  | open | closed | reset
  deriving DecidableEq, Repr

/-- One connection, as the daemon meets it. -/
structure Visit where
  sends : Bytes
  ending : Ending
  /-- How many bytes of the reply are taken before the peer is gone; `none` if all. -/
  takes : Option Nat
  /-- What `set_nonblocking(false)` on the accepted stream answers. -/
  setup : Except IoError Unit
  /-- What `on_request` returns for the request of this connection. -/
  result : CallbackResult Bytes
  deriving DecidableEq

/-- A call on the connection `e`, as the visit answers it. -/
def Visit.allows (v : Visit) (e : Exchange S) : SysEvent S → Prop
  | ⟨.streamNonblocking _ _, a⟩ => a = v.setup
  | ⟨.read _ n, .ok d⟩ =>
    e.received ++ d.1 <+: v.sends ∧
      (0 < n → d.1 = [] → e.received = v.sends ∧ v.ending = .closed)
  | ⟨.read _ _, .error err⟩ =>
    err.kind = .interrupted ∨ (e.received = v.sends ∧ v.ending = .reset)
  | ⟨.write _ buf, .ok k⟩ =>
    (buf ≠ [] → 0 < k.1) ∧ ∀ n, v.takes = some n → e.sent.length + k.1 ≤ n
  | ⟨.write _ _, .error err⟩ => err.kind = .interrupted ∨ v.takes = some e.sent.length
  | ⟨.onRequest _ _, (result, _)⟩ => result = v.result
  | _ => True

/-- The connections that were accepted. -/
def accepted (es : List (Exchange S)) : List (Exchange S) := es.filter (·.accepted)

/-- If `e`, accepted after `es`, is the connection of a visit, that visit allows the
event. -/
def VisitAllows (visits : List Visit) (ev : SysEvent S) (e : Exchange S) (es : List (Exchange S)) :
    Prop :=
  e.accepted = true → ∃ v, visits[(accepted es).length]? = some v ∧ v.allows e ev

/-- The event is allowed on every connection with the stream `s`. -/
def OnStream (visits : List Visit) (s : Stream) (ev : SysEvent S) : List (Exchange S) → Prop
  | [] => True
  | e :: es => (e.stream = s → VisitAllows visits ev e es) ∧ OnStream visits s ev es

/-- The event is allowed on the newest connection. -/
def OnNewest (visits : List Visit) (ev : SysEvent S) : List (Exchange S) → Prop
  | [] => True
  | e :: es => VisitAllows visits ev e es

/-- An event that the visits can answer, whatever the listener answers. -/
def Possible (visits : List Visit) (L : Ledger S) (ev : SysEvent S) : Prop :=
  match ev with
  | ⟨.accept _, .ok _⟩ => (accepted L.exchanges).length < visits.length
  | ⟨.read s n, a⟩ => OnStream visits s ⟨.read s n, a⟩ L.exchanges
  | ⟨.write s buf, a⟩ => OnStream visits s ⟨.write s buf, a⟩ L.exchanges
  | ⟨.streamNonblocking s on, a⟩ => OnStream visits s ⟨.streamNonblocking s on, a⟩ L.exchanges
  | ⟨.onRequest s p, a⟩ => OnNewest visits ⟨.onRequest s p, a⟩ L.exchanges
  | _ => True

/-- The histories in which the accepted connections are the visits. -/
def Visited (visits : List Visit) : Ledger S → History S → Prop
  | _, [] => True
  | L, ev :: h => Possible visits L ev ∧ Visited visits (L.step ev) h

/-- An event that the visits, and a listener that does not fail, can answer. -/
def Legal (visits : List Visit) (L : Ledger S) (ev : SysEvent S) : Prop :=
  match ev with
  | ⟨.accept _, .ok _⟩ => (accepted L.exchanges).length < visits.length
  | ⟨.accept _, .error err⟩ => err.kind = .wouldBlock
  | ⟨.poll _ _, .error err⟩ => err.kind = .interrupted
  | ⟨.read s n, a⟩ => OnStream visits s ⟨.read s n, a⟩ L.exchanges
  | ⟨.write s buf, a⟩ => OnStream visits s ⟨.write s buf, a⟩ L.exchanges
  | ⟨.streamNonblocking s on, a⟩ => OnStream visits s ⟨.streamNonblocking s on, a⟩ L.exchanges
  | ⟨.onRequest s p, a⟩ => OnNewest visits ⟨.onRequest s p, a⟩ L.exchanges
  | _ => True

/-- The histories in which they are, and the listener does not fail. -/
def Conforms (visits : List Visit) : Ledger S → History S → Prop
  | _, [] => True
  | L, ev :: h => Legal visits L ev ∧ Conforms visits (L.step ev) h

/-! ## What the visits leave in the ledger -/

/-- What can have happened on the connection of the visit `v`. -/
structure Within (v : Visit) (e : Exchange S) : Prop where
  received : e.received <+: v.sends
  readFaults : e.readFaults ≠ [] → e.received = v.sends
  sent : ∀ n, v.takes = some n → e.sent.length ≤ n
  writeFaults : e.writeFaults ≠ [] → v.takes = some e.sent.length
  setup : ∀ a, e.setup = some a → a = v.setup
  calls : ∀ c ∈ e.calls, c.result = v.result

/-- The accepted connections of `es` are those of the visits, in order. -/
def Matches (visits : List Visit) : List (Exchange S) → Prop
  | [] => True
  | e :: es =>
    (e.accepted = true → ∃ v, visits[(accepted es).length]? = some v ∧ Within v e) ∧
      Matches visits es

/-- An allowed event keeps a connection within its visit. -/
theorem Within.read {v : Visit} {e : Exchange S} {s : Stream} {n : Nat}
    {a : Except IoError (Chunk n)} (h : Within v e) (ha : v.allows e ⟨.read s n, a⟩) :
    Within v { e with
      received := e.received ++ delivered a
      readFaults := e.readFaults ++ readFaultOf a } := by
  cases a with
  | ok d =>
    obtain ⟨hle, hend⟩ := ha
    refine ⟨hle, ?_, h.sent, h.writeFaults, h.setup, h.calls⟩
    intro hf
    have hall : e.received = v.sends := by
      by_cases he : e.readFaults = []
      · simp only [he, List.nil_append, readFaultOf] at hf
        by_cases hd : 0 < n ∧ d.1 = []
        · exact (hend hd.1 hd.2).1
        · rw [if_neg hd] at hf
          exact absurd rfl hf
      · exact h.readFaults he
    -- everything was there before, so the read added nothing
    have hlen := hle.length_le
    rw [List.length_append, hall] at hlen
    have hd : d.1 = [] := List.eq_nil_of_length_eq_zero (by omega)
    show e.received ++ d.1 = v.sends
    rw [hd, List.append_nil, hall]
  | error err =>
    have hnil : e.received ++ delivered (.error err : Except IoError (Chunk n)) = e.received :=
      List.append_nil _
    rw [hnil]
    refine ⟨h.received, ?_, h.sent, h.writeFaults, h.setup, h.calls⟩
    intro hf
    rcases ha with hk | ⟨hall, -⟩
    · simp only [readFaultOf, faultOf, hk, if_true, List.append_nil] at hf
      exact h.readFaults hf
    · exact hall

theorem Within.write {v : Visit} {e : Exchange S} {s : Stream} {buf : Bytes}
    {a : Except IoError (Taken buf)} (h : Within v e) (ha : v.allows e ⟨.write s buf, a⟩) :
    Within v { e with
      sent := e.sent ++ taken a
      writeFaults := e.writeFaults ++ writeFaultOf a } := by
  cases a with
  | ok k =>
    obtain ⟨hpos, htakes⟩ := ha
    have hlen : (e.sent ++ buf.take k.1).length = e.sent.length + k.1 := by
      rw [List.length_append, List.length_take_of_le k.2]
    have hnone : writeFaultOf (.ok k : Except IoError (Taken buf)) = [] := by
      simp only [writeFaultOf]
      rw [if_neg]
      intro hk
      have := hpos hk.1
      omega
    refine ⟨h.received, h.readFaults, ?_, ?_, h.setup, h.calls⟩
    · intro n hn
      show (e.sent ++ buf.take k.1).length ≤ n
      rw [hlen]
      exact htakes n hn
    · intro hf
      rw [hnone, List.append_nil] at hf
      have htake := h.writeFaults hf
      have hk := htakes _ htake
      show v.takes = some (e.sent ++ buf.take k.1).length
      rw [hlen, htake]
      congr 1
      omega
  | error err =>
    have hnil : e.sent ++ taken (.error err : Except IoError (Taken buf)) = e.sent :=
      List.append_nil _
    rw [hnil]
    refine ⟨h.received, h.readFaults, h.sent, ?_, h.setup, h.calls⟩
    intro hf
    rcases ha with hk | htake
    · simp only [writeFaultOf, faultOf, hk, if_true, List.append_nil] at hf
      exact h.writeFaults hf
    · exact htake

theorem accepted_touch (s : Stream) (f : Exchange S → Exchange S)
    (hf : ∀ e, (f e).accepted = e.accepted) (es : List (Exchange S)) :
    (accepted (touch s f es)).length = (accepted es).length := by
  induction es with
  | nil => rfl
  | cons e es ih =>
    rw [touch]
    split
    next => simp only [accepted, List.filter_cons, hf e]; split <;> rfl
    next =>
      simp only [accepted, List.filter_cons]
      simp only [accepted] at ih
      split
      next => simp only [List.length_cons, ih]
      next => exact ih

/-- An event on a stream that keeps each connection within its visit. -/
theorem Matches.touch {visits : List Visit} {s : Stream} {ev : SysEvent S}
    {f : Exchange S → Exchange S} (hacc : ∀ e, (f e).accepted = e.accepted)
    (hf : ∀ v e, Within v e → v.allows e ev → Within v (f e)) :
    ∀ {es : List (Exchange S)}, OnStream visits s ev es → Matches visits es →
      Matches visits (touch s f es) := by
  intro es
  induction es with
  | nil => intro _ _; trivial
  | cons e es ih =>
    intro hon hm
    rw [Sockd.touch]
    split
    next hs =>
      refine ⟨fun ha => ?_, hm.2⟩
      rw [hacc] at ha
      obtain ⟨v, hv, hallow⟩ := hon.1 hs ha
      obtain ⟨v', hv', hw⟩ := hm.1 ha
      rw [hv] at hv'
      obtain rfl := Option.some.inj hv'
      exact ⟨v, hv, hf v e hw hallow⟩
    next =>
      refine ⟨fun ha => ?_, ih hon.2 hm.2⟩
      rw [accepted_touch s f hacc]
      exact hm.1 ha

theorem Matches.newest {visits : List Visit} {ev : SysEvent S} {f : Exchange S → Exchange S}
    (hacc : ∀ e, (f e).accepted = e.accepted)
    (hf : ∀ v e, Within v e → v.allows e ev → Within v (f e)) {es : List (Exchange S)}
    (hon : OnNewest visits ev es) (hm : Matches visits es) :
    Matches visits (touchNewest f es) := by
  cases es with
  | nil => trivial
  | cons e es =>
    refine ⟨fun ha => ?_, hm.2⟩
    rw [hacc] at ha
    obtain ⟨v, hv, hallow⟩ := hon ha
    obtain ⟨v', hv', hw⟩ := hm.1 ha
    rw [hv] at hv'
    obtain rfl := Option.some.inj hv'
    exact ⟨v, hv, hf v e hw hallow⟩

/-- One event that the visits can answer. -/
theorem Matches.step {visits : List Visit} {L : Ledger S} {ev : SysEvent S}
    (h : Matches visits L.exchanges) (hp : Possible visits L ev) :
    Matches visits (L.step ev).exchanges := by
  obtain ⟨op, a⟩ := ev
  cases op with
  | accept l =>
    cases a with
    | ok s =>
      -- the newest exchange is empty, so it begins like any visit
      refine ⟨fun _ => ?_, h⟩
      exact ⟨_, List.getElem?_eq_getElem hp, List.nil_prefix, fun hf => absurd rfl hf,
        fun _ _ => Nat.zero_le _, fun hf => absurd rfl hf, fun _ ha => (nomatch ha),
        fun _ hc => (nomatch hc)⟩
    | error err => exact h
  | read s n =>
    refine Matches.touch ?_ ?_ hp h
    · exact fun _ => rfl
    · exact fun v e hw ha => hw.read ha
  | write s buf =>
    refine Matches.touch ?_ ?_ hp h
    · exact fun _ => rfl
    · exact fun v e hw ha => hw.write ha
  | streamNonblocking s on =>
    refine Matches.touch ?_ ?_ hp h
    · exact fun _ => rfl
    · intro v e hw ha
      refine ⟨hw.received, hw.readFaults, hw.sent, hw.writeFaults, fun b hb => ?_, hw.calls⟩
      rw [← Option.some.inj hb]
      exact ha
  | onRequest before payload =>
    refine Matches.newest ?_ ?_ hp h
    · exact fun _ => rfl
    · intro v e hw ha
      refine ⟨hw.received, hw.readFaults, hw.sent, hw.writeFaults, hw.setup, fun c hc => ?_⟩
      rcases List.mem_append.mp hc with hc | hc
      · exact hw.calls c hc
      · rw [List.mem_singleton.mp hc]
        exact ha
  | connect p =>
    cases a with
    | ok s =>
      -- a stream that the daemon has opened itself is none of the visits
      refine ⟨fun ha => ?_, h⟩
      cases ha
    | error err => exact h
  | onStart => cases a <;> exact h
  | _ => exact h

/-- A history of the visits. -/
theorem Visited.matches {visits : List Visit} {h : History S} :
    ∀ {L : Ledger S}, Matches visits L.exchanges → Visited visits L h →
      Matches visits (h.foldl Ledger.step L).exchanges := by
  induction h with
  | nil => intro L hL _; exact hL
  | cons ev h ih =>
    intro L hL hv
    exact ih (hL.step hv.1) hv.2

/-! ## A listener that does not fail -/

theorem Legal.possible {visits : List Visit} {L : Ledger S} {ev : SysEvent S}
    (h : Legal visits L ev) : Possible visits L ev := by
  obtain ⟨op, a⟩ := ev
  cases op with
  | accept l =>
    cases a with
    | ok s => exact h
    | error err => trivial
  | read s n => exact h
  | write s buf => exact h
  | streamNonblocking s on => exact h
  | onRequest before payload => exact h
  | _ => trivial

/-- A ledger that the visits explain, and a listener that did not fail. -/
structure Explained (visits : List Visit) (L : Ledger S) : Prop where
  connections : Matches visits L.exchanges
  listener : L.listenerFaults = []

theorem Explained.empty (visits : List Visit) : Explained visits ({} : Ledger S) :=
  ⟨trivial, rfl⟩

/-- A legal event is no fault of the listener. -/
theorem Legal.listenerFaults {visits : List Visit} {L : Ledger S} {ev : SysEvent S}
    (h : L.listenerFaults = []) (hl : Legal visits L ev) : (L.step ev).listenerFaults = [] := by
  obtain ⟨op, a⟩ := ev
  cases op with
  | accept l =>
    cases a with
    | ok s => exact h
    | error err =>
      have hk : err.kind = .wouldBlock := hl
      show L.listenerFaults ++ faultOf .wouldBlock _ = []
      simp [h, faultOf, hk]
  | poll l ms =>
    show L.listenerFaults ++ faultOf .interrupted a = []
    cases a with
    | ok p => simp [h, faultOf]
    | error err =>
      have hk : err.kind = .interrupted := hl
      simp [h, faultOf, hk]
  | connect p => cases a <;> exact h
  | onStart => cases a <;> exact h
  | _ => exact h

/-- One legal event. -/
theorem Explained.step {visits : List Visit} {L : Ledger S} {ev : SysEvent S}
    (h : Explained visits L) (hl : Legal visits L ev) : Explained visits (L.step ev) :=
  ⟨h.connections.step hl.possible, hl.listenerFaults h.listener⟩

/-- A history of the visits and such a listener. -/
theorem Conforms.explained {visits : List Visit} {h : History S} :
    ∀ {L : Ledger S}, Explained visits L → Conforms visits L h →
      Explained visits (h.foldl Ledger.step L) := by
  induction h with
  | nil => intro L hL _; exact hL
  | cons ev h ih =>
    intro L hL hc
    exact ih (hL.step hc.1) hc.2

end Sockd
