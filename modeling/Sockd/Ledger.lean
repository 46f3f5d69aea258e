import Sockd.Sys
import Sockd.Wire

/-!
# What a history says about a process's connections

`Ledger` reads a history and keeps, for every connection the process opened or
accepted, what was received and sent on it, which of its calls failed, and the
`on_request` calls made while it was the newest. It is a monitor in the sense of
`Effects.Spec`, so what a program does to its connections is a statement about the
ledger after each of its traces. The few other fields are what the exits of the
event loop depend on: failures of the listener, the flag, and the clock.
-/

namespace Sockd

open Rust Effects Effects.Prog

variable {S : Type}

/-- One call of `on_request`. -/
structure Call (S : Type) where
  before : S
  payload : Bytes
  result : CallbackResult Bytes
  after : S

/-- What a process has done on one connection. -/
structure Exchange (S : Type) where
  stream : Stream
  /-- By `accept`, rather than `connect`. -/
  accepted : Bool
  received : Bytes := []
  sent : Bytes := []
  calls : List (Call S) := []
  /-- What the last `set_nonblocking` answered. -/
  setup : Option (Except IoError Unit) := none
  readFaults : List IoError := []
  writeFaults : List IoError := []

/-- What a process has done so far; the newest connection first. -/
structure Ledger (S : Type) where
  exchanges : List (Exchange S) := []
  started : List S := []
  stopped : List S := []
  listenerFaults : List IoError := []
  flag : Bool := false
  lastNow : Option Instant := none
  /-- The clock when the event loop began or last accepted a connection. -/
  lastActivity : Option Instant := none
  /-- The next reading of the clock is one of those moments. -/
  armed : Bool := true

/-- Change the newest entry of a stream. -/
def touch (s : Stream) (f : Exchange S → Exchange S) : List (Exchange S) → List (Exchange S)
  | [] => []
  | e :: es => if e.stream = s then f e :: es else e :: touch s f es

/-- Change the newest entry. -/
def touchNewest (f : Exchange S → Exchange S) : List (Exchange S) → List (Exchange S)
  | [] => []
  | e :: es => f e :: es

/-- The failure that an answer is, other than `excused`. -/
def faultOf {α : Type} (excused : ErrorKind) : Except IoError α → List IoError
  | .ok _ => []
  | .error err => if err.kind = excused then [] else [err]

/-- The failure that the answer to a read is; end-of-file is one. -/
def readFaultOf {n : Nat} : Except IoError (Chunk n) → List IoError
  | .ok d => if 0 < n ∧ d.1 = [] then [readExactEof] else []
  | .error err => faultOf (α := Unit) .interrupted (.error err)

/-- The failure that the answer to a write is; taking nothing is one. -/
def writeFaultOf {buf : Bytes} : Except IoError (Taken buf) → List IoError
  | .ok k => if buf ≠ [] ∧ k.1 = 0 then [writeAllEof] else []
  | .error err => faultOf (α := Unit) .interrupted (.error err)

namespace Ledger

/-- The ledger after one more event. -/
def step (L : Ledger S) : SysEvent S → Ledger S
  | ⟨.connect _, .ok s⟩ =>
    { L with exchanges := { stream := s, accepted := false } :: L.exchanges }
  | ⟨.accept _, .ok s⟩ =>
    { L with exchanges := { stream := s, accepted := true } :: L.exchanges, armed := true }
  | ⟨.accept _, .error err⟩ =>
    { L with listenerFaults := L.listenerFaults ++ faultOf (α := Unit) .wouldBlock (.error err) }
  | ⟨.poll _ _, a⟩ => { L with listenerFaults := L.listenerFaults ++ faultOf .interrupted a }
  | ⟨.streamNonblocking s _, a⟩ =>
    { L with exchanges := touch s (fun e => { e with setup := some a }) L.exchanges }
  | ⟨.read s _, a⟩ =>
    { L with exchanges := touch s (fun e => { e with
        received := e.received ++ delivered a
        readFaults := e.readFaults ++ readFaultOf a }) L.exchanges }
  | ⟨.write s _, a⟩ =>
    { L with exchanges := touch s (fun e => { e with
        sent := e.sent ++ taken a
        writeFaults := e.writeFaults ++ writeFaultOf a }) L.exchanges }
  | ⟨.onRequest before payload, (result, after)⟩ =>
    { L with exchanges := touchNewest (fun e => { e with
        calls := e.calls ++ [⟨before, payload, result, after⟩] }) L.exchanges }
  | ⟨.onStart, .ok s⟩ => { L with started := L.started ++ [s] }
  | ⟨.onStop s, _⟩ => { L with stopped := L.stopped ++ [s] }
  | ⟨.loadFlag, b⟩ => { L with flag := b }
  | ⟨.now, t⟩ =>
    { L with lastNow := some t
             lastActivity := if L.armed then some t else L.lastActivity
             armed := false }
  | _ => L

/-- The ledger of a history. -/
def of (h : History S) : Ledger S := h.foldl step {}

theorem of_append (h : History S) (e : SysEvent S) : of (h ++ [e]) = (of h).step e := by
  rw [of, List.foldl_append]
  rfl

/-- The same ledger with other connections. -/
def withExchanges (L : Ledger S) (es : List (Exchange S)) : Ledger S := { L with exchanges := es }

@[simp] theorem exchanges_withExchanges (L : Ledger S) (es : List (Exchange S)) :
    (L.withExchanges es).exchanges = es := rfl

@[simp] theorem withExchanges_withExchanges (L : Ledger S) (es es' : List (Exchange S)) :
    (L.withExchanges es).withExchanges es' = L.withExchanges es' := rfl

theorem withExchanges_self {L : Ledger S} {es : List (Exchange S)} (h : L.exchanges = es) :
    L.withExchanges es = L := by
  subst h
  rfl

/-- A read on the newest connection. -/
theorem step_read {L : Ledger S} {s : Stream} {e : Exchange S} {es : List (Exchange S)} {n : Nat}
    {a : Except IoError (Chunk n)} (h : L.exchanges = e :: es) (hs : e.stream = s) :
    L.step ⟨.read s n, a⟩ = L.withExchanges ({ e with
      received := e.received ++ delivered a
      readFaults := e.readFaults ++ readFaultOf a } :: es) := by
  show L.withExchanges (touch s _ L.exchanges) = _
  rw [h, touch, if_pos hs]

/-- A write on the newest connection. -/
theorem step_write {L : Ledger S} {s : Stream} {e : Exchange S} {es : List (Exchange S)} {buf : Bytes}
    {a : Except IoError (Taken buf)} (h : L.exchanges = e :: es) (hs : e.stream = s) :
    L.step ⟨.write s buf, a⟩ = L.withExchanges ({ e with
      sent := e.sent ++ taken a
      writeFaults := e.writeFaults ++ writeFaultOf a } :: es) := by
  show L.withExchanges (touch s _ L.exchanges) = _
  rw [h, touch, if_pos hs]

theorem mem_readFaultOf {n : Nat} {a : Except IoError (Chunk n)} {err : IoError}
    (h : (err.kind ≠ .interrupted ∧ a = .error err) ∨
      (err = readExactEof ∧ 0 < n ∧ ∃ d, a = .ok d ∧ d.1 = [])) : err ∈ readFaultOf a := by
  rcases h with ⟨hk, rfl⟩ | ⟨rfl, hn, d, rfl, hd⟩
  · simp [readFaultOf, faultOf, hk]
  · simp [readFaultOf, hn, hd]

theorem mem_writeFaultOf {buf : Bytes} {a : Except IoError (Taken buf)} {err : IoError}
    (h : (err.kind ≠ .interrupted ∧ a = .error err) ∨
      (err = writeAllEof ∧ buf ≠ [] ∧ ∃ k, a = .ok k ∧ k.1 = 0)) : err ∈ writeFaultOf a := by
  rcases h with ⟨hk, rfl⟩ | ⟨rfl, hb, k, rfl, hk⟩
  · simp [writeFaultOf, faultOf, hk]
  · simp [writeFaultOf, hb, hk]

/-- A trace of reads on the newest connection: what it delivered was received, and
the reason it failed, if it did, is on record. -/
theorem foldl_reading {W : Bytes → Nat → Prop} {tr : History S} {d : Bytes} {L : Ledger S}
    {e : Exchange S} {es : List (Exchange S)} (h : Reading e.stream.reader W tr d)
    (hL : L.exchanges = e :: es) :
    ∃ fs, tr.foldl step L = L.withExchanges ({ e with
        received := e.received ++ d
        readFaults := e.readFaults ++ fs } :: es) ∧
      ∀ err, ReadFault e.stream.reader err tr → err ∈ fs := by
  induction h with
  | nil =>
    refine ⟨[], ?_, ?_⟩
    · simp only [List.foldl_nil, List.append_nil]
      exact (withExchanges_self hL).symm
    · intro err herr
      rcases herr with ⟨_, n, b, hmem, _⟩ | ⟨_, n, b, hmem, _⟩ <;> cases hmem
  | @read tr d n b _ _ ih =>
    obtain ⟨fs, hfold, hfs⟩ := ih
    refine ⟨fs ++ readFaultOf (e.stream.reader.answer n b), ?_, ?_⟩
    · rw [List.foldl_append, hfold, List.foldl_cons, List.foldl_nil]
      refine (step_read (exchanges_withExchanges _ _) rfl).trans ?_
      simp only [withExchanges_withExchanges, List.append_assoc]
      rfl
    · intro err herr
      rw [List.mem_append]
      rcases herr with ⟨hk, m, c, hmem, hans⟩ | ⟨he, m, c, hmem, hm, x, hans, hx⟩
      · rcases List.mem_append.mp hmem with hmem | hmem
        · exact .inl (hfs err (.inl ⟨hk, m, c, hmem, hans⟩))
        · cases List.mem_singleton.mp hmem
          exact .inr (mem_readFaultOf (.inl ⟨hk, hans⟩))
      · rcases List.mem_append.mp hmem with hmem | hmem
        · exact .inl (hfs err (.inr ⟨he, m, c, hmem, hm, x, hans, hx⟩))
        · cases List.mem_singleton.mp hmem
          exact .inr (mem_readFaultOf (.inr ⟨he, hm, x, hans, hx⟩))

/-- A trace of writes on the newest connection: what it took was sent, and the
reason it failed, if it did, is on record. -/
theorem foldl_writing {full : Bytes} {tr : History S} {d : Bytes} {L : Ledger S}
    {e : Exchange S} {es : List (Exchange S)} (h : Writing e.stream.writer full tr d)
    (hL : L.exchanges = e :: es) :
    ∃ fs, tr.foldl step L = L.withExchanges ({ e with
        sent := e.sent ++ d
        writeFaults := e.writeFaults ++ fs } :: es) ∧
      ∀ err, WriteFault e.stream.writer err tr → err ∈ fs := by
  induction h with
  | nil =>
    refine ⟨[], ?_, ?_⟩
    · simp only [List.foldl_nil, List.append_nil]
      exact (withExchanges_self hL).symm
    · intro err herr
      rcases herr with ⟨_, n, b, hmem, _⟩ | ⟨_, n, b, hmem, _⟩ <;> cases hmem
  | @write tr d buf b _ _ _ ih =>
    obtain ⟨fs, hfold, hfs⟩ := ih
    refine ⟨fs ++ writeFaultOf (e.stream.writer.answer buf b), ?_, ?_⟩
    · rw [List.foldl_append, hfold, List.foldl_cons, List.foldl_nil]
      refine (step_write (exchanges_withExchanges _ _) rfl).trans ?_
      simp only [withExchanges_withExchanges, List.append_assoc]
      rfl
    · intro err herr
      rw [List.mem_append]
      rcases herr with ⟨hk, m, c, hmem, hans⟩ | ⟨he, m, c, hmem, hm, x, hans, hx⟩
      · rcases List.mem_append.mp hmem with hmem | hmem
        · exact .inl (hfs err (.inl ⟨hk, m, c, hmem, hans⟩))
        · cases List.mem_singleton.mp hmem
          exact .inr (mem_writeFaultOf (.inl ⟨hk, hans⟩))
      · rcases List.mem_append.mp hmem with hmem | hmem
        · exact .inl (hfs err (.inr ⟨he, m, c, hmem, hm, x, hans, hx⟩))
        · cases List.mem_singleton.mp hmem
          exact .inr (mem_writeFaultOf (.inr ⟨he, hm, x, hans, hx⟩))

end Ledger

end Sockd
