import Sockd.Conversation
import Sockd.Host
import Sockd.Productive

/-!
# Where a process stands on its connection

A process of the library has one connection open at most: the newest entry of its ledger,
as long as it has not closed it (`Line`). `Stands` says which call can come next, given
that entry: a client that writes has not written its whole frame, and one that reads has; a
daemon that reads has not read a whole frame, and one that writes has read just that. It
holds along all traces of the functions that a process of a host runs (`Role.stands`).
-/

namespace Sockd

open Rust Effects Effects.Prog

variable {S : Type}

/-! ## The connection that is open -/

theorem head_touch {s : Stream} {f : Exchange S → Exchange S} (es : List (Exchange S)) :
    (touch s f es).head? = es.head?.map fun e => if e.stream = s then f e else e := by
  cases es with
  | nil => rfl
  | cons e es =>
    unfold touch
    split
    next h => exact congrArg some (if_pos h).symm
    next h => exact congrArg some (if_neg h).symm

theorem head_touchNewest {f : Exchange S → Exchange S} (es : List (Exchange S)) :
    (touchNewest f es).head? = es.head?.map f := by
  cases es <;> rfl

/-- What an event does to the newest entry does not depend on the others. -/
theorem Ledger.head_step {L L' : Ledger S} (h : L.exchanges.head? = L'.exchanges.head?)
    (ev : SysEvent S) : (L.step ev).exchanges.head? = (L'.step ev).exchanges.head? := by
  unfold Ledger.step
  split
  next => rfl
  next => rfl
  next => exact h
  next => exact h
  next => exact (head_touch _).trans ((congrArg _ h).trans (head_touch _).symm)
  next => exact (head_touch _).trans ((congrArg _ h).trans (head_touch _).symm)
  next => exact (head_touch _).trans ((congrArg _ h).trans (head_touch _).symm)
  next => exact (head_touchNewest _).trans ((congrArg _ h).trans (head_touchNewest _).symm)
  all_goals exact h

namespace Line

/-- The entry of the connection that is open, after one more event. -/
def step (line : Option (Exchange S)) : SysEvent S → Option (Exchange S)
  | ⟨.closeStream s, _⟩ => line.filter fun e => decide (e.stream ≠ s)
  | ev => (Ledger.step { exchanges := line.toList } ev).exchanges.head?

/-- The same, after a history. -/
def of (h : History S) : Option (Exchange S) := h.foldl step none

theorem of_append (h : History S) (ev : SysEvent S) : of (h ++ [ev]) = step (of h) ev := by
  rw [of, List.foldl_append]
  rfl

theorem head_toList (line : Option (Exchange S)) : line.toList.head? = line := by
  cases line <;> rfl

theorem step_ledger {L : Ledger S} {ev : SysEvent S} (h : ∀ s, ev.1 ≠ .closeStream s) :
    step L.exchanges.head? ev = (L.step ev).exchanges.head? := by
  obtain ⟨op, a⟩ := ev
  have hhead : (Ledger.step { exchanges := L.exchanges.head?.toList } ⟨op, a⟩).exchanges.head? =
      (L.step ⟨op, a⟩).exchanges.head? := Ledger.head_step (head_toList _) _
  cases op with
  | closeStream s => exact absurd rfl (h s)
  | _ => exact hhead

/-- It is the newest entry of the ledger. -/
theorem newest {h : History S} {e : Exchange S} (he : of h = some e) :
    (Ledger.of h).exchanges.head? = some e := by
  induction h using List.reverseRecOn generalizing e with
  | nil => cases he
  | append_singleton h ev ih =>
    rw [of_append] at he
    rw [Ledger.of_append]
    by_cases hclose : ∃ s, ev.1 = .closeStream s
    · obtain ⟨op, a⟩ := ev
      obtain ⟨s, rfl⟩ := hclose
      exact ih (Option.filter_eq_some_iff.mp he).1
    · have hclose : ∀ s, ev.1 ≠ .closeStream s := fun s hs => hclose ⟨s, hs⟩
      cases hline : of h with
      | some e₀ =>
        rw [hline, ← ih hline, step_ledger hclose] at he
        exact he
      | none =>
        -- it was just opened
        rw [hline] at he
        obtain ⟨op, a⟩ := ev
        cases op with
        | connect p => cases a with
          | ok s => exact he
          | error err => cases he
        | accept l => cases a with
          | ok s => exact he
          | error err => cases he
        | onStart => cases a <;> cases he
        | closeStream s => exact absurd rfl (hclose s)
        | _ => cases he

/-! ### Reads and writes -/

/-- Events that close nothing, in a row. -/
theorem foldl_ledger {L : Ledger S} {line : Option (Exchange S)} (hL : L.exchanges.head? = line)
    {tr : History S} (htr : ∀ ev ∈ tr, ∀ s, ev.1 ≠ .closeStream s) :
    tr.foldl step line = (tr.foldl Ledger.step L).exchanges.head? := by
  subst hL
  induction tr generalizing L with
  | nil => rfl
  | cons ev tr ih =>
    rw [List.foldl_cons, List.foldl_cons, step_ledger (htr ev List.mem_cons_self)]
    exact ih fun ev' h => htr ev' (List.mem_cons_of_mem _ h)

theorem not_close_reading {s : Stream} {W : Bytes → Nat → Prop} {tr : History S} {d : Bytes}
    (h : Reading s.reader W tr d) : ∀ ev ∈ tr, ∀ t, ev.1 ≠ .closeStream t := by
  induction h with
  | nil => exact fun ev hev => nomatch hev
  | read _ _ ih =>
    refine List.forall_mem_append.mpr ⟨ih, List.forall_mem_singleton.mpr ?_⟩
    exact fun t => nofun

theorem not_close_writing {s : Stream} {full : Bytes} {tr : History S} {d : Bytes}
    (h : Writing s.writer full tr d) : ∀ ev ∈ tr, ∀ t, ev.1 ≠ .closeStream t := by
  induction h with
  | nil => exact fun ev hev => nomatch hev
  | write _ _ _ ih =>
    refine List.forall_mem_append.mpr ⟨ih, List.forall_mem_singleton.mpr ?_⟩
    exact fun t => nofun

section Step

variable (e : Exchange S)

theorem step_close : step (some e) (⟨.closeStream e.stream, ()⟩ : SysEvent S) = none := by
  show Option.filter (fun e' : Exchange S => decide (e'.stream ≠ e.stream)) (some e) = none
  simp

/-- What reads do to it, and what failed. -/
theorem foldl_reading {W : Bytes → Nat → Prop} {tr : History S} {d : Bytes}
    (h : Reading e.stream.reader W tr d) :
    ∃ fs, tr.foldl step (some e) = some { e with
        received := e.received ++ d
        readFaults := e.readFaults ++ fs } ∧
      ∀ err, ReadFault e.stream.reader err tr → err ∈ fs := by
  obtain ⟨fs, hfold, hfs⟩ := Ledger.foldl_reading (L := { exchanges := [e] }) h rfl
  refine ⟨fs, ?_, hfs⟩
  refine (foldl_ledger (L := { exchanges := [e] }) rfl (not_close_reading h)).trans ?_
  rw [hfold]
  rfl

/-- The same for writes. -/
theorem foldl_writing {full : Bytes} {tr : History S} {d : Bytes}
    (h : Writing e.stream.writer full tr d) :
    ∃ fs, tr.foldl step (some e) = some { e with
        sent := e.sent ++ d
        writeFaults := e.writeFaults ++ fs } ∧
      ∀ err, WriteFault e.stream.writer err tr → err ∈ fs := by
  obtain ⟨fs, hfold, hfs⟩ := Ledger.foldl_writing (L := { exchanges := [e] }) h rfl
  refine ⟨fs, ?_, hfs⟩
  refine (foldl_ledger (L := { exchanges := [e] }) rfl (not_close_writing h)).trans ?_
  rw [hfold]
  rfl

end Step

end Line

/-! ## The call that comes next -/

/-- Calls on a stream. -/
def UsesStream : Op S → Prop
  | .read _ _ | .write _ _ | .closeStream _ | .streamNonblocking _ _ => True
  | _ => False

/-- Calls that open a connection. -/
def Opens : Op S → Prop
  | .connect _ | .accept _ => True
  | _ => False

/-- Calls that have nothing to do with the connection that is open. -/
def Aside : Op S → Prop
  | .onRequest _ _ => False
  | op => ¬ UsesStream op ∧ ¬ Opens op

theorem Aside.not_usesStream {op : Op S} (h : Aside op) : ¬ UsesStream op := by
  cases op with
  | onRequest => exact h.elim
  | _ => exact h.1

theorem Line.step_aside (line : Option (Exchange S)) {op : Op S} (b : Ans op) (h : Aside op) :
    Line.step line (⟨op, b⟩ : SysEvent S) = line := by
  have hhead := Line.head_toList line
  cases op with
  | onStart => cases b <;> exact hhead
  | read | write | closeStream | streamNonblocking => exact absurd trivial h.1
  | connect | accept => exact absurd trivial h.2
  | onRequest => exact h.elim
  | _ => exact hhead

/-- Why a client drops a connection: it failed, the reply was refused or is there, or
nothing was sent at all. -/
inductive Leaves (maxPayloadLen : Nat) (quiet : Prop) (e : Exchange S) : Prop
  | failed : e.readFaults ++ e.writeFaults ≠ [] → Leaves maxPayloadLen quiet e
  | refused (err : Error) : parse maxPayloadLen e.received = .reject err →
      Leaves maxPayloadLen quiet e
  | answered (g : Frame) : Exact maxPayloadLen g e.received → Leaves maxPayloadLen quiet e
  | unasked : quiet → e.sent = [] → Leaves maxPayloadLen quiet e

/-- The calls that can come next; a process that is `quiet` may drop a connection on which
it has sent nothing. -/
inductive Stands (maxPayloadLen : Nat) (quiet : Prop) : Option (Exchange S) → Op S → Prop
  | apart (op : Op S) : ¬ UsesStream op → Stands maxPayloadLen quiet none op
  -- a client
  | asks (e : Exchange S) (f : Frame) (buf : Bytes) : e.accepted = false → e.received = [] →
      f.Fits → buf ≠ [] → e.sent ++ buf <+: f.wire →
      Stands maxPayloadLen quiet (some e) (.write e.stream buf)
  | awaits (e : Exchange S) (f : Frame) (n : Nat) : e.accepted = false → f.Fits →
      e.sent = f.wire → Wanted maxPayloadLen e.received n →
      Stands maxPayloadLen quiet (some e) (.read e.stream n)
  | answered (e : Exchange S) (g : Frame) (op : Op S) : e.accepted = false →
      Exact maxPayloadLen g e.received → Aside op → Stands maxPayloadLen quiet (some e) op
  | leaves (e : Exchange S) : e.accepted = false → Leaves maxPayloadLen quiet e →
      Stands maxPayloadLen quiet (some e) (.closeStream e.stream)
  -- a daemon
  | begins (e : Exchange S) (op : Op S) : e.accepted = true →
      op = .streamNonblocking e.stream false ∨ op = .now → Stands maxPayloadLen quiet (some e) op
  | listens (e : Exchange S) (n : Nat) : e.accepted = true → e.sent = [] →
      Wanted maxPayloadLen e.received n → Stands maxPayloadLen quiet (some e) (.read e.stream n)
  | handles (e : Exchange S) (state : S) (payload : Bytes) : e.accepted = true →
      Stands maxPayloadLen quiet (some e) (.onRequest state payload)
  | replies (e : Exchange S) (f reply : Frame) (buf : Bytes) : e.accepted = true →
      Exact maxPayloadLen f e.received → reply.Fits → buf ≠ [] → e.sent ++ buf <+: reply.wire →
      Stands maxPayloadLen quiet (some e) (.write e.stream buf)
  | drops (e : Exchange S) : e.accepted = true →
      Stands maxPayloadLen quiet (some e) (.closeStream e.stream)

/-- Every call of `p` is one that can come next, where the line is `line` at first. -/
abbrev Keeps (maxPayloadLen : Nat) (quiet : Prop) {α : Type} (line : Option (Exchange S))
    (p : Sys S α) (Q : α → Option (Exchange S) → Prop) : Prop :=
  Asks Line.step (Stands maxPayloadLen quiet) line p Q

section Frames

variable {maxPayloadLen : Nat} {quiet : Prop} {e : Exchange S}

/-- A program that leaves the line alone, while there is none. -/
theorem Keeps.apart {α : Type} {p : Sys S α} {A : Op S → Prop} (hp : AllCalls A p)
    (hA : ∀ op, A op → Aside op) : Keeps maxPayloadLen quiet none p fun _ line => line = none :=
  Asks.still hp (fun op h => .apart op (hA op h).not_usesStream) fun _ b h =>
    Line.step_aside none b (hA _ h)

/-- `read_frame` on a connection on which nothing was received asks where `hasks` says. -/
theorem readFrame_keeps {limit : Nat} (he : e.received = [])
    (hasks : ∀ d fs n, Wanted maxPayloadLen d n →
      Stands limit quiet (some { e with received := d, readFaults := fs })
        (.read e.stream n : Op S)) :
    Keeps limit quiet (some e) (readFrame e.stream.reader maxPayloadLen : SysTry S Frame).run
      fun res line => ∃ d fs, line = some { e with received := d, readFaults := fs } ∧
        match res with
        | .ok f => Exact maxPayloadLen f d
        | .error _ => fs ≠ [] ∨ ∃ err, parse maxPayloadLen d = .reject err where
  asks := by
    intro tr op k h
    have hcalls := allCalls_readFrame (A := fun op : Op S => ∃ n, op = .read e.stream n)
      e.stream.reader maxPayloadLen fun n => ⟨n, rfl⟩
    obtain ⟨n₀, h₀⟩ := h
    obtain ⟨n, rfl⟩ := (hcalls.steps h₀).1.1
    -- any answer will do: the read that comes next is the last of a longer trace
    have hnext := Reach.trans ⟨n₀, h₀⟩
      (.call (b := (.error ⟨.interrupted, ""⟩ : Except IoError (Chunk n))) .refl)
    have hspec := (readFrame_spec (e.stream.reader : Reader (sysSig S)) maxPayloadLen).always hnext
    rw [Spec.foldl_record, List.nil_append] at hspec
    obtain ⟨d', hd'⟩ := hspec
    obtain ⟨d, m, hop, hd, hwanted⟩ := hd'.last
    cases hop
    obtain ⟨fs, hfold, -⟩ := Line.foldl_reading e hd
    rw [hfold, he, List.nil_append]
    exact hasks d _ n hwanted
  returns := by
    intro tr res h
    have hspec := (readFrame_spec (e.stream.reader : Reader (sysSig S)) maxPayloadLen).returns h
    rw [Spec.foldl_record, List.nil_append] at hspec
    obtain ⟨d, hd, hres⟩ := hspec
    obtain ⟨fs, hfold, hfs⟩ := Line.foldl_reading e hd
    rw [he, List.nil_append] at hfold
    refine ⟨d, _, hfold, ?_⟩
    cases res with
    | ok f => exact ⟨hres.1, hres.2.1, hres.2.2⟩
    | error err =>
      refine hres.imp ?_ fun hrej => ⟨err, hrej.2⟩
      rintro ⟨io, -, -, hfault⟩
      exact List.ne_nil_of_mem (List.mem_append_right _ (hfs io hfault))

/-- `write_frame` on a connection on which nothing was sent. -/
theorem writeFrame_keeps {limit : Nat} (he : e.sent = []) (f : Frame) (hflags : f.flags = 0)
    (hasks : f.Fits → ∀ d fs buf, buf ≠ [] → d ++ buf <+: f.wire →
      Stands limit quiet (some { e with sent := d, writeFaults := fs })
        (.write e.stream buf : Op S)) :
    Keeps limit quiet (some e) (writeFrame e.stream.writer f.kind f.payload : SysTry S Unit).run
      fun res line => ∃ d fs, line = some { e with sent := d, writeFaults := fs } ∧
        match res with
        | .ok () => f.Fits ∧ d = f.wire
        | .error _ => fs ≠ [] ∨ ¬ f.Fits ∧ d = [] := by
  by_cases hfits : f.Fits
  · have hspec := writeFrame_spec (e.stream.writer : Writer (sysSig S)) rfl f
    rw [hflags] at hspec
    refine ⟨?_, ?_⟩
    · intro tr op k h
      have hcalls := allCalls_writeFrame (A := fun op : Op S => ∃ buf, op = .write e.stream buf)
        e.stream.writer f.kind f.payload (fun buf => ⟨buf, rfl⟩) (allCalls_ret _)
      obtain ⟨n₀, h₀⟩ := h
      obtain ⟨buf, rfl⟩ := (hcalls.steps h₀).1.1
      have hnext := Reach.trans ⟨n₀, h₀⟩
        (.call (b := (.error ⟨.interrupted, ""⟩ : Except IoError (Taken buf))) .refl)
      have halways := hspec.always hnext
      rw [Spec.foldl_record, List.nil_append] at halways
      obtain ⟨d', hd', -⟩ := halways
      obtain ⟨d, buf', hop, hd, hne, hle⟩ := hd'.last
      cases hop
      obtain ⟨fs, hfold, -⟩ := Line.foldl_writing e hd
      rw [hfold, he, List.nil_append]
      exact hasks hfits d _ buf hne hle
    · intro tr res h
      have hreturns := hspec.returns h
      rw [Spec.foldl_record, List.nil_append] at hreturns
      obtain ⟨d, hd, hres⟩ := hreturns
      obtain ⟨fs, hfold, hfs⟩ := Line.foldl_writing e hd
      rw [he, List.nil_append] at hfold
      refine ⟨d, _, hfold, ?_⟩
      cases res with
      | ok u => exact hres
      | error err =>
        rcases hres with ⟨hbig, -⟩ | ⟨-, -, io, -, hfault⟩
        · exact absurd hfits hbig
        · exact .inl (List.ne_nil_of_mem (List.mem_append_right _ (hfs io hfault)))
  · -- the length field cannot say it
    rw [writeFrame, writeFrameWithFlags, if_pos (Nat.not_le.mp hfits)]
    exact .ret ⟨e.sent, e.writeFaults, rfl, .inr ⟨hfits, he⟩⟩

end Frames

/-! ## The client -/

theorem PidOp.aside {path : Path} (op : Op S) (h : PidOp path op) : Aside op := by
  cases op <;> first | exact h.elim | exact ⟨id, id⟩

theorem LookOp.aside {path : Path} (op : Op S) (h : LookOp path op) : Aside op :=
  PidOp.aside op (h.pidOp)

theorem WaitOp.aside {c : Client} (op : Op S) (h : WaitOp c op) : Aside op := by
  rcases h with rfl | rfl | ⟨d, rfl⟩ | rfl | ⟨path, -, h⟩
  · exact ⟨id, id⟩
  · exact ⟨id, id⟩
  · exact ⟨id, id⟩
  · exact ⟨id, id⟩
  · exact h.aside

namespace Client

variable {c : Client} {quiet : Prop}

/-- One frame is sent, and one read. -/
theorem roundTrip_keeps (s : Stream) (f : Frame) (hflags : f.flags = 0)
    (hquiet : ¬ f.Fits → quiet) :
    Keeps c.maxPayloadLen quiet (some { stream := s, accepted := false })
      (c.roundTrip s f.kind f.payload : SysTry S Frame).run
      fun res line => ∃ e, line = some e ∧ e.stream = s ∧ e.accepted = false ∧
        Leaves c.maxPayloadLen quiet e ∧ ∀ g, res = .ok g → Exact c.maxPayloadLen g e.received := by
  have hwrite : Keeps c.maxPayloadLen quiet (some { stream := s, accepted := false })
      (writeFrame s.writer f.kind f.payload : SysTry S Unit).run _ :=
    writeFrame_keeps rfl f hflags fun hfits d fs buf hne hle => .asks _ f buf rfl rfl hfits hne hle
  refine Asks.next (R := fun _ line => ∃ e, line = some e ∧ e.stream = s ∧ e.accepted = false ∧
    e.received = [] ∧ f.Fits ∧ e.sent = f.wire) (hwrite.mono ?_) ?_
  · rintro (err | u) line ⟨d, fs, rfl, hres⟩
    · refine ⟨_, rfl, rfl, rfl, ?_, nofun⟩
      rcases hres with hfs | ⟨hfits, rfl⟩
      · exact .failed hfs
      · exact .unasked (hquiet hfits) rfl
    · exact ⟨_, rfl, rfl, rfl, rfl, hres.1, hres.2⟩
  · rintro u line ⟨e, rfl, rfl, haccepted, hreceived, hfits, hsent⟩
    have hread : Keeps c.maxPayloadLen quiet (some e)
        (readFrame e.stream.reader c.maxPayloadLen : SysTry S Frame).run _ :=
      readFrame_keeps hreceived fun d fs n hw =>
        .awaits { e with received := d, readFaults := fs } f n haccepted hfits hsent hw
    refine hread.mono ?_
    rintro (err | g) line ⟨d, fs, rfl, hres⟩
    · refine ⟨_, rfl, rfl, haccepted, ?_, nofun⟩
      rcases hres with hfs | ⟨err, hrej⟩
      · exact .failed fun h => hfs (List.append_eq_nil_iff.mp h).1
      · exact .refused err hrej
    · refine ⟨_, rfl, rfl, haccepted, .answered g hres, fun g' hg => ?_⟩
      cases hg
      exact hres

/-- The connection is dropped in the end. -/
theorem dropping_keeps {α : Type} {p : SysTry S α} {s : Stream} {line : Option (Exchange S)}
    (hp : Keeps c.maxPayloadLen quiet line p.run fun _ line => ∃ e, line = some e ∧ e.stream = s ∧
      e.accepted = false ∧ Leaves c.maxPayloadLen quiet e) :
    Keeps c.maxPayloadLen quiet line (p.ensuring (closeStream s)).run
      fun _ line => line = none := by
  refine Asks.bind hp ?_
  rintro r line ⟨e, rfl, rfl, haccepted, hleaves⟩
  exact Asks.call (.leaves e haccepted hleaves) fun _ => .ret (Line.step_close e)

theorem converse_keeps {α : Type} (f : Frame) (hflags : f.flags = 0) (hquiet : ¬ f.Fits → quiet)
    (answer : Frame → Except Error α) :
    Keeps c.maxPayloadLen quiet none ((do
        let stream ← (Socket.connect c.socketPath).mapErr .io
        Try.ensuring (do
          let frame ← c.roundTrip stream f.kind f.payload
          Try.ofExcept (answer frame)) (closeStream stream)) : SysTry S α).run
      fun _ line => line = none := by
  refine Asks.call (.apart _ id) fun a => ?_
  cases a with
  | error err => exact .ret rfl
  | ok s =>
    refine dropping_keeps ?_
    refine Asks.bind (roundTrip_keeps s f hflags hquiet) ?_
    rintro r line ⟨e, rfl, hs, haccepted, hleaves, -⟩
    cases r with
    | ok g => exact .ret ⟨e, rfl, hs, haccepted, hleaves⟩
    | error err => exact .ret ⟨e, rfl, hs, haccepted, hleaves⟩

theorem sendRequestOnce_keeps {payload : Bytes} (hquiet : ¬ (requestFrame payload).Fits → quiet) :
    Keeps c.maxPayloadLen quiet none (c.sendRequestOnce payload : SysTry S Bytes).run
      fun _ line => line = none := converse_keeps (requestFrame payload) rfl hquiet responseOf

theorem tryPingOnce_keeps :
    Keeps c.maxPayloadLen quiet none (c.tryPingOnce : SysTry S Unit).run
      fun _ line => line = none :=
  converse_keeps pingFrame rfl (fun h => absurd (Nat.zero_le _) h) pongOf

theorem readyRound_keeps {autoStart : AutoStart} {deadline : Instant} {backoff : Duration} :
    Keeps c.maxPayloadLen quiet none (c.readyRound autoStart deadline backoff : SysTry S _).run
      fun _ line => line = none := by
  refine Asks.attempt tryPingOnce_keeps ?_
  rintro r line rfl
  cases r with
  | ok u => exact .ret rfl
  | error err =>
    show Keeps _ _ _ (Try.run (if canAttemptRecovery err = true then _ else _)) _
    rw [Try.run_ite]
    split
    next =>
      refine Asks.call (.apart _ id) fun (t : Instant) => ?_
      show Keeps _ _ _ (Try.run (if t.before deadline = true then _ else _)) _
      rw [Try.run_ite]
      split
      next => exact Asks.call (.apart _ id) fun _ => .ret rfl
      next => exact .ret rfl
    next => exact .ret rfl

theorem waitForReady_keeps {autoStart : AutoStart} :
    Keeps c.maxPayloadLen quiet none (c.waitForReady autoStart : SysTry S Unit).run
      fun _ line => line = none := by
  refine Asks.call (.apart _ id) fun (t : Instant) => ?_
  refine Asks.lift (R := fun _ line => line = none)
    (Keeps.apart allCalls_addInstant fun op h => ?_) ?_
  · rw [h]
    exact ⟨id, id⟩
  rintro deadline line rfl
  refine Asks.loop (fun _ line => line = none) (fun _ line => line = none) rfl ?_ ?_
  · rintro backoff line rfl
    refine Asks.bind readyRound_keeps ?_
    rintro r line rfl
    cases r with
    | ok r => cases r <;> exact .ret rfl
    | error err => exact .ret rfl
  · rintro r line rfl
    exact .ret rfl

theorem pidFilePointsToLiveProcess_keeps :
    Keeps c.maxPayloadLen quiet none (c.pidFilePointsToLiveProcess : SysTry S Bool).run
      fun _ line => line = none :=
  Keeps.apart allCalls_pidFilePointsToLiveProcess fun op h => by
    obtain ⟨path, -, h⟩ := h
    exact h.aside

theorem recoverIfNeeded_keeps {err : Error} :
    Keeps c.maxPayloadLen quiet none (c.recoverIfNeeded err : SysTry S Unit).run
      fun _ line => line = none := by
  unfold recoverIfNeeded
  split
  next => exact .ret rfl
  next autoStart ha =>
    rw [Try.run_ite]
    split
    next =>
      refine Asks.andThen pidFilePointsToLiveProcess_keeps ?_
      rintro live line rfl
      show Keeps _ _ _ (Try.run (if live = true then _ else _)) _
      rw [Try.run_ite]
      split
      next => exact waitForReady_keeps
      next =>
        refine Asks.andThen (Asks.call (.apart _ id) fun a => .ret rfl) ?_
        rintro u line rfl
        exact waitForReady_keeps
    next => exact .ret rfl

theorem request_keeps {payload : Bytes} (hquiet : ¬ (requestFrame payload).Fits → quiet) :
    Keeps c.maxPayloadLen quiet none (c.request payload : SysTry S Bytes).run
      fun _ line => line = none := by
  refine Asks.attempt (sendRequestOnce_keeps hquiet) ?_
  rintro r line rfl
  cases r with
  | ok response => exact .ret rfl
  | error err =>
    refine Asks.andThen recoverIfNeeded_keeps ?_
    rintro u line rfl
    exact sendRequestOnce_keeps hquiet

theorem ping_keeps :
    Keeps c.maxPayloadLen quiet none (c.ping : SysTry S Unit).run fun _ line => line = none := by
  refine Asks.attempt tryPingOnce_keeps ?_
  rintro r line rfl
  cases r with
  | ok u => exact .ret rfl
  | error err => exact recoverIfNeeded_keeps

/-- `shutdown` waits with the connection open, having read the acknowledgement. -/
theorem shutdown_keeps :
    Keeps c.maxPayloadLen quiet none (c.shutdown : SysTry S Bool).run
      fun _ line => line = none := by
  refine Asks.attempt (R := fun r line =>
    line = Line.step none (⟨.connect c.socketPath, r⟩ : SysEvent S))
    (Asks.call (.apart _ id) fun a => .ret rfl) ?_
  rintro a line rfl
  cases a with
  | error err =>
    refine Asks.andThen (R := fun line => line = none) ?_ ?_
    · unfold shouldTreatConnectErrorAsNotRunning
      rw [Try.run_ite]
      split
      next =>
        refine Asks.andThen pidFilePointsToLiveProcess_keeps ?_
        rintro live line rfl
        exact .ret rfl
      next => exact .ret rfl
    · rintro notRunning line rfl
      rw [Try.run_ite]
      split <;> exact .ret rfl
  | ok s =>
    refine dropping_keeps ?_
    refine Asks.bind (roundTrip_keeps s shutdownFrame rfl fun h => absurd (Nat.zero_le _) h) ?_
    rintro r line ⟨e, rfl, hs, haccepted, hleaves, hread⟩
    cases r with
    | error err => exact .ret ⟨e, rfl, hs, haccepted, hleaves⟩
    | ok g =>
      have hstay : Keeps c.maxPayloadLen quiet (some e) (c.waitForShutdown : SysTry S Unit).run
          fun _ line => line = some e :=
        Asks.still allCalls_waitForShutdown
          (fun op h => .answered e g op haccepted (hread g rfl) (WaitOp.aside op h))
          fun _ b h => Line.step_aside _ b (WaitOp.aside _ h)
      refine Asks.next (R := fun _ line => line = some e) (.ret ?_) ?_
      · cases shutdownAckOf g with
        | error err => exact ⟨e, rfl, hs, haccepted, hleaves⟩
        | ok u => exact rfl
      rintro u line rfl
      refine Asks.bind hstay ?_
      rintro r line rfl
      cases r <;> exact .ret ⟨e, rfl, hs, haccepted, hleaves⟩

end Client

/-! ## The daemon -/

section Daemon

variable {config : DaemonConfig} {quiet : Prop} {state : S} {e : Exchange S}

/-- The reply to a frame that was read. -/
theorem reply_keeps {limit : Nat} {f : Frame} (haccepted : e.accepted = true)
    (hf : Exact limit f e.received) (hsent : e.sent = []) (g : Frame) (hflags : g.flags = 0)
    (outcome : ConnectionOutcome) :
    Keeps limit quiet (some e) (reply e.stream g.kind g.payload outcome : SysTry S _).run
      fun _ line => ∃ e', line = some e' ∧ e'.stream = e.stream ∧ e'.accepted = true := by
  have hwrite : Keeps limit quiet (some e)
      (writeFrame e.stream.writer g.kind g.payload : SysTry S Unit).run _ :=
    writeFrame_keeps hsent g hflags fun hfits d fs buf hne hle =>
      .replies { e with sent := d, writeFaults := fs } f g buf haccepted hf hfits hne hle
  refine Asks.andThen (hwrite.mono ?_) ?_
  · rintro r line ⟨d, fs, rfl, -⟩
    exact ⟨_, rfl, rfl, haccepted⟩
  · rintro u line hline
    exact .ret hline

theorem dispatch_keeps {limit : Nat} {f : Frame} (haccepted : e.accepted = true)
    (hf : Exact limit f e.received) (hsent : e.sent = []) :
    Keeps limit quiet (some e) (dispatch e.stream state f)
      fun _ line => ∃ e', line = some e' ∧ e'.stream = e.stream ∧ e'.accepted = true := by
  -- the reply goes out on the same connection, whatever calls it has seen
  have hreply : ∀ (g : Frame), g.flags = 0 → ∀ (outcome : ConnectionOutcome) (state' : S) calls,
      Keeps limit quiet (some { e with calls := calls })
        ((reply e.stream g.kind g.payload outcome : SysTry S _).run.bind fun r => .ret (r, state'))
        fun _ line => ∃ e', line = some e' ∧ e'.stream = e.stream ∧ e'.accepted = true := by
    intro g hflags outcome state' calls
    refine Asks.bind (reply_keeps (e := { e with calls := calls }) haccepted hf hsent g hflags
      outcome) ?_
    exact fun r line hline => .ret hline
  unfold dispatch
  split
  next => exact hreply ⟨.pong, 0, []⟩ rfl .continue state e.calls
  next => exact hreply ⟨.shutdownAck, 0, []⟩ rfl .shutdown state e.calls
  next =>
    refine Asks.call (.handles e state f.payload haccepted) fun b => ?_
    obtain ⟨result, state'⟩ := b
    cases result with
    | ok response => exact hreply ⟨.response, 0, response⟩ rfl .continue state' _
    | error err => exact hreply ⟨.error, 0, messageBytes err⟩ rfl .continue state' _
  next other _ _ _ => exact hreply ⟨.error, 0, _⟩ rfl .continue state e.calls

/-- `process_connection` on a connection that was just accepted. -/
theorem processConnection_keeps {setup : Option (Except IoError Unit)} (s : Stream) :
    Keeps config.maxPayloadLen quiet (some { stream := s, accepted := true, setup := setup })
      (processConnection config s state) fun _ line => line = none := by
  refine Asks.bind (R := fun _ line => ∃ e, line = some e ∧ e.stream = s ∧ e.accepted = true) ?_ ?_
  · have hread : Keeps config.maxPayloadLen quiet
        (some { stream := s, accepted := true, setup := setup })
        (readFrame s.reader config.maxPayloadLen : SysTry S Frame).run _ :=
      readFrame_keeps rfl fun d fs n hw => .listens _ n rfl rfl hw
    refine Asks.bind hread ?_
    rintro (err | f) line ⟨d, fs, rfl, hres⟩
    · exact .ret ⟨_, rfl, rfl, rfl⟩
    · exact dispatch_keeps rfl hres rfl
  · rintro out line ⟨e, rfl, rfl, haccepted⟩
    exact Asks.call (.drops e haccepted) fun _ => .ret (Line.step_close e)

theorem acceptRound_keeps {listener : Nat} {x : Instant × S} :
    Keeps config.maxPayloadLen quiet none (acceptRound config listener x)
      fun _ line => line = none := by
  refine Asks.call (.apart _ id) fun a => ?_
  cases a with
  | error err =>
    show Keeps _ _ _ (if err.kind = .wouldBlock then _ else _) _
    split <;> exact .ret rfl
  | ok s =>
    have hsetup : ∀ b, Line.step (some { stream := s, accepted := true })
        (⟨.streamNonblocking s false, b⟩ : SysEvent S) =
          some { stream := s, accepted := true, setup := some b } := by
      intro b
      show (touch s _ [_]).head? = _
      rw [head_touch]
      exact congrArg some (if_pos rfl)
    refine Asks.call (.begins _ _ rfl (.inl rfl)) fun b => ?_
    rw [show Line.step none (⟨.accept listener, .ok s⟩ : SysEvent S) =
      some { stream := s, accepted := true } from rfl, hsetup b]
    cases b with
    | error err =>
      refine Asks.call (.drops _ rfl) fun u => ?_
      exact .ret (Line.step_close _)
    | ok u =>
      refine Asks.call (.begins _ _ rfl (.inr rfl)) fun t => ?_
      show Keeps _ _ _ ((processConnection config s x.2).bind _) _
      refine Asks.bind (processConnection_keeps s) ?_
      rintro ⟨outcome, state'⟩ line rfl
      cases outcome with
      | ok o => cases o <;> exact .ret rfl
      | error err => exact .ret rfl

theorem eventRound_keeps {listener : Nat} {x : Instant × S} :
    Keeps config.maxPayloadLen quiet none (eventRound config listener x)
      fun _ line => line = none := by
  refine Asks.call (.apart _ id) fun (b : Bool) => ?_
  cases b with
  | true => exact .ret rfl
  | false =>
    refine Asks.call (.apart _ id) fun (t : Instant) => ?_
    show Keeps _ _ _ (if Duration.isZero _ = true then _ else _) _
    split
    next => exact .ret rfl
    next =>
      refine Asks.bind (R := fun _ line => line = none) ?_ ?_
      · refine Asks.attempt (R := fun _ line => line = none)
          (Asks.call (.apart _ id) fun a => .ret rfl) ?_
        rintro r line rfl
        split
        next => exact .ret rfl
        next =>
          rw [Try.run_ite]
          split <;> exact .ret rfl
      · rintro r line rfl
        cases r with
        | error err => exact .ret rfl
        | ok ready =>
          cases ready with
          | false => exact .ret rfl
          | true =>
            refine Asks.bind (R := fun _ line => line = none) ?_ ?_
            · refine Asks.loop (fun _ line => line = none) (fun _ line => line = none) rfl ?_ ?_
              · rintro x line rfl
                refine acceptRound_keeps.mono ?_
                rintro r line rfl
                cases r <;> exact rfl
              · rintro r line rfl
                exact .ret rfl
            · rintro d line rfl
              cases d <;> exact .ret rfl

theorem runEventLoop_keeps {listener : Nat} :
    Keeps config.maxPayloadLen quiet none (runEventLoop config listener state)
      fun _ line => line = none := by
  refine Asks.call (.apart _ id) fun (t : Instant) => ?_
  refine Asks.loop (fun _ line => line = none) (fun _ line => line = none) rfl ?_ ?_
  · rintro x line rfl
    refine eventRound_keeps.mono ?_
    rintro r line rfl
    cases r <;> exact rfl
  · rintro r line rfl
    exact .ret rfl

/-- A probe is dropped as soon as it is answered. -/
theorem reclaim_keeps {limit : Nat} {path : Path} :
    Keeps limit True none (Socket.reclaim path : SysTry S Unit).run fun _ line => line = none := by
  refine Asks.call (.apart _ id) fun (there : Bool) => ?_
  cases there with
  | false => exact .ret rfl
  | true =>
    refine Asks.call (.apart _ id) fun a => ?_
    cases a with
    | error err => exact .ret rfl
    | ok fileType =>
      show Keeps _ _ _ (Try.run (if fileType ≠ .socket then _ else _)) _
      rw [Try.run_ite]
      split
      next => exact .ret rfl
      next =>
        refine Asks.call (.apart _ id) fun b => ?_
        cases b with
        | ok s =>
          refine Asks.call (.leaves { stream := s, accepted := false } rfl (.unasked trivial rfl))
            fun u => ?_
          exact .ret (Line.step_close _)
        | error err =>
          show Keeps _ _ _ (Try.run (if Socket.isStaleKind err.kind = true then _ else _)) _
          rw [Try.run_ite]
          split
          next => exact Asks.call (.apart _ id) fun _ => .ret rfl
          next => exact .ret rfl

theorem bind_keeps {limit : Nat} {path : Path} :
    Keeps limit True none (Socket.bind path : SysTry S Nat).run fun _ line => line = none := by
  have htail : Keeps limit True none (do Socket.reclaim path; Socket.listen path : SysTry S Nat).run
      fun _ line => line = none := by
    refine Asks.andThen reclaim_keeps ?_
    rintro u line rfl
    refine Asks.call (.apart _ id) fun a => ?_
    cases a with
    | error err => exact .ret rfl
    | ok listener =>
      refine Asks.call (.apart _ id) fun b => ?_
      cases b with
      | ok u => exact .ret rfl
      | error err => exact Asks.call (.apart _ id) fun _ => .ret rfl
  unfold Socket.bind
  split
  next parent hp =>
    refine Asks.andThen (Asks.call (.apart _ id) fun _ => .ret rfl) ?_
    rintro u line rfl
    exact htail
  next => exact htail

theorem runClaimed_keeps :
    Keeps config.maxPayloadLen True none (runClaimed config : SysTry S Unit).run
      fun _ line => line = none := by
  have hstop : ∀ (s : S) {line : Option (Exchange S)}, line = none →
    Keeps config.maxPayloadLen True line
      ((onStop s).mapErr Error.shutdown : SysTry S Unit).run fun _ line => line = none := by
    rintro s line rfl
    exact Asks.call (.apart _ id) fun _ => .ret rfl
  have hstart : Aside (.onStart : Op S) := ⟨id, id⟩
  refine Asks.andThen (Asks.call (.apart _ id) fun b => .ret (Line.step_aside none b hstart)) ?_
  rintro state line rfl
  refine Asks.attempt bind_keeps ?_
  rintro r line rfl
  cases r with
  | error err =>
    refine Asks.attempt (hstop state rfl) ?_
    rintro r line rfl
    cases r <;> exact .ret rfl
  | ok listener =>
    refine Asks.lift runEventLoop_keeps ?_
    rintro ⟨loopResult, state'⟩ line rfl
    refine Asks.call (.apart _ id) fun _ => ?_
    refine Asks.attempt (R := fun _ line => line = none)
      (Keeps.apart allCalls_removeIfExists PidOp.aside) ?_
    rintro cleanupResult line rfl
    refine Asks.attempt (hstop state' rfl) ?_
    rintro stopResult line rfl
    refine Asks.andThen (R := fun line => line = none) (.ret rfl) ?_
    rintro u line rfl
    refine Asks.andThen (R := fun line => line = none) (.ret rfl) ?_
    rintro u line rfl
    exact .ret rfl

theorem runDaemon_keeps :
    Keeps config.maxPayloadLen True none (runDaemon config : SysTry S Unit).run
      fun _ line => line = none := by
  refine Asks.andThen (Keeps.apart allCalls_installShutdownFlag ?_) ?_
  · rintro op ⟨n, rfl⟩
    exact ⟨id, id⟩
  rintro u line rfl
  split
  next path hp =>
    refine Asks.andThen (Keeps.apart PidGuard.allCalls_claim PidOp.aside) ?_
    rintro guard line rfl
    refine Asks.bind runClaimed_keeps ?_
    rintro r line rfl
    refine Asks.bind (Keeps.apart PidGuard.allCalls_drop PidOp.aside) ?_
    rintro u line rfl
    exact .ret rfl
  next => exact runClaimed_keeps

end Daemon


/-! ## Every process -/

/-- The limit of a process; who holds a PID file has none. -/
def Role.maxPayloadLen : Role → Nat
  | .daemon config => config.maxPayloadLen
  | .request client _ | .ping client | .shutdown client => client.maxPayloadLen
  | .guard _ => 0

/-- A process that may drop a connection on which it has sent nothing: a daemon looks
whether another one answers, and a request may be too large. -/
def Role.Quiet : Role → Prop
  | .daemon _ => True
  | .request _ payload => ¬ (requestFrame payload).Fits
  | .ping _ | .shutdown _ | .guard _ => False

/-- A program that keeps to the line has ended without one, or a call comes next that can. -/
theorem Keeps.next {α : Type} {limit : Nat} {quiet : Prop} {p : Sys S α} {h : History S}
    (hp : Productive p)
    (hkeeps : Keeps limit quiet none p fun _ line => line = none) (ht : Prog.Traces p h) :
    Line.of h = none ∨ ∃ op, Stands limit quiet (Line.of h) op ∧
      ∀ b : Ans op, Prog.Traces p (h ++ [⟨op, b⟩]) := by
  rcases hp.stands ht with ⟨a, hr⟩ | ⟨op, k, hr⟩
  · exact .inl (hkeeps.returns hr)
  · exact .inr ⟨op, hkeeps.asks hr, fun b => ⟨k b, hr.trans (.call .refl)⟩⟩

/-- The call that a process has made was one that could come. -/
theorem Keeps.before {α : Type} {limit : Nat} {quiet : Prop} {p : Sys S α} {h : History S}
    {e : SysEvent S}
    (hkeeps : Keeps limit quiet none p fun _ line => line = none) (ht : Prog.Traces p (h ++ [e])) :
    Stands limit quiet (Line.of h) e.1 := by
  obtain ⟨k, hr⟩ := ht.before
  exact hkeeps.asks hr

/-- Who holds a PID file has no connection. -/
theorem guardPidFile_keeps {limit : Nat} {quiet : Prop} {path : Path} :
    Keeps limit quiet none (guardPidFile path : Sys S Unit) fun _ line => line = none := by
  refine Asks.bind (Keeps.apart PidGuard.allCalls_claim PidOp.aside) ?_
  rintro r line rfl
  cases r with
  | ok guard => exact Keeps.apart PidGuard.allCalls_drop PidOp.aside
  | error err => exact .ret rfl

theorem productive_guardPidFile {path : Path} : Productive (guardPidFile path : Sys S Unit) := by
  refine productive_claim.bind fun r => ?_
  cases r with
  | ok guard => exact productive_perform.bind fun _ => trivial
  | error err => trivial

theorem Role.next {role : Role} {h : History S} (ht : role.Traces h) :
    Line.of h = none ∨ ∃ op, Stands role.maxPayloadLen role.Quiet (Line.of h) op ∧
      ∀ b : Ans op, role.Traces (h ++ [⟨op, b⟩]) := by
  cases role with
  | daemon config => exact runDaemon_keeps.next productive_runDaemon ht
  | request c payload => exact (Client.request_keeps id).next Client.productive_request ht
  | ping c => exact Client.ping_keeps.next Client.productive_ping ht
  | shutdown c => exact Client.shutdown_keeps.next Client.productive_shutdown ht
  | guard path => exact guardPidFile_keeps.next productive_guardPidFile ht

theorem Role.stands {role : Role} {h : History S} {e : SysEvent S} (ht : role.Traces (h ++ [e])) :
    Stands role.maxPayloadLen role.Quiet (Line.of h) e.1 := by
  cases role with
  | daemon config => exact runDaemon_keeps.before ht
  | request c payload => exact (Client.request_keeps id).before ht
  | ping c => exact Client.ping_keeps.before ht
  | shutdown c => exact Client.shutdown_keeps.before ht
  | guard path => exact guardPidFile_keeps.before ht

end Sockd
