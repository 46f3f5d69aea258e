import Sockd.Progress

/-!
# No deadlock

While a daemon serves a client, each read or write on the connection leaves less of the
request and of the reply to be written and read, and one of the two can take a step
(`no_deadlock`).

A transfer moves no bytes only when the other end is closed. The daemon's end is open as
long as it serves; a client drops its own when it has read the whole reply, or for one of
the reasons that sizes within the limits exclude (`Parted`, `partings_run`).
-/

namespace Sockd

open Rust Effects Effects.Prog Effects.System Os

variable {S : Type}

/-! ## What is left to transfer -/

/-- A read or a write on the stream. -/
def Transfers (s : Stream) : SysEvent S → Prop
  | ⟨.read t _, _⟩ | ⟨.write t _, _⟩ => t = s
  | _ => False

/-- It moves some bytes. -/
def MovesOn (s : Stream) (ev : SysEvent S) : Prop :=
  (∃ n a, ev = ⟨.read s n, a⟩ ∧ delivered a ≠ []) ∨ ∃ buf a, ev = ⟨.write s buf, a⟩ ∧ taken a ≠ []

namespace Os

variable {w : Os} {i : Nat} {s t : Stream} {ev : SysEvent S} {f request reply : Frame}

/-- The bytes of the frame `f`, sent on `s`, that are not written yet, and those that are
not read yet. -/
def remaining (w : Os) (s : Stream) (f : Frame) : Nat :=
  (f.wire.length - (w.ends s).sent.length) + (f.wire.length - (w.ends s.peer).got.length)

/-- The same over a request and the reply to it, which goes out on `s`. -/
def left (w : Os) (s : Stream) (request reply : Frame) : Nat :=
  w.remaining s.peer request + w.remaining s reply

/-- What was sent on the two ends of a connection are beginnings of these frames. -/
def Carries (w : Os) (s : Stream) (request reply : Frame) : Prop :=
  (w.ends s.peer).sent <+: request.wire ∧ (w.ends s).sent <+: reply.wire

theorem peer_ne (s : Stream) : s.peer ≠ s := by
  obtain ⟨n, side⟩ := s
  cases side <;> nofun

theorem ends_read {n : Nat} (a : Except IoError (Chunk n)) :
    (w.after i (⟨.read t n, a⟩ : SysEvent S)).ends =
      Function.update w.ends t { w.ends t with got := (w.ends t).got ++ delivered a } := rfl

theorem ends_write {buf : Bytes} (a : Except IoError (Taken buf)) :
    (w.after i (⟨.write t buf, a⟩ : SysEvent S)).ends =
      Function.update w.ends t { w.ends t with sent := (w.ends t).sent ++ taken a } := rfl

/-- A transfer on one end brings the frames of both nearer to their ends, as long as they are
the ones that are sent. -/
theorem remaining_transfer (hmoves : MovesOn t ev)
    (horder : ((w.after i ev).ends t).got <+: ((w.after i ev).ends t.peer).sent)
    (hsent : ((w.after i ev).ends t).sent <+: f.wire)
    (hsent' : ((w.after i ev).ends t.peer).sent <+: reply.wire) :
    (w.after i ev).remaining t f + (w.after i ev).remaining t.peer reply <
      w.remaining t f + w.remaining t.peer reply := by
  have hne : t.peer ≠ t := peer_ne t
  rcases hmoves with ⟨n, a, rfl, hd⟩ | ⟨buf, a, rfl, hd⟩
  · rw [ends_read a, Function.update_self, Function.update_of_ne hne] at horder
    rw [ends_read a, Function.update_of_ne hne] at hsent'
    have hlen := (horder.trans hsent').length_le
    have hpos := List.length_pos_of_ne_nil hd
    simp only [remaining, ends_read a, Stream.peer_peer, Function.update_self,
      Function.update_of_ne hne, List.length_append] at hlen ⊢
    omega
  · rw [ends_write a, Function.update_self] at hsent
    have hlen := hsent.length_le
    have hpos := List.length_pos_of_ne_nil hd
    simp only [remaining, ends_write a, Stream.peer_peer, Function.update_self,
      Function.update_of_ne hne, List.length_append] at hlen ⊢
    omega

theorem left_transfer (hmoves : MovesOn t ev) (ht : t = s ∨ t = s.peer)
    (horder : ∀ u, ((w.after i ev).ends u).got <+: ((w.after i ev).ends u.peer).sent)
    (hcarries : (w.after i ev).Carries s request reply) :
    (w.after i ev).left s request reply < w.left s request reply := by
  obtain ⟨hrequest, hreply⟩ := hcarries
  rcases ht with rfl | rfl
  · have hlt := remaining_transfer hmoves (horder t) hreply hrequest
    unfold left
    omega
  · have hreply : ((w.after i ev).ends s.peer.peer).sent <+: reply.wire := by
      rw [Stream.peer_peer]
      exact hreply
    have hlt := remaining_transfer hmoves (horder s.peer) hrequest hreply
    rw [Stream.peer_peer] at hlt
    exact hlt

/-- A transfer opens and closes nothing. -/
theorem owner_transfer (ht : Transfers t ev) (u : Stream) :
    ((w.after i ev).ends u).owner = (w.ends u).owner := by
  obtain ⟨op, a⟩ := ev
  cases op with
  | read t' n =>
    rw [ends_read a]
    by_cases hu : u = t'
    · rw [hu, Function.update_self]
    · rw [Function.update_of_ne hu]
  | write t' buf =>
    rw [ends_write a]
    by_cases hu : u = t'
    · rw [hu, Function.update_self]
    · rw [Function.update_of_ne hu]
  | _ => exact ht.elim

/-- Whoever makes a transfer has the stream open. -/
theorem holds_transfer (ht : Transfers t ev) (hans : w.answers i ev = true) : w.Holds i t := by
  obtain ⟨op, a⟩ := ev
  cases op with
  | read t' n =>
    obtain rfl : t' = t := ht
    exact (read_answers hans).1
  | write t' buf =>
    obtain rfl : t' = t := ht
    exact (write_answers hans).1
  | _ => exact ht.elim

/-- While the other end is open, the transfers that a process makes move bytes. -/
theorem movesOn_of_answers {maxPayloadLen : Nat} {quiet : Prop} {e : Exchange S}
    (ht : Transfers t ev) (hans : w.answers i ev = true)
    (hstands : Stands maxPayloadLen quiet (some e) ev.1) (hpeer : (w.ends t.peer).isOpen = true) :
    MovesOn t ev := by
  obtain ⟨op, a⟩ := ev
  cases op with
  | read t' n =>
    obtain rfl : t' = t := ht
    obtain ⟨-, ⟨hn, -⟩, -⟩ := hstands.of_read
    have hans := (read_answers hans).2
    refine .inl ⟨n, a, rfl, ?_⟩
    cases a with
    | ok d =>
      simp only [readAnswer, hpeer, Bool.not_true, Bool.and_false, Bool.or_false, Bool.and_eq_true,
        decide_eq_true_eq] at hans
      exact hans.2.resolve_right (Nat.ne_of_gt hn)
    | error err =>
      simp only [readAnswer, hpeer, Bool.not_true, Bool.and_false] at hans
      cases hans
  | write t' buf =>
    obtain rfl : t' = t := ht
    obtain ⟨-, hne, -⟩ := hstands.of_write
    have hans := (write_answers hans).2
    refine .inr ⟨buf, a, rfl, ?_⟩
    cases a with
    | ok k =>
      simp only [writeAnswer, Bool.and_eq_true, decide_eq_true_eq] at hans
      have hk : 0 < k.1 := hans.2.resolve_right hne
      intro hnil
      have hlen := congrArg List.length hnil
      rw [taken, List.length_take_of_le k.2, List.length_nil] at hlen
      omega
    | error err =>
      simp only [writeAnswer, hpeer, Bool.not_true, Bool.false_and] at hans
      cases hans
  | _ => exact ht.elim

end Os

/-! ## What failed, and who has left -/

section Left

variable {w w' : Os} {L : Nat → Ledger S} {i : Nat} {s t : Stream}

/-- A write fails when the other end is closed. -/
theorem Os.writeFault_closed {buf : Bytes} {a : Except IoError (Taken buf)}
    (hok : isSpurious (⟨.write s buf, a⟩ : SysEvent S) = true ∨
      w.answers i (⟨.write s buf, a⟩ : SysEvent S) = true) (hfault : writeFaultOf a ≠ []) :
    (w.ends s.peer).isOpen = false := by
  cases a with
  | ok k =>
    have hans := (write_answers (hok.resolve_left Bool.false_ne_true)).2
    simp only [writeAnswer, Bool.and_eq_true, decide_eq_true_eq] at hans
    refine absurd (if_neg fun h => ?_) hfault
    have hpos : 0 < k.1 := hans.2.resolve_right h.1
    omega
  | error err =>
    have hans := (write_answers (hok.resolve_left fun he =>
      hfault (if_pos (of_decide_eq_true he)))).2
    simp only [writeAnswer, Bool.and_eq_true, Bool.not_eq_true'] at hans
    exact hans.1

/-- Where a write is on record as failed, the other end is closed. -/
def WritesEnded (w : Os) (L : Nat → Ledger S) : Prop :=
  ∀ i, ∀ e ∈ (L i).exchanges, e.writeFaults ≠ [] → (w.ends e.stream.peer).isOpen = false

theorem WritesEnded.act (h : WritesEnded w L) (ha : w.Agrees L) (hq : w.Queued) {ev : SysEvent S}
    (hok : isSpurious ev = true ∨ w.answers i ev = true) :
    WritesEnded (w.after i ev) (Function.update L i ((L i).step ev)) := by
  have hkeep : ∀ {j : Nat} {e : Exchange S}, e ∈ (L j).exchanges →
      (w.ends e.stream.peer).isOpen = false → ((w.after i ev).ends e.stream.peer).isOpen = false :=
    fun he hclosed => ((later_after hq hok _).closed hclosed (ha.conn_lt he)).1
  intro j e he hfault
  by_cases hj : j = i
  swap
  · rw [Function.update_of_ne hj] at he
    exact hkeep he (h j e he hfault)
  · subst hj
    rw [Function.update_self] at he
    rcases faultStep (L j) (ha.nodup j) ev he with
      ⟨-, hw⟩ | ⟨e₀, he₀, hs, -, hw⟩ | ⟨e₀, n, a, he₀, hs, -, -, hw⟩ |
      ⟨e₀, buf, a, he₀, hs, rfl, -, hw⟩
    · exact absurd hw hfault
    · rw [hw] at hfault
      rw [hs]
      exact hkeep he₀ (h j e₀ he₀ hfault)
    · rw [hw] at hfault
      rw [hs]
      exact hkeep he₀ (h j e₀ he₀ hfault)
    · rw [hs]
      refine hkeep he₀ ?_
      by_cases hnew : writeFaultOf a = []
      · rw [hw, hnew, List.append_nil] at hfault
        exact h j e₀ he₀ hfault
      · exact writeFault_closed hok hnew

theorem WritesEnded.outside (h : WritesEnded w L) (ha : w.Agrees L) {o : Outside}
    (ho : w.outside o = some w') : WritesEnded w' L := fun i e he hfault =>
  ((later_outside ho _).closed (h i e he hfault) (ha.conn_lt he)).1

/-- Nothing is read from an end that is closed. -/
theorem Os.got_after {ev : SysEvent S} (hok : isSpurious ev = true ∨ w.answers i ev = true)
    (hclosed : (w.ends t).isOpen = false) (hconn : t.conn < w.nextConn) :
    ((w.after i ev).ends t).got = (w.ends t).got := by
  by_cases hm : Moves ev
  swap
  · exact (alike_after w i hm t).got
  obtain ⟨op, a⟩ := ev
  cases op with
  | connect p =>
    cases a with
    | error err => exact hm.elim
    | ok u =>
      obtain ⟨l, hn, -, -⟩ := connect_ok hok
      have hne : ∀ side, t ≠ ⟨w.nextConn, side⟩ := by
        rintro side rfl
        exact absurd hconn (Nat.lt_irrefl _)
      rw [after_connect hn, ends_dial, if_neg (hne _), if_neg (hne _)]
  | accept l =>
    cases a with
    | error err => exact hm.elim
    | ok u =>
      show (Function.update w.ends u { w.ends u with owner := some i } t).got = _
      by_cases hu : t = u
      · rw [hu, Function.update_self]
      · rw [Function.update_of_ne hu]
  | read u n =>
    rw [ends_read a]
    by_cases hu : t = u
    · subst hu
      rw [Function.update_self]
      -- who reads has it open
      cases a with
      | error err => exact List.append_nil _
      | ok d =>
        have hopen := (read_answers (hok.resolve_left Bool.false_ne_true)).1.2
        rw [hopen] at hclosed
        cases hclosed
    · rw [Function.update_of_ne hu]
  | write u buf =>
    rw [ends_write a]
    by_cases hu : t = u
    · rw [hu, Function.update_self]
    · rw [Function.update_of_ne hu]
  | _ => exact hm.elim

theorem Os.got_outside {o : Outside} (ho : w.outside o = some w') :
    (w'.ends t).got = (w.ends t).got := by
  cases o <;>
    · simp only [Os.outside, Option.ite_none_right_eq_some] at ho
      rw [← Option.some.inj ho.2]
      rfl

end Left

/-- Why a process has dropped a connection that the other end has still open, given what
it had read. -/
inductive Parted (role : Role) (got : Bytes) : Prop
  | quiet : role.Quiet → Parted role got
  | refused (err : Error) : parse role.maxPayloadLen got = .reject err → Parted role got
  | answered (g : Frame) : Exact role.maxPayloadLen g got → Parted role got

/-- Who drops a stream that it has not accepted has a reason. -/
theorem Stands.of_close {maxPayloadLen : Nat} {quiet : Prop} {e : Exchange S} {t : Stream}
    (h : Stands maxPayloadLen quiet (some e) (.closeStream t)) (hopened : e.accepted = false) :
    Leaves maxPayloadLen quiet e := by
  cases h with
  | answered _ _ _ _ _ haside => exact absurd trivial haside.1
  | leaves _ _ hleaves => exact hleaves
  | begins _ _ _ hop => rcases hop with hop | hop <;> cases hop
  | drops _ haccepted =>
    rw [hopened] at haccepted
    cases haccepted

/-- Every process that has dropped its end of a connection has had such a reason. -/
def Partings (role : Nat → Role) (c : HostConfig S) : Prop :=
  ∀ i t, t.side = .client → ⟨.closeStream t, ()⟩ ∈ c.hist i →
    t.conn < c.world.nextConn ∧ (c.world.ends t).isOpen = false ∧
      ((c.world.ends t.peer).isOpen = true → Parted (role i) (c.world.ends t).got)

section Runs

variable {role : Nat → Role} {cond : HostConfig S → HostLabel S → Prop} {w₀ : Os}
  {ls : List (HostLabel S)} {c c' : HostConfig S} {i j : Nat} {t : Stream}

theorem writesEnded_run (h₀ : w₀.Initial) (hr : Run (host role) cond (.start w₀) ls c) :
    WritesEnded c.world (ledgers c) := by
  induction hr with
  | nil => exact fun i e he => nomatch he
  | @snoc ls c c' l hr hs _ _ ih =>
    have ha := agrees_run h₀ hr
    cases l with
    | act i ev =>
      obtain ⟨-, hok, hw⟩ := act_eq_some.mp (step_act.mp hs).1
      rw [hw, ledgers_act hs]
      exact ih.act ha (queued_run h₀ hr) hok
    | outside o =>
      obtain ⟨ho, hh⟩ := step_outside.mp hs
      have hl : ledgers c' = ledgers c := by
        funext j
        rw [ledgers, hh, ledgers]
      rw [hl]
      exact ih.outside ha ho

/-- The call that drops a stream: it was open, and there was a reason. -/
theorem parted_of_close (h₀ : w₀.Initial) (hr : Run (host role) cond (.start w₀) ls c)
    (hside : t.side = .client)
    (hans : c.world.answers i (⟨.closeStream t, ()⟩ : SysEvent S) = true)
    (ht : (role i).Traces (c.hist i ++ [⟨.closeStream t, ()⟩])) :
    t.conn < c.world.nextConn ∧
      ((c.world.ends t.peer).isOpen = true → Parted (role i) (c.world.ends t).got) := by
  obtain ⟨-, e, hline, rfl, he, hm⟩ := opened_run h₀ hr (of_decide_eq_true hans)
  have hopened : e.accepted = false := by
    rw [← Bool.not_eq_true, hm.side, hside]
    nofun
  refine ⟨(agrees_run h₀ hr).conn_lt he, fun hpeer => ?_⟩
  have hstands := Role.stands ht
  rw [hline] at hstands
  rw [hm.got]
  cases hstands.of_close hopened with
  | failed hfault =>
    -- a connection that failed was closed at the other end
    have hclosed : (c.world.ends e.stream.peer).isOpen = false := by
      by_cases hread : e.readFaults = []
      · rw [hread, List.nil_append] at hfault
        exact writesEnded_run h₀ hr i e he hfault
      · exact ((faulted_run h₀ hr i e he).ended hread).2
    rw [hpeer] at hclosed
    cases hclosed
  | refused err hrej => exact .refused err hrej
  | answered g hg => exact .answered g hg
  | unasked hquiet _ => exact .quiet hquiet

/-- **In every run** who drops a stream has had a reason, if the other end is open. -/
theorem partings_run (h₀ : w₀.Initial) (hr : Run (host role) cond (.start w₀) ls c) :
    Partings role c := by
  induction hr with
  | nil => exact fun i t _ hmem => nomatch hmem
  | @snoc ls c c' l hr hs hb _ ih =>
    intro i t hside hmem
    have hq := queued_run h₀ hr
    cases l with
    | outside o =>
      obtain ⟨ho, hh⟩ := step_outside.mp hs
      rw [hh] at hmem
      obtain ⟨hconn, hclosed, hparted⟩ := ih i t hside hmem
      have hlater := fun u => later_outside ho u
      refine ⟨Nat.lt_of_lt_of_le hconn (grows_outside ho).nextConn,
        ((hlater t).closed hclosed hconn).1, fun hpeer => ?_⟩
      rw [got_outside ho]
      refine hparted (Bool.of_not_eq_false fun hpeer₀ => ?_)
      rw [((hlater t.peer).closed hpeer₀ hconn).1] at hpeer
      cases hpeer
    | act j ev =>
      obtain ⟨-, hok, hw⟩ := act_eq_some.mp (step_act.mp hs).1
      have hlater := fun u => later_after hq hok u
      -- it may have been dropped before, or just now
      have hfacts : t.conn < c.world.nextConn ∧ (c'.world.ends t).isOpen = false ∧
          (c'.world.ends t).got = (c.world.ends t).got ∧
          ((c.world.ends t.peer).isOpen = true → Parted (role i) (c.world.ends t).got) := by
        rw [hw]
        have hbefore : ⟨.closeStream t, ()⟩ ∈ c.hist i → t.conn < c.world.nextConn ∧
            ((c.world.after j ev).ends t).isOpen = false ∧
            ((c.world.after j ev).ends t).got = (c.world.ends t).got ∧
            ((c.world.ends t.peer).isOpen = true → Parted (role i) (c.world.ends t).got) := by
          intro hold
          obtain ⟨hconn, hclosed, hparted⟩ := ih i t hside hold
          exact ⟨hconn, ((hlater t).closed hclosed hconn).1, got_after hok hclosed hconn, hparted⟩
        by_cases hij : i = j
        swap
        · rw [hist_act_ne hs hij] at hmem
          exact hbefore hmem
        subst hij
        rw [hist_act_self hs] at hmem
        rcases List.mem_append.mp hmem with hold | hnew
        · exact hbefore hold
        · obtain rfl := List.mem_singleton.mp hnew
          have ht := hb i _ rfl
          rw [hist_act_self hs] at ht
          obtain ⟨hconn, hparted⟩ := parted_of_close h₀ hr hside
            (hok.resolve_left Bool.false_ne_true) ht
          refine ⟨hconn, ?_, rfl, hparted⟩
          show ((c.world.ends t).isOpen && !decide (t = t)) = false
          rw [decide_eq_true rfl, Bool.not_true, Bool.and_false]
      obtain ⟨hconn, hclosed, hgot, hparted⟩ := hfacts
      refine ⟨?_, hclosed, fun hpeer => ?_⟩
      · rw [hw]
        exact Nat.lt_of_lt_of_le hconn (grows_after _ _ _).nextConn
      · rw [hgot]
        refine hparted (Bool.of_not_eq_false fun hpeer₀ => ?_)
        rw [hw, ((hlater t.peer).closed hpeer₀ hconn).1] at hpeer
        cases hpeer

end Runs

/-! ## One client -/

/-- A call of a client whose request has a length that the header can say. -/
def Role.Calls : Role → Prop
  | .request _ payload => payload.length ≤ u32Max
  | .ping _ | .shutdown _ => True
  | .daemon _ | .guard _ => False

/-- The connection that the daemon `d` serves on `s` is that of process `i`, a client's call
with sizes within the limits, and which was not killed with its end open. -/
structure ServesClient (role : Nat → Role) (c : HostConfig S) (d i : Nat) (s : Stream) : Prop where
  opener : (c.world.ends s.peer).owner = some i
  calls : (role i).Calls
  reply : ∀ e ∈ (ledgers c d).exchanges, e.stream = s → ∀ call ∈ e.calls,
    (replyTo call.result).payload.length ≤ (role i).maxPayloadLen
  alive : (c.world.ends s.peer).isOpen = true ∨ ⟨.closeStream s.peer, ()⟩ ∈ c.hist i

section Runs

variable {role : Nat → Role} {cond : HostConfig S → HostLabel S → Prop} {w₀ : Os}
  {ls : List (HostLabel S)} {c c' : HostConfig S} {e : Exchange S} {d i j : Nat} {s t : Stream}

theorem Role.Calls.not_quiet {role : Role} (h : role.Calls) : ¬ role.Quiet := by
  cases role with
  | daemon config => exact h.elim
  | request cl payload => exact not_not.mpr h
  | ping cl => exact id
  | shutdown cl => exact id
  | guard path => exact id

/-- A client sends a request, a ping or a shutdown on each of its connections. -/
theorem talking_run (h₀ : w₀.Initial) (hr : Run (host role) cond (.start w₀) ls c)
    (hcalls : (role i).Calls) (he : e ∈ (ledgers c i).exchanges) :
    ∃ f, Talking f e ∧ (f.kind = .request ∨ f.kind = .ping ∨ f.kind = .shutdown) := by
  have ht : (role i).Traces (c.hist i) := hr.behaviour (Role.traces_nil _)
  have hnot := not_failedLikeConnect h₀ hr i
  have hone : ∀ {f : Frame}, Speaking f [] (ledgers c i) → Talking f e := by
    rintro f (hes | ⟨e₀, hes, htalk⟩)
    · rw [hes] at he
      cases he
    · rw [hes] at he
      rw [List.mem_singleton.mp he]
      exact htalk
  cases hrole : role i with
  | daemon config | guard path =>
    rw [hrole] at hcalls
    exact hcalls.elim
  | request cl payload =>
    obtain ⟨ps, hps, hspeaking⟩ := asking_run hrole h₀ hr.any
    by_cases hmem : e ∈ ps
    · exact ⟨_, hps e hmem, .inr (.inl rfl)⟩
    · rcases hspeaking with hes | ⟨e₀, hes, htalk⟩
      · rw [hes] at he
        exact absurd he hmem
      · rw [hes] at he
        obtain rfl := (List.mem_cons.mp he).resolve_right hmem
        exact ⟨_, htalk, .inl rfl⟩
  | ping cl =>
    rw [hrole] at ht
    obtain ⟨q, hq⟩ := ht
    exact ⟨_, hone (((Client.ping_spec rfl).always hq).resolve_left hnot), .inr (.inl rfl)⟩
  | shutdown cl =>
    rw [hrole] at ht
    obtain ⟨q, hq⟩ := ht
    exact ⟨_, hone (Client.shutdown_spec.always hq), .inr (.inr rfl)⟩

/-- What has been sent either way is the beginning of a frame. -/
theorem exists_carries (h₀ : w₀.Initial) (hr : Run (host role) cond (.start w₀) ls c)
    (hs : s.side = .server) (hd : (c.world.ends s).owner = some d)
    (hi : (c.world.ends s.peer).owner = some i) (hcalls : (role i).Calls) :
    ∃ request reply, c.world.Carries s request reply := by
  have hagrees := agrees_run h₀ hr
  obtain ⟨e, he, rfl⟩ := List.mem_map.mp ((hagrees.owned d s).mp hd)
  obtain ⟨e', he', hs', -, -, -⟩ := peer_entry h₀ hr he hi
  have hm := hagrees.agrees d e he
  have hm' := hagrees.agrees i e' he'
  rw [hs'] at hm'
  obtain ⟨request, htalk, -⟩ := talking_run h₀ hr hcalls he'
  obtain ⟨config, -, hserv⟩ := accepted_inService hr he (hm.side.mpr hs)
  have hreply : ∃ reply : Frame, e.sent <+: reply.wire := by
    cases hserv with
    | waiting hnil _ => exact ⟨⟨.pong, 0, []⟩, hnil ▸ List.nil_prefix⟩
    | answering f reply _ _ hle _ => exact ⟨reply, hle⟩
  obtain ⟨reply, hle⟩ := hreply
  refine ⟨request, reply, ?_, ?_⟩
  · rw [hm'.sent]
    exact htalk.sent_le
  · rw [hm.sent]
    exact hle

/-- A reply that went out is within the limit of the client. -/
theorem ServesClient.reply_le (h : ServesClient role c d i s) (h₀ : w₀.Initial)
    (hr : Run (host role) cond (.start w₀) ls c) (he : e ∈ (ledgers c d).exchanges)
    (hes : e.stream = s) (ha : e.accepted = true) (hsent : e.sent ≠ []) :
    ∃ reply : Frame, reply.Fits ∧ e.sent <+: reply.wire ∧
      reply.payload.length ≤ (role i).maxPayloadLen := by
  obtain ⟨config, -, hserv⟩ := accepted_inService hr he ha
  obtain ⟨e', he', -, hle, -, -⟩ := peer_entry h₀ hr he (hes ▸ h.opener)
  obtain ⟨g, htalk, hkind⟩ := talking_run h₀ hr h.calls he'
  cases hserv with
  | waiting hnil _ => exact absurd hnil hsent
  | answering f reply hf hans hsent_le hfits =>
    refine ⟨reply, hfits.resolve_right hsent, hsent_le, ?_⟩
    obtain rfl := htalk.frame_eq hf hle
    generalize hcalls : e.calls = calls at hans
    cases hans with
    | request call _ _ => exact h.reply e he hes call (hcalls ▸ List.mem_singleton_self call)
    | other hne =>
      -- a ping and a shutdown are answered without a payload
      rcases hkind with hk | hk | hk
      · exact absurd hk hne
      · rw [hk]
        exact Nat.zero_le _
      · rw [hk]
        exact Nat.zero_le _

/-- While a daemon reads or writes, the client that it serves has its end open. -/
theorem ServesClient.peer_open (h : ServesClient role c d i s) (h₀ : w₀.Initial)
    (hr : Run (host role) cond (.start w₀) ls c) (hs : s.side = .server) (hd : c.world.Holds d s)
    {ev : SysEvent S} (ht : Transfers s ev) (htr : (role d).Traces (c.hist d ++ [ev])) :
    (c.world.ends s.peer).isOpen = true := by
  rcases h.alive with hopen | hclosed
  · exact hopen
  exfalso
  have hside : s.peer.side = .client := by
    rw [Stream.peer, hs]
    rfl
  obtain ⟨-, -, hparted⟩ := partings_run h₀ hr i s.peer hside hclosed
  rw [Stream.peer_peer] at hparted
  have horder := (agrees_run h₀ hr).order s.peer
  obtain ⟨-, e, hline, hes, he, hm⟩ := opened_run h₀ hr hd
  have haccepted : e.accepted = true := hm.side.mpr (hes ▸ hs)
  rw [Stream.peer_peer, hm.sent] at horder
  have hstands := Role.stands htr
  rw [hline] at hstands
  -- what the client has read is not empty, and so neither is what the daemon has sent
  have hsent : e.sent ≠ [] := by
    intro hnil
    rw [hnil, List.prefix_nil] at horder
    rw [horder] at hparted
    cases hparted hd.2 with
    | quiet hquiet => exact h.calls.not_quiet hquiet
    | refused err hrej =>
      rw [parse_short (by decide)] at hrej
      cases hrej
    | answered g hg => exact hg.ne_nil rfl
  -- so the daemon is writing, and its reply is not complete
  have hwriting : ∃ (f : Frame) (buf : Bytes), f.Fits ∧ buf ≠ [] ∧ e.sent ++ buf <+: f.wire := by
    obtain ⟨op, a⟩ := ev
    cases op with
    | read t n =>
      obtain ⟨-, -, hnothing⟩ := hstands.of_read
      refine absurd (hnothing.resolve_left fun hclient => ?_).2 hsent
      rw [haccepted] at hclient
      cases hclient.1
    | write t buf =>
      obtain ⟨-, hne, f, hfits, hle, -⟩ := hstands.of_write
      exact ⟨f, buf, hfits, hne, hle⟩
    | _ => exact ht.elim
  obtain ⟨f, buf, hfits, hne, hle⟩ := hwriting
  cases hparted hd.2 with
  | quiet hquiet => exact h.calls.not_quiet hquiet
  | refused err hrej =>
    obtain ⟨reply, hfits', hle', hmax⟩ := h.reply_le h₀ hr he hes haccepted hsent
    obtain ⟨rest, hrest⟩ := horder.trans hle'
    have hrefused := parse_reject_append hrej rest
    have haccept := parse_wire hfits' hmax []
    rw [List.append_nil] at haccept
    rw [hrest, haccept] at hrefused
    cases hrefused
  | answered g hg =>
    exact hne (eq_nil_of_wire_le hg.fits hfits (hg.eq_wire ▸ horder) hle)

end Runs

/-! ## No deadlock -/

/-- **No deadlock.** Whatever the capacities of the buffers and of the backlogs, whatever the
processes do and whoever is killed: while process `d` has a connection open that it has
accepted (only a daemon accepts, and it has the connection open until `process_connection`
returns), `d` or the process at the other end can take a step. If that process is a
client's call with sizes within the limits, each read or write that is not interrupted
leaves less of the request and of the reply to be written and read. -/
theorem no_deadlock (role : Nat → Role) (cap : Stream → Nat) (backlog : Nat → Nat) (d : Nat)
    (s : Stream) (w₀ : Os) (ls : List (HostLabel S)) (c : HostConfig S) (hcap : ∀ s, 0 < cap s)
    (h₀ : w₀.Initial) (hr : Run (host role) (Bounded cap backlog) (.start w₀) ls c)
    (hs : s.side = .server) (hd : c.world.Holds d s) :
    (∃ j, (j = d ∨ (c.world.ends s.peer).owner = some j) ∧ CanStep role cap backlog c j) ∧
    ∀ i, ServesClient role c d i s → ∀ j ev c', (Transfers s ev ∨ Transfers s.peer ev) →
      c.world.answers j ev = true → Run (host role) (Bounded cap backlog) c [.act j ev] c' →
      (∃ request reply, c'.world.Carries s request reply) ∧
        ∀ request reply, c'.world.Carries s request reply →
          c'.world.left s request reply < c.world.left s request reply := by
  refine ⟨daemon_or_client_can hcap h₀ hr hs hd, ?_⟩
  intro i hserves j ev c' htransfers hans hstep
  have hr' := hr.append hstep
  obtain ⟨hact, htr, -⟩ := hstep.single
  have htr := htr j ev rfl
  rw [hist_act_self hact] at htr
  -- the stream of the transfer, which is open at the other end too
  obtain ⟨t, ht, hts, hpeer⟩ : ∃ t, Transfers t ev ∧ (t = s ∨ t = s.peer) ∧
      (c.world.ends t.peer).isOpen = true := by
    rcases htransfers with ht | ht
    · obtain rfl : j = d := by
        have howner := (holds_transfer ht hans).1
        rw [hd.1] at howner
        exact (Option.some.inj howner).symm
      exact ⟨s, ht, .inl rfl, hserves.peer_open h₀ hr hs hd ht htr⟩
    · refine ⟨s.peer, ht, .inr rfl, ?_⟩
      rw [Stream.peer_peer]
      exact hd.2
  obtain ⟨-, e, hline, -⟩ := opened_run h₀ hr (holds_transfer ht hans)
  have hstands := Role.stands htr
  rw [hline] at hstands
  have hmoves : MovesOn t ev := movesOn_of_answers ht hans hstands hpeer
  have horder := (agrees_run h₀ hr').order
  have howners : ∀ u, (c'.world.ends u).owner = (c.world.ends u).owner := by
    rw [(act_eq_some.mp (step_act.mp hact).1).2.2]
    exact owner_transfer ht
  refine ⟨exists_carries h₀ hr' hs ((howners s).trans hd.1) ((howners _).trans hserves.opener)
    hserves.calls, fun request reply hcarries => ?_⟩
  rw [(act_eq_some.mp (step_act.mp hact).1).2.2] at horder hcarries ⊢
  exact left_transfer hmoves hts horder hcarries

/-- The first byte of an empty request, which fills a buffer of one byte. -/
def asksOneByte : History Unit :=
  [⟨.connect sockPath, .ok ⟨0, .client⟩⟩,
    ⟨.write ⟨0, .client⟩ (requestFrame []).wire, .ok ⟨1, by decide⟩⟩]

/-- The daemon, up to its first read. -/
def beginsToServe : History Unit :=
  acceptsFirst ++ [⟨.streamNonblocking ⟨0, .server⟩ false, .ok ()⟩, ⟨.now, noon⟩]

/-- The client waits for room, and the daemon is about to read. -/
def oneByteSchedule : List (HostLabel Unit) :=
  [.outside (.start 0 100), .outside (.start 1 101)] ++ (installsFlag ++ serves).map (.act 0) ++
    asksOneByte.map (.act 1) ++ beginsToServe.map (.act 0)

/-- The daemon reads the first byte. -/
def readsOneByte : SysEvent Unit := ⟨.read ⟨0, .server⟩ 12, .ok ⟨[0x53], by decide⟩⟩

/-- Who has the two ends of the first connection, with no call of `on_request` so far. -/
def servesFirst (c : HostConfig Unit) : Bool :=
  decide (c.world.Holds 0 ⟨0, .server⟩) && decide (c.world.Holds 1 ⟨0, .client⟩) &&
    c.world.answers 0 readsOneByte && (ledgers c 0).exchanges.all fun e => e.calls.isEmpty

/-- With buffers of one byte: the client has to wait, so the daemon can take a step, and to
read the byte is one. -/
theorem no_deadlock_one_byte : ∃ c c' : HostConfig Unit,
    Run (host (oneClient {} { socketPath := sockPath } [])) (Bounded (fun _ => 1) fun _ => 1)
      (.start emptyHost) oneByteSchedule c ∧
    (∃ j, (j = 0 ∨ (c.world.ends ⟨0, .client⟩).owner = some j) ∧
      CanStep (oneClient {} { socketPath := sockPath } []) (fun _ => 1) (fun _ => 1) c j) ∧
    (∃ request reply, c'.world.Carries ⟨0, .server⟩ request reply) ∧
    ∀ request reply, c'.world.Carries ⟨0, .server⟩ request reply →
      c'.world.left ⟨0, .server⟩ request reply < c.world.left ⟨0, .server⟩ request reply := by
  have hplay : ((host (oneClient {} { socketPath := sockPath } [])).play
      (withinBuffers (fun _ => 1) fun _ => 1) (.start emptyHost)
      (oneByteSchedule ++ [.act 0 readsOneByte])).isSome = true := by decide +kernel
  have hcheck : (((host (oneClient {} { socketPath := sockPath } [])).play
      (withinBuffers (fun _ => 1) fun _ => 1) (.start emptyHost) oneByteSchedule).map
      servesFirst) = some true := by decide +kernel
  obtain ⟨c', hplay⟩ := Option.isSome_iff_exists.mp hplay
  rw [play_append, Option.bind_eq_some_iff] at hplay
  obtain ⟨c, hc, hc'⟩ := hplay
  have htraces : ∀ i, (oneClient {} { socketPath := sockPath } [] i).Traces
      ((oneByteSchedule ++ [(.act 0 readsOneByte : HostLabel Unit)]).filterMap (Label.of? i)) := by
    intro i
    rcases i with _ | _ | i
    · exact traces_of_follow 60 (by rfl)
    · exact traces_of_follow 60 (by rfl)
    · exact Role.traces_nil _
  have hrun : Run (host (oneClient {} { socketPath := sockPath } []))
      (Bounded (fun _ => 1) fun _ => 1) (.start emptyHost) oneByteSchedule c := by
    refine run_of_play hc fun i => ?_
    have ht := htraces i
    rw [List.filterMap_append] at ht
    exact Role.traces_cut ht
  have hstep : Run (host (oneClient {} { socketPath := sockPath } []))
      (Bounded (fun _ => 1) fun _ => 1) c [.act 0 readsOneByte] c' :=
    run_of_play_after hc hc' htraces
  rw [hc, Option.map_some, Option.some.injEq] at hcheck
  simp only [servesFirst, Bool.and_eq_true, decide_eq_true_eq] at hcheck
  obtain ⟨⟨⟨hd, hi⟩, hans⟩, hcalls⟩ := hcheck
  have hserves : ServesClient (oneClient {} { socketPath := sockPath } []) c 0 1 ⟨0, .server⟩ := by
    refine ⟨hi.1, Nat.zero_le _, fun e he _ call hcall => ?_, .inl hi.2⟩
    rw [List.isEmpty_iff.mp (List.all_eq_true.mp hcalls e he)] at hcall
    cases hcall
  have h := no_deadlock _ (fun _ => 1) (fun _ => 1) 0 ⟨0, .server⟩ emptyHost oneByteSchedule c
    (fun _ => Nat.one_pos) emptyHost_initial hrun rfl hd
  exact ⟨c, c', hrun, h.1, h.2 1 hserves 0 readsOneByte c' (.inl rfl) hans hstep⟩

end Sockd
