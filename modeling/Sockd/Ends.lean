import Sockd.Conversation
import Sockd.Linked

/-!
# The two ends of a conversation

Only a daemon accepts connections, and the streams of a host do not fail as a connect
does. So the entries of the two ends of a connection explain each other: the frame that
a daemon serves is the one that a client is sending (`Talking.frame_eq`), and the frame
that a client has read is the reply that a daemon's entry calls for (`replied_by`).
-/

namespace Sockd

open Rust Effects Effects.Prog Effects.System Os

variable {S : Type}

/-! ## The roles in a host -/

theorem forall_touch {P : Exchange S → Prop} {s : Stream} {f : Exchange S → Exchange S}
    {es : List (Exchange S)} (hf : ∀ e, P e → P (f e)) (h : ∀ e ∈ es, P e) :
    ∀ e ∈ touch s f es, P e := by
  induction es with
  | nil => exact fun e he => nomatch he
  | cons e es ih =>
    have htail : ∀ e' ∈ es, P e' := fun e' he' => h e' (List.mem_cons_of_mem _ he')
    have hhead : P e := h e List.mem_cons_self
    unfold touch
    split
    next => exact List.forall_mem_cons.mpr ⟨hf e hhead, htail⟩
    next => exact List.forall_mem_cons.mpr ⟨hhead, ih htail⟩

/-- A connection is accepted by `accept` only. -/
theorem not_accepted_step {M : Ledger S} {ev : SysEvent S} (hev : ∀ l, ev.1 ≠ .accept l)
    (h : ∀ e ∈ M.exchanges, e.accepted = false) : ∀ e ∈ (M.step ev).exchanges, e.accepted = false := by
  unfold Ledger.step
  split
  next => exact List.forall_mem_cons.mpr ⟨rfl, h⟩
  next l _ => exact absurd rfl (hev l)
  next => exact h
  next => exact h
  next => exact forall_touch (fun _ he => he) h
  next => exact forall_touch (fun _ he => he) h
  next => exact forall_touch (fun _ he => he) h
  next =>
    show ∀ e ∈ touchNewest _ M.exchanges, e.accepted = false
    cases hM : M.exchanges with
    | nil => exact fun e he => nomatch he
    | cons e es =>
      rw [hM] at h
      exact List.forall_mem_cons.mpr (List.forall_mem_cons.mp h)
  all_goals exact h

/-- A client accepts nothing, and neither does who holds a PID file. -/
theorem Role.not_accepted {role : Role} {h : History S} (ht : role.Traces h)
    (hrole : ∀ config, role ≠ .daemon config) : ∀ e ∈ (Ledger.of h).exchanges, e.accepted = false := by
  have hkeep : ∀ {α : Type} {p : Sys S α}, AllCalls (fun op : Op S => ∀ l, op ≠ .accept l) p →
      Prog.Traces p h → ∀ e ∈ (Ledger.of h).exchanges, e.accepted = false := by
    intro α p hp htp
    obtain ⟨q, hq⟩ := htp
    have hspec := Spec.keep (M := Ledger.step) (I := fun M : Ledger S =>
      ∀ e ∈ M.exchanges, e.accepted = false) (s := {}) hp
      (fun M op b hop hM => @not_accepted_step S M ⟨op, b⟩ hop hM) (fun e he => nomatch he)
    exact hspec.always hq
  have hclient : ∀ (c : Client) (op : Op S), ClientOp c op → ∀ l, op ≠ .accept l := by
    intro c op hop l he
    subst he
    rcases hop with h | ⟨_, _, h⟩ | h | ⟨_, _, h⟩
    · exact h
    · exact h
    · cases h
    · cases h
  have hpid : ∀ (path : Path) (op : Op S), PidOp path op → ∀ l, op ≠ .accept l := by
    intro path op hop l he
    subst he
    exact hop
  cases role with
  | daemon config => exact absurd rfl (hrole config)
  | request c payload => exact hkeep (Client.allCalls_request.mono (hclient c)) ht
  | ping c => exact hkeep (Client.allCalls_ping.mono (hclient c)) ht
  | shutdown c => exact hkeep (Client.allCalls_shutdown.mono (hclient c)) ht
  | guard path =>
    refine hkeep ?_ ht
    refine AllCalls.bind (PidGuard.allCalls_claim.mono (hpid path)) fun r => ?_
    cases r with
    | ok guard => exact PidGuard.allCalls_drop.mono (hpid guard.path)
    | error err => trivial

section Runs

variable {role : Nat → Role} {cond : HostConfig S → HostLabel S → Prop} {w₀ : Os}
  {ls : List (HostLabel S)} {c : HostConfig S} {e : Exchange S} {i j : Nat}

/-- What was accepted is in service with a daemon, or was. -/
theorem accepted_inService (hr : Run (host role) cond (.start w₀) ls c)
    (he : e ∈ (ledgers c j).exchanges) (ha : e.accepted = true) :
    ∃ config, role j = .daemon config ∧ InService config.maxPayloadLen e := by
  have ht : (role j).Traces (c.hist j) := hr.behaviour (Role.traces_nil _)
  by_cases hrole : ∃ config, role j = .daemon config
  · obtain ⟨config, hrole⟩ := hrole
    rw [hrole] at ht
    obtain ⟨q, hq⟩ := ht
    exact ⟨config, hrole, (runDaemon_spec.always hq).inService e he ha⟩
  · have hnot := Role.not_accepted ht (fun config h => hrole ⟨config, h⟩) e he
    rw [hnot] at ha
    cases ha

/-- No stream of a host fails like a connect. -/
theorem not_failedLikeConnect (h₀ : w₀.Initial) (hr : Run (host role) cond (.start w₀) ls c)
    (i : Nat) : ¬ FailedLikeConnect (ledgers c i) := by
  intro hfail
  obtain ⟨e, he, err, herr, hm⟩ := hfail
  have hf := faulted_run h₀ hr i e he
  unfold matchesRecoverableConnectError at hm
  rcases List.mem_append.mp herr with h | h
  · rcases hf.read err h with hk | hk <;> rw [hk] at hm <;> cases hm
  · rcases hf.write err h with hk | hk | hk <;> rw [hk] at hm <;> cases hm

/-- The entry of the other end of a connection, when somebody has it. -/
theorem peer_entry (h₀ : w₀.Initial) (hr : Run (host role) cond (.start w₀) ls c)
    (he : e ∈ (ledgers c j).exchanges) (hi : (c.world.ends e.stream.peer).owner = some i) :
    ∃ e' ∈ (ledgers c i).exchanges, e'.stream = e.stream.peer ∧ e.received <+: e'.sent ∧
      e'.received <+: e.sent ∧ (e.accepted = true ↔ e'.accepted = false) := by
  have hagrees := agrees_run h₀ hr
  obtain ⟨e', he', hs⟩ := List.mem_map.mp ((hagrees.owned i _).mp hi)
  have hm := hagrees.agrees j e he
  have hm' := hagrees.agrees i e' he'
  have horder := hagrees.order e.stream
  have horder' := hagrees.order e.stream.peer
  rw [hs] at hm'
  rw [Stream.peer_peer] at horder'
  rw [hm.got, hm'.sent] at horder
  rw [hm'.got, hm.sent] at horder'
  refine ⟨e', he', hs, horder, horder', ?_⟩
  rw [hm.side, ← Bool.not_eq_true, hm'.side, hs]
  show e.stream.side = .server ↔ ¬ e.stream.side.other = .server
  cases e.stream.side with
  | client => exact ⟨fun h => (nomatch h), fun h => absurd rfl h⟩
  | server => exact ⟨fun _ h => (nomatch h), fun _ => rfl⟩

/-- The owner of a connection, and its entry there, are given by its stream. -/
theorem entry_unique (h₀ : w₀.Initial) (hr : Run (host role) cond (.start w₀) ls c)
    {e' : Exchange S} (he : e ∈ (ledgers c i).exchanges) (he' : e' ∈ (ledgers c j).exchanges)
    (hs : e.stream = e'.stream) : i = j ∧ e = e' := by
  have hagrees := agrees_run h₀ hr
  have hi : (c.world.ends e.stream).owner = some i :=
    (hagrees.owned i _).mpr (List.mem_map_of_mem he)
  have hj : (c.world.ends e.stream).owner = some j :=
    (hagrees.owned j _).mpr (hs ▸ List.mem_map_of_mem he')
  rw [hi] at hj
  obtain rfl := Option.some.inj hj
  exact ⟨rfl, List.inj_on_of_nodup_map (hagrees.nodup i) he he' hs⟩

end Runs

/-! ## What is sent and what is read -/

theorem Exact.ne_nil {maxPayloadLen : Nat} {f : Frame} {d : Bytes} (h : Exact maxPayloadLen f d) :
    d ≠ [] := by
  intro hnil
  have hlen := congrArg List.length h.eq_wire
  rw [hnil, length_wire] at hlen
  exact absurd hlen (by simp [headerLen]; omega)

/-- A frame that came out of what was sent is the frame that was sent. -/
theorem Talking.frame_eq {maxPayloadLen : Nat} {f g : Frame} {e : Exchange S} {d : Bytes}
    (h : Talking g e) (hx : Exact maxPayloadLen f d) (hd : d <+: e.sent) : f = g := by
  have hle : f.wire <+: g.wire := hx.eq_wire ▸ hd.trans h.sent_le
  have hfits : g.Fits := by
    refine h.fits.resolve_right fun hnil => hx.ne_nil ?_
    rw [hnil] at hd
    exact List.prefix_nil.mp hd
  obtain ⟨rest, hrest⟩ := hle
  exact (wire_inj hx.fits hfits (r := rest) (s := []) (by rw [hrest, List.append_nil])).1

section Runs

variable {role : Nat → Role} {cond : HostConfig S → HostLabel S → Prop} {w₀ : Os}
  {ls : List (HostLabel S)} {c : HostConfig S} {e' : Exchange S} {i : Nat}

/-- What was received was sent by somebody who had the other end. -/
theorem sent_by (h₀ : w₀.Initial) (hr : Run (host role) cond (.start w₀) ls c)
    (he' : e' ∈ (ledgers c i).exchanges) (hopened : e'.accepted = false) (hne : e'.received ≠ []) :
    ∃ j, ∃ e ∈ (ledgers c j).exchanges, e.accepted = true ∧ e.stream = e'.stream.peer ∧
      (c.world.ends e.stream.peer).owner = some i ∧ e.received <+: e'.sent ∧
        e'.received <+: e.sent := by
  have hagrees := agrees_run h₀ hr
  have horder := hagrees.order e'.stream
  have hsome : ∃ j, (c.world.ends e'.stream.peer).owner = some j := by
    refine Option.ne_none_iff_exists'.mp fun hnone => hne ?_
    rw [(hagrees.unowned _ hnone).1, (hagrees.agrees i e' he').got] at horder
    exact List.prefix_nil.mp horder
  obtain ⟨j, hj⟩ := hsome
  obtain ⟨e, he, hs, hle, hle', hacc⟩ := peer_entry h₀ hr he' hj
  have ha : e.accepted = true := by
    rw [hopened] at hacc
    by_contra hnot
    exact absurd (hacc.mpr (Bool.eq_false_iff.mpr hnot)) (by decide)
  refine ⟨j, e, he, ha, hs, ?_, hle', hle⟩
  rw [hs, Stream.peer_peer]
  exact (hagrees.owned i _).mpr (List.mem_map_of_mem he')

/-- A frame that was read is the reply of a daemon to what it was sent. -/
theorem replied_by (h₀ : w₀.Initial) (hr : Run (host role) cond (.start w₀) ls c)
    (he' : e' ∈ (ledgers c i).exchanges) (hopened : e'.accepted = false) {maxPayloadLen : Nat}
    {g : Frame} (hx : Exact maxPayloadLen g e'.received) :
    ∃ j config f, role j = .daemon config ∧ ∃ e ∈ (ledgers c j).exchanges, e.accepted = true ∧
      e.stream = e'.stream.peer ∧ (c.world.ends e.stream.peer).owner = some i ∧
      Exact config.maxPayloadLen f e.received ∧ e.received <+: e'.sent ∧ Answered f e.calls g := by
  obtain ⟨j, e, he, ha, hs, howner, hle, hle'⟩ := sent_by h₀ hr he' hopened hx.ne_nil
  obtain ⟨config, hrole, hserv⟩ := accepted_inService hr he ha
  have hwire : g.wire <+: e.sent := hx.eq_wire ▸ hle'
  have hne : e.sent ≠ [] := by
    intro hnil
    rw [hnil] at hle'
    exact hx.ne_nil (List.prefix_nil.mp hle')
  cases hserv with
  | waiting hnil _ => exact absurd hnil hne
  | answering f reply hf ha' hsent hfits =>
    obtain ⟨rest, hrest⟩ := hwire.trans hsent
    obtain ⟨rfl, -⟩ := wire_inj hx.fits (hfits.resolve_right hne) (r := rest) (s := [])
      (by rw [hrest, List.append_nil])
    exact ⟨j, config, f, hrole, e, he, ha, hs, howner, hf, hle, ha'⟩

end Runs

end Sockd
