import Sockd.Ends
import Sockd.Keeping
import Sockd.LastLook

/-!
# What a client knows of a daemon that it has shut down

`Client::shutdown` returns `Ok(true)` when it finds no live process named by the PID file
after the acknowledgement. A daemon unlinks its PID file last, after `on_stop`, so this says
that `on_stop` has returned, or that the daemon has ended, as long as nobody else unlinks the
file (`shutdown_completes`). The claim of a second daemon can unlink it
(`returns_before_stop`).
-/

namespace Sockd

open Rust Effects Effects.Prog Effects.System Os

variable {S : Type}

/-! ## Entries that grow -/

/-- The same connection later. -/
structure Exchange.Grown (e e' : Exchange S) : Prop where
  stream : e'.stream = e.stream
  accepted : e'.accepted = e.accepted
  received : e.received <+: e'.received
  sent : e.sent <+: e'.sent

theorem Exchange.Grown.refl (e : Exchange S) : e.Grown e :=
  ⟨rfl, rfl, List.prefix_rfl, List.prefix_rfl⟩

theorem Exchange.Grown.trans {e₁ e₂ e₃ : Exchange S} (h : e₁.Grown e₂) (h' : e₂.Grown e₃) :
    e₁.Grown e₃ where
  stream := h'.stream.trans h.stream
  accepted := h'.accepted.trans h.accepted
  received := h.received.trans h'.received
  sent := h.sent.trans h'.sent

section Entries

variable {L : Ledger S} {e : Exchange S} {es : List (Exchange S)} {f : Exchange S → Exchange S}

theorem grown_self (he : e ∈ es) : ∃ e' ∈ es, e.Grown e' := ⟨e, he, .refl e⟩

theorem grown_touch {s : Stream} (hf : ∀ e : Exchange S, e.Grown (f e)) (he : e ∈ es) :
    ∃ e' ∈ touch s f es, e.Grown e' := by
  induction es with
  | nil => cases he
  | cons e₀ es ih =>
    unfold touch
    split
    next =>
      rcases List.mem_cons.mp he with rfl | he
      · exact ⟨f e, List.mem_cons_self, hf e⟩
      · exact ⟨e, List.mem_cons_of_mem _ he, .refl e⟩
    next =>
      rcases List.mem_cons.mp he with rfl | he
      · exact ⟨e, List.mem_cons_self, .refl e⟩
      · obtain ⟨e', he', hg⟩ := ih he
        exact ⟨e', List.mem_cons_of_mem _ he', hg⟩

theorem grown_touchNewest (hf : ∀ e : Exchange S, e.Grown (f e)) (he : e ∈ es) :
    ∃ e' ∈ touchNewest f es, e.Grown e' := by
  cases es with
  | nil => cases he
  | cons e₀ es =>
    rcases List.mem_cons.mp he with rfl | he
    · exact ⟨f e, List.mem_cons_self, hf e⟩
    · exact ⟨e, List.mem_cons_of_mem _ he, .refl e⟩

theorem grown_step (ev : SysEvent S) (he : e ∈ L.exchanges) :
    ∃ e' ∈ (L.step ev).exchanges, e.Grown e' := by
  unfold Ledger.step
  split
  next => exact ⟨e, List.mem_cons_of_mem _ he, .refl e⟩
  next => exact ⟨e, List.mem_cons_of_mem _ he, .refl e⟩
  next => exact grown_self he
  next => exact grown_self he
  next => exact grown_touch (fun e => ⟨rfl, rfl, List.prefix_rfl, List.prefix_rfl⟩) he
  next => exact grown_touch (fun e => ⟨rfl, rfl, List.prefix_append _ _, List.prefix_rfl⟩) he
  next => exact grown_touch (fun e => ⟨rfl, rfl, List.prefix_rfl, List.prefix_append _ _⟩) he
  next => exact grown_touchNewest (fun e => ⟨rfl, rfl, List.prefix_rfl, List.prefix_rfl⟩) he
  all_goals exact grown_self he

/-- What happens later keeps the entries. -/
theorem grown_append {h : History S} (t : History S) (he : e ∈ (Ledger.of h).exchanges) :
    ∃ e' ∈ (Ledger.of (h ++ t)).exchanges, e.Grown e' := by
  induction t using List.reverseRecOn with
  | nil =>
    rw [List.append_nil]
    exact grown_self he
  | append_singleton t ev ih =>
    obtain ⟨e₁, he₁, hg₁⟩ := ih
    rw [← List.append_assoc, Ledger.of_append]
    obtain ⟨e₂, he₂, hg₂⟩ := grown_step ev he₁
    exact ⟨e₂, he₂, hg₁.trans hg₂⟩

end Entries

/-! ## After the acknowledgement -/

/-- The frame that acknowledges a shutdown. -/
def ackFrame : Frame := ⟨.shutdownAck, 0, []⟩

/-- The connection was accepted, and the acknowledgement was sent on it. -/
def Acknowledged (e : Exchange S) : Prop := e.accepted = true ∧ ackFrame.wire <+: e.sent

theorem Acknowledged.grown {e e' : Exchange S} (h : Acknowledged e) (hg : e.Grown e') :
    Acknowledged e' := ⟨hg.accepted.trans h.1, h.2.trans hg.sent⟩

section Acknowledged

variable {maxPayloadLen : Nat} {e : Exchange S} {f reply : Frame} {calls : List (Call S)}

theorem ackFrame_fits : ackFrame.Fits := Nat.zero_le _

/-- Only a `Shutdown` is acknowledged. -/
theorem Answered.of_ack (h : Answered f calls ackFrame) : f.kind = .shutdown ∧ calls = [] := by
  generalize hreply : ackFrame = reply at h
  cases h with
  | request call hk _ =>
    cases hr : call.result <;> rw [hr] at hreply <;> cases hreply
  | other hk =>
    refine ⟨?_, rfl⟩
    cases hkind : f.kind with
    | shutdown => rfl
    | request => exact absurd hkind hk
    | _ => rw [hkind] at hreply; cases hreply

theorem Answered.eq_ack {g : Frame} (h : Answered f calls g) (hkind : g.kind = .shutdownAck) :
    g = ackFrame := by
  cases h with
  | request call hk _ => cases hr : call.result <;> rw [hr] at hkind <;> cases hkind
  | other hk =>
    cases hf : f.kind with
    | shutdown => rfl
    | request => exact absurd hf hk
    | _ => rw [hf] at hkind; cases hkind

/-- A reply that begins with the acknowledgement is the acknowledgement. -/
theorem reply_eq_ack (hle : e.sent <+: reply.wire) (hfits : reply.Fits ∨ e.sent = [])
    (hack : ackFrame.wire <+: e.sent) : ackFrame = reply := by
  have hne : e.sent ≠ [] := by
    intro hnil
    rw [hnil] at hack
    exact absurd (congrArg List.length (List.prefix_nil.mp hack)) (by decide)
  obtain ⟨rest, hrest⟩ := hack.trans hle
  exact (wire_inj ackFrame_fits (hfits.resolve_right hne) (r := rest) (s := [])
    (by rw [hrest, List.append_nil])).1

theorem InService.calls_of_ack (h : InService maxPayloadLen e) (hack : ackFrame.wire <+: e.sent) :
    e.calls = [] := by
  cases h with
  | waiting _ hcalls => exact hcalls
  | answering f reply _ ha hle hfits =>
    obtain rfl := reply_eq_ack hle hfits hack
    exact ha.of_ack.2

/-- The loop does not go on after it. -/
theorem Served.not_ack (h : Served maxPayloadLen e (.ok .continue)) :
    ¬ ackFrame.wire <+: e.sent := by
  intro hack
  generalize hres : (Except.ok .continue : Except Error ConnectionOutcome) = res at h
  cases h with
  | unread => cases hres
  | refused => cases hres
  | answered f reply r _ ha hsent =>
    obtain rfl := reply_eq_ack hsent.le.1 hsent.le.2 hack
    cases r with
    | error err => cases hres
    | ok u => simp [Except.map, outcomeOf, ha.of_ack.1] at hres

theorem AllServed.not_ack {s₀ s : S} {es : List (Exchange S)} (h : AllServed maxPayloadLen s₀ es s)
    (he : e ∈ es) : ¬ Acknowledged e := fun hack => (h.forall e he).2.not_ack hack.2

theorem Probes.not_ack {ps : List (Exchange S)} (hps : Probes ps) (he : e ∈ ps) :
    ¬ Acknowledged e := by
  intro hack
  have hopened := (hps e he).1
  rw [hack.1] at hopened
  cases hopened

/-- The acknowledged connection is the newest one. -/
theorem Finished.newest_of_ack {s₀ s : S} {es ps : List (Exchange S)}
    (h : Finished maxPayloadLen s₀ es s) (hps : Probes ps) (he : e ∈ es ++ ps)
    (hack : Acknowledged e) : ∃ rest, es ++ ps = e :: rest := by
  have hold : ∀ {es : List (Exchange S)} {s : S}, AllServed maxPayloadLen s₀ es s →
      e ∉ es ++ ps := by
    intro es s hall hmem
    rcases List.mem_append.mp hmem with hmem | hmem
    · exact hall.not_ack hmem hack
    · exact hps.not_ack hmem hack
  cases h with
  | served _ _ hall => exact absurd he (hold hall)
  | last e' es s₁ _ r hall _ _ _ =>
    rcases List.mem_cons.mp he with rfl | he
    · exact ⟨es ++ ps, rfl⟩
    · exact absurd he (hold hall)
  | unready e' es _ err hall _ _ _ _ _ =>
    rcases List.mem_cons.mp he with rfl | he
    · exact ⟨es ++ ps, rfl⟩
    · exact absurd he (hold hall)

theorem RunInv.newest_of_ack {L : Ledger S} (h : RunInv maxPayloadLen L) (he : e ∈ L.exchanges)
    (hack : Acknowledged e) : ∃ rest, L.exchanges = e :: rest := by
  have hover : ∀ {s₀ s : S} {l : List S}, Over maxPayloadLen L s₀ s l →
      ∃ rest, L.exchanges = e :: rest := by
    intro s₀ s l h
    obtain ⟨ps, es, hps, hes, hfin⟩ := h.connections
    rw [hes] at he ⊢
    exact hfin.newest_of_ack hps he hack
  cases h with
  | starting hL =>
    rw [hL] at he
    cases he
  | «over» s₀ s h => exact hover h
  | stopped s₀ s h => exact hover h
  | running s₀ s ps cur es _ _ hps hes hall hcur =>
    have hold : e ∉ es ++ ps := by
      intro hmem
      rcases List.mem_append.mp hmem with hmem | hmem
      · exact hall.not_ack hmem hack
      · exact hps.not_ack hmem hack
    rw [hes] at he ⊢
    rcases List.mem_append.mp he with he | he
    · match cur, hcur with
      | [e'], _ =>
        obtain rfl := List.mem_singleton.mp he
        exact ⟨es ++ ps, rfl⟩
    · exact absurd he hold

end Acknowledged

/-- **No request after the acknowledgement**, in any run of a daemon. -/
theorem no_request_after_ack {config : DaemonConfig} {h t : History S} {e : Exchange S}
    (ht : Traces (runDaemon config : SysTry S Unit).run (h ++ t))
    (he : e ∈ (Ledger.of h).exchanges) (hack : Acknowledged e) : ∀ ev ∈ t, ¬ IsRequest ev := by
  intro ev hev hreq
  obtain ⟨t₁, t₂, rfl⟩ := List.append_of_mem hev
  obtain ⟨s, p, ⟨result, s'⟩, rfl⟩ := hreq
  rw [List.append_cons, ← List.append_assoc, ← List.append_assoc] at ht
  have hinv : ∀ {h' : History S}, Traces (runDaemon config : SysTry S Unit).run h' →
      RunInv config.maxPayloadLen (Ledger.of h') := by
    intro h' ht'
    obtain ⟨q, hq⟩ := ht'
    exact runDaemon_spec.always hq
  -- the connection is the newest one when the callback is called, so it gets the call
  obtain ⟨e₁, he₁, hg₁⟩ := grown_append t₁ he
  have hack₁ := hack.grown hg₁
  obtain ⟨rest, hrest⟩ := (hinv ht.cut.cut).newest_of_ack he₁ hack₁
  have hcalled : (Ledger.of (h ++ t₁ ++ [⟨.onRequest s p, (result, s')⟩])).exchanges =
      { e₁ with calls := e₁.calls ++ [⟨s, p, result, s'⟩] } :: rest := by
    rw [Ledger.of_append]
    show touchNewest _ (Ledger.of (h ++ t₁)).exchanges = _
    rw [hrest]
    rfl
  have hin := (hinv ht.cut).inService { e₁ with calls := e₁.calls ++ [⟨s, p, result, s'⟩] }
    (by rw [hcalled]; exact List.mem_cons_self) hack₁.1
  exact absurd (hin.calls_of_ack hack₁.2) (by simp)

/-! ## The look that ends the wait -/

/-- The looks at a PID file after which no process is taken to live. -/
inductive NotLive (path : Path) : History S → Prop
  | missing (err : IoError) : err.kind = .notFound → NotLive path [⟨.openFile path, .error err⟩]
  | unreadable (f : Nat) (err : IoError) : err.kind = .notFound →
      NotLive path [⟨.openFile path, .ok f⟩, ⟨.readFile f, .error err⟩]
  | malformed (f : Nat) (d : Bytes) : pidOfBytes d = none →
      NotLive path [⟨.openFile path, .ok f⟩, ⟨.readFile f, .ok d⟩]
  | dead (f : Nat) (d : Bytes) (pid : UInt32) (errno : Nat) : pidOfBytes d = some pid →
      errno ≠ EPERM → NotLive path (look path f d pid (.error errno))

section Look

variable {path : Path} {t : History S}

theorem isProcessAlive_false {pid : UInt32}
    (h : Returns (isProcessAlive pid : Sys S Bool) t false) :
    ∃ errno, errno ≠ EPERM ∧ t = [⟨.kill pid.toInt32.toInt, .error errno⟩] := by
  obtain ⟨a, t, rfl, h'⟩ := returns_call_iff.mp h
  cases a with
  | ok u => cases (returns_ret_iff.mp h').2
  | error errno =>
    obtain ⟨rfl, he⟩ := returns_ret_iff.mp h'
    exact ⟨errno, by simpa using he.symm, rfl⟩

theorem readToString_error {err : IoError}
    (h : Returns (Fs.readToString path : SysIo S _).run t (.error err)) :
    t = [⟨.openFile path, .error err⟩] ∨
      (∃ f, t = [⟨.openFile path, .ok f⟩, ⟨.readFile f, .error err⟩]) ∨
      err.kind = .invalidData := by
  rcases Try.returns_bind_iff.mp h with ⟨e, he, hopen⟩ | ⟨u, v, f, rfl, hopen, hrest⟩
  · cases he
    obtain ⟨_, _, rfl, hret⟩ := returns_call_iff.mp hopen
    obtain ⟨rfl, rfl⟩ := returns_ret_iff.mp hret
    exact .inl rfl
  obtain ⟨_, _, rfl, hret⟩ := returns_call_iff.mp hopen
  obtain ⟨rfl, rfl⟩ := returns_ret_iff.mp hret
  rcases Try.returns_bind_iff.mp hrest with ⟨e, he, hread⟩ | ⟨v, w, d, rfl, hread, hlast⟩
  · cases he
    obtain ⟨_, _, rfl, hret⟩ := returns_call_iff.mp hread
    obtain ⟨rfl, rfl⟩ := returns_ret_iff.mp hret
    exact .inr (.inl ⟨f, rfl⟩)
  · split at hlast
    next => cases (returns_ret_iff.mp hlast).2
    next =>
      obtain ⟨-, he⟩ := returns_ret_iff.mp hlast
      cases he
      exact .inr (.inr rfl)

theorem readPid_none (h : Returns (readPid path : SysTry S _).run t (.ok none)) :
    NotLive path t := by
  obtain ⟨u, v, r, rfl, hread, hrest⟩ := Try.returns_bind_ok h
  have htext := Try.returns_attempt_iff.mp hread
  cases r with
  | ok text =>
    obtain ⟨rfl, he⟩ := returns_ret_iff.mp hrest
    injection he with he
    obtain ⟨f, d, hd, rfl⟩ := readToString_ok htext
    refine .malformed f d ?_
    rw [pidOfBytes, hd]
    exact he
  | error err =>
    dsimp only at hrest
    split at hrest
    next hk =>
      obtain ⟨rfl, -⟩ := returns_ret_iff.mp hrest
      rw [List.append_nil]
      rcases readToString_error htext with rfl | ⟨f, rfl⟩ | hinvalid
      · exact .missing err hk
      · exact .unreadable f err hk
      · rw [hinvalid] at hk
        cases hk
    next => cases (returns_ret_iff.mp hrest).2

namespace Client

variable {c : Client}

theorem pidFilePointsToLiveProcess_false (hp : c.pidFile = some path)
    (h : Returns (c.pidFilePointsToLiveProcess : SysTry S Bool).run t (.ok false)) :
    NotLive path t := by
  unfold pidFilePointsToLiveProcess at h
  rw [hp] at h
  obtain ⟨u, v, r, rfl, hread, hrest⟩ := Try.returns_bind_ok h
  cases r with
  | none =>
    obtain ⟨rfl, -⟩ := returns_ret_iff.mp hrest
    rw [List.append_nil]
    exact readPid_none hread
  | some pid =>
    obtain ⟨f, d, hd, rfl⟩ := readPid_some hread
    obtain ⟨errno, hne, rfl⟩ := isProcessAlive_false (Try.returns_lift_iff.mp hrest)
    exact .dead f d pid errno hd hne

/-- Where the socket file was found gone, the PID file was looked at last. -/
theorem shutdownComplete_true (hp : c.pidFile = some path)
    (h : Returns (c.shutdownComplete : SysTry S Bool).run t (.ok true)) :
    ∃ t₁ t₂, t = t₁ ++ t₂ ∧ NotLive path t₂ := by
  obtain ⟨u, v, gone, rfl, -, hrest⟩ := Try.returns_bind_ok h
  cases gone with
  | false => cases (returns_ret_iff.mp hrest).2
  | true =>
    obtain ⟨v, w, live, rfl, hlook, hlast⟩ := Try.returns_bind_ok hrest
    obtain ⟨rfl, hlive⟩ := returns_ret_iff.mp hlast
    injection hlive with hlive
    obtain rfl : live = false := by cases live <;> cases hlive; rfl
    rw [List.append_nil]
    exact ⟨u, v, rfl, pidFilePointsToLiveProcess_false hp hlook⟩

theorem waitForShutdown_ok (hp : c.pidFile = some path)
    (h : Returns (c.waitForShutdown : SysTry S Unit).run t (.ok ())) :
    ∃ t₁ t₂, t = t₁ ++ t₂ ∧ NotLive path t₂ := by
  obtain ⟨u, v, start, rfl, -, hrest⟩ := Try.returns_bind_ok h
  obtain ⟨v, w, deadline, rfl, -, hloop⟩ := Try.returns_bind_ok hrest
  obtain ⟨w, x, _, rfl, hround⟩ := Spec.returns_repeating_ok hloop
  obtain ⟨x, y, complete, rfl, hcomplete, hlast⟩ := Try.returns_bind_ok hround
  cases complete with
  | true =>
    obtain ⟨x, z, rfl, hlook⟩ := shutdownComplete_true hp hcomplete
    obtain ⟨rfl, -⟩ := returns_ret_iff.mp hlast
    exact ⟨u ++ (v ++ (w ++ x)), z, by simp only [List.append_assoc, List.append_nil], hlook⟩
  | false =>
    -- the round went on, or failed
    obtain ⟨y, z, now, rfl, -, hlast⟩ := Try.returns_bind_ok hlast
    rw [Try.run_ite] at hlast
    split at hlast
    next =>
      obtain ⟨z, _, _, rfl, -, hlast⟩ := Try.returns_bind_ok hlast
      cases (returns_ret_iff.mp hlast).2
    next => cases (returns_ret_iff.mp hlast).2

theorem shutdownAckOf_ok {g : Frame} (h : shutdownAckOf g = .ok ()) : g.kind = .shutdownAck := by
  unfold shutdownAckOf at h
  split at h
  next hk => exact hk
  next => cases h
  next => cases h

/-- The wait is no conversation. -/
theorem exchanges_waits {M : Ledger S} (h : ∀ ev ∈ t, WaitOp c ev.1) :
    (t.foldl Ledger.step M).exchanges = M.exchanges := by
  induction t generalizing M with
  | nil => rfl
  | cons ev t ih =>
    rw [List.foldl_cons, ih fun ev' hev => h ev' (List.mem_cons_of_mem _ hev)]
    exact (h ev List.mem_cons_self).step

/-- A call that returns `Ok(true)` has read an acknowledgement, and then looked at the PID
file. -/
theorem shutdown_true (hp : c.pidFile = some path)
    (h : Returns (c.shutdown : SysTry S Bool).run t (.ok true)) :
    ∃ t₁ t₂ t₃ e g, t = t₁ ++ (t₂ ++ t₃) ∧ (Ledger.of t₁).exchanges = [e] ∧
      Talked c.maxPayloadLen shutdownFrame e (.ok g) ∧ g.kind = .shutdownAck ∧ NotLive path t₂ := by
  obtain ⟨u, v, connected, rfl, hconnect, hrest⟩ := Try.returns_bind_ok h
  obtain ⟨a, _, rfl, hret⟩ := returns_call_iff.mp (Try.returns_attempt_iff.mp hconnect)
  obtain ⟨rfl, rfl⟩ := returns_ret_iff.mp hret
  cases a with
  | error err =>
    obtain ⟨v, w, notRunning, rfl, -, hlast⟩ := Try.returns_bind_ok hrest
    rw [Try.run_ite] at hlast
    split at hlast <;> cases (returns_ret_iff.mp hlast).2
  | ok stream =>
    obtain ⟨v, w, r, rfl, htalk, hclose⟩ := returns_bind_iff.mp hrest
    obtain ⟨closed, _, rfl, hclosed⟩ := returns_call_iff.mp hclose
    obtain ⟨rfl, rfl⟩ := returns_ret_iff.mp hclosed
    obtain ⟨v, w, g, rfl, htrip, hrest⟩ := Try.returns_bind_ok htalk
    obtain ⟨_, w, _, rfl, hof, hwait⟩ := Try.returns_bind_ok hrest
    obtain ⟨rfl, hack⟩ := returns_ret_iff.mp hof
    obtain ⟨w, x, _, rfl, hwaited, hlast⟩ := Try.returns_bind_ok hwait
    obtain ⟨rfl, -⟩ := returns_ret_iff.mp hlast
    obtain ⟨w, x, rfl, hlook⟩ := waitForShutdown_ok hp hwaited
    -- what is known of the connection when the reply has been read, and does not change
    have hnew : Newest {} [] (fun e => Talked c.maxPayloadLen shutdownFrame e (.ok g))
        (v.foldl Ledger.step (Ledger.withExchanges {} [{ stream := stream, accepted := false }])) :=
      (roundTrip_spec rfl rfl rfl rfl rfl shutdownFrame rfl).returns htrip
    obtain ⟨e, he, htalked⟩ := hnew
    have hwaits : ∀ ev ∈ w, WaitOp c ev.1 := fun ev hev =>
      allCalls_waitForShutdown.traces hwaited.traces ev (List.mem_append_left _ hev)
    refine ⟨⟨.connect c.socketPath, .ok stream⟩ :: (v ++ w), x, [⟨.closeStream stream, closed⟩],
      e, g, by simp only [List.append_assoc, List.append_nil, List.nil_append, List.cons_append], ?_,
      htalked, shutdownAckOf_ok hack, hlook⟩
    show ((v ++ w).foldl Ledger.step (Ledger.withExchanges {} _)).exchanges = [e]
    rw [List.foldl_append, exchanges_waits hwaits, he]
    rfl

end Client

end Look

/-! ## In a run -/

section Runs

variable {role : Nat → Role} {cond : HostConfig S → HostLabel S → Prop} {w₀ : Os}
  {ls ls' : List (HostLabel S)} {c c' : HostConfig S} {config : DaemonConfig} {path : Path}
  {d i : Nat}

/-- The process table stays in order. -/
theorem Os.table_run (h₀ : w₀.Initial) (hr : Run (host role) cond (.start w₀) ls c) :
    c.world.Table := by
  refine hr.inv (I := fun c => c.world.Table) h₀.table ?_
  intro c l c' h hs _ _
  cases l with
  | outside o => exact h.outside (step_outside.mp hs).1
  | act j ev =>
    obtain ⟨-, -, hw⟩ := act_eq_some.mp (step_act.mp hs).1
    rw [hw]
    exact h.after j ev

/-- Who runs and was there before ran then, with the same pid. -/
theorem running_before (hr : Run (host role) cond c' ls c)
    (hthere : (c'.world.procs d).status ≠ .absent) (hrun : c.world.Running d) :
    c'.world.Running d ∧ (c.world.procs d).pid = (c'.world.procs d).pid := by
  have hinv := hr.inv (I := fun c => (c.world.procs d).status ≠ .absent ∧ (c.world.Running d →
    c'.world.Running d ∧ (c.world.procs d).pid = (c'.world.procs d).pid))
    ⟨hthere, fun h => ⟨h, rfl⟩⟩ ?_
  · exact hinv.2 hrun
  intro c₁ l c₂ h hs _ _
  cases l with
  | outside o =>
    obtain ⟨ho, -⟩ := step_outside.mp hs
    refine ⟨not_absent_of_outside ho h.1, fun hrun₂ => ?_⟩
    obtain ⟨hrun₁, hpid⟩ := running_of_outside ho hrun₂ h.1
    exact ⟨(h.2 hrun₁).1, hpid.trans (h.2 hrun₁).2⟩
  | act j ev =>
    obtain ⟨-, -, hw⟩ := act_eq_some.mp (step_act.mp hs).1
    rw [hw, procs_after, running_after]
    exact h

/-- The daemon has ended, or it has called `on_stop` and let go of its PID file. -/
def LetGo (path : Path) (c : HostConfig S) (d : Nat) : Prop :=
  ¬ c.world.Running d ∨ (keeper path c d).Released

theorem keeper_run (hr : Run (host role) cond c' ls c) :
    keeper path c d = (ls.filterMap (Label.of? d)).foldl (Keeper.step path) (keeper path c' d) := by
  rw [keeper, Keeper.of, hr.hist d, List.foldl_append]
  rfl

theorem accepting_later (hr : Run (host role) cond c' ls c)
    (hacc : (keeper path c' d).accepting = true) : (keeper path c d).accepting = true := by
  rw [keeper_run hr]
  exact Keeper.foldl_keeps (P := fun m => m.accepting = true) Keeper.accepting_step hacc

/-- Whoever has accepted a connection holds the same file later, or none. -/
theorem held_later (hr : Run (host role) cond c' ls c)
    (hacc : (keeper path c' d).accepting = true) :
    (keeper path c d).held = none ∨
      (keeper path c d).held.map Prod.fst = (keeper path c' d).held.map Prod.fst := by
  rw [keeper_run hr]
  exact Keeper.held_foldl hacc

/-- What has been let go stays so. -/
theorem released_later (hr : Run (host role) cond c' ls c)
    (hacc : (keeper path c' d).accepting = true) (h : (keeper path c' d).Released) :
    (keeper path c d).Released := by
  refine ⟨?_, ?_⟩
  · rcases held_later hr hacc with hnone | hsame
    · exact hnone
    · rw [h.1, Option.map_none] at hsame
      exact Option.map_eq_none_iff.mp hsame
  · rw [keeper_run hr]
    exact Keeper.foldl_keeps (P := fun m => m.stopped = true) Keeper.stopped_step h.2

/-- A daemon that has not let go in the end ran and held its file at every moment before, once
it had accepted a connection. -/
theorem holds_before (h₀ : w₀.Initial) (hrole : role d = .daemon config)
    (hp : config.pidFile = some path)
    (hr' : Run (host role) (fun c l => ¬ ForeignUnlink path c l) (.start w₀) ls' c')
    (hr : Run (host role) (fun c l => ¬ ForeignUnlink path c l) c' ls c)
    (hacc : (keeper path c' d).accepting = true) (hend : ¬ LetGo path c d) :
    c'.world.Running d ∧ (keeper path c' d).Holds ∧ Kept path d c'.world (keeper path c' d) := by
  obtain ⟨hfresh, hkept⟩ := kept_run h₀ hrole hp hr'
  rw [LetGo, not_or, not_not] at hend
  have hthere : (c'.world.procs d).status ≠ .absent := by
    intro habs
    rw [keeper, hfresh d habs] at hacc
    cases hacc
  refine ⟨(running_before hr hthere hend.1).1, ?_, hkept⟩
  have hsound := keeper_sound hrole hp (hr'.behaviour (Role.traces_nil _))
  rcases hsound with hlost | ⟨-, hstands⟩
  · rw [hkept.lost] at hlost
    cases hlost
  · exact (hstands hacc).resolve_right fun h => hend.2 (released_later hr hacc h)

/-- A call of the process `i` in a run that goes on to `c`: the moment before it, when the
daemon `d` had accepted a connection, and the moment after it. -/
structure Moment (role : Nat → Role) (path : Path) (w₀ : Os) (d i : Nat) (ev : SysEvent S)
    (c₁ c₂ c : HostConfig S) : Prop where
  before : ∃ ls, Run (host role) (fun c l => ¬ ForeignUnlink path c l) (.start w₀) ls c₁
  step : c₁.world.act i ev = some c₂.world
  whole : ∃ ls, Run (host role) (fun c l => ¬ ForeignUnlink path c l) c₁ ls c₂
  later : ∃ ls, Run (host role) (fun c l => ¬ ForeignUnlink path c l) c₂ ls c
  accepting : (keeper path c₁ d).accepting = true

namespace Moment

variable {ev ev' : SysEvent S} {h : History S} {c₁ c₂ : HostConfig S}

theorem of_hist (hr' : Run (host role) (fun c l => ¬ ForeignUnlink path c l) (.start w₀) ls' c')
    (hr : Run (host role) (fun c l => ¬ ForeignUnlink path c l) c' ls c)
    (hacc : (keeper path c' d).accepting = true) (hh : c.hist i = c'.hist i ++ ev :: h) :
    ∃ c₁ c₂, Moment role path w₀ d i ev c₁ c₂ c ∧ c.hist i = c₂.hist i ++ h ∧
      ∃ ls, Run (host role) (fun c l => ¬ ForeignUnlink path c l) c' ls c₁ := by
  have hsplit : c.hist i = c'.hist i ++ ([] ++ ev :: h) := hh
  obtain ⟨ls₁, ls₂, c₁, c₂, -, hr₁, hh₁, hs, hr₂, hlast⟩ := hr.moment hsplit
  refine ⟨c₁, c₂, ⟨⟨_, hr'.append hr₁⟩, (step_act.mp hs).1, ⟨_, hr₂⟩, ⟨_, hlast⟩,
    accepting_later hr₁ hacc⟩, ?_, _, hr₁⟩
  rw [hist_act_self hs, hh₁, List.append_nil, hh, List.append_assoc]
  rfl

/-- The next call. -/
theorem next (m : Moment role path w₀ d i ev c₁ c₂ c) (hh : c.hist i = c₂.hist i ++ ev' :: h) :
    ∃ c₃ c₄, Moment role path w₀ d i ev' c₃ c₄ c ∧ c.hist i = c₄.hist i ++ h ∧
      ∃ ls, Run (host role) (fun c l => ¬ ForeignUnlink path c l) c₁ ls c₃ := by
  obtain ⟨ls₁, hr₁⟩ := m.before
  obtain ⟨ls₂, hr₂⟩ := m.whole
  obtain ⟨ls₃, hr₃⟩ := m.later
  obtain ⟨c₃, c₄, m', hh', ls, hr⟩ :=
    of_hist (hr₁.append hr₂) hr₃ (accepting_later hr₂ m.accepting) hh
  exact ⟨c₃, c₄, m', hh', _, hr₂.append hr⟩

/-- A daemon that has not let go in the end runs then, and holds its file. -/
theorem holds (m : Moment role path w₀ d i ev c₁ c₂ c) (h₀ : w₀.Initial)
    (hrole : role d = .daemon config) (hp : config.pidFile = some path) (hend : ¬ LetGo path c d) :
    c₁.world.Running d ∧ (keeper path c₁ d).Holds ∧ Kept path d c₁.world (keeper path c₁ d) := by
  obtain ⟨ls₁, hr₁⟩ := m.before
  obtain ⟨ls₂, hr₂⟩ := m.whole
  obtain ⟨ls₃, hr₃⟩ := m.later
  exact holds_before h₀ hrole hp hr₁ (hr₂.append hr₃) m.accepting hend

/-- The path names its file then, so the file is found, and no other one. -/
theorem opens {a : Except IoError Nat} (m : Moment role path w₀ d i ⟨.openFile path, a⟩ c₁ c₂ c)
    (h₀ : w₀.Initial) (hrole : role d = .daemon config) (hp : config.pidFile = some path)
    (hend : ¬ LetGo path c d) : (∀ err, a = .error err → err.kind ≠ .notFound) ∧
      ∀ f, a = .ok f → (keeper path c₁ d).held.map Prod.fst = some f := by
  obtain ⟨hrun, ⟨f, pid, -, hheld⟩, hkept⟩ := m.holds h₀ hrole hp hend
  have hnamed := hkept.named hrun f _ hheld
  obtain ⟨-, hok, -⟩ := act_eq_some.mp m.step
  refine ⟨?_, ?_⟩
  · rintro err rfl hkind
    have hans : isSpuriousKind err.kind = true ∨
        c₁.world.answers i (⟨.openFile path, .error err⟩ : SysEvent S) = true := hok
    rw [hkind] at hans
    have hans := hans.resolve_left (by decide)
    simp only [answers, hnamed] at hans
    cases hans
  · rintro f' rfl
    have hans : (c₁.world.nodes path == some (.file f')) = true :=
      hok.resolve_left Bool.false_ne_true
    rw [hnamed, beq_iff_eq] at hans
    cases hans
    rw [hheld]
    rfl

/-- What is read of it is the daemon's pid. -/
theorem reads {f : Nat} {a : Except IoError Bytes}
    (m : Moment role path w₀ d i ⟨.readFile f, a⟩ c₁ c₂ c) (h₀ : w₀.Initial)
    (hrole : role d = .daemon config) (hp : config.pidFile = some path) (hend : ¬ LetGo path c d)
    (hf : ∀ g, (keeper path c₁ d).held.map Prod.fst = some g → g = f) :
    (∀ err, a = .error err → err.kind ≠ .notFound) ∧
      ∀ x, a = .ok x → pidOfBytes x = some (c₁.world.procs d).pid := by
  obtain ⟨hrun, ⟨g, pid, hpid, hheld⟩, hkept⟩ := m.holds h₀ hrole hp hend
  obtain rfl : g = f := hf g (by rw [hheld]; rfl)
  obtain ⟨-, hok, -⟩ := act_eq_some.mp m.step
  refine ⟨?_, ?_⟩
  · rintro err rfl hkind
    have hans : isSpuriousKind err.kind = true ∨
        c₁.world.answers i (⟨.readFile g, .error err⟩ : SysEvent S) = true := hok
    rw [hkind] at hans
    cases hans.resolve_left (by decide)
  · rintro x rfl
    have hans : (decide (g < c₁.world.nextFile) && (c₁.world.inodes g).content == x) = true :=
      hok.resolve_left Bool.false_ne_true
    rw [Bool.and_eq_true, beq_iff_eq, (hkept.held g _ hheld).2] at hans
    rw [← hans.2, hkept.pid hrun pid hpid]
    exact pidOfBytes_pidDigits pid

/-- And the probe finds the daemon. -/
theorem probes {pid : UInt32} {errno : Nat}
    (m : Moment role path w₀ d i ⟨.kill pid.toInt32.toInt, .error errno⟩ c₁ c₂ c)
    (h₀ : w₀.Initial) (hrole : role d = .daemon config) (hp : config.pidFile = some path)
    (hend : ¬ LetGo path c d) (hpid : pid = (c₁.world.procs d).pid) : errno = EPERM := by
  obtain ⟨hrun, -, -⟩ := m.holds h₀ hrole hp hend
  obtain ⟨ls, hr⟩ := m.before
  have hlive := (Os.table_run h₀ hr).live hrun
  rw [← hpid] at hlive
  obtain ⟨-, hok, -⟩ := act_eq_some.mp m.step
  have hans : c₁.world.killAnswer pid.toInt32.toInt (.error errno) = true :=
    hok.resolve_left Bool.false_ne_true
  have hpos : 0 < pid.toInt32.toInt := by
    rw [Os.live, Bool.and_eq_true, decide_eq_true_eq] at hlive
    exact hlive.1
  simp only [killAnswer, hlive, if_true, Bool.or_eq_true, decide_eq_true_eq] at hans
  omega

end Moment

/-- **A look that finds nobody alive**, after the daemon has accepted a connection: the daemon
has let go of its PID file. -/
theorem letGo_of_notLive {look h : History S} (hlook : NotLive path look) (h₀ : w₀.Initial)
    (hrole : role d = .daemon config) (hp : config.pidFile = some path)
    (hr' : Run (host role) (fun c l => ¬ ForeignUnlink path c l) (.start w₀) ls' c')
    (hr : Run (host role) (fun c l => ¬ ForeignUnlink path c l) c' ls c)
    (hacc : (keeper path c' d).accepting = true) (hh : c.hist i = c'.hist i ++ (look ++ h)) :
    LetGo path c d := by
  by_contra hend
  -- the file that was opened is the one that is read
  have same : ∀ {ev : SysEvent S} {c₁ c₂ c₃ : HostConfig S} {f : Nat} {ls : List (HostLabel S)},
      Moment role path w₀ d i ev c₁ c₂ c → Run (host role)
        (fun c l => ¬ ForeignUnlink path c l) c₁ ls c₃ →
      (keeper path c₁ d).held.map Prod.fst = some f →
      ∀ g, (keeper path c₃ d).held.map Prod.fst = some g → g = f := by
    intro ev c₁ c₂ c₃ f ls m hr₁ hf g hg
    rcases held_later hr₁ m.accepting with hnone | hsame
    · rw [hnone] at hg
      cases hg
    · rw [hsame, hf] at hg
      exact (Option.some.inj hg).symm
  cases hlook with
  | missing err hkind =>
    obtain ⟨c₁, c₂, m, -⟩ := Moment.of_hist hr' hr hacc hh
    exact (m.opens h₀ hrole hp hend).1 err rfl hkind
  | unreadable f err hkind =>
    obtain ⟨c₁, c₂, m, hh₂, -⟩ := Moment.of_hist hr' hr hacc hh
    obtain ⟨c₃, c₄, m', -, ls₃, hr₃⟩ := m.next hh₂
    have hf := same m hr₃ ((m.opens h₀ hrole hp hend).2 f rfl)
    exact (m'.reads h₀ hrole hp hend hf).1 err rfl hkind
  | malformed f x hx =>
    obtain ⟨c₁, c₂, m, hh₂, -⟩ := Moment.of_hist hr' hr hacc hh
    obtain ⟨c₃, c₄, m', -, ls₃, hr₃⟩ := m.next hh₂
    have hf := same m hr₃ ((m.opens h₀ hrole hp hend).2 f rfl)
    rw [(m'.reads h₀ hrole hp hend hf).2 x rfl] at hx
    cases hx
  | dead f x pid errno hx hne =>
    obtain ⟨c₁, c₂, m, hh₂, -⟩ := Moment.of_hist hr' hr hacc hh
    obtain ⟨c₃, c₄, m', hh₄, ls₃, hr₃⟩ := m.next hh₂
    have hf := same m hr₃ ((m.opens h₀ hrole hp hend).2 f rfl)
    have hread := (m'.reads h₀ hrole hp hend hf).2 x rfl
    rw [hx] at hread
    obtain ⟨c₅, c₆, m'', -, ls₅, hr₅⟩ := m'.next hh₄
    refine hne (m''.probes h₀ hrole hp hend ?_)
    have hthere : (c₃.world.procs d).status ≠ .absent := by
      rw [show (c₃.world.procs d).status = .running from (m'.holds h₀ hrole hp hend).1]
      decide
    rw [Option.some.inj hread]
    exact (running_before hr₅ hthere (m''.holds h₀ hrole hp hend).1).2.symm

/-- The daemon `d` has acknowledged the shutdown that the process `i` asked for. -/
def AcknowledgedTo (c : HostConfig S) (d i : Nat) : Prop :=
  ∃ e ∈ (ledgers c d).exchanges, Acknowledged e ∧ (c.world.ends e.stream.peer).owner = some i

/-- The process has ended, or its `on_stop` has returned and its PID file is gone. -/
def Exited (path : Path) (c : HostConfig S) (d : Nat) : Prop :=
  ¬ c.world.Running d ∨ (∃ s r, ⟨.onStop s, r⟩ ∈ c.hist d) ∧
    ∀ f, c.world.nodes path = some (.file f) → (c.world.inodes f).creator ≠ some d

/-- No request is handled after an acknowledgement. -/
def Quiet (h : History S) : Prop :=
  ∀ t₁ t₂, h = t₁ ++ t₂ → (∃ e ∈ (Ledger.of t₁).exchanges, Acknowledged e) →
    ∀ ev ∈ t₂, ¬ IsRequest ev

theorem LetGo.exited (h : LetGo path c d) (hkept : Kept path d c.world (keeper path c d)) :
    Exited path c d := by
  refine h.imp id fun hreleased => ⟨Keeper.mem_of_stopped hreleased.2, fun f hf hc => ?_⟩
  obtain ⟨x, hx⟩ := hkept.own f hf hc
  rw [hreleased.1] at hx
  cases hx

theorem quiet_run (hrole : role d = .daemon config)
    (hr : Run (host role) cond (.start w₀) ls c) : Quiet (c.hist d) := by
  rintro t₁ t₂ hh ⟨e, he, hack⟩
  have ht : (role d).Traces (c.hist d) := hr.behaviour (Role.traces_nil _)
  rw [hrole, hh] at ht
  exact no_request_after_ack ht he hack

/-- Whose connection was accepted. -/
theorem accepting_of_entry {e : Exchange S} (h₀ : w₀.Initial)
    (hr : Run (host role) cond (.start w₀) ls c) (he : e ∈ (ledgers c d).exchanges)
    (ha : e.accepted = true) : (keeper path c d).accepting = true := by
  have hagrees := agrees_run h₀ hr
  have howner := (hagrees.owned d e.stream).mpr (List.mem_map_of_mem he)
  have hside := (hagrees.agrees d e he).side.mp ha
  obtain ⟨⟨n, side⟩, accepted, received, sent, readFaults, writeFaults, calls⟩ := e
  obtain rfl : side = .server := hside
  obtain ⟨l, hl⟩ := accepted_by h₀ hr howner
  exact Keeper.accepting_of_mem hl

/-- The reply that a client has read is an acknowledgement that a daemon has sent. -/
theorem acknowledged_by {e : Exchange S} {g : Frame} {maxPayloadLen : Nat} (h₀ : w₀.Initial)
    (hr : Run (host role) cond (.start w₀) ls c) (he : e ∈ (ledgers c i).exchanges)
    (hopened : e.accepted = false) (hx : Exact maxPayloadLen g e.received)
    (hkind : g.kind = .shutdownAck) :
    ∃ d config, role d = .daemon config ∧
      ∃ e' ∈ (ledgers c d).exchanges, Acknowledged e' ∧ e'.stream = e.stream.peer := by
  obtain ⟨d, config, f, hrole, e', he', ha, hs, -, -, -, hanswered⟩ := replied_by h₀ hr he hopened hx
  have hagrees := agrees_run h₀ hr
  have horder := hagrees.order e.stream
  rw [(hagrees.agrees i e he).got, ← hs, (hagrees.agrees d e' he').sent, hx.eq_wire,
    hanswered.eq_ack hkind] at horder
  exact ⟨d, config, hrole, e', he', ⟨ha, horder⟩, hs⟩

/-- **`Client::shutdown` returns `Ok(true)`** only after the daemon that has acknowledged it
has left, in a run in which nobody unlinks the PID file of another running process. -/
theorem shutdown_completes (role : Nat → Role) (path : Path) (w₀ : Os) (ls : List (HostLabel S))
    (c : HostConfig S) (i : Nat) (client : Client) (h₀ : w₀.Initial)
    (hp : client.pidFile = some path)
    (hr : Run (host role) (fun c l => ¬ ForeignUnlink path c l) (.start w₀) ls c)
    (hret : Returns (client.shutdown : SysTry S Bool).run (c.hist i) (.ok true)) :
    ∃ d config, role d = .daemon config ∧ AcknowledgedTo c d i ∧
      (config.pidFile = some path → Exited path c d) ∧ Quiet (c.hist d) := by
  obtain ⟨t₁, t₂, t₃, e, g, hh, he, htalked, hkind, hlook⟩ := Client.shutdown_true hp hret
  obtain ⟨ev, look, rfl⟩ : ∃ ev look, t₂ = ev :: look := by
    cases hlook <;> exact ⟨_, _, rfl⟩
  -- when the look begins, the acknowledgement has been read
  obtain ⟨ls₁, ls₂, c₁, c₂, -, hr₁, hh₁, -, hr₂, hlast⟩ := hr.moment hh
  have he₁ : e ∈ (ledgers c₁ i).exchanges := by
    rw [ledgers, hh₁]
    show e ∈ (Ledger.of t₁).exchanges
    rw [he]
    exact List.mem_singleton_self e
  have hx : Exact client.maxPayloadLen g e.received := by
    have houtcome := htalked.outcome
    generalize hres : (Except.ok g : Except Error Frame) = res at houtcome
    cases houtcome with
    | replied g' _ hx =>
      cases hres
      exact hx
    | _ => cases hres
  obtain ⟨d, config, hrole, e', he', hack, hs⟩ :=
    acknowledged_by h₀ hr₁ he₁ htalked.talking.opened hx hkind
  have hr' := hr₂.append hlast
  refine ⟨d, config, hrole, ?_, fun hpid => ?_, quiet_run hrole hr⟩
  · have hd := hr'.hist d
    have hi := hr'.hist i
    obtain ⟨e₂, he₂, hg₂⟩ := grown_append (([Label.act i ev] ++ ls₂).filterMap (Label.of? d)) he'
    obtain ⟨e₃, he₃, hg₃⟩ := grown_append (([Label.act i ev] ++ ls₂).filterMap (Label.of? i)) he₁
    rw [← hd] at he₂
    rw [← hi] at he₃
    refine ⟨e₂, he₂, hack.grown hg₂, ?_⟩
    rw [hg₂.stream, hs, Stream.peer_peer, ← hg₃.stream]
    exact ((agrees_run h₀ hr).owned i _).mpr (List.mem_map_of_mem he₃)
  · have hacc : (keeper path c₁ d).accepting = true := accepting_of_entry h₀ hr₁ he' hack.1
    have hsplit : c.hist i = c₁.hist i ++ (ev :: look ++ t₃) := by
      rw [hh, hh₁]
      rfl
    have hgone := letGo_of_notLive hlook h₀ hrole hpid hr₁ hr' hacc hsplit
    exact hgone.exited (kept_run h₀ hrole hpid hr).2

end Runs

/-! ## Two shutdowns -/

/-- The daemon of every process but the last, and the client. -/
def shutdownRole (last : Nat) (i : Nat) : Role :=
  if i = last then .shutdown { socketPath := sockPath, pidFile := some pidPath }
  else .daemon { pidFile := some pidPath }

/-- No daemon is started once the client is. -/
def NoDaemonStarts (role : Nat → Role) (i : Nat) (c : HostConfig S) (l : HostLabel S) : Prop :=
  ∀ j pid config, l = .outside (.start j pid) → role j = .daemon config →
    (c.world.procs i).status = .absent

/-- The client asks. -/
def asksShutdown : History Unit :=
  [⟨.connect sockPath, .ok ⟨0, .client⟩⟩,
    ⟨.write ⟨0, .client⟩ shutdownFrame.wire, .ok ⟨12, by decide⟩⟩]

/-- The daemon acknowledges, and removes its socket. -/
def acknowledges : History Unit :=
  acceptsFirst ++ [⟨.streamNonblocking ⟨0, .server⟩ false, .ok ()⟩, ⟨.now, noon⟩,
    ⟨.read ⟨0, .server⟩ 12, .ok ⟨shutdownFrame.wire, by decide⟩⟩,
    ⟨.write ⟨0, .server⟩ ackFrame.wire, .ok ⟨12, by decide⟩⟩, ⟨.closeStream ⟨0, .server⟩, ()⟩,
    ⟨.closeListener 0, ()⟩, ⟨.removeFile sockPath, .ok ()⟩]

/-- The client reads the acknowledgement, and finds neither the socket nor the PID file. -/
def hasLeft : History Unit :=
  [⟨.read ⟨0, .client⟩ 12, .ok ⟨ackFrame.wire, by decide⟩⟩, ⟨.now, noon⟩,
    ⟨.metadata sockPath, .error ⟨.notFound, ""⟩⟩, ⟨.openFile pidPath, .error ⟨.notFound, ""⟩⟩,
    ⟨.closeStream ⟨0, .client⟩, ()⟩]

/-- The second daemon removes the PID file of the first, and fails. -/
def snatches : History Unit :=
  takes 2 101 ++ [⟨.onStart, .error "no database"⟩, ⟨.removeFile pidPath, .ok ()⟩]

/-- A daemon serves without its PID file, and is shut down. -/
def snatchedSchedule : List (HostLabel Unit) :=
  [.outside (.start 0 100), .outside (.start 1 101)] ++
    (installsFlag ++ looks 0 7 (.error ESRCH)).map (.act 1) ++
    (installsFlag ++ looks 0 7 (.error ESRCH) ++ takes 1 100 ++ serves).map (.act 0) ++
    snatches.map (.act 1) ++ [.outside (.start 2 102)] ++ asksShutdown.map (.act 2) ++
    acknowledges.map (.act 0) ++ hasLeft.map (.act 2)

/-- The client is the last to be started. -/
def startsFirst (c : HostConfig Unit) : HostLabel Unit → Bool
  | .outside (.start j _) => j == 2 || decide ((c.world.procs 2).status = .absent)
  | _ => true

/-- The client is told that the daemon has shut down before `on_stop` is called. -/
theorem returns_before_stop :
    ¬ ∀ (role : Nat → Role) (path : Path) (w₀ : Os) (ls : List (HostLabel Unit))
      (c : HostConfig Unit) (i : Nat) (client : Client), w₀.Initial →
        client.pidFile = some path →
        Run (host role) (NoDaemonStarts role i) (.start w₀) ls c →
        Returns (client.shutdown : SysTry Unit Bool).run (c.hist i) (.ok true) →
          ∃ d config, role d = .daemon config ∧ AcknowledgedTo c d i ∧
            (config.pidFile = some path → Exited path c d) ∧ Quiet (c.hist d) := by
  intro hclaim
  have hplay : ((host (shutdownRole 2)).play startsFirst (.start staleHost) snatchedSchedule).map
      (fun c => decide (c.world.Running 0)) = some true := by decide +kernel
  obtain ⟨c, hc, hrunning⟩ := Option.map_eq_some_iff.mp hplay
  have hret : Returns (Client.shutdown { socketPath := sockPath, pidFile := some pidPath } :
      SysTry Unit Bool).run (snatchedSchedule.filterMap (Label.of? 2)) (.ok true) :=
    returns_of_follow 60 (by rfl)
  have hrun : Run (host (shutdownRole 2)) (fun c l => startsFirst c l = true) (.start staleHost)
      snatchedSchedule c := by
    refine run_of_play hc fun i => ?_
    rcases i with _ | _ | _ | i
    · exact traces_of_follow 60 (by rfl)
    · exact traces_of_follow 60 (by rfl)
    · exact hret.traces
    · exact Role.traces_nil _
  have hstarts := hrun.mono fun c l hok => show NoDaemonStarts (shutdownRole 2) 2 c l from by
    rintro j pid config rfl hj
    rcases Bool.or_eq_true_iff.mp hok with htwo | habsent
    · rw [beq_iff_eq.mp htwo] at hj
      cases hj
    · exact of_decide_eq_true habsent
  rw [← hist_of_play hc 2] at hret
  obtain ⟨d, config, hrole, ⟨e, he, hack, -⟩, hexited, -⟩ := hclaim (shutdownRole 2) pidPath
    staleHost snatchedSchedule c 2 { socketPath := sockPath, pidFile := some pidPath }
    staleHost_initial rfl hstarts hret
  rw [ledgers, hist_of_play hc d] at he
  rcases d with _ | _ | _ | d
  · cases hrole
    rcases hexited rfl with hended | ⟨⟨⟨⟩, r, hstop⟩, -⟩
    · exact hended (of_decide_eq_true hrunning)
    · rw [hist_of_play hc 0] at hstop
      have hnever : Op.onStop () ∉ (snatchedSchedule.filterMap (Label.of? 0)).map Sigma.fst := by
        decide
      exact hnever (List.mem_map_of_mem hstop)
  · cases he
  · cases hrole
  · cases he

/-- The end of a daemon. -/
def stops : History Unit := [⟨.onStop (), .ok ()⟩, ⟨.removeFile pidPath, .ok ()⟩]

/-- A daemon that is let alone is shut down. -/
def quietSchedule : List (HostLabel Unit) :=
  [.outside (.start 0 100)] ++ (installsFlag ++ claimsFile ++ serves).map (.act 0) ++
    [.outside (.start 1 101)] ++ asksShutdown.map (.act 1) ++
    (acknowledges ++ stops).map (.act 0) ++ hasLeft.map (.act 1)

/-- Who removes the PID file has created it. -/
def removesOwn (c : HostConfig Unit) : HostLabel Unit → Bool
  | .act i ⟨.removeFile _, _⟩ => match c.world.nodes pidPath with
    | some (.file f) => (c.world.inodes f).creator == some i
    | _ => true
  | _ => true

/-- In the run of this schedule the daemon has left when the client is told so. -/
theorem shutdown_completes_alone : ∃ c : HostConfig Unit,
    AcknowledgedTo c 0 1 ∧ Exited pidPath c 0 ∧ Quiet (c.hist 0) := by
  have hplay : ((host (shutdownRole 1)).play removesOwn (.start emptyHost)
      quietSchedule).isSome = true := by decide +kernel
  obtain ⟨c, hc⟩ := Option.isSome_iff_exists.mp hplay
  have hret : Returns (Client.shutdown { socketPath := sockPath, pidFile := some pidPath } :
      SysTry Unit Bool).run (quietSchedule.filterMap (Label.of? 1)) (.ok true) :=
    returns_of_follow 60 (by rfl)
  have hrun : Run (host (shutdownRole 1)) (fun c l => removesOwn c l = true) (.start emptyHost)
      quietSchedule c := by
    refine run_of_play hc fun i => ?_
    rcases i with _ | _ | i
    · exact traces_of_follow 60 (by rfl)
    · exact hret.traces
    · exact Role.traces_nil _
  have hown := hrun.mono fun c l hok => show ¬ ForeignUnlink pidPath c l from by
    rintro ⟨i, f, j, rfl, hf, hj, hne, -⟩
    simp only [removesOwn, hf, hj, beq_iff_eq, Option.some.injEq] at hok
    exact hne hok
  rw [← hist_of_play hc 1] at hret
  obtain ⟨d, config, hrole, hack, hexited, hquiet⟩ := shutdown_completes (shutdownRole 1) pidPath
    emptyHost quietSchedule c 1 { socketPath := sockPath, pidFile := some pidPath }
    emptyHost_initial rfl hown hret
  obtain rfl : d = 0 := by
    obtain ⟨e, he, -⟩ := hack
    rw [ledgers, hist_of_play hc d] at he
    rcases d with _ | _ | d
    · rfl
    · cases hrole
    · cases he
  cases hrole
  exact ⟨c, hack, hexited rfl, hquiet⟩

end Sockd
