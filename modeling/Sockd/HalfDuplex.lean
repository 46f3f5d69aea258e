import Sockd.Stands

/-!
# One connection, one side at a time

What a process of the library does with its connections, whichever function it runs: it opens
one when it has none, uses no stream but the one it has open, and has closed it in the end
(`one_connection`). On a connection the sides take turns: a client reads
when it has sent its whole frame, and a daemon writes when it has read a whole frame and
nothing beyond (`half_duplex`).
-/

namespace Sockd

open Rust Effects Effects.Prog

variable {S : Type} {role : Role} {h : History S} {e : SysEvent S}

/-- The stream that is open after one more call. -/
def openStep (s : Option Stream) : SysEvent S → Option Stream
  | ⟨.connect _, .ok t⟩ | ⟨.accept _, .ok t⟩ => some t
  | ⟨.closeStream t, _⟩ => if s = some t then none else s
  | _ => s

/-- The stream that is open after these calls. -/
def openStream (h : History S) : Option Stream := h.foldl openStep none

/-- Calls on this stream. -/
def CallsOn (s : Stream) : Op S → Prop
  | .read t _ | .write t _ | .closeStream t | .streamNonblocking t _ => t = s
  | _ => False

theorem CallsOn.usesStream {s : Stream} {op : Op S} (h : CallsOn s op) : UsesStream op := by
  cases op <;> trivial

theorem stream_step (line : Option (Exchange S)) (ev : SysEvent S) :
    (Line.step line ev).map Exchange.stream = openStep (line.map Exchange.stream) ev := by
  obtain ⟨op, a⟩ := ev
  have hhead := Line.head_toList line
  have htouch : ∀ (s : Stream) (f : Exchange S → Exchange S), (∀ e, (f e).stream = e.stream) →
      (touch s f line.toList).head?.map Exchange.stream = line.map Exchange.stream := by
    intro s f hf
    rw [head_touch, hhead]
    cases line with
    | none => rfl
    | some e =>
      show some (if e.stream = s then f e else e).stream = some e.stream
      split
      · rw [hf]
      · rfl
  cases op with
  | connect path =>
    cases a with
    | ok s => rfl
    | error err => exact congrArg _ hhead
  | accept l =>
    cases a with
    | ok s => rfl
    | error err => exact congrArg _ hhead
  | closeStream s =>
    show (line.filter fun e => decide (e.stream ≠ s)).map Exchange.stream =
      if line.map Exchange.stream = some s then none else line.map Exchange.stream
    cases line with
    | none => rfl
    | some e =>
      by_cases hs : e.stream = s
      · simp [hs]
      · simp [hs]
  | read s n => exact htouch s _ fun _ => rfl
  | write s buf => exact htouch s _ fun _ => rfl
  | streamNonblocking s b => exact htouch s _ fun _ => rfl
  | onRequest state payload =>
    show (touchNewest _ line.toList).head?.map _ = _
    rw [head_touchNewest, hhead]
    cases line <;> rfl
  | onStart => cases a <;> exact congrArg _ hhead
  | _ => exact congrArg _ hhead

/-- It is that of the line. -/
theorem openStream_eq (h : History S) : openStream h = (Line.of h).map Exchange.stream := by
  induction h using List.reverseRecOn with
  | nil => rfl
  | append_singleton h ev ih =>
    rw [Line.of_append, stream_step, ← ih, openStream, List.foldl_append]
    rfl

theorem opened_before (ht : role.Traces (h ++ [e])) :
    (Opens e.1 → openStream h = none) ∧ ∀ s, CallsOn s e.1 → openStream h = some s := by
  have hstands := role.stands ht
  rw [openStream_eq]
  generalize Line.of h = line at hstands
  generalize e.1 = op at hstands
  refine ⟨fun hopens => ?_, fun s hs => ?_⟩
  · cases hstands with
    | apart => rfl
    | answered _ _ _ _ _ haside => cases op <;> first | exact absurd hopens haside.2 | cases hopens
    | begins _ _ _ hop => rcases hop with rfl | rfl <;> cases hopens
    | _ => cases hopens
  · cases hstands with
    | apart _ hop => exact absurd hs.usesStream hop
    | answered _ _ _ _ _ haside => exact absurd hs.usesStream haside.not_usesStream
    | begins _ _ _ hop =>
      rcases hop with rfl | rfl
      · exact congrArg some hs
      · exact hs.elim
    | handles => exact hs.elim
    | _ => exact congrArg some hs

/-- The runs of a process that come to their end. -/
def Role.Ends : Role → History S → Prop
  | .daemon config, h => ∃ r, Returns (runDaemon config).run h r
  | .request client payload, h => ∃ r, Returns (client.request payload).run h r
  | .ping client, h => ∃ r, Returns client.ping.run h r
  | .shutdown client, h => ∃ r, Returns client.shutdown.run h r
  | .guard path, h => Returns (guardPidFile path) h ()

theorem openStream_of_ends (hends : role.Ends h) : openStream h = none := by
  have hline : Line.of h = none := by
    cases role with
    | daemon config =>
      obtain ⟨r, hr⟩ := hends
      exact runDaemon_keeps.returns hr
    | request c payload =>
      obtain ⟨r, hr⟩ := hends
      exact (Client.request_keeps id).returns hr
    | ping c =>
      obtain ⟨r, hr⟩ := hends
      have hkeeps : Keeps c.maxPayloadLen False none (c.ping : SysTry S Unit).run _ :=
        Client.ping_keeps
      exact hkeeps.returns hr
    | shutdown c =>
      obtain ⟨r, hr⟩ := hends
      have hkeeps : Keeps c.maxPayloadLen False none (c.shutdown : SysTry S Bool).run _ :=
        Client.shutdown_keeps
      exact hkeeps.returns hr
    | guard path =>
      have hkeeps : Keeps 0 False none (guardPidFile path : Sys S Unit) _ := guardPidFile_keeps
      exact hkeeps.returns hends
  rw [openStream_eq, hline]
  rfl

/-- Whatever function a process runs and whatever its calls answer: it opens a connection only
when it has none, it uses only the open one, and none is open when the function returns. -/
theorem one_connection (role : Role) :
    (∀ (h : History S) (e : SysEvent S), role.Traces (h ++ [e]) →
      (Opens e.1 → openStream h = none) ∧ ∀ s, CallsOn s e.1 → openStream h = some s) ∧
    ∀ h : History S, role.Ends h → openStream h = none :=
  ⟨fun _ _ => opened_before, fun _ => openStream_of_ends⟩

/-- A client up to its first read. -/
def pingedTrace (path : Path) : History Unit :=
  [⟨.connect path, .ok ⟨0, .client⟩⟩,
    ⟨.write ⟨0, .client⟩ pingFrame.wire, .ok ⟨12, by decide⟩⟩]

/-- The read. -/
def pingedRead : SysEvent Unit := ⟨.read ⟨0, .client⟩ 12, .ok ⟨[], by decide⟩⟩

theorem traces_pinged :
    (Role.ping { socketPath := ["s"] }).Traces (pingedTrace ["s"] ++ [pingedRead]) :=
  traces_of_follow 60 (by rfl)

/-- The whole ping, which the daemon does not answer. -/
def endedTrace : History Unit :=
  pingedTrace ["s"] ++ [pingedRead, ⟨.closeStream ⟨0, .client⟩, ()⟩]

theorem ends_pinged : (Role.ping { socketPath := ["s"] }).Ends endedTrace :=
  ⟨_, returns_of_follow 60 (by rfl)⟩

theorem one_connection_pinged :
    openStream (pingedTrace ["s"]) = some ⟨0, .client⟩ ∧ openStream endedTrace = none := by
  obtain ⟨hused, hended⟩ := one_connection (.ping { socketPath := ["s"] }) (S := Unit)
  exact ⟨(hused _ pingedRead traces_pinged).2 _ rfl, hended _ ends_pinged⟩

/-- A client has sent a whole frame when it reads, and has read nothing when it writes; a daemon
has sent nothing when it reads, and has read one whole frame and no more when it writes. -/
theorem half_duplex (ht : role.Traces (h ++ [e])) :
    (∀ s n, e.1 = .read s n → ∃ x, (Ledger.of h).exchanges.head? = some x ∧ x.stream = s ∧
      if x.accepted = true then x.sent = [] else ∃ f : Frame, f.Fits ∧ x.sent = f.wire) ∧
    ∀ s buf, e.1 = .write s buf → ∃ x, (Ledger.of h).exchanges.head? = some x ∧ x.stream = s ∧
      if x.accepted = true then ∃ f, Exact role.maxPayloadLen f x.received
      else x.received = [] := by
  have hstands := role.stands ht
  have hnewest : ∀ x, Line.of h = some x → (Ledger.of h).exchanges.head? = some x :=
    fun x hx => Line.newest hx
  generalize Line.of h = line at hstands hnewest
  generalize e.1 = op at hstands
  refine ⟨?_, ?_⟩
  · rintro s n rfl
    cases hstands with
    | apart _ hop => exact absurd trivial hop
    | awaits x f _ haccepted hfits hsent =>
      refine ⟨x, hnewest x rfl, rfl, ?_⟩
      rw [if_neg (by rw [haccepted]; nofun)]
      exact ⟨f, hfits, hsent⟩
    | answered _ _ _ _ _ haside => exact absurd trivial haside.1
    | begins _ _ _ hop => rcases hop with hop | hop <;> cases hop
    | listens x _ haccepted hsent =>
      refine ⟨x, hnewest x rfl, rfl, ?_⟩
      rw [if_pos haccepted]
      exact hsent
  · rintro s buf rfl
    cases hstands with
    | apart _ hop => exact absurd trivial hop
    | asks x f _ haccepted hreceived =>
      refine ⟨x, hnewest x rfl, rfl, ?_⟩
      rw [if_neg (by rw [haccepted]; nofun)]
      exact hreceived
    | answered _ _ _ _ _ haside => exact absurd trivial haside.1
    | begins _ _ _ hop => rcases hop with hop | hop <;> cases hop
    | replies x f _ _ haccepted hexact =>
      refine ⟨x, hnewest x rfl, rfl, ?_⟩
      rw [if_pos haccepted]
      exact ⟨f, hexact⟩

theorem half_duplex_pinged : ∃ x, (Ledger.of (pingedTrace ["s"])).exchanges.head? = some x ∧
    x.stream = ⟨0, .client⟩ ∧
    if x.accepted = true then x.sent = [] else ∃ f : Frame, f.Fits ∧ x.sent = f.wire :=
  (half_duplex traces_pinged).1 _ 12 rfl

end Sockd
