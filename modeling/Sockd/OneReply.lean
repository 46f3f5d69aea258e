import Sockd.Effects.Total
import Sockd.RoundTrip
import Sockd.Serving

/-!
# One reply for one request

The peer of a connection sends one header with the right magic and the payload it
declares, whatever the version, the kind and the flags are, and then reads. The protocol
prescribes one frame in reply (`Prescribed`). `process_connection` comes to an end in all
such cases, but a header that `Header::decode` rejects is not answered: the connection is
closed without a reply (`unanswered_version`), and the event loop ends with it. It
replies as prescribed iff the version and the kind are known and the reply fits its
length field (`one_reply_iff`).
-/

namespace Sockd

open Rust Effects Effects.Prog

variable {S : Type}

/-! ## The other end of a connection -/

/-- The other end of a connection on which every byte is sent, and read, sooner or later. -/
structure Peer where
  stream : Stream
  /-- What it sends, as far as the daemon has not read it. -/
  input : Bytes
  /-- What the daemon has sent. -/
  output : Bytes := []
  /-- How many calls of the daemon can still be interrupted. -/
  interrupts : Nat
  closed : Bool := false

/-- The answers that the calls on the connection can get: some of the bytes, or an
interruption. The callback is a function of its arguments. -/
def Peer.allows (onRequest : S → Bytes → CallbackResult Bytes × S) (p : Peer) : SysEvent S → Prop
  | ⟨.read s n, .ok d⟩ => s = p.stream ∧ p.closed = false ∧ d.1 <+: p.input ∧ (d.1 = [] → n = 0)
  | ⟨.write s buf, .ok k⟩ => s = p.stream ∧ p.closed = false ∧ (buf ≠ [] → 0 < k.1)
  | ⟨.read s _, .error err⟩ | ⟨.write s _, .error err⟩ =>
    s = p.stream ∧ err.kind = .interrupted ∧ 0 < p.interrupts
  | ⟨.closeStream s, _⟩ => s = p.stream ∧ p.closed = false
  | ⟨.onRequest s payload, a⟩ => a = onRequest s payload
  | _ => False

/-- The other end after a call. -/
def Peer.step (p : Peer) : SysEvent S → Peer
  | ⟨.read _ _, .ok d⟩ => { p with input := p.input.drop d.1.length }
  | ⟨.write _ buf, .ok k⟩ => { p with output := p.output ++ buf.take k.1 }
  | ⟨.read _ _, .error _⟩ | ⟨.write _ _, .error _⟩ => { p with interrupts := p.interrupts - 1 }
  | ⟨.closeStream _, _⟩ => { p with closed := true }
  | _ => p

/-- Nothing was sent since `p`. -/
structure Peer.Read (p p' : Peer) (d : Bytes) : Prop where
  stream : p'.stream = p.stream
  input : p.input = d ++ p'.input
  output : p'.output = p.output
  closed : p'.closed = false

/-- `d` was sent since `p`. -/
structure Peer.Sent (p p' : Peer) (d : Bytes) : Prop where
  stream : p'.stream = p.stream
  output : p'.output = p.output ++ d
  closed : p'.closed = false

section Connection

variable {onRequest : S → Bytes → CallbackResult Bytes × S} {p : Peer}

/-- `read_exact` gets what it asks for, when that much is sent. -/
theorem readExact_total (n : Nat) (hn : n ≤ p.input.length) (hopen : p.closed = false) :
    Total (Peer.allows onRequest) Peer.step (p.stream.reader.readExact n).run p
      (Total.succeeds fun d p' => Peer.Read p p' d.1) := by
  refine Total.loop_of_measure (fun (acc : Chunk n) p' => Peer.Read p p' acc.1)
    (fun acc p' => n - acc.1.length + p'.interrupts)
    (Total.succeeds fun (d : Filled n) p' => Peer.Read p p' d.1) ?_ (fun r p' hr => .ret hr) ⟨rfl, rfl, rfl, hopen⟩
  intro acc p' h
  have hlen : p.input.length = acc.1.length + p'.input.length := by
    rw [h.input, List.length_append]
  split
  next hlt =>
    refine .call ?_ fun b hb => ?_
    · -- one more byte is there to be read
      refine ⟨.ok ⟨p'.input.take 1, ?_⟩, h.stream.symm, h.closed, List.take_prefix _ _, ?_⟩
      · rw [List.length_take]
        omega
      · intro hnil
        have hlen' := congrArg List.length hnil
        rw [List.length_take, List.length_nil] at hlen'
        omega
    · cases b with
      | ok d =>
        obtain ⟨-, -, ⟨rest, hrest⟩, hpos⟩ := hb
        show Total _ _ (readNext acc (.ok d)) _ _
        have hne : d.1 ≠ [] := by
          intro hd
          have := hpos hd
          omega
        rw [readNext, if_neg hne]
        refine .ret ⟨⟨h.stream, ?_, h.output, h.closed⟩, ?_⟩
        · show p.input = acc.1 ++ d.1 ++ p'.input.drop d.1.length
          rw [h.input, ← hrest, List.drop_left, List.append_assoc]
        · have hdpos := List.length_pos_of_ne_nil hne
          show n - (acc.1 ++ d.1).length + p'.interrupts < n - acc.1.length + p'.interrupts
          rw [List.length_append]
          omega
      | error err =>
        obtain ⟨-, hk, hpos⟩ := hb
        show Total _ _ (readNext acc (.error err)) _ _
        rw [readNext, if_pos hk]
        refine .ret ⟨⟨h.stream, h.input, h.output, h.closed⟩, ?_⟩
        show n - acc.1.length + (p'.interrupts - 1) < n - acc.1.length + p'.interrupts
        omega
  next => exact .ret ⟨_, rfl, h⟩

/-- `write_all` gets rid of everything. -/
theorem writeAll_total (buf : Bytes) (hopen : p.closed = false) :
    Total (Peer.allows onRequest) Peer.step (p.stream.writer.writeAll buf).run p
      (Total.succeeds fun _ p' => Peer.Sent p p' buf) := by
  refine Total.loop_of_measure (fun rest p' => ∃ d, Peer.Sent p p' d ∧ d ++ rest = buf)
    (fun rest p' => rest.length + p'.interrupts) (Total.succeeds fun _ p' => Peer.Sent p p' buf)
    ?_ (fun r p' hr => .ret hr) ⟨[], ⟨rfl, (List.append_nil _).symm, hopen⟩, rfl⟩
  intro rest p' h
  obtain ⟨d, hd, rfl⟩ := h
  split
  next hnil =>
    subst hnil
    rw [List.append_nil]
    exact .ret ⟨(), rfl, hd⟩
  next hne =>
    have hpos := List.length_pos_of_ne_nil hne
    refine .call ⟨.ok ⟨rest.length, Nat.le_refl _⟩, hd.stream.symm, hd.closed, fun _ => hpos⟩ ?_
    intro b hb
    cases b with
    | ok k =>
      have hk : 0 < k.1 := hb.2.2 hne
      show Total _ _ (writeNext rest (.ok k)) _ _
      rw [writeNext, if_neg (by omega)]
      refine .ret ⟨⟨d ++ rest.take k.1, ⟨hd.stream, ?_, hd.closed⟩, ?_⟩, ?_⟩
      · show p'.output ++ rest.take k.1 = _
        rw [hd.output, List.append_assoc]
      · rw [List.append_assoc, List.take_append_drop]
      · show (rest.drop k.1).length + p'.interrupts < rest.length + p'.interrupts
        rw [List.length_drop]
        omega
    | error err =>
      obtain ⟨-, hk, hpos⟩ := hb
      show Total _ _ (writeNext rest (.error err)) _ _
      rw [writeNext, if_pos hk]
      refine .ret ⟨⟨d, ⟨hd.stream, hd.output, hd.closed⟩, rfl⟩, ?_⟩
      show rest.length + (p'.interrupts - 1) < rest.length + p'.interrupts
      omega

/-- `read_frame` ends, when what is sent is a frame or is to be rejected. -/
theorem readFrame_total {maxPayloadLen : Nat} (hparse : parse maxPayloadLen p.input ≠ .more)
    (hopen : p.closed = false) :
    Total (Peer.allows onRequest) Peer.step (readFrame p.stream.reader maxPayloadLen).run p
      fun r p' => r = readOutcome maxPayloadLen p.input ∧ Peer.Sent p p' [] := by
  have hge : headerLen ≤ p.input.length := by
    by_contra hlt
    exact hparse (parse_short (by omega))
  refine Total.next (Total.mapErr (readExact_total headerLen hge hopen)) ?_
  intro buf p₁ h₁
  have hsent : Peer.Sent p p₁ [] := ⟨h₁.stream, by rw [h₁.output, List.append_nil], h₁.closed⟩
  rw [readOutcome]
  rw [h₁.input] at hparse ⊢
  simp only [Try.run_bind, Try.run_ofExcept, ret_bind]
  cases hdec : Header.decode buf with
  | error e =>
    have hv : parse maxPayloadLen (buf.1 ++ p₁.input) = .reject e := by
      rw [parse_header, checkHeader, hdec]
    exact Total.ret ⟨by rw [hv], hsent⟩
  | ok hd =>
    simp only [Try.next_ok, Try.run_ite]
    by_cases hlim : hd.payloadLen.toNat > maxPayloadLen
    · rw [if_pos hlim]
      have hv : parse maxPayloadLen (buf.1 ++ p₁.input) =
          .reject (.payloadTooLarge hd.payloadLen.toNat maxPayloadLen) := by
        rw [parse_header, checkHeader, hdec]
        simp only
        rw [if_pos hlim]
      exact Total.ret ⟨by rw [hv], hsent⟩
    · rw [if_neg hlim]
      have hc : checkHeader maxPayloadLen buf = .ok hd := by
        rw [checkHeader, hdec]
        simp only
        rw [if_neg hlim]
      have henough : hd.payloadLen.toNat ≤ p₁.input.length := by
        by_contra hlt
        refine hparse ?_
        rw [parse_header, hc]
        exact if_pos (by omega)
      rw [← h₁.stream]
      refine Total.next (Total.mapErr (readExact_total _ henough h₁.closed)) ?_
      intro payload p₂ h₂
      have htake : p₁.input.take hd.payloadLen.toNat = payload.1 := by
        rw [h₂.input]
        exact List.take_left' payload.2
      have hv : parse maxPayloadLen (buf.1 ++ p₁.input) =
          .frame ⟨hd.kind, hd.flags, payload.1⟩ := by
        rw [parse_header, hc]
        simp only
        rw [if_neg (by omega), htake]
      refine Total.ret ⟨by rw [hv], h₂.stream.trans h₁.stream, ?_, h₂.closed⟩
      rw [h₂.output, h₁.output, List.append_nil]

/-- What goes out when the frame `reply` is to be sent: all of it, or nothing when its
payload does not fit the length field. -/
def sentOf (reply : Frame) : Bytes := if reply.payload.length ≤ u32Max then reply.wire else []

theorem reply_total (f : Frame) (hflags : f.flags = 0) (outcome : ConnectionOutcome)
    (hopen : p.closed = false) :
    Total (Peer.allows onRequest) Peer.step (reply p.stream f.kind f.payload outcome).run p
      fun _ p' => Peer.Sent p p' (sentOf f) := by
  show Total _ _ ((writeFrame p.stream.writer f.kind f.payload).run.bind _) _ _
  refine Total.bind (R := fun _ p' => Peer.Sent p p' (sentOf f)) ?_ ?_
  · unfold writeFrame writeFrameWithFlags sentOf
    rw [Try.run_ite]
    split
    next hbig =>
      rw [if_neg (by omega)]
      exact .ret ⟨rfl, (List.append_nil _).symm, hopen⟩
    next hfit =>
      rw [if_pos (by omega)]
      refine Total.next (Total.mapErr (writeAll_total _ hopen)) fun _ p₁ h₁ => ?_
      rw [← h₁.stream]
      refine Total.next (Total.mapErr (writeAll_total _ h₁.closed)) fun _ p₂ h₂ => ?_
      refine .ret ⟨h₂.stream.trans h₁.stream, ?_, h₂.closed⟩
      rw [h₂.output, h₁.output, List.append_assoc, Frame.wire, Frame.header, hflags]
  · intro r p' h
    cases r with
    | ok u => exact .ret h
    | error err => exact .ret h

/-- The reply to a frame goes out. -/
theorem dispatch_total {state : S} {f : Frame} (hopen : p.closed = false) :
    Total (Peer.allows onRequest) Peer.step (dispatch p.stream state f) p
      fun _ p' => Peer.Sent p p' (sentOf (replyFor f.kind (onRequest state f.payload).1)) := by
  -- sending the frame `g` and keeping the state `s`
  have hsend : ∀ (g : Frame) (o : ConnectionOutcome) (s : S), g.flags = 0 →
      Total (Peer.allows onRequest) Peer.step
        ((reply p.stream g.kind g.payload o).run.bind fun r => .ret (r, s)) p
        fun _ p' => Peer.Sent p p' (sentOf g) := fun g o s hflags =>
    (reply_total g hflags o hopen).bind fun _ _ h => .ret h
  unfold dispatch
  cases f.kind with
  | request =>
    refine .call ⟨_, rfl⟩ fun b hb => ?_
    obtain rfl : b = onRequest state f.payload := hb
    cases hres : onRequest state f.payload with
    | mk result state' =>
      cases result with
      | ok response => exact hsend (replyTo (.ok response)) .continue state' rfl
      | error err => exact hsend (replyTo (.error err)) .continue state' rfl
  | ping => exact hsend (replyFor .ping _) .continue state rfl
  | shutdown => exact hsend (replyFor .shutdown _) .shutdown state rfl
  | response => exact hsend (replyFor .response _) .continue state rfl
  | pong => exact hsend (replyFor .pong _) .continue state rfl
  | error => exact hsend (replyFor .error _) .continue state rfl
  | shutdownAck => exact hsend (replyFor .shutdownAck _) .continue state rfl

/-- What the daemon sends on a connection on which `d` is sent to it. -/
def answerTo (maxPayloadLen : Nat) (onRequest : S → Bytes → CallbackResult Bytes × S) (state : S)
    (d : Bytes) : Bytes :=
  match parse maxPayloadLen d with
  | .frame f => sentOf (replyFor f.kind (onRequest state f.payload).1)
  | _ => []

/-- `process_connection` ends, and closes the connection. -/
theorem processConnection_total {config : DaemonConfig} {state : S}
    (hparse : parse config.maxPayloadLen p.input ≠ .more) (hopen : p.closed = false) :
    Total (Peer.allows onRequest) Peer.step (processConnection config p.stream state) p
      fun _ p' => p'.closed = true ∧
        p'.output = p.output ++ answerTo config.maxPayloadLen onRequest state p.input := by
  refine Total.bind (R := fun _ p' =>
    Peer.Sent p p' (answerTo config.maxPayloadLen onRequest state p.input)) ?_ ?_
  · refine Total.bind (readFrame_total hparse hopen) ?_
    intro r p₁ h₁
    obtain ⟨rfl, h₁⟩ := h₁
    have hout : p₁.output = p.output := h₁.output.trans (List.append_nil _)
    unfold readOutcome answerTo
    cases hv : parse config.maxPayloadLen p.input with
    | more => exact absurd hv hparse
    | reject e => exact .ret h₁
    | frame f =>
      rw [← h₁.stream]
      refine (dispatch_total h₁.closed).mono fun _ p₂ h₂ => ?_
      exact ⟨h₂.stream.trans h₁.stream, by rw [h₂.output, hout], h₂.closed⟩
  · intro out p' h
    refine .call ⟨(), h.stream.symm, h.closed⟩ fun _ _ => ?_
    exact .ret ⟨rfl, h.output⟩

end Connection

/-! ## Requests with any version, kind and flags -/

/-- What a peer sends: a header with the right magic, and the payload it declares. -/
structure RawFrame where
  version : UInt8
  kind : UInt8
  flags : UInt16
  payload : Bytes

/-- The header of a raw frame. -/
def RawFrame.header (r : RawFrame) : Bytes :=
  Bytes.be 4 magic.toNat ++ [r.version] ++ [r.kind] ++ Bytes.be 2 r.flags.toNat ++
    Bytes.be 4 r.payload.length

/-- The bytes of a raw frame. -/
def RawFrame.bytes (r : RawFrame) : Bytes := r.header ++ r.payload

theorem RawFrame.length_header (r : RawFrame) : r.header.length = headerLen := by
  simp [RawFrame.header, headerLen]

/-- What `decode` looks at first. -/
theorem RawFrame.header_fields (r : RawFrame) :
    UInt32.ofNat (Bytes.ofBe (r.header.take 4)) = magic ∧ r.header.getD 4 0 = r.version ∧
      r.header.getD 5 0 = r.kind := by
  refine ⟨?_, rfl, rfl⟩
  show UInt32.ofNat (Bytes.ofBe (Bytes.be 4 magic.toNat)) = magic
  decide

/-- A version that is not `VERSION` is rejected. -/
theorem parse_bytes_version {r : RawFrame} (max : Nat) (hv : r.version ≠ version) :
    parse max r.bytes = .reject (.unsupportedFrameVersion r.version) := by
  obtain ⟨hm, hversion, -⟩ := r.header_fields
  have hdec : Header.decode ⟨r.header, r.length_header⟩ =
      .error (.unsupportedFrameVersion r.version) := by
    simp only [Header.decode, hm, hversion]
    rw [if_neg (not_not.mpr rfl), if_pos hv]
  have hp := @parse_header max ⟨r.header, r.length_header⟩ r.payload
  rw [RawFrame.bytes, hp, checkHeader, hdec]

/-- A kind byte that is no `FrameKind` is rejected. -/
theorem parse_bytes_kind {r : RawFrame} (max : Nat) (hv : r.version = version)
    (hk : ¬ (1 ≤ r.kind ∧ r.kind ≤ 7)) :
    parse max r.bytes = .reject (.unknownFrameKind r.kind) := by
  obtain ⟨hm, hversion, hkind⟩ := r.header_fields
  have htry : FrameKind.tryFrom r.kind = .error (.unknownFrameKind r.kind) := by
    cases h : FrameKind.tryFrom r.kind with
    | ok k => exact absurd ((kind_byte_range r.kind).mpr ⟨k, tryFrom_eq_ok h⟩) hk
    | error e => rw [(tryFrom_error h).1]
  have hdec : Header.decode ⟨r.header, r.length_header⟩ = .error (.unknownFrameKind r.kind) := by
    simp only [Header.decode, hm, hversion, hkind, htry]
    rw [if_neg (not_not.mpr rfl), if_neg (not_not.mpr hv)]
  have hp := @parse_header max ⟨r.header, r.length_header⟩ r.payload
  rw [RawFrame.bytes, hp, checkHeader, hdec]

/-- Everything else is a frame. -/
theorem parse_bytes_frame {r : RawFrame} {max : Nat} {k : FrameKind} (hv : r.version = version)
    (hk : r.kind = k.toByte) (hmax : r.payload.length ≤ max) (hfits : r.payload.length ≤ u32Max) :
    parse max r.bytes = .frame ⟨k, r.flags, r.payload⟩ := by
  have hbytes : r.bytes = (⟨k, r.flags, r.payload⟩ : Frame).wire := by
    rw [RawFrame.bytes, RawFrame.header, Frame.wire, Header.encode, hv, hk]
    rw [Frame.Fits.payloadLen (f := ⟨k, r.flags, r.payload⟩) hfits]
    rfl
  have hp := parse_wire (f := ⟨k, r.flags, r.payload⟩) hfits hmax []
  rw [List.append_nil] at hp
  rw [hbytes, hp]

/-- The reply that the protocol prescribes, when `on_request` returns `result` for the
payload. -/
def Prescribed (r : RawFrame) (result : CallbackResult Bytes) (f : Frame) : Prop :=
  if r.version = version ∧ r.kind = 1 then
    match result with
    | .ok response => f.kind = .response ∧ f.payload = response
    | .error message => f.kind = .error ∧ f.payload = messageBytes message
  else
    f.kind =
      if r.version ≠ version then .error
      else if r.kind = 3 then .pong
      else if r.kind = 6 then .shutdownAck
      else .error

/-- What `on_request` returned can be sent in a frame. -/
def ReplyFits : CallbackResult Bytes → Prop
  | .ok response => response.length ≤ u32Max
  | .error message => (messageBytes message).length ≤ u32Max

/-- The peer that sends the bytes `d`, then reads. -/
def Peer.sending (stream : Stream) (d : Bytes) (interrupts : Nat) : Peer where
  stream := stream
  input := d
  interrupts := interrupts

/-- There is a frame `f`, as prescribed, such that for all flags and however the bytes are
cut the connection comes to its end, `f` has been sent on it, and nothing else. -/
def OneReply (config : DaemonConfig) (stream : Stream) (state : S)
    (onRequest : S → Bytes → CallbackResult Bytes × S) (r : RawFrame) : Prop :=
  ∃ f : Frame, f.Fits ∧ Prescribed r (onRequest state r.payload).1 f ∧
    ∀ (flags : UInt16) (interrupts : Nat),
      Total (Peer.allows onRequest) Peer.step (processConnection config stream state)
        (Peer.sending stream { r with flags := flags }.bytes interrupts)
        fun _ p => p.closed = true ∧ p.output = f.wire

section Reply

variable {config : DaemonConfig} {stream : Stream} {state : S}
  {onRequest : S → Bytes → CallbackResult Bytes × S} {r : RawFrame}

/-- What is sent is determined by what `parse` makes of the request. -/
theorem sends_answer {d : Bytes} (interrupts : Nat) (hparse : parse config.maxPayloadLen d ≠ .more) :
    Total (Peer.allows onRequest) Peer.step (processConnection config stream state)
      (Peer.sending stream d interrupts)
      fun _ p => p.closed = true ∧ p.output = answerTo config.maxPayloadLen onRequest state d :=
  (processConnection_total (p := Peer.sending stream d interrupts) hparse rfl).mono
    fun _ _ h => ⟨h.1, h.2.trans (List.nil_append _)⟩

theorem wire_ne_nil (f : Frame) : f.wire ≠ [] := by
  intro h
  have hlen := length_wire f
  rw [h, headerLen, List.length_nil] at hlen
  omega

/-- A request after which nothing is sent. -/
theorem not_oneReply (hparse : parse config.maxPayloadLen r.bytes ≠ .more)
    (hnone : answerTo config.maxPayloadLen onRequest state r.bytes = []) :
    ¬ OneReply config stream state onRequest r := by
  intro h
  obtain ⟨f, -, -, hsend⟩ := h
  have hboth := (hsend r.flags 0).and (sends_answer 0 hparse)
  obtain ⟨_, p, ⟨-, hwire⟩, -, hempty⟩ := hboth.exists_end
  exact wire_ne_nil f (hwire.symm.trans (hempty.trans hnone))

/-- The reply to a frame of any kind is the prescribed one. -/
theorem prescribed_replyFor {k : FrameKind} {result : CallbackResult Bytes}
    (hv : r.version = version) (hk : r.kind = k.toByte) :
    Prescribed r result (replyFor k result) := by
  unfold Prescribed
  rw [hv, hk]
  cases k with
  | request => cases result <;> exact ⟨rfl, rfl⟩
  | _ => rfl

theorem replyFor_fits {k : FrameKind} {result : CallbackResult Bytes} :
    (replyFor k result).Fits ↔ (k = .request → ReplyFits result) := by
  by_cases hk : k = .request
  · subst hk
    cases result with
    | ok response => exact ⟨fun h _ => h, fun h => h rfl⟩
    | error message => exact ⟨fun h _ => h, fun h => h rfl⟩
  · -- the other replies do not depend on the callback, and are short
    have hsame : replyFor k result = replyFor k (.ok []) := by
      cases k <;> first | rfl | exact absurd rfl hk
    refine iff_of_true ?_ fun h => absurd h hk
    rw [hsame]
    unfold Frame.Fits
    cases k <;> decide

theorem request_byte {k : FrameKind} : k.toByte = 1 ↔ k = .request := by
  cases k <;> decide

end Reply

/-- **One reply for one request**: a peer that sends a whole request, within the limit of
the daemon, gets the frame that the protocol prescribes iff the version and the kind of
the request are known and the reply fits a frame. -/
theorem one_reply_iff (config : DaemonConfig) (stream : Stream) (state : S)
    (onRequest : S → Bytes → CallbackResult Bytes × S) (r : RawFrame)
    (hmax : r.payload.length ≤ config.maxPayloadLen) (hfits : r.payload.length ≤ u32Max) :
    OneReply config stream state onRequest r ↔
      r.version = version ∧ (1 ≤ r.kind ∧ r.kind ≤ 7) ∧
        (r.kind = 1 → ReplyFits (onRequest state r.payload).1) := by
  by_cases hv : r.version = version
  · by_cases hk : 1 ≤ r.kind ∧ r.kind ≤ 7
    · obtain ⟨k, hbyte⟩ := (kind_byte_range r.kind).mp hk
      have hparse : ∀ flags, parse config.maxPayloadLen { r with flags := flags }.bytes =
          .frame ⟨k, flags, r.payload⟩ := fun flags => parse_bytes_frame hv hbyte hmax hfits
      have hanswer : ∀ flags, answerTo config.maxPayloadLen onRequest state
          { r with flags := flags }.bytes = sentOf (replyFor k (onRequest state r.payload).1) := by
        intro flags
        rw [answerTo, hparse flags]
      have hcond : (r.kind = 1 → ReplyFits (onRequest state r.payload).1) ↔
          (replyFor k (onRequest state r.payload).1).Fits := by
        rw [replyFor_fits, hbyte, request_byte]
      rw [hcond]
      by_cases hreply : (replyFor k (onRequest state r.payload).1).Fits
      · refine iff_of_true ?_ ⟨hv, hk, hreply⟩
        refine ⟨_, hreply, prescribed_replyFor hv hbyte, fun flags interrupts => ?_⟩
        refine (sends_answer interrupts (by rw [hparse flags]; nofun)).mono fun _ p h => ?_
        rw [hanswer flags] at h
        exact ⟨h.1, h.2.trans (if_pos hreply)⟩
      · refine iff_of_false ?_ fun h => hreply h.2.2
        refine not_oneReply (by rw [hparse r.flags]; nofun) ?_
        rw [hanswer r.flags]
        exact if_neg hreply
    · refine iff_of_false ?_ fun h => hk h.2.1
      have hparse := parse_bytes_kind config.maxPayloadLen hv hk
      exact not_oneReply (by rw [hparse]; nofun) (by rw [answerTo, hparse])
  · refine iff_of_false ?_ fun h => hv h.1
    have hparse := parse_bytes_version config.maxPayloadLen hv
    exact not_oneReply (by rw [hparse]; nofun) (by rw [answerTo, hparse])

/-- A callback that returns what it is given. -/
def echo (state : Unit) (payload : Bytes) : CallbackResult Bytes × Unit := (.ok payload, state)

/-- A `Ping` of another version is not answered. -/
theorem unanswered_version :
    ¬ ∀ (config : DaemonConfig) (stream : Stream) (state : Unit)
      (onRequest : Unit → Bytes → CallbackResult Bytes × Unit) (r : RawFrame),
      r.payload.length ≤ config.maxPayloadLen → r.payload.length ≤ u32Max →
        OneReply config stream state onRequest r := by
  intro hclaim
  have hparse : parse defaultMaxPayloadLen (⟨2, 3, 0, []⟩ : RawFrame).bytes =
      .reject (.unsupportedFrameVersion 2) := parse_bytes_version _ (by decide)
  refine not_oneReply ?_ ?_ (hclaim {} ⟨0, .server⟩ () echo ⟨2, 3, 0, []⟩ (by decide) (by decide))
  · show parse defaultMaxPayloadLen _ ≠ _
    rw [hparse]
    nofun
  · show answerTo defaultMaxPayloadLen _ _ _ = _
    rw [answerTo, hparse]

/-- A `Request` with flags is answered. -/
theorem one_reply_iff_echo :
    OneReply {} ⟨0, .server⟩ () echo ⟨1, 1, 7, [1, 2, 3]⟩ ↔
      (1 : UInt8) = version ∧ ((1 : UInt8) ≤ 1 ∧ (1 : UInt8) ≤ 7) ∧
        ((1 : UInt8) = 1 → ReplyFits (echo () [1, 2, 3]).1) :=
  one_reply_iff {} ⟨0, .server⟩ () echo ⟨1, 1, 7, [1, 2, 3]⟩ (by decide) (by decide)

end Sockd
