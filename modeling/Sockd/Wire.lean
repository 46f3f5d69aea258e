import Sockd.Frame

/-!
# The wire grammar, and `read_frame` against it

`Frame.wire` is the byte string of a frame and `parse max d` what the bytes `d`
amount to for a reader with the limit `max`: not a whole frame yet (`more`), a
header that is refused (`reject`), or a frame with nothing after it to say
(`frame`). `parse` is stated on byte strings alone; `readFrame_spec` shows that the
chunked reads of `read_frame` decide exactly it, asking for nothing beyond the
frame, and `writeFrame_spec` that `write_frame` puts out `Frame.wire`.
-/

namespace Sockd

open Rust Effects Effects.Prog

/-! ## The header codec -/

@[simp] theorem length_headerEncode (h : Header) : h.encode.length = headerLen := by
  simp [Header.encode, headerLen]

@[simp] theorem tryFrom_toByte (k : FrameKind) : FrameKind.tryFrom k.toByte = .ok k := by
  cases k <;> rfl

/-- Only the byte of a kind is read as that kind. -/
theorem tryFrom_eq_ok {b : UInt8} {k : FrameKind} (h : FrameKind.tryFrom b = .ok k) :
    b = k.toByte := by
  unfold FrameKind.tryFrom at h
  repeat' split at h
  all_goals first
    | (injection h with h; subst h; assumption)
    | cases h

/-- The kinds are the bytes 1 to 7. -/
theorem tryFrom_error {b : UInt8} {e : Error} (h : FrameKind.tryFrom b = .error e) :
    e = .unknownFrameKind b ∧ ∀ k : FrameKind, b ≠ k.toByte := by
  constructor
  · unfold FrameKind.tryFrom at h
    repeat' split at h
    all_goals first
      | (injection h with h; exact h.symm)
      | cases h
  · intro k hb
    rw [hb, tryFrom_toByte] at h
    cases h

/-- The fields of an encoded header, at the offsets `decode` reads. -/
theorem headerEncode_fields (h : Header) :
    h.encode.take 4 = Bytes.be 4 magic.toNat ∧ h.encode.getD 4 0 = version ∧
    h.encode.getD 5 0 = h.kind.toByte ∧
    (h.encode.drop 6).take 2 = Bytes.be 2 h.flags.toNat ∧
    (h.encode.drop 8).take 4 = Bytes.be 4 h.payloadLen.toNat := by
  refine ⟨rfl, rfl, rfl, rfl, rfl⟩

/-- A header is read back as it was written. -/
theorem decode_encode (h : Header) (hlen : h.encode.length = headerLen) :
    Header.decode ⟨h.encode, hlen⟩ = .ok h := by
  obtain ⟨hm, hv, hk, hf, hl⟩ := headerEncode_fields h
  have hmagic : UInt32.ofNat (Bytes.ofBe (Bytes.be 4 magic.toNat)) = magic := by decide
  have hflags : UInt16.ofNat (Bytes.ofBe (Bytes.be 2 h.flags.toNat)) = h.flags := by
    rw [Bytes.ofBe_be_of_lt (UInt16.toNat_lt h.flags)]
    simp
  have hplen : UInt32.ofNat (Bytes.ofBe (Bytes.be 4 h.payloadLen.toNat)) = h.payloadLen := by
    rw [Bytes.ofBe_be_of_lt (UInt32.toNat_lt h.payloadLen)]
    simp
  simp only [Header.decode, hm, hv, hk, hf, hl, hmagic, tryFrom_toByte, hflags, hplen]
  simp

/-- A header buffer, cut at the field offsets. -/
theorem header_fields : ∀ (buf : Bytes), buf.length = headerLen →
    buf.take 4 ++ [buf.getD 4 0] ++ [buf.getD 5 0] ++ (buf.drop 6).take 2 ++ (buf.drop 8).take 4
      = buf
  | [_, _, _, _, _, _, _, _, _, _, _, _], _ => rfl

/-- A field of `w` bytes holds the number written back into it. -/
theorem be_ofBe_field {buf : Bytes} {w : Nat} (h : buf.length = w) :
    Bytes.be w (Bytes.ofBe buf) = buf := by
  subst h
  exact Bytes.be_ofBe buf

/-- The fields of a header that `decode` accepts. -/
theorem decode_eq_ok {buf : Filled headerLen} {h : Header} (hd : Header.decode buf = .ok h) :
    Bytes.ofBe (buf.1.take 4) = magic.toNat ∧ buf.1.getD 4 0 = version ∧
    buf.1.getD 5 0 = h.kind.toByte ∧
    Bytes.ofBe ((buf.1.drop 6).take 2) = h.flags.toNat ∧
    Bytes.ofBe ((buf.1.drop 8).take 4) = h.payloadLen.toNat := by
  have hbuf : buf.1.length = 12 := buf.2
  have h4 : Bytes.ofBe (buf.1.take 4) < 2 ^ 32 := by
    have hlt := Bytes.ofBe_lt (buf.1.take 4)
    rwa [List.length_take_of_le (by omega)] at hlt
  have h2 : Bytes.ofBe ((buf.1.drop 6).take 2) < 2 ^ 16 := by
    have hlt := Bytes.ofBe_lt ((buf.1.drop 6).take 2)
    rwa [List.length_take_of_le (by simp [hbuf])] at hlt
  have h8 : Bytes.ofBe ((buf.1.drop 8).take 4) < 2 ^ 32 := by
    have hlt := Bytes.ofBe_lt ((buf.1.drop 8).take 4)
    rwa [List.length_take_of_le (by simp [hbuf])] at hlt
  simp only [Header.decode] at hd
  split at hd
  next => cases hd
  next hm =>
    split at hd
    next => cases hd
    next hv =>
      split at hd
      next => cases hd
      next k hk =>
        injection hd with hd
        subst hd
        refine ⟨?_, not_not.mp hv, tryFrom_eq_ok hk, ?_, ?_⟩
        · rw [← not_not.mp hm, UInt32.toNat_ofNat_of_lt' h4]
        · exact (UInt16.toNat_ofNat_of_lt' h2).symm
        · exact (UInt32.toNat_ofNat_of_lt' h8).symm

/-- What is wrong with a header that `decode` does not accept. -/
theorem decode_rejects {buf : Filled headerLen} {e : Error} (hd : Header.decode buf = .error e) :
    (∃ m, e = .invalidFrameMagic m) ∨ (∃ v, e = .unsupportedFrameVersion v) ∨
      ∃ k, e = .unknownFrameKind k := by
  simp only [Header.decode] at hd
  split at hd
  next =>
    injection hd with hd
    exact .inl ⟨_, hd.symm⟩
  next =>
    split at hd
    next =>
      injection hd with hd
      exact .inr (.inl ⟨_, hd.symm⟩)
    next =>
      split at hd
      next e' he =>
        injection hd with hd
        exact .inr (.inr ⟨_, hd.symm.trans (tryFrom_error he).1⟩)
      next => cases hd

/-- What `decode` accepts is the encoding of what it returns. -/
theorem encode_of_decode {buf : Filled headerLen} {h : Header} (hd : Header.decode buf = .ok h) :
    h.encode = buf.1 := by
  have hbuf : buf.1.length = 12 := buf.2
  obtain ⟨hm, hv, hk, hf, hl⟩ := decode_eq_ok hd
  rw [Header.encode, ← hm, ← hv, ← hk, ← hf, ← hl,
    be_ofBe_field (List.length_take_of_le (by omega)),
    be_ofBe_field (List.length_take_of_le (by simp [hbuf])),
    be_ofBe_field (List.length_take_of_le (by simp [hbuf]))]
  exact header_fields buf.1 buf.2

/-! ## The grammar -/

/-- The header `write_frame_with_flags` puts before a payload. -/
def Frame.header (f : Frame) : Header := ⟨f.kind, f.flags, UInt32.ofNat f.payload.length⟩

/-- The bytes of a frame. -/
def Frame.wire (f : Frame) : Bytes := f.header.encode ++ f.payload

/-- The payload length fits the header field. -/
def Frame.Fits (f : Frame) : Prop := f.payload.length ≤ u32Max

@[simp] theorem length_wire (f : Frame) : f.wire.length = headerLen + f.payload.length := by
  simp [Frame.wire]

theorem Frame.Fits.payloadLen {f : Frame} (h : f.Fits) :
    f.header.payloadLen.toNat = f.payload.length :=
  UInt32.toNat_ofNat_of_lt' (Nat.lt_of_le_of_lt h (by decide))

/-- The checks on a header: `decode`, then the length limit. -/
def checkHeader (maxPayloadLen : Nat) (buf : Filled headerLen) : Except Error Header :=
  match Header.decode buf with
  | .error e => .error e
  | .ok h =>
    if h.payloadLen.toNat > maxPayloadLen then
      .error (.payloadTooLarge h.payloadLen.toNat maxPayloadLen)
    else .ok h

/-- What a reader makes of the bytes it has. -/
inductive Verdict
  | more
  | reject (e : Error)
  | frame (f : Frame)
  deriving DecidableEq

/-- What the bytes `d` amount to for a reader that accepts payloads up to
`maxPayloadLen`. Bytes after a whole frame are not looked at. -/
def parse (maxPayloadLen : Nat) (d : Bytes) : Verdict :=
  if h : headerLen ≤ d.length then
    match checkHeader maxPayloadLen ⟨d.take headerLen, List.length_take_of_le h⟩ with
    | .error e => .reject e
    | .ok hd =>
      if d.length < headerLen + hd.payloadLen.toNat then .more
      else .frame ⟨hd.kind, hd.flags, (d.drop headerLen).take hd.payloadLen.toNat⟩
  else .more

theorem checkHeader_eq_ok {maxPayloadLen : Nat} {buf : Filled headerLen} {h : Header}
    (hc : checkHeader maxPayloadLen buf = .ok h) :
    Header.decode buf = .ok h ∧ h.payloadLen.toNat ≤ maxPayloadLen := by
  unfold checkHeader at hc
  split at hc
  next => cases hc
  next h' hd =>
    split at hc
    next => cases hc
    next hle =>
      injection hc with hc
      subst hc
      exact ⟨hd, by omega⟩

theorem parse_short {maxPayloadLen : Nat} {d : Bytes} (h : d.length < headerLen) :
    parse maxPayloadLen d = .more := by
  rw [parse, dif_neg (by omega)]

/-- With a whole header at the front, `parse` is decided by it. -/
theorem parse_header {maxPayloadLen : Nat} (buf : Filled headerLen) (p : Bytes) :
    parse maxPayloadLen (buf.1 ++ p) =
      match checkHeader maxPayloadLen buf with
      | .error e => .reject e
      | .ok hd =>
        if p.length < hd.payloadLen.toNat then .more
        else .frame ⟨hd.kind, hd.flags, p.take hd.payloadLen.toNat⟩ := by
  obtain ⟨b, hb⟩ := buf
  have hle : headerLen ≤ (b ++ p).length := by rw [List.length_append, hb]; omega
  have htake : (⟨(b ++ p).take headerLen, List.length_take_of_le hle⟩ : Filled headerLen)
      = ⟨b, hb⟩ := by
    apply Subtype.ext
    show (b ++ p).take headerLen = b
    rw [← hb, List.take_left]
  rw [parse, dif_pos hle, htake]
  cases checkHeader maxPayloadLen ⟨b, hb⟩ with
  | error e => rfl
  | ok hd =>
    have hdrop : (b ++ p).drop headerLen = p := by rw [← hb, List.drop_left]
    simp only [hdrop, List.length_append, hb, Nat.add_lt_add_iff_left]

/-- The front of a byte string, as a header buffer. -/
theorem split_header {d : Bytes} (h : headerLen ≤ d.length) :
    ∃ (buf : Filled headerLen) (p : Bytes), d = buf.1 ++ p :=
  ⟨⟨d.take headerLen, List.length_take_of_le h⟩, d.drop headerLen,
    (List.take_append_drop headerLen d).symm⟩

/-- A frame within the limits is accepted, whatever follows it. -/
theorem parse_wire {maxPayloadLen : Nat} {f : Frame} (hf : f.Fits)
    (hmax : f.payload.length ≤ maxPayloadLen) (rest : Bytes) :
    parse maxPayloadLen (f.wire ++ rest) = .frame f := by
  have hlen := length_headerEncode f.header
  have hc : checkHeader maxPayloadLen ⟨f.header.encode, hlen⟩ = .ok f.header := by
    rw [checkHeader, decode_encode]
    simp only [hf.payloadLen]
    rw [if_neg (by omega)]
  rw [Frame.wire, List.append_assoc]
  have h := @parse_header maxPayloadLen ⟨f.header.encode, hlen⟩ (f.payload ++ rest)
  rw [hc] at h
  simp only [hf.payloadLen] at h
  rw [if_neg (by simp), List.take_left] at h
  exact h

/-- Only the bytes of a frame, with anything after them, are accepted. -/
theorem parse_eq_frame {maxPayloadLen : Nat} {d : Bytes} {f : Frame}
    (h : parse maxPayloadLen d = .frame f) :
    f.Fits ∧ f.payload.length ≤ maxPayloadLen ∧ ∃ rest, d = f.wire ++ rest := by
  rcases Nat.lt_or_ge d.length headerLen with hlt | hge
  · rw [parse_short hlt] at h
    cases h
  · obtain ⟨buf, p, rfl⟩ := split_header hge
    rw [parse_header] at h
    split at h
    next => cases h
    next hd hc =>
      obtain ⟨hdec, hmax⟩ := checkHeader_eq_ok hc
      split at h
      next => cases h
      next hp =>
        injection h with h
        subst h
        have hplen : (p.take hd.payloadLen.toNat).length = hd.payloadLen.toNat :=
          List.length_take_of_le (by omega)
        have hlt := UInt32.toNat_lt hd.payloadLen
        have hhd : Frame.header ⟨hd.kind, hd.flags, p.take hd.payloadLen.toNat⟩ = hd := by
          simp [Frame.header, hplen]
        refine ⟨?_, ?_, p.drop hd.payloadLen.toNat, ?_⟩
        · show (p.take _).length ≤ u32Max
          rw [hplen, u32Max]
          omega
        · show (p.take _).length ≤ _
          rw [hplen]
          exact hmax
        · rw [Frame.wire, hhd, encode_of_decode hdec, List.append_assoc, List.take_append_drop]

/-- `parse` on a frame's bytes says `frame` for that frame only. -/
theorem wire_inj {f g : Frame} (hf : f.Fits) (hg : g.Fits) {r s : Bytes}
    (h : f.wire ++ r = g.wire ++ s) : f = g ∧ r = s := by
  have hfp := parse_wire hf (Nat.le_max_left _ g.payload.length) r
  have hgp := parse_wire hg (Nat.le_max_right f.payload.length _) s
  rw [h, hgp] at hfp
  injection hfp with hfg
  subst hfg
  exact ⟨rfl, List.append_cancel_left h⟩

/-- A refused header is refused whatever follows it. -/
theorem parse_reject_append {maxPayloadLen : Nat} {d : Bytes} {e : Error}
    (h : parse maxPayloadLen d = .reject e) (rest : Bytes) :
    parse maxPayloadLen (d ++ rest) = .reject e := by
  rcases Nat.lt_or_ge d.length headerLen with hlt | hge
  · rw [parse_short hlt] at h
    cases h
  · obtain ⟨buf, p, rfl⟩ := split_header hge
    rw [parse_header] at h
    rw [List.append_assoc, parse_header]
    cases hc : checkHeader maxPayloadLen buf with
    | error e' => rw [hc] at h; exact h
    | ok hd =>
      rw [hc] at h
      simp only at h
      split at h <;> cases h

/-- Why a frame is refused. -/
theorem parse_rejects {maxPayloadLen : Nat} {d : Bytes} {e : Error}
    (h : parse maxPayloadLen d = .reject e) :
    (∃ m, e = .invalidFrameMagic m) ∨ (∃ v, e = .unsupportedFrameVersion v) ∨
      (∃ k, e = .unknownFrameKind k) ∨ ∃ n, e = .payloadTooLarge n maxPayloadLen := by
  rcases Nat.lt_or_ge d.length headerLen with hlt | hge
  · rw [parse_short hlt] at h
    cases h
  · obtain ⟨buf, p, rfl⟩ := split_header hge
    rw [parse_header] at h
    cases hc : checkHeader maxPayloadLen buf with
    | ok hd =>
      rw [hc] at h
      simp only at h
      split at h <;> cases h
    | error e' =>
      rw [hc] at h
      injection h with h
      subst h
      unfold checkHeader at hc
      split at hc
      next e' hd =>
        injection hc with hc
        subst hc
        rcases decode_rejects hd with h | h | h
        · exact .inl h
        · exact .inr (.inl h)
        · exact .inr (.inr (.inl h))
      next =>
        split at hc
        next =>
          injection hc with hc
          exact .inr (.inr (.inr ⟨_, hc.symm⟩))
        next => cases hc

/-- A strict part of a frame is not enough. -/
theorem parse_part {maxPayloadLen : Nat} {f : Frame} (hf : f.Fits)
    (hmax : f.payload.length ≤ maxPayloadLen) {d : Bytes} (h : d <+: f.wire)
    (hlt : d.length < f.wire.length) : parse maxPayloadLen d = .more := by
  rcases Nat.lt_or_ge d.length headerLen with hs | hge
  · exact parse_short hs
  · obtain ⟨t, ht⟩ := h
    have hd : d = f.header.encode ++ d.drop headerLen := by
      have htake : (d ++ t).take headerLen = d.take headerLen := List.take_append_of_le_length hge
      have henc : f.wire.take headerLen = f.header.encode := by
        rw [Frame.wire, ← length_headerEncode f.header, List.take_left]
      rw [ht, henc] at htake
      rw [htake, List.take_append_drop]
    have hlen := length_headerEncode f.header
    have hc : checkHeader maxPayloadLen ⟨f.header.encode, hlen⟩ = .ok f.header := by
      rw [checkHeader, decode_encode]
      simp only [hf.payloadLen]
      rw [if_neg (by omega)]
    rw [hd]
    have h := @parse_header maxPayloadLen ⟨f.header.encode, hlen⟩ (d.drop headerLen)
    rw [hc] at h
    rw [h]
    simp only [hf.payloadLen]
    rw [length_wire] at hlt
    rw [if_pos (by rw [List.length_drop]; omega)]

/-! ## `read_frame` -/

/-- `read_frame` asks for something, and only while it has not a whole frame. -/
def Wanted (maxPayloadLen : Nat) (d : Bytes) (n : Nat) : Prop :=
  0 < n ∧ parse maxPayloadLen d = .more

variable {E : Sig}

/-- What `read_frame` has done when it is done. -/
def FrameRead (r : Reader E) (maxPayloadLen : Nat) (res : Except Error Frame)
    (tr : List (Event E)) (d : Bytes) : Prop :=
  match res with
  | .ok f => f.Fits ∧ f.payload.length ≤ maxPayloadLen ∧ d = f.wire
  | .error e =>
    (∃ err, e = .io err ∧ parse maxPayloadLen d = .more ∧ ReadFault r err tr) ∨
      (d.length = headerLen ∧ parse maxPayloadLen d = .reject e)

/-- Reads of the payload, seen as reads of the frame. -/
theorem missing_payload {maxPayloadLen : Nat} {buf : Filled headerLen} {hd : Header}
    (hc : checkHeader maxPayloadLen buf = .ok hd) {d : Bytes} {n : Nat}
    (h : Missing hd.payloadLen.toNat d n) : Wanted maxPayloadLen (buf.1 ++ d) n := by
  obtain ⟨hpos, hlen⟩ := h
  refine ⟨hpos, ?_⟩
  rw [parse_header, hc]
  simp only
  rw [if_pos (by omega)]

/-- **`read_frame` decides the grammar**: it returns a frame when exactly the
bytes of that frame were delivered, fails with the refusal of a bad header when
exactly the header was, and with the error of the stream when neither. -/
theorem readFrame_spec (r : Reader E) (maxPayloadLen : Nat) :
    Spec Spec.record [] (readFrame r maxPayloadLen).run
      (fun tr => ∃ d, Reading r (Wanted maxPayloadLen) tr d)
      (fun res tr => ∃ d, Reading r (Wanted maxPayloadLen) tr d ∧
        FrameRead r maxPayloadLen res tr d) := by
  have hhead : ∀ d n, Missing headerLen d n → Wanted maxPayloadLen d n := fun d n ⟨hpos, hlen⟩ =>
    ⟨hpos, parse_short (by omega)⟩
  refine Spec.next (Spec.mapErr ((readExact_spec r headerLen).mono ?_ ?_))
    (R := fun buf tr => Reading r (Wanted maxPayloadLen) tr buf.1) ?_
  · rintro tr ⟨d, hr, -⟩
    exact ⟨d, hr.mono hhead⟩
  · rintro (err | buf) tr ⟨d, hr, hres⟩
    · obtain ⟨hlt, hfault⟩ := hres
      exact ⟨d, hr.mono hhead, .inl ⟨err, rfl, parse_short hlt, hfault⟩⟩
    · subst hres
      exact hr.mono hhead
  · intro buf t₁ _ hbuf
    simp only [Try.run_bind, Try.run_ofExcept, ret_bind]
    cases hdec : Header.decode buf with
    | error e =>
      refine .ret ⟨_, hbuf⟩ ⟨_, hbuf, .inr ⟨buf.2, ?_⟩⟩
      have hp := @parse_header maxPayloadLen buf []
      rw [List.append_nil] at hp
      rw [hp, checkHeader, hdec]
    | ok hd =>
      simp only [Try.next_ok, Try.run_ite]
      by_cases hlim : hd.payloadLen.toNat > maxPayloadLen
      · rw [if_pos hlim]
        refine .ret ⟨_, hbuf⟩ ⟨_, hbuf, .inr ⟨buf.2, ?_⟩⟩
        have hp := @parse_header maxPayloadLen buf []
        rw [List.append_nil] at hp
        rw [hp, checkHeader, hdec]
        simp only
        rw [if_pos hlim]
      · rw [if_neg hlim]
        have hc : checkHeader maxPayloadLen buf = .ok hd := by
          rw [checkHeader, hdec]
          simp only
          rw [if_neg hlim]
        refine Spec.next (Spec.mapErr ((readExact_spec r hd.payloadLen.toNat).after.mono ?_ ?_))
          (R := fun p tr => Reading r (Wanted maxPayloadLen) tr (buf.1 ++ p.1)) ?_
        · rintro tr ⟨t, rfl, d, hr, -⟩
          exact ⟨_, hbuf.append hr fun d n h => missing_payload hc h⟩
        · rintro (err | p) tr ⟨t, rfl, d, hr, hres⟩
          · obtain ⟨hlt, hfault⟩ := hres
            refine ⟨_, hbuf.append hr fun d n h => missing_payload hc h,
              .inl ⟨err, rfl, ?_, hfault.mono fun ev he => List.mem_append_right _ he⟩⟩
            rw [parse_header, hc]
            simp only
            rw [if_pos hlt]
          · subst hres
            exact hbuf.append hr fun d n h => missing_payload hc h
        · intro p t₂ _ hp
          have hplen : p.1.length = hd.payloadLen.toNat := p.2
          have hlt := UInt32.toNat_lt hd.payloadLen
          have hhd : Frame.header ⟨hd.kind, hd.flags, p.1⟩ = hd := by
            simp [Frame.header, hplen]
          refine .ret ⟨_, hp⟩ ⟨_, hp, ?_, ?_, ?_⟩
          · show p.1.length ≤ u32Max
            rw [hplen, u32Max]
            omega
          · show p.1.length ≤ _
            rw [hplen]
            omega
          · rw [Frame.wire, hhd, encode_of_decode hdec]

/-! ## `write_frame` -/

/-- What `write_frame_with_flags` has done when it is done. -/
def FrameWritten (w : Writer E) (f : Frame) (res : Except Error Unit) (tr : List (Event E))
    (d : Bytes) : Prop :=
  match res with
  | .ok () => f.Fits ∧ d = f.wire
  | .error e =>
    (¬ f.Fits ∧ tr = [] ∧ e = .payloadTooLarge f.payload.length u32Max) ∨
      (f.Fits ∧ d.length < f.wire.length ∧ ∃ err, e = .io err ∧ WriteFault w err tr)

/-- **`write_frame_with_flags` puts out the frame**, or a part of it before a
write failed, or nothing if the payload does not fit its length field. The writer
does not buffer, so `flush` does nothing. -/
theorem writeFrame_spec (w : Writer E) (hflush : w.flush = pure ()) (f : Frame) :
    Spec Spec.record [] (writeFrameWithFlags w f.kind f.flags f.payload).run
      (fun tr => ∃ d, Writing w f.wire tr d ∧ (f.Fits ∨ d = []))
      (fun res tr => ∃ d, Writing w f.wire tr d ∧ FrameWritten w f res tr d) := by
  rw [writeFrameWithFlags, Try.run_ite]
  split
  next hbig =>
    exact .ret ⟨[], .nil, .inr rfl⟩ ⟨[], .nil, .inl ⟨Nat.not_le.mpr hbig, rfl, rfl⟩⟩
  next hfit =>
    have hfit : f.Fits := Nat.not_lt.mp hfit
    have hhead : f.header.encode <+: f.wire := List.prefix_append _ _
    refine Spec.next (Spec.mapErr ((writeAll_spec w f.header.encode).mono ?_ ?_))
      (R := fun _ tr => Writing w f.wire tr f.header.encode) ?_
    · rintro tr ⟨d, hw⟩
      exact ⟨d, hw.mono hhead, .inl hfit⟩
    · rintro (err | u) tr ⟨d, hw, hres⟩
      · obtain ⟨hlt, hfault⟩ := hres
        refine ⟨d, hw.mono hhead, .inr ⟨hfit, ?_, err, rfl, hfault⟩⟩
        exact Nat.lt_of_lt_of_le hlt hhead.length_le
      · exact hres ▸ hw.mono hhead
    · intro _ t₁ _ hw₁
      refine Spec.next (Spec.mapErr ((writeAll_spec w f.payload).after.mono ?_ ?_))
        (R := fun _ tr => Writing w f.wire tr f.wire) ?_
      · rintro tr ⟨t, rfl, d, hw⟩
        exact ⟨_, hw₁.append hw (List.prefix_refl _), .inl hfit⟩
      · rintro (err | u) tr ⟨t, rfl, d, hw, hres⟩
        · obtain ⟨hlt, hfault⟩ := hres
          refine ⟨_, hw₁.append hw (List.prefix_refl _), .inr ⟨hfit, ?_, err, rfl,
            hfault.mono fun ev he => List.mem_append_right _ he⟩⟩
          rw [List.length_append, Frame.wire, List.length_append]
          omega
        · obtain rfl : d = f.payload := hres
          exact hw₁.append hw (List.prefix_refl _)
      · intro _ t₂ _ hw₂
        rw [hflush]
        exact .ret ⟨_, hw₂, .inl hfit⟩ ⟨_, hw₂, hfit, rfl⟩

end Sockd
