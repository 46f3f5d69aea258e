import Sockd.Rust.Pieces
import Sockd.Wire

/-!
# Frames through a stream: what is accepted, and what is read back

The two codecs against a stream in memory that is cut into arbitrary pieces.
`readFrame_run` and `writeFrame_run` say what one call does to the stream;
`readFrame_accepts_grammar` spells the grammar out on the bytes and
`frames_round_trip` goes through a list of frames.
-/

namespace Sockd

open Rust Effects Effects.Prog

/-! ## One call -/

/-- `read_frame` on a stream in memory ends. -/
theorem halts_readFrame (maxPayloadLen : Nat) (s : Pieces) :
    Halts Pieces.handler (readFrame streamReader maxPayloadLen).run s := by
  refine Halts.bind (Halts.bind (Pieces.halts_readExact headerLen s) fun r s' _ => .ret) ?_
  intro r s' _
  cases r with
  | error e => exact .ret
  | ok buf =>
    simp only [Try.next_ok, Try.run_bind, Try.run_ofExcept, ret_bind]
    cases Header.decode buf with
    | error e => exact .ret
    | ok hd =>
      simp only [Try.next_ok, Try.run_ite]
      split
      next => exact .ret
      next =>
        refine Halts.bind (Halts.bind (Pieces.halts_readExact _ s') fun r s'' _ => .ret) ?_
        intro r s'' _
        cases r <;> exact .ret

/-- `write_frame_with_flags` to a stream in memory ends. -/
theorem halts_writeFrame (f : Frame) (s : Pieces) :
    Halts Pieces.handler (writeFrameWithFlags streamWriter f.kind f.flags f.payload).run s := by
  rw [writeFrameWithFlags, Try.run_ite]
  split
  next => exact .ret
  next =>
    refine Halts.bind (Halts.bind (Pieces.halts_writeAll _ s) fun r s' _ => .ret) ?_
    intro r s' _
    cases r with
    | error e => exact .ret
    | ok u =>
      refine Halts.bind (Halts.bind (Pieces.halts_writeAll _ s') fun r s'' _ => .ret) ?_
      intro r s'' _
      cases r <;> exact .ret

/-- What `read_frame` returns from the bytes `d` of an ended stream. -/
def readOutcome (maxPayloadLen : Nat) (d : Bytes) : Except Error Frame :=
  match parse maxPayloadLen d with
  | .more => .error (.io readExactEof)
  | .reject e => .error e
  | .frame f => .ok f

/-- How many bytes of `d` `read_frame` uses up. -/
def readLen (maxPayloadLen : Nat) (d : Bytes) : Nat :=
  match parse maxPayloadLen d with
  | .more => d.length
  | .reject _ => headerLen
  | .frame f => f.wire.length

/-- **One `read_frame`** on a stream in memory, however it is cut. -/
theorem readFrame_run {maxPayloadLen : Nat} {s s' : Pieces} {res : Except Error Frame}
    (h : Evals Pieces.handler (readFrame streamReader maxPayloadLen).run s res s') :
    res = readOutcome maxPayloadLen s.input ∧
      s'.input = s.input.drop (readLen maxPayloadLen s.input) := by
  obtain ⟨tr, htr, hc⟩ := h.returns
  obtain ⟨d, hd, hres⟩ := (readFrame_spec streamReader maxPayloadLen).returns htr
  rw [Spec.foldl_record, List.nil_append] at hd hres
  have hin := Pieces.Reading.input hd hc
  cases res with
  | ok f =>
    obtain ⟨hfit, hmax, rfl⟩ := hres
    have hp := parse_wire hfit hmax s'.input
    rw [← hin] at hp
    rw [readOutcome, readLen, hp]
    exact ⟨rfl, by rw [hin, List.drop_left]⟩
  | error e =>
    rcases hres with ⟨err, rfl, hmore, hfault⟩ | ⟨hlen, hrej⟩
    · obtain ⟨rfl, hnil⟩ := Pieces.ReadFault.eof hfault hc
      rw [hnil, List.append_nil] at hin
      rw [readOutcome, readLen, hin, hmore]
      exact ⟨rfl, by rw [hnil, List.drop_length]⟩
    · have hp := parse_reject_append hrej s'.input
      rw [← hin] at hp
      rw [readOutcome, readLen, hp]
      exact ⟨rfl, by rw [hin, ← hlen, List.drop_left]⟩

/-- **One `write_frame_with_flags`** to a stream in memory, however it is cut. -/
theorem writeFrame_run {f : Frame} (hf : f.Fits) {s s' : Pieces} {res : Except Error Unit}
    (h : Evals Pieces.handler (writeFrameWithFlags streamWriter f.kind f.flags f.payload).run
      s res s') : res = .ok () ∧ s'.output = s.output ++ f.wire := by
  obtain ⟨tr, htr, hc⟩ := h.returns
  obtain ⟨d, hd, hres⟩ := (writeFrame_spec streamWriter rfl f).returns htr
  rw [Spec.foldl_record, List.nil_append] at hd hres
  cases res with
  | ok u =>
    obtain ⟨-, rfl⟩ := hres
    exact ⟨rfl, Pieces.Writing.output hd hc⟩
  | error e =>
    rcases hres with ⟨hbig, -⟩ | ⟨-, -, err, -, hfault⟩
    · exact absurd hf hbig
    · exact absurd hfault (Pieces.not_writeFault hc)

theorem evals_readFrame (maxPayloadLen : Nat) (s : Pieces) :
    ∃ s', Evals Pieces.handler (readFrame streamReader maxPayloadLen).run s
        (readOutcome maxPayloadLen s.input) s' ∧
      s'.input = s.input.drop (readLen maxPayloadLen s.input) := by
  obtain ⟨res, s', h⟩ := halts_readFrame maxPayloadLen s
  obtain ⟨rfl, hin⟩ := readFrame_run h
  exact ⟨s', h, hin⟩

theorem evals_writeFrame {f : Frame} (hf : f.Fits) (s : Pieces) :
    ∃ s', Evals Pieces.handler
        (writeFrameWithFlags streamWriter f.kind f.flags f.payload).run s (.ok ()) s' ∧
      s'.output = s.output ++ f.wire := by
  obtain ⟨res, s', h⟩ := halts_writeFrame f s
  obtain ⟨rfl, hout⟩ := writeFrame_run hf h
  exact ⟨s', h, hout⟩

/-! ## The grammar on the bytes -/

/-- The big-endian number at bytes 8 to 11. -/
def declaredLen (bs : Bytes) : Nat := Bytes.ofBe ((bs.drop 8).take 4)

/-- The byte strings that begin with a frame for a reader with limit `max`. -/
structure BeginsWithFrame (max : Nat) (bs : Bytes) : Prop where
  header : 12 ≤ bs.length
  magic : bs.take 4 = [0x53, 0x4f, 0x43, 0x4b]
  version : bs.getD 4 0 = 1
  kind : 1 ≤ bs.getD 5 0 ∧ bs.getD 5 0 ≤ 7
  limit : declaredLen bs ≤ max
  payload : 12 + declaredLen bs ≤ bs.length

/-- The first check that a byte string fails: the error, and how many bytes have
been used up by then. -/
def firstFailure (max : Nat) (bs : Bytes) : Option (Error × Nat) :=
  if bs.length < 12 then some (.io readExactEof, bs.length)
  else if bs.take 4 ≠ [0x53, 0x4f, 0x43, 0x4b] then
    some (.invalidFrameMagic (UInt32.ofNat (Bytes.ofBe (bs.take 4))), 12)
  else if bs.getD 4 0 ≠ 1 then some (.unsupportedFrameVersion (bs.getD 4 0), 12)
  else if ¬ (1 ≤ bs.getD 5 0 ∧ bs.getD 5 0 ≤ 7) then some (.unknownFrameKind (bs.getD 5 0), 12)
  else if declaredLen bs > max then some (.payloadTooLarge (declaredLen bs) max, 12)
  else if bs.length < 12 + declaredLen bs then some (.io readExactEof, bs.length)
  else none

theorem firstFailure_eq_none {max : Nat} {bs : Bytes} :
    firstFailure max bs = none ↔ BeginsWithFrame max bs := by
  unfold firstFailure
  constructor
  · intro h
    repeat' split at h
    all_goals try cases h
    next h1 h2 h3 h4 h5 h6 =>
      exact ⟨by omega, not_not.mp h2, not_not.mp h3, not_not.mp h4, by omega, by omega⟩
  · intro h
    have hh := h.header
    have hl := h.limit
    have hp := h.payload
    rw [if_neg (by omega), if_neg (not_not.mpr h.magic), if_neg (not_not.mpr h.version),
      if_neg (not_not.mpr h.kind), if_neg (by omega), if_neg (by omega)]

/-- The kinds, as a range of bytes. -/
theorem kind_byte_range (b : UInt8) : (1 ≤ b ∧ b ≤ 7) ↔ ∃ k : FrameKind, b = k.toByte := by
  constructor
  · intro h
    have hb : b = 1 ∨ b = 2 ∨ b = 3 ∨ b = 4 ∨ b = 5 ∨ b = 6 ∨ b = 7 := by
      grind
    rcases hb with rfl | rfl | rfl | rfl | rfl | rfl | rfl
    · exact ⟨.request, rfl⟩
    · exact ⟨.response, rfl⟩
    · exact ⟨.ping, rfl⟩
    · exact ⟨.pong, rfl⟩
    · exact ⟨.error, rfl⟩
    · exact ⟨.shutdown, rfl⟩
    · exact ⟨.shutdownAck, rfl⟩
  · intro h
    obtain ⟨k, rfl⟩ := h
    cases k <;> decide

/-- The magic number, as bytes. -/
theorem magic_bytes {bs : Bytes} (h : bs.length = 4) :
    UInt32.ofNat (Bytes.ofBe bs) = magic ↔ bs = [0x53, 0x4f, 0x43, 0x4b] := by
  constructor
  · intro hm
    have hlt : Bytes.ofBe bs < 2 ^ 32 := by
      have hb := Bytes.ofBe_lt bs
      rwa [h] at hb
    have hnat : Bytes.ofBe bs = magic.toNat := by
      rw [← hm, UInt32.toNat_ofNat_of_lt' hlt]
    rw [← be_ofBe_field h, hnat]
    rfl
  · intro hm
    rw [hm]
    decide

/-- The fields of a byte string are those of its header. -/
theorem header_front (buf : Filled headerLen) (p : Bytes) :
    (buf.1 ++ p).take 4 = buf.1.take 4 ∧ (buf.1 ++ p).getD 4 0 = buf.1.getD 4 0 ∧
      (buf.1 ++ p).getD 5 0 = buf.1.getD 5 0 ∧
      declaredLen (buf.1 ++ p) = Bytes.ofBe ((buf.1.drop 8).take 4) := by
  obtain ⟨b, hb⟩ := buf
  match b, hb with
  | [_, _, _, _, _, _, _, _, _, _, _, _], _ => exact ⟨rfl, rfl, rfl, rfl⟩

/-- `firstFailure` looks at the bytes in the order of the code: what `parse` says,
with the bytes used up. -/
theorem firstFailure_parse (max : Nat) (bs : Bytes) :
    match parse max bs with
    | .more => firstFailure max bs = some (.io readExactEof, bs.length)
    | .reject e => firstFailure max bs = some (e, 12)
    | .frame f => firstFailure max bs = none ∧ f.payload.length = declaredLen bs := by
  rcases Nat.lt_or_ge bs.length headerLen with hlt | hge
  · rw [parse_short hlt]
    simp only
    rw [firstFailure, if_pos (show bs.length < 12 from hlt)]
  · obtain ⟨buf, p, rfl⟩ := split_header hge
    obtain ⟨hm, hv, hk, hl⟩ := header_front buf p
    have hbuf : buf.1.length = 12 := buf.2
    have hlen : (buf.1 ++ p).length = 12 + p.length := by rw [List.length_append, hbuf]
    have hmagic := @magic_bytes (buf.1.take 4) (List.length_take_of_le (by omega))
    have hdecl : Bytes.ofBe ((buf.1.drop 8).take 4) < 2 ^ 32 := by
      have hb := Bytes.ofBe_lt ((buf.1.drop 8).take 4)
      rwa [List.length_take_of_le (by simp [hbuf])] at hb
    rw [parse_header, firstFailure, hm, hv, hk, hl, hlen, if_neg (by omega), checkHeader]
    simp only [Header.decode]
    -- one check after another, in the order of the code
    by_cases h1 : buf.1.take 4 = [0x53, 0x4f, 0x43, 0x4b]
    · rw [if_neg (not_not.mpr (hmagic.mpr h1)), if_neg (not_not.mpr h1)]
      by_cases h2 : buf.1.getD 4 0 = 1
      · rw [if_neg (not_not.mpr (show buf.1.getD 4 0 = version from h2)),
          if_neg (not_not.mpr h2)]
        cases h3 : FrameKind.tryFrom (buf.1.getD 5 0) with
        | error e =>
          obtain ⟨rfl, hne⟩ := tryFrom_error h3
          simp only
          rw [if_pos]
          intro hr
          obtain ⟨k, hkb⟩ := (kind_byte_range _).mp hr
          exact hne k hkb
        | ok k =>
          have hr := (kind_byte_range _).mpr ⟨k, tryFrom_eq_ok h3⟩
          simp only [UInt32.toNat_ofNat_of_lt' hdecl]
          rw [if_neg (not_not.mpr hr)]
          by_cases h4 : Bytes.ofBe ((buf.1.drop 8).take 4) > max
          · rw [if_pos h4, if_pos h4]
          · rw [if_neg h4, if_neg h4]
            simp only [UInt32.toNat_ofNat_of_lt' hdecl]
            by_cases h5 : p.length < Bytes.ofBe ((buf.1.drop 8).take 4)
            · rw [if_pos h5]
              simp only
              rw [if_pos (by omega)]
            · rw [if_neg h5]
              simp only
              rw [if_neg (by omega)]
              exact ⟨rfl, List.length_take_of_le (by omega)⟩
      · rw [if_pos (show buf.1.getD 4 0 ≠ version from h2), if_pos h2]
    · rw [if_pos (fun h => h1 (hmagic.mp h)), if_pos h1]

/-- **The decoder accepts the wire grammar, canonically**: on every byte string,
under every limit and however the stream is cut, `read_frame` ends; it returns a
frame iff the string begins with one, has then consumed that frame, and encodes
back to what it consumed. Otherwise it returns the first failing check, and a
refused header is all it has consumed. No strict part of a frame is accepted. -/
theorem readFrame_accepts_grammar (max : Nat) (s : Pieces) :
    ∃ res s', Evals Pieces.handler (readFrame streamReader max).run s res s' ∧
      ((∃ f, res = .ok f) ↔ BeginsWithFrame max s.input) ∧
      (∀ f, res = .ok f →
        s'.input = s.input.drop (12 + declaredLen s.input) ∧
        ∀ t, ∃ t', Evals Pieces.handler
            (writeFrameWithFlags streamWriter f.kind f.flags f.payload).run t (.ok ()) t' ∧
          t'.output = t.output ++ s.input.take (12 + declaredLen s.input)) ∧
      (∀ e, res = .error e →
        ∃ n, firstFailure max s.input = some (e, n) ∧ s'.input = s.input.drop n) ∧
      (∀ t : Pieces, BeginsWithFrame max s.input → t.input <+: s.input →
        t.input.length < 12 + declaredLen s.input →
        ∃ e t', Evals Pieces.handler (readFrame streamReader max).run t (.error e) t') := by
  obtain ⟨s', hev, hin⟩ := evals_readFrame max s
  refine ⟨_, s', hev, ?_⟩
  have hfirst := firstFailure_parse max s.input
  rw [readLen] at hin
  unfold readOutcome
  refine ⟨?_, ?_, ?_, ?_⟩
  · rw [← firstFailure_eq_none]
    cases hp : parse max s.input with
    | more => rw [hp] at hfirst; simp [hfirst]
    | reject e => rw [hp] at hfirst; simp [hfirst]
    | frame f => rw [hp] at hfirst; simp [hfirst.1]
  · intro f hf
    cases hp : parse max s.input with
    | more => rw [hp] at hf; cases hf
    | reject e => rw [hp] at hf; cases hf
    | frame g =>
      rw [hp] at hf hfirst hin
      simp only at hin hfirst
      injection hf with hf
      subst hf
      have hlen : g.wire.length = 12 + declaredLen s.input := by
        rw [length_wire, hfirst.2, headerLen]
      obtain ⟨hfit, -, rest, hrest⟩ := parse_eq_frame hp
      refine ⟨by rw [hin, hlen], fun t => ?_⟩
      obtain ⟨t', ht, hout⟩ := evals_writeFrame hfit t
      refine ⟨t', ht, ?_⟩
      rw [hout, ← hlen, hrest, List.take_left]
  · intro e he
    cases hp : parse max s.input with
    | more =>
      rw [hp] at he hfirst hin
      injection he with he
      exact ⟨_, he ▸ hfirst, hin⟩
    | reject e' =>
      rw [hp] at he hfirst hin
      injection he with he
      exact ⟨12, he ▸ hfirst, hin⟩
    | frame g => rw [hp] at he; cases he
  · intro t hbegin hle hlt
    have hmore : parse max t.input = .more := by
      have hnone := firstFailure_eq_none.mpr hbegin
      cases hp : parse max s.input with
      | more => rw [hp] at hfirst; rw [hnone] at hfirst; cases hfirst
      | reject e => rw [hp] at hfirst; rw [hnone] at hfirst; cases hfirst
      | frame g =>
        rw [hp] at hfirst
        simp only at hfirst
        obtain ⟨hfit, hmax, rest, hrest⟩ := parse_eq_frame hp
        have hlen : g.wire.length = 12 + declaredLen s.input := by
          rw [length_wire, hfirst.2, headerLen]
        refine parse_part hfit hmax ?_ (by omega)
        exact List.prefix_of_prefix_length_le hle (hrest ▸ List.prefix_append _ _) (by omega)
    obtain ⟨t', ht, -⟩ := evals_readFrame max t
    rw [readOutcome, hmore] at ht
    exact ⟨_, t', ht⟩

/-! ## Many frames -/

/-- `write_frame_with_flags` for one frame after another. -/
def writeFrames : List Frame → Try streamSig Error Unit
  | [] => pure ()
  | f :: fs => do
    writeFrameWithFlags streamWriter f.kind f.flags f.payload
    writeFrames fs

/-- `read_frame` `n` times. -/
def readFrames (max : Nat) : Nat → Try streamSig Error (List Frame)
  | 0 => pure []
  | n + 1 => do
    let f ← readFrame streamReader max
    let fs ← readFrames max n
    return f :: fs

theorem evals_writeFrames {fs : List Frame} (hfs : ∀ f ∈ fs, f.Fits) (s : Pieces) :
    ∃ s', Evals Pieces.handler (writeFrames fs).run s (.ok ()) s' ∧
      s'.output = s.output ++ fs.flatMap Frame.wire := by
  induction fs generalizing s with
  | nil => exact ⟨s, .ret, by simp⟩
  | cons f fs ih =>
    obtain ⟨s₁, h₁, hout₁⟩ := evals_writeFrame (hfs f (by simp)) s
    obtain ⟨s₂, h₂, hout₂⟩ := ih (fun g hg => hfs g (by simp [hg])) s₁
    refine ⟨s₂, h₁.bind h₂, ?_⟩
    rw [hout₂, hout₁, List.flatMap_cons, List.append_assoc]

theorem evals_readFrames {fs : List Frame} {max : Nat} (hfs : ∀ f ∈ fs, f.Fits)
    (hmax : ∀ f ∈ fs, f.payload.length ≤ max) {rest : Bytes} (s : Pieces)
    (hs : s.input = fs.flatMap Frame.wire ++ rest) :
    ∃ s', Evals Pieces.handler (readFrames max fs.length).run s (.ok fs) s' ∧ s'.input = rest := by
  induction fs generalizing s with
  | nil => exact ⟨s, .ret, hs⟩
  | cons f fs ih =>
    rw [List.flatMap_cons, List.append_assoc] at hs
    have hp := parse_wire (hfs f (by simp)) (hmax f (by simp)) (fs.flatMap Frame.wire ++ rest)
    obtain ⟨s₁, h₁, hin₁⟩ := evals_readFrame max s
    rw [readOutcome, hs, hp] at h₁
    rw [readLen, hs, hp, List.drop_left] at hin₁
    obtain ⟨s₂, h₂, hin₂⟩ := ih (fun g hg => hfs g (by simp [hg]))
      (fun g hg => hmax g (by simp [hg])) s₁ hin₁
    exact ⟨s₂, h₁.bind (h₂.bind .ret), hin₂⟩

/-- **Frames round-trip through any pieces**: any list of frames whose lengths fit
their field is written, and read back as it was from a stream that begins with
those bytes, leaving what follows them; both streams cut in any way. -/
theorem frames_round_trip (fs : List Frame) (hfs : ∀ f ∈ fs, f.payload.length ≤ u32Max)
    (out : Pieces) :
    ∃ bytes out', Evals Pieces.handler (writeFrames fs).run out (.ok ()) out' ∧
      out'.output = out.output ++ bytes ∧
      ∀ (max : Nat) (rest : Bytes) (inp : Pieces), (∀ f ∈ fs, f.payload.length ≤ max) →
        inp.input = bytes ++ rest →
        ∃ inp', Evals Pieces.handler (readFrames max fs.length).run inp (.ok fs) inp' ∧
          inp'.input = rest := by
  obtain ⟨out', hev, hout⟩ := evals_writeFrames hfs out
  refine ⟨_, out', hev, hout, ?_⟩
  intro max rest inp hmax hinp
  exact evals_readFrames hfs hmax inp hinp

/-- A request and an answer, the writer cut after three bytes and then one. -/
theorem frames_round_trip_two :
    ∃ bytes out', Evals Pieces.handler
        (writeFrames [⟨.request, 7, [1, 2, 3]⟩, ⟨.pong, 0, []⟩]).run
        ⟨[], [], [], [some 2, none, some 0]⟩ (.ok ()) out' ∧
      out'.output = [] ++ bytes ∧
      ∀ (max : Nat) (rest : Bytes) (inp : Pieces),
        (∀ f ∈ [(⟨.request, 7, [1, 2, 3]⟩ : Frame), ⟨.pong, 0, []⟩], f.payload.length ≤ max) →
        inp.input = bytes ++ rest →
        ∃ inp', Evals Pieces.handler (readFrames max 2).run inp
            (.ok [⟨.request, 7, [1, 2, 3]⟩, ⟨.pong, 0, []⟩]) inp' ∧ inp'.input = rest :=
  frames_round_trip [⟨.request, 7, [1, 2, 3]⟩, ⟨.pong, 0, []⟩] (by decide)
    ⟨[], [], [], [some 2, none, some 0]⟩

end Sockd
