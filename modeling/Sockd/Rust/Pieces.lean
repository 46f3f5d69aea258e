import Sockd.Effects.Eval
import Sockd.Rust.Io

/-!
# A stream in memory that is cut into pieces

`Pieces` is a stream with the bytes it still has to deliver, the bytes it has
taken, and for each direction the fate of its next calls: a call is interrupted,
or moves a piece of a given greatest size. When that list is used up a call moves
all it can. Every way of cutting a stream into non-empty pieces, with any number
of interruptions in between, is such a list, because the loops make finitely many
calls.

Against it `readExact` and `writeAll` always end (`halts_readExact`,
`halts_writeAll`), a trace of reads delivers the front of the input
(`Reading.input`), and a trace of writes appends what it took to the output
(`Writing.output`).
-/

namespace Rust

open Effects Effects.Prog Evals

/-- The calls on one stream. -/
inductive StreamOp
  | read (n : Nat)
  | write (buf : Bytes)
  deriving DecidableEq

/-- The interface of one stream. -/
def streamSig : Sig where
  Op := StreamOp
  Ans
    | .read n => Except IoError (Chunk n)
    | .write buf => Except IoError (Taken buf)

/-- The reading half. -/
def streamReader : Reader streamSig where
  op := .read
  answer _ b := b

/-- The writing half; it does not buffer. -/
def streamWriter : Writer streamSig where
  op := .write
  answer _ b := b
  flush := pure ()

/-- `EINTR`. -/
def interruptedError : IoError := ⟨.interrupted, "Interrupted system call (os error 4)"⟩

/-- A stream in memory. Of `reads` and `writes`, `none` is an interrupted call and
`some k` one that moves at most `k + 1` bytes. -/
structure Pieces where
  input : Bytes
  reads : List (Option Nat)
  output : Bytes
  writes : List (Option Nat)

namespace Pieces

/-- `Read::read`. -/
def read (s : Pieces) (n : Nat) : Except IoError (Chunk n) × Pieces :=
  match s.reads with
  | none :: ps => (.error interruptedError, { s with reads := ps })
  | some k :: ps =>
    (.ok ⟨s.input.take (min (k + 1) n), by simp⟩,
      { s with input := s.input.drop (min (k + 1) n), reads := ps })
  | [] => (.ok ⟨s.input.take n, by simp⟩, { s with input := s.input.drop n })

/-- `Write::write`. -/
def write (s : Pieces) (buf : Bytes) : Except IoError (Taken buf) × Pieces :=
  match s.writes with
  | none :: ps => (.error interruptedError, { s with writes := ps })
  | some k :: ps =>
    (.ok ⟨min (k + 1) buf.length, by simp⟩,
      { s with output := s.output ++ buf.take (k + 1), writes := ps })
  | [] => (.ok (whole buf), { s with output := s.output ++ buf })

/-- The stream as a handler of the calls on it. -/
def handler : Handler streamSig Pieces
  | s, .read n => s.read n
  | s, .write buf => s.write buf

/-- A read, in one formula: an interruption, or a piece of the input that is empty
only where the input is. -/
theorem read_cases (s : Pieces) (n : Nat) :
    (∃ ps, s.reads = none :: ps ∧ s.read n = (.error interruptedError, { s with reads := ps })) ∨
    ∃ (d : Chunk n) (rest : Bytes) (ps : List (Option Nat)), s.input = d.1 ++ rest ∧
      (0 < n → d.1 = [] → rest = []) ∧ ps.length ≤ s.reads.length ∧
      s.read n = (.ok d, { s with input := rest, reads := ps }) := by
  -- a piece of `k` bytes, empty only at the end of the input
  have hpiece : ∀ k, 0 < k → s.input.take k = [] → s.input.drop k = [] := by
    intro k hk ht
    rcases List.take_eq_nil_iff.mp ht with h | h
    · omega
    · rw [h, List.drop_nil]
  obtain ⟨input, reads, output, writes⟩ := s
  cases reads with
  | nil =>
    exact .inr ⟨⟨input.take n, by simp⟩, input.drop n, [],
      (List.take_append_drop n input).symm, hpiece n, Nat.le_refl _, rfl⟩
  | cons p ps =>
    cases p with
    | none => exact .inl ⟨ps, rfl, rfl⟩
    | some k =>
      exact .inr ⟨⟨input.take (min (k + 1) n), by simp⟩, input.drop (min (k + 1) n), ps,
        (List.take_append_drop (min (k + 1) n) input).symm,
        fun hn => hpiece _ (by omega), by simp, rfl⟩

/-- A write, in one formula: an interruption, or a piece of the buffer that is
empty only where the buffer is. -/
theorem write_cases (s : Pieces) (buf : Bytes) :
    (∃ ps, s.writes = none :: ps ∧
      s.write buf = (.error interruptedError, { s with writes := ps })) ∨
    ∃ (k : Taken buf) (ps : List (Option Nat)), (buf ≠ [] → 0 < k.1) ∧
      ps.length ≤ s.writes.length ∧
      s.write buf = (.ok k, { s with output := s.output ++ buf.take k.1, writes := ps }) := by
  obtain ⟨input, reads, output, writes⟩ := s
  cases writes with
  | nil =>
    refine .inr ⟨whole buf, [], List.length_pos_of_ne_nil, Nat.le_refl _, ?_⟩
    simp [write, whole]
  | cons p ps =>
    cases p with
    | none => exact .inl ⟨ps, rfl, rfl⟩
    | some k =>
      refine .inr ⟨⟨min (k + 1) buf.length, by simp⟩, ps, fun hb => ?_, by simp, ?_⟩
      · have hpos := List.length_pos_of_ne_nil hb
        show 0 < min (k + 1) buf.length
        omega
      · have htake : buf.take (k + 1) = buf.take (min (k + 1) buf.length) := by
          rw [List.take_eq_take_iff]
          omega
        simp only [write]
        rw [htake]

/-! ## The loops end -/

theorem readNext_interrupted {n : Nat} (acc : Chunk n) :
    (readNext acc (.error interruptedError) : Prog streamSig _) = .ret (.inl acc) := rfl

theorem writeNext_interrupted (buf : Bytes) :
    (writeNext buf (.error interruptedError) : Prog streamSig _) = .ret (.inl buf) := rfl

/-- `readExact` ends: every call uses up part of the list of fates or of the
input, or is the last. -/
theorem halts_readLoop (n : Nat) {m : Nat} :
    ∀ {acc : Chunk n} {s : Pieces}, s.reads.length + s.input.length ≤ m →
      Halts handler (.loop (fun acc : Chunk n =>
        if h : acc.1.length < n then
          (streamReader.read (n - acc.1.length)).bind (readNext acc)
        else .ret (.inr (.ok ⟨acc.1, by have := acc.2; omega⟩))) acc .ret) s := by
  induction m with
  | zero =>
    intro acc s hm
    refine .loop ?_
    split
    next hlt =>
      refine .call ?_
      show Halts handler (((readNext acc (s.read _).1)).bind _) (s.read _).2
      rcases s.read_cases (n - acc.1.length) with ⟨ps, hps, -⟩ | ⟨d, rest, ps, hin, hnil, hps, heq⟩
      · rw [hps] at hm; simp at hm
      · have hd : d.1 = [] := by
          have hlen := congrArg List.length hin
          rw [List.length_append] at hlen
          exact List.eq_nil_of_length_eq_zero (by omega)
        rw [heq, readNext, if_pos hd]
        exact .ret
    next => exact .ret
  | succ m ih =>
    intro acc s hm
    refine .loop ?_
    split
    next hlt =>
      refine .call ?_
      show Halts handler (((readNext acc (s.read _).1)).bind _) (s.read _).2
      rcases s.read_cases (n - acc.1.length) with ⟨ps, hps, heq⟩ | ⟨d, rest, ps, hin, hnil, hps, heq⟩
      · rw [heq, readNext_interrupted]
        exact ih (by rw [hps] at hm; simp only [List.length_cons] at hm ⊢; omega)
      · rw [heq, readNext]
        by_cases hd : d.1 = []
        · rw [if_pos hd]
          exact .ret
        · rw [if_neg hd]
          have hpos := List.length_pos_of_ne_nil hd
          exact ih (by rw [hin, List.length_append] at hm; simp only; omega)
    next => exact .ret

theorem halts_readExact (n : Nat) (s : Pieces) :
    Halts handler (streamReader.readExact n).run s :=
  halts_readLoop n (Nat.le_refl _)

/-- `writeAll` ends: every call uses up part of the list of fates or of the
buffer. -/
theorem halts_writeLoop {m : Nat} :
    ∀ {buf : Bytes} {s : Pieces}, s.writes.length + buf.length ≤ m →
      Halts handler (.loop (fun buf : Bytes =>
        if buf = [] then .ret (.inr (.ok ()))
        else (streamWriter.write buf).bind (writeNext buf)) buf .ret) s := by
  induction m with
  | zero =>
    intro buf s hm
    refine .loop ?_
    rw [if_pos (List.eq_nil_of_length_eq_zero (by omega))]
    exact .ret
  | succ m ih =>
    intro buf s hm
    refine .loop ?_
    split
    next => exact .ret
    next hb =>
      refine .call ?_
      show Halts handler ((writeNext buf (s.write buf).1).bind _) (s.write buf).2
      rcases s.write_cases buf with ⟨ps, hps, heq⟩ | ⟨k, ps, hk, hps, heq⟩
      · rw [heq, writeNext_interrupted]
        exact ih (by rw [hps] at hm; simp only [List.length_cons] at hm ⊢; omega)
      · have hpos := hk hb
        have hle := k.2
        rw [heq, writeNext, if_neg (by omega)]
        exact ih (by simp only [List.length_drop]; omega)

theorem halts_writeAll (buf : Bytes) (s : Pieces) :
    Halts handler (streamWriter.writeAll buf).run s :=
  halts_writeLoop (Nat.le_refl _)

/-! ## What the traces do to the stream -/

/-- Reads deliver the front of the input and leave the rest. -/
theorem Reading.input {W : Bytes → Nat → Prop} {tr : List (Event streamSig)} {d : Bytes}
    (h : Reading streamReader W tr d) {s s' : Pieces} (hc : Consistent handler s tr s') :
    s.input = d ++ s'.input := by
  induction h generalizing s' with
  | nil => cases hc; rfl
  | @read tr d n b _ _ ih =>
    obtain ⟨s₁, h₁, h₂⟩ := hc.append_inv
    obtain ⟨rfl, rfl⟩ := h₂.single
    rw [ih h₁]
    show d ++ s₁.input = (d ++ delivered (s₁.read n).1) ++ (s₁.read n).2.input
    rcases s₁.read_cases n with ⟨ps, -, heq⟩ | ⟨c, rest, ps, hin, -, -, heq⟩
    · rw [heq]
      simp [delivered]
    · rw [heq, hin]
      simp [delivered]

/-- Writes append what they took to the output. -/
theorem Writing.output {full : Bytes} {tr : List (Event streamSig)} {d : Bytes}
    (h : Writing streamWriter full tr d) {s s' : Pieces} (hc : Consistent handler s tr s') :
    s'.output = s.output ++ d := by
  induction h generalizing s' with
  | nil => cases hc; simp
  | @write tr d buf b _ _ _ ih =>
    obtain ⟨s₁, h₁, h₂⟩ := hc.append_inv
    obtain ⟨rfl, rfl⟩ := h₂.single
    show (s₁.write buf).2.output = s.output ++ (d ++ taken (s₁.write buf).1)
    rw [← List.append_assoc, ← ih h₁]
    rcases s₁.write_cases buf with ⟨ps, -, heq⟩ | ⟨k, ps, -, -, heq⟩
    · rw [heq]
      simp [taken]
    · rw [heq]
      rfl

/-- What has been read is not read again. -/
theorem input_suffix {s s' : Pieces} {tr : List (Event streamSig)}
    (hc : Consistent handler s tr s') : s'.input <:+ s.input := by
  induction hc with
  | nil => exact List.suffix_refl _
  | @cons s s' op tr _ ih =>
    refine ih.trans ?_
    cases op with
    | read n =>
      show (s.read n).2.input <:+ s.input
      rcases s.read_cases n with ⟨ps, -, heq⟩ | ⟨c, rest, ps, hin, -, -, heq⟩
      · simp only [heq, List.suffix_refl]
      · rw [heq, hin]
        exact List.suffix_append _ _
    | write buf =>
      show (s.write buf).2.input <:+ s.input
      rcases s.write_cases buf with ⟨ps, -, heq⟩ | ⟨k, ps, -, -, heq⟩
      · simp only [heq, List.suffix_refl]
      · simp only [heq, List.suffix_refl]

/-- The stream does not fail: a fault of a read is that the input is used up. -/
theorem ReadFault.eof {e : IoError} {tr : List (Event streamSig)}
    (h : ReadFault streamReader e tr) {s s' : Pieces} (hc : Consistent handler s tr s') :
    e = readExactEof ∧ s'.input = [] := by
  rcases h with ⟨hk, n, b, hmem, hans⟩ | ⟨he, n, b, hmem, hn, d, hans, hd⟩
  · -- the only error the stream gives is an interruption
    obtain ⟨t₁, t₂, rfl⟩ := List.append_of_mem hmem
    obtain ⟨s₁, h₁, h₂⟩ := hc.append_inv
    cases h₂ with
    | cons h₂ =>
      have hans : (s₁.read n).1 = .error e := hans
      rcases s₁.read_cases n with ⟨ps, -, heq⟩ | ⟨c, rest, ps, -, -, -, heq⟩
      · rw [heq] at hans
        injection hans with hans
        rw [← hans] at hk
        exact absurd rfl hk
      · rw [heq] at hans
        cases hans
  · refine ⟨he, ?_⟩
    obtain ⟨t₁, t₂, rfl⟩ := List.append_of_mem hmem
    obtain ⟨s₁, h₁, h₂⟩ := hc.append_inv
    cases h₂ with
    | cons h₂ =>
      have hans : (s₁.read n).1 = .ok d := hans
      have hsuf : _ <:+ (s₁.read n).2.input := input_suffix h₂
      rcases s₁.read_cases n with ⟨ps, -, heq⟩ | ⟨c, rest, ps, -, hnil, -, heq⟩
      · rw [heq] at hans
        cases hans
      · rw [heq] at hans hsuf
        injection hans with hans
        rw [hnil hn (hans ▸ hd)] at hsuf
        exact List.suffix_nil.mp hsuf

/-- The stream does not fail: nor does it take nothing of a buffer. -/
theorem not_writeFault {e : IoError} {tr : List (Event streamSig)} {s s' : Pieces}
    (hc : Consistent handler s tr s') : ¬ WriteFault streamWriter e tr := by
  rintro (⟨hk, buf, b, hmem, hans⟩ | ⟨-, buf, b, hmem, hb, k, hans, hk⟩)
  · obtain ⟨t₁, t₂, rfl⟩ := List.append_of_mem hmem
    obtain ⟨s₁, h₁, h₂⟩ := hc.append_inv
    cases h₂ with
    | cons h₂ =>
      have hans : (s₁.write buf).1 = .error e := hans
      rcases s₁.write_cases buf with ⟨ps, -, heq⟩ | ⟨j, ps, -, -, heq⟩
      · rw [heq] at hans
        injection hans with hans
        rw [← hans] at hk
        exact hk rfl
      · rw [heq] at hans
        cases hans
  · obtain ⟨t₁, t₂, rfl⟩ := List.append_of_mem hmem
    obtain ⟨s₁, h₁, h₂⟩ := hc.append_inv
    cases h₂ with
    | cons h₂ =>
      have hans : (s₁.write buf).1 = .ok k := hans
      rcases s₁.write_cases buf with ⟨ps, -, heq⟩ | ⟨j, ps, hj, -, heq⟩
      · rw [heq] at hans
        cases hans
      · rw [heq] at hans
        injection hans with hans
        have hpos := hj hb
        rw [hans] at hpos
        omega

end Pieces

end Rust
