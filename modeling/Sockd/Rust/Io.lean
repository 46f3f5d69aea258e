import Sockd.Bytes.BigEndian
import Sockd.Effects.Spec

/-!
# `std::io`: errors, and the loops over short reads and writes

A `Reader` is one call that asks for at most `n` bytes and answers a chunk or an
error; a `Writer` is one call that offers a buffer and answers how much of it was
taken. `readExact` and `writeAll` are the loops `std` builds on them: they retry
`Interrupted`, and end-of-file or a zero-byte write is an error of its own.

`Reading r W tr d` and `Writing w full tr d` say what a trace of such calls
amounts to: `tr` consists of reads (writes) only and they delivered (took) `d`.
`W d n` restricts what may be asked for when `d` has been delivered, which is how
a reader that never asks for too much is described. The two loops are specified
by these relations (`readExact_spec`, `writeAll_spec`), so a statement about a
stream only has to be proved for one read and one write.
-/

namespace Rust

open Effects Effects.Prog

/-- `std::io::ErrorKind`, the kinds that matter here. -/
inductive ErrorKind
  | notFound | permissionDenied | connectionRefused | connectionReset | connectionAborted
  | notConnected | addrInUse | brokenPipe | alreadyExists | wouldBlock | invalidData
  | timedOut | writeZero | interrupted | unexpectedEof | other
  deriving DecidableEq, Repr

/-- `std::io::Error`. -/
structure IoError where
  kind : ErrorKind
  message : String
  deriving DecidableEq, Repr

/-- `READ_EXACT_EOF`. -/
def readExactEof : IoError := ⟨.unexpectedEof, "failed to fill whole buffer"⟩

/-- `WRITE_ALL_EOF`. -/
def writeAllEof : IoError := ⟨.writeZero, "failed to write whole buffer"⟩

/-- What a read of at most `n` bytes can deliver. -/
abbrev Chunk (n : Nat) : Type := { d : Bytes // d.length ≤ n }

/-- A buffer of `n` bytes. -/
abbrev Filled (n : Nat) : Type := { d : Bytes // d.length = n }

/-- How much of a buffer a write can take. -/
abbrev Taken (buf : Bytes) : Type := { k : Nat // k ≤ buf.length }

/-- A read at the end of the stream. -/
def nothing (n : Nat) : Chunk n := ⟨[], Nat.zero_le n⟩

/-- A write that takes the whole buffer. -/
def whole (buf : Bytes) : Taken buf := ⟨buf.length, Nat.le_refl _⟩

/-- `std::io::Read`: the call behind `read`. -/
structure Reader (E : Sig) where
  op : Nat → E.Op
  answer : ∀ n, E.Ans (op n) → Except IoError (Chunk n)

/-- `std::io::Write`: the call behind `write`, and `flush`. -/
structure Writer (E : Sig) where
  op : Bytes → E.Op
  answer : ∀ buf, E.Ans (op buf) → Except IoError (Taken buf)
  flush : Try E IoError Unit

variable {E : Sig}

/-- `Read::read`. -/
def Reader.read (r : Reader E) (n : Nat) : Prog E (Except IoError (Chunk n)) :=
  .call (r.op n) fun b => .ret (r.answer n b)

/-- `Write::write`. -/
def Writer.write (w : Writer E) (buf : Bytes) : Prog E (Except IoError (Taken buf)) :=
  .call (w.op buf) fun b => .ret (w.answer buf b)

/-- What `readExact` does with the answer to a read after `acc`. -/
def readNext {n : Nat} (acc : Chunk n) : Except IoError (Chunk (n - acc.1.length)) →
    Prog E (Chunk n ⊕ Except IoError (Filled n))
  | .ok d =>
    if d.1 = [] then .ret (.inr (.error readExactEof))
    else .ret (.inl ⟨acc.1 ++ d.1, by have := acc.2; have := d.2; simp; omega⟩)
  | .error e => if e.kind = .interrupted then .ret (.inl acc) else .ret (.inr (.error e))

/-- `Read::read_exact` into a buffer of `n` bytes. -/
def Reader.readExact (r : Reader E) (n : Nat) : Try E IoError (Filled n) :=
  ⟨.loop (fun acc : Chunk n =>
    if h : acc.1.length < n then (r.read (n - acc.1.length)).bind (readNext acc)
    else .ret (.inr (.ok ⟨acc.1, by have := acc.2; omega⟩))) ⟨[], Nat.zero_le n⟩ .ret⟩

/-- What `writeAll` does with the answer to a write of `buf`. -/
def writeNext (buf : Bytes) : Except IoError (Taken buf) →
    Prog E (Bytes ⊕ Except IoError Unit)
  | .ok k => if k.1 = 0 then .ret (.inr (.error writeAllEof)) else .ret (.inl (buf.drop k.1))
  | .error e => if e.kind = .interrupted then .ret (.inl buf) else .ret (.inr (.error e))

/-- `Write::write_all`. -/
def Writer.writeAll (w : Writer E) (buf : Bytes) : Try E IoError Unit :=
  ⟨.loop (fun buf : Bytes =>
    if buf = [] then .ret (.inr (.ok ())) else (w.write buf).bind (writeNext buf)) buf .ret⟩

theorem allCalls_readExact {A : E.Op → Prop} (r : Reader E) (n : Nat) (hA : ∀ k, A (r.op k)) :
    AllCalls A (r.readExact n).run := by
  refine ⟨fun acc => ?_, fun _ => trivial⟩
  beta_reduce
  split
  next =>
    refine ⟨hA _, fun b => ?_⟩
    show AllCalls A (readNext acc (r.answer _ b))
    cases r.answer _ b with
    | ok d => simp only [readNext]; split <;> trivial
    | error e => simp only [readNext]; split <;> trivial
  next => trivial

theorem allCalls_writeAll {A : E.Op → Prop} (w : Writer E) (buf : Bytes)
    (hA : ∀ buf, A (w.op buf)) : AllCalls A (w.writeAll buf).run := by
  refine ⟨fun buf => ?_, fun _ => trivial⟩
  beta_reduce
  split
  next => trivial
  next =>
    refine ⟨hA _, fun b => ?_⟩
    show AllCalls A (writeNext buf (w.answer _ b))
    cases w.answer _ b with
    | ok k => simp only [writeNext]; split <;> trivial
    | error e => simp only [writeNext]; split <;> trivial

/-! ## What a trace of reads delivers -/

/-- The bytes an answer delivers. -/
def delivered {n : Nat} : Except IoError (Chunk n) → Bytes
  | .ok d => d.1
  | .error _ => []

/-- `tr` consists of reads that delivered `d`; each asked for `n` bytes with
`W d n` when `d` had been delivered. -/
inductive Reading (r : Reader E) (W : Bytes → Nat → Prop) : List (Event E) → Bytes → Prop
  | nil : Reading r W [] []
  | read {tr : List (Event E)} {d : Bytes} {n : Nat} {b : E.Ans (r.op n)} :
      Reading r W tr d → W d n →
      Reading r W (tr ++ [⟨r.op n, b⟩]) (d ++ delivered (r.answer n b))

theorem Reading.mono {r : Reader E} {W W' : Bytes → Nat → Prop} {tr : List (Event E)} {d : Bytes}
    (h : Reading r W tr d) (hW : ∀ d n, W d n → W' d n) : Reading r W' tr d := by
  induction h with
  | nil => exact .nil
  | read _ hw ih => exact .read ih (hW _ _ hw)

/-- The last read of a trace. -/
theorem Reading.last {r : Reader E} {W : Bytes → Nat → Prop} {tr : List (Event E)} {e : Event E}
    {d' : Bytes} (h : Reading r W (tr ++ [e]) d') :
    ∃ d n, e.1 = r.op n ∧ Reading r W tr d ∧ W d n := by
  generalize ht : tr ++ [e] = t at h
  cases h with
  | nil => simp at ht
  | @read tr' d n b hr hw =>
    obtain ⟨rfl, he⟩ := List.append_inj' ht rfl
    obtain rfl := List.singleton_injective he
    exact ⟨d, n, rfl, hr, hw⟩

/-- Reads one after another: the second part asks relative to what the first
delivered. -/
theorem Reading.append {r : Reader E} {W W' : Bytes → Nat → Prop} {t₁ t₂ : List (Event E)}
    {d₁ d₂ : Bytes} (h₁ : Reading r W t₁ d₁) (h₂ : Reading r W' t₂ d₂)
    (hW : ∀ d n, W' d n → W (d₁ ++ d) n) : Reading r W (t₁ ++ t₂) (d₁ ++ d₂) := by
  induction h₂ with
  | nil => simpa using h₁
  | read _ hw ih =>
    rw [← List.append_assoc, ← List.append_assoc]
    exact .read ih (hW _ _ hw)

/-- A read of the trace failed with `e`. -/
def ReadFailed (r : Reader E) (e : IoError) (tr : List (Event E)) : Prop :=
  ∃ n b, ⟨r.op n, b⟩ ∈ tr ∧ r.answer n b = .error e

/-- A read of the trace that asked for something met end-of-file. -/
def ReadEof (r : Reader E) (tr : List (Event E)) : Prop :=
  ∃ n b, ⟨r.op n, b⟩ ∈ tr ∧ 0 < n ∧ ∃ d, r.answer n b = .ok d ∧ d.1 = []

/-- Why `readExact` fails: a read failed, or met end-of-file. -/
def ReadFault (r : Reader E) (e : IoError) (tr : List (Event E)) : Prop :=
  (e.kind ≠ .interrupted ∧ ReadFailed r e tr) ∨ (e = readExactEof ∧ ReadEof r tr)

theorem ReadFault.mono {r : Reader E} {e : IoError} {t₁ t₂ : List (Event E)}
    (h : ReadFault r e t₁) (ht : ∀ ev ∈ t₁, ev ∈ t₂) : ReadFault r e t₂ := by
  rcases h with ⟨hk, n, b, hb, ha⟩ | ⟨he, n, b, hb, ha⟩
  · exact .inl ⟨hk, n, b, ht _ hb, ha⟩
  · exact .inr ⟨he, n, b, ht _ hb, ha⟩

/-- `readExact n` never asks for more than is missing. -/
def Missing (n : Nat) (d : Bytes) (k : Nat) : Prop := 0 < k ∧ d.length + k = n

/-- `readExact n` delivers `n` bytes, or fails before it has them all because a
read failed or met end-of-file. -/
theorem readExact_spec (r : Reader E) (n : Nat) :
    Spec Spec.record [] (r.readExact n).run
      (fun tr => ∃ d, Reading r (Missing n) tr d ∧ d.length ≤ n)
      (fun res tr => ∃ d, Reading r (Missing n) tr d ∧
        match res with
        | .ok d' => d'.1 = d
        | .error e => d.length < n ∧ ReadFault r e tr) := by
  refine Spec.loop
    (fun acc tr => Reading r (Missing n) tr acc.1)
    (fun res tr => ∃ d, Reading r (Missing n) tr d ∧ d.length ≤ n ∧
      match res with
      | .ok d' => d'.1 = d
      | .error e => d.length < n ∧ ReadFault r e tr)
    .nil ?_ ?_
  · intro acc tr hr
    have hacc := acc.2
    split
    next hlt =>
      refine Spec.call ⟨acc.1, hr, hacc⟩ fun b => ?_
      have hr' := hr.read (b := b) (show Missing n acc.1 (n - acc.1.length) by
        constructor <;> omega)
      have hlen : (acc.1 ++ delivered (r.answer _ b)).length ≤ n := by
        cases hb : r.answer _ b with
        | ok d => have := d.2; simp [delivered]; omega
        | error e => simpa [delivered] using hacc
      show Spec _ _ (readNext acc (r.answer _ b)) _ _
      cases hb : r.answer _ b with
      | ok d =>
        rw [hb] at hr' hlen
        simp only [readNext]
        split
        next hd =>
          refine .ret ⟨_, hr', hlen⟩ ⟨_, hr', hlen, ?_, .inr ⟨rfl, _, b, ?_, ?_, d, hb, hd⟩⟩
          · simpa [delivered, hd] using hlt
          · simp [Spec.record]
          · omega
        next => exact .ret ⟨_, hr', hlen⟩ hr'
      | error e =>
        rw [hb] at hr' hlen
        simp only [delivered, List.append_nil] at hr' hlen
        simp only [readNext]
        split
        next => exact .ret ⟨_, hr', hlen⟩ hr'
        next hk =>
          exact .ret ⟨_, hr', hlen⟩ ⟨_, hr', hlen, hlt, .inl ⟨hk, _, b, by simp [Spec.record], hb⟩⟩
    next hge => exact .ret ⟨_, hr, hacc⟩ ⟨_, hr, hacc, rfl⟩
  · rintro res tr - ⟨d, hr, hle, hres⟩
    exact .ret ⟨d, hr, hle⟩ ⟨d, hr, hres⟩

/-! ## What a trace of writes takes -/

/-- The bytes of `buf` an answer says were taken. -/
def taken {buf : Bytes} : Except IoError (Taken buf) → Bytes
  | .ok k => buf.take k.1
  | .error _ => []

/-- `tr` consists of writes that took `d`, each offering what follows in `full`. -/
inductive Writing (w : Writer E) (full : Bytes) : List (Event E) → Bytes → Prop
  | nil : Writing w full [] []
  | write {tr : List (Event E)} {d buf : Bytes} {b : E.Ans (w.op buf)} :
      Writing w full tr d → buf ≠ [] → d ++ buf <+: full →
      Writing w full (tr ++ [⟨w.op buf, b⟩]) (d ++ taken (w.answer buf b))

theorem Writing.append {w : Writer E} {full rest : Bytes} {t₁ t₂ : List (Event E)}
    {d₁ d₂ : Bytes} (h₁ : Writing w full t₁ d₁) (h₂ : Writing w rest t₂ d₂)
    (hfull : d₁ ++ rest <+: full) : Writing w full (t₁ ++ t₂) (d₁ ++ d₂) := by
  induction h₂ with
  | nil => simpa using h₁
  | @write tr d buf b _ hne hp ih =>
    rw [← List.append_assoc, ← List.append_assoc]
    refine .write ih hne ?_
    rw [List.append_assoc]
    exact ((List.prefix_append_right_inj d₁).mpr hp).trans hfull

theorem Writing.mono {w : Writer E} {full full' : Bytes} {tr : List (Event E)} {d : Bytes}
    (h : Writing w full tr d) (hf : full <+: full') : Writing w full' tr d := by
  have h₀ : Writing w full' [] [] := .nil
  simpa using h₀.append h (by simpa using hf)

theorem taken_le {buf : Bytes} (a : Except IoError (Taken buf)) : taken a <+: buf := by
  cases a with
  | ok k => exact List.take_prefix _ _
  | error e => exact List.nil_prefix

theorem Writing.le {w : Writer E} {full : Bytes} {tr : List (Event E)} {d : Bytes}
    (h : Writing w full tr d) : d <+: full := by
  cases h with
  | nil => exact List.nil_prefix
  | write _ _ hp => exact ((List.prefix_append_right_inj _).mpr (taken_le _)).trans hp

/-- The last write of a trace. -/
theorem Writing.last {w : Writer E} {full : Bytes} {tr : List (Event E)} {e : Event E} {d' : Bytes}
    (h : Writing w full (tr ++ [e]) d') :
    ∃ d buf, e.1 = w.op buf ∧ Writing w full tr d ∧ buf ≠ [] ∧ d ++ buf <+: full := by
  generalize ht : tr ++ [e] = t at h
  cases h with
  | nil => simp at ht
  | @write tr' d buf b hw hne hle =>
    obtain ⟨rfl, he⟩ := List.append_inj' ht rfl
    obtain rfl := List.singleton_injective he
    exact ⟨d, buf, rfl, hw, hne, hle⟩

/-- No writes, nothing taken. -/
theorem Writing.eq_nil {w : Writer E} {full d : Bytes} (h : Writing w full [] d) : d = [] := by
  generalize ht : ([] : List (Event E)) = tr at h
  cases h with
  | nil => rfl
  | write _ _ _ => simp at ht

/-- A write of the trace failed with `e`. -/
def WriteFailed (w : Writer E) (e : IoError) (tr : List (Event E)) : Prop :=
  ∃ buf b, ⟨w.op buf, b⟩ ∈ tr ∧ w.answer buf b = .error e

/-- A write of the trace that offered something took nothing. -/
def WriteEof (w : Writer E) (tr : List (Event E)) : Prop :=
  ∃ buf b, ⟨w.op buf, b⟩ ∈ tr ∧ buf ≠ [] ∧ ∃ k, w.answer buf b = .ok k ∧ k.1 = 0

/-- Why `writeAll` fails: a write failed, or took nothing. -/
def WriteFault (w : Writer E) (e : IoError) (tr : List (Event E)) : Prop :=
  (e.kind ≠ .interrupted ∧ WriteFailed w e tr) ∨ (e = writeAllEof ∧ WriteEof w tr)

theorem WriteFault.mono {w : Writer E} {e : IoError} {t₁ t₂ : List (Event E)}
    (h : WriteFault w e t₁) (ht : ∀ ev ∈ t₁, ev ∈ t₂) : WriteFault w e t₂ := by
  rcases h with ⟨hk, n, b, hb, ha⟩ | ⟨he, n, b, hb, ha⟩
  · exact .inl ⟨hk, n, b, ht _ hb, ha⟩
  · exact .inr ⟨he, n, b, ht _ hb, ha⟩

/-- `writeAll full` takes all of `full`, or fails before because a write failed
or took nothing. -/
theorem writeAll_spec (w : Writer E) (full : Bytes) :
    Spec Spec.record [] (w.writeAll full).run
      (fun tr => ∃ d, Writing w full tr d)
      (fun res tr => ∃ d, Writing w full tr d ∧
        match res with
        | .ok () => d = full
        | .error e => d.length < full.length ∧ WriteFault w e tr) := by
  refine Spec.loop
    (fun buf tr => ∃ d, Writing w full tr d ∧ d ++ buf = full)
    (fun res tr => ∃ d, Writing w full tr d ∧
      match res with
      | .ok () => d = full
      | .error e => d.length < full.length ∧ WriteFault w e tr)
    ⟨[], .nil, rfl⟩ ?_ ?_
  · rintro buf tr ⟨d, hw, rfl⟩
    split
    next hb =>
      subst hb
      exact .ret ⟨d, hw⟩ ⟨d, hw, by simp⟩
    next hb =>
      refine Spec.call ⟨d, hw⟩ fun b => ?_
      have hw' := hw.write (b := b) hb (List.prefix_refl _)
      show Spec _ _ (writeNext buf (w.answer _ b)) _ _
      have hpos : 0 < buf.length := List.length_pos_of_ne_nil hb
      cases ha : w.answer _ b with
      | ok k =>
        rw [ha] at hw'
        simp only [writeNext]
        split
        next hk =>
          refine .ret ⟨_, hw'⟩ ⟨_, hw', ?_, .inr ⟨rfl, buf, b, by simp [Spec.record], hb, k, ha, hk⟩⟩
          simp [taken, hk, hpos]
        next => exact .ret ⟨_, hw'⟩ ⟨_, hw', by simp [taken]⟩
      | error e =>
        rw [ha] at hw'
        simp only [taken, List.append_nil] at hw'
        simp only [writeNext]
        split
        next => exact .ret ⟨_, hw'⟩ ⟨_, hw', rfl⟩
        next hk =>
          exact .ret ⟨_, hw'⟩ ⟨_, hw', by simp [hpos], .inl ⟨hk, buf, b, by simp [Spec.record], ha⟩⟩
  · rintro res tr - ⟨d, hw, hres⟩
    exact .ret ⟨d, hw⟩ ⟨d, hw, hres⟩

end Rust
