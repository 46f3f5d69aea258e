import Sockd.Bytes.Utf8

/-!
# JSON strings, byte by byte

A `Literal` is what stands between the quotation marks of a JSON string: plain bytes,
two-byte escapes and escaped code units. `Literal.decode` is the UTF-8 form of the string
that it spells; there is none where a surrogate stands alone. `lexLiteral` reads a literal
up to its closing quotation mark, and `lexLiteral_eq_some` says that it reads just those.

Bytes from 0x80 on are taken as they are, so texts that are no UTF-8 have literals too.
-/

namespace Json

/-- The quotation mark. -/
def quote : UInt8 := 0x22

/-- The reverse solidus. -/
def backslash : UInt8 := 0x5c

/-! ## Pieces -/

/-- The escapes of one letter. -/
inductive Escape
  | quote | backslash | slash | b | f | n | r | t
  deriving DecidableEq, Repr

namespace Escape

/-- What is written after the reverse solidus. -/
def letter : Escape → UInt8
  | quote => 0x22
  | backslash => 0x5c
  | slash => 0x2f
  | b => 0x62
  | f => 0x66
  | n => 0x6e
  | r => 0x72
  | t => 0x74

/-- What is meant. -/
def value : Escape → UInt8
  | quote => 0x22
  | backslash => 0x5c
  | slash => 0x2f
  | b => 0x08
  | f => 0x0c
  | n => 0x0a
  | r => 0x0d
  | t => 0x09

/-- The escape with this letter. -/
def ofLetter? (c : UInt8) : Option Escape :=
  [quote, backslash, slash, b, f, n, r, t].find? fun e => e.letter == c

theorem letter_of_ofLetter? {c : UInt8} {e : Escape} (h : ofLetter? c = some e) : e.letter = c := by
  simpa using List.find?_some h

end Escape

/-- The value of a hexadecimal digit. -/
def hexValue? (b : UInt8) : Option Nat :=
  if 0x30 ≤ b ∧ b ≤ 0x39 then some (b.toNat - 0x30)
  else if 0x41 ≤ b ∧ b ≤ 0x46 then some (b.toNat - 0x37)
  else if 0x61 ≤ b ∧ b ≤ 0x66 then some (b.toNat - 0x57)
  else none

/-- A hexadecimal digit. -/
structure HexDigit where
  byte : UInt8
  isHex : (hexValue? byte).isSome = true
  deriving DecidableEq

/-- Its value. -/
def HexDigit.value (d : HexDigit) : Nat := (hexValue? d.byte).getD 0

/-- The byte as a hexadecimal digit. -/
def hexDigit? (b : UInt8) : Option HexDigit :=
  if h : (hexValue? b).isSome = true then some ⟨b, h⟩ else none

/-- Four hexadecimal digits. -/
structure CodeUnit where
  d₁ : HexDigit
  d₂ : HexDigit
  d₃ : HexDigit
  d₄ : HexDigit
  deriving DecidableEq

namespace CodeUnit

def bytes (u : CodeUnit) : Bytes := [u.d₁.byte, u.d₂.byte, u.d₃.byte, u.d₄.byte]

def value (u : CodeUnit) : Nat :=
  ((u.d₁.value * 16 + u.d₂.value) * 16 + u.d₃.value) * 16 + u.d₄.value

/-- The first half of a surrogate pair. -/
def IsHigh (u : CodeUnit) : Prop := 0xd800 ≤ u.value ∧ u.value < 0xdc00

/-- The second half of a surrogate pair. -/
def IsLow (u : CodeUnit) : Prop := 0xdc00 ≤ u.value ∧ u.value < 0xe000

instance (u : CodeUnit) : Decidable u.IsHigh := inferInstanceAs (Decidable (_ ∧ _))

instance (u : CodeUnit) : Decidable u.IsLow := inferInstanceAs (Decidable (_ ∧ _))

/-- The character that is no surrogate. -/
def char (u : CodeUnit) : Char := Char.ofNat u.value

/-- The character of a surrogate pair. -/
def pair (hi lo : CodeUnit) : Char :=
  Char.ofNat (0x10000 + (hi.value - 0xd800) * 0x400 + (lo.value - 0xdc00))

end CodeUnit

/-- The byte stands for itself. -/
def IsPlain (b : UInt8) : Prop := 0x20 ≤ b ∧ b ≠ quote ∧ b ≠ backslash

instance (b : UInt8) : Decidable (IsPlain b) := inferInstanceAs (Decidable (_ ∧ _))

/-- A piece of a string, as it is written. -/
inductive Piece
  | plain (b : UInt8) (h : IsPlain b)
  | short (e : Escape)
  | unit (u : CodeUnit)
  deriving DecidableEq

/-- What is written. -/
def Piece.bytes : Piece → Bytes
  | plain b _ => [b]
  | short e => [Json.backslash, e.letter]
  | unit u => Json.backslash :: 0x75 :: u.bytes

/-- What is written between the quotation marks of a string. -/
abbrev Literal : Type := List Piece

namespace Literal

def bytes (lit : Literal) : Bytes := lit.flatMap Piece.bytes

@[simp] theorem bytes_nil : bytes [] = [] := rfl

@[simp] theorem bytes_cons (p : Piece) (lit : Literal) : bytes (p :: lit) = p.bytes ++ bytes lit :=
  List.flatMap_cons

@[simp] theorem bytes_append (l₁ l₂ : Literal) : bytes (l₁ ++ l₂) = bytes l₁ ++ bytes l₂ :=
  List.flatMap_append

/-- The UTF-8 form of what is spelled, after the first half of a surrogate pair if there is
one. -/
def decodeFrom : Option CodeUnit → Literal → Option Bytes
  | none, [] => some []
  | none, .plain b _ :: lit => (decodeFrom none lit).map (b :: ·)
  | none, .short e :: lit => (decodeFrom none lit).map (e.value :: ·)
  | none, .unit u :: lit =>
    if u.IsHigh then decodeFrom (some u) lit
    else if u.IsLow then none
    else (decodeFrom none lit).map (Bytes.encode [u.char] ++ ·)
  | some hi, .unit u :: lit =>
    if u.IsLow then (decodeFrom none lit).map (Bytes.encode [hi.pair u] ++ ·) else none
  | some _, _ => none

/-- The UTF-8 form of the string. -/
def decode (lit : Literal) : Option Bytes := decodeFrom none lit

end Literal

/-! ## Reading a literal -/

/-- Read the rest of an escape. -/
def lexEscape : Bytes → Option (Piece × Bytes)
  | 0x75 :: d₁ :: d₂ :: d₃ :: d₄ :: rest => do
    let u : CodeUnit := ⟨← hexDigit? d₁, ← hexDigit? d₂, ← hexDigit? d₃, ← hexDigit? d₄⟩
    return (.unit u, rest)
  | c :: rest => (Escape.ofLetter? c).map fun e => (.short e, rest)
  | [] => none

/-- Read a piece. -/
def lexPiece : Bytes → Option (Piece × Bytes)
  | b :: rest =>
    if b = backslash then lexEscape rest
    else if h : IsPlain b then some (.plain b h, rest)
    else none
  | [] => none

/-- Read at most `n` pieces and the closing quotation mark. -/
def lexUpTo : Nat → Bytes → Option (Literal × Bytes)
  | n + 1, b :: rest =>
    if b = quote then some ([], rest)
    else do
      let (p, rest) ← lexPiece (b :: rest)
      let (lit, rest) ← lexUpTo n rest
      return (p :: lit, rest)
  | _, _ => none

/-- Read a literal and its closing quotation mark. -/
def lexLiteral (text : Bytes) : Option (Literal × Bytes) := lexUpTo text.length text

/-- Read a string after its opening quotation mark: what it spells, and what follows its
closing one. -/
def lexString (text : Bytes) : Option (Bytes × Bytes) := do
  let (lit, rest) ← lexLiteral text
  let s ← lit.decode
  return (s, rest)

section Reading

variable {text rest : Bytes} {lit : Literal} {p : Piece}

theorem hexDigit?_byte (d : HexDigit) : hexDigit? d.byte = some d := dif_pos d.isHex

theorem byte_of_hexDigit? {b : UInt8} {d : HexDigit} (h : hexDigit? b = some d) : d.byte = b := by
  unfold hexDigit? at h
  split at h
  next =>
    obtain rfl := Option.some.inj h
    rfl
  next => cases h

theorem lexPiece_bytes (p : Piece) (rest : Bytes) :
    lexPiece (p.bytes ++ rest) = some (p, rest) := by
  cases p with
  | plain b h =>
    show lexPiece (b :: rest) = _
    rw [lexPiece, if_neg h.2.2, dif_pos h]
  | short e =>
    show lexPiece (backslash :: e.letter :: rest) = _
    rw [lexPiece, if_pos rfl]
    cases e <;> rfl
  | unit u =>
    show lexPiece (backslash :: 0x75 :: u.d₁.byte :: u.d₂.byte :: u.d₃.byte :: u.d₄.byte :: rest) =
      _
    rw [lexPiece, if_pos rfl, lexEscape]
    simp only [hexDigit?_byte]
    rfl

theorem eq_of_lexEscape (h : lexEscape text = some (p, rest)) :
    backslash :: text = p.bytes ++ rest := by
  unfold lexEscape at h
  split at h
  next d₁ d₂ d₃ d₄ after =>
    simp only [Option.bind_eq_bind, Option.bind_eq_some_iff, Option.pure_def, Option.some.injEq,
      Prod.mk.injEq] at h
    obtain ⟨x₁, h₁, x₂, h₂, x₃, h₃, x₄, h₄, rfl, rfl⟩ := h
    rw [← byte_of_hexDigit? h₁, ← byte_of_hexDigit? h₂, ← byte_of_hexDigit? h₃,
      ← byte_of_hexDigit? h₄]
    rfl
  next c after _ =>
    obtain ⟨e, he, heq⟩ := Option.map_eq_some_iff.mp h
    obtain ⟨rfl, rfl⟩ := Prod.mk.inj heq
    rw [← Escape.letter_of_ofLetter? he]
    rfl
  next => cases h

theorem eq_of_lexPiece (h : lexPiece text = some (p, rest)) : text = p.bytes ++ rest := by
  unfold lexPiece at h
  split at h
  next b after =>
    split at h
    next hb =>
      rw [hb]
      exact eq_of_lexEscape h
    next =>
      split at h
      next =>
        obtain ⟨rfl, rfl⟩ := Prod.mk.inj (Option.some.inj h)
        rfl
      next => cases h
  next => cases h

/-- A piece begins with a byte that is no quotation mark. -/
theorem Piece.bytes_eq_cons (p : Piece) : ∃ b bs, p.bytes = b :: bs ∧ b ≠ Json.quote := by
  cases p with
  | plain b h => exact ⟨b, [], rfl, h.2.1⟩
  | short e => exact ⟨Json.backslash, [e.letter], rfl, by decide⟩
  | unit u => exact ⟨Json.backslash, 0x75 :: u.bytes, rfl, by decide⟩

theorem lexUpTo_bytes {n : Nat} (hn : lit.length < n) :
    lexUpTo n (lit.bytes ++ quote :: rest) = some (lit, rest) := by
  induction lit generalizing n with
  | nil =>
    obtain ⟨n, rfl⟩ : ∃ m, n = m + 1 := ⟨n - 1, by omega⟩
    exact if_pos rfl
  | cons p lit ih =>
    obtain ⟨n, rfl⟩ : ∃ m, n = m + 1 := ⟨n - 1, by omega⟩
    have hp := lexPiece_bytes p (Literal.bytes lit ++ quote :: rest)
    obtain ⟨b, bs, hb, hne⟩ := p.bytes_eq_cons
    rw [hb, List.cons_append] at hp
    rw [Literal.bytes_cons, List.append_assoc, hb, List.cons_append, lexUpTo, if_neg hne, hp]
    simp only [Option.bind_eq_bind, Option.bind_some, ih (Nat.lt_of_succ_lt_succ hn),
      Option.pure_def]

theorem eq_of_lexUpTo {n : Nat} (h : lexUpTo n text = some (lit, rest)) :
    text = lit.bytes ++ quote :: rest := by
  induction n generalizing text lit with
  | zero => cases h
  | succ n ih =>
    cases text with
    | nil => cases h
    | cons b text =>
      rw [lexUpTo] at h
      split at h
      next hb =>
        obtain ⟨rfl, rfl⟩ := Prod.mk.inj (Option.some.inj h)
        rw [hb]
        rfl
      next =>
        simp only [Option.bind_eq_bind, Option.bind_eq_some_iff, Option.pure_def, Option.some.injEq,
          Prod.mk.injEq] at h
        obtain ⟨⟨p, after⟩, hp, ⟨lit, after'⟩, hlit, rfl, rfl⟩ := h
        have htail : after = Literal.bytes lit ++ quote :: after' := ih hlit
        rw [eq_of_lexPiece hp, htail]
        exact (List.append_assoc _ _ _).symm

theorem Literal.length_le (lit : Literal) : lit.length ≤ lit.bytes.length := by
  induction lit with
  | nil => exact Nat.le_refl _
  | cons p lit ih =>
    obtain ⟨b, bs, hb, -⟩ := p.bytes_eq_cons
    rw [bytes_cons, List.length_append, hb, List.length_cons, List.length_cons]
    omega

/-- Just the literals are read, up to their closing quotation marks. -/
theorem lexLiteral_eq_some :
    lexLiteral text = some (lit, rest) ↔ text = lit.bytes ++ quote :: rest := by
  refine ⟨eq_of_lexUpTo, ?_⟩
  rintro rfl
  refine lexUpTo_bytes ?_
  have hle := lit.length_le
  rw [List.length_append, List.length_cons]
  omega

theorem lexString_bytes {s : Bytes} (hs : lit.decode = some s) :
    lexString (lit.bytes ++ quote :: rest) = some (s, rest) := by
  rw [lexString, lexLiteral_eq_some.mpr rfl]
  simp [hs]

end Reading

/-! ## What is written and what is spelled -/

namespace Literal

variable {lit : Literal} {s : Bytes}

theorem le_of_hexValue? {b : UInt8} (h : (hexValue? b).isSome = true) : 0x30 ≤ b := by
  unfold hexValue? at h
  split at h
  next hb => exact hb.1
  next =>
    split at h
    next hb => exact UInt8.le_trans (by decide : (0x30 : UInt8) ≤ 0x41) hb.1
    next =>
      split at h
      next hb => exact UInt8.le_trans (by decide : (0x30 : UInt8) ≤ 0x61) hb.1
      next => cases h

/-- There is no control byte in a literal. -/
theorem printable (lit : Literal) : ∀ b ∈ lit.bytes, 0x20 ≤ b := by
  intro b hb
  obtain ⟨p, -, hb⟩ := List.mem_flatMap.mp hb
  have hex : ∀ d : HexDigit, 0x20 ≤ d.byte := fun d =>
    UInt8.le_trans (by decide : (0x20 : UInt8) ≤ 0x30) (le_of_hexValue? d.isHex)
  cases p with
  | plain c h =>
    obtain rfl := List.mem_singleton.mp hb
    exact h.1
  | short e =>
    rcases List.mem_cons.mp hb with rfl | hb
    · decide
    · obtain rfl := List.mem_singleton.mp hb
      cases e <;> decide
  | unit u =>
    rcases List.mem_cons.mp hb with rfl | hb
    · decide
    rcases List.mem_cons.mp hb with rfl | hb
    · decide
    simp only [CodeUnit.bytes, List.mem_cons, List.not_mem_nil, or_false] at hb
    rcases hb with rfl | rfl | rfl | rfl
    · exact hex u.d₁
    · exact hex u.d₂
    · exact hex u.d₃
    · exact hex u.d₄

/-- What is written without a reverse solidus spells itself. -/
theorem decode_of_not_mem (h : Json.backslash ∉ lit.bytes) : lit.decode = some lit.bytes := by
  induction lit with
  | nil => rfl
  | cons p lit ih =>
    rw [bytes_cons, List.mem_append, not_or] at h
    cases p with
    | plain b hb =>
      have htail : decodeFrom none lit = some (bytes lit) := ih h.2
      rw [decode, decodeFrom, htail]
      rfl
    | short e => exact absurd List.mem_cons_self h.1
    | unit u => exact absurd List.mem_cons_self h.1

/-- The literal without escapes; bytes that need one are left out. -/
def ofPlain (bs : Bytes) : Literal :=
  bs.filterMap fun b => if h : IsPlain b then some (.plain b h) else none

theorem bytes_ofPlain {bs : Bytes} (h : (bs.all fun b => IsPlain b) = true) :
    (ofPlain bs).bytes = bs := by
  induction bs with
  | nil => rfl
  | cons b bs ih =>
    rw [List.all_cons, Bool.and_eq_true, decide_eq_true_eq] at h
    rw [ofPlain, List.filterMap_cons, dif_pos h.1]
    exact congrArg (b :: ·) (ih h.2)

/-- The most bytes that a piece stands for; a surrogate pair stands for four. -/
def room : Literal → Nat
  | [] => 0
  | .plain _ _ :: lit => 1 + room lit
  | .short _ :: lit => 1 + room lit
  | .unit _ :: lit => 3 + room lit

theorem length_encode_char (c : Char) : (Bytes.encode [c]).length = c.utf8Size := by
  rw [Bytes.encode, List.flatMap_singleton, String.length_utf8EncodeChar]

theorem hexDigit_value_lt (d : HexDigit) : d.value < 16 := by
  obtain ⟨b, hb⟩ := d
  show (hexValue? b).getD 0 < 16
  unfold hexValue?
  simp only [UInt8.le_iff_toNat_le]
  split
  next h =>
    have hlt : b.toNat ≤ 0x39 := h.2
    show b.toNat - 0x30 < 16
    omega
  next =>
    split
    next h =>
      have hlt : b.toNat ≤ 0x46 := h.2
      show b.toNat - 0x37 < 16
      omega
    next =>
      split
      next h =>
        have hlt : b.toNat ≤ 0x66 := h.2
        show b.toNat - 0x57 < 16
        omega
      next => exact Nat.zero_lt_succ _

theorem length_char_le (u : CodeUnit) : (Bytes.encode [u.char]).length ≤ 3 := by
  have hlt : u.value < 0x10000 := by
    have h₁ := hexDigit_value_lt u.d₁
    have h₂ := hexDigit_value_lt u.d₂
    have h₃ := hexDigit_value_lt u.d₃
    have h₄ := hexDigit_value_lt u.d₄
    unfold CodeUnit.value
    omega
  have hchar : u.char.val.toNat ≤ u.value := by
    unfold CodeUnit.char Char.ofNat
    by_cases hvalid : u.value.isValidChar
    · rw [dif_pos hvalid]
      exact Nat.le_refl _
    · rw [dif_neg hvalid]
      exact Nat.zero_le _
  have hsize : u.char.utf8Size ≠ 4 := by
    rw [Ne, Char.utf8Size_eq_four_iff, UInt32.lt_iff_toNat_lt]
    exact Nat.not_lt.mpr (Nat.le_of_lt_succ (Nat.lt_of_le_of_lt hchar hlt))
  have hle := u.char.utf8Size_le_four
  rw [length_encode_char]
  omega

/-- Nothing takes more bytes in UTF-8 than it may. -/
theorem length_decodeFrom_le {pending : Option CodeUnit} (h : decodeFrom pending lit = some s) :
    s.length ≤ room lit + if pending.isSome then 1 else 0 := by
  induction lit generalizing pending s with
  | nil =>
    cases pending with
    | none =>
      obtain rfl := Option.some.inj h
      exact Nat.zero_le _
    | some hi => cases h
  | cons p lit ih =>
    cases pending with
    | none =>
      cases p with
      | plain b hb =>
        obtain ⟨s, hs, rfl⟩ := Option.map_eq_some_iff.mp h
        have hle := ih hs
        simp only [room, List.length_cons, Option.isSome_none, Bool.false_eq_true,
          if_false] at hle ⊢
        omega
      | short e =>
        obtain ⟨s, hs, rfl⟩ := Option.map_eq_some_iff.mp h
        have hle := ih hs
        simp only [room, List.length_cons, Option.isSome_none, Bool.false_eq_true,
          if_false] at hle ⊢
        omega
      | unit u =>
        rw [decodeFrom] at h
        split at h
        next =>
          have hle := ih h
          simp only [room, Option.isSome_none, Option.isSome_some, Bool.false_eq_true, if_false,
            if_true] at hle ⊢
          omega
        next =>
          split at h
          next => cases h
          next =>
            obtain ⟨s, hs, rfl⟩ := Option.map_eq_some_iff.mp h
            have hle := ih hs
            have hchar := length_char_le u
            simp only [room, List.length_append, Option.isSome_none, Bool.false_eq_true,
              if_false] at hle ⊢
            omega
    | some hi =>
      cases p with
      | plain b hb => cases h
      | short e => cases h
      | unit u =>
        rw [decodeFrom] at h
        split at h
        next =>
          obtain ⟨s, hs, rfl⟩ := Option.map_eq_some_iff.mp h
          have hle := ih hs
          have hpair : (Bytes.encode [hi.pair u]).length ≤ 4 := by
            rw [length_encode_char]
            exact Char.utf8Size_le_four _
          simp only [room, List.length_append, Option.isSome_none, Option.isSome_some,
            Bool.false_eq_true, if_false, if_true] at hle ⊢
          omega
        next => cases h

theorem length_decode_le (h : lit.decode = some s) : s.length ≤ room lit := length_decodeFrom_le h

theorem room_le (lit : Literal) : room lit ≤ lit.bytes.length := by
  induction lit with
  | nil => exact Nat.le_refl _
  | cons p lit ih =>
    rw [bytes_cons, List.length_append]
    cases p with
    | plain b hb => exact Nat.add_le_add_left ih 1
    | short e => exact Nat.add_le_add (by decide : 1 ≤ 2) ih
    | unit u => exact Nat.add_le_add (by decide : 3 ≤ 6) ih

/-- An escape takes more bytes than it may stand for. -/
theorem room_lt_of_mem (h : Json.backslash ∈ lit.bytes) : room lit < lit.bytes.length := by
  induction lit with
  | nil => cases h
  | cons p lit ih =>
    have hle := room_le lit
    rw [bytes_cons, List.length_append]
    cases p with
    | plain b hb =>
      rcases List.mem_cons.mp h with h | h
      · exact absurd h.symm hb.2.2
      · exact Nat.add_lt_add_left (ih h) 1
    | short e => exact Nat.add_lt_add_of_lt_of_le (by decide : 1 < 2) hle
    | unit u => exact Nat.add_lt_add_of_lt_of_le (by decide : 3 < 6) hle

/-- What spells itself is written without a reverse solidus. -/
theorem not_mem_of_decode (h : lit.decode = some lit.bytes) : Json.backslash ∉ lit.bytes :=
  fun hmem => absurd (length_decode_le h) (Nat.not_le.mpr (room_lt_of_mem hmem))

end Literal

end Json
