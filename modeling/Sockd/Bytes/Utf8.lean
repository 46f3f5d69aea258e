import Sockd.Bytes.BigEndian

/-!
# UTF-8 text in byte strings

The bytes of a string, and the two ways back: `decode?`, which refuses anything
that is not UTF-8, and `lossy`, which puts U+FFFD for every maximal piece that is
not (`invalidLen` is the length of that piece, by the table of well-formed byte
sequences: the longest start of some character, or one byte). The decoding of one
character is core's `ByteArray.utf8DecodeChar?`. What the verification needs is
that text survives: `decode?_encode` and `lossy_encode`.
-/

namespace Bytes

/-- The UTF-8 form of a text. -/
def encode (cs : List Char) : Bytes := cs.flatMap String.utf8EncodeChar

/-- The character at the front of `bs`, if one is there. -/
def char? (bs : Bytes) : Option Char := bs.toByteArray.utf8DecodeChar? 0

/-- Decode at most `n` characters; `none` if the bytes are not UTF-8. -/
def decodeUpTo : Nat → Bytes → Option (List Char)
  | _, [] => some []
  | 0, _ :: _ => none
  | n + 1, b :: bs =>
    match char? (b :: bs) with
    | none => none
    | some c => (decodeUpTo n ((b :: bs).drop c.utf8Size)).map (c :: ·)

/-- The text whose UTF-8 form is `bs`, if there is one. -/
def decode? (bs : Bytes) : Option (List Char) := decodeUpTo bs.length bs

/-- A continuation byte. -/
def isContinuation (b : UInt8) : Bool := b &&& 0xc0 == 0x80

/-- May `b` follow the lead byte `a` of a three- or four-byte character? -/
def secondOk (a b : UInt8) : Bool :=
  if a = 0xe0 then 0xa0 ≤ b && b ≤ 0xbf
  else if a = 0xed then 0x80 ≤ b && b ≤ 0x9f
  else if a = 0xf0 then 0x90 ≤ b && b ≤ 0xbf
  else if a = 0xf4 then 0x80 ≤ b && b ≤ 0x8f
  else isContinuation b

/-- How many bytes one replacement character stands for, where no character
starts. -/
def invalidLen : Bytes → Nat
  | a :: b :: rest =>
    if 0xe0 ≤ a && a ≤ 0xef then
      if secondOk a b then 2 else 1
    else if 0xf0 ≤ a && a ≤ 0xf4 then
      if secondOk a b then
        match rest with
        | c :: _ => if isContinuation c then 3 else 2
        | [] => 2
      else 1
    else 1
  | _ => 1

/-- Decode at most `n` characters or replacement characters. -/
def lossyUpTo : Nat → Bytes → List Char
  | _, [] => []
  | 0, _ :: _ => []
  | n + 1, b :: bs =>
    match char? (b :: bs) with
    | some c => c :: lossyUpTo n ((b :: bs).drop c.utf8Size)
    | none => '\uFFFD' :: lossyUpTo n ((b :: bs).drop (invalidLen (b :: bs)))

/-- The text of `bs`, with U+FFFD for what is not UTF-8. -/
def lossy (bs : Bytes) : List Char := lossyUpTo bs.length bs

theorem encode_cons (c : Char) (cs : List Char) :
    encode (c :: cs) = String.utf8EncodeChar c ++ encode cs := by
  simp [encode]

/-- A character's encoding is read back, whatever follows it. -/
theorem char?_encode_append (c : Char) (bs : Bytes) :
    char? (String.utf8EncodeChar c ++ bs) = some c := by
  rw [char?, List.toByteArray_append]
  exact ByteArray.utf8DecodeChar?_utf8EncodeChar_append

theorem drop_encode_append (c : Char) (bs : Bytes) :
    (String.utf8EncodeChar c ++ bs).drop c.utf8Size = bs := by
  rw [List.drop_append_of_le_length (by simp), ← String.length_utf8EncodeChar, List.drop_length,
    List.nil_append]

/-- An encoded character is not empty: it has a first byte. -/
theorem encodeChar_eq_cons (c : Char) : ∃ b bs, String.utf8EncodeChar c = b :: bs := by
  have hlen : (String.utf8EncodeChar c).length = c.utf8Size := String.length_utf8EncodeChar c
  have hpos := Char.utf8Size_pos c
  cases h : String.utf8EncodeChar c with
  | nil => rw [h] at hlen; simp at hlen; omega
  | cons b bs => exact ⟨b, bs, rfl⟩

theorem decodeUpTo_encode {n : Nat} (cs : List Char) (hn : cs.length ≤ n) :
    decodeUpTo n (encode cs) = some cs := by
  induction cs generalizing n with
  | nil => cases n <;> rfl
  | cons c cs ih =>
    obtain ⟨b, bs, hb⟩ := encodeChar_eq_cons c
    cases n with
    | zero => simp at hn
    | succ n =>
      have hc : char? (b :: (bs ++ encode cs)) = some c := by
        rw [← List.cons_append, ← hb]; exact char?_encode_append c _
      have hd : (b :: (bs ++ encode cs)).drop c.utf8Size = encode cs := by
        rw [← List.cons_append, ← hb]; exact drop_encode_append c _
      rw [encode_cons, hb, List.cons_append, decodeUpTo, hc]
      simp only [hd, ih (by simpa using hn), Option.map_some]

theorem lossyUpTo_encode {n : Nat} (cs : List Char) (hn : cs.length ≤ n) :
    lossyUpTo n (encode cs) = cs := by
  induction cs generalizing n with
  | nil => cases n <;> rfl
  | cons c cs ih =>
    obtain ⟨b, bs, hb⟩ := encodeChar_eq_cons c
    cases n with
    | zero => simp at hn
    | succ n =>
      have hc : char? (b :: (bs ++ encode cs)) = some c := by
        rw [← List.cons_append, ← hb]; exact char?_encode_append c _
      have hd : (b :: (bs ++ encode cs)).drop c.utf8Size = encode cs := by
        rw [← List.cons_append, ← hb]; exact drop_encode_append c _
      rw [encode_cons, hb, List.cons_append, lossyUpTo, hc]
      simp only [hd, ih (by simpa using hn)]

theorem length_le_encode (cs : List Char) : cs.length ≤ (encode cs).length := by
  induction cs with
  | nil => simp
  | cons c cs ih =>
    have hpos := Char.utf8Size_pos c
    rw [encode_cons, List.length_append, String.length_utf8EncodeChar, List.length_cons]
    omega

/-- Text decodes to itself. -/
theorem decode?_encode (cs : List Char) : decode? (encode cs) = some cs :=
  decodeUpTo_encode cs (length_le_encode cs)

/-- Lossy decoding loses nothing of a text. -/
theorem lossy_encode (cs : List Char) : lossy (encode cs) = cs :=
  lossyUpTo_encode cs (length_le_encode cs)

end Bytes
