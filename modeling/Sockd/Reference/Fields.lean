import Sockd.Reference.Client

/-!
# Field extraction against the JSON grammar

`extract_json_string` finds the value of a name by a search for `"name":"` or `"name": "`
in the bytes of the text, and copies it up to the next quotation mark that it does not take
for an escaped one. `OneField` is a text in which that should do: the text of an object with
the name once in it, before a string. The grammar says what else the search may hit
(`FieldAt.of_bytes`), and `copyValue_literal` what the loop makes of a string.

The two agree when the text is `WellWritten`, and only then (`agrees_iff`): the name is written
without escapes and followed by a colon and at most one space behind it, nothing before it
looks alike, and the value has no escapes but `\"`, `\\`, `\/`, `\n` and `\t`. The loop stores
the letter of any other escape, so `"\r"` is read as `r` (`carriage_return_lost`).
-/

namespace Sockd.Reference

open C Json

/-! ## Texts with the field -/

/-- The text of an object in which the key is the name of one member, at any depth, and that
member's value is the string `s`: the items before the name and after the value, and the
space around the colon. -/
structure OneField (key s : Str) where
  before : Items
  name : Literal
  ws₁ : Bytes
  ws₂ : Bytes
  value : Literal
  after : Items
  isObjectText : IsObjectText (before ++ .string .key name :: (marks ws₁ ++ .mark colon ::
    (marks ws₂ ++ .string .value value :: after)))
  decode_name : name.decode = some key.bytes
  decode_value : value.decode = some s.bytes
  once : ∀ lit : Literal, .string .key lit ∈ before ++ after → lit.decode ≠ some key.bytes

namespace OneField

variable {key s : Str}

/-- The items behind the name. -/
def behind (f : OneField key s) : Items :=
  marks f.ws₁ ++ .mark colon :: (marks f.ws₂ ++ .string .value f.value :: f.after)

/-- The text. -/
def items (f : OneField key s) : Items := f.before ++ .string .key f.name :: f.behind

theorem scannable (f : OneField key s) : Scannable f.items := f.isObjectText.scannable

/-- The text as `extract_json_string` gets it. -/
def json (f : OneField key s) : Str := ⟨f.items.bytes, f.scannable.nulFree⟩

/-- Where the name's opening quotation mark is. -/
def nameAt (f : OneField key s) : Nat := f.before.bytes.length

/-- How far behind it the first character of the value is. -/
def valueOffset (f : OneField key s) : Nat :=
  f.name.bytes.length + f.ws₁.length + f.ws₂.length + 4

theorem bytes_behind (f : OneField key s) : f.behind.bytes =
    f.ws₁ ++ colon :: (f.ws₂ ++ quote :: (f.value.bytes ++ quote :: f.after.bytes)) := by
  rw [behind, Items.bytes_append, bytes_marks, Items.bytes_cons, Items.bytes_append, bytes_marks,
    Items.bytes_cons, Item.bytes_string_append]
  rfl

theorem bytes_json (f : OneField key s) : f.json.bytes =
    f.before.bytes ++ quote :: (f.name.bytes ++ quote :: f.behind.bytes) := by
  show f.items.bytes = _
  rw [items, Items.bytes_append, Items.bytes_cons, Item.bytes_string_append]

theorem drop_nameAt (f : OneField key s) :
    f.json.bytes.drop f.nameAt = quote :: (f.name.bytes ++ quote :: f.behind.bytes) := by
  rw [bytes_json]
  exact List.drop_left

/-- The value and its closing quotation mark are behind it. -/
theorem drop_value (f : OneField key s) : f.json.bytes.drop (f.nameAt + f.valueOffset) =
    f.value.bytes ++ quote :: f.after.bytes := by
  have hsplit : quote :: (f.name.bytes ++ quote :: f.behind.bytes) =
      (quote :: (f.name.bytes ++ quote :: (f.ws₁ ++ colon :: (f.ws₂ ++ [quote])))) ++
        (f.value.bytes ++ quote :: f.after.bytes) := by
    rw [bytes_behind]
    simp
  rw [← List.drop_drop, drop_nameAt, hsplit]
  refine List.drop_left' ?_
  simp only [valueOffset, List.length_cons, List.length_append, List.length_nil]
  omega

theorem key_le_name (f : OneField key s) : key.strlen ≤ f.name.bytes.length :=
  Nat.le_trans (Literal.length_decode_le f.decode_name) f.name.room_le

theorem nameAt_le (f : OneField key s) : f.nameAt ≤ f.json.bytes.length := by
  rw [f.bytes_json, List.length_append]
  exact Nat.le_add_right _ _

/-- A key that is written as it is has nothing to escape. -/
theorem unescaped_key (f : OneField key s) (hname : f.name.bytes = key.bytes) :
    Unescaped key.bytes := by
  have hdecode := f.decode_name
  rw [← hname] at hdecode ⊢
  exact Literal.unescaped_of_decode hdecode

/-- A name that decodes to the key is the one of the field. -/
theorem eq_of_decode (f : OneField key s) {p q : Items} {lit : Literal}
    (h : f.items = p ++ .string .key lit :: q) (hlit : lit.decode = some key.bytes) :
    p = f.before ∧ q = f.behind := by
  have hbehind : .string .key lit ∈ f.behind → .string .key lit ∈ f.after := by
    intro hmem
    simpa [behind, marks] using hmem
  unfold items at h
  rcases List.append_eq_append_iff.mp h with ⟨c, hp, hc⟩ | ⟨c, hp, hc⟩
  · cases c with
    | nil =>
      rw [List.append_nil] at hp
      exact ⟨hp, (List.cons.inj hc).2.symm⟩
    | cons i c =>
      obtain ⟨rfl, htail⟩ := List.cons.inj hc
      refine absurd hlit (f.once lit (List.mem_append_right _ (hbehind ?_)))
      rw [htail]
      exact List.mem_append_right _ List.mem_cons_self
  · cases c with
    | nil =>
      rw [List.append_nil] at hp
      exact ⟨hp.symm, (List.cons.inj hc).2⟩
    | cons i c =>
      obtain ⟨rfl, -⟩ := List.cons.inj hc
      refine absurd hlit (f.once lit (List.mem_append_left _ ?_))
      rw [hp]
      exact List.mem_append_right _ List.mem_cons_self

end OneField

/-! ## What is asked of the text -/

/-- The escapes that the loop undoes as JSON does. -/
def Undone : Piece → Prop
  | .plain _ _ => True
  | .short e => e ∈ [Escape.quote, .backslash, .slash, .n, .t]
  | .unit _ => False

instance : (p : Piece) → Decidable (Undone p)
  | .plain _ _ => inferInstanceAs (Decidable True)
  | .short e => inferInstanceAs (Decidable (e ∈ _))
  | .unit _ => inferInstanceAs (Decidable False)

variable {key s : Str}

/-- The first pattern finds the name: no space, and nothing before it that looks alike. -/
structure Direct (f : OneField key s) : Prop where
  ws₁ : f.ws₁ = []
  ws₂ : f.ws₂ = []
  room : key.strlen ≤ 251
  first : ∀ x y, LookAlike key.bytes [colon] f.items x y → f.nameAt ≤ x.length

/-- The second pattern finds it: a space behind the colon, nothing before the name that looks
alike, and nothing at all that looks as the first pattern would have it. -/
structure Spaced (f : OneField key s) : Prop where
  ws₁ : f.ws₁ = []
  ws₂ : f.ws₂ = [0x20]
  room : key.strlen ≤ 250
  none : ∀ x y, ¬ LookAlike key.bytes [colon] f.items x y
  first : ∀ x y, LookAlike key.bytes [colon, 0x20] f.items x y → f.nameAt ≤ x.length

/-- The text is written as `extract_json_string` expects it. -/
structure WellWritten (f : OneField key s) : Prop where
  name : f.name.bytes = key.bytes
  found : Direct f ∨ Spaced f
  value : ∀ p ∈ f.value, Undone p

/-- The search leads to the field's value, and whatever array that has room for the string
is passed, the string and its terminator are stored in it and its length returned. -/
structure Agrees (f : OneField key s) : Prop where
  found : findField f.json key = some (f.nameAt, f.valueOffset)
  stored : ∀ (out : Buffer) (outSize : Int), s.strlen < outSize →
    (extractJsonString f.json key out outSize).2 = s.strlen ∧
      (extractJsonString f.json key out outSize).1.first (s.strlen + 1) = s.bytes ++ [0]

/-! ## The loop -/

/-- What the loop stores for a piece of a string. -/
def storedFor : Piece → Bytes
  | .plain b _ => [b]
  | .short e => [unescaped e.letter]
  | .unit u => 0x75 :: u.bytes

/-- What it stores for a string. -/
def storedValue (lit : Literal) : Bytes := lit.flatMap storedFor

section Loop

variable {outSize : Int}

theorem copyValue_quote (out : Buffer) (rest : Bytes) (i : Int) :
    copyValue outSize (quote :: rest) out i = (out, i) := by
  cases rest with
  | nil => exact if_neg fun h => h.1 rfl
  | cons c rest => exact if_neg fun h => h.1 rfl

theorem copyValue_plain (out : Buffer) (rest : Bytes) {b : UInt8} {i : Int} (hquote : b ≠ quote)
    (hback : b ≠ backslash) (hi : i < outSize - 1) :
    copyValue outSize (b :: rest) out i = copyValue outSize rest (out.set i b) (i + 1) := by
  cases rest with
  | nil => exact if_pos ⟨hquote, hi⟩
  | cons c rest => rw [copyValue, if_pos ⟨hquote, hi⟩, if_neg hback]

theorem copyValue_escape (out : Buffer) (rest : Bytes) {i : Int} (c : UInt8)
    (hi : i < outSize - 1) : copyValue outSize (backslash :: c :: rest) out i =
      copyValue outSize rest (out.set i (unescaped c)) (i + 1) := by
  rw [copyValue, if_pos ⟨by decide, hi⟩, if_pos rfl]

/-- What the loop comes to over the first part of the text: so many bytes stored behind the
first `n`. -/
def Copies (outSize : Int) (part stored : Bytes) : Prop :=
  ∀ (out : Buffer) (n : Nat) (rest : Bytes), (n + stored.length : Int) < outSize →
    ∃ out' : Buffer, copyValue outSize (part ++ rest) out n =
        copyValue outSize rest out' (n + stored.length : Nat) ∧
      out'.first (n + stored.length) = out.first n ++ stored

theorem Copies.nil : Copies outSize [] [] :=
  fun out _ _ _ => ⟨out, rfl, (List.append_nil _).symm⟩

theorem Copies.append {part part' stored stored' : Bytes} (h : Copies outSize part stored)
    (h' : Copies outSize part' stored') : Copies outSize (part ++ part') (stored ++ stored') := by
  intro out n rest hroom
  rw [List.length_append] at hroom ⊢
  obtain ⟨out₁, hcopy₁, hfirst₁⟩ := h out n (part' ++ rest) (by omega)
  obtain ⟨out₂, hcopy₂, hfirst₂⟩ := h' out₁ (n + stored.length) rest (by omega)
  rw [Nat.add_assoc] at hcopy₂ hfirst₂
  refine ⟨out₂, ?_, ?_⟩
  · rw [List.append_assoc, hcopy₁, hcopy₂]
  · rw [hfirst₂, hfirst₁, List.append_assoc]

theorem copies_plain {b : UInt8} (hquote : b ≠ quote) (hback : b ≠ backslash) :
    Copies outSize [b] [b] := by
  intro out n rest hroom
  have hi : (n : Int) + (1 : Nat) < outSize := hroom
  exact ⟨out.set n b, copyValue_plain out rest hquote hback (by omega),
    Buffer.first_set_succ out n b⟩

theorem copies_escape (c : UInt8) : Copies outSize [backslash, c] [unescaped c] := by
  intro out n rest hroom
  have hi : (n : Int) + (1 : Nat) < outSize := hroom
  exact ⟨out.set n (unescaped c), copyValue_escape out rest c (by omega),
    Buffer.first_set_succ out n _⟩

/-- Bytes that are neither quotation marks nor reverse solidi are copied. -/
theorem copies_unescaped {bs : Bytes} (hbs : Unescaped bs) : Copies outSize bs bs := by
  induction bs with
  | nil => exact .nil
  | cons b bs ih =>
    have hquote : b ≠ quote := fun h => hbs.1 (h ▸ List.mem_cons_self)
    have hback : b ≠ backslash := fun h => hbs.2 (h ▸ List.mem_cons_self)
    have htail := ih ⟨fun h => hbs.1 (List.mem_cons_of_mem _ h),
      fun h => hbs.2 (List.mem_cons_of_mem _ h)⟩
    exact (copies_plain hquote hback).append htail

theorem copies_piece (p : Piece) : Copies outSize p.bytes (storedFor p) := by
  cases p with
  | plain b hb => exact copies_plain hb.2.1 hb.2.2
  | short e => exact copies_escape e.letter
  -- the reverse solidus is dropped, and the letter and the digits stay
  | unit u => exact (copies_escape 0x75).append (copies_unescaped u.unescaped)

theorem copies_literal (lit : Literal) : Copies outSize lit.bytes (storedValue lit) := by
  induction lit with
  | nil => exact .nil
  | cons p lit ih => exact (copies_piece p).append ih

/-- A string is stored up to its closing quotation mark. -/
theorem copyValue_literal (lit : Literal) (out : Buffer) (rest : Bytes)
    (hroom : ((storedValue lit).length : Int) < outSize) :
    ∃ out' : Buffer, copyValue outSize (lit.bytes ++ quote :: rest) out 0 =
        (out', ((storedValue lit).length : Int)) ∧
      out'.first (storedValue lit).length = storedValue lit := by
  have hroom : ((0 : Nat) + (storedValue lit).length : Int) < outSize := by omega
  obtain ⟨out', hcopy, hfirst⟩ := copies_literal lit out 0 (quote :: rest) hroom
  rw [Nat.zero_add] at hcopy hfirst
  refine ⟨out', ?_, hfirst⟩
  rw [← copyValue_quote out' rest]
  exact hcopy

end Loop

/-! ## The value -/

/-- The loop stores at least as many bytes as the string may have, and more for `\u`. -/
theorem room_le_stored (lit : Literal) : lit.room ≤ (storedValue lit).length := by
  induction lit with
  | nil => exact Nat.le_refl _
  | cons p lit ih =>
    have hsplit : storedValue (p :: lit) = storedFor p ++ storedValue lit := List.flatMap_cons
    rw [hsplit, List.length_append]
    cases p with
    | plain b hb => exact Nat.add_le_add_left ih 1
    | short e => exact Nat.add_le_add_left ih 1
    | unit u => exact Nat.add_le_add (by decide : 3 ≤ 5) ih

/-- What the loop stores is what the string spells just when it undoes every escape in it. -/
theorem storedValue_eq_iff {lit : Literal} {t : Bytes} (h : lit.decode = some t) :
    storedValue lit = t ↔ ∀ p ∈ lit, Undone p := by
  induction lit generalizing t with
  | nil =>
    obtain rfl := Option.some.inj h
    exact ⟨fun _ p hp => (List.not_mem_nil hp).elim, fun _ => rfl⟩
  | cons p lit ih =>
    have hsplit : storedValue (p :: lit) = storedFor p ++ storedValue lit := List.flatMap_cons
    rw [hsplit, List.forall_mem_cons]
    -- what stands for one byte each is compared byte by byte
    have one : ∀ b c : UInt8, (c = b ↔ Undone p) → Literal.decodeFrom none (p :: lit) =
        (Literal.decodeFrom none lit).map (b :: ·) → storedFor p = [c] →
        (storedFor p ++ storedValue lit = t ↔ Undone p ∧ ∀ p ∈ lit, Undone p) := by
      intro b c hundone hdecode hstored
      rw [Literal.decode, hdecode] at h
      obtain ⟨t, ht, rfl⟩ := Option.map_eq_some_iff.mp h
      rw [hstored, List.singleton_append, List.cons.injEq, hundone, ih ht]
    cases p with
    | plain b hb => exact one b b ⟨fun _ => trivial, fun _ => rfl⟩ rfl rfl
    | short e =>
      refine one e.value (unescaped e.letter) ?_ rfl rfl
      cases e <;> decide
    | unit u =>
      refine ⟨fun heq => ?_, fun hundone => hundone.1.elim⟩
      -- five bytes are stored where there can be three
      have hle := Literal.length_decode_le h
      have hrest := room_le_stored lit
      have hroom : Literal.room (.unit u :: lit) = 3 + Literal.room lit := rfl
      have hfive : (storedFor (.unit u)).length = 5 := rfl
      rw [← heq, List.length_append, hroom, hfive] at hle
      omega

variable {f : OneField key s}

/-- What `extract_json_string` does when the search leads to the value. -/
theorem extractJsonString_of_found (h : findField f.json key = some (f.nameAt, f.valueOffset))
    (out : Buffer) {outSize : Int} (hroom : ((storedValue f.value).length : Int) < outSize) :
    (extractJsonString f.json key out outSize).2 = (storedValue f.value).length ∧
      (extractJsonString f.json key out outSize).1.first ((storedValue f.value).length + 1) =
        storedValue f.value ++ [0] := by
  obtain ⟨out', hcopy, hfirst⟩ := copyValue_literal f.value out f.after.bytes hroom
  unfold extractJsonString
  rw [h]
  dsimp only
  rw [f.drop_value, hcopy]
  refine ⟨rfl, ?_⟩
  rw [Buffer.first_set_succ, hfirst]

/-- When the search leads to the value, the string is stored just when the loop undoes its
escapes. -/
theorem stored_iff (h : findField f.json key = some (f.nameAt, f.valueOffset)) :
    (∀ (out : Buffer) (outSize : Int), s.strlen < outSize →
      (extractJsonString f.json key out outSize).2 = s.strlen ∧
        (extractJsonString f.json key out outSize).1.first (s.strlen + 1) = s.bytes ++ [0]) ↔
      ∀ p ∈ f.value, Undone p := by
  rw [← storedValue_eq_iff f.decode_value]
  constructor
  · intro hstored
    -- an array with room for the one and the other
    obtain ⟨outSize, hs, hlit⟩ : ∃ m : Int, s.strlen < m ∧ (storedValue f.value).length < m :=
      ⟨s.strlen + (storedValue f.value).length + 1, by omega, by omega⟩
    obtain ⟨hlen, hfirst⟩ := hstored (fun _ => 0) outSize hs
    obtain ⟨hlen', hfirst'⟩ := extractJsonString_of_found h (fun _ => 0) hlit
    have hsame : s.strlen = (storedValue f.value).length := Int.ofNat.inj (hlen.symm.trans hlen')
    rw [hsame, hfirst'] at hfirst
    exact List.append_cancel_right hfirst
  · intro heq out outSize hroom
    have hlen : s.strlen = (storedValue f.value).length := congrArg List.length heq.symm
    rw [hlen, ← heq]
    exact extractJsonString_of_found h out (hlen ▸ hroom)

/-! ## The search -/

/-- A pattern is cut when the key is too long. -/
theorem bytes_fieldPattern {rest : String} {sep : Bytes}
    (hrest : (Str.lit rest).bytes = quote :: (sep ++ [quote])) :
    (fieldPattern key rest).bytes =
      (quote :: (key.bytes ++ quote :: (sep ++ [quote]))).take 255 := by
  have hquote : (Str.lit "\"").bytes = [quote] := by decide
  rw [fieldPattern, Str.bytes_truncate, Str.bytes_append, Str.bytes_append, hquote, hrest]
  rfl

theorem bytes_pattern {rest : String} {sep : Bytes}
    (hrest : (Str.lit rest).bytes = quote :: (sep ++ [quote]))
    (hroom : key.strlen + sep.length ≤ 252) :
    (fieldPattern key rest).bytes = quote :: (key.bytes ++ quote :: (sep ++ [quote])) := by
  rw [bytes_fieldPattern hrest]
  refine List.take_of_length_le ?_
  have hlen : key.bytes.length + sep.length ≤ 252 := hroom
  simp only [List.length_append, List.length_cons, List.length_nil]
  omega

theorem strlen_pattern {rest : String} {sep : Bytes}
    (hrest : (Str.lit rest).bytes = quote :: (sep ++ [quote])) :
    (fieldPattern key rest).strlen = min 255 (key.strlen + sep.length + 3) := by
  unfold Str.strlen
  rw [bytes_fieldPattern hrest, List.length_take]
  simp only [List.length_append, List.length_cons, List.length_nil]
  omega

/-- Where the pattern is. -/
theorem prefix_drop_iff {bytes pat : Bytes} {n : Nat} (hn : n ≤ bytes.length) :
    pat <+: bytes.drop n ↔ ∃ x y, bytes = x ++ (pat ++ y) ∧ x.length = n := by
  constructor
  · rintro ⟨y, hy⟩
    exact ⟨bytes.take n, y, by rw [hy, List.take_append_drop], List.length_take_of_le hn⟩
  · rintro ⟨x, y, rfl, rfl⟩
    rw [List.drop_left]
    exact List.prefix_append _ _

section Search

variable {rest : String} {sep : Bytes}

/-- What the search can hit: the field's own name, or something that looks alike. -/
theorem hit_cases (f : OneField key s) (hkey : Unescaped key.bytes) (hsep : Unescaped sep)
    (hcolon : sep.head? = some colon) (hrest : (Str.lit rest).bytes = quote :: (sep ++ [quote]))
    (hroom : key.strlen + sep.length ≤ 252) {n : Nat} (hn : n ≤ f.json.bytes.length)
    (hit : (fieldPattern key rest).bytes <+: f.json.bytes.drop n) :
    (n = f.nameAt ∧ ∃ y, f.behind.bytes = sep ++ quote :: y) ∨
      ∃ x y, LookAlike key.bytes sep f.items x y ∧ x.length = n := by
  rw [prefix_drop_iff hn, bytes_pattern hrest hroom] at hit
  obtain ⟨x, y, hbytes, hx⟩ := hit
  have hbytes : f.items.bytes = x ++ quote :: (key.bytes ++ quote :: (sep ++ quote :: y)) := by
    show f.json.bytes = _
    simpa using hbytes
  have hat := FieldAt.of_bytes f.scannable hkey hsep hcolon hbytes
  generalize hitems : f.items = items at hat
  cases hat with
  | name p lit q y hlit hq =>
    have hplain : backslash ∉ lit.bytes := by
      rw [hlit]
      exact hkey.2
    have hdecode := Literal.decode_of_not_mem hplain
    rw [hlit] at hdecode
    obtain ⟨rfl, rfl⟩ := f.eq_of_decode hitems hdecode
    exact .inl ⟨hx.symm, y, hq⟩
  | other hlook => exact .inr ⟨x, y, hlook, hx⟩

/-- A look-alike is hit. -/
theorem hit_of_lookAlike (f : OneField key s)
    (hrest : (Str.lit rest).bytes = quote :: (sep ++ [quote]))
    (hroom : key.strlen + sep.length ≤ 252) {x y : Bytes}
    (h : LookAlike key.bytes sep f.items x y) :
    x.length ≤ f.json.bytes.length ∧
      (fieldPattern key rest).bytes <+: f.json.bytes.drop x.length := by
  have hbytes : f.json.bytes = x ++ ((fieldPattern key rest).bytes ++ y) := by
    rw [bytes_pattern hrest hroom]
    show f.items.bytes = _
    simpa using h.bytes
  refine ⟨?_, ?_⟩
  · rw [hbytes, List.length_append]
    exact Nat.le_add_right _ _
  · rw [hbytes, List.drop_left]
    exact List.prefix_append _ _

/-- The field's own name is hit when it is written so. -/
theorem hit_name (f : OneField key s) (hname : f.name.bytes = key.bytes)
    (hrest : (Str.lit rest).bytes = quote :: (sep ++ [quote]))
    (hroom : key.strlen + sep.length ≤ 252) {y : Bytes}
    (hbehind : f.behind.bytes = sep ++ quote :: y) :
    (fieldPattern key rest).bytes <+: f.json.bytes.drop f.nameAt := by
  rw [f.drop_nameAt, bytes_pattern hrest hroom, hname, hbehind]
  exact ⟨y, by simp⟩

/-- The search stops at the name when nothing before it looks alike. -/
theorem search_name (f : OneField key s) (hname : f.name.bytes = key.bytes) (hsep : Unescaped sep)
    (hcolon : sep.head? = some colon) (hrest : (Str.lit rest).bytes = quote :: (sep ++ [quote]))
    (hroom : key.strlen + sep.length ≤ 252) {y : Bytes}
    (hbehind : f.behind.bytes = sep ++ quote :: y)
    (hfirst : ∀ x y, LookAlike key.bytes sep f.items x y → f.nameAt ≤ x.length) :
    Str.search (fieldPattern key rest).bytes f.json.bytes = some f.nameAt := by
  have hlen := f.nameAt_le
  refine Str.search_eq_some.mpr ⟨hlen, hit_name f hname hrest hroom hbehind, ?_⟩
  intro m hm hit
  rcases hit_cases f (f.unescaped_key hname) hsep hcolon hrest hroom (by omega) hit
    with ⟨rfl, -⟩ | ⟨x, y, hlook, rfl⟩
  · exact Nat.lt_irrefl _ hm
  · exact Nat.not_le.mpr hm (hfirst x y hlook)

/-- A pattern that is hit at the name and ends before the value is the text between them. -/
theorem pattern_of_hit (f : OneField key s) (hskip : (fieldPattern key rest).strlen = f.valueOffset)
    (hit : (fieldPattern key rest).bytes <+: f.json.bytes.drop f.nameAt) :
    (fieldPattern key rest).bytes =
      quote :: (f.name.bytes ++ quote :: (f.ws₁ ++ colon :: (f.ws₂ ++ [quote]))) := by
  have hsplit : f.json.bytes.drop f.nameAt =
      (quote :: (f.name.bytes ++ quote :: (f.ws₁ ++ colon :: (f.ws₂ ++ [quote])))) ++
        (f.value.bytes ++ quote :: f.after.bytes) := by
    rw [f.drop_nameAt, f.bytes_behind]
    simp
  rw [hsplit] at hit
  refine (List.prefix_of_prefix_length_le hit (List.prefix_append _ _) ?_).eq_of_length ?_
  · have hlen : (fieldPattern key rest).bytes.length = f.valueOffset := hskip
    rw [hlen]
    simp only [OneField.valueOffset, List.length_append, List.length_cons, List.length_nil]
    omega
  · have hlen : (fieldPattern key rest).bytes.length = f.valueOffset := hskip
    rw [hlen]
    simp only [OneField.valueOffset, List.length_append, List.length_cons, List.length_nil]
    omega

end Search

theorem lit_direct : (Str.lit "\":\"").bytes = quote :: ([colon] ++ [quote]) := by decide

theorem lit_spaced : (Str.lit "\": \"").bytes = quote :: ([colon, 0x20] ++ [quote]) := by decide

/-- The first pattern is hit at the name when the key is written there without a space. -/
theorem direct_of_hit (f : OneField key s)
    (hskip : (fieldPattern key "\":\"").strlen = f.valueOffset)
    (hit : (fieldPattern key "\":\"").bytes <+: f.json.bytes.drop f.nameAt) :
    f.name.bytes = key.bytes ∧ f.ws₁ = [] ∧ f.ws₂ = [] ∧ key.strlen ≤ 251 := by
  have hpattern := pattern_of_hit f hskip hit
  have hkey := f.key_le_name
  rw [strlen_pattern lit_direct, List.length_singleton, OneField.valueOffset] at hskip
  have hroom : key.strlen + [colon].length ≤ 252 := by
    rw [List.length_singleton]
    omega
  have hws₁ : f.ws₁ = [] := List.eq_nil_of_length_eq_zero (by omega)
  have hws₂ : f.ws₂ = [] := List.eq_nil_of_length_eq_zero (by omega)
  rw [bytes_pattern lit_direct hroom, hws₁, hws₂] at hpattern
  have hlen : key.bytes.length = f.name.bytes.length := by
    have hstrlen : key.strlen = key.bytes.length := rfl
    omega
  exact ⟨(List.append_inj (List.cons.inj hpattern).2 hlen).1.symm, hws₁, hws₂,
    Nat.le_of_succ_le_succ hroom⟩

/-- The second is hit there when it is written with a space behind the colon. -/
theorem spaced_of_hit (f : OneField key s)
    (hskip : (fieldPattern key "\": \"").strlen = f.valueOffset)
    (hit : (fieldPattern key "\": \"").bytes <+: f.json.bytes.drop f.nameAt) :
    f.name.bytes = key.bytes ∧ f.ws₁ = [] ∧ f.ws₂ = [0x20] ∧ key.strlen ≤ 250 := by
  have hpattern := pattern_of_hit f hskip hit
  have hkey := f.key_le_name
  have hstrlen : key.strlen = key.bytes.length := rfl
  rw [strlen_pattern lit_spaced, OneField.valueOffset] at hskip
  have hsep : [colon, 0x20].length = 2 := rfl
  rw [hsep] at hskip
  by_cases hroom : key.strlen + 2 ≤ 252
  · rw [bytes_pattern lit_spaced hroom] at hpattern
    have htext : (key.bytes ++ [quote, colon]) ++ [0x20] ++ [quote] =
        (f.name.bytes ++ quote :: (f.ws₁ ++ colon :: f.ws₂)) ++ [quote] := by
      simpa using (List.cons.inj hpattern).2
    have htext := List.append_cancel_right htext
    -- the byte before the value is a space, so it is in `ws₂`
    cases hws₂ : f.ws₂ with
    | nil =>
      have hlast : (key.bytes ++ [quote, colon]) ++ [0x20] =
          (f.name.bytes ++ quote :: f.ws₁) ++ [colon] := by
        rw [htext, hws₂, List.append_assoc]
        rfl
      exact absurd (List.append_inj' hlast rfl).2 (by decide)
    | cons w ws =>
      rw [hws₂, List.length_cons] at hskip
      have hws₁ : f.ws₁ = [] := List.eq_nil_of_length_eq_zero (by omega)
      have hws : ws = [] := List.eq_nil_of_length_eq_zero (by omega)
      rw [hws₁, hws₂, hws, List.append_assoc] at htext
      have hlen : key.bytes.length = f.name.bytes.length := by omega
      obtain ⟨hname, hrest⟩ := List.append_inj htext hlen
      obtain rfl : (0x20 : UInt8) = w := by simpa using hrest
      exact ⟨hname.symm, hws₁, by rw [hws], by omega⟩
  · -- the pattern is cut in front of its last quotation mark
    have hws₁ : f.ws₁ = [] := List.eq_nil_of_length_eq_zero (by omega)
    have hws₂ : f.ws₂ = [] := List.eq_nil_of_length_eq_zero (by omega)
    have hlen : key.bytes.length = f.name.bytes.length := by omega
    have hcut : key.bytes.length = 251 := by omega
    have hsplit : quote :: (key.bytes ++ quote :: ([colon, 0x20] ++ [quote])) =
        (quote :: (key.bytes ++ [quote, colon, 0x20])) ++ [quote] := by simp
    rw [bytes_fieldPattern lit_spaced, hsplit, List.take_left' (by simp [hcut]), hws₁, hws₂]
      at hpattern
    have hrest := (List.append_inj (List.cons.inj hpattern).2 hlen).2
    exact absurd hrest (by decide)

/-- When the search leads to the field's value, and when it does not. -/
theorem found_iff (f : OneField key s) : findField f.json key = some (f.nameAt, f.valueOffset) ↔
    f.name.bytes = key.bytes ∧ (Direct f ∨ Spaced f) := by
  constructor
  · intro h
    unfold findField Str.strstrAt at h
    dsimp only at h
    cases hsearch : Str.search (fieldPattern key "\":\"").bytes f.json.bytes with
    | some n =>
      rw [hsearch] at h
      obtain ⟨rfl, hskip⟩ := Prod.mk.inj (Option.some.inj h)
      obtain ⟨-, hit, hfirst⟩ := Str.search_eq_some.mp hsearch
      obtain ⟨hname, hws₁, hws₂, hroom⟩ := direct_of_hit f hskip hit
      refine ⟨hname, .inl ⟨hws₁, hws₂, hroom, fun x y hlook => Nat.not_lt.mp fun hlt => ?_⟩⟩
      exact hfirst _ hlt (hit_of_lookAlike f lit_direct (Nat.succ_le_succ hroom) hlook).2
    | none =>
      rw [hsearch] at h
      obtain ⟨n, hsearch₂, heq⟩ := Option.map_eq_some_iff.mp h
      obtain ⟨rfl, hskip⟩ := Prod.mk.inj heq
      obtain ⟨-, hit, hfirst⟩ := Str.search_eq_some.mp hsearch₂
      obtain ⟨hname, hws₁, hws₂, hroom⟩ := spaced_of_hit f hskip hit
      have hroom₂ : key.strlen + [colon, 0x20].length ≤ 252 := Nat.add_le_add_right hroom 2
      refine ⟨hname, .inr ⟨hws₁, hws₂, hroom, fun x y hlook => ?_,
        fun x y hlook => Nat.not_lt.mp fun hlt => ?_⟩⟩
      · obtain ⟨hle, hearlier⟩ := hit_of_lookAlike f lit_direct
          (Nat.le_trans (Nat.add_le_add_right hroom 1) (by decide)) hlook
        exact Str.search_eq_none.mp hsearch _ hle hearlier
      · exact hfirst _ hlt (hit_of_lookAlike f lit_spaced hroom₂ hlook).2
  · rintro ⟨hname, hfound⟩
    have hsame : f.name.bytes.length = key.strlen := congrArg List.length hname
    unfold findField Str.strstrAt
    dsimp only
    rcases hfound with h | h
    · have hbehind : f.behind.bytes =
          [colon] ++ quote :: (f.value.bytes ++ quote :: f.after.bytes) := by
        rw [f.bytes_behind, h.ws₁, h.ws₂]
        rfl
      have hroom : key.strlen + [colon].length ≤ 252 := Nat.succ_le_succ h.room
      have hsearch := search_name f hname (by decide) rfl lit_direct hroom hbehind h.first
      rw [hsearch]
      have hskip : (fieldPattern key "\":\"").strlen = f.valueOffset := by
        have hle := h.room
        rw [strlen_pattern lit_direct, OneField.valueOffset, h.ws₁, h.ws₂, hsame]
        simp only [List.length_cons, List.length_nil]
        omega
      exact congrArg (fun skip => some (f.nameAt, skip)) hskip
    · have hbehind : f.behind.bytes =
          [colon, 0x20] ++ quote :: (f.value.bytes ++ quote :: f.after.bytes) := by
        rw [f.bytes_behind, h.ws₁, h.ws₂]
        rfl
      have hroom : key.strlen + [colon, 0x20].length ≤ 252 := Nat.add_le_add_right h.room 2
      have hroom₁ : key.strlen + [colon].length ≤ 252 :=
        Nat.le_trans (Nat.add_le_add_right h.room 1) (by decide)
      have hnone : Str.search (fieldPattern key "\":\"").bytes f.json.bytes = none := by
        refine Str.search_eq_none.mpr fun m hm hit => ?_
        rcases hit_cases f (f.unescaped_key hname) (by decide) rfl lit_direct hroom₁ hm hit
          with ⟨-, y, hy⟩ | ⟨x, y, hlook, -⟩
        · rw [hbehind] at hy
          exact absurd (List.cons.inj (List.cons.inj hy).2).1 (by decide)
        · exact h.none x y hlook
      have hsearch := search_name f hname (by decide) rfl lit_spaced hroom hbehind h.first
      rw [hnone, hsearch]
      have hskip : (fieldPattern key "\": \"").strlen = f.valueOffset := by
        have hle := h.room
        rw [strlen_pattern lit_spaced, OneField.valueOffset, h.ws₁, h.ws₂, hsame]
        simp only [List.length_cons, List.length_nil]
        omega
      exact congrArg (fun skip => some (f.nameAt, skip)) hskip

/-- `extract_json_string` agrees with the JSON grammar on the texts that are written as it
expects, and on no others. -/
theorem agrees_iff (f : OneField key s) : Agrees f ↔ WellWritten f := by
  constructor
  · intro h
    obtain ⟨hname, hfound⟩ := (found_iff f).mp h.found
    exact ⟨hname, hfound, (stored_iff h.found).mp h.stored⟩
  · intro h
    have hfound := (found_iff f).mpr ⟨h.name, h.found⟩
    exact ⟨hfound, (stored_iff hfound).mpr h.value⟩

/-- `{"file_path":"\r"}`: a carriage return is what the value spells. -/
def carriageReturn : OneField (Str.lit "file_path") (Str.lit "\r") where
  before := [.mark 0x7b]
  name := .ofPlain (printf "file_path")
  ws₁ := []
  ws₂ := []
  value := [.short .r]
  after := [.mark 0x7d]
  isObjectText := .tight (.object (.tightMember .string))
  decode_name := by decide
  decode_value := by decide
  once := by
    intro lit hlit
    simp at hlit

/-- The letter of the escape is stored in place of the carriage return. -/
theorem carriage_return_lost : ¬ ∀ (key s : Str) (f : OneField key s) (out : Buffer)
    (outSize : Int), s.strlen < outSize →
      (extractJsonString f.json key out outSize).2 = s.strlen ∧
        (extractJsonString f.json key out outSize).1.first (s.strlen + 1) = s.bytes ++ [0] := by
  intro h
  have hstored := h _ _ carriageReturn (fun _ => 0) 64 (by decide)
  exact absurd hstored.2 (by decide)

/-! ## The fields that `main` reads -/

/-- The names that `main` looks for. -/
def mainKeys : List Str :=
  [Str.lit "tool_name", Str.lit "file_path", Str.lit "command", Str.lit "session_id"]

/-- None of them can stand outside of strings. -/
theorem exists_not_mem_alphabet : ∀ key ∈ mainKeys, ∃ b ∈ key.bytes, b ∉ alphabet := by decide

theorem strlen_mainKeys : ∀ key ∈ mainKeys, key.strlen ≤ 250 := by decide

/-- Where no name of a member has a quotation mark in it, the fields that `main` reads are
found whatever the values of the members are. -/
theorem agrees_of_mainKeys (f : OneField key s) (hkey : key ∈ mainKeys)
    (hnames : ∀ lit : Literal, .string .key lit ∈ f.items → .short .quote ∉ lit) :
    Agrees f ↔ f.name.bytes = key.bytes ∧ f.ws₁ = [] ∧ (f.ws₂ = [] ∨ f.ws₂ = [0x20]) ∧
      ∀ p ∈ f.value, Undone p := by
  obtain ⟨b, hb, hout⟩ := exists_not_mem_alphabet key hkey
  have hnone : ∀ sep x y, ¬ LookAlike key.bytes sep f.items x y := by
    intro sep x y hlook
    obtain ⟨lit, hlit, hquote⟩ := hlook.exists_name f.scannable.marked hb hout
    exact hnames lit hlit hquote
  have hroom := strlen_mainKeys key hkey
  rw [agrees_iff]
  constructor
  · intro h
    rcases h.found with hdirect | hspaced
    · exact ⟨h.name, hdirect.ws₁, .inl hdirect.ws₂, h.value⟩
    · exact ⟨h.name, hspaced.ws₁, .inr hspaced.ws₂, h.value⟩
  · rintro ⟨hname, hws₁, hws₂ | hws₂, hvalue⟩
    · exact ⟨hname, .inl ⟨hws₁, hws₂, Nat.le_succ_of_le hroom, fun x y h => absurd h (hnone _ x y)⟩,
        hvalue⟩
    · exact ⟨hname, .inr ⟨hws₁, hws₂, hroom, hnone _, fun x y h => absurd h (hnone _ x y)⟩, hvalue⟩

/-- The string is then in the array of `main`, when there is room for it. -/
theorem extracted_of_agrees {name : String} (f : OneField (Str.lit name) s) (h : Agrees f)
    {size : Nat} (hsize : s.strlen < size) : extracted f.json name size = s := by
  obtain ⟨-, hfirst⟩ := h.stored (fun _ => 0) size (Int.ofNat_lt.mpr hsize)
  obtain ⟨k, rfl⟩ : ∃ k, size = s.strlen + 1 + k := ⟨size - (s.strlen + 1), by omega⟩
  unfold extracted
  rw [Buffer.first_add, hfirst, List.append_assoc]
  exact Str.ofMem_append_zero s _

end Sockd.Reference
