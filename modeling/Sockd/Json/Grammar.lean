import Mathlib.Data.List.Chain
import Sockd.Json.Strings

/-!
# JSON texts

A text is a sequence of items: its strings, and the bytes outside of strings. The names of
an object's members are told from other strings, since only a name is followed by a colon.
`Derives` is the grammar over items, and `IsObjectText` says that a text is an object.

Three things about such texts are used to find strings in their bytes. A byte outside of
strings is one of `alphabet`, so it is no quotation mark. A string that is no name is not
followed by a colon (`Derives.keyed`). A quotation mark opens a string, closes one or is
escaped in one (`QuoteAt.of_bytes`). With that, the places where `"K"`, a separator and a
quotation mark follow each other are the names `K` and two kinds of look-alikes
(`FieldAt.of_bytes`).
-/

namespace Json

/-- The name of an object's member, or any other string. -/
inductive Role
  | key | value
  deriving DecidableEq

/-- A byte outside of strings, or a string. -/
inductive Item
  | mark (b : UInt8)
  | string (role : Role) (lit : Literal)
  deriving DecidableEq

/-- The bytes of an item. -/
def Item.bytes : Item → Bytes
  | mark b => [b]
  | string _ lit => quote :: (lit.bytes ++ [quote])

theorem Item.bytes_string_append (role : Role) (lit : Literal) (bs : Bytes) :
    (Item.string role lit).bytes ++ bs = quote :: (lit.bytes ++ quote :: bs) := by
  show quote :: ((lit.bytes ++ [quote]) ++ bs) = _
  rw [List.append_assoc]
  rfl

/-- A text, item by item. -/
abbrev Items : Type := List Item

namespace Items

def bytes (items : Items) : Bytes := items.flatMap Item.bytes

@[simp] theorem bytes_nil : bytes [] = [] := rfl

@[simp] theorem bytes_cons (i : Item) (items : Items) :
    bytes (i :: items) = i.bytes ++ bytes items :=
  List.flatMap_cons

@[simp] theorem bytes_append (xs ys : Items) : bytes (xs ++ ys) = bytes xs ++ bytes ys :=
  List.flatMap_append

end Items

/-- Bytes outside of strings. -/
def marks (bs : Bytes) : Items := bs.map Item.mark

@[simp] theorem bytes_marks (bs : Bytes) : (marks bs).bytes = bs := by
  induction bs with
  | nil => rfl
  | cons b bs ih =>
    rw [marks, List.map_cons, Items.bytes_cons]
    exact congrArg (b :: ·) ih

@[simp] theorem mark_mem_marks {b : UInt8} {bs : Bytes} : Item.mark b ∈ marks bs ↔ b ∈ bs := by
  simp [marks]

/-! ## The grammar -/

def comma : UInt8 := 0x2c

def colon : UInt8 := 0x3a

/-- Space, tabulator, line feed and carriage return. -/
def space : Bytes := [0x20, 0x09, 0x0a, 0x0d]

def IsSpace (w : Bytes) : Prop := ∀ b ∈ w, b ∈ space

/-- `true`, `false` and `null`. -/
def words : List Bytes :=
  [[0x74, 0x72, 0x75, 0x65], [0x66, 0x61, 0x6c, 0x73, 0x65], [0x6e, 0x75, 0x6c, 0x6c]]

def digits : Bytes := [0x30, 0x31, 0x32, 0x33, 0x34, 0x35, 0x36, 0x37, 0x38, 0x39]

/-- At least one digit. -/
def IsDigits (ds : Bytes) : Prop := ds ≠ [] ∧ ∀ d ∈ ds, d ∈ digits

/-- Digits without a leading zero. -/
def IsInt (ds : Bytes) : Prop := IsDigits ds ∧ (ds.head? = some 0x30 → ds = [0x30])

inductive IsFrac : Bytes → Prop
  | none : IsFrac []
  | digits {ds : Bytes} : IsDigits ds → IsFrac (0x2e :: ds)

inductive IsExp : Bytes → Prop
  | none : IsExp []
  | digits {e : UInt8} {sign ds : Bytes} : e ∈ ([0x65, 0x45] : Bytes) →
      sign ∈ ([[], [0x2b], [0x2d]] : List Bytes) → IsDigits ds → IsExp (e :: (sign ++ ds))

inductive IsNumber : Bytes → Prop
  | mk {sign int frac exp : Bytes} : sign ∈ ([[], [0x2d]] : List Bytes) → IsInt int →
      IsFrac frac → IsExp exp → IsNumber (sign ++ int ++ frac ++ exp)

/-- What a part of a text is. -/
inductive Part
  | value | object | members | elements

/-- The items are such a part. -/
inductive Derives : Part → Items → Prop
  | word {w : Bytes} : w ∈ words → Derives .value (marks w)
  | number {n : Bytes} : IsNumber n → Derives .value (marks n)
  | string {lit : Literal} : Derives .value [.string .value lit]
  | emptyArray {w : Bytes} : IsSpace w → Derives .value (.mark 0x5b :: (marks w ++ [.mark 0x5d]))
  | array {es : Items} : Derives .elements es → Derives .value (.mark 0x5b :: (es ++ [.mark 0x5d]))
  | nested {o : Items} : Derives .object o → Derives .value o
  | emptyObject {w : Bytes} : IsSpace w → Derives .object (.mark 0x7b :: (marks w ++ [.mark 0x7d]))
  | object {ms : Items} : Derives .members ms → Derives .object (.mark 0x7b :: (ms ++ [.mark 0x7d]))
  | member {w₁ w₂ w₃ w₄ : Bytes} {lit : Literal} {v : Items} : IsSpace w₁ → IsSpace w₂ →
      IsSpace w₃ → IsSpace w₄ → Derives .value v → Derives .members
        (marks w₁ ++ .string .key lit :: (marks w₂ ++ .mark colon :: (marks w₃ ++ (v ++ marks w₄))))
  | members {ms ms' : Items} : Derives .members ms → Derives .members ms' →
      Derives .members (ms ++ .mark comma :: ms')
  | element {w₁ w₂ : Bytes} {v : Items} : IsSpace w₁ → IsSpace w₂ → Derives .value v →
      Derives .elements (marks w₁ ++ (v ++ marks w₂))
  | elements {es es' : Items} : Derives .elements es → Derives .elements es' →
      Derives .elements (es ++ .mark comma :: es')

/-- The text of an object. -/
inductive IsObjectText : Items → Prop
  | mk {w₁ w₂ : Bytes} {o : Items} : IsSpace w₁ → IsSpace w₂ → Derives .object o →
      IsObjectText (marks w₁ ++ (o ++ marks w₂))

/-! The same without any space. -/

theorem isSpace_nil : IsSpace [] := fun _ hb => (List.not_mem_nil hb).elim

theorem Derives.tightMember {lit : Literal} {v : Items} (h : Derives .value v) :
    Derives .members (.string .key lit :: .mark colon :: v) := by
  have h := @Derives.member [] [] [] [] lit v isSpace_nil isSpace_nil isSpace_nil isSpace_nil h
  rwa [marks, List.map_nil, List.append_nil] at h

theorem IsObjectText.tight {o : Items} (h : Derives .object o) : IsObjectText o := by
  have h := IsObjectText.mk isSpace_nil isSpace_nil h
  rwa [marks, List.map_nil, List.append_nil] at h

/-! ## What stands outside of strings -/

/-- The bytes outside of strings. -/
def alphabet : Bytes :=
  space ++ digits ++ words.flatten ++ [comma, colon, 0x5b, 0x5d, 0x7b, 0x7d, 0x2e, 0x2b, 0x2d, 0x45]

/-- Every byte outside of strings is one of these. -/
def Marked (items : Items) : Prop := ∀ b, Item.mark b ∈ items → b ∈ alphabet

section Marked

variable {items xs ys : Items} {bs : Bytes}

theorem Marked.append (hx : Marked xs) (hy : Marked ys) : Marked (xs ++ ys) := by
  intro b hb
  rcases List.mem_append.mp hb with hb | hb
  · exact hx b hb
  · exact hy b hb

theorem Marked.cons {b : UInt8} (hb : b ∈ alphabet) (h : Marked items) :
    Marked (.mark b :: items) := by
  intro c hc
  rcases List.mem_cons.mp hc with hc | hc
  · obtain rfl := Item.mark.inj hc
    exact hb
  · exact h c hc

theorem Marked.string {role : Role} {lit : Literal} (h : Marked items) :
    Marked (.string role lit :: items) := by
  intro b hb
  rcases List.mem_cons.mp hb with hb | hb
  · cases hb
  · exact h b hb

theorem marked_nil : Marked [] := fun _ hb => (List.not_mem_nil hb).elim

theorem marked_marks (h : ∀ b ∈ bs, b ∈ alphabet) : Marked (marks bs) :=
  fun b hb => h b (mark_mem_marks.mp hb)

theorem marked_space (h : IsSpace bs) : Marked (marks bs) := by
  refine marked_marks fun b hb => ?_
  have hspace := h b hb
  simp only [alphabet, List.append_assoc]
  exact List.mem_append_left _ hspace

theorem digits_alphabet {ds : Bytes} (h : IsDigits ds) : ∀ b ∈ ds, b ∈ alphabet := by
  intro b hb
  have hdigit := h.2 b hb
  simp only [alphabet, List.append_assoc]
  exact List.mem_append_right _ (List.mem_append_left _ hdigit)

theorem marked_number (h : IsNumber bs) : Marked (marks bs) := by
  obtain ⟨hsign, hint, hfrac, hexp⟩ := h
  refine marked_marks fun b hb => ?_
  simp only [List.append_assoc, List.mem_append] at hb
  rcases hb with hb | hb | hb | hb
  · simp only [List.mem_cons, List.not_mem_nil, or_false] at hsign
    rcases hsign with rfl | rfl
    · cases hb
    · obtain rfl := List.mem_singleton.mp hb
      decide
  · exact digits_alphabet hint.1 b hb
  · cases hfrac with
    | none => cases hb
    | digits hds =>
      rcases List.mem_cons.mp hb with rfl | hb
      · decide
      · exact digits_alphabet hds b hb
  · cases hexp with
    | none => cases hb
    | digits he hs hds =>
      rcases List.mem_cons.mp hb with rfl | hb
      · simp only [List.mem_cons, List.not_mem_nil, or_false] at he
        rcases he with rfl | rfl
        · decide
        · decide
      rcases List.mem_append.mp hb with hb | hb
      · simp only [List.mem_cons, List.not_mem_nil, or_false] at hs
        rcases hs with rfl | rfl | rfl
        · cases hb
        · obtain rfl := List.mem_singleton.mp hb
          decide
        · obtain rfl := List.mem_singleton.mp hb
          decide
      · exact digits_alphabet hds b hb

theorem marked_word (h : bs ∈ words) : Marked (marks bs) := by
  refine marked_marks fun b hb => ?_
  have hword := List.mem_flatten_of_mem h hb
  simp only [alphabet, List.append_assoc]
  exact List.mem_append_right _ (List.mem_append_right _ (List.mem_append_left _ hword))

theorem Derives.marked {part : Part} (h : Derives part items) : Marked items := by
  have bracket : Marked [.mark 0x5d] := marked_nil.cons (by decide)
  have brace : Marked [.mark 0x7d] := marked_nil.cons (by decide)
  induction h with
  | word h => exact marked_word h
  | number h => exact marked_number h
  | string => exact marked_nil.string
  | emptyArray h => exact .cons (by decide) ((marked_space h).append bracket)
  | array _ ih => exact .cons (by decide) (ih.append bracket)
  | nested _ ih => exact ih
  | emptyObject h => exact .cons (by decide) ((marked_space h).append brace)
  | object _ ih => exact .cons (by decide) (ih.append brace)
  | member h₁ h₂ h₃ h₄ _ ih =>
    have hvalue := (marked_space h₃).append (ih.append (marked_space h₄))
    exact (marked_space h₁).append ((marked_space h₂).append (hvalue.cons (by decide))).string
  | members _ _ ih ih' => exact ih.append (ih'.cons (by decide))
  | element h₁ h₂ _ ih => exact (marked_space h₁).append (ih.append (marked_space h₂))
  | elements _ _ ih ih' => exact ih.append (ih'.cons (by decide))

end Marked

/-! ## What follows a string -/

/-- No string but a name is directly followed by a colon. -/
def Keyed (items : Items) : Prop :=
  items.IsChain fun i j => (∃ lit, i = .string .value lit) → j ≠ .mark colon

section Keyed

variable {items xs ys : Items} {bs : Bytes}

/-- It is enough that what is appended does not begin with a colon. -/
theorem Keyed.append (hx : Keyed xs) (hy : Keyed ys) (hhead : ys.head? ≠ some (.mark colon)) :
    Keyed (xs ++ ys) := by
  refine List.isChain_append.mpr ⟨hx, hy, ?_⟩
  rintro i - j hj - rfl
  exact hhead (Option.mem_def.mp hj)

theorem Keyed.mark (h : Keyed items) (b : UInt8) : Keyed (.mark b :: items) := by
  refine List.IsChain.cons h ?_
  rintro j - ⟨lit, hlit⟩
  cases hlit

theorem Keyed.key (h : Keyed items) (lit : Literal) : Keyed (.string .key lit :: items) := by
  refine List.IsChain.cons h ?_
  rintro j - ⟨lit', hlit⟩
  cases hlit

theorem Keyed.marks (h : Keyed items) (bs : Bytes) : Keyed (Json.marks bs ++ items) := by
  induction bs with
  | nil => exact h
  | cons b bs ih => exact ih.mark b

theorem keyed_nil : Keyed [] := List.isChain_nil

theorem keyed_marks (bs : Bytes) : Keyed (marks bs) := by
  have h := keyed_nil.marks bs
  rwa [List.append_nil] at h

theorem head?_marks_append (h : colon ∉ bs) (hhead : xs.head? ≠ some (.mark colon)) :
    (marks bs ++ xs).head? ≠ some (.mark colon) := by
  cases bs with
  | nil => exact hhead
  | cons b bs =>
    intro heq
    obtain rfl := Item.mark.inj (Option.some.inj heq)
    exact h List.mem_cons_self

theorem head?_append (hne : xs ≠ []) (h : xs.head? ≠ some (.mark colon)) :
    (xs ++ ys).head? ≠ some (.mark colon) := by
  rwa [List.head?_append_of_ne_nil xs hne]

theorem colon_not_mem_space (h : IsSpace bs) : colon ∉ bs :=
  fun hc => absurd (h colon hc) (by decide)

theorem head?_space (h : IsSpace bs) : (marks bs).head? ≠ some (.mark colon) := by
  cases bs with
  | nil => exact Option.some_ne_none _ ∘ Eq.symm
  | cons b bs =>
    intro heq
    obtain rfl := Item.mark.inj (Option.some.inj heq)
    exact colon_not_mem_space h List.mem_cons_self

theorem IsNumber.head (h : IsNumber bs) : bs ≠ [] ∧ bs.head? ≠ some colon := by
  obtain ⟨hsign, hint, -, -⟩ := h
  simp only [List.mem_cons, List.not_mem_nil, or_false] at hsign
  rcases hsign with rfl | rfl
  · obtain ⟨⟨hne, hds⟩, -⟩ := hint
    rename_i int frac exp
    cases int with
    | nil => exact absurd rfl hne
    | cons d ds =>
      refine ⟨List.cons_ne_nil _ _, fun h => ?_⟩
      obtain rfl := Option.some.inj h
      exact absurd (hds colon List.mem_cons_self) (by decide)
  · exact ⟨List.cons_ne_nil _ _, fun h => absurd (Option.some.inj h) (by decide)⟩

theorem head_words : ∀ w ∈ words, w ≠ [] ∧ w.head? ≠ some colon := by decide

theorem head?_marks (h : bs ≠ [] ∧ bs.head? ≠ some colon) :
    marks bs ≠ [] ∧ (marks bs).head? ≠ some (.mark colon) := by
  cases bs with
  | nil => exact absurd rfl h.1
  | cons b bs =>
    refine ⟨List.cons_ne_nil _ _, fun heq => h.2 ?_⟩
    exact congrArg some (Item.mark.inj (Option.some.inj heq))

/-- Names alone are followed by colons, and no part of a text begins with one. -/
theorem Derives.keyed {part : Part} (h : Derives part items) :
    Keyed items ∧ items ≠ [] ∧ items.head? ≠ some (.mark colon) := by
  have other : ∀ {b : UInt8} (xs : Items), b ≠ colon →
      Item.mark b :: xs ≠ [] ∧ (Item.mark b :: xs).head? ≠ some (.mark colon) :=
    fun xs hb => ⟨List.cons_ne_nil _ _, fun h => hb (Item.mark.inj (Option.some.inj h))⟩
  have close : ∀ {xs : Items} {b : UInt8}, b ≠ colon → Keyed xs → Keyed (xs ++ [.mark b]) :=
    fun hb hx => hx.append (keyed_nil.mark _) (other [] hb).2
  have joined : ∀ {xs ys : Items}, Keyed xs → xs ≠ [] → xs.head? ≠ some (.mark colon) → Keyed ys →
      Keyed (xs ++ .mark comma :: ys) ∧ xs ++ .mark comma :: ys ≠ [] ∧
        (xs ++ .mark comma :: ys).head? ≠ some (.mark colon) :=
    fun hx hne hhead hy => ⟨hx.append (hy.mark _) (other _ (by decide)).2,
      List.append_ne_nil_of_left_ne_nil hne _, head?_append hne hhead⟩
  induction h with
  | word h => exact ⟨keyed_marks _, head?_marks (head_words _ h)⟩
  | number h => exact ⟨keyed_marks _, head?_marks h.head⟩
  | string => exact ⟨List.isChain_singleton _, List.cons_ne_nil _ _, by simp⟩
  | emptyArray h => exact ⟨(close (by decide) (keyed_marks _)).mark _, other _ (by decide)⟩
  | array _ ih => exact ⟨(close (by decide) ih.1).mark _, other _ (by decide)⟩
  | nested _ ih => exact ih
  | emptyObject h => exact ⟨(close (by decide) (keyed_marks _)).mark _, other _ (by decide)⟩
  | object _ ih => exact ⟨(close (by decide) ih.1).mark _, other _ (by decide)⟩
  | @member w₁ w₂ w₃ w₄ lit v h₁ h₂ h₃ h₄ _ ih =>
    -- the colon here is the one that follows a name
    have hvalue := (ih.1.append (keyed_marks w₄) (head?_space h₄)).marks w₃
    refine ⟨(((hvalue.mark colon).marks w₂).key lit).marks w₁, ?_, ?_⟩
    · exact List.append_ne_nil_of_right_ne_nil _ (List.cons_ne_nil _ _)
    · exact head?_marks_append (colon_not_mem_space h₁) (by simp)
  | members _ _ ih ih' => exact joined ih.1 ih.2.1 ih.2.2 ih'.1
  | @element w₁ w₂ v h₁ h₂ _ ih =>
    refine ⟨(ih.1.append (keyed_marks w₂) (head?_space h₂)).marks w₁, ?_, ?_⟩
    · exact List.append_ne_nil_of_right_ne_nil _ (List.append_ne_nil_of_left_ne_nil ih.2.1 _)
    · exact head?_marks_append (colon_not_mem_space h₁) (head?_append ih.2.1 ih.2.2)
  | elements _ _ ih ih' => exact joined ih.1 ih.2.1 ih.2.2 ih'.1

end Keyed

/-- What is used of the grammar: the bytes outside of strings, and what follows a string. -/
structure Scannable (items : Items) : Prop where
  marked : Marked items
  keyed : Keyed items

theorem IsObjectText.scannable {items : Items} (h : IsObjectText items) : Scannable items := by
  obtain ⟨h₁, h₂, h⟩ := h
  rename_i w₁ w₂ o
  refine ⟨(marked_space h₁).append (h.marked.append (marked_space h₂)), ?_⟩
  exact (h.keyed.1.append (keyed_marks w₂) (head?_space h₂)).marks w₁

/-- There is no terminator in such a text. -/
theorem Scannable.nulFree {items : Items} (h : Scannable items) : 0 ∉ items.bytes := by
  intro hzero
  obtain ⟨i, hi, hzero⟩ := List.mem_flatMap.mp hzero
  cases i with
  | mark b =>
    obtain rfl := List.mem_singleton.mp hzero
    exact absurd (h.marked 0 hi) (by decide)
  | string role lit =>
    rcases List.mem_cons.mp hzero with hzero | hzero
    · exact absurd hzero (by decide)
    rcases List.mem_append.mp hzero with hzero | hzero
    · exact absurd (lit.printable 0 hzero) (by decide)
    · exact absurd (List.mem_singleton.mp hzero) (by decide)

/-! ## Quotation marks -/

/-- What stands before a byte that is not in `u` begins with `u`. -/
theorem exists_append_of_not_mem {b : UInt8} {u v x y : Bytes} (h : b ∉ u)
    (heq : u ++ v = x ++ b :: y) : ∃ x', x = u ++ x' ∧ v = x' ++ b :: y := by
  rcases List.append_eq_append_iff.mp heq with ⟨x', hx, hv⟩ | ⟨c, hu, hc⟩
  · exact ⟨x', hx, hv⟩
  cases c with
  | nil => exact ⟨[], by rw [hu, List.append_nil, List.append_nil], hc.symm⟩
  | cons d c =>
    obtain rfl := (List.cons.inj hc).1
    rw [hu] at h
    exact absurd (List.mem_append_right _ List.mem_cons_self) h

/-- The bytes need no escape of a quotation mark or a reverse solidus. -/
def Unescaped (bs : Bytes) : Prop := quote ∉ bs ∧ backslash ∉ bs

instance (bs : Bytes) : Decidable (Unescaped bs) := inferInstanceAs (Decidable (_ ∧ _))

theorem Unescaped.append {bs bs' : Bytes} (h : Unescaped bs) (h' : Unescaped bs') :
    Unescaped (bs ++ bs') :=
  ⟨fun hb => (List.mem_append.mp hb).elim h.1 h'.1, fun hb => (List.mem_append.mp hb).elim h.2 h'.2⟩

theorem CodeUnit.unescaped (u : CodeUnit) : Unescaped u.bytes := by
  have digit : ∀ d : HexDigit, Unescaped [d.byte] := by
    intro d
    have hd := d.isHex
    refine ⟨fun h => ?_, fun h => ?_⟩
    · rw [← List.mem_singleton.mp h] at hd
      exact absurd hd (by decide)
    · rw [← List.mem_singleton.mp h] at hd
      exact absurd hd (by decide)
  exact (digit u.d₁).append ((digit u.d₂).append ((digit u.d₃).append (digit u.d₄)))

/-- A quotation mark after the opening one closes the string, is escaped in it, or stands
behind it. -/
theorem Literal.quote_cases {lit : Literal} {r x y : Bytes}
    (h : lit.bytes ++ quote :: r = x ++ quote :: y) :
    (x = lit.bytes ∧ y = r) ∨
    (∃ l₁ l₂ : Literal, lit = l₁ ++ .short .quote :: l₂ ∧ x = l₁.bytes ++ [backslash] ∧
      y = l₂.bytes ++ quote :: r) ∨
    ∃ z, x = lit.bytes ++ quote :: z ∧ r = z ++ quote :: y := by
  induction lit generalizing x with
  | nil =>
    cases x with
    | nil => exact .inl ⟨rfl, (List.cons.inj h).2.symm⟩
    | cons c x =>
      obtain ⟨rfl, hr⟩ := List.cons.inj h
      exact .inr (.inr ⟨x, rfl, hr⟩)
  | cons p lit ih =>
    rw [Literal.bytes_cons, List.append_assoc] at h
    -- behind the piece the three cases are those of the rest of the literal
    have behind : ∀ {x'}, Literal.bytes lit ++ quote :: r = x' ++ quote :: y → x = p.bytes ++ x' →
        (x = Literal.bytes (p :: lit) ∧ y = r) ∨
        (∃ l₁ l₂, p :: lit = l₁ ++ .short .quote :: l₂ ∧ x = Literal.bytes l₁ ++ [backslash] ∧
          y = Literal.bytes l₂ ++ quote :: r) ∨
        ∃ z, x = Literal.bytes (p :: lit) ++ quote :: z ∧ r = z ++ quote :: y := by
      rintro x' hx' rfl
      rcases ih hx' with ⟨rfl, hy⟩ | ⟨l₁, l₂, rfl, rfl, hy⟩ | ⟨z, rfl, hr⟩
      · exact .inl ⟨(Literal.bytes_cons p lit).symm, hy⟩
      · refine .inr (.inl ⟨p :: l₁, l₂, rfl, ?_, hy⟩)
        rw [Literal.bytes_cons, List.append_assoc]
      · refine .inr (.inr ⟨z, ?_, hr⟩)
        rw [Literal.bytes_cons, List.append_assoc]
    by_cases hp : quote ∈ p.bytes
    · cases p with
      | plain b hb =>
        obtain rfl := List.mem_singleton.mp hp
        exact absurd rfl hb.2.1
      | short e =>
        obtain rfl : e = .quote := by
          revert hp
          cases e <;> decide
        obtain ⟨x', rfl, hx'⟩ := exists_append_of_not_mem (u := [backslash]) (by decide) h
        cases x' with
        | nil =>
          refine .inr (.inl ⟨[], lit, rfl, rfl, ?_⟩)
          exact (List.cons.inj hx').2.symm
        | cons c x' =>
          obtain ⟨rfl, hr⟩ := List.cons.inj hx'
          exact behind hr rfl
      | unit u =>
        rcases List.mem_cons.mp hp with hp | hp
        · exact absurd hp (by decide)
        rcases List.mem_cons.mp hp with hp | hp
        · exact absurd hp (by decide)
        · exact absurd hp u.unescaped.1
    · obtain ⟨x', hx, hx'⟩ := exists_append_of_not_mem hp h
      exact behind hx' hx

/-- A literal that spells itself is such. -/
theorem Literal.unescaped_of_decode {lit : Literal} (h : lit.decode = some lit.bytes) :
    Unescaped lit.bytes := by
  have hback := Literal.not_mem_of_decode h
  refine ⟨fun hquote => ?_, hback⟩
  obtain ⟨p, hp, hquote⟩ := List.mem_flatMap.mp hquote
  have hpiece : ∀ b ∈ p.bytes, b ≠ backslash := fun b hb he =>
    hback (he ▸ List.mem_flatMap.mpr ⟨p, hp, hb⟩)
  cases p with
  | plain b hb =>
    obtain rfl := List.mem_singleton.mp hquote
    exact hb.2.1 rfl
  | short e => exact hpiece _ List.mem_cons_self rfl
  | unit u => exact hpiece _ List.mem_cons_self rfl

/-- The first quotation mark behind such bytes closes the string. -/
theorem Literal.bytes_eq_of_unescaped {lit : Literal} {bs r r' : Bytes} (hbs : Unescaped bs)
    (h : lit.bytes ++ quote :: r = bs ++ quote :: r') : lit.bytes = bs ∧ r = r' := by
  rcases Literal.quote_cases h with ⟨rfl, rfl⟩ | ⟨l₁, l₂, -, rfl, -⟩ | ⟨z, rfl, -⟩
  · exact ⟨rfl, rfl⟩
  · exact absurd (List.mem_append_right _ (List.mem_singleton_self _)) hbs.2
  · exact absurd (List.mem_append_right _ List.mem_cons_self) hbs.1

/-- Where a quotation mark stands in a text: what is before it and what is behind it. -/
inductive QuoteAt : Items → Bytes → Bytes → Prop
  | opens (p : Items) (role : Role) (lit : Literal) (q : Items) :
      QuoteAt (p ++ .string role lit :: q) p.bytes (lit.bytes ++ quote :: q.bytes)
  | closes (p : Items) (role : Role) (lit : Literal) (q : Items) :
      QuoteAt (p ++ .string role lit :: q) (p.bytes ++ quote :: lit.bytes) q.bytes
  | inside (p : Items) (role : Role) (l₁ l₂ : Literal) (q : Items) :
      QuoteAt (p ++ .string role (l₁ ++ .short .quote :: l₂) :: q)
        (p.bytes ++ quote :: (l₁.bytes ++ [backslash])) (l₂.bytes ++ quote :: q.bytes)

theorem QuoteAt.cons {items : Items} {x y : Bytes} (h : QuoteAt items x y) (i : Item) :
    QuoteAt (i :: items) (i.bytes ++ x) y := by
  cases h with
  | opens p role lit q =>
    have h := QuoteAt.opens (i :: p) role lit q
    rwa [Items.bytes_cons] at h
  | closes p role lit q =>
    have h := QuoteAt.closes (i :: p) role lit q
    rwa [Items.bytes_cons, List.append_assoc] at h
  | inside p role l₁ l₂ q =>
    have h := QuoteAt.inside (i :: p) role l₁ l₂ q
    rwa [Items.bytes_cons, List.append_assoc] at h

/-- Every quotation mark is one of these. -/
theorem QuoteAt.of_bytes {items : Items} {x y : Bytes} (hm : Marked items)
    (h : items.bytes = x ++ quote :: y) : QuoteAt items x y := by
  induction items generalizing x with
  | nil => exact absurd h.symm (List.append_ne_nil_of_right_ne_nil _ (List.cons_ne_nil _ _))
  | cons i items ih =>
    have hrest : Marked items := fun b hb => hm b (List.mem_cons_of_mem _ hb)
    rw [Items.bytes_cons] at h
    cases i with
    | mark b =>
      have hne : quote ∉ [b] := by
        intro hq
        obtain rfl := List.mem_singleton.mp hq
        exact absurd (hm quote List.mem_cons_self) (by decide)
      obtain ⟨x', rfl, hx'⟩ := exists_append_of_not_mem hne h
      exact (ih hrest hx').cons (.mark b)
    | string role lit =>
      rw [Item.bytes_string_append] at h
      cases x with
      | nil =>
        obtain rfl := (List.cons.inj h).2
        exact .opens [] role lit items
      | cons c x =>
        obtain ⟨rfl, htail⟩ := List.cons.inj h
        rcases Literal.quote_cases htail with ⟨rfl, rfl⟩ | ⟨l₁, l₂, rfl, rfl, rfl⟩ | ⟨z, rfl, hz⟩
        · exact .closes [] role lit items
        · exact .inside [] role l₁ l₂ items
        · have h := (ih hrest hz).cons (.string role lit)
          rwa [Item.bytes_string_append] at h

/-- Bytes without a quotation mark are bytes outside of strings, up to the next string. -/
theorem eq_marks_of_not_mem {p : Items} (h : quote ∉ p.bytes) : p = marks p.bytes := by
  induction p with
  | nil => rfl
  | cons i p ih =>
    rw [Items.bytes_cons, List.mem_append, not_or] at h
    cases i with
    | mark b => exact congrArg (.mark b :: ·) (ih h.2)
    | string role lit => exact absurd List.mem_cons_self h.1

/-! ## Names in quotation marks -/

/-- Where `"K"`, the separator and a quotation mark stand in a text though it is not the name
`K`: what is before them and what is behind them. It is the end of a longer name with an
escaped quotation mark before `K`, or the text between two strings, the second of which is
the separator. -/
inductive LookAlike (K sep : Bytes) : Items → Bytes → Bytes → Prop
  | tail (p : Items) (l₁ l₂ : Literal) (q : Items) (y : Bytes) : l₂.bytes = K →
      q.bytes = sep ++ quote :: y →
      LookAlike K sep (p ++ .string .key (l₁ ++ .short .quote :: l₂) :: q)
        (p.bytes ++ quote :: (l₁.bytes ++ [backslash])) y
  | between (p : Items) (role role' : Role) (lit lit' : Literal) (q : Items) : lit'.bytes = sep →
      LookAlike K sep (p ++ .string role lit :: (marks K ++ .string role' lit' :: q))
        (p.bytes ++ quote :: lit.bytes) q.bytes

/-- Where they stand, be it that name or not. -/
inductive FieldAt (K sep : Bytes) : Items → Bytes → Bytes → Prop
  | name (p : Items) (lit : Literal) (q : Items) (y : Bytes) : lit.bytes = K →
      q.bytes = sep ++ quote :: y → FieldAt K sep (p ++ .string .key lit :: q) p.bytes y
  | other {items : Items} {x y : Bytes} : LookAlike K sep items x y → FieldAt K sep items x y

section FieldAt

variable {K sep x y : Bytes} {items p q : Items} {role : Role} {lit : Literal}

/-- What is followed by a colon is a name. -/
theorem Keyed.role_eq_key (h : Keyed (p ++ .string role lit :: q)) (hcolon : sep.head? = some colon)
    (hq : q.bytes = sep ++ y) : role = .key := by
  cases role with
  | key => rfl
  | value =>
    cases sep with
    | nil => cases hcolon
    | cons c sep =>
      obtain rfl := Option.some.inj hcolon
      cases q with
      | nil => cases hq
      | cons i q =>
        have hnext := (List.isChain_cons_cons.mp (List.isChain_append.mp h).2.1).1 ⟨lit, rfl⟩
        cases i with
        | mark b =>
          obtain rfl := (List.cons.inj hq).1
          exact absurd rfl hnext
        | string role' lit' => exact absurd (List.cons.inj hq).1 (by decide)

theorem Scannable.tail (h : Scannable (p ++ q)) : Scannable q :=
  ⟨fun b hb => h.marked b (List.mem_append_right _ hb), (List.isChain_append.mp h.keyed).2.1⟩

/-- Wherever they stand, it is one of these. -/
theorem FieldAt.of_bytes (h : Scannable items) (hK : Unescaped K) (hsep : Unescaped sep)
    (hcolon : sep.head? = some colon)
    (heq : items.bytes = x ++ quote :: (K ++ quote :: (sep ++ quote :: y))) :
    FieldAt K sep items x y := by
  have hopen := QuoteAt.of_bytes h.marked heq
  generalize hz : K ++ quote :: (sep ++ quote :: y) = z at hopen
  cases hopen with
  | opens p role lit q =>
    obtain ⟨hlit, hq⟩ := Literal.bytes_eq_of_unescaped hK hz.symm
    obtain rfl := h.keyed.role_eq_key hcolon hq
    exact .name p lit q y hlit hq
  | inside p role l₁ l₂ q =>
    obtain ⟨hlit, hq⟩ := Literal.bytes_eq_of_unescaped hK hz.symm
    obtain rfl := h.keyed.role_eq_key hcolon hq
    exact .other (.tail p l₁ l₂ q y hlit hq)
  | closes p role lit q =>
    -- the quotation mark closes a string, so `K` is outside of strings up to the next one
    have hrest : Scannable q := Scannable.tail (p := p ++ [.string role lit]) (by simpa using h)
    have hclose := QuoteAt.of_bytes hrest.marked hz.symm
    generalize hw : sep ++ quote :: y = w at hclose
    cases hclose with
    | opens p' role' lit' q' =>
      obtain ⟨hlit, hq⟩ := Literal.bytes_eq_of_unescaped hsep hw.symm
      have hmarks := eq_marks_of_not_mem hK.1
      have h := LookAlike.between p role role' lit lit' q' hlit (K := p'.bytes)
      rw [← hmarks, hq] at h
      exact .other h
    | closes p' role' lit' q' =>
      exact absurd (List.mem_append_right _ List.mem_cons_self) hK.1
    | inside p' role' l₁ l₂ q' =>
      exact absurd (List.mem_append_right _ List.mem_cons_self) hK.1

theorem LookAlike.bytes (h : LookAlike K sep items x y) :
    items.bytes = x ++ quote :: (K ++ quote :: (sep ++ quote :: y)) := by
  cases h with
  | tail p l₁ l₂ q y hlit hq =>
    rw [Items.bytes_append, Items.bytes_cons, Item.bytes_string_append, hq, Literal.bytes_append,
      Literal.bytes_cons, hlit]
    simp [Piece.bytes, Escape.letter, quote]
  | between p role role' lit lit' q hlit =>
    rw [Items.bytes_append, Items.bytes_cons, Item.bytes_string_append, Items.bytes_append,
      bytes_marks, Items.bytes_cons, Item.bytes_string_append, hlit]
    simp

/-- And there they stand. -/
theorem FieldAt.bytes (h : FieldAt K sep items x y) :
    items.bytes = x ++ quote :: (K ++ quote :: (sep ++ quote :: y)) := by
  cases h with
  | name p lit q y hlit hq =>
    rw [Items.bytes_append, Items.bytes_cons, Item.bytes_string_append, hlit, hq]
  | other h => exact h.bytes

/-- A name that cannot stand outside of strings is not found between two strings. -/
theorem LookAlike.exists_name (h : LookAlike K sep items x y) (hm : Marked items) {b : UInt8}
    (hb : b ∈ K) (hout : b ∉ alphabet) :
    ∃ lit : Literal, .string .key lit ∈ items ∧ .short .quote ∈ lit := by
  cases h with
  | tail p l₁ l₂ q y hlit hq =>
    refine ⟨_, List.mem_append_right _ List.mem_cons_self, ?_⟩
    exact List.mem_append_right _ List.mem_cons_self
  | between p role role' lit lit' q hlit =>
    refine absurd (hm b ?_) hout
    exact List.mem_append_right _ (List.mem_cons_of_mem _
      (List.mem_append_left _ (mark_mem_marks.mpr hb)))

end FieldAt

end Json
