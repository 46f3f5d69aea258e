import Mathlib.Data.List.TakeWhile
import Mathlib.Data.List.Infix
import Sockd.Bytes.Utf8

/-!
# C strings and the character arrays that hold them

A `Str` is a C string without its terminator. A `Field n` is an array of `n + 1`
characters that is only ever written by `strncpy(f, s, n)`: it starts as zeros,
so its last byte stays the terminator, and it holds the first `n` bytes of `s`
whatever was in it before (`Field.str_strncpy`, `Field.strncpy_eq`).
-/

namespace C

/-! ## Characters -/

/-- The value of a `char` that holds this byte; a machine has `char` signed or not. -/
def char (signed : Bool) (b : UInt8) : Int :=
  if signed ∧ 128 ≤ b.toNat then b.toNat - 256 else b.toNat

/-- `(unsigned char)c`, which is also what `putchar(c)` writes. -/
def unsignedChar (c : Int) : UInt8 := UInt8.ofInt c

theorem unsignedChar_char (signed : Bool) (b : UInt8) : unsignedChar (char signed b) = b := by
  have hlt := b.toNat_lt
  apply UInt8.toNat_inj.mp
  unfold unsignedChar char UInt8.ofInt
  split
  · rw [UInt8.toNat_ofNat']
    omega
  · rw [UInt8.toNat_ofNat']
    omega

/-- The bytes below 128 are the characters that they are, signed or not. -/
theorem char_eq_iff (signed : Bool) (b : UInt8) {n : Nat} (hn : n < 128) :
    char signed b = n ↔ b.toNat = n := by
  have hlt := b.toNat_lt
  unfold char
  split
  · omega
  · omega

/-! ## Strings -/

/-- A C string: its bytes up to the terminator. -/
structure Str where
  bytes : Bytes
  nulFree : 0 ∉ bytes
  deriving DecidableEq

namespace Str

theorem ext_bytes {s t : Str} (h : s.bytes = t.bytes) : s = t := by
  cases s
  cases t
  simp_all

/-- The string at the start of `mem`, the memory from its first byte on. -/
def ofMem (mem : Bytes) : Str :=
  ⟨mem.takeWhile (· != 0), fun h => by simpa using List.mem_takeWhile_imp h⟩

/-- A string literal. -/
def lit (s : String) : Str := ofMem (Bytes.encode s.toList)

/-- The string cut after `n` bytes. -/
def truncate (n : Nat) (s : Str) : Str :=
  ⟨s.bytes.take n, fun h => s.nulFree (List.mem_of_mem_take h)⟩

instance : Append Str :=
  ⟨fun s t => ⟨s.bytes ++ t.bytes, fun h => (List.mem_append.mp h).elim s.nulFree t.nulFree⟩⟩

@[simp] theorem bytes_append (s t : Str) : (s ++ t).bytes = s.bytes ++ t.bytes := rfl

theorem bytes_truncate (n : Nat) (s : Str) : (s.truncate n).bytes = s.bytes.take n := rfl

/-- `strlen(s)`. -/
def strlen (s : Str) : Nat := s.bytes.length

/-- `s[0]`, the terminator when the string is empty. -/
def first (s : Str) : UInt8 := s.bytes.headD 0

/-- `strncmp(s, t, n) == 0`. -/
def strncmp (s t : Str) (n : Nat) : Bool := s.bytes.take n == t.bytes.take n

/-- `strstr(s, pat) != NULL`. -/
def strstr (s pat : Str) : Bool := decide (pat.bytes <:+: s.bytes)

/-- Where `pat` first occurs. -/
def search (pat : Bytes) : Bytes → Option Nat
  | [] => if pat = [] then some 0 else none
  | b :: bs => if pat <+: b :: bs then some 0 else (search pat bs).map (· + 1)

/-- `strstr(s, pat) - s`, when it is found. -/
def strstrAt (s pat : Str) : Option Nat := search pat.bytes s.bytes

/-- What follows the last `c` of the string, when there is one: `strrchr(s, c) + 1`. -/
def afterLast? (c : UInt8) : Bytes → Option Bytes
  | [] => none
  | b :: bs =>
    match afterLast? c bs with
    | some rest => some rest
    | none => if b = c then some bs else none

/-- The tokens that repeated calls of `strtok` with the one delimiter `c` give. -/
def tokens (c : UInt8) (s : Str) : List Str :=
  ((s.bytes.splitOn c).filter (· ≠ [])).map ofMem

/-- The search stops at the first place where `pat` is. -/
theorem search_eq_some {pat bytes : Bytes} {n : Nat} :
    search pat bytes = some n ↔
      n ≤ bytes.length ∧ pat <+: bytes.drop n ∧ ∀ m < n, ¬ pat <+: bytes.drop m := by
  induction bytes generalizing n with
  | nil =>
    rw [search, Option.ite_none_right_eq_some, Option.some.injEq]
    constructor
    · rintro ⟨rfl, rfl⟩
      exact ⟨Nat.le_refl _, List.prefix_rfl, fun m hm => absurd hm (Nat.not_lt_zero m)⟩
    · rintro ⟨hn, hp, -⟩
      rw [List.drop_nil] at hp
      exact ⟨List.prefix_nil.mp hp, (Nat.le_zero.mp hn).symm⟩
  | cons b bs ih =>
    rw [search]
    split
    next h =>
      rw [Option.some.injEq]
      constructor
      · rintro rfl
        exact ⟨Nat.zero_le _, h, fun m hm => absurd hm (Nat.not_lt_zero m)⟩
      · rintro ⟨-, -, hfirst⟩
        by_contra hne
        exact hfirst 0 (Nat.pos_of_ne_zero (Ne.symm hne)) h
    next h =>
      rw [Option.map_eq_some_iff]
      constructor
      · rintro ⟨k, hk, rfl⟩
        obtain ⟨hle, hp, hfirst⟩ := ih.mp hk
        refine ⟨Nat.succ_le_succ hle, hp, fun m hm => ?_⟩
        cases m with
        | zero => exact h
        | succ m => exact hfirst m (Nat.lt_of_succ_lt_succ hm)
      · rintro ⟨hle, hp, hfirst⟩
        cases n with
        | zero => exact absurd hp h
        | succ k =>
          refine ⟨k, ih.mpr ⟨Nat.le_of_succ_le_succ hle, hp, fun m hm => ?_⟩, rfl⟩
          exact hfirst (m + 1) (Nat.succ_lt_succ hm)

theorem search_eq_none {pat bytes : Bytes} :
    search pat bytes = none ↔ ∀ m ≤ bytes.length, ¬ pat <+: bytes.drop m := by
  induction bytes with
  | nil =>
    rw [search]
    split
    next h =>
      rw [h]
      exact ⟨fun hn => (by cases hn), fun hn => absurd List.nil_prefix (hn 0 (Nat.le_refl _))⟩
    next h =>
      refine ⟨fun _ m _ hp => h ?_, fun _ => rfl⟩
      rw [List.drop_nil] at hp
      exact List.prefix_nil.mp hp
  | cons b bs ih =>
    rw [search]
    split
    next h => exact ⟨fun hn => (by cases hn), fun hn => absurd h (hn 0 (Nat.zero_le _))⟩
    next h =>
      rw [Option.map_eq_none_iff, ih]
      constructor
      · intro hn m hm
        cases m with
        | zero => exact h
        | succ m => exact hn m (Nat.le_of_succ_le_succ hm)
      · exact fun hn m hm => hn (m + 1) (Nat.succ_le_succ hm)

/-- Bytes without a terminator, followed by one, are the string they spell. -/
theorem ofMem_append_zero (s : Str) (rest : Bytes) : ofMem (s.bytes ++ 0 :: rest) = s := by
  apply ext_bytes
  have hs : ∀ b ∈ s.bytes, (b != 0) = true := by
    intro b hb
    simp only [bne_iff_ne, ne_eq]
    rintro rfl
    exact s.nulFree hb
  simp [ofMem, List.takeWhile_append_of_pos hs]

/-- A terminator inside `mem` ends the string there, whatever the memory after `mem` holds. -/
theorem ofMem_append_of_mem {mem : Bytes} (h : 0 ∈ mem) (rest : Bytes) :
    ofMem (mem ++ rest) = ofMem mem := by
  apply ext_bytes
  simp only [ofMem]
  rw [List.takeWhile_append]
  split
  · next hlen =>
    have : mem.takeWhile (· != 0) = mem := List.IsPrefix.eq_of_length (List.takeWhile_prefix _) hlen
    rw [← this] at h
    simpa using List.mem_takeWhile_imp h
  · rfl

/-- The string in an array that holds a terminator is shorter than the array. -/
theorem strlen_ofMem_lt {mem : Bytes} (h : 0 ∈ mem) : (ofMem mem).strlen < mem.length := by
  have hle : (ofMem mem).strlen ≤ mem.length :=
    (List.takeWhile_prefix (l := mem) (fun b => b != 0)).length_le
  apply lt_of_le_of_ne hle
  intro heq
  have : mem.takeWhile (· != 0) = mem := List.IsPrefix.eq_of_length (List.takeWhile_prefix _) heq
  rw [← this] at h
  simpa using List.mem_takeWhile_imp h

theorem truncate_of_le {n : Nat} {s : Str} (h : s.strlen ≤ n) : s.truncate n = s :=
  ext_bytes (List.take_of_length_le h)

end Str

/-! ## Arrays of characters -/

/-- An array of `n + 1` characters whose last one is the terminator. -/
structure Field (n : Nat) where
  bytes : Bytes
  size : bytes.length = n + 1
  closed : bytes.drop n = [0]
  deriving DecidableEq

namespace Field

variable {n : Nat}

/-- The array as `memset` to zero leaves it. -/
def zero (n : Nat) : Field n := ⟨List.replicate (n + 1) 0, by simp, by simp⟩

/-- The string in the array. -/
def str (f : Field n) : Str := Str.ofMem f.bytes

/-- `strncpy(f, src, n)`: at most `n` bytes of `src`, padded with zeros to `n` bytes. -/
def strncpy (f : Field n) (src : Str) : Field n where
  bytes := src.bytes.take n ++ List.replicate (n - src.bytes.length) 0 ++ f.bytes.drop n
  size := by
    rw [f.closed]
    simp only [List.length_append, List.length_take, List.length_replicate, List.length_cons,
      List.length_nil]
    omega
  closed := by
    rw [f.closed]
    apply List.drop_left'
    simp only [List.length_append, List.length_take, List.length_replicate]
    omega

/-- The string in the array has at most `n` bytes. -/
theorem strlen_str_le (f : Field n) : f.str.strlen ≤ n := by
  have hzero : (0 : UInt8) ∈ f.bytes := by
    apply List.mem_of_mem_drop (i := n)
    rw [f.closed]
    exact List.mem_singleton_self 0
  have hlt := Str.strlen_ofMem_lt hzero
  rw [f.size] at hlt
  exact Nat.le_of_lt_succ hlt

/-- What the array held before the copy does not matter. -/
theorem strncpy_eq (f f' : Field n) (src : Str) : f.strncpy src = f'.strncpy src := by
  simp only [strncpy, f.closed, f'.closed]

/-- After the copy the array holds the source cut after `n` bytes. -/
theorem str_strncpy (f : Field n) (src : Str) : (f.strncpy src).str = src.truncate n := by
  simp only [str, strncpy, f.closed]
  -- the padding starts with a terminator, be it the array's own last byte
  have hzero : ∃ rest, List.replicate (n - src.bytes.length) (0 : UInt8) ++ [0] = 0 :: rest := by
    cases n - src.bytes.length with
    | zero => exact ⟨[], rfl⟩
    | succ k => exact ⟨List.replicate k 0 ++ [0], rfl⟩
  obtain ⟨rest, hrest⟩ := hzero
  rw [List.append_assoc, hrest]
  exact Str.ofMem_append_zero (src.truncate n) rest

end Field

end C
