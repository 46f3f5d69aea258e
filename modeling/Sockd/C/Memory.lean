import Mathlib.Data.Vector.Basic
import Mathlib.Data.List.GetD
import Sockd.C.Strings

/-!
# Arrays with a count, buffers, mappings and `int`

A `Table` is the usual pair of a fixed-size array and the number of its slots in
use. Clearing it sets the count and leaves the slots as they are, and a slot is
written over what was there before, so both are part of the model; `live` is
what the loops over the count see. `Table.live_grow` and `Table.live_fill` say
what writing does to it.

A `Space` holds the file mappings of a process. Each mapping gets an address of
its own, so an address kept after its `munmap` stays visibly dangling.
-/

namespace C

/-- The value of an `int` expression, or of a conversion to `int`, in 32 bits. -/
def int (v : Int) : Int := v.bmod (2 ^ 32)

theorem int_bounds (v : Int) : -2 ^ 31 ≤ int v ∧ int v < 2 ^ 31 :=
  ⟨Int.le_bmod (by decide), Int.bmod_lt (by decide)⟩

/-- A value that fits is kept. -/
theorem int_eq {v : Int} (hle : -2 ^ 31 ≤ v) (hlt : v < 2 ^ 31) : int v = v :=
  Int.bmod_eq_of_le hle hlt

/-! ## Arrays with a count -/

/-- An array of `cap` slots and the number of slots in use. -/
structure Table (α : Type) (cap : Nat) where
  slots : Vector α cap
  count : Nat
  count_le : count ≤ cap

namespace Table

variable {α β : Type} {cap : Nat}

/-- No slot in use, every slot as given. -/
def zero (a : α) : Table α cap := ⟨Vector.replicate cap a, 0, Nat.zero_le _⟩

/-- The slots in use, in order. -/
def live (t : Table α cap) : List α := t.slots.toList.take t.count

/-- `count = 0`; the slots stay as they are. -/
def clear (t : Table α cap) : Table α cap := { t with count := 0, count_le := Nat.zero_le _ }

/-- Write the first slot that is not in use, over what is there, and count it. -/
def grow (t : Table α cap) (write : α → α) (room : t.count < cap) : Table α cap where
  slots := t.slots.set t.count (write t.slots[t.count])
  count := t.count + 1
  count_le := room

/-- Write every slot in use, over what is there. -/
def mapLive (t : Table α cap) (write : α → α) : Table α cap :=
  { t with slots := t.slots.mapFinIdx fun i a _ => if i < t.count then write a else a }

/-- Write one slot for each item, in order, as long as there is room. -/
def fill (t : Table α cap) (write : β → α → α) : List β → Table α cap
  | [] => t
  | item :: items =>
    if room : t.count < cap then (t.grow (write item) room).fill write items else t

/-- The slot at `i`, in use or not; `d` stands for what lies outside of the array. -/
def slot (t : Table α cap) (d : α) (i : Nat) : α := t.slots.toList.getD i d

@[simp] theorem live_zero (a : α) : (zero a : Table α cap).live = [] := rfl

@[simp] theorem live_clear (t : Table α cap) : t.clear.live = [] := rfl

@[simp] theorem count_clear (t : Table α cap) : t.clear.count = 0 := rfl

/-- A cleared array has room. -/
theorem room_clear (t : Table α cap) (h : 0 < cap) : t.clear.count < cap := h

theorem length_live (t : Table α cap) : t.live.length = t.count := by
  simp only [live, List.length_take, Vector.length_toList]
  exact Nat.min_eq_left t.count_le

theorem live_of_count {t : Table α cap} (h : t.count = 0) : t.live = [] := by
  simp [live, h]

/-- Growing appends the written slot to the slots in use. -/
theorem live_grow (t : Table α cap) (write : α → α) (room : t.count < cap) :
    (t.grow write room).live = t.live ++ [write t.slots[t.count]] := by
  have hlen : t.count < t.slots.toList.length := by simpa using room
  simp only [live, grow, Vector.toList_set]
  rw [List.take_succ_eq_append_getElem (by simpa using room), List.take_set_of_le le_rfl]
  simp

/-- Filling appends as many items as there is room for, when what was in a slot
does not show in what is written. -/
theorem live_fill {write : β → α → α} {f : β → α} (hf : ∀ b a, write b a = f b)
    (t : Table α cap) (items : List β) :
    (t.fill write items).live = t.live ++ (items.take (cap - t.count)).map f := by
  induction items generalizing t with
  | nil => simp [fill]
  | cons item items ih =>
    unfold fill
    split
    · next room =>
      obtain ⟨k, hk⟩ : ∃ k, cap - t.count = k + 1 := ⟨cap - t.count - 1, by omega⟩
      have hcount : cap - (t.grow (write item) room).count = k := by
        show cap - (t.count + 1) = k
        omega
      rw [ih, live_grow, hcount, hk, hf]
      simp
    · next full =>
      have : cap - t.count = 0 := by omega
      simp [this]

/-- A slot in use is the one the loops over the count see. -/
theorem slot_eq_live (t : Table α cap) (d : α) {i : Nat} (h : i < t.count) :
    t.live[i]? = some (t.slot d i) := by
  have hi : i < t.slots.toList.length := by
    have := t.count_le
    simp only [Vector.length_toList]
    omega
  rw [live, List.getElem?_take_of_lt h, slot, List.getElem?_eq_getElem hi,
    List.getD_eq_getElem _ _ hi]

end Table

/-! ## Buffers -/

/-- Memory addressed from the start of an array; the offset may lie outside of it. -/
abbrev Buffer : Type := Int → UInt8

/-- `memcpy(dst + off, src, size)`. -/
def memcpy (dst : Buffer) (off : Int) (src : Nat → UInt8) (size : Nat) : Buffer := fun i =>
  if off ≤ i ∧ i < off + size then src (i - off).toNat else dst i

/-- The first `n` bytes of an array. -/
def Buffer.first (buf : Buffer) (n : Nat) : Bytes := (List.range n).map fun i => buf i

theorem Buffer.first_eq (buf : Buffer) (n : Nat) :
    buf.first n = (List.range n).map fun i => buf (Int.ofNat i) := by
  unfold Buffer.first
  rw [List.bind_eq_flatMap, List.map_flatMap, ← List.flatMap_pure_eq_map]
  rfl

theorem Buffer.first_add (buf : Buffer) (n k : Nat) :
    buf.first (n + k) = buf.first n ++ (List.range k).map fun i => buf (n + i : Nat) := by
  rw [Buffer.first_eq, Buffer.first_eq, List.range_add, List.map_append, List.map_map]
  rfl

/-- `buf[i] = b`. -/
def Buffer.set (buf : Buffer) (i : Int) (b : UInt8) : Buffer := fun j => if j = i then b else buf j

/-- What is behind the first `n` bytes does not matter to them. -/
theorem Buffer.first_set (buf : Buffer) (n : Nat) (b : UInt8) :
    (buf.set n b).first n = buf.first n := by
  rw [Buffer.first_eq, Buffer.first_eq]
  refine List.map_congr_left fun i hi => if_neg ?_
  have hlt := List.mem_range.mp hi
  rw [Int.ofNat_eq_natCast]
  omega

/-- A byte behind the first `n` bytes comes after them. -/
theorem Buffer.first_set_succ (buf : Buffer) (n : Nat) (b : UInt8) :
    (buf.set n b).first (n + 1) = buf.first n ++ [b] := by
  have hset := buf.first_set n b
  rw [Buffer.first_eq] at hset ⊢
  rw [List.range_succ, List.map_append, hset, List.map_singleton]
  exact congrArg (_ ++ [·]) (if_pos rfl)

/-- A copy to the end of the first `off` bytes appends to them. -/
theorem Buffer.first_memcpy (dst : Buffer) (off : Nat) (src : Nat → UInt8) (size : Nat) :
    Buffer.first (memcpy dst off src size) (off + size) =
      dst.first off ++ (List.range size).map src := by
  rw [Buffer.first_eq, Buffer.first_eq, List.range_add, List.map_append, List.map_map]
  congr 1
  · refine List.map_congr_left fun i hi => if_neg ?_
    have hlt := List.mem_range.mp hi
    rw [Int.ofNat_eq_natCast]
    omega
  · refine List.map_congr_left fun i hi => ?_
    have hlt := List.mem_range.mp hi
    have hin : (off : Int) ≤ ((off + i : Nat) : Int) ∧ ((off + i : Nat) : Int) < off + size := by
      omega
    have hoff : (((off + i : Nat) : Int) - off).toNat = i := by omega
    show memcpy dst off src size ((off + i : Nat) : Int) = src i
    rw [memcpy, if_pos hin, hoff]

/-! ## Mappings -/

/-- A mapped file. -/
structure Mapping where
  size : UInt64
  byte : Nat → UInt8

/-- The mappings of a process by their addresses, and the next address to give out. -/
structure Space where
  next : Nat
  mapped : Nat → Option Mapping

namespace Space

/-- No mapping. -/
def empty : Space := ⟨0, fun _ => none⟩

/-- `mmap`, when it succeeds: the address and the space with the new mapping. -/
def mmap (s : Space) (m : Mapping) : Nat × Space :=
  (s.next, ⟨s.next + 1, fun a => if a = s.next then some m else s.mapped a⟩)

/-- `munmap`. -/
def munmap (s : Space) (addr : Nat) : Space :=
  { s with mapped := fun a => if a = addr then none else s.mapped a }

/-- A new mapping has the address it was given. -/
theorem mapped_mmap (s : Space) (m : Mapping) : (s.mmap m).2.mapped s.next = some m := by
  simp [mmap]

/-- A new mapping leaves the earlier ones where they are. -/
theorem mapped_mmap_of_lt {s : Space} {a : Nat} (h : a < s.next) (m : Mapping) :
    (s.mmap m).2.mapped a = s.mapped a := by
  simp [mmap, Nat.ne_of_lt h]

end Space

end C
