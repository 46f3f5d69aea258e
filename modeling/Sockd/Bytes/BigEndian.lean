import Mathlib.Data.List.Basic
import Mathlib.Tactic.Ring

/-!
# Big-endian integers of a fixed width

`be w n` is the `w`-byte big-endian form of `n` (its low `8 * w` bits), `ofBe`
reads such bytes back. The two are inverse on numbers that fit and on strings of
the right length; nothing else about the representation is needed.
-/

/-- A string of bytes. -/
abbrev Bytes : Type := List UInt8

namespace Bytes

/-- The low `w` bytes of `n`, most significant first. -/
def be : Nat → Nat → Bytes
  | 0, _ => []
  | w + 1, n => UInt8.ofNat (n / 256 ^ w) :: be w n

/-- The number whose big-endian form is the given bytes. -/
def ofBe (bs : Bytes) : Nat := bs.foldl (fun acc b => acc * 256 + b.toNat) 0

@[simp] theorem length_be (w n : Nat) : (be w n).length = w := by
  induction w with
  | zero => rfl
  | succ w ih => simp [be, ih]

theorem foldl_ofBe (bs : Bytes) (acc : Nat) :
    bs.foldl (fun acc b => acc * 256 + b.toNat) acc = acc * 256 ^ bs.length + ofBe bs := by
  induction bs generalizing acc with
  | nil => simp [ofBe]
  | cons b bs ih =>
    rw [ofBe, List.foldl_cons, List.foldl_cons, ih, ih (0 * 256 + b.toNat)]
    simp only [List.length_cons, pow_succ]
    ring

theorem ofBe_cons (b : UInt8) (bs : Bytes) :
    ofBe (b :: bs) = b.toNat * 256 ^ bs.length + ofBe bs := by
  rw [ofBe, List.foldl_cons, foldl_ofBe]
  simp

theorem ofBe_lt (bs : Bytes) : ofBe bs < 256 ^ bs.length := by
  induction bs with
  | nil => simp [ofBe]
  | cons b bs ih =>
    have hb : b.toNat < 256 := UInt8.toNat_lt b
    have hdigit := Nat.mul_le_mul_right (256 ^ bs.length) (Nat.le_of_lt_succ hb)
    rw [ofBe_cons, List.length_cons, pow_succ]
    omega

/-- Reading back what was written gives the bits that were kept. -/
theorem ofBe_be (w n : Nat) : ofBe (be w n) = n % 256 ^ w := by
  induction w with
  | zero => simp [be, ofBe, Nat.mod_one]
  | succ w ih =>
    rw [be, ofBe_cons, length_be, ih]
    have hdigit : (UInt8.ofNat (n / 256 ^ w)).toNat = n / 256 ^ w % 256 := by
      simp
    rw [hdigit, pow_succ, Nat.mod_mul, Nat.mul_comm, Nat.add_comm]

/-- A number that fits survives. -/
theorem ofBe_be_of_lt {w n : Nat} (h : n < 256 ^ w) : ofBe (be w n) = n := by
  rw [ofBe_be, Nat.mod_eq_of_lt h]

/-- Only the low bytes of a number reach its big-endian form. -/
theorem be_add_mul (w n k : Nat) : be w (n + k * 256 ^ w) = be w n := by
  induction w generalizing n k with
  | zero => rfl
  | succ w ih =>
    have hk : k * 256 ^ (w + 1) = k * 256 * 256 ^ w := by rw [pow_succ]; ring
    rw [be, be, hk, ih, Nat.add_mul_div_right _ _ (Nat.pow_pos (by decide))]
    congr 1
    apply UInt8.toNat.inj
    simp

/-- Writing back what was read gives the same bytes. -/
theorem be_ofBe (bs : Bytes) : be bs.length (ofBe bs) = bs := by
  induction bs with
  | nil => rfl
  | cons b bs ih =>
    have hlt := ofBe_lt bs
    rw [List.length_cons, be, ofBe_cons, Nat.add_comm, Nat.add_mul_div_right _ _ (Nat.pow_pos (by decide)),
      Nat.div_eq_of_lt hlt, Nat.zero_add, be_add_mul, ih]
    simp

end Bytes
