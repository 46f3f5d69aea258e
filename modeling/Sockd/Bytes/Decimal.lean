import Sockd.Bytes.BigEndian

/-!
# Decimal numerals

`Nat.toDigits 10` writes a number; `parseDigits` reads a non-empty string of
decimal digits, and nothing else. `parseDigits_toDigits` is the round trip.
-/

namespace Bytes

/-- The value of a decimal digit. -/
def digit? (c : Char) : Option Nat := if c.isDigit then some (c.toNat - '0'.toNat) else none

/-- Read the digits `cs` after a number `acc` has been read. -/
def parseFrom : Nat → List Char → Option Nat
  | acc, [] => some acc
  | acc, c :: cs =>
    match digit? c with
    | some d => parseFrom (acc * 10 + d) cs
    | none => none

/-- The number written by a non-empty string of decimal digits. -/
def parseDigits : List Char → Option Nat
  | [] => none
  | c :: cs => parseFrom 0 (c :: cs)

theorem digit?_digitChar {d : Nat} (hd : d < 10) : digit? d.digitChar = some d := by
  have h : ∀ d : Fin 10, digit? d.val.digitChar = some d.val := by decide
  exact h ⟨d, hd⟩

theorem parseFrom_append (acc : Nat) (cs ds : List Char) :
    parseFrom acc (cs ++ ds) = (parseFrom acc cs).bind fun n => parseFrom n ds := by
  induction cs generalizing acc with
  | nil => rfl
  | cons c cs ih =>
    simp only [List.cons_append, parseFrom]
    cases digit? c with
    | none => rfl
    | some d => exact ih _

theorem parseFrom_toDigits (n : Nat) : parseFrom 0 (Nat.toDigits 10 n) = some n := by
  induction n using Nat.strong_induction_on with
  | _ n ih =>
    rw [Nat.toDigits_eq_if (by omega)]
    split
    next h => simp [parseFrom, digit?_digitChar h]
    next h =>
      rw [parseFrom_append, ih (n / 10) (by omega)]
      simp only [Option.bind_some, parseFrom, digit?_digitChar (Nat.mod_lt n (by omega))]
      congr 1
      omega

theorem toDigits_ne_nil (n : Nat) : Nat.toDigits 10 n ≠ [] := by
  rw [Nat.toDigits_eq_if (by omega)]
  split <;> simp

/-- A written number reads back as itself. -/
theorem parseDigits_toDigits (n : Nat) : parseDigits (Nat.toDigits 10 n) = some n := by
  have h := parseFrom_toDigits n
  cases hd : Nat.toDigits 10 n with
  | nil => exact absurd hd (toDigits_ne_nil n)
  | cons c cs => rw [hd] at h; exact h

theorem isDigit_of_mem_toDigits {n : Nat} {c : Char} (h : c ∈ Nat.toDigits 10 n) :
    c.isDigit = true :=
  Nat.isDigit_of_mem_toDigits (by omega) (by omega) h

end Bytes
