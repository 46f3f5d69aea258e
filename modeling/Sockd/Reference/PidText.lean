import Sockd.Reference.Daemon

/-!
# The pid in the PID file

What `write_pid_file` prints, `kill_stale_daemon` scans: the two are inverse on pids
(`scanInt_pidText`).
-/

namespace Sockd.Reference.Daemon

open C

theorem encode_digitChar {d : Nat} (hd : d < 10) :
    Bytes.encode [d.digitChar] = [UInt8.ofNat (0x30 + d)] := by
  have h : ∀ d : Fin 10, Bytes.encode [d.val.digitChar] = [UInt8.ofNat (0x30 + d.val)] := by decide
  exact h ⟨d, hd⟩

theorem encode_append (cs ds : List Char) :
    Bytes.encode (cs ++ ds) = Bytes.encode cs ++ Bytes.encode ds := List.flatMap_append

/-- A number is written in digits, and they have its value. -/
theorem digits_toDigits (n : Nat) : Bytes.encode (Nat.toDigits 10 n) ≠ [] ∧
    (∀ b ∈ Bytes.encode (Nat.toDigits 10 n), isDigit b = true) ∧
    digitsValue 0 (Bytes.encode (Nat.toDigits 10 n)) = n := by
  have hdigit : ∀ d : Fin 10, isDigit (UInt8.ofNat (0x30 + d.val)) = true ∧
      (UInt8.ofNat (0x30 + d.val)).toNat - 0x30 = d.val := by decide
  induction n using Nat.strong_induction_on with
  | _ n ih =>
    rw [Nat.toDigits_eq_if (by omega)]
    split
    next hn =>
      obtain ⟨hd, hv⟩ := hdigit ⟨n, hn⟩
      rw [encode_digitChar hn]
      refine ⟨nofun, fun b hb => ?_, ?_⟩
      · rw [List.mem_singleton.mp hb]
        exact hd
      · simpa [digitsValue] using hv
    next hn =>
      have hlt : n % 10 < 10 := Nat.mod_lt n (by omega)
      obtain ⟨hd, hv⟩ := hdigit ⟨n % 10, hlt⟩
      obtain ⟨hne, hall, hval⟩ := ih (n / 10) (by omega)
      rw [encode_append, encode_digitChar hlt]
      refine ⟨by simp, fun b hb => ?_, ?_⟩
      · rcases List.mem_append.mp hb with hb | hb
        · exact hall b hb
        · rw [List.mem_singleton.mp hb]
          exact hd
      · unfold digitsValue at hval ⊢
        rw [List.foldl_append, hval]
        simp only [List.foldl_cons, List.foldl_nil]
        have hv' : (UInt8.ofNat (48 + n % 10)).toNat - 48 = n % 10 := hv
        omega

theorem isDigit_front {b : UInt8} (hb : isDigit b = true) :
    isSpace b = false ∧ b ≠ 0x2d ∧ b ≠ 0x2b := by
  have hle : 0x30 ≤ b.toNat ∧ b.toNat ≤ 0x39 := by simpa [isDigit, UInt8.le_iff_toNat_le] using hb
  refine ⟨?_, ?_, ?_⟩
  · simp only [isSpace, UInt8.le_iff_toNat_le, ← UInt8.toNat_inj, decide_eq_false_iff_not, not_or,
      not_and]
    exact ⟨by simp; omega, by simp; omega⟩
  · rintro rfl
    exact absurd hle.1 (by decide)
  · rintro rfl
    exact absurd hle.1 (by decide)

/-- What `write_pid_file` writes, `kill_stale_daemon` reads. -/
theorem scanInt_pidText {pid : Nat} (hpid : pid < 2 ^ 31) :
    scanInt (pidText pid) = some (pid : Int) := by
  obtain ⟨hne, hall, hval⟩ := digits_toDigits pid
  obtain ⟨b, ds, hds⟩ := List.exists_cons_of_ne_nil hne
  rw [hds] at hall hval
  obtain ⟨hspace, hminus, hplus⟩ := isDigit_front (hall b List.mem_cons_self)
  have htext : pidText pid = b :: (ds ++ [0x0a]) := by
    rw [← List.cons_append, ← hds]
    exact encode_append _ _
  have hdrop : (b :: (ds ++ [0x0a])).dropWhile isSpace = b :: (ds ++ [0x0a]) :=
    List.dropWhile_cons_of_neg (by simp [hspace])
  have htake : (b :: (ds ++ [0x0a])).takeWhile isDigit = b :: ds := by
    rw [← List.cons_append, List.takeWhile_append_of_pos hall]
    simp [isDigit]
  have hclamp : int (clampLong (1 * ((pid : Nat) : Int))) = pid := by
    have hlong : clampLong (1 * (pid : Int)) = pid := by
      unfold clampLong
      omega
    rw [hlong]
    exact int_eq (by omega) (by omega)
  simp only [scanInt, htext, hdrop, List.headD_cons, hminus, hplus, or_self, if_false, htake, hval,
    reduceCtorEq, hclamp]

theorem pidText_injective {p q : Nat} (hp : p < 2 ^ 31) (hq : q < 2 ^ 31)
    (h : pidText p = pidText q) : p = q := by
  have hscan := scanInt_pidText hp
  rw [h, scanInt_pidText hq] at hscan
  exact (Int.ofNat.inj (Option.some.inj hscan)).symm

end Sockd.Reference.Daemon
