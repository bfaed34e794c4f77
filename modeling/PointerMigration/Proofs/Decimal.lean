/-
# Numbers that were written

A number of bytes is written with decimal digits and nothing else, and reading them
gives the number back.
-/
import PointerMigration.Edit.PatchSet
import Mathlib.Algebra.Ring.Nat

namespace PointerMigration

/-! ## Digits -/

namespace Text

theorem isDigit_digit {n : Nat} (h : n < 10) : isDigit (UInt8.ofNat (48 + n)) = true := by
  have : ∀ m : Fin 10, isDigit (UInt8.ofNat (48 + m.val)) = true := by decide
  exact this ⟨n, h⟩

/-- The decimal form of a natural number consists of digits. -/
theorem isDigit_of_mem_lowDigits {count n : Nat} {b : UInt8} (h : b ∈ lowDigits count n) :
    isDigit b = true := by
  induction count generalizing n with
  | zero => simp [lowDigits] at h
  | succ count ih =>
      unfold lowDigits at h
      split at h
      · next hn =>
          rw [List.mem_singleton] at h
          rw [h]
          exact isDigit_digit hn
      · rcases List.mem_append.mp h with h | h
        · exact ih h
        · rw [List.mem_singleton] at h
          rw [h]
          exact isDigit_digit (Nat.mod_lt n (by decide))

/-- A natural number has at least one digit. -/
theorem ofNat_ne_nil (n : Nat) : ofNat n ≠ [] := by
  rw [ofNat, lowDigits]
  split <;> simp

theorem ofWord_of_nonneg {w : Int64} (h : 0 ≤ w) : ofWord w = ofNat w.toInt.toNat := by
  have hw := Int64.le_iff_toInt_le.mp h
  rw [Int64.toInt_zero] at hw
  rw [ofWord, ofInt, if_neg (by omega)]
  congr 1
  omega

/-- A number of bytes is written with digits only. -/
theorem isDigit_of_mem_ofWord {w : Int64} (h : 0 ≤ w) {b : UInt8} (hb : b ∈ ofWord w) :
    isDigit b = true := by
  rw [ofWord_of_nonneg h] at hb
  exact isDigit_of_mem_lowDigits hb

/-- A number has only digits. -/
theorem notMem_ofNat {b : UInt8} (hb : isDigit b = false) (n : Nat) : b ∉ ofNat n := by
  intro hmem
  rw [isDigit_of_mem_lowDigits hmem] at hb
  cases hb

/-- No number, negative or not, has a newline. -/
theorem newline_notMem_ofWord (w : Int64) : newline ∉ ofWord w := by
  have hdigits : ∀ n, newline ∉ ofNat n := notMem_ofNat (by decide)
  rw [ofWord, ofInt]
  split
  · rw [List.mem_cons, not_or]
    exact ⟨by decide, hdigits _⟩
  · exact hdigits _

end Text

/-! ## Reading them -/

namespace Decimal

/-- The number with the given digits, the highest first. -/
def value (digits : Text) : Nat := digits.foldl (fun n b => n * 10 + (b.toNat - 48)) 0

/-- The digits of a number say the number, if there are enough of them. -/
theorem value_lowDigits {count n : Nat} (h : n < 10 ^ count) :
    value (Text.lowDigits count n) = n := by
  have hdigit : ∀ m : Nat, m < 10 → (UInt8.ofNat (48 + m)).toNat - 48 = m := by
    intro m hm
    rw [UInt8.toNat_ofNat', Nat.mod_eq_of_lt (by omega)]
    omega
  induction count generalizing n with
  | zero =>
      obtain rfl : n = 0 := by omega
      rfl
  | succ count ih =>
      rw [Text.lowDigits]
      split
      · rename_i hsmall
        rw [value, List.foldl_cons, List.foldl_nil, hdigit n hsmall]
        omega
      · have hn : n / 10 < 10 ^ count := by
          rw [Nat.pow_succ] at h
          omega
        have hfront :
            (Text.lowDigits count (n / 10)).foldl (fun n b => n * 10 + (b.toNat - 48)) 0 = n / 10 :=
          ih hn
        rw [value, List.foldl_append, hfront, List.foldl_cons, List.foldl_nil,
          hdigit (n % 10) (Nat.mod_lt n (by decide))]
        omega

/-- A number has no more digits than are written. -/
theorem lt_ten_pow_succ (n : Nat) : n < 10 ^ (n + 1) :=
  Nat.lt_trans (Nat.lt_succ_self n) (Nat.lt_pow_self (by decide))

/-- The digits of a number say the number. -/
theorem value_ofNat (n : Nat) : value (Text.ofNat n) = n := value_lowDigits (lt_ten_pow_succ n)

/-- Reading the last digit of a number after the others. -/
theorem readDigits_cons {n : Nat} (hn : n < 2 ^ 64) (rest : Text) :
    readDigits (n / 10) (UInt8.ofNat (48 + n % 10) :: rest) = readDigits n rest := by
  have hdigit : n % 10 < 10 := Nat.mod_lt n (by decide)
  have hvalue : (UInt8.ofNat (48 + n % 10)).toNat - 48 = n % 10 := by
    rw [UInt8.toNat_ofNat', Nat.mod_eq_of_lt (by omega)]
    omega
  have hsum : n / 10 * 10 + n % 10 = n := by omega
  rw [readDigits, Text.isDigit_digit hdigit, hvalue, hsum]
  simp only [Bool.not_true, Bool.false_eq_true, if_false]
  rw [if_neg (by omega)]

/-- Enough low digits of a number are read as the number. -/
theorem readDigits_lowDigits {count n : Nat} (hcount : n < 10 ^ count) (hn : n < 2 ^ 64)
    (rest : Text) : readDigits 0 (Text.lowDigits count n ++ rest) = readDigits n rest := by
  induction count generalizing n rest with
  | zero =>
      have : n = 0 := by simpa using hcount
      rw [this]
      rfl
  | succ count ih =>
      unfold Text.lowDigits
      split
      · next hsmall =>
          have hdiv : n / 10 = 0 := by omega
          have hmod : n % 10 = n := by omega
          have hcons := readDigits_cons hn rest
          rw [hdiv, hmod] at hcons
          exact hcons
      · have hquotient : n / 10 < 10 ^ count := by
          rw [Nat.pow_succ] at hcount
          omega
        rw [List.append_assoc, ih hquotient (by omega)]
        exact readDigits_cons hn rest

/-- A digit is not a sign. -/
theorem sign_of_isDigit {t : Text} (h : ∀ b ∈ t, Text.isDigit b = true) : sign t = (false, t) := by
  cases t with
  | nil => rfl
  | cons b t =>
      have hb := h b (by simp)
      have hminus : b ≠ 45 := by
        rintro rfl
        exact absurd hb (by decide)
      have hplus : b ≠ 43 := by
        rintro rfl
        exact absurd hb (by decide)
      rw [sign, if_neg hminus, if_neg hplus]

theorem readDigits_ofNat {n : Nat} (h : n < 2 ^ 64) : readDigits 0 (Text.ofNat n) = .ok n := by
  have hread := readDigits_lowDigits (lt_ten_pow_succ n) h []
  rw [List.append_nil] at hread
  exact hread

/-- A word is read back from its decimal form. -/
theorem read_ofWord (w : Int64) : read (Text.ofWord w) = .ok w := by
  have hle : -2 ^ 63 ≤ w.toInt := w.le_toInt
  have hlt : w.toInt < 2 ^ 63 := w.toInt_lt
  have hne : (Text.ofNat w.toInt.natAbs).isEmpty = false := by
    rw [List.isEmpty_eq_false_iff]
    exact Text.ofNat_ne_nil _
  have hdigits := @readDigits_ofNat w.toInt.natAbs (by omega)
  rw [Text.ofWord, Text.ofInt, read]
  by_cases hneg : w.toInt < 0
  · have hsign : sign (45 :: Text.ofNat w.toInt.natAbs) = (true, Text.ofNat w.toInt.natAbs) := rfl
    have habs : -(w.toInt.natAbs : Int) = w.toInt := by omega
    rw [if_pos hneg, hsign]
    simp only [hne, hdigits, Bool.false_eq_true, if_false]
    rw [ofMagnitude, if_pos rfl, if_pos (by omega), habs, Int64.ofInt_toInt]
  · have hsign : sign (Text.ofNat w.toInt.natAbs) = (false, Text.ofNat w.toInt.natAbs) :=
      sign_of_isDigit fun b hb => Text.isDigit_of_mem_lowDigits hb
    have habs : (w.toInt.natAbs : Int) = w.toInt := by omega
    rw [if_neg hneg, hsign]
    simp only [hne, hdigits, Bool.false_eq_true, if_false]
    rw [ofMagnitude, if_neg (by decide), if_pos (by omega), habs, Int64.ofInt_toInt]

end Decimal

/-- A number of bytes is read back from its decimal form. -/
theorem EditStream.readCount_ofWord {w : Int64} (h : 0 ≤ w) :
    readCount (Text.ofWord w) = some w := by
  rw [readCount, Decimal.read_ofWord w]
  exact if_neg (Int64.not_lt.mpr h)

end PointerMigration
