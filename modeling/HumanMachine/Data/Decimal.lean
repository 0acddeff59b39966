import HumanMachine.Data.Bytes

/-!
# Decimal numbers

The digits which `sprintf` writes for `%d`, and the value of a sequence of digits.
-/

namespace HumanMachine

def isDigit (byte : UInt8) : Bool :=
  48 ≤ byte && byte ≤ 57

def decimalValue (digits : Bytes) : ℕ :=
  digits.foldl (fun value digit => 10 * value + (digit.toNat - 48)) 0

/-- The text which `sprintf(len, "%d", n)` writes. -/
def decimal (n : ℤ) : Bytes :=
  ascii (toString n)

abbrev byteOf (character : Char) : UInt8 :=
  UInt8.ofNat character.toNat

theorem decimal_natCast (n : ℕ) : decimal n = (Nat.toDigits 10 n).map byteOf := by
  change (n.repr.toList).map byteOf = _
  rw [Nat.toList_repr]

theorem toNat_of_isDigit {character : Char} (digit : character.isDigit) :
    (byteOf character).toNat = character.toNat ∧ 48 ≤ character.toNat ∧ character.toNat ≤ 57 := by
  rw [Char.isDigit_iff_toNat] at digit
  change 48 ≤ character.toNat ∧ character.toNat ≤ 57 at digit
  have small : character.toNat % 2 ^ 8 = character.toNat := Nat.mod_eq_of_lt (by omega)
  exact ⟨by simpa using small, digit.1, digit.2⟩

theorem isDigit_of_mem_decimal {n : ℕ} {byte : UInt8} (mem : byte ∈ decimal n) : isDigit byte := by
  rw [decimal_natCast] at mem
  rcases List.mem_map.mp mem with ⟨character, among, rfl⟩
  have digit := Nat.isDigit_of_mem_toDigits (by decide) (by decide) among
  rcases toNat_of_isDigit digit with ⟨same, lower, upper⟩
  simp only [isDigit, Bool.and_eq_true, decide_eq_true_eq, UInt8.le_iff_toNat_le, same]
  exact ⟨lower, upper⟩

theorem not_mem_decimal {n : ℕ} {byte : UInt8} (other : isDigit byte = false) :
    byte ∉ decimal n := by
  intro mem
  simp [isDigit_of_mem_decimal mem] at other

theorem length_decimal_le {n k : ℕ} (positive : 0 < k) (small : n < 10 ^ k) :
    (decimal n).length ≤ k := by
  rw [decimal_natCast, List.length_map]
  exact (Nat.length_toDigits_le_iff (by decide) positive).mpr small

theorem decimal_ne_nil (n : ℕ) : decimal n ≠ [] := by
  rw [decimal_natCast]
  simp

theorem decimalValue_decimal (n : ℕ) : decimalValue (decimal n) = n := by
  have digits : ∀ character ∈ Nat.toDigits 10 n, character.isDigit := fun character among =>
    Nat.isDigit_of_mem_toDigits (by decide) (by decide) among
  have read : ∀ (characters : List Char) (value : ℕ), (∀ c ∈ characters, c.isDigit) →
      (characters.map byteOf).foldl (fun value digit => 10 * value + (digit.toNat - 48)) value =
        Nat.ofDigitChars 10 characters value := by
    intro characters
    induction characters with
    | nil => intros; rfl
    | cons character characters ih =>
        intro value allDigits
        rw [List.map_cons, List.foldl_cons, Nat.ofDigitChars_cons,
          (toNat_of_isDigit (allDigits character List.mem_cons_self)).1]
        exact ih _ fun c mem => allDigits c (List.mem_cons_of_mem _ mem)
  rw [decimalValue, decimal_natCast, read _ _ digits]
  exact Nat.ofDigitChars_ten_toDigits

end HumanMachine
