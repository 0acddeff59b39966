import Mathlib.Algebra.Order.Ring.Int
import Mathlib.Data.List.Basic
import Mathlib.Tactic.Ring
import Mathlib.Tactic.Linarith

/-!
# Numerals with integer digits

A numeral is a list of integer digits, the least significant one first. The digits are
arbitrary, so that different numerals may have the same value. Two numerals of one
length have the same value exactly when the differences of their digits cancel, that
is, when carrying them from place to place always carries a whole multiple of the base
and leaves nothing at the end.
-/

namespace HumanMachine.Positional

/-- The value of a numeral. -/
def value (base : ℤ) : List ℤ → ℤ
  | [] => 0
  | digit :: digits => digit + base * value base digits

/-- The digits and a carry into the last place add up to zero, place by place. -/
def Cancels (base : ℤ) : ℤ → List ℤ → Prop
  | carry, [] => carry = 0
  | carry, digit :: digits =>
      base ∣ carry + digit ∧ Cancels base ((carry + digit) / base) digits

instance decidableCancels (base : ℤ) :
    (carry : ℤ) → (digits : List ℤ) → Decidable (Cancels base carry digits)
  | carry, [] => inferInstanceAs (Decidable (carry = 0))
  | carry, digit :: digits =>
      have := decidableCancels base ((carry + digit) / base) digits
      inferInstanceAs (Decidable (base ∣ carry + digit ∧ _))

def differences : List ℤ → List ℤ → List ℤ :=
  List.zipWith fun left right => left - right

variable {base : ℤ}

theorem cancels_iff (nonzero : base ≠ 0) (carry : ℤ) (digits : List ℤ) :
    Cancels base carry digits ↔ carry + value base digits = 0 := by
  induction digits generalizing carry with
  | nil => simp [Cancels, value]
  | cons digit digits ih =>
      rw [Cancels, ih, value]
      constructor
      · rintro ⟨⟨quotient, whole⟩, rest⟩
        rw [whole, Int.mul_ediv_cancel_left _ nonzero] at rest
        rw [← add_assoc, whole, ← mul_add, rest, mul_zero]
      · intro sum
        have whole : carry + digit = base * -value base digits := by linarith
        refine ⟨⟨_, whole⟩, ?_⟩
        rw [whole, Int.mul_ediv_cancel_left _ nonzero, neg_add_cancel]

/-- Reading the digits from the most significant one on. -/
theorem foldl_eq_value (digits : List ℤ) :
    digits.foldl (fun sum digit => base * sum + digit) 0 = value base digits.reverse := by
  rw [← List.foldr_reverse]
  induction digits.reverse with
  | nil => rfl
  | cons digit digits ih => rw [List.foldr_cons, ih, value, add_comm]

theorem value_differences {left right : List ℤ} (sameLength : left.length = right.length) :
    value base (differences left right) = value base left - value base right := by
  induction left generalizing right with
  | nil =>
      cases right with
      | nil => simp [differences, value]
      | cons digit digits => cases sameLength
  | cons digit digits ih =>
      cases right with
      | nil => cases sameLength
      | cons other others =>
          have rest := ih (Nat.succ.inj sameLength)
          simp only [differences, List.zipWith_cons_cons, value] at rest ⊢
          rw [rest]
          ring

theorem value_eq_iff (nonzero : base ≠ 0) {left right : List ℤ}
    (sameLength : left.length = right.length) :
    value base left = value base right ↔ Cancels base 0 (differences left right) := by
  rw [cancels_iff nonzero, value_differences sameLength, zero_add, sub_eq_zero]

theorem value_append (low high : List ℤ) :
    value base (low ++ high) = value base low + base ^ low.length * value base high := by
  induction low with
  | nil => simp [value]
  | cons digit digits ih =>
      rw [List.cons_append, value, ih, value, List.length_cons, pow_succ]
      ring

theorem value_cons_ne {digit other : ℤ} (distinct : ¬base ∣ digit - other)
    (digits others : List ℤ) : value base (digit :: digits) ≠ value base (other :: others) := by
  intro same
  apply distinct
  refine ⟨value base others - value base digits, ?_⟩
  simp only [value] at same
  linarith

/-- Behind a common end, digits which are not congruent make the values different. -/
theorem value_ne_of_last (nonzero : base ≠ 0) {digit other : ℤ} (distinct : ¬base ∣ digit - other)
    (low digits others : List ℤ) :
    value base (low ++ digit :: digits) ≠ value base (low ++ other :: others) := by
  intro same
  rw [value_append, value_append, add_right_inj] at same
  exact value_cons_ne distinct digits others (mul_left_cancel₀ (pow_ne_zero _ nonzero) same)

/-- Numerals which differ in one place have different values. -/
theorem value_ne_of_single (nonzero : base ≠ 0) {digit other : ℤ} (distinct : digit ≠ other)
    (low high : List ℤ) :
    value base (low ++ digit :: high) ≠ value base (low ++ other :: high) := by
  intro same
  rw [value_append, value_append, add_right_inj] at same
  have digits := mul_left_cancel₀ (pow_ne_zero _ nonzero) same
  simp only [value, add_left_inj] at digits
  exact distinct digits

end HumanMachine.Positional
