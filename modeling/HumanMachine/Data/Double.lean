import Mathlib.Data.Rat.Defs
import Mathlib.Algebra.Order.Field.Rat

/-!
# Doubles

Both programs compute with `double`. Rounding is left out: a finite double is a
rational number and the operations on finite doubles are exact. The special
values stay, because a division by zero yields them instead of stopping the
program, and because `NaN` differs from itself. The sign of zero is not kept.
-/

namespace HumanMachine

/-- A double without rounding. -/
inductive Double where
  | fin (value : ℚ)
  | inf (negative : Bool)
  | nan
  deriving DecidableEq

namespace Double

def neg : Double → Double
  | fin value => fin (-value)
  | inf negative => inf (!negative)
  | nan => nan

def add : Double → Double → Double
  | fin left, fin right => fin (left + right)
  | inf negative, fin _ => inf negative
  | fin _, inf negative => inf negative
  | inf left, inf right => if left = right then inf left else nan
  | nan, _ => nan
  | _, nan => nan

def mul : Double → Double → Double
  | fin left, fin right => fin (left * right)
  | inf negative, fin value => if value = 0 then nan else inf (xor negative (value < 0))
  | fin value, inf negative => if value = 0 then nan else inf (xor negative (value < 0))
  | inf left, inf right => inf (xor left right)
  | nan, _ => nan
  | _, nan => nan

/-- Division; only a nonzero dividend has an infinite quotient by zero. -/
def div : Double → Double → Double
  | fin left, fin right =>
      if right ≠ 0 then fin (left / right)
      else if left = 0 then nan
      else inf (left < 0)
  | inf negative, fin value => inf (xor negative (value < 0))
  | fin _, inf _ => fin 0
  | inf _, inf _ => nan
  | nan, _ => nan
  | _, nan => nan

/-- The comparison `==` on doubles. -/
def eq : Double → Double → Bool
  | fin left, fin right => left = right
  | inf left, inf right => left = right
  | _, _ => false

instance : Zero Double := ⟨fin 0⟩
instance : One Double := ⟨fin 1⟩
instance : Add Double := ⟨add⟩
instance : Sub Double := ⟨fun left right => add left (neg right)⟩
instance : Mul Double := ⟨mul⟩
instance : Div Double := ⟨div⟩
instance : NatCast Double := ⟨fun n => fin n⟩

theorem one_def : (1 : Double) = fin 1 := rfl

@[simp]
theorem natCast_def (n : ℕ) : (n : Double) = fin n := rfl

@[simp]
theorem fin_add_fin (left right : ℚ) : fin left + fin right = fin (left + right) := rfl

@[simp]
theorem fin_sub_fin (left right : ℚ) : fin left - fin right = fin (left - right) := by
  change fin (left + -right) = fin (left - right)
  rw [sub_eq_add_neg]

@[simp]
theorem fin_mul_fin (left right : ℚ) : fin left * fin right = fin (left * right) := rfl

@[simp]
theorem fin_div_fin {left right : ℚ} (nonzero : right ≠ 0) :
    fin left / fin right = fin (left / right) := by
  change div (fin left) (fin right) = fin (left / right)
  simp [div, nonzero]

theorem eq_of_eq_true {left right : Double} (equal : left.eq right = true) : left = right := by
  cases left <;> cases right <;> simp_all [eq]

end Double

end HumanMachine
