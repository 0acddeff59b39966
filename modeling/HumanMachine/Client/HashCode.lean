import HumanMachine.Data.Bytes
import HumanMachine.Data.Double
import HumanMachine.Data.Positional
import Mathlib.Data.Rat.Cast.Defs

/-!
# The id of a machine

`stringToHashCode` reads the line with the MAC address as a numeral to the base 7 whose
digits are the codes of its characters. The codes range over more than 7 values, so that
different lines may have the same id.
-/

namespace HumanMachine.Client

/-- The value of a `char`, which is signed. -/
def charValue (c : UInt8) : ℤ :=
  if c.toNat < 128 then c.toNat else c.toNat - 256

theorem charValue_injective : Function.Injective charValue := by
  intro left right same
  rw [← UInt8.toNat_inj]
  simp only [charValue] at same
  have := left.toNat_lt
  have := right.toNat_lt
  split_ifs at same <;> omega

def stringToHashCode (s : Bytes) : Double :=
  let seed : Double := .fin 7
  let h : Double := .fin 0
  if h.eq (.fin 0) && s.length > 0 then
    s.foldl (fun h c => seed * h + .fin (charValue c)) h
  else h

/-- The codes of the characters, from the last one on. -/
def codes (s : Bytes) : List ℤ :=
  (s.map charValue).reverse

theorem stringToHashCode_eq (s : Bytes) :
    stringToHashCode s = .fin (Positional.value 7 (codes s) : ℤ) := by
  have exact_sum : ∀ (sum : ℤ),
      s.foldl (fun h c => (Double.fin 7) * h + .fin (charValue c)) (.fin sum) =
        .fin ((s.map charValue).foldl (fun sum digit => 7 * sum + digit) sum : ℤ) := by
    induction s with
    | nil =>
        intro sum
        rfl
    | cons c s ih =>
        intro sum
        have step : Double.fin 7 * .fin sum + .fin (charValue c) =
            .fin ((7 * sum + charValue c : ℤ) : ℚ) := by
          simp
        rw [List.foldl_cons, step, ih, List.map_cons, List.foldl_cons]
  rw [stringToHashCode, codes, ← Positional.foldl_eq_value]
  cases s with
  | nil => rfl
  | cons c s =>
      rw [if_pos (by simp [Double.eq])]
      simpa using exact_sum 0

theorem stringToHashCode_eq_iff (first second : Bytes) :
    stringToHashCode first = stringToHashCode second ↔
      Positional.value 7 (codes first) = Positional.value 7 (codes second) := by
  simp [stringToHashCode_eq]

/-- Six two-digit groups. -/
structure MacAddress where
  groups : List (Fin 16 × Fin 16)
  six : groups.length = 6

def hexDigit (digit : Fin 16) : UInt8 :=
  if digit < 10 then 48 + UInt8.ofNat digit else 87 + UInt8.ofNat digit

/-- The line which `cat /sys/class/net/eth0/address` prints. -/
def MacAddress.line (address : MacAddress) : Bytes :=
  (ascii ":").intercalate (address.groups.map fun (high, low) => [hexDigit high, hexDigit low]) ++
    ascii "\n"

theorem MacAddress.line_length (address : MacAddress) : address.line.length = 18 := by
  rcases address with ⟨groups, six⟩
  match groups, six with
  | [_, _, _, _, _, _], _ => rfl

/-- The differences of the codes of two lines, from the last character on. -/
def codeDifferences (first second : Bytes) : List ℤ :=
  Positional.differences (codes first) (codes second)

/-- Two lines get the same id exactly when the differences of their codes cancel with
carries to the base 7. In particular they get different ids when the last characters in
which they differ are not congruent modulo 7, and when they differ in one character. -/
theorem macAddress_ids_eq_iff (first second : MacAddress) :
    (stringToHashCode first.line = stringToHashCode second.line ↔
      Positional.Cancels 7 0 (codeDifferences first.line second.line)) ∧
    (∀ before before' c c' after, first.line = before ++ c :: after →
      second.line = before' ++ c' :: after → ¬7 ∣ charValue c - charValue c' →
      stringToHashCode first.line ≠ stringToHashCode second.line) ∧
    ∀ before c c' after, first.line = before ++ c :: after → second.line = before ++ c' :: after →
      c ≠ c' → stringToHashCode first.line ≠ stringToHashCode second.line := by
  refine ⟨?_, ?_, ?_⟩
  · rw [stringToHashCode_eq_iff]
    apply Positional.value_eq_iff (by decide)
    simp [codes, MacAddress.line_length]
  · intro before before' c c' after firstLine secondLine distinct
    rw [ne_eq, stringToHashCode_eq_iff, firstLine, secondLine]
    simpa [codes] using Positional.value_ne_of_last (by decide) distinct _ _ _
  · intro before c c' after firstLine secondLine distinct
    rw [ne_eq, stringToHashCode_eq_iff, firstLine, secondLine]
    simpa [codes] using Positional.value_ne_of_single (by decide) (charValue_injective.ne distinct) _ _

/-- The addresses `00:00:00:00:00:08` and `00:00:00:00:00:11`. -/
def collidingAddresses : MacAddress × MacAddress :=
  (⟨List.replicate 5 (0, 0) ++ [(0, 8)], rfl⟩, ⟨List.replicate 5 (0, 0) ++ [(1, 1)], rfl⟩)

theorem macAddress_ids_collide :
    ¬∀ first second : MacAddress, first.line ≠ second.line →
      stringToHashCode first.line ≠ stringToHashCode second.line := by
  intro distinct
  refine distinct collidingAddresses.1 collidingAddresses.2 (by decide) ?_
  rw [stringToHashCode_eq_iff]
  decide

end HumanMachine.Client
