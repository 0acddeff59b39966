import Mathlib.Algebra.Ring.Int.Defs
import Mathlib.Algebra.Ring.Nat
import Mathlib.Data.List.Infix
import Mathlib.Data.Nat.Find

/-!
# Byte strings

The strings of the C++ client are byte strings. This file has the integer
conversions and the members of `std::string` which the client uses, on a
platform with a 32 bit `int` and a 64 bit `size_t`.
-/

namespace HumanMachine

abbrev Bytes : Type := List UInt8

/-- The bytes of a string literal. -/
def ascii (text : String) : Bytes :=
  text.toList.map fun character => UInt8.ofNat character.toNat

/-- The bytes of a text in UTF-8. -/
def utf8 (text : String) : Bytes :=
  text.toList.flatMap String.utf8EncodeChar

theorem utf8_append (first second : String) : utf8 (first ++ second) = utf8 first ++ utf8 second := by
  simp [utf8]

theorem length_le_utf8 (text : String) : text.toList.length ≤ (utf8 text).length := by
  rw [utf8]
  induction text.toList with
  | nil => exact Nat.le_refl 0
  | cons character characters ih =>
      have positive := character.utf8Size_pos
      rw [List.flatMap_cons, List.length_append, String.length_utf8EncodeChar, List.length_cons]
      omega

/-- Conversion to `int`. -/
def toInt (n : ℤ) : ℤ :=
  (n + 2 ^ 31) % 2 ^ 32 - 2 ^ 31

/-- Conversion to `size_t`. -/
def toSizeT (n : ℤ) : ℕ :=
  (n % 2 ^ 64).toNat

/-- `std::string::npos` -/
def npos : ℕ := 2 ^ 64 - 1

/-- The exceptions of the standard library which the client can meet. -/
inductive StdException where
  | outOfRange
  deriving DecidableEq

namespace Bytes

/-- The text before and the text after the first occurrence. -/
structure FirstOccurrence (sub text before after : Bytes) : Prop where
  occurs : text = before ++ sub ++ after
  first : ∀ earlier rest, text = earlier ++ sub ++ rest → before.length ≤ earlier.length

/-- `text.find(sub, 0)` -/
def find (text sub : Bytes) : ℕ :=
  match text.dropInfix? sub with
  | some (before, _) => before.length
  | none => npos

/-- `text.substr(pos, count)` -/
def substr (text : Bytes) (pos count : ℕ) : Except StdException Bytes :=
  if pos > text.length then .error .outOfRange else .ok ((text.drop pos).take count)

theorem dropInfix?_eq_some {sub text before after : Bytes} :
    text.dropInfix? sub = some (before, after) ↔ FirstOccurrence sub text before after := by
  rw [List.dropInfix?_eq_some_iff]
  constructor
  · rintro ⟨⟨same, occurs, equal⟩, first⟩
    rw [beq_iff_eq] at equal
    subst equal
    exact ⟨occurs, fun earlier rest split => first earlier same rest split (beq_self_eq_true same)⟩
  · intro occurrence
    refine ⟨⟨sub, occurrence.occurs, beq_self_eq_true sub⟩, ?_⟩
    intro earlier same rest split equal
    rw [beq_iff_eq] at equal
    subst equal
    exact occurrence.first earlier rest split

theorem find_of_firstOccurrence {sub text before after : Bytes}
    (occurrence : FirstOccurrence sub text before after) : text.find sub = before.length := by
  simp only [find, dropInfix?_eq_some.mpr occurrence]

theorem FirstOccurrence.isInfix {sub text before after : Bytes}
    (occurrence : FirstOccurrence sub text before after) : sub <:+: text :=
  ⟨before, after, occurrence.occurs.symm⟩

theorem FirstOccurrence.append {sub text before after : Bytes}
    (occurrence : FirstOccurrence sub text before after) (more : Bytes) :
    FirstOccurrence sub (text ++ more) before (after ++ more) := by
  refine ⟨by simp [occurrence.occurs], ?_⟩
  intro earlier rest split
  by_contra shorter
  have within : earlier ++ sub <+: text := by
    apply List.prefix_of_prefix_length_le ⟨rest, split.symm⟩ (List.prefix_append text more)
    simp only [occurrence.occurs, List.length_append]
    omega
  rcases within with ⟨inside, split⟩
  exact shorter (occurrence.first earlier inside split.symm)

/-- Nothing occurs across the boundary to a text whose first byte is not searched for. -/
theorem FirstOccurrence.prepend {sub before after front rest : Bytes} {head : UInt8}
    (occurrence : FirstOccurrence sub (head :: rest) before after) (foreign : head ∉ sub)
    (absent : ¬sub <:+: front) :
    FirstOccurrence sub (front ++ head :: rest) (front ++ before) after := by
  refine ⟨by simp [occurrence.occurs], ?_⟩
  intro earlier later split
  rw [List.append_assoc] at split
  rcases List.append_eq_append_iff.mp split with ⟨middle, rfl, inside⟩ | ⟨middle, rfl, inside⟩
  · have behind := occurrence.first middle later (by simpa using inside)
    simpa using behind
  · rcases List.append_eq_append_iff.mp inside with ⟨cut, rfl, _⟩ | ⟨cut, rfl, across⟩
    · exact absurd ⟨earlier, cut, by simp⟩ absent
    · cases cut with
      | nil => exact absurd ⟨earlier, [], by simp⟩ absent
      | cons byte cut =>
          rw [List.cons_append, List.cons.injEq] at across
          simp [across.1] at foreign

theorem exists_firstOccurrence {sub text : Bytes} (occurs : sub <:+: text) :
    ∃ before after, FirstOccurrence sub text before after := by
  rcases occurs with ⟨earlier, rest, split⟩
  have somewhere : ∃ n before after, text = before ++ sub ++ after ∧ before.length = n :=
    ⟨earlier.length, earlier, rest, split.symm, rfl⟩
  classical
  rcases Nat.find_spec somewhere with ⟨before, after, occurs, length⟩
  refine ⟨before, after, occurs, ?_⟩
  intro earlier rest split
  rw [length]
  exact Nat.find_min' somewhere ⟨earlier, rest, split, rfl⟩

theorem dropInfix?_of_not_infix {sub text : Bytes} (absent : ¬sub <:+: text) :
    text.dropInfix? sub = none := by
  cases found : text.dropInfix? sub with
  | none => rfl
  | some parts => exact absurd (dropInfix?_eq_some.mp found).isInfix absent

theorem find_of_not_infix {sub text : Bytes} (absent : ¬sub <:+: text) : text.find sub = npos := by
  simp only [find, dropInfix?_of_not_infix absent]

end Bytes

end HumanMachine
