import HumanMachine.Data.Json
import Mathlib.Algebra.Order.Field.Rat
import Mathlib.Data.Nat.Digits.Defs
import Mathlib.Tactic.Common

/-!
# JSON texts

The grammar of RFC 8259, as a relation between values and their texts. A text is
derived from phrases; the phrases of a value and of an element differ in the white
space around it. Line breaks are control characters and so can only stand in the white
space between tokens: a text without its line breaks is a text of the same value.
-/

namespace HumanMachine.JsonText

def Space (text : List Char) : Prop :=
  ∀ c ∈ text, c = ' ' ∨ c = '\t' ∨ c = '\n' ∨ c = '\r'

/-! ## Tokens -/

/-- A sequence of digits and the number it writes. -/
def Digits (value : ℕ) (text : List Char) : Prop :=
  text ≠ [] ∧ (∀ c ∈ text, c.isDigit) ∧ value = Nat.ofDigitChars 10 text 0

/-- The sign, the digits before the point, those behind it and the exponent. -/
inductive Number : ℚ → List Char → Prop where
  | mk {negative : Bool} {whole : ℕ} {fraction : ℚ} {exponent : ℤ}
      {wholeText fractionText exponentText : List Char} (digits : Digits whole wholeText)
      (noLeadingZero : wholeText.head? = some '0' → wholeText = ['0'])
      (hasFraction : fraction = 0 ∧ fractionText = [] ∨ ∃ n text, Digits n text ∧
        fraction = n / 10 ^ text.length ∧ fractionText = '.' :: text)
      (hasExponent : exponent = 0 ∧ exponentText = [] ∨ ∃ n text mark sign, Digits n text ∧
        mark ∈ ['e', 'E'] ∧ (exponent = n ∧ sign ∈ [[], ['+']] ∨ exponent = -n ∧ sign = ['-']) ∧
        exponentText = mark :: (sign ++ text)) :
      Number ((if negative then -1 else 1) * (whole + fraction) * 10 ^ exponent)
        ((if negative then ['-'] else []) ++ wholeText ++ fractionText ++ exponentText)

def quotationMark : Char := '\x22'

def reverseSolidus : Char := '\x5c'

/-- The characters which are written as a reverse solidus and a letter. -/
def escapes : List (Char × Char) :=
  [(quotationMark, quotationMark), (reverseSolidus, reverseSolidus), ('/', '/'), ('b', '\x08'),
    ('f', '\x0c'), ('n', '\n'), ('r', '\r'), ('t', '\t')]

def hexDigit? (c : Char) : Option ℕ :=
  if c.isDigit then some (c.toNat - 48)
  else if 'a' ≤ c ∧ c ≤ 'f' then some (c.toNat - 87)
  else if 'A' ≤ c ∧ c ≤ 'F' then some (c.toNat - 55)
  else none

/-- Four hexadecimal digits and the number they write. -/
def Hex (code : ℕ) (text : List Char) : Prop :=
  ∃ digits : List ℕ, digits.length = 4 ∧ text.map hexDigit? = digits.map some ∧
    code = digits.foldl (fun sum digit => 16 * sum + digit) 0

/-- The characters of a string and the text between its quotation marks. -/
inductive Characters : List Char → List Char → Prop where
  | nil : Characters [] []
  | unescaped {c : Char} {characters text : List Char} (notControl : 32 ≤ c.toNat)
      (notQuote : c ≠ quotationMark) (notEscape : c ≠ reverseSolidus) (rest : Characters characters text) :
      Characters (c :: characters) (c :: text)
  | escaped {letter c : Char} {characters text : List Char} (escape : (letter, c) ∈ escapes)
      (rest : Characters characters text) :
      Characters (c :: characters) (reverseSolidus :: letter :: text)
  | unicode {code : ℕ} {hex characters text : List Char} (digits : Hex code hex)
      (scalar : code.isValidChar) (rest : Characters characters text) :
      Characters (Char.ofNat code :: characters) (reverseSolidus :: 'u' :: (hex ++ text))
  | surrogates {high low : ℕ} {highHex lowHex characters text : List Char}
      (highDigits : Hex high highHex) (lowDigits : Hex low lowHex)
      (isHigh : 0xD800 ≤ high ∧ high < 0xDC00) (isLow : 0xDC00 ≤ low ∧ low < 0xE000)
      (rest : Characters characters text) :
      Characters (Char.ofNat (0x10000 + (high - 0xD800) * 0x400 + (low - 0xDC00)) :: characters)
        (reverseSolidus :: 'u' :: (highHex ++ reverseSolidus :: 'u' :: (lowHex ++ text)))

/-! ## Phrases -/

/-- What a part of a text stands for. -/
inductive Phrase where
  | value (value : Json)
  /-- A value with white space around it. -/
  | element (value : Json)
  | elements (values : List Json)
  | member (name : String) (value : Json)
  | members (members : List (String × Json))

inductive Derives : Phrase → List Char → Prop where
  | null : Derives (.value .null) "null".toList
  | true : Derives (.value (.bool true)) "true".toList
  | false : Derives (.value (.bool false)) "false".toList
  | number {value : ℚ} {text : List Char} (number : Number value text) :
      Derives (.value (.num (.fin value))) text
  | string {characters text : List Char} (string : Characters characters text) :
      Derives (.value (.str (.ofList characters))) (quotationMark :: (text ++ [quotationMark]))
  | emptyArray {space : List Char} (isSpace : Space space) :
      Derives (.value (.arr [])) ('[' :: (space ++ [']']))
  | array {values : List Json} {text : List Char} (elements : Derives (.elements values) text) :
      Derives (.value (.arr values)) ('[' :: (text ++ [']']))
  | emptyObject {space : List Char} (isSpace : Space space) :
      Derives (.value (.obj [])) ('\x7b' :: (space ++ ['\x7d']))
  | object {members : List (String × Json)} {text : List Char}
      (derives : Derives (.members members) text) :
      Derives (.value (.obj members)) ('\x7b' :: (text ++ ['\x7d']))
  | element {value : Json} {before text after : List Char} (spaceBefore : Space before)
      (derives : Derives (.value value) text) (spaceAfter : Space after) :
      Derives (.element value) (before ++ text ++ after)
  | lastElement {value : Json} {text : List Char} (last : Derives (.element value) text) :
      Derives (.elements [value]) text
  | moreElements {value : Json} {values : List Json} {text rest : List Char}
      (first : Derives (.element value) text) (more : Derives (.elements values) rest) :
      Derives (.elements (value :: values)) (text ++ ',' :: rest)
  | member {value : Json} {characters before name after text : List Char}
      (spaceBefore : Space before) (string : Characters characters name) (spaceAfter : Space after)
      (derives : Derives (.element value) text) :
      Derives (.member (.ofList characters) value)
        (before ++ quotationMark :: (name ++ quotationMark :: (after ++ ':' :: text)))
  | lastMember {name : String} {value : Json} {text : List Char}
      (last : Derives (.member name value) text) : Derives (.members [(name, value)]) text
  | moreMembers {name : String} {value : Json} {members : List (String × Json)}
      {text rest : List Char} (first : Derives (.member name value) text)
      (more : Derives (.members members) rest) :
      Derives (.members ((name, value) :: members)) (text ++ ',' :: rest)

def IsText (value : Json) (text : List Char) : Prop :=
  Derives (.element value) text

/-! ## Deleting line breaks -/

/-- No control characters. -/
def Visible (text : List Char) : Prop :=
  ∀ c ∈ text, 32 ≤ c.toNat

def IsBreak (c : Char) : Prop :=
  c = '\n' ∨ c = '\r'

instance : DecidablePred IsBreak := fun c => inferInstanceAs (Decidable (c = '\n' ∨ c = '\r'))

/-- The text without its line breaks. -/
def unbroken (text : List Char) : List Char :=
  text.filter fun c => ¬IsBreak c

@[simp]
theorem unbroken_append (first second : List Char) :
    unbroken (first ++ second) = unbroken first ++ unbroken second :=
  List.filter_append _ _

theorem not_isBreak_of_visible {c : Char} (visible : 32 ≤ c.toNat) : ¬IsBreak c := by
  rintro (rfl | rfl) <;> simp at visible

theorem unbroken_cons {c : Char} (visible : 32 ≤ c.toNat) (text : List Char) :
    unbroken (c :: text) = c :: unbroken text := by
  simp [unbroken, not_isBreak_of_visible visible]

theorem unbroken_enclosed {first last : Char} (firstVisible : 32 ≤ first.toNat)
    (lastVisible : 32 ≤ last.toNat) (text : List Char) :
    unbroken (first :: (text ++ [last])) = first :: (unbroken text ++ [last]) := by
  rw [unbroken_cons firstVisible, unbroken_append, unbroken_cons lastVisible]
  rfl

theorem unbroken_of_visible {text : List Char} (visible : Visible text) : unbroken text = text := by
  rw [unbroken, List.filter_eq_self]
  intro c mem
  simpa using not_isBreak_of_visible (visible c mem)

theorem space_unbroken {text : List Char} (isSpace : Space text) : Space (unbroken text) := by
  intro c mem
  exact isSpace c ((List.mem_filter.mp mem).1)

theorem visible_append {first second : List Char} :
    Visible (first ++ second) ↔ Visible first ∧ Visible second :=
  List.forall_mem_append

theorem visible_cons {c : Char} {text : List Char} :
    Visible (c :: text) ↔ 32 ≤ c.toNat ∧ Visible text :=
  List.forall_mem_cons

theorem isDigit_visible {c : Char} (digit : c.isDigit = true) : 32 ≤ c.toNat := by
  simp only [Char.isDigit, ge_iff_le, Bool.and_eq_true, decide_eq_true_eq,
    UInt32.le_iff_toNat_le] at digit
  exact le_trans (by decide) digit.1

theorem digits_visible {value : ℕ} {text : List Char} (digits : Digits value text) :
    Visible text :=
  fun c mem => isDigit_visible (digits.2.1 c mem)

theorem number_visible {value : ℚ} {text : List Char} (number : Number value text) :
    Visible text := by
  rcases number with ⟨digits, _, hasFraction, hasExponent⟩
  simp only [visible_append]
  refine ⟨⟨⟨?_, digits_visible digits⟩, ?_⟩, ?_⟩
  · split <;> simp [Visible]
  · rcases hasFraction with ⟨_, rfl⟩ | ⟨n, text, fraction, _, rfl⟩
    · simp [Visible]
    · exact visible_cons.mpr ⟨by decide, digits_visible fraction⟩
  · rcases hasExponent with ⟨_, rfl⟩ | ⟨n, text, mark, sign, exponent, isMark, isSign, rfl⟩
    · simp [Visible]
    · rw [visible_cons, visible_append]
      refine ⟨?_, ?_, digits_visible exponent⟩
      · simp only [List.mem_cons, List.not_mem_nil, or_false] at isMark
        rcases isMark with rfl | rfl <;> decide
      · simp only [List.mem_cons, List.not_mem_nil, or_false] at isSign
        rcases isSign with ⟨_, rfl | rfl⟩ | ⟨_, rfl⟩ <;> simp [Visible]

theorem hexDigit_visible {c : Char} {digit : ℕ} (isHex : hexDigit? c = some digit) :
    32 ≤ c.toNat := by
  rw [hexDigit?] at isHex
  split at isHex
  · next decimal => exact isDigit_visible decimal
  · split at isHex
    · next lower => exact le_trans (by decide) (Char.le_def.mp lower.1)
    · split at isHex
      · next upper => exact le_trans (by decide) (Char.le_def.mp upper.1)
      · cases isHex

theorem hex_visible {code : ℕ} {text : List Char} (hex : Hex code text) : Visible text := by
  rcases hex with ⟨digits, _, same, _⟩
  intro c mem
  have mapped : hexDigit? c ∈ digits.map some := by
    rw [← same]
    exact List.mem_map_of_mem mem
  rcases List.mem_map.mp mapped with ⟨digit, _, isHex⟩
  exact hexDigit_visible isHex.symm

theorem characters_visible {characters text : List Char} (string : Characters characters text) :
    Visible text := by
  induction string with
  | nil => simp [Visible]
  | unescaped notControl _ _ _ ih => exact visible_cons.mpr ⟨notControl, ih⟩
  | @escaped letter c characters text escape _ ih =>
      have letterVisible : ∀ escape ∈ escapes, 32 ≤ escape.1.toNat := by decide
      exact visible_cons.mpr ⟨by decide, visible_cons.mpr ⟨letterVisible _ escape, ih⟩⟩
  | unicode digits _ _ ih =>
      simp only [visible_cons, visible_append]
      exact ⟨by decide, by decide, hex_visible digits, ih⟩
  | surrogates highDigits lowDigits _ _ _ ih =>
      simp only [visible_cons, visible_append]
      exact ⟨by decide, by decide, hex_visible highDigits, by decide, by decide,
        hex_visible lowDigits, ih⟩

theorem Derives.unbroken {phrase : Phrase} {text : List Char} (derives : Derives phrase text) :
    Derives phrase (unbroken text) := by
  induction derives with
  | null => exact .null
  | true => exact .true
  | false => exact .false
  | number number =>
      rw [unbroken_of_visible (number_visible number)]
      exact .number number
  | string string =>
      rw [unbroken_enclosed (by decide) (by decide),
        unbroken_of_visible (characters_visible string)]
      exact .string string
  | emptyArray isSpace =>
      rw [unbroken_enclosed (by decide) (by decide)]
      exact .emptyArray (space_unbroken isSpace)
  | array elements ih =>
      rw [unbroken_enclosed (by decide) (by decide)]
      exact .array ih
  | emptyObject isSpace =>
      rw [unbroken_enclosed (by decide) (by decide)]
      exact .emptyObject (space_unbroken isSpace)
  | object derives ih =>
      rw [unbroken_enclosed (by decide) (by decide)]
      exact .object ih
  | element spaceBefore derives spaceAfter ih =>
      rw [unbroken_append, unbroken_append]
      exact .element (space_unbroken spaceBefore) ih (space_unbroken spaceAfter)
  | lastElement last ih => exact .lastElement ih
  | moreElements first more firstIh moreIh =>
      rw [unbroken_append, unbroken_cons (by decide)]
      exact .moreElements firstIh moreIh
  | member spaceBefore string spaceAfter derives ih =>
      rw [unbroken_append, unbroken_cons (by decide), unbroken_append, unbroken_cons (by decide),
        unbroken_append, unbroken_cons (by decide),
        unbroken_of_visible (characters_visible string)]
      exact .member (space_unbroken spaceBefore) string (space_unbroken spaceAfter) ih
  | lastMember last ih => exact .lastMember ih
  | moreMembers first more firstIh moreIh =>
      rw [unbroken_append, unbroken_cons (by decide)]
      exact .moreMembers firstIh moreIh

/-- Line breaks may be deleted from the text of a value. -/
theorem IsText.unbroken {value : Json} {text : List Char} (isText : IsText value text) :
    IsText value (unbroken text) :=
  Derives.unbroken isText

/-! ## The length of a text -/

mutual

/-- A lower bound for the length of the texts of a value. -/
def leastLength : Json → ℕ
  | .str value => value.toList.length + 2
  | .arr elements => leastElements elements + 2
  | .obj members => leastMembers members + 2
  | _ => 1

def leastElements : List Json → ℕ
  | [] => 0
  | value :: values => leastLength value + leastElements values

def leastMembers : List (String × Json) → ℕ
  | [] => 0
  | (name, value) :: members => name.toList.length + 3 + leastLength value + leastMembers members

end

def Phrase.leastLength : Phrase → ℕ
  | .value content | .element content => JsonText.leastLength content
  | .elements contents => leastElements contents
  | .member name content => name.toList.length + 3 + JsonText.leastLength content
  | .members contents => leastMembers contents

theorem number_ne_nil {value : ℚ} {text : List Char} (number : Number value text) : text ≠ [] := by
  rcases number with ⟨digits, _, _, _⟩
  simp [digits.1]

theorem Characters.length_le {characters text : List Char} (string : Characters characters text) :
    characters.length ≤ text.length := by
  induction string with
  | nil => exact Nat.le_refl 0
  | unescaped _ _ _ _ ih | escaped _ _ ih | unicode _ _ _ ih | surrogates _ _ _ _ _ ih =>
      simp only [List.length_cons, List.length_append]
      omega

theorem Derives.leastLength_le {phrase : Phrase} {text : List Char} (derives : Derives phrase text) :
    phrase.leastLength ≤ text.length := by
  induction derives with
  | null | true | false => decide
  | number number => exact List.length_pos_iff.mpr (number_ne_nil number)
  | string string =>
      have := string.length_le
      simp only [Phrase.leastLength, JsonText.leastLength, String.toList_ofList, List.length_cons,
        List.length_append, List.length_nil]
      omega
  | emptyArray | emptyObject =>
      simp [Phrase.leastLength, JsonText.leastLength, leastElements, leastMembers]
  | array _ ih | object _ ih =>
      simp only [Phrase.leastLength, JsonText.leastLength, List.length_cons, List.length_append,
        List.length_nil] at ih ⊢
      omega
  | element _ _ _ ih =>
      simp only [Phrase.leastLength, List.length_append] at ih ⊢
      omega
  | lastElement _ ih | lastMember _ ih =>
      simpa [Phrase.leastLength, leastElements, leastMembers] using ih
  | moreElements _ _ firstIh moreIh | moreMembers _ _ firstIh moreIh =>
      simp only [Phrase.leastLength, leastElements, leastMembers, List.length_append,
        List.length_cons] at firstIh moreIh ⊢
      omega
  | member _ string _ _ ih =>
      have := string.length_le
      simp only [Phrase.leastLength, String.toList_ofList, List.length_append,
        List.length_cons] at ih ⊢
      omega

theorem leastElements_replicate (n : ℕ) (value : Json) :
    leastElements (List.replicate n value) = n * leastLength value := by
  induction n with
  | zero => rw [List.replicate_zero, leastElements, Nat.zero_mul]
  | succ n ih => rw [List.replicate_succ, leastElements, ih, Nat.succ_mul, Nat.add_comm]

/-! ## Values which have a text -/

def HasText (value : Json) : Prop :=
  ∃ text, Derives (.value value) text

/-- No character needs an escape. -/
def Unescaped (text : String) : Prop :=
  ∀ c ∈ text.toList, 32 ≤ c.toNat ∧ c ≠ quotationMark ∧ c ≠ reverseSolidus

instance (text : String) : Decidable (Unescaped text) :=
  List.decidableBAll _ _

theorem characters_of_unescaped {characters : List Char}
    (plain : ∀ c ∈ characters, 32 ≤ c.toNat ∧ c ≠ quotationMark ∧ c ≠ reverseSolidus) :
    Characters characters characters := by
  induction characters with
  | nil => exact .nil
  | cons c characters ih =>
      rw [List.forall_mem_cons] at plain
      exact .unescaped plain.1.1 plain.1.2.1 plain.1.2.2 (ih plain.2)

theorem space_nil : Space [] := by
  simp [Space]

theorem HasText.element {value : Json} (has : HasText value) :
    ∃ text, Derives (.element value) text := by
  rcases has with ⟨text, derives⟩
  exact ⟨[] ++ text ++ [], .element space_nil derives space_nil⟩

theorem hasText_zero : HasText (.num (.fin 0)) := by
  have number := @Number.mk false 0 0 0 ['0'] [] []
    ⟨by decide, List.forall_mem_singleton.mpr rfl, by decide⟩ (by decide)
    (Or.inl ⟨rfl, rfl⟩) (Or.inl ⟨rfl, rfl⟩)
  exact ⟨_, .number (by simpa using number)⟩

theorem hasText_one : HasText (.num (.fin 1)) := by
  have number := @Number.mk false 1 0 0 ['1'] [] []
    ⟨by decide, List.forall_mem_singleton.mpr rfl, by decide⟩ (by decide)
    (Or.inl ⟨rfl, rfl⟩) (Or.inl ⟨rfl, rfl⟩)
  exact ⟨_, .number (by simpa using number)⟩

theorem hasText_str {text : String} (plain : Unescaped text) : HasText (.str text) := by
  have derives := Derives.string (characters_of_unescaped plain)
  rw [String.ofList_toList] at derives
  exact ⟨_, derives⟩

theorem hasText_arr {value : Json} {values : List Json}
    (all : ∀ element ∈ value :: values, HasText element) : HasText (.arr (value :: values)) := by
  suffices ∃ text, Derives (.elements (value :: values)) text by
    rcases this with ⟨text, derives⟩
    exact ⟨_, .array derives⟩
  induction values generalizing value with
  | nil =>
      rcases (all value List.mem_cons_self).element with ⟨text, derives⟩
      exact ⟨text, .lastElement derives⟩
  | cons next values ih =>
      rw [List.forall_mem_cons] at all
      rcases all.1.element with ⟨text, derives⟩
      rcases ih all.2 with ⟨rest, more⟩
      exact ⟨_, .moreElements derives more⟩

theorem exists_member {name : String} {value : Json} (plain : Unescaped name) (has : HasText value) :
    ∃ text, Derives (.member name value) text := by
  rcases has.element with ⟨text, derives⟩
  have member := Derives.member space_nil (characters_of_unescaped plain) space_nil derives
  rw [String.ofList_toList] at member
  exact ⟨_, member⟩

theorem hasText_obj {member : String × Json} {members : List (String × Json)}
    (all : ∀ each ∈ member :: members, Unescaped each.1 ∧ HasText each.2) :
    HasText (.obj (member :: members)) := by
  suffices ∃ text, Derives (.members (member :: members)) text by
    rcases this with ⟨text, derives⟩
    exact ⟨_, .object derives⟩
  induction members generalizing member with
  | nil =>
      have first := all member List.mem_cons_self
      rcases exists_member first.1 first.2 with ⟨text, derives⟩
      exact ⟨text, .lastMember derives⟩
  | cons next members ih =>
      rw [List.forall_mem_cons] at all
      rcases exists_member all.1.1 all.1.2 with ⟨text, derives⟩
      rcases ih all.2 with ⟨rest, more⟩
      exact ⟨_, .moreMembers derives more⟩

end HumanMachine.JsonText
