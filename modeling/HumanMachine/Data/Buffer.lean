import HumanMachine.Data.Bytes

/-!
# Arrays of bytes

An array has a fixed size, and a store outside of it fails. The functions of the C
library which write a string store one byte after the other, the NUL last.
-/

namespace HumanMachine

structure Buffer (size : ℕ) where
  bytes : Bytes
  length_eq : bytes.length = size

namespace Buffer

variable {size : ℕ}

def zeroed (size : ℕ) : Buffer size :=
  ⟨List.replicate size 0, List.length_replicate⟩

/-- `buf[i] = byte` -/
def store (buf : Buffer size) (i : ℕ) (byte : UInt8) : Option (Buffer size) :=
  if i < size then some ⟨buf.bytes.set i byte, by rw [List.length_set, buf.length_eq]⟩ else none

/-- Stores bytes from the index `i` on. -/
def write (buf : Buffer size) (i : ℕ) : Bytes → Option (Buffer size)
  | [] => some buf
  | byte :: bytes => do
      let buf ← buf.store i byte
      buf.write (i + 1) bytes

/-- The string in the array. Without a NUL there is none. -/
def text (buf : Buffer size) : Option Bytes :=
  if 0 ∈ buf.bytes then some (buf.bytes.takeWhile (· ≠ 0)) else none

def strcpy (buf : Buffer size) (src : Bytes) : Option (Buffer size) :=
  buf.write 0 (src ++ [0])

def strcat (buf : Buffer size) (src : Bytes) : Option (Buffer size) := do
  let dest ← buf.text
  buf.write dest.length (src ++ [0])

/-- One `strcat` after the other. -/
def strcatAll (buf : Buffer size) (pieces : List Bytes) : Option (Buffer size) :=
  pieces.foldlM strcat buf

theorem store_eq_some_iff {buf after : Buffer size} {i : ℕ} {byte : UInt8} :
    buf.store i byte = some after ↔ i < size ∧ after.bytes = buf.bytes.set i byte := by
  rcases after with ⟨bytes, length⟩
  simp [store, eq_comm]

theorem isSome_write_iff (buf : Buffer size) {i : ℕ} {bytes : Bytes} (within : i ≤ size) :
    (buf.write i bytes).isSome ↔ i + bytes.length ≤ size := by
  induction bytes generalizing buf i with
  | nil => simpa [write] using within
  | cons byte bytes ih =>
      by_cases inside : i < size
      · rw [write, store, if_pos inside, Option.bind_eq_bind, Option.bind_some, ih _ inside,
          List.length_cons]
        omega
      · rw [write, store, if_neg inside]
        simp
        omega

theorem bytes_write {buf after : Buffer size} {i : ℕ} {bytes : Bytes}
    (written : buf.write i bytes = some after) :
    after.bytes = buf.bytes.take i ++ bytes ++ buf.bytes.drop (i + bytes.length) := by
  induction bytes generalizing buf i with
  | nil =>
      obtain rfl : buf = after := Option.some_inj.mp written
      simp
  | cons byte bytes ih =>
      rcases Option.bind_eq_some_iff.mp written with ⟨next, stored, rest⟩
      rcases store_eq_some_iff.mp stored with ⟨inside, isSet⟩
      have inside : i < buf.bytes.length := by rwa [buf.length_eq]
      have taken : (buf.bytes.set i byte).take (i + 1) = buf.bytes.take i ++ [byte] := by
        rw [List.take_add_one, List.take_set_of_le (Nat.le_refl i), List.getElem?_set_self inside]
        rfl
      rw [ih rest, isSet, taken, List.drop_set_of_lt (by omega), List.length_cons,
        Nat.add_right_comm, Nat.add_assoc, List.append_assoc, List.append_assoc, List.append_assoc]
      rfl

/-! ## Strings -/

theorem prefix_of_nul {bytes : Bytes} (mem : 0 ∈ bytes) :
    bytes.takeWhile (· ≠ 0) ++ [0] <+: bytes := by
  induction bytes with
  | nil => cases mem
  | cons byte bytes ih =>
      by_cases zero : byte = 0
      · subst zero
        simp
      · have later : 0 ∈ bytes := (List.mem_cons.mp mem).resolve_left (Ne.symm zero)
        rw [List.takeWhile_cons_of_pos (by simpa using zero), List.cons_append]
        exact List.cons_prefix_cons.mpr ⟨rfl, ih later⟩

theorem takeWhile_of_noNul {content : Bytes} (noNul : 0 ∉ content) (rest : Bytes) :
    (content ++ rest).takeWhile (· ≠ 0) = content ++ rest.takeWhile (· ≠ 0) := by
  apply List.takeWhile_append_of_pos
  intro byte mem
  rw [decide_eq_true_eq]
  rintro rfl
  exact noNul mem

theorem takeWhile_append_nul (src : Bytes) :
    (src ++ [0]).takeWhile (· ≠ 0) = src.takeWhile (· ≠ 0) := by
  induction src with
  | nil => rfl
  | cons byte src ih =>
      by_cases zero : byte = 0
      · subst zero
        rfl
      · rw [List.cons_append, List.takeWhile_cons_of_pos (by simpa using zero),
          List.takeWhile_cons_of_pos (by simpa using zero), ih]

theorem nul_not_mem_takeWhile (bytes : Bytes) : 0 ∉ bytes.takeWhile (· ≠ 0) := by
  intro inside
  have := List.all_eq_true.mp List.all_takeWhile 0 inside
  simp at this

theorem text_eq_some_iff {buf : Buffer size} {content : Bytes} :
    buf.text = some content ↔ 0 ∉ content ∧ content ++ [0] <+: buf.bytes := by
  rw [text, Option.ite_none_right_eq_some, Option.some_inj]
  constructor
  · rintro ⟨mem, rfl⟩
    exact ⟨nul_not_mem_takeWhile _, prefix_of_nul mem⟩
  · rintro ⟨noNul, rest, split⟩
    rw [List.append_assoc, List.singleton_append] at split
    rw [← split]
    refine ⟨by simp, ?_⟩
    rw [takeWhile_of_noNul noNul]
    simp

theorem length_text_lt {buf : Buffer size} {content : Bytes} (held : buf.text = some content) :
    content.length < size := by
  have fits := (text_eq_some_iff.mp held).2.length_le
  rw [List.length_append, List.length_singleton, buf.length_eq] at fits
  exact fits

theorem text_zeroed (positive : 0 < size) : (zeroed size).text = some [] := by
  rw [text_eq_some_iff]
  refine ⟨List.not_mem_nil, ?_⟩
  cases size with
  | zero => omega
  | succ size => simp [zeroed, List.replicate_succ]

/-- What is written behind the first bytes is the rest of the string. -/
theorem text_of_write {buf after : Buffer size} {dest bytes : Bytes} (before : dest <+: buf.bytes)
    (destNoNul : 0 ∉ dest) (ends : 0 ∈ bytes) (written : buf.write dest.length bytes = some after) :
    after.text = some (dest ++ bytes.takeWhile (· ≠ 0)) := by
  rw [text_eq_some_iff]
  refine ⟨fun mem => (List.mem_append.mp mem).elim destNoNul (nul_not_mem_takeWhile bytes), ?_⟩
  rw [bytes_write written, ← List.prefix_iff_eq_take.mp before, List.append_assoc,
    List.append_assoc, List.prefix_append_right_inj]
  exact (prefix_of_nul ends).trans (List.prefix_append _ _)

theorem isSome_strcpy_iff (buf : Buffer size) (src : Bytes) :
    (buf.strcpy src).isSome ↔ src.length < size := by
  rw [strcpy, isSome_write_iff buf (Nat.zero_le size), List.length_append, List.length_singleton]
  omega

theorem text_strcpy {buf after : Buffer size} {src : Bytes}
    (copied : buf.strcpy src = some after) : after.text = some (src.takeWhile (· ≠ 0)) := by
  rw [← takeWhile_append_nul]
  exact text_of_write List.nil_prefix List.not_mem_nil (by simp) copied

/-- What is read back from the array of a copy. -/
theorem strcpy_bind_text (buf : Buffer size) (src : Bytes) :
    (buf.strcpy src).bind text =
      if src.length < size then some (src.takeWhile (· ≠ 0)) else none := by
  have fits := isSome_strcpy_iff buf src
  cases copied : buf.strcpy src with
  | none =>
      rw [copied] at fits
      rw [if_neg (by simpa using fits)]
      rfl
  | some after =>
      rw [copied] at fits
      rw [if_pos (by simpa using fits)]
      exact text_strcpy copied

theorem isSome_strcat_iff {buf : Buffer size} {dest : Bytes} (held : buf.text = some dest)
    (src : Bytes) : (buf.strcat src).isSome ↔ dest.length + src.length < size := by
  rw [strcat, held, Option.bind_eq_bind, Option.bind_some,
    isSome_write_iff buf (length_text_lt held).le, List.length_append, List.length_singleton]
  omega

theorem text_strcat {buf after : Buffer size} {dest src : Bytes} (held : buf.text = some dest)
    (appended : buf.strcat src = some after) :
    after.text = some (dest ++ src.takeWhile (· ≠ 0)) := by
  rw [strcat, held] at appended
  rcases text_eq_some_iff.mp held with ⟨destNoNul, before⟩
  rw [← takeWhile_append_nul]
  exact text_of_write ((List.prefix_append dest [0]).trans before) destNoNul (by simp) appended

theorem strcatAll_eq {buf : Buffer size} {dest : Bytes} (held : buf.text = some dest)
    {pieces : List Bytes} (noNul : ∀ piece ∈ pieces, 0 ∉ piece) :
    ((buf.strcatAll pieces).isSome ↔ dest.length + pieces.flatten.length < size) ∧
      ∀ after, buf.strcatAll pieces = some after → after.text = some (dest ++ pieces.flatten) := by
  induction pieces generalizing buf dest with
  | nil => simpa [strcatAll, held] using length_text_lt held
  | cons piece pieces ih =>
      rw [List.forall_mem_cons] at noNul
      rw [strcatAll, List.foldlM_cons]
      cases appended : buf.strcat piece with
      | none =>
          have tooLong := (isSome_strcat_iff held piece).not.mp (by simp [appended])
          simp
          omega
      | some next =>
          have nextHeld := text_strcat held appended
          rw [← takeWhile_append_nul, takeWhile_of_noNul noNul.1] at nextHeld
          change next.text = some (dest ++ (piece ++ [])) at nextHeld
          rw [List.append_nil] at nextHeld
          rw [Option.bind_eq_bind, Option.bind_some, List.flatten_cons, List.length_append,
            ← Nat.add_assoc, ← List.length_append, ← List.append_assoc]
          exact ih nextHeld noNul.2

theorem exists_strcatAll {buf : Buffer size} {dest : Bytes} (held : buf.text = some dest)
    {pieces : List Bytes} (noNul : ∀ piece ∈ pieces, 0 ∉ piece)
    (short : dest.length + pieces.flatten.length < size) :
    ∃ after, buf.strcatAll pieces = some after ∧ after.text = some (dest ++ pieces.flatten) := by
  rcases strcatAll_eq held noNul with ⟨fits, text⟩
  rcases Option.isSome_iff_exists.mp (fits.mpr short) with ⟨after, appended⟩
  exact ⟨after, appended, text after appended⟩

end Buffer

end HumanMachine
