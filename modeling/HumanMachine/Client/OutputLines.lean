import HumanMachine.Client.LinuxCommand
import Mathlib.Algebra.BigOperators.Group.List.Basic

/-!
# One entry for every line

`store_result` and `string_exec_command` take what one `fgets` reads for a line. A line
which does not fit into their arrays is read in several pieces, and every piece becomes
an entry.
-/

namespace HumanMachine.Client

/-! ## Lines and reads -/

theorem keptLines_nonempty (text : Bytes) : ∀ line ∈ keptLines text, 0 < line.length := by
  induction text with
  | nil => simp [keptLines]
  | cons byte text ih =>
      rw [keptLines]
      split
      · simpa using ih
      · cases rest : keptLines text with
        | nil => simp
        | cons line lines =>
            rw [rest, List.forall_mem_cons] at ih
            simpa using ih.2

/-- A text is its first line and what is behind it, or has only one line. -/
theorem exists_first_line {text : Bytes} (nonempty : text ≠ []) :
    (∃ front rest, text = front ++ 10 :: rest ∧ 10 ∉ front) ∨ 10 ∉ text ∧ keptLines text = [text] := by
  by_cases newline : 10 ∈ text
  · exact Or.inl (List.eq_append_cons_of_mem newline)
  · rcases List.exists_cons_of_ne_nil nonempty with ⟨byte, front, rfl⟩
    exact Or.inr ⟨newline, keptLines_last newline⟩

theorem fgetsLoop_succ {size turns : ℕ} {text : Bytes} (nonempty : text ≠ []) :
    fgetsLoop size (turns + 1) text =
      cString (takeLine (size - 1) text).1 :: fgetsLoop size turns (takeLine (size - 1) text).2 := by
  rw [fgetsLoop, fgets, if_neg nonempty]

/-- Lines which fit are read one by one. -/
theorem fgetsLoop_of_short {room : ℕ} {text : Bytes} (noNul : 0 ∉ text)
    (short : ∀ line ∈ keptLines text, line.length ≤ room) {turns : ℕ}
    (enough : text.length ≤ turns) : fgetsLoop (room + 1) turns text = keptLines text := by
  induction turns generalizing text with
  | zero =>
      obtain rfl : text = [] := List.length_eq_zero_iff.mp (Nat.le_zero.mp enough)
      rfl
  | succ turns ih =>
      by_cases empty : text = []
      · subst empty
        rfl
      · rw [fgetsLoop_succ empty, Nat.add_sub_cancel]
        rcases exists_first_line empty with ⟨front, rest, rfl, whole⟩ | ⟨whole, single⟩
        · rw [keptLines_append whole, List.forall_mem_cons, List.length_append] at short
          have lengths : (front ++ 10 :: rest).length = front.length + 1 + rest.length := by
            simp
            omega
          simp only [List.mem_append, List.mem_cons, not_or] at noNul
          rw [takeLine_append whole (Nat.lt_of_succ_le short.1), keptLines_append whole,
            cString_of_noNul (by simp [noNul.1]), ih noNul.2.2 short.2 (by omega)]
        · rw [single, List.forall_mem_singleton] at short
          rw [takeLine_last whole short, single, cString_of_noNul noNul]
          cases turns <;> rfl

theorem takeLine_parts (room : ℕ) (text : Bytes) :
    (takeLine room text).1 ++ (takeLine room text).2 = text := by
  induction text generalizing room with
  | nil => cases room <;> rfl
  | cons byte text ih =>
      cases room with
      | zero => rfl
      | succ room =>
          rw [takeLine]
          split
          · next newline => simp [newline]
          · exact congrArg (byte :: ·) (ih room)

/-- The reads put together are the text, whatever its lines are. -/
theorem flatten_fgetsLoop {room : ℕ} (positive : 0 < room) {text : Bytes} (noNul : 0 ∉ text)
    {turns : ℕ} (enough : text.length ≤ turns) : (fgetsLoop (room + 1) turns text).flatten = text := by
  induction turns generalizing text with
  | zero =>
      obtain rfl : text = [] := List.length_eq_zero_iff.mp (Nat.le_zero.mp enough)
      rfl
  | succ turns ih =>
      by_cases empty : text = []
      · subst empty
        rfl
      · have shorter := (readCount_takeLine positive empty).2
        have parts := takeLine_parts room text
        have noNulParts := noNul
        rw [← parts, List.mem_append, not_or] at noNulParts
        rw [fgetsLoop_succ empty, Nat.add_sub_cancel, List.flatten_cons,
          cString_of_noNul noNulParts.1, ih noNulParts.2 (by omega), parts]

/-- There are as many reads as lines only if every line fits into one. -/
theorem readCount_eq_iff {room : ℕ} (positive : 0 < room) (text : Bytes) :
    readCount room text = (keptLines text).length ↔ ∀ line ∈ keptLines text, line.length ≤ room := by
  have nonempty := keptLines_nonempty text
  rw [readCount]
  revert nonempty
  generalize keptLines text = lines
  intro nonempty
  -- Every line takes a read at least, and a longer one takes two.
  have each : ∀ line ∈ lines, 1 ≤ (line.length + (room - 1)) / room := by
    intro line mem
    have := nonempty line mem
    exact (Nat.le_div_iff_mul_le positive).mpr (by omega)
  have single : ∀ line ∈ lines, (line.length + (room - 1)) / room = 1 ↔ line.length ≤ room := by
    intro line mem
    have := nonempty line mem
    rw [Nat.div_eq_iff positive]
    omega
  clear nonempty
  induction lines with
  | nil => simp
  | cons line lines ih =>
      rw [List.forall_mem_cons] at each single
      have rest := ih each.2 single.2
      have least : lines.length ≤ (lines.map fun line => (line.length + (room - 1)) / room).sum := by
        simpa using List.length_le_sum_of_one_le
          (lines.map fun line => (line.length + (room - 1)) / room) (by simpa using each.2)
      have first := each.1
      rw [List.map_cons, List.sum_cons, List.length_cons, List.forall_mem_cons]
      constructor
      · intro same
        exact ⟨single.1.mp (by omega), rest.mp (by omega)⟩
      · rintro ⟨short, shorts⟩
        have firstSingle := single.1.mpr short
        have restSingle := rest.mpr shorts
        omega

theorem fgetsLoop_eq_keptLines_iff {room : ℕ} (positive : 0 < room) {text : Bytes} (noNul : 0 ∉ text) :
    fgetsLoop (room + 1) text.length text = keptLines text ↔
      ∀ line ∈ keptLines text, line.length ≤ room := by
  constructor
  · intro same
    rw [← readCount_eq_iff positive, ← same, length_fgetsLoop positive (Nat.le_refl _)]
  · intro short
    exact fgetsLoop_of_short noNul short (Nat.le_refl _)

/-! ## What is appended -/

/-- `store_result` appends the number in each line. -/
def StoresLines (output : Bytes) : Prop :=
  storeResult output = (keptLines output).map atof

/-- `string_exec_command` appends the lines, which put together are the output. -/
def AppendsLines (output : Bytes) : Prop :=
  stringExecCommand output = keptLines output ∧ (stringExecCommand output).flatten = output

theorem storesLines_iff {output : Bytes} (text : 0 ∉ output) :
    StoresLines output ↔ ∀ line ∈ keptLines output, line.length ≤ 98 := by
  constructor
  · intro stores
    have lengths := congrArg List.length stores
    rw [List.length_map] at lengths
    rw [← readCount_eq_iff (by decide), ← lengths]
    exact (length_execCommand output).symm
  · intro short
    rw [StoresLines, storeResult, fgetsLoop_of_short text short (Nat.le_refl _)]

theorem appendsLines_iff {output : Bytes} (text : 0 ∉ output) :
    AppendsLines output ↔ ∀ line ∈ keptLines output, line.length ≤ 998 := by
  rw [← fgetsLoop_eq_keptLines_iff (by decide) text]
  constructor
  · rintro ⟨lines, _⟩
    exact lines
  · intro lines
    exact ⟨lines, flatten_fgetsLoop (by decide) text (Nat.le_refl _)⟩

/-- Both functions append one entry for every line exactly if no line, with its newline, is
longer than what one `fgets` reads. -/
theorem one_entry_per_line_iff {output : Bytes} (text : 0 ∉ output) :
    (StoresLines output ↔ ∀ line ∈ keptLines output, line.length ≤ 98) ∧
      (AppendsLines output ↔ ∀ line ∈ keptLines output, line.length ≤ 998) :=
  ⟨storesLines_iff text, appendsLines_iff text⟩

theorem one_entry_per_line_iff_cores :
    (StoresLines (ascii "4\n4\n") ↔ ∀ line ∈ keptLines (ascii "4\n4\n"), line.length ≤ 98) ∧
      (AppendsLines (ascii "4\n4\n") ↔ ∀ line ∈ keptLines (ascii "4\n4\n"), line.length ≤ 998) :=
  one_entry_per_line_iff (by decide)

/-! ### A long line -/

/-- One line, of so many bytes `1` and its newline. -/
def lineOfOnes (n : ℕ) : Bytes :=
  List.replicate n 49 ++ [10]

theorem keptLines_lineOfOnes (n : ℕ) : keptLines (lineOfOnes n) = [lineOfOnes n] := by
  have whole : (10 : UInt8) ∉ List.replicate n 49 := by
    rw [List.mem_replicate]
    rintro ⟨_, impossible⟩
    cases impossible
  rw [lineOfOnes, keptLines_append whole]
  rfl

theorem lineOfOnes_noNul (n : ℕ) : 0 ∉ lineOfOnes n := by
  rw [lineOfOnes, List.mem_append, List.mem_replicate]
  simp

theorem length_lineOfOnes (n : ℕ) : (lineOfOnes n).length = n + 1 := by
  simp [lineOfOnes]

/-- A line of 99 bytes is two numbers, and one of 999 bytes is two strings. -/
theorem long_line_cut :
    (storeResult (lineOfOnes 98)).length = 2 ∧ ¬StoresLines (lineOfOnes 98) ∧
      (stringExecCommand (lineOfOnes 998)).length = 2 ∧ ¬AppendsLines (lineOfOnes 998) := by
  refine ⟨?_, ?_, ?_, ?_⟩
  · exact (length_execCommand _).trans (by simp [readCount, keptLines_lineOfOnes, length_lineOfOnes])
  · rw [storesLines_iff (lineOfOnes_noNul 98), keptLines_lineOfOnes, List.forall_mem_singleton,
      length_lineOfOnes]
    omega
  · rw [length_stringExecCommand, readCount, keptLines_lineOfOnes, List.map_singleton,
      length_lineOfOnes]
    rfl
  · rw [appendsLines_iff (lineOfOnes_noNul 998), keptLines_lineOfOnes, List.forall_mem_singleton,
      length_lineOfOnes]
    omega

end HumanMachine.Client
