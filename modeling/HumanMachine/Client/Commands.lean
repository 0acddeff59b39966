import HumanMachine.Client.HttpRequest
import HumanMachine.Data.Double
import Mathlib.Data.List.Infix

/-!
# Reading what a command prints

`exec_command` reads the output of a pipeline with `fgets` and turns every piece
into a number with `atof`. The pipelines end in `grep` and `awk`, which work on
lines. A text here is what stands in the pipe; a line is written without its newline.
-/

namespace HumanMachine.Client

/-! ## Lines and fields -/

/-- Lines, each with its newline. -/
def unlines (lines : List Bytes) : Bytes :=
  lines.flatMap (· ++ [10])

/-- The lines of a text; the last one may lack its newline. -/
def textLines : Bytes → List Bytes
  | [] => []
  | byte :: rest =>
      if byte = 10 then [] :: textLines rest
      else match textLines rest with
        | [] => [[byte]]
        | line :: lines => (byte :: line) :: lines

def isBlank (byte : UInt8) : Bool :=
  byte = 32 || byte = 9

/-- The fields into which `awk` splits a line. -/
def fields (line : Bytes) : List Bytes :=
  (line.splitOnP isBlank).filter (!·.isEmpty)

/-- `grep pattern`, for a pattern without special characters. -/
def grep (pattern text : Bytes) : Bytes :=
  unlines ((textLines text).filter fun line => pattern <:+: line)

/-- `awk '{print $n}'`; a field which is missing is empty. -/
def awkPrint (n : ℕ) (text : Bytes) : Bytes :=
  unlines ((textLines text).map fun line => ((fields line)[n - 1]?).getD [])

@[simp]
theorem unlines_cons (line : Bytes) (lines : List Bytes) :
    unlines (line :: lines) = line ++ 10 :: unlines lines := by
  simp [unlines]

theorem length_le_unlines (lines : List Bytes) : lines.length ≤ (unlines lines).length := by
  induction lines with
  | nil => simp
  | cons line lines ih =>
      simp
      omega

theorem textLines_append {line : Bytes} (whole : 10 ∉ line) (text : Bytes) :
    textLines (line ++ 10 :: text) = line :: textLines text := by
  induction line with
  | nil => simp [textLines]
  | cons byte line ih =>
      simp only [List.mem_cons, not_or] at whole
      simp [textLines, ih whole.2, Ne.symm whole.1]

theorem textLines_unlines {lines : List Bytes} (whole : ∀ line ∈ lines, 10 ∉ line) :
    textLines (unlines lines) = lines := by
  induction lines with
  | nil => rfl
  | cons line lines ih =>
      simp only [List.forall_mem_cons] at whole
      rw [unlines_cons, textLines_append whole.1, ih whole.2]

theorem awkPrint_grep {lines : List Bytes} (whole : ∀ line ∈ lines, 10 ∉ line) (n : ℕ)
    (pattern : Bytes) :
    awkPrint n (grep pattern (unlines lines)) =
      unlines ((lines.filter fun line => pattern <:+: line).map fun line =>
        ((fields line)[n - 1]?).getD []) := by
  have wholeToo : ∀ line ∈ lines.filter fun line => pattern <:+: line, 10 ∉ line :=
    fun line mem => whole line (List.mem_of_mem_filter mem)
  rw [awkPrint, grep, textLines_unlines whole, textLines_unlines wholeToo]

/-! ## Reading -/

/-- What a read of at most `room` bytes takes, which ends behind a newline, and what it leaves. -/
def takeLine (room : ℕ) : Bytes → Bytes × Bytes
  | [] => ([], [])
  | byte :: rest =>
      match room with
      | 0 => ([], byte :: rest)
      | room + 1 =>
          if byte = 10 then ([10], rest)
          else (byte :: (takeLine room rest).1, (takeLine room rest).2)

/-- `fgets(buf, size, fp)`, with the rest of the stream. -/
def fgets (size : ℕ) (stream : Bytes) : Option (Bytes × Bytes) :=
  if stream = [] then none else some (takeLine (size - 1) stream)

/-- The strings of the loop `while(fgets(buf, size, fp) != 0)`. Every turn takes a byte,
so that the length of the stream bounds their number. -/
def fgetsLoop (size : ℕ) : ℕ → Bytes → List Bytes
  | 0, _ => []
  | turns + 1, stream =>
      match fgets size stream with
      | none => []
      | some (buf, rest) => cString buf :: fgetsLoop size turns rest

theorem takeLine_append {line : Bytes} (whole : 10 ∉ line) {room : ℕ} (short : line.length < room)
    (rest : Bytes) : takeLine room (line ++ 10 :: rest) = (line ++ [10], rest) := by
  induction line generalizing room with
  | nil =>
      cases room with
      | zero => simp at short
      | succ room => simp [takeLine]
  | cons byte line ih =>
      simp only [List.mem_cons, not_or] at whole
      cases room with
      | zero => simp at short
      | succ room =>
          have shorter : line.length < room := by simpa using short
          simp [takeLine, Ne.symm whole.1, ih whole.2 shorter]

theorem fgetsLoop_unlines {size : ℕ} {lines : List Bytes} (whole : ∀ line ∈ lines, 10 ∉ line)
    (textual : ∀ line ∈ lines, 0 ∉ line) (short : ∀ line ∈ lines, line.length + 1 < size)
    {turns : ℕ} (enough : lines.length ≤ turns) :
    fgetsLoop size turns (unlines lines) = lines.map (· ++ [10]) := by
  induction lines generalizing turns with
  | nil => cases turns <;> rfl
  | cons line lines ih =>
      simp only [List.forall_mem_cons] at whole textual short
      cases turns with
      | zero => simp at enough
      | succ turns =>
          have enough : lines.length ≤ turns := by simpa using enough
          have taken : fgets size (unlines (line :: lines)) = some (line ++ [10], unlines lines) := by
            rw [unlines_cons, fgets, if_neg (by simp), takeLine_append whole.1 (by omega)]
          have kept : cString (line ++ [10]) = line ++ [10] :=
            cString_of_noNul (by simp [textual.1])
          simp only [fgetsLoop, taken, kept, List.map_cons]
          rw [ih whole.2 textual.2 short.2 enough]

/-! ### How often a text is read -/

/-- The lines of a text, each with its newline; the last one may lack it. -/
def keptLines : Bytes → List Bytes
  | [] => []
  | byte :: rest =>
      if byte = 10 then [10] :: keptLines rest
      else match keptLines rest with
        | [] => [[byte]]
        | line :: lines => (byte :: line) :: lines

/-- The number of reads of at most `room` bytes which a line takes, summed up over the lines. -/
def readCount (room : ℕ) (text : Bytes) : ℕ :=
  ((keptLines text).map fun line => (line.length + (room - 1)) / room).sum

theorem keptLines_append {front : Bytes} (whole : 10 ∉ front) (rest : Bytes) :
    keptLines (front ++ 10 :: rest) = (front ++ [10]) :: keptLines rest := by
  induction front with
  | nil => simp [keptLines]
  | cons byte front ih =>
      simp only [List.mem_cons, not_or] at whole
      simp [keptLines, ih whole.2, Ne.symm whole.1]

theorem keptLines_last {byte : UInt8} {front : Bytes} (whole : 10 ∉ byte :: front) :
    keptLines (byte :: front) = [byte :: front] := by
  induction front generalizing byte with
  | nil =>
      simp only [List.mem_singleton] at whole
      simp [keptLines, Ne.symm whole]
  | cons next front ih =>
      simp only [List.mem_cons, not_or] at whole
      have rest : keptLines (next :: front) = [next :: front] := ih (by simp [whole.2])
      rw [keptLines, if_neg (Ne.symm whole.1), rest]

theorem readCount_append {front : Bytes} (whole : 10 ∉ front) (room : ℕ) (rest : Bytes) :
    readCount room (front ++ 10 :: rest) =
      (front.length + 1 + (room - 1)) / room + readCount room rest := by
  simp [readCount, keptLines_append whole]

theorem readCount_last {front : Bytes} (whole : 10 ∉ front) {room : ℕ} (positive : 0 < room) :
    readCount room front = (front.length + (room - 1)) / room := by
  cases front with
  | nil => exact (Nat.div_eq_of_lt (by simp; omega)).symm
  | cons byte front => simp [readCount, keptLines_last whole]

theorem takeLine_full {front : Bytes} (whole : 10 ∉ front) (rest : Bytes) :
    takeLine front.length (front ++ rest) = (front, rest) := by
  induction front with
  | nil => cases rest <;> rfl
  | cons byte front ih =>
      simp only [List.mem_cons, not_or] at whole
      simp [takeLine, Ne.symm whole.1, ih whole.2]

theorem takeLine_last {front : Bytes} (whole : 10 ∉ front) {room : ℕ} (short : front.length ≤ room) :
    takeLine room front = (front, []) := by
  induction front generalizing room with
  | nil => cases room <;> rfl
  | cons byte front ih =>
      simp only [List.mem_cons, not_or] at whole
      cases room with
      | zero => simp at short
      | succ room => simp [takeLine, Ne.symm whole.1, ih whole.2 (by simpa using short)]

theorem reads_of_short {length room : ℕ} (positive : 0 < length) (short : length ≤ room) :
    (length + (room - 1)) / room = 1 :=
  Nat.div_eq_of_lt_le (by omega) (by omega)

theorem reads_of_long {length room : ℕ} (positive : 0 < room) :
    (room + length + (room - 1)) / room = (length + (room - 1)) / room + 1 := by
  rw [Nat.add_assoc, Nat.add_div_left _ positive]

theorem exists_split {room : ℕ} {front : Bytes} (long : room ≤ front.length) :
    ∃ before after, front = before ++ after ∧ before.length = room :=
  ⟨front.take room, front.drop room, (List.take_append_drop room front).symm,
    List.length_take_of_le long⟩

/-- One read takes one from the number of reads, and at least one byte. -/
theorem readCount_takeLine {room : ℕ} (positive : 0 < room) {text : Bytes} (nonempty : text ≠ []) :
    readCount room text = readCount room (takeLine room text).2 + 1 ∧
      (takeLine room text).2.length < text.length := by
  by_cases newline : 10 ∈ text
  · rcases List.eq_append_cons_of_mem newline with ⟨front, rest, rfl, whole⟩
    by_cases short : front.length < room
    · rw [takeLine_append whole short, readCount_append whole, reads_of_short (by omega) (by omega)]
      simp
      omega
    · rcases exists_split (Nat.not_lt.mp short) with ⟨before, after, rfl, rfl⟩
      simp only [List.mem_append, not_or] at whole
      rw [List.append_assoc, takeLine_full whole.1, readCount_append whole.2, ← List.append_assoc,
        readCount_append (by simp [whole]), List.length_append, Nat.add_assoc before.length,
        reads_of_long positive]
      simp
      omega
  · have positiveText : 0 < text.length := List.length_pos_iff.mpr nonempty
    by_cases short : text.length ≤ room
    · rw [takeLine_last newline short, readCount_last newline positive,
        reads_of_short positiveText short]
      exact ⟨rfl, positiveText⟩
    · rcases exists_split (Nat.le_of_not_le short) with ⟨before, after, rfl, rfl⟩
      have whole := newline
      simp only [List.mem_append, not_or] at whole
      rw [takeLine_full whole.1, readCount_last whole.2 positive, readCount_last newline positive,
        List.length_append, reads_of_long positive]
      simp
      omega

theorem length_fgetsLoop {room : ℕ} (positive : 0 < room) {text : Bytes} {turns : ℕ}
    (enough : text.length ≤ turns) :
    (fgetsLoop (room + 1) turns text).length = readCount room text := by
  induction turns generalizing text with
  | zero =>
      obtain rfl : text = [] := List.length_eq_zero_iff.mp (Nat.le_zero.mp enough)
      rfl
  | succ turns ih =>
      by_cases empty : text = []
      · subst empty
        rfl
      · rcases readCount_takeLine positive empty with ⟨count, shorter⟩
        rw [fgetsLoop, fgets, if_neg empty, Nat.add_sub_cancel, List.length_cons,
          ih (by omega), count]

/-! ## Numbers -/

def digitValue (byte : UInt8) : ℕ :=
  if isDigit byte then byte.toNat - 48
  else if 97 ≤ byte && byte ≤ 102 then byte.toNat - 87
  else if 65 ≤ byte && byte ≤ 70 then byte.toNat - 55
  else 16

def isDigitOf (base : ℕ) (byte : UInt8) : Bool :=
  digitValue byte < base

def valueOf (base : ℕ) (digits : Bytes) : ℕ :=
  digits.foldl (fun value digit => base * value + digitValue digit) 0

def toLower (byte : UInt8) : UInt8 :=
  if 65 ≤ byte && byte ≤ 90 then byte + 32 else byte

/-- Whether a number is negative, and the text behind its sign. -/
def takeSign : Bytes → Bool × Bytes
  | 43 :: text => (false, text)
  | 45 :: text => (true, text)
  | text => (false, text)

/-- The exponent behind its marker, 0 where there is none. -/
def exponentOf (marker : UInt8) : Bytes → ℤ
  | [] => 0
  | first :: text =>
      if toLower first = marker then
        let (negative, text) := takeSign text
        let value : ℤ := valueOf 10 (text.takeWhile isDigit)
        if negative then -value else value
      else 0

/-- The number at the beginning of a text: digits, a point and more digits, an exponent of `radix`.
Without digits it is 0. -/
def magnitude (base : ℕ) (marker : UInt8) (radix : ℚ) (text : Bytes) : ℚ :=
  let whole := text.takeWhile (isDigitOf base)
  let text := text.dropWhile (isDigitOf base)
  let (fraction, text) := match text with
    | 46 :: text => (text.takeWhile (isDigitOf base), text.dropWhile (isDigitOf base))
    | text => ([], text)
  valueOf base (whole ++ fraction) / base ^ fraction.length * radix ^ exponentOf marker text

def atof (text : Bytes) : Double :=
  let (negative, text) := takeSign (text.dropWhile isSpace)
  let letters := text.map toLower
  if (ascii "inf").isPrefixOf letters then .inf negative
  else if (ascii "nan").isPrefixOf letters then .nan
  else
    let number :=
      if (ascii "0x").isPrefixOf letters then magnitude 16 112 2 (text.drop 2)
      else magnitude 10 101 10 text
    .fin (if negative then -number else number)

theorem valueOf_digits {digits : Bytes} (numeric : ∀ byte ∈ digits, isDigit byte) :
    valueOf 10 digits = decimalValue digits := by
  apply List.foldl_ext
  intro value digit mem
  simp [digitValue, numeric digit mem]

theorem isDigit_iff {byte : UInt8} : isDigit byte ↔ 48 ≤ byte.toNat ∧ byte.toNat ≤ 57 := by
  simp [isDigit, UInt8.le_iff_toNat_le]

theorem isDigitOf_ten {byte : UInt8} : isDigitOf 10 byte = isDigit byte := by
  simp only [isDigitOf, digitValue]
  split
  · next digit =>
      have := isDigit_iff.mp digit
      rw [digit, decide_eq_true_eq]
      omega
  · next noDigit =>
      rw [Bool.eq_false_iff.mpr noDigit, decide_eq_false_iff_not]
      split
      · next lower =>
          simp only [Bool.and_eq_true, decide_eq_true_eq, UInt8.le_iff_toNat_le,
            UInt8.reduceToNat] at lower
          omega
      · split
        · next upper =>
            simp only [Bool.and_eq_true, decide_eq_true_eq, UInt8.le_iff_toNat_le,
              UInt8.reduceToNat] at upper
            omega
        · decide

theorem toLower_of_digit {byte : UInt8} (digit : isDigit byte) : toLower byte = byte := by
  have := isDigit_iff.mp digit
  have noLetter : ¬(65 ≤ byte && byte ≤ 90) := by
    simp only [Bool.and_eq_true, decide_eq_true_eq, UInt8.le_iff_toNat_le, UInt8.reduceToNat]
    omega
  rw [toLower, if_neg noLetter]

/-- A byte which ends a decimal number, and which does not turn it into another one. -/
structure EndsNumber (stop : UInt8) : Prop where
  noDigit : isDigit stop = false
  noPoint : stop ≠ 46
  noExponent : toLower stop ≠ 101
  noBase : toLower stop ≠ 120

/-- The point and the digits behind it, if there are any. -/
def pointed (fraction : Bytes) : Bytes :=
  if fraction = [] then [] else 46 :: fraction

theorem magnitude_number {whole fraction tail : Bytes} {stop : UInt8}
    (wholeDigits : ∀ byte ∈ whole, isDigit byte) (fractionDigits : ∀ byte ∈ fraction, isDigit byte)
    (ends : EndsNumber stop) :
    magnitude 10 101 10 (whole ++ (pointed fraction ++ stop :: tail)) =
      decimalValue (whole ++ fraction) / 10 ^ fraction.length := by
  have value : valueOf 10 (whole ++ fraction) = decimalValue (whole ++ fraction) := by
    apply valueOf_digits
    intro byte mem
    exact (List.mem_append.mp mem).elim (wholeDigits byte) (fractionDigits byte)
  have isTen : isDigitOf 10 = isDigit := funext fun byte => isDigitOf_ten
  have noExponent : exponentOf 101 (stop :: tail) = 0 := by
    rw [exponentOf, if_neg ends.noExponent]
  rw [magnitude, isTen, List.takeWhile_append_of_pos wholeDigits,
    List.dropWhile_append_of_pos wholeDigits]
  by_cases integral : fraction = []
  · subst integral
    have behind : pointed [] ++ stop :: tail = stop :: tail := rfl
    rw [behind, List.takeWhile_cons_of_neg (by simp [ends.noDigit]),
      List.dropWhile_cons_of_neg (by simp [ends.noDigit])]
    split
    next digits text parts =>
      split at parts
      · next isPoint => exact absurd (List.cons.inj isPoint).1 ends.noPoint
      · cases parts
        simp [noExponent, valueOf_digits wholeDigits]
  · have behind : pointed fraction ++ stop :: tail = 46 :: (fraction ++ stop :: tail) := by
      rw [pointed, if_neg integral, List.cons_append]
    rw [behind, List.takeWhile_cons_of_neg (by decide), List.dropWhile_cons_of_neg (by decide)]
    simp only [List.takeWhile_append_of_pos fractionDigits,
      List.dropWhile_append_of_pos fractionDigits]
    rw [List.takeWhile_cons_of_neg (by simp [ends.noDigit]),
      List.dropWhile_cons_of_neg (by simp [ends.noDigit])]
    simp [noExponent, ← value]

theorem atof_eq_magnitude {first second : UInt8} {text : Bytes} (digit : isDigit first)
    (noBase : toLower second ≠ 120) :
    atof (first :: second :: text) = .fin (magnitude 10 101 10 (first :: second :: text)) := by
  have range := isDigit_iff.mp digit
  have noSpace : isSpace first = false := by
    simp only [isSpace, Bool.or_eq_false_iff, Bool.and_eq_false_iff, decide_eq_false_iff_not,
      UInt8.le_iff_toNat_le, ← UInt8.toNat_inj, UInt8.reduceToNat]
    omega
  have noSign : takeSign (first :: second :: text) = (false, first :: second :: text) := by
    rw [takeSign.eq_3]
    · rintro text ⟨⟩
      simp at range
    · rintro text ⟨⟩
      simp at range
  have other (letter : UInt8) (large : 57 < letter.toNat) : letter ≠ first := by
    rintro rfl
    omega
  rw [atof, List.dropWhile_cons_of_neg (by simp [noSpace]), noSign]
  simp [ascii, toLower_of_digit digit, other 105 (by decide), other 110 (by decide),
    Ne.symm noBase]

/-- A number in digits, with or without a fraction, is read up to the byte which ends it. -/
theorem atof_number {whole fraction tail : Bytes} {stop : UInt8} (nonempty : whole ≠ [])
    (wholeDigits : ∀ byte ∈ whole, isDigit byte) (fractionDigits : ∀ byte ∈ fraction, isDigit byte)
    (ends : EndsNumber stop) :
    atof (whole ++ (pointed fraction ++ stop :: tail)) =
      .fin (decimalValue (whole ++ fraction) / 10 ^ fraction.length) := by
  rw [← magnitude_number wholeDigits fractionDigits ends]
  rcases List.exists_cons_of_ne_nil nonempty with ⟨first, rest, rfl⟩
  rw [List.forall_mem_cons] at wholeDigits
  cases rest with
  | cons second rest =>
      have digit := wholeDigits.2 second List.mem_cons_self
      apply atof_eq_magnitude wholeDigits.1
      rw [toLower_of_digit digit]
      rintro rfl
      exact absurd digit (by decide)
  | nil =>
      by_cases integral : fraction = []
      · subst integral
        exact atof_eq_magnitude wholeDigits.1 ends.noBase
      · rw [pointed, if_neg integral]
        exact atof_eq_magnitude wholeDigits.1 (by decide)

theorem atof_decimal (n : ℕ) : atof (decimal n ++ [10]) = .fin n := by
  have read : atof (decimal n ++ (pointed [] ++ [10])) = _ :=
    atof_number (decimal_ne_nil n) (fun _ mem => isDigit_of_mem_decimal mem) (List.forall_mem_nil _)
      ⟨by decide, by decide, by decide, by decide⟩
  simpa [pointed, decimalValue_decimal] using read

/-- What `store_result` appends; the array `buf` has 100 bytes. -/
def storeResult (stream : Bytes) : List Double :=
  (fgetsLoop 99 stream.length stream).map atof

theorem storeResult_unlines {lines : List Bytes} (whole : ∀ line ∈ lines, 10 ∉ line)
    (textual : ∀ line ∈ lines, 0 ∉ line) (short : ∀ line ∈ lines, line.length < 98) :
    storeResult (unlines lines) = lines.map fun line => atof (line ++ [10]) := by
  have few : ∀ line ∈ lines, line.length + 1 < 99 := fun line mem => by
    have := short line mem
    omega
  rw [storeResult, fgetsLoop_unlines whole textual few (length_le_unlines lines)]
  simp

/-- What `exec_command` appends for a command with the given output. -/
def execCommand (output : Bytes) : List Double :=
  storeResult output

end HumanMachine.Client
