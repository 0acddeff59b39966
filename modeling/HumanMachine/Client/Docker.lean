import HumanMachine.Client.Commands
import Mathlib.Algebra.Order.Field.Basic
import Mathlib.Tactic.NormNum

/-!
# The container statistics

`docker stats` prints a line for every container. The unit of an amount of memory is
taken from the third character from its end, which is its unit only if that has three
letters.
-/

namespace HumanMachine.Client

/-! ## Tokens -/

/-- The next token of `strtok`, and the text behind its delimiter. -/
def strtok (delim text : Bytes) : Option (Bytes × Bytes) :=
  match text.dropWhile (· ∈ delim) with
  | [] => none
  | byte :: start =>
      some ((byte :: start).takeWhile (· ∉ delim), ((byte :: start).dropWhile (· ∉ delim)).drop 1)

/-- The loop of `split`. Every turn takes a byte, so that the length of the text bounds their
number. -/
def splitLoop (delim : Bytes) : ℕ → Bytes → List Bytes
  | 0, _ => []
  | turns + 1, text =>
      match strtok delim text with
      | none => []
      | some (p, rest) => p :: splitLoop delim turns rest

def tokens (delim text : Bytes) : List Bytes :=
  splitLoop delim text.length text

def split (str delim : Bytes) : List Bytes :=
  if str = [] then [] else tokens (cString delim) (cString str)

theorem length_lt_of_strtok {delim text token rest : Bytes}
    (found : strtok delim text = some (token, rest)) : rest.length < text.length := by
  rw [strtok] at found
  split at found
  · cases found
  · next byte start behind =>
      simp only [Option.some.injEq, Prod.mk.injEq] at found
      rcases found with ⟨_, rfl⟩
      have stops := List.head?_dropWhile_not (fun byte : UInt8 => decide (byte ∈ delim)) text
      rw [behind] at stops
      have taken : byte ∉ delim := by simpa using stops
      have suffix : (byte :: start).length ≤ text.length :=
        behind ▸ (List.dropWhile_suffix _).length_le
      rw [List.dropWhile_cons_of_pos (by simpa using taken), List.length_drop]
      have := (List.dropWhile_suffix (fun byte : UInt8 => decide (byte ∉ delim)) (l := start)).length_le
      rw [List.length_cons] at suffix
      omega

/-- Any number of turns does which is not below the length of the text. -/
theorem splitLoop_congr {delim text : Bytes} {turns others : ℕ} (enough : text.length ≤ turns)
    (alsoEnough : text.length ≤ others) :
    splitLoop delim turns text = splitLoop delim others text := by
  induction turns generalizing text others with
  | zero =>
      obtain rfl : text = [] := List.length_eq_zero_iff.mp (Nat.le_zero.mp enough)
      cases others <;> rfl
  | succ turns ih =>
      cases others with
      | zero =>
          obtain rfl : text = [] := List.length_eq_zero_iff.mp (Nat.le_zero.mp alsoEnough)
          rfl
      | succ others =>
          rw [splitLoop, splitLoop]
          cases found : strtok delim text with
          | none => rfl
          | some parts =>
              have shorter := length_lt_of_strtok found
              exact congrArg (parts.1 :: ·) (ih (by omega) (by omega))

theorem tokens_of_strtok {delim text token rest : Bytes}
    (found : strtok delim text = some (token, rest)) :
    tokens delim text = token :: tokens delim rest := by
  have shorter := length_lt_of_strtok found
  rw [tokens, splitLoop_congr (Nat.le_refl _) (Nat.le_succ _), splitLoop, found]
  exact congrArg (token :: ·) (splitLoop_congr shorter.le (Nat.le_refl _))

/-- A token which stands between blanks. -/
theorem strtok_token {token : Bytes} (nonempty : token ≠ []) (noBlank : 32 ∉ token) (gap : ℕ)
    (rest : Bytes) :
    strtok [32] (List.replicate gap 32 ++ (token ++ rest)) =
      some (token ++ rest.takeWhile (· ∉ [32]), (rest.dropWhile (· ∉ [32])).drop 1) := by
  have blanks : ∀ byte ∈ List.replicate gap (32 : UInt8), decide (byte ∈ [32]) = true := by
    intro byte mem
    rw [List.eq_of_mem_replicate mem]
    rfl
  have letters : ∀ byte ∈ token, decide (byte ∉ [32]) = true := by
    intro byte mem
    rw [decide_eq_true_eq, List.mem_singleton]
    rintro rfl
    exact noBlank mem
  have taken : (token ++ rest).takeWhile (· ∉ [32]) = token ++ rest.takeWhile (· ∉ [32]) :=
    List.takeWhile_append_of_pos letters
  have dropped : (token ++ rest).dropWhile (· ∉ [32]) = rest.dropWhile (· ∉ [32]) :=
    List.dropWhile_append_of_pos letters
  rcases List.exists_cons_of_ne_nil nonempty with ⟨first, others, rfl⟩
  have start : (first :: (others ++ rest)).dropWhile (· ∈ [32]) = first :: (others ++ rest) := by
    apply List.dropWhile_cons_of_neg
    simpa using letters first List.mem_cons_self
  rw [List.cons_append] at taken dropped
  rw [strtok, List.dropWhile_append_of_pos blanks, List.cons_append, start]
  simp only [taken, dropped]

/-- A token in front of at least one blank. -/
theorem tokens_token {token : Bytes} (nonempty : token ≠ []) (noBlank : 32 ∉ token) (gap more : ℕ)
    (rest : Bytes) :
    tokens [32] (List.replicate gap 32 ++ (token ++ (List.replicate (more + 1) 32 ++ rest))) =
      token :: tokens [32] (List.replicate more 32 ++ rest) := by
  apply tokens_of_strtok
  rw [strtok_token nonempty noBlank, List.replicate_succ, List.cons_append,
    List.takeWhile_cons_of_neg (by simp), List.dropWhile_cons_of_neg (by simp)]
  simp

/-! ## The loop over the containers -/

/-- `s[s.length() - 3]`; for a shorter string the difference wraps around. -/
def thirdFromEnd (s : Bytes) : Option UInt8 :=
  if s.length < 3 then none else s[s.length - 3]?

/-- An amount of memory, which is multiplied according to its unit. -/
def memoryInfo (s : Bytes) : Option Double := do
  let letter ← thirdFromEnd s
  if letter = 77 then return atof s * .fin 1024
  else if letter = 71 then return atof s * .fin (1024 * 1024)
  else return atof s

/-- What the loop appends to the vectors. -/
structure DockerEntry where
  id : Bytes
  cpu : Double
  memoryUsage : Double
  memoryLimit : Double
  memory : Double

def dockerEntry (line : Bytes) : Option DockerEntry := do
  let s := split line (ascii " ")
  let id ← s[0]?
  let cpu ← s[2]?
  let memoryUsage ← memoryInfo (← s[3]?)
  let memoryLimit ← memoryInfo (← s[5]?)
  let memory ← s[6]?
  return ⟨id, atof cpu, memoryUsage, memoryLimit, atof memory⟩

structure DockerVectors where
  dockerIDInfo : List Bytes
  dockerCpuInfo : List Double
  dockerMemoryUsageInfo : List Double
  dockerMemoryLimitInfo : List Double
  dockerMemoryInfo : List Double

def DockerVectors.push (vectors : DockerVectors) (entry : DockerEntry) : DockerVectors where
  dockerIDInfo := vectors.dockerIDInfo ++ [entry.id]
  dockerCpuInfo := vectors.dockerCpuInfo ++ [entry.cpu]
  dockerMemoryUsageInfo := vectors.dockerMemoryUsageInfo ++ [entry.memoryUsage]
  dockerMemoryLimitInfo := vectors.dockerMemoryLimitInfo ++ [entry.memoryLimit]
  dockerMemoryInfo := vectors.dockerMemoryInfo ++ [entry.memory]

/-- A turn of the loop, with one line. -/
def dockerTurn (vectors : DockerVectors) (line : Bytes) : Option DockerVectors := do
  return vectors.push (← dockerEntry line)

/-- The vectors after the loop; none if an index is out of range. -/
def dockerLoop (dockerInfo : List Bytes) : Option DockerVectors :=
  dockerInfo.foldlM dockerTurn ⟨[], [], [], [], []⟩

/-- The vectors with these entries. -/
def vectorsOf (entries : List DockerEntry) : DockerVectors where
  dockerIDInfo := entries.map DockerEntry.id
  dockerCpuInfo := entries.map DockerEntry.cpu
  dockerMemoryUsageInfo := entries.map DockerEntry.memoryUsage
  dockerMemoryLimitInfo := entries.map DockerEntry.memoryLimit
  dockerMemoryInfo := entries.map DockerEntry.memory

theorem push_vectorsOf (entries : List DockerEntry) (entry : DockerEntry) :
    (vectorsOf entries).push entry = vectorsOf (entries ++ [entry]) := by
  simp [vectorsOf, DockerVectors.push]

theorem vectorsOf_injective {entries others : List DockerEntry}
    (same : vectorsOf entries = vectorsOf others) : entries = others := by
  simp only [vectorsOf, DockerVectors.mk.injEq] at same
  induction entries generalizing others with
  | nil => simpa using same
  | cons entry entries ih =>
      cases others with
      | nil => simp at same
      | cons other others =>
          rcases entry with ⟨id, cpu, memoryUsage, memoryLimit, memory⟩
          simp only [List.map_cons, List.cons.injEq] at same
          rcases same with ⟨⟨rfl, ids⟩, ⟨rfl, cpus⟩, ⟨rfl, usages⟩, ⟨rfl, limits⟩, rfl, memories⟩
          rw [ih ⟨ids, cpus, usages, limits, memories⟩]

theorem foldlM_dockerTurn (dockerInfo : List Bytes) (before : List DockerEntry) :
    dockerInfo.foldlM dockerTurn (vectorsOf before) =
      (dockerInfo.mapM dockerEntry).map fun entries => vectorsOf (before ++ entries) := by
  induction dockerInfo generalizing before with
  | nil => simp
  | cons line dockerInfo ih =>
      rw [List.foldlM_cons, List.mapM_cons, dockerTurn]
      cases dockerEntry line with
      | none => rfl
      | some entry =>
          simp only [bind, pure, Option.bind_some, push_vectorsOf, ih]
          cases dockerInfo.mapM dockerEntry <;> simp

/-- The loop is the conversion of all lines. -/
theorem dockerLoop_eq (dockerInfo : List Bytes) :
    dockerLoop dockerInfo = (dockerInfo.mapM dockerEntry).map vectorsOf :=
  foldlM_dockerTurn dockerInfo []

/-! ## The output of `docker stats` -/

/-- A number as `docker` prints it. -/
structure DecimalNumber where
  whole : Bytes
  fraction : Bytes
  nonempty : whole ≠ []
  wholeDigits : ∀ byte ∈ whole, isDigit byte
  fractionDigits : ∀ byte ∈ fraction, isDigit byte

def DecimalNumber.text (number : DecimalNumber) : Bytes :=
  number.whole ++ pointed number.fraction

def DecimalNumber.value (number : DecimalNumber) : ℚ :=
  decimalValue (number.whole ++ number.fraction) / 10 ^ number.fraction.length

inductive MemoryUnit where
  | B
  | KiB
  | MiB
  | GiB
  | TiB
  deriving DecidableEq

def MemoryUnit.text : MemoryUnit → Bytes
  | .B => ascii "B"
  | .KiB => ascii "KiB"
  | .MiB => ascii "MiB"
  | .GiB => ascii "GiB"
  | .TiB => ascii "TiB"

/-- The number of KiB in a unit. -/
def MemoryUnit.inKiB : MemoryUnit → ℚ
  | .B => 1 / 1024
  | .KiB => 1
  | .MiB => 1024
  | .GiB => 1024 ^ 2
  | .TiB => 1024 ^ 3

/-- An amount of memory. -/
structure Amount where
  number : DecimalNumber
  unit : MemoryUnit

def Amount.text (amount : Amount) : Bytes :=
  amount.number.text ++ amount.unit.text

def Amount.inKiB (amount : Amount) : ℚ :=
  amount.number.value * amount.unit.inKiB

/-- A line about a container, with one blank more than `gaps` tells between its fields. What
follows the percentage of the memory is left open. -/
structure ContainerLine where
  id : Bytes
  name : Bytes
  cpu : DecimalNumber
  usage : Amount
  limit : Amount
  memory : DecimalNumber
  gaps : ℕ → ℕ
  rest : Bytes
  idNonempty : id ≠ []
  nameNonempty : name ≠ []
  noBlank : 32 ∉ id ++ name
  noNul : 0 ∉ id ++ name ++ rest

def percent (number : DecimalNumber) : Bytes :=
  number.text ++ [37]

def ContainerLine.gap (line : ContainerLine) (i : ℕ) : Bytes :=
  List.replicate (line.gaps i + 1) 32

def ContainerLine.text (line : ContainerLine) : Bytes :=
  line.id ++ (line.gap 0 ++ (line.name ++ (line.gap 1 ++ (percent line.cpu ++ (line.gap 2 ++
    (line.usage.text ++ (line.gap 3 ++ ([47] ++ (line.gap 4 ++ (line.limit.text ++ (line.gap 5 ++
      (percent line.memory ++ line.rest))))))))))))

def ContainerLine.entry (line : ContainerLine) : DockerEntry where
  id := line.id
  cpu := .fin line.cpu.value
  memoryUsage := .fin line.usage.inKiB
  memoryLimit := .fin line.limit.inKiB
  memory := .fin line.memory.value

/-! ### The amounts -/

theorem DecimalNumber.atof_text (number : DecimalNumber) {stop : UInt8} (ends : EndsNumber stop)
    (tail : Bytes) : atof (number.text ++ stop :: tail) = .fin number.value := by
  rw [text, List.append_assoc]
  exact atof_number number.nonempty number.wholeDigits number.fractionDigits ends

theorem DecimalNumber.mem_text {number : DecimalNumber} {byte : UInt8} (mem : byte ∈ number.text) :
    isDigit byte ∨ byte = 46 := by
  rw [text, pointed] at mem
  rcases List.mem_append.mp mem with mem | mem
  · exact Or.inl (number.wholeDigits byte mem)
  · split at mem
    · cases mem
    · rcases List.mem_cons.mp mem with is | mem
      · exact Or.inr is
      · exact Or.inl (number.fractionDigits byte mem)

theorem endsNumber_percent : EndsNumber 37 := by
  constructor <;> decide

theorem MemoryUnit.exists_cons (unit : MemoryUnit) :
    ∃ stop tail, unit.text = stop :: tail ∧ EndsNumber stop := by
  cases unit <;> exact ⟨_, _, rfl, ⟨by decide, by decide, by decide, by decide⟩⟩

theorem Amount.atof_text (amount : Amount) : atof amount.text = .fin amount.number.value := by
  rcases amount.unit.exists_cons with ⟨stop, tail, unit, ends⟩
  rw [text, unit]
  exact amount.number.atof_text ends tail

/-- The amount is converted: its unit is recognised, or it is nothing at all in any unit. -/
def Amount.Converted (amount : Amount) : Prop :=
  amount.unit ∈ [.KiB, .MiB, .GiB] ∨ amount.number.value = 0 ∧ 3 ≤ amount.text.length

theorem thirdFromEnd_append (front : Bytes) (a b c : UInt8) :
    thirdFromEnd (front ++ [a, b, c]) = some a := by
  have length : (front ++ [a, b, c]).length = front.length + 3 := by simp
  rw [thirdFromEnd, length, if_neg (by omega), Nat.add_sub_cancel,
    List.getElem?_append_right (Nat.le_refl _), Nat.sub_self]
  rfl

theorem memoryInfo_of_letter {s : Bytes} {letter : UInt8} (third : thirdFromEnd s = some letter)
    (noM : letter ≠ 77) (noG : letter ≠ 71) : memoryInfo s = some (atof s) := by
  rw [memoryInfo, third]
  simp only [bind, Option.bind_some, if_neg noM, if_neg noG]
  rfl

/-- The third character from the end belongs to the number if the unit is B. -/
theorem Amount.memoryInfo_bytes {amount : Amount} (unit : amount.unit = .B) :
    memoryInfo amount.text =
      if amount.text.length < 3 then none else some (.fin amount.number.value) := by
  split
  · next short => simp [memoryInfo, thirdFromEnd, short]
  · next long =>
      have text : amount.text = amount.number.text ++ [66] := by rw [Amount.text, unit]; rfl
      have length : amount.text.length = amount.number.text.length + 1 := by simp [text]
      have within : amount.text.length - 3 < amount.number.text.length := by omega
      have third : thirdFromEnd amount.text =
          some amount.number.text[amount.text.length - 3] := by
        rw [thirdFromEnd, if_neg long]
        conv_lhs => rw [text]
        rw [List.getElem?_append_left (by simpa [text] using within),
          ← List.getElem?_eq_getElem within, text]
      have numeric := DecimalNumber.mem_text (List.getElem_mem within)
      rw [memoryInfo_of_letter third, amount.atof_text]
      · rintro is
        rw [is] at numeric
        exact absurd numeric (by decide)
      · rintro is
        rw [is] at numeric
        exact absurd numeric (by decide)

theorem Amount.memoryInfo_text {amount : Amount} {front : Bytes} {a b c : UInt8}
    (text : amount.text = front ++ [a, b, c]) :
    memoryInfo amount.text = some (if a = 77 then .fin amount.number.value * .fin 1024
      else if a = 71 then .fin amount.number.value * .fin (1024 * 1024)
      else .fin amount.number.value) := by
  rw [memoryInfo, amount.atof_text, text, thirdFromEnd_append]
  simp only [bind, Option.bind_some]
  split
  · rfl
  · split <;> rfl

theorem eq_scaled_iff {value scale : ℚ} (other : scale ≠ 1) : value = value * scale ↔ value = 0 := by
  constructor
  · intro same
    by_contra nonzero
    exact other (mul_left_cancel₀ nonzero (by rw [← same, mul_one]))
  · rintro rfl
    rw [zero_mul]

/-- Only amounts in KiB, MiB and GiB are converted, and some amounts of 0. -/
theorem Amount.memoryInfo_eq_iff (amount : Amount) :
    memoryInfo amount.text = some (.fin amount.inKiB) ↔ amount.Converted := by
  have text {suffix : Bytes} (is : amount.unit.text = suffix) :
      amount.text = amount.number.text ++ suffix := by
    rw [Amount.text, is]
  rw [Converted, inKiB]
  cases unit : amount.unit with
  | B =>
      have scale : MemoryUnit.B.inKiB ≠ 1 := by norm_num [MemoryUnit.inKiB]
      rw [memoryInfo_bytes unit]
      split
      · next short => simp [short]
      · next long => simp [eq_scaled_iff scale, Nat.not_lt.mp long]
  | KiB =>
      have is : amount.unit.text = [75, 105, 66] := unit ▸ rfl
      rw [memoryInfo_text (text is)]
      simp [MemoryUnit.inKiB]
  | MiB =>
      have is : amount.unit.text = [77, 105, 66] := unit ▸ rfl
      rw [memoryInfo_text (text is)]
      simp [MemoryUnit.inKiB]
  | GiB =>
      have is : amount.unit.text = [71, 105, 66] := unit ▸ rfl
      have scale : (1024 : ℚ) * 1024 = 1024 ^ 2 := by norm_num
      rw [memoryInfo_text (text is)]
      simp [MemoryUnit.inKiB, scale]
  | TiB =>
      have is : amount.unit.text = [84, 105, 66] := unit ▸ rfl
      have scale : MemoryUnit.TiB.inKiB ≠ 1 := by norm_num [MemoryUnit.inKiB]
      have long : 3 ≤ amount.text.length := by simp [text is]
      rw [memoryInfo_text (text is)]
      simp [eq_scaled_iff scale, long]

/-! ### The lines -/

theorem DecimalNumber.byte_not_mem (number : DecimalNumber) (byte : UInt8)
    (noDigit : isDigit byte = false) (noPoint : byte ≠ 46) : byte ∉ number.text := by
  intro mem
  rcases number.mem_text mem with digit | point
  · rw [noDigit] at digit
    cases digit
  · exact noPoint point

theorem DecimalNumber.text_ne_nil (number : DecimalNumber) : number.text ≠ [] := by
  simp [text, number.nonempty]

theorem percent_token (number : DecimalNumber) : percent number ≠ [] ∧ 32 ∉ percent number ∧
    0 ∉ percent number := by
  have blank := number.byte_not_mem 32 (by decide) (by decide)
  have nul := number.byte_not_mem 0 (by decide) (by decide)
  simp [percent, blank, nul]

theorem Amount.token (amount : Amount) : amount.text ≠ [] ∧ 32 ∉ amount.text ∧ 0 ∉ amount.text := by
  have blank := amount.number.byte_not_mem 32 (by decide) (by decide)
  have nul := amount.number.byte_not_mem 0 (by decide) (by decide)
  have unit : 32 ∉ amount.unit.text ∧ 0 ∉ amount.unit.text := by
    cases amount.unit <;> decide
  simp [text, amount.number.text_ne_nil, blank, nul, unit]

theorem ContainerLine.text_noNul (line : ContainerLine) : 0 ∉ line.text := by
  have names := line.noNul
  simp only [List.mem_append, not_or] at names
  simp [text, gap, names, percent_token, Amount.token]

/-- The fields which the loop reads are the tokens with these indices. -/
theorem ContainerLine.split_text (line : ContainerLine) :
    ∃ more others, split line.text (ascii " ") = line.id :: line.name :: percent line.cpu ::
      line.usage.text :: [47] :: line.limit.text :: (percent line.memory ++ more) :: others := by
  have names := line.noBlank
  simp only [List.mem_append, not_or] at names
  have nonempty : line.text ≠ [] := by simp [text, line.idNonempty]
  have delim : cString (ascii " ") = [32] := by decide
  have isText : line.text = List.replicate 0 32 ++ (line.id ++ (line.gap 0 ++ (line.name ++
    (line.gap 1 ++ (percent line.cpu ++ (line.gap 2 ++ (line.usage.text ++ (line.gap 3 ++ ([47] ++
      (line.gap 4 ++ (line.limit.text ++ (line.gap 5 ++ (percent line.memory ++ line.rest)))))))))))))
      := rfl
  have last := tokens_of_strtok (strtok_token (percent_token line.memory).1
    (percent_token line.memory).2.1 (line.gaps 5) line.rest)
  refine ⟨line.rest.takeWhile (· ∉ [32]), tokens [32] ((line.rest.dropWhile (· ∉ [32])).drop 1), ?_⟩
  rw [split, if_neg nonempty, delim, cString_of_noNul line.text_noNul, isText]
  simp only [gap]
  rw [tokens_token line.idNonempty names.1, tokens_token line.nameNonempty names.2,
    tokens_token (percent_token line.cpu).1 (percent_token line.cpu).2.1,
    tokens_token line.usage.token.1 line.usage.token.2.1, tokens_token (by decide) (by decide),
    tokens_token line.limit.token.1 line.limit.token.2.1, last]

/-- A line is converted exactly if both of its amounts are. -/
theorem ContainerLine.dockerEntry_eq_iff (line : ContainerLine) :
    dockerEntry line.text = some line.entry ↔ line.usage.Converted ∧ line.limit.Converted := by
  rcases line.split_text with ⟨more, others, parts⟩
  rw [← line.usage.memoryInfo_eq_iff, ← line.limit.memoryInfo_eq_iff]
  have cpu : atof (percent line.cpu) = .fin line.cpu.value :=
    line.cpu.atof_text endsNumber_percent []
  have memory : atof (percent line.memory ++ more) = .fin line.memory.value := by
    rw [percent, List.append_assoc]
    exact line.memory.atof_text endsNumber_percent more
  rw [dockerEntry, parts]
  simp only [bind, List.getElem?_cons_zero, List.getElem?_cons_succ, Option.bind_some, cpu, memory]
  cases memoryInfo line.usage.text <;> cases memoryInfo line.limit.text <;>
    simp [entry, pure]

theorem mapM_eq_some_iff {α β γ : Type} (f : α → Option β) (text : γ → α) (result : γ → β)
    (elements : List γ) :
    (elements.map text).mapM f = some (elements.map result) ↔
      ∀ element ∈ elements, f (text element) = some (result element) := by
  induction elements with
  | nil => simp
  | cons element elements ih =>
      rw [List.map_cons, List.mapM_cons, List.forall_mem_cons, ← ih, List.map_cons]
      cases f (text element) with
      | none => simp
      | some first => cases (elements.map text).mapM f <;> simp

theorem dockerLoop_lines_iff (lines : List ContainerLine) :
    dockerLoop (lines.map ContainerLine.text) = some (vectorsOf (lines.map ContainerLine.entry)) ↔
      ∀ line ∈ lines, dockerEntry line.text = some line.entry := by
  rw [← mapM_eq_some_iff, dockerLoop_eq]
  constructor
  · intro loop
    rcases Option.map_eq_some_iff.mp loop with ⟨entries, converted, same⟩
    rw [converted, vectorsOf_injective same]
  · intro converted
    rw [converted, Option.map_some]

/-- The loop returns the fields of the lines, with the amounts in KiB, exactly if every
amount is in KiB, MiB or GiB, or is 0 and has at least three characters. -/
theorem container_lines_converted_iff (lines : List ContainerLine) :
    dockerLoop (lines.map ContainerLine.text) = some (vectorsOf (lines.map ContainerLine.entry)) ↔
      ∀ line ∈ lines, line.usage.Converted ∧ line.limit.Converted := by
  simp only [← ContainerLine.dockerEntry_eq_iff]
  exact dockerLoop_lines_iff lines

/-! ### A small container -/

def integer (n : ℕ) : DecimalNumber where
  whole := decimal n
  fraction := []
  nonempty := decimal_ne_nil n
  wholeDigits := fun _ mem => isDigit_of_mem_decimal mem
  fractionDigits := List.forall_mem_nil _

/-- A container which uses 512 bytes. -/
def smallContainer : ContainerLine where
  id := ascii "0123456789ab"
  name := ascii "web"
  cpu := integer 0
  usage := ⟨integer 512, .B⟩
  limit := ⟨integer 1, .GiB⟩
  memory := integer 0
  gaps := fun _ => 2
  rest := [10]
  idNonempty := by decide
  nameNonempty := by decide
  noBlank := by decide
  noNul := by decide

/-- Its 512 bytes are taken for 512 KiB. -/
theorem small_container_misread :
    dockerLoop [smallContainer.text] ≠ some (vectorsOf [smallContainer.entry]) := by
  intro loop
  have converted := (dockerLoop_lines_iff [smallContainer]).mp loop smallContainer
    (List.mem_singleton_self _)
  rcases (smallContainer.dockerEntry_eq_iff.mp converted).1 with unit | ⟨nothing, _⟩
  · exact absurd unit (by decide)
  · have value : smallContainer.usage.number.value = 512 := by
      have digits := decimalValue_decimal 512
      simp [smallContainer, integer, DecimalNumber.value]
      exact_mod_cast digits
    rw [value] at nothing
    norm_num at nothing

end HumanMachine.Client
