import HumanMachine.Client.LinuxCommand
import HumanMachine.Data.Shell

/-!
# Pipelines

The commands of `linux_command` are texts for a shell: a tool of the machine, and filters for
its output. What a text asks for is read off its tokens. Where the lines which a pipeline
selects have a number in the column it prints, the numbers are what `exec_command` appends.
-/

namespace HumanMachine.Client

/-! ## What a text asks for -/

def bar : UInt8 := 124

/-- The literal words between the bars of a line. -/
def stages : List Shell.Token → Option (List (List Bytes))
  | [] => some [[]]
  | .operator byte :: tokens => if byte = bar then (stages tokens).map ([] :: ·) else none
  | .word word :: tokens =>
      match word.expands, stages tokens with
      | false, some (words :: others) => some ((word.text :: words) :: others)
      | _, _ => none

/-- `grep pattern`, or `grep -v pattern`. -/
structure Selection where
  pattern : Bytes
  inverted : Bool
  deriving DecidableEq

inductive Filter where
  | grep (selection : Selection)
  | awk (n : ℕ)
  deriving DecidableEq

/-- The field which a program of `awk` prints. -/
def printedField (program : Bytes) : Option ℕ :=
  (List.range 10).find? fun n => program = ascii "\x7bprint $" ++ decimal n ++ ascii "\x7d"

def Filter.ofWords : List Bytes → Option Filter
  | [name, argument] =>
      if name = ascii "grep" then some (.grep ⟨argument, false⟩)
      else if name = ascii "awk" then (printedField argument).map .awk
      else none
  | [name, option, pattern] =>
      if name = ascii "grep" ∧ option = ascii "-v" then some (.grep ⟨pattern, true⟩) else none
  | _ => none

structure Pipeline where
  tool : List Bytes
  filters : List Filter
  deriving DecidableEq

def pipelineOf (command : Bytes) : Option Pipeline := do
  let tokens ← Shell.tokens command
  match ← stages tokens with
  | tool :: filters => return ⟨tool, ← filters.mapM Filter.ofWords⟩
  | [] => none

def Selection.keeps (selection : Selection) (line : Bytes) : Bool :=
  (selection.pattern <:+: line : Bool) != selection.inverted

def Filter.output : Filter → Bytes → Bytes
  | .grep selection, text => unlines ((textLines text).filter selection.keeps)
  | .awk n, text => awkPrint n text

/-- What comes out of the filters when the tool prints a text. -/
def throughFilters (filters : List Filter) (printed : Bytes) : Bytes :=
  filters.foldl (fun text filter => filter.output text) printed

/-! ## The commands -/

/-- The vectors which `linux_command` fills, each by a command of its own. -/
inductive Probe where
  | cpuSourceAvailable
  | cpuMHz
  | cpuCores
  | memoryTotalInfo
  | memoryAvailableInfo
  | diskTotalInfo
  | diskAvailableInfo
  | ethFirstInfo
  | ethSecondInfo
  | dockerInfo
  | macAddress
  | timestampInfo

namespace Probe

def command : Probe → Bytes
  | cpuSourceAvailable =>
      ascii "sar -P ALL 1 1 | grep Average | grep -v all | grep -v CPU |  awk '\x7bprint $8\x7d'"
  | cpuMHz => ascii "cat /proc/cpuinfo | grep \"cpu MHz\" | awk '\x7bprint $4\x7d'"
  | cpuCores => ascii "cat /proc/cpuinfo | grep \"cpu cores\" | awk '\x7bprint $4\x7d'"
  | memoryTotalInfo => ascii "free | grep Mem: | awk '\x7bprint $2\x7d'"
  | memoryAvailableInfo => ascii "free | grep Mem: | awk '\x7bprint $7\x7d'"
  | diskTotalInfo => ascii "df | grep -v Filesystem | awk '\x7bprint $2\x7d'"
  | diskAvailableInfo => ascii "df | grep -v Filesystem | awk '\x7bprint $4\x7d'"
  | ethFirstInfo => ascii "ifconfig | grep \"X packets\" | awk '\x7bprint $5\x7d'"
  | ethSecondInfo => ascii "ifconfig | grep \"X packets\" | awk '\x7bprint $5\x7d'"
  | dockerInfo => ascii "docker stats --no-stream | grep -v CPU"
  | macAddress => ascii "cat /sys/class/net/eth0/address"
  | timestampInfo => ascii "date \"+%Y-%m-%d %H:%M:%S\""

def tool : Probe → List Bytes
  | cpuSourceAvailable => ["sar", "-P", "ALL", "1", "1"].map ascii
  | cpuMHz => ["cat", "/proc/cpuinfo"].map ascii
  | cpuCores => ["cat", "/proc/cpuinfo"].map ascii
  | memoryTotalInfo => ["free"].map ascii
  | memoryAvailableInfo => ["free"].map ascii
  | diskTotalInfo => ["df"].map ascii
  | diskAvailableInfo => ["df"].map ascii
  | ethFirstInfo => ["ifconfig"].map ascii
  | ethSecondInfo => ["ifconfig"].map ascii
  | dockerInfo => ["docker", "stats", "--no-stream"].map ascii
  | macAddress => ["cat", "/sys/class/net/eth0/address"].map ascii
  | timestampInfo => ["date", "+%Y-%m-%d %H:%M:%S"].map ascii

def selections : Probe → List Selection
  | cpuSourceAvailable =>
      [⟨ascii "Average", false⟩, ⟨ascii "all", true⟩, ⟨ascii "CPU", true⟩]
  | cpuMHz => [⟨ascii "cpu MHz", false⟩]
  | cpuCores => [⟨ascii "cpu cores", false⟩]
  | memoryTotalInfo => [⟨ascii "Mem:", false⟩]
  | memoryAvailableInfo => [⟨ascii "Mem:", false⟩]
  | diskTotalInfo => [⟨ascii "Filesystem", true⟩]
  | diskAvailableInfo => [⟨ascii "Filesystem", true⟩]
  | ethFirstInfo => [⟨ascii "X packets", false⟩]
  | ethSecondInfo => [⟨ascii "X packets", false⟩]
  | dockerInfo => [⟨ascii "CPU", true⟩]
  | macAddress => []
  | timestampInfo => []

/-- The field which is printed of a selected line. -/
def column : Probe → Option ℕ
  | cpuSourceAvailable => some 8
  | cpuMHz => some 4
  | cpuCores => some 4
  | memoryTotalInfo => some 2
  | memoryAvailableInfo => some 7
  | diskTotalInfo => some 2
  | diskAvailableInfo => some 4
  | ethFirstInfo => some 5
  | ethSecondInfo => some 5
  | dockerInfo => none
  | macAddress => none
  | timestampInfo => none

def filters (probe : Probe) : List Filter :=
  probe.selections.map .grep ++ (probe.column.map .awk).toList

theorem pipelineOf_command (probe : Probe) :
    pipelineOf probe.command = some ⟨probe.tool, probe.filters⟩ := by
  cases probe <;> decide +kernel

end Probe

/-! ## The numbers in a column -/

def Selection.allKeep (selections : List Selection) (line : Bytes) : Bool :=
  selections.all fun selection => selection.keeps line

/-- The selected lines have these numbers in the `n`-th field. -/
inductive Column (selections : List Selection) (n : ℕ) : List Bytes → List DecimalNumber → Prop where
  | nil : Column selections n [] []
  | dropped {line : Bytes} {lines : List Bytes} {numbers : List DecimalNumber} (whole : 10 ∉ line)
      (drops : Selection.allKeep selections line = false) (rest : Column selections n lines numbers) :
      Column selections n (line :: lines) numbers
  | kept {line : Bytes} {number : DecimalNumber} {lines : List Bytes}
      {numbers : List DecimalNumber} (whole : 10 ∉ line)
      (keeps : Selection.allKeep selections line = true)
      (field : (fields line)[n - 1]? = some number.text) (short : number.text.length < 98)
      (rest : Column selections n lines numbers) :
      Column selections n (line :: lines) (number :: numbers)

variable {selections : List Selection} {n : ℕ} {lines : List Bytes} {numbers : List DecimalNumber}

theorem throughFilters_append (first second : List Filter) (printed : Bytes) :
    throughFilters (first ++ second) printed =
      throughFilters second (throughFilters first printed) :=
  List.foldl_append

theorem throughFilters_grep (selections : List Selection) (whole : ∀ line ∈ lines, 10 ∉ line) :
    throughFilters (selections.map .grep) (unlines lines) =
      unlines (lines.filter (Selection.allKeep selections)) := by
  induction selections generalizing lines with
  | nil =>
      have all : Selection.allKeep [] = fun _ => true := rfl
      rw [all, List.filter_true]
      rfl
  | cons selection selections ih =>
      have selected : ∀ line ∈ lines.filter selection.keeps, 10 ∉ line := fun line mem =>
        whole line (List.mem_of_mem_filter mem)
      have first : throughFilters ((selection :: selections).map .grep) (unlines lines) =
          throughFilters (selections.map .grep)
            (unlines ((textLines (unlines lines)).filter selection.keeps)) := rfl
      rw [first, textLines_unlines whole, ih selected, List.filter_filter]
      congr 2
      funext line
      exact Bool.and_comm _ _

theorem Column.whole (column : Column selections n lines numbers) : ∀ line ∈ lines, 10 ∉ line := by
  induction column with
  | nil => exact List.forall_mem_nil _
  | dropped whole drops rest ih => exact List.forall_mem_cons.mpr ⟨whole, ih⟩
  | kept whole keeps field short rest ih => exact List.forall_mem_cons.mpr ⟨whole, ih⟩

/-- What the pipeline prints are the numbers, one in each line. -/
theorem Column.printed (column : Column selections n lines numbers) :
    throughFilters (selections.map .grep ++ [.awk n]) (unlines lines) =
      unlines (numbers.map DecimalNumber.text) := by
  have selected : ∀ line ∈ lines.filter (Selection.allKeep selections), 10 ∉ line := fun line mem =>
    column.whole line (List.mem_of_mem_filter mem)
  have last : ∀ text, throughFilters [.awk n] text = awkPrint n text := fun _ => rfl
  rw [throughFilters_append, throughFilters_grep selections column.whole, last, awkPrint,
    textLines_unlines selected]
  congr 1
  clear selected
  induction column with
  | nil => rfl
  | dropped whole drops rest ih => rw [List.filter_cons_of_neg (by simp [drops]), ih]
  | kept whole keeps field short rest ih =>
      rw [List.filter_cons_of_pos keeps, List.map_cons, List.map_cons, field, Option.getD_some, ih]

theorem Column.short (column : Column selections n lines numbers) :
    ∀ number ∈ numbers, number.text.length < 98 := by
  induction column with
  | nil => exact List.forall_mem_nil _
  | dropped whole drops rest ih => exact ih
  | kept whole keeps field short rest ih => exact List.forall_mem_cons.mpr ⟨short, ih⟩

theorem endsNumber_newline : EndsNumber 10 := by
  constructor <;> decide

/-- The vector has the numbers of the column. -/
theorem Column.execCommand (column : Column selections n lines numbers) :
    execCommand (throughFilters (selections.map .grep ++ [.awk n]) (unlines lines)) =
      numbers.map fun number => .fin number.value := by
  rw [column.printed, HumanMachine.Client.execCommand, storeResult_unlines, List.map_map]
  · apply List.map_congr_left
    intro number _
    exact number.atof_text endsNumber_newline []
  all_goals
    intro line mem
    rcases List.mem_map.mp mem with ⟨number, among, rfl⟩
  · exact number.byte_not_mem 10 (by decide) (by decide)
  · exact number.byte_not_mem 0 (by decide) (by decide)
  · exact column.short number among

end HumanMachine.Client
