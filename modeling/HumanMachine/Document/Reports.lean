import HumanMachine.Client.NetworkRates
import HumanMachine.Client.Sampling
import HumanMachine.Document.Fleet
import HumanMachine.Document.Storage

/-!
# From the tools to the tables

What the tools of a machine print, line by line, when each of them says what its manual says:
a table with a number in the column which is read, the counters of the interfaces, a line for
every container. The rows which the server has for the machine are given in terms of these
numbers; between the printed lines and the rows stand the pipelines, the vectors, the document
and the statements.
-/

namespace HumanMachine.Client

open Server (Gson Row)

/-! ## What the tools print -/

/-- The output of a tool with a number in the `n`-th field of the selected lines. -/
structure Printed (selections : List Selection) (n : ℕ) where
  lines : List Bytes
  numbers : List DecimalNumber
  column : Column selections n lines numbers

def Printed.text {selections : List Selection} {n : ℕ} (printed : Printed selections n) : Bytes :=
  unlines printed.lines

def Printed.values {selections : List Selection} {n : ℕ} (printed : Printed selections n) : List ℚ :=
  printed.numbers.map DecimalNumber.value

/-- A line which one `fgets` reads. -/
structure PrintedLine where
  line : Bytes
  whole : 10 ∉ line
  noNul : 0 ∉ line
  short : line.length < 998

/-- A line about a container in units which `linux_command` knows. -/
structure PrintedContainer where
  container : ContainerLine
  whole : 10 ∉ container.text
  short : container.text.length < 998
  noHeading : ¬ascii "CPU" <:+: container.text
  converted : container.usage.Converted ∧ container.limit.Converted

structure Report where
  cpuSourceAvailable : Printed Probe.cpuSourceAvailable.selections 8
  cpuMHz : Printed Probe.cpuMHz.selections 4
  cpuCores : Printed Probe.cpuCores.selections 4
  memoryTotalInfo : Printed Probe.memoryTotalInfo.selections 2
  memoryAvailableInfo : Printed Probe.memoryAvailableInfo.selections 7
  diskTotalInfo : Printed Probe.diskTotalInfo.selections 2
  diskAvailableInfo : Printed Probe.diskAvailableInfo.selections 4
  first : List HumanMachine.Client.Interface
  second : List HumanMachine.Client.Interface
  heading : Bytes
  headed : 10 ∉ heading ∧ ascii "CPU" <:+: heading
  containers : List PrintedContainer
  address : PrintedLine
  time : PrintedLine
  someCpu : cpuMHz.numbers ≠ []
  cpuLengths : cpuSourceAvailable.numbers.length = cpuMHz.numbers.length ∧
    cpuCores.numbers.length = cpuMHz.numbers.length
  someMemory : memoryTotalInfo.values ≠ [] ∧ memoryAvailableInfo.values ≠ []
  memoryTotal : 0 < memoryTotalInfo.values.head someMemory.1
  diskLengths : diskAvailableInfo.numbers.length = diskTotalInfo.numbers.length
  diskTotal : 0 < diskTotalInfo.values.sum
  someInterface : first ≠ []
  interfaces : second.length = first.length

namespace Report

variable (report : Report)

/-- What the tools print, behind the filters. -/
def outputs : Outputs where
  cpuSourceAvailable :=
    throughFilters Probe.cpuSourceAvailable.filters report.cpuSourceAvailable.text
  cpuMHz := throughFilters Probe.cpuMHz.filters report.cpuMHz.text
  cpuCores := throughFilters Probe.cpuCores.filters report.cpuCores.text
  memoryTotalInfo := throughFilters Probe.memoryTotalInfo.filters report.memoryTotalInfo.text
  memoryAvailableInfo :=
    throughFilters Probe.memoryAvailableInfo.filters report.memoryAvailableInfo.text
  diskTotalInfo := throughFilters Probe.diskTotalInfo.filters report.diskTotalInfo.text
  diskAvailableInfo := throughFilters Probe.diskAvailableInfo.filters report.diskAvailableInfo.text
  ethFirstInfo := throughFilters Probe.ethFirstInfo.filters (ifconfig report.first)
  ethSecondInfo := throughFilters Probe.ethSecondInfo.filters (ifconfig report.second)
  dockerInfo := throughFilters Probe.dockerInfo.filters
    (unlines (report.heading :: report.containers.map fun printed => printed.container.text))
  macAddress := throughFilters Probe.macAddress.filters (unlines [report.address.line])
  timestampInfo := throughFilters Probe.timestampInfo.filters (unlines [report.time.line])

/-- The id of the machine. -/
def mac : ℤ :=
  Positional.value 7 (codes (report.address.line ++ [10]))

/-- The numbers and texts which the tools have printed. -/
def measurements (decode : Bytes → String) (location : String) : Measurements where
  cpuSourceAvailable := report.cpuSourceAvailable.values
  cpuMHz := report.cpuMHz.values
  cpuCores := report.cpuCores.values
  memoryTotalInfo := report.memoryTotalInfo.values
  memoryAvailableInfo := report.memoryAvailableInfo.values
  diskTotalInfo := report.diskTotalInfo.values
  diskAvailableInfo := report.diskAvailableInfo.values
  ethFirstInfo := (counters report.first).map fun (bytes : ℕ) => (bytes : ℚ)
  ethSecondInfo := (counters report.second).map fun (bytes : ℕ) => (bytes : ℚ)
  dockerIDInfo := report.containers.map fun printed => decode printed.container.id
  dockerCpuInfo := report.containers.map fun printed => printed.container.cpu.value
  dockerMemoryUsageInfo := report.containers.map fun printed => printed.container.usage.inKiB
  dockerMemoryLimitInfo := report.containers.map fun printed => printed.container.limit.inKiB
  dockerMemoryInfo := report.containers.map fun printed => printed.container.memory.value
  macAddressId := [(report.mac : ℚ)]
  locationInfo := [location]
  timestampInfo := [decode (report.time.line ++ [10])]
  interfaces := report.first.length
  someCpu := by simpa [Printed.values] using report.someCpu
  cpuLengths := by simpa [Printed.values] using report.cpuLengths
  someMemory := report.someMemory
  memoryTotal := report.memoryTotal
  diskLengths := by simpa [Printed.values] using report.diskLengths
  diskTotal := report.diskTotal
  someInterface := List.length_pos_iff.mpr report.someInterface
  counters := by simp [counters, report.interfaces, mul_comm]
  dockerLengths := by simp
  someMacAddress := List.cons_ne_nil _ _
  someLocation := List.cons_ne_nil _ _
  someTimestamp := List.cons_ne_nil _ _

end Report

/-! ## The vectors -/

theorem Printed.execCommand (probe : Probe) {n : ℕ} (printed : Printed probe.selections n)
    (field : probe.column = some n) :
    execCommand (throughFilters probe.filters printed.text) = printed.values.map .fin := by
  have filters : probe.filters = probe.selections.map .grep ++ [.awk n] := by
    rw [Probe.filters, field]
    rfl
  rw [filters, text, printed.column.execCommand, values, List.map_map]
  rfl

theorem execCommand_ifconfig (interfaces : List HumanMachine.Client.Interface) :
    execCommand (throughFilters Probe.ethFirstInfo.filters (ifconfig interfaces)) =
      ((counters interfaces).map fun (bytes : ℕ) => (bytes : ℚ)).map .fin := by
  have keeps : Selection.keeps ⟨ascii "X packets", false⟩ =
      fun line => decide (ascii "X packets" <:+: line) := by
    funext line
    exact Bool.bne_false _
  have same : throughFilters Probe.ethFirstInfo.filters (ifconfig interfaces) =
      awkPrint 5 (unlines ((textLines (ifconfig interfaces)).filter
        (Selection.keeps ⟨ascii "X packets", false⟩))) := rfl
  rw [same, keeps]
  exact (ethInfo_ifconfig interfaces).trans List.map_map.symm

theorem stringExecCommand_unlines {lines : List Bytes} (whole : ∀ line ∈ lines, 10 ∉ line)
    (noNul : ∀ line ∈ lines, 0 ∉ line) (short : ∀ line ∈ lines, line.length < 998) :
    stringExecCommand (unlines lines) = lines.map (· ++ [10]) := by
  apply fgetsLoop_unlines whole noNul _ (length_le_unlines lines)
  intro line mem
  have := short line mem
  omega

theorem PrintedLine.stringExecCommand (printed : PrintedLine) :
    stringExecCommand (unlines [printed.line]) = [printed.line ++ [10]] :=
  stringExecCommand_unlines (List.forall_mem_singleton.mpr printed.whole)
    (List.forall_mem_singleton.mpr printed.noNul) (List.forall_mem_singleton.mpr printed.short)

/-- The line as `fgets` leaves it. -/
def ContainerLine.ended (line : ContainerLine) : ContainerLine where
  id := line.id
  name := line.name
  cpu := line.cpu
  usage := line.usage
  limit := line.limit
  memory := line.memory
  gaps := line.gaps
  rest := line.rest ++ [10]
  idNonempty := line.idNonempty
  nameNonempty := line.nameNonempty
  noBlank := line.noBlank
  noNul := by
    have noNul := line.noNul
    simp only [List.mem_append] at noNul ⊢
    simpa using noNul

theorem ContainerLine.text_ended (line : ContainerLine) : line.ended.text = line.text ++ [10] := by
  simp [text, ended, gap]

namespace Report

variable {report : Report} {decode : Bytes → String} {location : String}

theorem containers_selected :
    throughFilters Probe.dockerInfo.filters
        (unlines (report.heading :: report.containers.map fun printed => printed.container.text)) =
      unlines (report.containers.map fun printed => printed.container.text) := by
  have whole : ∀ line ∈ report.heading :: report.containers.map fun printed => printed.container.text,
      10 ∉ line := by
    rw [List.forall_mem_cons, List.forall_mem_map]
    exact ⟨report.headed.1, fun printed _ => printed.whole⟩
  have filters : Probe.dockerInfo.filters = Probe.dockerInfo.selections.map .grep := rfl
  rw [filters, throughFilters_grep _ whole]
  congr 1
  have heading : Selection.allKeep Probe.dockerInfo.selections report.heading = false := by
    simp [Selection.allKeep, Probe.selections, Selection.keeps, report.headed.2]
  rw [List.filter_cons_of_neg (by simp [heading]), List.filter_eq_self, List.forall_mem_map]
  intro printed _
  simp [Selection.allKeep, Probe.selections, Selection.keeps, printed.noHeading]

theorem dockerLoop_outputs :
    dockerLoop (stringExecCommand report.outputs.dockerInfo) =
      some (vectorsOf (report.containers.map fun printed => printed.container.entry)) := by
  have lines : stringExecCommand report.outputs.dockerInfo =
      (report.containers.map fun printed => printed.container.ended).map ContainerLine.text := by
    rw [outputs, containers_selected, stringExecCommand_unlines, List.map_map, List.map_map]
    · apply List.map_congr_left
      intro printed _
      exact printed.container.text_ended.symm
    all_goals rw [List.forall_mem_map]
    · exact fun printed _ => printed.whole
    · exact fun printed _ => printed.container.text_noNul
    · exact fun printed _ => printed.short
  have entries : (report.containers.map fun printed => printed.container.ended).map
      ContainerLine.entry = report.containers.map fun printed => printed.container.entry := by
    rw [List.map_map]
    rfl
  rw [lines, ← entries, dockerLoop_lines_iff, List.forall_mem_map]
  intro printed _
  exact printed.container.ended.dockerEntry_eq_iff.mpr printed.converted

theorem stringExecCommand_macAddress :
    stringExecCommand report.outputs.macAddress = [report.address.line ++ [10]] :=
  report.address.stringExecCommand

theorem stringExecCommand_timestampInfo :
    stringExecCommand report.outputs.timestampInfo = [report.time.line ++ [10]] :=
  report.time.stringExecCommand

/-- `data_to_json` gets what the tools have printed. -/
theorem samples_outputs : report.outputs.samples decode
      (vectorsOf (report.containers.map fun printed => printed.container.entry))
      (stringToHashCode (report.address.line ++ [10])) location =
    (report.measurements decode location).samples := by
  rw [Outputs.samples, Measurements.samples, Samples.mk.injEq, stringExecCommand_timestampInfo,
    stringToHashCode_eq]
  simp only [outputs, measurements]
  refine ⟨Printed.execCommand .cpuSourceAvailable _ rfl, Printed.execCommand .cpuMHz _ rfl,
    Printed.execCommand .cpuCores _ rfl, Printed.execCommand .memoryTotalInfo _ rfl,
    Printed.execCommand .memoryAvailableInfo _ rfl, Printed.execCommand .diskTotalInfo _ rfl,
    Printed.execCommand .diskAvailableInfo _ rfl, execCommand_ifconfig report.first,
    execCommand_ifconfig report.second, ?_, ?_, ?_, ?_, ?_, rfl, trivial, rfl⟩
  all_goals simp [vectorsOf, ContainerLine.entry, Function.comp_def]

/-- The document of the tools is that of their numbers. -/
theorem linuxCommand_outputs : linuxCommand decode location report.outputs =
    dataToJson (report.measurements decode location).samples := by
  rw [← samples_outputs]
  apply linuxCommand_of_read dockerLoop_outputs
  · rw [stringExecCommand_macAddress]
    rfl
  · rw [stringExecCommand_timestampInfo]
    rfl

end Report

/-! ## The rows -/

/-- The rows of a machine with these measurements. -/
def Measurements.rows (measured : Measurements) : Server.Table → List Row
  | .serverinfo => [("id", .double (.fin measured.mac)) :: measured.serverinfoRow]
  | .cpuinfo => (List.range measured.cpuMHz.length).map fun i =>
      ("id", .double (.fin measured.mac)) :: measured.cpuinfoRow i
  | .dockerinfo => (List.range measured.dockerIDInfo.length).map fun j =>
      ("id", .double (.fin measured.mac)) :: measured.dockerinfoRow j

theorem Measurements.insertedInto_storedEffects (measured : Measurements) (table : Server.Table) :
    Server.insertedInto table measured.storedEffects = measured.rows table := by
  have cpus := Server.insertedInto_map_insertion table .cpuinfo (.fin measured.mac)
    ((List.range measured.cpuMHz.length).map measured.cpuinfoRow)
  have dockers := Server.insertedInto_map_insertion table .dockerinfo (.fin measured.mac)
    ((List.range measured.dockerIDInfo.length).map measured.dockerinfoRow)
  have machine := Server.insertedInto_map_insertion table .serverinfo (.fin measured.mac)
    [measured.serverinfoRow]
  rw [List.map_map] at cpus dockers
  have split : measured.storedEffects = [measured.serverinfoRow].map
      (Server.insertion .serverinfo (.fin measured.mac)) ++
      ((List.range measured.cpuMHz.length).map
        (Server.insertion .cpuinfo (.fin measured.mac) ∘ measured.cpuinfoRow) ++
      (List.range measured.dockerIDInfo.length).map
        (Server.insertion .dockerinfo (.fin measured.mac) ∘ measured.dockerinfoRow)) := rfl
  rw [split, Server.insertedInto_append, Server.insertedInto_append, machine, cpus, dockers]
  cases table <;> simp [rows]

section

variable {gson : Gson} {measured : Measurements} {root : Json}

theorem Measurements.describedRows_eq
    (truncates : ∀ value, gson.intOfNumber (.fin value) = truncate value)
    (produced : dataToJson measured.samples = some root) (table : Server.Table) :
    describedRows gson (.fin measured.mac) table root = measured.rows table := by
  rcases (dataToJson_built produced).isObject with ⟨members, rfl⟩
  rw [describedRows, plan_eq truncates produced, Plan.readable_map_ok, insertedInto_storedEffects]

/-- The server can read the document to the end. -/
theorem Measurements.sound {input : Option (List Char)} {body : String}
    (produced : dataToJson measured.samples = some root)
    (isBody : Server.getBodyData input = some body) (parsed : gson.parse body = .ok root) :
    Sound gson (.fin measured.mac) (arrives root (.reached input)) := by
  have built := dataToJson_built produced
  rcases built.isObject with ⟨members, rfl⟩
  have someCpu : measured.samples.cpuMHz ≠ [] := by
    simpa [samples] using measured.someCpu
  have someNetwork : measured.samples.ethFirstInfo ≠ [] := by
    have length := measured.counters.1
    have someInterface := measured.someInterface
    intro none
    rw [samples, List.map_eq_nil_iff] at none
    rw [none, List.length_nil] at length
    omega
  rcases built.wellFormed someCpu someNetwork with ⟨sections, wellFormed⟩
  exact ⟨body, members, sections, isBody, readBody_eq parsed produced, rfl, wellFormed⟩

end

/-- The rows of a machine whose tools have printed this. -/
def Report.rows (report : Report) (decode : Bytes → String) (location : String) :
    Server.Table → List Row :=
  (report.measurements decode location).rows

end HumanMachine.Client
