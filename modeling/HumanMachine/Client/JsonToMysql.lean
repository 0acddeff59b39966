import HumanMachine.Client.Usage

/-!
# Reading the document back: `jsonToMysql`

The counterpart of `data_to_json` reads the document with jsoncpp, where a key which is
absent reads as 0. It spells the keys of the totals with capitals, runs over the containers
as long as there are ids which it has read already, and appends the machine's id to the
list of the memory.
-/

namespace HumanMachine

namespace Json

/-- `Value::size` -/
def size : Json → ℕ
  | .arr elements => elements.length
  | .obj members => members.length
  | _ => 0

/-- `value[index]`; what is no array cannot be asked for it, but null can. -/
def element (array : Json) (index : ℕ) : Option Json :=
  match array with
  | .arr elements => some (elements[index]?.getD .null)
  | .null => some .null
  | _ => none

/-- `value[key]`; likewise for objects. -/
def field (object : Json) (key : String) : Option Json :=
  match object with
  | .obj members => some ((members.lookup key).getD .null)
  | .null => some .null
  | _ => none

def asDouble : Json → Option Double
  | .num value => some value
  | .bool value => some (if value then 1 else 0)
  | .null => some 0
  | _ => none

/-- `Value::asString`, with the text jsoncpp makes of a number. -/
def asString (valueToString : Double → String) : Json → Option String
  | .str text => some text
  | .bool value => some (toString value)
  | .num value => some (valueToString value)
  | .null => some ""
  | _ => none

theorem get_set (document : Json) (key other : String) (value : Json) :
    (document.set key value).get other = if other = key then value else document.get other := by
  rw [get, member?_set]
  split
  · rfl
  · rfl

theorem field_set (document : Json) (key other : String) (value : Json) :
    (document.set key value).field other = some ((document.set key value).get other) := by
  rcases exists_obj_set document key value with ⟨members, is⟩
  rw [is]
  rfl

theorem get_null (key : String) : Json.null.get key = .null := rfl

end Json

namespace Client

/-- The local vectors of `jsonToMysql`. -/
structure Extracted where
  cpuSourceAvailable : List Double
  cpuMHz : List Double
  cpuCores : List Double
  memoryInfo : List Double
  diskInfo : List Double
  ethUploadInfo : List Double
  ethDownloadInfo : List Double
  dockerIDInfo : List String
  dockerCpuInfo : List Double
  dockerMemoryUsageInfo : List Double
  dockerMemoryLimitInfo : List Double
  dockerMemoryInfo : List Double
  madAddressInfo : List Double

def Extracted.empty : Extracted where
  cpuSourceAvailable := []
  cpuMHz := []
  cpuCores := []
  memoryInfo := []
  diskInfo := []
  ethUploadInfo := []
  ethDownloadInfo := []
  dockerIDInfo := []
  dockerCpuInfo := []
  dockerMemoryUsageInfo := []
  dockerMemoryLimitInfo := []
  dockerMemoryInfo := []
  madAddressInfo := []

/-- `array[i][key].asDouble()` -/
def readDouble (array : Json) (i : ℕ) (key : String) : Option Double := do
  (← (← array.element i).field key).asDouble

def readString (valueToString : Double → String) (array : Json) (i : ℕ) (key : String) :
    Option String := do
  (← (← array.element i).field key).asString valueToString

namespace Extracted

def readCpu (cpu : Json) (extracted : Extracted) (i : ℕ) : Option Extracted := do
  return { extracted with
    cpuSourceAvailable := extracted.cpuSourceAvailable ++ [← readDouble cpu i "cpu source"]
    cpuMHz := extracted.cpuMHz ++ [← readDouble cpu i "cpu Mhz"]
    cpuCores := extracted.cpuCores ++ [← readDouble cpu i "cpu Cores"] }

def readNetwork (network : Json) (extracted : Extracted) (i : ℕ) : Option Extracted := do
  return { extracted with
    ethUploadInfo := extracted.ethUploadInfo ++ [← readDouble network i "upload rate"]
    ethDownloadInfo := extracted.ethDownloadInfo ++ [← readDouble network i "download rate"] }

def readDocker (valueToString : Double → String) (docker : Json) (extracted : Extracted) (i : ℕ) :
    Option Extracted := do
  return { extracted with
    dockerIDInfo := extracted.dockerIDInfo ++ [← readString valueToString docker i "id"]
    dockerCpuInfo := extracted.dockerCpuInfo ++ [← readDouble docker i "cpu"]
    dockerMemoryUsageInfo :=
      extracted.dockerMemoryUsageInfo ++ [← readDouble docker i "memory usage"]
    dockerMemoryLimitInfo :=
      extracted.dockerMemoryLimitInfo ++ [← readDouble docker i "memory limit"]
    dockerMemoryInfo := extracted.dockerMemoryInfo ++ [← readDouble docker i "memory"] }

/-- The loop over the containers, for fewer than so many turns. It is bounded by the list
which it fills. -/
def readDockers (valueToString : Double → String) (docker : Json) :
    ℕ → ℕ → Extracted → Option Extracted
  | 0, _, _ => none
  | turns + 1, i, extracted =>
      if i < extracted.dockerIDInfo.length then do
        readDockers valueToString docker turns (i + 1) (← extracted.readDocker valueToString docker i)
      else return extracted

end Extracted

/-- `jsonToMysql`, up to the end of the extraction. The outcome of parsing the file is passed
in; there is no result if jsoncpp refuses a conversion, or if the turns are used up. -/
def jsonToMysql (valueToString : Double → String) (turns : ℕ) (parsed : Option Json) :
    Option Extracted :=
  match parsed with
  | none => return .empty
  | some value => do
      let cpu ← value.field "cpu info"
      let extracted ← (List.range cpu.size).foldlM (Extracted.readCpu cpu) .empty
      let memory ← value.field "memory info"
      let extracted := { extracted with
        memoryInfo := extracted.memoryInfo ++ [← readDouble memory 0 "Total"] }
      let extracted := { extracted with
        memoryInfo := extracted.memoryInfo ++ [← readDouble memory 0 "Available"] }
      let disk ← value.field "disk info"
      let extracted := { extracted with
        diskInfo := extracted.diskInfo ++ [← readDouble disk 0 "Total"] }
      let extracted := { extracted with
        diskInfo := extracted.diskInfo ++ [← readDouble disk 0 "Available"] }
      let network ← value.field "network info"
      let extracted ← (List.range network.size).foldlM (Extracted.readNetwork network) extracted
      let docker ← value.field "docker info"
      let extracted ← extracted.readDockers valueToString docker turns 0
      let macAddress ← value.field "mac address info"
      -- Not `madAddressInfo`.
      return { extracted with
        memoryInfo := extracted.memoryInfo ++ [← readDouble macAddress 0 "id"] }

/-! ## What is read of a document of `data_to_json` -/

/-- The value of the section of these entries. -/
def sectionValue (entries : List Json) : Json :=
  if entries = [] then .null else .arr entries

theorem size_sectionValue (entries : List Json) :
    (sectionValue entries).size = entries.length := by
  cases entries <;> rfl

theorem element_sectionValue {entries : List Json} {i : ℕ} {entry : Json}
    (listed : entries[i]? = some entry) : (sectionValue entries).element i = some entry := by
  cases entries with
  | nil => simp at listed
  | cons first rest => simp [sectionValue, Json.element, listed]

theorem field_of_section {document : Json} (isObject : ∃ members, document = .obj members)
    {key : String} {entries : List Json} (holds : Section document key entries) :
    document.field key = some (sectionValue entries) := by
  rcases isObject with ⟨members, rfl⟩
  rw [Section, Json.member?_obj] at holds
  rw [Json.field, holds, sectionValue]
  split <;> rfl

theorem readDouble_sectionValue {entries : List Json} {i : ℕ} {entry value : Json} {key : String}
    (listed : entries[i]? = some entry) (is : entry.field key = some value) :
    readDouble (sectionValue entries) i key = value.asDouble := by
  rw [readDouble, element_sectionValue listed, Option.bind_eq_bind, Option.bind_some, is]
  rfl

theorem cpu_field {samples : Samples} {i : ℕ} {entry : Json} (is : samples.cpu i = some entry) :
    ∃ source mhz cores, samples.cpuSourceAvailable[i]? = some source ∧
      samples.cpuMHz[i]? = some mhz ∧ samples.cpuCores[i]? = some cores ∧
      entry.field "cpu source" = some (.num source) ∧ entry.field "cpu Mhz" = some (.num mhz) ∧
      entry.field "cpu Cores" = some (.num cores) := by
  simp only [Samples.cpu, bind, Option.bind_eq_some_iff] at is
  rcases is with ⟨source, isSource, mhz, isMhz, cores, isCores, made⟩
  cases made
  refine ⟨source, mhz, cores, isSource, isMhz, isCores, ?_, ?_, ?_⟩ <;>
    simp [Json.field_set, Json.get_set]

theorem network_field {samples : Samples} {i : ℕ} {entry : Json}
    (is : samples.network i = some entry) :
    ∃ upload download, entry.field "upload rate" = some (.num upload) ∧
      entry.field "download rate" = some (.num download) ∧
      entry.get "upload rate" = .num upload ∧ entry.get "download rate" = .num download := by
  simp only [Samples.network, bind, Option.bind_eq_some_iff] at is
  rcases is with ⟨secondUp, _, firstUp, _, secondDown, _, firstDown, _, made⟩
  cases made
  refine ⟨(secondUp - firstUp) / .fin 1024, (secondDown - firstDown) / .fin 1024, ?_, ?_, ?_, ?_⟩ <;>
    simp [Json.field_set, Json.get_set]

/-- The keys of the totals are spelled with capitals here and with small letters there. -/
theorem totals_field {samples : Samples} {entry : Json}
    (is : samples.memory = some entry ∨ samples.disk = some entry) :
    entry.field "Total" = some .null ∧ entry.field "Available" = some .null := by
  have made : ∃ total available used : Double, entry = ((Json.null.set "total" (.num total)).set
      "available" (.num available)).set "used" (.num used) := by
    rcases is with is | is
    · simp only [Samples.memory, bind, Option.bind_eq_some_iff] at is
      rcases is with ⟨total, _, available, _, made⟩
      cases made
      exact ⟨_, _, _, rfl⟩
    · simp only [Samples.disk, bind, Option.bind_eq_some_iff] at is
      rcases is with ⟨⟨total, available⟩, _, made⟩
      cases made
      exact ⟨_, _, _, rfl⟩
  rcases made with ⟨total, available, used, rfl⟩
  constructor <;> simp [Json.field_set, Json.get_set, Json.get_null]

theorem macAddress_field {samples : Samples} {entry : Json}
    (is : samples.macAddress = some entry) :
    ∃ mac, samples.macAddressId[0]? = some mac ∧ entry.field "id" = some (.num mac) := by
  simp only [Samples.macAddress, bind, Option.bind_eq_some_iff] at is
  rcases is with ⟨mac, isMac, made⟩
  cases made
  exact ⟨mac, isMac, rfl⟩

namespace Extracted

/-- What the loop over the cpus has read after so many turns. -/
def ofCpus (samples : Samples) (turns : ℕ) : Extracted :=
  { empty with
    cpuSourceAvailable := samples.cpuSourceAvailable.take turns
    cpuMHz := samples.cpuMHz.take turns
    cpuCores := samples.cpuCores.take turns }

/-- The loop over the cpus reads back what the loop over them wrote. -/
theorem readCpu_all {samples : Samples} {entries : List Json} {n : ℕ}
    (built : Entries samples.cpu (List.range n) entries) :
    (List.range n).foldlM (readCpu (sectionValue entries)) empty = some (ofCpus samples n) := by
  have each : ∀ i < n, readCpu (sectionValue entries) (ofCpus samples i) i =
      pure (ofCpus samples (i + 1)) := by
    intro i less
    have within : i < entries.length := by rwa [← built.length_eq, List.length_range]
    have listed : entries[i]? = some entries[i] := List.getElem?_eq_getElem within
    have index : (List.range n)[i]? = some i := by simp [less]
    rcases cpu_field (built.entry_eq index listed) with
      ⟨source, mhz, cores, isSource, isMhz, isCores, sourceField, mhzField, coresField⟩
    simp only [readCpu, readDouble_sectionValue listed sourceField,
      readDouble_sectionValue listed mhzField, readDouble_sectionValue listed coresField,
      Json.asDouble, ofCpus, List.take_add_one, isSource, isMhz, isCores]
    rfl
  exact foldlM_range (ofCpus samples) each

/-- A state of the loop over the interfaces, after so many turns. -/
def withRates (rates : List (Double × Double)) (extracted : Extracted) (turns : ℕ) : Extracted :=
  { extracted with
    ethUploadInfo := extracted.ethUploadInfo ++ (rates.take turns).map Prod.fst
    ethDownloadInfo := extracted.ethDownloadInfo ++ (rates.take turns).map Prod.snd }

/-- The rates in an entry of the network. -/
structure RatesOf (entry : Json) (rate : Double × Double) : Prop where
  uploadField : entry.field "upload rate" = some (.num rate.1)
  downloadField : entry.field "download rate" = some (.num rate.2)
  upload : entry.get "upload rate" = .num rate.1
  download : entry.get "download rate" = .num rate.2

theorem exists_rates {samples : Samples} {indices : List ℕ} {entries : List Json}
    (built : Entries samples.network indices entries) :
    ∃ rates, List.Forall₂ RatesOf entries rates := by
  induction built with
  | nil => exact ⟨[], .nil⟩
  | cons first rest ih =>
      rcases network_field first with ⟨upload, download, fields⟩
      rcases ih with ⟨rates, others⟩
      exact ⟨(upload, download) :: rates, .cons ⟨fields.1, fields.2.1, fields.2.2.1, fields.2.2.2⟩
        others⟩

theorem readNetwork_all {entries : List Json} {rates : List (Double × Double)}
    (fields : List.Forall₂ RatesOf entries rates) (extracted : Extracted) :
    (List.range entries.length).foldlM (readNetwork (sectionValue entries)) extracted =
      some (withRates rates extracted entries.length) := by
  have each : ∀ i < entries.length,
      readNetwork (sectionValue entries) (withRates rates extracted i) i =
        pure (withRates rates extracted (i + 1)) := by
    intro i less
    have also : i < rates.length := fields.length_eq ▸ less
    have listed : entries[i]? = some entries[i] := List.getElem?_eq_getElem less
    have rate := fields.get less also
    simp only [readNetwork, readDouble_sectionValue listed rate.uploadField,
      readDouble_sectionValue listed rate.downloadField, Json.asDouble, withRates,
      List.take_add_one, List.getElem?_eq_getElem also, List.map_append, ← List.append_assoc]
    rfl
  have start : withRates rates extracted 0 = extracted := by simp [withRates]
  have all := foldlM_range (withRates rates extracted) each
  rwa [start] at all

end Extracted

variable {valueToString : Double → String} {samples : Samples} {document : Json}

/-- What `jsonToMysql` reads of a document: the totals read as 0, the loop over the containers
does not start, and the machine's id stands behind the totals of the memory. -/
theorem jsonToMysql_document (built : dataToJson samples = some document) :
    ∃ networks rates mac, Section document "network info" networks ∧
      List.Forall₂ Extracted.RatesOf networks rates ∧ samples.macAddressId[0]? = some mac ∧
      ∀ turns, jsonToMysql valueToString (turns + 1) (some document) =
        some { Extracted.ofCpus samples samples.cpuMHz.length with
          memoryInfo := [0, 0, mac]
          diskInfo := [0, 0]
          ethUploadInfo := rates.map Prod.fst
          ethDownloadInfo := rates.map Prod.snd } := by
  rcases dataToJson_built built with ⟨isObject, ⟨cpus, cpusBuilt, cpuSection⟩,
    ⟨dockers, dockersBuilt, dockerSection⟩, ⟨memory, isMemory, memorySection⟩,
    ⟨disk, isDisk, diskSection⟩, ⟨networks, networksBuilt, networkSection⟩,
    ⟨macAddress, isMac, macSection⟩, -, -⟩
  rcases Extracted.exists_rates networksBuilt with ⟨rates, areRates⟩
  rcases macAddress_field isMac with ⟨mac, macListed, macField⟩
  refine ⟨networks, rates, mac, networkSection, areRates, macListed, ?_⟩
  intro turns
  have cpuSize : cpus.length = samples.cpuMHz.length := by
    rw [← cpusBuilt.length_eq, List.length_range]
  have single (entry : Json) : [entry][0]? = some entry := rfl
  have memoryTotals := totals_field (.inl isMemory)
  have diskTotals := totals_field (.inr isDisk)
  have rest : rates.take networks.length = rates := by
    rw [areRates.length_eq, List.take_length]
  simp only [jsonToMysql, field_of_section isObject cpuSection,
    field_of_section isObject memorySection, field_of_section isObject diskSection,
    field_of_section isObject networkSection, field_of_section isObject dockerSection,
    field_of_section isObject macSection, Option.bind_eq_bind, Option.bind_some,
    size_sectionValue, cpuSize, Extracted.readCpu_all cpusBuilt,
    readDouble_sectionValue (single memory) memoryTotals.1,
    readDouble_sectionValue (single memory) memoryTotals.2,
    readDouble_sectionValue (single disk) diskTotals.1,
    readDouble_sectionValue (single disk) diskTotals.2, Json.asDouble,
    Extracted.readNetwork_all areRates, Extracted.withRates, rest,
    readDouble_sectionValue (single macAddress) macField]
  rfl

/-! ## What is restored -/

/-- The totals of the only entry of a section stand in front. -/
def TotalsRestored (document : Json) (key : String) (totals : List Double) : Prop :=
  ∃ entry, Section document key [entry] ∧
    [entry.get "total", entry.get "available"] <+: totals.map .num

/-- The extraction undoes the writer. Where a vector of the samples is longer than the one
which drives its loop, only what is in the document is asked for. -/
structure Restored (samples : Samples) (document : Json) (extracted : Extracted) : Prop where
  cpuSourceAvailable :
    extracted.cpuSourceAvailable = samples.cpuSourceAvailable.take samples.cpuMHz.length
  cpuMHz : extracted.cpuMHz = samples.cpuMHz
  cpuCores : extracted.cpuCores = samples.cpuCores.take samples.cpuMHz.length
  memory : TotalsRestored document "memory info" extracted.memoryInfo
  disk : TotalsRestored document "disk info" extracted.diskInfo
  rates : ∃ networks, Section document "network info" networks ∧
    extracted.ethUploadInfo.map Json.num = networks.map (Json.get · "upload rate") ∧
    extracted.ethDownloadInfo.map Json.num = networks.map (Json.get · "download rate")
  dockerID : extracted.dockerIDInfo = samples.dockerIDInfo
  dockerCpu : extracted.dockerCpuInfo = samples.dockerCpuInfo.take samples.dockerIDInfo.length
  dockerMemoryUsage : extracted.dockerMemoryUsageInfo =
    samples.dockerMemoryUsageInfo.take samples.dockerIDInfo.length
  dockerMemoryLimit : extracted.dockerMemoryLimitInfo =
    samples.dockerMemoryLimitInfo.take samples.dockerIDInfo.length
  dockerMemory :
    extracted.dockerMemoryInfo = samples.dockerMemoryInfo.take samples.dockerIDInfo.length
  macAddress : extracted.madAddressInfo = samples.macAddressId.take 1

theorem map_rates {networks : List Json} {rates : List (Double × Double)}
    (areRates : List.Forall₂ Extracted.RatesOf networks rates) :
    (rates.map Prod.fst).map Json.num = networks.map (Json.get · "upload rate") ∧
      (rates.map Prod.snd).map Json.num = networks.map (Json.get · "download rate") := by
  induction areRates with
  | nil => exact ⟨rfl, rfl⟩
  | cons first rest ih => simpa [first.upload, first.download] using ih

/-- Two zeros in front are the totals only if there is nothing to restore. -/
theorem totalsRestored_zero_iff {key : String} {entry : Json} {total available : Double}
    (holds : Section document key [entry]) (isTotal : entry.get "total" = .num total)
    (isAvailable : entry.get "available" = .num available) (rest : List Double) :
    TotalsRestored document key (0 :: 0 :: rest) ↔ total = 0 ∧ available = 0 := by
  constructor
  · rintro ⟨other, also, restored⟩
    cases holds.unique also
    rw [isTotal, isAvailable] at restored
    simpa using restored
  · rintro ⟨rfl, rfl⟩
    exact ⟨entry, holds, by simp [isTotal, isAvailable]⟩

theorem memory_get (built : dataToJson samples = some document) :
    ∃ entry total available, Section document "memory info" [entry] ∧
      samples.memoryTotalInfo[0]? = some total ∧ samples.memoryAvailableInfo[0]? = some available ∧
      entry.get "total" = .num total ∧ entry.get "available" = .num available := by
  rcases (dataToJson_built built).memory with ⟨entry, isMemory, holds⟩
  simp only [Samples.memory, bind, Option.bind_eq_some_iff] at isMemory
  rcases isMemory with ⟨total, isTotal, available, isAvailable, made⟩
  cases made
  refine ⟨_, total, available, holds, isTotal, isAvailable, ?_, ?_⟩ <;> simp [Json.get_set]

theorem disk_get (built : dataToJson samples = some document) :
    ∃ entry total available, Section document "disk info" [entry] ∧
      samples.diskSums = some (total, available) ∧
      entry.get "total" = .num total ∧ entry.get "available" = .num available := by
  rcases (dataToJson_built built).disk with ⟨entry, isDisk, holds⟩
  simp only [Samples.disk, bind, Option.bind_eq_some_iff] at isDisk
  rcases isDisk with ⟨⟨total, available⟩, sums, made⟩
  cases made
  refine ⟨_, total, available, holds, sums, ?_, ?_⟩ <;> simp [Json.get_set]

/-- The cpus and the rates are always restored, the totals only if they are 0, and the
containers only if there are none. -/
theorem jsonToMysql_restores (built : dataToJson samples = some document) :
    ∃ extracted, (∀ turns, jsonToMysql valueToString (turns + 1) (some document) = some extracted) ∧
      extracted.cpuSourceAvailable = samples.cpuSourceAvailable.take samples.cpuMHz.length ∧
      extracted.cpuMHz = samples.cpuMHz ∧
      extracted.cpuCores = samples.cpuCores.take samples.cpuMHz.length ∧
      (∃ networks, Section document "network info" networks ∧
        extracted.ethUploadInfo.map Json.num = networks.map (Json.get · "upload rate") ∧
        extracted.ethDownloadInfo.map Json.num = networks.map (Json.get · "download rate")) ∧
      (TotalsRestored document "memory info" extracted.memoryInfo ↔
        samples.memoryTotalInfo[0]? = some 0 ∧ samples.memoryAvailableInfo[0]? = some 0) ∧
      (TotalsRestored document "disk info" extracted.diskInfo ↔ samples.diskSums = some (0, 0)) ∧
      (extracted.dockerIDInfo = samples.dockerIDInfo ↔ samples.dockerIDInfo = []) := by
  rcases jsonToMysql_document built with ⟨networks, rates, mac, holds, areRates, _, reads⟩
  rcases memory_get built with
    ⟨memory, total, available, memoryHolds, isTotal, isAvailable, totalGet, availableGet⟩
  rcases disk_get built with ⟨disk, diskTotal, diskAvailable, diskHolds, sums, diskGet⟩
  refine ⟨_, reads, rfl, List.take_length, rfl, ⟨networks, holds, map_rates areRates⟩, ?_, ?_, ?_⟩
  · rw [isTotal, isAvailable, Option.some.injEq, Option.some.injEq]
    exact totalsRestored_zero_iff memoryHolds totalGet availableGet [mac]
  · rw [sums, Option.some.injEq, Prod.mk.injEq]
    exact totalsRestored_zero_iff diskHolds diskGet.1 diskGet.2 []
  · exact eq_comm

/-- The machine's id is in the document, but the list kept for it stays empty. -/
theorem jsonToMysql_not_restored (valueToString : Double → String) (samples : Samples)
    (document : Json) (built : dataToJson samples = some document) :
    ∃ extracted, (∀ turns, jsonToMysql valueToString (turns + 1) (some document) = some extracted) ∧
      ¬Restored samples document extracted := by
  rcases jsonToMysql_document built with ⟨_, _, mac, _, _, macListed, reads⟩
  refine ⟨_, reads, ?_⟩
  intro restored
  have kept : [] = samples.macAddressId.take 1 := restored.macAddress
  cases macs : samples.macAddressId with
  | nil => simp [macs] at macListed
  | cons first rest => simp [macs] at kept

/-- A machine with a processor, a disk, an interface and a container. -/
def oneContainer : Samples where
  cpuSourceAvailable := [.fin 97]
  cpuMHz := [.fin 2400]
  cpuCores := [.fin 1]
  memoryTotalInfo := [.fin 8]
  memoryAvailableInfo := [.fin 4]
  diskTotalInfo := [.fin 100]
  diskAvailableInfo := [.fin 40]
  ethFirstInfo := [.fin 0, .fin 0]
  ethSecondInfo := [.fin 1024, .fin 2048]
  dockerIDInfo := ["web"]
  dockerCpuInfo := [.fin 2]
  dockerMemoryUsageInfo := [.fin 1]
  dockerMemoryLimitInfo := [.fin 4]
  dockerMemoryInfo := [.fin 25]
  macAddressId := [.fin 7]
  locationInfo := ["lab"]
  timestampInfo := ["noon"]

theorem oneContainer_document : ∃ document, dataToJson oneContainer = some document := by
  apply Option.isSome_iff_exists.mp
  rw [Samples.isSome_dataToJson_iff]
  constructor <;> decide

theorem jsonToMysql_not_restored_oneContainer : ∃ document extracted,
    dataToJson oneContainer = some document ∧
      jsonToMysql (fun _ => "") 1 (some document) = some extracted ∧
      ¬Restored oneContainer document extracted := by
  rcases oneContainer_document with ⟨document, built⟩
  rcases jsonToMysql_not_restored (fun _ => "") oneContainer document built with
    ⟨extracted, reads, not⟩
  exact ⟨document, extracted, built, reads 0, not⟩

/-- The totals of this machine read as 0, its id stands behind them, and its container is
not read. -/
theorem oneContainer_not_restored : ∃ document extracted,
    dataToJson oneContainer = some document ∧
      jsonToMysql (fun _ => "") 1 (some document) = some extracted ∧
      extracted.memoryInfo = [0, 0, .fin 7] ∧ extracted.diskInfo = [0, 0] ∧
      extracted.dockerIDInfo = [] ∧ extracted.madAddressInfo = [] ∧
      ¬Restored oneContainer document extracted := by
  rcases oneContainer_document with ⟨document, built⟩
  rcases jsonToMysql_document built with ⟨networks, rates, mac, _, _, macListed, reads⟩
  cases macListed
  refine ⟨document, _, built, reads 0, rfl, rfl, rfl, rfl, ?_⟩
  intro restored
  have kept : [] = ["web"] := restored.dockerID
  simp at kept

end Client

end HumanMachine
