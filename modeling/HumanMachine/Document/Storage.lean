import HumanMachine.Client.Usage
import HumanMachine.Document.Agreement
import Mathlib.Algebra.BigOperators.Group.Finset.Basic

/-!
# What is sampled is what is stored

The samples of a machine whose document is complete and exact: finite numbers, vectors
of fitting lengths, and positive totals. The rows which the server inserts for it are
given in terms of the samples, column by column; between them stand the keys of the
document, which both sides write out by hand.
-/

namespace HumanMachine.Client

open Server (Gson Row JavaException insertData executedEffects deletions insertion refused jdbc)
open Finset (sum_range_succ)

/-- Sample vectors of a machine. -/
structure Measurements where
  cpuSourceAvailable : List ℚ
  cpuMHz : List ℚ
  cpuCores : List ℚ
  memoryTotalInfo : List ℚ
  memoryAvailableInfo : List ℚ
  diskTotalInfo : List ℚ
  diskAvailableInfo : List ℚ
  ethFirstInfo : List ℚ
  ethSecondInfo : List ℚ
  dockerIDInfo : List String
  dockerCpuInfo : List ℚ
  dockerMemoryUsageInfo : List ℚ
  dockerMemoryLimitInfo : List ℚ
  dockerMemoryInfo : List ℚ
  macAddressId : List ℚ
  locationInfo : List String
  timestampInfo : List String
  interfaces : ℕ
  someCpu : cpuMHz ≠ []
  cpuLengths : cpuSourceAvailable.length = cpuMHz.length ∧ cpuCores.length = cpuMHz.length
  someMemory : memoryTotalInfo ≠ [] ∧ memoryAvailableInfo ≠ []
  memoryTotal : 0 < memoryTotalInfo.head someMemory.1
  diskLengths : diskAvailableInfo.length = diskTotalInfo.length
  diskTotal : 0 < diskTotalInfo.sum
  someInterface : 0 < interfaces
  counters : ethFirstInfo.length = 2 * interfaces ∧ ethSecondInfo.length = 2 * interfaces
  dockerLengths : dockerCpuInfo.length = dockerIDInfo.length ∧
    dockerMemoryUsageInfo.length = dockerIDInfo.length ∧
    dockerMemoryLimitInfo.length = dockerIDInfo.length ∧
    dockerMemoryInfo.length = dockerIDInfo.length
  someMacAddress : macAddressId ≠ []
  someLocation : locationInfo ≠ []
  someTimestamp : timestampInfo ≠ []

namespace Measurements

variable (measured : Measurements)

/-- The arguments of `data_to_json`. -/
def samples : Samples where
  cpuSourceAvailable := measured.cpuSourceAvailable.map .fin
  cpuMHz := measured.cpuMHz.map .fin
  cpuCores := measured.cpuCores.map .fin
  memoryTotalInfo := measured.memoryTotalInfo.map .fin
  memoryAvailableInfo := measured.memoryAvailableInfo.map .fin
  diskTotalInfo := measured.diskTotalInfo.map .fin
  diskAvailableInfo := measured.diskAvailableInfo.map .fin
  ethFirstInfo := measured.ethFirstInfo.map .fin
  ethSecondInfo := measured.ethSecondInfo.map .fin
  dockerIDInfo := measured.dockerIDInfo
  dockerCpuInfo := measured.dockerCpuInfo.map .fin
  dockerMemoryUsageInfo := measured.dockerMemoryUsageInfo.map .fin
  dockerMemoryLimitInfo := measured.dockerMemoryLimitInfo.map .fin
  dockerMemoryInfo := measured.dockerMemoryInfo.map .fin
  macAddressId := measured.macAddressId.map .fin
  locationInfo := measured.locationInfo
  timestampInfo := measured.timestampInfo

def mac : ℚ := measured.macAddressId.head measured.someMacAddress

def total : ℚ := measured.memoryTotalInfo.head measured.someMemory.1

def available : ℚ := measured.memoryAvailableInfo.head measured.someMemory.2

/-- The rates of the `k`-th interface. -/
def uploadRate (k : ℕ) : ℚ :=
  (measured.ethSecondInfo.getD (2 * k) 0 - measured.ethFirstInfo.getD (2 * k) 0) / 1024

def downloadRate (k : ℕ) : ℚ :=
  (measured.ethSecondInfo.getD (2 * k + 1) 0 - measured.ethFirstInfo.getD (2 * k + 1) 0) / 1024

end Measurements

/-- The whole part of a number, towards zero. -/
def truncate (value : ℚ) : ℤ :=
  value.num.tdiv value.den

/-! ## Rows -/

namespace Measurements

variable (measured : Measurements)

/-- The only row for table `serverinfo`. -/
def serverinfoRow : Row :=
  [("diskAvailable", .double (.fin measured.diskAvailableInfo.sum)),
    ("diskTotal", .double (.fin measured.diskTotalInfo.sum)),
    ("diskUsed", .double (.fin (1 - measured.diskAvailableInfo.sum / measured.diskTotalInfo.sum))),
    ("memoryAvailable", .double (.fin measured.available)),
    ("memoryTotal", .double (.fin measured.total)),
    ("memoryUsed", .double (.fin (1 - measured.available / measured.total))),
    ("networkDownloadRate", .double (.fin
      ((∑ k ∈ Finset.range measured.interfaces, measured.downloadRate k) / measured.interfaces))),
    ("networkUploadRate", .double (.fin
      ((∑ k ∈ Finset.range measured.interfaces, measured.uploadRate k) / measured.interfaces))),
    ("netCardNumber", .int measured.interfaces),
    ("location", .string (measured.locationInfo.head measured.someLocation)),
    ("timestamp", .string (measured.timestampInfo.head measured.someTimestamp))]

def cpuinfoRow (i : ℕ) : Row :=
  [("cpuUsed", .double (.fin (measured.cpuSourceAvailable.getD i 0))),
    ("cpuMhz", .double (.fin (measured.cpuMHz.getD i 0))),
    ("cpuCores", .int (truncate (measured.cpuCores.getD i 0))), ("cpuId", .int i)]

def dockerinfoRow (j : ℕ) : Row :=
  [("cpuUsage", .double (.fin (measured.dockerCpuInfo.getD j 0))),
    ("memoryUsed", .double (.fin (measured.dockerMemoryInfo.getD j 0))),
    ("memoryUsage", .double (.fin (measured.dockerMemoryUsageInfo.getD j 0))),
    ("memoryLimit", .double (.fin (measured.dockerMemoryLimitInfo.getD j 0))),
    ("dockerId", .string (measured.dockerIDInfo.getD j ""))]

end Measurements

/-! ## The document -/

theorem head_map_fin {values : List ℚ} (nonempty : values ≠ []) :
    (values.map Double.fin)[0]? = some (.fin (values.head nonempty)) := by
  rw [← List.head?_eq_getElem?, List.head?_map, List.head?_eq_some_head nonempty]
  rfl

namespace Measurements

variable (measured : Measurements)

def cpuEntry (i : ℕ) : Json :=
  (((Json.null.set "id" (.num i)).set "cpu source"
    (.num (.fin (measured.cpuSourceAvailable.getD i 0)))).set "cpu Mhz"
    (.num (.fin (measured.cpuMHz.getD i 0)))).set "cpu Cores"
    (.num (.fin (measured.cpuCores.getD i 0)))

def dockerEntry (j : ℕ) : Json :=
  ((((Json.null.set "id" (.str (measured.dockerIDInfo.getD j ""))).set "cpu"
    (.num (.fin (measured.dockerCpuInfo.getD j 0)))).set "memory usage"
    (.num (.fin (measured.dockerMemoryUsageInfo.getD j 0)))).set "memory limit"
    (.num (.fin (measured.dockerMemoryLimitInfo.getD j 0)))).set "memory"
    (.num (.fin (measured.dockerMemoryInfo.getD j 0)))

def memoryEntry : Json :=
  ((Json.null.set "total" (.num (.fin measured.total))).set "available"
    (.num (.fin measured.available))).set "used"
    (.num (.fin (1 - measured.available / measured.total)))

def diskEntry : Json :=
  ((Json.null.set "total" (.num (.fin measured.diskTotalInfo.sum))).set "available"
    (.num (.fin measured.diskAvailableInfo.sum))).set "used"
    (.num (.fin (1 - measured.diskAvailableInfo.sum / measured.diskTotalInfo.sum)))

def networkEntry (k : ℕ) : Json :=
  ((Json.null.set "id" (.num k)).set "upload rate"
    (.num (.fin (measured.uploadRate k)))).set "download rate"
    (.num (.fin (measured.downloadRate k)))

variable {measured}

theorem samples_cpu {i : ℕ} (inRange : i < measured.cpuMHz.length) :
    measured.samples.cpu i = some (measured.cpuEntry i) := by
  have source := getElem?_map_fin (inRange.trans_eq measured.cpuLengths.1.symm)
  have cores := getElem?_map_fin (inRange.trans_eq measured.cpuLengths.2.symm)
  simp only [Samples.cpu, samples, source, getElem?_map_fin inRange, cores]
  rfl

theorem samples_docker {j : ℕ} (inRange : j < measured.dockerIDInfo.length) :
    measured.samples.docker j = some (measured.dockerEntry j) := by
  rcases measured.dockerLengths with ⟨cpuLength, usageLength, limitLength, memoryLength⟩
  have id : measured.dockerIDInfo[j]? = some (measured.dockerIDInfo.getD j "") := by
    simp [inRange]
  have cpu := getElem?_map_fin (inRange.trans_eq cpuLength.symm)
  have usage := getElem?_map_fin (inRange.trans_eq usageLength.symm)
  have limit := getElem?_map_fin (inRange.trans_eq limitLength.symm)
  have memory := getElem?_map_fin (inRange.trans_eq memoryLength.symm)
  simp only [Samples.docker, samples, id, cpu, usage, limit, memory]
  rfl

theorem samples_memory : measured.samples.memory = some measured.memoryEntry := by
  have used : (1 : Double) - .fin measured.available / .fin measured.total =
      .fin (1 - measured.available / measured.total) := by
    have positive : measured.total ≠ 0 := ne_of_gt measured.memoryTotal
    rw [Double.fin_div_fin positive, Double.one_def, Double.fin_sub_fin]
  simp only [Samples.memory, samples, head_map_fin measured.someMemory.1,
    head_map_fin measured.someMemory.2]
  exact congrArg (fun used => some ((((Json.null.set "total" _).set "available" _).set "used"
    (.num used)))) used

theorem samples_disk : measured.samples.disk = some measured.diskEntry := by
  have positive : measured.diskTotalInfo.sum ≠ 0 := ne_of_gt measured.diskTotal
  have used : (1 : Double) - .fin measured.diskAvailableInfo.sum / .fin measured.diskTotalInfo.sum =
      .fin (1 - measured.diskAvailableInfo.sum / measured.diskTotalInfo.sum) := by
    rw [Double.fin_div_fin positive, Double.one_def, Double.fin_sub_fin]
  have sums : measured.samples.diskSums = _ := diskSums_of_fin rfl rfl measured.diskLengths
  simp only [Samples.disk, sums]
  exact congrArg (fun used => some ((((Json.null.set "total" _).set "available" _).set "used"
    (.num used)))) used

theorem samples_network {k : ℕ} (inRange : k < measured.interfaces) :
    measured.samples.network (2 * k) = some (measured.networkEntry k) := by
  have second : 2 * k + 1 < measured.ethSecondInfo.length := by
    have := measured.counters.2
    omega
  have first : 2 * k + 1 < measured.ethFirstInfo.length := by
    have := measured.counters.1
    omega
  have index : (2 * k + 1) / 2 = k := by omega
  have kilo : (1024 : ℚ) ≠ 0 := by decide
  simp only [Samples.network, samples, getElem?_map_fin first, getElem?_map_fin second,
    getElem?_map_fin (Nat.lt_of_succ_lt first), getElem?_map_fin (Nat.lt_of_succ_lt second),
    index, Double.fin_sub_fin, Option.bind_eq_bind, Option.bind_some, Option.pure_def,
    Double.fin_div_fin kilo]
  rfl

theorem samples_macAddress : measured.samples.macAddress =
    some (Json.null.set "id" (.num (.fin measured.mac))) := by
  simp only [Samples.macAddress, samples, head_map_fin measured.someMacAddress]
  rfl

theorem samples_location : measured.samples.location =
    some (Json.null.set "address" (.str (measured.locationInfo.head measured.someLocation))) := by
  simp only [Samples.location, samples, ← List.head?_eq_getElem?,
    List.head?_eq_some_head measured.someLocation]
  rfl

theorem samples_timestamp : measured.samples.timestamp =
    some (Json.null.set "time" (.str (measured.timestampInfo.head measured.someTimestamp))) := by
  simp only [Samples.timestamp, samples, ← List.head?_eq_getElem?,
    List.head?_eq_some_head measured.someTimestamp]
  rfl

end Measurements

theorem appendAll_eq {key : String} {entry : ℕ → Option Json} {indices : List ℕ}
    {built : ℕ → Json} (each : ∀ i ∈ indices, entry i = some (built i)) (root : Json) :
    appendAll key entry indices root =
      some (indices.foldl (fun root i => root.appendTo key (built i)) root) := by
  induction indices generalizing root with
  | nil => rfl
  | cons i indices ih =>
      rw [appendAll, List.foldlM_cons, each i List.mem_cons_self]
      exact ih (fun j mem => each j (List.mem_cons_of_mem _ mem)) _

theorem Entries.eq_map {entry : ℕ → Option Json} {indices : List ℕ} {entries : List Json}
    (built : Entries entry indices entries) {same : ℕ → Json}
    (each : ∀ i ∈ indices, entry i = some (same i)) : entries = indices.map same := by
  induction built with
  | nil => rfl
  | @cons i added indices entries first rest ih =>
      rw [each i List.mem_cons_self, Option.some_inj] at first
      rw [List.map_cons, first, ih fun j mem => each j (List.mem_cons_of_mem _ mem)]

namespace Measurements

variable {measured : Measurements}

theorem cpus_each (measured : Measurements) :
    ∀ i ∈ List.range measured.samples.cpuMHz.length,
      measured.samples.cpu i = some (measured.cpuEntry i) := by
  intro i mem
  apply samples_cpu
  simpa [samples] using mem

theorem dockers_each (measured : Measurements) :
    ∀ j ∈ List.range measured.samples.dockerIDInfo.length,
      measured.samples.docker j = some (measured.dockerEntry j) := by
  intro j mem
  apply samples_docker
  simpa [samples] using mem

theorem networks_each (measured : Measurements) :
    ∀ i ∈ evenIndices measured.samples.ethFirstInfo.length,
      measured.samples.network i = some (measured.networkEntry (i / 2)) := by
  have length : measured.samples.ethFirstInfo.length = 2 * measured.interfaces :=
    (List.length_map _).trans measured.counters.1
  intro i mem
  rw [length, evenIndices_double] at mem
  rcases List.mem_map.mp mem with ⟨k, inRange, rfl⟩
  rw [Nat.mul_div_cancel_left k (by decide)]
  exact samples_network (List.mem_range.mp inRange)

theorem exists_document (measured : Measurements) :
    ∃ document, dataToJson measured.samples = some document := by
  simp only [dataToJson, appendAll_eq measured.cpus_each, appendAll_eq measured.dockers_each,
    appendAll_eq measured.networks_each, samples_memory, samples_disk, samples_macAddress,
    samples_location, samples_timestamp, Option.bind_eq_bind, Option.bind_some, Option.pure_def]
  exact ⟨_, rfl⟩

/-! ## What the server reads -/

variable {gson : Gson}

theorem elementAt_range {entry : ℕ → Json} {n i : ℕ} (inRange : i < n) :
    Gson.elementAt ((List.range n).map entry) i = .ok (entry i) := by
  simp [Gson.elementAt, inRange]

theorem get_entry {entry value : Json} {members : List (String × Json)} {key : String}
    (isObject : entry = .obj members) (found : entry.member? key = some value) :
    Gson.get members key = .ok value :=
  Gson.get_of_member? (isObject ▸ found)

theorem truncate_natCast (n : ℕ) : truncate n = n := by
  simp [truncate]

theorem cpuinfoValues_eq (truncates : ∀ value, gson.intOfNumber (.fin value) = truncate value)
    {i : ℕ} (inRange : i < measured.cpuMHz.length) :
    Server.cpuinfoValues gson ((List.range measured.cpuMHz.length).map measured.cpuEntry) i =
      .ok (measured.cpuinfoRow i) := by
  have isObject : ∃ members, measured.cpuEntry i = .obj members := Json.exists_obj_set _ _ _
  rcases isObject with ⟨members, isObject⟩
  have source : Gson.get members "cpu source" =
      .ok (.num (.fin (measured.cpuSourceAvailable.getD i 0))) :=
    get_entry isObject (by simp [cpuEntry, Json.member?_set])
  have mhz : Gson.get members "cpu Mhz" = .ok (.num (.fin (measured.cpuMHz.getD i 0))) :=
    get_entry isObject (by simp [cpuEntry, Json.member?_set])
  have cores : Gson.get members "cpu Cores" = .ok (.num (.fin (measured.cpuCores.getD i 0))) :=
    get_entry isObject (by simp [cpuEntry, Json.member?_set])
  have id : Gson.get members "id" = .ok (.num (.fin i)) :=
    get_entry isObject (by simp [cpuEntry, Json.member?_set])
  simp only [Server.cpuinfoValues, elementAt_range inRange, isObject, Server.ok_bind,
    Gson.getAsJsonObject, source, mhz, cores, id, Gson.getAsDouble_num, Gson.getAsInt_num,
    truncates, truncate_natCast]
  rfl

theorem dockerinfoValues_eq {j : ℕ} (inRange : j < measured.dockerIDInfo.length) :
    Server.dockerinfoValues gson
      ((List.range measured.dockerIDInfo.length).map measured.dockerEntry) j =
      .ok (measured.dockerinfoRow j) := by
  have isObject : ∃ members, measured.dockerEntry j = .obj members := Json.exists_obj_set _ _ _
  rcases isObject with ⟨members, isObject⟩
  have cpu : Gson.get members "cpu" = .ok (.num (.fin (measured.dockerCpuInfo.getD j 0))) :=
    get_entry isObject (by simp [dockerEntry, Json.member?_set])
  have memory : Gson.get members "memory" =
      .ok (.num (.fin (measured.dockerMemoryInfo.getD j 0))) :=
    get_entry isObject (by simp [dockerEntry, Json.member?_set])
  have usage : Gson.get members "memory usage" =
      .ok (.num (.fin (measured.dockerMemoryUsageInfo.getD j 0))) :=
    get_entry isObject (by simp [dockerEntry, Json.member?_set])
  have limit : Gson.get members "memory limit" =
      .ok (.num (.fin (measured.dockerMemoryLimitInfo.getD j 0))) :=
    get_entry isObject (by simp [dockerEntry, Json.member?_set])
  have id : Gson.get members "id" = .ok (.str (measured.dockerIDInfo.getD j "")) :=
    get_entry isObject (by simp [dockerEntry, Json.member?_set])
  simp only [Server.dockerinfoValues, elementAt_range inRange, isObject, Server.ok_bind,
    Gson.getAsJsonObject, cpu, memory, usage, limit, id, Gson.getAsDouble_num,
    Gson.getAsString_str]
  rfl

theorem networkRates_range {n : ℕ} (inRange : n ≤ measured.interfaces) :
    (List.range n).foldlM
      (fun ((downloadRate, uploadRate) : Double × Double) j => do
        let networkObject ← Gson.getAsJsonObject
          (← Gson.elementAt ((List.range measured.interfaces).map measured.networkEntry) j)
        let download ← gson.getAsDouble (← Gson.get networkObject "download rate")
        let upload ← gson.getAsDouble (← Gson.get networkObject "upload rate")
        return (downloadRate + download, uploadRate + upload))
      (0, 0) = Except.ok (.fin (∑ k ∈ Finset.range n, measured.downloadRate k),
        .fin (∑ k ∈ Finset.range n, measured.uploadRate k)) := by
  refine foldlM_range (fun i => (Double.fin (∑ k ∈ Finset.range i, measured.downloadRate k),
    Double.fin (∑ k ∈ Finset.range i, measured.uploadRate k))) ?_
  intro i less
  have isObject : ∃ members, measured.networkEntry i = .obj members := Json.exists_obj_set _ _ _
  rcases isObject with ⟨members, isObject⟩
  have download : Gson.get members "download rate" = .ok (.num (.fin (measured.downloadRate i))) :=
    get_entry isObject (by simp [networkEntry, Json.member?_set])
  have upload : Gson.get members "upload rate" = .ok (.num (.fin (measured.uploadRate i))) :=
    get_entry isObject (by simp [networkEntry, Json.member?_set])
  simp only [elementAt_range (less.trans_le inRange), isObject, Server.ok_bind,
    Gson.getAsJsonObject, download, upload, Gson.getAsDouble_num, Double.fin_add_fin,
    sum_range_succ]

theorem div_interfaces (sum : ℚ) : Double.fin sum / ((measured.interfaces : ℕ) : Double) =
    .fin (sum / measured.interfaces) := by
  have positive : (measured.interfaces : ℚ) ≠ 0 :=
    Nat.cast_ne_zero.mpr (Nat.ne_of_gt measured.someInterface)
  rw [Double.natCast_def, Double.fin_div_fin positive]

def locationEntry (measured : Measurements) : Json :=
  Json.null.set "address" (.str (measured.locationInfo.head measured.someLocation))

def timestampEntry (measured : Measurements) : Json :=
  Json.null.set "time" (.str (measured.timestampInfo.head measured.someTimestamp))

theorem serverinfoValues_eq :
    Server.serverinfoValues gson [measured.diskEntry] [measured.memoryEntry]
      ((List.range measured.interfaces).map measured.networkEntry) [measured.locationEntry]
      [measured.timestampEntry] 0 = .ok measured.serverinfoRow := by
  have rates : Server.networkRates gson
      ((List.range measured.interfaces).map measured.networkEntry) =
      .ok (.fin (∑ k ∈ Finset.range measured.interfaces, measured.downloadRate k),
        .fin (∑ k ∈ Finset.range measured.interfaces, measured.uploadRate k)) := by
    rw [Server.networkRates, List.length_map, List.length_range]
    exact networkRates_range le_rfl
  have diskObject : ∃ disk, measured.diskEntry = .obj disk := Json.exists_obj_set _ _ _
  have memoryObject : ∃ memory, measured.memoryEntry = .obj memory := Json.exists_obj_set _ _ _
  have locationObject : ∃ location, measured.locationEntry = .obj location :=
    Json.exists_obj_set _ _ _
  have timestampObject : ∃ timestamp, measured.timestampEntry = .obj timestamp :=
    Json.exists_obj_set _ _ _
  rcases diskObject with ⟨disk, isDisk⟩
  rcases memoryObject with ⟨memory, isMemory⟩
  rcases locationObject with ⟨location, isLocation⟩
  rcases timestampObject with ⟨timestamp, isTimestamp⟩
  have diskAvailable : Gson.get disk "available" =
      .ok (.num (.fin measured.diskAvailableInfo.sum)) :=
    get_entry isDisk (by simp [diskEntry, Json.member?_set])
  have diskTotal : Gson.get disk "total" = .ok (.num (.fin measured.diskTotalInfo.sum)) :=
    get_entry isDisk (by simp [diskEntry, Json.member?_set])
  have diskUsed : Gson.get disk "used" =
      .ok (.num (.fin (1 - measured.diskAvailableInfo.sum / measured.diskTotalInfo.sum))) :=
    get_entry isDisk (by simp [diskEntry, Json.member?_set])
  have memoryAvailable : Gson.get memory "available" = .ok (.num (.fin measured.available)) :=
    get_entry isMemory (by simp [memoryEntry, Json.member?_set])
  have memoryTotal : Gson.get memory "total" = .ok (.num (.fin measured.total)) :=
    get_entry isMemory (by simp [memoryEntry, Json.member?_set])
  have memoryUsed : Gson.get memory "used" =
      .ok (.num (.fin (1 - measured.available / measured.total))) :=
    get_entry isMemory (by simp [memoryEntry, Json.member?_set])
  have address : Gson.get location "address" =
      .ok (.str (measured.locationInfo.head measured.someLocation)) :=
    get_entry isLocation (by simp [locationEntry, Json.member?_set])
  have time : Gson.get timestamp "time" =
      .ok (.str (measured.timestampInfo.head measured.someTimestamp)) :=
    get_entry isTimestamp (by simp [timestampEntry, Json.member?_set])
  have only (entry : Json) : Gson.elementAt [entry] 0 = .ok entry := rfl
  simp only [Server.serverinfoValues, only, isDisk, isMemory, isLocation, isTimestamp,
    Server.ok_bind, Gson.getAsJsonObject, diskAvailable, diskTotal, diskUsed, memoryAvailable,
    memoryTotal, memoryUsed, address, time, rates, Gson.getAsDouble_num, Gson.getAsString_str,
    List.length_map, List.length_range, div_interfaces]
  rfl

/-- The effects of a stored document. -/
def storedEffects (measured : Measurements) : List Server.Effect :=
  insertion .serverinfo (.fin measured.mac) measured.serverinfoRow ::
    ((List.range measured.cpuMHz.length).map fun i =>
      insertion .cpuinfo (.fin measured.mac) (measured.cpuinfoRow i)) ++
    (List.range measured.dockerIDInfo.length).map fun j =>
      insertion .dockerinfo (.fin measured.mac) (measured.dockerinfoRow j)

theorem cpuinfoPlan_eq (truncates : ∀ value, gson.intOfNumber (.fin value) = truncate value) :
    Server.cpuinfoPlan gson (.fin measured.mac)
        ((List.range measured.cpuMHz.length).map measured.cpuEntry) =
      (List.range measured.cpuMHz.length).map fun i =>
        .ok (insertion .cpuinfo (.fin measured.mac) (measured.cpuinfoRow i)) := by
  rw [Server.cpuinfoPlan, List.length_map, List.length_range]
  apply List.map_congr_left
  intro i mem
  rw [cpuinfoValues_eq truncates (List.mem_range.mp mem)]
  rfl

theorem dockerinfoPlan_eq {members : List (String × Json)}
    (found : Section (.obj members) "docker info"
      ((List.range measured.dockerIDInfo.length).map measured.dockerEntry)) :
    Server.dockerinfoPlan gson members (.fin measured.mac) =
      (List.range measured.dockerIDInfo.length).map fun j =>
        .ok (insertion .dockerinfo (.fin measured.mac) (measured.dockerinfoRow j)) := by
  by_cases none : (List.range measured.dockerIDInfo.length).map measured.dockerEntry = []
  · rw [Section, Json.member?_obj, if_pos none] at found
    rw [List.map_eq_nil_iff] at none
    simp [Server.dockerinfoPlan, Gson.has, found, none]
  · have read : Server.readDockerArray members =
        .ok ((List.range measured.dockerIDInfo.length).map measured.dockerEntry) := by
      rw [Server.readDockerArray, getArray_of_section found none]
      rfl
    rw [Section, Json.member?_obj, if_neg none] at found
    rw [Server.dockerinfoPlan, if_pos (by rw [Gson.has, found]; rfl), read, Plan.afterReading,
      List.length_map, List.length_range]
    apply List.map_congr_left
    intro j mem
    rw [dockerinfoValues_eq (List.mem_range.mp mem)]
    rfl

theorem cpus_eq {cpus : List Json}
    (built : Entries measured.samples.cpu (List.range measured.samples.cpuMHz.length) cpus) :
    cpus = (List.range measured.cpuMHz.length).map measured.cpuEntry := by
  have length : measured.samples.cpuMHz.length = measured.cpuMHz.length := List.length_map _
  rw [built.eq_map measured.cpus_each, length]

theorem networks_eq {networks : List Json}
    (built : Entries measured.samples.network (evenIndices measured.samples.ethFirstInfo.length)
      networks) :
    networks = (List.range measured.interfaces).map measured.networkEntry := by
  have length : measured.samples.ethFirstInfo.length = 2 * measured.interfaces :=
    (List.length_map _).trans measured.counters.1
  rw [built.eq_map measured.networks_each, length, evenIndices_double, List.map_map]
  apply List.map_congr_left
  intro k _
  rw [Function.comp_apply, Nat.mul_div_cancel_left k (by decide)]

theorem plan_eq {members : List (String × Json)}
    (truncates : ∀ value, gson.intOfNumber (.fin value) = truncate value)
    (produced : dataToJson measured.samples = some (.obj members)) :
    Server.plan gson members (.fin measured.mac) = measured.storedEffects.map .ok := by
  have built := dataToJson_built produced
  rcases built.cpu with ⟨cpus, cpusBuilt, cpuSection⟩
  rcases built.docker with ⟨dockers, dockersBuilt, dockerSection⟩
  rcases built.memory with ⟨memory, memoryBuilt, memorySection⟩
  rcases built.disk with ⟨disk, diskBuilt, diskSection⟩
  rcases built.network with ⟨networks, networksBuilt, networkSection⟩
  rcases built.location with ⟨location, locationBuilt, locationSection⟩
  rcases built.timestamp with ⟨timestamp, timestampBuilt, timestampSection⟩
  obtain rfl := cpus_eq cpusBuilt
  obtain rfl := networks_eq networksBuilt
  obtain rfl : dockers = _ := dockersBuilt.eq_map measured.dockers_each
  obtain rfl : measured.memoryEntry = memory :=
    Option.some_inj.mp (samples_memory.symm.trans memoryBuilt)
  obtain rfl : measured.diskEntry = disk := Option.some_inj.mp (samples_disk.symm.trans diskBuilt)
  obtain rfl : measured.locationEntry = location :=
    Option.some_inj.mp (samples_location.symm.trans locationBuilt)
  obtain rfl : measured.timestampEntry = timestamp :=
    Option.some_inj.mp (samples_timestamp.symm.trans timestampBuilt)
  have someCpu : (List.range measured.cpuMHz.length).map measured.cpuEntry ≠ [] := by
    simpa using measured.someCpu
  have someNetwork : (List.range measured.interfaces).map measured.networkEntry ≠ [] := by
    simpa using Nat.ne_of_gt measured.someInterface
  have read : Server.readSections members =
      .ok ⟨(List.range measured.cpuMHz.length).map measured.cpuEntry, [measured.memoryEntry],
        [measured.diskEntry], (List.range measured.interfaces).map measured.networkEntry,
        [measured.locationEntry], [measured.timestampEntry]⟩ := by
    rw [Server.readSections, getArray_of_section cpuSection someCpu,
      getArray_of_section memorySection (by simp), getArray_of_section diskSection (by simp),
      getArray_of_section networkSection someNetwork,
      getArray_of_section locationSection (by simp),
      getArray_of_section timestampSection (by simp)]
    rfl
  have serverinfo : Server.serverinfoPlan gson (.fin measured.mac)
      ⟨(List.range measured.cpuMHz.length).map measured.cpuEntry, [measured.memoryEntry],
        [measured.diskEntry], (List.range measured.interfaces).map measured.networkEntry,
        [measured.locationEntry], [measured.timestampEntry]⟩ =
      [.ok (insertion .serverinfo (.fin measured.mac) measured.serverinfoRow)] := by
    simp [Server.serverinfoPlan, serverinfoValues_eq]
  rw [Server.plan, read, Plan.afterReading, serverinfo, cpuinfoPlan_eq truncates,
    dockerinfoPlan_eq dockerSection]
  simp [storedEffects, Function.comp_def]

theorem readBody_eq {data : String} {members : List (String × Json)}
    (parsed : gson.parse data = .ok (.obj members))
    (produced : dataToJson measured.samples = some (.obj members)) :
    Server.readBody gson data = .ok (members, .fin measured.mac) := by
  rcases (dataToJson_built produced).macAddress with ⟨entry, entryBuilt, found⟩
  rw [samples_macAddress, Option.some_inj] at entryBuilt
  have isObject : ∃ fields, entry = .obj fields := entryBuilt ▸ Json.exists_obj_set _ _ _
  rcases isObject with ⟨fields, isObject⟩
  have id : Gson.get fields "id" = .ok (.num (.fin measured.mac)) :=
    get_entry isObject (by simp [← entryBuilt, Json.member?_set])
  have first : Gson.elementAt [Json.obj fields] 0 = .ok (.obj fields) := rfl
  rw [isObject] at found
  simp only [Server.readBody, parsed, Server.ok_bind, Gson.getAsJsonObject, Server.readMacAddress,
    getArray_of_section found (List.cons_ne_nil _ _), Gson.getAsJsonArray, first, id,
    Gson.getAsDouble_num]
  rfl

end Measurements

/-- The document of the samples exists, and storing it deletes the machine's rows and
inserts one row for the machine, one for each cpu and one for each container. -/
theorem sampled_is_stored (measured : Measurements) :
    ∃ document, dataToJson measured.samples = some document ∧
      ∀ (gson : Gson) (data : String) (connection : ℕ) (events : List jdbc.Event)
        (result : Except JavaException Double),
        gson.parse data = .ok document →
        (∀ value, gson.intOfNumber (.fin value) = truncate value) →
        (insertData gson (some connection) data).run.Follows events (.done result) →
        events.any refused = false →
        result = .ok (.fin measured.mac) ∧
          executedEffects events = deletions (.fin measured.mac) ++
            (insertion .serverinfo (.fin measured.mac) measured.serverinfoRow ::
              ((List.range measured.cpuMHz.length).map fun i =>
                insertion .cpuinfo (.fin measured.mac) (measured.cpuinfoRow i)) ++
              (List.range measured.dockerIDInfo.length).map fun j =>
                insertion .dockerinfo (.fin measured.mac) (measured.dockerinfoRow j)) := by
  rcases measured.exists_document with ⟨document, produced⟩
  refine ⟨document, produced, ?_⟩
  intro gson data connection events result parsed truncates follows accepted
  have built := dataToJson_built produced
  rcases built.isObject with ⟨members, rfl⟩
  have complete : Plan.Complete (Server.plan gson members (.fin measured.mac)) := by
    rw [Measurements.plan_eq truncates produced]
    exact Plan.complete_map_ok _
  rcases processed_of_complete (Measurements.readBody_eq parsed produced) follows accepted complete
    with ⟨returned, effects⟩
  rw [Measurements.plan_eq truncates produced, Plan.readable_map_ok] at effects
  exact ⟨returned, effects⟩

/-! ### A machine with a cpu, an interface and a container -/

def labMeasurements : Measurements where
  cpuSourceAvailable := [97]
  cpuMHz := [2400]
  cpuCores := [4]
  memoryTotalInfo := [4]
  memoryAvailableInfo := [1]
  diskTotalInfo := [8, 8]
  diskAvailableInfo := [2, 4]
  ethFirstInfo := [0, 1024]
  ethSecondInfo := [2048, 1024]
  dockerIDInfo := ["c0ffee"]
  dockerCpuInfo := [3]
  dockerMemoryUsageInfo := [512]
  dockerMemoryLimitInfo := [1024]
  dockerMemoryInfo := [50]
  macAddressId := [7]
  locationInfo := ["lab"]
  timestampInfo := ["noon"]
  interfaces := 1
  someCpu := by simp
  cpuLengths := by simp
  someMemory := by simp
  memoryTotal := by decide +kernel
  diskLengths := rfl
  diskTotal := by decide +kernel
  someInterface := by decide
  counters := by simp
  dockerLengths := by simp
  someMacAddress := by simp
  someLocation := by simp
  someTimestamp := by simp

def labDocument : Json :=
  (dataToJson labMeasurements.samples).getD .null

/-- A library which finds the document in every body. -/
def labGson : Gson :=
  { Server.constantGson labDocument with
    intOfNumber := fun
      | .fin value => truncate value
      | _ => 0 }

def labEvents : List jdbc.Event :=
  Program.transcript (Server.answering fun _ => false) 0 (insertData labGson (some 0) "").run

theorem sampled_is_stored_lab :
    executedEffects labEvents = deletions (.fin labMeasurements.mac) ++
      labMeasurements.storedEffects := by
  rcases sampled_is_stored labMeasurements with ⟨document, produced, stored⟩
  have isDocument : labDocument = document := by
    rw [labDocument, produced, Option.getD_some]
  have follows : (insertData labGson (some 0) "").run.Follows labEvents (.done (.ok (.fin 7))) :=
    Program.follows_transcript (by decide +kernel)
  exact (stored labGson "" 0 labEvents _ (congrArg Except.ok isDocument) (fun _ => rfl) follows
    (by decide +kernel)).2

end HumanMachine.Client
