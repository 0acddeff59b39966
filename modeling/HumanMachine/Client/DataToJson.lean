import HumanMachine.Client.Monitor
import Mathlib.Data.List.Forall2
import Mathlib.Tactic.Tauto

/-!
# Building the document: `data_to_json`

The vectors are lists. Reading a vector outside its bounds is undefined in C++;
the model has no document then.
-/

namespace HumanMachine.Client

/-- The arguments of `data_to_json`. -/
structure Samples where
  cpuSourceAvailable : List Double
  cpuMHz : List Double
  cpuCores : List Double
  memoryTotalInfo : List Double
  memoryAvailableInfo : List Double
  diskTotalInfo : List Double
  diskAvailableInfo : List Double
  ethFirstInfo : List Double
  ethSecondInfo : List Double
  dockerIDInfo : List String
  dockerCpuInfo : List Double
  dockerMemoryUsageInfo : List Double
  dockerMemoryLimitInfo : List Double
  dockerMemoryInfo : List Double
  macAddressId : List Double
  locationInfo : List String
  timestampInfo : List String

namespace Samples

variable (samples : Samples)

def cpu (i : ℕ) : Option Json := do
  let cpu := Json.null.set "id" (.num i)
  let cpu := cpu.set "cpu source" (.num (← samples.cpuSourceAvailable[i]?))
  let cpu := cpu.set "cpu Mhz" (.num (← samples.cpuMHz[i]?))
  return cpu.set "cpu Cores" (.num (← samples.cpuCores[i]?))

def docker (i : ℕ) : Option Json := do
  let docker := Json.null.set "id" (.str (← samples.dockerIDInfo[i]?))
  let docker := docker.set "cpu" (.num (← samples.dockerCpuInfo[i]?))
  let docker := docker.set "memory usage" (.num (← samples.dockerMemoryUsageInfo[i]?))
  let docker := docker.set "memory limit" (.num (← samples.dockerMemoryLimitInfo[i]?))
  return docker.set "memory" (.num (← samples.dockerMemoryInfo[i]?))

def memory : Option Json := do
  let total ← samples.memoryTotalInfo[0]?
  let available ← samples.memoryAvailableInfo[0]?
  let memory := Json.null.set "total" (.num total)
  let memory := memory.set "available" (.num available)
  return memory.set "used" (.num (1 - available / total))

/-- The sums `diskTotal` and `diskAvailable`. -/
def diskSums : Option (Double × Double) :=
  (List.range samples.diskTotalInfo.length).foldlM
    (fun (diskTotal, diskAvailable) i => do
      return (diskTotal + (← samples.diskTotalInfo[i]?),
        diskAvailable + (← samples.diskAvailableInfo[i]?)))
    (0, 0)

def disk : Option Json := do
  let (diskTotal, diskAvailable) ← samples.diskSums
  let disk := Json.null.set "total" (.num diskTotal)
  let disk := disk.set "available" (.num diskAvailable)
  return disk.set "used" (.num (1 - diskAvailable / diskTotal))

def network (i : ℕ) : Option Json := do
  let network := Json.null.set "id" (.num ((i + 1) / 2 : ℕ))
  let upload := (← samples.ethSecondInfo[i]?) - (← samples.ethFirstInfo[i]?)
  let download := (← samples.ethSecondInfo[i + 1]?) - (← samples.ethFirstInfo[i + 1]?)
  let network := network.set "upload rate" (.num (upload / .fin 1024))
  return network.set "download rate" (.num (download / .fin 1024))

def macAddress : Option Json := do
  return Json.null.set "id" (.num (← samples.macAddressId[0]?))

def location : Option Json := do
  return Json.null.set "address" (.str (← samples.locationInfo[0]?))

def timestamp : Option Json := do
  return Json.null.set "time" (.str (← samples.timestampInfo[0]?))

end Samples

/-- A loop which appends an entry for every index. -/
def appendAll (key : String) (entry : ℕ → Option Json) (indices : List ℕ) (root : Json) :
    Option Json :=
  indices.foldlM (fun root i => do return root.appendTo key (← entry i)) root

/-- The indices of `for(int i = 0; i < size; i += 2)`. -/
def evenIndices (size : ℕ) : List ℕ :=
  (List.range ((size + 1) / 2)).map (2 * ·)

def dataToJson (samples : Samples) : Option Json := do
  let root ← appendAll "cpu info" samples.cpu (List.range samples.cpuMHz.length) .null
  let root ← appendAll "docker info" samples.docker (List.range samples.dockerIDInfo.length) root
  let root := root.appendTo "memory info" (← samples.memory)
  let root := root.appendTo "disk info" (← samples.disk)
  let root ← appendAll "network info" samples.network (evenIndices samples.ethFirstInfo.length) root
  let root := root.appendTo "mac address info" (← samples.macAddress)
  let root := root.appendTo "location info" (← samples.location)
  return root.appendTo "timestamp info" (← samples.timestamp)

/-- A loop over an index which passes through given states. -/
theorem foldlM_range {m : Type → Type} [Monad m] [LawfulMonad m] {σ : Type} {step : σ → ℕ → m σ}
    (state : ℕ → σ) {n : ℕ} (each : ∀ i < n, step (state i) i = pure (state (i + 1))) :
    (List.range n).foldlM step (state 0) = pure (state n) := by
  induction n with
  | zero => rfl
  | succ n ih =>
      rw [List.range_succ, List.foldlM_append, ih fun i less => each i (Nat.lt_succ_of_lt less)]
      simp [each n (Nat.lt_succ_self n)]

theorem evenIndices_double (n : ℕ) : evenIndices (2 * n) = (List.range n).map (2 * ·) := by
  have half : (2 * n + 1) / 2 = n := by omega
  rw [evenIndices, half]

theorem appendAll_cons {key : String} {entry : ℕ → Option Json} {i : ℕ} {indices : List ℕ}
    {root after : Json} (appended : appendAll key entry (i :: indices) root = some after) :
    ∃ added, entry i = some added ∧
      appendAll key entry indices (root.appendTo key added) = some after := by
  rw [appendAll, List.foldlM_cons] at appended
  rcases Option.bind_eq_some_iff.mp appended with ⟨next, step, rest⟩
  rcases Option.bind_eq_some_iff.mp step with ⟨added, built, same⟩
  cases same
  exact ⟨added, built, rest⟩

/-! ## The sections of the document -/

/-- The entries which a loop builds for its indices. -/
def Entries (entry : ℕ → Option Json) (indices : List ℕ) (entries : List Json) : Prop :=
  List.Forall₂ (fun i added => entry i = some added) indices entries

theorem Entries.forall_mem {entry : ℕ → Option Json} {indices : List ℕ} {entries : List Json}
    (built : Entries entry indices entries) {P : Json → Prop}
    (each : ∀ i added, entry i = some added → P added) : ∀ added ∈ entries, P added := by
  induction built with
  | nil => simp
  | cons built rest ih => simpa using ⟨each _ _ built, ih⟩

theorem Entries.eq_nil_iff {entry : ℕ → Option Json} {indices : List ℕ} {entries : List Json}
    (built : Entries entry indices entries) : entries = [] ↔ indices = [] := by
  rw [← List.length_eq_zero_iff, ← List.length_eq_zero_iff, built.length_eq]

theorem Entries.entry_eq {entry : ℕ → Option Json} {indices : List ℕ} {entries : List Json}
    (built : Entries entry indices entries) {k i : ℕ} {added : Json} (index : indices[k]? = some i)
    (listed : entries[k]? = some added) : entry i = some added := by
  induction built generalizing k with
  | nil => simp at index
  | cons first rest ih =>
      cases k with
      | zero =>
          simp only [List.getElem?_cons_zero, Option.some.injEq] at index listed
          rw [← index, ← listed]
          exact first
      | succ k => exact ih index listed

theorem Entries.getElem?_eq {entry : ℕ → Option Json} {indices : List ℕ} {entries : List Json}
    (built : Entries entry indices entries) {k i : ℕ} {added : Json} (index : indices[k]? = some i)
    (is : entry i = some added) : entries[k]? = some added := by
  have within : k < entries.length := built.length_eq ▸ (List.getElem?_eq_some_iff.mp index).1
  have listed : entries[k]? = some entries[k] := List.getElem?_eq_getElem within
  rwa [built.entry_eq index listed, ← listed] at is

/-- The entries of a section; without any there is no section. -/
def Section (document : Json) (key : String) (entries : List Json) : Prop :=
  document.member? key = if entries = [] then none else some (.arr entries)

theorem Section.unique {document : Json} {key : String} {entries others : List Json}
    (holds : Section document key entries) (also : Section document key others) :
    entries = others := by
  rw [Section, holds] at also
  split at also <;> split at also <;> simp_all

theorem Section.appendTo {root : Json} {other : String} {entries : List Json}
    (before : Section root other entries) (key : String) (entry : Json) :
    Section (root.appendTo key entry) other
      (if other = key then entries ++ [entry] else entries) := by
  rw [Section, Json.member?_appendTo]
  by_cases same : other = key
  · subst same
    rw [if_pos rfl, if_pos rfl, if_neg (by simp), Json.get, before]
    cases entries <;> rfl
  · rw [if_neg same, if_neg same]
    exact before

theorem sections_of_appendAll {root after : Json} {key : String} {entry : ℕ → Option Json}
    {indices : List ℕ} (appended : appendAll key entry indices root = some after) :
    ∃ added, Entries entry indices added ∧ ∀ other entries, Section root other entries →
      Section after other (if other = key then entries ++ added else entries) := by
  induction indices generalizing root with
  | nil =>
      cases appended
      refine ⟨[], .nil, ?_⟩
      intro other entries before
      simpa using before
  | cons i indices ih =>
      rcases appendAll_cons appended with ⟨first, built, rest⟩
      rcases ih rest with ⟨added, restBuilt, sections⟩
      refine ⟨first :: added, .cons built restBuilt, ?_⟩
      intro other entries before
      have later := sections other _ (before.appendTo key first)
      by_cases same : other = key
      · simpa [same] using later
      · simpa [same] using later

/-- The sections of a document of `data_to_json`, with the entries it was built from. -/
structure Built (samples : Samples) (document : Json) : Prop where
  isObject : ∃ members, document = .obj members
  cpu : ∃ entries, Entries samples.cpu (List.range samples.cpuMHz.length) entries ∧
    Section document "cpu info" entries
  docker : ∃ entries, Entries samples.docker (List.range samples.dockerIDInfo.length) entries ∧
    Section document "docker info" entries
  memory : ∃ entry, samples.memory = some entry ∧ Section document "memory info" [entry]
  disk : ∃ entry, samples.disk = some entry ∧ Section document "disk info" [entry]
  network : ∃ entries, Entries samples.network (evenIndices samples.ethFirstInfo.length) entries ∧
    Section document "network info" entries
  macAddress : ∃ entry, samples.macAddress = some entry ∧
    Section document "mac address info" [entry]
  location : ∃ entry, samples.location = some entry ∧ Section document "location info" [entry]
  timestamp : ∃ entry, samples.timestamp = some entry ∧ Section document "timestamp info" [entry]

theorem dataToJson_built {samples : Samples} {document : Json}
    (built : dataToJson samples = some document) : Built samples document := by
  simp only [dataToJson, bind, Option.bind_eq_some_iff] at built
  rcases built with ⟨afterCpu, cpuDone, afterDocker, dockerDone, memory, memoryDone, disk, diskDone,
    afterNetwork, networkDone, macAddress, macAddressDone, location, locationDone, timestamp,
    timestampDone, finished⟩
  cases finished
  rcases sections_of_appendAll cpuDone with ⟨cpus, cpusBuilt, cpuSections⟩
  rcases sections_of_appendAll dockerDone with ⟨dockers, dockersBuilt, dockerSections⟩
  rcases sections_of_appendAll networkDone with ⟨networks, networksBuilt, networkSections⟩
  have sections (key : String) :=
    ((((networkSections key _ (((dockerSections key _ (cpuSections key [] rfl)).appendTo
      "memory info" memory).appendTo "disk info" disk)).appendTo
      "mac address info" macAddress).appendTo "location info" location).appendTo
      "timestamp info" timestamp)
  exact {
    isObject := Json.exists_obj_set _ _ _
    cpu := ⟨cpus, cpusBuilt, by simpa using sections "cpu info"⟩
    docker := ⟨dockers, dockersBuilt, by simpa using sections "docker info"⟩
    memory := ⟨memory, memoryDone, by simpa using sections "memory info"⟩
    disk := ⟨disk, diskDone, by simpa using sections "disk info"⟩
    network := ⟨networks, networksBuilt, by simpa using sections "network info"⟩
    macAddress := ⟨macAddress, macAddressDone, by simpa using sections "mac address info"⟩
    location := ⟨location, locationDone, by simpa using sections "location info"⟩
    timestamp := ⟨timestamp, timestampDone, by simpa using sections "timestamp info"⟩ }

/-- What `linux_command` returns is a snapshot. -/
theorem exists_snapshot_of_dataToJson {samples : Samples} {document : Json}
    (built : dataToJson samples = some document) :
    ∃ snapshot : Snapshot, snapshot.root = document := by
  rcases dataToJson_built built with ⟨_, _, _, ⟨memory, _, memorySection⟩, ⟨disk, _, diskSection⟩, _⟩
  exact ⟨⟨document, ⟨[disk], diskSection⟩, ⟨[memory], memorySection⟩⟩, rfl⟩

/-! ## What `data_to_json` reads -/

theorem isSome_bind_iff {α β : Type} {first : Option α} {next : α → Option β} {P Q : Prop}
    (isFirst : first.isSome ↔ P) (isNext : ∀ value, (next value).isSome ↔ Q) :
    (first.bind next).isSome ↔ P ∧ Q := by
  cases first with
  | none => simp [← isFirst]
  | some value => simp [← isFirst, isNext]

theorem isSome_foldlM_iff {σ α : Type} {step : σ → α → Option σ} {P : α → Prop}
    (each : ∀ state element, (step state element).isSome ↔ P element) (elements : List α) (state : σ) :
    (elements.foldlM step state).isSome ↔ ∀ element ∈ elements, P element := by
  induction elements generalizing state with
  | nil => simp
  | cons element elements ih =>
      rw [List.foldlM_cons, List.forall_mem_cons]
      exact isSome_bind_iff (each state element) ih

theorem isSome_appendAll_iff {key : String} {entry : ℕ → Option Json} {indices : List ℕ}
    {root : Json} :
    (appendAll key entry indices root).isSome ↔ ∀ i ∈ indices, (entry i).isSome := by
  apply isSome_foldlM_iff
  intro root i
  cases entry i <;> simp

namespace Samples

variable (samples : Samples)

/-- Every element which `data_to_json` reads is there. -/
structure Complete : Prop where
  cpuSourceAvailable : samples.cpuMHz.length ≤ samples.cpuSourceAvailable.length
  cpuCores : samples.cpuMHz.length ≤ samples.cpuCores.length
  dockerCpuInfo : samples.dockerIDInfo.length ≤ samples.dockerCpuInfo.length
  dockerMemoryUsageInfo : samples.dockerIDInfo.length ≤ samples.dockerMemoryUsageInfo.length
  dockerMemoryLimitInfo : samples.dockerIDInfo.length ≤ samples.dockerMemoryLimitInfo.length
  dockerMemoryInfo : samples.dockerIDInfo.length ≤ samples.dockerMemoryInfo.length
  memoryTotalInfo : 0 < samples.memoryTotalInfo.length
  memoryAvailableInfo : 0 < samples.memoryAvailableInfo.length
  diskAvailableInfo : samples.diskTotalInfo.length ≤ samples.diskAvailableInfo.length
  ethFirstInfo : samples.ethFirstInfo.length % 2 = 0
  ethSecondInfo : samples.ethFirstInfo.length ≤ samples.ethSecondInfo.length
  macAddressId : 0 < samples.macAddressId.length
  locationInfo : 0 < samples.locationInfo.length
  timestampInfo : 0 < samples.timestampInfo.length

variable {samples}

theorem isSome_cpu_iff {i : ℕ} : (samples.cpu i).isSome ↔ i < samples.cpuSourceAvailable.length ∧
    i < samples.cpuMHz.length ∧ i < samples.cpuCores.length := by
  simp [Samples.cpu, Option.isSome_iff_exists, Option.bind_eq_some_iff, List.getElem?_eq_some_iff]
  tauto

theorem isSome_docker_iff {i : ℕ} : (samples.docker i).isSome ↔ i < samples.dockerIDInfo.length ∧
    i < samples.dockerCpuInfo.length ∧ i < samples.dockerMemoryUsageInfo.length ∧
    i < samples.dockerMemoryLimitInfo.length ∧ i < samples.dockerMemoryInfo.length := by
  simp [Samples.docker, Option.isSome_iff_exists, Option.bind_eq_some_iff,
    List.getElem?_eq_some_iff]
  tauto

theorem isSome_memory_iff : samples.memory.isSome ↔ 0 < samples.memoryTotalInfo.length ∧
    0 < samples.memoryAvailableInfo.length := by
  simp [Samples.memory, Option.isSome_iff_exists, Option.bind_eq_some_iff,
    List.getElem?_eq_some_iff]

theorem isSome_network_iff {i : ℕ} : (samples.network i).isSome ↔
    i + 1 < samples.ethFirstInfo.length ∧ i + 1 < samples.ethSecondInfo.length := by
  simp [Samples.network, Option.isSome_iff_exists, Option.bind_eq_some_iff,
    List.getElem?_eq_some_iff]
  omega

theorem isSome_disk_iff :
    samples.disk.isSome ↔ ∀ i ∈ List.range samples.diskTotalInfo.length,
      i < samples.diskTotalInfo.length ∧ i < samples.diskAvailableInfo.length := by
  have sums : samples.diskSums.isSome ↔ ∀ i ∈ List.range samples.diskTotalInfo.length,
      i < samples.diskTotalInfo.length ∧ i < samples.diskAvailableInfo.length := by
    apply isSome_foldlM_iff
    rintro ⟨diskTotal, diskAvailable⟩ i
    simp [Option.isSome_iff_exists, Option.bind_eq_some_iff, List.getElem?_eq_some_iff]
  rw [← sums, Samples.disk]
  cases samples.diskSums <;> simp

/-- All reads of `data_to_json` one after the other. -/
theorem isSome_dataToJson_iff_reads : (dataToJson samples).isSome ↔
    (∀ i ∈ List.range samples.cpuMHz.length, (samples.cpu i).isSome) ∧
    (∀ i ∈ List.range samples.dockerIDInfo.length, (samples.docker i).isSome) ∧
    samples.memory.isSome ∧ samples.disk.isSome ∧
    (∀ i ∈ evenIndices samples.ethFirstInfo.length, (samples.network i).isSome) ∧
    samples.macAddress.isSome ∧ samples.location.isSome ∧ samples.timestamp.isSome :=
  isSome_bind_iff isSome_appendAll_iff fun _ => isSome_bind_iff isSome_appendAll_iff fun _ =>
    isSome_bind_iff Iff.rfl fun _ => isSome_bind_iff Iff.rfl fun _ =>
      isSome_bind_iff isSome_appendAll_iff fun _ => isSome_bind_iff Iff.rfl fun _ =>
        isSome_bind_iff Iff.rfl fun _ => by
          cases samples.timestamp <;> simp

theorem forall_evenIndices_iff {n m : ℕ} :
    (∀ i ∈ evenIndices n, i + 1 < n ∧ i + 1 < m) ↔ n % 2 = 0 ∧ n ≤ m := by
  simp only [evenIndices, List.forall_mem_map, List.mem_range]
  constructor
  · intro all
    cases n with
    | zero => simp
    | succ n =>
        have last := all (n / 2) (by omega)
        omega
  · rintro ⟨even, le⟩ i within
    omega

theorem isSome_dataToJson_iff : (dataToJson samples).isSome ↔ samples.Complete := by
  have single {α : Type} (elements : List α) (make : α → Json) :
      (elements[0]?.bind fun element => some (make element)).isSome ↔ 0 < elements.length := by
    cases elements <;> simp
  have mac : samples.macAddress.isSome ↔ 0 < samples.macAddressId.length := single _ _
  have location : samples.location.isSome ↔ 0 < samples.locationInfo.length := single _ _
  have timestamp : samples.timestamp.isSome ↔ 0 < samples.timestampInfo.length := single _ _
  have all {n m : ℕ} : (∀ i < n, i < m) ↔ n ≤ m :=
    ⟨fun below => Nat.le_of_not_lt fun less => Nat.lt_irrefl m (below m less),
      fun le i less => less.trans_le le⟩
  rw [isSome_dataToJson_iff_reads, isSome_memory_iff, isSome_disk_iff, mac, location, timestamp]
  simp only [isSome_network_iff, forall_evenIndices_iff]
  simp only [isSome_cpu_iff, isSome_docker_iff, List.mem_range, forall_and, all]
  constructor
  · rintro ⟨⟨source, _, cores⟩, ⟨_, cpu, usage, limit, memory⟩, ⟨total, available⟩, ⟨_, disk⟩,
      ⟨even, later⟩, mac, location, timestamp⟩
    exact ⟨source, cores, cpu, usage, limit, memory, total, available, disk, even, later, mac,
      location, timestamp⟩
  · rintro ⟨source, cores, cpu, usage, limit, memory, total, available, disk, even, later, mac,
      location, timestamp⟩
    exact ⟨⟨source, Nat.le_refl _, cores⟩, ⟨Nat.le_refl _, cpu, usage, limit, memory⟩,
      ⟨total, available⟩, ⟨Nat.le_refl _, disk⟩, ⟨even, later⟩, mac, location, timestamp⟩

end Samples

end HumanMachine.Client
