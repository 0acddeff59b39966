import HumanMachine.Client.DataToJson
import HumanMachine.Server.Replacement
import HumanMachine.Server.WellFormed

/-!
# Do client and server agree on the document?

`data_to_json` creates an array only with its first entry, and `insertData`
dereferences every array but `docker info` without asking whether it is there. A
document is processed to the end exactly when it has a cpu and a network interface.
-/

namespace HumanMachine.Client

open Server (Gson JavaException HasFields WellFormed Sections readSections readBody insertData
  executedEffects deletions refused jdbc)

/-! ## The entries -/

theorem hasFields_of_members {α β : Type} {read : Json → Except JavaException α} {kind : β → Json}
    {keys : List String} {entry : Json} (reads : ∀ value, ∃ result, read (kind value) = .ok result)
    (isObject : ∃ members, entry = .obj members)
    (fields : ∀ key ∈ keys, ∃ value, entry.member? key = some (kind value)) :
    HasFields read keys entry := by
  rcases isObject with ⟨members, rfl⟩
  refine ⟨members, rfl, ?_⟩
  intro key mem
  rcases fields key mem with ⟨value, found⟩
  rcases reads value with ⟨result, readable⟩
  refine ⟨kind value, result, ?_, readable⟩
  rw [Json.member?_obj] at found
  rw [Gson.get, found]

variable {gson : Gson} {samples : Samples} {entry : Json} {i : ℕ}

theorem reads_double (value : Double) : ∃ result, gson.getAsDouble (.num value) = .ok result :=
  ⟨value, gson.getAsDouble_num value⟩

theorem reads_int (value : Double) : ∃ result, gson.getAsInt (.num value) = .ok result :=
  ⟨gson.intOfNumber value, gson.getAsInt_num value⟩

theorem reads_string (text : String) : ∃ result, gson.getAsString (.str text) = .ok result :=
  ⟨text, gson.getAsString_str text⟩

theorem cpu_fields (built : samples.cpu i = some entry) :
    HasFields gson.getAsDouble ["cpu source", "cpu Mhz"] entry ∧
      HasFields gson.getAsInt ["cpu Cores", "id"] entry := by
  simp only [Samples.cpu, bind, Option.bind_eq_some_iff] at built
  rcases built with ⟨source, _, mhz, _, cores, _, same⟩
  cases same
  constructor
  · exact hasFields_of_members reads_double (Json.exists_obj_set _ _ _) (by simp [Json.member?_set])
  · exact hasFields_of_members reads_int (Json.exists_obj_set _ _ _) (by simp [Json.member?_set])

theorem docker_fields (built : samples.docker i = some entry) :
    HasFields gson.getAsDouble ["cpu", "memory", "memory usage", "memory limit"] entry ∧
      HasFields gson.getAsString ["id"] entry := by
  simp only [Samples.docker, bind, Option.bind_eq_some_iff] at built
  rcases built with ⟨id, _, cpu, _, usage, _, limit, _, memory, _, same⟩
  cases same
  constructor
  · exact hasFields_of_members reads_double (Json.exists_obj_set _ _ _) (by simp [Json.member?_set])
  · exact hasFields_of_members reads_string (Json.exists_obj_set _ _ _) (by simp [Json.member?_set])

theorem memory_fields (built : samples.memory = some entry) :
    HasFields gson.getAsDouble ["available", "total", "used"] entry := by
  simp only [Samples.memory, bind, Option.bind_eq_some_iff] at built
  rcases built with ⟨total, _, available, _, same⟩
  cases same
  exact hasFields_of_members reads_double (Json.exists_obj_set _ _ _) (by simp [Json.member?_set])

theorem disk_fields (built : samples.disk = some entry) :
    HasFields gson.getAsDouble ["available", "total", "used"] entry := by
  simp only [Samples.disk, bind, Option.bind_eq_some_iff] at built
  rcases built with ⟨⟨total, available⟩, _, same⟩
  cases same
  exact hasFields_of_members reads_double (Json.exists_obj_set _ _ _) (by simp [Json.member?_set])

theorem network_fields (built : samples.network i = some entry) :
    HasFields gson.getAsDouble ["download rate", "upload rate"] entry := by
  simp only [Samples.network, bind, Option.bind_eq_some_iff] at built
  rcases built with ⟨_, _, _, _, _, _, _, _, same⟩
  cases same
  exact hasFields_of_members reads_double (Json.exists_obj_set _ _ _) (by simp [Json.member?_set])

theorem macAddress_fields (built : samples.macAddress = some entry) :
    HasFields gson.getAsDouble ["id"] entry := by
  simp only [Samples.macAddress, bind, Option.bind_eq_some_iff] at built
  rcases built with ⟨_, _, same⟩
  cases same
  exact hasFields_of_members reads_double (Json.exists_obj_set _ _ _) (by simp [Json.member?_set])

theorem location_fields (built : samples.location = some entry) :
    HasFields gson.getAsString ["address"] entry := by
  simp only [Samples.location, bind, Option.bind_eq_some_iff] at built
  rcases built with ⟨_, _, same⟩
  cases same
  exact hasFields_of_members reads_string (Json.exists_obj_set _ _ _) (by simp [Json.member?_set])

theorem timestamp_fields (built : samples.timestamp = some entry) :
    HasFields gson.getAsString ["time"] entry := by
  simp only [Samples.timestamp, bind, Option.bind_eq_some_iff] at built
  rcases built with ⟨_, _, same⟩
  cases same
  exact hasFields_of_members reads_string (Json.exists_obj_set _ _ _) (by simp [Json.member?_set])

/-! ## The document -/

theorem getArray_of_section {members : List (String × Json)} {key : String} {entries : List Json}
    (found : Section (.obj members) key entries) (nonempty : entries ≠ []) :
    Gson.get members key = .ok (.arr entries) := by
  rw [Section, Json.member?_obj, if_neg nonempty] at found
  rw [Gson.get, found]

theorem evenIndices_eq_nil_iff (size : ℕ) : evenIndices size = [] ↔ size = 0 := by
  rw [evenIndices, List.map_eq_nil_iff, List.range_eq_nil]
  omega

theorem get_of_no_section {members : List (String × Json)} {key : String}
    (missing : Section (.obj members) key []) : Gson.get members key = .error .nullPointer := by
  rw [Section, Json.member?_obj, if_pos rfl] at missing
  rw [Gson.get, missing]

variable {members : List (String × Json)}

theorem Built.readSections_eq_error (built : Built samples (.obj members))
    (missing : samples.cpuMHz = [] ∨ samples.ethFirstInfo = []) :
    readSections members = .error .nullPointer := by
  rcases built.cpu with ⟨cpus, cpusBuilt, cpuSection⟩
  rcases built.memory with ⟨memory, _, memorySection⟩
  rcases built.disk with ⟨disk, _, diskSection⟩
  rcases built.network with ⟨networks, networksBuilt, networkSection⟩
  by_cases noCpu : cpus = []
  · subst noCpu
    rw [readSections, get_of_no_section cpuSection]
    rfl
  · have noNetwork : networks = [] := by
      rw [networksBuilt.eq_nil_iff, evenIndices_eq_nil_iff, List.length_eq_zero_iff]
      rw [cpusBuilt.eq_nil_iff, List.range_eq_nil, List.length_eq_zero_iff] at noCpu
      exact missing.resolve_left noCpu
    subst noNetwork
    rw [readSections, getArray_of_section cpuSection noCpu,
      getArray_of_section memorySection (by simp), getArray_of_section diskSection (by simp),
      get_of_no_section networkSection]
    rfl

theorem Built.wellFormed (built : Built samples (.obj members)) (hasCpu : samples.cpuMHz ≠ [])
    (hasNetwork : samples.ethFirstInfo ≠ []) : ∃ sections, WellFormed gson members sections := by
  rcases built.cpu with ⟨cpus, cpusBuilt, cpuSection⟩
  rcases built.docker with ⟨dockers, dockersBuilt, dockerSection⟩
  rcases built.memory with ⟨memory, memoryBuilt, memorySection⟩
  rcases built.disk with ⟨disk, diskBuilt, diskSection⟩
  rcases built.network with ⟨networks, networksBuilt, networkSection⟩
  rcases built.location with ⟨location, locationBuilt, locationSection⟩
  rcases built.timestamp with ⟨timestamp, timestampBuilt, timestampSection⟩
  have cpus_nonempty : cpus ≠ [] := by
    rw [Ne, cpusBuilt.eq_nil_iff, List.range_eq_nil, List.length_eq_zero_iff]
    exact hasCpu
  have networks_nonempty : networks ≠ [] := by
    rw [Ne, networksBuilt.eq_nil_iff, evenIndices_eq_nil_iff, List.length_eq_zero_iff]
    exact hasNetwork
  refine ⟨⟨cpus, [memory], [disk], networks, [location], [timestamp]⟩, ?_⟩
  exact {
    read := by
      rw [readSections, getArray_of_section cpuSection cpus_nonempty,
        getArray_of_section memorySection (by simp), getArray_of_section diskSection (by simp),
        getArray_of_section networkSection networks_nonempty,
        getArray_of_section locationSection (by simp),
        getArray_of_section timestampSection (by simp)]
      rfl
    network_nonempty := networks_nonempty
    disk_length := le_rfl
    location_length := le_rfl
    timestamp_length := le_rfl
    disk := by simpa using disk_fields diskBuilt
    memory := by simpa using memory_fields memoryBuilt
    network := networksBuilt.forall_mem fun _ _ => network_fields
    location := by simpa using location_fields locationBuilt
    timestamp := by simpa using timestamp_fields timestampBuilt
    cpu := cpusBuilt.forall_mem fun _ _ => cpu_fields
    docker := by
      intro present
      refine ⟨dockers, ?_, dockersBuilt.forall_mem fun _ _ => docker_fields⟩
      have nonempty : dockers ≠ [] := by
        rintro rfl
        rw [Section, Json.member?_obj, if_pos rfl] at dockerSection
        simp [Gson.has, dockerSection] at present
      rw [Server.readDockerArray, getArray_of_section dockerSection nonempty]
      rfl }

theorem Built.readBody_eq_ok {data : String} (built : Built samples (.obj members))
    (parsed : gson.parse data = .ok (.obj members)) :
    ∃ macAddress, readBody gson data = .ok (members, macAddress) := by
  rcases built.macAddress with ⟨entry, entryBuilt, found⟩
  have hasId : HasFields gson.getAsDouble ["id"] entry := macAddress_fields entryBuilt
  rcases hasId with ⟨fields, isObject, fieldsRead⟩
  rcases fieldsRead "id" (by simp) with ⟨field, macAddress, get, read⟩
  have readId : Server.readMacAddress gson members = .ok macAddress := by
    rw [Server.readMacAddress, getArray_of_section found (by simp)]
    simp [Gson.getAsJsonArray, Gson.elementAt, isObject, get, read, bind, Except.bind]
  refine ⟨macAddress, ?_⟩
  rw [readBody, parsed]
  simp [Gson.getAsJsonObject, readId, bind, Except.bind, pure, Except.pure]

/-! ## Storing the document -/

/-- A call has deleted the old rows and has completed every loop of insertions; the
average network rates were taken over at least one interface. -/
def ProcessedToTheEnd (gson : Gson) (members : List (String × Json)) (macAddress : Double)
    (events : List jdbc.Event) (result : Except JavaException Double) : Prop :=
  result = .ok macAddress ∧
    (∃ sections, readSections members = .ok sections ∧ sections.networkArray ≠ []) ∧
    Plan.Complete (Server.plan gson members macAddress) ∧
    executedEffects events =
      deletions macAddress ++ Plan.readable (Server.plan gson members macAddress)

variable {connection : ℕ} {data : String} {macAddress : Double} {events : List jdbc.Event}
  {result : Except JavaException Double}

theorem processed_of_complete (read : readBody gson data = .ok (members, macAddress))
    (follows : (insertData gson (some connection) data).run.Follows events (.done result))
    (accepted : events.any refused = false)
    (complete : Plan.Complete (Server.plan gson members macAddress)) :
    result = .ok macAddress ∧ executedEffects events =
      deletions macAddress ++ Plan.readable (Server.plan gson members macAddress) := by
  rcases Server.insertData_changes follows read with ⟨deleted, inserted, _, _, effects, all⟩
  rcases all rfl accepted with ⟨rfl, rfl⟩
  refine ⟨?_, effects⟩
  have ends := (Server.insertData_ensures read ⟨[], false⟩).result
    (Server.run_logging_of_follows follows)
  cases result with
  | ok value => rw [ends.2.1]
  | error exception =>
      rcases ends.2.2 with failed | thrown
      · rw [accepted] at failed
        cases failed
      · exact absurd thrown (complete exception)

theorem throws_of_missing (built : Built samples (.obj members))
    (missing : samples.cpuMHz = [] ∨ samples.ethFirstInfo = [])
    (read : readBody gson data = .ok (members, macAddress))
    (follows : (insertData gson (some connection) data).run.Follows events (.done result))
    (accepted : events.any refused = false) :
    result = .error .nullPointer := by
  have plan_eq : Server.plan gson members macAddress = [.error .nullPointer] := by
    rw [Server.plan, built.readSections_eq_error missing]
    rfl
  have ends := (Server.insertData_ensures read ⟨[], false⟩).result
    (Server.run_logging_of_follows follows)
  rw [plan_eq] at ends
  cases result with
  | ok value =>
      rcases ends.2.2 with failed | complete | ⟨exception, caught, mem⟩
      · rw [accepted] at failed
        cases failed
      · exact absurd (List.mem_singleton_self _) (complete .nullPointer)
      · rw [List.mem_singleton, Except.error.injEq] at mem
        subst mem
        exact caught.elim
  | error exception =>
      rcases ends.2.2 with failed | thrown
      · rw [accepted] at failed
        cases failed
      · rw [List.mem_singleton, Except.error.injEq] at thrown
        rw [thrown]

/-- With all statements accepted, a document of the client is processed to the end
exactly when it has a cpu and a network interface; else a missing array ends the call. -/
theorem insertData_processes_dataToJson_iff {document : Json}
    (produced : dataToJson samples = some document) (parsed : gson.parse data = .ok document)
    (follows : (insertData gson (some connection) data).run.Follows events (.done result))
    (accepted : events.any refused = false) :
    ((∃ members macAddress, readBody gson data = .ok (members, macAddress) ∧
        ProcessedToTheEnd gson members macAddress events result) ↔
      samples.cpuMHz ≠ [] ∧ samples.ethFirstInfo ≠ []) ∧
    (samples.cpuMHz = [] ∨ samples.ethFirstInfo = [] → result = .error .nullPointer) := by
  have built := dataToJson_built produced
  rcases built.isObject with ⟨members, rfl⟩
  rcases built.readBody_eq_ok parsed with ⟨macAddress, read⟩
  constructor
  · constructor
    · rintro ⟨_, _, _, returned, _⟩
      by_contra missing
      rw [not_and_or, not_not, not_not] at missing
      have thrown := throws_of_missing built missing read follows accepted
      rw [thrown] at returned
      cases returned
    · rintro ⟨hasCpu, hasNetwork⟩
      have readable : ∃ sections, WellFormed gson members sections :=
        built.wellFormed hasCpu hasNetwork
      rcases readable with ⟨sections, wellFormed⟩
      have complete := wellFormed.plan_complete macAddress
      rcases processed_of_complete read follows accepted complete with ⟨returned, effects⟩
      exact ⟨members, macAddress, read, returned,
        ⟨sections, wellFormed.read, wellFormed.network_nonempty⟩, complete, effects⟩
  · intro missing
    exact throws_of_missing built missing read follows accepted

/-! ### A machine without a network interface -/

/-- A machine with one cpu and these counters. -/
def machine (ethFirstInfo ethSecondInfo : List Double) : Samples where
  cpuSourceAvailable := [.fin 1]
  cpuMHz := [.fin 2400]
  cpuCores := [.fin 1]
  memoryTotalInfo := [.fin 4]
  memoryAvailableInfo := [.fin 1]
  diskTotalInfo := [.fin 8]
  diskAvailableInfo := [.fin 2]
  ethFirstInfo := ethFirstInfo
  ethSecondInfo := ethSecondInfo
  dockerIDInfo := []
  dockerCpuInfo := []
  dockerMemoryUsageInfo := []
  dockerMemoryLimitInfo := []
  dockerMemoryInfo := []
  macAddressId := [.fin 7]
  locationInfo := ["lab"]
  timestampInfo := ["noon"]

def machineDocument (ethFirstInfo ethSecondInfo : List Double) : Json :=
  (dataToJson (machine ethFirstInfo ethSecondInfo)).getD .null

/-- The call which stores the document of the machine. -/
def machineCall (ethFirstInfo ethSecondInfo : List Double) : Server.Java Double :=
  insertData (Server.constantGson (machineDocument ethFirstInfo ethSecondInfo)) (some 0) ""

/-- Its exchanges with a database which accepts everything. -/
def machineEvents (ethFirstInfo ethSecondInfo : List Double) : List jdbc.Event :=
  Program.transcript (Server.answering fun _ => false) 0
    (machineCall ethFirstInfo ethSecondInfo).run

theorem dataToJson_machine {ethFirstInfo ethSecondInfo : List Double}
    (produced : (dataToJson (machine ethFirstInfo ethSecondInfo)).isSome = true) :
    dataToJson (machine ethFirstInfo ethSecondInfo) =
      some (machineDocument ethFirstInfo ethSecondInfo) := by
  rcases Option.isSome_iff_exists.mp produced with ⟨document, found⟩
  rw [machineDocument, found, Option.getD_some]

/-- The totals of memory and disks are positive. -/
def PositiveTotals (samples : Samples) : Prop :=
  ∀ total ∈ samples.memoryTotalInfo ++ samples.diskTotalInfo, ∃ value : ℚ, 0 < value ∧
    total = .fin value

theorem dataToJson_not_always_processed :
    ¬∀ (gson : Gson) (samples : Samples) (document : Json) (connection : ℕ) (data : String)
      (events : List jdbc.Event) (result : Except JavaException Double),
      dataToJson samples = some document → Even samples.ethFirstInfo.length →
      PositiveTotals samples → gson.parse data = .ok document →
      (insertData gson (some connection) data).run.Follows events (.done result) →
      events.any refused = false →
      ∃ members macAddress, readBody gson data = .ok (members, macAddress) ∧
        ProcessedToTheEnd gson members macAddress events result := by
  intro processed
  have positive : PositiveTotals (machine [] []) := by
    simp only [PositiveTotals, machine, List.singleton_append, List.mem_cons, List.not_mem_nil,
      or_false]
    rintro total (rfl | rfl)
    · exact ⟨4, by decide +kernel, rfl⟩
    · exact ⟨8, by decide +kernel, rfl⟩
  have follows : (machineCall [] []).run.Follows (machineEvents [] [])
      (.done (.error .nullPointer)) :=
    Program.follows_transcript (by decide +kernel)
  rcases processed _ _ _ 0 "" _ _ (dataToJson_machine (by decide +kernel)) (by decide) positive rfl
    follows (by decide +kernel) with ⟨_, _, _, returned, _⟩
  cases returned

theorem insertData_processes_machine :
    ∃ members macAddress,
      readBody (Server.constantGson (machineDocument [.fin 0, .fin 0] [.fin 1, .fin 2])) "" =
        .ok (members, macAddress) ∧
      ProcessedToTheEnd (Server.constantGson (machineDocument [.fin 0, .fin 0] [.fin 1, .fin 2]))
        members macAddress (machineEvents [.fin 0, .fin 0] [.fin 1, .fin 2]) (.ok (.fin 7)) := by
  have follows : (machineCall [.fin 0, .fin 0] [.fin 1, .fin 2]).run.Follows
      (machineEvents [.fin 0, .fin 0] [.fin 1, .fin 2]) (.done (.ok (.fin 7))) :=
    Program.follows_transcript (by decide +kernel)
  exact (insertData_processes_dataToJson_iff (dataToJson_machine (by decide +kernel)) rfl follows
    (by decide +kernel)).1.mpr ⟨by simp [machine], by simp [machine]⟩

end HumanMachine.Client
