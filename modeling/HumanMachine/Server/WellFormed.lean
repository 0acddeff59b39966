import HumanMachine.Server.Description

/-!
# Well-formed documents

A document is well formed when every array and every field which the server reads
is there and of the right kind. The section `docker info` may be missing. Of a
well-formed document every row can be read, so that its plan is complete.
-/

namespace HumanMachine.Server

open Gson (getAsJsonObject getAsJsonArray get has elementAt)

/-- The entry is an object with readable values under the given keys. -/
def HasFields {α : Type} (read : Json → Except JavaException α) (keys : List String)
    (entry : Json) : Prop :=
  ∃ members, getAsJsonObject entry = .ok members ∧
    ∀ key ∈ keys, ∃ field value, get members key = .ok field ∧ read field = .ok value

/-- A document which the server can read to the end. -/
structure WellFormed (gson : Gson) (object : List (String × Json)) (sections : Sections) :
    Prop where
  read : readSections object = .ok sections
  network_nonempty : sections.networkArray ≠ []
  disk_length : sections.memoryArray.length ≤ sections.diskArray.length
  location_length : sections.memoryArray.length ≤ sections.locationArray.length
  timestamp_length : sections.memoryArray.length ≤ sections.timestampArray.length
  disk : ∀ entry ∈ sections.diskArray,
    HasFields gson.getAsDouble ["available", "total", "used"] entry
  memory : ∀ entry ∈ sections.memoryArray,
    HasFields gson.getAsDouble ["available", "total", "used"] entry
  network : ∀ entry ∈ sections.networkArray,
    HasFields gson.getAsDouble ["download rate", "upload rate"] entry
  location : ∀ entry ∈ sections.locationArray, HasFields gson.getAsString ["address"] entry
  timestamp : ∀ entry ∈ sections.timestampArray, HasFields gson.getAsString ["time"] entry
  cpu : ∀ entry ∈ sections.cpuArray,
    HasFields gson.getAsDouble ["cpu source", "cpu Mhz"] entry ∧
      HasFields gson.getAsInt ["cpu Cores", "id"] entry
  docker : has object "docker info" = true → ∃ dockerArray,
    readDockerArray object = .ok dockerArray ∧ ∀ entry ∈ dockerArray,
      HasFields gson.getAsDouble ["cpu", "memory", "memory usage", "memory limit"] entry ∧
        HasFields gson.getAsString ["id"] entry

theorem elementAt_of_lt {array : List Json} {i : ℕ} (inRange : i < array.length) :
    ∃ entry ∈ array, elementAt array i = .ok entry := by
  refine ⟨array[i], List.getElem_mem inRange, ?_⟩
  simp [elementAt, inRange]

theorem foldlM_ok {α β ε : Type} {step : β → α → Except ε β} {list : List α}
    (steps : ∀ state, ∀ element ∈ list, ∃ next, step state element = .ok next) (state : β) :
    ∃ final, list.foldlM step state = .ok final := by
  induction list generalizing state with
  | nil => exact ⟨state, rfl⟩
  | cons head tail ih =>
      rcases steps state head List.mem_cons_self with ⟨next, stepped⟩
      rw [List.foldlM_cons, stepped]
      exact ih (fun state element mem => steps state element (List.mem_cons_of_mem _ mem)) next

theorem plan_map_complete {ι : Type} {table : Table} {macAddress : Double}
    {values : ι → Except JavaException Row} {indices : List ι}
    (readable : ∀ i ∈ indices, ∃ row, values i = .ok row) :
    Plan.Complete (indices.map fun i => insertion table macAddress <$> values i) := by
  intro exception mem
  simp only [List.mem_map] at mem
  rcases mem with ⟨i, mem, thrown⟩
  rcases readable i mem with ⟨row, read⟩
  simp [read] at thrown

namespace WellFormed

variable {gson : Gson} {object : List (String × Json)} {sections : Sections}

theorem networkRates_ok (wellFormed : WellFormed gson object sections) :
    ∃ rates, networkRates gson sections.networkArray = .ok rates := by
  apply foldlM_ok
  rintro ⟨downloadRate, uploadRate⟩ j mem
  rcases elementAt_of_lt (List.mem_range.mp mem) with ⟨entry, entryMem, element⟩
  rcases wellFormed.network entry entryMem with ⟨members, isObject, fields⟩
  rcases fields "download rate" (by simp) with ⟨download, _, downloadGet, downloadRead⟩
  rcases fields "upload rate" (by simp) with ⟨upload, _, uploadGet, uploadRead⟩
  simp [element, isObject, downloadGet, downloadRead, uploadGet, uploadRead, bind, Except.bind,
    pure, Except.pure]

theorem serverinfoValues_ok (wellFormed : WellFormed gson object sections) {i : ℕ}
    (inRange : i < sections.memoryArray.length) :
    ∃ row, serverinfoValues gson sections.diskArray sections.memoryArray sections.networkArray
      sections.locationArray sections.timestampArray i = .ok row := by
  rcases elementAt_of_lt (inRange.trans_le wellFormed.disk_length) with
    ⟨disk, diskMem, diskElement⟩
  rcases elementAt_of_lt inRange with ⟨memory, memoryMem, memoryElement⟩
  rcases elementAt_of_lt (inRange.trans_le wellFormed.location_length) with
    ⟨location, locationMem, locationElement⟩
  rcases elementAt_of_lt (inRange.trans_le wellFormed.timestamp_length) with
    ⟨timestamp, timestampMem, timestampElement⟩
  rcases wellFormed.disk disk diskMem with ⟨diskMembers, diskObject, diskFields⟩
  rcases diskFields "available" (by simp) with ⟨_, _, diskAvailable, diskAvailableRead⟩
  rcases diskFields "total" (by simp) with ⟨_, _, diskTotal, diskTotalRead⟩
  rcases diskFields "used" (by simp) with ⟨_, _, diskUsed, diskUsedRead⟩
  rcases wellFormed.memory memory memoryMem with ⟨memoryMembers, memoryObject, memoryFields⟩
  rcases memoryFields "available" (by simp) with ⟨_, _, memoryAvailable, memoryAvailableRead⟩
  rcases memoryFields "total" (by simp) with ⟨_, _, memoryTotal, memoryTotalRead⟩
  rcases memoryFields "used" (by simp) with ⟨_, _, memoryUsed, memoryUsedRead⟩
  rcases wellFormed.location location locationMem with
    ⟨locationMembers, locationObject, locationFields⟩
  rcases locationFields "address" (by simp) with ⟨_, _, address, addressRead⟩
  rcases wellFormed.timestamp timestamp timestampMem with
    ⟨timestampMembers, timestampObject, timestampFields⟩
  rcases timestampFields "time" (by simp) with ⟨_, _, time, timeRead⟩
  rcases wellFormed.networkRates_ok with ⟨⟨downloadRate, uploadRate⟩, rates⟩
  simp [serverinfoValues, diskElement, memoryElement, locationElement, timestampElement,
    diskObject, memoryObject, locationObject, timestampObject, diskAvailable, diskAvailableRead,
    diskTotal, diskTotalRead, diskUsed, diskUsedRead, memoryAvailable, memoryAvailableRead,
    memoryTotal, memoryTotalRead, memoryUsed, memoryUsedRead, address, addressRead, time,
    timeRead, rates, bind, Except.bind, pure, Except.pure]

theorem cpuinfoValues_ok (wellFormed : WellFormed gson object sections) {i : ℕ}
    (inRange : i < sections.cpuArray.length) :
    ∃ row, cpuinfoValues gson sections.cpuArray i = .ok row := by
  rcases elementAt_of_lt inRange with ⟨cpu, cpuMem, element⟩
  rcases wellFormed.cpu cpu cpuMem with
    ⟨⟨members, isObject, doubles⟩, ⟨members', isObject', ints⟩⟩
  have same : members' = members := by simpa [isObject] using isObject'.symm
  subst members'
  rcases doubles "cpu source" (by simp) with ⟨_, _, source, sourceRead⟩
  rcases doubles "cpu Mhz" (by simp) with ⟨_, _, mhz, mhzRead⟩
  rcases ints "cpu Cores" (by simp) with ⟨_, _, cores, coresRead⟩
  rcases ints "id" (by simp) with ⟨_, _, id, idRead⟩
  simp [cpuinfoValues, element, isObject, source, sourceRead, mhz, mhzRead, cores, coresRead, id,
    idRead, bind, Except.bind, pure, Except.pure]

theorem dockerinfoValues_ok {dockerArray : List Json}
    (entries : ∀ entry ∈ dockerArray,
      HasFields gson.getAsDouble ["cpu", "memory", "memory usage", "memory limit"] entry ∧
        HasFields gson.getAsString ["id"] entry)
    {i : ℕ} (inRange : i < dockerArray.length) :
    ∃ row, dockerinfoValues gson dockerArray i = .ok row := by
  rcases elementAt_of_lt inRange with ⟨docker, dockerMem, element⟩
  rcases entries docker dockerMem with
    ⟨⟨members, isObject, doubles⟩, ⟨members', isObject', strings⟩⟩
  have same : members' = members := by simpa [isObject] using isObject'.symm
  subst members'
  rcases doubles "cpu" (by simp) with ⟨_, _, cpu, cpuRead⟩
  rcases doubles "memory" (by simp) with ⟨_, _, memory, memoryRead⟩
  rcases doubles "memory usage" (by simp) with ⟨_, _, usage, usageRead⟩
  rcases doubles "memory limit" (by simp) with ⟨_, _, limit, limitRead⟩
  rcases strings "id" (by simp) with ⟨_, _, id, idRead⟩
  simp [dockerinfoValues, element, isObject, cpu, cpuRead, memory, memoryRead, usage, usageRead,
    limit, limitRead, id, idRead, bind, Except.bind, pure, Except.pure]

theorem plan_complete (wellFormed : WellFormed gson object sections) (macAddress : Double) :
    Plan.Complete (plan gson object macAddress) := by
  have read := wellFormed.read
  simp only [plan, read, Plan.afterReading, Plan.complete_append]
  refine ⟨?_, ?_, ?_⟩
  · apply plan_map_complete
    intro i mem
    exact wellFormed.serverinfoValues_ok (List.mem_range.mp mem)
  · apply plan_map_complete
    intro i mem
    exact wellFormed.cpuinfoValues_ok (List.mem_range.mp mem)
  · unfold dockerinfoPlan
    split
    case isTrue present =>
      rcases wellFormed.docker present with ⟨dockerArray, dockerRead, entries⟩
      simp only [dockerRead, Plan.afterReading]
      apply plan_map_complete
      intro i mem
      exact dockerinfoValues_ok entries (List.mem_range.mp mem)
    case isFalse absent => exact Plan.complete_nil

end WellFormed

end HumanMachine.Server
