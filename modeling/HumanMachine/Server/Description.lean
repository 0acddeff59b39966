import HumanMachine.Program.Plan
import HumanMachine.Server.InsertData

/-!
# What a document describes

The rows which a posted document describes, table by table, and the proof that
`insertRows` inserts exactly these rows, in their order, up to the point where
reading a field throws or a statement is refused.

`plan` is the list of all insertions, where an insertion whose row cannot be read
is the exception which reading it throws. `insertRows` performs this plan after
its three deletions (`insertRows_ensures`).
-/

namespace HumanMachine.Server

open Gson (getAsJsonObject getAsJsonArray get has elementAt)
open Program (Performs Ensures)

/-! ## Rows -/

section Rows

variable (gson : Gson)

/-- The values of the `i`-th row for table `serverinfo`, the id apart. -/
def serverinfoValues
    (diskArray memoryArray networkArray locationArray timestampArray : List Json) (i : ℕ) :
    Except JavaException Row := do
  let diskObject ← getAsJsonObject (← elementAt diskArray i)
  let memoryObject ← getAsJsonObject (← elementAt memoryArray i)
  let locationObject ← getAsJsonObject (← elementAt locationArray i)
  let timestampObject ← getAsJsonObject (← elementAt timestampArray i)
  let diskAvailable ← gson.getAsDouble (← get diskObject "available")
  let diskTotal ← gson.getAsDouble (← get diskObject "total")
  let diskUsed ← gson.getAsDouble (← get diskObject "used")
  let memoryAvailable ← gson.getAsDouble (← get memoryObject "available")
  let memoryTotal ← gson.getAsDouble (← get memoryObject "total")
  let memoryUsed ← gson.getAsDouble (← get memoryObject "used")
  let (downloadRate, uploadRate) ← networkRates gson networkArray
  let location ← gson.getAsString (← get locationObject "address")
  let timestamp ← gson.getAsString (← get timestampObject "time")
  return [("diskAvailable", .double diskAvailable), ("diskTotal", .double diskTotal),
    ("diskUsed", .double diskUsed), ("memoryAvailable", .double memoryAvailable),
    ("memoryTotal", .double memoryTotal), ("memoryUsed", .double memoryUsed),
    ("networkDownloadRate", .double (downloadRate / networkArray.length)),
    ("networkUploadRate", .double (uploadRate / networkArray.length)),
    ("netCardNumber", .int networkArray.length), ("location", .string location),
    ("timestamp", .string timestamp)]

/-- The values of the `i`-th row for table `cpuinfo`, the id apart. -/
def cpuinfoValues (cpuArray : List Json) (i : ℕ) : Except JavaException Row := do
  let cpuObject ← getAsJsonObject (← elementAt cpuArray i)
  let cpuUsed ← gson.getAsDouble (← get cpuObject "cpu source")
  let cpuMhz ← gson.getAsDouble (← get cpuObject "cpu Mhz")
  let cpuCores ← gson.getAsInt (← get cpuObject "cpu Cores")
  let cpuId ← gson.getAsInt (← get cpuObject "id")
  return [("cpuUsed", .double cpuUsed), ("cpuMhz", .double cpuMhz),
    ("cpuCores", .int cpuCores), ("cpuId", .int cpuId)]

/-- The values of the `i`-th row for table `dockerinfo`, the id apart. -/
def dockerinfoValues (dockerArray : List Json) (i : ℕ) : Except JavaException Row := do
  let dockerObject ← getAsJsonObject (← elementAt dockerArray i)
  let cpuUsage ← gson.getAsDouble (← get dockerObject "cpu")
  let memoryUsed ← gson.getAsDouble (← get dockerObject "memory")
  let memoryUsage ← gson.getAsDouble (← get dockerObject "memory usage")
  let memoryLimit ← gson.getAsDouble (← get dockerObject "memory limit")
  let dockerId ← gson.getAsString (← get dockerObject "id")
  return [("cpuUsage", .double cpuUsage), ("memoryUsed", .double memoryUsed),
    ("memoryUsage", .double memoryUsage), ("memoryLimit", .double memoryLimit),
    ("dockerId", .string dockerId)]

def insertion (table : Table) (macAddress : Double) (values : Row) : Effect :=
  .insert table (("id", .double macAddress) :: values)

end Rows

/-! ## The plan of a document -/

/-- The arrays of a document which `insertRows` reads before its first insertion. -/
structure Sections where
  cpuArray : List Json
  memoryArray : List Json
  diskArray : List Json
  networkArray : List Json
  locationArray : List Json
  timestampArray : List Json

def readSections (object : List (String × Json)) : Except JavaException Sections := do
  let cpuArray ← getAsJsonArray (← get object "cpu info")
  let memoryArray ← getAsJsonArray (← get object "memory info")
  let diskArray ← getAsJsonArray (← get object "disk info")
  let networkArray ← getAsJsonArray (← get object "network info")
  let locationArray ← getAsJsonArray (← get object "location info")
  let timestampArray ← getAsJsonArray (← get object "timestamp info")
  return { cpuArray, memoryArray, diskArray, networkArray, locationArray, timestampArray }

def readDockerArray (object : List (String × Json)) : Except JavaException (List Json) := do
  getAsJsonArray (← get object "docker info")

variable (gson : Gson) (object : List (String × Json)) (macAddress : Double)

def serverinfoPlan (sections : Sections) : List (Except JavaException Effect) :=
  (List.range sections.memoryArray.length).map fun i =>
    insertion .serverinfo macAddress <$> serverinfoValues gson sections.diskArray
      sections.memoryArray sections.networkArray sections.locationArray sections.timestampArray i

def cpuinfoPlan (cpuArray : List Json) : List (Except JavaException Effect) :=
  (List.range cpuArray.length).map fun i =>
    insertion .cpuinfo macAddress <$> cpuinfoValues gson cpuArray i

def dockerinfoPlan : List (Except JavaException Effect) :=
  if has object "docker info" then
    Plan.afterReading (readDockerArray object) fun dockerArray =>
      (List.range dockerArray.length).map fun i =>
        insertion .dockerinfo macAddress <$> dockerinfoValues gson dockerArray i
  else []

/-- The insertions which a document asks for, in their order. -/
def plan : List (Except JavaException Effect) :=
  Plan.afterReading (readSections object) fun sections =>
    serverinfoPlan gson macAddress sections ++
      (cpuinfoPlan gson macAddress sections.cpuArray ++ dockerinfoPlan gson object macAddress)

/-! ## Carrying out the plan -/

theorem performs_prepareStatement {connection : ℕ} {sql : Sql}
    {continuation : PreparedStatement → Java Unit} {plan : List (Except JavaException Effect)}
    (performs : ∀ handle, Performs executed refused (continuation ⟨handle, sql, []⟩) plan) :
    Performs executed refused (prepareStatement (some connection) sql >>= continuation) plan := by
  intro log
  apply Program.ensures_bind
  apply Program.ensures_request_bind
  rintro answer after rfl
  cases answer with
  | none => exact ⟨[], List.nil_prefix, by simp [executed], by simp [refused]⟩
  | some handle =>
      apply Program.ensures_pure
      simpa [executed, refused] using performs handle log

theorem performs_executeUpdate {statement : PreparedStatement} {change : Effect}
    (effect : statement.effect = some change) :
    Performs executed refused (executeUpdate statement >>= fun _ => close statement)
      [.ok change] := by
  intro log
  apply Program.ensures_bind
  apply Program.ensures_request_bind
  rintro success after rfl
  cases success with
  | false => exact ⟨[], List.nil_prefix, by simp [executed], by simp [refused]⟩
  | true =>
      apply Program.ensures_pure
      apply Program.ensures_request_bind
      rintro closed after rfl
      cases closed with
      | false =>
          refine ⟨[change], List.prefix_rfl, by simp [executed, effect], by simp [refused]⟩
      | true =>
          apply Program.ensures_pure
          refine ⟨Plan.complete_singleton_ok change, ?_⟩
          simp [executed, refused, effect, Plan.readable]

variable {gson object macAddress} {connection : ℕ}

theorem insertServerinfo_performs
    (diskArray memoryArray networkArray locationArray timestampArray : List Json) (i : ℕ) :
    Performs executed refused
      (insertServerinfo gson (some connection) macAddress diskArray memoryArray networkArray
        locationArray timestampArray i)
      [insertion .serverinfo macAddress <$> serverinfoValues gson diskArray memoryArray
        networkArray locationArray timestampArray i] := by
  iterate 8
    apply Program.performs_read_map
    intro value
  apply performs_prepareStatement
  intro handle
  repeat
    apply Program.performs_read_map
    intro value
  apply performs_executeUpdate
  rfl

theorem insertCpuinfo_performs (cpuArray : List Json) (i : ℕ) :
    Performs executed refused (insertCpuinfo gson (some connection) macAddress cpuArray i)
      [insertion .cpuinfo macAddress <$> cpuinfoValues gson cpuArray i] := by
  iterate 2
    apply Program.performs_read_map
    intro value
  apply performs_prepareStatement
  intro handle
  repeat
    apply Program.performs_read_map
    intro value
  apply performs_executeUpdate
  rfl

theorem insertDockerinfo_performs (dockerArray : List Json) (i : ℕ) :
    Performs executed refused (insertDockerinfo gson (some connection) macAddress dockerArray i)
      [insertion .dockerinfo macAddress <$> dockerinfoValues gson dockerArray i] := by
  iterate 2
    apply Program.performs_read_map
    intro value
  apply performs_prepareStatement
  intro handle
  repeat
    apply Program.performs_read_map
    intro value
  apply performs_executeUpdate
  rfl

theorem insertRows_performs :
    Performs executed refused (insertRows gson (some connection) object macAddress)
      (plan gson object macAddress) := by
  unfold plan readSections
  simp only [Plan.afterReading_bind]
  iterate 12
    apply Program.performs_read
    intro value
  apply Program.Performs.seq
  · exact Program.performs_forM (insertServerinfo_performs _ _ _ _ _) _
  · apply Program.Performs.seq
    · exact Program.performs_forM (insertCpuinfo_performs _) _
    · unfold dockerinfoPlan
      split
      · unfold readDockerArray
        simp only [Plan.afterReading_bind]
        iterate 2
          apply Program.performs_read
          intro value
        exact Program.performs_forM (insertDockerinfo_performs _) _
      · exact Program.performs_pure

/-- A deletion takes effect or is refused; `deleteTable` ends normally in any case. -/
theorem deleteTable_attempts (table : Table) (id : Double) :
    Program.Attempts executed refused (deleteTable (some connection) table id)
      [.delete table id] := by
  intro log
  apply Program.ensures_tryCatch
  apply Program.ensures_bind
  apply Program.ensures_bind
  apply Program.ensures_request_bind
  rintro answer after rfl
  cases answer with
  | none => exact ⟨[], by simp, by simp [executed], by simp [refused]⟩
  | some handle =>
      apply Program.ensures_pure
      apply Program.ensures_bind
      apply Program.ensures_request_bind
      rintro success after rfl
      cases success with
      | false => exact ⟨[], by simp, by simp [executed], by simp [refused]⟩
      | true =>
          apply Program.ensures_pure
          apply Program.ensures_request_bind
          rintro closed after rfl
          cases closed with
          | false =>
              exact ⟨_, List.Sublist.refl _, by simp [executed, PreparedStatement.effect],
                by simp [refused]⟩
          | true =>
              apply Program.ensures_pure
              exact ⟨_, List.Sublist.refl _, by simp [executed, PreparedStatement.effect],
                by simp [refused]⟩

def deletions (id : Double) : List Effect :=
  [.delete .serverinfo id, .delete .dockerinfo id, .delete .cpuinfo id]

theorem deleteRows_attempts :
    Program.Attempts executed refused (deleteRows (some connection) macAddress)
      (deletions macAddress) :=
  (deleteTable_attempts _ _).seq ((deleteTable_attempts _ _).seq (deleteTable_attempts _ _))

end HumanMachine.Server
