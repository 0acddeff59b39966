import HumanMachine.Client.DataToJson
import HumanMachine.Client.Docker
import HumanMachine.Client.HashCode

/-!
# Sampling: `linux_command`

Every command fills a vector of its own, with as many elements as the output takes reads.
`data_to_json` takes the number of elements of one vector for that of another.
-/

namespace HumanMachine.Client

/-- The strings which `string_exec_command` appends; the array `buf` has 1000 bytes. -/
def stringExecCommand (output : Bytes) : List Bytes :=
  fgetsLoop 999 output.length output

/-- What the commands print, under the names of the vectors they fill. -/
structure Outputs where
  cpuSourceAvailable : Bytes
  cpuMHz : Bytes
  cpuCores : Bytes
  memoryTotalInfo : Bytes
  memoryAvailableInfo : Bytes
  diskTotalInfo : Bytes
  diskAvailableInfo : Bytes
  ethFirstInfo : Bytes
  ethSecondInfo : Bytes
  dockerInfo : Bytes
  macAddress : Bytes
  timestampInfo : Bytes

/-- The arguments of `data_to_json`; `decode` tells which text the bytes of a string are. -/
def Outputs.samples (decode : Bytes → String) (outputs : Outputs) (docker : DockerVectors)
    (macId : Double) (location : String) : Samples where
  cpuSourceAvailable := execCommand outputs.cpuSourceAvailable
  cpuMHz := execCommand outputs.cpuMHz
  cpuCores := execCommand outputs.cpuCores
  memoryTotalInfo := execCommand outputs.memoryTotalInfo
  memoryAvailableInfo := execCommand outputs.memoryAvailableInfo
  diskTotalInfo := execCommand outputs.diskTotalInfo
  diskAvailableInfo := execCommand outputs.diskAvailableInfo
  ethFirstInfo := execCommand outputs.ethFirstInfo
  ethSecondInfo := execCommand outputs.ethSecondInfo
  dockerIDInfo := docker.dockerIDInfo.map decode
  dockerCpuInfo := docker.dockerCpuInfo
  dockerMemoryUsageInfo := docker.dockerMemoryUsageInfo
  dockerMemoryLimitInfo := docker.dockerMemoryLimitInfo
  dockerMemoryInfo := docker.dockerMemoryInfo
  macAddressId := [macId]
  locationInfo := [location]
  timestampInfo := (stringExecCommand outputs.timestampInfo).map decode

def linuxCommand (decode : Bytes → String) (location : String) (outputs : Outputs) :
    Option Json := do
  let docker ← dockerLoop (stringExecCommand outputs.dockerInfo)
  let macAddress ← (stringExecCommand outputs.macAddress)[0]?
  -- The time is printed before it is passed on.
  let _ ← (stringExecCommand outputs.timestampInfo)[0]?
  dataToJson (outputs.samples decode docker (stringToHashCode macAddress) location)

/-! ## What the commands print -/

/-- The outputs take as many reads as `data_to_json` needs elements. -/
structure InRange (outputs : Outputs) : Prop where
  cpuSourceAvailable : readCount 98 outputs.cpuMHz ≤ readCount 98 outputs.cpuSourceAvailable
  cpuCores : readCount 98 outputs.cpuMHz ≤ readCount 98 outputs.cpuCores
  memoryTotalInfo : 0 < readCount 98 outputs.memoryTotalInfo
  memoryAvailableInfo : 0 < readCount 98 outputs.memoryAvailableInfo
  diskAvailableInfo : readCount 98 outputs.diskTotalInfo ≤ readCount 98 outputs.diskAvailableInfo
  ethFirstInfo : readCount 98 outputs.ethFirstInfo % 2 = 0
  ethSecondInfo : readCount 98 outputs.ethFirstInfo ≤ readCount 98 outputs.ethSecondInfo
  timestampInfo : 0 < readCount 998 outputs.timestampInfo

theorem length_execCommand (output : Bytes) : (execCommand output).length = readCount 98 output := by
  rw [execCommand, storeResult, List.length_map]
  exact length_fgetsLoop (by decide) (Nat.le_refl _)

theorem length_stringExecCommand (output : Bytes) :
    (stringExecCommand output).length = readCount 998 output :=
  length_fgetsLoop (by decide) (Nat.le_refl _)

theorem complete_samples_iff (decode : Bytes → String) (outputs : Outputs)
    (containers : List DockerEntry) (macId : Double) (location : String) :
    (outputs.samples decode (vectorsOf containers) macId location).Complete ↔ InRange outputs := by
  constructor
  · rintro ⟨source, cores, _, _, _, _, total, available, disk, even, later, _, _, timestamp⟩
    simp only [Outputs.samples, length_execCommand, List.length_map,
      length_stringExecCommand] at source cores total available disk even later timestamp
    exact ⟨source, cores, total, available, disk, even, later, timestamp⟩
  · rintro ⟨source, cores, total, available, disk, even, later, timestamp⟩
    constructor <;> simp only [Outputs.samples, vectorsOf, length_execCommand, List.length_map,
      length_stringExecCommand, List.length_singleton, Nat.le_refl, Nat.zero_lt_one, *]

/-- Every element which `data_to_json` reads exists exactly if the outputs take enough reads,
whatever the loop over the containers has made of their lines. -/
theorem sampled_reads_in_range_iff (decode : Bytes → String) (outputs : Outputs)
    (containers : List DockerEntry) (macId : Double) (location : String) :
    (dataToJson (outputs.samples decode (vectorsOf containers) macId location)).isSome ↔
      InRange outputs :=
  Samples.isSome_dataToJson_iff.trans
    (complete_samples_iff decode outputs containers macId location)

theorem isSome_head_stringExecCommand (output : Bytes) :
    (stringExecCommand output)[0]?.isSome ↔ 0 < readCount 998 output := by
  rw [← length_stringExecCommand]
  cases stringExecCommand output <;> simp

/-- The reads of `linux_command` itself, and those of `data_to_json`. -/
theorem isSome_linuxCommand_iff (decode : Bytes → String) (outputs : Outputs) (location : String) :
    (linuxCommand decode location outputs).isSome ↔
      (dockerLoop (stringExecCommand outputs.dockerInfo)).isSome ∧
        0 < readCount 998 outputs.macAddress ∧ 0 < readCount 998 outputs.timestampInfo ∧
        InRange outputs := by
  rw [linuxCommand, dockerLoop_eq, Option.isSome_map, Option.bind_eq_bind, Option.bind_map]
  apply isSome_bind_iff Iff.rfl
  intro containers
  apply isSome_bind_iff (isSome_head_stringExecCommand _)
  intro macAddress
  apply isSome_bind_iff (isSome_head_stringExecCommand _)
  intro _
  exact Samples.isSome_dataToJson_iff.trans (complete_samples_iff _ _ _ _ _)

/-! ### An interface disappears -/

/-- A machine with one interface, which the second output of `ifconfig` has lost. -/
def shrinking : Outputs where
  cpuSourceAvailable := ascii "99.00\n"
  cpuMHz := ascii "2400.000\n"
  cpuCores := ascii "4\n"
  memoryTotalInfo := ascii "8000000\n"
  memoryAvailableInfo := ascii "4000000\n"
  diskTotalInfo := ascii "1000000\n"
  diskAvailableInfo := ascii "500000\n"
  ethFirstInfo := ascii "1024\n512\n"
  ethSecondInfo := []
  dockerInfo := []
  macAddress := ascii "02:42:ac:11:00:02\n"
  timestampInfo := ascii "2020-01-01 00:00:00\n"

def latin (bytes : Bytes) : String :=
  .ofList (bytes.map fun byte => Char.ofNat byte.toNat)

/-- The second sample is read where it has no elements. -/
theorem shrinking_out_of_range :
    dockerLoop (stringExecCommand shrinking.dockerInfo) = some (vectorsOf []) ∧
      dataToJson (shrinking.samples latin (vectorsOf [])
        (stringToHashCode shrinking.macAddress) "here") = none := by
  refine ⟨rfl, ?_⟩
  rw [← Option.not_isSome_iff_eq_none, Samples.isSome_dataToJson_iff, complete_samples_iff]
  intro inRange
  exact absurd inRange.ethSecondInfo (by decide)

end HumanMachine.Client
