import HumanMachine.Client.DataToJson
import Mathlib.Algebra.BigOperators.Group.List.Basic
import Mathlib.Algebra.Order.BigOperators.Group.List
import Mathlib.Algebra.Order.Field.Basic
import Mathlib.Tactic.Linarith

/-!
# The used fractions

`data_to_json` divides what is available by the total, once for the memory and once for
the sums over the disks. What `atof` cannot read is 0, and a machine may have no disks at
all, so that the totals may be 0.
-/

namespace HumanMachine.Client

/-- Readings of the disks and the memory in which nothing exceeds its total. -/
structure Usage where
  diskTotals : List ℚ
  diskAvailables : List ℚ
  disks : List.Forall₂ (fun total available => 0 ≤ available ∧ available ≤ total)
    diskTotals diskAvailables
  memoryTotal : ℚ
  memoryAvailable : ℚ
  memory : 0 ≤ memoryAvailable ∧ memoryAvailable ≤ memoryTotal

namespace Usage

/-- The arguments of `data_to_json` with these readings; everything else is left open. -/
def samples (usage : Usage) (others : Samples) : Samples :=
  { others with
    diskTotalInfo := usage.diskTotals.map .fin
    diskAvailableInfo := usage.diskAvailables.map .fin
    memoryTotalInfo := .fin usage.memoryTotal :: others.memoryTotalInfo
    memoryAvailableInfo := .fin usage.memoryAvailable :: others.memoryAvailableInfo }

/-- An entry with a total, what is available of it, and a fraction which is used. -/
structure Proper (entry : Json) (total available : ℚ) : Prop where
  total : entry.member? "total" = some (.num (.fin total))
  available : entry.member? "available" = some (.num (.fin available))
  used : ∃ used, entry.member? "used" = some (.num (.fin used)) ∧ 0 ≤ used ∧ used ≤ 1

/-- The entry is the only one in the section of every document. -/
def Listed (samples : Samples) (key : String) (entry : Json) : Prop :=
  ∀ document, dataToJson samples = some document → Section document key [entry]

/-- The divisions are defined, and the entries they belong to are proper. -/
structure Defined (usage : Usage) (samples : Samples) : Prop where
  diskDivisor : ∃ total available, samples.diskSums = some (total, available) ∧ total ≠ 0
  disk : ∃ entry, samples.disk = some entry ∧ Listed samples "disk info" entry ∧
    Proper entry usage.diskTotals.sum usage.diskAvailables.sum
  memoryDivisor : ∃ total, samples.memoryTotalInfo[0]? = some total ∧ total ≠ 0
  memory : ∃ entry, samples.memory = some entry ∧ Listed samples "memory info" entry ∧
    Proper entry usage.memoryTotal usage.memoryAvailable

end Usage

/-! ## The sums over the disks -/

theorem getElem?_map_fin {values : List ℚ} {i : ℕ} (inRange : i < values.length) :
    (values.map Double.fin)[i]? = some (.fin (values.getD i 0)) := by
  simp [inRange]

theorem sum_take_succ {values : List ℚ} {n : ℕ} (inRange : n < values.length) :
    (values.take (n + 1)).sum = (values.take n).sum + values.getD n 0 := by
  rw [List.take_add_one, List.sum_append]
  simp [inRange]

theorem diskSums_take {totals availables : List ℚ} (lengths : availables.length = totals.length)
    {n : ℕ} (inRange : n ≤ totals.length) :
    (List.range n).foldlM
      (fun ((diskTotal, diskAvailable) : Double × Double) i => do
        return (diskTotal + (← (totals.map Double.fin)[i]?),
          diskAvailable + (← (availables.map Double.fin)[i]?)))
      (0, 0) = some (.fin (totals.take n).sum, .fin (availables.take n).sum) := by
  refine foldlM_range
    (fun i => (Double.fin (totals.take i).sum, Double.fin (availables.take i).sum)) ?_
  intro i less
  have total : i < totals.length := less.trans_le inRange
  have available := total.trans_eq lengths.symm
  simp only [getElem?_map_fin total, getElem?_map_fin available, Option.bind_eq_bind,
    Option.bind_some, Option.pure_def, Double.fin_add_fin, sum_take_succ total,
    sum_take_succ available]

theorem diskSums_of_fin {samples : Samples} {totals availables : List ℚ}
    (isTotal : samples.diskTotalInfo = totals.map .fin)
    (isAvailable : samples.diskAvailableInfo = availables.map .fin)
    (lengths : availables.length = totals.length) :
    samples.diskSums = some (.fin totals.sum, .fin availables.sum) := by
  have all := diskSums_take lengths (le_refl totals.length)
  rw [List.take_length, List.take_of_length_le lengths.le] at all
  rw [Samples.diskSums, isTotal, isAvailable, List.length_map]
  exact all

namespace Usage

variable (usage : Usage) (others : Samples)

theorem diskSums_eq : (usage.samples others).diskSums =
    some (.fin usage.diskTotals.sum, .fin usage.diskAvailables.sum) :=
  diskSums_of_fin rfl rfl usage.disks.length_eq.symm

/-- The sums are bounded like the readings. -/
theorem diskSums_bounded :
    0 ≤ usage.diskAvailables.sum ∧ usage.diskAvailables.sum ≤ usage.diskTotals.sum := by
  have bounded := usage.disks
  revert bounded
  generalize usage.diskTotals = totals, usage.diskAvailables = availables
  intro bounded
  induction bounded with
  | nil => simp
  | cons first rest ih =>
      simp only [List.sum_cons]
      constructor <;> linarith [first.1, first.2, ih.1, ih.2]

/-- The total of the disks is 0 only if every one is. -/
theorem sum_diskTotals_ne_zero_iff :
    usage.diskTotals.sum ≠ 0 ↔ ∃ total ∈ usage.diskTotals, total ≠ 0 := by
  have nonneg : ∀ total ∈ usage.diskTotals, 0 ≤ total := by
    intro total mem
    rcases List.mem_iff_getElem.mp mem with ⟨i, within, rfl⟩
    have bounds := usage.disks.get within (usage.disks.length_eq ▸ within)
    exact bounds.1.trans bounds.2
  constructor
  · intro nonzero
    by_contra none
    push Not at none
    exact nonzero (List.sum_eq_zero none)
  · rintro ⟨total, mem, nonzero⟩ zero
    exact nonzero (List.all_zero_of_le_zero_le_of_sum_eq_zero nonneg zero mem)

/-! ## The fractions -/

variable {usage others}

theorem used_bounded {total available : ℚ} (bounds : 0 ≤ available ∧ available ≤ total)
    (nonzero : total ≠ 0) : 0 ≤ 1 - available / total ∧ 1 - available / total ≤ 1 := by
  have positive : 0 < total := lt_of_le_of_ne (bounds.1.trans bounds.2) nonzero.symm
  have atMost : available / total ≤ 1 := (div_le_one positive).mpr bounds.2
  have atLeast : 0 ≤ available / total := div_nonneg bounds.1 positive.le
  constructor <;> linarith

/-- The entry which is made of a total and what is available of it. -/
def entryOf (total available : Double) : Json :=
  ((Json.null.set "total" (.num total)).set "available" (.num available)).set "used"
    (.num (1 - available / total))

theorem member?_entryOf (total available : Double) (key : String) :
    (entryOf total available).member? key =
      if key = "used" then some (.num (1 - available / total))
      else if key = "available" then some (.num available)
      else if key = "total" then some (.num total)
      else none := by
  simp only [entryOf, Json.member?_set]
  rfl

theorem proper_entryOf {total available : ℚ} (bounds : 0 ≤ available ∧ available ≤ total)
    (nonzero : total ≠ 0) : Proper (entryOf (.fin total) (.fin available)) total available := by
  have used : (1 : Double) - .fin available / .fin total = .fin (1 - available / total) := by
    rw [Double.fin_div_fin nonzero, Double.one_def, Double.fin_sub_fin]
  refine ⟨by simp [member?_entryOf], by simp [member?_entryOf], _, ?_, used_bounded bounds nonzero⟩
  rw [member?_entryOf, if_pos rfl, used]

theorem disk_eq : (usage.samples others).disk =
    some (entryOf (.fin usage.diskTotals.sum) (.fin usage.diskAvailables.sum)) := by
  rw [Samples.disk, diskSums_eq]
  rfl

theorem memory_eq : (usage.samples others).memory =
    some (entryOf (.fin usage.memoryTotal) (.fin usage.memoryAvailable)) :=
  rfl

theorem listed_disk {samples : Samples} {entry : Json} (is : samples.disk = some entry) :
    Listed samples "disk info" entry := by
  intro document built
  rcases (dataToJson_built built).disk with ⟨disk, isDisk, diskSection⟩
  rw [is] at isDisk
  cases isDisk
  exact diskSection

theorem listed_memory {samples : Samples} {entry : Json} (is : samples.memory = some entry) :
    Listed samples "memory info" entry := by
  intro document built
  rcases (dataToJson_built built).memory with ⟨memory, isMemory, memorySection⟩
  rw [is] at isMemory
  cases isMemory
  exact memorySection

theorem fin_ne_zero_iff {value : ℚ} : Double.fin value ≠ 0 ↔ value ≠ 0 := by
  change ¬Double.fin value = .fin 0 ↔ _
  rw [Double.fin.injEq]

/-- The divisions are defined and the fractions proper exactly if some disk and the memory
have a total. -/
theorem defined_iff (usage : Usage) (others : Samples) :
    usage.Defined (usage.samples others) ↔
      (∃ total ∈ usage.diskTotals, total ≠ 0) ∧ usage.memoryTotal ≠ 0 := by
  rw [← sum_diskTotals_ne_zero_iff]
  constructor
  · rintro ⟨⟨total, available, sums, nonzero⟩, _, ⟨memoryTotal, first, nonzeroMemory⟩, _⟩
    rw [diskSums_eq, Option.some.injEq, Prod.mk.injEq] at sums
    rw [← sums.1] at nonzero
    cases first
    exact ⟨fin_ne_zero_iff.mp nonzero, fin_ne_zero_iff.mp nonzeroMemory⟩
  · rintro ⟨diskTotal, memoryTotal⟩
    exact {
      diskDivisor := ⟨_, _, diskSums_eq usage others, fin_ne_zero_iff.mpr diskTotal⟩
      disk := ⟨_, disk_eq, listed_disk disk_eq,
        proper_entryOf usage.diskSums_bounded diskTotal⟩
      memoryDivisor := ⟨_, rfl, fin_ne_zero_iff.mpr memoryTotal⟩
      memory := ⟨_, memory_eq, listed_memory memory_eq,
        proper_entryOf usage.memory memoryTotal⟩ }

/-! ### A machine without disks -/

/-- The memory is half used, and `df` prints nothing. -/
def diskless : Usage where
  diskTotals := []
  diskAvailables := []
  disks := .nil
  memoryTotal := 8
  memoryAvailable := 4
  memory := by norm_num

/-- What is sampled besides; there is no cpu, no container and no network. -/
def bareSamples : Samples where
  cpuSourceAvailable := []
  cpuMHz := []
  cpuCores := []
  memoryTotalInfo := []
  memoryAvailableInfo := []
  diskTotalInfo := []
  diskAvailableInfo := []
  ethFirstInfo := []
  ethSecondInfo := []
  dockerIDInfo := []
  dockerCpuInfo := []
  dockerMemoryUsageInfo := []
  dockerMemoryLimitInfo := []
  dockerMemoryInfo := []
  macAddressId := [.fin 7]
  locationInfo := ["lab"]
  timestampInfo := ["noon"]

/-- The fraction of its disks in the document is 0 divided by 0. -/
theorem diskless_not_defined :
    (dataToJson (diskless.samples bareSamples)).isSome ∧
      (diskless.samples bareSamples).disk = some (entryOf 0 0) ∧
      (entryOf 0 0).member? "used" = some (.num .nan) ∧
      ¬diskless.Defined (diskless.samples bareSamples) := by
  refine ⟨?_, disk_eq, by rw [member?_entryOf]; rfl, ?_⟩
  · rw [Samples.isSome_dataToJson_iff]
    constructor <;> decide
  · rw [defined_iff]
    simp [diskless]

end Usage

end HumanMachine.Client
