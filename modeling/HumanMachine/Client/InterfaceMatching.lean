import HumanMachine.Client.NetworkRates
import Mathlib.Tactic.Linarith

/-!
# Which interface a rate belongs to

`data_to_json` subtracts the counters which stand at the same position of the two
samples. `grep` and `awk` have removed the names before, so that nothing else is
known there. The positions agree as long as the interfaces of the first sample
are the first ones of the second sample too, in the same order.
-/

namespace HumanMachine.Client

inductive Counter
  | rx
  | tx
  deriving DecidableEq

def Interface.reading (interface : Interface) : Counter → ℕ
  | .rx => interface.rx.bytes
  | .tx => interface.tx.bytes

/-- An interface with this name shows this number of bytes. -/
def Shows (interfaces : List Interface) (name : Bytes) (counter : Counter) (bytes : ℕ) : Prop :=
  ∃ interface ∈ interfaces, interface.name = name ∧ interface.reading counter = bytes

/-- The vectors of the two samples. -/
structure Sampling (first second : List Interface) (samples : Samples) : Prop where
  ethFirstInfo : samples.ethFirstInfo = ethInfo (ifconfig first)
  ethSecondInfo : samples.ethSecondInfo = ethInfo (ifconfig second)

/-- The `k`th network entry, in the loop and in every document. -/
structure Emits (samples : Samples) (k : ℕ) (entry : Json) : Prop where
  built : samples.network (2 * k) = some entry
  listed : ∀ document, dataToJson samples = some document →
    ∃ entries, Section document "network info" entries ∧ entries[k]? = some entry

/-- The rate is the difference of two readings of one counter of one interface. -/
def IsDifference (first second : List Interface) (name : Bytes) (counter : Counter)
    (rate : Json) : Prop :=
  ∃ earlier later : ℕ, Shows first name counter earlier ∧ Shows second name counter later ∧
    rate = .num (.fin ((later - earlier) / 1024))

/-- Whatever two outputs with these names show, the rate of the `k`th entry is the difference of two
readings of this counter. -/
def TakenFrom (names laterNames : List Bytes) (k : ℕ) (key : String) (name : Bytes)
    (counter : Counter) : Prop :=
  ∀ first second samples, first.map Interface.name = names →
    second.map Interface.name = laterNames → Sampling first second samples →
      ∃ entry, Emits samples k entry ∧ IsDifference first second name counter (entry.get key)

section

variable {first second : List Interface} {samples : Samples} {k : ℕ}

theorem Sampling.emits (sampling : Sampling first second samples) {entry : Json}
    (within : k < first.length) (built : samples.network (2 * k) = some entry) :
    Emits samples k entry := by
  refine ⟨built, ?_⟩
  intro document isDocument
  rcases (dataToJson_built isDocument).network with ⟨entries, all, isSection⟩
  rw [sampling.ethFirstInfo, length_ethInfo, evenIndices_double] at all
  have index : ((List.range first.length).map (2 * ·))[k]? = some (2 * k) := by
    simp [within]
  exact ⟨entries, isSection, all.getElem?_eq index built⟩

theorem Sampling.exists_emits (sampling : Sampling first second samples)
    {earlier later : Interface} (before : first[k]? = some earlier)
    (after : second[k]? = some later) :
    ∃ entry, Emits samples k entry ∧
      Rates k (received earlier later / 1024) (sent earlier later / 1024) entry := by
  rcases network_of_ethInfo sampling.ethFirstInfo sampling.ethSecondInfo before after with
    ⟨entry, built, rates⟩
  exact ⟨entry, sampling.emits (List.getElem?_eq_some_iff.mp before).1 built, rates⟩

theorem Sampling.within_second (sampling : Sampling first second samples) {entry : Json}
    (built : samples.network (2 * k) = some entry) : k < second.length := by
  rw [Samples.network] at built
  rcases Option.bind_eq_some_iff.mp built with ⟨later, read, _⟩
  rw [sampling.ethSecondInfo] at read
  have within := (List.getElem?_eq_some_iff.mp read).1
  rw [length_ethInfo] at within
  omega

theorem Interface.shows {interfaces : List Interface} {interface : Interface}
    (listed : interfaces[k]? = some interface) (counter : Counter) :
    Shows interfaces interface.name counter (interface.reading counter) :=
  ⟨interface, List.mem_of_getElem? listed, rfl, rfl⟩

/-! ## Equal names at equal positions -/

/-- The counter from which a rate is taken: `data_to_json` has them the other way round. -/
def counterOf (key : String) : Counter :=
  if key = "upload rate" then .rx else .tx

theorem Sampling.isDifference (sampling : Sampling first second samples)
    {earlier later : Interface} (before : first[k]? = some earlier)
    (after : second[k]? = some later) (same : earlier.name = later.name) {key : String}
    (isRate : key ∈ ["upload rate", "download rate"]) :
    ∃ entry, Emits samples k entry ∧
      IsDifference first second earlier.name (counterOf key) (entry.get key) := by
  rcases sampling.exists_emits before after with ⟨entry, emits, rates⟩
  refine ⟨entry, emits, earlier.reading (counterOf key), later.reading (counterOf key),
    Interface.shows before _, same ▸ Interface.shows after _, ?_⟩
  simp only [List.mem_cons, List.not_mem_nil, or_false] at isRate
  rcases isRate with rfl | rfl
  · exact rates.upload
  · exact rates.download

end

/-! ## One byte at one counter -/

/-- The line of a counter which shows 1 if it is marked, else 0. -/
def rxLine (marked : Bool) : CounterLine (ascii "RX") where
  line := ascii (if marked then "RX packets 1  bytes 1" else "RX packets 0  bytes 0")
  bytes := if marked then 1 else 0
  whole := by cases marked <;> decide
  labelled := by cases marked <;> decide
  counted := by cases marked <;> decide
  bounded := by cases marked <;> decide

def txLine : CounterLine (ascii "TX") where
  line := ascii "TX packets 0  bytes 0"
  bytes := 0
  whole := by decide
  labelled := by decide
  counted := by decide
  bounded := by decide

/-- The interface, with nothing but one received byte, or nothing at all. -/
def Interface.marked (interface : Interface) (marked : Bool) : Interface :=
  { interface with rx := rxLine marked, tx := txLine }

/-- The interfaces, the `k`th one with one received byte. -/
def marking (interfaces : List Interface) (k : ℕ) : List Interface :=
  interfaces.mapIdx fun i interface => interface.marked (i = k)

@[simp]
theorem map_name_marking (interfaces : List Interface) (k : ℕ) :
    (marking interfaces k).map Interface.name = interfaces.map Interface.name := by
  apply List.ext_getElem <;> simp [marking, Interface.marked]

theorem getElem?_marking {interfaces : List Interface} {i : ℕ} {interface : Interface}
    (listed : interfaces[i]? = some interface) (k : ℕ) :
    (marking interfaces k)[i]? = some (interface.marked (i = k)) := by
  simp [marking, listed]

/-- Only the marked interface shows anything but 0. -/
theorem Shows.eq_zero_or_marked {interfaces : List Interface} {k : ℕ} {name : Bytes}
    {counter : Counter} {bytes : ℕ} (shows_ : Shows (marking interfaces k) name counter bytes) :
    bytes = 0 ∨ (interfaces.map Interface.name)[k]? = some name := by
  rcases shows_ with ⟨interface, mem, rfl, rfl⟩
  rcases List.mem_mapIdx.mp mem with ⟨i, within, rfl⟩
  cases counter with
  | tx => exact Or.inl rfl
  | rx =>
      by_cases same : i = k
      · subst same
        right
        simp [Interface.marked, within]
      · left
        simp [Interface.marked, Interface.reading, rxLine, same]

/-- Samples with these counters. -/
def samplesOf (first second : List Interface) : Samples :=
  { downloadSamples with
    ethFirstInfo := ethInfo (ifconfig first)
    ethSecondInfo := ethInfo (ifconfig second) }

theorem sampling_samplesOf (first second : List Interface) :
    Sampling first second (samplesOf first second) :=
  ⟨rfl, rfl⟩

/-- One byte at an interface of the first sample and one at an interface of the second are a rate
of the counter which shows them. -/
theorem TakenFrom.marked {first second : List Interface} {k : ℕ} {name : Bytes}
    {counter : Counter} (within : k < first.length)
    (taken : TakenFrom (first.map Interface.name) (second.map Interface.name) k "upload rate" name
      counter) (i j : ℕ) :
    k < second.length ∧ ∃ earlier later : ℕ,
      (earlier = 0 ∨ (first.map Interface.name)[i]? = some name) ∧
      (later = 0 ∨ (second.map Interface.name)[j]? = some name) ∧
      (later - earlier : ℚ) = (if k = j then 1 else 0) - if k = i then 1 else 0 := by
  have sampling := sampling_samplesOf (marking first i) (marking second j)
  rcases taken _ _ _ (map_name_marking first i) (map_name_marking second j) sampling with
    ⟨entry, emits, earlier, later, shownBefore, shownAfter, rate⟩
  have withinSecond : k < second.length := by
    simpa [marking] using sampling.within_second emits.built
  rcases sampling.exists_emits (getElem?_marking (List.getElem?_eq_getElem within) i)
    (getElem?_marking (List.getElem?_eq_getElem withinSecond) j) with ⟨other, alsoEmits, rates⟩
  obtain rfl : other = entry := Option.some_inj.mp (alsoEmits.built.symm.trans emits.built)
  have same := Double.fin.inj (Json.num.inj (rate.symm.trans rates.upload))
  refine ⟨withinSecond, earlier, later, shownBefore.eq_zero_or_marked,
    shownAfter.eq_zero_or_marked, ?_⟩
  have scale : (1024 : ℚ) ≠ 0 := by decide
  simpa [received, Interface.marked, rxLine] using (div_left_inj' scale).mp same

theorem TakenFrom.name_eq {first second : List Interface} {k : ℕ} {name : Bytes}
    {counter : Counter} (within : k < first.length)
    (taken : TakenFrom (first.map Interface.name) (second.map Interface.name) k "upload rate" name
      counter) :
    (first.map Interface.name)[k]? = some name ∧ (second.map Interface.name)[k]? = some name := by
  have withinSecond := (taken.marked within 0 0).1
  constructor
  · rcases taken.marked within k second.length with ⟨_, earlier, later, shownBefore, shownAfter, rate⟩
    rcases shownBefore with rfl | named
    · rcases shownAfter with rfl | beyond
      · simp [withinSecond.ne] at rate
      · simp at beyond
    · exact named
  · rcases taken.marked within first.length k with ⟨_, earlier, later, shownBefore, shownAfter, rate⟩
    rcases shownAfter with rfl | named
    · rcases shownBefore with rfl | beyond
      · simp [within.ne] at rate
      · simp at beyond
    · exact named

/-- Every rate is taken from one counter of one interface exactly if the interfaces of the first
sample are the first interfaces of the second one. -/
theorem rates_taken_from_one_interface_iff (first second : List Interface) :
    (∀ k < first.length, ∀ key ∈ ["upload rate", "download rate"], ∃ name counter,
      TakenFrom (first.map Interface.name) (second.map Interface.name) k key name counter) ↔
      first.map Interface.name <+: second.map Interface.name := by
  rw [List.prefix_iff_getElem?]
  constructor
  · intro taken k within
    have within : k < first.length := by simpa using within
    rcases taken k within "upload rate" (by simp) with ⟨name, counter, taken⟩
    rcases taken.name_eq within with ⟨before, after⟩
    rw [after, ← before, List.getElem?_eq_getElem]
  · intro agree k within key isRate
    refine ⟨first[k].name, counterOf key, ?_⟩
    intro earlierOnes laterOnes samples names laterNames sampling
    have same := agree k (by simpa using within)
    have withinEarlier : k < earlierOnes.length := by
      have := congrArg List.length names
      simp only [List.length_map] at this
      omega
    have before := List.getElem?_eq_getElem withinEarlier
    have isName : earlierOnes[k].name = first[k].name := by
      have := congrArg (·[k]?) names
      simpa [within, withinEarlier] using this
    rw [← laterNames, List.getElem?_map] at same
    rcases Option.map_eq_some_iff.mp same with ⟨later, after, laterName⟩
    rw [List.getElem_map] at laterName
    rw [← isName]
    exact sampling.isDifference before after (isName.trans laterName.symm) isRate

/-! ### A new interface in front -/

def docker0 : Interface where
  name := ascii "docker0"
  heading := ⟨ascii "docker0: flags=4099<UP,BROADCAST,MULTICAST>  mtu 1500", by decide, by decide⟩
  named := by decide
  before := []
  rx := rxLine false
  between := []
  tx := txLine
  behind := []

theorem reading_before_container {name : Bytes} {counter : Counter} {earlier later : ℕ}
    (before : Shows [atFirst] name counter earlier)
    (after : Shows [docker0, afterDownload] name counter later) : earlier ≤ later := by
  rcases before with ⟨_, mem, rfl, rfl⟩
  rcases after with ⟨interface, among, same, rfl⟩
  rw [List.mem_singleton.mp mem] at same ⊢
  simp only [List.mem_cons, List.not_mem_nil, or_false] at among
  rcases among with rfl | rfl
  · exact absurd same (by decide)
  · cases counter <;> decide

/-- A container starts, and the document has a rate of -1. -/
theorem docker0_shifts_rates :
    ∃ samples document entries entry, Sampling [atFirst] [docker0, afterDownload] samples ∧
      dataToJson samples = some document ∧ Section document "network info" entries ∧
      entries[0]? = some entry ∧ ∀ name counter,
        ¬IsDifference [atFirst] [docker0, afterDownload] name counter (entry.get "upload rate") := by
  have sampling := sampling_samplesOf [atFirst] [docker0, afterDownload]
  have built : (dataToJson (samplesOf [atFirst] [docker0, afterDownload])).isSome := by
    simp only [samplesOf, ethInfo_ifconfig]
    decide
  rcases Option.isSome_iff_exists.mp built with ⟨document, built⟩
  rcases sampling.exists_emits (k := 0) rfl rfl with ⟨entry, emits, rates⟩
  rcases emits.listed document built with ⟨entries, isSection, listed⟩
  refine ⟨_, document, entries, entry, sampling, built, isSection, listed, ?_⟩
  rintro name counter ⟨earlier, later, before, after, rate⟩
  have grows : (earlier : ℚ) ≤ later := by
    exact_mod_cast reading_before_container before after
  have same := Double.fin.inj (Json.num.inj (rate.symm.trans rates.upload))
  have negative : received atFirst docker0 = -1024 := by
    norm_num [received, atFirst, docker0, rxLine]
  rw [negative] at same
  linarith

end HumanMachine.Client
