import HumanMachine.Client.Commands
import HumanMachine.Client.DataToJson
import Mathlib.Tactic.NormNum

/-!
# The network rates

`linux_command` samples the byte counters of the interfaces twice, and
`data_to_json` takes the differences. In the vectors the counter of the received
bytes of an interface stands before that of its sent bytes, because `ifconfig`
prints them in this order; `data_to_json` reads them the other way round. So an
entry has the right rates only for an interface which has received as many bytes
as it has sent.
-/

namespace HumanMachine.Client

/-! ## The output of `ifconfig` -/

/-- A line which the filter leaves out. -/
structure OtherLine where
  line : Bytes
  whole : 10 ∉ line
  other : ¬ascii "X packets" <:+: line

/-- A line such as `RX packets 5  bytes 420 (420.0 B)`, with a counter of 64 bits. -/
structure CounterLine (label : Bytes) where
  line : Bytes
  bytes : ℕ
  whole : 10 ∉ line
  labelled : label ++ ascii " packets" <:+: line
  counted : (fields line)[4]? = some (decimal bytes)
  bounded : bytes < 2 ^ 64

/-- What `ifconfig` prints about an interface. -/
structure Interface where
  name : Bytes
  heading : OtherLine
  named : name <+: heading.line
  before : List OtherLine
  rx : CounterLine (ascii "RX")
  between : List OtherLine
  tx : CounterLine (ascii "TX")
  behind : List OtherLine

def Interface.lines (interface : Interface) : List Bytes :=
  interface.heading.line :: interface.before.map OtherLine.line ++
    interface.rx.line :: interface.between.map OtherLine.line ++
    interface.tx.line :: interface.behind.map OtherLine.line

def ifconfig (interfaces : List Interface) : Bytes :=
  unlines (interfaces.flatMap Interface.lines)

/-- The vector of one sample, `ifconfig | grep "X packets" | awk '{print $5}'`. -/
def ethInfo (output : Bytes) : List Double :=
  execCommand (awkPrint 5 (grep (ascii "X packets") output))

theorem Interface.whole {interface : Interface} {line : Bytes} (mem : line ∈ interface.lines) :
    10 ∉ line := by
  simp only [Interface.lines, List.mem_append, List.mem_cons, List.mem_map] at mem
  rcases mem with ((rfl | ⟨other, _, rfl⟩) | rfl | ⟨other, _, rfl⟩) | rfl | ⟨other, _, rfl⟩
  · exact interface.heading.whole
  · exact other.whole
  · exact interface.rx.whole
  · exact other.whole
  · exact interface.tx.whole
  · exact other.whole

theorem CounterLine.selected (letter : UInt8) {label : Bytes} (split : label = [letter, 88])
    (counter : CounterLine label) : ascii "X packets" <:+: counter.line := by
  have within : ascii "X packets" <:+: label ++ ascii " packets" :=
    ⟨[letter], [], by simp [split, ascii]⟩
  exact within.trans counter.labelled

theorem filter_otherLines (lines : List OtherLine) :
    (lines.map OtherLine.line).filter (fun line => ascii "X packets" <:+: line) = [] := by
  simp [List.filter_eq_nil_iff, OtherLine.other]

theorem Interface.selected (interface : Interface) :
    interface.lines.filter (fun line => ascii "X packets" <:+: line) =
      [interface.rx.line, interface.tx.line] := by
  simp [Interface.lines, List.filter_append, filter_otherLines, interface.heading.other,
    interface.rx.selected 82 rfl, interface.tx.selected 84 rfl]

/-- The counters in a vector: received and sent, for one interface after the other. -/
def counters (interfaces : List Interface) : List ℕ :=
  interfaces.flatMap fun interface => [interface.rx.bytes, interface.tx.bytes]

theorem counters_bounded {interfaces : List Interface} {bytes : ℕ}
    (mem : bytes ∈ counters interfaces) : bytes < 2 ^ 64 := by
  simp only [counters, List.mem_flatMap, List.mem_cons, List.not_mem_nil, or_false] at mem
  rcases mem with ⟨interface, _, rfl | rfl⟩
  · exact interface.rx.bounded
  · exact interface.tx.bounded

theorem pipeline_ifconfig (interfaces : List Interface) :
    awkPrint 5 (grep (ascii "X packets") (ifconfig interfaces)) =
      unlines ((counters interfaces).map fun (bytes : ℕ) => decimal bytes) := by
  rw [ifconfig, awkPrint_grep, List.filter_flatMap]
  · simp [Interface.selected, counters, List.map_flatMap, CounterLine.counted]
  · intro line mem
    rcases List.mem_flatMap.mp mem with ⟨interface, _, mem⟩
    exact interface.whole mem

theorem ethInfo_ifconfig (interfaces : List Interface) :
    ethInfo (ifconfig interfaces) = (counters interfaces).map fun (bytes : ℕ) => .fin bytes := by
  rw [ethInfo, execCommand, pipeline_ifconfig, storeResult_unlines]
  · simp [atof_decimal]
  all_goals
    intro line mem
    rcases List.mem_map.mp mem with ⟨bytes, among, rfl⟩
  · exact not_mem_decimal (by decide)
  · exact not_mem_decimal (by decide)
  · have := length_decimal_le (k := 20) (by decide) ((counters_bounded among).trans (by decide))
    omega

theorem getElem?_flatMap_pair {α β : Type} (f g : α → β) (elements : List α) (k : ℕ) :
    (elements.flatMap fun element => [f element, g element])[2 * k]? = elements[k]?.map f ∧
      (elements.flatMap fun element => [f element, g element])[2 * k + 1]? =
        elements[k]?.map g := by
  induction elements generalizing k with
  | nil => simp
  | cons element elements ih =>
      cases k with
      | zero => simp
      | succ k => simpa [Nat.mul_succ] using ih k

theorem getElem?_ethInfo {interfaces : List Interface} {k : ℕ} {interface : Interface}
    (listed : interfaces[k]? = some interface) :
    (ethInfo (ifconfig interfaces))[2 * k]? = some (.fin interface.rx.bytes) ∧
      (ethInfo (ifconfig interfaces))[2 * k + 1]? = some (.fin interface.tx.bytes) := by
  have pair := getElem?_flatMap_pair (fun interface : Interface => interface.rx.bytes)
    (fun interface => interface.tx.bytes) interfaces k
  rw [ethInfo_ifconfig, List.getElem?_map, List.getElem?_map, counters, pair.1, pair.2, listed]
  exact ⟨rfl, rfl⟩

theorem length_ethInfo (interfaces : List Interface) :
    (ethInfo (ifconfig interfaces)).length = 2 * interfaces.length := by
  rw [ethInfo_ifconfig, List.length_map]
  simp [counters, mul_comm]

/-! ## The entries -/

def received (earlier later : Interface) : ℚ :=
  later.rx.bytes - earlier.rx.bytes

def sent (earlier later : Interface) : ℚ :=
  later.tx.bytes - earlier.tx.bytes

structure Rates (k : ℕ) (upload download : ℚ) (entry : Json) : Prop where
  id : entry.get "id" = .num k
  upload : entry.get "upload rate" = .num (.fin upload)
  download : entry.get "download rate" = .num (.fin download)

theorem Rates.upload_eq {k : ℕ} {upload download otherUpload otherDownload : ℚ} {entry : Json}
    (rates : Rates k upload download entry) (others : Rates k otherUpload otherDownload entry) :
    upload = otherUpload := by
  simpa using rates.upload.symm.trans others.upload

theorem network_of_ethInfo {first second : List Interface} {samples : Samples}
    (ethFirstInfo : samples.ethFirstInfo = ethInfo (ifconfig first))
    (ethSecondInfo : samples.ethSecondInfo = ethInfo (ifconfig second)) {k : ℕ}
    {earlier later : Interface} (before : first[k]? = some earlier)
    (after : second[k]? = some later) :
    ∃ entry, samples.network (2 * k) = some entry ∧
      Rates k (received earlier later / 1024) (sent earlier later / 1024) entry := by
  rcases getElem?_ethInfo before with ⟨receivedBefore, sentBefore⟩
  rcases getElem?_ethInfo after with ⟨receivedAfter, sentAfter⟩
  have position : (2 * k + 1) / 2 = k := by omega
  have scale : (1024 : ℚ) ≠ 0 := by decide
  simp only [Samples.network, ethFirstInfo, ethSecondInfo, receivedBefore, sentBefore,
    receivedAfter, sentAfter, position, bind, Option.bind_some, Double.fin_sub_fin, pure,
    Double.fin_div_fin scale]
  refine ⟨_, rfl, ?_⟩
  constructor <;> simp [Json.get, Json.member?_set, received, sent]

/-- Two outputs of `ifconfig`, with the vectors and the document made of them. -/
structure Sampled (first second : List Interface) (samples : Samples) (document : Json) : Prop where
  same : first.map Interface.name = second.map Interface.name
  ethFirstInfo : samples.ethFirstInfo = ethInfo (ifconfig first)
  ethSecondInfo : samples.ethSecondInfo = ethInfo (ifconfig second)
  built : dataToJson samples = some document

namespace Sampled

variable {first second : List Interface} {samples : Samples} {document : Json}

theorem length_eq (sampled : Sampled first second samples document) :
    first.length = second.length := by
  simpa using congrArg List.length sampled.same

theorem network_rates (sampled : Sampled first second samples document) {k : ℕ}
    {earlier later : Interface} (before : first[k]? = some earlier)
    (after : second[k]? = some later) {entry : Json} (built : samples.network (2 * k) = some entry) :
    Rates k (received earlier later / 1024) (sent earlier later / 1024) entry := by
  rcases network_of_ethInfo sampled.ethFirstInfo sampled.ethSecondInfo before after with
    ⟨other, builtToo, rates⟩
  obtain rfl : other = entry := Option.some_inj.mp (builtToo.symm.trans built)
  exact rates

theorem exists_network (sampled : Sampled first second samples document) :
    ∃ entries, Section document "network info" entries ∧ entries.length = first.length ∧
      ∀ k earlier later entry, first[k]? = some earlier → second[k]? = some later →
        entries[k]? = some entry →
          Rates k (received earlier later / 1024) (sent earlier later / 1024) entry := by
  rcases (dataToJson_built sampled.built).network with ⟨entries, built, isSection⟩
  rw [sampled.ethFirstInfo, length_ethInfo, evenIndices_double] at built
  refine ⟨entries, isSection, ?_, ?_⟩
  · simpa using built.length_eq.symm
  · intro k earlier later entry before after listed
    have within : k < first.length := (List.getElem?_eq_some_iff.mp before).1
    have index : ((List.range first.length).map (2 * ·))[k]? = some (2 * k) := by
      simp [within]
    exact sampled.network_rates before after (built.entry_eq index listed)

end Sampled

/-- The entries of the interfaces, with the rate of sending for the upload. -/
def Directed (first second : List Interface) (entries : List Json) : Prop :=
  entries.length = first.length ∧ ∀ (k : ℕ) (earlier later : Interface) (entry : Json),
    first[k]? = some earlier → second[k]? = some later → entries[k]? = some entry →
      Rates k (sent earlier later / 1024) (received earlier later / 1024) entry

theorem Sampled.received_eq_sent {first second : List Interface} {samples : Samples}
    {document : Json} (sampled : Sampled first second samples document)
    (directed : ∃ entries, Section document "network info" entries ∧ Directed first second entries)
    {k : ℕ} {earlier later : Interface} (before : first[k]? = some earlier)
    (after : second[k]? = some later) : received earlier later = sent earlier later := by
  rcases sampled.exists_network with ⟨entries, isSection, length, rates⟩
  rcases directed with ⟨others, alsoSection, _, directed⟩
  obtain rfl := isSection.unique alsoSection
  have within : k < entries.length := length ▸ (List.getElem?_eq_some_iff.mp before).1
  have listed : entries[k]? = some entries[k] := List.getElem?_eq_getElem within
  have swapped := (rates k earlier later _ before after listed).upload_eq
    (directed k earlier later _ before after listed)
  have scale : (1024 : ℚ) ≠ 0 := by decide
  exact (div_left_inj' scale).mp swapped

/-- The rates of a document are right exactly when every interface has sent as much as it has
received. -/
theorem network_rates_directed_iff {first second : List Interface} {samples : Samples}
    {document : Json} (sampled : Sampled first second samples document) :
    (∃ entries, Section document "network info" entries ∧ Directed first second entries) ↔
      ∀ (k : ℕ) (earlier later : Interface), first[k]? = some earlier → second[k]? = some later →
        received earlier later = sent earlier later := by
  constructor
  · intro directed k earlier later before after
    exact sampled.received_eq_sent directed before after
  · intro balanced
    rcases sampled.exists_network with ⟨entries, isSection, length, rates⟩
    refine ⟨entries, isSection, length, ?_⟩
    intro k earlier later entry before after listed
    have written := rates k earlier later entry before after listed
    rwa [balanced k earlier later before after] at written ⊢

/-! ### A machine which only receives -/

def heading : OtherLine :=
  ⟨ascii "eth0: flags=4163<UP,BROADCAST,RUNNING,MULTICAST>  mtu 1500", by decide, by decide⟩

def sentOnce : CounterLine (ascii "TX") where
  line := ascii "        TX packets 7  bytes 512 (512.0 B)"
  bytes := 512
  whole := by decide
  labelled := by decide
  counted := by decide
  bounded := by decide

def atFirst : Interface where
  name := ascii "eth0"
  heading := heading
  named := by decide
  before := []
  rx := {
    line := ascii "        RX packets 9  bytes 1024 (1.0 KiB)"
    bytes := 1024
    whole := by decide
    labelled := by decide
    counted := by decide
    bounded := by decide }
  between := []
  tx := sentOnce
  behind := []

def afterDownload : Interface := {
  atFirst with
  rx := {
    line := ascii "        RX packets 11  bytes 3072 (3.0 KiB)"
    bytes := 3072
    whole := by decide
    labelled := by decide
    counted := by decide
    bounded := by decide } }

def downloadSamples : Samples where
  cpuSourceAvailable := []
  cpuMHz := []
  cpuCores := []
  memoryTotalInfo := [.fin 8]
  memoryAvailableInfo := [.fin 2]
  diskTotalInfo := [.fin 100]
  diskAvailableInfo := [.fin 50]
  ethFirstInfo := [.fin 1024, .fin 512]
  ethSecondInfo := [.fin 3072, .fin 512]
  dockerIDInfo := []
  dockerCpuInfo := []
  dockerMemoryUsageInfo := []
  dockerMemoryLimitInfo := []
  dockerMemoryInfo := []
  macAddressId := [.fin 1]
  locationInfo := ["here"]
  timestampInfo := ["now"]

theorem exists_downloadDocument :
    ∃ document, Sampled [atFirst] [afterDownload] downloadSamples document := by
  have built : (dataToJson downloadSamples).isSome := by decide
  rcases Option.isSome_iff_exists.mp built with ⟨document, built⟩
  refine ⟨document, by simp [afterDownload], ?_, ?_, built⟩
  · simp [ethInfo_ifconfig, counters, downloadSamples, atFirst, sentOnce]
  · simp [ethInfo_ifconfig, counters, downloadSamples, afterDownload, atFirst, sentOnce]

theorem download_unbalanced : received atFirst afterDownload ≠ sent atFirst afterDownload := by
  norm_num [received, sent, atFirst, afterDownload, sentOnce]

/-- The machine has received 2048 bytes and sent nothing. -/
theorem download_is_no_upload :
    ∃ samples document, Sampled [atFirst] [afterDownload] samples document ∧
      ¬∃ entries, Section document "network info" entries ∧
        Directed [atFirst] [afterDownload] entries := by
  rcases exists_downloadDocument with ⟨document, sampled⟩
  refine ⟨downloadSamples, document, sampled, ?_⟩
  intro directed
  exact download_unbalanced (sampled.received_eq_sent directed (k := 0) rfl rfl)

theorem network_rates_directed_iff_download :
    ∃ samples document, Sampled [atFirst] [afterDownload] samples document ∧
      ((∃ entries, Section document "network info" entries ∧
          Directed [atFirst] [afterDownload] entries) ↔
        received atFirst afterDownload = sent atFirst afterDownload) := by
  rcases exists_downloadDocument with ⟨document, sampled⟩
  refine ⟨downloadSamples, document, sampled, (network_rates_directed_iff sampled).trans ?_⟩
  constructor
  · intro balanced
    exact balanced 0 atFirst afterDownload rfl rfl
  · intro balanced
    exact absurd balanced download_unbalanced

end HumanMachine.Client
