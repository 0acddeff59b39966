import HumanMachine.Document.EndToEnd
import HumanMachine.Document.Reports

/-!
# The tables and the tools

The network of clients and their server once more, with the tools of a machine on one side and
the tables on the other: whenever the servlet is not at work for the machine, its rows are the
numbers and texts which its tools have printed for the last request that has reached the servlet.
-/

namespace HumanMachine.Client

open Server (Gson Database neighbourMembers)

/-- Requests reach the servlet as they were sent, and the database accepts all statements. -/
def Label.Intact (gson : Gson) (toStyledString : Json → Bytes) : Label → Prop
  | .arrive request (.reached input) => ∀ root, request = uploadHead toStyledString root ++ [0] →
      ∃ body, Server.getBodyData input = some body ∧ gson.parse body = .ok root
  | .serve ⟨.inr command, answer⟩ =>
      Server.refused ⟨command, answer⟩ = false ∧ Server.unconnected ⟨command, answer⟩ = false
  | _ => True

section

variable {ι : Type} [DecidableEq ι] {gson : Gson} {toStyledString : Json → Bytes}
  {rounds bound : ι → ℕ} {location : ι → Bytes} {timeInterval : ι → ℤ} {db after : Database}
  {turns : List (ι × Label)} {nodes : ι → Node} {i : ι} {decode : Bytes → String} {mac : ℤ}

/-- Whenever the servlet is not at work for a machine whose snapshots are documents of measurements,
its rows are those of the measurements in the last request that has reached the servlet. -/
theorem network_stores_measurements {mac : ℚ}
    (run : SystemRun (NodeStep gson) networkEffect
      (fun i => initialNode toStyledString (rounds i) (bound i) (location i) (timeInterval i)) db
      turns nodes after)
    (others : ∀ turn ∈ turns, turn.1 ≠ i → turn.2.Foreign gson (.fin mac))
    (sampled : ∀ root ∈ (projection i turns).filterMap Label.snapshot, ∃ measured : Measurements,
      measured.mac = mac ∧ dataToJson measured.samples = some root)
    (intact : ∀ label ∈ projection i turns, label.Intact gson toStyledString)
    (truncates : ∀ value, gson.intOfNumber (.fin value) = truncate value)
    (idle : ∀ servlet, (nodes i).channel ≠ .serving servlet) :
    (lastRequest (projection i turns) = none →
      ∀ table, after.rowsWithId table (.fin mac) = db.rowsWithId table (.fin mac)) ∧
    ∀ request, lastRequest (projection i turns) = some request →
      ∃ root ∈ (projection i turns).filterMap Label.snapshot,
        request = uploadHead toStyledString root ++ [0] ∧
        ∀ measured : Measurements, measured.mac = mac → dataToJson measured.samples = some root →
          ∀ table, after.rowsWithId table (.fin mac) = measured.rows table := by
  rcases exists_fleetRun run with ⟨events, remaining, fleetRun, related, shown⟩
  have outside := (related i).outside idle
  have follows := fleetRun.follows i
  have foreign : ∀ turn ∈ events, turn.1 ≠ i → Foreign gson (.fin mac) turn.2 := by
    rintro ⟨j, event⟩ mem different
    exact foreign_of_shown (shown j)
      (fun label mem => others _ (mem_projection.mp mem) different) event (mem_projection.mpr mem)
  have taken : ∀ {root arrival}, arrives root arrival ∈ projection i events →
      root ∈ (projection i turns).filterMap Label.snapshot := by
    intro root arrival mem
    rw [← takenSnapshots_eq (shown i)]
    exact mem_takenSnapshots_of_arrives follows outside mem
  have sound : ∀ event ∈ projection i events, Sound gson (.fin mac) event := by
    intro event mem
    rcases label_of_mem (shown i) mem with ⟨command, answer, rfl, _⟩ | ⟨root, rfl⟩ |
      ⟨root, arrival, rfl, inLabels⟩ | ⟨onServer, inLabels⟩
    · trivial
    · trivial
    · cases arrival with
      | reached input =>
          rcases intact _ inLabels root rfl with ⟨body, isBody, parsed⟩
          rcases sampled root (taken mem) with ⟨measured, rfl, document⟩
          exact Measurements.sound document isBody parsed
      | _ => trivial
    · rcases event with ⟨command, answer⟩
      cases command with
      | inr command => exact intact _ inLabels
      | inl command =>
          cases command with
          | own command | arrive data => cases onServer
          | _ => trivial
  have settled := machineProgram_settles follows outside sound
  have rows := rows_of_own_exchanges fleetRun foreign
  rw [lastRequest_eq (shown i)]
  constructor
  · intro none table
    rw [rows, settled, Option.map_eq_none_iff.mp none]
    rfl
  · intro request reached
    rcases Option.map_eq_some_iff.mp reached with ⟨root, last, rfl⟩
    rcases exists_arrival last with ⟨input, mem⟩
    refine ⟨root, taken mem, rfl, ?_⟩
    rintro measured rfl document table
    rw [rows, settled, last]
    exact Measurements.describedRows_eq truncates document table

end

/-! ### A machine with a cpu, an interface and a container -/

/-- A table with one line below its heading. -/
def belowHeading {selections : List Selection} {n : ℕ} (heading line : Bytes) (number : DecimalNumber)
    (reads : (10 ∉ heading ∧ 10 ∉ line) ∧ Selection.allKeep selections heading = false ∧
      Selection.allKeep selections line = true ∧ (fields line)[n - 1]? = some number.text ∧
      number.text.length < 98) : Printed selections n where
  lines := [heading, line]
  numbers := [number]
  column := .dropped reads.1.1 reads.2.1
    (.kept reads.1.2 reads.2.2.1 reads.2.2.2.1 reads.2.2.2.2 .nil)

theorem integer_value (n : ℕ) : (integer n).value = n := by
  simp [DecimalNumber.value, integer, decimalValue_decimal]

def freeHeading : Bytes :=
  ascii "       total    used    free  shared  buff/cache  available"

def freeLine : Bytes :=
  ascii "Mem: 8000000 3000000 1000000  100000     4000000    4000000"

def dfHeading : Bytes :=
  ascii "Filesystem 1K-blocks   Used Available Use% Mounted on"

def dfLine : Bytes :=
  ascii "/dev/sda1    1000000 500000    500000  50% /"

theorem nginxContainer_id : ascii "0123456789ab" ≠ [] := by decide

theorem nginxContainer_name : ascii "nginx" ≠ [] := by decide

theorem nginxContainer_noBlank : 32 ∉ ascii "0123456789ab" ++ ascii "nginx" := by decide

theorem nginxContainer_noNul :
    0 ∉ ascii "0123456789ab" ++ ascii "nginx" ++ ascii "   656B / 0B" := by
  decide

def nginxContainer : ContainerLine where
  id := ascii "0123456789ab"
  name := ascii "nginx"
  cpu := integer 3
  usage := ⟨integer 512, .MiB⟩
  limit := ⟨integer 1, .GiB⟩
  memory := integer 50
  gaps := fun _ => 2
  rest := ascii "   656B / 0B"
  idNonempty := nginxContainer_id
  nameNonempty := nginxContainer_name
  noBlank := nginxContainer_noBlank
  noNul := nginxContainer_noNul

def labReport : Report where
  cpuSourceAvailable := belowHeading
    (ascii "Average: CPU  %user  %nice  %system  %iowait  %steal  %idle")
    (ascii "Average:   0      1      0        1        0       0     98") (integer 98)
    (by decide +kernel)
  cpuMHz := belowHeading (ascii "model name : ARMv8") (ascii "cpu MHz : 2400") (integer 2400)
    (by decide +kernel)
  cpuCores := belowHeading (ascii "model name : ARMv8") (ascii "cpu cores : 4") (integer 4)
    (by decide +kernel)
  memoryTotalInfo := belowHeading freeHeading freeLine (integer 8000000)
    (by decide +kernel)
  memoryAvailableInfo := belowHeading freeHeading freeLine (integer 4000000)
    (by decide +kernel)
  diskTotalInfo := belowHeading dfHeading dfLine (integer 1000000)
    (by decide +kernel)
  diskAvailableInfo := belowHeading dfHeading dfLine (integer 500000)
    (by decide +kernel)
  first := [atFirst]
  second := [afterDownload]
  heading := ascii "CONTAINER ID   NAME   CPU %   MEM USAGE / LIMIT   MEM %   NET I/O"
  headed := by decide +kernel
  containers := [⟨nginxContainer, by decide, by decide, by decide, .inl (by decide),
    .inl (by decide)⟩]
  address := ⟨ascii "02:42:ac:11:00:02", by decide, by decide, by decide⟩
  time := ⟨ascii "2020-01-01 00:00:00", by decide, by decide, by decide⟩
  someCpu := List.cons_ne_nil _ _
  cpuLengths := ⟨Eq.refl 1, Eq.refl 1⟩
  someMemory := ⟨List.cons_ne_nil _ _, List.cons_ne_nil _ _⟩
  memoryTotal := by simp [Printed.values, belowHeading, integer_value]
  diskLengths := Eq.refl 1
  diskTotal := by simp [Printed.values, belowHeading, integer_value]
  someInterface := List.cons_ne_nil _ _
  interfaces := Eq.refl 1

/-- What `data_to_json` makes of it. -/
def reportMembers : List (String × Json) :=
  [
    ("cpu info", .arr [.obj [("cpu Cores", .num (.fin 4)), ("cpu Mhz", .num (.fin 2400)),
      ("cpu source", .num (.fin 98)), ("id", .num (.fin 0))]]),
    ("disk info", .arr [.obj [("available", .num (.fin 500000)), ("total", .num (.fin 1000000)),
      ("used", .num (.fin (1 / 2)))]]),
    ("docker info", .arr [.obj [("cpu", .num (.fin 3)), ("id", .str "0123456789ab"),
      ("memory", .num (.fin 50)), ("memory limit", .num (.fin 1048576)),
      ("memory usage", .num (.fin 524288))]]),
    ("location info", .arr [.obj [("address", .str "")]]),
    ("mac address info", .arr [.obj [("id", .num (.fin 13144407049258852))]]),
    ("memory info", .arr [.obj [("available", .num (.fin 4000000)), ("total", .num (.fin 8000000)),
      ("used", .num (.fin (1 / 2)))]]),
    ("network info", .arr [.obj [("download rate", .num (.fin 0)), ("id", .num (.fin 0)),
      ("upload rate", .num (.fin 2))]]),
    ("timestamp info", .arr [.obj [("time", .str "2020-01-01 00:00:00\n")]])]

def reportDocument : Json := .obj reportMembers

theorem dataToJson_labReport :
    dataToJson (labReport.measurements latin (latin [])).samples = some reportDocument := by
  have same : (dataToJson (labReport.measurements latin (latin [])).samples).any
      (fun document => document.eq reportDocument) = true := by
    decide +kernel
  rcases (labReport.measurements latin (latin [])).exists_document with ⟨document, produced⟩
  rw [produced, Option.any_some] at same
  rw [produced, Json.eq_of_eq_true same]

theorem linuxCommand_labReport :
    linuxCommand latin (latin []) labReport.outputs = some reportDocument :=
  Report.linuxCommand_outputs.trans dataToJson_labReport

def reportSnapshot : Snapshot where
  root := reportDocument
  disk := ⟨_, rfl⟩
  memory := ⟨_, rfl⟩

/-- The text of the document, in short pieces. -/
def reportText : List Char :=
  (["\x7b\"cpu ", "info\":[\x7b", "\"cpu Cores\":4,", "\"cpu Mhz\":2400,", "\"cpu source",
    "\":98,\"id\":0", "\x7d],\"disk ", "info\":[\x7b", "\"available\":", "500000,\"total",
    "\":1000000,", "\"used\":0.5", "\x7d],\"docker ", "info\":[\x7b", "\"cpu\":3,\"id",
    "\":\"0123456", "789ab\",\"mem", "ory\":50,", "\"memory lim", "it\":1048576,", "\"memory usa",
    "ge\":524288", "\x7d],\"locat", "ion info\":[", "\x7b\"address\":", "\"\"\x7d],\"mac ",
    "address info", "\":[\x7b\"id\":", "131444070492", "58852\x7d],\"", "memory info",
    "\":[\x7b\"avail", "able\":40000", "00,\"total\":", "8000000,\"us", "ed\":0.5\x7d],",
    "\"network inf", "o\":[\x7b\"down", "load rate\":", "0,\"id\":0,", "\"upload rate",
    "\":2\x7d],\"tim", "estamp info", "\":[\x7b\"time\"", ":\"2020-01-0", "1 00:00:00",
    "\\n\"\x7d]\x7d"].map String.toList).flatten

def reportWriter (root : Json) : Bytes :=
  if root.eq reportDocument then reportText.flatMap String.utf8EncodeChar else networkText root

/-- The reader of the server, for the report, the neighbour and the orders. -/
def readMembers (text : String) : List (String × Json) :=
  if text = ordersText then nginxOrders
  else if text = String.ofList (documentText "8") then neighbourMembers
  else reportMembers

def reportGson : Gson where
  parse := fun text => .ok (.obj (readMembers text))
  doubleOfString := fun _ => none
  intOfString := fun _ => none
  intOfNumber := labGson.intOfNumber
  stringOfNumber := fun _ => ""

def reportArrivals (request : Bytes) : Arrival :=
  .reached (some
    (if request = uploadHead reportWriter reportDocument ++ [0] then reportText else documentText "8"))

def reportAnswers : (command : fleet.Command) → fleet.Answer command
  | .inl (.own (.linuxCommand location)) =>
      if location = [] then reportSnapshot else neighbourSnapshot
  | command => networkAnswers command

def reportNodes (second : Bool) : Node :=
  initialNode reportWriter 1 2 (networkLocation second) 1

def reportTurns : List Bool :=
  (List.replicate 12 [false, true]).flatten ++ List.replicate 30 false

def reportLabels : List (Bool × Label) :=
  systemTranscript (promptMove reportGson reportArrivals reportAnswers) reportTurns reportNodes

def reportRemaining : Bool → Node :=
  systemOutcome (promptMove reportGson reportArrivals reportAnswers) reportTurns reportNodes

def reportDatabase : Database :=
  reportLabels.foldl (fun db turn => db.replay turn.2.effect.toList) Server.sampleDatabase

theorem reportLabels_run :
    SystemRun (NodeStep reportGson) networkEffect reportNodes Server.sampleDatabase reportLabels
      reportRemaining reportDatabase :=
  systemRun_transcript nodeStep_of_promptMove
    (fun (db : Database) label => db.replay label.effect.toList) reportTurns reportNodes
    Server.sampleDatabase

/-- The first machine takes the snapshot of the report, and its request arrives as it is. -/
def intactForReport : Bool × Label → Bool
  | (false, .own ⟨.linuxCommand _, snapshot⟩) => (Snapshot.root snapshot).eq reportDocument
  | (false, .arrive request (.reached input)) =>
      request = uploadHead reportWriter reportDocument ++ [0] && input = some reportText
  | (false, .serve ⟨.inr command, answer⟩) =>
      !Server.refused ⟨command, answer⟩ && !Server.unconnected ⟨command, answer⟩
  | (true, .arrive _ (.reached input)) => input = some (documentText "8")
  | _ => true

theorem reportLabels_checked :
    reportLabels.all intactForReport = true ∧
      (lastRequest (projection false reportLabels)).isSome = true ∧
      (reportRemaining false).channel.isSettled = true := by
  decide +kernel

theorem bodyData_reportText :
    Server.getBodyData (some reportText) = some (String.ofList reportText) := by
  have whole : JsonText.unbroken reportText = reportText := by decide +kernel
  rw [Server.getBodyData_eq, whole]

theorem reportGson_parse (text : String) :
    reportGson.parse text = .ok (.obj (readMembers text)) := rfl

theorem readMembers_report : readMembers (String.ofList reportText) = reportMembers := by
  rw [readMembers, if_neg (by decide +kernel), if_neg (by decide +kernel)]

theorem reportGson_read_eight :
    Server.readBody reportGson (String.ofList (documentText "8")) =
      .ok (neighbourMembers, .fin 8) := by
  have members : readMembers (String.ofList (documentText "8")) = neighbourMembers := by
    rw [readMembers, if_neg (by decide +kernel), if_pos rfl]
  rw [Server.readBody, reportGson_parse, members]
  rfl

/-- No other document has the text of the report. -/
theorem eq_report_of_uploadHead {data : Json}
    (same : uploadHead reportWriter reportDocument ++ [0] = uploadHead reportWriter data ++ [0]) :
    data = reportDocument := by
  by_cases isReport : data.eq reportDocument = true
  · exact Json.eq_of_eq_true isReport
  · have others : ∀ text ∈ [(documentText "7").flatMap String.utf8EncodeChar,
        (documentText "8").flatMap String.utf8EncodeChar, []],
        uploadHead reportWriter reportDocument ++ [0] ≠ uploadHead (fun _ => text) .null ++ [0] := by
      decide +kernel
    have other : reportWriter data ∈ [(documentText "7").flatMap String.utf8EncodeChar,
        (documentText "8").flatMap String.utf8EncodeChar, []] := by
      rw [reportWriter, if_neg isReport, networkText]
      split
      · simp
      · split <;> simp
    exact absurd same (others _ other)

theorem intact_of_intactForReport {label : Label} (checked : intactForReport (false, label) = true) :
    label.Intact reportGson reportWriter := by
  cases label with
  | arrive request arrival =>
      cases arrival with
      | reached input =>
          simp only [intactForReport, Bool.and_eq_true, decide_eq_true_eq] at checked
          rcases checked with ⟨rfl, rfl⟩
          intro root same
          rw [eq_report_of_uploadHead same]
          refine ⟨_, bodyData_reportText, ?_⟩
          rw [reportGson_parse, readMembers_report, reportDocument]
      | _ => trivial
  | serve event =>
      rcases event with ⟨command, answer⟩
      cases command with
      | inr command =>
          simp only [intactForReport, Bool.and_eq_true, Bool.not_eq_true'] at checked
          exact checked
      | inl command => trivial
  | _ => trivial

theorem reportLabels_intact :
    ∀ label ∈ projection false reportLabels, label.Intact reportGson reportWriter := by
  intro label mem
  have checked := List.all_eq_true.mp reportLabels_checked.1 _ (mem_projection.mp mem)
  exact intact_of_intactForReport checked

theorem reportLabels_others :
    ∀ turn ∈ reportLabels, turn.1 ≠ false → turn.2.Foreign reportGson (.fin labReport.mac) := by
  rintro ⟨second, label⟩ mem different
  have checked := List.all_eq_true.mp reportLabels_checked.1 _ mem
  cases second with
  | false => exact absurd rfl different
  | true =>
      cases label with
      | arrive request arrival =>
          cases arrival with
          | reached input =>
              obtain rfl : input = some (documentText "8") := by
                simpa [intactForReport] using checked
              rintro ⟨body, isBody, object, read⟩
              rw [bodyData_documentText "8" (.inr rfl), Option.some.injEq] at isBody
              rw [← isBody] at read
              have same := reportGson_read_eight.symm.trans read
              have ids : (8 : ℚ) = labReport.mac := by simpa using congrArg Prod.snd (Except.ok.inj same)
              have different : labReport.mac ≠ 8 := by decide +kernel
              exact different (by exact_mod_cast ids.symm)
          | _ => trivial
      | _ => trivial

theorem reportLabels_sampled :
    ∀ root ∈ (projection false reportLabels).filterMap Label.snapshot, ∃ report : Report,
      report.mac = labReport.mac ∧
        linuxCommand latin (latin (networkLocation false)) report.outputs = some root := by
  intro root mem
  rcases List.mem_filterMap.mp mem with ⟨label, inLabels, taken⟩
  have checked := List.all_eq_true.mp reportLabels_checked.1 _ (mem_projection.mp inLabels)
  suffices same : root = reportDocument by
    rw [same]
    exact ⟨labReport, rfl, linuxCommand_labReport⟩
  cases label with
  | own event =>
      rcases event with ⟨command, answer⟩
      cases command with
      | linuxCommand location =>
          have isRoot : some (Snapshot.root answer) = some root := taken
          rw [← Option.some.inj isRoot]
          exact Json.eq_of_eq_true checked
      | _ => cases taken
  | _ => cases taken

end HumanMachine.Client
