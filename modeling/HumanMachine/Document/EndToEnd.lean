import HumanMachine.Document.Network

/-!
# What holds over sockets

For every run of any number of clients over their sockets, with their server: the rows of a
machine are those of the document in the last request which has reached the servlet, they keep
up with its snapshots, and what it deploys was ordered for its id.
-/

namespace HumanMachine.Client

open Server (Gson Database)

variable {gson : Gson} {toStyledString : Json → Bytes} {macAddress : Double} {label : Label}
  {labels : List Label} {event : fleet.Event} {events : List fleet.Event}

/-! ## Labels and the exchanges they show -/

/-- The request which has reached the servlet. -/
def Label.reached : Label → Option Bytes
  | .arrive request (.reached _) => some request
  | _ => none

def lastRequest (labels : List Label) : Option Bytes :=
  (labels.filterMap Label.reached).getLast?

def Label.served : Label → Option fleet.Event
  | .serve event => some event
  | _ => none

def Label.snapshot : Label → Option Json
  | .own ⟨.linuxCommand _, snapshot⟩ => some (Snapshot.root snapshot)
  | _ => none

/-- A label for each exchange but the requests which were never made. -/
theorem label_of_mem (shown : Shown (Label.Shows toStyledString) labels events)
    (mem : event ∈ events) :
    (∃ (command : MonitorCommand) (answer : monitor.Answer command),
      event = ⟨.inl (.own command), answer⟩ ∧ .own ⟨command, answer⟩ ∈ labels) ∨
    (∃ root, event = arrives root .lost) ∨
    (∃ root arrival, event = arrives root arrival ∧
      .arrive (uploadHead toStyledString root ++ [0]) arrival ∈ labels) ∨
    (isServlet event.1 = true ∧ .serve event ∈ labels) := by
  rcases shown.exists_of_mem mem with ⟨label, inLabels, part, shows, inPart⟩
  cases shows with
  | own =>
      cases List.mem_singleton.mp inPart
      exact .inl ⟨_, _, rfl, inLabels⟩
  | system => exact .inr (.inl ⟨_, List.eq_of_mem_replicate inPart⟩)
  | arrive =>
      cases List.mem_singleton.mp inPart
      exact .inr (.inr (.inl ⟨_, _, rfl, inLabels⟩))
  | serve onServer =>
      cases List.mem_singleton.mp inPart
      exact .inr (.inr (.inr ⟨onServer, inLabels⟩))

theorem serve_of_mem (shown : Shown (Label.Shows toStyledString) labels events)
    (mem : event ∈ events) (onServer : isServlet event.1 = true) : .serve event ∈ labels := by
  rcases label_of_mem shown mem with ⟨_, _, rfl, _⟩ | ⟨_, rfl⟩ | ⟨root, arrival, rfl, _⟩ |
    ⟨_, inLabels⟩
  · cases onServer
  · cases onServer
  · cases onServer
  · exact inLabels

/-- Requests which were made are among the labels. -/
theorem arrive_of_mem {root : Json} {arrival : Arrival}
    (shown : Shown (Label.Shows toStyledString) labels events)
    (mem : arrives root arrival ∈ events) (made : arrival ≠ .lost) :
    .arrive (uploadHead toStyledString root ++ [0]) arrival ∈ labels := by
  rcases label_of_mem shown mem with ⟨_, _, same, _⟩ | ⟨_, same⟩ | ⟨root, arrival, same, inLabels⟩ |
    ⟨onServer, _⟩
  · cases same
  · cases same
    exact absurd rfl made
  · cases same
    exact inLabels
  · cases onServer

theorem reached_eq (shown : Shown (Label.Shows toStyledString) labels events) :
    labels.filterMap Label.reached =
      (events.filterMap reachedDocument).map fun root => uploadHead toStyledString root ++ [0] := by
  rw [List.map_filterMap]
  symm
  apply shown.filterMap_eq
  intro label part shows
  cases shows with
  | own => rfl
  | system => exact List.filterMap_replicate_of_none rfl
  | @arrive root arrival => cases arrival <;> rfl
  | @serve event onServer =>
      rcases event with ⟨command, answer⟩
      cases command with
      | inr command => rfl
      | inl command =>
          cases command with
          | own command | arrive data => cases onServer
          | _ => rfl

theorem lastRequest_eq (shown : Shown (Label.Shows toStyledString) labels events) :
    lastRequest labels =
      (lastReached events).map fun root => uploadHead toStyledString root ++ [0] := by
  rw [lastRequest, lastReached, ← List.getLast?_map, reached_eq shown]

theorem takenSnapshots_eq (shown : Shown (Label.Shows toStyledString) labels events) :
    takenSnapshots events = labels.filterMap Label.snapshot := by
  apply shown.filterMap_eq
  intro label part shows
  cases shows with
  | @own command answer => cases command <;> rfl
  | system => exact List.filterMap_replicate_of_none rfl
  | arrive => rfl
  | @serve event onServer =>
      rcases event with ⟨command, answer⟩
      cases command with
      | inr command => rfl
      | inl command =>
          cases command with
          | own command | arrive data => cases onServer
          | _ => rfl

theorem served_eq (shown : Shown (Label.Shows toStyledString) labels events)
    (onServer : ∀ event ∈ events, isServlet event.1 = true) :
    labels.filterMap Label.served = events := by
  have all : events.filterMap (Option.guard fun event => isServlet event.1) = events := by
    rw [List.filterMap_eq_filter, List.filter_eq_self]
    exact onServer
  rw [← shown.filterMap_eq (Option.guard fun event => isServlet event.1), all]
  intro label part shows
  cases shows with
  | own => rfl
  | system => exact List.filterMap_replicate_of_none rfl
  | arrive => rfl
  | serve onServer => simp [Label.served, Option.guard, onServer]

theorem Label.Shows.of_arrives {root : Json} {input : Option (List Char)}
    (shows : label.Shows toStyledString events) (mem : arrives root (.reached input) ∈ events) :
    label = .arrive (uploadHead toStyledString root ++ [0]) (.reached input) ∧
      events = [arrives root (.reached input)] := by
  cases shows with
  | own => cases List.mem_singleton.mp mem
  | system => cases List.eq_of_mem_replicate mem
  | arrive =>
      cases List.mem_singleton.mp mem
      exact ⟨rfl, rfl⟩
  | serve onServer =>
      cases List.mem_singleton.mp mem
      cases onServer

/-! ## What is known of the surroundings -/

/-- What the servlet reads of a request is the document it was made for, with the machine's id,
and can be read to the end; the database accepts all statements. -/
def Label.Sound (gson : Gson) (toStyledString : Json → Bytes) (macAddress : Double) : Label → Prop
  | .arrive request (.reached input) => ∀ data, request = uploadHead toStyledString data ++ [0] →
      HumanMachine.Client.Sound gson macAddress (arrives data (.reached input))
  | .serve event => HumanMachine.Client.Sound gson macAddress event
  | _ => True

/-- No request reaches the servlet with this id. -/
def Label.Foreign (gson : Gson) (macAddress : Double) : Label → Prop
  | .arrive _ (.reached input) => ¬Server.NamesMachine gson macAddress input
  | _ => True

theorem sound_of_shown (shown : Shown (Label.Shows toStyledString) labels events)
    (sound : ∀ label ∈ labels, label.Sound gson toStyledString macAddress) :
    ∀ event ∈ events, Sound gson macAddress event := by
  intro event mem
  rcases label_of_mem shown mem with ⟨command, answer, rfl, inLabels⟩ | ⟨root, rfl⟩ |
    ⟨root, arrival, rfl, inLabels⟩ | ⟨onServer, inLabels⟩
  · trivial
  · trivial
  · cases arrival with
    | reached input => exact sound _ inLabels root rfl
    | _ => trivial
  · exact sound _ inLabels

theorem foreign_of_shown (shown : Shown (Label.Shows toStyledString) labels events)
    (foreign : ∀ label ∈ labels, label.Foreign gson macAddress) :
    ∀ event ∈ events, Foreign gson macAddress event := by
  intro event mem
  rcases label_of_mem shown mem with ⟨command, answer, rfl, inLabels⟩ | ⟨root, rfl⟩ |
    ⟨root, arrival, rfl, inLabels⟩ | ⟨onServer, inLabels⟩
  · trivial
  · trivial
  · cases arrival with
    | reached input => exact foreign _ inLabels
    | _ => trivial
  · rcases event with ⟨command, answer⟩
    cases command with
    | inr command => trivial
    | inl command =>
        cases command with
        | own command | arrive data => cases onServer
        | _ => trivial

theorem outside_interpret (loop : Program monitor (Except StdException Empty)) :
    OutsideServlet (Program.interpret (served gson) loop) := by
  cases loop with
  | done value => exact outsideServlet_done _
  | unfinished => exact nofun
  | call command next => cases command <;> exact outsideServlet_call nofun

theorem Related.outside {rounds : ℕ} {location : Bytes} {timeInterval : ℤ} {node : Node}
    {program : Program fleet (Except StdException Empty)}
    (related : Related gson toStyledString rounds location timeInterval node program)
    (idle : ∀ servlet, node.channel ≠ .serving servlet) : OutsideServlet program := by
  cases related with
  | between | stuck => exact outside_interpret _
  | @calling root n phase channel call program next _ _ _ owes _ =>
      cases owes with
      | quiet =>
          cases n with
          | zero => exact outside_interpret _
          | succ n => exact outsideServlet_call nofun
      | arriving => exact outsideServlet_call nofun
      | serving => exact absurd rfl (idle _)
      | answered => exact outside_interpret _

theorem Related.sampling {rounds : ℕ} {location place : Bytes} {timeInterval : ℤ} {node : Node}
    {program : Program fleet (Except StdException Empty)}
    {next : Snapshot → Program client (Except StdException Empty)}
    (related : Related gson toStyledString rounds location timeInterval node program)
    (between : node.program = .call (.inl (.linuxCommand place)) next) :
    ∃ following, program = .call (.inl (.own (.linuxCommand place))) following := by
  cases related with
  | stuck => cases between
  | @between loop _ _ noUpload =>
      cases loop with
      | done value => cases between
      | unfinished => cases between
      | call command further =>
          cases command with
          | httpPost url data => exact absurd rfl (noUpload url data further)
          | linuxCommand location =>
              cases between
              exact ⟨_, rfl⟩
          | _ => cases between
  | @calling _ _ _ _ call _ _ _ isOpen _ _ _ =>
      cases call with
      | done value => exact absurd rfl (isOpen value)
      | _ => cases between

/-! ## The tables -/

variable {ι : Type} [DecidableEq ι] {rounds bound : ι → ℕ} {location : ι → Bytes}
  {timeInterval : ι → ℤ} {db after : Database} {turns : List (ι × Label)} {nodes : ι → Node} {i : ι}

/-- Whenever the servlet is not at work for a machine, the tables have exactly the rows of the
document in its last request which has reached the servlet, or its old rows when there was
none. -/
theorem network_holds_last_documents
    (run : SystemRun (NodeStep gson) networkEffect
      (fun i => initialNode toStyledString (rounds i) (bound i) (location i) (timeInterval i)) db
      turns nodes after)
    (others : ∀ turn ∈ turns, turn.1 ≠ i → turn.2.Foreign gson macAddress)
    (sound : ∀ label ∈ projection i turns, label.Sound gson toStyledString macAddress)
    (idle : ∀ servlet, (nodes i).channel ≠ .serving servlet) :
    (lastRequest (projection i turns) = none →
      ∀ table, after.rowsWithId table macAddress = db.rowsWithId table macAddress) ∧
    ∀ request, lastRequest (projection i turns) = some request → ∃ object,
      request = uploadHead toStyledString (.obj object) ++ [0] ∧
      Server.Describes gson object macAddress fun table => after.rowsWithId table macAddress := by
  rcases exists_fleetRun run with ⟨events, remaining, fleetRun, related, shown⟩
  have foreign : ∀ turn ∈ events, turn.1 ≠ i → Foreign gson macAddress turn.2 := by
    rintro ⟨j, event⟩ mem different
    exact foreign_of_shown (shown j)
      (fun label mem => others _ (mem_projection.mp mem) different) event (mem_projection.mpr mem)
  have holds := fleet_holds_last_documents fleetRun foreign (sound_of_shown (shown i) sound)
    ((related i).outside idle)
  rw [lastRequest_eq (shown i)]
  constructor
  · intro none
    exact holds.1 (Option.map_eq_none_iff.mp none)
  · intro request reached
    rcases Option.map_eq_some_iff.mp reached with ⟨data, last, rfl⟩
    rcases holds.2 data last with ⟨object, rfl, described⟩
    exact ⟨object, rfl, described⟩

/-- Before every snapshot but the first, the rows of a machine are those of a document with
the disk and memory info of the snapshot before, whether this one was uploaded or not. -/
theorem network_knows_last_snapshot {place : Bytes}
    {next : Snapshot → Program client (Except StdException Empty)}
    (run : SystemRun (NodeStep gson) networkEffect
      (fun i => initialNode toStyledString (rounds i) (bound i) (location i) (timeInterval i)) db
      turns nodes after)
    (others : ∀ turn ∈ turns, turn.1 ≠ i → turn.2.Foreign gson macAddress)
    (sound : ∀ label ∈ projection i turns, label.Sound gson toStyledString macAddress)
    (noPages : ∀ request page, .arrive request (.turnedAway page) ∉ projection i turns)
    (between : (nodes i).program = .call (.inl (.linuxCommand place)) next) :
    (projection i turns).filterMap Label.snapshot = [] ∨ ∃ object current,
      ((projection i turns).filterMap Label.snapshot).getLast? = some current ∧
      (Json.obj object).get "disk info" = current.get "disk info" ∧
      (Json.obj object).get "memory info" = current.get "memory info" ∧
      Server.Describes gson object macAddress fun table => after.rowsWithId table macAddress := by
  rcases exists_fleetRun run with ⟨events, remaining, fleetRun, related, shown⟩
  have foreign : ∀ turn ∈ events, turn.1 ≠ i → Foreign gson macAddress turn.2 := by
    rintro ⟨j, event⟩ mem different
    exact foreign_of_shown (shown j)
      (fun label mem => others _ (mem_projection.mp mem) different) event (mem_projection.mpr mem)
  have answered : NoPages (projection i events) := fun data page mem =>
    noPages _ page (arrive_of_mem (shown i) mem Arrival.noConfusion)
  rcases (related i).sampling between with ⟨following, waits⟩
  rw [← takenSnapshots_eq (shown i)]
  exact server_knows_last_snapshot fleetRun foreign (sound_of_shown (shown i) sound) answered waits

/-! ## The orders -/

/-- The page is not an answer of the servlet. -/
def PageAmong (page : Response) (labels : List Label) : Prop :=
  (∃ request, .arrive request (.turnedAway page) ∈ labels) ∨
    ∃ exception, .serve (replies (.error exception) (some page)) ∈ labels

/-- The last request which has reached the servlet was stored under the id, and what the file
ordered then for this id was answered. -/
def LastOrdered (gson : Gson) (macAddress : Double) (order : String) (labels : List Label) : Prop :=
  ∃ front request input back, labels = front ++ .arrive request (.reached input) :: back ∧
    (∀ label ∈ back, label.reached = none) ∧
    FindsOrder gson macAddress input order (back.filterMap Label.served)

theorem FindsOrder.on_server {input : Option (List Char)} {order : String}
    (finds : FindsOrder gson macAddress input order events) :
    events.filterMap reachedDocument = [] ∧ ∀ event ∈ events, isServlet event.1 = true := by
  cases finds with
  | @found served dockerResponseJson result response _ _ =>
      constructor
      · rw [List.filterMap_append, List.filterMap_map]
        simp [reachedDocument, Program.inr, Function.comp_def]
      · rw [List.forall_mem_append, List.forall_mem_map]
        exact ⟨fun _ _ => rfl, by simp [isServlet]⟩

theorem lastOrdered_of_shown {data : Json} {input : Option (List Char)} {order : String}
    {earlier answering : List fleet.Event} (finds : FindsOrder gson macAddress input order answering)
    (shown : Shown (Label.Shows toStyledString) labels
      (earlier ++ arrives data (.reached input) :: answering)) :
    LastOrdered gson macAddress order labels := by
  rcases shown.split_at with
    ⟨front, label, back, head, start, rest, tail, rfl, _, shows, backShown, rfl, rfl⟩
  have here : arrives data (.reached input) ∈ start ++ arrives data (.reached input) :: rest :=
    List.mem_append_right _ List.mem_cons_self
  rcases shows.of_arrives here with ⟨rfl, alone⟩
  obtain ⟨rfl, rfl⟩ : start = [] ∧ rest = [] := by
    cases start with
    | nil => exact ⟨rfl, (List.cons.inj alone).2⟩
    | cons first start => simp at alone
  rw [List.nil_append] at finds
  rcases finds.on_server with ⟨noneReached, onServer⟩
  refine ⟨front, _, input, back, rfl, ?_, ?_⟩
  · rw [← List.filterMap_eq_nil_iff, reached_eq backShown, noneReached, List.map_nil]
  · rwa [served_eq backShown onServer]

/-- What a machine deploys is the order which the file had for its own id when the document in
its last request had been stored, or was extracted from a page which is not the servlet's. -/
theorem network_deploys_own_orders
    (run : SystemRun (NodeStep gson) networkEffect
      (fun i => initialNode toStyledString (rounds i) (bound i) (location i) (timeInterval i)) db
      turns nodes after)
    (named : ∀ request input, (i, .arrive request (.reached input)) ∈ turns →
      Server.NamesMachine gson macAddress input)
    (arrive : ∀ result response,
      (i, .serve (replies (.ok result) (some response))) ∈ turns →
      ∃ header, ¬marker <:+: header ∧ response.text = header ++ utf8 result)
    {earlier later : List Label} {dockerImage : Bytes}
    (deployment : projection i turns = earlier ++ .own ⟨.dockerDeploy dockerImage, ()⟩ :: later) :
    (∃ order, LastOrdered gson macAddress order earlier ∧ order ≠ "null" ∧
      dockerImage = utf8 order) ∨
    ∃ page, PageAmong page earlier ∧ dockerImageOf (Response.text page) = .ok dockerImage := by
  rcases exists_fleetRun run with ⟨events, remaining, fleetRun, related, shown⟩
  have ownShown := shown i
  rw [deployment] at ownShown
  rcases ownShown.of_append with ⟨head, tail, split, headShown, tailShown⟩
  cases tailShown with
  | cons now rest =>
      cases now
      have own : ∀ {label}, label ∈ earlier → (i, label) ∈ turns := by
        intro label mem
        rw [← mem_projection, deployment]
        exact List.mem_append_left _ mem
      have before : projection i events = head ++ deploys dockerImage :: _ := split
      have follows := fleetRun.follows i
      rw [before] at follows
      have namedHead : ∀ data input, arrives data (.reached input) ∈ head →
          Server.NamesMachine gson macAddress input := fun data input mem =>
        named _ input (own (arrive_of_mem headShown mem Arrival.noConfusion))
      have arriveHead : AnswersArrive head := fun result response mem =>
        arrive result response (own (serve_of_mem headShown mem rfl))
      rcases order_of_deployment follows namedHead arriveHead with
        ⟨before, data, input, answering, order, rfl, finds, notNull, image⟩ |
          ⟨page, ⟨data, mem⟩ | ⟨exception, mem⟩, extracted⟩
      · exact .inl ⟨order, lastOrdered_of_shown finds headShown, notNull, image⟩
      · exact .inr ⟨page, .inl ⟨_, arrive_of_mem headShown mem Arrival.noConfusion⟩, extracted⟩
      · exact .inr ⟨page, .inr ⟨exception, serve_of_mem headShown mem rfl⟩, extracted⟩

/-! ### Two machines and an order for one of them -/

open Server (sampleMembers sampleSections neighbourMembers)

theorem responseOf_text (response : Response) : responseOf (cString response.text) = response := by
  have whole : ((cString (cString response.text)).take BUFSIZE) = response.text := by
    rw [cString_of_noNul response.noNul, cString_of_noNul response.noNul,
      List.take_of_length_le response.fits]
  cases response
  simpa [responseOf] using whole

theorem carries_text {response : Response} (fd : ℤ) (nonempty : response.text ≠ []) :
    Channel.Carries (.settled (some response))
      ⟨.recv fd, Received.data response.text nonempty response.fits⟩ (.settled none) := by
  have carries : Channel.Carries (.settled (some (responseOf (cString response.text))))
      ⟨.recv fd, Received.data response.text nonempty response.fits⟩ (.settled none) :=
    .received
  rwa [responseOf_text] at carries

/-- The server comes first, what was answered is received, and all calls succeed at once. -/
def promptMove (gson : Gson) (arrivals : Bytes → Arrival)
    (answers : (command : fleet.Command) → fleet.Answer command) : Node → Option (Label × Node)
  | ⟨program, .arriving request⟩ =>
      some (.arrive request (arrivals request),
        ⟨program, .ofServlet ((arrivals request).servlet gson)⟩)
  | ⟨program, .serving (.call command next)⟩ =>
      some (.serve ⟨command, answers command⟩, ⟨program, .ofServlet (next (answers command))⟩)
  | ⟨.call (.inl command) next, channel⟩ =>
      some (.own ⟨command, answers (.inl (.own command))⟩,
        ⟨next (answers (.inl (.own command))), channel⟩)
  | ⟨.call (.inr (.send fd data)) next, .settled none⟩ =>
      some (.system ⟨.send fd data, (data.length : ℤ)⟩, ⟨next (data.length : ℤ), .arriving data⟩)
  | ⟨.call (.inr (.recv fd)) next, .settled (some response)⟩ =>
      if nonempty : response.text ≠ [] then
        some (.system ⟨.recv fd, Received.data response.text nonempty response.fits⟩,
          ⟨next (Received.data response.text nonempty response.fits), .settled none⟩)
      else none
  | ⟨.call (.inr command) next, channel⟩ =>
      let answer := prompt INVALID_SOCKET (fun _ => some 0) .closed 0 command
      if transfers ⟨command, answer⟩ = false then
        some (.system ⟨command, answer⟩, ⟨next answer, channel⟩)
      else none
  | _ => none

theorem nodeStep_of_promptMove {arrivals : Bytes → Arrival}
    {answers : (command : fleet.Command) → fleet.Answer command} {node following : Node}
    (moves : promptMove gson arrivals answers node = some (label, following)) :
    NodeStep gson node label following := by
  unfold promptMove at moves
  split at moves
  · cases moves
    exact .arrive
  · cases moves
    exact .serve
  · cases moves
    exact .own
  · cases moves
    exact .system (.sent (Int.natCast_nonneg _))
  · split at moves
    · cases moves
      exact .system (carries_text _ _)
    · cases moves
  · simp only at moves
    split at moves
    · rename_i noTransfer
      cases moves
      exact .system (.other noTransfer)
    · cases moves
  · cases moves

/-- The text of a document with the arrays of the sample, in short pieces. -/
def documentText (id : String) : List Char :=
  (["\x7b\"mac ", "address ", "info\":", "[\x7b\"id\":", id, "\x7d],", "\"cpu ", "info\":", "[],",
    "\"memory ", "info\":", "[\x7b\"total\"", ":4,\"avail", "able\":1,", "\"used\":", "3\x7d],",
    "\"disk ", "info\":", "[\x7b\"total\"", ":8,\"avail", "able\":2,", "\"used\":", "6\x7d],",
    "\"network ", "info\":", "[\x7b\"down", "load ", "rate\":", "5,\"up", "load ", "rate\":", "9\x7d],",
    "\"location ", "info\":", "[\x7b\"addr", "ess\":", "\"lab\"\x7d],", "\"time", "stamp ", "info\":",
    "[\x7b\"time\":", "\"noon\"\x7d]\x7d"].map String.toList).flatten

def ordersText : String :=
  "\x7b\"docker response info\":[\x7b\"docker address\":\"nginx\",\"response\":1,\"server id\":7\x7d]\x7d"

/-- The writer of the client, for the documents of the two machines. -/
def networkText (root : Json) : Bytes :=
  if root.eq (.obj sampleMembers) then (documentText "7").flatMap String.utf8EncodeChar
  else if root.eq (.obj neighbourMembers) then (documentText "8").flatMap String.utf8EncodeChar
  else []

/-- The reader of the server, for these documents and the orders. -/
def networkMembers (text : String) : List (String × Json) :=
  if text = ordersText then nginxOrders
  else if text = String.ofList (documentText "8") then neighbourMembers
  else sampleMembers

def networkGson : Gson where
  parse := fun text => .ok (.obj (networkMembers text))
  doubleOfString := fun _ => none
  intOfString := fun _ => none
  intOfNumber := ordersGson.intOfNumber
  stringOfNumber := fun _ => ""

def sampleSnapshot : Snapshot where
  root := .obj sampleMembers
  disk := ⟨sampleSections.diskArray, rfl⟩
  memory := ⟨sampleSections.memoryArray, rfl⟩

def neighbourSnapshot : Snapshot where
  root := .obj neighbourMembers
  disk := ⟨sampleSections.diskArray, rfl⟩
  memory := ⟨sampleSections.memoryArray, rfl⟩

/-- Both requests reach the servlet. -/
def networkArrivals (request : Bytes) : Arrival :=
  .reached (some (documentText
    (if request = uploadHead networkText (.obj sampleMembers) ++ [0] then "7" else "8")))

/-- Everything is accepted, and all answers arrive. -/
def networkAnswers : (command : fleet.Command) → fleet.Answer command
  | .inl (.own (.linuxCommand location)) =>
      if location = [] then sampleSnapshot else neighbourSnapshot
  | .inl (.own (.httpPost _ _)) => noResponse
  | .inl (.own (.dockerDeploy _)) => ()
  | .inl (.own (.sleep _)) => ()
  | .inl (.arrive _) => Arrival.lost
  | .inl .readOrders => some ordersText
  | .inl (.reply (.ok result)) => some (if result = nginxAnswer then nginxResponse else stored)
  | .inl (.reply (.error _)) => some noResponse
  | .inr command => Server.answering (fun _ => false) 0 command

def networkLocation (second : Bool) : Bytes :=
  if second then ascii "next door" else []

def networkNodes (second : Bool) : Node :=
  initialNode networkText 1 2 (networkLocation second) 1

/-- The machines take turns until the first one is through with its first round. -/
def networkTurns : List Bool :=
  (List.replicate 33 [false, true]).flatten

def networkLabels : List (Bool × Label) :=
  systemTranscript (promptMove networkGson networkArrivals networkAnswers) networkTurns networkNodes

def networkRemaining : Bool → Node :=
  systemOutcome (promptMove networkGson networkArrivals networkAnswers) networkTurns networkNodes

def networkDatabase : Database :=
  networkLabels.foldl (fun db turn => db.replay turn.2.effect.toList) Server.sampleDatabase

theorem networkLabels_run :
    SystemRun (NodeStep networkGson) networkEffect networkNodes Server.sampleDatabase networkLabels
      networkRemaining networkDatabase :=
  systemRun_transcript nodeStep_of_promptMove
    (fun (db : Database) label => db.replay label.effect.toList) networkTurns networkNodes
    Server.sampleDatabase

/-- Machine 7 is sound, machine 8 foreign to it, and the answer for 7 arrives as it is. -/
def soundForSeven : Bool × Label → Bool
  | (false, .arrive request (.reached input)) =>
      request = uploadHead networkText (.obj sampleMembers) ++ [0] && input = some (documentText "7")
  | (false, .arrive _ (.turnedAway _)) => false
  | (false, .serve ⟨.inl (.arrive _), .reached _⟩) => false
  | (false, .serve ⟨.inr command, answer⟩) =>
      !Server.refused ⟨command, answer⟩ && !Server.unconnected ⟨command, answer⟩
  | (false, .serve ⟨.inl (.reply (.ok result)), some response⟩) =>
      result = nginxAnswer && Response.text response = nginxResponse.text
  | (false, .serve ⟨.inl (.reply (.error _)), some _⟩) => false
  | (true, .arrive _ (.reached input)) => input = some (documentText "8")
  | _ => true

def awaitsSnapshot : Program client (Except StdException Empty) → Bool
  | .call (.inl (.linuxCommand _)) _ => true
  | _ => false

def Channel.isSettled : Channel → Bool
  | .settled _ => true
  | _ => false

def Label.deploys (dockerImage : Bytes) : Label → Bool
  | .own ⟨.dockerDeploy dockerImage', _⟩ => dockerImage' = dockerImage
  | _ => false

theorem networkLabels_checked :
    networkLabels.all soundForSeven = true ∧
      awaitsSnapshot (networkRemaining false).program = true ∧
      (lastRequest (projection false networkLabels)).isSome = true ∧
      (projection false networkLabels).any (Label.deploys (ascii "nginx")) = true ∧
      (networkRemaining false).channel.isSettled = true := by
  decide +kernel

theorem bodyData_documentText (id : String) (single : id = "7" ∨ id = "8") :
    Server.getBodyData (some (documentText id)) = some (String.ofList (documentText id)) := by
  rcases single with rfl | rfl <;> decide +kernel

theorem networkGson_parse (text : String) :
    networkGson.parse text = .ok (.obj (networkMembers text)) := rfl

theorem networkGson_read_seven :
    Server.readBody networkGson (String.ofList (documentText "7")) = .ok (sampleMembers, .fin 7) := by
  have members : networkMembers (String.ofList (documentText "7")) = sampleMembers := by
    rw [networkMembers, if_neg (by decide +kernel), if_neg (by decide +kernel)]
  rw [Server.readBody, networkGson_parse, members]
  rfl

theorem networkGson_read_eight :
    Server.readBody networkGson (String.ofList (documentText "8")) =
      .ok (neighbourMembers, .fin 8) := by
  have members : networkMembers (String.ofList (documentText "8")) = neighbourMembers := by
    rw [networkMembers, if_neg (by decide +kernel), if_pos rfl]
  rw [Server.readBody, networkGson_parse, members]
  rfl

theorem sampleMembers_wellFormed_network :
    Server.WellFormed networkGson sampleMembers sampleSections := by
  constructor
  case read => rfl
  all_goals
    simp [Server.HasFields, Gson.getAsJsonObject, Gson.get, Gson.has, sampleMembers, sampleSections,
      List.lookup_cons]

/-- No other document has the text of the sample. -/
theorem eq_sample_of_uploadHead {data : Json}
    (same : uploadHead networkText (.obj sampleMembers) ++ [0] = uploadHead networkText data ++ [0]) :
    data = .obj sampleMembers := by
  by_cases isSample : data.eq (.obj sampleMembers) = true
  · exact Json.eq_of_eq_true isSample
  · have others : ∀ text ∈ [(documentText "8").flatMap String.utf8EncodeChar, []],
        uploadHead networkText (.obj sampleMembers) ++ [0] ≠ uploadHead (fun _ => text) .null ++ [0] := by
      decide +kernel
    have other : networkText data ∈ [(documentText "8").flatMap String.utf8EncodeChar, []] := by
      rw [networkText, if_neg isSample]
      split <;> simp
    exact absurd same (others _ other)

theorem networkLabels_sound :
    ∀ label ∈ projection false networkLabels, label.Sound networkGson networkText (.fin 7) := by
  intro label mem
  have checked := List.all_eq_true.mp networkLabels_checked.1 _ (mem_projection.mp mem)
  cases label with
  | arrive request arrival =>
      cases arrival with
      | reached input =>
          simp only [soundForSeven, Bool.and_eq_true, decide_eq_true_eq] at checked
          rcases checked with ⟨rfl, rfl⟩
          intro data same
          exact ⟨_, sampleMembers, sampleSections, bodyData_documentText "7" (.inl rfl),
            networkGson_read_seven, eq_sample_of_uploadHead same, sampleMembers_wellFormed_network⟩
      | _ => trivial
  | serve event =>
      rcases event with ⟨command, answer⟩
      cases command with
      | inr command =>
          simp only [soundForSeven, Bool.and_eq_true, Bool.not_eq_true'] at checked
          exact checked
      | inl command =>
          cases command with
          | arrive data =>
              cases answer with
              | reached input => cases checked
              | _ => trivial
          | _ => trivial
  | _ => trivial

theorem networkLabels_others :
    ∀ turn ∈ networkLabels, turn.1 ≠ false → turn.2.Foreign networkGson (.fin 7) := by
  rintro ⟨second, label⟩ mem different
  have checked := List.all_eq_true.mp networkLabels_checked.1 _ mem
  cases second with
  | false => exact absurd rfl different
  | true =>
      cases label with
      | arrive request arrival =>
          cases arrival with
          | reached input =>
              obtain rfl : input = some (documentText "8") := by simpa [soundForSeven] using checked
              rintro ⟨body, isBody, object, read⟩
              rw [bodyData_documentText "8" (.inr rfl), Option.some.injEq] at isBody
              rw [← isBody] at read
              have same := networkGson_read_eight.symm.trans read
              simp at same
          | _ => trivial
      | _ => trivial

theorem networkLabels_noPages :
    ∀ request page, .arrive request (.turnedAway page) ∉ projection false networkLabels := by
  intro request page mem
  cases List.all_eq_true.mp networkLabels_checked.1 _ (mem_projection.mp mem)

theorem networkLabels_between : ∃ (place : Bytes) (next : Snapshot → Program client _),
    (networkRemaining false).program = .call (.inl (.linuxCommand place)) next := by
  have awaits := networkLabels_checked.2.1
  cases program : (networkRemaining false).program with
  | call command next =>
      rw [program] at awaits
      cases command with
      | inl command =>
          cases command with
          | linuxCommand place => exact ⟨place, next, rfl⟩
          | _ => cases awaits
      | inr command => cases awaits
  | _ =>
      rw [program] at awaits
      cases awaits

theorem networkRemaining_idle (servlet : Program fleet (Option Response)) :
    (networkRemaining false).channel ≠ .serving servlet := by
  have idle := networkLabels_checked.2.2.2.2
  intro serving
  rw [serving] at idle
  cases idle

theorem network_holds_last_documents_sample :
    ∃ object, Server.Describes networkGson object (.fin 7) fun table =>
      networkDatabase.rowsWithId table (.fin 7) := by
  rcases Option.isSome_iff_exists.mp networkLabels_checked.2.2.1 with ⟨request, reached⟩
  rcases (network_holds_last_documents networkLabels_run networkLabels_others networkLabels_sound
    networkRemaining_idle).2 request reached with ⟨object, _, described⟩
  exact ⟨object, described⟩

theorem network_knows_last_snapshot_sample :
    (projection false networkLabels).filterMap Label.snapshot = [] ∨ ∃ object current,
      ((projection false networkLabels).filterMap Label.snapshot).getLast? = some current ∧
      (Json.obj object).get "disk info" = current.get "disk info" ∧
      (Json.obj object).get "memory info" = current.get "memory info" ∧
      Server.Describes networkGson object (.fin 7) fun table =>
        networkDatabase.rowsWithId table (.fin 7) := by
  rcases networkLabels_between with ⟨place, next, between⟩
  exact network_knows_last_snapshot networkLabels_run networkLabels_others networkLabels_sound
    networkLabels_noPages between

theorem exists_deployment :
    ∃ earlier later, projection false networkLabels =
      earlier ++ .own ⟨.dockerDeploy (ascii "nginx"), ()⟩ :: later := by
  rcases List.any_eq_true.mp networkLabels_checked.2.2.2.1 with ⟨label, mem, deploys⟩
  have isDeployment : label = .own ⟨.dockerDeploy (ascii "nginx"), ()⟩ := by
    cases label with
    | own event =>
        rcases event with ⟨command, answer⟩
        cases command with
        | dockerDeploy dockerImage =>
            rw [Label.deploys, decide_eq_true_eq] at deploys
            rw [deploys]
        | _ => cases deploys
    | _ => cases deploys
  rw [isDeployment] at mem
  exact List.append_of_mem mem

theorem networkLabels_arrive (result : String) (response : Response)
    (mem : (false, .serve (replies (.ok result) (some response))) ∈ networkLabels) :
    ∃ header, ¬marker <:+: header ∧ response.text = header ++ utf8 result := by
  have checked := List.all_eq_true.mp networkLabels_checked.1 _ mem
  simp only [soundForSeven, Bool.and_eq_true, decide_eq_true_eq] at checked
  rcases checked with ⟨rfl, text⟩
  exact ⟨ascii "HTTP/1.1 200 OK\r\n\r\n", by decide +kernel, text⟩

theorem networkLabels_no_page {earlier later : List Label} {page : Response}
    (split : projection false networkLabels = earlier ++ later) : ¬PageAmong page earlier := by
  have among : ∀ {label}, label ∈ earlier → (false, label) ∈ networkLabels := by
    intro label mem
    rw [← mem_projection, split]
    exact List.mem_append_left _ mem
  rintro (⟨request, mem⟩ | ⟨exception, mem⟩)
  · exact networkLabels_noPages request page (mem_projection.mpr (among mem))
  · cases List.all_eq_true.mp networkLabels_checked.1 _ (among mem)

theorem network_deploys_own_orders_sample :
    ∃ earlier later, projection false networkLabels =
        earlier ++ .own ⟨.dockerDeploy (ascii "nginx"), ()⟩ :: later ∧
      ∃ order, LastOrdered networkGson (.fin 7) order earlier ∧ order ≠ "null" ∧
        ascii "nginx" = utf8 order := by
  rcases exists_deployment with ⟨earlier, later, split⟩
  have named : ∀ request input, (false, .arrive request (.reached input)) ∈ networkLabels →
      Server.NamesMachine networkGson (.fin 7) input := by
    intro request input mem
    have checked := List.all_eq_true.mp networkLabels_checked.1 _ mem
    simp only [soundForSeven, Bool.and_eq_true, decide_eq_true_eq] at checked
    rcases checked with ⟨_, rfl⟩
    exact ⟨_, bodyData_documentText "7" (.inl rfl), _, networkGson_read_seven⟩
  rcases network_deploys_own_orders networkLabels_run named networkLabels_arrive split with
    ordered | ⟨page, among, _⟩
  · exact ⟨earlier, later, split, ordered⟩
  · exact absurd among (networkLabels_no_page split)

end HumanMachine.Client
