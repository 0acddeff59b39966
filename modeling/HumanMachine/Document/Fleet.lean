import HumanMachine.Client.Deployment
import HumanMachine.Client.MonitorPhases
import HumanMachine.Document.Orders
import HumanMachine.Program.Interpretation
import HumanMachine.Server.Isolation

/-!
# Monitors and their server

Any number of machines run the loop of `timerControl` against one server. In the place of
an upload stand the request on its way, the run of `doPost` and the answer on its way back;
the request may be sent a second time when the first one was not answered. The statements of
all requests reach one database, each machine's in their order and the others in between.
A request may get lost, be turned away by a page which is not the servlet's, or reach it, and
every answer may be lost or changed. The server is through with a request before its machine
sends the next one.
-/

namespace HumanMachine.Client

open Program (Follows PoolRun Carried inr)
open Server (Gson jdbc doPost storeBody respond getBodyData JavaException Database Effect Row
  executed executedEffects JdbcCommand)

/-- What becomes of a request. -/
inductive Arrival where
  | lost
  | turnedAway (page : Response)
  /-- The servlet reads this, or gets an exception while it reads. -/
  | reached (input : Option (List Char))

inductive NetCommand where
  /-- What the loop asks of its own machine. -/
  | own (command : MonitorCommand)
  | arrive (data : Json)
  | readOrders
  | reply (result : Except JavaException String)

/-- A lost answer is `none`. -/
abbrev net : HumanMachine.Interface where
  Command := NetCommand
  Answer
    | .own command => monitor.Answer command
    | .arrive _ => Arrival
    | .readOrders => Option String
    | .reply _ => Option Response

abbrev fleet : HumanMachine.Interface :=
  net.sum jdbc

abbrev atNet (command : NetCommand) : Program fleet (net.Answer command) :=
  @Program.request fleet (.inl command)

/-! The exchanges of a request. -/

abbrev arrives (data : Json) (arrival : Arrival) : fleet.Event :=
  ⟨.inl (.arrive data), arrival⟩

abbrev readsOrders (dockerResponseJson : Option String) : fleet.Event :=
  ⟨.inl .readOrders, dockerResponseJson⟩

abbrev replies (result : Except JavaException String) (response : Option Response) : fleet.Event :=
  ⟨.inl (.reply result), response⟩

/-- The file with the orders is read when a document was stored. -/
def answerStored (gson : Gson) : Except JavaException Double → Program fleet (Option Response)
  | .error exception => atNet (.reply (.error exception))
  | .ok macId => do
      let dockerResponseJson : Option String ← atNet .readOrders
      atNet (.reply (respond gson none dockerResponseJson macId))

/-- The run of the servlet for a request which has reached it, and its answer. -/
def serve (gson : Gson) (input : Option (List Char)) : Program fleet (Option Response) := do
  let stored ← Program.interpret Program.onRight (storeBody gson (getBodyData input)).run
  answerStored gson stored

def attempt (gson : Gson) (data : Json) : Program fleet (Option Response) := do
  let arrival : Arrival ← atNet (.arrive data)
  match arrival with
  | .lost => return none
  | .turnedAway page => return some page
  | .reached input => serve gson input

/-- A request which was not answered is sent a second time. -/
def orAgain (gson : Gson) (data : Json) : Option Response → Program fleet Response
  | some response => return response
  | none => do
      let again ← attempt gson data
      return again.getD noResponse

/-- What a command of the loop becomes. -/
def served (gson : Gson) : Program.Handler monitor fleet
  | .httpPost _ data => attempt gson data >>= orAgain gson data
  | .linuxCommand location => atNet (.own (.linuxCommand location))
  | .dockerDeploy dockerImage => atNet (.own (.dockerDeploy dockerImage))
  | .sleep seconds => atNet (.own (.sleep seconds))

def machineProgram (gson : Gson) (bound : ℕ) (location : Bytes) (timeInterval : ℤ) :
    Program fleet (Except StdException Empty) :=
  Program.interpret (served gson) (timerControl bound location timeInterval).run

/-! ## The database -/

def fleetExecuted : fleet.Event → Option Effect
  | ⟨.inr command, answer⟩ => executed ⟨command, answer⟩
  | ⟨.inl _, _⟩ => none

def fleetEffects (events : List fleet.Event) : List Effect :=
  events.filterMap fleetExecuted

/-- Any statement may fail, and anything may happen on the way. -/
def fleetSession : Environment fleet Database :=
  fun db command answer after => after = db.replay (fleetExecuted ⟨command, answer⟩).toList

/-- The document of the last request which has reached the servlet. -/
def reachedDocument : fleet.Event → Option Json
  | ⟨.inl (.arrive data), .reached _⟩ => some data
  | _ => none

def lastReached (events : List fleet.Event) : Option Json :=
  (events.filterMap reachedDocument).getLast?

/-- The servlet is not at work for the program. -/
def OutsideServlet {α : Type} (program : Program fleet α) : Prop :=
  ∀ command next, program = .call command next → ∃ other, command = .inl other ∧ other ≠ .readOrders

theorem outsideServlet_done {α : Type} (value : α) : OutsideServlet (.done value) :=
  nofun

theorem outsideServlet_call {α : Type} {command : NetCommand}
    {next : net.Answer command → Program fleet α} (noOrders : command ≠ .readOrders) :
    OutsideServlet (.call (.inl command) next) := by
  intro other later same
  cases same
  exact ⟨command, rfl, noOrders⟩

theorem OutsideServlet.of_bind {α β : Type} {program : Program fleet α}
    {continuation : α → Program fleet β} (outside : OutsideServlet (program >>= continuation)) :
    OutsideServlet program := by
  rintro command next rfl
  exact outside command _ rfl

/-! ## What a machine's own exchanges leave of its rows -/

/-- A document reaches the servlet as it was sent, with the machine's id, and can be read to
the end; the database accepts all statements. -/
def Sound (gson : Gson) (macAddress : Double) : fleet.Event → Prop
  | ⟨.inl (.arrive data), .reached input⟩ =>
      ∃ body object sections, getBodyData input = some body ∧
        Server.readBody gson body = .ok (object, macAddress) ∧ data = .obj object ∧
        Server.WellFormed gson object sections
  | ⟨.inr command, answer⟩ =>
      Server.refused ⟨command, answer⟩ = false ∧ Server.unconnected ⟨command, answer⟩ = false
  | _ => True

/-- The rows which a document describes. -/
def describedRows (gson : Gson) (macAddress : Double) (table : Server.Table) : Json → List Row
  | .obj object => Server.insertedInto table (Plan.readable (Server.plan gson object macAddress))
  | _ => []

/-- The rows are those of the last document, or the old ones when there was none. -/
def Settled (gson : Gson) (macAddress : Double) (events : List fleet.Event) : Prop :=
  ∀ table rows, (fleetEffects events).foldl (Effect.onRows table macAddress) rows =
    ((lastReached events).map (describedRows gson macAddress table)).getD rows

variable {gson : Gson} {macAddress : Double} {first second events : List fleet.Event}

theorem fleetEffects_append : fleetEffects (first ++ second) =
    fleetEffects first ++ fleetEffects second :=
  List.filterMap_append

theorem lastReached_append : lastReached (first ++ second) =
    (lastReached second).or (lastReached first) := by
  rw [lastReached, List.filterMap_append, List.getLast?_append, ← lastReached, ← lastReached]

theorem Settled.append (earlier : Settled gson macAddress first)
    (later : Settled gson macAddress second) : Settled gson macAddress (first ++ second) := by
  intro table rows
  rw [fleetEffects_append, List.foldl_append, earlier, later, lastReached_append]
  cases lastReached second <;> rfl

theorem settled_of_quiet (noEffects : fleetEffects events = [])
    (noneReached : lastReached events = none) : Settled gson macAddress events := by
  intro table rows
  rw [noEffects, noneReached]
  rfl

theorem fleetEffects_map_inr (served : List jdbc.Event) :
    fleetEffects (served.map (inr (I := net))) = executedEffects served := by
  rw [fleetEffects, List.filterMap_map]
  rfl

theorem lastReached_map_inr (served : List jdbc.Event) :
    lastReached (served.map (inr (I := net))) = none := by
  have nothing : (served.map (inr (I := net))).filterMap reachedDocument = [] := by
    rw [List.filterMap_map, List.filterMap_eq_nil_iff]
    exact fun _ _ => rfl
  rw [lastReached, nothing]
  rfl

theorem done_of_onRight {α : Type} {program : Program jdbc α} {value : α}
    (same : Program.interpret (Program.onRight (I := net)) program = .done value) :
    program = .done value := by
  cases program with
  | done value' =>
      cases same
      rfl
  | call command next => cases same
  | unfinished => cases same

/-- What has been done for a request when it is answered. -/
inductive Ready (gson : Gson) (input : Option (List Char)) :
    List fleet.Event → Except JavaException String → Prop where
  | failed {served : List jdbc.Event} {exception : JavaException}
      (stores : Follows (storeBody gson (getBodyData input)).run served (.done (.error exception))) :
      Ready gson input (served.map inr) (.error exception)
  | stored {served : List jdbc.Event} {macId : Double} {dockerResponseJson : Option String}
      (stores : Follows (storeBody gson (getBodyData input)).run served (.done (.ok macId))) :
      Ready gson input (served.map inr ++ [readsOrders dockerResponseJson])
        (respond gson none dockerResponseJson macId)

theorem answerStored_completes {input : Option (List Char)} {served : List jdbc.Event}
    {stored : Except JavaException Double} {left : Program fleet (Option Response)}
    (stores : Follows (storeBody gson (getBodyData input)).run served (.done stored))
    (answers : Follows (answerStored gson stored) events left) (outside : OutsideServlet left) :
    ∃ done result, Ready gson input done result ∧
      (served.map inr ++ events = done ∧ (∃ next, left = .call (.inl (.reply result)) next) ∨
        ∃ response : Option Response,
          served.map inr ++ events = done ++ [replies result response] ∧ left = .done response) := by
  cases stored with
  | error exception =>
      refine ⟨_, _, .failed stores, ?_⟩
      rcases Follows.of_call answers with ⟨rfl, rfl⟩ | ⟨response, later, rfl, returns⟩
      · exact .inl ⟨List.append_nil _, _, rfl⟩
      · rcases returns.of_done with ⟨rfl, rfl⟩
        exact .inr ⟨response, rfl, rfl⟩
  | ok macId =>
      rcases Follows.of_call answers with ⟨rfl, rfl⟩ | ⟨dockerResponseJson, later, rfl, rest⟩
      · rcases outside _ _ rfl with ⟨other, same, noOrders⟩
        cases same
        exact absurd rfl noOrders
      have ready : Ready gson input (served.map inr ++ [readsOrders dockerResponseJson]) _ :=
        .stored stores
      refine ⟨_, _, ready, ?_⟩
      rcases Follows.of_call rest with ⟨rfl, rfl⟩ | ⟨response, later, rfl, returns⟩
      · exact .inl ⟨rfl, _, rfl⟩
      · rcases returns.of_done with ⟨rfl, rfl⟩
        exact .inr ⟨response, by simp, rfl⟩

/-- A run of the servlet is over when the servlet is not at work. -/
theorem serve_completes {input : Option (List Char)} {left : Program fleet (Option Response)}
    (follows : Follows (serve gson input) events left) (outside : OutsideServlet left) :
    ∃ done result, Ready gson input done result ∧
      (events = done ∧ (∃ next, left = .call (.inl (.reply result)) next) ∨
        ∃ response : Option Response, events = done ++ [replies result response] ∧
          left = .done response) := by
  rcases Follows.of_bind follows with ⟨inside, runs, rfl⟩ | ⟨first, second, stored, rfl, runs, answers⟩
  · rcases Follows.of_onRight runs with ⟨served, middle, rfl, stores, rfl⟩
    cases middle with
    | done stored =>
        rw [← List.append_nil (served.map inr)]
        exact answerStored_completes stores (.refl _) outside
    | call command next =>
        rcases outside _ _ rfl with ⟨other, same, _⟩
        cases same
    | unfinished => exact ((Server.storeBody_terminates _).remaining stores).elim
  · rcases Follows.of_onRight runs with ⟨served, middle, rfl, stores, finished⟩
    rw [done_of_onRight finished.symm] at stores
    exact answerStored_completes stores answers outside

theorem doPost_of_storeBody {input : Option (List Char)} {served : List jdbc.Event}
    {stored : Except JavaException Double}
    (stores : Follows (storeBody gson (getBodyData input)).run served (.done stored))
    (dockerResponseJson : Option String) :
    Follows (doPost gson none input dockerResponseJson).run served
      (.done (stored >>= respond gson none dockerResponseJson)) := by
  cases stored <;> exact stores.inside_bind

/-- A request is answered as `doPost` answers it when it is given the orders. -/
theorem Ready.exists_doPost {input : Option (List Char)} {result : Except JavaException String}
    (ready : Ready gson input events result) :
    ∃ dockerResponseJson served,
      Follows (doPost gson none input dockerResponseJson).run served (.done result) ∧
      fleetEffects events = executedEffects served ∧ lastReached events = none ∧
      ∀ event ∈ served, inr event ∈ events := by
  cases ready with
  | @failed served exception stores =>
      exact ⟨none, served, doPost_of_storeBody stores none, fleetEffects_map_inr served,
        lastReached_map_inr served, fun event mem => List.mem_map_of_mem mem⟩
  | @stored served macId dockerResponseJson stores =>
      refine ⟨dockerResponseJson, served, doPost_of_storeBody stores dockerResponseJson, ?_, ?_,
        fun event mem => List.mem_append_left _ (List.mem_map_of_mem mem)⟩
      · rw [fleetEffects_append, fleetEffects_map_inr]
        exact List.append_nil _
      · rw [lastReached_append, lastReached_map_inr]
        rfl

/-- What the run of the servlet leaves. -/
theorem Ready.settles {data : Json} {input : Option (List Char)}
    {result : Except JavaException String} (ready : Ready gson input events result)
    (arrival : Sound gson macAddress (arrives data (.reached input)))
    (sound : ∀ event ∈ events, Sound gson macAddress event) :
    Settled gson macAddress (arrives data (.reached input) :: events) := by
  rcases ready.exists_doPost with ⟨dockerResponseJson, served, stores, made, unreached, among⟩
  rcases arrival with ⟨body, object, sections, isBody, read, rfl, wellFormed⟩
  rcases Server.doPost_changes isBody read stores with
    ⟨deleted, inserted, sublist, isPrefix, effects, all⟩
  have connected : served.any Server.unconnected = false := by
    rw [List.any_eq_false]
    exact fun event mem => by simp [(sound _ (among event mem)).2]
  have accepted : served.any Server.refused = false := by
    rw [List.any_eq_false]
    exact fun event mem => by simp [(sound _ (among event mem)).1]
  rcases all connected accepted with ⟨rfl, rfl⟩
  intro table rows
  have reached : lastReached (arrives (.obj object) (.reached input) :: events) =
      some (.obj object) := by
    rw [← List.singleton_append, lastReached_append, unreached]
    rfl
  have all : fleetEffects (arrives (.obj object) (.reached input) :: events) =
      executedEffects served := made
  rw [reached, all, effects,
    Server.onRows_foldl_changes sublist (Server.isInsertion_of_prefix_plan isPrefix)]
  cases table <;> simp [Server.deletions, describedRows]

/-- A request from its way to the server to its end, with what is answered. -/
inductive Attempted (gson : Gson) (data : Json) : List fleet.Event → Option Response → Prop where
  | lost : Attempted gson data [arrives data .lost] none
  | turnedAway {page : Response} :
      Attempted gson data [arrives data (.turnedAway page)] (some page)
  | served {input : Option (List Char)} {done : List fleet.Event}
      {result : Except JavaException String} {response : Option Response}
      (ready : Ready gson input done result) :
      Attempted gson data (arrives data (.reached input) :: (done ++ [replies result response]))
        response

/-- A request which is on its way, or the answer of which is. -/
inductive Pending (gson : Gson) (data : Json) : List fleet.Event → Prop where
  | arriving : Pending gson data []
  | answering {input : Option (List Char)} {done : List fleet.Event}
      {result : Except JavaException String} (ready : Ready gson input done result) :
      Pending gson data (arrives data (.reached input) :: done)

theorem attempt_follows {data : Json} {left : Program fleet (Option Response)}
    (follows : Follows (attempt gson data) events left) (outside : OutsideServlet left) :
    (∀ response, left ≠ .done response) ∧ Pending gson data events ∨
      ∃ response, left = .done response ∧ Attempted gson data events response := by
  rcases Follows.of_call follows with ⟨rfl, rfl⟩ | ⟨arrival, later, rfl, rest⟩
  · exact .inl ⟨nofun, .arriving⟩
  cases arrival with
  | lost =>
      rcases Follows.of_done rest with ⟨rfl, rfl⟩
      exact .inr ⟨none, rfl, .lost⟩
  | turnedAway page =>
      rcases Follows.of_done rest with ⟨rfl, rfl⟩
      exact .inr ⟨some page, rfl, .turnedAway⟩
  | reached input =>
      rcases serve_completes rest outside with
        ⟨done, result, ready, ⟨rfl, _, rfl⟩ | ⟨response, rfl, rfl⟩⟩
      · exact .inl ⟨nofun, .answering ready⟩
      · exact .inr ⟨response, rfl, .served ready⟩

theorem attempt_completes {data : Json} {response : Option Response}
    (completes : Follows (attempt gson data) events (.done response)) :
    Attempted gson data events response := by
  rcases attempt_follows completes (outsideServlet_done response) with ⟨unfinished, _⟩ | ⟨_, same, attempted⟩
  · exact absurd rfl (unfinished response)
  · cases same
    exact attempted

theorem Pending.settles {data : Json} (pending : Pending gson data events)
    (sound : ∀ event ∈ events, Sound gson macAddress event) : Settled gson macAddress events := by
  cases pending with
  | arriving => exact settled_of_quiet rfl rfl
  | answering ready =>
      rw [List.forall_mem_cons] at sound
      exact ready.settles sound.1 sound.2

theorem Attempted.settles {data : Json} {response : Option Response}
    (attempted : Attempted gson data events response)
    (sound : ∀ event ∈ events, Sound gson macAddress event) : Settled gson macAddress events := by
  cases attempted with
  | lost => exact settled_of_quiet rfl rfl
  | turnedAway => exact settled_of_quiet rfl rfl
  | served ready =>
      rw [← List.cons_append] at sound ⊢
      rw [List.forall_mem_append] at sound
      have pending : Pending gson data _ := .answering ready
      exact (pending.settles sound.1).append (settled_of_quiet rfl rfl)

/-! ## Uploads -/

/-- The exchanges of an upload, with what the loop is given. -/
inductive Uploaded (gson : Gson) (data : Json) : List fleet.Event → Response → Prop where
  | once {events : List fleet.Event} {response : Response}
      (answered : Attempted gson data events (some response)) : Uploaded gson data events response
  | twice {first second : List fleet.Event} {response : Option Response}
      (unanswered : Attempted gson data first none)
      (again : Attempted gson data second response) :
      Uploaded gson data (first ++ second) (response.getD noResponse)

/-- A part of an upload, with the servlet not at work. -/
inductive Uploading (gson : Gson) (data : Json) : List fleet.Event → Prop where
  | first {events : List fleet.Event} (pending : Pending gson data events) :
      Uploading gson data events
  | second {first second : List fleet.Event} (unanswered : Attempted gson data first none)
      (pending : Pending gson data second) : Uploading gson data (first ++ second)

theorem bind_ne_done {α β : Type} {program : Program fleet α} {continuation : α → Program fleet β}
    (unfinished : ∀ value, program ≠ .done value) (value : β) :
    (program >>= continuation) ≠ .done value := by
  cases program with
  | done value' => exact absurd rfl (unfinished value')
  | call command next => exact nofun
  | unfinished => exact nofun

/-- The second request. -/
theorem again_follows {data : Json} {left : Program fleet Response}
    (follows : Follows (orAgain gson data none) events left)
    (outside : OutsideServlet left) :
    (∀ response, left ≠ .done response) ∧ Pending gson data events ∨
      ∃ response, left = .done (response.getD noResponse) ∧ Attempted gson data events response := by
  rcases Follows.of_bind follows with ⟨inside, begun, rfl⟩ |
    ⟨first, second, response, rfl, attempted, rest⟩
  · rcases attempt_follows begun outside.of_bind with ⟨unfinished, pending⟩ |
      ⟨response, rfl, attempted⟩
    · exact .inl ⟨bind_ne_done unfinished, pending⟩
    · exact .inr ⟨response, rfl, attempted⟩
  · rcases Follows.of_done rest with ⟨rfl, rfl⟩
    rw [List.append_nil]
    exact .inr ⟨response, rfl, attempt_completes attempted⟩

theorem upload_follows {url : Bytes} {data : Json} {left : Program fleet Response}
    (follows : Follows (served gson (.httpPost url data)) events left)
    (outside : OutsideServlet left) :
    (∀ response, left ≠ .done response) ∧ Uploading gson data events ∨
      ∃ response, left = .done response ∧ Uploaded gson data events response := by
  have goesOn : ∀ {first second} {answer : Option Response}, Attempted gson data first answer →
      Follows (orAgain gson data answer) second left →
      (∀ response, left ≠ .done response) ∧ Uploading gson data (first ++ second) ∨
        ∃ response, left = .done response ∧ Uploaded gson data (first ++ second) response := by
    intro first second answer attempted rest
    cases answer with
    | some response =>
        rcases Follows.of_done rest with ⟨rfl, rfl⟩
        rw [List.append_nil]
        exact .inr ⟨response, rfl, .once attempted⟩
    | none =>
        rcases again_follows rest outside with ⟨unfinished, pending⟩ | ⟨response, rfl, again⟩
        · exact .inl ⟨unfinished, .second attempted pending⟩
        · exact .inr ⟨_, rfl, .twice attempted again⟩
  rcases Follows.of_bind follows with ⟨inside, begun, rfl⟩ |
    ⟨first, second, answer, rfl, attempted, rest⟩
  · rcases attempt_follows begun outside.of_bind with ⟨unfinished, pending⟩ |
      ⟨answer, rfl, attempted⟩
    · exact .inl ⟨bind_ne_done unfinished, .first pending⟩
    · rw [← List.append_nil events]
      exact goesOn attempted (.refl _)
  · exact goesOn (attempt_completes attempted) rest

theorem Uploading.settles {data : Json} (uploading : Uploading gson data events)
    (sound : ∀ event ∈ events, Sound gson macAddress event) : Settled gson macAddress events := by
  cases uploading with
  | first pending => exact pending.settles sound
  | second unanswered pending =>
      rw [List.forall_mem_append] at sound
      exact (unanswered.settles sound.1).append (pending.settles sound.2)

theorem Uploaded.settles {data : Json} {response : Response}
    (uploaded : Uploaded gson data events response)
    (sound : ∀ event ∈ events, Sound gson macAddress event) : Settled gson macAddress events := by
  cases uploaded with
  | once answered => exact answered.settles sound
  | twice unanswered again =>
      rw [List.forall_mem_append] at sound
      exact (unanswered.settles sound.1).append (again.settles sound.2)

theorem served_settles {command : MonitorCommand} {left : Program fleet (monitor.Answer command)}
    (follows : Follows (served gson command) events left) (outside : OutsideServlet left)
    (sound : ∀ event ∈ events, Sound gson macAddress event) : Settled gson macAddress events := by
  cases command with
  | httpPost url data =>
      rcases upload_follows follows outside with ⟨_, uploading⟩ | ⟨response, _, uploaded⟩
      · exact uploading.settles sound
      · exact uploaded.settles sound
  | _ =>
      rcases Follows.of_call follows with ⟨rfl, _⟩ | ⟨answer, later, rfl, rest⟩
      · exact settled_of_quiet rfl rfl
      · rcases Follows.of_done rest with ⟨rfl, _⟩
        exact settled_of_quiet rfl rfl

theorem carried_settles {exchanges : List monitor.Event}
    (carries : Carried (served gson) exchanges events)
    (sound : ∀ event ∈ events, Sound gson macAddress event) : Settled gson macAddress events := by
  induction carries with
  | nil => exact settled_of_quiet rfl rfl
  | cons completes later ih =>
      rw [List.forall_mem_append] at sound
      exact (served_settles completes (outsideServlet_done _) sound.1).append (ih sound.2)

/-- What a machine does, whenever the servlet is not at work for it, leaves the rows of the
last document which has reached the servlet. -/
theorem machineProgram_settles {bound : ℕ} {location : Bytes} {timeInterval : ℤ}
    {left : Program fleet (Except StdException Empty)}
    (follows : Follows (machineProgram gson bound location timeInterval) events left)
    (outside : OutsideServlet left) (sound : ∀ event ∈ events, Sound gson macAddress event) :
    Settled gson macAddress events := by
  rcases follows.of_interpret with ⟨exchanges, middle, carried, inside, rfl, _, carries, underway⟩
  rw [List.forall_mem_append] at sound
  apply (carried_settles carries sound.1).append
  cases underway with
  | between => exact settled_of_quiet rfl rfl
  | within begun within isOpen => exact served_settles within outside.of_bind sound.2

/-! ## Parts of uploads -/

/-- A property of the exchanges of every part of an upload. -/
structure UploadRule (gson : Gson) (property : List fleet.Event → Prop) : Prop where
  nil : property []
  append : ∀ {first second}, property first → property second → property (first ++ second)
  arrival : ∀ data arrival, property [arrives data arrival]
  storing : ∀ {data input served left},
    Follows (storeBody gson (getBodyData input)).run served left →
    property (arrives data (.reached input) :: served.map inr)
  orders : ∀ dockerResponseJson, property [readsOrders dockerResponseJson]
  reply : ∀ result response, property [replies result response]

namespace UploadRule

variable {property : List fleet.Event → Prop} {data : Json}

theorem answerStored (rule : UploadRule gson property) {stored : Except JavaException Double}
    {left : Program fleet (Option Response)}
    (follows : Follows (answerStored gson stored) events left) : property events := by
  have replying : ∀ {result events}, Follows (atNet (.reply result)) events left →
      property events := by
    intro result events follows
    rcases Follows.of_call follows with ⟨rfl, _⟩ | ⟨response, later, rfl, returns⟩
    · exact rule.nil
    · rcases returns.of_done with ⟨rfl, _⟩
      exact rule.reply result response
  cases stored with
  | error exception => exact replying follows
  | ok macId =>
      rcases Follows.of_call follows with ⟨rfl, _⟩ | ⟨dockerResponseJson, later, rfl, rest⟩
      · exact rule.nil
      · exact rule.append (rule.orders dockerResponseJson) (replying rest)

theorem serve (rule : UploadRule gson property) {input : Option (List Char)}
    {left : Program fleet (Option Response)} (follows : Follows (serve gson input) events left) :
    property (arrives data (.reached input) :: events) := by
  rcases Follows.of_bind follows with ⟨inside, runs, _⟩ | ⟨first, second, stored, rfl, runs, answers⟩
  · rcases Follows.of_onRight runs with ⟨served, middle, rfl, stores, _⟩
    exact rule.storing stores
  · rcases Follows.of_onRight runs with ⟨served, middle, rfl, stores, _⟩
    exact rule.append (rule.storing stores) (rule.answerStored answers)

theorem attempt (rule : UploadRule gson property) {left : Program fleet (Option Response)}
    (follows : Follows (attempt gson data) events left) : property events := by
  rcases Follows.of_call follows with ⟨rfl, _⟩ | ⟨arrival, later, rfl, rest⟩
  · exact rule.nil
  cases arrival with
  | lost =>
      rcases Follows.of_done rest with ⟨rfl, _⟩
      exact rule.arrival data _
  | turnedAway page =>
      rcases Follows.of_done rest with ⟨rfl, _⟩
      exact rule.arrival data _
  | reached input => exact rule.serve rest

theorem upload (rule : UploadRule gson property) {url : Bytes} {left : Program fleet Response}
    (follows : Follows (served gson (.httpPost url data)) events left) : property events := by
  rcases Follows.of_bind follows with ⟨inside, begun, _⟩ |
    ⟨first, second, answer, rfl, attempted, rest⟩
  · exact rule.attempt begun
  apply rule.append (rule.attempt attempted)
  cases answer with
  | some response =>
      rcases Follows.of_done rest with ⟨rfl, _⟩
      exact rule.nil
  | none =>
      rcases Follows.of_bind rest with ⟨inside, begun, _⟩ |
        ⟨second, third, response, rfl, again, returns⟩
      · exact rule.attempt begun
      · rcases Follows.of_done returns with ⟨rfl, _⟩
        exact rule.append (rule.attempt again) rule.nil

end UploadRule

/-! ## What a machine leaves alone -/

/-- No document reaches the servlet with this id. -/
def Foreign (gson : Gson) (macAddress : Double) : fleet.Event → Prop
  | ⟨.inl (.arrive _), .reached input⟩ => ¬Server.NamesMachine gson macAddress input
  | _ => True

/-- All changes are about other machines. -/
def Leaves (macAddress : Double) (events : List fleet.Event) : Prop :=
  ∀ change ∈ fleetEffects events, ∃ other ≠ macAddress, change.OfMachine other

theorem Leaves.append (earlier : Leaves macAddress first) (later : Leaves macAddress second) :
    Leaves macAddress (first ++ second) := by
  rw [Leaves, fleetEffects_append, List.forall_mem_append]
  exact ⟨earlier, later⟩

theorem leaves_of_quiet (noEffects : fleetEffects events = []) : Leaves macAddress events := by
  rw [Leaves, noEffects]
  exact nofun

theorem leaves_uploadRule : UploadRule gson fun events =>
    (∀ event ∈ events, Foreign gson macAddress event) → Leaves macAddress events where
  nil := fun _ => leaves_of_quiet rfl
  append := by
    intro first second earlier later foreign
    rw [List.forall_mem_append] at foreign
    exact (earlier foreign.1).append (later foreign.2)
  arrival := fun _ _ _ => leaves_of_quiet rfl
  storing := by
    intro data input served left stores foreign
    have effects : fleetEffects (arrives data (.reached input) :: served.map inr) =
        executedEffects served :=
      fleetEffects_map_inr served
    have answers : Follows (doPost gson none input none).run served _ := stores.inside_bind
    rw [Leaves, effects]
    exact Server.doPost_leaves (foreign _ List.mem_cons_self) answers
  orders := fun _ _ => leaves_of_quiet rfl
  reply := fun _ _ _ => leaves_of_quiet rfl

theorem served_leaves {command : MonitorCommand} {left : Program fleet (monitor.Answer command)}
    (follows : Follows (served gson command) events left)
    (foreign : ∀ event ∈ events, Foreign gson macAddress event) : Leaves macAddress events := by
  cases command with
  | httpPost url data => exact leaves_uploadRule.upload follows foreign
  | _ =>
      rcases Follows.of_call follows with ⟨rfl, _⟩ | ⟨answer, later, rfl, rest⟩
      · exact leaves_of_quiet rfl
      · rcases Follows.of_done rest with ⟨rfl, _⟩
        exact leaves_of_quiet rfl

theorem carried_leaves {exchanges : List monitor.Event}
    (carries : Carried (served gson) exchanges events)
    (foreign : ∀ event ∈ events, Foreign gson macAddress event) : Leaves macAddress events := by
  induction carries with
  | nil => exact leaves_of_quiet rfl
  | cons completes later ih =>
      rw [List.forall_mem_append] at foreign
      exact (served_leaves completes foreign.1).append (ih foreign.2)

theorem machineProgram_leaves {bound : ℕ} {location : Bytes} {timeInterval : ℤ}
    {left : Program fleet (Except StdException Empty)}
    (follows : Follows (machineProgram gson bound location timeInterval) events left)
    (foreign : ∀ event ∈ events, Foreign gson macAddress event) : Leaves macAddress events := by
  rcases follows.of_interpret with ⟨exchanges, middle, carried, inside, rfl, _, carries, underway⟩
  rw [List.forall_mem_append] at foreign
  apply (carried_leaves carries foreign.1).append
  cases underway with
  | between => exact leaves_of_quiet rfl
  | within begun within isOpen => exact served_leaves within foreign.2

end HumanMachine.Client
