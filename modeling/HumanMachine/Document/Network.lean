import HumanMachine.Client.Process
import HumanMachine.Document.FleetOrders
import HumanMachine.Program.Simulation

/-!
# Monitors over sockets and their server

The system with all its parts: any number of clients, each with the loop of `timerControl`
over the system calls of `HttpRequest.h`, the runs of `doPost` which their transmissions
bring about, and one database. A client goes on while the servlet is at work for it, and
polls its socket. What is on its way between a client and the server is the channel of its
node: a transmission may get lost, be turned away by a page which is not the servlet's, or
reach the servlet, and an answer which gets lost or is never received counts as none. An
answer is received in one piece, and only while its transmission is waited for; the server is
through with a transmission before its socket fails.

The nodes are simulated by the machines of `Fleet`, so that what holds of these holds over
sockets.
-/

namespace HumanMachine.Client

open Program (Follows RunsOn PoolRun Guarantees)
open Server (Gson Database)

/-- What has become of the last transmission. -/
inductive Channel where
  | arriving (request : Bytes)
  | serving (servlet : Program fleet (Option Response))
  /-- This, or nothing, can be received. -/
  | settled (answer : Option Response)

/-- A servlet which has ended has settled the transmission. -/
def Channel.ofServlet : Program fleet (Option Response) → Channel
  | .done answer => .settled answer
  | servlet => .serving servlet

/-- What is done about an arrival on the server's side. -/
def Arrival.servlet (gson : Gson) : Arrival → Program fleet (Option Response)
  | .lost => .done none
  | .turnedAway page => .done (some page)
  | .reached input => HumanMachine.Client.serve gson input

/-- `send` and `recv` use the channel, and all other calls leave it alone. -/
def transfers : sys.Event → Bool
  | ⟨.send _ _, _⟩ => true
  | ⟨.recv _, _⟩ => true
  | _ => false

inductive Channel.Carries : Channel → sys.Event → Channel → Prop where
  | sent {fd ret : ℤ} {data : Bytes} (accepted : 0 ≤ ret) :
      Carries (.settled none) ⟨.send fd data, ret⟩ (.arriving data)
  | notSent {fd ret : ℤ} {data : Bytes} (failed : ret < 0) :
      Carries (.settled none) ⟨.send fd data, ret⟩ (.settled none)
  | received {fd : ℤ} {buf : Bytes} {nonempty : buf ≠ []} {fits : buf.length ≤ BUFSIZE} :
      Carries (.settled (some (responseOf (cString buf))))
        ⟨.recv fd, Received.data buf nonempty fits⟩ (.settled none)
  | closed {fd : ℤ} : Carries (.settled none) ⟨.recv fd, Received.closed⟩ (.settled none)
  | failed {fd : ℤ} {errno : Errno} (fatal : errno.transient = false) :
      Carries (.settled none) ⟨.recv fd, Received.failed errno⟩ (.settled none)
  | again {channel : Channel} {fd : ℤ} {errno : Errno} (transient : errno.transient = true) :
      Carries channel ⟨.recv fd, Received.failed errno⟩ channel
  | other {channel : Channel} {event : sys.Event} (noTransfer : transfers event = false) :
      Carries channel event channel

/-- A client with what is on its way between it and the server. -/
structure Node where
  program : Program client (Except StdException Empty)
  channel : Channel

inductive Label where
  /-- What the loop asks of its own machine. -/
  | own (event : monitor.Event)
  | system (event : sys.Event)
  | arrive (request : Bytes) (arrival : Arrival)
  | serve (event : fleet.Event)

inductive NodeStep (gson : Gson) : Node → Label → Node → Prop where
  | own {command : MonitorCommand} {answer : monitor.Answer command}
      {next : monitor.Answer command → Program client (Except StdException Empty)}
      {channel : Channel} :
      NodeStep gson ⟨.call (.inl command) next, channel⟩ (.own ⟨command, answer⟩)
        ⟨next answer, channel⟩
  | system {command : SysCommand} {answer : sys.Answer command}
      {next : sys.Answer command → Program client (Except StdException Empty)}
      {channel after : Channel} (carries : channel.Carries ⟨command, answer⟩ after) :
      NodeStep gson ⟨.call (.inr command) next, channel⟩ (.system ⟨command, answer⟩)
        ⟨next answer, after⟩
  | arrive {program : Program client (Except StdException Empty)} {request : Bytes}
      {arrival : Arrival} :
      NodeStep gson ⟨program, .arriving request⟩ (.arrive request arrival)
        ⟨program, .ofServlet (arrival.servlet gson)⟩
  | serve {program : Program client (Except StdException Empty)} {command : fleet.Command}
      {next : fleet.Answer command → Program fleet (Option Response)}
      {answer : fleet.Answer command} :
      NodeStep gson ⟨program, .serving (.call command next)⟩ (.serve ⟨command, answer⟩)
        ⟨program, .ofServlet (next answer)⟩

def Label.effect : Label → Option Server.Effect
  | .serve event => fleetExecuted event
  | _ => none

def networkEffect (db : Database) (label : Label) (after : Database) : Prop :=
  after = db.replay label.effect.toList

def initialNode (toStyledString : Json → Bytes) (rounds bound : ℕ) (location : Bytes)
    (timeInterval : ℤ) : Node where
  program := clientProcess toStyledString rounds bound location timeInterval
  channel := .settled none

/-! ## The fleet's requests -/

/-- The loop is given the answer, or the request is made again. -/
def orTries (retry : Program fleet Response) : Option Response → Program fleet Response
  | some response => .done response
  | none => retry

def tries (gson : Gson) (root : Json) : ℕ → Program fleet Response
  | 0 => .done noResponse
  | n + 1 => attempt gson root >>= orTries (tries gson root n)

theorem served_httpPost (gson : Gson) (url : Bytes) (root : Json) :
    served gson (.httpPost url root) = tries gson root 2 := by
  have again : orAgain gson root = orTries (tries gson root 1) := by
    funext answer
    cases answer with
    | some response => rfl
    | none =>
        have give : (fun answer => Program.done (answer.getD noResponse)) =
            orTries (tries gson root 0) := by
          funext answer
          cases answer <;> rfl
        exact congrArg (attempt gson root >>= ·) give
  rw [served, again]
  rfl

/-- The requests which are left may get lost on the way. -/
theorem tries_follows (gson : Gson) (root : Json) (n : ℕ) :
    Follows (tries gson root n) (List.replicate n (arrives root .lost)) (.done noResponse) := by
  induction n with
  | zero => exact .refl _
  | succ n ih => exact .step ih

/-! ## What the fleet's machine still does for a call -/

/-- A transmission is waited for. -/
def Phase.Waits : Phase → Prop
  | .release _ _ failed => failed = false
  | .receiving _ _ => True
  | _ => False

variable {gson : Gson} {toStyledString : Json → Bytes} {rounds : ℕ} {location : Bytes}
  {timeInterval : ℤ} {root : Json} {n : ℕ} {phase after : Phase} {channel following : Channel}
  {program : Program fleet Response}

/-- What the servlet and its surroundings ask for. -/
def isServlet : fleet.Command → Bool
  | .inl .readOrders => true
  | .inl (.reply _) => true
  | .inl _ => false
  | .inr _ => true

abbrev OnServer {α : Type} (program : Program fleet α) : Prop :=
  Guarantees Program.free (fun _ command => isServlet command = true) (fun _ _ => True) program ()

theorem onServer_onRight {α : Type} (program : Program Server.jdbc α) :
    OnServer (Program.interpret (Program.onRight (I := net)) program) := by
  induction program with
  | done value => trivial
  | call command next ih => exact ⟨rfl, fun answer _ _ => ih answer⟩
  | unfinished => trivial

theorem Arrival.onServer (gson : Gson) (arrival : Arrival) : OnServer (arrival.servlet gson) := by
  cases arrival with
  | lost => trivial
  | turnedAway page => trivial
  | reached input =>
      apply Guarantees.bind
      apply (onServer_onRight _).mono
      intro stored _ _
      cases stored with
      | error exception => exact ⟨rfl, fun _ _ _ => trivial⟩
      | ok macId => exact ⟨rfl, fun _ _ _ => ⟨rfl, fun _ _ _ => trivial⟩⟩

variable (gson toStyledString root) in
/-- A phase and a channel are matched by a program which has so many requests left behind the
one on its way. -/
inductive Owes : ℕ → Phase → Channel → Program fleet Response → Prop where
  | quiet {n : ℕ} {phase : Phase} : Owes n phase (.settled none) (tries gson root n)
  | arriving {n : ℕ} {phase : Phase} (waits : phase.Waits) :
      Owes n phase (.arriving (uploadHead toStyledString root ++ [0])) (tries gson root (n + 1))
  | serving {n : ℕ} {phase : Phase} {servlet : Program fleet (Option Response)}
      (waits : phase.Waits) (onServer : OnServer servlet) :
      Owes n phase (.serving servlet) (servlet >>= orTries (tries gson root n))
  | answered {n : ℕ} {phase : Phase} {response : Response} (waits : phase.Waits) :
      Owes n phase (.settled (some response)) (.done response)

theorem owes_ofServlet {servlet : Program fleet (Option Response)} (waits : phase.Waits)
    (onServer : OnServer servlet) :
    Owes gson toStyledString root n phase (.ofServlet servlet)
      (servlet >>= orTries (tries gson root n)) := by
  cases servlet with
  | done answer =>
      cases answer with
      | none => exact .quiet
      | some response => exact .answered waits
  | _ => exact .serving waits onServer

/-- While a transmission is waited for, the call only frees the request and polls. -/
theorem Phase.Waits.step {strUrl strHttpHead : Bytes} {event : sys.Event} (waits : phase.Waits)
    (noTransfer : transfers event = false) (step : Step strUrl strHttpHead phase event after) :
    after.Waits := by
  cases step with
  | free => trivial
  | freeFailed => cases waits
  | recv | recvClosed | recvAgain | recvError => cases noTransfer
  | _ => exact waits.elim

/-- An exchange of a call which goes on. -/
theorem Owes.step {event : sys.Event} (owes : Owes gson toStyledString root n phase channel program)
    (left : 2 ≤ n + phase.transmitted)
    (step : Step serverUrl (uploadHead toStyledString root) phase event after)
    (goesOn : ∀ received, after ≠ .finished received) (carries : channel.Carries event following) :
    ∃ m, Owes gson toStyledString root m after following program ∧ 2 ≤ m + after.transmitted := by
  have transmitted := step.transmitted
  cases carries with
  | sent accepted =>
      cases owes
      cases step with
      | @send origin fd ret =>
          have once : ∀ fd, (Phase.transmit origin fd).transmitted ≤ 1 := by
            cases origin <;> simp [Phase.transmitted]
          have requested := left.trans (Nat.add_le_add_left (once _) n)
          obtain ⟨m, rfl⟩ : ∃ m, n = m + 1 := ⟨n - 1, by omega⟩
          change _ + 1 ≤ _ at transmitted
          exact ⟨m, .arriving (decide_eq_false (not_lt.mpr accepted)), by omega⟩
  | received =>
      cases step with
      | recv => exact absurd rfl (goesOn _)
  | notSent failed =>
      cases owes
      exact ⟨n, .quiet, by omega⟩
  | closed =>
      cases owes
      exact ⟨n, .quiet, by omega⟩
  | failed fatal =>
      cases owes
      exact ⟨n, .quiet, by omega⟩
  | again transient =>
      cases step with
      | recvAgain => exact ⟨n, owes, left⟩
      | recvError fatal => exact absurd transient (by simp [fatal])
  | other noTransfer =>
      refine ⟨n, ?_, by omega⟩
      cases owes with
      | quiet => exact .quiet
      | arriving waits => exact .arriving (waits.step noTransfer step)
      | serving waits onServer => exact .serving (waits.step noTransfer step) onServer
      | answered waits => exact .answered (waits.step noTransfer step)

theorem delivered_of_noTransfer {event : sys.Event} (noTransfer : transfers event = false) :
    delivered event = none := by
  rcases event with ⟨command, answer⟩
  cases command with
  | recv fd => cases noTransfer
  | _ => rfl

/-- The last exchange of a call. -/
theorem Owes.finish {event : sys.Event} {received : Option Bytes}
    (owes : Owes gson toStyledString root n phase channel program)
    (step : Step serverUrl (uploadHead toStyledString root) phase event (.finished received))
    (carries : channel.Carries event following) :
    following = .settled none ∧ ∃ m, Follows program (List.replicate m (arrives root .lost))
      (.done (responseOf ((received.map cString).getD []))) := by
  cases carries with
  | received =>
      cases step with
      | recv =>
          cases owes
          exact ⟨rfl, 0, .refl _⟩
  | other noTransfer =>
      cases owes with
      | quiet =>
          obtain rfl : received = none := by
            rw [← delivered_of_noTransfer noTransfer]
            exact step.received.2.symm
          exact ⟨rfl, n, tries_follows gson root n⟩
      | arriving waits | serving waits _ | answered waits =>
          exact (waits.step noTransfer step).elim
  | _ => cases step

/-! ## Nodes and the fleet's machines -/

/-- The HTTP client in the place of an upload. -/
def uploadBy (call : Http (ℤ × Bytes)) : Program client Response :=
  Program.interpret Program.onRight call >>= fun result => .done (responseOf result.2)

variable (gson toStyledString rounds location timeInterval) in
inductive Related : Node → Program fleet (Except StdException Empty) → Prop where
  | between {loop : Program monitor (Except StdException Empty)} {phase : MonitorPhase}
      (runs : RunsOn (MonitorStep location timeInterval) (MonitorPhase.After Empty.elim) loop phase)
      (noUpload : ∀ url data next, loop ≠ .call (.httpPost url data) next) :
      Related ⟨Program.interpret (overSockets toStyledString rounds) loop, .settled none⟩
        (Program.interpret (served gson) loop)
  | calling {root : Json} {n : ℕ} {phase : Phase} {channel : Channel} {call : Http (ℤ × Bytes)}
      {program : Program fleet Response}
      {next : Response → Program monitor (Except StdException Empty)}
      (calls : RunsOn (Step serverUrl (uploadHead toStyledString root))
        (fun value phase => phase.Returns [] value) call phase)
      (isOpen : ∀ value, call ≠ .done value)
      (goesOn : ∀ response, ∃ phase, RunsOn (MonitorStep location timeInterval)
        (MonitorPhase.After Empty.elim) (next response) phase)
      (owes : Owes gson toStyledString root n phase channel program)
      (left : 2 ≤ n + phase.transmitted) :
      Related ⟨uploadBy call >>= fun response =>
          Program.interpret (overSockets toStyledString rounds) (next response), channel⟩
        (program >>= fun response => Program.interpret (served gson) (next response))
  /-- The rounds are used up. -/
  | stuck {loop : Program monitor (Except StdException Empty)} :
      Related ⟨.unfinished, .settled none⟩ (Program.interpret (served gson) loop)

theorem httpPost_open (data : Bytes) (value : ℤ × Bytes) :
    httpPost rounds (some serverUrl) (some data) [] ≠ .done value := by
  intro same
  rw [← HttpCall.run, run_of_accepted (serverUrl_accepted data [])] at same
  cases same

theorem related_of_runsOn {loop : Program monitor (Except StdException Empty)}
    {phase : MonitorPhase}
    (runs : RunsOn (MonitorStep location timeInterval) (MonitorPhase.After Empty.elim) loop phase) :
    Related gson toStyledString rounds location timeInterval
      ⟨Program.interpret (overSockets toStyledString rounds) loop, .settled none⟩
      (Program.interpret (served gson) loop) := by
  by_cases upload : ∃ url data next, loop = .call (.httpPost url data) next
  · rcases upload with ⟨url, root, next, rfl⟩
    rcases runs (responseOf []) with ⟨_, step, _⟩
    cases step with
    | posted =>
        have requests : Program.interpret (served gson) (.call (.httpPost serverUrl root) next) =
            tries gson root 2 >>= fun response => Program.interpret (served gson) (next response) := by
          rw [← served_httpPost gson serverUrl]
          rfl
        have calls : RunsOn (Step serverUrl (uploadHead toStyledString root))
            (fun value phase => phase.Returns [] value)
            (httpPost rounds (some serverUrl) (some (toStyledString root)) []) .start :=
          run_runsOn rounds (serverUrl_accepted (toStyledString root) [])
        rw [requests]
        apply Related.calling calls (httpPost_open _) _ .quiet (Nat.le_add_right 2 _)
        intro response
        rcases runs response with ⟨after, _, rest⟩
        exact ⟨after, rest⟩
  · apply Related.between runs
    rintro url data next rfl
    exact upload ⟨url, data, next, rfl⟩

/-- What a label shows of the fleet: requests which are never made get lost on the way. -/
inductive Label.Shows (toStyledString : Json → Bytes) : Label → List fleet.Event → Prop where
  | own {command : MonitorCommand} {answer : monitor.Answer command} :
      Shows toStyledString (.own ⟨command, answer⟩) [⟨.inl (.own command), answer⟩]
  | system {event : sys.Event} {root : Json} {n : ℕ} :
      Shows toStyledString (.system event) (List.replicate n (arrives root .lost))
  | arrive {root : Json} {arrival : Arrival} :
      Shows toStyledString (.arrive (uploadHead toStyledString root ++ [0]) arrival)
        [arrives root arrival]
  | serve {event : fleet.Event} (onServer : isServlet event.1 = true) :
      Shows toStyledString (.serve event) [event]

theorem Label.Shows.nothing {event : sys.Event} : (Label.system event).Shows toStyledString [] := by
  have none : (Label.system event).Shows toStyledString (List.replicate 0 (arrives .null .lost)) :=
    .system
  exact none

/-- A system call of a client which is in a call. -/
theorem sys_keepsPace {phase : Phase} {channel following : Channel} {command : SysCommand}
    {answer : sys.Answer command} {request : sys.Answer command → Http (ℤ × Bytes)}
    {next : Response → Program monitor (Except StdException Empty)}
    (calls : RunsOn (Step serverUrl (uploadHead toStyledString root))
      (fun value phase => phase.Returns [] value) (.call command request) phase)
    (goesOn : ∀ response, ∃ phase, RunsOn (MonitorStep location timeInterval)
      (MonitorPhase.After Empty.elim) (next response) phase)
    (owes : Owes gson toStyledString root n phase channel program)
    (left : 2 ≤ n + phase.transmitted) (carries : channel.Carries ⟨command, answer⟩ following) :
    ∃ events left, (Label.system ⟨command, answer⟩).Shows toStyledString events ∧
      Follows (program >>= fun response => Program.interpret (served gson) (next response)) events
        left ∧
      Related gson toStyledString rounds location timeInterval
        ⟨uploadBy (request answer) >>= fun response =>
          Program.interpret (overSockets toStyledString rounds) (next response), following⟩ left := by
  rcases calls answer with ⟨after, step, rest⟩
  by_cases finished : ∃ received, after = .finished received
  · rcases finished with ⟨received, rfl⟩
    rcases owes.finish step carries with ⟨rfl, m, lost⟩
    have ends : Follows (program >>= fun response => Program.interpret (served gson) (next response))
        (List.replicate m (arrives root .lost) ++ [])
        (Program.interpret (served gson) (next (responseOf ((received.map cString).getD [])))) :=
      lost.bind (.refl _)
    rw [List.append_nil] at ends
    refine ⟨_, _, .system, ends, ?_⟩
    cases returned : request answer with
    | done value =>
        rw [returned] at rest
        have same : responseOf value.2 = responseOf ((received.map cString).getD []) := by
          cases received <;> cases rest <;> rfl
        rw [← same]
        rcases goesOn (responseOf value.2) with ⟨phase, runs⟩
        exact related_of_runsOn runs
    | call command request =>
        rw [returned] at rest
        rcases rest (Classical.arbitrary _) with ⟨_, impossible, _⟩
        cases impossible
    | unfinished => exact .stuck
  · rcases owes.step left step (not_exists.mp finished) carries with ⟨m, stillOwes, stillLeft⟩
    refine ⟨[], _, .nothing, .refl _, .calling rest ?_ goesOn stillOwes stillLeft⟩
    intro value returned
    rw [returned] at rest
    exact finished (Phase.Returns.finished rest)

theorem overSockets_own {command : MonitorCommand} (own : ∀ url data, command ≠ .httpPost url data) :
    overSockets toStyledString rounds command = @Program.request client (.inl command) := by
  cases command with
  | httpPost url data => exact absurd rfl (own url data)
  | _ => rfl

theorem served_own {command : MonitorCommand} (own : ∀ url data, command ≠ .httpPost url data) :
    served gson command = atNet (.own command) := by
  cases command with
  | httpPost url data => exact absurd rfl (own url data)
  | _ => rfl

theorem attempt_eq (gson : Gson) (root : Json) :
    attempt gson root = .call (.inl (.arrive root)) fun arrival => Arrival.servlet gson arrival := by
  apply congrArg (Program.call _)
  funext (arrival : Arrival)
  cases arrival <;> rfl

theorem own_keepsPace {phase : MonitorPhase} {command : MonitorCommand}
    {next : monitor.Answer command → Program monitor (Except StdException Empty)}
    {node : Node} {label : Label}
    (runs : RunsOn (MonitorStep location timeInterval) (MonitorPhase.After Empty.elim)
      (.call command next) phase)
    (own : ∀ url data, command ≠ .httpPost url data)
    (moves : NodeStep gson
      ⟨Program.interpret (overSockets toStyledString rounds) (.call command next), .settled none⟩
      label node) :
    ∃ events left, label.Shows toStyledString events ∧
      Follows (Program.interpret (served gson) (.call command next)) events left ∧
      Related gson toStyledString rounds location timeInterval node left := by
  rw [Program.interpret, overSockets_own own] at moves
  rw [Program.interpret, served_own own]
  change NodeStep gson ⟨.call (.inl command) fun answer =>
    Program.interpret (overSockets toStyledString rounds) (next answer), _⟩ _ _ at moves
  cases moves with
  | @own _ answer =>
      rcases runs answer with ⟨_, _, rest⟩
      exact ⟨_, _, .own, .step (.refl _), related_of_runsOn rest⟩

/-- The fleet's machine keeps pace with the node. -/
theorem Related.keepsPace {node following : Node} {label : Label}
    {program : Program fleet (Except StdException Empty)}
    (related : Related gson toStyledString rounds location timeInterval node program)
    (moves : NodeStep gson node label following) :
    ∃ events left, label.Shows toStyledString events ∧ Follows program events left ∧
      Related gson toStyledString rounds location timeInterval following left := by
  cases related with
  | stuck => cases moves
  | @between loop phase runs noUpload =>
      cases loop with
      | done value => cases moves
      | unfinished => cases moves
      | call command next =>
          apply own_keepsPace runs _ moves
          rintro url data rfl
          exact noUpload url data next rfl
  | @calling root n phase channel call program next calls isOpen goesOn owes left =>
      generalize isProgram : (uploadBy call >>= fun response =>
        Program.interpret (overSockets toStyledString rounds) (next response)) = current at moves
      cases moves with
      | own =>
          cases call with
          | done value => exact absurd rfl (isOpen value)
          | call command request => cases isProgram
          | unfinished => cases isProgram
      | system carries =>
          cases call with
          | done value => exact absurd rfl (isOpen value)
          | call command request =>
              cases isProgram
              exact sys_keepsPace calls goesOn owes left carries
          | unfinished => cases isProgram
      | @arrive _ request arrival =>
          subst isProgram
          cases owes with
          | arriving waits =>
              refine ⟨_, _, .arrive, ?_, .calling calls isOpen goesOn
                (owes_ofServlet waits (arrival.onServer gson)) left⟩
              rw [tries, attempt_eq]
              exact .step (.refl _)
      | serve =>
          subst isProgram
          cases owes with
          | serving waits onServer =>
              exact ⟨_, _, .serve onServer.1, .step (.refl _), .calling calls isOpen goesOn
                (owes_ofServlet waits (onServer.2 _ () ⟨rfl, rfl⟩)) left⟩

/-! ## The database -/

theorem answered_replay (events : List fleet.Event) (db : Database) :
    Program.Answered fleetSession db events (db.replay (fleetEffects events)) := by
  induction events generalizing db with
  | nil => exact .nil db
  | cons event events ih =>
      have effects : fleetEffects (event :: events) =
          (fleetExecuted event).toList ++ fleetEffects events := by
        cases change : fleetExecuted event <;> simp [fleetEffects, change]
      rw [effects, Database.replay_append]
      exact .cons rfl (ih _)

theorem Label.Shows.effects {label : Label} {events : List fleet.Event}
    (shows : label.Shows toStyledString events) : fleetEffects events = label.effect.toList := by
  cases shows with
  | @system _ _ n => exact List.filterMap_replicate_of_none rfl
  | @serve event =>
      cases change : fleetExecuted event <;> simp [fleetEffects, Label.effect, change]
  | _ => rfl

theorem Label.Shows.accords {label : Label} {events : List fleet.Event} {before after : Database}
    (effects : networkEffect before label after) (shows : label.Shows toStyledString events) :
    Program.Answered fleetSession before events after := by
  rw [effects, ← shows.effects]
  exact answered_replay events before

/-- Every run of the nodes is matched by an interleaved run of the fleet's machines. -/
theorem exists_fleetRun {ι : Type} [DecidableEq ι] {rounds bound : ι → ℕ} {location : ι → Bytes}
    {timeInterval : ι → ℤ} {db after : Database} {labels : List (ι × Label)} {nodes : ι → Node}
    (run : SystemRun (NodeStep gson) networkEffect
      (fun i => initialNode toStyledString (rounds i) (bound i) (location i) (timeInterval i)) db
      labels nodes after) :
    ∃ events remaining, PoolRun fleetSession
        (fun i => machineProgram gson (bound i) (location i) (timeInterval i)) db events remaining
        after ∧
      (∀ i, Related gson toStyledString (rounds i) (location i) (timeInterval i) (nodes i)
        (remaining i)) ∧
      ∀ i, Shown (Label.Shows toStyledString) (projection i labels) (projection i events) :=
  Program.exists_poolRun run
    (fun i => Related gson toStyledString (rounds i) (location i) (timeInterval i))
    (fun i => related_of_runsOn (timerControl_runsOn (bound i))) Related.keepsPace
    Label.Shows.accords

end HumanMachine.Client
