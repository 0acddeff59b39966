import HumanMachine.Client.MonitorPhases
import HumanMachine.Client.Deployment
import HumanMachine.Client.DockerDeploy
import HumanMachine.Client.Outcomes
import HumanMachine.Program.Interpretation

/-!
# The monitor over sockets

The whole client: the loop of `timerControl` with `HttpPost` in the place of its uploads.
The surroundings are what the loop asks for itself and the system calls of the HTTP client;
`toStyledString` is the text of a document. Since each round leaves the HTTP client between
two calls, the client runs on the machines of the loop and of a call put together.
-/

namespace HumanMachine.Client

open Program (Follows RunsOn Throughout inr)

/-- What surrounds the client. -/
abbrev client : HumanMachine.Interface :=
  monitor.sum sys

/-- The `string` made of `http_return`. What a call leaves there fits. -/
def responseOf (http_return : Bytes) : Response where
  text := (cString http_return).take BUFSIZE
  noNul := fun mem => by
    have inside := List.mem_takeWhile_imp (List.mem_of_mem_take mem)
    simp at inside
  fits := List.length_take_le _ _

/-- `HttpPost` in the place of an upload; its return value decides only what is printed. -/
def overSockets (toStyledString : Json → Bytes) (rounds : ℕ) : Program.Handler monitor client
  | .httpPost url data => do
      let result ← Program.interpret Program.onRight
        (httpPost rounds (some url) (some (toStyledString data)) [])
      return responseOf result.2
  | .linuxCommand location => @Program.request client (.inl (.linuxCommand location))
  | .dockerDeploy dockerImage => @Program.request client (.inl (.dockerDeploy dockerImage))
  | .sleep seconds => @Program.request client (.inl (.sleep seconds))

/-- The client, with a bound on the rounds of the loop and on those of the loop around `recv`. -/
def clientProcess (toStyledString : Json → Bytes) (rounds bound : ℕ) (location : Bytes)
    (timeInterval : ℤ) : Program client (Except StdException Empty) :=
  Program.interpret (overSockets toStyledString rounds) (timerControl bound location timeInterval).run

/-- What is sent for a document. -/
def uploadHead (toStyledString : Json → Bytes) (root : Json) : Bytes :=
  httpHeadCreate (ascii "POST") serverUrl (some (toStyledString root))

/-- What `http_return` holds behind a call which has received this, or nothing. -/
def returnedText (received : Option Bytes) : Bytes :=
  (responseOf ((received.map cString).getD [])).text

/-! ## The phases of the client -/

inductive ClientPhase where
  | monitor (phase : MonitorPhase)
  | calling (root : Json) (stores : Stores) (phase : Phase)

/-- An upload begins with the first phase of the call. -/
def ClientPhase.ofMonitor : MonitorPhase → ClientPhase
  | .posting root stores => .calling root stores .start
  | phase => .monitor phase

inductive ClientStep (toStyledString : Json → Bytes) (location : Bytes) (timeInterval : ℤ) :
    ClientPhase → client.Event → ClientPhase → Prop where
  | own {phase after : MonitorPhase} {command : MonitorCommand} {answer : monitor.Answer command}
      (step : MonitorStep location timeInterval phase ⟨command, answer⟩ after)
      (noUpload : ∀ url data, command ≠ .httpPost url data) :
      ClientStep toStyledString location timeInterval (.monitor phase) ⟨.inl command, answer⟩
        (.ofMonitor after)
  | call {root : Json} {stores : Stores} {phase after : Phase} {event : sys.Event}
      (step : Step serverUrl (uploadHead toStyledString root) phase event after)
      (goesOn : ∀ received, after ≠ .finished received) :
      ClientStep toStyledString location timeInterval (.calling root stores phase) (inr event)
        (.calling root stores after)
  | returns {root : Json} {stores : Stores} {phase : Phase} {event : sys.Event}
      {received : Option Bytes} {result : Except StdException Bytes}
      (step : Step serverUrl (uploadHead toStyledString root) phase event (.finished received))
      (extracted : dockerImageOf (returnedText received) = result) :
      ClientStep toStyledString location timeInterval (.calling root stores phase) (inr event)
        (.monitor (.answered stores result))

variable {toStyledString : Json → Bytes} {rounds : ℕ} {location : Bytes} {timeInterval : ℤ}

/-- The phase of the client in a phase of the call. -/
def ClientPhase.ofCall (root : Json) (stores : Stores) : Phase → ClientPhase
  | .finished received => .monitor (.answered stores (dockerImageOf (returnedText received)))
  | phase => .calling root stores phase

theorem clientStep_of_step {root : Json} {stores : Stores} {phase after : Phase} {event : sys.Event}
    (step : Step serverUrl (uploadHead toStyledString root) phase event after) :
    ClientStep toStyledString location timeInterval (.ofCall root stores phase) (inr event)
      (.ofCall root stores after) := by
  have begun : ClientPhase.ofCall root stores phase = .calling root stores phase := by
    cases step <;> rfl
  rw [begun]
  by_cases finished : ∃ received, after = .finished received
  · rcases finished with ⟨received, rfl⟩
    exact .returns step rfl
  · have goesOn := not_exists.mp finished
    have follows : ClientPhase.ofCall root stores after = .calling root stores after := by
      cases after with
      | finished received => exact absurd rfl (goesOn received)
      | _ => rfl
    rw [follows]
    exact .call step goesOn

/-! ## The client runs on the machine -/

theorem MonitorStep.eq_of_same_event {phase first second : MonitorPhase} {event : monitor.Event}
    (step : MonitorStep location timeInterval phase event first)
    (other : MonitorStep location timeInterval phase event second) : first = second := by
  cases step with
  | posted extracted =>
      cases other with
      | posted same => rw [← extracted, ← same]
  | unchanged same =>
      cases other with
      | unchanged => rfl
      | changed changed => exact absurd same changed
  | changed changed =>
      cases other with
      | unchanged same => exact absurd same changed
      | changed => rfl
  | _ =>
      cases other
      rfl

theorem ClientPhase.ofMonitor_answered (stores : Stores) (result : Except StdException Bytes) :
    ofMonitor (.answered stores result) = .monitor (.answered stores result) := by
  cases result with
  | error exception => rfl
  | ok dockerImage =>
      rw [MonitorPhase.answered]
      split <;> rfl

/-- What the loop asks for itself is a step of its own. -/
theorem request_runsOn {phase : MonitorPhase} {command : MonitorCommand}
    (noUpload : ∀ url data, command ≠ .httpPost url data)
    (possible : ∀ answer, ∃ after,
      MonitorStep location timeInterval phase ⟨command, answer⟩ after) :
    RunsOn (ClientStep toStyledString location timeInterval)
      (fun answer place => ∀ after, MonitorStep location timeInterval phase ⟨command, answer⟩ after →
        place = .ofMonitor after)
      (@Program.request client (.inl command)) (.ofMonitor phase) := by
  intro (answer : monitor.Answer command)
  rcases possible answer with ⟨after, step⟩
  have stays : ClientPhase.ofMonitor phase = .monitor phase := by
    cases step with
    | posted => exact absurd rfl (noUpload _ _)
    | _ => rfl
  rw [stays]
  refine ⟨_, .own step noUpload, ?_⟩
  intro other same
  rw [step.eq_of_same_event same]

theorem upload_overSockets_runsOn {root : Json} {stores : Stores} :
    RunsOn (ClientStep toStyledString location timeInterval)
      (fun response place => ∀ result, dockerImageOf (Response.text response) = result →
        place = .monitor (.answered stores result))
      (overSockets toStyledString rounds (.httpPost serverUrl root)) (.calling root stores .start) := by
  apply RunsOn.bind
  have calls : RunsOn (Step serverUrl (uploadHead toStyledString root))
      (fun value phase => phase.Returns [] value)
      (httpPost rounds (some serverUrl) (some (toStyledString root)) []) .start :=
    run_runsOn rounds (serverUrl_accepted (toStyledString root) [])
  have onSockets : RunsOn (ClientStep toStyledString location timeInterval) _ _ _ :=
    calls.onRight (I := monitor) (.ofCall root stores) clientStep_of_step
  apply onSockets.mono
  rintro ⟨ret, http_return⟩ place ⟨phase, rfl, returns⟩ result extracted
  rcases Phase.Returns.finished returns with ⟨received, rfl⟩
  have same : (responseOf http_return).text = returnedText received := by
    cases received <;> cases returns <;> rfl
  rw [ClientPhase.ofCall, ← same, extracted]

theorem clientProcess_runsOn (bound : ℕ) :
    RunsOn (ClientStep toStyledString location timeInterval)
      (fun _ place => place = .monitor .ended)
      (clientProcess toStyledString rounds bound location timeInterval)
      (.monitor (.sampling .initial)) := by
  have loops : RunsOn (MonitorStep location timeInterval) (MonitorPhase.After Empty.elim)
      (timerControl bound location timeInterval).run (.sampling .initial) :=
    timerControl_runsOn bound
  apply (loops.interpret (fun phase place => place = ClientPhase.ofMonitor phase) ?_ rfl).mono
  · rintro result place ⟨phase, rfl, after⟩
    cases result with
    | error exception =>
        obtain rfl : phase = .ended := after
        rfl
    | ok value => exact value.elim
  · rintro phase place command rfl possible
    cases command with
    | httpPost url data =>
        rcases possible (responseOf []) with ⟨_, step⟩
        cases step with
        | posted =>
            apply upload_overSockets_runsOn.mono
            intro response place arrives after step
            cases step with
            | posted extracted => rw [arrives _ extracted, ClientPhase.ofMonitor_answered]
    | _ => exact request_runsOn (fun _ _ => nofun) possible

/-! ## Rounds

What has happened since the last snapshot says what may come next. -/

structure Round where
  snapshot : Option Json
  /-- The HTTP client has been called. -/
  called : Bool
  transmissions : ℕ
  /-- The request has been freed. -/
  released : Bool
  chunk : Option Bytes

def Round.initial : Round where
  snapshot := none
  called := false
  transmissions := 0
  released := false
  chunk := none

def Round.next (round : Round) : client.Event → Round
  | ⟨.inl (.linuxCommand _), snapshot⟩ =>
      { snapshot := some (Snapshot.root snapshot), called := false, transmissions := 0,
        released := false, chunk := none }
  | ⟨.inr (.send _ _), _⟩ =>
      { round with called := true, transmissions := round.transmissions + 1 }
  | ⟨.inr .freeHttpHead, _⟩ => { round with called := true, released := true }
  | ⟨.inr (.recv _), .data buf _ _⟩ => { round with called := true, chunk := some buf }
  | ⟨.inr _, _⟩ => { round with called := true }
  | _ => round

/-- The chunk received since the last snapshot holds an answer. -/
def Round.Answered (round : Round) : Prop :=
  ∃ buf dockerImage, round.chunk = some buf ∧ dockerImageOf (returnedText (some buf)) = .ok dockerImage

/-- A second transmission is always one of the released request, which holds its text if
nothing was put in its place. -/
def Round.Permits (toStyledString : Json → Bytes) (round : Round) : client.Event → Prop
  | ⟨.inr (.send _ data), _⟩ =>
      round.transmissions < 2 ∧ (round.released = true ↔ round.transmissions = 1) ∧
        round.chunk = none ∧
        ∃ root, round.snapshot = some root ∧ data = uploadHead toStyledString root ++ [0]
  | ⟨.inl (.dockerDeploy dockerImage), _⟩ =>
      dockerImage ≠ ascii "null" ∧
        ∃ buf, round.chunk = some buf ∧ dockerImageOf (returnedText (some buf)) = .ok dockerImage
  | ⟨.inl (.linuxCommand _), _⟩ => round.called = true → round.Answered
  | ⟨.inl (.sleep _), _⟩ => round.Answered
  | _ => True

/-- The number of times a call has transmitted at most when it is in a phase. -/
def Phase.transmitted : Phase → ℕ
  | .start | .check .kept _ | .pending .kept _ | .transmit .kept _ => 0
  | .release .fresh _ _ | .receiving .fresh _ | .lost .fresh _ => 2
  | .giveUp _ | .forget | .finished _ => 2
  | _ => 1

def transmits : sys.Event → ℕ
  | ⟨.send _ _, _⟩ => 1
  | _ => 0

theorem Step.transmitted {strUrl strHttpHead : Bytes} {phase after : Phase} {event : sys.Event}
    (step : Step strUrl strHttpHead phase event after) :
    phase.transmitted + transmits event ≤ after.transmitted := by
  cases step with
  | @selectUnready origin | @getsockoptError origin | @closeLost origin =>
      cases origin <;> simp [Phase.transmitted, transmits]
  | @select origin | @getsockopt origin | @send origin | @free origin | @freeFailed origin
  | @recv origin | @recvClosed origin | @recvAgain origin | @recvError origin =>
      cases origin <;> simp [Phase.transmitted, transmits]
  | _ => simp [Phase.transmitted, transmits]

def frees : sys.Event → Bool
  | ⟨.freeHttpHead, _⟩ => true
  | _ => false

theorem Round.next_inr (round : Round) (event : sys.Event) :
    round.next (inr event) =
      { snapshot := round.snapshot, called := true,
        transmissions := round.transmissions + transmits event,
        released := frees event || round.released,
        chunk := (delivered event).or round.chunk } := by
  rcases event with ⟨command, answer⟩
  cases command with
  | recv fd => cases answer <;> rfl
  | _ => rfl

/-- The request is freed directly after its transmission. -/
def Phase.Freed (transmissions : ℕ) (released : Bool) : Phase → Prop
  | .release _ _ _ => 0 < transmissions
  | _ => released = true ↔ 0 < transmissions

theorem Step.freed {strUrl strHttpHead : Bytes} {phase after : Phase} {event : sys.Event}
    {transmissions : ℕ} {released : Bool} (freed : phase.Freed transmissions released)
    (step : Step strUrl strHttpHead phase event after) :
    after.Freed (transmissions + transmits event) (frees event || released) := by
  cases step with
  | @selectUnready origin | @getsockoptError origin | @closeLost origin =>
      cases origin <;> exact freed
  | send => exact Nat.succ_pos _
  | free => exact iff_of_true rfl freed
  | freeFailed => exact iff_of_true rfl freed
  | _ => exact freed

/-- What a phase says about its round. -/
def ClientPhase.Fits : ClientPhase → Round → Prop
  | .monitor (.sampling _), round => round.called = true → round.Answered
  | .monitor (.posting _ _), _ => False
  | .monitor (.deploying dockerImage _), round =>
      dockerImage ≠ ascii "null" ∧
        ∃ buf, round.chunk = some buf ∧ dockerImageOf (returnedText (some buf)) = .ok dockerImage
  | .monitor (.sleeping _), round => round.Answered
  | .monitor .ended, round => round.called = true ∧ ¬round.Answered
  | .calling root _ phase, round =>
      round.snapshot = some root ∧ round.chunk = none ∧
        round.transmissions ≤ phase.transmitted ∧ phase.Freed round.transmissions round.released

theorem dockerImageOf_nothing : dockerImageOf (returnedText none) = .error .outOfRange := by
  have nothing : returnedText none = [] := rfl
  rw [nothing, dockerImageOf_of_no_marker (Nat.zero_le _) (by decide)]
  rfl

theorem ClientPhase.fits_answered {stores : Stores} {round : Round}
    {result : Except StdException Bytes} (called : round.called = true)
    (extracted : dockerImageOf (returnedText round.chunk) = result) :
    (ClientPhase.monitor (.answered stores result)).Fits round := by
  cases result with
  | error exception =>
      refine ⟨called, ?_⟩
      rintro ⟨buf, dockerImage, chunk, extracts⟩
      rw [chunk, extracts] at extracted
      cases extracted
  | ok dockerImage =>
      cases chunk : round.chunk with
      | none =>
          rw [chunk, dockerImageOf_nothing] at extracted
          cases extracted
      | some buf =>
          rw [chunk] at extracted
          by_cases isNull : dockerImage = ascii "null"
          · rw [isNull] at extracted
            rw [isNull, MonitorPhase.answered_null]
            exact ⟨buf, _, chunk, extracted⟩
          · rw [MonitorPhase.answered_image isNull]
            exact ⟨isNull, buf, chunk, extracted⟩

theorem Phase.received_of_goesOn {phase : Phase} (goesOn : ∀ received, phase ≠ .finished received) :
    phase.received = none := by
  cases phase with
  | finished received => exact absurd rfl (goesOn received)
  | _ => rfl

theorem ClientStep.fits {phase after : ClientPhase} {event : client.Event} {round : Round}
    (fits : phase.Fits round) (step : ClientStep toStyledString location timeInterval phase event after) :
    after.Fits (round.next event) := by
  cases step with
  | own step noUpload =>
      cases step with
      | unchanged same => exact nofun
      | changed changed => exact ⟨rfl, rfl, le_rfl, iff_of_false nofun (Nat.lt_irrefl 0)⟩
      | posted => exact absurd rfl (noUpload _ _)
      | deployed =>
          rcases fits with ⟨_, buf, chunk, extracted⟩
          exact ⟨buf, _, chunk, extracted⟩
      | slept => exact fun _ => fits
  | call step goesOn =>
      rcases fits with ⟨snapshot, chunk, transmissions, freed⟩
      rw [Round.next_inr, step.received.2, Phase.received_of_goesOn goesOn, chunk]
      exact ⟨snapshot, rfl, (Nat.add_le_add_right transmissions _).trans step.transmitted,
        step.freed freed⟩
  | returns step extracted =>
      rcases fits with ⟨_, chunk, _⟩
      rw [Round.next_inr]
      apply ClientPhase.fits_answered rfl
      rw [step.received.2, chunk, Option.or_none]
      exact extracted

theorem Step.permits {root : Json} {phase after : Phase} {event : sys.Event} {round : Round}
    (step : Step serverUrl (uploadHead toStyledString root) phase event after)
    (snapshot : round.snapshot = some root) (nothing : round.chunk = none)
    (transmissions : round.transmissions ≤ phase.transmitted)
    (freed : phase.Freed round.transmissions round.released) :
    round.Permits toStyledString (inr event) := by
  cases step with
  | @send origin fd ret =>
      have once : (Phase.transmit origin fd).transmitted ≤ 1 := by
        cases origin <;> simp [Phase.transmitted]
      have isReleased : round.released = true ↔ 0 < round.transmissions := freed
      exact ⟨by omega, isReleased.trans (by omega), nothing, root, snapshot, rfl⟩
  | _ => trivial

theorem ClientStep.permits {phase after : ClientPhase} {event : client.Event} {round : Round}
    (fits : phase.Fits round) (step : ClientStep toStyledString location timeInterval phase event after) :
    round.Permits toStyledString event := by
  cases step with
  | own step noUpload =>
      cases step with
      | posted => exact absurd rfl (noUpload _ _)
      | _ => exact fits
  | call step goesOn => exact step.permits fits.1 fits.2.1 fits.2.2.1 fits.2.2.2
  | returns step extracted => exact step.permits fits.1 fits.2.1 fits.2.2.1 fits.2.2.2

/-! ## Runs -/

variable {bound : ℕ} {events : List client.Event}
  {remaining : Program client (Except StdException Empty)}

theorem exists_clientPhase
    (follows : Follows (clientProcess toStyledString rounds bound location timeInterval) events
      remaining) :
    ∃ phase : ClientPhase,
      (Throughout Round.next (Round.Permits toStyledString) .initial events ∧
        phase.Fits (events.foldl Round.next .initial)) ∧
      RunsOn (ClientStep toStyledString location timeInterval)
        (fun _ place => place = .monitor .ended) remaining phase := by
  apply (clientProcess_runsOn bound).invariant_of_follows follows
    fun phase events => Throughout Round.next (Round.Permits toStyledString) .initial events ∧
      phase.Fits (events.foldl Round.next .initial)
  · exact ⟨trivial, nofun⟩
  · rintro phase history event after ⟨permitted, fits⟩ step
    rw [Program.throughout_append_singleton, List.foldl_append]
    exact ⟨⟨permitted, step.permits fits⟩, step.fits fits⟩

/-- Every transmission is the upload of the last snapshot, the second one at most, and has no
answer yet; a deployment and a sleep follow an answer of the same round, and so does the next
snapshot, unless there was nothing to upload. -/
theorem client_keeps_to_its_rounds
    (follows : Follows (clientProcess toStyledString rounds bound location timeInterval) events
      remaining) :
    Throughout Round.next (Round.Permits toStyledString) .initial events := by
  rcases exists_clientPhase follows with ⟨_, ⟨permitted, _⟩, _⟩
  exact permitted

theorem answered_iff {round : Round} :
    round.Answered ↔ ∃ buf, round.chunk = some buf ∧
      (marker <:+: returnedText (some buf) ∨ 13 ≤ (returnedText (some buf)).length) := by
  have extracts : ∀ buf, (∃ dockerImage, dockerImageOf (returnedText (some buf)) = .ok dockerImage) ↔
      marker <:+: returnedText (some buf) ∨ 13 ≤ (returnedText (some buf)).length := by
    intro buf
    have failing : (∃ exception, dockerImageOf (returnedText (some buf)) = .error exception) ↔ _ :=
      dockerImageOf_error_iff (responseOf (((some buf).map cString).getD []))
    rw [← not_iff_not]
    apply Iff.trans _ failing
    generalize dockerImageOf (returnedText (some buf)) = result
    cases result with
    | error exception => exact iff_of_true nofun ⟨exception, rfl⟩
    | ok dockerImage => simp
  simp only [Round.Answered, ← extracts, exists_and_left]

theorem not_answered_iff {round : Round} : ¬round.Answered ↔
    ∀ buf, round.chunk = some buf →
      ¬marker <:+: returnedText (some buf) ∧ (returnedText (some buf)).length < 13 := by
  rw [answered_iff]
  simp only [not_exists, not_and, not_or, not_le]

theorem monitor_answers (command : monitor.Command) : Nonempty (monitor.Answer command) := by
  cases command with
  | linuxCommand location => exact ⟨machineWith []⟩
  | httpPost url data => exact ⟨responseOf []⟩
  | dockerDeploy dockerImage => exact ⟨()⟩
  | sleep seconds => exact ⟨()⟩

/-- After a call, the loop asks for something itself only if there was an answer. -/
theorem answered_of_own {phase : ClientPhase} {round : Round} {command : MonitorCommand}
    {next : monitor.Answer command → Program client (Except StdException Empty)}
    (fits : phase.Fits round)
    (runs : RunsOn (ClientStep toStyledString location timeInterval)
      (fun _ place => place = .monitor .ended) (.call (.inl command) next) phase)
    (called : round.called = true) : round.Answered := by
  rcases monitor_answers command with ⟨answer⟩
  rcases runs answer with ⟨after, step, _⟩
  have permitted := step.permits fits
  cases command with
  | linuxCommand location => exact permitted called
  | dockerDeploy dockerImage =>
      rcases permitted with ⟨_, buf, chunk, extracted⟩
      exact ⟨buf, _, chunk, extracted⟩
  | sleep seconds => exact permitted
  | httpPost url data =>
      cases step with
      | own _ noUpload => exact absurd rfl (noUpload _ _)

theorem ended_iff
    (follows : Follows (clientProcess toStyledString rounds bound location timeInterval) events
      remaining)
    (outside : (∃ command next, remaining = .call (.inl command) next) ∨
      ∃ result, remaining = .done result) :
    (∃ result, remaining = .done result) ↔
      (events.foldl Round.next .initial).called = true ∧
        ¬(events.foldl Round.next .initial).Answered := by
  rcases exists_clientPhase follows with ⟨phase, ⟨_, fits⟩, runs⟩
  constructor
  · rintro ⟨result, rfl⟩
    obtain rfl : phase = .monitor .ended := runs
    exact fits
  · rintro ⟨called, nothing⟩
    rcases outside with ⟨command, next, rfl⟩ | ended
    · exact absurd (answered_of_own fits runs called) nothing
    · exact ended

/-- When no call is under way, the client is at its end exactly if the last one has left it
with nothing to go on with. -/
theorem client_ends_iff
    (follows : Follows (clientProcess toStyledString rounds bound location timeInterval) events
      remaining)
    (outside : (∃ command next, remaining = .call (.inl command) next) ∨
      ∃ result, remaining = .done result) :
    (∃ result, remaining = .done result) ↔
      (events.foldl Round.next .initial).called = true ∧
        ∀ buf, (events.foldl Round.next .initial).chunk = some buf →
          ¬marker <:+: returnedText (some buf) ∧ (returnedText (some buf)).length < 13 := by
  rw [← not_answered_iff]
  exact ended_iff follows outside

/-! ## A round which deploys `nginx` -/

def nginxReceived : Received :=
  .data DockerDeploy.nginxOrder.text (by decide +kernel) (by decide +kernel)

def nginxUpload : List sys.Event :=
  Program.transcript (prompt INVALID_SOCKET (fun _ => some 0x01020304) nginxReceived) 0
    (httpPost 1 (some serverUrl) (some []) [])

/-- A round, but for its snapshot. -/
def nginxRound : List client.Event :=
  nginxUpload.map inr ++ [⟨.inl (.dockerDeploy (ascii "nginx")), ()⟩, ⟨.inl (.sleep 1), ()⟩]

def nginxClientEvents : List client.Event :=
  ⟨.inl (.linuxCommand []), machineWith []⟩ :: nginxRound

theorem nginxUpload_returns :
    Program.outcome (prompt INVALID_SOCKET (fun _ => some 0x01020304) nginxReceived) 0
      (httpPost 1 (some serverUrl) (some []) []) = some (1, DockerDeploy.nginxOrder.text) := by
  decide +kernel

/-- The upload leaves the order in `http_return`. -/
theorem nginxUpload_follows (root : Json) :
    Follows (overSockets (fun _ => []) 1 (.httpPost serverUrl root))
      (nginxUpload.map inr) (.done DockerDeploy.nginxOrder) := by
  have calls := (Program.follows_transcript nginxUpload_returns).embedded (I := monitor)
  have returns := calls.bind
    (.refl ((fun result => .done (responseOf result.2)) ((1 : ℤ), DockerDeploy.nginxOrder.text)))
  have same : responseOf DockerDeploy.nginxOrder.text = DockerDeploy.nginxOrder := by
    rw [responseOf, DockerDeploy.nginxOrder]
    congr 1
  rw [List.append_nil] at returns
  rw [← same]
  exact returns

/-- The client when so many rounds are left. -/
def nginxClient (bound : ℕ) (stores : Stores) : Program client (Except StdException Empty) :=
  Program.interpret (overSockets (fun _ => []) 1) (Program.forever (timerRound [] 1) bound stores).run

theorem nginxRound_follows (snapshot : Snapshot) (bound : ℕ) :
    Follows (clientProcess (fun _ => []) 1 (bound + 1) [] 1)
      (⟨.inl (.linuxCommand []), snapshot⟩ :: nginxRound)
      (nginxClient bound (Stores.initial.stored snapshot.root)) := by
  have round : (timerRound [] 1 .initial).run.Follows
      (⟨.linuxCommand [], snapshot⟩ :: ⟨.httpPost serverUrl snapshot.root, DockerDeploy.nginxOrder⟩ ::
        (deployment (ascii "nginx") ++ [⟨.sleep 1, ()⟩])) (.done (.ok _)) :=
    timerRound_uploads (Stores.initial_changed snapshot) (DockerDeploy.extracted_of_marker rfl)
  rw [deployment, if_pos (by decide)] at round
  have loops := (Program.Rounds.round .start round).follows bound
  rw [List.nil_append, List.length_singleton, Nat.add_comm, List.flatten_singleton] at loops
  have asks : Follows (overSockets (fun _ => []) 1 (.linuxCommand []))
      [⟨.inl (.linuxCommand []), snapshot⟩] (.done snapshot) :=
    .step (.refl _)
  have deploys : Follows (overSockets (fun _ => []) 1 (.dockerDeploy (ascii "nginx")))
      [⟨.inl (.dockerDeploy (ascii "nginx")), ()⟩] (.done ()) :=
    .step (.refl _)
  have sleeps : Follows (overSockets (fun _ => []) 1 (.sleep 1))
      [⟨.inl (.sleep 1), ()⟩] (.done ()) :=
    .step (.refl _)
  have orders : Program.Carried (overSockets (fun _ => []) 1)
      [⟨.dockerDeploy (ascii "nginx"), ()⟩, ⟨.sleep 1, ()⟩] (_ ++ (_ ++ [])) :=
    .cons deploys (.cons sleeps .nil)
  have carries := Program.Carried.cons asks (.cons (nginxUpload_follows snapshot.root) orders)
  exact loops.carried carries

/-- A further round begins with a snapshot. -/
theorem nginxClient_asks (bound : ℕ) (stores : Stores) : ∃ next,
    nginxClient (bound + 1) stores = .call (.inl (.linuxCommand [])) next :=
  ⟨_, rfl⟩

/-- The order is deployed, and the next snapshot is taken after the sleep. -/
theorem client_keeps_to_its_rounds_nginx :
    Throughout Round.next (Round.Permits fun _ => []) .initial
      (nginxClientEvents ++ [⟨.inl (.linuxCommand []), machineWith []⟩]) := by
  rcases nginxClient_asks 0 (Stores.initial.stored (machineWith []).root) with ⟨next, asks⟩
  have round := nginxRound_follows (machineWith []) 1
  rw [asks] at round
  exact client_keeps_to_its_rounds (round.trans (.step (.refl _)))

/-! ## No socket -/

/-- There are no descriptors left. -/
def noSocket : List sys.Event :=
  [⟨.loadSocketFd, INVALID_SOCKET⟩, ⟨.storeSocketFd INVALID_SOCKET, ()⟩, ⟨.socket, INVALID_SOCKET⟩,
    ⟨.storeSocketFd INVALID_SOCKET, ()⟩]

def noSocketEvents : List client.Event :=
  ⟨.inl (.linuxCommand []), machineWith []⟩ :: noSocket.map inr

theorem noSocket_follows (data : Bytes) :
    Follows (httpPost 0 (some serverUrl) (some data) []) noSocket (.done (0, [])) := by
  rw [← HttpCall.run, run_of_accepted (serverUrl_accepted data [])]
  exact .step (.step (.step (.step (.refl _))))

theorem noSocketEvents_follow :
    Follows (clientProcess (fun _ => []) 0 1 [] 1) noSocketEvents (.done (.error .outOfRange)) := by
  have uploads : Follows (overSockets (fun _ => []) 0
      (.httpPost serverUrl (machineWith []).root)) (noSocket.map inr) (.done noResponse) := by
    have calls := (noSocket_follows []).embedded (I := monitor)
    have returns := calls.bind (.refl ((fun result => .done (responseOf result.2)) ((0 : ℤ), [])))
    rwa [List.append_nil] at returns
  have asks : Follows (overSockets (fun _ => []) 0 (.linuxCommand []))
      [⟨.inl (.linuxCommand []), machineWith []⟩] (.done (machineWith [])) :=
    .step (.refl _)
  have carries : Program.Carried (overSockets (fun _ => []) 0) failedUpload
      ([⟨.inl (.linuxCommand []), machineWith []⟩] ++ (noSocket.map inr ++ [])) :=
    .cons asks (.cons uploads .nil)
  exact failedUpload_run.carried carries

theorem client_ends_iff_noSocket :
    (∃ result : Except StdException Empty, Program.done (I := client) (.error .outOfRange) =
        .done result) ↔
      (noSocketEvents.foldl Round.next .initial).called = true ∧
        ∀ buf, (noSocketEvents.foldl Round.next .initial).chunk = some buf →
          ¬marker <:+: returnedText (some buf) ∧ (returnedText (some buf)).length < 13 :=
  client_ends_iff noSocketEvents_follow (.inr ⟨_, rfl⟩)

end HumanMachine.Client
