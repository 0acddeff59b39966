import HumanMachine.Document.Fleet

/-!
# The server's tables and the machines' snapshots

In every interleaved run of any number of machines, and whatever fails at the others, the
rows of a machine are those of its last document which has reached the servlet. The loop
goes on only if a request was answered, so that before every snapshot they are those of a
document with the disk and memory info of the snapshot before.
-/

namespace HumanMachine.Client

open Program (Follows PoolRun Carried inr)
open Server (Gson Database Effect Row)

variable {ι : Type} [DecidableEq ι] {gson : Gson} {macAddress : Double} {bound : ι → ℕ}
  {location : ι → Bytes} {timeInterval : ι → ℤ} {db after : Database}
  {events : List (ι × fleet.Event)} {remaining : ι → Program fleet (Except StdException Empty)}

/-! ## The rows of a machine -/

theorem replay_of_fleetRun {programs : ι → Program fleet (Except StdException Empty)}
    (run : PoolRun fleetSession programs db events remaining after) :
    after = db.replay (fleetEffects (events.map Prod.snd)) := by
  induction run with
  | refl programs state => rfl
  | @step i command next answer events programs remaining before middle final turn answered rest ih =>
      rw [ih, answered, ← Database.replay_append]
      congr 1
      cases change : fleetExecuted ⟨command, answer⟩ <;> simp [fleetEffects, change]

/-- What an exchange does to the rows of a machine in a table. -/
def fleetSeeing (table : Server.Table) (macAddress : Double) (rows : List Row) (event : fleet.Event) :
    List Row :=
  ((fleetExecuted event).map (Effect.onRows table macAddress rows)).getD rows

theorem foldl_fleetSeeing (table : Server.Table) (macAddress : Double) (events : List fleet.Event)
    (rows : List Row) :
    events.foldl (fleetSeeing table macAddress) rows =
      (fleetEffects events).foldl (Effect.onRows table macAddress) rows := by
  induction events generalizing rows with
  | nil => rfl
  | cons event events ih =>
      rw [List.foldl_cons, ih, fleetSeeing]
      cases change : fleetExecuted event <;> simp [fleetEffects, change]

theorem rows_of_own_exchanges {i : ι}
    (run : PoolRun fleetSession
      (fun i => machineProgram gson (bound i) (location i) (timeInterval i)) db events remaining after)
    (others : ∀ turn ∈ events, turn.1 ≠ i → Foreign gson macAddress turn.2) (table : Server.Table) :
    after.rowsWithId table macAddress =
      (fleetEffects (projection i events)).foldl (Effect.onRows table macAddress)
        (db.rowsWithId table macAddress) := by
  rw [replay_of_fleetRun run, Server.rowsWithId_replay, ← foldl_fleetSeeing, ← foldl_fleetSeeing]
  apply foldl_eq_foldl_projection
  rintro ⟨j, event⟩ mem different rows
  rw [fleetSeeing]
  cases executes : fleetExecuted event with
  | none => rfl
  | some change =>
      have foreign : ∀ event ∈ projection j events, Foreign gson macAddress event :=
        fun event mem => others _ (mem_projection.mp mem) different
      have made : change ∈ fleetEffects (projection j events) :=
        List.mem_filterMap.mpr ⟨event, mem_projection.mpr mem, executes⟩
      rcases machineProgram_leaves (run.follows j) foreign change made with
        ⟨other, unequal, ofMachine⟩
      have alone : ∀ change' ∈ [change], change'.OfMachine other := by simpa using ofMachine
      exact Server.onRows_foldl_of_ne unequal.symm alone table rows

theorem exists_arrival {own : List fleet.Event} {data : Json} (reached : lastReached own = some data) :
    ∃ input, arrives data (.reached input) ∈ own := by
  rcases List.mem_filterMap.mp (List.mem_of_getLast? reached) with ⟨⟨command, answer⟩, mem, is⟩
  cases command with
  | inr command => cases is
  | inl command =>
      cases command with
      | arrive data' =>
          cases answer with
          | reached input =>
              cases is
              exact ⟨input, mem⟩
          | _ => cases is
      | _ => cases is

/-- The rows which are left by a document. -/
theorem describes_of_settled {own : List fleet.Event} {data : Json}
    (sound : ∀ event ∈ own, Sound gson macAddress event) (reached : lastReached own = some data) :
    ∃ object, data = .obj object ∧ Server.Describes gson object macAddress fun table =>
      describedRows gson macAddress table data := by
  rcases exists_arrival reached with ⟨input, mem⟩
  rcases sound _ mem with ⟨body, object, sections, _, _, rfl, wellFormed⟩
  exact ⟨object, rfl, Server.describes_of_complete (wellFormed.plan_complete macAddress)⟩

/-- Whenever the servlet is not at work for a machine, the tables have exactly the rows of its
last document which has reached the servlet, or its old rows when there was none. -/
theorem fleet_holds_last_documents {i : ι}
    (run : PoolRun fleetSession
      (fun i => machineProgram gson (bound i) (location i) (timeInterval i)) db events remaining after)
    (others : ∀ turn ∈ events, turn.1 ≠ i → Foreign gson macAddress turn.2)
    (sound : ∀ event ∈ projection i events, Sound gson macAddress event)
    (outside : OutsideServlet (remaining i)) :
    (lastReached (projection i events) = none →
      ∀ table, after.rowsWithId table macAddress = db.rowsWithId table macAddress) ∧
    ∀ data, lastReached (projection i events) = some data → ∃ object, data = .obj object ∧
      Server.Describes gson object macAddress fun table => after.rowsWithId table macAddress := by
  have settled := machineProgram_settles (run.follows i) outside sound
  have rows := rows_of_own_exchanges run others
  constructor
  · intro noneReached table
    rw [rows, settled, noneReached]
    rfl
  · intro data reached
    rcases describes_of_settled sound reached with ⟨object, rfl, described⟩
    refine ⟨object, rfl, ?_⟩
    have final : ∀ table, after.rowsWithId table macAddress =
        describedRows gson macAddress table (.obj object) := by
      intro table
      rw [rows, settled, reached]
      rfl
    simpa only [final] using described

/-! ## What the loop knows -/

/-- The stores hold the last upload, and disk and memory info of the last snapshot are its. -/
def InStep (stores : Stores) (exchanges : List monitor.Event) : Prop :=
  ∃ uploaded current, (uploads exchanges).getLast? = some uploaded ∧
    (snapshots exchanges).getLast? = some current ∧ stores.Hold uploaded ∧
    uploaded.get "disk info" = current.get "disk info" ∧
    uploaded.get "memory info" = current.get "memory info"

def MonitorPhase.Knows : MonitorPhase → List monitor.Event → Prop
  | .sampling stores, exchanges =>
      snapshots exchanges = [] ∧ stores = .initial ∨ InStep stores exchanges
  | .posting root stores, exchanges =>
      (snapshots exchanges).getLast? = some root ∧ stores.Hold root
  | .deploying _ stores, exchanges => InStep stores exchanges
  | .sleeping stores, exchanges => InStep stores exchanges
  | .ended, _ => True

theorem InStep.append {stores : Stores} {exchanges more : List monitor.Event}
    (inStep : InStep stores exchanges) (noUpload : uploads more = [])
    (noSnapshot : snapshots more = []) : InStep stores (exchanges ++ more) := by
  rw [InStep, uploads_append, snapshots_append, noUpload, noSnapshot, List.append_nil,
    List.append_nil]
  exact inStep

theorem MonitorPhase.knows_answered {stores : Stores} {exchanges : List monitor.Event}
    {result : Except StdException Bytes} (inStep : InStep stores exchanges) :
    (MonitorPhase.answered stores result).Knows exchanges := by
  cases result with
  | error exception => trivial
  | ok dockerImage =>
      rw [MonitorPhase.answered]
      split <;> exact inStep

theorem MonitorStep.knows {location : Bytes} {timeInterval : ℤ} {phase after : MonitorPhase}
    {event : monitor.Event} {exchanges : List monitor.Event} (knows : phase.Knows exchanges)
    (step : MonitorStep location timeInterval phase event after) :
    after.Knows (exchanges ++ [event]) := by
  cases step with
  | @unchanged stores snapshot same =>
      rcases knows with ⟨_, rfl⟩ | ⟨uploaded, current, sent, taken, hold, disk, memory⟩
      · exact absurd same (Stores.initial_changed snapshot)
      · rcases hold.unchanged_iff.mp same with ⟨sameDisk, sameMemory, _⟩
        refine .inr ⟨uploaded, snapshot.root, ?_, ?_, hold, Json.eq_of_eq_true sameDisk,
          Json.eq_of_eq_true sameMemory⟩
        · rw [uploads_append]
          exact (congrArg List.getLast? (List.append_nil _)).trans sent
        · rw [snapshots_append]
          exact List.getLast?_concat
  | @changed stores snapshot changed =>
      refine ⟨?_, stores.hold_stored snapshot.root⟩
      rw [snapshots_append]
      exact List.getLast?_concat
  | @posted root stores response result extracted =>
      rcases knows with ⟨taken, hold⟩
      apply MonitorPhase.knows_answered
      refine ⟨root, root, ?_, ?_, hold, rfl, rfl⟩
      · rw [uploads_append]
        exact List.getLast?_concat
      · rw [snapshots_append]
        exact (congrArg List.getLast? (List.append_nil _)).trans taken
  | deployed => exact knows.append rfl rfl
  | slept => exact .inr (knows.append rfl rfl)

/-- Before a snapshot, the loop is in step unless it is the first one. -/
theorem inStep_of_follows {bound : ℕ} {location : Bytes} {timeInterval : ℤ}
    {exchanges : List monitor.Event} {place : Bytes}
    {next : Snapshot → Program monitor (Except StdException Empty)}
    (follows : Follows (timerControl bound location timeInterval).run exchanges
      (.call (.linuxCommand place) next)) :
    snapshots exchanges = [] ∨ ∃ stores, InStep stores exchanges := by
  rcases (timerControl_runsOn bound).invariant_of_follows follows MonitorPhase.Knows
    (.inl ⟨rfl, rfl⟩) MonitorStep.knows with ⟨phase, knows, runs⟩
  rcases runs (machineWith []) with ⟨after, step, _⟩
  cases step with
  | @unchanged stores => exact knows.imp And.left fun inStep => ⟨stores, inStep⟩
  | @changed stores => exact knows.imp And.left fun inStep => ⟨stores, inStep⟩

/-! ## What the server knows -/

def takenSnapshots (events : List fleet.Event) : List Json :=
  events.filterMap fun
    | ⟨.inl (.own (.linuxCommand _)), snapshot⟩ => some (Snapshot.root snapshot)
    | _ => none

theorem takenSnapshots_append (first second : List fleet.Event) :
    takenSnapshots (first ++ second) = takenSnapshots first ++ takenSnapshots second :=
  List.filterMap_append

theorem takenSnapshots_uploadRule : UploadRule gson fun events => takenSnapshots events = [] where
  nil := rfl
  append := by
    intro first second none noneAgain
    rw [takenSnapshots_append, none, noneAgain, List.append_nil]
  arrival := fun _ _ => rfl
  storing := by
    intro data input served left stores
    rw [takenSnapshots, List.filterMap_eq_nil_iff]
    intro event mem
    rcases List.mem_cons.mp mem with rfl | mem
    · rfl
    · rcases List.mem_map.mp mem with ⟨_, _, rfl⟩
      rfl
  orders := fun _ => rfl
  reply := fun _ _ => rfl

theorem takenSnapshots_carried {exchanges : List monitor.Event} {own : List fleet.Event}
    (carries : Carried (served gson) exchanges own) :
    takenSnapshots own = snapshots exchanges := by
  induction carries with
  | nil => rfl
  | @cons command answer first rest exchanges completes later ih =>
      rw [takenSnapshots_append, ih]
      cases command with
      | httpPost url data =>
          rw [takenSnapshots_uploadRule.upload completes]
          rfl
      | _ =>
          rcases Follows.of_call_done completes with ⟨_, later, rfl, returns⟩
          rcases Follows.of_done returns with ⟨rfl, same⟩
          cases same
          rfl

/-- Every request is answered by the servlet, if at all. -/
def NoPages (events : List fleet.Event) : Prop :=
  ∀ data page, arrives data (.turnedAway page) ∉ events

theorem Attempted.reached {data : Json} {own : List fleet.Event} {response : Response}
    (attempted : Attempted gson data own (some response)) (noPages : NoPages own) :
    lastReached own = some data := by
  cases attempted with
  | turnedAway => exact absurd List.mem_cons_self (noPages data response)
  | served ready =>
      rcases ready.exists_doPost with ⟨_, _, _, _, unreached, _⟩
      rw [← List.singleton_append, lastReached_append, lastReached_append, unreached]
      rfl

theorem Uploaded.reached {data : Json} {own : List fleet.Event} {response : Response}
    (uploaded : Uploaded gson data own response) (noPages : NoPages own)
    (answered : response ≠ noResponse) : lastReached own = some data := by
  cases uploaded with
  | once attempted => exact attempted.reached noPages
  | @twice first second response unanswered again =>
      cases response with
      | none => exact absurd rfl answered
      | some response =>
          have last : lastReached second = some data :=
            again.reached fun data page mem => noPages data page (List.mem_append_right _ mem)
          rw [lastReached_append, last]
          rfl

theorem noResponse_fatal (url : Bytes) (data : Json) : Fatal ⟨.httpPost url data, noResponse⟩ := by
  have short := (dockerImageOf_error_iff noResponse).mpr (by decide)
  exact short

theorem carried_reaches {exchanges : List monitor.Event} {own : List fleet.Event}
    (carries : Carried (served gson) exchanges own) (goesOn : ∀ event ∈ exchanges, ¬Fatal event)
    (noPages : NoPages own) : lastReached own = (uploads exchanges).getLast? := by
  induction carries with
  | nil => rfl
  | @cons command answer first rest events completes later ih =>
      rw [List.forall_mem_cons] at goesOn
      have reached := ih goesOn.2 fun data page mem => noPages data page (List.mem_append_right _ mem)
      rw [lastReached_append, reached]
      cases command with
      | httpPost url data =>
          rcases upload_follows completes (outsideServlet_done answer) with ⟨unfinished, _⟩ |
            ⟨_, same, uploaded⟩
          · exact absurd rfl (unfinished answer)
          cases same
          have answered : answer ≠ noResponse := by
            rintro rfl
            exact goesOn.1 (noResponse_fatal url data)
          have own := uploaded.reached
            (fun data page mem => noPages data page (List.mem_append_left _ mem)) answered
          have sent : uploads (⟨.httpPost url data, answer⟩ :: events) = data :: uploads events := rfl
          rw [own, sent, List.getLast?_cons]
          cases (uploads events).getLast? <;> rfl
      | _ =>
          rcases Follows.of_call_done completes with ⟨_, later, rfl, returns⟩
          rcases Follows.of_done returns with ⟨rfl, same⟩
          cases same
          exact Option.or_none

/-- Nothing is under way in the place of another command when a snapshot comes next. -/
theorem between_of_snapshot {place : Bytes} {middle : Program monitor (Except StdException Empty)}
    {inside : List fleet.Event} {next : Snapshot → Program fleet (Except StdException Empty)}
    (underway : Program.Underway (served gson) middle inside
      (.call (.inl (.own (.linuxCommand place))) next)) :
    inside = [] ∧ ∃ following, middle = .call (.linuxCommand place) following := by
  generalize waits : (Program.call (.inl (.own (.linuxCommand place))) next :
    Program fleet (Except StdException Empty)) = left at underway
  cases underway with
  | between =>
      refine ⟨rfl, ?_⟩
      cases middle with
      | done value => cases waits
      | unfinished => cases waits
      | call command following =>
          cases command with
          | linuxCommand location =>
              cases waits
              exact ⟨following, rfl⟩
          | _ => cases waits
  | @within command following inside left begun within isOpen =>
      rcases inside with _ | ⟨event, later⟩
      · exact absurd rfl begun
      cases command with
      | httpPost url data =>
          -- The snapshot would belong to the upload.
          cases left with
          | done value => exact absurd rfl (isOpen value)
          | unfinished => cases waits
          | call command further =>
              cases waits
              have taken : Follows (I := fleet) (.call (.inl (.own (.linuxCommand place))) further)
                  [⟨.inl (.own (.linuxCommand place)), machineWith []⟩]
                  (further (machineWith [])) :=
                .step (.refl _)
              have none := takenSnapshots_uploadRule.upload (within.trans taken)
              rw [takenSnapshots_append, List.append_eq_nil_iff] at none
              cases none.2
      | _ =>
          cases within with
          | step rest =>
              rcases Follows.of_done rest with ⟨_, rfl⟩
              exact absurd rfl (isOpen _)

/-- Before every snapshot but the first, the rows of a machine are those of a document with
the disk and memory info of the snapshot before, whether this one was uploaded or not. -/
theorem server_knows_last_snapshot {i : ι} {place : Bytes}
    {next : Snapshot → Program fleet (Except StdException Empty)}
    (run : PoolRun fleetSession
      (fun i => machineProgram gson (bound i) (location i) (timeInterval i)) db events remaining after)
    (others : ∀ turn ∈ events, turn.1 ≠ i → Foreign gson macAddress turn.2)
    (sound : ∀ event ∈ projection i events, Sound gson macAddress event)
    (noPages : NoPages (projection i events))
    (between : remaining i = .call (.inl (.own (.linuxCommand place))) next) :
    takenSnapshots (projection i events) = [] ∨ ∃ object current,
      (takenSnapshots (projection i events)).getLast? = some current ∧
      (Json.obj object).get "disk info" = current.get "disk info" ∧
      (Json.obj object).get "memory info" = current.get "memory info" ∧
      Server.Describes gson object macAddress fun table => after.rowsWithId table macAddress := by
  have follows := run.follows i
  rw [between] at follows
  rcases Follows.of_interpret follows with
    ⟨exchanges, middle, carried, inside, split, loops, carries, underway⟩
  rcases between_of_snapshot underway with ⟨rfl, following, rfl⟩
  rw [List.append_nil] at split
  have goesOn : ∀ event ∈ exchanges, ¬Fatal event := by
    intro event mem fatal
    have raised := (Program.forever_raised_iff (fun _ _ _ => timerRound_raised_iff) loops).mpr
      ⟨event, mem, fatal⟩
    rcases raised with ⟨exception, impossible⟩
    cases impossible
  have reached := carried_reaches carries goesOn (split ▸ noPages)
  rw [split, takenSnapshots_carried carries]
  apply (inStep_of_follows loops).imp_right
  rintro ⟨stores, uploaded, current, sent, last, _, disk, memory⟩
  rw [sent, ← split] at reached
  rcases (fleet_holds_last_documents run others sound (between ▸ outsideServlet_call nofun)).2 _ reached with
    ⟨object, rfl, described⟩
  exact ⟨object, current, last, disk, memory, described⟩

/-! ## What is on its way -/

section

variable {data other : Json} {arrival : Arrival} {own : List fleet.Event}

theorem Ready.not_arrives {input : Option (List Char)} {result : Except Server.JavaException String}
    (ready : Ready gson input own result) : arrives other arrival ∉ own := by
  have noArrival : ∀ served : List Server.jdbc.Event, arrives other arrival ∉ served.map inr := by
    intro served mem
    rcases List.mem_map.mp mem with ⟨event, _, same⟩
    cases same
  intro mem
  cases ready with
  | failed => exact noArrival _ mem
  | stored =>
      rcases List.mem_append.mp mem with mem | mem
      · exact noArrival _ mem
      · cases List.mem_singleton.mp mem

theorem Pending.of_arrives (pending : Pending gson data own) (mem : arrives other arrival ∈ own) :
    other = data := by
  cases pending with
  | arriving => cases mem
  | answering ready =>
      rcases List.mem_cons.mp mem with same | mem
      · cases same
        rfl
      · exact absurd mem ready.not_arrives

theorem Attempted.of_arrives {response : Option Response}
    (attempted : Attempted gson data own response) (mem : arrives other arrival ∈ own) :
    other = data := by
  cases attempted with
  | lost | turnedAway =>
      cases List.mem_singleton.mp mem
      rfl
  | served ready =>
      have pending : Pending gson data _ := .answering ready
      rw [← List.cons_append] at mem
      rcases List.mem_append.mp mem with mem | mem
      · exact pending.of_arrives mem
      · cases List.mem_singleton.mp mem

/-- Only documents of requests are on their way. -/
theorem served_of_arrives {command : MonitorCommand} {left : Program fleet (monitor.Answer command)}
    (follows : Follows (served gson command) own left) (outside : OutsideServlet left)
    (mem : arrives other arrival ∈ own) : ∃ url, command = .httpPost url other := by
  cases command with
  | httpPost url data =>
      suffices same : other = data from ⟨url, by rw [same]⟩
      rcases upload_follows follows outside with ⟨_, uploading⟩ | ⟨response, _, uploaded⟩
      · cases uploading with
        | first pending => exact pending.of_arrives mem
        | second unanswered pending =>
            exact (List.mem_append.mp mem).elim unanswered.of_arrives pending.of_arrives
      · cases uploaded with
        | once answered => exact answered.of_arrives mem
        | twice unanswered again =>
            exact (List.mem_append.mp mem).elim unanswered.of_arrives again.of_arrives
  | _ =>
      rcases Follows.of_call follows with ⟨rfl, _⟩ | ⟨answer, later, rfl, rest⟩
      · cases mem
      · rcases Follows.of_done rest with ⟨rfl, _⟩
        cases List.mem_singleton.mp mem

theorem carried_of_arrives {exchanges : List monitor.Event}
    (carries : Carried (served gson) exchanges own) (mem : arrives other arrival ∈ own) :
    ∃ url response, ⟨.httpPost url other, response⟩ ∈ exchanges := by
  induction carries with
  | nil => cases mem
  | @cons command answer first rest exchanges completes later ih =>
      rcases List.mem_append.mp mem with mem | mem
      · rcases served_of_arrives completes (outsideServlet_done answer) mem with ⟨url, rfl⟩
        exact ⟨url, answer, List.mem_cons_self⟩
      · rcases ih mem with ⟨url, response, among⟩
        exact ⟨url, response, List.mem_cons_of_mem _ among⟩

/-- What is posted, or about to be, is a snapshot. -/
def MonitorPhase.Posts (phase : MonitorPhase) (exchanges : List monitor.Event) : Prop :=
  (∀ url root response, ⟨.httpPost url root, response⟩ ∈ exchanges → root ∈ snapshots exchanges) ∧
    ∀ root stores, phase = .posting root stores → root ∈ snapshots exchanges

theorem MonitorStep.posts {location : Bytes} {timeInterval : ℤ} {phase after : MonitorPhase}
    {event : monitor.Event} {exchanges : List monitor.Event} (posts : phase.Posts exchanges)
    (step : MonitorStep location timeInterval phase event after) :
    after.Posts (exchanges ++ [event]) := by
  have posted : (∀ url root response, event = ⟨.httpPost url root, response⟩ →
      root ∈ snapshots exchanges) → ∀ url root response,
      ⟨.httpPost url root, response⟩ ∈ exchanges ++ [event] →
      root ∈ snapshots (exchanges ++ [event]) := by
    intro now url root response mem
    rw [snapshots_append]
    apply List.mem_append_left
    rcases List.mem_append.mp mem with mem | mem
    · exact posts.1 url root response mem
    · exact now url root response (List.mem_singleton.mp mem).symm
  cases step with
  | unchanged | deployed | slept =>
      refine ⟨posted ?_, ?_⟩
      · intro url root response now
        cases now
      · intro root stores now
        cases now
  | changed isNew =>
      refine ⟨posted ?_, ?_⟩
      · intro url root response now
        cases now
      · intro root stores now
        cases now
        rw [snapshots_append]
        exact List.mem_append_right _ (List.mem_singleton.mpr rfl)
  | @posted root stores response result extracted =>
      refine ⟨posted ?_, ?_⟩
      · intro url root' response' now
        cases now
        exact posts.2 root stores rfl
      · intro root' stores' now
        cases result with
        | error exception => cases now
        | ok dockerImage =>
            rw [MonitorPhase.answered] at now
            split at now <;> cases now

/-- What arrives is a snapshot of the machine. -/
theorem mem_takenSnapshots_of_arrives {bound : ℕ} {location : Bytes} {timeInterval : ℤ}
    {left : Program fleet (Except StdException Empty)}
    (follows : Follows (machineProgram gson bound location timeInterval) own left)
    (outside : OutsideServlet left) (mem : arrives other arrival ∈ own) :
    other ∈ takenSnapshots own := by
  rcases follows.of_interpret with ⟨exchanges, middle, carried, inside, rfl, runs, carries, underway⟩
  rcases (timerControl_runsOn bound).invariant_of_follows runs MonitorPhase.Posts
    ⟨nofun, nofun⟩ MonitorStep.posts with ⟨phase, posts, goesOn⟩
  rw [takenSnapshots_append, takenSnapshots_carried carries]
  apply List.mem_append_left
  rcases List.mem_append.mp mem with mem | mem
  · rcases carried_of_arrives carries mem with ⟨url, response, among⟩
    exact posts.1 url other response among
  · cases underway with
    | between => cases mem
    | within begun within isOpen =>
        rcases served_of_arrives within outside.of_bind mem with ⟨url, rfl⟩
        rcases goesOn noResponse with ⟨after, step, _⟩
        cases step with
        | posted => exact posts.2 _ _ rfl

end

end HumanMachine.Client
