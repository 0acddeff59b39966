import HumanMachine.Program.Termination
import HumanMachine.Server.Concurrency
import HumanMachine.Server.Resources

/-!
# Requests of different machines

Requests of different machines run at the same time and their statements mix in any order;
they share the static connection, and any statement of any of them may fail. Still each
machine's rows are, at every moment, what its own request alone has made of them so far.
-/

namespace HumanMachine.Server

open Gson (getAsJsonObject getAsJsonArray get has elementAt)
open Program (Terminates Follows PoolRun)

/-! ## Every request comes to an end -/

section Termination

variable {gson : Gson} {con : Option ℕ} {macAddress : Double}

theorem prepareStatement_terminates (con : Option ℕ) (sql : Sql) :
    Terminates (prepareStatement con sql).run := by
  cases con with
  | none => exact Program.terminates_throw _
  | some connection =>
      apply (Program.terminates_lift _).bind_ok
      intro (handle : Option ℕ)
      cases handle <;> trivial

theorem executeUpdate_terminates (statement : PreparedStatement) :
    Terminates (executeUpdate statement).run := by
  apply (Program.terminates_lift _).bind_ok
  intro (success : Bool)
  cases success <;> trivial

theorem close_terminates (statement : PreparedStatement) : Terminates (close statement).run := by
  apply (Program.terminates_lift _).bind_ok
  intro (success : Bool)
  cases success <;> trivial

theorem execute_close_terminates (statement : PreparedStatement) :
    Terminates (executeUpdate statement >>= fun _ => close statement).run :=
  (executeUpdate_terminates statement).bind_ok fun _ => close_terminates statement

theorem insertServerinfo_terminates
    (diskArray memoryArray networkArray locationArray timestampArray : List Json) (i : ℕ) :
    Terminates (insertServerinfo gson con macAddress diskArray memoryArray networkArray
      locationArray timestampArray i).run := by
  iterate 8
    apply Program.terminates_read
    intro value
  apply (prepareStatement_terminates _ _).bind_ok
  intro statement
  repeat
    apply Program.terminates_read
    intro value
  exact execute_close_terminates _

theorem insertCpuinfo_terminates (cpuArray : List Json) (i : ℕ) :
    Terminates (insertCpuinfo gson con macAddress cpuArray i).run := by
  iterate 2
    apply Program.terminates_read
    intro value
  apply (prepareStatement_terminates _ _).bind_ok
  intro statement
  repeat
    apply Program.terminates_read
    intro value
  exact execute_close_terminates _

theorem insertDockerinfo_terminates (dockerArray : List Json) (i : ℕ) :
    Terminates (insertDockerinfo gson con macAddress dockerArray i).run := by
  iterate 2
    apply Program.terminates_read
    intro value
  apply (prepareStatement_terminates _ _).bind_ok
  intro statement
  repeat
    apply Program.terminates_read
    intro value
  exact execute_close_terminates _

theorem insertRows_terminates (object : List (String × Json)) :
    Terminates (insertRows gson con object macAddress).run := by
  iterate 12
    apply Program.terminates_read
    intro value
  apply (Program.terminates_forM (insertServerinfo_terminates _ _ _ _ _) _).bind_ok
  intro _
  apply (Program.terminates_forM (insertCpuinfo_terminates _) _).bind_ok
  intro _
  split
  · iterate 2
      apply Program.terminates_read
      intro value
    exact Program.terminates_forM (insertDockerinfo_terminates _) _
  · trivial

theorem deleteTable_terminates (table : Table) (id : Double) :
    Terminates (deleteTable con table id).run := by
  apply Terminates.tryCatch
  · apply (prepareStatement_terminates _ _).bind_ok
    intro statement
    exact execute_close_terminates statement
  · intro exception
    cases exception <;> trivial

theorem deleteRows_terminates : Terminates (deleteRows con macAddress).run :=
  (deleteTable_terminates _ _).bind_ok fun _ =>
    (deleteTable_terminates _ _).bind_ok fun _ => deleteTable_terminates _ _

theorem returningMacId_terminates {macId : Double} {body : Java Double}
    (terminates : Terminates body.run) : Terminates (returningMacId macId body).run := by
  apply terminates.tryCatch
  intro exception
  cases exception <;> trivial

theorem insertData_terminates (data : String) : Terminates (insertData gson con data).run := by
  apply returningMacId_terminates
  apply Program.terminates_read
  rintro ⟨object, macAddress⟩
  apply returningMacId_terminates
  apply deleteRows_terminates.bind_ok
  intro _
  exact (insertRows_terminates object).bind_ok fun _ => trivial

theorem getConnect_terminates : Terminates getConnect.run := by
  rw [getConnect_run]
  intro (loaded : Bool)
  cases loaded with
  | false => exact fun _ => trivial
  | true =>
      intro (connection : Option ℕ)
      cases connection with
      | none => exact fun _ => trivial
      | some connection => exact fun _ _ => trivial

theorem storeBody_terminates (data : Option String) : Terminates (storeBody gson data).run := by
  cases data with
  | none => exact getConnect_terminates.bind_ok fun _ => Program.terminates_throw _
  | some data => exact getConnect_terminates.bind_ok fun _ => insertData_terminates data

theorem doPost_terminates (query : Option String) (input : Option (List Char))
    (dockerResponseJson : Option String) :
    Terminates (doPost gson query input dockerResponseJson).run := by
  apply (storeBody_terminates _).bind_ok
  intro macId
  trivial

end Termination

instance (command : jdbc.Command) : Nonempty (jdbc.Answer command) :=
  ⟨answering (fun _ => false) 0 command⟩

/-! ## The changes of a request -/

section Changes

variable {gson : Gson} {query : Option String} {input : Option (List Char)}
  {dockerResponseJson : Option String} {events : List jdbc.Event}

/-- No connection was there to be loaded. -/
def unconnected : jdbc.Event → Bool
  | ⟨.loadCon, none⟩ => true
  | _ => false

theorem connected_of_mem (connected : events.any unconnected = false) {con : Option ℕ}
    (mem : ⟨.loadCon, con⟩ ∈ events) : con.isSome := by
  have here := List.any_eq_false.mp connected _ mem
  cases con with
  | none => exact absurd rfl here
  | some connection => rfl

theorem executedEffects_append_of_nil {first second : List jdbc.Event}
    (nothing : executedEffects first = []) :
    executedEffects (first ++ second) = executedEffects second := by
  rw [executedEffects, List.filterMap_append, ← executedEffects, ← executedEffects, nothing,
    List.nil_append]

theorem getConnect_follows {result : Except JavaException (Option ℕ)}
    (follows : Follows getConnect.run events (.done result)) :
    ∃ con : Option ℕ, result = .ok con ∧ executedEffects events = [] ∧ ⟨.loadCon, con⟩ ∈ events := by
  rw [getConnect_run] at follows
  rcases follows.of_call_done with ⟨loaded, later, rfl, branch⟩
  cases loaded with
  | false =>
      rcases Follows.of_call_done branch with ⟨con, later, rfl, finished⟩
      rcases Follows.of_done finished with ⟨rfl, returned⟩
      cases returned
      exact ⟨con, rfl, rfl, by simp⟩
  | true =>
      rcases Follows.of_call_done branch with ⟨connection, later, rfl, rest⟩
      cases connection with
      | none =>
          rcases Follows.of_call_done rest with ⟨con, later, rfl, finished⟩
          rcases Follows.of_done finished with ⟨rfl, returned⟩
          cases returned
          exact ⟨con, rfl, rfl, by simp⟩
      | some connection =>
          rcases Follows.of_call_done rest with ⟨_, later, rfl, stored⟩
          rcases Follows.of_call_done stored with ⟨con, later, rfl, finished⟩
          rcases Follows.of_done finished with ⟨rfl, returned⟩
          cases returned
          exact ⟨con, rfl, rfl, by simp⟩

/-- A finished request has stored its body before it looked for an order. -/
theorem storeBody_of_doPost {result : Except JavaException String}
    (follows : Follows (doPost gson query input dockerResponseJson).run events (.done result)) :
    ∃ stored, Follows (storeBody gson (getBodyData input)).run events (.done stored) := by
  rcases Follows.of_bind_done follows with ⟨first, second, stored, rfl, stores, rest⟩
  refine ⟨stored, ?_⟩
  have nothing : second = [] := by
    cases stored with
    | error exception => exact rest.of_done.1
    | ok macId => exact (Follows.of_done rest).1
  rwa [nothing, List.append_nil]

theorem doPost_changes {result : Except JavaException String} {data : String}
    {object : List (String × Json)} {macAddress : Double}
    (body : getBodyData input = some data) (read : readBody gson data = .ok (object, macAddress))
    (follows : Follows (doPost gson query input dockerResponseJson).run events (.done result)) :
    ∃ deleted inserted, deleted.Sublist (deletions macAddress) ∧
      inserted <+: Plan.readable (plan gson object macAddress) ∧
      executedEffects events = deleted ++ inserted ∧
      (events.any unconnected = false → events.any refused = false →
        deleted = deletions macAddress ∧
          inserted = Plan.readable (plan gson object macAddress)) := by
  rcases storeBody_of_doPost follows with ⟨stored, stores⟩
  rw [body] at stores
  rcases Follows.of_bind_done stores with ⟨first, second, connects, rfl, connecting, rest⟩
  rcases getConnect_follows connecting with ⟨con, rfl, nothing, loaded⟩
  rcases insertData_changes rest read with ⟨deleted, inserted, sublist, isPrefix, effects, all⟩
  refine ⟨deleted, inserted, sublist, isPrefix, ?_, ?_⟩
  · rw [executedEffects_append_of_nil nothing, effects]
  · intro connected accepted
    rw [List.any_append, Bool.or_eq_false_iff] at accepted
    exact all (connected_of_mem connected (List.mem_append_left _ loaded)) accepted.2

theorem exists_split_of_prefix {α : Type} {events first second : List α}
    (isPrefix : events <+: first ++ second) :
    ∃ before after, events = before ++ after ∧ before <+: first ∧ after <+: second := by
  refine ⟨first.take events.length, second.take (events.length - first.length), ?_,
    List.take_prefix _ _, List.take_prefix _ _⟩
  rw [← List.take_append]
  exact List.prefix_iff_eq_take.mp isPrefix

/-- Wherever a request is, it has made some of the deletions and an initial segment of the
insertions. -/
theorem doPost_changes_so_far {remaining : Program jdbc (Except JavaException String)}
    {data : String} {object : List (String × Json)} {macAddress : Double}
    (body : getBodyData input = some data) (read : readBody gson data = .ok (object, macAddress))
    (follows : Follows (doPost gson query input dockerResponseJson).run events remaining) :
    ∃ deleted inserted, deleted.Sublist (deletions macAddress) ∧
      inserted <+: Plan.readable (plan gson object macAddress) ∧
      executedEffects events = deleted ++ inserted := by
  rcases (doPost_terminates query input dockerResponseJson).exists_completion follows with
    ⟨later, result, completes⟩
  rcases doPost_changes body read completes with ⟨deleted, inserted, sublist, isPrefix, effects, _⟩
  have soFar : executedEffects events <+: deleted ++ inserted := by
    rw [← effects, executedEffects, executedEffects, List.filterMap_append]
    exact List.prefix_append _ _
  rcases exists_split_of_prefix soFar with ⟨before, after, made, isBefore, isAfter⟩
  exact ⟨before, after, isBefore.sublist.trans sublist, isAfter.trans isPrefix, made⟩

theorem ofMachine_of_changes {macAddress : Double} {object : List (String × Json)}
    {deleted inserted : List Effect} (sublist : deleted.Sublist (deletions macAddress))
    (isPrefix : inserted <+: Plan.readable (plan gson object macAddress)) :
    ∀ change ∈ deleted ++ inserted, change.OfMachine macAddress := by
  intro change mem
  rcases List.mem_append.mp mem with mem | mem
  · exact deletions_ofMachine sublist change mem
  · exact (isInsertion_of_prefix_plan isPrefix change mem).ofMachine

/-- The body which is read names the machine. -/
def NamesMachine (gson : Gson) (macAddress : Double) (input : Option (List Char)) : Prop :=
  ∃ data, getBodyData input = some data ∧ Posts gson macAddress data

theorem executedEffects_of_unread {con : Option ℕ} {data : String} {exception : JavaException}
    {result : Except JavaException Double} (unread : readBody gson data = .error exception)
    (follows : Follows (insertData gson con data).run events (.done result)) :
    executedEffects events = [] := by
  have unchanged := Program.Guarantees.result (insertData_ensures_of_unread unread ⟨[], false⟩)
    (run_logging_of_follows follows)
  cases result <;> exact congrArg Log.effects unchanged

theorem storeBody_leaves {macAddress : Double} {data : Option String}
    {result : Except JavaException Double} (foreign : ∀ text, data = some text →
      ¬Posts gson macAddress text)
    (follows : Follows (storeBody gson data).run events (.done result)) :
    ∀ change ∈ executedEffects events, ∃ other ≠ macAddress, change.OfMachine other := by
  cases data with
  | none =>
      rcases Follows.of_bind_done follows with ⟨first, second, connects, rfl, connecting, rest⟩
      rcases getConnect_follows connecting with ⟨con, rfl, nothing, _⟩
      rcases Follows.of_done rest with ⟨rfl, _⟩
      rw [executedEffects_append_of_nil nothing]
      exact nofun
  | some text =>
      rcases Follows.of_bind_done follows with ⟨first, second, connects, rfl, connecting, rest⟩
      rcases getConnect_follows connecting with ⟨con, rfl, nothing, _⟩
      rw [executedEffects_append_of_nil nothing]
      cases read : readBody gson text with
      | error exception =>
          rw [executedEffects_of_unread read rest]
          exact nofun
      | ok body =>
          rcases body with ⟨object, id⟩
          rcases insertData_changes rest read with ⟨deleted, inserted, sublist, isPrefix, effects, _⟩
          rw [effects]
          intro change mem
          refine ⟨id, ?_, ofMachine_of_changes sublist isPrefix change mem⟩
          rintro rfl
          exact foreign text rfl ⟨object, read⟩

/-- A request for another machine makes no change of this one's rows. -/
theorem doPost_leaves {macAddress : Double} {remaining : Program jdbc (Except JavaException String)}
    (foreign : ¬NamesMachine gson macAddress input)
    (follows : Follows (doPost gson query input dockerResponseJson).run events remaining) :
    ∀ change ∈ executedEffects events, ∃ other ≠ macAddress, change.OfMachine other := by
  rcases (doPost_terminates query input dockerResponseJson).exists_completion follows with
    ⟨later, result, completes⟩
  rcases storeBody_of_doPost completes with ⟨stored, stores⟩
  intro change mem
  apply storeBody_leaves (fun text is posts => foreign ⟨text, is, posts⟩) stores
  rw [executedEffects, List.filterMap_append]
  exact List.mem_append_left _ mem

end Changes

/-! ## Interleaved requests -/

section Requests

variable {ι : Type} [DecidableEq ι] {gson : Gson} {request : ι → Request} {db after : Database}
  {events : List (ι × jdbc.Event)} {remaining : ι → Program jdbc (Except JavaException String)}

variable (gson) in
def Request.program (request : Request) : Program jdbc (Except JavaException String) :=
  (doPost gson request.query request.input request.dockerResponseJson).run

/-- What an exchange does to the rows of a machine in a table. -/
def seeing (table : Table) (macAddress : Double) (rows : List Row) (event : jdbc.Event) : List Row :=
  match executed event with
  | some change => change.onRows table macAddress rows
  | none => rows

theorem foldl_seeing (table : Table) (macAddress : Double) (events : List jdbc.Event)
    (rows : List Row) :
    events.foldl (seeing table macAddress) rows =
      (executedEffects events).foldl (Effect.onRows table macAddress) rows := by
  induction events generalizing rows with
  | nil => rfl
  | cons event events ih =>
      rw [List.foldl_cons, ih, seeing]
      cases change : executed event <;> simp [executedEffects, change]

/-- Statements about other machines can be left out. -/
theorem rowsWithId_of_others {macAddress : Double} (i : ι)
    (others : ∀ turn ∈ events, turn.1 ≠ i → ∀ change, executed turn.2 = some change →
      ∃ other ≠ macAddress, change.OfMachine other) (table : Table) :
    (db.replay (executedEffects (events.map Prod.snd))).rowsWithId table macAddress =
      (executedEffects (projection i events)).foldl (Effect.onRows table macAddress)
        (db.rowsWithId table macAddress) := by
  rw [rowsWithId_replay, ← foldl_seeing, ← foldl_seeing]
  apply foldl_eq_foldl_projection
  intro turn mem different rows
  rw [seeing]
  cases executes : executed turn.2 with
  | none => rfl
  | some change =>
      rcases others turn mem different change executes with ⟨other, unequal, ofMachine⟩
      have alone : ∀ change' ∈ [change], change'.OfMachine other := by simpa using ofMachine
      exact onRows_foldl_of_ne unequal.symm alone table rows

theorem executed_mem {events : List jdbc.Event} {event : jdbc.Event} {change : Effect}
    (mem : event ∈ events) (executes : executed event = some change) :
    change ∈ executedEffects events :=
  List.mem_filterMap.mpr ⟨event, mem, executes⟩

/-- The rows of a machine are what the statements of its only request make of them. -/
theorem rowsWithId_of_request {macAddress : Double} {i : ι}
    (others : ∀ j ≠ i, ¬NamesMachine gson macAddress (request j).input)
    (run : PoolRun databaseSession (fun i => (request i).program gson) db events remaining after)
    (table : Table) :
    after.rowsWithId table macAddress =
      (executedEffects (projection i events)).foldl (Effect.onRows table macAddress)
        (db.rowsWithId table macAddress) := by
  rw [replay_of_poolRun run]
  apply rowsWithId_of_others
  rintro ⟨j, event⟩ mem different change executes
  exact doPost_leaves (others j different) (run.follows j) change
    (executed_mem (mem_projection.mpr mem) executes)

theorem onRows_foldl_changes {macAddress : Double} {deleted inserted : List Effect}
    (sublist : deleted.Sublist (deletions macAddress))
    (inserts : ∀ change ∈ inserted, change.IsInsertion macAddress) (table : Table)
    (rows : List Row) :
    (deleted ++ inserted).foldl (Effect.onRows table macAddress) rows =
      (if .delete table macAddress ∈ deleted then [] else rows) ++ insertedInto table inserted := by
  rw [List.foldl_append, onRows_foldl_deletions sublist, onRows_foldl_insertions inserts]

/-- At every moment, whatever the requests for other machines do and whichever statements
fail, the rows of a machine are the old ones, unless the deletion in its own request has taken
effect, and the first ones of those which its body describes; when the request is through and
none of its own statements was refused, they are exactly the described ones. -/
theorem request_isolated {i : ι} {data : String} {object : List (String × Json)}
    {macAddress : Double} (body : getBodyData (request i).input = some data)
    (read : readBody gson data = .ok (object, macAddress))
    (others : ∀ j ≠ i, ¬NamesMachine gson macAddress (request j).input)
    (run : PoolRun databaseSession (fun i => (request i).program gson) db events remaining after) :
    (∃ deleted inserted : List Effect, deleted.Sublist (deletions macAddress) ∧
      inserted <+: Plan.readable (plan gson object macAddress) ∧
      executedEffects (projection i events) = deleted ++ inserted ∧
      ∀ table, after.rowsWithId table macAddress =
        (if .delete table macAddress ∈ deleted then [] else db.rowsWithId table macAddress) ++
          insertedInto table inserted) ∧
    ∀ sections, WellFormed gson object sections → (∃ result, remaining i = .done result) →
      (projection i events).any unconnected = false → (projection i events).any refused = false →
      DescribesBody gson data macAddress fun table => after.rowsWithId table macAddress := by
  have follows := run.follows i
  have rows := rowsWithId_of_request others run
  constructor
  · rcases doPost_changes_so_far body read follows with
      ⟨deleted, inserted, sublist, isPrefix, effects⟩
    refine ⟨deleted, inserted, sublist, isPrefix, effects, ?_⟩
    intro table
    rw [rows, effects, onRows_foldl_changes sublist (isInsertion_of_prefix_plan isPrefix)]
  · rintro sections wellFormed ⟨result, finished⟩ connected accepted
    rw [finished] at follows
    rcases doPost_changes body read follows with
      ⟨deleted, inserted, sublist, isPrefix, effects, all⟩
    rcases all connected accepted with ⟨rfl, rfl⟩
    refine ⟨object, read, ?_⟩
    have described := describes_of_complete (wellFormed.plan_complete macAddress)
    convert described using 2 with table
    rw [rows, effects, onRows_foldl_changes sublist (isInsertion_of_prefix_plan isPrefix)]
    cases table <;> simp [deletions]

end Requests

/-! ### Two machines -/

def neighbourMembers : List (String × Json) :=
  ("mac address info", .arr [.obj [("id", .num (.fin 8))]]) :: sampleMembers.tail

/-- Machine 7 posts an empty text, machine 8 any other. -/
def neighboursGson : Gson where
  parse := fun text => .ok (.obj (if text = "" then sampleMembers else neighbourMembers))
  doubleOfString := fun _ => none
  intOfString := fun _ => none
  intOfNumber := fun _ => 0
  stringOfNumber := fun _ => ""

def neighbours : Bool → Request := fun second =>
  { query := none, input := some (if second then ['8'] else []), dockerResponseJson := none }

/-- The two requests take turns. -/
def neighbourTurns : List Bool :=
  (List.replicate 16 [false, true]).flatten

def neighbourEvents : List (Bool × jdbc.Event) :=
  Program.poolTranscript (answering (fun _ => false) 0) neighbourTurns
    fun i => (neighbours i).program neighboursGson

theorem neighbourEvents_run :
    PoolRun databaseSession (fun i => (neighbours i).program neighboursGson) sampleDatabase
      neighbourEvents
      (Program.poolOutcome (answering (fun _ => false) 0) neighbourTurns
        fun i => (neighbours i).program neighboursGson)
      (sampleDatabase.replay (executedEffects (neighbourEvents.map Prod.snd))) := by
  have run := Program.poolRun_transcript
    (fun (db : Database) command answer => db.replay (executed ⟨command, answer⟩).toList)
    (answering (fun _ => false) 0) neighbourTurns
    (fun i => (neighbours i).program neighboursGson) sampleDatabase
  have after := replay_of_poolRun run
  rwa [after] at run

theorem neighbours_differ : ∀ j ≠ false, ¬NamesMachine neighboursGson (.fin 7) (neighbours j).input := by
  rintro j different ⟨data, body, object, read⟩
  cases j with
  | false => exact different rfl
  | true =>
      cases body
      have others : (readBody neighboursGson "8").toOption.map Prod.snd = some (.fin 8) := by
        decide +kernel
      have same : readBody neighboursGson "8" = .ok (object, .fin 7) := read
      rw [same] at others
      have equal : (Double.fin 7) = .fin 8 := Option.some_inj.mp others
      revert equal
      decide +kernel

theorem request_isolated_neighbours :
    DescribesBody neighboursGson "" (.fin 7) fun table =>
      (sampleDatabase.replay (executedEffects (neighbourEvents.map Prod.snd))).rowsWithId table
        (.fin 7) := by
  have wellFormed : WellFormed neighboursGson sampleMembers sampleSections := by
    constructor
    case read => rfl
    all_goals
      simp [HasFields, Gson.getAsJsonObject, Gson.get, Gson.has, sampleMembers, sampleSections,
        List.lookup_cons]
  exact (request_isolated rfl rfl neighbours_differ neighbourEvents_run).2 sampleSections wellFormed
    ⟨_, rfl⟩ (by decide +kernel) (by decide +kernel)

end HumanMachine.Server
