import HumanMachine.Program.Interleaving
import HumanMachine.Server.Refinement

/-!
# Concurrent uploads of one machine

Several requests for one machine run at the same time over one database, each
statement taking effect by itself. Nothing keeps them apart, so that their rows
can mix. What a table holds in the end is settled by its last deletion: the
request which issued it finds all its rows there, and of every other request the
rows inserted after that deletion are there as well.
-/

namespace HumanMachine.Server

open Program (PoolRun)

/-- A change seen from the rows of one machine in one table. -/
def Effect.edit? (table : Table) (macAddress : Double) : Effect → Option (Edit Row)
  | .delete target id => if target = table ∧ id = macAddress then some .clear else none
  | .insert target row => if target = table ∧ hasId macAddress row then some (.put row) else none

theorem onRows_foldl_eq_content (table : Table) (macAddress : Double) (effects : List Effect)
    (rows : List Row) :
    effects.foldl (Effect.onRows table macAddress) rows =
      Edit.content rows (effects.filterMap (Effect.edit? table macAddress)) := by
  induction effects generalizing rows with
  | nil => rfl
  | cons change rest ih =>
      rw [List.foldl_cons, ih]
      cases change with
      | delete target id =>
          by_cases concerned : target = table ∧ id = macAddress
          · simp [Effect.onRows, Effect.edit?, concerned, Edit.content]
          · simp [Effect.onRows, Effect.edit?, concerned]
      | insert target row =>
          by_cases concerned : target = table ∧ hasId macAddress row = true
          · simp [Effect.onRows, Effect.edit?, concerned, Edit.content]
          · simp [Effect.onRows, Effect.edit?, concerned]

theorem edits_of_insertions {macAddress : Double} {effects : List Effect}
    (inserts : ∀ change ∈ effects, change.IsInsertion macAddress) (table : Table) :
    effects.filterMap (Effect.edit? table macAddress) = (insertedInto table effects).map .put := by
  induction effects with
  | nil => rfl
  | cons change rest ih =>
      have tail := ih fun later mem => inserts later (List.mem_cons_of_mem _ mem)
      rcases inserts change List.mem_cons_self with ⟨target, values, rfl⟩
      by_cases same : target = table
      · simp [insertion, Effect.edit?, insertedInto, same, hasId_insertion] at tail ⊢
        exact tail
      · simp [insertion, Effect.edit?, insertedInto, same] at tail ⊢
        exact tail

theorem edits_of_deletions (macAddress : Double) (table : Table) :
    (deletions macAddress).filterMap (Effect.edit? table macAddress) = [.clear] := by
  cases table <;> simp [deletions, Effect.edit?]

theorem replay_of_poolRun {ι α : Type} [DecidableEq ι] {programs remaining : ι → Program jdbc α}
    {db after : Database} {events : List (ι × jdbc.Event)}
    (run : PoolRun databaseSession programs db events remaining after) :
    after = db.replay (executedEffects (events.map Prod.snd)) := by
  induction run with
  | refl programs state => rfl
  | @step i command next answer events programs remaining before middle final turn answered rest ih =>
      rw [ih, answered, ← Database.replay_append]
      congr 1
      cases change : executed ⟨command, answer⟩ <;> simp [executedEffects, change]

/-- A well-formed body posted by the machine. -/
def WellFormedPost (gson : Gson) (macAddress : Double) (data : String) : Prop :=
  ∃ object sections, readBody gson data = .ok (object, macAddress) ∧
    WellFormed gson object sections

section Requests

variable {ι : Type} [DecidableEq ι] {gson : Gson} {connection : ι → ℕ} {data : ι → String}
  {macAddress : Double} {db after : Database} {events : List (ι × jdbc.Event)}
  {remaining : ι → Program jdbc (Except JavaException Double)}

/-- The turns of the requests as steps on the machine's rows in one table. -/
def tableSchedule (table : Table) (macAddress : Double) (events : List (ι × jdbc.Event)) :
    List (ι × Edit Row) :=
  events.filterMap fun turn =>
    ((executed turn.2).bind (Effect.edit? table macAddress)).map (turn.1, ·)

omit [DecidableEq ι] in
theorem tableSchedule_append (table : Table) (earlier later : List (ι × jdbc.Event)) :
    tableSchedule table macAddress (earlier ++ later) =
      tableSchedule table macAddress earlier ++ tableSchedule table macAddress later :=
  List.filterMap_append

omit [DecidableEq ι] in
/-- A step belongs to a turn of the same request. -/
theorem exists_turn_of_tableSchedule {table : Table} {step : ι × Edit Row}
    (mem : step ∈ tableSchedule table macAddress events) : ∃ turn ∈ events, turn.1 = step.1 := by
  simp only [tableSchedule, List.mem_filterMap, Option.map_eq_some_iff] at mem
  rcases mem with ⟨turn, mem, edit, _, rfl⟩
  exact ⟨turn, mem, rfl⟩

omit [DecidableEq ι] in
theorem map_snd_tableSchedule (table : Table) :
    (tableSchedule table macAddress events).map Prod.snd =
      (executedEffects (events.map Prod.snd)).filterMap (Effect.edit? table macAddress) := by
  simp only [tableSchedule, executedEffects, List.map_filterMap, List.filterMap_filterMap,
    List.filterMap_map]
  apply List.filterMap_congr
  intro turn _
  cases change : executed turn.2 with
  | none => simp [change]
  | some effect => simp [change, Function.comp_def]

/-- In every interleaving a request first clears its machine's rows from a table and
then puts the rows there which its body describes. -/
theorem projection_tableSchedule {i : ι} {object : List (String × Json)}
    {result : Except JavaException Double}
    (read : readBody gson (data i) = .ok (object, macAddress))
    (run : PoolRun databaseSession
      (fun i => (insertData gson (some (connection i)) (data i)).run) db events remaining after)
    (finished : remaining i = .done result)
    (accepted : ∀ turn ∈ events, refused turn.2 = false) (table : Table) :
    projection i (tableSchedule table macAddress events) =
      .clear :: (insertedInto table (Plan.readable (plan gson object macAddress))).map .put := by
  have follows := run.follows i
  rw [finished] at follows
  have ownAccepted : (projection i events).any refused = false := by
    rw [List.any_eq_false]
    intro event mem
    simpa using accepted _ (mem_projection.mp mem)
  rcases insertData_changes follows read with ⟨deleted, inserted, _, isPrefix, effects, all⟩
  rcases all rfl ownAccepted with ⟨rfl, rfl⟩
  have edits : projection i (tableSchedule table macAddress events) =
      (executedEffects (projection i events)).filterMap (Effect.edit? table macAddress) := by
    rw [tableSchedule,
      projection_filterMap i fun event => (executed event).bind (Effect.edit? table macAddress)]
    simp [executedEffects, List.filterMap_filterMap]
  rw [edits, effects, List.filterMap_append, edits_of_deletions,
    edits_of_insertions (isInsertion_of_prefix_plan isPrefix)]
  rfl

/-- The rows of the machine which were inserted into a table in these turns, with the requests
which inserted them. -/
def insertedTurns (table : Table) (macAddress : Double) (events : List (ι × jdbc.Event)) :
    List (ι × Row) :=
  Edit.appended (tableSchedule table macAddress events)

theorem Effect.edit?_eq_clear_iff {table : Table} {change : Effect} :
    change.edit? table macAddress = some .clear ↔ change = .delete table macAddress := by
  cases change with
  | delete target id => simp [edit?]
  | insert target row => simp [edit?]

omit [DecidableEq ι] in
/-- A step which clears the table is an executed deletion. -/
theorem exists_deletion_of_tableSchedule {table : Table} {last : ι}
    {earlier later : List (ι × Edit Row)}
    (split : tableSchedule table macAddress events = earlier ++ (last, .clear) :: later) :
    ∃ before event after, events = before ++ (last, event) :: after ∧
      executed event = some (.delete table macAddress) ∧
      tableSchedule table macAddress after = later := by
  rcases List.filterMap_eq_append_iff.mp split with ⟨before, rest, rfl, _, further⟩
  rcases List.filterMap_eq_cons_iff.mp further with ⟨skipped, turn, after, rfl, _, step, rfl⟩
  rcases Option.map_eq_some_iff.mp step with ⟨edit, isEdit, same⟩
  rcases Option.bind_eq_some_iff.mp isEdit with ⟨change, executes, clears⟩
  rcases turn with ⟨i, event⟩
  cases same
  refine ⟨before ++ skipped, event, after, ?_, ?_, rfl⟩
  · rw [List.append_assoc]
  · rw [executes, Effect.edit?_eq_clear_iff.mp clears]

omit [DecidableEq ι] in
theorem mem_tableSchedule_of_deletion {table : Table} {i : ι} {event : jdbc.Event}
    (mem : (i, event) ∈ events) (deletes : executed event = some (.delete table macAddress)) :
    (i, .clear) ∈ tableSchedule table macAddress events := by
  refine List.mem_filterMap.mpr ⟨_, mem, ?_⟩
  rw [deletes, Option.bind_some, Effect.edit?_eq_clear_iff.mpr rfl]
  rfl

/-- The rows of the machine are exactly those of one of the bodies. -/
def Unmixed (gson : Gson) (data : ι → String) (macAddress : Double) (after : Database) : Prop :=
  ∃ i, DescribesBody gson (data i) macAddress fun table => after.rowsWithId table macAddress

/-- In each table, the rows inserted after the last deletion are left and nothing else: all rows
of the request which deleted last, in their order, and of every other request a final segment of
its rows. A request which starts when all others have finished leaves exactly its rows. -/
theorem uploads_leave_last_deletion [Nonempty ι]
    (wellFormed : ∀ i, WellFormedPost gson macAddress (data i))
    (run : PoolRun databaseSession
      (fun i => (insertData gson (some (connection i)) (data i)).run) db events remaining after)
    (finished : ∀ i, ∃ result, remaining i = .done result)
    (accepted : ∀ turn ∈ events, refused turn.2 = false) :
    ∃ rows : ι → Table → List Row,
      (∀ i, DescribesBody gson (data i) macAddress (rows i)) ∧
      (∀ table, ∃ (last : ι) (event : jdbc.Event) (earlier later : List (ι × jdbc.Event)),
        events = earlier ++ (last, event) :: later ∧
        executed event = some (.delete table macAddress) ∧
        (∀ turn ∈ later, executed turn.2 ≠ some (.delete table macAddress)) ∧
        after.rowsWithId table macAddress =
          (insertedTurns table macAddress later).map Prod.snd ∧
        projection last (insertedTurns table macAddress later) = rows last table ∧
        ∀ j, projection j (insertedTurns table macAddress later) <:+ rows j table) ∧
      ∀ last earlier later, events = earlier ++ later → (∀ turn ∈ earlier, turn.1 ≠ last) →
        (∀ turn ∈ later, turn.1 = last) →
        ∀ table, after.rowsWithId table macAddress = rows last table := by
  choose object sections read wellFormed using wellFormed
  choose result finished using finished
  have content : ∀ table, after.rowsWithId table macAddress =
      Edit.content (db.rowsWithId table macAddress)
        ((tableSchedule table macAddress events).map Prod.snd) := by
    intro table
    rw [map_snd_tableSchedule, ← onRows_foldl_eq_content, ← rowsWithId_replay,
      ← replay_of_poolRun run]
  have participants := fun i table =>
    projection_tableSchedule (read i) run (finished i) accepted table
  refine ⟨fun i table => insertedInto table (Plan.readable (plan gson (object i) macAddress)),
    ?_, ?_, ?_⟩
  · intro i
    exact ⟨object i, read i, describes_of_complete ((wellFormed i).plan_complete macAddress)⟩
  · intro table
    rcases Edit.content_of_interleaving (fun i => participants i table)
      (db.rowsWithId table macAddress) with
      ⟨first, last, rest, split, noClear, left, own, others⟩
    rcases exists_deletion_of_tableSchedule split with
      ⟨earlier, event, later, occurs, deletes, rfl⟩
    refine ⟨last, event, earlier, later, occurs, deletes, ?_, (content table).trans left, own,
      others⟩
    rintro ⟨j, event⟩ mem again
    exact noClear j (mem_tableSchedule_of_deletion mem again)
  · rintro last earlier later rfl before after table
    have participant := participants last table
    rw [content, tableSchedule_append]
    rw [tableSchedule_append] at participant
    apply Edit.content_of_last participant
    · intro step mem
      rcases exists_turn_of_tableSchedule mem with ⟨turn, mem, same⟩
      exact same ▸ before turn mem
    · intro step mem
      rcases exists_turn_of_tableSchedule mem with ⟨turn, mem, same⟩
      exact same ▸ after turn mem

end Requests

/-! ## Two requests which mix -/

def sampleRequests : Bool → Program jdbc (Except JavaException Double) :=
  fun _ => (insertData sampleGson (some 0) "").run

/-- Both requests delete before either of them inserts. -/
def sampleTurns : List Bool :=
  List.replicate 9 false ++ List.replicate 9 true ++
    (List.replicate 3 false ++ List.replicate 3 true)

def mixedEvents : List (Bool × jdbc.Event) :=
  Program.poolTranscript (answering (fun _ => false) 0) sampleTurns sampleRequests

theorem mixedEvents_run :
    PoolRun databaseSession sampleRequests sampleDatabase mixedEvents
      (Program.poolOutcome (answering (fun _ => false) 0) sampleTurns sampleRequests)
      (sampleDatabase.replay (executedEffects (mixedEvents.map Prod.snd))) := by
  have run := Program.poolRun_transcript
    (fun (db : Database) command answer => db.replay (executed ⟨command, answer⟩).toList)
    (answering (fun _ => false) 0) sampleTurns sampleRequests sampleDatabase
  have after := replay_of_poolRun run
  rwa [after] at run

theorem mixedEvents_finished (request : Bool) :
    ∃ result, Program.poolOutcome (answering (fun _ => false) 0) sampleTurns sampleRequests request =
      .done result := by
  cases request <;> exact ⟨.ok (.fin 7), rfl⟩

theorem mixedEvents_accepted : ∀ turn ∈ mixedEvents, refused turn.2 = false := by
  have accepted : (mixedEvents.all fun turn => !refused turn.2) = true := by decide +kernel
  simpa using accepted

theorem samplePost_wellFormed : WellFormedPost sampleGson (.fin 7) "" :=
  ⟨sampleMembers, sampleSections, rfl, sampleMembers_wellFormed⟩

/-- Two interleaved uploads can leave two `serverinfo` rows where each body has one. -/
theorem uploads_mix :
    ¬∀ (gson : Gson) (connection : Bool → ℕ) (data : Bool → String) (macAddress : Double)
      (db after : Database) (events : List (Bool × jdbc.Event))
      (remaining : Bool → Program jdbc (Except JavaException Double)),
      (∀ i, WellFormedPost gson macAddress (data i)) →
      PoolRun databaseSession (fun i => (insertData gson (some (connection i)) (data i)).run) db
        events remaining after →
      (∀ i, ∃ result, remaining i = .done result) →
      (∀ turn ∈ events, refused turn.2 = false) → Unmixed gson data macAddress after := by
  intro unmixed
  rcases unmixed sampleGson (fun _ => 0) (fun _ => "") (.fin 7) _ _ _ _
    (fun _ => samplePost_wellFormed) mixedEvents_run mixedEvents_finished mixedEvents_accepted with
    ⟨_, object, read, describes⟩
  cases read
  rcases describes.sections with ⟨sections, read, reads, _⟩
  cases read
  have two : ((sampleDatabase.replay (executedEffects (mixedEvents.map Prod.snd))).rowsWithId
      .serverinfo (.fin 7)).length = 2 := by
    decide +kernel
  have one := reads.length
  rw [two] at one
  simp [sampleSections] at one

theorem uploads_leave_last_deletion_mixedEvents :
    ∃ rows : Bool → Table → List Row,
      (∀ i, DescribesBody sampleGson "" (.fin 7) (rows i)) ∧
      ∀ table, ∃ (last : Bool) (event : jdbc.Event) (earlier later : List (Bool × jdbc.Event)),
        mixedEvents = earlier ++ (last, event) :: later ∧
        executed event = some (.delete table (.fin 7)) ∧
        (∀ turn ∈ later, executed turn.2 ≠ some (.delete table (.fin 7))) ∧
        (sampleDatabase.replay (executedEffects (mixedEvents.map Prod.snd))).rowsWithId table
          (.fin 7) = (insertedTurns table (.fin 7) later).map Prod.snd ∧
        projection last (insertedTurns table (.fin 7) later) = rows last table ∧
        ∀ j, projection j (insertedTurns table (.fin 7) later) <:+ rows j table := by
  rcases @uploads_leave_last_deletion Bool _ sampleGson (fun _ => 0) (fun _ => "") _ _ _ _ _ _
    (fun _ => samplePost_wellFormed) mixedEvents_run mixedEvents_finished mixedEvents_accepted with
    ⟨rows, described, kept, _⟩
  exact ⟨rows, described, kept⟩

end HumanMachine.Server
