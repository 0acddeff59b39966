import HumanMachine.Server.Database

/-!
# Replacing the rows of a machine

What a call of `insertData` leaves in the database, for every body and every
pattern of failing statements.
-/

namespace HumanMachine.Server

open Program (Ensures Run Follows)

/-- The exceptions for which `insertData` has a catch clause. -/
def JavaException.Caught : JavaException → Prop
  | .jsonIo | .jsonSyntax | .sql => True
  | _ => False

section Specification

variable {gson : Gson} {data : String} {object : List (String × Json)} {macAddress : Double}
  {connection : ℕ}

theorem returningMacId_ensures {σ : Type} {env : Environment jdbc σ} {body : Java Double}
    {ok : Double → σ → Prop} {thrown : JavaException → σ → Prop} {state : σ}
    (holds : Ensures env body ok
      (fun exception after =>
        (exception.Caught → ok macAddress after) ∧ (¬exception.Caught → thrown exception after))
      state) :
    Ensures env (returningMacId macAddress body) ok thrown state := by
  apply Program.ensures_tryCatch
  apply holds.mono (fun _ _ held => held)
  rintro exception after ⟨caught, uncaught⟩
  cases exception <;>
    first
      | exact caught trivial
      | exact uncaught id

/-- The changes of a call: some of the deletions, then an initial segment of the
insertions the document asks for; without a refusal, all of them. -/
def Replaces (plan : List (Except JavaException Effect)) (macAddress : Double)
    (log after : Log Effect) : Prop :=
  ∃ deleted inserted, deleted.Sublist (deletions macAddress) ∧ inserted <+: Plan.readable plan ∧
    after.effects = log.effects ++ (deleted ++ inserted) ∧
    (after.failed = true ∨ deleted = deletions macAddress ∧ inserted = Plan.readable plan)

/-- What a call which returns leaves: without a refusal, it either was through with
the plan or ran into an exception it catches. -/
def Returns (plan : List (Except JavaException Effect)) (macAddress : Double)
    (log : Log Effect) (value : Double) (after : Log Effect) : Prop :=
  Replaces plan macAddress log after ∧ value = macAddress ∧
    (after.failed = true ∨ Plan.Complete plan ∨
      ∃ exception, exception.Caught ∧ .error exception ∈ plan)

/-- What a call which ends with an exception leaves. -/
def Throws (plan : List (Except JavaException Effect)) (macAddress : Double)
    (log : Log Effect) (exception : JavaException) (after : Log Effect) : Prop :=
  Replaces plan macAddress log after ∧ ¬exception.Caught ∧
    (after.failed = true ∨ .error exception ∈ plan)

theorem replaceRows_ensures (log : Log Effect) :
    Ensures (Program.logging executed refused)
      (do
        deleteRows (some connection) macAddress
        insertRows gson (some connection) object macAddress)
      (fun _ after => Replaces (plan gson object macAddress) macAddress log after ∧
        Plan.Complete (plan gson object macAddress))
      (fun exception after => Replaces (plan gson object macAddress) macAddress log after ∧
        (after.failed = true ∨ .error exception ∈ plan gson object macAddress))
      log := by
  apply Program.ensures_bind
  apply (deleteRows_attempts log).mono
  · rintro _ middle ⟨deleted, sublist, deletedEffects, deletedAll⟩
    apply (insertRows_performs middle).mono
    · rintro _ after ⟨complete, rfl⟩
      refine ⟨⟨deleted, _, sublist, List.prefix_rfl, ?_, ?_⟩, complete⟩
      · rw [deletedEffects, List.append_assoc]
      · rcases deletedAll with failed | ⟨all, _⟩
        · exact Or.inl failed
        · exact Or.inr ⟨all, rfl⟩
    · rintro exception after ⟨inserted, insertedPrefix, effects, reason⟩
      refine ⟨⟨deleted, inserted, sublist, insertedPrefix, ?_, ?_⟩, ?_⟩
      · rw [effects, deletedEffects, List.append_assoc]
      · rcases reason with failed | ⟨_, insertedAll, same⟩
        · exact Or.inl failed
        · rcases deletedAll with failed | ⟨all, _⟩
          · exact Or.inl (same.trans failed)
          · exact Or.inr ⟨all, insertedAll⟩
      · exact reason.imp_right And.left
  · exact fun _ _ impossible => impossible.elim

theorem insertData_ensures (read : readBody gson data = .ok (object, macAddress))
    (log : Log Effect) :
    Ensures (Program.logging executed refused) (insertData gson (some connection) data)
      (Returns (plan gson object macAddress) macAddress log)
      (Throws (plan gson object macAddress) macAddress log) log := by
  have inner : Ensures (Program.logging executed refused)
      (returningMacId macAddress do
        deleteRows (some connection) macAddress
        insertRows gson (some connection) object macAddress
        return macAddress)
      (Returns (plan gson object macAddress) macAddress log)
      (Throws (plan gson object macAddress) macAddress log) log := by
    apply returningMacId_ensures
    rw [← bind_assoc]
    apply Program.ensures_bind
    apply (replaceRows_ensures log).mono
    · rintro _ after ⟨replaces, complete⟩
      exact ⟨replaces, rfl, Or.inr (Or.inl complete)⟩
    · rintro exception after ⟨replaces, reason⟩
      constructor
      · intro caught
        exact ⟨replaces, rfl, reason.imp_right fun mem => Or.inr ⟨exception, caught, mem⟩⟩
      · intro uncaught
        exact ⟨replaces, uncaught, reason⟩
  unfold insertData
  rw [read]
  apply returningMacId_ensures
  apply inner.mono (fun _ _ held => held)
  rintro exception after ⟨replaces, uncaught, reason⟩
  exact ⟨fun caught => absurd caught uncaught, fun _ => ⟨replaces, uncaught, reason⟩⟩

/-- Without a readable id no statement is issued. -/
theorem insertData_ensures_of_unread {con : Option ℕ} {exception : JavaException}
    (unread : readBody gson data = .error exception) (log : Log Effect) :
    Ensures (Program.logging executed refused) (insertData gson con data)
      (fun _ after => after = log) (fun _ after => after = log) log := by
  unfold insertData
  rw [unread]
  apply returningMacId_ensures
  apply Program.ensures_throw
  exact ⟨fun _ => rfl, fun _ => rfl⟩

/-- Over a null connection the first deletion ends the call. -/
theorem insertData_ensures_of_null (read : readBody gson data = .ok (object, macAddress))
    (log : Log Effect) :
    Ensures (Program.logging executed refused) (insertData gson none data)
      (fun _ _ => False) (fun _ after => after = log) log := by
  unfold insertData
  rw [read]
  rfl

end Specification

/-! ## The content of the tables -/

section Tables

variable {gson : Gson} {con : Option ℕ} {data : String} {db after : Database}
  {events : List jdbc.Event} {result : Except JavaException Double}

theorem run_logging_of_follows {α : Type} {program remaining : Program jdbc α}
    (follows : Follows program events remaining) :
    Run (Program.logging executed refused) program ⟨[], false⟩ events remaining
      ⟨executedEffects events, events.any refused⟩ := by
  have run : Run (Program.logging executed refused) program ⟨[], false⟩ events remaining _ :=
    follows.run_logging ⟨[], false⟩
  simpa [executedEffects] using run

/-- The changes of a complete call, for every way in which it ended. -/
theorem insertData_changes {object : List (String × Json)} {macAddress : Double}
    (follows : Follows (insertData gson con data).run events (.done result))
    (read : readBody gson data = .ok (object, macAddress)) :
    ∃ deleted inserted, deleted.Sublist (deletions macAddress) ∧
      inserted <+: Plan.readable (plan gson object macAddress) ∧
      executedEffects events = deleted ++ inserted ∧
      (con.isSome → events.any refused = false →
        deleted = deletions macAddress ∧
          inserted = Plan.readable (plan gson object macAddress)) := by
  have run := run_logging_of_follows follows
  cases con with
  | none =>
      have unchanged := (insertData_ensures_of_null read ⟨[], false⟩).result run
      cases result with
      | ok value => exact unchanged.elim
      | error exception =>
          refine ⟨[], [], by simp, List.nil_prefix, ?_, by simp⟩
          simpa using congrArg Log.effects unchanged
  | some connection =>
      have ends := (insertData_ensures read ⟨[], false⟩).result run
      have replaces : Replaces (plan gson object macAddress) macAddress ⟨[], false⟩
          ⟨executedEffects events, events.any refused⟩ := by
        cases result with
        | ok value => exact ends.1
        | error exception => exact ends.1
      rcases replaces with ⟨deleted, inserted, sublist, insertedPrefix, effects, all⟩
      refine ⟨deleted, inserted, sublist, insertedPrefix, ?_, ?_⟩
      · simpa using effects
      · intro _ accepted
        simpa [accepted] using all

/-- The machine's rows, table by table: the old ones unless their deletion took
effect, then the inserted ones. -/
theorem rowsWithId_replay_changes {macAddress : Double} {deleted inserted : List Effect}
    (sublist : deleted.Sublist (deletions macAddress))
    (inserts : ∀ change ∈ inserted, change.IsInsertion macAddress) (table : Table) :
    (db.replay (deleted ++ inserted)).rowsWithId table macAddress =
      (if .delete table macAddress ∈ deleted then [] else db.rowsWithId table macAddress) ++
        insertedInto table inserted := by
  rw [rowsWithId_replay, List.foldl_append, onRows_foldl_deletions sublist,
    onRows_foldl_insertions inserts]

theorem isInsertion_of_prefix_plan {object : List (String × Json)} {macAddress : Double}
    {inserted : List Effect} (isPrefix : inserted <+: Plan.readable (plan gson object macAddress)) :
    ∀ change ∈ inserted, change.IsInsertion macAddress := by
  intro change mem
  exact isInsertion_of_mem_plan (Plan.mem_of_mem_readable (isPrefix.subset mem))

theorem insertData_unchanged_of_unread {exception : JavaException}
    (unread : readBody gson data = .error exception)
    (run : Run databaseSession (insertData gson con data).run db events (.done result) after) :
    after = db := by
  have unchanged := (insertData_ensures_of_unread unread ⟨[], false⟩).result
    (run_logging_of_follows run.follows)
  have noEffects : executedEffects events = [] := by
    cases result <;> exact congrArg Log.effects unchanged
  rw [replay_of_run run, noEffects, Database.replay_nil]

section Read

variable {object : List (String × Json)} {macAddress : Double}

theorem insertData_rows_of_ne (read : readBody gson data = .ok (object, macAddress))
    (run : Run databaseSession (insertData gson con data).run db events (.done result) after)
    (table : Table) {id : Double} (different : id ≠ macAddress) :
    after.rowsWithId table id = db.rowsWithId table id := by
  rcases insertData_changes run.follows read with
    ⟨deleted, inserted, sublist, isPrefix, effects, _⟩
  rw [replay_of_run run, effects, rowsWithId_replay]
  apply onRows_foldl_of_ne different
  intro change mem
  rcases List.mem_append.mp mem with mem | mem
  · exact deletions_ofMachine sublist change mem
  · exact (isInsertion_of_prefix_plan isPrefix change mem).ofMachine

theorem insertData_rows (read : readBody gson data = .ok (object, macAddress))
    (run : Run databaseSession (insertData gson con data).run db events (.done result) after) :
    ∃ deleted inserted : List Effect, deleted.Sublist (deletions macAddress) ∧
      inserted <+: Plan.readable (plan gson object macAddress) ∧
      executedEffects events = deleted ++ inserted ∧
      ∀ table, after.rowsWithId table macAddress =
        (if .delete table macAddress ∈ deleted then [] else db.rowsWithId table macAddress) ++
          insertedInto table inserted := by
  rcases insertData_changes run.follows read with
    ⟨deleted, inserted, sublist, isPrefix, effects, _⟩
  refine ⟨deleted, inserted, sublist, isPrefix, effects, ?_⟩
  intro table
  rw [replay_of_run run, effects]
  exact rowsWithId_replay_changes sublist (isInsertion_of_prefix_plan isPrefix) table

theorem insertData_rows_of_accepted (read : readBody gson data = .ok (object, macAddress))
    (run : Run databaseSession (insertData gson con data).run db events (.done result) after)
    (connected : con.isSome) (accepted : events.any refused = false) (table : Table) :
    after.rowsWithId table macAddress =
      insertedInto table (Plan.readable (plan gson object macAddress)) := by
  rcases insertData_changes run.follows read with
    ⟨deleted, inserted, sublist, isPrefix, effects, all⟩
  rcases all connected accepted with ⟨rfl, rfl⟩
  rw [replay_of_run run, effects,
    rowsWithId_replay_changes sublist (isInsertion_of_prefix_plan isPrefix)]
  cases table <;> simp [deletions]

end Read

/-- The machine's rows are the old ones, or exactly those which the body describes. -/
def AllOrNothing (gson : Gson) (data : String) (db after : Database) : Prop :=
  ∀ object macAddress, readBody gson data = .ok (object, macAddress) →
    (∀ table, after.rowsWithId table macAddress = db.rowsWithId table macAddress) ∨
      Describes gson object macAddress fun table => after.rowsWithId table macAddress

/-- Whatever fails, a call changes the rows of its machine only. It executes some of the
deletions, then an initial segment of the insertions, and leaves in each table the old rows,
unless their deletion was executed, followed by what was inserted. When no statement fails, all
old rows are gone and all rows which can be read are there; when all can be read, these are the
rows which the body describes. -/
theorem insertData_replaces
    (run : Run databaseSession (insertData gson con data).run db events (.done result) after) :
    (∀ exception, readBody gson data = .error exception → after = db) ∧
    ∀ object macAddress, readBody gson data = .ok (object, macAddress) →
      (∀ table id, id ≠ macAddress → after.rowsWithId table id = db.rowsWithId table id) ∧
      (∃ deleted inserted : List Effect, deleted.Sublist (deletions macAddress) ∧
        inserted <+: Plan.readable (plan gson object macAddress) ∧
        executedEffects events = deleted ++ inserted ∧
        ∀ table, after.rowsWithId table macAddress =
          (if .delete table macAddress ∈ deleted then [] else db.rowsWithId table macAddress) ++
            insertedInto table inserted) ∧
      (con.isSome → events.any refused = false →
        (∀ table, after.rowsWithId table macAddress =
          insertedInto table (Plan.readable (plan gson object macAddress))) ∧
        (Plan.Complete (plan gson object macAddress) →
          Describes gson object macAddress fun table => after.rowsWithId table macAddress)) := by
  refine ⟨fun _ unread => insertData_unchanged_of_unread unread run, ?_⟩
  intro object macAddress read
  refine ⟨fun table id => insertData_rows_of_ne read run table, insertData_rows read run, ?_⟩
  intro connected accepted
  have rows := insertData_rows_of_accepted read run connected accepted
  refine ⟨rows, ?_⟩
  intro complete
  simpa only [rows] using describes_of_complete complete

end Tables

/-! ## A call which stops in between -/

/-- A library which finds one document in every body. -/
def constantGson (document : Json) : Gson where
  parse := fun _ => .ok document
  doubleOfString := fun _ => none
  intOfString := fun _ => none
  intOfNumber := fun _ => 0
  stringOfNumber := fun _ => ""

/-- The arrays of a document with one `serverinfo` row and no others. -/
def sampleSections : Sections where
  cpuArray := []
  memoryArray := [.obj [("total", .num (.fin 4)), ("available", .num (.fin 1)),
    ("used", .num (.fin 3))]]
  diskArray := [.obj [("total", .num (.fin 8)), ("available", .num (.fin 2)),
    ("used", .num (.fin 6))]]
  networkArray := [.obj [("download rate", .num (.fin 5)), ("upload rate", .num (.fin 9))]]
  locationArray := [.obj [("address", .str "lab")]]
  timestampArray := [.obj [("time", .str "noon")]]

/-- The members of the document, for machine 7. -/
def sampleMembers : List (String × Json) :=
  [("mac address info", .arr [.obj [("id", .num (.fin 7))]]),
    ("cpu info", .arr sampleSections.cpuArray),
    ("memory info", .arr sampleSections.memoryArray),
    ("disk info", .arr sampleSections.diskArray),
    ("network info", .arr sampleSections.networkArray),
    ("location info", .arr sampleSections.locationArray),
    ("timestamp info", .arr sampleSections.timestampArray)]

def sampleGson : Gson := constantGson (.obj sampleMembers)

/-- A database with one row of machine 7. -/
def sampleDatabase : Database
  | .serverinfo => [[("id", .double (.fin 7))]]
  | _ => []

/-- The call with the sample body whose 10th command, the preparation of the first
insertion, fails. -/
def interruptedCall : List jdbc.Event :=
  Program.transcript (answering (· == 9)) 0
    (insertData sampleGson (some 0) "").run

theorem interruptedCall_follows :
    Follows (insertData sampleGson (some 0) "").run interruptedCall
      (.done (.ok (.fin 7))) :=
  Program.follows_transcript (by decide +kernel)

/-- What the interrupted call leaves: the row is gone, and no row came in its place. -/
theorem interruptedCall_leaves :
    (sampleDatabase.replay (executedEffects interruptedCall)).rowsWithId .serverinfo (.fin 7) = [] := by
  decide +kernel

/-- After a failing insertion the rows of the machine are gone. -/
theorem insertData_not_allOrNothing :
    ¬∀ (gson : Gson) (con : Option ℕ) (data : String) (db : Database) (events : List jdbc.Event)
      (result : Except JavaException Double) (after : Database),
      Run databaseSession (insertData gson con data).run db events (.done result) after →
        AllOrNothing gson data db after := by
  intro allOrNothing
  have outcome := allOrNothing sampleGson (some 0) "" sampleDatabase _ _ _
    (run_of_follows interruptedCall_follows sampleDatabase) _ (.fin 7) rfl
  rcases outcome with unchanged | replaced
  · have old := (unchanged .serverinfo).symm.trans interruptedCall_leaves
    simp [sampleDatabase, Database.rowsWithId, hasId] at old
  · rcases replaced.sections with ⟨sections, read, ⟨contents, contentsRead, rows⟩, _⟩
    rw [interruptedCall_leaves] at rows
    have none : contents = [] := List.map_eq_nil_iff.mp rows.symm
    subst none
    cases read
    revert contentsRead
    decide +kernel

/-- The interrupted call is a call to which `insertData_replaces` applies. -/
theorem insertData_replaces_interruptedCall :
    ∃ deleted inserted : List Effect, deleted.Sublist (deletions (.fin 7)) ∧
      inserted <+: Plan.readable (plan sampleGson sampleMembers (.fin 7)) ∧
      executedEffects interruptedCall = deleted ++ inserted ∧
      ∀ table, (sampleDatabase.replay (executedEffects interruptedCall)).rowsWithId table (.fin 7) =
        (if .delete table (.fin 7) ∈ deleted then []
          else sampleDatabase.rowsWithId table (.fin 7)) ++ insertedInto table inserted :=
  ((insertData_replaces (run_of_follows interruptedCall_follows sampleDatabase)).2 _ (.fin 7)
    rfl).2.1

end HumanMachine.Server
