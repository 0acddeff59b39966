import HumanMachine.Server.Description

/-!
# The rows of one machine

The rows with one id in one table evolve on their own: of a sequence of changes
they see the deletions for this id and the insertions of rows with this id. All
statements about the content of the tables go through this view
(`rowsWithId_replay`).
-/

namespace HumanMachine.Server

/-- What a change does to the rows with the given id in the given table. -/
def Effect.onRows (table : Table) (id : Double) (rows : List Row) : Effect → List Row
  | .delete target value => if target = table ∧ value = id then [] else rows
  | .insert target row => if target = table ∧ hasId id row then rows ++ [row] else rows

theorem hasId_unique {left right : Double} {row : Row} (hasLeft : hasId left row = true)
    (hasRight : hasId right row = true) : left = right := by
  simp only [hasId, decide_eq_true_eq] at hasLeft hasRight
  rw [hasLeft] at hasRight
  simpa using hasRight

theorem rowsWithId_apply (db : Database) (change : Effect) (table : Table) (id : Double) :
    (change.apply db).rowsWithId table id = change.onRows table id (db.rowsWithId table id) := by
  cases change with
  | delete target value =>
      by_cases sameTable : target = table
      · subst target
        by_cases sameId : value = id
        · subst value
          simp [Effect.apply, Effect.onRows, Database.rowsWithId, List.filter_filter]
        · have kept : ∀ row : Row, (hasId id row && !hasId value row) = hasId id row := by
            intro row
            cases has : hasId id row with
            | false => rfl
            | true =>
                cases other : hasId value row with
                | false => rfl
                | true => exact absurd (hasId_unique other has) sameId
          simp [Effect.apply, Effect.onRows, Database.rowsWithId, List.filter_filter, sameId, kept]
      · simp [Effect.apply, Effect.onRows, Database.rowsWithId, sameTable,
          Function.update_of_ne (Ne.symm sameTable)]
  | insert target row =>
      by_cases sameTable : target = table
      · subst target
        cases has : hasId id row <;>
          simp [Effect.apply, Effect.onRows, Database.rowsWithId, has]
      · simp [Effect.apply, Effect.onRows, Database.rowsWithId, sameTable,
          Function.update_of_ne (Ne.symm sameTable)]

theorem rowsWithId_replay (db : Database) (effects : List Effect) (table : Table) (id : Double) :
    (db.replay effects).rowsWithId table id =
      effects.foldl (Effect.onRows table id) (db.rowsWithId table id) := by
  induction effects generalizing db with
  | nil => rfl
  | cons change rest ih =>
      change ((change.apply db).replay rest).rowsWithId table id = _
      rw [ih, rowsWithId_apply]
      rfl

/-- The change concerns the rows of one machine only. -/
def Effect.OfMachine (macAddress : Double) : Effect → Prop
  | .delete _ id => id = macAddress
  | .insert _ row => hasId macAddress row = true

theorem onRows_foldl_of_ne {macAddress id : Double} (different : id ≠ macAddress)
    {effects : List Effect} (ofMachine : ∀ change ∈ effects, change.OfMachine macAddress)
    (table : Table) (rows : List Row) :
    effects.foldl (Effect.onRows table id) rows = rows := by
  induction effects generalizing rows with
  | nil => rfl
  | cons change rest ih =>
      have unchanged : change.onRows table id rows = rows := by
        have concerns := ofMachine change (by simp)
        cases change with
        | delete target value =>
            have other : value ≠ id := by
              rintro rfl
              exact different concerns
            simp [Effect.onRows, other]
        | insert target row =>
            have other : hasId id row ≠ true := fun has => different (hasId_unique has concerns)
            simp [Effect.onRows, other]
      rw [List.foldl_cons, unchanged]
      exact ih (fun later mem => ofMachine later (List.mem_cons_of_mem _ mem)) rows

/-! ## Insertions and deletions -/

/-- The rows which the insertions among some changes put into a table. -/
def insertedInto (table : Table) (effects : List Effect) : List Row :=
  effects.filterMap fun change =>
    match change with
    | .insert target row => if target = table then some row else none
    | .delete _ _ => none

def Effect.IsInsertion (macAddress : Double) (change : Effect) : Prop :=
  ∃ table values, change = insertion table macAddress values

theorem hasId_insertion (macAddress : Double) (values : Row) :
    hasId macAddress (("id", .double macAddress) :: values) = true := by
  simp [hasId]

theorem Effect.IsInsertion.ofMachine {macAddress : Double} {change : Effect}
    (inserts : change.IsInsertion macAddress) : change.OfMachine macAddress := by
  rcases inserts with ⟨table, values, rfl⟩
  exact hasId_insertion macAddress values

theorem onRows_foldl_insertions {macAddress : Double} {effects : List Effect}
    (inserts : ∀ change ∈ effects, change.IsInsertion macAddress) (table : Table)
    (rows : List Row) :
    effects.foldl (Effect.onRows table macAddress) rows = rows ++ insertedInto table effects := by
  induction effects generalizing rows with
  | nil => simp [insertedInto]
  | cons change rest ih =>
      have restInserts : ∀ later ∈ rest, later.IsInsertion macAddress :=
        fun later mem => inserts later (List.mem_cons_of_mem _ mem)
      rcases inserts change (by simp) with ⟨target, values, rfl⟩
      rw [List.foldl_cons, ih restInserts]
      by_cases same : target = table
      · simp [insertedInto, insertion, Effect.onRows, hasId_insertion, same]
      · simp [insertedInto, insertion, Effect.onRows, same]

theorem onRows_foldl_deletions {macAddress : Double} {deleted : List Effect}
    (sublist : deleted.Sublist (deletions macAddress)) (table : Table) (rows : List Row) :
    deleted.foldl (Effect.onRows table macAddress) rows =
      if .delete table macAddress ∈ deleted then [] else rows := by
  have deletes : ∀ change ∈ deleted, ∃ target, change = .delete target macAddress := by
    intro change mem
    have listed := sublist.subset mem
    simp only [deletions, List.mem_cons, List.not_mem_nil, or_false] at listed
    rcases listed with rfl | rfl | rfl <;> exact ⟨_, rfl⟩
  clear sublist
  induction deleted generalizing rows with
  | nil => simp
  | cons change rest ih =>
      have restDeletes : ∀ later ∈ rest, ∃ target, later = .delete target macAddress :=
        fun later mem => deletes later (List.mem_cons_of_mem _ mem)
      rcases deletes change (by simp) with ⟨target, rfl⟩
      rw [List.foldl_cons, ih _ restDeletes]
      by_cases same : target = table
      · simp [Effect.onRows, same]
      · simp [Effect.onRows, same, Ne.symm same]

theorem deletions_ofMachine {macAddress : Double} {deleted : List Effect}
    (sublist : deleted.Sublist (deletions macAddress)) :
    ∀ change ∈ deleted, change.OfMachine macAddress := by
  intro change mem
  have listed := sublist.subset mem
  simp only [deletions, List.mem_cons, List.not_mem_nil, or_false] at listed
  rcases listed with rfl | rfl | rfl <;> rfl

/-! ## The plan inserts rows of the machine -/

theorem isInsertion_of_mem_map {ι : Type} {table : Table} {macAddress : Double}
    {values : ι → Except JavaException Row} {indices : List ι} {change : Effect}
    (mem : .ok change ∈ indices.map fun i => insertion table macAddress <$> values i) :
    change.IsInsertion macAddress := by
  simp only [List.mem_map] at mem
  rcases mem with ⟨i, _, read⟩
  cases result : values i with
  | error exception => simp [result] at read
  | ok row =>
      simp only [result, Except.map_ok, Except.ok.injEq] at read
      exact ⟨table, row, read.symm⟩

theorem isInsertion_of_mem_plan {gson : Gson} {object : List (String × Json)}
    {macAddress : Double} {change : Effect} (mem : .ok change ∈ plan gson object macAddress) :
    change.IsInsertion macAddress := by
  unfold plan Plan.afterReading at mem
  split at mem
  · simp only [List.mem_append] at mem
    rcases mem with mem | mem | mem
    · exact isInsertion_of_mem_map mem
    · exact isInsertion_of_mem_map mem
    · unfold dockerinfoPlan Plan.afterReading at mem
      split at mem
      · split at mem
        · exact isInsertion_of_mem_map mem
        · simp at mem
      · simp at mem
  · simp at mem

/-! ## Described rows -/

/-- The rows are those of a machine with the values read under the indices. -/
def Reads (values : ℕ → Except JavaException Row) (indices : List ℕ) (macAddress : Double)
    (rows : List Row) : Prop :=
  ∃ contents, indices.mapM values = .ok contents ∧
    rows = contents.map (("id", .double macAddress) :: ·)

theorem Reads.length {values : ℕ → Except JavaException Row} {indices : List ℕ}
    {macAddress : Double} {rows : List Row} (reads : Reads values indices macAddress rows) :
    rows.length = indices.length := by
  rcases reads with ⟨contents, read, rfl⟩
  rw [List.length_map]
  induction indices generalizing contents with
  | nil =>
      cases read
      rfl
  | cons head tail ih =>
      rw [List.mapM_cons] at read
      cases headRead : values head with
      | error exception => simp [headRead, bind, Except.bind] at read
      | ok content =>
          cases tailRead : tail.mapM values with
          | error exception => simp [headRead, tailRead, bind, Except.bind] at read
          | ok rest =>
              simp only [headRead, tailRead, bind, Except.bind, pure, Except.pure,
                Except.ok.injEq] at read
              subst read
              simp [ih rest tailRead]

/-- The rows which a document describes for its machine, table by table. -/
structure Describes (gson : Gson) (object : List (String × Json)) (macAddress : Double)
    (rows : Table → List Row) : Prop where
  sections : ∃ sections, readSections object = .ok sections ∧
    Reads (serverinfoValues gson sections.diskArray sections.memoryArray sections.networkArray
      sections.locationArray sections.timestampArray)
      (List.range sections.memoryArray.length) macAddress (rows .serverinfo) ∧
    Reads (cpuinfoValues gson sections.cpuArray) (List.range sections.cpuArray.length) macAddress
      (rows .cpuinfo)
  docker : if Gson.has object "docker info" then
      ∃ dockerArray, readDockerArray object = .ok dockerArray ∧
        Reads (dockerinfoValues gson dockerArray) (List.range dockerArray.length) macAddress
          (rows .dockerinfo)
    else rows .dockerinfo = []

theorem readable_map_of_complete {table : Table} {macAddress : Double}
    {values : ℕ → Except JavaException Row} {indices : List ℕ}
    (complete : Plan.Complete (indices.map fun i => insertion table macAddress <$> values i)) :
    ∃ contents, indices.mapM values = .ok contents ∧
      Plan.readable (indices.map fun i => insertion table macAddress <$> values i) =
        contents.map (insertion table macAddress) := by
  induction indices with
  | nil => exact ⟨[], rfl, rfl⟩
  | cons head tail ih =>
      rw [List.map_cons, ← List.singleton_append, Plan.complete_append] at complete
      rcases ih complete.2 with ⟨contents, tailRead, tailPlan⟩
      cases headRead : values head with
      | error exception => simp [headRead, Plan.Complete] at complete
      | ok content =>
          refine ⟨content :: contents, ?_, ?_⟩
          · simp [headRead, tailRead, bind, Except.bind, pure, Except.pure]
          · simp [headRead, Plan.readable, tailPlan]

theorem insertedInto_append (table : Table) (first second : List Effect) :
    insertedInto table (first ++ second) = insertedInto table first ++ insertedInto table second := by
  simp [insertedInto]

theorem insertedInto_map_insertion (table target : Table) (macAddress : Double)
    (contents : List Row) :
    insertedInto table (contents.map (insertion target macAddress)) =
      if target = table then contents.map (("id", .double macAddress) :: ·) else [] := by
  by_cases same : target = table
  · simp [insertedInto, insertion, same, List.filterMap_map, Function.comp_def]
  · simp [insertedInto, insertion, same, List.filterMap_map, Function.comp_def]

/-- When every row can be read, the insertions of the plan put the described rows
into the tables. -/
theorem describes_of_complete {gson : Gson} {object : List (String × Json)} {macAddress : Double}
    (complete : Plan.Complete (plan gson object macAddress)) :
    Describes gson object macAddress
      fun table => insertedInto table (Plan.readable (plan gson object macAddress)) := by
  cases read : readSections object with
  | error exception => simp [plan, read, Plan.afterReading, Plan.Complete] at complete
  | ok sections =>
      simp only [plan, read, Plan.afterReading] at complete ⊢
      rcases Plan.complete_append.mp complete with ⟨serverComplete, restComplete⟩
      rcases Plan.complete_append.mp restComplete with ⟨cpuComplete, dockerComplete⟩
      rcases readable_map_of_complete serverComplete with ⟨server, serverRead, serverPlan⟩
      rcases readable_map_of_complete cpuComplete with ⟨cpu, cpuRead, cpuPlan⟩
      simp only [Plan.readable_append_of_complete serverComplete,
        Plan.readable_append_of_complete cpuComplete]
      change Plan.readable (serverinfoPlan gson macAddress sections) = _ at serverPlan
      change Plan.readable (cpuinfoPlan gson macAddress sections.cpuArray) = _ at cpuPlan
      simp only [insertedInto_append, serverPlan, cpuPlan, insertedInto_map_insertion]
      by_cases present : Gson.has object "docker info" = true
      · cases dockerRead : readDockerArray object with
        | error exception =>
            simp [dockerinfoPlan, present, dockerRead, Plan.afterReading, Plan.Complete]
              at dockerComplete
        | ok dockerArray =>
            simp only [dockerinfoPlan, present, dockerRead, Plan.afterReading, if_true]
              at dockerComplete ⊢
            rcases readable_map_of_complete dockerComplete with ⟨docker, dockerRows, dockerPlan⟩
            simp only [dockerPlan, insertedInto_map_insertion]
            constructor
            · exact ⟨sections, read, ⟨server, serverRead, by simp⟩, ⟨cpu, cpuRead, by simp⟩⟩
            · rw [if_pos present]
              exact ⟨dockerArray, dockerRead, docker, dockerRows, by simp⟩
      · simp only [dockerinfoPlan, present, Bool.false_eq_true, if_false, Plan.readable]
        constructor
        · exact ⟨sections, read, ⟨server, serverRead, by simp [insertedInto]⟩,
            ⟨cpu, cpuRead, by simp [insertedInto]⟩⟩
        · rw [if_neg present]
          simp [insertedInto]

end HumanMachine.Server
