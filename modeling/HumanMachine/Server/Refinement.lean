import Mathlib.Data.List.Forall2
import HumanMachine.Server.Replacement
import HumanMachine.Server.WellFormed

/-!
# The tables hold each machine's last snapshot

What the three tables are for: they map every machine to its last snapshot. A
successful call of `insertData` is an update of this map at the machine which
posted (`insertData_refines`), so that a sequence of calls leaves for every
machine the rows of its last body.
-/

namespace HumanMachine.Server

open Program (Run)

/-- The rows known of every machine. -/
abbrev Fleet : Type := Double → Table → List Row

/-- The fleet which a database stands for. -/
def Database.fleet (db : Database) : Fleet := fun id table => db.rowsWithId table id

/-- A machine's snapshot takes the place of what was known of it. -/
def Fleet.record (fleet : Fleet) (macAddress : Double) (rows : Table → List Row) : Fleet :=
  Function.update fleet macAddress rows

/-- The body is posted by the machine. -/
def Posts (gson : Gson) (macAddress : Double) (data : String) : Prop :=
  ∃ object, readBody gson data = .ok (object, macAddress)

/-- The rows which a well-formed body describes. -/
def DescribesBody (gson : Gson) (data : String) (macAddress : Double)
    (rows : Table → List Row) : Prop :=
  ∃ object, readBody gson data = .ok (object, macAddress) ∧ Describes gson object macAddress rows

def WellFormedBody (gson : Gson) (data : String) : Prop :=
  ∃ object macAddress sections, readBody gson data = .ok (object, macAddress) ∧
    WellFormed gson object sections

variable {gson : Gson} {connection : ℕ} {db after : Database} {events : List jdbc.Event}

/-- A successful call on a well-formed body records what the body describes. -/
theorem insertData_refines {data : String} {result : Except JavaException Double}
    (wellFormed : WellFormedBody gson data)
    (run : Run databaseSession (insertData gson (some connection) data).run db events
      (.done result) after)
    (accepted : events.any refused = false) :
    ∃ macAddress rows, DescribesBody gson data macAddress rows ∧
      after.fleet = db.fleet.record macAddress rows := by
  rcases wellFormed with ⟨object, macAddress, sections, read, wellFormed⟩
  refine ⟨macAddress, _, ⟨object, read,
    describes_of_complete (wellFormed.plan_complete macAddress)⟩, ?_⟩
  funext id table
  by_cases same : id = macAddress
  · subst id
    rw [Fleet.record, Function.update_self]
    exact insertData_rows_of_accepted read run rfl accepted table
  · rw [Fleet.record, Function.update_of_ne same]
    exact insertData_rows_of_ne read run table same

/-- The bodies are processed one after the other. -/
def serveAll (gson : Gson) (con : Option ℕ) (bodies : List String) :
    Program jdbc (List (Except JavaException Double)) :=
  bodies.mapM fun data => (insertData gson con data).run

theorem run_serveAll_cons {data : String} {bodies : List String}
    {results : List (Except JavaException Double)}
    (run : Run databaseSession (serveAll gson (some connection) (data :: bodies)) db events
      (.done results) after) :
    ∃ first second result rest middle, events = first ++ second ∧
      Run databaseSession (insertData gson (some connection) data).run db first
        (.done result) middle ∧
      Run databaseSession (serveAll gson (some connection) bodies) middle second
        (.done rest) after := by
  rw [serveAll, List.mapM_cons] at run
  rcases run.of_bind_done with ⟨first, second, result, middle, split, head, tail⟩
  rcases tail.of_bind_done with ⟨second', third, rest, last, split', middleRun, lastRun⟩
  cases lastRun with
  | refl =>
      rw [List.append_nil] at split'
      subst split'
      exact ⟨first, second, result, rest, middle, split, head, middleRun⟩

/-- After a sequence of successful calls the fleet is the old one with the
snapshots of the bodies recorded in their order. -/
theorem serveAll_refines {bodies : List String} {results : List (Except JavaException Double)}
    (wellFormed : ∀ data ∈ bodies, WellFormedBody gson data)
    (run : Run databaseSession (serveAll gson (some connection) bodies) db events
      (.done results) after)
    (accepted : events.any refused = false) :
    ∃ posts : List (Double × (Table → List Row)),
      List.Forall₂ (fun data post => DescribesBody gson data post.1 post.2) bodies posts ∧
      after.fleet = posts.foldl (fun fleet post => fleet.record post.1 post.2) db.fleet := by
  induction bodies generalizing db events results with
  | nil =>
      cases run with
      | refl => exact ⟨[], .nil, rfl⟩
  | cons data bodies ih =>
      rcases run_serveAll_cons run with
        ⟨first, second, result, rest, middle, rfl, head, tail⟩
      rw [List.any_append, Bool.or_eq_false_iff] at accepted
      rcases insertData_refines (wellFormed data List.mem_cons_self) head accepted.1 with
        ⟨macAddress, rows, describes, recorded⟩
      rcases ih (fun data mem => wellFormed data (List.mem_cons_of_mem _ mem)) tail accepted.2 with
        ⟨posts, described, final⟩
      refine ⟨(macAddress, rows) :: posts, .cons describes described, ?_⟩
      rw [final, recorded]
      rfl

theorem run_serveAll_append {earlier later : List String}
    {results : List (Except JavaException Double)}
    (run : Run databaseSession (serveAll gson (some connection) (earlier ++ later)) db events
      (.done results) after) :
    ∃ first second firstResults secondResults middle, events = first ++ second ∧
      Run databaseSession (serveAll gson (some connection) earlier) db first
        (.done firstResults) middle ∧
      Run databaseSession (serveAll gson (some connection) later) middle second
        (.done secondResults) after := by
  induction earlier generalizing db events results with
  | nil => exact ⟨[], events, [], results, db, rfl, .refl _ _, run⟩
  | cons data earlier ih =>
      rcases run_serveAll_cons run with ⟨head, rest, result, restResults, middle, rfl, headRun, tail⟩
      rcases ih tail with ⟨first, second, firstResults, secondResults, last, rfl, firstRun, secondRun⟩
      refine ⟨head ++ first, second, result :: firstResults, secondResults, last, by simp, ?_,
        secondRun⟩
      rw [serveAll, List.mapM_cons]
      apply headRun.bind
      rw [← List.append_nil first]
      apply firstRun.bind
      exact .refl _ _

theorem foldl_record_of_ne {posts : List (Double × (Table → List Row))} {id : Double}
    (others : ∀ post ∈ posts, id ≠ post.1) (fleet : Fleet) :
    posts.foldl (fun fleet post => fleet.record post.1 post.2) fleet id = fleet id := by
  induction posts generalizing fleet with
  | nil => rfl
  | cons post posts ih =>
      rw [List.foldl_cons, ih fun later mem => others later (List.mem_cons_of_mem _ mem)]
      exact Function.update_of_ne (others post List.mem_cons_self) _ _

/-- The rows of a machine which posts nothing stay as they are. -/
theorem serveAll_fleet_of_not_posts {bodies : List String}
    {results : List (Except JavaException Double)}
    (wellFormed : ∀ data ∈ bodies, WellFormedBody gson data)
    (run : Run databaseSession (serveAll gson (some connection) bodies) db events
      (.done results) after)
    (accepted : events.any refused = false) {id : Double}
    (silent : ∀ data ∈ bodies, ¬Posts gson id data) : after.fleet id = db.fleet id := by
  rcases serveAll_refines wellFormed run accepted with ⟨posts, described, final⟩
  rw [final]
  apply foldl_record_of_ne
  intro post mem same
  rcases List.forall₂_iff_get.mp described with ⟨sameLength, pairs⟩
  rcases List.mem_iff_get.mp mem with ⟨i, rfl⟩
  have inRange : i.1 < bodies.length := by
    rw [sameLength]
    exact i.isLt
  rcases pairs i.1 inRange i.isLt with ⟨object, read, _⟩
  apply silent _ (List.get_mem bodies ⟨i.1, inRange⟩)
  exact ⟨object, by rw [same]; exact read⟩

/-- After any sequence of successful calls on well-formed bodies, a machine which
posted has exactly the rows described by its last body, and every other machine
has its old rows. -/
theorem serveAll_holds_last_snapshot {bodies : List String}
    {results : List (Except JavaException Double)}
    (wellFormed : ∀ data ∈ bodies, WellFormedBody gson data)
    (run : Run databaseSession (serveAll gson (some connection) bodies) db events
      (.done results) after)
    (accepted : events.any refused = false) (id : Double) :
    (∀ earlier data later, bodies = earlier ++ data :: later → Posts gson id data →
      (∀ other ∈ later, ¬Posts gson id other) →
        DescribesBody gson data id fun table => after.rowsWithId table id) ∧
    ((∀ data ∈ bodies, ¬Posts gson id data) →
      ∀ table, after.rowsWithId table id = db.rowsWithId table id) := by
  constructor
  · rintro earlier data later rfl ⟨object, posted⟩ last
    rcases run_serveAll_append run with ⟨first, rest, _, _, middle, rfl, _, restRun⟩
    rcases run_serveAll_cons restRun with
      ⟨second, third, result, _, posting, rfl, dataRun, laterRun⟩
    simp only [List.any_append, Bool.or_eq_false_iff] at accepted
    rcases insertData_refines (wellFormed data (by simp)) dataRun accepted.2.1 with
      ⟨macAddress, rows, ⟨members, read, describes⟩, recorded⟩
    obtain ⟨rfl, rfl⟩ : object = members ∧ id = macAddress := by
      simpa [posted] using read
    have later_wellFormed : ∀ data ∈ later, WellFormedBody gson data :=
      fun data mem => wellFormed data (by simp [mem])
    have kept := serveAll_fleet_of_not_posts later_wellFormed laterRun accepted.2.2 last
    rw [recorded, Fleet.record, Function.update_self] at kept
    refine ⟨object, posted, ?_⟩
    change Describes gson object id (after.fleet id)
    rw [kept]
    exact describes
  · intro silent table
    exact congrFun (serveAll_fleet_of_not_posts wellFormed run accepted silent) table

theorem sampleMembers_wellFormed : WellFormed sampleGson sampleMembers sampleSections := by
  constructor
  case read => rfl
  all_goals
    simp [HasFields, Gson.getAsJsonObject, Gson.get, Gson.has, sampleMembers, sampleSections,
      List.lookup_cons]

/-- The exchanges of two successful calls with the sample body. -/
def repeatedCalls : List jdbc.Event :=
  Program.transcript (answering fun _ => false) 0 (serveAll sampleGson (some 0) ["", ""])

theorem repeatedCalls_hold_sample :
    DescribesBody sampleGson "" (.fin 7) fun table =>
      (sampleDatabase.replay (executedEffects repeatedCalls)).rowsWithId table (.fin 7) := by
  have follows : Program.Follows (serveAll sampleGson (some 0) ["", ""]) repeatedCalls
      (.done [.ok (.fin 7), .ok (.fin 7)]) :=
    Program.follows_transcript (by decide +kernel)
  have wellFormed : ∀ data ∈ ["", ""], WellFormedBody sampleGson data := by
    simpa using ⟨sampleMembers, .fin 7, sampleSections, rfl, sampleMembers_wellFormed⟩
  exact (serveAll_holds_last_snapshot wellFormed (run_of_follows follows sampleDatabase)
    (by decide +kernel) (.fin 7)).1 [""] "" [] rfl ⟨sampleMembers, rfl⟩ (by simp)

end HumanMachine.Server
