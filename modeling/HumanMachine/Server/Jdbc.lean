import HumanMachine.Program.Basic
import HumanMachine.Server.Gson

/-!
# The database connection

The commands which the server sends through JDBC, the three tables of the
database and what an executed statement does to them. The connection is in
auto-commit mode: an `executeUpdate` takes effect by itself, and one which throws
`SQLException` has none.

A prepared statement collects its parameters on the client side, so that binding
them is not a command. A value the driver refuses to bind shows as the failure of
the statement.
-/

namespace HumanMachine.Server

inductive Table where
  | serverinfo
  | cpuinfo
  | dockerinfo
  deriving DecidableEq

inductive SqlValue where
  | double (value : Double)
  | int (value : ℤ)
  | string (value : String)
  deriving DecidableEq

/-- A row, as its values under the names of the columns. -/
abbrev Row : Type := List (String × SqlValue)

/-- The texts of the statements: `delete from t where id = d` and
`insert into t (columns) values(?,...)`. -/
inductive Sql where
  | delete (table : Table) (id : Double)
  | insert (table : Table) (columns : List String)

structure PreparedStatement where
  handle : ℕ
  sql : Sql
  parameters : List (ℕ × SqlValue)

inductive Effect where
  | delete (table : Table) (id : Double)
  | insert (table : Table) (row : Row)
  deriving DecidableEq

namespace PreparedStatement

def setDouble (statement : PreparedStatement) (index : ℕ) (value : Double) : PreparedStatement :=
  { statement with parameters := (index, .double value) :: statement.parameters }

def setInt (statement : PreparedStatement) (index : ℕ) (value : ℤ) : PreparedStatement :=
  { statement with parameters := (index, .int value) :: statement.parameters }

def setString (statement : PreparedStatement) (index : ℕ) (value : String) : PreparedStatement :=
  { statement with parameters := (index, .string value) :: statement.parameters }

/-- What the statement does when it is executed: the `k`-th column takes the
value bound to the `k`-th parameter. -/
def effect (statement : PreparedStatement) : Option Effect :=
  match statement.sql with
  | .delete table id => some (.delete table id)
  | .insert table columns => do
      let row ← (columns.zipIdx 1).mapM fun (column, index) => do
        let value ← statement.parameters.lookup index
        return (column, value)
      return .insert table row

end PreparedStatement

/-! ## Tables -/

abbrev Database : Type := Table → List Row

/-- The condition `id = d` of a statement. -/
def hasId (id : Double) (row : Row) : Bool :=
  row.lookup "id" = some (.double id)

/-- The rows of a table with the given id. -/
def Database.rowsWithId (db : Database) (table : Table) (id : Double) : List Row :=
  (db table).filter (hasId id)

def Effect.apply (db : Database) : Effect → Database
  | .delete table id => Function.update db table ((db table).filter fun row => !hasId id row)
  | .insert table row => Function.update db table (db table ++ [row])

/-- The database after a sequence of changes. -/
def Database.replay (db : Database) (effects : List Effect) : Database :=
  effects.foldl Effect.apply db

@[simp]
theorem Database.replay_nil (db : Database) : db.replay [] = db := rfl

theorem Database.replay_append (db : Database) (first second : List Effect) :
    db.replay (first ++ second) = (db.replay first).replay second := by
  simp [Database.replay]

/-! ## Commands -/

/-- The commands of the server; a connection and a statement are named by numbers. -/
inductive JdbcCommand where
  | loadDriver
  | getConnection
  | storeCon (con : Option ℕ)
  | loadCon
  | prepareStatement (con : ℕ) (sql : Sql)
  | executeUpdate (statement : PreparedStatement)
  | close (statement : PreparedStatement)

/-- The interface of the JDBC driver. An answer `none` or `false` is an exception. -/
def jdbc : Interface where
  Command := JdbcCommand
  Answer
    | .loadDriver => Bool
    | .getConnection => Option ℕ
    | .storeCon _ => Unit
    | .loadCon => Option ℕ
    | .prepareStatement _ _ => Option ℕ
    | .executeUpdate _ => Bool
    | .close _ => Bool

/-- The change made by an exchange: that of a statement which was executed. -/
def executed : jdbc.Event → Option Effect
  | ⟨.executeUpdate statement, true⟩ => statement.effect
  | _ => none

/-- An exchange with a statement in which `SQLException` was thrown. -/
def refused : jdbc.Event → Bool
  | ⟨.prepareStatement _ _, none⟩ => true
  | ⟨.executeUpdate _, false⟩ => true
  | ⟨.close _, false⟩ => true
  | _ => false

/-- The changes made in the course of a run. -/
def executedEffects (events : List jdbc.Event) : List Effect :=
  events.filterMap executed

/-- The database as the environment of a session: any statement may fail. -/
def databaseSession : Environment jdbc Database :=
  fun db command answer after => after = db.replay (executed ⟨command, answer⟩).toList

theorem replay_of_run {α : Type} {program remaining : Program jdbc α} {db after : Database}
    {events : List jdbc.Event}
    (run : Program.Run databaseSession program db events remaining after) :
    after = db.replay (executedEffects events) := by
  induction run with
  | refl program state => rfl
  | @step command next answer events program before middle final answered rest ih =>
      rw [ih, answered, ← Database.replay_append]
      congr 1
      cases change : executed ⟨command, answer⟩ <;>
        simp [executedEffects, change]

theorem run_of_follows {α : Type} {program remaining : Program jdbc α} {events : List jdbc.Event}
    (follows : Program.Follows program events remaining) (db : Database) :
    Program.Run databaseSession program db events remaining
      (db.replay (executedEffects events)) := by
  induction follows generalizing db with
  | refl program => exact .refl _ _
  | @step command next answer events program rest ih =>
      apply Program.Run.step rfl
      convert ih (db.replay (executed ⟨command, answer⟩).toList) using 1
      rw [← Database.replay_append]
      congr 1
      cases change : executed ⟨command, answer⟩ <;>
        simp [executedEffects, change]

/-- Answers under which the `n`-th command fails when `fails n` says so. -/
def answering (fails : ℕ → Bool) (n : ℕ) : (command : JdbcCommand) → jdbc.Answer command
  | .loadDriver => !fails n
  | .getConnection => if fails n then none else some n
  | .storeCon _ => ()
  | .loadCon => some n
  | .prepareStatement _ _ => if fails n then none else some n
  | .executeUpdate _ => !fails n
  | .close _ => !fails n

end HumanMachine.Server
