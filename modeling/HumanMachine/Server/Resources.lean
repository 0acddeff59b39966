import HumanMachine.Program.Resources
import HumanMachine.Server.Replacement
import HumanMachine.Server.SearchServlet

/-!
# Connections and statements of a request

The server takes a connection with `getConnection` and a statement with `prepareStatement`.
It closes a statement behind its execution, on the straight way only, and it never closes a
connection; the interface has no command for that.
-/

namespace HumanMachine.Server

open Gson (getAsJsonObject getAsJsonArray get has elementAt)

inductive Resource where
  | connection (name : ℕ)
  | statement (handle : ℕ)
  deriving DecidableEq

def resourceChange : jdbc.Event → Change Resource
  | ⟨.getConnection, some connection⟩ => .taken (.connection connection)
  | ⟨.prepareStatement _ _, some handle⟩ => .taken (.statement handle)
  | ⟨.close statement, true⟩ => .returned (.statement statement.handle)
  | _ => .kept

/-- An exchange which leaves something open for good: a connection which was made, and an
exception of a statement which has been prepared. -/
def leavesOpen : jdbc.Event → Bool
  | ⟨.getConnection, some _⟩ => true
  | ⟨.executeUpdate _, false⟩ => true
  | ⟨.close _, false⟩ => true
  | _ => false

/-- An insertion was prepared. -/
def preparesInsertion : jdbc.Event → Bool
  | ⟨.prepareStatement _ (.insert _ _), some _⟩ => true
  | _ => false

def resources : Accounting jdbc Resource where
  change := resourceChange
  spoils := leavesOpen
  counts := preparesInsertion

/-! ## One statement -/

/-- What follows the preparation of an insertion, for an entry of the plan. -/
inductive Remainder (handle : ℕ) (entry : Except JavaException Effect) :
    List jdbc.Event → Except JavaException Unit → Prop where
  | unread {exception thrown : JavaException} (unreadable : entry = .error exception) :
      Remainder handle entry [] (.error thrown)
  | refused {statement : PreparedStatement} (same : statement.handle = handle)
      {thrown : JavaException} :
      Remainder handle entry [⟨.executeUpdate statement, false⟩] (.error thrown)
  | unclosed {statement : PreparedStatement} (same : statement.handle = handle)
      {thrown : JavaException} :
      Remainder handle entry [⟨.executeUpdate statement, true⟩, ⟨.close statement, false⟩]
        (.error thrown)
  | closed {statement : PreparedStatement} (same : statement.handle = handle) {change : Effect}
      (readable : entry = .ok change) :
      Remainder handle entry [⟨.executeUpdate statement, true⟩, ⟨.close statement, true⟩] (.ok ())

def Fills (program : Java Unit) (handle : ℕ) (entry : Except JavaException Effect) : Prop :=
  ∀ events result, program.run.Follows events (.done result) → Remainder handle entry events result

theorem fills_read_map {α ρ : Type} {handle : ℕ} {change : ρ → Effect}
    {read : Except JavaException α} {continuation : α → Java Unit}
    {content : α → Except JavaException ρ}
    (fills : ∀ value, Fills (continuation value) handle (change <$> content value)) :
    Fills (liftM read >>= continuation) handle (change <$> (read >>= content)) := by
  cases read with
  | ok value => exact fills value
  | error exception =>
      intro events result follows
      rcases Program.Follows.of_done follows with ⟨rfl, thrown⟩
      cases thrown
      exact .unread rfl

theorem executeUpdate_close_run (statement : PreparedStatement) :
    (executeUpdate statement >>= fun _ => close statement).run =
      .call (.executeUpdate statement) fun success : Bool =>
        if success then .call (.close statement) fun closed : Bool =>
          if closed then .done (.ok ()) else .done (.error .sql)
        else .done (.error .sql) := by
  apply congrArg (Program.call (I := jdbc) (.executeUpdate statement))
  funext success
  cases success with
  | false => rfl
  | true =>
      apply congrArg (Program.call (I := jdbc) (.close statement))
      funext closed
      cases closed <;> rfl

theorem fills_executeUpdate {statement : PreparedStatement} (change : Effect) :
    Fills (executeUpdate statement >>= fun _ => close statement) statement.handle (.ok change) := by
  intro events result follows
  rw [executeUpdate_close_run] at follows
  rcases follows.of_call_done with ⟨success, later, rfl, executed⟩
  cases success with
  | false =>
      rcases Program.Follows.of_done executed with ⟨rfl, thrown⟩
      cases thrown
      exact .refused rfl
  | true =>
      rcases Program.Follows.of_call_done executed with ⟨closed, later, rfl, finished⟩
      cases closed <;> rcases Program.Follows.of_done finished with ⟨rfl, ended⟩ <;> cases ended
      · exact .unclosed rfl
      · exact .closed rfl rfl

variable {handle connection : ℕ} {entry : Except JavaException Effect} {events : List jdbc.Event}
  {result : Except JavaException Unit}

/-- An insertion leaves its statement open unless everything about it succeeds. -/
theorem Remainder.account (remainder : Remainder handle entry events result) (table : Table)
    (columns : List String) :
    resources.Account (⟨.prepareStatement connection (.insert table columns), some handle⟩ :: events)
      [entry] := by
  cases remainder with
  | @unread exception thrown unreadable =>
      refine .of_taken (fun held => rfl) (Nat.le_refl 1) (.inr ?_)
      intro complete
      exact complete exception (by simp [unreadable, resources, preparesInsertion])
  | @refused statement same thrown =>
      refine .of_taken (fun held => rfl) (Nat.le_refl 1) (.inl ?_)
      exact ⟨⟨.executeUpdate statement, false⟩, by simp, rfl⟩
  | @unclosed statement same thrown =>
      refine .of_taken (fun held => rfl) (Nat.le_refl 1) (.inl ?_)
      exact ⟨⟨.close statement, false⟩, by simp, rfl⟩
  | @closed statement same change readable =>
      refine .of_balanced ?_ (Nat.le_refl 1) (by simp [resources, leavesOpen]) ?_
      · intro held
        change (Resource.statement handle :: held).erase (.statement statement.handle) = held
        rw [same, List.erase_cons_head]
      · rw [readable]
        exact Plan.complete_singleton_ok change

theorem Remainder.worked {value : Unit} (remainder : Remainder handle entry events (.ok value))
    (table : Table) (columns : List String) :
    (⟨.prepareStatement connection (.insert table columns), some handle⟩ :: events).countP
      resources.counts = 1 ∧ Plan.Complete [entry] := by
  cases remainder with
  | closed same readable =>
      rw [readable]
      exact ⟨rfl, Plan.complete_singleton_ok _⟩

theorem prepareStatement_bind_run (connection : ℕ) (sql : Sql)
    (continuation : PreparedStatement → Java Unit) :
    (prepareStatement (some connection) sql >>= continuation).run =
      .call (.prepareStatement connection sql) fun answer : Option ℕ =>
        match answer with
        | some handle => (continuation ⟨handle, sql, []⟩).run
        | none => .done (.error .sql) := by
  apply congrArg (Program.call (I := jdbc) (.prepareStatement connection sql))
  funext answer
  cases answer <;> rfl

theorem accounts_prepareStatement {con : Option ℕ} {table : Table} {columns : List String}
    {continuation : PreparedStatement → Java Unit} {entry : Except JavaException Effect}
    (fills : ∀ handle, Fills (continuation ⟨handle, .insert table columns, []⟩) handle entry) :
    resources.Accounts (prepareStatement con (.insert table columns) >>= continuation) [entry] := by
  cases con with
  | none =>
      have throws : resources.Accounts (throw .nullPointer : Java Unit) [entry] :=
        Accounting.accounts_throw _ _
      exact throws
  | some connection =>
      constructor
      · intro events result follows
        rw [prepareStatement_bind_run] at follows
        rcases follows.of_call_done with ⟨answer, later, rfl, prepared⟩
        cases answer with
        | some handle => exact (fills handle later result prepared).account table columns
        | none =>
            rcases Program.Follows.of_done prepared with ⟨rfl, _⟩
            refine .of_balanced (fun held => rfl) (Nat.zero_le 1) ?_ Plan.complete_nil
            simp [resources, leavesOpen]
      · intro events value follows
        rw [prepareStatement_bind_run] at follows
        rcases follows.of_call_done with ⟨answer, later, rfl, prepared⟩
        cases answer with
        | some handle => exact (fills handle later (.ok value) prepared).worked table columns
        | none => cases (Program.Follows.of_done prepared).2

/-! ## The insertions and the deletions -/

variable {gson : Gson} {con : Option ℕ} {macAddress : Double}

theorem insertServerinfo_accounts
    (diskArray memoryArray networkArray locationArray timestampArray : List Json) (i : ℕ) :
    resources.Accounts (insertServerinfo gson con macAddress diskArray memoryArray networkArray
        locationArray timestampArray i)
      [insertion .serverinfo macAddress <$> serverinfoValues gson diskArray memoryArray
        networkArray locationArray timestampArray i] := by
  iterate 8
    apply Accounting.accounts_read_map
    intro value
  apply accounts_prepareStatement
  intro handle
  repeat
    apply fills_read_map
    intro value
  exact fills_executeUpdate _

theorem insertCpuinfo_accounts (cpuArray : List Json) (i : ℕ) :
    resources.Accounts (insertCpuinfo gson con macAddress cpuArray i)
      [insertion .cpuinfo macAddress <$> cpuinfoValues gson cpuArray i] := by
  iterate 2
    apply Accounting.accounts_read_map
    intro value
  apply accounts_prepareStatement
  intro handle
  repeat
    apply fills_read_map
    intro value
  exact fills_executeUpdate _

theorem insertDockerinfo_accounts (dockerArray : List Json) (i : ℕ) :
    resources.Accounts (insertDockerinfo gson con macAddress dockerArray i)
      [insertion .dockerinfo macAddress <$> dockerinfoValues gson dockerArray i] := by
  iterate 2
    apply Accounting.accounts_read_map
    intro value
  apply accounts_prepareStatement
  intro handle
  repeat
    apply fills_read_map
    intro value
  exact fills_executeUpdate _

theorem insertRows_accounts {object : List (String × Json)} :
    resources.Accounts (insertRows gson con object macAddress) (plan gson object macAddress) := by
  unfold plan readSections
  simp only [Plan.afterReading_bind]
  iterate 12
    apply Accounting.accounts_read
    intro value
  apply Accounting.Accounts.bind
  · exact Accounting.accounts_forM (insertServerinfo_accounts _ _ _ _ _) _
  · intro _
    apply Accounting.Accounts.bind
    · exact Accounting.accounts_forM (insertCpuinfo_accounts _) _
    · intro _
      unfold dockerinfoPlan
      split
      · unfold readDockerArray
        simp only [Plan.afterReading_bind]
        iterate 2
          apply Accounting.accounts_read
          intro value
        exact Accounting.accounts_forM (insertDockerinfo_accounts _) _
      · exact Accounting.accounts_pure ()

theorem deleteTable_run (connection : ℕ) (table : Table) (id : Double) :
    (deleteTable (some connection) table id).run =
      .call (.prepareStatement connection (.delete table id)) fun answer : Option ℕ =>
        match answer with
        | some handle => .call (.executeUpdate ⟨handle, .delete table id, []⟩) fun success : Bool =>
            if success then .call (.close ⟨handle, .delete table id, []⟩) fun _ => .done (.ok ())
            else .done (.ok ())
        | none => .done (.ok ()) := by
  apply congrArg (Program.call (I := jdbc) (.prepareStatement connection (.delete table id)))
  funext answer
  cases answer with
  | none => rfl
  | some handle =>
      apply congrArg (Program.call (I := jdbc) (.executeUpdate ⟨handle, .delete table id, []⟩))
      funext success
      cases success with
      | false => rfl
      | true =>
          apply congrArg (Program.call (I := jdbc) (.close ⟨handle, .delete table id, []⟩))
          funext closed
          cases closed <;> rfl

/-- A deletion which is refused behind its preparation leaves its statement open too. -/
theorem deleteTable_accounts (con : Option ℕ) (table : Table) (id : Double) :
    resources.Accounts (deleteTable con table id) ([] : List (Except JavaException Effect)) := by
  cases con with
  | none =>
      have throws : resources.Accounts (throw .nullPointer : Java Unit)
          ([] : List (Except JavaException Effect)) := Accounting.accounts_throw _ _
      exact throws
  | some connection =>
      apply Accounting.Settles.accounts
      intro events result follows
      rw [deleteTable_run] at follows
      rcases follows.of_call_done with ⟨answer, later, rfl, prepared⟩
      cases answer with
      | none =>
          rcases Program.Follows.of_done prepared with ⟨rfl, _⟩
          refine .of_balanced (fun held => rfl) (Nat.le_refl 0) ?_ Plan.complete_nil
          simp [resources, leavesOpen]
      | some handle =>
          rcases Program.Follows.of_call_done prepared with ⟨success, later, rfl, executed⟩
          cases success with
          | false =>
              rcases Program.Follows.of_done executed with ⟨rfl, _⟩
              refine .of_taken (fun held => rfl) (Nat.le_refl 0) (.inl ?_)
              exact ⟨⟨.executeUpdate ⟨handle, .delete table id, []⟩, false⟩, by simp, rfl⟩
          | true =>
              rcases Program.Follows.of_call_done executed with ⟨closed, later, rfl, finished⟩
              rcases Program.Follows.of_done finished with ⟨rfl, _⟩
              cases closed with
              | false =>
                  refine .of_taken (fun held => rfl) (Nat.le_refl 0) (.inl ?_)
                  exact ⟨⟨.close ⟨handle, .delete table id, []⟩, false⟩, by simp, rfl⟩
              | true =>
                  refine .of_balanced ?_ (Nat.le_refl 0) (by simp [resources, leavesOpen])
                    Plan.complete_nil
                  intro held
                  exact List.erase_cons_head _ held

theorem deleteRows_accounts :
    resources.Accounts (deleteRows con macAddress) ([] : List (Except JavaException Effect)) :=
  (deleteTable_accounts con .serverinfo macAddress).bind fun _ =>
    (deleteTable_accounts con .dockerinfo macAddress).bind fun _ =>
      deleteTable_accounts con .cpuinfo macAddress

/-! ## A request -/

theorem getConnect_run : getConnect.run = .call .loadDriver fun loaded : Bool =>
    if loaded then .call .getConnection fun connection : Option ℕ =>
      match connection with
      | some connection => .call (.storeCon (some connection)) fun _ =>
          .call .loadCon fun con => .done (.ok con)
      | none => .call .loadCon fun con => .done (.ok con)
    else .call .loadCon fun con => .done (.ok con) := by
  apply congrArg (Program.call (I := jdbc) .loadDriver)
  funext loaded
  cases loaded with
  | false => rfl
  | true =>
      apply congrArg (Program.call (I := jdbc) .getConnection)
      funext connection
      cases connection <;> rfl

/-- A connection which is made is kept. -/
theorem getConnect_accounts :
    resources.Accounts getConnect ([] : List (Except JavaException Effect)) := by
  apply Accounting.Settles.accounts
  intro events result follows
  rw [getConnect_run] at follows
  rcases follows.of_call_done with ⟨loaded, later, rfl, branch⟩
  cases loaded with
  | false =>
      rcases Program.Follows.of_call_done branch with ⟨con, later, rfl, finished⟩
      rcases Program.Follows.of_done finished with ⟨rfl, _⟩
      refine .of_balanced (fun held => rfl) (Nat.le_refl 0) ?_ Plan.complete_nil
      simp [resources, leavesOpen]
  | true =>
      rcases Program.Follows.of_call_done branch with ⟨connection, later, rfl, rest⟩
      cases connection with
      | none =>
          rcases Program.Follows.of_call_done rest with ⟨con, later, rfl, finished⟩
          rcases Program.Follows.of_done finished with ⟨rfl, _⟩
          refine .of_balanced (fun held => rfl) (Nat.le_refl 0) ?_ Plan.complete_nil
          simp [resources, leavesOpen]
      | some connection =>
          rcases Program.Follows.of_call_done rest with ⟨_, later, rfl, stored⟩
          rcases Program.Follows.of_call_done stored with ⟨con, later, rfl, finished⟩
          rcases Program.Follows.of_done finished with ⟨rfl, _⟩
          refine .of_taken (fun held => rfl) (Nat.le_refl 0) (.inl ?_)
          exact ⟨⟨.getConnection, some connection⟩, by simp, rfl⟩

theorem settles_returningMacId {macId : Double} {body : Java Double}
    {plan : List (Except JavaException Effect)} (settles : resources.Settles body plan) :
    resources.Settles (returningMacId macId body) plan := by
  apply Accounting.Settles.tryCatch settles
  intro exception
  cases exception with
  | jsonIo => exact Accounting.quiet_pure macId
  | jsonSyntax => exact Accounting.quiet_pure macId
  | sql => exact Accounting.quiet_pure macId
  | _ => exact Accounting.quiet_throw _

variable (gson) in
/-- The insertions which a body asks for. -/
def bodyPlan : Option String → List (Except JavaException Effect)
  | some data => Plan.afterReading (readBody gson data) fun (object, macAddress) =>
      plan gson object macAddress
  | none => []

theorem insertData_settles (data : String) :
    resources.Settles (insertData gson con data) (bodyPlan gson (some data)) := by
  apply settles_returningMacId
  apply Accounting.settles_read
  rintro ⟨object, macAddress⟩
  apply settles_returningMacId
  apply Accounting.Accounts.bind_settles deleteRows_accounts
  intro _
  exact insertRows_accounts.settles.bind_quiet fun _ => Accounting.quiet_pure macAddress

theorem storeBody_settles (data : Option String) :
    resources.Settles (storeBody gson data) (bodyPlan gson data) := by
  cases data with
  | some data => exact getConnect_accounts.bind_settles fun _ => insertData_settles data
  | none => exact getConnect_accounts.settles.bind_quiet fun _ => Accounting.quiet_throw _

/-- What a request brings, and the file with the orders at its time. -/
structure Request where
  query : Option String
  input : Option (List Char)
  dockerResponseJson : Option String

variable (gson) in
/-- A finished run of `doPost`, with a response or with an exception. -/
def Finishes (request : Request) (events : List jdbc.Event) : Prop :=
  ∃ result, (doPost gson request.query request.input request.dockerResponseJson).run.Follows events
    (.done result)

theorem account_of_finishes {request : Request} {events : List jdbc.Event}
    (finishes : Finishes gson request events) :
    resources.Account events (bodyPlan gson (getBodyData request.input)) := by
  rcases finishes with ⟨result, follows⟩
  refine (storeBody_settles _).bind_quiet ?_ events result follows
  intro macId
  cases respond gson request.query request.dockerResponseJson macId with
  | error exception => exact Accounting.quiet_throw exception
  | ok result => exact Accounting.quiet_pure result

/-! ## Requests one after the other -/

variable (gson) in
/-- Nothing of this request stays open: no connection was made, no statement which has been
prepared met an exception, and the rows of the prepared insertions could be read. -/
def Spared (request : Request) (events : List jdbc.Event) : Prop :=
  (∀ event ∈ events, ¬leavesOpen event) ∧
    Plan.Complete ((bodyPlan gson (getBodyData request.input)).take (events.countP preparesInsertion))

def isConnection : Resource → Bool
  | .connection _ => true
  | .statement _ => false

def makesConnection : jdbc.Event → Bool
  | ⟨.getConnection, some _⟩ => true
  | _ => false

theorem connections_hold (held : List Resource) (event : jdbc.Event) :
    (resources.hold held event).countP isConnection =
      held.countP isConnection + if makesConnection event then 1 else 0 := by
  rcases event with ⟨command, answer⟩
  cases command with
  | getConnection =>
      cases answer with
      | none => rfl
      | some connection =>
          change (Resource.connection connection :: held).countP isConnection = _
          rw [List.countP_cons]
          rfl
  | prepareStatement con sql =>
      cases answer with
      | none => rfl
      | some handle =>
          change (Resource.statement handle :: held).countP isConnection = _
          rw [List.countP_cons]
          rfl
  | close statement =>
      cases answer with
      | false => rfl
      | true =>
          change (held.erase (.statement statement.handle)).countP isConnection = _
          by_cases mem : Resource.statement statement.handle ∈ held
          · have same := (List.perm_cons_erase mem).countP_eq isConnection
            rw [List.countP_cons] at same
            exact same.symm
          · rw [List.erase_of_not_mem mem]
            rfl
  | _ => rfl

/-- The connections which are open grow by every one which is made. -/
theorem connections_holding (held : List Resource) (events : List jdbc.Event) :
    (resources.holding held events).countP isConnection =
      held.countP isConnection + events.countP makesConnection := by
  induction events generalizing held with
  | nil => rfl
  | cons event events ih =>
      have step : resources.holding held (event :: events) =
          resources.holding (resources.hold held event) events := rfl
      rw [step, ih, connections_hold, List.countP_cons, Nat.add_assoc]
      congr 1
      exact Nat.add_comm _ _

theorem spared_iff {request : Request} {events : List jdbc.Event}
    (finishes : Finishes gson request events) :
    Spared gson request events ↔ resources.Balanced events :=
  (account_of_finishes finishes).balanced_iff.symm

theorem growing_of_finished {requests : List Request} {runs : List (List jdbc.Event)}
    (finished : List.Forall₂ (Finishes gson) requests runs) :
    ∀ events ∈ runs, resources.Growing events := by
  induction finished with
  | nil => simp
  | cons first rest ih => exact List.forall_mem_cons.mpr ⟨(account_of_finishes first).growing, ih⟩

/-- A request with the sample document; the orders cannot be read. -/
def sampleRequest : Request where
  query := none
  input := some []
  dockerResponseJson := none

/-- The exchanges when the driver cannot be loaded and an earlier connection is used. -/
def driverlessEvents : List jdbc.Event :=
  Program.transcript (answering (· == 0)) 0 (doPost sampleGson none (some []) none).run

theorem driverlessEvents_finishes : Finishes sampleGson sampleRequest driverlessEvents :=
  ⟨.error .nullPointer, Program.follows_transcript (by decide +kernel)⟩

theorem driverlessEvents_spared : Spared sampleGson sampleRequest driverlessEvents := by
  refine ⟨by decide +kernel, ?_⟩
  have readable : ((bodyPlan sampleGson (getBodyData sampleRequest.input)).take
      (driverlessEvents.countP preparesInsertion)).all Except.isOk = true := by
    decide +kernel
  intro exception mem
  cases List.all_eq_true.mp readable _ mem

/-- The file has no orders, and every other text is the sample document. -/
def servingGson : Gson :=
  { sampleGson with
    parse := fun text =>
      .ok (.obj (if text = "orders" then [("docker response info", .arr [])] else sampleMembers)) }

/-- A request with the sample document, and a file without orders. -/
def ordinaryRequest : Request where
  query := none
  input := some []
  dockerResponseJson := some "orders"

/-- The exchanges when everything is accepted, with numbers from `start` on. -/
def servedEvents (start : ℕ) : List jdbc.Event :=
  Program.transcript (answering fun _ => false) start
    (doPost servingGson none (some []) (some "orders")).run

end HumanMachine.Server
