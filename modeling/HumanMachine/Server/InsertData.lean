import HumanMachine.Server.Jdbc

/-!
# Storing a posted document

`insertData` of the server: it reads the machine's id, deletes the rows of that id
from the three tables and inserts the rows of the document one by one. A loop
`for(int i = 0; i < n; ++i)` is an iteration over `List.range n`.
-/

namespace HumanMachine.Server

/-- Server code: commands to the database and exceptions. -/
abbrev Java : Type → Type := ExceptT JavaException (Program jdbc)

def issue (command : JdbcCommand) : Java (jdbc.Answer command) :=
  ExceptT.lift (@Program.request jdbc command)

/-- `Connection.prepareStatement`; the connection may be a null reference. -/
def prepareStatement (con : Option ℕ) (sql : Sql) : Java PreparedStatement := do
  match con with
  | none => throw .nullPointer
  | some connection =>
      let handle ← issue (.prepareStatement connection sql)
      match (handle : Option ℕ) with
      | some handle => return { handle := handle, sql := sql, parameters := [] }
      | none => throw .sql

def executeUpdate (statement : PreparedStatement) : Java Unit := do
  let success ← issue (.executeUpdate statement)
  match (success : Bool) with
  | true => return ()
  | false => throw .sql

def close (statement : PreparedStatement) : Java Unit := do
  let success ← issue (.close statement)
  match (success : Bool) with
  | true => return ()
  | false => throw .sql

/-- `getConnect`: the static field keeps its value when an exception is caught. -/
def getConnect : Java (Option ℕ) := do
  let loaded ← issue .loadDriver
  match (loaded : Bool) with
  | false => issue .loadCon
  | true =>
      let connection ← issue .getConnection
      match (connection : Option ℕ) with
      | none => issue .loadCon
      | some connection => do
          let _ ← issue (.storeCon (some connection))
          issue .loadCon

def deleteTable (con : Option ℕ) (command : Table) (id : Double) : Java Unit :=
  tryCatch
    (do
      let deleteSql ← prepareStatement con (.delete command id)
      executeUpdate deleteSql
      close deleteSql)
    fun thrown =>
      match thrown with
      | .sql => pure ()
      | thrown => throw thrown

variable (gson : Gson)

open Gson (getAsJsonObject getAsJsonArray get has elementAt)

/-- The sums of the download and the upload rates, in that order. -/
def networkRates (networkArray : List Json) : Except JavaException (Double × Double) :=
  (List.range networkArray.length).foldlM
    (fun (downloadRate, uploadRate) j => do
      let networkObject ← getAsJsonObject (← elementAt networkArray j)
      let download ← gson.getAsDouble (← get networkObject "download rate")
      let upload ← gson.getAsDouble (← get networkObject "upload rate")
      return (downloadRate + download, uploadRate + upload))
    (0, 0)

def serverinfoColumns : List String :=
  ["id", "diskAvailable", "diskTotal", "diskUsed", "memoryAvailable", "memoryTotal",
    "memoryUsed", "networkDownloadRate", "networkUploadRate", "netCardNumber", "location",
    "timestamp"]

def cpuinfoColumns : List String :=
  ["id", "cpuUsed", "cpuMhz", "cpuCores", "cpuId"]

def dockerinfoColumns : List String :=
  ["id", "cpuUsage", "memoryUsed", "memoryUsage", "memoryLimit", "dockerId"]

/-- The body of the loop which fills table `serverinfo`. -/
def insertServerinfo (con : Option ℕ) (macAddress : Double)
    (diskArray memoryArray networkArray locationArray timestampArray : List Json)
    (i : ℕ) : Java Unit := do
  let diskObject ← getAsJsonObject (← elementAt diskArray i)
  let memoryObject ← getAsJsonObject (← elementAt memoryArray i)
  let locationObject ← getAsJsonObject (← elementAt locationArray i)
  let timestampObject ← getAsJsonObject (← elementAt timestampArray i)
  let insertSql ← prepareStatement con (.insert .serverinfo serverinfoColumns)
  let insertSql := insertSql.setDouble 1 macAddress
  let insertSql := insertSql.setDouble 2 (← gson.getAsDouble (← get diskObject "available"))
  let insertSql := insertSql.setDouble 3 (← gson.getAsDouble (← get diskObject "total"))
  let insertSql := insertSql.setDouble 4 (← gson.getAsDouble (← get diskObject "used"))
  let insertSql := insertSql.setDouble 5 (← gson.getAsDouble (← get memoryObject "available"))
  let insertSql := insertSql.setDouble 6 (← gson.getAsDouble (← get memoryObject "total"))
  let insertSql := insertSql.setDouble 7 (← gson.getAsDouble (← get memoryObject "used"))
  let (downloadRate, uploadRate) ← networkRates gson networkArray
  let networkCard := networkArray.length
  let insertSql := insertSql.setDouble 8 (downloadRate / networkCard)
  let insertSql := insertSql.setDouble 9 (uploadRate / networkCard)
  let insertSql := insertSql.setInt 10 networkCard
  let insertSql := insertSql.setString 11 (← gson.getAsString (← get locationObject "address"))
  let insertSql := insertSql.setString 12 (← gson.getAsString (← get timestampObject "time"))
  executeUpdate insertSql
  close insertSql

/-- The body of the loop which fills table `cpuinfo`. -/
def insertCpuinfo (con : Option ℕ) (macAddress : Double) (cpuArray : List Json) (i : ℕ) :
    Java Unit := do
  let cpuObject ← getAsJsonObject (← elementAt cpuArray i)
  let insertSql ← prepareStatement con (.insert .cpuinfo cpuinfoColumns)
  let insertSql := insertSql.setDouble 1 macAddress
  let insertSql := insertSql.setDouble 2 (← gson.getAsDouble (← get cpuObject "cpu source"))
  let insertSql := insertSql.setDouble 3 (← gson.getAsDouble (← get cpuObject "cpu Mhz"))
  let insertSql := insertSql.setInt 4 (← gson.getAsInt (← get cpuObject "cpu Cores"))
  let insertSql := insertSql.setInt 5 (← gson.getAsInt (← get cpuObject "id"))
  executeUpdate insertSql
  close insertSql

/-- The body of the loop which fills table `dockerinfo`. -/
def insertDockerinfo (con : Option ℕ) (macAddress : Double) (dockerArray : List Json) (i : ℕ) :
    Java Unit := do
  let dockerObject ← getAsJsonObject (← elementAt dockerArray i)
  let insertSql ← prepareStatement con (.insert .dockerinfo dockerinfoColumns)
  let insertSql := insertSql.setDouble 1 macAddress
  let insertSql := insertSql.setDouble 2 (← gson.getAsDouble (← get dockerObject "cpu"))
  let insertSql := insertSql.setDouble 3 (← gson.getAsDouble (← get dockerObject "memory"))
  let insertSql := insertSql.setDouble 4 (← gson.getAsDouble (← get dockerObject "memory usage"))
  let insertSql := insertSql.setDouble 5 (← gson.getAsDouble (← get dockerObject "memory limit"))
  let insertSql := insertSql.setString 6 (← gson.getAsString (← get dockerObject "id"))
  executeUpdate insertSql
  close insertSql

def deleteRows (con : Option ℕ) (macAddress : Double) : Java Unit := do
  deleteTable con .serverinfo macAddress
  deleteTable con .dockerinfo macAddress
  deleteTable con .cpuinfo macAddress

/-- The insertions of `insertData`, from the reading of the arrays on. -/
def insertRows (con : Option ℕ) (object : List (String × Json)) (macAddress : Double) :
    Java Unit := do
  let cpuArray ← getAsJsonArray (← get object "cpu info")
  let memoryArray ← getAsJsonArray (← get object "memory info")
  let diskArray ← getAsJsonArray (← get object "disk info")
  let networkArray ← getAsJsonArray (← get object "network info")
  let locationArray ← getAsJsonArray (← get object "location info")
  let timestampArray ← getAsJsonArray (← get object "timestamp info")
  (List.range memoryArray.length).forM
    (insertServerinfo gson con macAddress diskArray memoryArray networkArray locationArray
      timestampArray)
  (List.range cpuArray.length).forM (insertCpuinfo gson con macAddress cpuArray)
  if has object "docker info" then
    let dockerArray ← getAsJsonArray (← get object "docker info")
    (List.range dockerArray.length).forM (insertDockerinfo gson con macAddress dockerArray)

/-- The machine's id, `"mac address info"[0]."id"`. -/
def readMacAddress (object : List (String × Json)) : Except JavaException Double := do
  let macAddressArray ← getAsJsonArray (← get object "mac address info")
  let macAddressObject ← getAsJsonObject (← elementAt macAddressArray 0)
  gson.getAsDouble (← get macAddressObject "id")

/-- The part of a body which is read before the first statement: the members of
the document and the machine's id. -/
def readBody (data : String) : Except JavaException (List (String × Json) × Double) := do
  let object ← getAsJsonObject (← gson.parse data)
  let macAddress ← readMacAddress gson object
  return (object, macAddress)

/-- The catch clauses of `insertData`, with the value which `macId` holds when
the exception is thrown. -/
def returningMacId (macId : Double) (body : Java Double) : Java Double :=
  tryCatch body fun thrown =>
    match thrown with
    | .jsonIo => return macId
    | .jsonSyntax => return macId
    | .sql => return macId
    | thrown => throw thrown

/-- `insertData`; `macId` is 0 until the id was read. -/
def insertData (con : Option ℕ) (data : String) : Java Double :=
  returningMacId 0 do
    let (object, macAddress) ← readBody gson data
    returningMacId macAddress do
      deleteRows con macAddress
      insertRows gson con object macAddress
      return macAddress

/-- `SearchServlet.jsonToMysql`. -/
def jsonToMysql (data : String) : Java Double := do
  let con ← getConnect
  insertData gson con data

end HumanMachine.Server
