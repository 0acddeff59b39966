import HumanMachine.Data.JsonText
import HumanMachine.Server.InsertData

/-!
# The servlet: `SearchServlet.java`

`doPost` stores the posted document and answers with the deployment order for the
machine. The characters which the request's reader delivers and the contents of the
file with the orders are passed in; `none` is an `IOException` while reading. What the
servlet prints is left out, and with it the client's address.
-/

namespace HumanMachine.Server

open Gson (getAsJsonObject getAsJsonArray get)

/-- The lines which `BufferedReader.readLine` returns one after the other. A line ends
with a line feed, a carriage return or both. -/
def readLines : List Char → List (List Char)
  | [] => []
  | '\r' :: '\n' :: rest => [] :: readLines rest
  | '\r' :: rest => [] :: readLines rest
  | '\n' :: rest => [] :: readLines rest
  | c :: rest =>
      match readLines rest with
      | line :: lines => (c :: line) :: lines
      | [] => [[c]]

def getBodyData (input : Option (List Char)) : Option String :=
  input.map fun characters =>
    String.ofList (readLines characters).flatten

variable (gson : Gson)

/-- The loop of `getDockerResponse`, from an entry on. -/
def findDockerResponse (macId : Double) : List Json → Except JavaException String
  | [] => return "null"
  | element :: dockerArray => do
      let dockerObject ← getAsJsonObject element
      let response ← gson.getAsInt (← get dockerObject "response")
      let serverId ← gson.getAsDouble (← get dockerObject "server id")
      if serverId.eq macId && response = 1 then
        gson.getAsString (← get dockerObject "docker address")
      else findDockerResponse macId dockerArray

/-- `getDockerResponse`; `readJsonFile` returns null when the file cannot be read. -/
def getDockerResponse (dockerResponseJson : Option String) (macId : Double) :
    Except JavaException String := do
  match dockerResponseJson with
  | none => throw .nullPointer
  | some dockerResponseJson =>
      let object ← getAsJsonObject (← gson.parse dockerResponseJson)
      let dockerArray ← getAsJsonArray (← get object "docker response info")
      findDockerResponse gson macId dockerArray

/-- Storing the body of a request; a null reference reaches the parser only after the
connection was made. -/
def storeBody (data : Option String) : Java Double := do
  match data with
  | some data => jsonToMysql gson data
  | none =>
      let _ ← getConnect
      throw .nullPointer

/-- `query.trim().equals("")` -/
def isBlank (query : String) : Bool :=
  query.toList.all fun c => c.toNat ≤ 32

/-- What `doPost` does after the document was stored. -/
def respond (query dockerResponseJson : Option String) (macId : Double) :
    Except JavaException String := do
  let order ← getDockerResponse gson dockerResponseJson macId
  let result := "welcome to my server. It's a POST request." ++ ("\n" ++ order)
  match query with
  | some query => return if isBlank query then result else query ++ ", " ++ result
  | none => return result

/-- `doPost`: the text it prints as the response. -/
def doPost (query : Option String) (input : Option (List Char))
    (dockerResponseJson : Option String) : Java String := do
  let data := getBodyData input
  let macId ← storeBody gson data
  respond gson query dockerResponseJson macId

/-! ## The order for a machine -/

/-- An entry of the file. -/
structure Order where
  response : ℤ
  serverId : Double
  dockerAddress : String

/-- The element carries an order in its three members. -/
structure Carries (element : Json) (order : Order) : Prop where
  response : ∃ value, element.member? "response" = some value ∧
    gson.getAsInt value = .ok order.response
  serverId : ∃ value, element.member? "server id" = some value ∧
    gson.getAsDouble value = .ok order.serverId
  dockerAddress : ∃ value, element.member? "docker address" = some value ∧
    gson.getAsString value = .ok order.dockerAddress

/-- The address in the first order for the machine whose response is 1, else `null`. -/
def orderedAddress (macId : Double) (orders : List Order) : String :=
  match orders.find? fun order => order.serverId.eq macId && order.response = 1 with
  | some order => order.dockerAddress
  | none => "null"

/-! ## The body of a request -/

theorem flatten_readLines (characters : List Char) :
    (readLines characters).flatten = JsonText.unbroken characters := by
  induction characters using readLines.induct with
  | case1 => rfl
  | case2 rest ih =>
      rw [readLines, List.flatten_cons, List.nil_append, ih]
      rfl
  | case3 rest notFeed ih =>
      rw [readLines.eq_3 _ notFeed, List.flatten_cons, List.nil_append, ih]
      rfl
  | case4 rest ih =>
      rw [readLines, List.flatten_cons, List.nil_append, ih]
      rfl
  | case5 c rest notBoth notReturn notFeed line lines found ih =>
      have visible : ¬JsonText.IsBreak c := fun isBreak => isBreak.elim notFeed notReturn
      rw [readLines.eq_5 _ _ notBoth notReturn notFeed, found]
      rw [found] at ih
      simpa [JsonText.unbroken, visible] using ih
  | case6 c rest notBoth notReturn notFeed found ih =>
      have visible : ¬JsonText.IsBreak c := fun isBreak => isBreak.elim notFeed notReturn
      rw [readLines.eq_5 _ _ notBoth notReturn notFeed, found]
      rw [found] at ih
      simpa [JsonText.unbroken, visible] using ih

/-- The body without its line breaks. -/
theorem getBodyData_eq (characters : List Char) :
    getBodyData (some characters) = some (String.ofList (JsonText.unbroken characters)) := by
  rw [getBodyData, Option.map_some, flatten_readLines]

variable {gson}

theorem findDockerResponse_eq {macId : Double} {elements : List Json} {orders : List Order}
    (carry : List.Forall₂ (Carries gson) elements orders) :
    findDockerResponse gson macId elements = .ok (orderedAddress macId orders) := by
  induction carry with
  | nil => rfl
  | @cons element order elements orders carries rest ih =>
      rcases carries with ⟨⟨response, hasResponse, readsResponse⟩,
        ⟨serverId, hasServerId, readsServerId⟩, ⟨address, hasAddress, readsAddress⟩⟩
      cases element with
      | obj members =>
          have reads : findDockerResponse gson macId (.obj members :: elements) =
              if order.serverId.eq macId && order.response = 1 then .ok order.dockerAddress
              else findDockerResponse gson macId elements := by
            simp only [findDockerResponse, Gson.getAsJsonObject, ok_bind, readsResponse,
              Gson.get_of_member? hasResponse, Gson.get_of_member? hasServerId, readsServerId,
              Gson.get_of_member? hasAddress, readsAddress]
          rw [reads, ih, orderedAddress, orderedAddress, List.find?_cons]
          cases order.serverId.eq macId && order.response = 1 <;> rfl
      | _ => cases hasResponse

end HumanMachine.Server
