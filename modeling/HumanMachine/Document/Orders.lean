import HumanMachine.Client.Monitor
import HumanMachine.Server.Replacement
import HumanMachine.Server.SearchServlet

/-!
# The way of a deployment order

`doPost` ends its answer with the order for the machine, and the monitor takes what
stands behind the first `POST request.` line. The greeting brings the first such line:
the headers have none, and none reaches from the headers into the greeting, since the
marker has no `w`. So the address arrives as it stands in the file, whatever it contains.
-/

namespace HumanMachine.Client

open Server (Gson Carries getDockerResponse findDockerResponse_eq orderedAddress storeBody
  getBodyData respond doPost jdbc)

/-- The line before the order. -/
def greeting : Bytes :=
  utf8 ("welcome to my server. It's a POST request." ++ "\n")

theorem greeting_marker :
    Bytes.FirstOccurrence marker greeting (ascii "welcome to my server. It's a ") [] := by
  rw [← Bytes.dropInfix?_eq_some]
  decide +kernel

theorem greeting_head : ∃ rest, greeting = 119 :: rest ∧ 119 ∉ marker := by
  refine ⟨greeting.tail, ?_, ?_⟩ <;> decide +kernel

/-- Behind headers without the marker and the greeting, everything is extracted. -/
theorem dockerImageOf_greeting {header : Bytes} (absent : ¬marker <:+: header) {order : Bytes}
    (fits : (header ++ (greeting ++ order)).length ≤ BUFSIZE) :
    dockerImageOf (header ++ (greeting ++ order)) = .ok order := by
  rcases greeting_head with ⟨rest, starts, foreign⟩
  have occurrence := greeting_marker.append order
  rw [starts, List.cons_append] at occurrence fits ⊢
  exact dockerImageOf_of_marker fits (occurrence.prepend foreign absent)

variable {gson : Gson} {input : Option (List Char)} {dockerResponseJson : Option String}
  {events : List jdbc.Event} {result : String}

/-- An answer without a query is the greeting and the order for the machine. -/
theorem respond_answers {macId : Double}
    (answers : respond gson none dockerResponseJson macId = .ok result) :
    ∃ order, getDockerResponse gson dockerResponseJson macId = .ok order ∧
      utf8 result = greeting ++ utf8 order := by
  rw [respond] at answers
  cases ordered : getDockerResponse gson dockerResponseJson macId with
  | error exception =>
      rw [ordered] at answers
      cases answers
  | ok order =>
      rw [ordered] at answers
      cases answers
      refine ⟨order, rfl, ?_⟩
      rw [utf8_append, utf8_append, greeting, utf8_append, List.append_assoc]

theorem doPost_answers
    (answers : (doPost gson none input dockerResponseJson).run.Follows events
      (.done (.ok result))) :
    ∃ macId order, (storeBody gson (getBodyData input)).run.Follows events (.done (.ok macId)) ∧
      getDockerResponse gson dockerResponseJson macId = .ok order ∧
      utf8 result = greeting ++ utf8 order := by
  rcases answers.of_bind_ok with ⟨first, second, macId, rfl, stores, rest⟩
  rcases Program.Follows.of_done rest with ⟨rfl, returned⟩
  rw [Program.done.injEq] at returned
  rcases respond_answers returned.symm with ⟨order, ordered, encoded⟩
  refine ⟨macId, order, ?_, ordered, encoded⟩
  rwa [List.append_nil]

/-- The text which the monitor extracts is the address in the first order for the machine,
or `null`. -/
theorem order_survives_the_trip {file : String} {members : List (String × Json)}
    {dockerArray : List Json} {orders : List Server.Order} {header : Bytes} {response : Response}
    (parsed : gson.parse file = .ok (.obj members))
    (listed : members.lookup "docker response info" = some (.arr dockerArray))
    (carry : List.Forall₂ (Carries gson) dockerArray orders)
    (answers : (doPost gson none input (some file)).run.Follows events (.done (.ok result)))
    (absent : ¬marker <:+: header) (arrives : response.text = header ++ utf8 result) :
    ∃ macId, (storeBody gson (getBodyData input)).run.Follows events (.done (.ok macId)) ∧
      dockerImageOf response.text = .ok (utf8 (orderedAddress macId orders)) := by
  rcases doPost_answers answers with ⟨macId, order, stores, ordered, encoded⟩
  have found : getDockerResponse gson (some file) macId = .ok (orderedAddress macId orders) := by
    have reads : Gson.get members "docker response info" = .ok (.arr dockerArray) := by
      rw [Gson.get, listed]
    simp only [getDockerResponse, parsed, Server.ok_bind, Gson.getAsJsonObject, reads,
      Gson.getAsJsonArray, findDockerResponse_eq carry]
  rw [ordered, Except.ok.injEq] at found
  subst found
  refine ⟨macId, stores, ?_⟩
  have fits := response.fits
  rw [arrives, encoded] at fits ⊢
  exact dockerImageOf_greeting absent fits

/-! ### An order for machine 7 -/

def nginxOrders : List (String × Json) :=
  [("docker response info", .arr [.obj [("docker address", .str "nginx"), ("response", .num 1),
    ("server id", .num (.fin 7))]])]

/-- A library which finds the orders in one text and a document of machine 7 in all others. -/
def ordersGson : Gson where
  parse := fun text => .ok (if text = "orders" then .obj nginxOrders else .obj Server.sampleMembers)
  doubleOfString := fun _ => none
  intOfString := fun _ => none
  intOfNumber := fun
    | .fin value => value.num.tdiv value.den
    | _ => 0
  stringOfNumber := fun _ => ""

def nginxAnswer : String :=
  "welcome to my server. It's a POST request." ++ ("\n" ++ "nginx")

def nginxResponse : Response where
  text := ascii "HTTP/1.1 200 OK\r\n\r\n" ++ utf8 nginxAnswer
  noNul := by decide +kernel
  fits := by decide +kernel

/-- The exchanges of `doPost` with a database which accepts everything. -/
def nginxEvents : List jdbc.Event :=
  Program.transcript (Server.answering fun _ => false) 0
    (doPost ordersGson none (some []) (some "orders")).run

theorem nginxEvents_follow :
    (doPost ordersGson none (some []) (some "orders")).run.Follows nginxEvents
      (.done (.ok nginxAnswer)) :=
  Program.follows_transcript (by decide +kernel)

theorem order_survives_the_trip_nginx :
    ∃ macId, (storeBody ordersGson (getBodyData (some []))).run.Follows nginxEvents
        (.done (.ok macId)) ∧
      dockerImageOf nginxResponse.text =
        .ok (utf8 (orderedAddress macId [⟨1, .fin 7, "nginx"⟩])) := by
  have listed : nginxOrders.lookup "docker response info" = some (.arr _) := rfl
  refine order_survives_the_trip rfl listed (.cons ⟨?_, ?_, ?_⟩ .nil) nginxEvents_follow
    (by decide +kernel) rfl
  · exact ⟨.num 1, rfl, by rw [Gson.getAsInt_num]; rfl⟩
  · exact ⟨.num (.fin 7), rfl, Gson.getAsDouble_num _ _⟩
  · exact ⟨.str "nginx", rfl, Gson.getAsString_str _ _⟩

end HumanMachine.Client
