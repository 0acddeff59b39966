import HumanMachine.Client.Phases
import HumanMachine.Http.Receiver
import HumanMachine.Program.Session

/-!
# Requests on one connection

What `HttpHeadCreate` writes is one HTTP/1.1 request followed by empty lines, and a
sequence of them is received as it was sent. `HttpDataTransmit` adds a NUL to each,
which is in front of the next request or left over.
-/

namespace HumanMachine.Client

open Program (Follows Guarantees)
open Receiver (crlf writeLines writeField skipEmptyLines)

/-- The fields of both methods. -/
def commonFields (strUrl : Bytes) : List (Bytes × Bytes) :=
  [(ascii "Accept", ascii "*/*"), (ascii "Accept-Language", ascii "en-us,en;q=0.5"),
    (ascii "User-Agent", ascii "Mozilla/4.0"), (ascii "Host", getHostAddrFromUrl strUrl),
    (ascii "Cache-Control", ascii "no-cache"), (ascii "Connection", ascii "Keep-Alive")]

namespace HttpCall

/-- The `strData` behind the head. -/
def body (request : HttpCall) : Bytes :=
  request.strData.getD []

def dataFields : HttpCall → List (Bytes × Bytes)
  | get _ _ => []
  | post _ strData _ => [(ascii "Content-Type", ascii "text/html"),
      (ascii "Content-Length", decimal (toInt (strData.getD []).length))]

def head (request : HttpCall) (strUrl : Bytes) : Receiver.Head where
  method := request.strMethod
  target := 47 :: getParamFromUrl strUrl
  fields := commonFields strUrl ++ request.dataFields

/-- The empty lines behind the request. -/
def trailer : HttpCall → Bytes
  | get _ _ => crlf
  | post _ _ _ => crlf ++ crlf

def toRequest (request : HttpCall) (strUrl : Bytes) : Receiver.Request where
  method := request.strMethod
  target := 47 :: getParamFromUrl strUrl
  host := getHostAddrFromUrl strUrl
  body := request.body

end HttpCall

theorem ascii_fields :
    ascii "Accept: */*\r\n" = writeField (ascii "Accept", ascii "*/*") ++ crlf ∧
    ascii "Accept-Language: en-us,en;q=0.5\r\n" =
      writeField (ascii "Accept-Language", ascii "en-us,en;q=0.5") ++ crlf ∧
    ascii "User-Agent: Mozilla/4.0\r\n" =
      writeField (ascii "User-Agent", ascii "Mozilla/4.0") ++ crlf ∧
    ascii "Cache-Control: no-cache\r\n" =
      writeField (ascii "Cache-Control", ascii "no-cache") ++ crlf ∧
    ascii "Connection: Keep-Alive\r\n" =
      writeField (ascii "Connection", ascii "Keep-Alive") ++ crlf ∧
    ascii "Content-Type: text/html\r\n" =
      writeField (ascii "Content-Type", ascii "text/html") ++ crlf := by
  decide

theorem ascii_separators :
    ascii " /" = [32, 47] ∧ ascii " HTTP/1.1\r\n" = 32 :: (ascii "HTTP/1.1" ++ crlf) ∧
    ascii "Host: " = ascii "Host" ++ [58, 32] ∧
    ascii "Content-Length: " = ascii "Content-Length" ++ [58, 32] ∧
    ascii "\r\n" = crlf ∧ ascii "\r\n\r\n" = crlf ++ crlf := by
  decide

section Pieces

variable (method strParam version host strHost length digits : Bytes)
  (first second third fourth fifth sixth : Bytes × Bytes)

/-- The pieces which `strcat` puts together, up to the header fields of both methods. -/
def pieces : Bytes :=
  method ++ [32, 47] ++ strParam ++ 32 :: (version ++ crlf) ++ (writeField first ++ crlf) ++
    (writeField second ++ crlf) ++ (writeField third ++ crlf) ++ (host ++ [58, 32]) ++ strHost ++
    crlf ++ (writeField fourth ++ crlf) ++ (writeField fifth ++ crlf)

theorem pieces_get :
    pieces method strParam version host strHost first second third fourth fifth ++ (crlf ++ crlf) =
      writeLines ((method ++ 32 :: (47 :: strParam ++ 32 :: version)) ::
        [first, second, third, (host, strHost), fourth, fifth].map writeField) ++ ([] ++ crlf) := by
  simp [pieces, writeLines, writeField]

theorem pieces_post (strData : Bytes) :
    pieces method strParam version host strHost first second third fourth fifth ++
        (writeField sixth ++ crlf) ++ (length ++ [58, 32]) ++ digits ++ (crlf ++ crlf) ++ strData ++
        (crlf ++ crlf) =
      writeLines ((method ++ 32 :: (47 :: strParam ++ 32 :: version)) ::
        [first, second, third, (host, strHost), fourth, fifth, sixth, (length, digits)].map
          writeField) ++ (strData ++ (crlf ++ crlf)) := by
  simp [pieces, writeLines, writeField]

end Pieces

/-- `HttpHeadCreate` writes the lines of a head, the body and empty lines. -/
theorem httpHeadCreate_eq (request : HttpCall) (strUrl : Bytes) :
    httpHeadCreate request.strMethod strUrl request.strData =
      writeLines (request.head strUrl).lines ++ (request.body ++ request.trailer) := by
  rcases ascii_fields with ⟨accept, language, agent, cache, connection, type⟩
  rcases ascii_separators with ⟨slash, version, host, length, line, lines⟩
  cases request with
  | get url response =>
      have isGet : ascii "GET" ≠ ascii "POST" := by decide
      rw [HttpCall.strMethod, httpHeadCreate, if_neg isGet, accept, language, agent, cache,
        connection, slash, version, host, line, lines]
      exact pieces_get _ _ _ _ _ _ _ _ _ _
  | post url data response =>
      rw [HttpCall.strMethod, httpHeadCreate, if_pos rfl, accept, language, agent, cache,
        connection, type, slash, version, host, length, line, lines]
      exact pieces_post _ _ _ _ _ _ _ _ _ _ _ _ _ _

/-! ## What a call sends -/

def SendsOnly (data : Bytes) (command : SysCommand) : Prop :=
  match command with
  | .send _ sent => sent = data
  | _ => True

abbrev OnlySends {α : Type} (data : Bytes) (program : Http α) : Prop :=
  Guarantees Program.free (fun _ => SendsOnly data) (fun _ _ => True) program ()

theorem Step.sendsOnly {strUrl strHttpHead : Bytes} {phase after : Phase} {event : sys.Event}
    (step : Step strUrl strHttpHead phase event after) :
    SendsOnly (strHttpHead ++ [0]) event.1 := by
  cases step <;> trivial

/-- A call sends its head and the NUL behind it. -/
theorem run_onlySends {request : HttpCall} {strUrl : Bytes} {rounds : ℕ}
    (accepted : request.acceptedUrl = some strUrl) :
    OnlySends (httpHeadCreate request.strMethod strUrl request.strData ++ [0])
      (request.run rounds) := by
  refine Guarantees.mono ((run_runsOn rounds accepted).guarantees (fun _ _ => True) trivial ?_ ?_) ?_
  · intro phase state event next _ step
    exact step.sendsOnly
  · intros
    trivial
  · intros
    trivial

/-! ## What is received -/

/-- No NUL, no blank and no part of a line end. -/
def PlainUrl (strUrl : Bytes) : Prop :=
  ∀ byte ∈ strUrl, byte ∉ ([0, 9, 10, 13, 32] : Bytes)

variable {request : HttpCall} {strUrl : Bytes}

theorem isDigit_visible {byte : UInt8} (digit : isDigit byte = true) :
    Receiver.isBlank byte = false ∧ byte ≠ 13 := by
  simp only [isDigit, Bool.and_eq_true, decide_eq_true_eq, UInt8.le_iff_toNat_le] at digit
  constructor
  · simp only [Receiver.isBlank, Bool.or_eq_false_iff, decide_eq_false_iff_not]
    constructor <;> rintro rfl <;> simp at digit
  · rintro rfl
    simp at digit

theorem PlainUrl.visible (plain : PlainUrl strUrl) {byte : UInt8} (mem : byte ∈ strUrl) :
    Receiver.isBlank byte = false ∧ byte ≠ 13 ∧ byte ≠ 32 := by
  have free := plain byte mem
  simp only [List.mem_cons, List.not_mem_nil, not_or] at free
  simp [Receiver.isBlank, free]

theorem commonFields_plain (plain : PlainUrl strUrl) :
    ∀ field ∈ commonFields strUrl, Receiver.PlainField field := by
  have name : 58 ∉ ascii "Host" ∧ 13 ∉ ascii "Host" := by decide
  have host : Receiver.PlainField (ascii "Host", getHostAddrFromUrl strUrl) := by
    apply Receiver.plainField_mk name
    intro byte mem
    have visible := plain.visible (mem_of_mem_getHostAddrFromUrl mem)
    exact ⟨visible.1, visible.2.1⟩
  rw [commonFields]
  simp only [List.forall_mem_cons]
  exact ⟨Receiver.plainField_of_all (by decide), Receiver.plainField_of_all (by decide),
    Receiver.plainField_of_all (by decide), host, Receiver.plainField_of_all (by decide),
    Receiver.plainField_of_all (by decide), by simp⟩

/-- On a short text the conversion to `int` is harmless. -/
theorem toInt_length {text : Bytes} (short : text.length < BUFSIZE) :
    toInt text.length = text.length := by
  have bound : text.length < 41000 := short
  rw [toInt]
  omega

theorem dataFields_plain (short : request.body.length < BUFSIZE) :
    ∀ field ∈ request.dataFields, Receiver.PlainField field := by
  cases request with
  | get url response => simp [HttpCall.dataFields]
  | post url strData response =>
      have name : 58 ∉ ascii "Content-Length" ∧ 13 ∉ ascii "Content-Length" := by decide
      have same : toInt (strData.getD []).length = (strData.getD []).length := toInt_length short
      have digits : ∀ byte ∈ decimal (toInt (strData.getD []).length),
          Receiver.isBlank byte = false ∧ byte ≠ 13 := by
        rw [same]
        exact fun byte mem => isDigit_visible (isDigit_of_mem_decimal mem)
      rw [HttpCall.dataFields]
      simp only [List.forall_mem_cons]
      exact ⟨Receiver.plainField_of_all (by decide), Receiver.plainField_mk name digits, by simp⟩

theorem strMethod_plain (request : HttpCall) :
    32 ∉ request.strMethod ∧ 13 ∉ request.strMethod := by
  have methods : (32 ∉ ascii "GET" ∧ 13 ∉ ascii "GET") ∧ 32 ∉ ascii "POST" ∧ 13 ∉ ascii "POST" := by
    decide
  cases request with
  | get url response => exact methods.1
  | post url strData response => exact methods.2

theorem head_plain (plain : PlainUrl strUrl) (short : request.body.length < BUFSIZE) :
    (request.head strUrl).Plain where
  method := strMethod_plain request
  target := by
    constructor <;> intro mem <;> rcases List.mem_cons.mp mem with is | mem
    · cases is
    · exact (plain.visible (mem_of_mem_getParamFromUrl mem)).2.2 rfl
    · cases is
    · exact (plain.visible (mem_of_mem_getParamFromUrl mem)).2.1 rfl
  fields := List.forall_mem_append.mpr ⟨commonFields_plain plain, dataFields_plain short⟩

theorem lookup_host : (request.head strUrl).readFields.lookup (ascii "host") =
    some (getHostAddrFromUrl strUrl) := by
  have key : ascii "host" = (ascii "Host").map Receiver.lower := by decide
  rw [key, List.lookup_eq_some_iff]
  refine ⟨[((ascii "Accept").map Receiver.lower, ascii "*/*"),
    ((ascii "Accept-Language").map Receiver.lower, ascii "en-us,en;q=0.5"),
    ((ascii "User-Agent").map Receiver.lower, ascii "Mozilla/4.0")], _, rfl, by decide⟩

theorem lookup_commonFields :
    ((commonFields strUrl).map fun (name, value) => (name.map Receiver.lower, value)).lookup
      (ascii "content-length") = none := by
  have names : ∀ name ∈ [ascii "Accept", ascii "Accept-Language", ascii "User-Agent", ascii "Host",
      ascii "Cache-Control", ascii "Connection"],
      (ascii "content-length" != name.map Receiver.lower) = true := by
    decide
  rw [List.lookup_eq_none_iff]
  intro field mem
  rcases List.mem_map.mp mem with ⟨written, among, rfl⟩
  exact names _ (List.mem_map_of_mem among : written.1 ∈ (commonFields strUrl).map Prod.fst)

theorem lookup_dataFields :
    (request.dataFields.map fun (name, value) => (name.map Receiver.lower, value)).lookup
        (ascii "content-length") =
      match request with
      | .get _ _ => none
      | .post _ _ _ => some (decimal (toInt request.body.length)) := by
  cases request with
  | get url response => rfl
  | post url strData response =>
      have key : ascii "content-length" = (ascii "Content-Length").map Receiver.lower := by decide
      rw [key, List.lookup_eq_some_iff]
      exact ⟨[((ascii "Content-Type").map Receiver.lower, ascii "text/html")], _, rfl, by decide⟩

/-- The Content-Length field has the length of the body; there is none without a body. -/
theorem contentLength_head (short : request.body.length < BUFSIZE) :
    Receiver.contentLength (request.head strUrl).readFields = some request.body.length := by
  rw [Receiver.contentLength, Receiver.Head.readFields, HttpCall.head, List.map_append,
    List.lookup_append, lookup_commonFields, lookup_dataFields, Option.none_or]
  cases request with
  | get url response => rfl
  | post url strData response =>
      dsimp only
      rw [toInt_length short, if_pos, decimalValue_decimal]
      refine ⟨decimal_ne_nil _, ?_⟩
      rw [List.all_eq_true]
      exact fun byte mem => isDigit_of_mem_decimal mem

theorem body_short
    (fits : (httpHeadCreate request.strMethod strUrl request.strData).length < BUFSIZE) :
    request.body.length < BUFSIZE := by
  rw [httpHeadCreate_eq, List.length_append, List.length_append] at fits
  omega

/-- What `HttpHeadCreate` writes is received as the request of the call. -/
theorem readRequest_httpHeadCreate (plain : PlainUrl strUrl)
    (fits : (httpHeadCreate request.strMethod strUrl request.strData).length < BUFSIZE)
    {stream rest : Bytes}
    (skipped : skipEmptyLines stream =
      skipEmptyLines (httpHeadCreate request.strMethod strUrl request.strData ++ rest)) :
    Receiver.readRequest stream = some (request.toRequest strUrl, request.trailer ++ rest) := by
  have short := body_short fits
  rw [httpHeadCreate_eq, List.append_assoc, List.append_assoc] at skipped
  exact Receiver.readRequest_of_written (head_plain plain short) lookup_host
    (contentLength_head short) skipped

theorem skipEmptyLines_trailer (rest : Bytes) :
    skipEmptyLines (request.trailer ++ rest) = skipEmptyLines rest := by
  cases request <;> rfl

/-! ## Calls on one connection -/

/-- A successful send: the descriptor, the data and the number of bytes taken. -/
def taken (fd : ℤ) (data : Bytes) (ret : ℤ) : Option (ℤ × Bytes × ℤ) :=
  if ret < 0 then none else some (fd, data, ret)

def takenBySend : sys.Event → Option (ℤ × Bytes × ℤ)
  | ⟨.send fd data, ret⟩ => taken fd data ret
  | _ => none

theorem mem_of_taken {events : List sys.Event} {fd ret : ℤ} {data : Bytes}
    (mem : (fd, data, ret) ∈ events.filterMap takenBySend) : ⟨.send fd data, ret⟩ ∈ events := by
  rcases List.mem_filterMap.mp mem with ⟨⟨command, answer⟩, inside, is⟩
  cases command with
  | send otherFd otherData =>
      change taken otherFd otherData answer = _ at is
      simp only [taken, Option.ite_none_left_eq_some, Option.some.injEq, Prod.mk.injEq] at is
      rcases is with ⟨_, rfl, rfl, rfl⟩
      exact inside
  | _ => cases is

/-- A finished call which has sent its request over this connection. -/
structure Exchange (fd : ℤ) where
  request : HttpCall
  strUrl : Bytes
  accepted : request.acceptedUrl = some strUrl
  plain : PlainUrl strUrl
  noNul : 0 ∉ request.body
  fits : (httpHeadCreate request.strMethod strUrl request.strData).length < BUFSIZE
  rounds : ℕ
  events : List sys.Event
  value : ℤ × Bytes
  run : Follows (request.run rounds) events (.done value)
  /-- What was sent. -/
  data : Bytes
  once : events.filterMap takenBySend = [(fd, data, (data.length : ℤ))]

namespace Exchange

variable {fd : ℤ}

def httpHead (exchange : Exchange fd) : Bytes :=
  httpHeadCreate exchange.request.strMethod exchange.strUrl exchange.request.strData

def toRequest (exchange : Exchange fd) : Receiver.Request :=
  exchange.request.toRequest exchange.strUrl

theorem data_eq (exchange : Exchange fd) : exchange.data = exchange.httpHead ++ [0] := by
  have sent : (fd, exchange.data, (exchange.data.length : ℤ)) ∈
      exchange.events.filterMap takenBySend := by
    rw [exchange.once]
    exact List.mem_singleton_self _
  rcases List.append_of_mem (mem_of_taken sent) with ⟨earlier, later, split⟩
  have run := exchange.run
  rw [split] at run
  exact (run_onlySends exchange.accepted).command_of_follows run

theorem readRequest_httpHead (exchange : Exchange fd) {stream rest : Bytes}
    (skipped : skipEmptyLines stream = skipEmptyLines (exchange.httpHead ++ rest)) :
    Receiver.readRequest stream =
      some (exchange.toRequest, exchange.request.trailer ++ rest) :=
  readRequest_httpHeadCreate exchange.plain exchange.fits skipped

theorem method_head (exchange : Exchange fd) : exchange.toRequest.method.head? ≠ some 0 := by
  have methods : (ascii "GET").head? ≠ some 0 ∧ (ascii "POST").head? ≠ some 0 := by decide
  rcases exchange with ⟨request⟩
  cases request with
  | get url response => exact methods.1
  | post url strData response => exact methods.2

theorem length_le_httpHeads (exchanges : List (Exchange fd)) :
    exchanges.length ≤ (exchanges.flatMap httpHead).length := by
  induction exchanges with
  | nil => exact Nat.le_refl _
  | cons exchange exchanges ih =>
      have lines := Receiver.lines_lt_writeLines (exchange.request.head exchange.strUrl).lines
      rw [List.flatMap_cons, List.length_append, List.length_cons, httpHead, httpHeadCreate_eq,
        List.length_append]
      omega

theorem decode_httpHeads {exchanges : List (Exchange fd)} {bound : ℕ} {stream : Bytes}
    (enough : exchanges.length < bound)
    (skipped : skipEmptyLines stream = skipEmptyLines (exchanges.flatMap httpHead)) :
    Receiver.decode bound stream = (exchanges.map toRequest, []) := by
  induction exchanges generalizing bound stream with
  | nil =>
      cases bound with
      | zero => simp at enough
      | succ bound =>
          have empty : skipEmptyLines stream = [] := skipped
          have nothing : Receiver.readRequest stream = none := by
            rw [Receiver.readRequest, empty]
            rfl
          rw [Receiver.decode, nothing]
          exact Prod.ext rfl empty
  | cons exchange exchanges ih =>
      cases bound with
      | zero => simp at enough
      | succ bound =>
          have fewer : exchanges.length < bound := by simpa using enough
          rw [List.flatMap_cons] at skipped
          rw [Receiver.decode_succ (exchange.readRequest_httpHead skipped),
            ih fewer (skipEmptyLines_trailer _)]
          rfl

/-- Without the NULs, the requests would be received as they were sent. -/
theorem httpHeads_received (exchanges : List (Exchange fd)) :
    Receiver.receive (exchanges.flatMap httpHead) = (exchanges.map toRequest, []) :=
  decode_httpHeads (Nat.lt_succ_of_le (length_le_httpHeads exchanges)) rfl

/-- The requests are received as they were sent, with nothing left over, only if there
are none. -/
theorem requests_received_iff (exchanges : List (Exchange fd)) :
    Receiver.receive (exchanges.flatMap data) = (exchanges.map toRequest, []) ↔
      exchanges = [] := by
  constructor
  · intro received
    cases exchanges with
    | nil => rfl
    | cons first later =>
        exfalso
        have next : (first :: later).flatMap data =
            first.httpHead ++ 0 :: later.flatMap data := by
          rw [List.flatMap_cons, data_eq, List.append_assoc]
          rfl
        have read := first.readRequest_httpHead (congrArg skipEmptyLines next)
        rw [Receiver.receive, Receiver.decode_succ read, List.map_cons, Prod.mk.injEq,
          List.cons.injEq] at received
        have skipped : skipEmptyLines (first.request.trailer ++ 0 :: later.flatMap data) =
            0 :: later.flatMap data :=
          (skipEmptyLines_trailer _).trans (Receiver.skipEmptyLines_cons _ (by decide))
        rcases Receiver.decode_of_head (Prod.ext received.1.2 received.2) skipped (by decide)
          (by decide) with ⟨_, left⟩ | ⟨request, rest, is, nul⟩
        · exact left rfl
        · cases later with
          | nil => cases is
          | cons second later =>
              cases is
              exact second.method_head nul
  · rintro rfl
    rfl

end Exchange

/-! ## Two requests -/

def emptyResponse : Received :=
  .data (ascii "HTTP/1.1 200 OK\r\n\r\n") (by decide) (by decide)

def getPing : HttpCall := .get (some (ascii "http://1.2.3.4/ping")) []

/-- The exchanges of the call when the kept descriptor is this one. -/
def pingEvents (kept : ℤ) : List sys.Event :=
  Program.transcript (prompt kept (fun _ => some 0x01020304) emptyResponse) 0 (getPing.run 1)

def firstPing : Exchange 3 where
  request := getPing
  strUrl := ascii "http://1.2.3.4/ping"
  accepted := by decide +kernel
  plain := by unfold PlainUrl; decide +kernel
  noNul := by decide +kernel
  fits := by decide +kernel
  rounds := 1
  events := pingEvents INVALID_SOCKET
  value := (1, ascii "HTTP/1.1 200 OK\r\n\r\n")
  run := Program.follows_transcript (by decide +kernel)
  data := httpHeadCreate (ascii "GET") (ascii "http://1.2.3.4/ping") none ++ [0]
  once := by decide +kernel

def secondPing : Exchange 3 :=
  { firstPing with
    events := pingEvents 3
    run := Program.follows_transcript (by decide +kernel)
    once := by decide +kernel }

/-- The NUL is in front of the second method, and another is left over. -/
theorem secondPing_not_received :
    ¬∀ (fd : ℤ) (exchanges : List (Exchange fd)),
      Receiver.receive (exchanges.flatMap Exchange.data) =
        (exchanges.map Exchange.toRequest, []) := by
  intro always
  have received := always 3 [firstPing, secondPing]
  have differs : (Receiver.receive ([firstPing, secondPing].flatMap Exchange.data)).1 ≠
      [firstPing, secondPing].map Exchange.toRequest := by
    decide +kernel
  exact differs (congrArg Prod.fst received)

end HumanMachine.Client
