import HumanMachine.Client.Framing
import HumanMachine.Server.SearchServlet

/-!
# The way of a document

The body is cut out by the length which `HttpHeadCreate` prints, so that empty lines and
lines like header fields inside of it do no harm. `getBodyData` then deletes the line
breaks, which in a JSON text stand between tokens only.
-/

namespace HumanMachine.Client

open Program (Follows)

/-- Nothing is sent for a URL which is rejected. -/
theorem acceptedUrl_of_sent {request : HttpCall} {rounds : ℕ} {events : List sys.Event}
    {remaining : Http (ℤ × Bytes)} (follows : Follows (request.run rounds) events remaining)
    {event : sys.Event} (mem : event ∈ events) : ∃ strUrl, request.acceptedUrl = some strUrl := by
  cases accepted : request.acceptedUrl with
  | none =>
      rw [run_of_rejected accepted] at follows
      rcases follows.of_done with ⟨rfl, _⟩
      cases mem
  | some strUrl => exact ⟨strUrl, rfl⟩

/-- What is sent begins with the request which `HttpHeadCreate` has built. -/
theorem sent_eq {request : HttpCall} {strUrl : Bytes} (url : request.strUrl = some strUrl)
    {rounds : ℕ} {events : List sys.Event} {remaining : Http (ℤ × Bytes)}
    (follows : Follows (request.run rounds) events remaining) {fd ret : ℤ} {data : Bytes}
    (sent : ⟨.send fd data, ret⟩ ∈ events) :
    data = httpHeadCreate request.strMethod strUrl request.strData ++ [0] := by
  rcases acceptedUrl_of_sent follows sent with ⟨accepted, isAccepted⟩
  have same : accepted = strUrl := by
    have found := (Option.filter_eq_some_iff.mp isAccepted).1
    rw [url, Option.some_inj] at found
    exact found.symm
  subst same
  rcases List.append_of_mem sent with ⟨earlier, later, split⟩
  rw [split] at follows
  exact (run_onlySends isAccepted).command_of_follows follows

/-- Whatever comes after it, the first request on a connection is received, and its body
without the line breaks is again a text of the uploaded value. -/
theorem uploaded_document_intact {value : Json} {text : String}
    (isText : JsonText.IsText value text.toList) {request : HttpCall} {strUrl strResponse : Bytes}
    (posts : request = .post (some strUrl) (some (utf8 text)) strResponse) (plain : PlainUrl strUrl)
    (fits : (httpHeadCreate request.strMethod strUrl request.strData).length < BUFSIZE)
    {decode : Bytes → List Char} (faithful : decode (utf8 text) = text.toList)
    {rounds : ℕ} {events : List sys.Event} {remaining : Http (ℤ × Bytes)}
    (follows : Follows (request.run rounds) events remaining)
    {fd ret : ℤ} {data : Bytes} (sent : ⟨.send fd data, ret⟩ ∈ events) (later : Bytes) :
    ∃ received rest body, Receiver.readRequest (data ++ later) = some (received, rest) ∧
      Server.getBodyData (some (decode received.body)) = some body ∧
      JsonText.IsText value body.toList := by
  have url : request.strUrl = some strUrl := congrArg HttpCall.strUrl posts
  have body : (request.toRequest strUrl).body = utf8 text := congrArg HttpCall.body posts
  refine ⟨request.toRequest strUrl, request.trailer ++ ([0] ++ later),
    .ofList (JsonText.unbroken text.toList), ?_, ?_, ?_⟩
  · apply readRequest_httpHeadCreate plain fits
    rw [sent_eq url follows sent, List.append_assoc]
  · rw [body, faithful, Server.getBodyData_eq]
  · rw [String.toList_ofList]
    exact isText.unbroken

/-! ### A list over three lines -/

def listedNull : String := "[\nnull\n]"

theorem listedNull_isText : JsonText.IsText (.arr [.null]) listedNull.toList := by
  have text : listedNull.toList =
      [] ++ '[' :: ((['\n'] ++ "null".toList ++ ['\n']) ++ [']']) ++ [] := by
    decide
  have line : JsonText.Space ['\n'] := by simp [JsonText.Space]
  rw [text]
  exact .element (by simp [JsonText.Space]) (.array (.lastElement (.element line .null line)))
    (by simp [JsonText.Space])

def postListedNull : HttpCall :=
  .post (some (ascii "http://1.2.3.4")) (some (utf8 listedNull)) []

def postedHead : Bytes :=
  httpHeadCreate (ascii "POST") (ascii "http://1.2.3.4") (some (utf8 listedNull))

def postEvents : List sys.Event :=
  Program.transcript (prompt INVALID_SOCKET (fun _ => some 0x01020304) emptyResponse) 0
    (postListedNull.run 1)

theorem postEvents_follow :
    Follows (postListedNull.run 1) postEvents (.done (1, ascii "HTTP/1.1 200 OK\r\n\r\n")) :=
  Program.follows_transcript (by decide +kernel)

theorem postListedNull_sent :
    ⟨.send 3 (postedHead ++ [0]), ((postedHead.length + 1 : ℕ) : ℤ)⟩ ∈ postEvents := by
  have taken : postEvents.filterMap takenBySend =
      [(3, postedHead ++ [0], ((postedHead.length + 1 : ℕ) : ℤ))] := by
    decide +kernel
  exact mem_of_taken (taken ▸ List.mem_singleton_self _)

/-- Bytes below 128 stand for themselves. -/
def decodeAscii (bytes : Bytes) : List Char :=
  bytes.map fun byte => Char.ofNat byte.toNat

theorem uploaded_document_intact_listedNull :
    ∃ received rest body,
      Receiver.readRequest (postedHead ++ [0] ++ []) = some (received, rest) ∧
      Server.getBodyData (some (decodeAscii received.body)) = some body ∧
      JsonText.IsText (.arr [.null]) body.toList := by
  refine uploaded_document_intact listedNull_isText rfl ?_ ?_ ?_ postEvents_follow
    postListedNull_sent []
  · unfold PlainUrl
    decide +kernel
  · decide +kernel
  · decide +kernel

end HumanMachine.Client
