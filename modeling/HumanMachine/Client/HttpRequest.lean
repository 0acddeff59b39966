import HumanMachine.Client.Sys
import HumanMachine.Client.Url
import Mathlib.Data.List.TakeWhile

/-!
# The HTTP client: `HttpRequest.h`

`strResponse` is passed in and returned, the text it holds after the call together
with the return value. The endless loop around `recv` has a number of rounds; a run
that is still waiting when they are used up is `unfinished`. Buffers are lists, so
texts which overflow a buffer in C are outside of what the model says.
-/

namespace HumanMachine.Client

def httpHeadCreate (strMethod strUrl : Bytes) (strData : Option Bytes) : Bytes :=
  let strHost := getHostAddrFromUrl strUrl
  let strParam := getParamFromUrl strUrl
  let strHttpHead := strMethod ++ ascii " /" ++ strParam ++ ascii " HTTP/1.1\r\n" ++
    ascii "Accept: */*\r\n" ++ ascii "Accept-Language: en-us,en;q=0.5\r\n" ++
    ascii "User-Agent: Mozilla/4.0\r\n" ++ ascii "Host: " ++ strHost ++ ascii "\r\n" ++
    ascii "Cache-Control: no-cache\r\n" ++ ascii "Connection: Keep-Alive\r\n"
  let strHttpHead :=
    if strMethod = ascii "POST" then
      let strData := strData.getD []
      strHttpHead ++ ascii "Content-Type: text/html\r\n" ++ ascii "Content-Length: " ++
        decimal (toInt strData.length) ++ ascii "\r\n\r\n" ++ strData
    else strHttpHead
  strHttpHead ++ ascii "\r\n\r\n"

def socketFdCheck (iSockFd : ℤ) : Http ℤ := do
  let selected : Selected ← call (.select iSockFd)
  if selected.ret > 0 then
    if selected.writable && !selected.readable then
      let pending : PendingError ← call (.getsockopt iSockFd)
      -- `strcmp(error, "")` looks at the first of the four bytes.
      if pending.ret = 0 && pending.error.toNat % 256 = 0 then return selected.ret
      else return -2
    else return -2
  else if selected.ret = 0 then return 0
  else return -1

/-- The loop around `recv`. -/
def receive (iSockFd : ℤ) : ℕ → Http (Option Bytes)
  | 0 => .unfinished
  | rounds + 1 => do
      let received : Received ← call (.recv iSockFd)
      match received with
      | .closed =>
          call (.close iSockFd)
          return none
      | .data buf _ _ => return some buf
      | .failed errno =>
          if errno = .EINTR || errno = .EAGAIN then receive iSockFd rounds
          else
            call (.close iSockFd)
            return none

/-- `HttpDataTransmit`: the received bytes, or nothing for `NULL`. -/
def httpDataTransmit (rounds : ℕ) (strHttpHead : Bytes) (iSockFd : ℤ) : Http (Option Bytes) := do
  -- `strlen(strHttpHead) + 1` bytes: the NUL is sent too.
  let ret : ℤ ← call (.send iSockFd (strHttpHead ++ [0]))
  call .freeHttpHead
  if ret < 0 then
    call (.close iSockFd)
    return none
  else receive iSockFd rounds

/-- The C string in a buffer. -/
def cString (buf : Bytes) : Bytes :=
  buf.takeWhile (· ≠ 0)

theorem cString_of_noNul {bytes : Bytes} (noNul : 0 ∉ bytes) : cString bytes = bytes := by
  apply List.takeWhile_eq_self_iff.mpr
  intro byte mem
  have : byte ≠ 0 := fun zero => noNul (zero ▸ mem)
  simpa using this

def getIPFromUrl (strUrl : Bytes) : Http (Option Bytes) := do
  let strAddr := hostOfUrl strUrl
  if strAddr.length ≤ 1 then return none
  else if isDotted strAddr then return some strAddr
  else
    let he : Option (List Bytes) ← call (.gethostbyname strAddr)
    match he with
    | none => return none
    | some addr_list => return addr_list.head?

def O_NONBLOCK : BitVec 32 := 2048

/-- The ends of `HttpRequestExec` in which the new socket is given up. -/
def giveUp (fd : ℤ) (strResponse : Bytes) : Http (ℤ × Bytes) := do
  call (.close fd)
  call (.storeSocketFd INVALID_SOCKET)
  return (0, strResponse)

/-- The request on the new socket; what is received is copied to `strResponse`. -/
def transmitNew (rounds : ℕ) (strHttpHead : Bytes) (fd : ℤ) (strResponse : Bytes) :
    Http (ℤ × Bytes) := do
  match ← httpDataTransmit rounds strHttpHead fd with
  | some strResult => return (1, cString strResult)
  | none => giveUp fd strResponse

/-- The part of `HttpRequestExec` from `connect` on. -/
def connectTo (rounds : ℕ) (strHttpHead : Bytes) (fd : ℤ) (address : Address) (iPort : ℤ)
    (strResponse : Bytes) : Http (ℤ × Bytes) := do
  let iRet : Option Errno ← call (.connect fd address (iPort % 2 ^ 16).toNat)
  match iRet with
  | none => transmitNew rounds strHttpHead fd strResponse
  | some errno =>
      if errno ≠ .EINPROGRESS then return (0, strResponse)
      else
        let iRet ← socketFdCheck fd
        if iRet > 0 then transmitNew rounds strHttpHead fd strResponse
        else giveUp fd strResponse

/-- The part of `HttpRequestExec` from the creation of a socket on. -/
def connectAndTransmit (rounds : ℕ) (strUrl strHttpHead strResponse : Bytes) :
    Http (ℤ × Bytes) := do
  call (.storeSocketFd INVALID_SOCKET)
  let fd : ℤ ← call .socket
  call (.storeSocketFd fd)
  if fd < 0 then return (0, strResponse)
  else if getPortFromUrl strUrl < 0 then return (0, strResponse)
  else
    match ← getIPFromUrl strUrl with
    | none => return (0, strResponse)
    | some strIP =>
        let servaddr : Option Address ← call (.inet_pton strIP)
        match servaddr with
        | none => giveUp fd strResponse
        | some address =>
            let flags : BitVec 32 ← call (.fcntlGetFl fd)
            let set : ℤ ← call (.fcntlSetFl fd (flags ||| O_NONBLOCK))
            if set = -1 then giveUp fd strResponse
            else connectTo rounds strHttpHead fd address (getPortFromUrl strUrl) strResponse

/-- The request on the socket of an earlier call, if there is one and it is ready. -/
def transmitCached (rounds : ℕ) (strHttpHead : Bytes) : Http (Option Bytes) := do
  let fd : ℤ ← call .loadSocketFd
  if fd ≠ INVALID_SOCKET then
    let iRet ← socketFdCheck fd
    if iRet > 0 then httpDataTransmit rounds strHttpHead fd
    else return none
  else return none

def httpRequestExec (rounds : ℕ) (strMethod : Bytes) (strUrl strData : Option Bytes)
    (strResponse : Bytes) : Http (ℤ × Bytes) :=
  match strUrl with
  | none => return (0, strResponse)
  | some strUrl =>
      if strUrl = [] then return (0, strResponse)
      else if URLSIZE < strUrl.length then return (0, strResponse)
      else do
        let strHttpHead := httpHeadCreate strMethod strUrl strData
        match ← transmitCached rounds strHttpHead with
        | some strResult => return (1, cString strResult)
        | none => connectAndTransmit rounds strUrl strHttpHead strResponse

def httpGet (rounds : ℕ) (strUrl : Option Bytes) (strResponse : Bytes) : Http (ℤ × Bytes) :=
  httpRequestExec rounds (ascii "GET") strUrl none strResponse

def httpPost (rounds : ℕ) (strUrl strData : Option Bytes) (strResponse : Bytes) :
    Http (ℤ × Bytes) :=
  httpRequestExec rounds (ascii "POST") strUrl strData strResponse

inductive HttpCall where
  | get (strUrl : Option Bytes) (strResponse : Bytes)
  | post (strUrl strData : Option Bytes) (strResponse : Bytes)

namespace HttpCall

def strMethod : HttpCall → Bytes
  | get _ _ => ascii "GET"
  | post _ _ _ => ascii "POST"

def strUrl : HttpCall → Option Bytes
  | get strUrl _ => strUrl
  | post strUrl _ _ => strUrl

def strData : HttpCall → Option Bytes
  | get _ _ => none
  | post _ strData _ => strData

def strResponse : HttpCall → Bytes
  | get _ strResponse => strResponse
  | post _ _ strResponse => strResponse

def run (rounds : ℕ) : HttpCall → Http (ℤ × Bytes)
  | get strUrl strResponse => httpGet rounds strUrl strResponse
  | post strUrl strData strResponse => httpPost rounds strUrl strData strResponse

theorem run_eq (rounds : ℕ) (request : HttpCall) :
    request.run rounds =
      httpRequestExec rounds request.strMethod request.strUrl request.strData
        request.strResponse := by
  cases request <;> rfl

/-- The URL, if `HttpRequestExec` does not reject it. -/
def acceptedUrl (request : HttpCall) : Option Bytes :=
  request.strUrl.filter fun strUrl => strUrl ≠ [] ∧ ¬URLSIZE < strUrl.length

end HttpCall

theorem run_of_rejected {rounds : ℕ} {request : HttpCall} (rejected : request.acceptedUrl = none) :
    request.run rounds = .done (0, request.strResponse) := by
  rw [HttpCall.run_eq]
  cases url : request.strUrl with
  | none => rfl
  | some strUrl =>
      rw [HttpCall.acceptedUrl, url] at rejected
      rw [httpRequestExec]
      by_cases empty : strUrl = []
      · simp [empty]
      · by_cases long : URLSIZE < strUrl.length
        · simp [empty, long]
        · simp [empty, long] at rejected

theorem run_of_accepted {rounds : ℕ} {request : HttpCall} {strUrl : Bytes}
    (accepted : request.acceptedUrl = some strUrl) :
    request.run rounds =
      transmitCached rounds (httpHeadCreate request.strMethod strUrl request.strData) >>=
        fun
        | some strResult => pure (1, cString strResult)
        | none => connectAndTransmit rounds strUrl
            (httpHeadCreate request.strMethod strUrl request.strData) request.strResponse := by
  rw [HttpCall.acceptedUrl, Option.filter_eq_some_iff] at accepted
  rcases accepted with ⟨url, fits⟩
  rw [decide_eq_true_eq] at fits
  rw [HttpCall.run_eq, url, httpRequestExec, if_neg fits.1, if_neg fits.2]

theorem serverUrl_accepted (strData strResponse : Bytes) :
    (HttpCall.post (some serverUrl) (some strData) strResponse).acceptedUrl = some serverUrl := by
  rw [HttpCall.acceptedUrl, HttpCall.strUrl, Option.filter_eq_some_iff]
  decide

/-! ### A call -/

def getAddress : HttpCall := .get (some (ascii "http://1.2.3.4")) []

end HumanMachine.Client
