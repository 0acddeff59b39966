import HumanMachine.Client.HttpRequest
import HumanMachine.Program.Machine

/-!
# The phases of a call

A call first tries the kept socket, if there is one, and falls through to a new one.
`HttpDataTransmit` is entered from both places, so its phases say which socket it is
given. `HttpRequestExec` runs on the machine of these phases (`run_runsOn`), so what
its steps keep holds of every call.
-/

namespace HumanMachine.Client

open Program (RunsOn)

/-- `SocketFdCheck` goes on to `getsockopt`. -/
def Selected.ready (selected : Selected) : Bool :=
  selected.ret > 0 && selected.writable && !selected.readable

/-- `getsockopt` finds nothing wrong. -/
def PendingError.clear (pending : PendingError) : Bool :=
  pending.ret = 0 && pending.error.toNat % 256 = 0

/-- `recv` is called again. -/
def Errno.transient (errno : Errno) : Bool :=
  errno = .EINTR || errno = .EAGAIN

/-- The socket of an earlier call, or the one created in this call. -/
inductive Origin where
  | kept
  | fresh
  deriving DecidableEq

/-- A phase is named by what comes next in it. -/
inductive Phase where
  | start
  | check (origin : Origin) (fd : ℤ)
  | pending (origin : Origin) (fd : ℤ)
  | transmit (origin : Origin) (fd : ℤ)
  | release (origin : Origin) (fd : ℤ) (failed : Bool)
  | receiving (origin : Origin) (fd : ℤ)
  /-- The transmission has failed, and `HttpDataTransmit` closes the socket. -/
  | lost (origin : Origin) (fd : ℤ)
  | renew
  | create
  | created (fd : ℤ)
  | resolve (fd : ℤ)
  | translate (fd : ℤ) (strIP : Bytes)
  | getFlags (fd : ℤ) (address : Address)
  | setFlags (fd : ℤ) (address : Address)
  | connect (fd : ℤ) (address : Address)
  | giveUp (fd : ℤ)
  | forget
  | finished (received : Option Bytes)

/-- What comes after a socket which cannot be used. -/
@[simp]
def Phase.failed : Origin → ℤ → Phase
  | .kept, _ => .renew
  | .fresh, fd => .giveUp fd

/-- The URL names a port and a host. -/
def HasTarget (strUrl : Bytes) : Prop :=
  0 ≤ getPortFromUrl strUrl ∧ 1 < (hostOfUrl strUrl).length

inductive Step (strUrl strHttpHead : Bytes) : Phase → sys.Event → Phase → Prop where
  | noneKept : Step strUrl strHttpHead .start ⟨.loadSocketFd, INVALID_SOCKET⟩ .renew
  | kept {fd : ℤ} (isKept : fd ≠ INVALID_SOCKET) :
      Step strUrl strHttpHead .start ⟨.loadSocketFd, fd⟩ (.check .kept fd)
  | select {origin : Origin} {fd : ℤ} {selected : Selected} (ready : selected.ready = true) :
      Step strUrl strHttpHead (.check origin fd) ⟨.select fd, selected⟩ (.pending origin fd)
  | selectUnready {origin : Origin} {fd : ℤ} {selected : Selected}
      (unready : selected.ready = false) :
      Step strUrl strHttpHead (.check origin fd) ⟨.select fd, selected⟩ (.failed origin fd)
  | getsockopt {origin : Origin} {fd : ℤ} {pending : PendingError} (clear : pending.clear = true) :
      Step strUrl strHttpHead (.pending origin fd) ⟨.getsockopt fd, pending⟩ (.transmit origin fd)
  | getsockoptError {origin : Origin} {fd : ℤ} {pending : PendingError}
      (unclear : pending.clear = false) :
      Step strUrl strHttpHead (.pending origin fd) ⟨.getsockopt fd, pending⟩ (.failed origin fd)
  | send {origin : Origin} {fd ret : ℤ} :
      Step strUrl strHttpHead (.transmit origin fd) ⟨.send fd (strHttpHead ++ [0]), ret⟩
        (.release origin fd (ret < 0))
  | free {origin : Origin} {fd : ℤ} :
      Step strUrl strHttpHead (.release origin fd false) ⟨.freeHttpHead, ()⟩ (.receiving origin fd)
  | freeFailed {origin : Origin} {fd : ℤ} :
      Step strUrl strHttpHead (.release origin fd true) ⟨.freeHttpHead, ()⟩ (.lost origin fd)
  | recv {origin : Origin} {fd : ℤ} {buf : Bytes} {nonempty : buf ≠ []}
      {fits : buf.length ≤ BUFSIZE} :
      Step strUrl strHttpHead (.receiving origin fd) ⟨.recv fd, Received.data buf nonempty fits⟩
        (.finished (some buf))
  | recvClosed {origin : Origin} {fd : ℤ} :
      Step strUrl strHttpHead (.receiving origin fd) ⟨.recv fd, Received.closed⟩ (.lost origin fd)
  | recvAgain {origin : Origin} {fd : ℤ} {errno : Errno} (transient : errno.transient = true) :
      Step strUrl strHttpHead (.receiving origin fd) ⟨.recv fd, Received.failed errno⟩
        (.receiving origin fd)
  | recvError {origin : Origin} {fd : ℤ} {errno : Errno} (fatal : errno.transient = false) :
      Step strUrl strHttpHead (.receiving origin fd) ⟨.recv fd, Received.failed errno⟩
        (.lost origin fd)
  | closeLost {origin : Origin} {fd : ℤ} :
      Step strUrl strHttpHead (.lost origin fd) ⟨.close fd, ()⟩ (.failed origin fd)
  | renew : Step strUrl strHttpHead .renew ⟨.storeSocketFd INVALID_SOCKET, ()⟩ .create
  | socket {fd : ℤ} : Step strUrl strHttpHead .create ⟨.socket, fd⟩ (.created fd)
  | noSocket {fd : ℤ} (none : fd < 0) :
      Step strUrl strHttpHead (.created fd) ⟨.storeSocketFd fd, ()⟩ (.finished .none)
  | noTarget {fd : ℤ} (some : 0 ≤ fd) (noTarget : ¬HasTarget strUrl) :
      Step strUrl strHttpHead (.created fd) ⟨.storeSocketFd fd, ()⟩ (.finished none)
  | named {fd : ℤ} (some : 0 ≤ fd) (target : HasTarget strUrl)
      (undotted : isDotted (hostOfUrl strUrl) = false) :
      Step strUrl strHttpHead (.created fd) ⟨.storeSocketFd fd, ()⟩ (.resolve fd)
  | dotted {fd : ℤ} (some : 0 ≤ fd) (target : HasTarget strUrl)
      (dotted : isDotted (hostOfUrl strUrl) = true) :
      Step strUrl strHttpHead (.created fd) ⟨.storeSocketFd fd, ()⟩
        (.translate fd (hostOfUrl strUrl))
  | gethostbyname {fd : ℤ} {he : Option (List Bytes)} {strIP : Bytes}
      (found : he.bind List.head? = some strIP) :
      Step strUrl strHttpHead (.resolve fd) ⟨.gethostbyname (hostOfUrl strUrl), he⟩
        (.translate fd strIP)
  | gethostbynameError {fd : ℤ} {he : Option (List Bytes)} (none : he.bind List.head? = none) :
      Step strUrl strHttpHead (.resolve fd) ⟨.gethostbyname (hostOfUrl strUrl), he⟩
        (.finished .none)
  | inet_pton {fd : ℤ} {strIP : Bytes} {address : Address} :
      Step strUrl strHttpHead (.translate fd strIP) ⟨.inet_pton strIP, some address⟩
        (.getFlags fd address)
  | inet_ptonError {fd : ℤ} {strIP : Bytes} :
      Step strUrl strHttpHead (.translate fd strIP) ⟨.inet_pton strIP, (none : Option Address)⟩
        (.giveUp fd)
  | fcntlGetFl {fd : ℤ} {address : Address} {flags : BitVec 32} :
      Step strUrl strHttpHead (.getFlags fd address) ⟨.fcntlGetFl fd, flags⟩ (.setFlags fd address)
  | fcntlSetFl {fd set : ℤ} {address : Address} {flags : BitVec 32} (done : set ≠ -1) :
      Step strUrl strHttpHead (.setFlags fd address) ⟨.fcntlSetFl fd flags, set⟩
        (.connect fd address)
  | fcntlSetFlError {fd : ℤ} {address : Address} {flags : BitVec 32} :
      Step strUrl strHttpHead (.setFlags fd address) ⟨.fcntlSetFl fd flags, (-1 : ℤ)⟩ (.giveUp fd)
  | connect {fd : ℤ} {address : Address} :
      Step strUrl strHttpHead (.connect fd address)
        ⟨.connect fd address (getPortFromUrl strUrl % 2 ^ 16).toNat, (none : Option Errno)⟩
        (.transmit .fresh fd)
  | connectInProgress {fd : ℤ} {address : Address} :
      Step strUrl strHttpHead (.connect fd address)
        ⟨.connect fd address (getPortFromUrl strUrl % 2 ^ 16).toNat, some Errno.EINPROGRESS⟩
        (.check .fresh fd)
  | connectError {fd : ℤ} {address : Address} {errno : Errno} (failed : errno ≠ .EINPROGRESS) :
      Step strUrl strHttpHead (.connect fd address)
        ⟨.connect fd address (getPortFromUrl strUrl % 2 ^ 16).toNat, some errno⟩ (.finished none)
  | closeGivenUp {fd : ℤ} : Step strUrl strHttpHead (.giveUp fd) ⟨.close fd, ()⟩ .forget
  | forget :
      Step strUrl strHttpHead .forget ⟨.storeSocketFd INVALID_SOCKET, ()⟩ (.finished none)

instance (command : sys.Command) : Nonempty (sys.Answer command) :=
  ⟨prompt INVALID_SOCKET (fun _ => none) .closed 0 command⟩

def Phase.Returns (strResponse : Bytes) (value : ℤ × Bytes) : Phase → Prop
  | .finished (some buf) => value = (1, cString buf)
  | .finished none => value = (0, strResponse)
  | _ => False

theorem Phase.Returns.finished {strResponse : Bytes} {value : ℤ × Bytes} {phase : Phase}
    (returns : phase.Returns strResponse value) : ∃ received, phase = .finished received := by
  cases phase with
  | finished received => exact ⟨received, rfl⟩
  | _ => cases returns

/-! ## `HttpRequestExec` runs on the machine -/

variable {strUrl strHttpHead strResponse : Bytes} {fd : ℤ} {rounds : ℕ}

theorem socketFdCheck_runsOn (origin : Origin) :
    RunsOn (Step strUrl strHttpHead)
      (fun iRet phase => phase = if iRet > 0 then .transmit origin fd else .failed origin fd)
      (socketFdCheck fd) (.check origin fd) := by
  apply Program.runsOn_request_bind
  intro (selected : Selected)
  by_cases positive : selected.ret > 0
  · by_cases ready : (selected.writable && !selected.readable) = true
    · refine ⟨_, .select (by simpa [Selected.ready, positive] using ready), ?_⟩
      rw [if_pos positive, if_pos ready]
      apply Program.runsOn_request_bind
      intro (pending : PendingError)
      by_cases clear : pending.clear = true
      · refine ⟨_, .getsockopt clear, ?_⟩
        change RunsOn _ _ (if pending.clear = true then _ else _) _
        rw [if_pos clear]
        exact (if_pos positive).symm
      · refine ⟨_, .getsockoptError (by simpa using clear), ?_⟩
        change RunsOn _ _ (if pending.clear = true then _ else _) _
        rw [if_neg clear]
        rfl
    · refine ⟨_, .selectUnready (by simpa [Selected.ready, positive] using ready), ?_⟩
      rw [if_pos positive, if_neg ready]
      rfl
  · refine ⟨_, .selectUnready (by simp [Selected.ready, positive]), ?_⟩
    rw [if_neg positive]
    split <;> rfl

def Phase.ofResult (origin : Origin) (fd : ℤ) : Option Bytes → Phase
  | some buf => .finished (some buf)
  | none => .failed origin fd

theorem receive_runsOn (origin : Origin) :
    RunsOn (Step strUrl strHttpHead) (fun result phase => phase = .ofResult origin fd result)
      (receive fd rounds) (.receiving origin fd) := by
  induction rounds with
  | zero => trivial
  | succ rounds ih =>
      apply Program.runsOn_request_bind
      intro (received : Received)
      cases received with
      | closed =>
          refine ⟨_, .recvClosed, ?_⟩
          apply Program.runsOn_request_bind
          intro _
          exact ⟨_, .closeLost, rfl⟩
      | data buf nonempty fits => exact ⟨_, .recv, rfl⟩
      | failed errno =>
          by_cases transient : errno.transient = true
          · refine ⟨_, .recvAgain transient, ?_⟩
            change RunsOn _ _ (if errno.transient = true then _ else _) _
            rw [if_pos transient]
            exact ih
          · refine ⟨_, .recvError (by simpa using transient), ?_⟩
            change RunsOn _ _ (if errno.transient = true then _ else _) _
            rw [if_neg transient]
            apply Program.runsOn_request_bind
            intro _
            exact ⟨_, .closeLost, rfl⟩

theorem httpDataTransmit_runsOn (origin : Origin) :
    RunsOn (Step strUrl strHttpHead) (fun result phase => phase = .ofResult origin fd result)
      (httpDataTransmit rounds strHttpHead fd) (.transmit origin fd) := by
  apply Program.runsOn_request_bind
  intro (ret : ℤ)
  refine ⟨_, .send, ?_⟩
  apply Program.runsOn_request_bind
  intro _
  by_cases failed : ret < 0
  · rw [if_pos failed, decide_eq_true failed]
    refine ⟨_, .freeFailed, ?_⟩
    apply Program.runsOn_request_bind
    intro _
    exact ⟨_, .closeLost, rfl⟩
  · rw [if_neg failed, decide_eq_false failed]
    exact ⟨_, .free, receive_runsOn origin⟩

theorem giveUp_runsOn :
    RunsOn (Step strUrl strHttpHead) (fun value phase => phase.Returns strResponse value)
      (giveUp fd strResponse) (.giveUp fd) := by
  apply Program.runsOn_request_bind
  intro _
  refine ⟨_, .closeGivenUp, ?_⟩
  apply Program.runsOn_request_bind
  intro _
  exact ⟨_, .forget, rfl⟩

theorem transmitNew_runsOn :
    RunsOn (Step strUrl strHttpHead) (fun value phase => phase.Returns strResponse value)
      (transmitNew rounds strHttpHead fd strResponse) (.transmit .fresh fd) := by
  apply RunsOn.bind
  apply (httpDataTransmit_runsOn .fresh).mono
  rintro result phase rfl
  cases result with
  | none => exact giveUp_runsOn
  | some strResult => exact rfl

theorem connectTo_runsOn {address : Address} :
    RunsOn (Step strUrl strHttpHead) (fun value phase => phase.Returns strResponse value)
      (connectTo rounds strHttpHead fd address (getPortFromUrl strUrl) strResponse)
      (.connect fd address) := by
  apply Program.runsOn_request_bind
  intro (result : Option Errno)
  cases result with
  | none => exact ⟨_, .connect, transmitNew_runsOn⟩
  | some errno =>
      by_cases failed : errno ≠ .EINPROGRESS
      · refine ⟨_, .connectError failed, ?_⟩
        change RunsOn _ _ (if errno ≠ .EINPROGRESS then _ else _) _
        rw [if_pos failed]
        rfl
      · obtain rfl : errno = .EINPROGRESS := not_not.mp failed
        refine ⟨_, .connectInProgress, ?_⟩
        apply RunsOn.bind
        apply (socketFdCheck_runsOn .fresh).mono
        rintro iRet phase rfl
        split
        · exact transmitNew_runsOn
        · exact giveUp_runsOn

/-- The rest of `HttpRequestExec` once the host is resolved. -/
theorem translate_runsOn {strIP : Bytes} :
    RunsOn (Step strUrl strHttpHead) (fun value phase => phase.Returns strResponse value)
      (do
        let servaddr : Option Address ← call (.inet_pton strIP)
        match servaddr with
        | none => giveUp fd strResponse
        | some address =>
            let flags : BitVec 32 ← call (.fcntlGetFl fd)
            let set : ℤ ← call (.fcntlSetFl fd (flags ||| O_NONBLOCK))
            if set = -1 then giveUp fd strResponse
            else connectTo rounds strHttpHead fd address (getPortFromUrl strUrl) strResponse)
      (.translate fd strIP) := by
  apply Program.runsOn_request_bind
  intro (servaddr : Option Address)
  cases servaddr with
  | none => exact ⟨_, .inet_ptonError, giveUp_runsOn⟩
  | some address =>
      refine ⟨_, .inet_pton, ?_⟩
      apply Program.runsOn_request_bind
      intro (flags : BitVec 32)
      refine ⟨_, .fcntlGetFl, ?_⟩
      apply Program.runsOn_request_bind
      intro (set : ℤ)
      by_cases error : set = -1
      · subst error
        exact ⟨_, .fcntlSetFlError, giveUp_runsOn⟩
      · refine ⟨_, .fcntlSetFl error, ?_⟩
        rw [if_neg error]
        exact connectTo_runsOn

theorem connectAndTransmit_runsOn :
    RunsOn (Step strUrl strHttpHead) (fun value phase => phase.Returns strResponse value)
      (connectAndTransmit rounds strUrl strHttpHead strResponse) .renew := by
  apply Program.runsOn_request_bind
  intro _
  refine ⟨_, .renew, ?_⟩
  apply Program.runsOn_request_bind
  intro (fd : ℤ)
  refine ⟨_, .socket, ?_⟩
  apply Program.runsOn_request_bind
  intro _
  by_cases none : fd < 0
  · refine ⟨_, .noSocket none, ?_⟩
    rw [if_pos none]
    rfl
  rw [if_neg none]
  have some : 0 ≤ fd := by omega
  by_cases noPort : getPortFromUrl strUrl < 0
  · refine ⟨_, .noTarget some (fun target => Int.not_lt.mpr target.1 noPort), ?_⟩
    rw [if_pos noPort]
    rfl
  rw [if_neg noPort]
  simp only [getIPFromUrl]
  by_cases short : (hostOfUrl strUrl).length ≤ 1
  · refine ⟨_, .noTarget some (fun target => not_lt.mpr short target.2), ?_⟩
    rw [if_pos short]
    rfl
  rw [if_neg short]
  have target : HasTarget strUrl := by
    simp only [HasTarget]
    omega
  by_cases dotted : isDotted (hostOfUrl strUrl) = true
  · refine ⟨_, .dotted some target dotted, ?_⟩
    rw [if_pos dotted]
    exact translate_runsOn
  refine ⟨_, .named some target (by simpa using dotted), ?_⟩
  rw [if_neg dotted]
  apply RunsOn.bind
  apply Program.runsOn_request_bind
  intro (he : Option (List Bytes))
  cases he with
  | none => exact ⟨_, .gethostbynameError rfl, rfl⟩
  | some addr_list =>
      cases found : addr_list.head? with
      | none =>
          refine ⟨_, .gethostbynameError found, ?_⟩
          simp only [Program.pure_eq_done, found]
          rfl
      | some strIP =>
          refine ⟨_, .gethostbyname found, ?_⟩
          simp only [Program.pure_eq_done, found]
          exact translate_runsOn

theorem transmitCached_runsOn :
    RunsOn (Step strUrl strHttpHead)
      (fun result phase => phase = .ofResult .kept INVALID_SOCKET result)
      (transmitCached rounds strHttpHead) .start := by
  apply Program.runsOn_request_bind
  intro (fd : ℤ)
  by_cases isKept : fd ≠ INVALID_SOCKET
  · refine ⟨_, .kept isKept, ?_⟩
    rw [if_pos isKept]
    apply RunsOn.bind
    apply (socketFdCheck_runsOn .kept).mono
    rintro iRet phase rfl
    split
    · apply (httpDataTransmit_runsOn .kept).mono
      rintro result phase rfl
      cases result <;> rfl
    · exact rfl
  · obtain rfl : fd = INVALID_SOCKET := not_not.mp isKept
    exact ⟨_, .noneKept, rfl⟩

theorem run_runsOn (rounds : ℕ) {request : HttpCall} {strUrl : Bytes}
    (accepted : request.acceptedUrl = some strUrl) :
    RunsOn (Step strUrl (httpHeadCreate request.strMethod strUrl request.strData))
      (fun value phase => phase.Returns request.strResponse value) (request.run rounds) .start := by
  rw [run_of_accepted accepted]
  apply RunsOn.bind
  apply transmitCached_runsOn.mono
  rintro result phase rfl
  cases result with
  | none => exact connectAndTransmit_runsOn
  | some strResult => exact rfl

/-! ## Outcomes

The exchanges of a call before it creates a socket are about the kept one. -/

def isSocket : sys.Event → Bool
  | ⟨.socket, _⟩ => true
  | _ => false

/-- The transmission has failed with this exchange. -/
def fails : sys.Event → Bool
  | ⟨.send _ _, ret⟩ =>
      let ret : ℤ := ret
      ret < 0
  | ⟨.recv _, .closed⟩ => true
  | ⟨.recv _, .failed errno⟩ => !errno.transient
  | _ => false

/-- The connection is there: `connect` succeeds at once, or the socket passes the check. -/
def connects : sys.Event → Bool
  | ⟨.connect _ _ _, none⟩ => true
  | ⟨.getsockopt _, pending⟩ => PendingError.clear pending
  | _ => false

def createsSocket (events : List sys.Event) : Bool :=
  events.any isSocket

/-- Something happens on the kept socket. -/
def onKept (property : sys.Event → Bool) (events : List sys.Event) : Bool :=
  (events.takeWhile fun event => !isSocket event).any property

/-- Something happens on the new socket. -/
def onFresh (property : sys.Event → Bool) (events : List sys.Event) : Bool :=
  (events.dropWhile fun event => !isSocket event).any property

@[simp]
theorem createsSocket_append (events : List sys.Event) (event : sys.Event) :
    createsSocket (events ++ [event]) = (createsSocket events || isSocket event) := by
  simp [createsSocket]

@[simp]
theorem onFresh_of_none_created (property : sys.Event → Bool) {events : List sys.Event}
    (noneCreated : createsSocket events = false) : onFresh property events = false := by
  have dropped : events.dropWhile (fun event => !isSocket event) = [] := by
    simpa [createsSocket] using noneCreated
  simp [onFresh, dropped]

@[simp]
theorem onKept_append (property : sys.Event → Bool) (events : List sys.Event) (event : sys.Event) :
    onKept property (events ++ [event]) =
      (onKept property events || (!createsSocket events && !isSocket event && property event)) := by
  induction events with
  | nil => cases same : isSocket event <;> simp [onKept, createsSocket, same]
  | cons first events ih =>
      simp only [onKept, createsSocket] at ih
      cases same : isSocket first <;> simp [onKept, createsSocket, same, ih, Bool.or_assoc]

@[simp]
theorem onFresh_append (property : sys.Event → Bool) (events : List sys.Event) (event : sys.Event) :
    onFresh property (events ++ [event]) =
      (onFresh property events || ((createsSocket events || isSocket event) && property event)) := by
  induction events with
  | nil => cases same : isSocket event <;> simp [onFresh, createsSocket, same]
  | cons first events ih =>
      simp only [onFresh, createsSocket] at ih
      cases same : isSocket first <;> simp [onFresh, createsSocket, same, ih, Bool.or_assoc]

attribute [simp] isSocket fails connects

end HumanMachine.Client
