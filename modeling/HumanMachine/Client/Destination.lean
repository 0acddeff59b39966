import HumanMachine.Client.Phases
import Mathlib.Logic.Function.Basic

/-!
# Where requests go

A new socket is connected to the address and port of the call's own URL, but the
kept socket is used for whatever URL comes next. The resolver and `inet_pton` are
fixed functions; every other system call may have any outcome at any time.
-/

namespace HumanMachine.Client

open Program (Guarantees Run Session)

/-- The two library functions which turn names into addresses. -/
structure Resolver where
  addresses : Bytes → Option (List Bytes)
  pton : Bytes → Option Address

abbrev Peer : Type := Address × ℕ

/-- The static descriptor and the peers to which descriptors were connected. -/
structure Net where
  socketFd : ℤ
  peer : ℤ → Option Peer

def Net.initial : Net where
  socketFd := INVALID_SOCKET
  peer := fun _ => none

/-- A connection is there, or on its way, when `connect` says so. -/
def connected (result : Option Errno) : Bool :=
  result = none || result = some .EINPROGRESS

/-- The static descriptor and the resolver answer what they hold. -/
def Net.allows (resolver : Resolver) (net : Net) : sys.Event → Bool
  | ⟨.loadSocketFd, fd⟩ => @BEq.beq ℤ _ fd net.socketFd
  | ⟨.gethostbyname name, he⟩ => @BEq.beq (Option (List Bytes)) _ he (resolver.addresses name)
  | ⟨.inet_pton text, servaddr⟩ => @BEq.beq (Option Address) _ servaddr (resolver.pton text)
  | _ => true

def Net.next (net : Net) : sys.Event → Net
  | ⟨.storeSocketFd fd, _⟩ => { net with socketFd := fd }
  | ⟨.socket, fd⟩ => { net with peer := Function.update net.peer fd none }
  | ⟨.connect fd address port, result⟩ =>
      { net with
        peer := Function.update net.peer fd
          (if connected result then some (address, port) else none) }
  | ⟨.close fd, _⟩ => { net with peer := Function.update net.peer fd none }
  | _ => net

def netEnvironment (resolver : Resolver) : Environment sys Net :=
  Program.stepwise (Net.allows resolver) Net.next

section Answers

variable {resolver : Resolver} {net : Net}

theorem Net.loadSocketFd_allowed {fd : ℤ}
    (allowed : net.allows resolver ⟨.loadSocketFd, fd⟩ = true) : fd = net.socketFd :=
  eq_of_beq allowed

theorem Net.gethostbyname_allowed {name : Bytes} {he : Option (List Bytes)}
    (allowed : net.allows resolver ⟨.gethostbyname name, he⟩ = true) :
    he = resolver.addresses name :=
  eq_of_beq allowed

theorem Net.inet_pton_allowed {text : Bytes} {servaddr : Option Address}
    (allowed : net.allows resolver ⟨.inet_pton text, servaddr⟩ = true) :
    servaddr = resolver.pton text :=
  eq_of_beq allowed

end Answers

/-- What `GetIPFromUrl` returns. -/
def Resolver.ipOfUrl (resolver : Resolver) (strUrl : Bytes) : Option Bytes :=
  let strAddr := hostOfUrl strUrl
  if strAddr.length ≤ 1 then none
  else if isDotted strAddr then some strAddr
  else resolver.addresses strAddr >>= List.head?

/-- The address and port which a URL names. -/
def Resolver.target (resolver : Resolver) (strUrl : Bytes) : Option Peer :=
  if getPortFromUrl strUrl < 0 then none
  else do
    let strIP ← resolver.ipOfUrl strUrl
    let address ← resolver.pton strIP
    return (address, (getPortFromUrl strUrl % 2 ^ 16).toNat)

def SendsTo (permitted : Option Peer → Prop) (net : Net) (command : SysCommand) : Prop :=
  match command with
  | .send fd _ => permitted (net.peer fd)
  | _ => True

/-- Every connection there is, or on its way, is to one of these peers. -/
def Net.Within (peers : Set Peer) (net : Net) : Prop :=
  ∀ fd peer, net.peer fd = some peer → peer ∈ peers

theorem Net.Within.update {peers : Set Peer} {net : Net} (within : net.Within peers) {fd : ℤ}
    {peer : Option Peer} (allowed : ∀ target, peer = some target → target ∈ peers) :
    Net.Within peers { net with peer := Function.update net.peer fd peer } := by
  intro other target found
  by_cases same : other = fd
  · subst same
    change Function.update net.peer other peer other = some target at found
    rw [Function.update_self] at found
    exact allowed target found
  · change Function.update net.peer fd peer other = some target at found
    rw [Function.update_of_ne same] at found
    exact within other target found

theorem Net.Within.close {peers : Set Peer} {net : Net} (within : net.Within peers) (fd : ℤ) :
    Net.Within peers { net with peer := Function.update net.peer fd none } :=
  within.update (by simp)

section Steps

variable {resolver : Resolver} {permitted : Option Peer → Prop} {peers : Set Peer} {net : Net}
  {strUrl strHttpHead : Bytes}

/-- What the phases of a call say about the peers: the address comes from the URL, and
its port is added when the socket is connected. -/
def Net.Leads (net : Net) (resolver : Resolver) (permitted : Option Peer → Prop) (strUrl : Bytes)
    (phase : Phase) : Prop :=
  match phase with
  | .start => net.socketFd ≠ INVALID_SOCKET → permitted (net.peer net.socketFd)
  | .check _ fd | .pending _ fd | .transmit _ fd => permitted (net.peer fd)
  | .resolve _ => HasTarget strUrl ∧ isDotted (hostOfUrl strUrl) = false
  | .translate _ strIP => HasTarget strUrl ∧ resolver.ipOfUrl strUrl = some strIP
  | .getFlags _ address | .setFlags _ address | .connect _ address =>
      resolver.target strUrl = some (address, (getPortFromUrl strUrl % 2 ^ 16).toNat)
  | _ => True

theorem Resolver.ipOfUrl_of_dotted (target : HasTarget strUrl)
    (dotted : isDotted (hostOfUrl strUrl) = true) :
    resolver.ipOfUrl strUrl = some (hostOfUrl strUrl) := by
  have host := target.2
  rw [Resolver.ipOfUrl, if_neg (by omega), if_pos dotted]

theorem Resolver.ipOfUrl_of_named (target : HasTarget strUrl)
    (undotted : isDotted (hostOfUrl strUrl) = false) :
    resolver.ipOfUrl strUrl = (resolver.addresses (hostOfUrl strUrl)).bind List.head? := by
  have host := target.2
  rw [Resolver.ipOfUrl, if_neg (by omega), if_neg (by simp [undotted])]
  rfl

theorem Resolver.target_eq {strIP : Bytes} {address : Address} (target : HasTarget strUrl)
    (ip : resolver.ipOfUrl strUrl = some strIP) (found : some address = resolver.pton strIP) :
    resolver.target strUrl = some (address, (getPortFromUrl strUrl % 2 ^ 16).toNat) := by
  have port := target.1
  rw [Resolver.target, if_neg (by omega)]
  simp [ip, ← found]

theorem Net.peer_next_connect {fd : ℤ} {address : Address} {port : ℕ} {result : Option Errno}
    (begun : connected result = true) :
    (net.next ⟨.connect fd address port, result⟩).peer fd = some (address, port) := by
  change Function.update net.peer fd (if connected result then _ else none) fd = _
  rw [Function.update_self, if_pos begun]

theorem Net.Leads.step {phase after : Phase} {event : sys.Event}
    (leads : net.Leads resolver permitted strUrl phase)
    (step : Step strUrl strHttpHead phase event after)
    (target : ∀ peer, resolver.target strUrl = some peer → permitted (some peer))
    (allowed : net.allows resolver event = true) :
    (net.next event).Leads resolver permitted strUrl after := by
  cases step with
  | kept isKept =>
      obtain rfl := Net.loadSocketFd_allowed allowed
      exact leads isKept
  | @selectUnready origin | @getsockoptError origin | @closeLost origin =>
      cases origin <;> exact trivial
  | named some hasTarget undotted => exact ⟨hasTarget, undotted⟩
  | dotted some hasTarget dotted => exact ⟨hasTarget, Resolver.ipOfUrl_of_dotted hasTarget dotted⟩
  | gethostbyname found =>
      obtain rfl := Net.gethostbyname_allowed allowed
      exact ⟨leads.1, (Resolver.ipOfUrl_of_named leads.1 leads.2).trans found⟩
  | inet_pton => exact Resolver.target_eq leads.1 leads.2 (Net.inet_pton_allowed allowed)
  | connect | connectInProgress =>
      change permitted (Net.peer (net.next _) _)
      rw [Net.peer_next_connect rfl]
      exact target _ leads
  | select | getsockopt | fcntlGetFl | fcntlSetFl => exact leads
  | _ => exact trivial

/-- `connect` comes before anything is sent on a new socket. -/
theorem Net.Leads.sendsTo {phase after : Phase} {event : sys.Event}
    (leads : net.Leads resolver permitted strUrl phase)
    (step : Step strUrl strHttpHead phase event after) : SendsTo permitted net event.1 := by
  cases step with
  | send => exact leads
  | _ => exact trivial

/-- A new socket is connected to the target of the URL. -/
theorem Net.Within.step {phase after : Phase} {event : sys.Event} (within : net.Within peers)
    (leads : net.Leads resolver permitted strUrl phase)
    (step : Step strUrl strHttpHead phase event after)
    (target : ∀ peer, resolver.target strUrl = some peer → peer ∈ peers) :
    (net.next event).Within peers := by
  cases step with
  | socket | closeLost | closeGivenUp => exact within.close _
  | connect | connectInProgress | connectError =>
      apply within.update
      intro peer is
      split at is
      · exact Option.some_inj.mp is ▸ target _ leads
      · cases is
  | _ => exact within

end Steps

/-! ## Calls -/

/-- Nothing kept can mislead the call: its URL is rejected, no socket is kept, or the
kept socket was connected to the address and port which the URL names. -/
def KeptSocketFits (resolver : Resolver) (request : HttpCall) (net : Net) : Prop :=
  ∀ strUrl, request.acceptedUrl = some strUrl → net.socketFd ≠ INVALID_SOCKET →
    ∃ peer, resolver.target strUrl = some peer ∧ net.peer net.socketFd = some peer

/-- Every send among the exchanges is on a socket connected to the address and port
which the URL names. -/
def SentToItsHost (resolver : Resolver) (request : HttpCall) (net : Net)
    (events : List sys.Event) : Prop :=
  ∀ earlier fd data ret later, events = earlier ++ ⟨.send fd data, ret⟩ :: later →
    ∃ strUrl peer, request.acceptedUrl = some strUrl ∧ resolver.target strUrl = some peer ∧
      (earlier.foldl Net.next net).peer fd = some peer

/-- A call sends to its host whatever the outcomes of its system calls. -/
def GoesToItsHost (resolver : Resolver) (rounds : ℕ) (request : HttpCall) (net : Net) : Prop :=
  ∀ events remaining now,
    Run (netEnvironment resolver) (request.run rounds) net events remaining now →
      SentToItsHost resolver request net events

variable {resolver : Resolver} {rounds : ℕ} {request : HttpCall} {net : Net}

theorem run_sendsTo {permitted : Option Peer → Prop} {peers : Set Peer}
    (target : ∀ strUrl peer, request.acceptedUrl = some strUrl →
      resolver.target strUrl = some peer → permitted (some peer) ∧ peer ∈ peers)
    (kept : ∀ strUrl, request.acceptedUrl = some strUrl → net.socketFd ≠ INVALID_SOCKET →
      permitted (net.peer net.socketFd))
    (within : net.Within peers) :
    Guarantees (netEnvironment resolver) (SendsTo permitted) (fun _ after => after.Within peers)
      (request.run rounds) net := by
  cases url : request.acceptedUrl with
  | none =>
      rw [run_of_rejected url]
      exact within
  | some strUrl =>
      have targetNow := fun peer => target strUrl peer url
      refine Guarantees.mono ((run_runsOn rounds url).guarantees
        (fun phase now => now.Leads resolver permitted strUrl phase ∧ now.Within peers)
        ⟨kept strUrl url, within⟩ ?_ ?_) ?_
      · intro phase now event next holds step
        exact holds.1.sendsTo step
      · rintro phase now event next after holds step ⟨allowed, rfl⟩
        exact ⟨holds.1.step step (fun peer named => (targetNow peer named).1) allowed,
          holds.2.step holds.1 step fun peer named => (targetNow peer named).2⟩
      · rintro value after ⟨phase, holds, _⟩
        exact holds.2

theorem goesToItsHost_of_keptSocketFits (fits : KeptSocketFits resolver request net) :
    GoesToItsHost resolver rounds request net := by
  rintro events remaining now run earlier fd data ret later rfl
  rcases run.before_event with ⟨next, earlierRun⟩
  let permitted : Option Peer → Prop := fun there =>
    ∃ strUrl peer, request.acceptedUrl = some strUrl ∧ resolver.target strUrl = some peer ∧
      there = some peer
  have guarantees : Guarantees (netEnvironment resolver) (SendsTo permitted)
      (fun _ after => after.Within Set.univ) (request.run rounds) net := by
    apply run_sendsTo
    · intro strUrl peer url named
      exact ⟨⟨strUrl, peer, url, named, rfl⟩, trivial⟩
    · intro strUrl url isKept
      rcases fits strUrl url isKept with ⟨peer, named, there⟩
      exact ⟨strUrl, peer, url, named, there⟩
    · exact fun _ _ _ => trivial
  exact guarantees.command_allowed earlierRun

def readyEvents (fd : ℤ) : List sys.Event :=
  [⟨.select fd, (⟨1, true, false⟩ : Selected)⟩, ⟨.getsockopt fd, (⟨0, 0⟩ : PendingError)⟩]

theorem socketFdCheck_accepts (fd : ℤ) :
    Run (netEnvironment resolver) (socketFdCheck fd) net (readyEvents fd) (.done 1) net :=
  .step ⟨rfl, rfl⟩ (.step ⟨rfl, rfl⟩ (.refl _ _))

/-- The kept socket may be found ready, and then the request is sent on it. -/
theorem run_reaches_kept_socket {strUrl : Bytes} (url : request.acceptedUrl = some strUrl)
    (kept : net.socketFd ≠ INVALID_SOCKET) :
    ∃ data next, Run (netEnvironment resolver) (request.run rounds) net
      (⟨.loadSocketFd, net.socketFd⟩ :: readyEvents net.socketFd)
      (.call (.send net.socketFd data) next) net := by
  have checked : Run (netEnvironment resolver)
      (transmitCached rounds (httpHeadCreate request.strMethod strUrl request.strData)) net
      (⟨.loadSocketFd, net.socketFd⟩ :: readyEvents net.socketFd)
      (httpDataTransmit rounds (httpHeadCreate request.strMethod strUrl request.strData)
        net.socketFd) net := by
    apply Run.step ⟨beq_self_eq_true net.socketFd, rfl⟩
    change Run _ (if net.socketFd ≠ INVALID_SOCKET then _ else _) _ _ _ _
    rw [if_pos kept]
    exact (socketFdCheck_accepts net.socketFd).inside_bind
  rw [run_of_accepted url]
  exact ⟨_, _, checked.inside_bind⟩

/-- A call goes to its host in every run exactly when nothing kept can mislead it. -/
theorem goesToItsHost_iff :
    GoesToItsHost resolver rounds request net ↔ KeptSocketFits resolver request net := by
  constructor
  · intro goes strUrl url kept
    rcases run_reaches_kept_socket url kept with ⟨data, next, run⟩
    have sent : Run (netEnvironment resolver) (.call (.send net.socketFd data) next) net
        [⟨.send net.socketFd data, (0 : ℤ)⟩] (next (0 : ℤ)) net :=
      .step ⟨rfl, rfl⟩ (.refl _ _)
    rcases goes _ _ _ (run.trans sent) _ _ _ _ [] rfl with ⟨strUrl', peer, url', named, there⟩
    obtain rfl : strUrl = strUrl' := by
      rw [url] at url'
      exact Option.some_inj.mp url'
    exact ⟨peer, named, there⟩
  · exact goesToItsHost_of_keptSocketFits

variable {calls : List (Program.Call sys (ℤ × Bytes) HttpCall Net)} {last : Net}

def namedPeers (resolver : Resolver) (calls : List (Program.Call sys (ℤ × Bytes) HttpCall Net)) :
    Set Peer :=
  {peer | ∃ call ∈ calls, ∃ strUrl,
    call.input.acceptedUrl = some strUrl ∧ resolver.target strUrl = some peer}

theorem session_within
    (session : Session (HttpCall.run rounds) (netEnvironment resolver) Net.initial calls last) :
    last.Within (namedPeers resolver calls) := by
  have initially : Net.initial.Within (namedPeers resolver calls) := by
    intro fd peer is
    cases is
  apply (session.invariant (Net.Within (namedPeers resolver calls)) (· ∈ calls) initially ?_
    fun _ mem => mem).1
  intro call mem within run
  have guarantees : Guarantees (netEnvironment resolver) (SendsTo fun _ => True)
      (fun _ after => after.Within (namedPeers resolver calls))
      (call.input.run rounds) call.before := by
    apply run_sendsTo
    · intro strUrl peer url named
      exact ⟨trivial, call, mem, strUrl, url, named⟩
    · intros
      trivial
    · exact within
  exact guarantees.result run

/-- In a session, the calls send to their hosts whatever the outcomes exactly when each
finds no socket kept for another host; those which were run then did so. The only
peers are those which the URLs name. -/
theorem calls_go_to_their_hosts_iff
    (session : Session (HttpCall.run rounds) (netEnvironment resolver) Net.initial calls last) :
    ((∀ call ∈ calls, GoesToItsHost resolver rounds call.input call.before) ↔
      ∀ call ∈ calls, KeptSocketFits resolver call.input call.before) ∧
    ((∀ call ∈ calls, KeptSocketFits resolver call.input call.before) →
      ∀ call ∈ calls, SentToItsHost resolver call.input call.before call.events) ∧
    ∀ fd peer, last.peer fd = some peer → peer ∈ namedPeers resolver calls := by
  refine ⟨?_, ?_, session_within session⟩
  · exact forall₂_congr fun call _ => goesToItsHost_iff
  · intro fits call mem
    exact goesToItsHost_of_keptSocketFits (fits call mem) _ _ _ (session.run_of_mem mem)

/-! ## A change of hosts -/

def twoHosts : Resolver where
  addresses := fun _ => none
  pton := fun text =>
    if text = ascii "1.2.3.4" then some 0x01020304
    else if text = ascii "5.6.7.8" then some 0x05060708
    else none

def getSecondHost : HttpCall := .get (some (ascii "http://5.6.7.8")) []

/-- The next call of a session in which every system call succeeds at once. -/
def promptCall (input : HttpCall) (before : Net) : Program.Call sys (ℤ × Bytes) HttpCall Net :=
  let events := Program.transcript (prompt before.socketFd twoHosts.pton okReceived) 0 (input.run 1)
  ⟨input, before, events, (1, ascii "ok"), events.foldl Net.next before⟩

theorem promptCall_session
    (session : Session (HttpCall.run 1) (netEnvironment twoHosts) Net.initial calls last)
    (input : HttpCall)
    (returns : Program.outcome (prompt last.socketFd twoHosts.pton okReceived) 0 (input.run 1) =
      some (1, ascii "ok"))
    (admitted : Program.admits (Net.allows twoHosts) Net.next last
      (promptCall input last).events = true) :
    Session (HttpCall.run 1) (netEnvironment twoHosts) Net.initial
      (calls ++ [promptCall input last]) (promptCall input last).after :=
  session.replay _ input _ returns admitted

def firstCall : Program.Call sys (ℤ × Bytes) HttpCall Net :=
  promptCall getAddress Net.initial

theorem firstCall_session :
    Session (HttpCall.run 1) (netEnvironment twoHosts) Net.initial [firstCall] firstCall.after :=
  promptCall_session .start getAddress (by decide +kernel) (by decide +kernel)

def sameCall : Program.Call sys (ℤ × Bytes) HttpCall Net :=
  promptCall getAddress firstCall.after

theorem sameCall_session :
    Session (HttpCall.run 1) (netEnvironment twoHosts) Net.initial [firstCall, sameCall]
      sameCall.after :=
  promptCall_session firstCall_session getAddress (by decide +kernel) (by decide +kernel)

def otherCall : Program.Call sys (ℤ × Bytes) HttpCall Net :=
  promptCall getSecondHost firstCall.after

theorem otherCall_session :
    Session (HttpCall.run 1) (netEnvironment twoHosts) Net.initial [firstCall, otherCall]
      otherCall.after :=
  promptCall_session firstCall_session getSecondHost (by decide +kernel) (by decide +kernel)

/-- Two requests to one host share a socket. -/
theorem calls_go_to_their_hosts_iff_sameCall :
    SentToItsHost twoHosts sameCall.input sameCall.before sameCall.events := by
  apply (calls_go_to_their_hosts_iff sameCall_session).2.1
  · intro call mem strUrl url kept
    rcases List.mem_pair.mp mem with rfl | rfl
    · exact absurd rfl kept
    · cases url
      exact ⟨(0x01020304, 80), by decide +kernel, by decide +kernel⟩
  · simp

/-- The request for the second host is sent to the first. -/
theorem otherCall_not_to_its_host :
    ¬∀ (resolver : Resolver) (rounds : ℕ) (calls : List (Program.Call sys (ℤ × Bytes) HttpCall Net))
      (last : Net),
      Session (HttpCall.run rounds) (netEnvironment resolver) Net.initial calls last →
        ∀ call ∈ calls, GoesToItsHost resolver rounds call.input call.before := by
  intro always
  have goes := always twoHosts 1 _ _ otherCall_session otherCall (by simp)
  have accepted : otherCall.input.acceptedUrl = some (ascii "http://5.6.7.8") := by decide +kernel
  have kept : otherCall.before.socketFd ≠ INVALID_SOCKET := by decide +kernel
  rcases goesToItsHost_iff.mp goes _ accepted kept with ⟨peer, named, there⟩
  have isSecond : some peer = some (0x05060708, 80) := named.symm.trans (by decide +kernel)
  have isFirst : some peer = some (0x01020304, 80) := there.symm.trans (by decide +kernel)
  cases isFirst.symm.trans isSecond

end HumanMachine.Client
