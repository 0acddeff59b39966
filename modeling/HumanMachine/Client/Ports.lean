import HumanMachine.Client.Phases
import HumanMachine.Client.UrlParts
import HumanMachine.Program.Loop

/-!
# The port of a URL

The text behind the colon goes through `atoi`, and only negative numbers are turned
down. What is no number becomes port 0, and `htons` takes a larger number modulo
2^16. The authority is the one behind the first scheme which is found, which need not be that
of the URL.
-/

namespace HumanMachine.Client

open Program (Follows)

/-- The port which an authority names: 80 without a colon, else the number in digits
behind it, if that is a port. -/
def writtenPort (authority : Bytes) : Option ℕ :=
  match authority.dropWhile (· ≠ 58) with
  | [] => some 80
  | _ :: strPort =>
      if strPort ≠ [] ∧ strPort.all isDigit ∧ 1 ≤ decimalValue strPort ∧
        decimalValue strPort ≤ 65535 then some (decimalValue strPort)
      else none

/-- The text behind the colon reads as a negative number. -/
def ReadsNegative (authority : Bytes) : Prop :=
  ∃ strPort, authority.dropWhile (· ≠ 58) = 58 :: strPort ∧ atoi strPort < 0

theorem atoi_of_digits {text : Bytes} (nonempty : text ≠ []) (digits : text.all isDigit = true)
    (small : decimalValue text < 2 ^ 31) : atoi text = decimalValue text := by
  rcases List.exists_cons_of_ne_nil nonempty with ⟨first, rest, rfl⟩
  have isDigitFirst : isDigit first = true := List.all_eq_true.mp digits first List.mem_cons_self
  have noSpace : isSpace first = false := by
    simp only [isDigit, Bool.and_eq_true, decide_eq_true_eq, UInt8.le_iff_toNat_le,
      UInt8.reduceToNat] at isDigitFirst
    simp only [isSpace, Bool.or_eq_false_iff, Bool.and_eq_false_iff, decide_eq_false_iff_not,
      UInt8.le_iff_toNat_le, ← UInt8.toNat_inj, UInt8.reduceToNat]
    omega
  have all : (first :: rest).takeWhile isDigit = first :: rest :=
    List.takeWhile_eq_self_iff.mpr (List.all_eq_true.mp digits)
  have value : toInt (leadingLong false (first :: rest)) = decimalValue (first :: rest) := by
    rw [leadingLong, all, if_neg (by decide), toInt]
    omega
  have noSign : first ≠ 45 ∧ first ≠ 43 := by
    constructor <;> rintro rfl <;> exact absurd isDigitFirst (by decide)
  rw [atoi, List.dropWhile_cons_of_neg (by simp [noSpace])]
  split
  next text is => exact absurd (List.cons.inj is).1 noSign.1
  next text is => exact absurd (List.cons.inj is).1 noSign.2
  next => exact value

theorem getPortFromUrl_of_written {strUrl : Bytes} {port : ℕ}
    (written : writtenPort (getHostAddrFromUrl strUrl) = some port) :
    getPortFromUrl strUrl = port ∧ port < 2 ^ 16 := by
  cases behind : (getHostAddrFromUrl strUrl).dropWhile (· ≠ 58) with
  | nil =>
      simp only [writtenPort, behind, Option.some.injEq] at written
      subst written
      simp only [getPortFromUrl, behind]
      exact ⟨rfl, by decide⟩
  | cons colon strPort =>
      simp only [writtenPort, behind, Option.ite_none_right_eq_some, Option.some.injEq] at written
      rcases written with ⟨⟨nonempty, digits, _, bounded⟩, rfl⟩
      simp only [getPortFromUrl, behind]
      exact ⟨atoi_of_digits nonempty digits (by omega), by omega⟩

theorem getPortFromUrl_neg_iff (strUrl : Bytes) :
    getPortFromUrl strUrl < 0 ↔ ReadsNegative (getHostAddrFromUrl strUrl) := by
  rw [ReadsNegative, getPortFromUrl]
  cases behind : (getHostAddrFromUrl strUrl).dropWhile (· ≠ 58) with
  | nil => simp
  | cons colon strPort =>
      have stops := List.head?_dropWhile_not (fun byte : UInt8 => decide (byte ≠ 58))
        (getHostAddrFromUrl strUrl)
      rw [behind] at stops
      obtain rfl : colon = 58 := by simpa using stops
      simp

/-! ## `inet_pton` -/

/-- A number of at most 255 without a leading zero. -/
def octet (text : Bytes) : Option ℕ :=
  if text ≠ [] ∧ text.all isDigit ∧ (text.length = 1 ∨ text.head? ≠ some 48) ∧
    decimalValue text ≤ 255 then some (decimalValue text)
  else none

/-- `inet_pton` of the C library for `AF_INET`. -/
def inetPton (text : Bytes) : Option Address :=
  match (text.splitOnP (· = 46)).map octet with
  | [some a, some b, some c, some d] => some (BitVec.ofNat 32 (((a * 256 + b) * 256 + c) * 256 + d))
  | _ => none

example : inetPton (ascii "1.2.3.4") = some 0x01020304 := by decide

example : inetPton (ascii "a.b.c.d") = none := by decide

/-- If the exchange is one with `inet_pton`, it is answered as `inet_pton` does. -/
def Translated : sys.Event → Prop
  | ⟨.inet_pton text, servaddr⟩ => servaddr = inetPton text
  | _ => True

def Translates (events : List sys.Event) : Prop :=
  ∀ event ∈ events, Translated event

/-- The URL names a port and a host, and no host with three dots which is no address. -/
structure Reachable (strUrl : Bytes) : Prop where
  target : HasTarget strUrl
  translates : isDotted (hostOfUrl strUrl) = true → inetPton (hostOfUrl strUrl) ≠ none

/-- A connection is made to the port of a URL which can be reached. -/
def Aimed (strUrl : Bytes) : sys.Event → Prop
  | ⟨.connect _ _ port, _⟩ => Reachable strUrl ∧ port = (getPortFromUrl strUrl % 2 ^ 16).toNat
  | _ => True

/-- What the phases of a call say about its target. -/
def Phase.Aims (strUrl : Bytes) (events : List sys.Event) : Phase → Prop
  | .start | .check .kept _ | .pending .kept _ | .transmit .kept _ | .release .kept _ _
  | .receiving .kept _ | .lost .kept _ | .renew | .create => createsSocket events = false
  | .created _ | .giveUp _ | .forget | .finished none => True
  | .resolve _ => HasTarget strUrl ∧ isDotted (hostOfUrl strUrl) = false
  | .translate _ strIP =>
      HasTarget strUrl ∧ (isDotted (hostOfUrl strUrl) = true → strIP = hostOfUrl strUrl)
  | .finished (some _) => createsSocket events = true → Reachable strUrl
  | _ => Reachable strUrl

theorem Phase.Aims.step {strUrl strHttpHead : Bytes} {phase after : Phase} {event : sys.Event}
    {events : List sys.Event} (aims : phase.Aims strUrl events) (translated : Translated event)
    (step : Step strUrl strHttpHead phase event after) :
    Aimed strUrl event ∧ after.Aims strUrl (events ++ [event]) := by
  cases step with
  | @select origin | @selectUnready origin | @getsockopt origin | @getsockoptError origin
  | @send origin | @free origin | @freeFailed origin | @recv origin | @recvClosed origin
  | @recvAgain origin | @recvError origin | @closeLost origin =>
      cases origin <;> simp_all [Aims, Aimed]
  | named some target undotted => exact ⟨trivial, target, undotted⟩
  | dotted some target => exact ⟨trivial, target, fun _ => rfl⟩
  | gethostbyname =>
      refine ⟨trivial, aims.1, ?_⟩
      simp [aims.2]
  | inet_pton =>
      refine ⟨trivial, aims.1, ?_⟩
      intro dotted
      have accepts : some _ = inetPton _ := translated
      rw [← aims.2 dotted, ← accepts]
      exact Option.some_ne_none _
  | connect => exact ⟨⟨aims, rfl⟩, aims⟩
  | connectInProgress => exact ⟨⟨aims, rfl⟩, aims⟩
  | connectError => exact ⟨⟨aims, rfl⟩, trivial⟩
  | _ => simp_all [Aims, Aimed]

/-! ## Calls -/

/-- A new connection is made to the port which the authority names. If it names none, a call
which wants a new connection returns 0 instead. -/
structure ConnectsAsWritten (authority : Bytes) (events : List sys.Event)
    (remaining : Http (ℤ × Bytes)) : Prop where
  port : ∀ fd address port (result : Option Errno), ⟨.connect fd address port, result⟩ ∈ events →
    writtenPort authority = some port
  otherwise : writtenPort authority = none → createsSocket events = true →
    ∀ value, remaining = .done value → value.1 = 0

variable {rounds : ℕ} {request : HttpCall} {strUrl strHttpHead strResponse authority : Bytes}
  {events : List sys.Event} {remaining : Http (ℤ × Bytes)} {url : WrittenUrl}

theorem exists_aimingPhase (accepted : request.acceptedUrl = some strUrl)
    (follows : Follows (request.run rounds) events remaining) (translates : Translates events) :
    ∃ phase : Phase, ((∀ event ∈ events, Aimed strUrl event) ∧ phase.Aims strUrl events) ∧
      Program.RunsOn (Step strUrl (httpHeadCreate request.strMethod strUrl request.strData))
        (fun value phase => phase.Returns request.strResponse value) remaining phase := by
  have invariant : ∃ phase : Phase, (Translates events →
      (∀ event ∈ events, Aimed strUrl event) ∧ phase.Aims strUrl events) ∧
      Program.RunsOn (Step strUrl (httpHeadCreate request.strMethod strUrl request.strData))
        (fun value phase => phase.Returns request.strResponse value) remaining phase := by
    apply (run_runsOn rounds accepted).invariant_of_follows follows
      fun phase events => Translates events →
        (∀ event ∈ events, Aimed strUrl event) ∧ phase.Aims strUrl events
    · exact fun _ => ⟨by simp, rfl⟩
    · intro phase history event next earlier step translates
      rw [Translates, List.forall_mem_append, List.forall_mem_singleton] at translates
      rcases earlier translates.1 with ⟨aimed, aims⟩
      rcases aims.step translates.2 step with ⟨here, later⟩
      refine ⟨?_, later⟩
      rw [List.forall_mem_append, List.forall_mem_singleton]
      exact ⟨aimed, here⟩
  rcases invariant with ⟨phase, aims, runs⟩
  exact ⟨phase, aims translates, runs⟩

/-- Only a URL which can be reached is connected to. -/
theorem connects_to_target (accepted : request.acceptedUrl = some strUrl)
    (follows : Follows (request.run rounds) events remaining) (translates : Translates events)
    {fd : ℤ} {address : Address} {port : ℕ} {result : Option Errno}
    (mem : ⟨.connect fd address port, result⟩ ∈ events) :
    Reachable strUrl ∧ port = (getPortFromUrl strUrl % 2 ^ 16).toNat := by
  rcases exists_aimingPhase accepted follows translates with ⟨phase, ⟨aimed, _⟩, _⟩
  exact aimed _ mem

theorem returns_zero_without_target (accepted : request.acceptedUrl = some strUrl)
    {value : ℤ × Bytes} (follows : Follows (request.run rounds) events (.done value))
    (translates : Translates events) (creates : createsSocket events = true)
    (unreachable : ¬Reachable strUrl) : value.1 = 0 := by
  rcases exists_aimingPhase accepted follows translates with ⟨phase, ⟨_, aims⟩, returns⟩
  rcases Phase.Returns.finished returns with ⟨received, rfl⟩
  cases received with
  | none =>
      have is : value = (0, request.strResponse) := returns
      rw [is]
  | some buf => exact absurd (aims creates) unreachable

theorem connectsAsWritten_of_written (accepted : request.acceptedUrl = some strUrl)
    (written : writtenPort authority = some (getPortFromUrl strUrl % 2 ^ 16).toNat)
    (follows : Follows (request.run rounds) events remaining) (translates : Translates events) :
    ConnectsAsWritten authority events remaining := by
  constructor
  · intro fd address port result mem
    rw [written, (connects_to_target accepted follows translates mem).2]
  · intro none
    rw [none] at written
    cases written

theorem connectsAsWritten_of_unreachable (accepted : request.acceptedUrl = some strUrl)
    (unreachable : ¬Reachable strUrl) (follows : Follows (request.run rounds) events remaining)
    (translates : Translates events) : ConnectsAsWritten authority events remaining := by
  constructor
  · intro fd address port result mem
    exact absurd (connects_to_target accepted follows translates mem).1 unreachable
  · rintro _ creates value rfl
    exact returns_zero_without_target accepted follows translates creates unreachable

/-! ## A connection is made -/

theorem translates_cons_iff {event : sys.Event} :
    Translates (event :: events) ↔ Translated event ∧ Translates events :=
  List.forall_mem_cons

/-- When everything succeeds, a resolved host is connected to. -/
theorem translate_connects {strIP : Bytes} {address : Address} {iPort : ℤ}
    (translated : inetPton strIP = some address) :
    ∃ events remaining, Translates events ∧ Follows (do
        let servaddr : Option Address ← call (.inet_pton strIP)
        match servaddr with
        | none => giveUp 3 strResponse
        | some address =>
            let flags : BitVec 32 ← call (.fcntlGetFl 3)
            let set : ℤ ← call (.fcntlSetFl 3 (flags ||| O_NONBLOCK))
            if set = -1 then giveUp 3 strResponse
            else connectTo rounds strHttpHead 3 address iPort strResponse)
      (events ++ [⟨.connect 3 address (iPort % 2 ^ 16).toNat, (none : Option Errno)⟩]) remaining := by
  refine ⟨[⟨.inet_pton strIP, some address⟩, ⟨.fcntlGetFl 3, (0 : BitVec 32)⟩,
    ⟨.fcntlSetFl 3 (0 ||| O_NONBLOCK), (0 : ℤ)⟩], _, ?_, .step (.step (.step (.step (.refl _))))⟩
  rw [translates_cons_iff, translates_cons_iff, translates_cons_iff]
  exact ⟨translated.symm, trivial, trivial, nofun⟩

/-- When a port is read and a socket is created, the host is resolved. -/
theorem connectAndTransmit_resolves (hasPort : 0 ≤ getPortFromUrl strUrl)
    {goal : List sys.Event} (resolved : ∃ events remaining, Translates events ∧ Follows (do
      match ← getIPFromUrl strUrl with
      | none => return (0, strResponse)
      | some strIP =>
          let servaddr : Option Address ← call (.inet_pton strIP)
          match servaddr with
          | none => giveUp 3 strResponse
          | some address =>
              let flags : BitVec 32 ← call (.fcntlGetFl 3)
              let set : ℤ ← call (.fcntlSetFl 3 (flags ||| O_NONBLOCK))
              if set = -1 then giveUp 3 strResponse
              else connectTo rounds strHttpHead 3 address (getPortFromUrl strUrl) strResponse)
      (events ++ goal) remaining) :
    ∃ events remaining, Translates events ∧
      Follows (connectAndTransmit rounds strUrl strHttpHead strResponse) (events ++ goal) remaining := by
  rcases resolved with ⟨events, remaining, translates, follows⟩
  refine ⟨⟨.storeSocketFd INVALID_SOCKET, ()⟩ :: ⟨.socket, (3 : ℤ)⟩ ::
    ⟨.storeSocketFd 3, ()⟩ :: events, remaining, ?_, .step (.step (.step ?_))⟩
  · rw [translates_cons_iff, translates_cons_iff, translates_cons_iff]
    exact ⟨trivial, trivial, trivial, translates⟩
  change Follows (if (3 : ℤ) < 0 then .done (0, strResponse)
    else if getPortFromUrl strUrl < 0 then .done (0, strResponse) else _) _ _
  rw [if_neg (by decide), if_neg (by omega)]
  exact follows

theorem connectAndTransmit_connects (reachable : Reachable strUrl) :
    ∃ address events remaining, Translates events ∧
      Follows (connectAndTransmit rounds strUrl strHttpHead strResponse)
        (events ++ [⟨.connect 3 address (getPortFromUrl strUrl % 2 ^ 16).toNat, (none : Option Errno)⟩])
        remaining := by
  rcases reachable with ⟨⟨hasPort, hasHost⟩, dottedTranslates⟩
  by_cases dotted : isDotted (hostOfUrl strUrl) = true
  · rcases Option.ne_none_iff_exists'.mp (dottedTranslates dotted) with ⟨address, translated⟩
    refine ⟨address, connectAndTransmit_resolves hasPort ?_⟩
    rw [getIPFromUrl, if_neg (by omega), if_pos dotted]
    exact translate_connects translated
  · have known : inetPton (ascii "1.2.3.4") = some 0x01020304 := by decide
    refine ⟨0x01020304, connectAndTransmit_resolves hasPort ?_⟩
    rw [getIPFromUrl, if_neg (by omega), if_neg dotted]
    rcases translate_connects known with ⟨events, remaining, translates, follows⟩
    refine ⟨⟨.gethostbyname (hostOfUrl strUrl), (some [ascii "1.2.3.4"] : Option (List Bytes))⟩ ::
      events, remaining, ?_, .step follows⟩
    rw [translates_cons_iff]
    exact ⟨trivial, translates⟩

theorem run_connects (rounds : ℕ) (accepted : request.acceptedUrl = some strUrl)
    (reachable : Reachable strUrl) : ∃ address events remaining,
      Translates (events ++
        [⟨.connect 3 address (getPortFromUrl strUrl % 2 ^ 16).toNat, (none : Option Errno)⟩]) ∧
      Follows (request.run rounds) (events ++
        [⟨.connect 3 address (getPortFromUrl strUrl % 2 ^ 16).toNat, (none : Option Errno)⟩])
        remaining := by
  rcases connectAndTransmit_connects reachable with
    ⟨address, events, remaining, translates, follows⟩
  rw [run_of_accepted accepted]
  refine ⟨address, ⟨.loadSocketFd, INVALID_SOCKET⟩ :: events, remaining, ?_, .step follows⟩
  rw [Translates, List.forall_mem_append, List.forall_mem_singleton]
  exact ⟨translates_cons_iff.mpr ⟨trivial, translates⟩, trivial⟩

/-- Whatever authority is meant: the port is kept exactly if no connection can be made, or the
port which the URL is read with is the one which the authority names. -/
theorem connects_as_iff (accepted : request.acceptedUrl = some strUrl) :
    (∀ events remaining, Follows (request.run rounds) events remaining → Translates events →
      ConnectsAsWritten authority events remaining) ↔
      ¬Reachable strUrl ∨ writtenPort authority = some (getPortFromUrl strUrl % 2 ^ 16).toNat := by
  constructor
  · intro always
    by_cases reachable : Reachable strUrl
    · rcases run_connects rounds accepted reachable with
        ⟨address, events, remaining, translates, follows⟩
      exact .inr ((always _ _ follows translates).port 3 address _ none
        (List.mem_append_right _ List.mem_cons_self))
    · exact .inl reachable
  · rintro (unreachable | written) events remaining follows translates
    · exact connectsAsWritten_of_unreachable accepted unreachable follows translates
    · exact connectsAsWritten_of_written accepted written follows translates

theorem not_reachable_iff : ¬Reachable strUrl ↔ ReadsNegative (getHostAddrFromUrl strUrl) ∨
    (hostOfUrl strUrl).length ≤ 1 ∨
      (hostOfUrl strUrl).count 46 = 3 ∧ inetPton (hostOfUrl strUrl) = none := by
  rw [← getPortFromUrl_neg_iff, ← isDotted_iff]
  constructor
  · intro unreachable
    by_contra other
    simp only [not_or, not_and, Int.not_lt, not_le] at other
    exact unreachable ⟨⟨other.1, other.2.1⟩, other.2.2⟩
  · rintro (noPort | noHost | ⟨dotted, refused⟩) reachable
    · have := reachable.target.1
      omega
    · have := reachable.target.2
      omega
    · exact reachable.translates dotted refused

/-- A port which is written is read. -/
theorem writtenPort_eq_iff (strUrl : Bytes) :
    writtenPort (getHostAddrFromUrl strUrl) = some (getPortFromUrl strUrl % 2 ^ 16).toNat ↔
      writtenPort (getHostAddrFromUrl strUrl) ≠ none := by
  constructor
  · intro written none
    rw [none] at written
    cases written
  · intro written
    rcases Option.ne_none_iff_exists'.mp written with ⟨port, isPort⟩
    rcases getPortFromUrl_of_written isPort with ⟨same, bounded⟩
    rw [isPort, same, Option.some_inj]
    omega

/-- Where no other scheme stands before that of the URL, a call connects to the written port in
every run exactly if a port is written, or the text behind the colon reads as a negative number,
or the host is too short to be resolved, or has three dots and is no address. In general it does
so exactly if the URL which is read cannot be connected to, or is read with the written port. -/
theorem connects_as_written_iff (accepted : request.acceptedUrl = some url.text) :
    (url.SchemeFirst →
      ((∀ events remaining, Follows (request.run rounds) events remaining → Translates events →
        ConnectsAsWritten url.authority events remaining) ↔
        writtenPort url.authority ≠ none ∨ ReadsNegative url.authority ∨ url.host.length ≤ 1 ∨
          url.host.count 46 = 3 ∧ inetPton url.host = none)) ∧
    ((∀ events remaining, Follows (request.run rounds) events remaining → Translates events →
      ConnectsAsWritten url.authority events remaining) ↔
      ¬Reachable url.text ∨
        writtenPort url.authority = some (getPortFromUrl url.text % 2 ^ 16).toNat) := by
  refine ⟨?_, connects_as_iff accepted⟩
  intro first
  rw [connects_as_iff accepted, ← first.hostOfUrl_text, ← first.getHostAddrFromUrl_text,
    ← not_reachable_iff, writtenPort_eq_iff]
  exact or_comm

/-! ## A number above 65535 -/

/-- `http://1.2.3.4:65616` -/
def overflowing : WrittenUrl where
  scheme := .http
  authority := ascii "1.2.3.4:65616"
  path := none
  nonempty := by decide
  noSlash := by decide

def getOverflowing : HttpCall := .get (some overflowing.text) []

/-- The call connects to port 80. -/
theorem overflowing_port_connects :
    overflowing.text = ascii "http://1.2.3.4:65616" ∧
    ∃ address events remaining,
      Translates (events ++ [⟨.connect 3 address 80, (none : Option Errno)⟩]) ∧
      Follows (getOverflowing.run 1)
        (events ++ [⟨.connect 3 address 80, (none : Option Errno)⟩]) remaining ∧
      writtenPort overflowing.authority = none := by
  have reachable : Reachable overflowing.text := by
    refine ⟨?_, by decide +kernel⟩
    constructor <;> decide +kernel
  have accepted : getOverflowing.acceptedUrl = some overflowing.text := by
    decide +kernel
  rcases run_connects 1 accepted reachable with
    ⟨address, events, remaining, translates, follows⟩
  have port : (getPortFromUrl overflowing.text % 2 ^ 16).toNat = 80 := by
    decide +kernel
  rw [port] at follows translates
  exact ⟨by decide +kernel, address, events, remaining, translates, follows, by decide +kernel⟩

def getServlet : HttpCall := .get (some WrittenUrl.servlet.text) []

theorem connects_as_written_iff_servlet :
    writtenPort WrittenUrl.servlet.authority = some 8080 ∧
      ∀ events remaining, Follows (getServlet.run 1) events remaining → Translates events →
        ConnectsAsWritten WrittenUrl.servlet.authority events remaining := by
  have accepted : getServlet.acceptedUrl = some WrittenUrl.servlet.text := by
    decide +kernel
  have written : writtenPort WrittenUrl.servlet.authority = some 8080 := by
    decide +kernel
  refine ⟨written, ((connects_as_written_iff accepted).1 (.inl rfl)).mpr (.inl ?_)⟩
  simp [written]

end HumanMachine.Client
