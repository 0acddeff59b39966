import HumanMachine.Client.Phases
import HumanMachine.Program.Session
import Mathlib.Logic.Function.Basic

/-!
# Responses over a byte stream

The peer answers every request which was handed over with the next response text.
Its bytes wait, or are on their way, until `recv` returns some of the first of them:
how many, when, and what the other system calls say is left open. `HttpDataTransmit`
receives once, so a call gets its own response exactly as long as no `recv` has cut
a response short.
-/

namespace HumanMachine.Client

open Program (Guarantees Run Session)

structure Reply where
  text : Bytes
  noNul : 0 ∉ text
  short : text.length < BUFSIZE

/-- The static descriptor and the streams from the peers. -/
structure Wire where
  socketFd : ℤ
  /-- What the peer has sent and `recv` has not returned yet. -/
  unread : ℤ → Bytes
  /-- The number of requests handed over; they are answered in this order. -/
  requests : ℕ
  /-- Some `recv` has left a part of what was unread. -/
  cut : Bool

def Wire.initial : Wire where
  socketFd := INVALID_SOCKET
  unread := fun _ => []
  requests := 0
  cut := false

/-- `recv` returns bytes in the order in which they were sent. -/
def Wire.allows (wire : Wire) : sys.Event → Bool
  | ⟨.loadSocketFd, fd⟩ => @BEq.beq ℤ _ fd wire.socketFd
  | ⟨.recv fd, .data bytes _ _⟩ => bytes.isPrefixOf (wire.unread fd)
  | _ => true

/-- `send` fails, or hands a request over, which will be answered. -/
def Wire.handOver (replies : ℕ → Reply) (wire : Wire) (fd ret : ℤ) : Wire :=
  if ret < 0 then wire
  else
    { wire with
      unread := Function.update wire.unread fd (wire.unread fd ++ (replies wire.requests).text)
      requests := wire.requests + 1 }

def Wire.next (replies : ℕ → Reply) (wire : Wire) : sys.Event → Wire
  | ⟨.storeSocketFd fd, _⟩ => { wire with socketFd := fd }
  | ⟨.socket, fd⟩ => { wire with unread := Function.update wire.unread fd [] }
  | ⟨.send fd _, ret⟩ => wire.handOver replies fd ret
  | ⟨.recv fd, .data bytes _ _⟩ =>
      { wire with
        unread := Function.update wire.unread fd ((wire.unread fd).drop bytes.length)
        cut := wire.cut || (wire.unread fd).drop bytes.length ≠ [] }
  | ⟨.close fd, _⟩ => { wire with unread := Function.update wire.unread fd [] }
  | _ => wire

def wireEnvironment (replies : ℕ → Reply) : Environment sys Wire :=
  Program.stepwise Wire.allows (Wire.next replies)

/-- A call which returns 1 leaves the response to the last request it handed over. -/
def GetsItsOwnReply (replies : ℕ → Reply) (call : Program.Call sys (ℤ × Bytes) HttpCall Wire) :
    Prop :=
  call.value.1 = 1 → ∃ request, call.before.requests ≤ request ∧
    call.after.requests = request + 1 ∧ call.value.2 = (replies request).text

theorem Wire.loadSocketFd_allowed {wire : Wire} {fd : ℤ}
    (allowed : wire.allows ⟨.loadSocketFd, fd⟩ = true) : fd = wire.socketFd :=
  eq_of_beq allowed

theorem Wire.recv_allowed {wire : Wire} {fd : ℤ} {bytes : Bytes} {nonempty : bytes ≠ []}
    {fits : bytes.length ≤ BUFSIZE}
    (allowed : wire.allows ⟨.recv fd, Received.data bytes nonempty fits⟩ = true) :
    ∃ rest, wire.unread fd = bytes ++ rest := by
  rcases List.isPrefixOf_iff_prefix.mp allowed with ⟨rest, whole⟩
  exact ⟨rest, whole.symm⟩

theorem Wire.handOver_cut {replies : ℕ → Reply} {wire : Wire} {fd ret : ℤ} :
    (wire.handOver replies fd ret).cut = wire.cut := by
  rw [Wire.handOver]
  split <;> rfl

theorem Wire.cut_of_next {replies : ℕ → Reply} {wire : Wire} {event : sys.Event}
    (uncut : (wire.next replies event).cut = false) : wire.cut = false := by
  rcases event with ⟨command, answer⟩
  cases command with
  | send fd data =>
      exact Wire.handOver_cut.symm.trans uncut
  | recv fd =>
      cases answer with
      | data bytes nonempty fits =>
          rw [Wire.next, Bool.or_eq_false_iff] at uncut
          exact uncut.1
      | closed => exact uncut
      | failed errno => exact uncut
  | _ => exact uncut

/-- The kept socket has nothing unread. -/
def Wire.Drained (wire : Wire) : Prop :=
  wire.socketFd ≠ INVALID_SOCKET → wire.unread wire.socketFd = []

/-- These bytes begin the response to the latest request, and the rest is unread. -/
def Answered (replies : ℕ → Reply) (earlier : ℕ) (bytes : Bytes) (wire : Wire) : Prop :=
  ∃ request rest, earlier ≤ request ∧ wire.requests = request + 1 ∧
    (replies request).text = bytes ++ rest ∧ wire.unread wire.socketFd = rest ∧
    wire.cut = decide (rest ≠ [])

/-- What the transmission on the kept or new socket leaves. -/
def Transmitted (replies : ℕ → Reply) (earlier : ℕ) (result : Option Bytes) (wire : Wire) : Prop :=
  match result with
  | none => earlier ≤ wire.requests ∧ wire.cut = false
  | some bytes => Answered replies earlier bytes wire

/-- What a call leaves: success with bytes of a response, or failure. -/
def Finished (replies : ℕ → Reply) (earlier : ℕ) (value : ℤ × Bytes) (wire : Wire) : Prop :=
  (value.1 = 1 ∧ Answered replies earlier value.2 wire) ∨
    (value.1 = 0 ∧ wire.cut = false ∧ wire.Drained)

theorem Answered.cString_eq {replies : ℕ → Reply} {earlier : ℕ} {bytes : Bytes} {wire : Wire}
    (answered : Answered replies earlier bytes wire) : cString bytes = bytes := by
  rcases answered with ⟨request, rest, _, _, text, _, _⟩
  apply cString_of_noNul
  intro nul
  apply (replies request).noNul
  rw [text]
  exact List.mem_append_left rest nul

section Functions

variable {replies : ℕ → Reply} {wire : Wire} {fd : ℤ} {earlier rounds : ℕ}

abbrev anything (_ : Wire) (_ : SysCommand) : Prop := True

/-- The request was handed over last, and its whole response is unread. -/
def Awaits (replies : ℕ → Reply) (earlier : ℕ) (fd : ℤ) (wire : Wire) : Prop :=
  ∃ request, earlier ≤ request ∧ wire.requests = request + 1 ∧ wire.socketFd = fd ∧
    wire.unread fd = (replies request).text ∧ wire.cut = false

/-- What the phases of a call say about the streams. -/
def Wire.Holds (wire : Wire) (replies : ℕ → Reply) (earlier : ℕ) (phase : Phase) : Prop :=
  match phase with
  | .start => Transmitted replies earlier none wire ∧ wire.Drained
  | .check _ fd | .pending _ fd | .transmit _ fd | .resolve fd | .translate fd _ | .getFlags fd _
  | .setFlags fd _ | .connect fd _ =>
      Transmitted replies earlier none wire ∧ wire.socketFd = fd ∧ wire.unread fd = []
  | .release _ fd false | .receiving _ fd => Awaits replies earlier fd wire
  | .release _ _ true | .lost _ _ | .renew | .create | .giveUp _ | .forget =>
      Transmitted replies earlier none wire
  | .created fd => Transmitted replies earlier none wire ∧ wire.unread fd = []
  | .finished none => Transmitted replies earlier none wire ∧ wire.Drained
  | .finished (some buf) => Transmitted replies earlier (some buf) wire

theorem Awaits.transmitted (awaits : Awaits replies earlier fd wire) :
    Transmitted replies earlier none wire := by
  rcases awaits with ⟨request, latest, handed, _, _, uncut⟩
  exact ⟨by omega, uncut⟩

/-- The first bytes are taken from the only response there is. -/
theorem Awaits.recv {bytes : Bytes} {nonempty : bytes ≠ []} {fits : bytes.length ≤ BUFSIZE}
    (awaits : Awaits replies earlier fd wire)
    (allowed : wire.allows ⟨.recv fd, Received.data bytes nonempty fits⟩ = true) :
    Answered replies earlier bytes
      (wire.next replies ⟨.recv fd, Received.data bytes nonempty fits⟩) := by
  rcases awaits with ⟨request, latest, handed, stored, waiting, uncut⟩
  rcases Wire.recv_allowed allowed with ⟨rest, whole⟩
  have left : (wire.unread fd).drop bytes.length = rest := by
    rw [whole, List.drop_left]
  refine ⟨request, rest, latest, handed, waiting.symm.trans whole, ?_, ?_⟩
  · change Function.update wire.unread fd _ wire.socketFd = rest
    rw [stored, Function.update_self, left]
  · change (wire.cut || decide ((wire.unread fd).drop bytes.length ≠ [])) = _
    rw [uncut, left, Bool.false_or]

/-- What is sent on a socket without unread bytes is answered there alone. -/
theorem Wire.Holds.send {origin : Origin} {ret : ℤ} {data : Bytes}
    (holds : wire.Holds replies earlier (.transmit origin fd)) :
    Wire.Holds (wire.next replies ⟨.send fd data, ret⟩) replies earlier
      (.release origin fd (ret < 0)) := by
  rcases holds with ⟨⟨latest, uncut⟩, stored, drained⟩
  change Wire.Holds (wire.handOver replies fd ret) replies earlier _
  rw [Wire.handOver]
  by_cases failed : ret < 0
  · rw [if_pos failed, decide_eq_true failed]
    exact ⟨latest, uncut⟩
  · rw [if_neg failed, decide_eq_false failed]
    refine ⟨wire.requests, latest, rfl, stored, ?_, uncut⟩
    change Function.update wire.unread fd _ fd = _
    rw [Function.update_self, drained, List.nil_append]

theorem Wire.Holds.step {strUrl strHttpHead : Bytes} {phase after : Phase} {event : sys.Event}
    (holds : wire.Holds replies earlier phase) (step : Step strUrl strHttpHead phase event after)
    (allowed : wire.allows event = true) : (wire.next replies event).Holds replies earlier after := by
  cases step with
  | noneKept => exact holds.1
  | kept isKept =>
      obtain rfl := Wire.loadSocketFd_allowed allowed
      exact ⟨holds.1, rfl, holds.2 isKept⟩
  | @selectUnready origin | @getsockoptError origin => cases origin <;> exact holds.1
  | send => exact holds.send
  | recv => exact Awaits.recv holds allowed
  | recvClosed | recvError => exact Awaits.transmitted holds
  | @closeLost origin => cases origin <;> exact holds
  | socket => exact ⟨holds, Function.update_self _ _ _⟩
  | noSocket | noTarget => exact ⟨holds.1, fun _ => holds.2⟩
  | named | dotted => exact ⟨holds.1, rfl, holds.2⟩
  | gethostbynameError | connectError => exact ⟨holds.1, fun _ => holds.2.1.symm ▸ holds.2.2⟩
  | inet_ptonError | fcntlSetFlError => exact holds.1
  | forget => exact ⟨holds, fun kept => absurd rfl kept⟩
  | _ => exact holds

theorem Wire.Holds.finished {strResponse : Bytes} {value : ℤ × Bytes} {phase : Phase}
    (holds : wire.Holds replies earlier phase) (returns : phase.Returns strResponse value) :
    Finished replies earlier value wire := by
  rcases Phase.Returns.finished returns with ⟨received, rfl⟩
  cases received with
  | none =>
      obtain rfl : value = (0, strResponse) := returns
      right
      exact ⟨rfl, holds.1.2, holds.2⟩
  | some buf =>
      obtain rfl : value = (1, cString buf) := returns
      have answered : Answered replies earlier buf wire := holds
      left
      exact ⟨rfl, answered.cString_eq.symm ▸ answered⟩

theorem run_finishes {request : HttpCall} (uncut : wire.cut = false) (drained : wire.Drained) :
    Guarantees (wireEnvironment replies) anything (Finished replies wire.requests)
      (request.run rounds) wire := by
  cases url : request.acceptedUrl with
  | none =>
      rw [run_of_rejected url]
      right
      exact ⟨rfl, uncut, drained⟩
  | some strUrl =>
      refine Guarantees.mono ((run_runsOn rounds url).guarantees
        (fun phase now => now.Holds replies wire.requests phase) ?_ ?_ ?_) ?_
      · exact ⟨⟨le_rfl, uncut⟩, drained⟩
      · intros
        trivial
      · rintro phase before event next after holds step ⟨allowed, rfl⟩
        exact Wire.Holds.step holds step allowed
      · rintro value after ⟨phase, holds, returns⟩
        exact Wire.Holds.finished holds returns

end Functions

/-! ## Sessions -/

theorem Finished.drained {replies : ℕ → Reply} {earlier : ℕ} {value : ℤ × Bytes} {wire : Wire}
    (finished : Finished replies earlier value wire) (uncut : wire.cut = false) : wire.Drained := by
  rcases finished with ⟨_, request, rest, _, _, _, unread, cut⟩ | ⟨_, _, drained⟩
  · intro _
    rw [unread]
    rw [uncut] at cut
    simpa using cut.symm
  · exact drained

/-- A call gets its own response exactly when nothing of it was left. -/
theorem Finished.getsItsOwnReply_iff {replies : ℕ → Reply}
    {call : Program.Call sys (ℤ × Bytes) HttpCall Wire}
    (finished : Finished replies call.before.requests call.value call.after) :
    GetsItsOwnReply replies call ↔ call.after.cut = false := by
  rcases finished with ⟨one, request, rest, earlier, handed, text, _, cut⟩ | ⟨zero, uncut, _⟩
  · rw [cut, decide_eq_false_iff_not, not_not]
    constructor
    · intro own
      rcases own one with ⟨request', _, handed', text'⟩
      obtain rfl : request = request' := by omega
      rw [← text', List.self_eq_append_right] at text
      exact text
    · rintro rfl _
      exact ⟨request, earlier, handed, by rw [text, List.append_nil]⟩
  · constructor
    · exact fun _ => uncut
    · intro _ one
      omega

variable {replies : ℕ → Reply} {rounds : ℕ}
  {calls : List (Program.Call sys (ℤ × Bytes) HttpCall Wire)} {last : Wire}

theorem cut_of_run {α : Type} {program remaining : Http α} {events : List sys.Event}
    {before after : Wire}
    (run : Run (wireEnvironment replies) program before events remaining after)
    (uncut : after.cut = false) : before.cut = false := by
  induction run with
  | refl program wire => exact uncut
  | step answered rest ih =>
      rcases answered with ⟨_, rfl⟩
      exact Wire.cut_of_next (ih uncut)

theorem session_drained
    (session : Session (HttpCall.run rounds) (wireEnvironment replies) Wire.initial calls last)
    (uncut : last.cut = false) : last.Drained := by
  induction session with
  | start => exact fun kept => absurd rfl kept
  | call earlier run ih =>
      have uncutBefore := cut_of_run run uncut
      exact ((run_finishes uncutBefore (ih uncutBefore)).result run).drained uncut

/-- In a session, every call which returns 1 has the response to its own request exactly
when no `recv` has cut a response short. -/
theorem calls_get_their_own_replies_iff
    (session : Session (HttpCall.run rounds) (wireEnvironment replies) Wire.initial calls last) :
    (∀ call ∈ calls, GetsItsOwnReply replies call) ↔ last.cut = false := by
  induction session with
  | start => simp [Wire.initial]
  | @call calls call earlier run ih =>
      have finished (uncut : call.before.cut = false) :
          Finished replies call.before.requests call.value call.after :=
        (run_finishes uncut (session_drained earlier uncut)).result run
      rw [List.forall_mem_append, ih, List.forall_mem_singleton]
      constructor
      · rintro ⟨uncut, own⟩
        exact (finished uncut).getsItsOwnReply_iff.mp own
      · intro uncut
        have uncutBefore := cut_of_run run uncut
        exact ⟨uncutBefore, (finished uncutBefore).getsItsOwnReply_iff.mpr uncut⟩

/-! ## A response in two segments -/

def replyHead : Bytes :=
  ascii "HTTP/1.1 200 OK\r\nContent-Length: 2\r\n\r\n"

def okReply : Reply where
  text := replyHead ++ ascii "ok"
  noNul := by decide
  short := by decide

/-- The next call of a session in which `recv` returns these bytes. -/
def segmentCall (bytes : Bytes) (nonempty : bytes ≠ []) (fits : bytes.length ≤ BUFSIZE)
    (before : Wire) : Program.Call sys (ℤ × Bytes) HttpCall Wire :=
  let input := HttpCall.get (some (ascii "http://1.2.3.4")) []
  let script := prompt before.socketFd (fun _ => some 0x01020304) (.data bytes nonempty fits)
  let events := Program.transcript script 0 (input.run 1)
  ⟨input, before, events, (1, bytes), events.foldl (Wire.next fun _ => okReply) before⟩

theorem segmentCall_session {bytes : Bytes} {nonempty : bytes ≠ []}
    {fits : bytes.length ≤ BUFSIZE} {before : Wire}
    (session : Session (HttpCall.run 1) (wireEnvironment fun _ => okReply) Wire.initial calls before)
    (returns : Program.outcome
      (prompt before.socketFd (fun _ => some 0x01020304) (.data bytes nonempty fits)) 0
      ((segmentCall bytes nonempty fits before).input.run 1) = some (1, bytes))
    (admitted : Program.admits Wire.allows (Wire.next fun _ => okReply) before
      (segmentCall bytes nonempty fits before).events = true) :
    Session (HttpCall.run 1) (wireEnvironment fun _ => okReply) Wire.initial
      (calls ++ [segmentCall bytes nonempty fits before])
      (segmentCall bytes nonempty fits before).after :=
  session.replay _ _ _ returns admitted

def wholeCall : Program.Call sys (ℤ × Bytes) HttpCall Wire :=
  segmentCall okReply.text (by decide) (by decide) Wire.initial

theorem wholeCall_session :
    Session (HttpCall.run 1) (wireEnvironment fun _ => okReply) Wire.initial [wholeCall]
      wholeCall.after :=
  segmentCall_session .start (by decide +kernel) (by decide +kernel)

theorem calls_get_their_own_replies_iff_wholeCall :
    GetsItsOwnReply (fun _ => okReply) wholeCall := by
  apply (calls_get_their_own_replies_iff wholeCall_session).mpr
  · decide +kernel
  · exact List.mem_singleton_self wholeCall

def headCall : Program.Call sys (ℤ × Bytes) HttpCall Wire :=
  segmentCall replyHead (by decide) (by decide) Wire.initial

/-- The body, late, is received by the next call. -/
def tailCall : Program.Call sys (ℤ × Bytes) HttpCall Wire :=
  segmentCall (ascii "ok") ok_nonempty ok_fits headCall.after

theorem headCall_session :
    Session (HttpCall.run 1) (wireEnvironment fun _ => okReply) Wire.initial [headCall]
      headCall.after :=
  segmentCall_session .start (by decide +kernel) (by decide +kernel)

theorem tailCall_session :
    Session (HttpCall.run 1) (wireEnvironment fun _ => okReply) Wire.initial [headCall, tailCall]
      tailCall.after :=
  segmentCall_session headCall_session (by decide +kernel) (by decide +kernel)

/-- The second call returns the tail of the first response. -/
theorem tailCall_not_its_own_reply :
    ¬∀ (replies : ℕ → Reply) (rounds : ℕ)
      (calls : List (Program.Call sys (ℤ × Bytes) HttpCall Wire)) (last : Wire),
      Session (HttpCall.run rounds) (wireEnvironment replies) Wire.initial calls last →
        ∀ call ∈ calls, GetsItsOwnReply replies call := by
  intro always
  have own := always _ 1 _ _ tailCall_session tailCall (by simp)
  rcases own rfl with ⟨request, _, _, tail⟩
  have differs : tailCall.value.2 ≠ okReply.text := by decide +kernel
  exact differs tail

end HumanMachine.Client
