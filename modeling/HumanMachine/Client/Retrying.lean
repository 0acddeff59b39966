import HumanMachine.Client.Phases

/-!
# The request buffer

`HttpHeadCreate` allocates the request, and `HttpDataTransmit` frees it after its
send, whatever comes of the transmission. A call which has lost its kept socket in
this way goes on to a new one with the same pointer.
-/

namespace HumanMachine.Client

open Program (Follows Throughout)

inductive Buffer where
  | held
  | released
  deriving DecidableEq

/-- The transmission on the kept socket fails, and the call gets a new connection. -/
def TransmitsAgain (events : List sys.Event) : Prop :=
  onKept fails events = true ∧ onFresh connects events = true

namespace Buffer

def next : Buffer → sys.Event → Buffer
  | _, ⟨.freeHttpHead, _⟩ => released
  | buffer, _ => buffer

/-- A send takes the request from the held buffer, and only a held buffer is released. -/
def Fit (strHttpHead : Bytes) (buffer : Buffer) : sys.Event → Prop
  | ⟨.send _ data, _⟩ => buffer = held ∧ data = strHttpHead ++ [0]
  | ⟨.freeHttpHead, _⟩ => buffer = held
  | _ => True

/-- The buffer is used well in a call: it is held at every send and released at most once. -/
def Respected (strHttpHead : Bytes) (events : List sys.Event) : Prop :=
  Throughout next (Fit strHttpHead) held events

/-- What the phases say about the buffer after these exchanges. -/
def Holds (strHttpHead : Bytes) (phase : Phase) (events : List sys.Event) : Prop :=
  let buffer := events.foldl next held
  let respected := Respected strHttpHead events
  let keptFails := onKept fails events
  let freshConnects := onFresh connects events
  match phase with
  | .start | .check .kept _ | .pending .kept _ | .transmit .kept _ =>
      createsSocket events = false ∧ respected ∧ buffer = held ∧ keptFails = false
  | .release .kept _ failed =>
      createsSocket events = false ∧ respected ∧ buffer = held ∧ keptFails = failed
  | .receiving .kept _ =>
      createsSocket events = false ∧ respected ∧ buffer = released ∧ keptFails = false
  | .lost .kept _ =>
      createsSocket events = false ∧ respected ∧ buffer = released ∧ keptFails = true
  | .renew | .create =>
      createsSocket events = false ∧ respected ∧ (buffer = held ↔ keptFails = false)
  | .created _ | .resolve _ | .translate _ _ | .getFlags _ _ | .setFlags _ _ | .connect _ _
  | .check .fresh _ | .pending .fresh _ =>
      createsSocket events = true ∧ respected ∧ (buffer = held ↔ keptFails = false) ∧
        freshConnects = false
  | .transmit .fresh _ =>
      createsSocket events = true ∧ respected ∧ (buffer = held ↔ keptFails = false) ∧
        freshConnects = true
  | .release .fresh _ _ =>
      createsSocket events = true ∧ freshConnects = true ∧ (respected ↔ keptFails = false) ∧
        (buffer = held ↔ keptFails = false)
  | .receiving .fresh _ | .lost .fresh _ | .giveUp _ =>
      createsSocket events = true ∧
        (respected ↔ (keptFails = true → freshConnects = false))
  | .forget | .finished _ => respected ↔ (keptFails = true → freshConnects = false)

theorem Holds.step {strUrl strHttpHead : Bytes} {phase after : Phase} {events : List sys.Event}
    {event : sys.Event} (holds : Holds strHttpHead phase events)
    (step : Step strUrl strHttpHead phase event after) :
    Holds strHttpHead after (events ++ [event]) := by
  cases step with
  | @select origin | @selectUnready origin | @getsockopt origin | @getsockoptError origin
  | @send origin | @free origin | @freeFailed origin | @recv origin | @recvClosed origin
  | @recvAgain origin | @recvError origin | @closeLost origin =>
      cases origin <;> simp_all [Holds, Respected, Program.throughout_append_singleton, next, Fit]
  | _ => simp_all [Holds, Respected, Program.throughout_append_singleton, next, Fit]

theorem Holds.respected {strHttpHead : Bytes} {phase : Phase} {events : List sys.Event}
    (holds : Holds strHttpHead phase events) (once : ¬TransmitsAgain events) :
    Respected strHttpHead events := by
  rw [TransmitsAgain] at once
  cases phase with
  | check origin | pending origin | transmit origin | release origin | receiving origin
  | lost origin => cases origin <;> simp_all [Holds]
  | _ => simp_all [Holds]

theorem Holds.not_transmitsAgain {strHttpHead : Bytes} {received : Option Bytes}
    {events : List sys.Event} (holds : Holds strHttpHead (.finished received) events)
    (respected : Respected strHttpHead events) : ¬TransmitsAgain events := by
  rw [TransmitsAgain]
  simp_all [Holds]

end Buffer

def HttpCall.strHttpHead (request : HttpCall) : Bytes :=
  httpHeadCreate request.strMethod (request.strUrl.getD []) request.strData

variable {rounds : ℕ} {request : HttpCall} {events : List sys.Event}
  {remaining : Http (ℤ × Bytes)}

theorem exists_phase {strUrl : Bytes} (accepted : request.acceptedUrl = some strUrl)
    (follows : Follows (request.run rounds) events remaining) :
    ∃ phase, Buffer.Holds request.strHttpHead phase events ∧
      Program.RunsOn (Step strUrl request.strHttpHead)
        (fun value phase => phase.Returns request.strResponse value) remaining phase := by
  have url : request.strUrl.getD [] = strUrl := by
    rw [HttpCall.acceptedUrl, Option.filter_eq_some_iff] at accepted
    rw [accepted.1]
    rfl
  rw [HttpCall.strHttpHead, url]
  apply (run_runsOn rounds accepted).invariant_of_follows follows
  · simp [Buffer.Holds, createsSocket, onKept, Buffer.Respected, Program.Throughout]
  · exact Buffer.Holds.step

theorem respected_of_not_transmitsAgain
    (follows : Follows (request.run rounds) events remaining) (once : ¬TransmitsAgain events) :
    Buffer.Respected request.strHttpHead events := by
  cases accepted : request.acceptedUrl with
  | none =>
      rw [run_of_rejected accepted] at follows
      rw [follows.of_done.1]
      trivial
  | some strUrl =>
      rcases exists_phase accepted follows with ⟨phase, holds, _⟩
      exact holds.respected once

theorem not_transmitsAgain_of_respected {result : ℤ × Bytes}
    (follows : Follows (request.run rounds) events (.done result))
    (respected : Buffer.Respected request.strHttpHead events) : ¬TransmitsAgain events := by
  cases accepted : request.acceptedUrl with
  | none =>
      rw [run_of_rejected accepted] at follows
      rw [follows.of_done.1]
      simp [TransmitsAgain, onKept]
  | some strUrl =>
      rcases exists_phase accepted follows with ⟨phase, holds, returns⟩
      rcases Phase.Returns.finished returns with ⟨received, rfl⟩
      exact holds.not_transmitsAgain respected

/-- A call uses its request buffer well as long as it does not transmit again after the kept
socket has failed; a finished call which does so has used the released buffer. -/
theorem request_buffer_respected_iff (follows : Follows (request.run rounds) events remaining) :
    (¬TransmitsAgain events → Buffer.Respected request.strHttpHead events) ∧
      ∀ result, remaining = .done result →
        (Buffer.Respected request.strHttpHead events ↔ ¬TransmitsAgain events) := by
  refine ⟨respected_of_not_transmitsAgain follows, ?_⟩
  rintro result rfl
  exact ⟨not_transmitsAgain_of_respected follows, respected_of_not_transmitsAgain follows⟩

/-! ## A kept socket which looks alive -/

/-- Everything succeeds, but the peer has closed the connection. -/
def closedEvents (kept : ℤ) : List sys.Event :=
  Program.transcript (prompt kept (fun _ => some 0x01020304) .closed) 0 (getAddress.run 1)

theorem closedEvents_follows (kept : ℤ)
    (returns : Program.outcome (prompt kept (fun _ => some 0x01020304) .closed) 0 (getAddress.run 1) =
      some (0, [])) : Follows (getAddress.run 1) (closedEvents kept) (.done (0, [])) :=
  Program.follows_transcript returns

theorem released_request_sent :
    ¬∀ (rounds : ℕ) (request : HttpCall) (events : List sys.Event) (result : ℤ × Bytes),
      Follows (request.run rounds) events (.done result) →
        Buffer.Respected request.strHttpHead events := by
  intro always
  have follows := closedEvents_follows 7 (by decide +kernel)
  have respected := always 1 getAddress _ _ follows
  have again : TransmitsAgain (closedEvents 7) := by
    constructor <;> decide +kernel
  exact not_transmitsAgain_of_respected follows respected again

theorem request_buffer_respected_iff_noneKept :
    Buffer.Respected getAddress.strHttpHead (closedEvents INVALID_SOCKET) := by
  have follows := closedEvents_follows INVALID_SOCKET (by decide +kernel)
  apply (request_buffer_respected_iff follows).1
  rintro ⟨keptFails, _⟩
  revert keptFails
  decide +kernel

end HumanMachine.Client
