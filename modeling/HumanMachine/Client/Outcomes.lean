import HumanMachine.Client.Phases

/-!
# What a call returns

A call receives at most once: it returns as soon as `recv` has delivered some bytes.
So the return value says whether there are any, and the response text is either
replaced by them or left alone.
-/

namespace HumanMachine.Client

open Program (Follows)

/-- The bytes which an exchange delivers. -/
def delivered : sys.Event → Option Bytes
  | ⟨.recv _, .data buf _ _⟩ => some buf
  | _ => none

/-- Some `recv` of these exchanges has delivered these bytes, at least one. -/
def Delivers (events : List sys.Event) (buf : Bytes) : Prop :=
  ∃ fd nonempty fits, ⟨.recv fd, Received.data buf nonempty fits⟩ ∈ events

theorem mem_filterMap_delivered {events : List sys.Event} {buf : Bytes} :
    buf ∈ events.filterMap delivered ↔ Delivers events buf := by
  rw [List.mem_filterMap]
  constructor
  · rintro ⟨⟨command, answer⟩, mem, is⟩
    cases command with
    | recv fd =>
        cases answer with
        | data bytes nonempty fits =>
            obtain rfl : bytes = buf := Option.some_inj.mp is
            exact ⟨fd, nonempty, fits, mem⟩
        | closed => cases is
        | failed errno => cases is
    | _ => cases is
  · rintro ⟨fd, nonempty, fits, mem⟩
    exact ⟨_, mem, rfl⟩

/-- What a call has received when it is in a phase. -/
def Phase.received : Phase → Option Bytes
  | .finished received => received
  | _ => none

theorem Phase.received_failed (origin : Origin) (fd : ℤ) :
    (Phase.failed origin fd).received = none := by
  cases origin <;> rfl

/-- A call goes on only as long as it has received nothing. -/
theorem Step.received {strUrl strHttpHead : Bytes} {phase after : Phase} {event : sys.Event}
    (step : Step strUrl strHttpHead phase event after) :
    phase.received = none ∧ delivered event = after.received := by
  cases step with
  | selectUnready | getsockoptError | closeLost =>
      rw [Phase.received_failed]
      exact ⟨rfl, rfl⟩
  | _ => exact ⟨rfl, rfl⟩

variable {rounds : ℕ} {request : HttpCall} {events : List sys.Event}
  {remaining : Http (ℤ × Bytes)}

theorem exists_receivedPhase {strUrl : Bytes} (accepted : request.acceptedUrl = some strUrl)
    (follows : Follows (request.run rounds) events remaining) :
    ∃ phase : Phase, events.filterMap delivered = phase.received.toList ∧
      Program.RunsOn (Step strUrl (httpHeadCreate request.strMethod strUrl request.strData))
        (fun value phase => phase.Returns request.strResponse value) remaining phase := by
  apply (run_runsOn rounds accepted).invariant_of_follows follows
    fun phase events => events.filterMap delivered = phase.received.toList
  · rfl
  · intro phase history event next held step
    rcases step.received with ⟨nothing, brings⟩
    rw [List.filterMap_append, held, nothing]
    cases is : next.received <;> simp [brings, is]

/-- What a finished call has received, and what it returns. -/
theorem call_receives {value : ℤ × Bytes}
    (follows : Follows (request.run rounds) events (.done value)) :
    (events.filterMap delivered = [] ∧ value = (0, request.strResponse)) ∨
      ∃ buf, events.filterMap delivered = [buf] ∧ value = (1, cString buf) := by
  cases accepted : request.acceptedUrl with
  | none =>
      rw [run_of_rejected accepted] at follows
      rcases follows.of_done with ⟨rfl, is⟩
      cases is
      left
      exact ⟨rfl, rfl⟩
  | some strUrl =>
      rcases exists_receivedPhase accepted follows with ⟨phase, chunks, returns⟩
      rcases Phase.Returns.finished returns with ⟨received, rfl⟩
      cases received with
      | none =>
          left
          exact ⟨chunks, returns⟩
      | some buf =>
          right
          exact ⟨buf, chunks, returns⟩

/-- A call returns 1 exactly if it has received some bytes, and the response then is these
bytes up to the first NUL; otherwise it returns 0 and the response is left as it was. -/
theorem result_agrees_with_response {value : ℤ} {strResponse : Bytes}
    (follows : Follows (request.run rounds) events (.done (value, strResponse))) :
    (value = 1 ↔ ∃ buf, Delivers events buf) ∧
      (∀ buf, Delivers events buf → strResponse = cString buf) ∧
      (value ≠ 1 → value = 0 ∧ strResponse = request.strResponse) := by
  simp only [← mem_filterMap_delivered]
  rcases call_receives follows with ⟨none, is⟩ | ⟨buf, one, is⟩
  · cases is
    simp [none]
  · cases is
    simp [one]

/-! ## A page which is received -/

def getText : HttpCall := .get (some (ascii "http://1.2.3.4")) (ascii "before")

def textReceived : Received :=
  .data (ascii "text") (by decide) (by decide)

def textEvents : List sys.Event :=
  Program.transcript (prompt INVALID_SOCKET (fun _ => some 0x01020304) textReceived) 0
    (getText.run 1)

theorem result_agrees_with_response_text : ∃ buf, Delivers textEvents buf := by
  have follows : Follows (getText.run 1) textEvents (.done (1, ascii "text")) :=
    Program.follows_transcript (by decide +kernel)
  exact (result_agrees_with_response follows).1.mp rfl

end HumanMachine.Client
