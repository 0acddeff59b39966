import HumanMachine.Client.Phases
import Mathlib.Data.Finset.Basic

/-!
# Sockets which stay open

A call leaves its socket open in `m_iSocketFd`, for the next call. The kept socket is
closed when a transmission on it fails. When it does not pass the check, the static
descriptor is overwritten, and nothing refers to the socket any more.
-/

namespace HumanMachine.Client

open Program (Run Session)

/-- The static descriptor, and the sockets which were created and not closed since. -/
structure Sockets where
  socketFd : ℤ
  opened : Finset ℤ

namespace Sockets

def initial : Sockets where
  socketFd := INVALID_SOCKET
  opened := ∅

/-- `socket` fails or returns a descriptor which is not in use. -/
def allows (sockets : Sockets) : sys.Event → Bool
  | ⟨.loadSocketFd, fd⟩ => @BEq.beq ℤ _ fd sockets.socketFd
  | ⟨.socket, fd⟩ =>
      let fd : ℤ := fd
      fd = INVALID_SOCKET || (0 ≤ fd && fd ∉ sockets.opened)
  | _ => true

def next (sockets : Sockets) : sys.Event → Sockets
  | ⟨.storeSocketFd fd, _⟩ => { sockets with socketFd := fd }
  | ⟨.socket, fd⟩ =>
      let fd : ℤ := fd
      if fd = INVALID_SOCKET then sockets
      else { sockets with opened := insert fd sockets.opened }
  | ⟨.close fd, _⟩ => { sockets with opened := sockets.opened.erase fd }
  | _ => sockets

/-- At most one socket is open, and it is the one in `m_iSocketFd`. -/
def Tidy (sockets : Sockets) : Prop :=
  sockets.opened ⊆ {sockets.socketFd}

/-- What is kept is open. -/
structure Sound (sockets : Sockets) : Prop where
  kept : sockets.socketFd = INVALID_SOCKET ∨ sockets.socketFd ∈ sockets.opened
  descriptors : ∀ fd ∈ sockets.opened, 0 ≤ fd

/-- The socket which is lost in a call: a kept one which did not pass the check. -/
def leaked (before : Sockets) (events : List sys.Event) : Finset ℤ :=
  if onKept connects events = true then ∅ else before.opened

/-- The open sockets are these others and a new one. -/
structure Adds (fd : ℤ) (others opened : Finset ℤ) : Prop where
  isDescriptor : 0 ≤ fd
  isNew : fd ∉ others
  opened_eq : opened = insert fd others

theorem Adds.erase {fd : ℤ} {others opened : Finset ℤ} (adds : Adds fd others opened) :
    opened.erase fd = others := by
  rw [adds.opened_eq, Finset.erase_insert adds.isNew]

/-- What the phases of a call say about the sockets. -/
def Holds (before : Sockets) (phase : Phase) (events : List sys.Event) (sockets : Sockets) : Prop :=
  match phase with
  | .start => createsSocket events = false ∧ onKept connects events = false ∧ sockets = before
  | .check .kept fd | .pending .kept fd =>
      createsSocket events = false ∧ onKept connects events = false ∧ sockets = before ∧
        fd = before.socketFd
  | .transmit .kept fd | .release .kept fd _ | .receiving .kept fd | .lost .kept fd =>
      createsSocket events = false ∧ onKept connects events = true ∧ sockets = before ∧
        fd = before.socketFd
  | .renew => createsSocket events = false ∧ sockets.opened = leaked before events
  | .create =>
      createsSocket events = false ∧ sockets.opened = leaked before events ∧
        sockets.socketFd = INVALID_SOCKET
  | .created fd =>
      createsSocket events = true ∧
        (fd = INVALID_SOCKET ∧ sockets.opened = leaked before events ∨
          Adds fd (leaked before events) sockets.opened)
  | .resolve fd | .translate fd _ | .getFlags fd _ | .setFlags fd _ | .connect fd _
  | .check .fresh fd | .pending .fresh fd | .transmit .fresh fd | .release .fresh fd _
  | .receiving .fresh fd | .lost .fresh fd =>
      createsSocket events = true ∧ sockets.socketFd = fd ∧ Adds fd (leaked before events) sockets.opened
  | .giveUp fd =>
      createsSocket events = true ∧ sockets.opened.erase fd = leaked before events
  | .forget => createsSocket events = true ∧ sockets.opened = leaked before events
  | .finished _ =>
      onKept connects events = true ∧ sockets = before ∨
      sockets.socketFd = INVALID_SOCKET ∧ sockets.opened = leaked before events ∨
      Adds sockets.socketFd (leaked before events) sockets.opened

theorem Tidy.erase {sockets : Sockets} (tidy : sockets.Tidy) :
    sockets.opened.erase sockets.socketFd = ∅ :=
  (Finset.erase_eq_empty_iff _ _).mpr (Finset.subset_singleton_iff.mp tidy)

theorem leaked_append {before : Sockets} {events : List sys.Event} {event : sys.Event}
    (inert : createsSocket events = true ∨ connects event = false) :
    leaked before (events ++ [event]) = leaked before events := by
  rw [leaked, leaked, onKept_append]
  rcases inert with created | inert
  · rw [created, Bool.not_true, Bool.false_and, Bool.false_and, Bool.or_false]
  · rw [inert, Bool.and_false, Bool.or_false]

theorem leaked_of_fails {before : Sockets} {events : List sys.Event}
    (fails : onKept connects events = false) : leaked before events = before.opened := by
  simp [leaked, fails]

theorem leaked_of_passes {before : Sockets} {events : List sys.Event}
    (passes : onKept connects events = true) : leaked before events = ∅ := by
  simp [leaked, passes]

theorem Holds.step {strUrl strHttpHead : Bytes} {before : Sockets} {phase after : Phase}
    {events : List sys.Event} {event : sys.Event} {sockets : Sockets}
    (tidy : before.Tidy)
    (holds : Holds before phase events sockets) (step : Step strUrl strHttpHead phase event after)
    (allowed : sockets.allows event = true) :
    Holds before after (events ++ [event]) (sockets.next event) := by
  cases step with
  | @select origin | @getsockopt origin | @send origin | @free origin | @freeFailed origin
  | @recv origin | @recvClosed origin | @recvAgain origin | @recvError origin =>
      cases origin <;> simp_all [Holds, leaked_append, next]
  | @selectUnready origin | @getsockoptError origin =>
      cases origin with
      | kept => simp_all [Holds, leaked_of_fails, next]
      | fresh =>
          have erased := Adds.erase holds.2.2
          simp_all [Holds, leaked_append, next]
  | @closeLost origin =>
      cases origin with
      | kept =>
          have closed := tidy.erase
          simp_all [Holds, leaked_of_passes, next]
      | fresh =>
          have erased := Adds.erase holds.2.2
          have isNew := Adds.isNew holds.2.2
          simp_all [Holds, leaked_append, next]
  | @socket fd =>
      by_cases failed : fd = INVALID_SOCKET
      · simp_all [Holds, leaked_append, next]
      · have isFresh : 0 ≤ fd ∧ fd ∉ sockets.opened := by simpa [allows, failed] using allowed
        have adds : Adds fd sockets.opened (insert fd sockets.opened) :=
          ⟨isFresh.1, isFresh.2, rfl⟩
        simp_all [Holds, leaked_append, next]
  | @noTarget fd some | @named fd some | @dotted fd some =>
      have created : fd ≠ INVALID_SOCKET := by
        rintro rfl
        exact absurd some (by decide)
      simp_all [Holds, leaked_append, next]
  | inet_ptonError | fcntlSetFlError =>
      have erased := Adds.erase holds.2.2
      simp_all [Holds, leaked_append, next]
  | _ => simp_all [Holds, leaked_append, leaked_of_fails, next, allows]

section Final

variable {before sockets : Sockets} {received : Option Bytes} {events : List sys.Event}

theorem leaked_descriptors (sound : before.Sound) (events : List sys.Event) :
    ∀ fd ∈ leaked before events, 0 ≤ fd := by
  rw [leaked]
  split
  · simp
  · exact sound.descriptors

/-- Nothing is lost if there is no kept socket or it passes the check. -/
theorem leaked_eq_empty_iff (sound : before.Sound) (tidy : before.Tidy) :
    leaked before events = ∅ ↔
      (before.socketFd ≠ INVALID_SOCKET → onKept connects events = true) := by
  cases passes : onKept connects events with
  | true => simp [leaked_of_passes passes]
  | false =>
      rw [leaked_of_fails passes]
      constructor
      · intro none kept
        rcases sound.kept with isNone | isOpen
        · exact absurd isNone kept
        · simp [none] at isOpen
      · intro kept
        have none : before.socketFd = INVALID_SOCKET := by simpa using kept
        rcases Finset.subset_singleton_iff.mp tidy with empty | single
        · exact empty
        · have := sound.descriptors before.socketFd (by simp [single])
          rw [none] at this
          exact absurd this (by decide)

theorem Holds.sound (holds : Holds before (.finished received) events sockets)
    (sound : before.Sound) : sockets.Sound := by
  rcases holds with ⟨_, rfl⟩ | ⟨none, opened⟩ | adds
  · exact sound
  · refine ⟨Or.inl none, ?_⟩
    rw [opened]
    exact leaked_descriptors sound events
  · refine ⟨Or.inr (by simp [adds.opened_eq]), ?_⟩
    rw [adds.opened_eq]
    intro fd mem
    rcases Finset.mem_insert.mp mem with rfl | mem
    · exact adds.isDescriptor
    · exact leaked_descriptors sound events fd mem

theorem Holds.tidy_iff (holds : Holds before (.finished received) events sockets)
    (sound : before.Sound) (tidy : before.Tidy) :
    sockets.Tidy ↔ leaked before events = ∅ := by
  rcases holds with ⟨passes, rfl⟩ | ⟨none, opened⟩ | adds
  · simp [leaked_of_passes passes, tidy]
  · rw [Tidy, opened, none, Finset.subset_singleton_iff, or_iff_left]
    intro single
    have := leaked_descriptors sound events INVALID_SOCKET (by simp [single])
    exact absurd this (by decide)
  · rw [Tidy, adds.opened_eq, Finset.insert_subset_iff, Finset.subset_singleton_iff]
    constructor
    · rintro ⟨_, none | single⟩
      · exact none
      · have isNew := adds.isNew
        simp [single] at isNew
    · intro none
      simp [none]

end Final

end Sockets

def socketEnvironment : Environment sys Sockets :=
  Program.stepwise Sockets.allows Sockets.next

/-- If the call is not rejected and a socket is kept, it passes the check. -/
def KeptPasses (call : Program.Call sys (ℤ × Bytes) HttpCall Sockets) : Prop :=
  call.input.acceptedUrl ≠ none → call.before.socketFd ≠ INVALID_SOCKET →
    onKept connects call.events = true

section Calls

variable {rounds : ℕ} {call : Program.Call sys (ℤ × Bytes) HttpCall Sockets}
  {calls : List (Program.Call sys (ℤ × Bytes) HttpCall Sockets)} {last : Sockets}

/-- A call keeps what is kept open, and loses its kept socket exactly if that fails the check. -/
theorem call_tidy_iff (sound : call.before.Sound) (tidy : call.before.Tidy)
    (run : Run socketEnvironment (call.input.run rounds) call.before call.events
      (.done call.value) call.after) :
    call.after.Sound ∧ (call.after.Tidy ↔ KeptPasses call) := by
  cases accepted : call.input.acceptedUrl with
  | none =>
      rw [run_of_rejected accepted] at run
      have unchanged : call.after = call.before := run.of_done.2.2
      rw [unchanged, KeptPasses]
      exact ⟨sound, by simp [accepted, tidy]⟩
  | some strUrl =>
      rcases (run_runsOn rounds accepted).invariant run
        (fun phase events sockets => Sockets.Holds call.before phase events sockets)
        (by simp [Sockets.Holds, createsSocket, onKept])
        (fun holds step answered => by
          rcases answered with ⟨allowed, rfl⟩
          exact holds.step tidy step allowed) with ⟨phase, holds, returns⟩
      rcases Phase.Returns.finished returns with ⟨received, rfl⟩
      refine ⟨holds.sound sound, ?_⟩
      rw [holds.tidy_iff sound tidy, Sockets.leaked_eq_empty_iff sound tidy, KeptPasses]
      simp [accepted]

theorem Sockets.sound_initial : Sockets.initial.Sound :=
  ⟨Or.inl rfl, by simp [Sockets.initial]⟩

theorem Sockets.tidy_initial : Sockets.initial.Tidy := by
  simp [Sockets.Tidy, Sockets.initial]

/-- After each call of a session at most one socket is open, and it is the one in `m_iSocketFd`,
exactly if every kept socket passes its check. -/
theorem calls_leave_sockets_tidy_iff
    (session : Session (HttpCall.run rounds) socketEnvironment Sockets.initial calls last) :
    (∀ call ∈ calls, call.after.Tidy) ↔ ∀ call ∈ calls, KeptPasses call := by
  have initially : Sockets.initial.Sound ∧ Sockets.initial.Tidy :=
    ⟨Sockets.sound_initial, Sockets.tidy_initial⟩
  constructor
  · intro tidy call mem
    have each := (session.invariant (fun sockets => sockets.Sound ∧ sockets.Tidy)
      (fun call => call.after.Tidy) initially
      (fun call tidy held run => ⟨(call_tidy_iff held.1 held.2 run).1, tidy⟩) tidy).2 call mem
    exact (call_tidy_iff each.1 each.2 (session.run_of_mem mem)).2.mp (tidy call mem)
  · intro passes call mem
    have each := (session.invariant (fun sockets => sockets.Sound ∧ sockets.Tidy) KeptPasses initially
      (fun call passes held run =>
        have kept := call_tidy_iff held.1 held.2 run
        ⟨kept.1, kept.2.mpr passes⟩) passes).2 call mem
    exact (call_tidy_iff each.1 each.2 (session.run_of_mem mem)).2.mpr (passes call mem)

end Calls

/-! ## An idle connection which the peer has closed -/

def readyScript (kept : ℤ) : ℕ → (command : SysCommand) → sys.Answer command :=
  prompt kept (fun _ => some 0x01020304) okReceived

/-- The kept socket is readable, since its connection is at its end. -/
def unreadyScript : ℕ → (command : SysCommand) → sys.Answer command
  | _, .select _ => (⟨1, true, true⟩ : Selected)
  | _, .socket => (4 : ℤ)
  | n, command => readyScript 3 n command

def homeCall (script : ℕ → (command : SysCommand) → sys.Answer command) (before : Sockets) :
    Program.Call sys (ℤ × Bytes) HttpCall Sockets :=
  let events := Program.transcript script 0 (getAddress.run 1)
  ⟨getAddress, before, events, (1, ascii "ok"), events.foldl Sockets.next before⟩

def opening : Program.Call sys (ℤ × Bytes) HttpCall Sockets :=
  homeCall (readyScript INVALID_SOCKET) Sockets.initial

def reusing : Program.Call sys (ℤ × Bytes) HttpCall Sockets :=
  homeCall (readyScript 3) opening.after

def reopening : Program.Call sys (ℤ × Bytes) HttpCall Sockets :=
  homeCall unreadyScript opening.after

theorem homeCall_session {calls : List (Program.Call sys (ℤ × Bytes) HttpCall Sockets)}
    {last : Sockets}
    (session : Session (HttpCall.run 1) socketEnvironment Sockets.initial calls last)
    (script : ℕ → (command : SysCommand) → sys.Answer command)
    (returns : Program.outcome script 0 (getAddress.run 1) = some (1, ascii "ok"))
    (admitted : Program.admits Sockets.allows Sockets.next last (homeCall script last).events =
      true) :
    Session (HttpCall.run 1) socketEnvironment Sockets.initial
      (calls ++ [homeCall script last]) (homeCall script last).after :=
  session.replay script getAddress _ returns admitted

theorem opening_session :
    Session (HttpCall.run 1) socketEnvironment Sockets.initial [opening] opening.after :=
  homeCall_session .start _ (by decide +kernel) (by decide +kernel)

theorem reusing_session :
    Session (HttpCall.run 1) socketEnvironment Sockets.initial [opening, reusing] reusing.after :=
  homeCall_session opening_session _ (by decide +kernel) (by decide +kernel)

theorem reopening_session :
    Session (HttpCall.run 1) socketEnvironment Sockets.initial [opening, reopening]
      reopening.after :=
  homeCall_session opening_session _ (by decide +kernel) (by decide +kernel)

/-- The kept socket stays open when it is replaced. -/
theorem reopening_loses_socket :
    ¬∀ (rounds : ℕ) (calls : List (Program.Call sys (ℤ × Bytes) HttpCall Sockets)) (last : Sockets),
      Session (HttpCall.run rounds) socketEnvironment Sockets.initial calls last →
        ∀ call ∈ calls, call.after.Tidy := by
  intro always
  have tidy := always 1 _ _ reopening_session reopening (by simp)
  revert tidy
  change ¬reopening.after.opened ⊆ {reopening.after.socketFd}
  decide +kernel

theorem calls_leave_sockets_tidy_iff_reusing : opening.after.Tidy ∧ reusing.after.Tidy := by
  have passes : ∀ call ∈ [opening, reusing], KeptPasses call := by
    simp only [List.forall_mem_cons, List.not_mem_nil, false_implies, implies_true, and_true]
    refine ⟨fun _ kept => absurd rfl kept, fun _ _ => ?_⟩
    decide +kernel
  have tidy := (calls_leave_sockets_tidy_iff reusing_session).mpr passes
  exact ⟨tidy opening (by simp), tidy reusing (by simp)⟩

end HumanMachine.Client
