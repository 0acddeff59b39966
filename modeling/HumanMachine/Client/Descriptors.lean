import HumanMachine.Client.Phases
import Mathlib.Data.Finset.Basic

/-!
# Whose descriptors are closed

Descriptors are numbers in a table of the process, and the thread which deploys
images opens and closes pipes meanwhile. A number stands for another file as soon as
it has been closed and opened again, so it matters that `HttpDataTransmit` closes its
socket when it fails and that the code after it closes the new socket once more.
-/

namespace HumanMachine.Client

open Program (Run Session)

/-- The static descriptor and the table of the process. -/
structure Table where
  socketFd : ℤ
  /-- What `HttpRequest` has opened and not closed since. -/
  own : Finset ℤ
  /-- What other threads have opened and not closed since. -/
  others : Finset ℤ
  opened : Finset ℤ
  /-- So far `HttpRequest` has named its own open sockets only. -/
  careful : Bool

/-- The lowest number which is not open. -/
def LowestFree (opened : Finset ℤ) (fd : ℤ) : Prop :=
  0 ≤ fd ∧ fd ∉ opened ∧ ∀ lower < fd.toNat, (lower : ℤ) ∈ opened

instance (opened : Finset ℤ) (fd : ℤ) : Decidable (LowestFree opened fd) :=
  inferInstanceAs (Decidable (_ ∧ _ ∧ _))

/-- The descriptor which a command closes, waits for or transfers data on. -/
def named : SysCommand → Option ℤ
  | .close fd | .send fd _ | .recv fd | .select fd => some fd
  | _ => none

namespace Table

/-- Before the first call; everything open belongs to others. -/
def initial (opened : Finset ℤ) : Table where
  socketFd := INVALID_SOCKET
  own := ∅
  others := opened
  opened := opened
  careful := true

/-- A command which names a descriptor names an open socket of its own. -/
def permits (table : Table) (command : SysCommand) : Bool :=
  match named command with
  | some fd => fd ∈ table.own ∧ fd ∈ table.opened
  | none => true

def allows (table : Table) : sys.Event → Bool
  | ⟨.loadSocketFd, fd⟩ => @BEq.beq ℤ _ fd table.socketFd
  | ⟨.socket, fd⟩ =>
      let fd : ℤ := fd
      fd = INVALID_SOCKET || LowestFree table.opened fd
  | _ => true

/-- What an exchange does to the table. -/
def effect (table : Table) : sys.Event → Table
  | ⟨.storeSocketFd fd, _⟩ => { table with socketFd := fd }
  | ⟨.socket, fd⟩ =>
      let fd : ℤ := fd
      if fd = INVALID_SOCKET then table
      else { table with own := insert fd table.own, opened := insert fd table.opened }
  | ⟨.close fd, _⟩ =>
      { table with own := table.own.erase fd, opened := table.opened.erase fd }
  | _ => table

def next (table : Table) (event : sys.Event) : Table :=
  { table.effect event with careful := table.careful && table.permits event.1 }

inductive OthersStep : Table → Table → Prop where
  | opens {table : Table} {fd : ℤ} (free : LowestFree table.opened fd) :
      OthersStep table
        { table with others := insert fd table.others, opened := insert fd table.opened }
  | closes {table : Table} {fd : ℤ} (theirs : fd ∈ table.others) :
      OthersStep table
        { table with others := table.others.erase fd, opened := table.opened.erase fd }

/-- Nothing belongs to two, and what belongs to someone is open. -/
structure Disciplined (table : Table) : Prop where
  separate : ∀ fd ∈ table.own, fd ∉ table.others
  ownOpen : table.own ⊆ table.opened
  othersOpen : table.others ⊆ table.opened

/-- As long as the calls have been careful, the table is in order. -/
def Guarded (table : Table) : Prop :=
  table.careful = true → table.Disciplined

structure Undisturbed (before after : Table) : Prop where
  socketFd : after.socketFd = before.socketFd
  own : after.own = before.own
  careful : after.careful = before.careful
  disciplined : before.Disciplined → after.Disciplined

theorem OthersStep.undisturbed {before after : Table} (step : OthersStep before after) :
    Undisturbed before after := by
  cases step with
  | @opens fd free =>
      refine ⟨rfl, rfl, rfl, ?_⟩
      intro disciplined
      constructor
      · intro owned mem
        have isOther : owned ≠ fd := fun same =>
          free.2.1 (disciplined.ownOpen (same ▸ mem))
        simp [isOther, disciplined.separate owned mem]
      · exact disciplined.ownOpen.trans (Finset.subset_insert _ _)
      · exact Finset.insert_subset_insert _ disciplined.othersOpen
  | @closes fd theirs =>
      refine ⟨rfl, rfl, rfl, ?_⟩
      intro disciplined
      constructor
      · intro owned mem isOther
        exact disciplined.separate owned mem (Finset.mem_of_mem_erase isOther)
      · have notOurs : fd ∉ before.own := fun mem => disciplined.separate fd mem theirs
        exact Finset.subset_erase.mpr ⟨disciplined.ownOpen, notOurs⟩
      · exact Finset.erase_subset_erase _ disciplined.othersOpen

theorem undisturbed_of_othersSteps {before after : Table}
    (steps : Relation.ReflTransGen OthersStep before after) : Undisturbed before after := by
  induction steps with
  | refl => exact ⟨rfl, rfl, rfl, id⟩
  | tail _ step ih =>
      have last := step.undisturbed
      exact ⟨last.socketFd.trans ih.socketFd, last.own.trans ih.own, last.careful.trans ih.careful,
        last.disciplined ∘ ih.disciplined⟩

theorem Undisturbed.guarded {before after : Table} (undisturbed : Undisturbed before after)
    (guarded : before.Guarded) : after.Guarded := by
  intro careful
  exact undisturbed.disciplined (guarded (undisturbed.careful ▸ careful))

@[simp]
theorem socketFd_next (table : Table) (event : sys.Event) :
    (table.next event).socketFd = (table.effect event).socketFd := rfl

@[simp]
theorem own_next (table : Table) (event : sys.Event) :
    (table.next event).own = (table.effect event).own := rfl

theorem careful_next (table : Table) (event : sys.Event) :
    (table.next event).careful = (table.careful && table.permits event.1) := rfl

theorem Disciplined.insert {table : Table} (disciplined : table.Disciplined) {fd : ℤ}
    (free : fd ∉ table.opened) :
    Disciplined { table with own := insert fd table.own, opened := insert fd table.opened } where
  separate := by
    intro owned mem isOther
    rcases Finset.mem_insert.mp mem with rfl | mem
    · exact free (disciplined.othersOpen isOther)
    · exact disciplined.separate owned mem isOther
  ownOpen := Finset.insert_subset_insert _ disciplined.ownOpen
  othersOpen := disciplined.othersOpen.trans (Finset.subset_insert _ _)

theorem Disciplined.erase {table : Table} (disciplined : table.Disciplined) {fd : ℤ}
    (owned : fd ∈ table.own) :
    Disciplined { table with own := table.own.erase fd, opened := table.opened.erase fd } where
  separate := by
    intro other mem
    exact disciplined.separate other (Finset.mem_of_mem_erase mem)
  ownOpen := Finset.erase_subset_erase _ disciplined.ownOpen
  othersOpen := Finset.subset_erase.mpr ⟨disciplined.othersOpen, disciplined.separate fd owned⟩

theorem Disciplined.socket {table : Table} (disciplined : table.Disciplined) {fd : ℤ}
    (allowed : table.allows ⟨.socket, fd⟩ = true) : (table.effect ⟨.socket, fd⟩).Disciplined := by
  by_cases failed : fd = INVALID_SOCKET
  · simpa [effect, failed] using disciplined
  · have free : LowestFree table.opened fd := by simpa [allows, failed] using allowed
    simpa [effect, failed] using disciplined.insert free.2.1

theorem Disciplined.effect {table : Table} (disciplined : table.Disciplined) {event : sys.Event}
    (allowed : table.allows event = true) (permitted : table.permits event.1 = true) :
    (table.effect event).Disciplined := by
  rcases event with ⟨command, answer⟩
  cases command with
  | socket => exact disciplined.socket allowed
  | close fd =>
      have owned : fd ∈ table.own ∧ fd ∈ table.opened := by simpa [permits, named] using permitted
      exact disciplined.erase owned.1
  | _ => exact ⟨disciplined.separate, disciplined.ownOpen, disciplined.othersOpen⟩

theorem Guarded.next {table : Table} {event : sys.Event} (guarded : table.Guarded)
    (allowed : table.allows event = true) : (table.next event).Guarded := by
  intro careful
  rw [careful_next, Bool.and_eq_true] at careful
  have disciplined := (guarded careful.1).effect allowed careful.2
  exact ⟨disciplined.separate, disciplined.ownOpen, disciplined.othersOpen⟩

theorem Guarded.careful_eq {table : Table} {event : sys.Event} (guarded : table.Guarded)
    (owned : ∀ fd, named event.1 = some fd → fd ∈ table.own) :
    (table.next event).careful = table.careful := by
  rw [careful_next]
  cases careful : table.careful with
  | false => rfl
  | true =>
      have disciplined := guarded careful
      cases isNamed : named event.1 with
      | none => simp [permits, isNamed]
      | some fd => simp [permits, isNamed, owned fd isNamed, disciplined.ownOpen (owned fd isNamed)]

theorem careful_eq_false {table : Table} {event : sys.Event} {fd : ℤ} (isNamed : named event.1 = some fd)
    (foreign : fd ∉ table.own) : (table.next event).careful = false := by
  simp [careful_next, permits, isNamed, foreign]

/-- What the phases of a call say about the table, where `careful` is from before the call. -/
def Holds (table : Table) (careful : Bool) (phase : Phase) (events : List sys.Event) : Prop :=
  let failed := onFresh fails events
  match phase with
  | .start =>
      createsSocket events = false ∧ table.careful = careful ∧
        (table.socketFd = INVALID_SOCKET ∨ table.socketFd ∈ table.own)
  | .check .kept fd | .pending .kept fd | .transmit .kept fd | .release .kept fd _
  | .receiving .kept fd | .lost .kept fd =>
      createsSocket events = false ∧ table.careful = careful ∧ table.socketFd = fd ∧ fd ∈ table.own
  | .renew => createsSocket events = false ∧ table.careful = careful
  | .create =>
      createsSocket events = false ∧ table.careful = careful ∧ table.socketFd = INVALID_SOCKET
  | .created fd =>
      createsSocket events = true ∧ table.careful = careful ∧ failed = false ∧
        (fd = INVALID_SOCKET ∨ 0 ≤ fd ∧ fd ∈ table.own)
  | .resolve fd | .translate fd _ | .getFlags fd _ | .setFlags fd _ | .connect fd _
  | .check .fresh fd | .pending .fresh fd | .transmit .fresh fd | .receiving .fresh fd =>
      createsSocket events = true ∧ table.careful = careful ∧ failed = false ∧
        table.socketFd = fd ∧ fd ∈ table.own
  | .release .fresh fd hasFailed =>
      createsSocket events = true ∧ table.careful = careful ∧ failed = hasFailed ∧
        table.socketFd = fd ∧ fd ∈ table.own
  | .lost .fresh fd =>
      createsSocket events = true ∧ table.careful = careful ∧ failed = true ∧ fd ∈ table.own
  | .giveUp fd =>
      createsSocket events = true ∧ table.careful = careful ∧ (failed = false ↔ fd ∈ table.own)
  | .forget => createsSocket events = true ∧ table.careful = (careful && !failed)
  | .finished _ =>
      table.careful = (careful && !failed) ∧
        (table.socketFd = INVALID_SOCKET ∨ table.socketFd ∈ table.own)

theorem Undisturbed.holds {before after : Table} (undisturbed : Undisturbed before after)
    {careful : Bool} {phase : Phase} {events : List sys.Event}
    (holds : before.Holds careful phase events) : after.Holds careful phase events := by
  unfold Holds
  rw [undisturbed.socketFd, undisturbed.own, undisturbed.careful]
  exact holds

/-- Only a socket which is given up may be closed already. -/
theorem Holds.owned {strUrl strHttpHead : Bytes} {careful : Bool} {phase after : Phase}
    {events : List sys.Event} {event : sys.Event} {table : Table}
    (holds : table.Holds careful phase events) (step : Step strUrl strHttpHead phase event after)
    (going : ∀ fd, phase ≠ .giveUp fd) : ∀ fd, named event.1 = some fd → fd ∈ table.own := by
  cases step with
  | @select origin | @selectUnready origin | @send origin | @recv origin | @recvClosed origin
  | @recvAgain origin | @recvError origin | @closeLost origin =>
      cases origin <;> simp_all [Holds, named]
  | closeGivenUp => exact absurd rfl (going _)
  | _ => simp [named]

theorem Holds.step_of_same {strUrl strHttpHead : Bytes} {careful : Bool} {phase after : Phase}
    {events : List sys.Event} {event : sys.Event} {table : Table}
    (holds : table.Holds careful phase events) (step : Step strUrl strHttpHead phase event after)
    (going : ∀ fd, phase ≠ .giveUp fd) (same : (table.next event).careful = table.careful)
    (allowed : table.allows event = true) :
    (table.next event).Holds careful after (events ++ [event]) := by
  cases step with
  | @select origin | @selectUnready origin | @getsockopt origin | @getsockoptError origin
  | @send origin | @free origin | @freeFailed origin | @recv origin | @recvClosed origin
  | @recvAgain origin | @recvError origin | @closeLost origin =>
      cases origin <;> simp_all [Holds, effect]
  | @socket fd =>
      by_cases failed : fd = INVALID_SOCKET
      · simp_all [Holds]
      · have free : LowestFree table.opened fd := by simpa [allows, failed] using allowed
        have isDescriptor := free.1
        simp_all [Holds, effect]
  | @noSocket fd none =>
      have negative : ¬0 ≤ fd := by omega
      simp_all [Holds, effect]
  | @noTarget fd some | @named fd some | @dotted fd some =>
      have created : fd ≠ INVALID_SOCKET := by
        rintro rfl
        exact absurd some (by decide)
      simp_all [Holds, effect]
  | closeGivenUp => exact absurd rfl (going _)
  | _ => simp_all [Holds, effect, allows]

/-- A socket which is given up is closed once more if its transmission has failed. -/
theorem Holds.step_giveUp {careful : Bool} {fd : ℤ} {events : List sys.Event} {table : Table}
    (guarded : table.Guarded) (holds : table.Holds careful (.giveUp fd) events) :
    (table.next ⟨.close fd, ()⟩).Holds careful .forget (events ++ [⟨.close fd, ()⟩]) := by
  rcases holds with ⟨created, same, owned⟩
  have still : onFresh fails (events ++ [⟨.close fd, ()⟩]) = onFresh fails events := by
    simp
  refine ⟨by simp [created], ?_⟩
  simp only [still]
  cases failed : onFresh fails events with
  | false =>
      have mem := owned.mp failed
      rw [guarded.careful_eq (by simp [named, mem]), same]
      simp
  | true =>
      have foreign : fd ∉ table.own := fun mem => by simp [owned.mpr mem] at failed
      rw [careful_eq_false rfl foreign]
      simp

theorem Holds.step {strUrl strHttpHead : Bytes} {careful : Bool} {phase after : Phase}
    {events : List sys.Event} {event : sys.Event} {table : Table} (guarded : table.Guarded)
    (holds : table.Holds careful phase events) (step : Step strUrl strHttpHead phase event after)
    (allowed : table.allows event = true) :
    (table.next event).Holds careful after (events ++ [event]) := by
  by_cases going : ∀ fd, phase ≠ .giveUp fd
  · exact holds.step_of_same step going (guarded.careful_eq (holds.owned step going)) allowed
  · simp only [not_forall, not_not] at going
    rcases going with ⟨fd, rfl⟩
    cases step
    exact holds.step_giveUp guarded

def KeepsOwn (table : Table) : Prop :=
  table.socketFd = INVALID_SOCKET ∨ table.socketFd ∈ table.own

theorem Holds.careful_of_not_failed {table : Table} {careful : Bool} {phase : Phase}
    {events : List sys.Event} (holds : table.Holds careful phase events)
    (failed : onFresh fails events = false) : table.careful = careful := by
  cases phase with
  | check origin | pending origin | transmit origin | release origin | receiving origin
  | lost origin => cases origin <;> simp_all [Holds]
  | _ => simp_all [Holds]

end Table

/-- Other threads open and close descriptors between any two system calls. -/
def tableEnvironment : Environment sys Table :=
  Program.amid Table.OthersStep (Program.stepwise Table.allows Table.next)

section Calls

variable {rounds : ℕ} {request : HttpCall} {before now : Table} {events : List sys.Event}
  {remaining : Http (ℤ × Bytes)}

theorem exists_tablePhase {strUrl : Bytes} (accepted : request.acceptedUrl = some strUrl)
    (guarded : before.Guarded) (keeps : before.KeepsOwn)
    (run : Run tableEnvironment (request.run rounds) before events remaining now) :
    ∃ phase, (now.Guarded ∧ now.Holds before.careful phase events) ∧
      Program.RunsOn (Step strUrl (httpHeadCreate request.strMethod strUrl request.strData))
        (fun value phase => phase.Returns request.strResponse value) remaining phase := by
  apply (run_runsOn rounds accepted).invariant run
    fun phase events table => table.Guarded ∧ table.Holds before.careful phase events
  · exact ⟨guarded, rfl, rfl, keeps⟩
  · rintro phase history table event next result ⟨guarded, holds⟩ step ⟨middle, steps, allowed, rfl⟩
    have undisturbed := Table.undisturbed_of_othersSteps steps
    have guarded := undisturbed.guarded guarded
    exact ⟨guarded.next allowed, (undisturbed.holds holds).step guarded step allowed⟩

theorem careful_of_run (guarded : before.Guarded) (keeps : before.KeepsOwn)
    (run : Run tableEnvironment (request.run rounds) before events remaining now)
    (failed : onFresh fails events = false) : now.careful = before.careful := by
  cases accepted : request.acceptedUrl with
  | none =>
      rw [run_of_rejected accepted] at run
      rw [run.of_done.2.2]
  | some strUrl =>
      rcases exists_tablePhase accepted guarded keeps run with ⟨phase, ⟨_, holds⟩, _⟩
      exact holds.careful_of_not_failed failed

/-- A finished call was careful exactly if no transmission on a new socket has failed. -/
theorem careful_of_call {result : ℤ × Bytes} (guarded : before.Guarded) (keeps : before.KeepsOwn)
    (run : Run tableEnvironment (request.run rounds) before events (.done result) now) :
    now.Guarded ∧ now.KeepsOwn ∧ now.careful = (before.careful && !onFresh fails events) := by
  cases accepted : request.acceptedUrl with
  | none =>
      rw [run_of_rejected accepted] at run
      rcases run.of_done with ⟨rfl, _, rfl⟩
      exact ⟨guarded, keeps, by simp [onFresh]⟩
  | some strUrl =>
      rcases exists_tablePhase accepted guarded keeps run with ⟨phase, ⟨guarded, holds⟩, returns⟩
      rcases Phase.Returns.finished returns with ⟨received, rfl⟩
      exact ⟨guarded, holds.2, holds.1⟩

variable {calls : List (Program.Call sys (ℤ × Bytes) HttpCall Table)} {last : Table}
  {opened : Finset ℤ}

theorem Table.guarded_initial (opened : Finset ℤ) : (Table.initial opened).Guarded := by
  intro _
  exact ⟨by simp [Table.initial], by simp [Table.initial], subset_rfl⟩

theorem careful_of_session
    (session : Session (HttpCall.run rounds) tableEnvironment (Table.initial opened) calls last) :
    last.Guarded ∧ last.KeepsOwn ∧
      (last.careful = true ↔ ∀ call ∈ calls, onFresh fails call.events = false) := by
  induction session with
  | start => exact ⟨Table.guarded_initial opened, Or.inl rfl, by simp [Table.initial]⟩
  | @call calls call earlier run ih =>
      rcases ih with ⟨guarded, keeps, careful⟩
      rcases careful_of_call guarded keeps run with ⟨guarded, keeps, same⟩
      refine ⟨guarded, keeps, ?_⟩
      rw [same, Bool.and_eq_true, careful]
      simp [or_imp, forall_and]

/-- In a session every close, send, recv and select has named an own open socket exactly if no
transmission on a new socket has failed; likewise, as far as it has come, in a further call. -/
theorem own_sockets_named_iff
    (session : Session (HttpCall.run rounds) tableEnvironment (Table.initial opened) calls last) :
    (last.careful = true ↔ ∀ call ∈ calls, onFresh fails call.events = false) ∧
      ∀ (request : HttpCall) (events : List sys.Event) (remaining : Http (ℤ × Bytes)) (now : Table),
        Run tableEnvironment (request.run rounds) last events remaining now →
          (∀ call ∈ calls, onFresh fails call.events = false) →
            onFresh fails events = false → now.careful = true := by
  rcases careful_of_session session with ⟨guarded, keeps, careful⟩
  refine ⟨careful, ?_⟩
  intro request events remaining now run earlier failed
  rw [careful_of_run guarded keeps run failed]
  exact careful.mpr earlier

end Calls

/-! ## A pipe of another thread -/

/-- Another thread opens a pipe when the socket 3 has been closed. -/
def openPipe (table : Table) : Table :=
  if LowestFree table.opened 3 ∧ table.socketFd = 3 ∧ 3 ∉ table.others then
    { table with others := insert 3 table.others, opened := insert 3 table.opened }
  else table

theorem openPipe_steps (table : Table) :
    Relation.ReflTransGen Table.OthersStep table (openPipe table) := by
  rw [openPipe]
  split
  · next free => exact .single (.opens free.1)
  · exact .refl

def pipeAllows (table : Table) (event : sys.Event) : Bool :=
  (openPipe table).allows event

def pipeNext (table : Table) (event : sys.Event) : Table :=
  (openPipe table).next event

def pageCall (script : ℕ → (command : SysCommand) → sys.Answer command) (result : ℤ × Bytes) :
    Program.Call sys (ℤ × Bytes) HttpCall Table :=
  let before := Table.initial {0, 1, 2}
  let events := Program.transcript script 0 (getAddress.run 1)
  ⟨getAddress, before, events, result, events.foldl pipeNext before⟩

theorem pageCall_session (script : ℕ → (command : SysCommand) → sys.Answer command)
    (result : ℤ × Bytes) (returns : Program.outcome script 0 (getAddress.run 1) = some result)
    (admitted : Program.admits pipeAllows pipeNext (Table.initial {0, 1, 2})
      (pageCall script result).events = true) :
    Session (HttpCall.run 1) tableEnvironment (Table.initial {0, 1, 2}) [pageCall script result]
      (pageCall script result).after := by
  have run : Run (Program.stepwise pipeAllows pipeNext) (getAddress.run 1) (Table.initial {0, 1, 2})
      (pageCall script result).events (.done result) (pageCall script result).after :=
    (Program.follows_transcript returns).run_stepwise admitted
  have amid := run.mono fun {before command answer after} answered =>
    (⟨openPipe before, openPipe_steps before, answered.1, answered.2⟩ :
      tableEnvironment before command answer after)
  have session : Session (HttpCall.run 1) tableEnvironment (Table.initial {0, 1, 2})
      ([] ++ [pageCall script result]) (pageCall script result).after := .call .start amid
  exact session

/-- Everything succeeds, up to what is received. -/
def pageScript (received : Received) : ℕ → (command : SysCommand) → sys.Answer command :=
  prompt INVALID_SOCKET (fun _ => some 0x01020304) received

/-- When the peer closes the new connection at once, the second close hits the pipe. -/
theorem second_close_hits_pipe :
    ∃ calls last, Session (HttpCall.run 1) tableEnvironment (Table.initial {0, 1, 2}) calls last ∧
      last.careful = false ∧ 3 ∈ last.others ∧ 3 ∉ last.opened := by
  have session := pageCall_session (pageScript .closed) (0, []) (by decide +kernel) (by decide +kernel)
  exact ⟨_, _, session, by decide +kernel, by decide +kernel, by decide +kernel⟩

theorem own_sockets_named_iff_received :
    (pageCall (pageScript okReceived) (1, ascii "ok")).after.careful = true := by
  have session := pageCall_session (pageScript okReceived) (1, ascii "ok")
    (by decide +kernel) (by decide +kernel)
  apply (own_sockets_named_iff session).1.mpr
  intro call mem
  rw [List.mem_singleton.mp mem]
  decide +kernel

end HumanMachine.Client
