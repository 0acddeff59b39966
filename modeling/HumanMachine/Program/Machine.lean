import HumanMachine.Program.Session

/-!
# Programs on machines

A machine says which exchange may come next in a phase, and which phase follows.
A program runs on a machine if all its exchanges are steps of the machine, whatever
the answers, and what it returns belongs to the phase it ends in. An invariant of its
runs then is a matter of the steps alone; it may speak about the phase, the
exchanges so far and the state of an environment.
-/

namespace HumanMachine.Program

variable {I : Interface} {α β σ φ : Type}

abbrev Machine (I : Interface) (φ : Type) : Type :=
  φ → I.Event → φ → Prop

def RunsOn (machine : Machine I φ) (post : α → φ → Prop) : Program I α → φ → Prop
  | .done value, phase => post value phase
  | .call command next, phase =>
      ∀ answer, ∃ after, machine phase ⟨command, answer⟩ after ∧
        RunsOn machine post (next answer) after
  | .unfinished, _ => True

variable {machine : Machine I φ} {post : α → φ → Prop}

theorem RunsOn.mono {weaker : α → φ → Prop} {program : Program I α} {phase : φ}
    (runs : RunsOn machine post program phase)
    (imp : ∀ value phase, post value phase → weaker value phase) :
    RunsOn machine weaker program phase := by
  induction program generalizing phase with
  | done value => exact imp value phase runs
  | call command next ih =>
      intro answer
      rcases runs answer with ⟨after, step, rest⟩
      exact ⟨after, step, ih answer rest⟩
  | unfinished => trivial

theorem runsOn_request_bind {command : I.Command} {post : β → φ → Prop}
    {continuation : I.Answer command → Program I β} {phase : φ}
    (each : ∀ answer, ∃ after, machine phase ⟨command, answer⟩ after ∧
      RunsOn machine post (continuation answer) after) :
    RunsOn machine post (request command >>= continuation) phase :=
  each

theorem RunsOn.bind {post : β → φ → Prop} {program : Program I α}
    {continuation : α → Program I β} {phase : φ}
    (runs : RunsOn machine (fun value phase => RunsOn machine post (continuation value) phase)
      program phase) : RunsOn machine post (program >>= continuation) phase := by
  induction program generalizing phase with
  | done value => exact runs
  | call command next ih =>
      intro answer
      rcases runs answer with ⟨after, step, rest⟩
      exact ⟨after, step, ih answer rest⟩
  | unfinished => trivial

/-- The rule for invariants: what the steps of the machine keep, together with the
environment, holds after every run, in a phase the rest of the program goes on from. -/
theorem RunsOn.invariant {env : Environment I σ} {program remaining : Program I α} {phase : φ}
    {before after : σ} {events : List I.Event} (runs : RunsOn machine post program phase)
    (run : Run env program before events remaining after)
    (inv : φ → List I.Event → σ → Prop) (initially : inv phase [] before)
    (step : ∀ {phase history state event next result}, inv phase history state →
      machine phase event next → env state event.1 event.2 result →
      inv next (history ++ [event]) result) :
    ∃ last, inv last events after ∧ RunsOn machine post remaining last := by
  suffices general : ∀ history, inv phase history before →
      ∃ last, inv last (history ++ events) after ∧ RunsOn machine post remaining last from
    general [] initially
  clear initially
  induction run generalizing phase with
  | refl program state =>
      intro history held
      exact ⟨phase, by simpa using held, runs⟩
  | @step command next answer events program before middle after answered rest ih =>
      intro history held
      rcases runs answer with ⟨following, taken, runs⟩
      rcases ih runs _ (step held taken answered) with ⟨last, heldLast, runs⟩
      exact ⟨last, by simpa using heldLast, runs⟩

theorem RunsOn.invariant_of_follows {program remaining : Program I α} {phase : φ}
    {events : List I.Event} (runs : RunsOn machine post program phase)
    (follows : Follows program events remaining) (inv : φ → List I.Event → Prop)
    (initially : inv phase [])
    (step : ∀ {phase history event next}, inv phase history → machine phase event next →
      inv next (history ++ [event])) :
    ∃ last, inv last events ∧ RunsOn machine post remaining last := by
  apply runs.invariant (follows.run_stepwise (admits_free events))
    (fun phase history _ => inv phase history) initially
  intro phase history state event next result held taken _
  exact step held taken

/-- An invariant which permits every command that may come next is a guarantee. -/
theorem RunsOn.guarantees [∀ command, Nonempty (I.Answer command)] {env : Environment I σ}
    {program : Program I α} {phase : φ} {state : σ} (runs : RunsOn machine post program phase)
    {allowed : σ → I.Command → Prop} (inv : φ → σ → Prop)
    (initially : inv phase state)
    (permits : ∀ {phase state event next}, inv phase state → machine phase event next →
      allowed state event.1)
    (step : ∀ {phase state event next result}, inv phase state → machine phase event next →
      env state event.1 event.2 result → inv next result) :
    Guarantees env allowed (fun value state => ∃ last, inv last state ∧ post value last)
      program state := by
  induction program generalizing phase state with
  | done value => exact ⟨phase, initially, runs⟩
  | call command next ih =>
      constructor
      · rcases ‹∀ command, Nonempty (I.Answer command)› command with ⟨answer⟩
        rcases runs answer with ⟨following, taken, _⟩
        exact permits initially taken
      · intro answer after answered
        rcases runs answer with ⟨following, taken, rest⟩
        exact ih answer rest (step initially taken answered)
  | unfinished => trivial

/-! ## Interference -/

/-- The environment in which others act in between. -/
def amid (others : σ → σ → Prop) (env : Environment I σ) : Environment I σ :=
  fun before command answer after =>
    ∃ middle, Relation.ReflTransGen others before middle ∧ env middle command answer after

theorem Run.mono {env wider : Environment I σ} {program remaining : Program I α}
    {before after : σ} {events : List I.Event} (run : Run env program before events remaining after)
    (imp : ∀ {before command answer after}, env before command answer after →
      wider before command answer after) : Run wider program before events remaining after := by
  induction run with
  | refl program state => exact .refl program state
  | step answered rest ih => exact .step (imp answered) ih

/-! ## Exchanges in a state -/

/-- Every exchange is fit for the state in which it happens. -/
def Throughout (next : σ → I.Event → σ) (fit : σ → I.Event → Prop) : σ → List I.Event → Prop
  | _, [] => True
  | state, event :: events => fit state event ∧ Throughout next fit (next state event) events

theorem throughout_append_singleton {next : σ → I.Event → σ} {fit : σ → I.Event → Prop}
    {state : σ} {events : List I.Event} {event : I.Event} :
    Throughout next fit state (events ++ [event]) ↔
      Throughout next fit state events ∧ fit (events.foldl next state) event := by
  induction events generalizing state with
  | nil => simp [Throughout]
  | cons first events ih => simp [Throughout, ih, and_assoc]

theorem Throughout.at_split {next : σ → I.Event → σ} {fit : σ → I.Event → Prop} {state : σ}
    {earlier later : List I.Event} {event : I.Event}
    (throughout : Throughout next fit state (earlier ++ event :: later)) :
    fit (earlier.foldl next state) event := by
  induction earlier generalizing state with
  | nil => exact throughout.1
  | cons first earlier ih => exact ih throughout.2

end HumanMachine.Program
