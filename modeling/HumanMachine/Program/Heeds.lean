import HumanMachine.Program.Interpretation

/-!
# What is asked next

A rule for the command which a program asks next, or for there being none, by the status in
which the last exchange has left it. Programs which keep to it can be put together, as long as
the first one ends in a status in which nothing is owed.
-/

namespace HumanMachine

namespace Program

variable {I J : Interface} {α β σ : Type}

def next? : Program I α → Option I.Command
  | .call command _ => some command
  | .done _ => none
  | .unfinished => none

/-- The status after some exchanges. -/
def statusAfter (status : I.Event → σ) (start : σ) (events : List I.Event) : σ :=
  (events.getLast?.map status).getD start

/-- In every status which the program gets into, what it asks next is by the rule. -/
def Heeds (status : I.Event → σ) (rule : σ → Option I.Command → Prop) : σ → Program I α → Prop
  | current, .done _ => rule current none
  | current, .call command next => rule current (some command) ∧
      ∀ answer, Heeds status rule (status ⟨command, answer⟩) (next answer)
  | current, .unfinished => rule current none

variable {status : I.Event → σ} {rule : σ → Option I.Command → Prop} {current : σ}

theorem Heeds.now {program : Program I α} (heeds : Heeds status rule current program) :
    rule current program.next? := by
  cases program with
  | done value => exact heeds
  | call command next => exact heeds.1
  | unfinished => exact heeds

theorem statusAfter_cons (event : I.Event) (events : List I.Event) :
    statusAfter status current (event :: events) = statusAfter status (status event) events := by
  rw [statusAfter, statusAfter, List.getLast?_cons]
  cases events.getLast? <;> rfl

/-- The rule for runs. -/
theorem Heeds.of_follows {program remaining : Program I α} {events : List I.Event}
    (heeds : Heeds status rule current program) (follows : Follows program events remaining) :
    rule (statusAfter status current events) remaining.next? := by
  induction follows generalizing current with
  | refl program => exact heeds.now
  | @step command next answer events remaining rest ih =>
      rw [statusAfter_cons]
      exact ih (heeds.2 answer)

theorem Heeds.bind {program : Program I α} {continuation : α → Program I β}
    (heeds : Heeds status rule current program)
    (each : ∀ value {current}, rule current none →
      Heeds status rule current (continuation value)) :
    Heeds status rule current (program >>= continuation) := by
  induction program generalizing current with
  | done value => exact each value heeds
  | call command next ih => exact ⟨heeds.1, fun answer => ih answer (heeds.2 answer)⟩
  | unfinished => exact heeds

/-- What is in the place of a command starts where nothing is owed, and ends there. -/
theorem heeds_interpret {handler : Handler J I}
    (each : ∀ command {current}, rule current none → Heeds status rule current (handler command))
    (program : Program J α) (free : rule current none) :
    Heeds status rule current (interpret handler program) := by
  induction program generalizing current with
  | done value => exact free
  | call command next ih =>
      apply (each command free).bind
      intro answer current free
      exact ih answer free
  | unfinished => exact free

theorem Heeds.onRight {whole : (J.sum I).Event → σ} {wholeRule : σ → Option (J.sum I).Command → Prop}
    (same : ∀ event, whole (inr event) = status event)
    (imp : ∀ current command, rule current command → wholeRule current (command.map .inr))
    {program : Program I α} (heeds : Heeds status rule current program) :
    Heeds whole wholeRule current (interpret (onRight (I := J)) program) := by
  induction program generalizing current with
  | done value => exact imp _ _ heeds
  | call command next ih =>
      refine ⟨imp _ _ heeds.1, fun answer => ?_⟩
      have status : whole ⟨.inr command, answer⟩ = _ := same ⟨command, answer⟩
      rw [status]
      exact ih answer (heeds.2 answer)
  | unfinished => exact imp _ _ heeds

end Program

end HumanMachine
