import HumanMachine.Program.Loop

/-!
# Programs which come to an end

A program terminates if it comes to an end whatever it is answered; a loop with a number of
rounds does not count. A run of such a program can be completed wherever it is stopped
(`Terminates.exists_completion`), so that what is known of complete runs bounds what has
happened in the others.
-/

namespace HumanMachine.Program

variable {I : Interface} {α β ε : Type}

def Terminates : Program I α → Prop
  | .done _ => True
  | .call _ next => ∀ answer, Terminates (next answer)
  | .unfinished => False

theorem Terminates.remaining {program remaining : Program I α} {events : List I.Event}
    (terminates : Terminates program) (follows : Follows program events remaining) :
    Terminates remaining := by
  induction follows with
  | refl program => exact terminates
  | step rest ih => exact ih (terminates _)

theorem Terminates.exists_result [answers : ∀ command, Nonempty (I.Answer command)]
    {program : Program I α} (terminates : Terminates program) :
    ∃ events value, Follows program events (.done value) := by
  induction program with
  | done value => exact ⟨[], value, .refl _⟩
  | call command next ih =>
      rcases answers command with ⟨answer⟩
      rcases ih answer (terminates answer) with ⟨events, value, follows⟩
      exact ⟨_, value, .step follows⟩
  | unfinished => exact terminates.elim

theorem Terminates.exists_completion [∀ command, Nonempty (I.Answer command)]
    {program remaining : Program I α} {events : List I.Event} (terminates : Terminates program)
    (follows : Follows program events remaining) :
    ∃ later value, Follows program (events ++ later) (.done value) := by
  rcases (terminates.remaining follows).exists_result with ⟨later, value, completes⟩
  exact ⟨later, value, follows.trans completes⟩

/-! ## Compositions -/

theorem Terminates.bind {program : Program I α} {continuation : α → Program I β}
    (first : Terminates program) (second : ∀ value, Terminates (continuation value)) :
    Terminates (program >>= continuation) := by
  induction program with
  | done value => exact second value
  | call command next ih => exact fun answer => ih answer (first answer)
  | unfinished => exact first.elim

theorem terminates_throw (exception : ε) :
    Terminates (throw exception : ExceptT ε (Program I) α).run :=
  trivial

theorem terminates_lift (command : I.Command) :
    Terminates (ExceptT.lift (request command) : ExceptT ε (Program I) (I.Answer command)).run :=
  fun _ => trivial

theorem Terminates.bind_ok {program : ExceptT ε (Program I) α}
    {continuation : α → ExceptT ε (Program I) β} (first : Terminates program.run)
    (second : ∀ value, Terminates (continuation value).run) :
    Terminates (program >>= continuation).run := by
  rw [ExceptT.run_bind]
  apply first.bind
  intro result
  cases result with
  | error exception => trivial
  | ok value => exact second value

theorem Terminates.tryCatch {program : ExceptT ε (Program I) α}
    {handler : ε → ExceptT ε (Program I) α} (body : Terminates program.run)
    (caught : ∀ exception, Terminates (handler exception).run) :
    Terminates (tryCatch program handler).run := by
  apply Terminates.bind body
  intro result
  cases result with
  | error exception => exact caught exception
  | ok value => trivial

theorem terminates_read {read : Except ε α} {continuation : α → ExceptT ε (Program I) β}
    (rest : ∀ value, Terminates (continuation value).run) :
    Terminates (liftM read >>= continuation).run := by
  cases read with
  | error exception => trivial
  | ok value => exact rest value

theorem terminates_forM {ι : Type} {body : ι → ExceptT ε (Program I) Unit}
    (rounds : ∀ i, Terminates (body i).run) (indices : List ι) :
    Terminates (indices.forM body).run := by
  induction indices with
  | nil => trivial
  | cons head tail ih => exact (rounds head).bind_ok fun _ => ih

end HumanMachine.Program
