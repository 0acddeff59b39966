import Mathlib.Logic.Relation
import Mathlib.Data.List.Basic

/-!
# Interactive programs

A program talks to its surroundings through commands and goes on with their
answers. This file gives the syntax of such programs over an arbitrary interface
and their runs, first on their own (`Follows`) and then inside an environment
which restricts the answers and keeps a state of its own (`Run`).

A loop without a bound is written with a number of rounds; `unfinished` stands
for a run which is still inside the loop when the rounds are used up. A run
reaching `done` therefore is a complete run, and every complete run is reached
for a large enough number of rounds.
-/

namespace HumanMachine

/-- The commands of an interface, with the type of the answers to each. -/
structure Interface where
  Command : Type
  Answer : Command → Type

/-- One exchange: a command together with the answer it got. -/
abbrev Interface.Event (I : Interface) : Type :=
  (command : I.Command) × I.Answer command

inductive Program (I : Interface) (α : Type) : Type where
  | done (value : α)
  | call (command : I.Command) (next : I.Answer command → Program I α)
  | unfinished

namespace Program

variable {I : Interface} {α β γ : Type}

def bind (program : Program I α) (continuation : α → Program I β) : Program I β :=
  match program with
  | .done value => continuation value
  | .call command next => .call command fun answer => (next answer).bind continuation
  | .unfinished => .unfinished

instance : Monad (Program I) where
  pure := .done
  bind := bind

def request (command : I.Command) : Program I (I.Answer command) :=
  .call command .done

@[simp]
theorem pure_eq_done (value : α) : (pure value : Program I α) = .done value := rfl

@[simp]
theorem done_bind (value : α) (continuation : α → Program I β) :
    ((.done value : Program I α) >>= continuation) = continuation value := rfl

@[simp]
theorem call_bind (command : I.Command) (next : I.Answer command → Program I α)
    (continuation : α → Program I β) :
    (.call command next >>= continuation) =
      .call command fun answer => next answer >>= continuation := rfl

@[simp]
theorem unfinished_bind (continuation : α → Program I β) :
    ((.unfinished : Program I α) >>= continuation) = .unfinished := rfl

@[simp]
theorem request_bind (command : I.Command) (continuation : I.Answer command → Program I β) :
    (request command >>= continuation) = .call command continuation := rfl

theorem bind_done (program : Program I α) : program >>= .done = program := by
  induction program with
  | done value => rfl
  | call command next ih =>
      rw [call_bind]
      congr 1
      funext answer
      exact ih answer
  | unfinished => rfl

theorem bind_assoc (program : Program I α) (first : α → Program I β)
    (second : β → Program I γ) :
    program >>= first >>= second = program >>= fun value => first value >>= second := by
  induction program with
  | done value => rfl
  | call command next ih =>
      simp only [call_bind]
      congr 1
      funext answer
      exact ih answer
  | unfinished => rfl

instance : LawfulMonad (Program I) :=
  LawfulMonad.mk' (Program I) bind_done (fun _ _ => rfl) bind_assoc

end Program

/-- How an environment answers: from a state, a command may get an answer and
leave the environment in another state. -/
abbrev Environment (I : Interface) (σ : Type) : Type :=
  σ → (command : I.Command) → I.Answer command → σ → Prop

namespace Program

variable {I : Interface} {α β ι σ : Type} {env : Environment I σ}

/-- The program may issue these commands, get these answers and be left with
the second program. -/
inductive Follows : Program I α → List I.Event → Program I α → Prop where
  | refl (program : Program I α) : Follows program [] program
  | step {command : I.Command} {next : I.Answer command → Program I α}
      {answer : I.Answer command} {events : List I.Event} {program : Program I α}
      (rest : Follows (next answer) events program) :
      Follows (.call command next) (⟨command, answer⟩ :: events) program

theorem Follows.of_done {value : α} {events : List I.Event} {remaining : Program I α}
    (follows : Follows (.done value) events remaining) : events = [] ∧ remaining = .done value := by
  cases follows
  exact ⟨rfl, rfl⟩

theorem Follows.of_call {command : I.Command} {next : I.Answer command → Program I α}
    {events : List I.Event} {remaining : Program I α}
    (follows : Follows (.call command next) events remaining) :
    (events = [] ∧ remaining = .call command next) ∨
      ∃ answer later, events = ⟨command, answer⟩ :: later ∧
        Follows (next answer) later remaining := by
  cases follows with
  | refl => exact Or.inl ⟨rfl, rfl⟩
  | step rest => exact Or.inr ⟨_, _, rfl, rest⟩

/-- A run inside an environment, from a state of the environment to another. -/
inductive Run (env : Environment I σ) :
    Program I α → σ → List I.Event → Program I α → σ → Prop where
  | refl (program : Program I α) (state : σ) : Run env program state [] program state
  | step {command : I.Command} {next : I.Answer command → Program I α}
      {answer : I.Answer command} {events : List I.Event} {program : Program I α}
      {before middle after : σ} (answered : env before command answer middle)
      (rest : Run env (next answer) middle events program after) :
      Run env (.call command next) before (⟨command, answer⟩ :: events) program after

theorem Run.follows {program remaining : Program I α} {before after : σ}
    {events : List I.Event} (run : Run env program before events remaining after) :
    Follows program events remaining := by
  induction run with
  | refl program state => exact .refl program
  | step answered rest ih => exact .step ih

theorem Run.of_done {value : α} {remaining : Program I α} {before after : σ}
    {events : List I.Event} (run : Run env (.done value) before events remaining after) :
    events = [] ∧ remaining = .done value ∧ after = before := by
  cases run
  exact ⟨rfl, rfl, rfl⟩

theorem Run.trans {program middle remaining : Program I α} {before between after : σ}
    {first second : List I.Event} (head : Run env program before first middle between)
    (tail : Run env middle between second remaining after) :
    Run env program before (first ++ second) remaining after := by
  induction head with
  | refl program state => exact tail
  | step answered rest ih => exact .step answered (ih tail)

/-- What a program has done so far does not depend on what comes after it. -/
theorem Run.bind {program : Program I α} {value : α} {before middle after : σ}
    {first second : List I.Event} {continuation : α → Program I β} {remaining : Program I β}
    (head : Run env program before first (.done value) middle)
    (tail : Run env (continuation value) middle second remaining after) :
    Run env (program >>= continuation) before (first ++ second) remaining after := by
  generalize target : (Program.done value : Program I α) = finished at head
  induction head with
  | refl program state =>
      subst target
      simpa using tail
  | step answered rest ih =>
      exact .step answered (ih tail target)

theorem Run.inside_bind {program inside : Program I α} {continuation : α → Program I β}
    {before after : σ} {events : List I.Event} (run : Run env program before events inside after) :
    Run env (program >>= continuation) before events (inside >>= continuation) after := by
  induction run with
  | refl program state => exact .refl _ _
  | step answered rest ih => exact .step answered ih

theorem Run.of_bind_done {program : Program I α} {continuation : α → Program I β} {value : β}
    {before after : σ} {events : List I.Event}
    (run : Run env (program >>= continuation) before events (.done value) after) :
    ∃ first second middleValue middle, events = first ++ second ∧
      Run env program before first (.done middleValue) middle ∧
      Run env (continuation middleValue) middle second (.done value) after := by
  induction program generalizing before events with
  | done middleValue =>
      exact ⟨[], events, middleValue, before, rfl, .refl _ _, run⟩
  | call command next ih =>
      rw [call_bind] at run
      cases run with
      | step answered rest =>
          obtain ⟨first, second, middleValue, middle, rfl, head, tail⟩ := ih _ rest
          exact ⟨_ :: first, second, middleValue, middle, rfl, .step answered head, tail⟩
  | unfinished => cases run

/-! ## Guarantees

`Guarantees env allowed post program state` is the weakest condition under which
every run of the program from the state issues allowed commands only and ends,
if it ends, in the postcondition. -/

/-- Every command issued is allowed and every result satisfies the postcondition. -/
def Guarantees (env : Environment I σ) (allowed : σ → I.Command → Prop)
    (post : α → σ → Prop) : Program I α → σ → Prop
  | .done value, state => post value state
  | .call command next, state =>
      allowed state command ∧ ∀ answer after, env state command answer after →
        Guarantees env allowed post (next answer) after
  | .unfinished, _ => True

variable {allowed : σ → I.Command → Prop} {post : α → σ → Prop}

theorem Guarantees.after_run {program remaining : Program I α} {before after : σ}
    {events : List I.Event} (guarantee : Guarantees env allowed post program before)
    (run : Run env program before events remaining after) :
    Guarantees env allowed post remaining after := by
  induction run with
  | refl program state => exact guarantee
  | step answered rest ih => exact ih (guarantee.2 _ _ answered)

theorem Guarantees.result {program : Program I α} {value : α} {before after : σ}
    {events : List I.Event} (guarantee : Guarantees env allowed post program before)
    (run : Run env program before events (.done value) after) : post value after :=
  guarantee.after_run run

theorem Guarantees.command_allowed {program : Program I α} {command : I.Command}
    {next : I.Answer command → Program I α} {before after : σ} {events : List I.Event}
    (guarantee : Guarantees env allowed post program before)
    (run : Run env program before events (.call command next) after) :
    allowed after command :=
  (guarantee.after_run run).1

/-- The rule of consequence. -/
theorem Guarantees.mono {weaker : α → σ → Prop} {program : Program I α} {state : σ}
    (guarantee : Guarantees env allowed post program state)
    (imp : ∀ value state, post value state → weaker value state) :
    Guarantees env allowed weaker program state := by
  induction program generalizing state with
  | done value => exact imp value state guarantee
  | call command next ih =>
      refine ⟨guarantee.1, ?_⟩
      intro answer after answered
      exact ih answer (guarantee.2 answer after answered)
  | unfinished => trivial

/-- The rule of sequential composition. -/
theorem Guarantees.bind {post : β → σ → Prop} {program : Program I α}
    {continuation : α → Program I β} {state : σ}
    (guarantee : Guarantees env allowed
      (fun value state => Guarantees env allowed post (continuation value) state) program state) :
    Guarantees env allowed post (program >>= continuation) state := by
  induction program generalizing state with
  | done value => exact guarantee
  | call command next ih =>
      rw [call_bind]
      refine ⟨guarantee.1, ?_⟩
      intro answer after answered
      exact ih answer (guarantee.2 answer after answered)
  | unfinished => trivial

/-! ## Answering from a script

With the answers given by a function, the run of a program can be computed. -/

/-- The exchanges of the run in which the `n`-th command is answered by the script. -/
def transcript (script : ℕ → (command : I.Command) → I.Answer command) :
    ℕ → Program I α → List I.Event
  | _, .done _ => []
  | n, .call command next =>
      ⟨command, script n command⟩ :: transcript script (n + 1) (next (script n command))
  | _, .unfinished => []

/-- The value which a program returns when it is answered by the script. -/
def outcome (script : ℕ → (command : I.Command) → I.Answer command) :
    ℕ → Program I α → Option α
  | _, .done value => some value
  | n, .call command next => outcome script (n + 1) (next (script n command))
  | _, .unfinished => none

theorem follows_transcript {script : ℕ → (command : I.Command) → I.Answer command} {n : ℕ}
    {program : Program I α} {value : α} (returns : outcome script n program = some value) :
    Follows program (transcript script n program) (.done value) := by
  induction program generalizing n with
  | done result =>
      simp only [outcome, Option.some.injEq] at returns
      subst returns
      exact .refl _
  | call command next ih => exact .step (ih _ returns)
  | unfinished => simp [outcome] at returns

end Program

end HumanMachine
