import HumanMachine.Program.Basic

/-!
# Sessions

An environment can be given by what it may answer and by the state an exchange
leaves it in (`stepwise`); its runs can then be replayed.

A session is a finite sequence of program runs, one after the other, in one
environment which keeps its state from each to the next. The programs are picked by
an input; a finished call remembers its input and the states around it.
-/

namespace HumanMachine.Program

variable {I : Interface} {α κ σ : Type}

/-- The environment which allows some exchanges in a state and goes to the next. -/
def stepwise (allows : σ → I.Event → Bool) (next : σ → I.Event → σ) : Environment I σ :=
  fun before command answer after =>
    allows before ⟨command, answer⟩ = true ∧ after = next before ⟨command, answer⟩

/-- The exchanges are allowed one after the other. -/
def admits (allows : σ → I.Event → Bool) (next : σ → I.Event → σ) : σ → List I.Event → Bool
  | _, [] => true
  | state, event :: events => allows state event && admits allows next (next state event) events

theorem Follows.run_stepwise {allows : σ → I.Event → Bool} {next : σ → I.Event → σ}
    {program remaining : Program I α} {events : List I.Event}
    (follows : Follows program events remaining) {state : σ}
    (admitted : admits allows next state events = true) :
    Run (stepwise allows next) program state events remaining (events.foldl next state) := by
  induction follows generalizing state with
  | refl program => exact .refl program state
  | step rest ih =>
      rw [admits, Bool.and_eq_true] at admitted
      exact .step ⟨admitted.1, rfl⟩ (ih admitted.2)

theorem Run.before_event {allows : σ → I.Event → Bool} {next : σ → I.Event → σ}
    {program remaining : Program I α} {first second : List I.Event} {command : I.Command}
    {answer : I.Answer command} {before after : σ}
    (run : Run (stepwise allows next) program before (first ++ ⟨command, answer⟩ :: second)
      remaining after) :
    ∃ continuation, Run (stepwise allows next) program before first
      (.call command continuation) (first.foldl next before) := by
  induction first generalizing program before with
  | nil =>
      cases run with
      | step answered rest => exact ⟨_, .refl _ _⟩
  | cons event first ih =>
      cases run with
      | step answered rest =>
          rcases answered with ⟨allowed, rfl⟩
          rcases ih rest with ⟨continuation, earlier⟩
          exact ⟨continuation, .step ⟨allowed, rfl⟩ earlier⟩

/-- The environment in which anything may be answered at any time. -/
abbrev free : Environment I Unit :=
  stepwise (fun _ _ => true) fun state _ => state

theorem admits_free (events : List I.Event) :
    admits (fun _ _ => true) (fun state _ => state) () events = true := by
  induction events with
  | nil => rfl
  | cons event events ih => exact ih

theorem Guarantees.command_of_follows {allowed : I.Command → Prop} {post : α → Unit → Prop}
    {program remaining : Program I α} {first second : List I.Event} {command : I.Command}
    {answer : I.Answer command} (guarantee : Guarantees free (fun _ => allowed) post program ())
    (follows : Follows program (first ++ ⟨command, answer⟩ :: second) remaining) :
    allowed command := by
  rcases (follows.run_stepwise (admits_free _)).before_event with ⟨continuation, run⟩
  exact guarantee.command_allowed run

structure Call (I : Interface) (α κ σ : Type) where
  input : κ
  before : σ
  events : List I.Event
  value : α
  after : σ

/-- The calls were run one after the other, each to its end. -/
inductive Session (program : κ → Program I α) (env : Environment I σ) (start : σ) :
    List (Call I α κ σ) → σ → Prop where
  | start : Session program env start [] start
  | call {calls : List (Call I α κ σ)} {call : Call I α κ σ}
      (earlier : Session program env start calls call.before)
      (run : Run env (program call.input) call.before call.events (.done call.value) call.after) :
      Session program env start (calls ++ [call]) call.after

variable {program : κ → Program I α} {env : Environment I σ} {start last : σ}
  {calls : List (Call I α κ σ)}

/-- A session goes on with a call which is answered by a script. -/
theorem Session.replay {allows : σ → I.Event → Bool} {next : σ → I.Event → σ}
    (session : Session program (stepwise allows next) start calls last)
    (script : ℕ → (command : I.Command) → I.Answer command) (input : κ) (value : α)
    (returns : outcome script 0 (program input) = some value)
    (admitted : admits allows next last (transcript script 0 (program input)) = true) :
    Session program (stepwise allows next) start
      (calls ++ [⟨input, last, transcript script 0 (program input), value,
        (transcript script 0 (program input)).foldl next last⟩])
      ((transcript script 0 (program input)).foldl next last) :=
  .call session ((follows_transcript returns).run_stepwise admitted)

theorem Session.run_of_mem (session : Session program env start calls last)
    {call : Call I α κ σ} (mem : call ∈ calls) :
    Run env (program call.input) call.before call.events (.done call.value) call.after := by
  induction session with
  | start => cases mem
  | @call calls latest earlier run ih =>
      rcases List.mem_append.mp mem with mem | mem
      · exact ih mem
      · rw [List.mem_singleton] at mem
        subst mem
        exact run

/-- The rule for sessions: calls which keep an invariant, as far as they meet a
condition, keep it throughout a session of such calls. -/
theorem Session.invariant (session : Session program env start calls last) (inv : σ → Prop)
    (condition : Call I α κ σ → Prop) (initially : inv start)
    (step : ∀ call : Call I α κ σ, condition call → inv call.before →
      Run env (program call.input) call.before call.events (.done call.value) call.after →
      inv call.after)
    (meets : ∀ call ∈ calls, condition call) :
    inv last ∧ ∀ call ∈ calls, inv call.before := by
  induction session with
  | start => exact ⟨initially, by simp⟩
  | @call calls latest earlier run ih =>
      have earlierMeets : ∀ call ∈ calls, condition call := fun call mem =>
        meets call (List.mem_append_left _ mem)
      rcases ih earlierMeets with ⟨held, each⟩
      refine ⟨step latest (meets latest List.mem_concat_self) held run, ?_⟩
      intro call mem
      rcases List.mem_append.mp mem with mem | mem
      · exact each call mem
      · rw [List.mem_singleton] at mem
        subst mem
        exact held

end HumanMachine.Program
