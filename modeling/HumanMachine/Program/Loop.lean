import HumanMachine.Program.Basic

/-!
# Endless loops

A program which repeats one body for ever and hands a state from each round to
the next. Only an exception of the body leaves the loop. The completed rounds of
a run are kept apart, so that "at the end of every round" can be said of a run.
-/

namespace HumanMachine.Program

variable {I : Interface} {α β ε σ : Type}

theorem Follows.trans {program middle remaining : Program I α} {first second : List I.Event}
    (head : Follows program first middle) (tail : Follows middle second remaining) :
    Follows program (first ++ second) remaining := by
  induction head with
  | refl program => exact tail
  | step rest ih => exact .step (ih tail)

theorem Follows.of_call_done {command : I.Command} {next : I.Answer command → Program I α}
    {value : α} {events : List I.Event}
    (follows : Follows (.call command next) events (.done value)) :
    ∃ answer later, events = ⟨command, answer⟩ :: later ∧
      Follows (next answer) later (.done value) := by
  rcases follows.of_call with ⟨_, impossible⟩ | called
  · cases impossible
  · exact called

/-- What a composition has done so far was done by its first part, or completed it. -/
theorem Follows.of_bind {program : Program I α} {continuation : α → Program I β}
    {events : List I.Event} {remaining : Program I β}
    (follows : Follows (program >>= continuation) events remaining) :
    (∃ inside, Follows program events inside ∧ remaining = inside >>= continuation) ∨
      ∃ first second value, events = first ++ second ∧ Follows program first (.done value) ∧
        Follows (continuation value) second remaining := by
  induction program generalizing events with
  | done value => exact Or.inr ⟨[], events, value, rfl, .refl _, follows⟩
  | call command next ih =>
      rw [call_bind] at follows
      cases follows with
      | refl => exact Or.inl ⟨.call command next, .refl _, rfl⟩
      | step rest =>
          rcases ih _ rest with ⟨inside, head, rfl⟩ | ⟨first, second, value, rfl, head, tail⟩
          · exact Or.inl ⟨inside, .step head, rfl⟩
          · exact Or.inr ⟨_ :: first, second, value, rfl, .step head, tail⟩
  | unfinished =>
      cases follows
      exact Or.inl ⟨.unfinished, .refl _, rfl⟩

theorem Follows.of_bind_done {program : Program I α} {continuation : α → Program I β} {value : β}
    {events : List I.Event}
    (follows : Follows (program >>= continuation) events (.done value)) :
    ∃ first second middle, events = first ++ second ∧ Follows program first (.done middle) ∧
      Follows (continuation middle) second (.done value) := by
  rcases follows.of_bind with ⟨inside, head, finished⟩ | completed
  · cases inside with
    | done middle =>
        refine ⟨events, [], middle, (List.append_nil events).symm, head, ?_⟩
        rw [done_bind] at finished
        rw [← finished]
        exact .refl _
    | call command next => cases finished
    | unfinished => cases finished
  · exact completed

theorem Follows.of_bind_ok {program : ExceptT ε (Program I) α}
    {continuation : α → ExceptT ε (Program I) β} {value : β} {events : List I.Event}
    (follows : Follows (program >>= continuation).run events (.done (.ok value))) :
    ∃ first second middle, events = first ++ second ∧
      Follows program.run first (.done (.ok middle)) ∧
      Follows (continuation middle).run second (.done (.ok value)) := by
  rw [ExceptT.run_bind] at follows
  rcases follows.of_bind_done with ⟨first, second, result, split, head, tail⟩
  cases result with
  | error exception => cases tail
  | ok middle => exact ⟨first, second, middle, split, head, tail⟩

theorem Follows.bind {program : Program I α} {value : α} {continuation : α → Program I β}
    {first second : List I.Event} {remaining : Program I β}
    (head : Follows program first (.done value))
    (tail : Follows (continuation value) second remaining) :
    Follows (program >>= continuation) (first ++ second) remaining := by
  generalize target : (Program.done value : Program I α) = finished at head
  induction head with
  | refl program =>
      subst target
      exact tail
  | step rest ih => exact .step (ih target)

theorem Follows.inside_bind {program inside : Program I α} {continuation : α → Program I β}
    {events : List I.Event} (follows : Follows program events inside) :
    Follows (program >>= continuation) events (inside >>= continuation) := by
  induction follows with
  | refl program => exact .refl _
  | step rest ih => exact .step ih

theorem Follows.bind_ok {program : ExceptT ε (Program I) α} {value : α}
    {continuation : α → ExceptT ε (Program I) β} {first second : List I.Event}
    {remaining : Program I (Except ε β)}
    (head : Follows program.run first (.done (.ok value)))
    (tail : Follows (continuation value).run second remaining) :
    Follows (program >>= continuation).run (first ++ second) remaining := by
  rw [ExceptT.run_bind]
  exact Follows.bind head tail

/-- `rounds` rounds of an endless loop. -/
def forever (body : σ → ExceptT ε (Program I) σ) : ℕ → σ → ExceptT ε (Program I) Empty
  | 0, _ => ExceptT.mk .unfinished
  | rounds + 1, state => body state >>= forever body rounds

/-- The loop completes these rounds, each with its exchanges, and is left with
the second state. -/
inductive Rounds (body : σ → ExceptT ε (Program I) σ) (before : σ) :
    List (List I.Event) → σ → Prop where
  | start : Rounds body before [] before
  | round {middle after : σ} {rounds : List (List I.Event)} {events : List I.Event}
      (earlier : Rounds body before rounds middle)
      (completes : Follows (body middle).run events (.done (.ok after))) :
      Rounds body before (rounds ++ [events]) after

variable {body : σ → ExceptT ε (Program I) σ}

theorem Rounds.cons {before middle after : σ} {events : List I.Event}
    {rounds : List (List I.Event)}
    (completes : Follows (body before).run events (.done (.ok middle)))
    (later : Rounds body middle rounds after) :
    Rounds body before (events :: rounds) after := by
  induction later with
  | start => exact .round .start completes
  | round earlier last ih => exact .round ih last

theorem Rounds.eq_start {before after : σ} (run : Rounds body before [] after) : after = before := by
  generalize target : ([] : List (List I.Event)) = rounds at run
  cases run with
  | start => rfl
  | round earlier completes => simp at target

theorem Rounds.last {before after : σ} {rounds : List (List I.Event)} {events : List I.Event}
    (run : Rounds body before (rounds ++ [events]) after) :
    ∃ middle, Rounds body before rounds middle ∧
      Follows (body middle).run events (.done (.ok after)) := by
  generalize target : rounds ++ [events] = all at run
  cases run with
  | start => simp at target
  | round earlier completes =>
      rcases List.append_inj' target rfl with ⟨rfl, same⟩
      cases same
      exact ⟨_, earlier, completes⟩

/-- Every run of the loop is a number of completed rounds and a part of one more. -/
theorem follows_forever {bound : ℕ} {before : σ} {events : List I.Event}
    {remaining : Program I (Except ε Empty)}
    (follows : Follows (forever body bound before).run events remaining) :
    ∃ rounds after current inside, events = rounds.flatten ++ current ∧
      Rounds body before rounds after ∧ Follows (body after).run current inside := by
  induction bound generalizing before events with
  | zero =>
      cases follows
      exact ⟨[], before, [], (body before).run, rfl, .start, .refl _⟩
  | succ bound ih =>
      rcases Follows.of_bind follows with ⟨inside, head, _⟩ | ⟨first, second, result, rfl, head, tail⟩
      · exact ⟨[], before, events, inside, rfl, .start, head⟩
      · cases result with
        | error exception =>
            cases tail
            exact ⟨[], before, first, .done (.error exception), by simp, .start, head⟩
        | ok middle =>
            rcases ih tail with ⟨rounds, after, current, inside, rfl, later, partially⟩
            refine ⟨first :: rounds, after, current, inside, by simp, ?_, partially⟩
            exact .cons head later

theorem Rounds.follows {before after : σ} {rounds : List (List I.Event)}
    (run : Rounds body before rounds after) (bound : ℕ) :
    Follows (forever body (rounds.length + bound) before).run rounds.flatten
      (forever body bound after).run := by
  induction run generalizing bound with
  | start =>
      rw [List.length_nil, Nat.zero_add]
      exact .refl _
  | @round middle after rounds events earlier completes ih =>
      have last : Follows (forever body (bound + 1) middle).run (events ++ [])
          (forever body bound after).run :=
        Follows.bind_ok completes (.refl _)
      have whole := (ih (bound + 1)).trans last
      simpa [Nat.add_right_comm, Nat.add_assoc] using whole

def Raised (program : Program I (Except ε α)) : Prop :=
  ∃ exception, program = .done (.error exception)

/-- When the exchanges of a body tell whether it raises an exception, those of the
loop tell whether the loop is left. -/
theorem forever_raised_iff {fatal : I.Event → Prop}
    (round : ∀ state events inside, Follows (body state).run events inside →
      (Raised inside ↔ ∃ event ∈ events, fatal event))
    {bound : ℕ} {before : σ} {events : List I.Event} {remaining : Program I (Except ε Empty)}
    (follows : Follows (forever body bound before).run events remaining) :
    Raised remaining ↔ ∃ event ∈ events, fatal event := by
  induction bound generalizing before events with
  | zero =>
      cases follows
      simp [Raised, forever, ExceptT.run, ExceptT.mk]
  | succ bound ih =>
      rcases Follows.of_bind follows with ⟨inside, head, rfl⟩ |
        ⟨first, second, result, rfl, head, tail⟩
      · rw [← round before events inside head]
        cases inside with
        | done result =>
            cases result with
            | error exception => exact iff_of_true ⟨exception, rfl⟩ ⟨exception, rfl⟩
            | ok middle =>
                have quiet : Raised (forever body bound middle).run ↔ ∃ event ∈ [], fatal event :=
                  ih (.refl _)
                refine iff_of_false ?_ ?_
                · intro raised
                  simpa using quiet.mp raised
                · simp [Raised]
        | call command next => simp [Raised]
        | unfinished => simp [Raised]
      · have raised := round before first _ head
        cases result with
        | error exception =>
            cases tail
            rw [List.append_nil, ← raised]
            exact iff_of_true ⟨exception, rfl⟩ ⟨exception, rfl⟩
        | ok middle =>
            have silent : ¬∃ event ∈ first, fatal event := by
              rw [← raised]
              simp [Raised]
            simp only [List.mem_append, or_and_right, exists_or, silent, false_or]
            exact ih tail

end HumanMachine.Program
