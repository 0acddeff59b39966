import HumanMachine.Program.Loop
import HumanMachine.Program.Machine

/-!
# Programs in the place of commands

A command of one program may be the work of another one: `interpret` puts a program over a
second interface in the place of every command. A run of the composition is a run of the
first program whose exchanges are carried out by complete runs of the programs in their
places, and a part of one more (`Follows.of_interpret`). Conversely such runs compose
(`Follows.carried`), so that what holds of all runs of the first program holds of the
composition, and what is possible there is possible here.
-/

namespace HumanMachine

/-- The commands of either interface. -/
def Interface.sum (I J : Interface) : Interface where
  Command := I.Command ⊕ J.Command
  Answer
    | .inl command => I.Answer command
    | .inr command => J.Answer command

namespace Program

variable {I J : Interface} {α β ε : Type}

/-- What is run in the place of each command. -/
abbrev Handler (I J : Interface) : Type :=
  (command : I.Command) → Program J (I.Answer command)

def interpret (handler : Handler I J) : Program I α → Program J α
  | .done value => .done value
  | .call command next => handler command >>= fun answer => interpret handler (next answer)
  | .unfinished => .unfinished

variable {handler : Handler I J}

theorem Follows.eq_of_nil {program remaining : Program I α} (follows : Follows program [] remaining) :
    remaining = program := by
  generalize none : ([] : List I.Event) = events at follows
  cases follows with
  | refl => rfl
  | step rest => cases none

variable (handler) in
/-- The exchanges of the first program, each carried out by a complete run of what is in
the place of its command. -/
inductive Carried : List I.Event → List J.Event → Prop where
  | nil : Carried [] []
  | cons {command : I.Command} {answer : I.Answer command} {first rest : List J.Event}
      {events : List I.Event} (completes : Follows (handler command) first (.done answer))
      (later : Carried events rest) :
      Carried (⟨command, answer⟩ :: events) (first ++ rest)

variable (handler) in
/-- Between two commands, or inside of what is in the place of one. -/
inductive Underway : Program I α → List J.Event → Program J α → Prop where
  | between (program : Program I α) : Underway program [] (interpret handler program)
  | within {command : I.Command} {next : I.Answer command → Program I α} {inside : List J.Event}
      {left : Program J (I.Answer command)} (begun : inside ≠ [])
      (follows : Follows (handler command) inside left) (isOpen : ∀ answer, left ≠ .done answer) :
      Underway (.call command next) inside (left >>= fun answer => interpret handler (next answer))

theorem Follows.of_interpret {program : Program I α} {events : List J.Event}
    {remaining : Program J α} (follows : Follows (interpret handler program) events remaining) :
    ∃ exchanges middle carried inside, events = carried ++ inside ∧
      Follows program exchanges middle ∧ Carried handler exchanges carried ∧
      Underway handler middle inside remaining := by
  induction program generalizing events with
  | done value =>
      rcases follows.of_done with ⟨rfl, rfl⟩
      exact ⟨[], _, [], [], rfl, .refl _, .nil, .between (.done value)⟩
  | call command next ih =>
      -- The exchange is over in the second case, and in the first one if nothing is left of it.
      have ended : ∀ {answer first second}, events = first ++ second →
          Follows (handler command) first (.done answer) →
          Follows (interpret handler (next answer)) second remaining →
          ∃ exchanges middle carried inside, events = carried ++ inside ∧
            Follows (.call command next) exchanges middle ∧ Carried handler exchanges carried ∧
            Underway handler middle inside remaining := by
        rintro answer first second rfl completes rest
        rcases ih answer rest with
          ⟨exchanges, middle, carried, inside, rfl, runs, carries, underway⟩
        exact ⟨_, middle, first ++ carried, inside, (List.append_assoc _ _ _).symm, .step runs,
          .cons completes carries, underway⟩
      rcases Follows.of_bind follows with ⟨left, head, rfl⟩ |
        ⟨first, second, answer, split, completes, rest⟩
      · by_cases done : ∃ answer, left = .done answer
        · rcases done with ⟨answer, rfl⟩
          exact ended (List.append_nil events).symm head (.refl _)
        · rcases events with _ | ⟨event, events⟩
          · rw [head.eq_of_nil]
            exact ⟨[], .call command next, [], [], rfl, .refl _, .nil, .between _⟩
          · exact ⟨[], .call command next, [], _, rfl, .refl _, .nil,
              .within (List.cons_ne_nil _ _) head (not_exists.mp done)⟩
      · exact ended split completes rest
  | unfinished =>
      cases follows
      exact ⟨[], .unfinished, [], [], rfl, .refl _, .nil, .between .unfinished⟩

theorem Follows.carried {program middle : Program I α} {exchanges : List I.Event}
    {carried : List J.Event} (follows : Follows program exchanges middle)
    (carries : Carried handler exchanges carried) :
    Follows (interpret handler program) carried (interpret handler middle) := by
  induction follows generalizing carried with
  | refl program =>
      cases carries
      exact .refl _
  | step rest ih =>
      cases carries with
      | cons completes later => exact completes.bind (ih later)

/-! ## What is carried out -/

theorem Carried.of_append {first second : List I.Event} {carried : List J.Event}
    (carries : Carried handler (first ++ second) carried) :
    ∃ head tail, carried = head ++ tail ∧ Carried handler first head ∧
      Carried handler second tail := by
  induction first generalizing carried with
  | nil => exact ⟨[], carried, rfl, .nil, carries⟩
  | cons event first ih =>
      cases carries with
      | cons completes later =>
          rcases ih later with ⟨head, tail, rfl, firstCarried, secondCarried⟩
          exact ⟨_ ++ head, tail, (List.append_assoc _ _ _).symm, .cons completes firstCarried,
            secondCarried⟩

/-- An event of the composition belongs to one of the exchanges. -/
theorem Carried.of_mem_split {exchanges : List I.Event} {carried before after : List J.Event}
    {event : J.Event} (carries : Carried handler exchanges carried)
    (split : carried = before ++ event :: after) :
    ∃ earlier command answer later head front back tail,
      exchanges = earlier ++ ⟨command, answer⟩ :: later ∧ before = head ++ front ∧
      after = back ++ tail ∧ Carried handler earlier head ∧
      Follows (handler command) (front ++ event :: back) (.done answer) ∧
      Carried handler later tail := by
  induction carries generalizing before with
  | nil => simp at split
  | @cons command answer first rest events completes later ih =>
      rcases List.append_eq_append_iff.mp split with ⟨middle, rfl, inRest⟩ | ⟨middle, inFirst, back⟩
      · rcases ih inRest with ⟨earlier, command', answer', later', head, front, back, tail, rfl,
          rfl, rfl, earlierCarried, runs, laterCarried⟩
        exact ⟨_ :: earlier, command', answer', later', first ++ head, front, back, tail, rfl,
          (List.append_assoc _ _ _).symm, rfl, .cons completes earlierCarried, runs, laterCarried⟩
      · cases middle with
        | nil =>
            have atStart : rest = [] ++ event :: after := back.symm
            rcases ih atStart with ⟨earlier, command', answer', later', head,
              front, back', tail, rfl, nothing, rfl, earlierCarried, runs, laterCarried⟩
            rw [List.append_nil] at inFirst
            subst inFirst
            exact ⟨_ :: earlier, command', answer', later', first ++ head, front, back', tail, rfl,
              by rw [List.append_assoc, ← nothing, List.append_nil], rfl,
              .cons completes earlierCarried, runs, laterCarried⟩
        | cons other middle =>
            rw [List.cons_append, List.cons.injEq] at back
            rcases back with ⟨rfl, rfl⟩
            subst inFirst
            exact ⟨[], command, answer, events, [], before, middle, rest, rfl, rfl, rfl, .nil,
              completes, later⟩

/-! ## Embeddings -/

/-- The second interface as a part of a sum. -/
def onRight : Handler J (I.sum J) :=
  fun command => @request (I.sum J) (.inr command)

def inr (event : J.Event) : (I.sum J).Event :=
  ⟨.inr event.1, event.2⟩

theorem Follows.of_onRight {program : Program J α} {events : List (I.sum J).Event}
    {remaining : Program (I.sum J) α}
    (follows : Follows (interpret (onRight (I := I)) program) events remaining) :
    ∃ exchanges middle, events = exchanges.map inr ∧ Follows program exchanges middle ∧
      remaining = interpret onRight middle := by
  induction program generalizing events with
  | done value =>
      rcases follows.of_done with ⟨rfl, rfl⟩
      exact ⟨[], _, rfl, .refl _, rfl⟩
  | call command next ih =>
      rcases Follows.of_call follows with ⟨rfl, rfl⟩ | ⟨answer, later, rfl, rest⟩
      · exact ⟨[], _, rfl, .refl _, rfl⟩
      · rcases ih answer rest with ⟨exchanges, middle, rfl, runs, rfl⟩
        exact ⟨⟨command, answer⟩ :: exchanges, middle, rfl, .step runs, rfl⟩
  | unfinished =>
      cases follows
      exact ⟨[], _, rfl, .refl _, rfl⟩

theorem Follows.embedded {program middle : Program J α} {exchanges : List J.Event}
    (follows : Follows program exchanges middle) :
    Follows (interpret (onRight (I := I)) program) (exchanges.map inr)
      (interpret onRight middle) := by
  induction follows with
  | refl program => exact .refl _
  | step rest ih => exact .step ih

/-! ## Machines -/

/-- A composition runs on a machine if what is in the place of each command takes the machine
from the phases which belong to one phase of the first program to those of the next. -/
theorem RunsOn.interpret {φ ψ : Type} {machine : Machine I φ} {finer : Machine J ψ}
    {post : α → φ → Prop} (belongs : φ → ψ → Prop)
    (each : ∀ {phase place} command, belongs phase place →
      (∀ answer, ∃ after, machine phase ⟨command, answer⟩ after) →
      RunsOn finer (fun answer place => ∀ after, machine phase ⟨command, answer⟩ after →
        belongs after place) (handler command) place)
    {program : Program I α} {phase : φ} {place : ψ} (runs : RunsOn machine post program phase)
    (start : belongs phase place) :
    RunsOn finer (fun value place => ∃ phase, belongs phase place ∧ post value phase)
      (Program.interpret handler program) place := by
  induction program generalizing phase place with
  | done value => exact ⟨phase, start, runs⟩
  | call command next ih =>
      have possible : ∀ answer, ∃ after, machine phase ⟨command, answer⟩ after := by
        intro answer
        rcases runs answer with ⟨after, step, _⟩
        exact ⟨after, step⟩
      apply RunsOn.bind
      apply (each command start possible).mono
      intro answer place arrives
      rcases runs answer with ⟨after, step, rest⟩
      exact ih answer rest (arrives after step)
  | unfinished => trivial

theorem RunsOn.onRight {φ ψ : Type} {machine : Machine J φ} {finer : Machine (I.sum J) ψ}
    {post : α → φ → Prop} (place : φ → ψ)
    (step : ∀ {phase event after}, machine phase event after →
      finer (place phase) (inr event) (place after))
    {program : Program J α} {phase : φ} (runs : RunsOn machine post program phase) :
    RunsOn finer (fun value after => ∃ phase, after = place phase ∧ post value phase)
      (Program.interpret (onRight (I := I)) program) (place phase) := by
  induction program generalizing phase with
  | done value => exact ⟨phase, rfl, runs⟩
  | call command next ih =>
      intro answer
      rcases runs answer with ⟨after, taken, rest⟩
      exact ⟨place after, step taken, ih answer rest⟩
  | unfinished => trivial

end Program

end HumanMachine
