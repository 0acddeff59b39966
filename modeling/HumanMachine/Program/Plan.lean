import HumanMachine.Program.Basic
import Mathlib.Data.List.Infix

/-!
# Programs which carry out a plan

A program with exceptions works through a list of changes it has to make. Each
change is either known or, when computing it throws, an exception; a command may
also be refused from outside. This file gives the rules by which a program is
shown to carry out a plan, that is, to make exactly the changes up to the point
where it stops.

Which exchanges make a change and which are refusals is left open, by two
functions on the exchanges of the interface.
-/

namespace HumanMachine

namespace Program

variable {I : Interface} {ε α β σ : Type} {env : Environment I σ}

/-- Runs of a program with exceptions end in one postcondition or the other. -/
def Ensures (env : Environment I σ) (program : ExceptT ε (Program I) α)
    (ok : α → σ → Prop) (thrown : ε → σ → Prop) (state : σ) : Prop :=
  Guarantees env (fun _ _ => True)
    (fun result after =>
      match result with
      | .ok value => ok value after
      | .error exception => thrown exception after)
    program.run state

variable {ok : α → σ → Prop} {thrown : ε → σ → Prop} {state : σ}

theorem ensures_pure {value : α} (holds : ok value state) :
    Ensures env (pure value : ExceptT ε (Program I) α) ok thrown state :=
  holds

theorem ensures_throw {exception : ε} (holds : thrown exception state) :
    Ensures env (throw exception : ExceptT ε (Program I) α) ok thrown state :=
  holds

theorem ensures_bind {ok : β → σ → Prop} {program : ExceptT ε (Program I) α}
    {continuation : α → ExceptT ε (Program I) β}
    (holds : Ensures env program
      (fun value after => Ensures env (continuation value) ok thrown after) thrown state) :
    Ensures env (program >>= continuation) ok thrown state := by
  apply Guarantees.bind
  apply Guarantees.mono holds
  intro result after resultHolds
  cases result with
  | ok value => exact resultHolds
  | error exception => exact resultHolds

theorem ensures_tryCatch {program : ExceptT ε (Program I) α}
    {handler : ε → ExceptT ε (Program I) α}
    (holds : Ensures env program ok
      (fun exception after => Ensures env (handler exception) ok thrown after) state) :
    Ensures env (tryCatch program handler) ok thrown state := by
  apply Guarantees.bind
  apply Guarantees.mono holds
  intro result after resultHolds
  cases result with
  | ok value => exact resultHolds
  | error exception => exact resultHolds

theorem ensures_request_bind {command : I.Command}
    {continuation : I.Answer command → ExceptT ε (Program I) α}
    (holds : ∀ answer after, env state command answer after →
      Ensures env (continuation answer) ok thrown after) :
    Ensures env (ExceptT.lift (request command) >>= continuation) ok thrown state :=
  ⟨trivial, holds⟩

theorem Ensures.mono {ok' : α → σ → Prop} {thrown' : ε → σ → Prop}
    {program : ExceptT ε (Program I) α}
    (holds : Ensures env program ok thrown state)
    (okImp : ∀ value after, ok value after → ok' value after)
    (thrownImp : ∀ exception after, thrown exception after → thrown' exception after) :
    Ensures env program ok' thrown' state := by
  apply Guarantees.mono holds
  intro result after resultHolds
  cases result with
  | ok value => exact okImp value after resultHolds
  | error exception => exact thrownImp exception after resultHolds

end Program

/-! ## Plans -/

namespace Plan

variable {ε E : Type}

/-- The changes up to the first exception. -/
def readable : List (Except ε E) → List E
  | .ok change :: rest => change :: readable rest
  | .error _ :: _ => []
  | [] => []

def Complete (plan : List (Except ε E)) : Prop :=
  ∀ exception, .error exception ∉ plan

/-- The plan which follows a value that has to be read first. -/
def afterReading {α : Type} (read : Except ε α) (plan : α → List (Except ε E)) :
    List (Except ε E) :=
  match read with
  | .ok value => plan value
  | .error exception => [.error exception]

theorem afterReading_bind {α β : Type} (read : Except ε α) (next : α → Except ε β)
    (plan : β → List (Except ε E)) :
    afterReading (read >>= next) plan =
      afterReading read fun value => afterReading (next value) plan := by
  cases read <;> rfl

theorem complete_nil : Complete ([] : List (Except ε E)) := by
  simp [Complete]

theorem complete_append {first second : List (Except ε E)} :
    Complete (first ++ second) ↔ Complete first ∧ Complete second := by
  simp only [Complete, List.mem_append, not_or, forall_and]

theorem complete_singleton_ok (change : E) : Complete [(.ok change : Except ε E)] := by
  simp [Complete]

theorem complete_map_ok (changes : List E) :
    Complete (changes.map (.ok : E → Except ε E)) := by
  simp [Complete]

theorem readable_map_ok (changes : List E) :
    readable (changes.map (.ok : E → Except ε E)) = changes := by
  induction changes with
  | nil => rfl
  | cons change changes ih => rw [List.map_cons, readable, ih]

theorem readable_append_of_complete {first : List (Except ε E)} (complete : Complete first)
    (second : List (Except ε E)) : readable (first ++ second) = readable first ++ readable second := by
  induction first with
  | nil => rfl
  | cons head tail ih =>
      cases head with
      | ok change =>
          have tailComplete : Complete tail := fun exception mem =>
            complete exception (List.mem_cons_of_mem _ mem)
          simp [readable, ih tailComplete]
      | error exception => exact absurd List.mem_cons_self (complete exception)

theorem readable_append_of_not_complete {first : List (Except ε E)} (incomplete : ¬Complete first)
    (second : List (Except ε E)) : readable (first ++ second) = readable first := by
  induction first with
  | nil => exact absurd complete_nil incomplete
  | cons head tail ih =>
      cases head with
      | ok change =>
          have tailIncomplete : ¬Complete tail := by
            intro complete
            apply incomplete
            have whole : Complete ([.ok change] ++ tail) :=
              complete_append.mpr ⟨complete_singleton_ok change, complete⟩
            exact whole
          simp [readable, ih tailIncomplete]
      | error exception => rfl

theorem readable_prefix_append (first second : List (Except ε E)) :
    readable first <+: readable (first ++ second) := by
  by_cases complete : Complete first
  · rw [readable_append_of_complete complete]
    exact List.prefix_append _ _
  · rw [readable_append_of_not_complete complete]

theorem mem_of_mem_readable {plan : List (Except ε E)} {change : E}
    (mem : change ∈ readable plan) : .ok change ∈ plan := by
  induction plan with
  | nil => simp [readable] at mem
  | cons head tail ih =>
      cases head with
      | ok first =>
          simp only [readable, List.mem_cons] at mem
          rcases mem with rfl | mem
          · exact List.mem_cons_self
          · exact List.mem_cons_of_mem _ (ih mem)
      | error exception => simp [readable] at mem

end Plan

/-! ## Carrying out a plan -/

/-- What a run did so far: its changes, and whether a command was refused. -/
structure Log (E : Type) where
  effects : List E
  failed : Bool

namespace Program

variable {I : Interface} {ε α β E : Type}

/-- Any answer may come; the log follows the exchanges. -/
def logging (executed : I.Event → Option E) (refused : I.Event → Bool) : Environment I (Log E) :=
  fun log command answer after =>
    after = ⟨log.effects ++ (executed ⟨command, answer⟩).toList,
      log.failed || refused ⟨command, answer⟩⟩

variable {executed : I.Event → Option E} {refused : I.Event → Bool}

theorem Follows.run_logging {program remaining : Program I α} {events : List I.Event}
    (follows : Follows program events remaining) (log : Log E) :
    Run (logging executed refused) program log events remaining
      ⟨log.effects ++ events.filterMap executed, log.failed || events.any refused⟩ := by
  induction follows generalizing log with
  | refl program =>
      simpa using Run.refl program log
  | @step command next answer events program rest ih =>
      have tail := ih ⟨log.effects ++ (executed ⟨command, answer⟩).toList,
        log.failed || refused ⟨command, answer⟩⟩
      apply Run.step rfl
      cases change : executed ⟨command, answer⟩ <;>
        simpa [change, Bool.or_assoc] using tail

/-- The program makes the changes of the plan in order. It stops with the exception
of the first change which throws, or earlier when a command is refused. -/
def Performs (executed : I.Event → Option E) (refused : I.Event → Bool)
    (program : ExceptT ε (Program I) Unit) (plan : List (Except ε E)) : Prop :=
  ∀ log, Ensures (logging executed refused) program
    (fun _ after => Plan.Complete plan ∧
      after = ⟨log.effects ++ Plan.readable plan, log.failed⟩)
    (fun exception after => ∃ made, made <+: Plan.readable plan ∧
      after.effects = log.effects ++ made ∧
      (after.failed = true ∨ .error exception ∈ plan ∧ made = Plan.readable plan ∧
        after.failed = log.failed))
    log

theorem performs_pure : Performs executed refused (pure () : ExceptT ε (Program I) Unit) [] := by
  intro log
  apply ensures_pure
  simp [Plan.complete_nil, Plan.readable]

/-- Two programs one after the other carry out their plans one after the other. -/
theorem Performs.seq {first second : ExceptT ε (Program I) Unit}
    {firstPlan secondPlan : List (Except ε E)}
    (firstPerforms : Performs executed refused first firstPlan)
    (secondPerforms : Performs executed refused second secondPlan) :
    Performs executed refused (first >>= fun _ => second) (firstPlan ++ secondPlan) := by
  intro log
  apply ensures_bind
  apply (firstPerforms log).mono
  · rintro _ middle ⟨firstComplete, rfl⟩
    apply (secondPerforms _).mono
    · rintro _ after ⟨secondComplete, rfl⟩
      refine ⟨Plan.complete_append.mpr ⟨firstComplete, secondComplete⟩, ?_⟩
      rw [Plan.readable_append_of_complete firstComplete, List.append_assoc]
    · rintro exception after ⟨made, madePrefix, effects, reason⟩
      rw [Plan.readable_append_of_complete firstComplete]
      refine ⟨Plan.readable firstPlan ++ made, ?_, ?_, ?_⟩
      · exact (List.prefix_append_right_inj _).mpr madePrefix
      · rw [effects, List.append_assoc]
      · rcases reason with failed | ⟨mem, rfl, same⟩
        · exact Or.inl failed
        · exact Or.inr ⟨List.mem_append_right _ mem, rfl, same⟩
  · rintro exception after ⟨made, madePrefix, effects, reason⟩
    refine ⟨made, madePrefix.trans (Plan.readable_prefix_append _ _), effects, ?_⟩
    rcases reason with failed | ⟨mem, rfl, same⟩
    · exact Or.inl failed
    · right
      rw [Plan.readable_append_of_not_complete fun complete => complete exception mem]
      exact ⟨List.mem_append_left _ mem, rfl, same⟩

theorem performs_forM {ι : Type} {body : ι → ExceptT ε (Program I) Unit}
    {plan : ι → Except ε E} (rounds : ∀ i, Performs executed refused (body i) [plan i])
    (indices : List ι) :
    Performs executed refused (indices.forM body) (indices.map plan) := by
  induction indices with
  | nil => exact performs_pure
  | cons head tail ih => exact (rounds head).seq ih

/-- A value which is read on the way into the content of a change: when reading
throws, so does the change. -/
theorem performs_read_map {ρ : Type} {change : ρ → E} {read : Except ε α}
    {continuation : α → ExceptT ε (Program I) Unit} {content : α → Except ε ρ}
    (performs : ∀ value,
      Performs executed refused (continuation value) [change <$> content value]) :
    Performs executed refused (liftM read >>= continuation) [change <$> (read >>= content)] := by
  cases read with
  | ok value => exact performs value
  | error exception =>
      intro log
      apply ensures_throw
      exact ⟨[], List.nil_prefix, by simp, Or.inr ⟨List.mem_singleton_self _, rfl, rfl⟩⟩

/-- A value which is read before the part of the program a plan is about. -/
theorem performs_read {read : Except ε α} {continuation : α → ExceptT ε (Program I) Unit}
    {plan : α → List (Except ε E)}
    (performs : ∀ value, Performs executed refused (continuation value) (plan value)) :
    Performs executed refused (liftM read >>= continuation) (Plan.afterReading read plan) := by
  cases read with
  | ok value => exact performs value
  | error exception =>
      intro log
      apply ensures_throw
      exact ⟨[], List.nil_prefix, by simp, Or.inr ⟨List.mem_singleton_self _, rfl, rfl⟩⟩

/-- The program tries to make the changes in order. A refused change is skipped,
and no exception leaves the program. -/
def Attempts (executed : I.Event → Option E) (refused : I.Event → Bool)
    (program : ExceptT ε (Program I) Unit) (changes : List E) : Prop :=
  ∀ log, Ensures (logging executed refused) program
    (fun _ after => ∃ made, made.Sublist changes ∧ after.effects = log.effects ++ made ∧
      (after.failed = true ∨ made = changes ∧ after.failed = log.failed))
    (fun _ _ => False) log

theorem Attempts.seq {first second : ExceptT ε (Program I) Unit} {firstChanges secondChanges : List E}
    (firstAttempts : Attempts executed refused first firstChanges)
    (secondAttempts : Attempts executed refused second secondChanges) :
    Attempts executed refused (first >>= fun _ => second) (firstChanges ++ secondChanges) := by
  intro log
  apply ensures_bind
  apply (firstAttempts log).mono
  · rintro _ middle ⟨firstMade, firstSublist, firstEffects, firstReason⟩
    apply (secondAttempts middle).mono
    · rintro _ after ⟨secondMade, secondSublist, secondEffects, secondReason⟩
      refine ⟨firstMade ++ secondMade, firstSublist.append secondSublist, ?_, ?_⟩
      · rw [secondEffects, firstEffects, List.append_assoc]
      · rcases secondReason with failed | ⟨rfl, secondFailed⟩
        · exact Or.inl failed
        · rcases firstReason with failed | ⟨rfl, firstFailed⟩
          · exact Or.inl (secondFailed.trans failed)
          · exact Or.inr ⟨rfl, secondFailed.trans firstFailed⟩
    · exact fun _ _ impossible => impossible
  · exact fun _ _ impossible => impossible.elim

end Program

end HumanMachine
