import HumanMachine.Program.Loop
import HumanMachine.Program.Plan

/-!
# Resources which a program takes and gives back

The exchanges of a program take and return resources. A part of a program which works
through the entries of a plan, and takes and returns a resource for each, returns all of
them unless an exchange spoils it or the entry for a resource it has taken cannot be read.
This file gives the rules by which such an account is kept for a composed program.

What an exchange does to the resources, which exchanges spoil and which count as the
beginning of an entry is left open.
-/

namespace HumanMachine

inductive Change (κ : Type) where
  | taken (resource : κ)
  | returned (resource : κ)
  | kept

structure Accounting (I : Interface) (κ : Type) where
  change : I.Event → Change κ
  spoils : I.Event → Bool
  counts : I.Event → Bool

namespace Accounting

variable {I : Interface} {κ ε E α β ι : Type} [DecidableEq κ] (accounting : Accounting I κ)

/-- The resources which are held after an exchange. -/
def hold (held : List κ) (event : I.Event) : List κ :=
  match accounting.change event with
  | .taken resource => resource :: held
  | .returned resource => held.erase resource
  | .kept => held

def holding (held : List κ) (events : List I.Event) : List κ :=
  events.foldl accounting.hold held

/-- Everything which was taken was returned, and nothing else. -/
def Balanced (events : List I.Event) : Prop :=
  ∀ held, accounting.holding held events = held

/-- Nothing was returned which was held before. -/
def Growing (events : List I.Event) : Prop :=
  ∀ held, held <:+ accounting.holding held events

variable {accounting} {first second events : List I.Event}

theorem holding_append (held : List κ) : accounting.holding held (first ++ second) =
    accounting.holding (accounting.holding held first) second :=
  List.foldl_append

theorem balanced_nil : accounting.Balanced [] :=
  fun _ => rfl

theorem growing_nil : accounting.Growing [] :=
  fun held => List.suffix_refl held

theorem Balanced.growing (balanced : accounting.Balanced events) : accounting.Growing events := by
  intro held
  rw [balanced held]

/-- A resource which is taken and kept. -/
theorem growing_of_taken {resource : κ}
    (taken : ∀ held, accounting.holding held events = resource :: held) :
    accounting.Growing events ∧ ¬accounting.Balanced events := by
  constructor
  · intro held
    rw [taken held]
    exact List.suffix_cons resource held
  · intro balanced
    exact List.cons_ne_nil _ _ ((taken []).symm.trans (balanced []))

theorem Growing.append (firstGrowing : accounting.Growing first)
    (secondGrowing : accounting.Growing second) : accounting.Growing (first ++ second) := by
  intro held
  rw [holding_append]
  exact (firstGrowing held).trans (secondGrowing _)

/-- Growing parts are balanced together only if each is. -/
theorem balanced_append_iff (firstGrowing : accounting.Growing first)
    (secondGrowing : accounting.Growing second) :
    accounting.Balanced (first ++ second) ↔
      accounting.Balanced first ∧ accounting.Balanced second := by
  constructor
  · intro balanced
    have firstBalanced : accounting.Balanced first := by
      intro held
      have whole := balanced held
      rw [holding_append] at whole
      have later := secondGrowing (accounting.holding held first)
      rw [whole] at later
      exact later.eq_of_length_le (firstGrowing held).length_le
    refine ⟨firstBalanced, ?_⟩
    intro held
    have whole := balanced held
    rwa [holding_append, firstBalanced held] at whole
  · rintro ⟨firstBalanced, secondBalanced⟩ held
    rw [holding_append, firstBalanced held, secondBalanced held]

theorem growing_flatten {runs : List (List I.Event)}
    (growing : ∀ events ∈ runs, accounting.Growing events) : accounting.Growing runs.flatten := by
  induction runs with
  | nil => exact growing_nil
  | cons events runs ih =>
      rw [List.forall_mem_cons] at growing
      exact growing.1.append (ih growing.2)

theorem balanced_flatten_iff {runs : List (List I.Event)}
    (growing : ∀ events ∈ runs, accounting.Growing events) :
    accounting.Balanced runs.flatten ↔ ∀ events ∈ runs, accounting.Balanced events := by
  induction runs with
  | nil => exact iff_of_true balanced_nil (by simp)
  | cons events runs ih =>
      rw [List.forall_mem_cons] at growing
      rw [List.flatten_cons, balanced_append_iff growing.1 (growing_flatten growing.2),
        ih growing.2, List.forall_mem_cons]

/-! ## The account of a run -/

variable (accounting) in
/-- What the exchanges of a run say of its resources. -/
structure Account (events : List I.Event) (plan : List (Except ε E)) : Prop where
  growing : accounting.Growing events
  within : events.countP accounting.counts ≤ plan.length
  balanced_iff : accounting.Balanced events ↔
    (∀ event ∈ events, ¬accounting.spoils event) ∧
      Plan.Complete (plan.take (events.countP accounting.counts))

variable {plan firstPlan secondPlan : List (Except ε E)}

theorem account_nil (plan : List (Except ε E)) : accounting.Account [] plan where
  growing := growing_nil
  within := Nat.zero_le _
  balanced_iff := iff_of_true balanced_nil ⟨by simp, by simpa using Plan.complete_nil⟩

theorem Account.of_balanced (balanced : accounting.Balanced events)
    (within : events.countP accounting.counts ≤ plan.length)
    (unspoiled : ∀ event ∈ events, ¬accounting.spoils event)
    (complete : Plan.Complete (plan.take (events.countP accounting.counts))) :
    accounting.Account events plan where
  growing := balanced.growing
  within := within
  balanced_iff := iff_of_true balanced ⟨unspoiled, complete⟩

/-- A run which keeps a resource has to be spoiled or to have come to an entry which cannot
be read. -/
theorem Account.of_taken {resource : κ}
    (taken : ∀ held, accounting.holding held events = resource :: held)
    (within : events.countP accounting.counts ≤ plan.length)
    (reason : (∃ event ∈ events, accounting.spoils event) ∨
      ¬Plan.Complete (plan.take (events.countP accounting.counts))) :
    accounting.Account events plan where
  growing := (growing_of_taken taken).1
  within := within
  balanced_iff := by
    refine iff_of_false (growing_of_taken taken).2 ?_
    rintro ⟨unspoiled, complete⟩
    rcases reason with ⟨event, mem, spoils⟩ | incomplete
    · exact unspoiled event mem spoils
    · exact incomplete complete

/-- Entries behind those of the run do not matter. -/
theorem Account.append_right (account : accounting.Account events plan)
    (later : List (Except ε E)) : accounting.Account events (plan ++ later) where
  growing := account.growing
  within := account.within.trans (by simp)
  balanced_iff := by
    rw [List.take_append_of_le_length account.within]
    exact account.balanced_iff

/-- A run behind one which has worked through its entries. -/
theorem Account.append (firstAccount : accounting.Account first firstPlan)
    (all : first.countP accounting.counts = firstPlan.length) (complete : Plan.Complete firstPlan)
    (secondAccount : accounting.Account second secondPlan) :
    accounting.Account (first ++ second) (firstPlan ++ secondPlan) where
  growing := firstAccount.growing.append secondAccount.growing
  within := by
    rw [List.countP_append, List.length_append, all]
    exact Nat.add_le_add_left secondAccount.within _
  balanced_iff := by
    rw [balanced_append_iff firstAccount.growing secondAccount.growing, firstAccount.balanced_iff,
      secondAccount.balanced_iff, List.countP_append, all, List.take_length_add_append,
      List.take_length, Plan.complete_append, List.forall_mem_append]
    simp only [complete, and_true, true_and, and_assoc]

variable (accounting) in
/-- Every finished run of the program has an account for the plan. -/
def Settles (program : ExceptT ε (Program I) α) (plan : List (Except ε E)) : Prop :=
  ∀ events result, program.run.Follows events (.done result) → accounting.Account events plan

variable (accounting) in
/-- A run which ends without an exception has worked through the plan besides. -/
structure Accounts (program : ExceptT ε (Program I) α) (plan : List (Except ε E)) : Prop where
  settles : accounting.Settles program plan
  worked : ∀ events value, program.run.Follows events (.done (.ok value)) →
    events.countP accounting.counts = plan.length ∧ Plan.Complete plan

theorem accounts_pure (value : α) :
    accounting.Accounts (pure value : ExceptT ε (Program I) α) ([] : List (Except ε E)) := by
  constructor
  · intro events result follows
    rcases Program.Follows.of_done follows with ⟨rfl, _⟩
    exact account_nil []
  · intro events other follows
    rcases Program.Follows.of_done follows with ⟨rfl, _⟩
    exact ⟨rfl, Plan.complete_nil⟩

theorem accounts_throw (exception : ε) (plan : List (Except ε E)) :
    accounting.Accounts (throw exception : ExceptT ε (Program I) α) plan := by
  constructor
  · intro events result follows
    rcases Program.Follows.of_done follows with ⟨rfl, _⟩
    exact account_nil plan
  · intro events value follows
    cases (Program.Follows.of_done follows).2

/-- For an empty plan there is nothing to work through. -/
theorem Settles.accounts {program : ExceptT ε (Program I) α}
    (settles : accounting.Settles program ([] : List (Except ε E))) :
    accounting.Accounts program ([] : List (Except ε E)) := by
  refine ⟨settles, ?_⟩
  intro events value follows
  exact ⟨Nat.le_zero.mp (settles events _ follows).within, Plan.complete_nil⟩

theorem Accounts.bind_settles {program : ExceptT ε (Program I) α}
    {continuation : α → ExceptT ε (Program I) β}
    (accounts : accounting.Accounts program firstPlan)
    (settles : ∀ value, accounting.Settles (continuation value) secondPlan) :
    accounting.Settles (program >>= continuation) (firstPlan ++ secondPlan) := by
  intro events result follows
  rw [ExceptT.run_bind] at follows
  rcases follows.of_bind_done with ⟨first, second, middle, rfl, head, tail⟩
  have account := accounts.settles first middle head
  cases middle with
  | error exception =>
      rcases Program.Follows.of_done tail with ⟨rfl, _⟩
      rw [List.append_nil]
      exact account.append_right secondPlan
  | ok value =>
      rcases accounts.worked first value head with ⟨all, complete⟩
      exact account.append all complete (settles value second result tail)

theorem Accounts.bind {program : ExceptT ε (Program I) α}
    {continuation : α → ExceptT ε (Program I) β}
    (firstAccounts : accounting.Accounts program firstPlan)
    (secondAccounts : ∀ value, accounting.Accounts (continuation value) secondPlan) :
    accounting.Accounts (program >>= continuation) (firstPlan ++ secondPlan) := by
  refine ⟨firstAccounts.bind_settles fun value => (secondAccounts value).settles, ?_⟩
  intro events value follows
  rcases follows.of_bind_ok with ⟨first, second, middle, rfl, head, tail⟩
  rcases firstAccounts.worked first middle head with ⟨all, complete⟩
  rcases (secondAccounts middle).worked second value tail with ⟨rest, restComplete⟩
  rw [List.countP_append, List.length_append, all, rest]
  exact ⟨rfl, Plan.complete_append.mpr ⟨complete, restComplete⟩⟩

theorem accounts_forM {body : ι → ExceptT ε (Program I) Unit} {plan : ι → Except ε E}
    (rounds : ∀ i, accounting.Accounts (body i) [plan i]) (indices : List ι) :
    accounting.Accounts (indices.forM body) (indices.map plan) := by
  induction indices with
  | nil => exact accounts_pure ()
  | cons head tail ih => exact (rounds head).bind fun _ => ih

/-- A value which is read before anything is taken for the plan. -/
theorem accounts_read {read : Except ε α} {continuation : α → ExceptT ε (Program I) β}
    {plan : α → List (Except ε E)}
    (accounts : ∀ value, accounting.Accounts (continuation value) (plan value)) :
    accounting.Accounts (liftM read >>= continuation) (Plan.afterReading read plan) := by
  cases read with
  | ok value => exact accounts value
  | error exception => exact accounts_throw exception [.error exception]

theorem accounts_read_map {ρ : Type} {change : ρ → E} {read : Except ε α}
    {continuation : α → ExceptT ε (Program I) β} {content : α → Except ε ρ}
    (accounts : ∀ value, accounting.Accounts (continuation value) [change <$> content value]) :
    accounting.Accounts (liftM read >>= continuation) [change <$> (read >>= content)] := by
  cases read with
  | ok value => exact accounts value
  | error exception => exact accounts_throw exception [.error exception]

theorem settles_read {read : Except ε α} {continuation : α → ExceptT ε (Program I) β}
    {plan : α → List (Except ε E)}
    (settles : ∀ value, accounting.Settles (continuation value) (plan value)) :
    accounting.Settles (liftM read >>= continuation) (Plan.afterReading read plan) := by
  cases read with
  | ok value => exact settles value
  | error exception => exact (accounts_throw exception [.error exception]).settles

/-! ## Around a part without exchanges -/

/-- A program without exchanges. -/
def Quiet (program : ExceptT ε (Program I) α) : Prop :=
  ∀ events result, program.run.Follows events (.done result) → events = []

theorem quiet_pure (value : α) : Quiet (pure value : ExceptT ε (Program I) α) :=
  fun _ _ follows => (Program.Follows.of_done follows).1

theorem quiet_throw (exception : ε) : Quiet (throw exception : ExceptT ε (Program I) α) :=
  fun _ _ follows => (Program.Follows.of_done follows).1

theorem Settles.bind_quiet {program : ExceptT ε (Program I) α}
    {continuation : α → ExceptT ε (Program I) β} (settles : accounting.Settles program plan)
    (quiet : ∀ value, Quiet (continuation value)) :
    accounting.Settles (program >>= continuation) plan := by
  intro events result follows
  rw [ExceptT.run_bind] at follows
  rcases follows.of_bind_done with ⟨first, second, middle, rfl, head, tail⟩
  have none : second = [] := by
    cases middle with
    | error exception => exact (Program.Follows.of_done tail).1
    | ok value => exact quiet value second result tail
  rw [none, List.append_nil]
  exact settles first middle head

theorem Settles.tryCatch {program : ExceptT ε (Program I) α}
    {handler : ε → ExceptT ε (Program I) α} (settles : accounting.Settles program plan)
    (quiet : ∀ exception, Quiet (handler exception)) :
    accounting.Settles (tryCatch program handler) plan := by
  intro events result follows
  rcases Program.Follows.of_bind_done follows with ⟨first, second, middle, rfl, head, tail⟩
  have none : second = [] := by
    cases middle with
    | error exception => exact quiet exception second result tail
    | ok value => exact (Program.Follows.of_done tail).1
  rw [none, List.append_nil]
  exact settles first middle head

end Accounting

end HumanMachine
