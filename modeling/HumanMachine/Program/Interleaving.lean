import HumanMachine.Program.Basic
import Mathlib.Data.List.Infix
import Mathlib.Logic.Function.Basic

/-!
# Interleaved programs

Several programs run over one environment: at each step one of them issues its
next command. What each program sees of such a run is a run of its own
(`PoolRun.follows`), so that what a program does when it runs alone is known of it
in every interleaving.

The second part is about a list which every participant first clears and then
appends its own entries to. In every interleaving the last one to clear finds all
its entries in the list, and of every other one a final segment may be left.
-/

namespace HumanMachine

variable {ι β : Type} [DecidableEq ι]

/-- The part of a schedule which belongs to one participant. -/
def projection (i : ι) (schedule : List (ι × β)) : List β :=
  schedule.filterMap fun turn => if turn.1 = i then some turn.2 else none

theorem projection_cons_self (i : ι) (entry : β) (schedule : List (ι × β)) :
    projection i ((i, entry) :: schedule) = entry :: projection i schedule := by
  simp [projection]

theorem projection_cons_of_ne {i j : ι} (different : j ≠ i) (entry : β)
    (schedule : List (ι × β)) :
    projection i ((j, entry) :: schedule) = projection i schedule := by
  simp [projection, different]

theorem projection_append (i : ι) (first second : List (ι × β)) :
    projection i (first ++ second) = projection i first ++ projection i second := by
  simp [projection]

theorem mem_projection {i : ι} {entry : β} {schedule : List (ι × β)} :
    entry ∈ projection i schedule ↔ (i, entry) ∈ schedule := by
  simp only [projection, List.mem_filterMap, Option.ite_none_right_eq_some, Option.some.injEq]
  constructor
  · rintro ⟨⟨j, value⟩, mem, rfl, rfl⟩
    exact mem
  · intro mem
    exact ⟨_, mem, rfl, rfl⟩

theorem projection_eq_map_of_forall {i : ι} {schedule : List (ι × β)}
    (only : ∀ turn ∈ schedule, turn.1 = i) : projection i schedule = schedule.map Prod.snd := by
  rw [projection, ← List.filterMap_eq_map]
  apply List.filterMap_congr
  intro turn mem
  simp [only turn mem]

theorem projection_filterMap {γ : Type} (i : ι) (f : β → Option γ) (schedule : List (ι × β)) :
    projection i (schedule.filterMap fun turn => (f turn.2).map (turn.1, ·)) =
      (projection i schedule).filterMap f := by
  simp only [projection, List.filterMap_filterMap]
  apply List.filterMap_congr
  intro turn _
  by_cases same : turn.1 = i <;> cases value : f turn.2 <;> simp [same, value]

/-- Steps of others which change nothing can be left out. -/
theorem foldl_eq_foldl_projection {σ : Type} {i : ι} {next : σ → β → σ} {schedule : List (ι × β)}
    (others : ∀ turn ∈ schedule, turn.1 ≠ i → ∀ state, next state turn.2 = state) (state : σ) :
    (schedule.map Prod.snd).foldl next state = (projection i schedule).foldl next state := by
  induction schedule generalizing state with
  | nil => rfl
  | cons turn schedule ih =>
      rcases turn with ⟨j, step⟩
      have rest := ih (fun turn mem => others turn (List.mem_cons_of_mem _ mem)) (next state step)
      by_cases same : j = i
      · subst j
        rw [projection_cons_self]
        exact rest
      · have unchanged := others _ List.mem_cons_self same state
        rw [projection_cons_of_ne same, List.map_cons, List.foldl_cons, rest, unchanged]

namespace Program

variable {I : Interface} {α σ : Type}

/-- An interleaved run of several programs, with the turns that were taken. -/
inductive PoolRun (env : Environment I σ) :
    (ι → Program I α) → σ → List (ι × I.Event) → (ι → Program I α) → σ → Prop where
  | refl (programs : ι → Program I α) (state : σ) : PoolRun env programs state [] programs state
  | step {i : ι} {command : I.Command} {next : I.Answer command → Program I α}
      {answer : I.Answer command} {events : List (ι × I.Event)}
      {programs remaining : ι → Program I α} {before middle after : σ}
      (turn : programs i = .call command next) (answered : env before command answer middle)
      (rest : PoolRun env (Function.update programs i (next answer)) middle events remaining
        after) :
      PoolRun env programs before ((i, ⟨command, answer⟩) :: events) remaining after

theorem PoolRun.follows {env : Environment I σ} {programs remaining : ι → Program I α}
    {before after : σ} {events : List (ι × I.Event)}
    (run : PoolRun env programs before events remaining after) (i : ι) :
    Follows (programs i) (projection i events) (remaining i) := by
  induction run with
  | refl programs state => exact .refl _
  | @step j command next answer events programs remaining before middle after turn answered rest ih =>
      by_cases same : j = i
      · subst j
        rw [Function.update_self] at ih
        rw [turn, projection_cons_self]
        exact .step ih
      · rw [Function.update_of_ne (Ne.symm same)] at ih
        rwa [projection_cons_of_ne same]

/-- The interleaved run which takes the given turns and gets the given answers. -/
def poolTranscript (answers : (command : I.Command) → I.Answer command) :
    List ι → (ι → Program I α) → List (ι × I.Event)
  | [], _ => []
  | i :: turns, programs =>
      match programs i with
      | .call command next =>
          (i, ⟨command, answers command⟩) ::
            poolTranscript answers turns (Function.update programs i (next (answers command)))
      | _ => poolTranscript answers turns programs

def poolOutcome (answers : (command : I.Command) → I.Answer command) :
    List ι → (ι → Program I α) → ι → Program I α
  | [], programs => programs
  | i :: turns, programs =>
      match programs i with
      | .call command next =>
          poolOutcome answers turns (Function.update programs i (next (answers command)))
      | _ => poolOutcome answers turns programs

theorem poolRun_transcript (next : σ → (command : I.Command) → I.Answer command → σ)
    (answers : (command : I.Command) → I.Answer command) (turns : List ι)
    (programs : ι → Program I α) (state : σ) :
    PoolRun (fun before command answer after => after = next before command answer) programs
      state (poolTranscript answers turns programs) (poolOutcome answers turns programs)
      ((poolTranscript answers turns programs).foldl
        (fun state turn => next state turn.2.1 turn.2.2) state) := by
  induction turns generalizing programs state with
  | nil => exact .refl _ _
  | cons i turns ih =>
      unfold poolTranscript poolOutcome
      cases turn : programs i with
      | call command continuation => exact .step turn rfl (ih _ _)
      | done value => exact ih _ _
      | unfinished => exact ih _ _

end Program

/-! ## Clearing and appending -/

/-- A step of a participant: it clears the list or appends an entry. -/
inductive Edit (ρ : Type) where
  | clear
  | put (entry : ρ)

namespace Edit

variable {ρ : Type}

def content (initial : List ρ) (edits : List (Edit ρ)) : List ρ :=
  edits.foldl
    (fun entries edit =>
      match edit with
      | .clear => []
      | .put entry => entries ++ [entry])
    initial

theorem content_append (initial : List ρ) (first second : List (Edit ρ)) :
    content initial (first ++ second) = content (content initial first) second := by
  simp [content]

def added : Edit ρ → Option ρ
  | .clear => none
  | .put entry => some entry

theorem content_of_no_clear {edits : List (Edit ρ)} (noClear : .clear ∉ edits)
    (initial : List ρ) : content initial edits = initial ++ edits.filterMap added := by
  induction edits generalizing initial with
  | nil => simp [content]
  | cons edit edits ih =>
      rw [List.mem_cons, not_or] at noClear
      cases edit with
      | clear => exact absurd rfl noClear.1
      | put entry =>
          have step : content initial (.put entry :: edits) = content (initial ++ [entry]) edits :=
            rfl
          rw [step, ih noClear.2]
          simp [added]

theorem content_clear_puts (initial entries : List ρ) :
    content initial (.clear :: entries.map .put) = entries := by
  have step : content initial (.clear :: entries.map .put) = content [] (entries.map .put) := rfl
  rw [step, content_of_no_clear (by simp)]
  simp [List.filterMap_map, Function.comp_def, added]

omit [DecidableEq ι] in
theorem exists_last_clear {schedule : List (ι × Edit ρ)}
    (cleared : ∃ i, (i, .clear) ∈ schedule) :
    ∃ earlier last later, schedule = earlier ++ (last, .clear) :: later ∧
      ∀ j, (j, .clear) ∉ later := by
  induction schedule with
  | nil => simp at cleared
  | cons turn rest ih =>
      by_cases again : ∃ j, (j, Edit.clear) ∈ rest
      · rcases ih again with ⟨earlier, last, later, rfl, noClear⟩
        exact ⟨turn :: earlier, last, later, rfl, noClear⟩
      · have noClear : ∀ j, (j, Edit.clear) ∉ rest := fun j mem => again ⟨j, mem⟩
        rcases cleared with ⟨i, mem⟩
        rcases List.mem_cons.mp mem with rfl | mem
        · exact ⟨[], i, rest, rfl, noClear⟩
        · exact absurd mem (noClear i)

def appended (schedule : List (ι × Edit ρ)) : List (ι × ρ) :=
  schedule.filterMap fun turn => turn.2.added.map (turn.1, ·)

omit [DecidableEq ι] in
theorem map_snd_appended (schedule : List (ι × Edit ρ)) :
    (appended schedule).map Prod.snd = (schedule.map Prod.snd).filterMap added := by
  simp only [appended, List.map_filterMap, List.filterMap_map]
  apply List.filterMap_congr
  rintro ⟨i, edit⟩ _
  cases edit <;> rfl

theorem filterMap_added_puts (entries : List ρ) :
    (entries.map Edit.put).filterMap added = entries := by
  simp [List.filterMap_map, Function.comp_def, added]

/-- Every participant clears the list once, before it appends its entries. What is there in the
end was appended after the last clear: all entries of the participant which cleared, a final
segment of every other one's, and nothing else. -/
theorem content_of_interleaving [Nonempty ι] {schedule : List (ι × Edit ρ)}
    {entries : ι → List ρ}
    (participants : ∀ i, projection i schedule = .clear :: (entries i).map .put)
    (initial : List ρ) :
    ∃ earlier last later, schedule = earlier ++ (last, .clear) :: later ∧
      (∀ j, (j, .clear) ∉ later) ∧
      content initial (schedule.map Prod.snd) = (appended later).map Prod.snd ∧
      projection last (appended later) = entries last ∧
      ∀ j, projection j (appended later) <:+ entries j := by
  have cleared : ∃ i, (i, Edit.clear) ∈ schedule := by
    refine ⟨Classical.arbitrary ι, mem_projection.mp ?_⟩
    rw [participants]
    exact List.mem_cons_self
  rcases exists_last_clear cleared with ⟨earlier, last, later, rfl, noClear⟩
  have keptOf : ∀ j, projection j (appended later) = (projection j later).filterMap added :=
    fun j => projection_filterMap j added later
  have noClearOf : ∀ j, Edit.clear ∉ projection j later :=
    fun j mem => noClear j (mem_projection.mp mem)
  refine ⟨earlier, last, later, rfl, noClear, ?_, ?_, ?_⟩
  · have noClearLater : Edit.clear ∉ later.map Prod.snd := by
      intro mem
      rcases List.mem_map.mp mem with ⟨⟨j, edit⟩, mem, rfl⟩
      exact noClear j mem
    rw [List.map_append, content_append, map_snd_appended]
    exact (content_of_no_clear noClearLater []).trans (List.nil_append _)
  · -- its only clear is the one at the split, so that nothing of it comes before
    have split := participants last
    rw [projection_append, projection_cons_self] at split
    have nothingBefore : projection last earlier = [] := by
      cases before : projection last earlier with
      | nil => rfl
      | cons edit rest =>
          rw [before, List.cons_append, List.cons.injEq] at split
          have mem : Edit.clear ∈ (entries last).map Edit.put := by
            rw [← split.2]
            simp
          simp at mem
    rw [nothingBefore, List.nil_append, List.cons.injEq] at split
    rw [keptOf, split.2, filterMap_added_puts]
  · intro j
    have suffix : projection j later <:+ .clear :: (entries j).map .put := by
      rw [← participants j, projection_append]
      by_cases same : last = j
      · subst j
        rw [projection_cons_self]
        exact (List.suffix_cons _ _).trans (List.suffix_append _ _)
      · rw [projection_cons_of_ne same]
        exact List.suffix_append _ _
    rw [keptOf]
    rcases List.suffix_cons_iff.mp suffix with whole | tail
    · exact absurd (whole ▸ List.mem_cons_self) (noClearOf j)
    · rw [← filterMap_added_puts (entries j)]
      exact tail.filterMap added

/-- When a participant takes all its turns after the others', only its entries are left. -/
theorem content_of_last {earlier later : List (ι × Edit ρ)} {last : ι} {entries : List ρ}
    (participant : projection last (earlier ++ later) = .clear :: entries.map .put)
    (before : ∀ turn ∈ earlier, turn.1 ≠ last) (after : ∀ turn ∈ later, turn.1 = last)
    (initial : List ρ) :
    content initial ((earlier ++ later).map Prod.snd) = entries := by
  have nothingBefore : projection last earlier = [] := by
    rw [projection, List.filterMap_eq_nil_iff]
    intro turn mem
    simp [before turn mem]
  rw [projection_append, nothingBefore, List.nil_append,
    projection_eq_map_of_forall after] at participant
  rw [List.map_append, content_append, participant, content_clear_puts]

end Edit

end HumanMachine
