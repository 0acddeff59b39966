import HumanMachine.Program.Interleaving

/-!
# Simulation by other components and by programs

A component takes labelled steps. The components of a system run interleaved and share a
state which the labels change. If other components keep pace with these, with one step or none
for a step, or programs, with any number of exchanges for a step, then every run of the system is
matched by an interleaved run of the others over the same states.
-/

namespace HumanMachine

variable {ι ν μ σ α : Type} [DecidableEq ι] {I : Interface}

/-- An interleaved run of components, with the labels of the steps that were taken. -/
inductive SystemRun (step : ν → μ → ν → Prop) (effect : σ → μ → σ → Prop) :
    (ι → ν) → σ → List (ι × μ) → (ι → ν) → σ → Prop where
  | refl (nodes : ι → ν) (state : σ) : SystemRun step effect nodes state [] nodes state
  | step {i : ι} {node : ν} {label : μ} {labels : List (ι × μ)} {nodes remaining : ι → ν}
      {before middle after : σ} (moves : step (nodes i) label node)
      (effects : effect before label middle)
      (rest : SystemRun step effect (Function.update nodes i node) middle labels remaining after) :
      SystemRun step effect nodes before ((i, label) :: labels) remaining after

/-- The steps of one component. -/
inductive ComponentRun (step : ν → μ → ν → Prop) : ν → List μ → ν → Prop where
  | refl (node : ν) : ComponentRun step node [] node
  | step {node middle last : ν} {label : μ} {labels : List μ} (moves : step node label middle)
      (rest : ComponentRun step middle labels last) : ComponentRun step node (label :: labels) last

section

variable {step : ν → μ → ν → Prop}

theorem ComponentRun.trans {node middle last : ν} {first second : List μ}
    (head : ComponentRun step node first middle) (tail : ComponentRun step middle second last) :
    ComponentRun step node (first ++ second) last := by
  induction head with
  | refl node => exact tail
  | step moves rest ih => exact .step moves (ih tail)

/-- What a component does in a run of the system. -/
theorem SystemRun.component {effect : σ → μ → σ → Prop} {nodes remaining : ι → ν}
    {before after : σ} {labels : List (ι × μ)}
    (run : SystemRun step effect nodes before labels remaining after) (i : ι) :
    ComponentRun step (nodes i) (projection i labels) (remaining i) := by
  induction run with
  | refl nodes state => exact .refl _
  | @step j node label labels nodes remaining before middle after moves effects rest ih =>
      by_cases same : j = i
      · subst j
        rw [Function.update_self] at ih
        rw [projection_cons_self]
        exact .step moves ih
      · rw [Function.update_of_ne (Ne.symm same)] at ih
        rwa [projection_cons_of_ne same]

/-- Runs of the components make a run of the system, in whatever order they take their turns. -/
theorem systemRun_of_components (change : σ → μ → σ) {labels : List (ι × μ)}
    {nodes remaining : ι → ν}
    (runs : ∀ i, ComponentRun step (nodes i) (projection i labels) (remaining i)) (state : σ) :
    SystemRun step (fun before label after => after = change before label) nodes state labels
      remaining (labels.foldl (fun state turn => change state turn.2) state) := by
  induction labels generalizing nodes state with
  | nil =>
      have same : nodes = remaining := by
        funext i
        have run := runs i
        generalize nodes i = first at run
        cases run
        rfl
      rw [same]
      exact .refl _ _
  | cons turn labels ih =>
      rcases turn with ⟨i, label⟩
      have own := runs i
      rw [projection_cons_self] at own
      cases own with
      | @step _ middle _ _ _ moves rest =>
          refine .step moves rfl (ih (fun j => ?_) _)
          by_cases same : i = j
          · subst j
            rwa [Function.update_self]
          · have other := runs j
            rw [projection_cons_of_ne same] at other
            rwa [Function.update_of_ne (Ne.symm same)]

end

/-- The run in which components take the given turns and move if they can. -/
def systemTranscript (move : ν → Option (μ × ν)) : List ι → (ι → ν) → List (ι × μ)
  | [], _ => []
  | i :: turns, nodes =>
      match move (nodes i) with
      | some (label, node) => (i, label) :: systemTranscript move turns (Function.update nodes i node)
      | none => systemTranscript move turns nodes

def systemOutcome (move : ν → Option (μ × ν)) : List ι → (ι → ν) → ι → ν
  | [], nodes => nodes
  | i :: turns, nodes =>
      match move (nodes i) with
      | some (_, node) => systemOutcome move turns (Function.update nodes i node)
      | none => systemOutcome move turns nodes

theorem systemRun_transcript {step : ν → μ → ν → Prop} {move : ν → Option (μ × ν)}
    (sound : ∀ {node label after}, move node = some (label, after) → step node label after)
    (change : σ → μ → σ) (turns : List ι) (nodes : ι → ν) (state : σ) :
    SystemRun step (fun before label after => after = change before label) nodes state
      (systemTranscript move turns nodes) (systemOutcome move turns nodes)
      ((systemTranscript move turns nodes).foldl (fun state turn => change state turn.2) state) := by
  induction turns generalizing nodes state with
  | nil => exact .refl _ _
  | cons i turns ih =>
      unfold systemTranscript systemOutcome
      cases moved : move (nodes i) with
      | none => exact ih _ _
      | some moved' => exact .step (sound moved) rfl (ih _ _)

/-- The entries which show the labels, those of the first label first. -/
inductive Shown {β : Type} (shows : μ → List β → Prop) : List μ → List β → Prop where
  | nil : Shown shows [] []
  | cons {label : μ} {labels : List μ} {entries rest : List β} (now : shows label entries)
      (later : Shown shows labels rest) : Shown shows (label :: labels) (entries ++ rest)

namespace Shown

variable {β γ : Type} {shows : μ → List β → Prop} {labels first second : List μ}
  {entries : List β}

theorem exists_of_mem {entry : β} (shown : Shown shows labels entries) (mem : entry ∈ entries) :
    ∃ label ∈ labels, ∃ part, shows label part ∧ entry ∈ part := by
  induction shown with
  | nil => cases mem
  | cons now later ih =>
      rcases List.mem_append.mp mem with mem | mem
      · exact ⟨_, List.mem_cons_self, _, now, mem⟩
      · rcases ih mem with ⟨label, inLabels, found⟩
        exact ⟨label, List.mem_cons_of_mem _ inLabels, found⟩

theorem of_append (shown : Shown shows (first ++ second) entries) :
    ∃ head tail, entries = head ++ tail ∧ Shown shows first head ∧ Shown shows second tail := by
  induction first generalizing entries with
  | nil => exact ⟨[], entries, rfl, .nil, shown⟩
  | cons label first ih =>
      cases shown with
      | cons now later =>
          rcases ih later with ⟨head, tail, rfl, firstShown, secondShown⟩
          exact ⟨_ ++ head, tail, (List.append_assoc _ _ _).symm, .cons now firstShown, secondShown⟩

/-- An entry belongs to one label, and what stands before and behind it to the others. -/
theorem split_at {entry : β} {before after : List β}
    (shown : Shown shows labels (before ++ entry :: after)) :
    ∃ front label back head start rest tail, labels = front ++ label :: back ∧
      Shown shows front head ∧ shows label (start ++ entry :: rest) ∧ Shown shows back tail ∧
      before = head ++ start ∧ after = rest ++ tail := by
  generalize whole : before ++ entry :: after = entries at shown
  induction shown generalizing before with
  | nil => simp at whole
  | @cons label labels part later now shown ih =>
      have further : ∀ {start}, start ++ entry :: after = later → ∃ front other back head start' rest tail,
          label :: labels = front ++ other :: back ∧ Shown shows front head ∧
          shows other (start' ++ entry :: rest) ∧ Shown shows back tail ∧
          part ++ start = head ++ start' ∧ after = rest ++ tail := by
        intro start inLater
        rcases ih inLater with
          ⟨front, other, back, head, start', rest, tail, rfl, frontShown, here, backShown, rfl, rfl⟩
        exact ⟨label :: front, other, back, part ++ head, start', rest, tail, rfl,
          .cons now frontShown, here, backShown, (List.append_assoc _ _ _).symm, rfl⟩
      rcases List.append_eq_append_iff.mp whole with ⟨inside, rfl, behind⟩ | ⟨start, rfl, inLater⟩
      · cases inside with
        | nil =>
            have starts : [] ++ entry :: after = later := behind
            simpa using further starts
        | cons first rest =>
            rw [List.cons_append, List.cons.injEq] at behind
            rcases behind with ⟨rfl, rfl⟩
            exact ⟨[], label, labels, [], before, rest, later, rfl, .nil, now, shown, rfl, rfl⟩
      · exact further inLater.symm

/-- What is read off the entries can be read off the labels. -/
theorem filterMap_eq (shown : Shown shows labels entries) (read : β → Option γ)
    (readLabel : μ → Option γ)
    (same : ∀ {label part}, shows label part → part.filterMap read = (readLabel label).toList) :
    entries.filterMap read = labels.filterMap readLabel := by
  induction shown with
  | nil => rfl
  | @cons label labels part rest now later ih =>
      rw [List.filterMap_append, same now, ih]
      cases value : readLabel label <;> simp [value]

end Shown

theorem projection_map_self {β : Type} (i : ι) (entries : List β) :
    projection i (entries.map (Prod.mk i)) = entries := by
  simp [projection, List.filterMap_map]

theorem projection_map_of_ne {β : Type} {i j : ι} (different : j ≠ i) (entries : List β) :
    projection i (entries.map (Prod.mk j)) = [] := by
  simp [projection, List.filterMap_map, different]

section

variable {ν' μ' : Type}

/-- If components keep pace with others, with one step or none for a step, then every run of a
system of these is matched by a run of a system of those over the same states. What was seen of
a component and what is shown for it belong to the relation. -/
theorem exists_systemRun {step : ν → μ → ν → Prop} {effect : σ → μ → σ → Prop}
    {coarse : ν' → μ' → ν' → Prop} {coarseEffect : σ → μ' → σ → Prop} {nodes remaining : ι → ν}
    {before after : σ} {labels : List (ι × μ)}
    (run : SystemRun step effect nodes before labels remaining after)
    (related : ι → List μ → List μ' → ν → ν' → Prop) {others : ι → ν'}
    (start : ∀ i, related i [] [] (nodes i) (others i)) {silent : μ → Prop} {shows : μ → μ' → Prop}
    (keepsPace : ∀ {i seen shown node other label node'}, related i seen shown node other →
      step node label node' →
      silent label ∧ related i (seen ++ [label]) shown node' other ∨
        ∃ label' other', shows label label' ∧ coarse other label' other' ∧
          related i (seen ++ [label]) (shown ++ [label']) node' other')
    (quiet : ∀ {before label after}, effect before label after → silent label → after = before)
    (accords : ∀ {before label after label'}, effect before label after → shows label label' →
      coarseEffect before label' after) :
    ∃ labels' remaining', SystemRun coarse coarseEffect others before labels' remaining' after ∧
      ∀ i, related i (projection i labels) (projection i labels') (remaining i) (remaining' i) := by
  suffices general : ∀ (seen : ι → List μ) (shown : ι → List μ'),
      (∀ i, related i (seen i) (shown i) (nodes i) (others i)) →
      ∃ labels' remaining', SystemRun coarse coarseEffect others before labels' remaining' after ∧
        ∀ i, related i (seen i ++ projection i labels) (shown i ++ projection i labels')
          (remaining i) (remaining' i) from
    general (fun _ => []) (fun _ => []) start
  clear start
  induction run generalizing others with
  | refl nodes state =>
      intro seen shown start
      refine ⟨[], others, .refl _ _, fun i => ?_⟩
      have nothing : seen i ++ projection i [] = seen i := List.append_nil _
      have nothing' : shown i ++ projection i [] = shown i := List.append_nil _
      rw [nothing, nothing']
      exact start i
  | @step i node label labels nodes remaining before middle after moves effects rest ih =>
      intro seen shown start
      have seenLater : ∀ j, Function.update seen i (seen i ++ [label]) j ++ projection j labels =
          seen j ++ projection j ((i, label) :: labels) := by
        intro j
        by_cases same : j = i
        · subst j
          rw [Function.update_self, projection_cons_self, List.append_assoc, List.singleton_append]
        · rw [Function.update_of_ne same, projection_cons_of_ne (Ne.symm same)]
      rcases keepsPace (start i) moves with ⟨isSilent, still⟩ | ⟨label', other', shows, moves', still⟩
      · have start' : ∀ j, related j (Function.update seen i (seen i ++ [label]) j) (shown j)
            (Function.update nodes i node j) (others j) := by
          intro j
          by_cases same : j = i
          · subst j
            rw [Function.update_self, Function.update_self]
            exact still
          · rw [Function.update_of_ne same, Function.update_of_ne same]
            exact start j
        rcases ih _ _ start' with ⟨labels', remaining', run', ends⟩
        rw [quiet effects isSilent] at run'
        refine ⟨labels', remaining', run', fun j => ?_⟩
        rw [← seenLater]
        exact ends j
      · have start' : ∀ j, related j (Function.update seen i (seen i ++ [label]) j)
            (Function.update shown i (shown i ++ [label']) j) (Function.update nodes i node j)
            (Function.update others i other' j) := by
          intro j
          by_cases same : j = i
          · subst j
            simp only [Function.update_self]
            exact still
          · simp only [Function.update_of_ne same]
            exact start j
        rcases ih _ _ start' with ⟨labels', remaining', run', ends⟩
        refine ⟨(i, label') :: labels', remaining', .step moves' (accords effects shows) run',
          fun j => ?_⟩
        have shownLater : Function.update shown i (shown i ++ [label']) j ++ projection j labels' =
            shown j ++ projection j ((i, label') :: labels') := by
          by_cases same : j = i
          · subst j
            rw [Function.update_self, projection_cons_self, List.append_assoc,
              List.singleton_append]
          · rw [Function.update_of_ne same, projection_cons_of_ne (Ne.symm same)]
        rw [← seenLater, ← shownLater]
        exact ends j

end

namespace Program

/-- The environment may answer these exchanges one after the other. -/
inductive Answered (env : Environment I σ) : σ → List I.Event → σ → Prop where
  | nil (state : σ) : Answered env state [] state
  | cons {command : I.Command} {answer : I.Answer command} {events : List I.Event}
      {before middle after : σ} (now : env before command answer middle)
      (later : Answered env middle events after) :
      Answered env before (⟨command, answer⟩ :: events) after

variable {env : Environment I σ}

theorem PoolRun.trans {programs middle remaining : ι → Program I α} {before between after : σ}
    {first second : List (ι × I.Event)} (head : PoolRun env programs before first middle between)
    (tail : PoolRun env middle between second remaining after) :
    PoolRun env programs before (first ++ second) remaining after := by
  induction head with
  | refl programs state => exact tail
  | step turn answered rest ih => exact .step turn answered (ih tail)

/-- One of the programs takes several turns. -/
theorem Follows.poolRun {programs : ι → Program I α} {i : ι} {left : Program I α}
    {events : List I.Event} {before after : σ} (follows : Follows (programs i) events left)
    (answered : Answered env before events after) :
    PoolRun env programs before (events.map (Prod.mk i)) (Function.update programs i left) after := by
  generalize current : programs i = program at follows
  induction follows generalizing programs before with
  | refl program =>
      cases answered
      rw [← current, Function.update_eq_self]
      exact .refl _ _
  | step rest ih =>
      cases answered with
      | cons now later =>
          have following := ih later (Function.update_self i _ programs)
          rw [Function.update_idem] at following
          exact .step current now following

/-- If the programs keep pace with the components, every run of the system is matched by an
interleaved run of the programs. -/
theorem exists_poolRun {step : ν → μ → ν → Prop} {effect : σ → μ → σ → Prop}
    {nodes remaining : ι → ν} {before after : σ} {labels : List (ι × μ)}
    (run : SystemRun step effect nodes before labels remaining after)
    (related : ι → ν → Program I α → Prop) {programs : ι → Program I α}
    (start : ∀ i, related i (nodes i) (programs i)) {shows : μ → List I.Event → Prop}
    (keepsPace : ∀ {i node program label after}, related i node program → step node label after →
      ∃ events left, shows label events ∧ Follows program events left ∧ related i after left)
    (accords : ∀ {before label after events}, effect before label after → shows label events →
      Answered env before events after) :
    ∃ events left, PoolRun env programs before events left after ∧
      (∀ i, related i (remaining i) (left i)) ∧
      ∀ i, Shown shows (projection i labels) (projection i events) := by
  induction run generalizing programs with
  | refl nodes state => exact ⟨[], programs, .refl _ _, start, fun _ => .nil⟩
  | @step i node label labels nodes remaining before middle after moves effects rest ih =>
      rcases keepsPace (start i) moves with ⟨part, program, shown, follows, stillRelated⟩
      have start' : ∀ j, related j (Function.update nodes i node j)
          (Function.update programs i program j) := by
        intro j
        by_cases same : j = i
        · subst j
          rw [Function.update_self, Function.update_self]
          exact stillRelated
        · rw [Function.update_of_ne same, Function.update_of_ne same]
          exact start j
      rcases ih start' with ⟨events, left, poolRun, ends, shownLater⟩
      refine ⟨_, left, (follows.poolRun (accords effects shown)).trans poolRun, ends, ?_⟩
      intro j
      rw [projection_append]
      by_cases same : i = j
      · subst j
        rw [projection_map_self, projection_cons_self]
        exact .cons shown (shownLater i)
      · rw [projection_map_of_ne same, projection_cons_of_ne same]
        exact shownLater j

end Program

end HumanMachine
