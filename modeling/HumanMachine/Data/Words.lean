import Mathlib.Data.List.Basic
import Mathlib.Logic.Relation

/-!
# Words between separators

The words of a list are its maximal nonempty runs of elements which do not separate, in
their order. They do not depend on how many separators stand between two words, before
the first or behind the last one.
-/

namespace HumanMachine

variable {α : Type} {sep : α → Bool}

/-- The words of a list. -/
def words (sep : α → Bool) (text : List α) : List (List α) :=
  (text.splitOnP sep).filter (!·.isEmpty)

/-- A run of elements which do not separate, which starts after so many elements and cannot
be extended to either side. -/
structure MaximalRun (sep : α → Bool) (text : List α) (start : ℕ) (run : List α) : Prop where
  nonempty : run ≠ []
  inside : ∀ a ∈ run, sep a = false
  stands : ∃ before behind, text = before ++ (run ++ behind) ∧ before.length = start ∧
    (∀ a ∈ before.getLast?, sep a = true) ∧ ∀ a ∈ behind.head?, sep a = true

/-- One text is turned into another by exchanging separators in one place for others; in front
of everything and behind everything there may be none. -/
inductive Respaced (sep : α → Bool) : List α → List α → Prop where
  | between {front gap other back : List α} (nonempty : gap ≠ []) (alsoNonempty : other ≠ [])
      (separates : ∀ a ∈ gap, sep a = true) (alsoSeparates : ∀ a ∈ other, sep a = true) :
      Respaced sep (front ++ (gap ++ back)) (front ++ (other ++ back))
  | before {gap text : List α} (separates : ∀ a ∈ gap, sep a = true) : Respaced sep text (gap ++ text)
  | behind {gap text : List α} (separates : ∀ a ∈ gap, sep a = true) : Respaced sep text (text ++ gap)

@[simp]
theorem words_nil : words sep [] = [] := by
  simp [words, List.splitOnP_nil]

theorem words_of_single {run : List α} (nonempty : run ≠ []) (inside : ∀ a ∈ run, sep a = false) :
    words sep run = [run] := by
  rw [words, List.splitOnP_eq_singleton inside]
  simpa using nonempty

/-- A separator cuts a text into two which have nothing to do with each other. -/
theorem words_append_cons (front : List α) {a : α} (separates : sep a = true) (back : List α) :
    words sep (front ++ a :: back) = words sep front ++ words sep back := by
  rw [words, List.splitOnP_append_cons _ _ separates, List.filter_append]
  rfl

theorem words_append_gap {gap : List α} (nonempty : gap ≠ []) (separates : ∀ a ∈ gap, sep a = true)
    (front back : List α) : words sep (front ++ (gap ++ back)) = words sep front ++ words sep back := by
  induction gap generalizing front with
  | nil => exact absurd rfl nonempty
  | cons a gap ih =>
      rw [List.forall_mem_cons] at separates
      rw [List.cons_append, words_append_cons _ separates.1]
      by_cases last : gap = []
      · rw [last, List.nil_append]
      · have rest := ih last separates.2 []
        rw [words_nil, List.nil_append, List.nil_append] at rest
        rw [rest]

theorem words_respaced {text other : List α} (respaced : Respaced sep text other) :
    words sep text = words sep other := by
  cases respaced with
  | between nonempty alsoNonempty separates alsoSeparates =>
      rw [words_append_gap nonempty separates, words_append_gap alsoNonempty alsoSeparates]
  | @before gap text separates =>
      by_cases none : gap = []
      · rw [none, List.nil_append]
      · have cut := words_append_gap none separates [] text
        simpa using cut.symm
  | @behind gap text separates =>
      by_cases none : gap = []
      · rw [none, List.append_nil]
      · have cut := words_append_gap none separates text []
        simpa using cut.symm

/-- Any number of such exchanges leaves the words alone. -/
theorem words_eq_of_eqvGen {text other : List α}
    (respaced : Relation.EqvGen (Respaced sep) text other) : words sep text = words sep other := by
  induction respaced with
  | rel text other respaced => exact words_respaced respaced
  | refl text => rfl
  | symm text other respaced ih => exact ih.symm
  | trans text middle other first second ih more => exact ih.trans more

/-! ## Words are maximal runs -/

/-- A text without separators, or its parts around the first one. -/
theorem exists_first_separator (sep : α → Bool) (text : List α) :
    (∀ a ∈ text, sep a = false) ∨
      ∃ front a back, text = front ++ a :: back ∧ (∀ b ∈ front, sep b = false) ∧ sep a = true := by
  induction text with
  | nil => simp
  | cons a text ih =>
      by_cases separates : sep a = true
      · exact Or.inr ⟨[], a, text, rfl, by simp, separates⟩
      · have first : sep a = false := by simpa using separates
        rcases ih with none | ⟨front, b, back, rfl, inside, separates⟩
        · exact Or.inl (List.forall_mem_cons.mpr ⟨first, none⟩)
        · exact Or.inr ⟨a :: front, b, back, rfl, List.forall_mem_cons.mpr ⟨first, inside⟩, separates⟩

theorem forall_mem_words (text : List α) :
    ∀ word ∈ words sep text, word ≠ [] ∧ ∀ a ∈ word, sep a = false := by
  induction length : text.length using Nat.strongRecOn generalizing text with
  | ind n ih =>
      rcases exists_first_separator sep text with none | ⟨front, a, back, rfl, inside, separates⟩
      · by_cases empty : text = []
        · simp [empty]
        · rw [words_of_single empty none]
          simpa using ⟨empty, none⟩
      · simp only [List.length_append, List.length_cons] at length
        rw [words_append_cons _ separates]
        intro word mem
        rcases List.mem_append.mp mem with mem | mem
        · exact ih front.length (by omega) front rfl word mem
        · exact ih back.length (by omega) back rfl word mem

theorem maximalRun_single_iff {text run : List α} {start : ℕ} (nonempty : text ≠ [])
    (none : ∀ a ∈ text, sep a = false) : MaximalRun sep text start run ↔ start = 0 ∧ run = text := by
  constructor
  · rintro ⟨_, _, before, behind, rfl, rfl, stops, alsoStops⟩
    have noBefore : before = [] := by
      by_contra some
      have last := stops _ (List.getLast?_eq_getLast_of_ne_nil some)
      rw [none _ (List.mem_append_left _ (List.getLast_mem some))] at last
      cases last
    have noBehind : behind = [] := by
      by_contra some
      have head := alsoStops _ (List.head?_eq_some_head some)
      rw [none _ (List.mem_append_right _ (List.mem_append_right _ (List.head_mem some)))] at head
      cases head
    simp [noBefore, noBehind]
  · rintro ⟨rfl, rfl⟩
    exact ⟨nonempty, none, [], [], by simp⟩

theorem takeWhile_of_stops {run behind : List α} (inside : ∀ a ∈ run, sep a = false)
    (stops : ∀ a ∈ behind.head?, sep a = true) :
    (run ++ behind).takeWhile (fun a => !sep a) = run := by
  rw [List.takeWhile_append_of_pos (by simpa using inside)]
  cases behind with
  | nil => simp
  | cons a behind => simp [stops a rfl]

/-- The runs of a text are those in front of a separator and those behind it. -/
theorem maximalRun_append_cons_iff {front back run : List α} {a : α} {start : ℕ}
    (inside : ∀ b ∈ front, sep b = false) (separates : sep a = true) :
    MaximalRun sep (front ++ a :: back) start run ↔
      (front ≠ [] ∧ start = 0 ∧ run = front) ∨
        ∃ later, start = front.length + 1 + later ∧ MaximalRun sep back later run := by
  constructor
  · rintro ⟨nonempty, runInside, before, behind, split, rfl, stops, alsoStops⟩
    rcases List.append_eq_append_iff.mp split with ⟨middle, rfl, rest⟩ | ⟨middle, rfl, rest⟩
    · right
      cases middle with
      | nil =>
          rcases List.exists_cons_of_ne_nil nonempty with ⟨first, others, rfl⟩
          rw [List.nil_append, List.cons_append, List.cons.injEq] at rest
          rw [rest.1, runInside first List.mem_cons_self] at separates
          cases separates
      | cons b middle =>
          rw [List.cons_append, List.cons.injEq] at rest
          rcases rest with ⟨rfl, rfl⟩
          refine ⟨middle.length, by simp; omega, nonempty, runInside, middle, behind, rfl, rfl, ?_,
            alsoStops⟩
          intro b last
          refine stops b ?_
          simp only [Option.mem_def] at last ⊢
          simp [List.getLast?_cons, last]
    · left
      have noBefore : before = [] := by
        by_contra some
        have last := stops _ (List.getLast?_eq_getLast_of_ne_nil some)
        rw [inside _ (List.mem_append_left _ (List.getLast_mem some))] at last
        cases last
      subst noBefore
      rw [List.nil_append] at inside ⊢
      have same : run = middle := by
        rw [← takeWhile_of_stops runInside alsoStops, rest,
          takeWhile_of_stops inside (by simpa using separates)]
      exact ⟨same ▸ nonempty, rfl, same⟩
  · rintro (⟨nonempty, rfl, rfl⟩ | ⟨later, rfl, nonempty, runInside, before, behind, rfl, rfl, stops,
      alsoStops⟩)
    · exact ⟨nonempty, inside, [], a :: back, by simp, rfl, by simp, by simpa using separates⟩
    · refine ⟨nonempty, runInside, front ++ a :: before, behind, by simp, by simp; omega, ?_, alsoStops⟩
      intro b last
      rw [List.getLast?_append, List.getLast?_cons, Option.mem_def, Option.some_or,
        Option.some.injEq] at last
      cases found : before.getLast? with
      | none => rwa [← last, found]
      | some c =>
          rw [found, Option.getD_some] at last
          exact stops b (last ▸ found)

/-- The words are the maximal runs, in the order in which they start. -/
theorem exists_maximalRuns (sep : α → Bool) (text : List α) :
    ∃ runs : List (ℕ × List α), runs.map Prod.snd = words sep text ∧
      runs.Pairwise (fun run later => run.1 < later.1) ∧
      ∀ start run, (start, run) ∈ runs ↔ MaximalRun sep text start run := by
  induction length : text.length using Nat.strongRecOn generalizing text with
  | ind n ih =>
      rcases exists_first_separator sep text with none | ⟨front, a, back, rfl, inside, separates⟩
      · by_cases empty : text = []
        · refine ⟨[], by simp [empty], .nil, ?_⟩
          intro start run
          constructor
          · simp
          · rintro ⟨nonempty, _, before, behind, split, _⟩
            simp [empty, nonempty] at split
        · refine ⟨[(0, text)], (words_of_single empty none).symm, List.pairwise_singleton _ _, ?_⟩
          intro start run
          rw [maximalRun_single_iff empty none]
          simp
      · simp only [List.length_append, List.length_cons] at length
        rcases ih back.length (by omega) back rfl with ⟨runs, areWords, ordered, each⟩
        -- The runs behind the separator start later by what stands in front of them.
        let later := runs.map fun run => (front.length + 1 + run.1, run.2)
        have laterWords : later.map Prod.snd = words sep back := by
          rw [← areWords, List.map_map]
          rfl
        have laterOrdered : later.Pairwise fun run later => run.1 < later.1 := by
          rw [List.pairwise_map]
          exact ordered.imp fun less => Nat.add_lt_add_left less _
        have laterEach (start : ℕ) (run : List α) : (start, run) ∈ later ↔
            ∃ behind, start = front.length + 1 + behind ∧ MaximalRun sep back behind run := by
          simp only [later, List.mem_map, Prod.mk.injEq, Prod.exists]
          constructor
          · rintro ⟨behind, same, mem, rfl, rfl⟩
            exact ⟨behind, rfl, (each _ _).mp mem⟩
          · rintro ⟨behind, rfl, maximal⟩
            exact ⟨behind, run, (each _ _).mpr maximal, rfl, rfl⟩
        by_cases empty : front = []
        · refine ⟨later, ?_, laterOrdered, ?_⟩
          · rw [laterWords, words_append_cons _ separates, empty, words_nil, List.nil_append]
          · intro start run
            rw [laterEach, maximalRun_append_cons_iff inside separates]
            simp [empty]
        · refine ⟨(0, front) :: later, ?_, ?_, ?_⟩
          · rw [List.map_cons, laterWords, words_append_cons _ separates,
              words_of_single empty inside, List.singleton_append]
          · refine List.pairwise_cons.mpr ⟨?_, laterOrdered⟩
            rintro ⟨start, run⟩ mem
            rcases (laterEach start run).mp mem with ⟨behind, rfl, _⟩
            omega
          · intro start run
            rw [List.mem_cons, laterEach, maximalRun_append_cons_iff inside separates,
              Prod.mk.injEq]
            simp [empty]

end HumanMachine
