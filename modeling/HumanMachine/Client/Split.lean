import HumanMachine.Client.Docker
import HumanMachine.Data.Words

/-!
# The tokens of `split`

`split` calls `strtok` until it finds no token any more. What it collects are the words
between the bytes of the delimiter string.
-/

namespace HumanMachine.Client

/-- The bytes at which `strtok` cuts. -/
abbrev delimits (delim : Bytes) (byte : UInt8) : Bool :=
  byte ∈ delim

variable {delim text token rest : Bytes}

theorem strtok_eq_none (none : strtok delim text = none) : ∀ byte ∈ text, delimits delim byte = true := by
  rw [strtok] at none
  split at none
  · next behind => exact List.dropWhile_eq_nil_iff.mp behind
  · cases none

/-- A token stands behind delimiters and in front of one, or of nothing. -/
theorem strtok_eq_some (found : strtok delim text = some (token, rest)) :
    ∃ gap behind, text = gap ++ (token ++ behind) ∧ (∀ byte ∈ gap, delimits delim byte = true) ∧
      token ≠ [] ∧ (∀ byte ∈ token, delimits delim byte = false) ∧
      (behind = [] ∧ rest = [] ∨ ∃ byte, behind = byte :: rest ∧ delimits delim byte = true) := by
  rw [strtok] at found
  split at found
  · cases found
  · next first start behind =>
      rw [Option.some.injEq, Prod.mk.injEq] at found
      rcases found with ⟨rfl, rfl⟩
      have stops := List.head?_dropWhile_not (fun byte : UInt8 => decide (byte ∈ delim)) text
      rw [behind] at stops
      have taken : first ∉ delim := by simpa using stops
      refine ⟨text.takeWhile (· ∈ delim), (first :: start).dropWhile (· ∉ delim), ?_, ?_, ?_, ?_, ?_⟩
      · rw [List.takeWhile_append_dropWhile, ← behind, List.takeWhile_append_dropWhile]
      · exact fun byte mem => List.mem_takeWhile_imp mem
      · rw [List.takeWhile_cons_of_pos (by simpa using taken)]
        exact List.cons_ne_nil _ _
      · intro byte mem
        simpa using List.mem_takeWhile_imp mem
      · have cut := List.head?_dropWhile_not (fun byte : UInt8 => decide (byte ∉ delim))
          (first :: start)
        cases after : (first :: start).dropWhile (· ∉ delim) with
        | nil => exact Or.inl ⟨rfl, rfl⟩
        | cons byte more =>
            rw [after] at cut
            exact Or.inr ⟨byte, rfl, by simpa using cut⟩

theorem words_gap {gap : Bytes} (separates : ∀ byte ∈ gap, delimits delim byte = true)
    (text : Bytes) : words (delimits delim) (gap ++ text) = words (delimits delim) text :=
  (words_respaced (.before separates)).symm

/-- The loop around `strtok` collects the words. -/
theorem tokens_eq_words (delim text : Bytes) : tokens delim text = words (delimits delim) text := by
  induction length : text.length using Nat.strongRecOn generalizing text with
  | ind n ih =>
      cases found : strtok delim text with
      | none =>
          have nothing := words_gap (strtok_eq_none found) []
          rw [List.append_nil, words_nil] at nothing
          rw [nothing, tokens]
          cases text.length with
          | zero => rfl
          | succ turns => rw [splitLoop, found]
      | some parts =>
          rcases parts with ⟨token, rest⟩
          have shorter := length_lt_of_strtok found
          rw [tokens_of_strtok found, ih rest.length (by omega) rest rfl]
          rcases strtok_eq_some found with ⟨gap, behind, rfl, separates, nonempty, inside,
            ⟨rfl, rfl⟩ | ⟨byte, rfl, cuts⟩⟩
          · rw [words_gap separates, List.append_nil, words_of_single nonempty inside, words_nil]
          · rw [words_gap separates, words_append_cons _ cuts, words_of_single nonempty inside,
              List.singleton_append]

theorem split_eq_words {str delim : Bytes} (strText : 0 ∉ str) (delimText : 0 ∉ delim) :
    split str delim = words (delimits delim) str := by
  rw [split, cString_of_noNul strText, cString_of_noNul delimText, tokens_eq_words]
  split
  · next empty => rw [empty, words_nil]
  · rfl

/-- The tokens are the maximal runs of bytes outside of the delimiter string in their order,
however many delimiters stand around them. -/
structure SplitsIntoRuns (str delim : Bytes) : Prop where
  runs : ∃ runs : List (ℕ × Bytes), runs.map Prod.snd = split str delim ∧
    runs.Pairwise (fun run later => run.1 < later.1) ∧
    ∀ start run, (start, run) ∈ runs ↔ MaximalRun (delimits delim) str start run
  tokens : ∀ token ∈ split str delim, token ≠ [] ∧ ∀ byte ∈ token, byte ∉ delim
  spacing : ∀ other, 0 ∉ other → Relation.EqvGen (Respaced (delimits delim)) str other →
    split other delim = split str delim

theorem splitsIntoRuns {str delim : Bytes} (strText : 0 ∉ str) (delimText : 0 ∉ delim) :
    SplitsIntoRuns str delim := by
  constructor
  · rw [split_eq_words strText delimText]
    exact exists_maximalRuns (delimits delim) str
  · intro token mem
    rw [split_eq_words strText delimText] at mem
    have word := forall_mem_words str token mem
    exact ⟨word.1, fun byte among => by simpa using word.2 byte among⟩
  · intro other otherText respaced
    rw [split_eq_words strText delimText, split_eq_words otherText delimText]
    exact (words_eq_of_eqvGen respaced).symm

theorem splitsIntoRuns_container : SplitsIntoRuns (ascii "  a1  web ") (ascii " ") :=
  splitsIntoRuns (by decide) (by decide)

example : split (ascii "  a1  web ") (ascii " ") = [ascii "a1", ascii "web"] := by decide

end HumanMachine.Client
