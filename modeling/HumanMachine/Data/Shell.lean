import HumanMachine.Data.Bytes
import Mathlib.Algebra.BigOperators.Group.List.Basic

/-!
# How a shell reads a line

The token recognition of the POSIX shell, byte by byte, as far as it decides whether a line
is one simple command of literal words. A word which starts an expansion is marked and the
expansion is not followed. What POSIX leaves open is no such command: a dollar sign without a
name and a backslash at the end.
-/

namespace HumanMachine.Shell

def newline : UInt8 := 10
def doubleQuote : UInt8 := 34
def hash : UInt8 := 35
def quote : UInt8 := 39
def equals : UInt8 := 61
def backslash : UInt8 := 92
def tilde : UInt8 := 126

def isBlank (byte : UInt8) : Bool :=
  (ascii " \t").contains byte

/-- The bytes which start an operator. -/
def isOperator (byte : UInt8) : Bool :=
  (ascii "\n;&|()<>").contains byte

/-- The bytes which are expanded in an unquoted word, patterns included. -/
def isExpansion (byte : UInt8) : Bool :=
  (ascii "$`*?[").contains byte

/-- A word after the removal of its quotes. -/
structure Word where
  text : Bytes
  expands : Bool
  deriving DecidableEq

inductive Token where
  | word (word : Word)
  | operator (byte : UInt8)
  deriving DecidableEq

inductive Mode where
  | unquoted
  | escaped
  | single
  | double
  | doubleEscaped
  | comment
  deriving DecidableEq

structure State where
  mode : Mode
  /-- The word which is being read. -/
  pending : Option Word
  tokens : List Token
  deriving DecidableEq

namespace State

variable (state : State)

def word : Word :=
  state.pending.getD ⟨[], false⟩

/-- The byte goes into the word. -/
def add (byte : UInt8) (expands : Bool) : State :=
  { state with pending := some ⟨state.word.text ++ [byte], state.word.expands || expands⟩ }

/-- An unquoted byte without a meaning for the token recognition goes into the word. -/
def keep (byte : UInt8) : State :=
  state.add byte (isExpansion byte || state.pending.isNone && byte == tilde)

/-- The word ends. -/
def delimit : State :=
  { state with pending := none, tokens := state.tokens ++ (state.pending.map .word).toList }

def operator (byte : UInt8) : State :=
  { state with tokens := state.tokens ++ [.operator byte] }

def step (byte : UInt8) : State :=
  match state.mode with
  | .unquoted =>
      if byte = backslash then { state with mode := .escaped }
      else if byte = quote then { state with mode := .single, pending := some state.word }
      else if byte = doubleQuote then { state with mode := .double, pending := some state.word }
      else if isBlank byte then state.delimit
      else if isOperator byte then state.delimit.operator byte
      else if byte = hash ∧ state.pending = none then { state with mode := .comment }
      else state.keep byte
  | .escaped =>
      -- A line which is continued.
      if byte = newline then { state with mode := .unquoted }
      else { state.add byte false with mode := .unquoted }
  | .single =>
      if byte = quote then { state with mode := .unquoted } else state.add byte false
  | .double =>
      if byte = doubleQuote then { state with mode := .unquoted }
      else if byte = backslash then { state with mode := .doubleEscaped }
      else state.add byte ((ascii "$`").contains byte)
  | .doubleEscaped =>
      if byte = newline then { state with mode := .double }
      else if (ascii "$`\"\\").contains byte then { state.add byte false with mode := .double }
      else { (state.add backslash false).add byte false with mode := .double }
  | .comment =>
      if byte = newline then { state.operator newline with mode := .unquoted } else state

def run (line : Bytes) : State :=
  line.foldl step state

def start : State where
  mode := .unquoted
  pending := none
  tokens := []

end State

/-- The tokens of a line; there are none if a quotation does not end. -/
def tokens (line : Bytes) : Option (List Token) :=
  let state := State.start.run line
  match state.mode with
  | .unquoted => some state.delimit.tokens
  | .comment => some state.delimit.tokens
  | _ => none

/-- A word which stands for itself. -/
def literal (text : Bytes) : Token :=
  .word ⟨text, false⟩

def reservedWords : List Bytes :=
  ["!", "\x7b", "\x7d", "case", "do", "done", "elif", "else", "esac", "fi", "for", "if", "in",
    "then", "until", "while"].map ascii

/-- The word can be the name of a command; with an equals sign it is an assignment. -/
def IsName (word : Bytes) : Prop :=
  word ∉ reservedWords ∧ equals ∉ word

instance (word : Bytes) : Decidable (IsName word) :=
  inferInstanceAs (Decidable (_ ∧ _))

/-- The line is one simple command of these words, without expansions and redirections. -/
structure IsSimpleCommand (line : Bytes) (words : List Bytes) : Prop where
  tokens : ∃ newlines,
    tokens line = some (words.map literal ++ List.replicate newlines (.operator newline))
  name : ∃ name arguments, words = name :: arguments ∧ IsName name

/-! ## Words which are written as they are -/

/-- The byte stands for itself inside a word. -/
def isOrdinary (byte : UInt8) : Bool :=
  !(isBlank byte || isOperator byte || byte == backslash || byte == quote || byte == doubleQuote)

/-- A text which is a literal word as it stands. -/
structure Plain (text : Bytes) : Prop where
  nonempty : text ≠ []
  ordinary : ∀ byte ∈ text, isOrdinary byte ∧ ¬isExpansion byte
  start : ∀ byte, text.head? = some byte → byte ≠ hash ∧ byte ≠ tilde

/-! ## What a line loses -/

/-- The bytes in the words. -/
def textLength (tokens : List Token) : ℕ :=
  (tokens.map fun
    | .word word => word.text.length
    | .operator _ => 0).sum

theorem textLength_append (first second : List Token) :
    textLength (first ++ second) = textLength first + textLength second := by
  simp [textLength]

theorem textLength_literals (words : List Bytes) :
    textLength (words.map literal) = (words.map List.length).sum := by
  simp [textLength, literal, Function.comp_def]

theorem textLength_replicate_operator (n : ℕ) (byte : UInt8) :
    textLength (List.replicate n (.operator byte)) = 0 := by
  simp [textLength]

/-- A backslash inside double quotes may still turn out to be part of the word. -/
def Mode.held : Mode → ℕ
  | .doubleEscaped => 1
  | _ => 0

namespace State

variable {state : State}

/-- The bytes read so far which are in words. -/
def bare (state : State) : ℕ :=
  textLength state.tokens + state.word.text.length

@[simp]
theorem bare_mode (mode : Mode) : bare { state with mode := mode } = state.bare := rfl

@[simp]
theorem bare_open (mode : Mode) :
    bare { state with mode := mode, pending := some state.word } = state.bare := rfl

@[simp]
theorem bare_add (byte : UInt8) (expands : Bool) :
    (state.add byte expands).bare = state.bare + 1 := by
  simp [bare, add, word, Nat.add_assoc]

theorem textLength_delimit : textLength state.delimit.tokens = state.bare := by
  rw [bare, delimit, textLength_append]
  simp only [word]
  cases state.pending <;> simp [textLength]

@[simp]
theorem bare_delimit : state.delimit.bare = state.bare :=
  textLength_delimit

@[simp]
theorem bare_operator (byte : UInt8) : (state.operator byte).bare = state.bare := by
  rw [bare, operator, textLength_append]
  rfl

@[simp]
theorem mode_add (byte : UInt8) (expands : Bool) : (state.add byte expands).mode = state.mode := rfl

@[simp]
theorem mode_delimit : state.delimit.mode = state.mode := rfl

@[simp]
theorem mode_operator (byte : UInt8) : (state.operator byte).mode = state.mode := rfl

/-- The bytes which are in words, and the one which may still come into one. -/
def weight (state : State) : ℕ :=
  state.bare + state.mode.held

/-- A byte adds at most itself. -/
theorem weight_step_le (state : State) (byte : UInt8) :
    (state.step byte).weight ≤ state.weight + 1 := by
  rw [weight, weight, step]
  cases is : state.mode <;> dsimp only <;> split_ifs <;> simp [Mode.held, keep, is]
  omega

theorem weight_run_le (state : State) (line : Bytes) :
    (state.run line).weight ≤ state.weight + line.length := by
  induction line generalizing state with
  | nil => exact Nat.le_refl _
  | cons byte line ih =>
      have first := weight_step_le state byte
      have rest := ih (state.step byte)
      rw [List.length_cons]
      exact rest.trans (by omega)

/-- Outside of quotes a byte is not lost only if it goes into the word as it is. -/
theorem step_of_weight {byte : UInt8} (unquoted : state.mode = .unquoted)
    (full : (state.step byte).weight = state.weight + 1) :
    isOrdinary byte ∧ ¬(byte = hash ∧ state.pending = none) ∧ state.step byte = state.keep byte := by
  rw [weight, weight, step, unquoted] at full
  rw [step, unquoted]
  dsimp only at full ⊢
  split_ifs at full ⊢ with isBackslash isQuote isDoubleQuote isBlank isOperator isHash
  · simp [Mode.held] at full
  · simp [Mode.held] at full
  · simp [Mode.held] at full
  · simp [Mode.held, unquoted] at full
  · simp [Mode.held, unquoted] at full
  · simp [Mode.held] at full
  · refine ⟨?_, isHash, rfl⟩
    simp [isOrdinary, isBackslash, isQuote, isDoubleQuote, isBlank, isOperator]

theorem step_of_ordinary {byte : UInt8} (unquoted : state.mode = .unquoted)
    (ordinary : isOrdinary byte) (inside : ¬(byte = hash ∧ state.pending = none)) :
    state.step byte = state.keep byte := by
  simp only [isOrdinary, Bool.not_eq_true', Bool.or_eq_false_iff, beq_eq_false_iff_ne] at ordinary
  rcases ordinary with ⟨⟨⟨⟨notBlank, notOperator⟩, notBackslash⟩, notQuote⟩, notDoubleQuote⟩
  rw [step, unquoted]
  simp [notBackslash, notQuote, notDoubleQuote, notBlank, notOperator, inside]

theorem pending_keep (byte : UInt8) : (state.keep byte).pending ≠ none := by
  simp [keep, add]

theorem run_of_ordinary {line : Bytes} (unquoted : state.mode = .unquoted)
    (ordinary : ∀ byte ∈ line, isOrdinary byte)
    (inside : state.pending = none → line.head? ≠ some hash) :
    state.run line = line.foldl keep state := by
  induction line generalizing state with
  | nil => rfl
  | cons byte line ih =>
      rw [List.forall_mem_cons] at ordinary
      have notHash : ¬(byte = hash ∧ state.pending = none) :=
        fun both => inside both.2 (congrArg some both.1)
      have kept := step_of_ordinary unquoted ordinary.1 notHash
      rw [run, List.foldl_cons, List.foldl_cons, kept]
      exact ih unquoted ordinary.2 fun none => absurd none (pending_keep byte)

/-- Outside of quotes a line is not shortened only if it is one word as it stands. -/
theorem run_of_weight {line : Bytes} (unquoted : state.mode = .unquoted)
    (full : (state.run line).weight = state.weight + line.length) :
    (∀ byte ∈ line, isOrdinary byte) ∧ (state.pending = none → line.head? ≠ some hash) ∧
      state.run line = line.foldl keep state := by
  induction line generalizing state with
  | nil => exact ⟨by simp, by simp, rfl⟩
  | cons byte line ih =>
      have one := weight_step_le state byte
      have rest := weight_run_le (state.step byte) line
      rw [List.length_cons] at full
      have next : state.run (byte :: line) = (state.step byte).run line := rfl
      rw [next] at full ⊢
      have stepFull : (state.step byte).weight = state.weight + 1 := by omega
      rcases step_of_weight unquoted stepFull with ⟨ordinary, notHash, kept⟩
      rw [kept] at full stepFull ⊢
      have still : (state.keep byte).mode = .unquoted := unquoted
      have restFull : ((state.keep byte).run line).weight =
          (state.keep byte).weight + line.length := by omega
      rcases ih still restFull with ⟨others, _, runs⟩
      refine ⟨List.forall_mem_cons.mpr ⟨ordinary, others⟩, ?_, runs⟩
      intro none isHash
      exact notHash ⟨Option.some.inj isHash, none⟩

theorem foldl_keep {word : Word} (pending : state.pending = some word) (line : Bytes) :
    line.foldl keep state = { state with
      pending := some ⟨word.text ++ line, word.expands || line.any isExpansion⟩ } := by
  induction line generalizing state word with
  | nil =>
      rcases state with ⟨mode, _, tokens⟩
      cases pending
      simp
  | cons byte line ih =>
      have kept : (state.keep byte).pending =
          some ⟨word.text ++ [byte], word.expands || isExpansion byte⟩ := by
        simp [keep, add, State.word, pending]
      rw [List.foldl_cons, ih kept]
      simp [keep, add, Bool.or_assoc]

/-- Bytes which are kept from the start of a word on. -/
theorem foldl_keep_start (unstarted : state.pending = none) (byte : UInt8) (line : Bytes) :
    (byte :: line).foldl keep state = { state with
      pending := some ⟨byte :: line, byte == tilde || (byte :: line).any isExpansion⟩ } := by
  have kept : (state.keep byte).pending = some ⟨[byte], isExpansion byte || byte == tilde⟩ := by
    simp [keep, add, State.word, unstarted]
  rw [List.foldl_cons, foldl_keep kept]
  simp [keep, add, Bool.or_comm, Bool.or_left_comm]

end State

/-! ## A text as the last word -/

theorem tokens_of_run {line : Bytes} {state : State} (runs : State.start.run line = state)
    {all : List Token} (read : tokens line = some all) :
    all = state.delimit.tokens ∧ state.weight = textLength all := by
  simp only [tokens, runs] at read
  cases is : state.mode <;> rw [is] at read <;> cases read <;>
    exact ⟨rfl, by simp [State.weight, is, Mode.held, State.textLength_delimit]⟩

theorem State.run_append (state : State) (first second : Bytes) :
    state.run (first ++ second) = (state.run first).run second :=
  List.foldl_append

/-- Between two words, after these words. -/
def State.after (words : List Bytes) : State where
  mode := .unquoted
  pending := none
  tokens := words.map literal

theorem State.weight_after (words : List Bytes) :
    (after words).weight = (words.map List.length).sum := by
  simp [weight, bare, after, word, Mode.held, textLength_literals]

theorem expands_eq_false {words : List Bytes} {word : Word} {text : Bytes} {newlines : ℕ}
    (same : words.map literal ++ [.word word] =
      (words ++ [text]).map literal ++ List.replicate newlines (.operator newline)) :
    word.expands = false := by
  rw [List.map_append, List.append_assoc, List.append_cancel_left_eq, List.map_singleton,
    List.singleton_append, List.cons.injEq, literal, Token.word.injEq] at same
  rw [same.1]

/-- A text is read as one more literal word of a simple command exactly if it is plain. -/
theorem isSimpleCommand_append_iff {before : Bytes} {words : List Bytes}
    (read : State.start.run before = State.after words)
    (named : ∃ name arguments, words = name :: arguments ∧ IsName name) (text : Bytes) :
    IsSimpleCommand (before ++ text) (words ++ [text]) ↔ Plain text := by
  have runs : State.start.run (before ++ text) = (State.after words).run text := by
    rw [State.run_append, read]
  constructor
  · rintro ⟨⟨newlines, isCommand⟩, -⟩
    rcases tokens_of_run runs isCommand with ⟨all, length⟩
    have full : ((State.after words).run text).weight =
        (State.after words).weight + text.length := by
      rw [length, textLength_append, textLength_replicate_operator, textLength_literals,
        State.weight_after]
      simp
    rcases State.run_of_weight rfl full with ⟨ordinary, start, kept⟩
    rw [kept] at all
    cases text with
    | nil => simp [State.delimit, State.after] at all
    | cons byte rest =>
        rw [State.foldl_keep_start rfl] at all
        have literally : (byte == tilde || (byte :: rest).any isExpansion) = false :=
          expands_eq_false all.symm
        rw [Bool.or_eq_false_iff, List.any_eq_false, beq_eq_false_iff_ne] at literally
        refine ⟨List.cons_ne_nil _ _, fun other mem => ⟨ordinary other mem, literally.2 other mem⟩, ?_⟩
        intro first isFirst
        cases isFirst
        exact ⟨fun isHash => start rfl (congrArg some isHash), literally.1⟩
  · rintro ⟨nonempty, ordinary, start⟩
    rcases List.exists_cons_of_ne_nil nonempty with ⟨byte, rest, rfl⟩
    have first := start byte rfl
    have kept : (State.after words).run (byte :: rest) = _ :=
      State.run_of_ordinary rfl (fun other mem => (ordinary other mem).1)
        fun _ isHash => first.1 (Option.some.inj isHash)
    have literally : (byte == tilde || (byte :: rest).any isExpansion) = false := by
      rw [Bool.or_eq_false_iff, List.any_eq_false, beq_eq_false_iff_ne]
      exact ⟨first.2, fun other mem => (ordinary other mem).2⟩
    rw [State.foldl_keep_start rfl, literally] at kept
    rcases named with ⟨name, arguments, rfl, isName⟩
    refine ⟨⟨0, ?_⟩, name, arguments ++ [byte :: rest], rfl, isName⟩
    rw [tokens, runs, kept]
    simp [State.after, State.delimit, literal]

example : tokens (ascii "docker pull 'a b' \"$c\" # d") = some [literal (ascii "docker"),
    literal (ascii "pull"), literal (ascii "a b"), .word ⟨ascii "$c", true⟩] := by
  decide +kernel

end HumanMachine.Shell
