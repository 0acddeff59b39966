import HumanMachine.Program.Loop
import Mathlib.Data.List.Infix

/-!
# Threads started by a program

Some exchanges of a main program start threads, which are numbered in the order of their
start. From then on each of them takes its turns in between. What the main program has done
so far is a run of its own, and so is what each thread has done
(`ThreadRun.follows_main`, `ThreadRun.exists_left`); no thread takes a turn before it was started
(`ThreadRun.started_before`).
-/

namespace HumanMachine.Program

variable {I J : Interface} {α β : Type}

structure Threads (I J : Interface) (α β : Type) where
  main : Program I α
  started : List (Program J β)

inductive Turn (I J : Interface) where
  | main (event : I.Event)
  | thread (n : ℕ) (event : J.Event)

def mainEvents (turns : List (Turn I J)) : List I.Event :=
  turns.filterMap fun
    | .main event => some event
    | .thread _ _ => none

def threadEvents (n : ℕ) (turns : List (Turn I J)) : List J.Event :=
  turns.filterMap fun
    | .main _ => none
    | .thread m event => if m = n then some event else none

/-- A run with the turns that were taken; `starts` is the thread which an exchange starts. -/
inductive ThreadRun (starts : I.Event → Option (Program J β)) :
    Threads I J α β → List (Turn I J) → Threads I J α β → Prop where
  | refl (threads : Threads I J α β) : ThreadRun starts threads [] threads
  | main {command : I.Command} {answer : I.Answer command} {next : I.Answer command → Program I α}
      {started : List (Program J β)} {turns : List (Turn I J)} {last : Threads I J α β}
      (rest : ThreadRun starts
        ⟨next answer, started ++ (starts ⟨command, answer⟩).toList⟩ turns last) :
      ThreadRun starts ⟨.call command next, started⟩ (.main ⟨command, answer⟩ :: turns) last
  | thread {n : ℕ} {command : J.Command} {answer : J.Answer command}
      {next : J.Answer command → Program J β} {main : Program I α} {started : List (Program J β)}
      {turns : List (Turn I J)} {last : Threads I J α β}
      (turn : started[n]? = some (.call command next))
      (rest : ThreadRun starts ⟨main, started.set n (next answer)⟩ turns last) :
      ThreadRun starts ⟨main, started⟩ (.thread n ⟨command, answer⟩ :: turns) last

variable {starts : I.Event → Option (Program J β)} {first last : Threads I J α β}
  {turns before after : List (Turn I J)}

theorem ThreadRun.trans {middle : Threads I J α β} (head : ThreadRun starts first before middle)
    (tail : ThreadRun starts middle after last) : ThreadRun starts first (before ++ after) last := by
  induction head with
  | refl threads => exact tail
  | main rest ih => exact .main (ih tail)
  | thread turn rest ih => exact .thread turn (ih tail)

theorem ThreadRun.follows_main (run : ThreadRun starts first turns last) :
    Follows first.main (mainEvents turns) last.main := by
  induction run with
  | refl threads => exact .refl _
  | main rest ih => exact .step ih
  | thread turn rest ih => exact ih

/-- All threads with what they were started with, whether at first or in the run. -/
def allStarted (starts : I.Event → Option (Program J β)) (first : Threads I J α β)
    (turns : List (Turn I J)) : List (Program J β) :=
  first.started ++ (mainEvents turns).filterMap starts

theorem ThreadRun.length_started (run : ThreadRun starts first turns last) :
    last.started.length = (allStarted starts first turns).length := by
  induction run with
  | refl threads => simp [allStarted, mainEvents]
  | @main command answer next started turns last rest ih =>
      rw [ih]
      cases begun : starts ⟨command, answer⟩ <;>
        simp [allStarted, mainEvents, begun, Nat.add_comm]
  | thread turn rest ih =>
      rw [ih]
      simp [allStarted, mainEvents]

theorem ThreadRun.exists_left (run : ThreadRun starts first turns last) {n : ℕ} {program : Program J β}
    (listed : (allStarted starts first turns)[n]? = some program) :
    ∃ left, last.started[n]? = some left ∧ Follows program (threadEvents n turns) left := by
  induction run generalizing program with
  | refl threads =>
      have same : allStarted starts threads [] = threads.started := List.append_nil _
      rw [same] at listed
      exact ⟨program, listed, .refl _⟩
  | @main command answer next started turns last rest ih =>
      apply ih
      rw [← listed]
      cases begun : starts ⟨command, answer⟩ <;> simp [allStarted, mainEvents, begun]
  | @thread m command answer next main started turns last turn rest ih =>
      have inRange : m < started.length := (List.getElem?_eq_some_iff.mp turn).1
      by_cases same : m = n
      · subst m
        have atStart : allStarted starts ⟨main, started⟩ (.thread n ⟨command, answer⟩ :: turns) =
            started ++ (mainEvents turns).filterMap starts := rfl
        rw [atStart, List.getElem?_append_left inRange, turn, Option.some.injEq] at listed
        subst listed
        have goesOn : (allStarted starts ⟨main, started.set n (next answer)⟩ turns)[n]? =
            some (next answer) := by
          rw [allStarted, List.getElem?_append_left (by rwa [List.length_set]),
            List.getElem?_set_self inRange]
        rcases ih goesOn with ⟨left, stands, follows⟩
        refine ⟨left, stands, ?_⟩
        have events : threadEvents n (.thread n ⟨command, answer⟩ :: turns) =
            ⟨command, answer⟩ :: threadEvents n turns := by
          simp [threadEvents]
        rw [events]
        exact .step follows
      · have events : threadEvents n (.thread m ⟨command, answer⟩ :: turns) =
            threadEvents n turns := by
          simp [threadEvents, same]
        rw [events]
        apply ih
        rw [← listed, allStarted, allStarted, List.getElem?_append, List.getElem?_append]
        simp [mainEvents, same]

theorem ThreadRun.lt_length {n : ℕ} {event : J.Event} (run : ThreadRun starts first turns last)
    (taken : .thread n event ∈ turns) : n < last.started.length := by
  induction run with
  | refl threads => cases taken
  | main rest ih =>
      apply ih
      simpa using taken
  | @thread m command answer next main started turns last turn rest ih =>
      rcases List.mem_cons.mp taken with here | later
      · cases here
        rw [rest.length_started, allStarted, List.length_append, List.length_set]
        exact Nat.lt_add_right _ (List.getElem?_eq_some_iff.mp turn).1
      · exact ih later

theorem ThreadRun.threadEvents_of_length_le {n : ℕ} (run : ThreadRun starts first turns last)
    (few : last.started.length ≤ n) : threadEvents n turns = [] := by
  rw [threadEvents, List.filterMap_eq_nil_iff]
  intro turn taken
  cases turn with
  | main event => rfl
  | thread m event =>
      have inRange := run.lt_length taken
      exact if_neg (by omega)

theorem ThreadRun.of_append (run : ThreadRun starts first (before ++ after) last) :
    ∃ middle, ThreadRun starts first before middle ∧ ThreadRun starts middle after last := by
  induction before generalizing first with
  | nil => exact ⟨first, .refl _, run⟩
  | cons turn before ih =>
      cases run with
      | main rest =>
          rcases ih rest with ⟨middle, head, tail⟩
          exact ⟨middle, .main head, tail⟩
      | thread turn rest =>
          rcases ih rest with ⟨middle, head, tail⟩
          exact ⟨middle, .thread turn head, tail⟩

/-- A thread was started before its turn, and waits for this answer then. -/
theorem ThreadRun.started_before {n : ℕ} {command : J.Command} {answer : J.Answer command}
    (run : ThreadRun starts first (before ++ .thread n ⟨command, answer⟩ :: after) last) :
    ∃ program next, (allStarted starts first before)[n]? = some program ∧
      Follows program (threadEvents n before) (.call command next) := by
  rcases run.of_append with ⟨middle, head, tail⟩
  cases tail with
  | @thread _ _ _ next main started _ _ turn rest =>
      have inRange : n < (allStarted starts first before).length := by
        rw [← head.length_started]
        exact (List.getElem?_eq_some_iff.mp turn).1
      refine ⟨_, next, List.getElem?_eq_getElem inRange, ?_⟩
      rcases head.exists_left (List.getElem?_eq_getElem inRange) with ⟨left, stands, follows⟩
      rw [turn, Option.some.injEq] at stands
      rwa [stands]

/-- A run of the main program alone. -/
theorem Follows.threadRun {program left : Program I α} {events : List I.Event}
    (follows : Follows program events left) (started : List (Program J β)) :
    ThreadRun starts ⟨program, started⟩ (events.map .main)
      ⟨left, started ++ events.filterMap starts⟩ := by
  induction follows generalizing started with
  | refl program =>
      rw [List.filterMap_nil, List.append_nil]
      exact .refl _
  | @step command next answer events program rest ih =>
      have run := ih (started ++ (starts ⟨command, answer⟩).toList)
      rw [List.append_assoc] at run
      have all : (starts ⟨command, answer⟩).toList ++ events.filterMap starts =
          (⟨command, answer⟩ :: events : List I.Event).filterMap starts := by
        cases begun : starts ⟨command, answer⟩ <;> simp [begun]
      rw [all] at run
      exact .main run

/-- Where an entry of a filtered list comes from. -/
theorem exists_split_of_filterMap {γ δ : Type} {f : γ → Option δ} {list : List γ} {n : ℕ} {value : δ}
    (listed : (list.filterMap f)[n]? = some value) :
    ∃ earlier entry later, list = earlier ++ entry :: later ∧ f entry = some value ∧
      (earlier.filterMap f).length = n := by
  induction list generalizing n with
  | nil => simp at listed
  | cons entry list ih =>
      cases kept : f entry with
      | none =>
          rw [List.filterMap_cons_none kept] at listed
          rcases ih listed with ⟨earlier, other, later, rfl, isValue, position⟩
          refine ⟨entry :: earlier, other, later, rfl, isValue, ?_⟩
          rwa [List.filterMap_cons_none kept]
      | some first =>
          rw [List.filterMap_cons_some kept] at listed
          cases n with
          | zero =>
              rw [List.getElem?_cons_zero, Option.some.injEq] at listed
              exact ⟨[], entry, list, rfl, listed ▸ kept, rfl⟩
          | succ n =>
              rw [List.getElem?_cons_succ] at listed
              rcases ih listed with ⟨earlier, other, later, rfl, isValue, position⟩
              refine ⟨entry :: earlier, other, later, rfl, isValue, ?_⟩
              rw [List.filterMap_cons_some kept, List.length_cons, position]

end HumanMachine.Program
