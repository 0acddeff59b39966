import HumanMachine.Client.Resending

/-!
# The interval between snapshots

The loop sleeps at the end of a round. A round which takes `continue` skips that, so that
the next snapshot is taken at once, for as long as disk and memory info stay the same
and there is docker info.
-/

namespace HumanMachine.Client

/-- The loop sleeps for the interval between a snapshot and the next one. -/
def KeepsInterval (timeInterval : ℤ) (events : List monitor.Event) : Prop :=
  ∀ before location (first : Snapshot) between location' (next : Snapshot) after,
    events = before ++ ⟨.linuxCommand location, first⟩ ::
      (between ++ ⟨.linuxCommand location', next⟩ :: after) →
    snapshots between = [] → ⟨.sleep timeInterval, ()⟩ ∈ between

/-- The later snapshot makes the loop upload: disk or memory info is new, or there is no
docker info. -/
def Moves (earlier later : Json) : Prop :=
  ¬(Kept earlier later ∧ HasDocker later)

/-! ## Events around snapshots -/

variable {location location' : Bytes} {timeInterval : ℤ} {stores : Stores}
  {rounds : List (List monitor.Event)} {events : List monitor.Event}

theorem not_mem_of_snapshots_nil (none : snapshots events = []) (snapshot : Snapshot) :
    ⟨.linuxCommand location, snapshot⟩ ∉ events := by
  intro mem
  have listed : snapshot.root ∈ snapshots events := List.mem_filterMap.mpr ⟨_, mem, rfl⟩
  rw [none] at listed
  cases listed

theorem KeepsInterval.of_append {later : List monitor.Event}
    (keeps : KeepsInterval timeInterval (events ++ later)) : KeepsInterval timeInterval events := by
  intro before location first between location' next after split none
  refine keeps before location first between location' next (after ++ later) ?_ none
  rw [split]
  simp

/-- What stands behind the last snapshot is determined. -/
theorem behind_last_snapshot {before earlier between quiet : List monitor.Event}
    {first snapshot : Snapshot}
    (split : before ++ ⟨.linuxCommand location, first⟩ :: between =
      earlier ++ ⟨.linuxCommand location', snapshot⟩ :: quiet)
    (noneBetween : snapshots between = []) (noneQuiet : snapshots quiet = []) : between = quiet := by
  rcases List.append_eq_append_iff.mp split with ⟨middle, rfl, rest⟩ | ⟨middle, rfl, rest⟩
  · cases middle with
    | nil => exact (List.cons.inj rest).2
    | cons event middle =>
        rw [List.cons_append, List.cons.injEq] at rest
        rw [rest.2] at noneBetween
        exact absurd List.mem_append_cons_self (not_mem_of_snapshots_nil noneBetween snapshot)
  · cases middle with
    | nil => exact (List.cons.inj rest).2.symm
    | cons event middle =>
        rw [List.cons_append, List.cons.injEq] at rest
        rw [rest.2] at noneQuiet
        exact absurd List.mem_append_cons_self (not_mem_of_snapshots_nil noneQuiet first)

/-- One more snapshot asks for a sleep behind the one before it. -/
theorem keepsInterval_append_iff {earlier quiet later : List monitor.Event}
    {snapshot next : Snapshot} (noneQuiet : snapshots quiet = []) (noneLater : snapshots later = []) :
    KeepsInterval timeInterval ((earlier ++ ⟨.linuxCommand location, snapshot⟩ :: quiet) ++
        ⟨.linuxCommand location', next⟩ :: later) ↔
      KeepsInterval timeInterval (earlier ++ ⟨.linuxCommand location, snapshot⟩ :: quiet) ∧
        ⟨.sleep timeInterval, ()⟩ ∈ quiet := by
  constructor
  · intro keeps
    refine ⟨keeps.of_append, ?_⟩
    exact keeps earlier location snapshot quiet location' next later (by simp) noneQuiet
  · rintro ⟨keeps, slept⟩ before place first between place' other after split none
    have split : (earlier ++ ⟨.linuxCommand location, snapshot⟩ :: quiet) ++
        ⟨.linuxCommand location', next⟩ :: later =
          (before ++ ⟨.linuxCommand place, first⟩ :: between) ++
            ⟨.linuxCommand place', other⟩ :: after := by
      rw [split]
      simp
    rcases List.append_eq_append_iff.mp split with ⟨middle, inside, rest⟩ | ⟨middle, inside, rest⟩
    · cases middle with
      | nil =>
          rw [List.append_nil] at inside
          rw [behind_last_snapshot inside none noneQuiet]
          exact slept
      | cons event middle =>
          rw [List.cons_append, List.cons.injEq] at rest
          rw [rest.2] at noneLater
          exact absurd List.mem_append_cons_self (not_mem_of_snapshots_nil noneLater other)
    · cases middle with
      | nil =>
          rw [List.append_nil] at inside
          rw [behind_last_snapshot inside.symm none noneQuiet]
          exact slept
      | cons event middle =>
          rw [List.cons_append, List.cons.injEq] at rest
          rw [← rest.1] at inside
          exact keeps before place first between place' other middle (by rw [inside]; simp) none

theorem keepsInterval_single {snapshot : Snapshot} {later : List monitor.Event}
    (none : snapshots later = []) :
    KeepsInterval timeInterval (⟨.linuxCommand location, snapshot⟩ :: later) := by
  intro before place first between place' next after split _
  have mem : ⟨.linuxCommand place', next⟩ ∈ later := by
    cases before with
    | nil =>
        rw [List.nil_append, List.cons.injEq] at split
        simp [split.2]
    | cons event before =>
        rw [List.cons_append, List.cons.injEq] at split
        simp [split.2]
  exact absurd mem (not_mem_of_snapshots_nil none next)

/-! ## Rounds -/

/-- Whatever a round does, the stores then hold the disk and memory info of its snapshot. -/
theorem stores_hold_last_snapshot
    (run : Program.Rounds (timerRound location timeInterval) .initial rounds stores) {root : Json}
    (last : root ∈ (snapshots rounds.flatten).getLast?) : stores.Hold root := by
  cases run with
  | start => cases last
  | round earlier completes =>
      rw [List.flatten_append, List.flatten_singleton, snapshots_append] at last
      rcases timerRound_reports completes with ⟨snapshot, taken, ⟨same, _, rfl⟩ | ⟨_, _, rfl⟩⟩
      · rw [taken, List.getLast?_concat, Option.mem_some_iff] at last
        subst last
        simp only [Stores.unchanged, Bool.and_eq_true] at same
        exact ⟨Json.eq_of_eq_true same.1.1, Json.eq_of_eq_true same.1.2⟩
      · rw [taken, List.getLast?_concat, Option.mem_some_iff] at last
        subst last
        exact Stores.hold_stored _ _

/-- A completed round sleeps unless it takes `continue`. -/
theorem timerRound_sleeps {after : Stores}
    (completes : (timerRound location timeInterval stores).run.Follows events (.done (.ok after))) :
    ∃ (snapshot : Snapshot) (quiet : List monitor.Event),
      events = ⟨.linuxCommand location, snapshot⟩ :: quiet ∧ snapshots quiet = [] ∧
        (⟨.sleep timeInterval, ()⟩ ∈ quiet ↔ ¬stores.unchanged snapshot.root = true) := by
  rcases timerRound_completes completes with ⟨snapshot, ⟨same, _, rfl⟩ |
    ⟨changed, _, response, dockerImage, _, rfl⟩⟩
  · exact ⟨snapshot, [], rfl, rfl, by simp [same]⟩
  · refine ⟨snapshot, _, rfl, ?_, ?_⟩
    · rw [deployment]
      split <;> rfl
    · simp [changed]

theorem moves_iff_changed
    (run : Program.Rounds (timerRound location timeInterval) .initial rounds stores)
    (snapshot : Snapshot) :
    ¬stores.unchanged snapshot.root = true ↔
      ∀ previous ∈ (snapshots rounds.flatten).getLast?, Moves previous snapshot.root := by
  cases last : (snapshots rounds.flatten).getLast? with
  | some previous =>
      rw [(stores_hold_last_snapshot run last).unchanged_iff_kept]
      simp [Moves]
  | none =>
      have begun : rounds = [] := by
        cases run with
        | start => rfl
        | round earlier completes =>
            rcases timerRound_reports completes with ⟨first, taken, _⟩
            rw [List.flatten_append, List.flatten_singleton, snapshots_append, taken,
              List.getLast?_concat] at last
            cases last
      subst begun
      rw [run.eq_start]
      simp [Stores.initial_changed snapshot]

/-- The rounds and what has begun behind them keep the interval exactly if every snapshot with
another one behind it moves. -/
theorem keepsInterval_rounds_iff
    (run : Program.Rounds (timerRound location timeInterval) .initial rounds stores)
    {current : List monitor.Event}
    (opens : current = [] ∨ ∃ (snapshot : Snapshot) (later : List monitor.Event),
      current = ⟨.linuxCommand location, snapshot⟩ :: later ∧ snapshots later = []) :
    KeepsInterval timeInterval (rounds.flatten ++ current) ↔
      (snapshots (rounds.flatten ++ current)).dropLast.IsChain Moves := by
  induction run generalizing current with
  | start =>
      rcases opens with rfl | ⟨snapshot, later, rfl, none⟩
      · refine iff_of_true ?_ .nil
        intro before place first between place' next after split
        simp at split
      · have taken : snapshots (⟨.linuxCommand location, snapshot⟩ :: later) = [snapshot.root] :=
          congrArg (snapshot.root :: ·) none
        rw [List.flatten_nil, List.nil_append, taken]
        exact iff_of_true (keepsInterval_single none) .nil
  | @round middle after rounds events earlier completes ih =>
      rcases timerRound_sleeps completes with ⟨snapshot, quiet, rfl, none, sleeps⟩
      have before := ih (Or.inr ⟨snapshot, quiet, rfl, none⟩)
      rw [List.flatten_append, List.flatten_singleton]
      rcases opens with rfl | ⟨next, later, rfl, noneLater⟩
      · rw [List.append_nil]
        exact before
      · have taken : snapshots (⟨.linuxCommand location, snapshot⟩ :: quiet) = [snapshot.root] :=
          congrArg (snapshot.root :: ·) none
        have takenNext : snapshots (⟨.linuxCommand location, next⟩ :: later) = [next.root] :=
          congrArg (next.root :: ·) noneLater
        rw [keepsInterval_append_iff none noneLater, before, sleeps, moves_iff_changed earlier]
        simp only [snapshots_append, taken, takenNext, List.dropLast_concat, List.isChain_append,
          List.isChain_singleton, List.head?_cons, Option.mem_some_iff, forall_eq', true_and]

/-- In every run, the loop sleeps between any two consecutive snapshots exactly if each
snapshot with another one behind it differs from the one before it in disk or memory
info, or has no docker info. -/
theorem timerControl_keepsInterval_iff {bound : ℕ}
    {remaining : Program monitor (Except StdException Empty)}
    (follows : (timerControl bound location timeInterval).run.Follows events remaining) :
    KeepsInterval timeInterval events ↔ (snapshots events).dropLast.IsChain Moves := by
  rcases Program.follows_forever follows with ⟨rounds, stores, current, inside, rfl, run, last⟩
  apply keepsInterval_rounds_iff run
  rcases timerRound_opens last with none | ⟨snapshot, later, begun, taken, _⟩
  · exact Or.inl none
  · exact Or.inr ⟨snapshot, later, begun, taken⟩

/-! ### A quiet machine -/

/-- A snapshot is uploaded, the same one follows after the interval, and again at once. -/
def quietRounds : List (List monitor.Event) :=
  [[⟨.linuxCommand [], machineWith [.str "a"]⟩,
      ⟨.httpPost serverUrl (machineWith [.str "a"]).root, stored⟩, ⟨.sleep 60, ()⟩],
    [⟨.linuxCommand [], machineWith [.str "a"]⟩], [⟨.linuxCommand [], machineWith [.str "a"]⟩]]

theorem quietRounds_run : (timerControl 3 [] 60).run.Follows quietRounds.flatten
    (Program.forever (timerRound [] 60) 0
      (Stores.initial.stored (machineWith [.str "a"]).root)).run := by
  have first : (timerRound [] 60 .initial).run.Follows _ _ :=
    timerRound_uploads (Stores.initial_changed (machineWith [.str "a"]))
      (dockerImageOf_of_marker stored.fits stored_orders_nothing)
  rw [deployment, if_neg (not_not_intro rfl), List.nil_append] at first
  have same : (Stores.initial.stored (machineWith [.str "a"]).root).unchanged
      (machineWith [.str "a"]).root = true := by
    decide
  have again : (timerRound [] 60
      (Stores.initial.stored (machineWith [.str "a"]).root)).run.Follows _ _ :=
    timerRound_continues same
  exact (Program.Rounds.round (.round (.round .start first) again) again).follows 0

/-- The loop does not sleep between the second snapshot and the third. -/
theorem quietMachine_not_rested :
    ¬∀ bound location timeInterval events remaining,
      (timerControl bound location timeInterval).run.Follows events remaining →
      KeepsInterval timeInterval events := by
  intro keeps
  have slept := keeps _ _ _ _ _ quietRounds_run
    [⟨.linuxCommand [], machineWith [.str "a"]⟩,
      ⟨.httpPost serverUrl (machineWith [.str "a"]).root, stored⟩, ⟨.sleep 60, ()⟩]
    [] (machineWith [.str "a"]) [] [] (machineWith [.str "a"]) [] rfl rfl
  cases slept

theorem timerControl_keepsInterval_iff_quietRounds :
    KeepsInterval 60 quietRounds.flatten ↔ (snapshots quietRounds.flatten).dropLast.IsChain Moves :=
  timerControl_keepsInterval_iff quietRounds_run

end HumanMachine.Client
