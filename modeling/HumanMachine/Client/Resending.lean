import HumanMachine.Client.Reporting

/-!
# When the monitor loop uploads again

The first two branches of the comparison with the stores both ask for docker info, so
that a snapshot without docker info always reaches an upload, also when the last
upload had the same disk and memory info and no docker info either.

A snapshot without docker info is uploaded and then stays the last upload as long as
the snapshots after it have docker info and keep its disk and memory info. The next
snapshot without docker info which keeps them too is an upload without a change, and
there are no others.
-/

namespace HumanMachine.Client

/-- Disk and memory info are equal. -/
structure Kept (earlier later : Json) : Prop where
  disk : (earlier.get "disk info").eq (later.get "disk info") = true
  memory : (earlier.get "memory info").eq (later.get "memory info") = true

/-- Docker info is equal, where its absence counts as a value. -/
def SameDocker (earlier later : Json) : Prop :=
  match earlier.member? "docker info", later.member? "docker info" with
  | none, none => True
  | some before, some after => before.eq after = true
  | _, _ => False

/-- Nothing which is to be reported differs. -/
structure Unchanged (uploaded root : Json) : Prop extends Kept uploaded root where
  docker : SameDocker uploaded root

abbrev HasDocker (root : Json) : Prop :=
  root.isMember "docker info" = true

/-- These snapshots have docker info and keep disk and memory info. -/
def OnlyDocker (first : Json) (between : List Json) : Prop :=
  ∀ root ∈ between, Kept first root ∧ HasDocker root

/-- Two snapshots without docker info, with nothing but docker info in between, and
with the same disk and memory info throughout. -/
def StaysWithoutDocker (taken : List Json) : Prop :=
  ∃ first between next, first :: (between ++ [next]) <:+: taken ∧ ¬HasDocker first ∧
    OnlyDocker first between ∧ Kept first next ∧ ¬HasDocker next

theorem onlyDocker_concat {first root : Json} {between : List Json} :
    OnlyDocker first (between ++ [root]) ↔
      OnlyDocker first between ∧ Kept first root ∧ HasDocker root := by
  simp only [OnlyDocker, List.mem_append, List.mem_singleton, or_imp, forall_and, forall_eq]
  tauto

theorem StaysWithoutDocker.append {taken : List Json} (stays : StaysWithoutDocker taken)
    (more : List Json) : StaysWithoutDocker (taken ++ more) := by
  rcases stays with ⟨first, between, next, within, rest⟩
  exact ⟨first, between, next, within.trans (List.prefix_append _ _).isInfix, rest⟩

theorem staysWithoutDocker_concat {taken : List Json} {root : Json} :
    StaysWithoutDocker (taken ++ [root]) ↔ StaysWithoutDocker taken ∨
      ∃ first between, first :: between <:+ taken ∧ ¬HasDocker first ∧
        OnlyDocker first between ∧ Kept first root ∧ ¬HasDocker root := by
  constructor
  · rintro ⟨first, between, next, within, bare, quiet, kept, nextBare⟩
    rw [List.infix_concat_iff, List.suffix_concat_iff] at within
    rcases within with (impossible | ⟨front, same, suffix⟩) | within
    · cases impossible
    · rw [← List.cons_append] at same
      rcases List.append_inj' same rfl with ⟨rfl, sameLast⟩
      cases sameLast
      exact Or.inr ⟨first, between, suffix, bare, quiet, kept, nextBare⟩
    · exact Or.inl ⟨first, between, next, within, bare, quiet, kept, nextBare⟩
  · rintro (stays | ⟨first, between, suffix, bare, rest⟩)
    · exact stays.append [root]
    · refine ⟨first, between, root, ?_, bare, rest⟩
      rw [List.infix_concat_iff, List.suffix_concat_iff]
      exact Or.inl (Or.inr ⟨first :: between, rfl, suffix⟩)

variable {location : Bytes} {timeInterval : ℤ} {stores : Stores}
  {rounds : List (List monitor.Event)} {events : List monitor.Event}

theorem Stores.Hold.unchanged_iff_kept {uploaded root : Json} (hold : stores.Hold uploaded) :
    stores.unchanged root = true ↔ Kept uploaded root ∧ HasDocker root := by
  rw [hold.unchanged_iff]
  constructor
  · rintro ⟨disk, memory, docker⟩
    exact ⟨⟨disk, memory⟩, docker⟩
  · rintro ⟨⟨disk, memory⟩, docker⟩
    exact ⟨disk, memory, docker⟩

theorem hold_of_last_upload
    (run : Program.Rounds (timerRound location timeInterval) .initial rounds stores)
    {uploaded : Json} (last : (uploads rounds.flatten).getLast? = some uploaded) :
    stores.Hold uploaded := by
  have begun : rounds ≠ [] := by
    rintro rfl
    simp [uploads] at last
  rcases stores_hold_last_upload run begun with ⟨uploaded', last', hold⟩
  rw [last, Option.some_inj] at last'
  rw [last']
  exact hold

theorem Stores.hasDocker_of_unchanged {root : Json} (same : stores.unchanged root = true) :
    HasDocker root := by
  simp only [Stores.unchanged, Bool.and_eq_true] at same
  exact same.2

theorem rounds_report (rounds : List (List monitor.Event)) {after : Stores}
    (completes : (timerRound location timeInterval stores).run.Follows events (.done (.ok after))) :
    ∃ snapshot : Snapshot,
      snapshots (rounds ++ [events]).flatten = snapshots rounds.flatten ++ [snapshot.root] ∧
      (stores.unchanged snapshot.root = true ∧
          uploads (rounds ++ [events]).flatten = uploads rounds.flatten ∨
        ¬stores.unchanged snapshot.root = true ∧
          uploads (rounds ++ [events]).flatten = uploads rounds.flatten ++ [snapshot.root]) := by
  rcases timerRound_reports completes with ⟨snapshot, taken, decision⟩
  refine ⟨snapshot, ?_, ?_⟩
  · rw [List.flatten_append, List.flatten_singleton, snapshots_append, taken]
  · rw [List.flatten_append, List.flatten_singleton, uploads_append]
    rcases decision with ⟨same, none, _⟩ | ⟨changed, sent, _⟩
    · exact Or.inl ⟨same, by simp [none]⟩
    · exact Or.inr ⟨changed, by simp [sent]⟩

/-- Since the last upload there were only snapshots with docker info which keep its disk
and memory info. -/
theorem since_last_upload
    (run : Program.Rounds (timerRound location timeInterval) .initial rounds stores)
    {uploaded : Json} (last : (uploads rounds.flatten).getLast? = some uploaded) :
    ∃ between, uploaded :: between <:+ snapshots rounds.flatten ∧ OnlyDocker uploaded between := by
  induction run with
  | start => simp [uploads] at last
  | @round middle after rounds events earlier completes ih =>
      rcases rounds_report rounds completes with
        ⟨snapshot, taken, ⟨same, sent⟩ | ⟨_, sent⟩⟩
      · rw [sent] at last
        rcases ih last with ⟨between, suffix, quiet⟩
        have kept := (hold_of_last_upload earlier last).unchanged_iff_kept.mp same
        refine ⟨between ++ [snapshot.root], ?_, onlyDocker_concat.mpr ⟨quiet, kept⟩⟩
        rw [taken, List.suffix_concat_iff]
        exact Or.inr ⟨uploaded :: between, rfl, suffix⟩
      · rw [sent, List.getLast?_concat, Option.some_inj] at last
        subst last
        refine ⟨[], ?_, by simp [OnlyDocker]⟩
        rw [taken]
        exact List.suffix_append _ _

/-- A snapshot without docker info stays the last upload while there are only snapshots
with docker info which keep its disk and memory info. -/
theorem last_upload_of_onlyDocker
    (run : Program.Rounds (timerRound location timeInterval) .initial rounds stores)
    {first : Json} {between : List Json} (suffix : first :: between <:+ snapshots rounds.flatten)
    (bare : ¬HasDocker first) (quiet : OnlyDocker first between) :
    (uploads rounds.flatten).getLast? = some first := by
  induction run generalizing between with
  | start => simp [snapshots] at suffix
  | @round middle after rounds events earlier completes ih =>
      rcases rounds_report rounds completes with ⟨snapshot, taken, decision⟩
      rw [taken, List.suffix_concat_iff] at suffix
      rcases suffix with impossible | ⟨front, same, suffix⟩
      · cases impossible
      rcases List.eq_nil_or_concat between with rfl | ⟨between, root, rfl⟩
      · rw [List.singleton_eq_append_iff] at same
        rcases same with ⟨rfl, same⟩ | ⟨_, impossible⟩
        · rw [List.singleton_inj] at same
          subst same
          rcases decision with ⟨continued, _⟩ | ⟨_, sent⟩
          · exact absurd (Stores.hasDocker_of_unchanged continued) bare
          · rw [sent, List.getLast?_concat]
        · cases impossible
      · rw [List.concat_eq_append] at same quiet
        rw [← List.cons_append] at same
        rcases List.append_inj' same rfl with ⟨rfl, sameLast⟩
        rw [List.singleton_inj] at sameLast
        subst sameLast
        rcases onlyDocker_concat.mp quiet with ⟨earlierQuiet, kept⟩
        have last := ih suffix earlierQuiet
        have unchanged := (hold_of_last_upload earlier last).unchanged_iff_kept.mpr kept
        rcases decision with ⟨_, sent⟩ | ⟨changed, _⟩
        · rw [sent, last]
        · exact absurd unchanged changed

/-- An upload repeats the last one exactly when the machine had no containers then, has
none now, and nothing else has changed. -/
theorem unchanged_upload_iff
    (run : Program.Rounds (timerRound location timeInterval) .initial rounds stores)
    {uploaded root : Json} (last : (uploads rounds.flatten).getLast? = some uploaded)
    (changed : ¬stores.unchanged root = true) :
    Unchanged uploaded root ↔ ∃ first between, first :: between <:+ snapshots rounds.flatten ∧
      ¬HasDocker first ∧ OnlyDocker first between ∧ Kept first root ∧ ¬HasDocker root := by
  have bareOfKept : Kept uploaded root → ¬HasDocker root := by
    intro kept docker
    exact changed ((hold_of_last_upload run last).unchanged_iff_kept.mpr ⟨kept, docker⟩)
  constructor
  · intro same
    have bare := bareOfKept same.toKept
    have uploadedBare : ¬HasDocker uploaded := by
      intro docker
      have sameDocker := same.docker
      rcases Option.isSome_iff_exists.mp docker with ⟨value, found⟩
      simp only [Json.isMember, Bool.not_eq_true, Option.isSome_eq_false_iff,
        Option.isNone_iff_eq_none] at bare
      simp [SameDocker, found, bare] at sameDocker
    rcases since_last_upload run last with ⟨between, suffix, quiet⟩
    exact ⟨uploaded, between, suffix, uploadedBare, quiet, same.toKept, bare⟩
  · rintro ⟨first, between, suffix, firstBare, quiet, kept, bare⟩
    have lastFirst := last_upload_of_onlyDocker run suffix firstBare quiet
    rw [last, Option.some_inj] at lastFirst
    subst lastFirst
    refine ⟨kept, ?_⟩
    simp only [HasDocker, Json.isMember, Bool.not_eq_true, Option.isSome_eq_false_iff,
      Option.isNone_iff_eq_none] at firstBare bare
    simp [SameDocker, firstBare, bare]

def EveryUploadDiffers (sent : List Json) : Prop :=
  sent.IsChain fun uploaded root => ¬Unchanged uploaded root

theorem everyUploadDiffers_concat {sent : List Json} {root : Json} :
    EveryUploadDiffers (sent ++ [root]) ↔
      EveryUploadDiffers sent ∧ ∀ uploaded, sent.getLast? = some uploaded →
        ¬Unchanged uploaded root := by
  simp [EveryUploadDiffers, List.isChain_append]

theorem everyUploadDiffers_upload_iff
    (run : Program.Rounds (timerRound location timeInterval) .initial rounds stores)
    {root : Json} (changed : ¬stores.unchanged root = true)
    (before : EveryUploadDiffers (uploads rounds.flatten) ↔
      ¬StaysWithoutDocker (snapshots rounds.flatten)) :
    EveryUploadDiffers (uploads rounds.flatten ++ [root]) ↔
      ¬StaysWithoutDocker (snapshots rounds.flatten ++ [root]) := by
  rw [everyUploadDiffers_concat, staysWithoutDocker_concat, not_or, before]
  apply and_congr_right
  intro _
  rcases List.eq_nil_or_concat rounds with rfl | ⟨earlier, latest, rfl⟩
  · simp [uploads, snapshots]
  · rcases stores_hold_last_upload run (by simp) with ⟨uploaded, last, _⟩
    rw [← unchanged_upload_iff run last changed, last]
    simp

theorem everyUploadDiffers_iff
    (run : Program.Rounds (timerRound location timeInterval) .initial rounds stores) :
    EveryUploadDiffers (uploads rounds.flatten) ↔
      ¬StaysWithoutDocker (snapshots rounds.flatten) := by
  induction run with
  | start =>
      refine iff_of_true .nil ?_
      rintro ⟨first, between, next, within, _⟩
      exact absurd (List.infix_nil.mp within) (List.cons_ne_nil _ _)
  | @round middle after rounds events earlier completes ih =>
      rcases rounds_report rounds completes with
        ⟨snapshot, taken, ⟨same, sent⟩ | ⟨changed, sent⟩⟩
      · have docker := Stores.hasDocker_of_unchanged same
        rw [sent, taken, staysWithoutDocker_concat, ih]
        apply not_congr
        refine (or_iff_left ?_).symm
        rintro ⟨_, _, _, _, _, _, bare⟩
        exact bare docker
      · rw [sent, taken]
        exact everyUploadDiffers_upload_iff earlier changed ih

theorem handleResponse_silent {response : Response}
    {remaining : Program monitor (Except StdException Unit)}
    (follows : (handleResponse timeInterval response).run.Follows events remaining) :
    snapshots events = [] ∧ uploads events = [] := by
  rcases handleResponse_follows follows with ⟨rfl, _⟩ | ⟨dockerImage, _, ⟨rfl, _⟩ | rfl⟩
  · exact ⟨rfl, rfl⟩
  all_goals
    rw [deployment]
    split <;> exact ⟨rfl, rfl⟩

theorem upload_begins {root : Json} {remaining : Program monitor (Except StdException Unit)}
    (follows : (upload timeInterval root).run.Follows events remaining) :
    snapshots events = [] ∧ (uploads events = [] ∨ uploads events = [root]) := by
  rw [upload_run] at follows
  rcases follows.of_call with ⟨rfl, _⟩ | ⟨response, later, rfl, handled⟩
  · exact ⟨rfl, Or.inl rfl⟩
  · rcases handleResponse_silent handled with ⟨taken, sent⟩
    exact ⟨taken, Or.inr (congrArg (root :: ·) sent)⟩

/-- A round which has begun has taken one snapshot, first of all. -/
theorem timerRound_opens {remaining : Program monitor (Except StdException Stores)}
    (follows : (timerRound location timeInterval stores).run.Follows events remaining) :
    events = [] ∨ ∃ (snapshot : Snapshot) (later : List monitor.Event),
      events = ⟨.linuxCommand location, snapshot⟩ :: later ∧ snapshots later = [] ∧
        (uploads later = [] ∨
          ¬stores.unchanged snapshot.root = true ∧ uploads later = [snapshot.root]) := by
  rw [timerRound_run] at follows
  rcases follows.of_call with ⟨rfl, _⟩ | ⟨snapshot, later, rfl, branch⟩
  · exact Or.inl rfl
  refine Or.inr ⟨snapshot, later, rfl, ?_⟩
  by_cases same : stores.unchanged snapshot.root = true
  · rw [if_pos same] at branch
    rcases branch.of_done with ⟨rfl, _⟩
    exact ⟨rfl, Or.inl rfl⟩
  · rw [if_neg same, ExceptT.run_bind] at branch
    have begins : snapshots later = [] ∧
        (uploads later = [] ∨ uploads later = [snapshot.root]) := by
      rcases branch.of_bind with ⟨inside, begun, _⟩ | ⟨first, second, result, rfl, begun, rest⟩
      · exact upload_begins begun
      · cases result <;>
        · rcases rest.of_done with ⟨rfl, _⟩
          rw [List.append_nil]
          exact upload_begins begun
    exact ⟨begins.1, begins.2.imp_right fun sent => ⟨same, sent⟩⟩

theorem timerRound_begins {remaining : Program monitor (Except StdException Stores)}
    (follows : (timerRound location timeInterval stores).run.Follows events remaining) :
    uploads events = [] ∨ ∃ snapshot : Snapshot, ¬stores.unchanged snapshot.root = true ∧
      snapshots events = [snapshot.root] ∧ uploads events = [snapshot.root] := by
  rcases timerRound_opens follows with rfl | ⟨snapshot, later, rfl, taken, none | ⟨changed, sent⟩⟩
  · exact Or.inl rfl
  · exact Or.inl none
  · exact Or.inr ⟨snapshot, changed, congrArg (snapshot.root :: ·) taken, sent⟩

/-- While no snapshots without docker info repeat one another, every upload after the first
differs from the one before; and in completed rounds, then only. -/
theorem uploads_differ_iff (location : Bytes) (timeInterval : ℤ) :
    (∀ rounds stores, Program.Rounds (timerRound location timeInterval) .initial rounds stores →
      (EveryUploadDiffers (uploads rounds.flatten) ↔
        ¬StaysWithoutDocker (snapshots rounds.flatten))) ∧
    ∀ bound events remaining,
      (timerControl bound location timeInterval).run.Follows events remaining →
      ¬StaysWithoutDocker (snapshots events) → EveryUploadDiffers (uploads events) := by
  refine ⟨fun rounds stores => everyUploadDiffers_iff, ?_⟩
  intro bound events remaining follows changes
  rcases Program.follows_forever follows with ⟨rounds, stores, current, inside, rfl, run, last⟩
  rw [snapshots_append] at changes
  rw [uploads_append]
  rcases timerRound_begins last with none | ⟨snapshot, changed, taken, sent⟩
  · rw [none, List.append_nil, everyUploadDiffers_iff run]
    exact fun stays => changes (stays.append _)
  · rw [sent, everyUploadDiffers_upload_iff run changed (everyUploadDiffers_iff run), ← taken]
    exact changes

/-! ### A machine without containers -/

def idleMachine : Snapshot where
  root := .obj [("disk info", .arr [.num 1]), ("memory info", .arr [.num (2 : ℕ)])]
  disk := ⟨[.num 1], rfl⟩
  memory := ⟨[.num (2 : ℕ)], rfl⟩

def idleRound : List monitor.Event :=
  [⟨.linuxCommand [], idleMachine⟩, ⟨.httpPost serverUrl idleMachine.root, stored⟩, ⟨.sleep 1, ()⟩]

theorem idleMachine_changed (stores : Stores) : ¬stores.unchanged idleMachine.root = true := by
  intro same
  exact absurd (Stores.hasDocker_of_unchanged same) (by decide)

theorem idleRound_run (stores : Stores) :
    (timerRound [] 1 stores).run.Follows idleRound (.done (.ok (stores.stored idleMachine.root))) := by
  have round : (timerRound [] 1 stores).run.Follows _ _ :=
    timerRound_uploads (idleMachine_changed stores)
      (dockerImageOf_of_marker stored.fits stored_orders_nothing)
  rw [deployment, if_neg (not_not_intro rfl), List.nil_append] at round
  exact round

theorem idleRounds_run :
    Program.Rounds (timerRound [] 1) .initial [idleRound, idleRound]
      ((Stores.initial.stored idleMachine.root).stored idleMachine.root) :=
  .round (.round .start (idleRound_run _)) (idleRound_run _)

theorem idleMachine_uploaded_again :
    ¬∀ location timeInterval rounds stores,
      Program.Rounds (timerRound location timeInterval) .initial rounds stores →
      EveryUploadDiffers (uploads rounds.flatten) := by
  intro differs
  have sent : uploads [idleRound, idleRound].flatten = [idleMachine.root, idleMachine.root] := rfl
  have chain := differs _ _ _ _ idleRounds_run
  rw [sent, EveryUploadDiffers, List.isChain_pair] at chain
  exact chain ⟨⟨by decide, by decide⟩, trivial⟩

theorem uploads_differ_iff_idleRounds :
    EveryUploadDiffers (uploads [idleRound, idleRound].flatten) ↔
      ¬StaysWithoutDocker (snapshots [idleRound, idleRound].flatten) :=
  (uploads_differ_iff [] 1).1 _ _ idleRounds_run

end HumanMachine.Client
