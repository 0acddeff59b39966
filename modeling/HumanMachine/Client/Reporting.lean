import HumanMachine.Client.Monitor
import Mathlib.Data.List.Chain

/-!
# What the monitor loop reports

The stores always hold the disk and memory info of the snapshot handed to
`HttpPost` last, whatever became of it. The condition for `continue` asks that
these have not changed and that the snapshot has docker info at all; a `!` is
missing before the last test. So a round can end with docker info which was never
uploaded, exactly when nothing but the docker info has changed.
-/

namespace HumanMachine.Client

def snapshots (events : List monitor.Event) : List Json :=
  events.filterMap fun
    | ⟨.linuxCommand _, snapshot⟩ => some (Snapshot.root snapshot)
    | _ => none

/-- The snapshots handed to `HttpPost`. -/
def uploads (events : List monitor.Event) : List Json :=
  events.filterMap fun
    | ⟨.httpPost _ data, _⟩ => some data
    | _ => none

/-- The responses to these uploads. -/
def responses (events : List monitor.Event) : List Response :=
  events.filterMap fun
    | ⟨.httpPost _ _, response⟩ => some response
    | _ => none

variable {location : Bytes} {timeInterval : ℤ} {stores : Stores}
  {rounds : List (List monitor.Event)} {events : List monitor.Event}

theorem snapshots_append (first second : List monitor.Event) :
    snapshots (first ++ second) = snapshots first ++ snapshots second :=
  List.filterMap_append

theorem uploads_append (first second : List monitor.Event) :
    uploads (first ++ second) = uploads first ++ uploads second :=
  List.filterMap_append

theorem timerRound_reports {after : Stores}
    (completes : (timerRound location timeInterval stores).run.Follows events (.done (.ok after))) :
    ∃ snapshot : Snapshot, snapshots events = [snapshot.root] ∧
      (stores.unchanged snapshot.root = true ∧ uploads events = [] ∧ after = stores ∨
        ¬stores.unchanged snapshot.root = true ∧ uploads events = [snapshot.root] ∧
          after = stores.stored snapshot.root) := by
  rcases timerRound_completes completes with ⟨snapshot, ⟨same, stay, rfl⟩ |
    ⟨changed, stored, response, dockerImage, _, rfl⟩⟩
  · exact ⟨snapshot, rfl, Or.inl ⟨same, rfl, stay⟩⟩
  · have noSnapshot : snapshots (deployment dockerImage ++ [⟨.sleep timeInterval, ()⟩]) = [] := by
      rw [deployment]
      split <;> rfl
    have noUpload : uploads (deployment dockerImage ++ [⟨.sleep timeInterval, ()⟩]) = [] := by
      rw [deployment]
      split <;> rfl
    refine ⟨snapshot, ?_, Or.inr ⟨changed, ?_, stored⟩⟩
    · exact congrArg (snapshot.root :: ·) noSnapshot
    · exact congrArg (snapshot.root :: ·) noUpload

/-- The stores hold the disk and memory info of a snapshot. -/
structure Stores.Hold (stores : Stores) (uploaded : Json) : Prop where
  disk : stores.diskStore = uploaded.get "disk info"
  memory : stores.memoryStore = uploaded.get "memory info"

theorem Stores.hold_stored (stores : Stores) (root : Json) : (stores.stored root).Hold root :=
  ⟨rfl, rfl⟩

theorem Stores.initial_changed (snapshot : Snapshot) :
    ¬Stores.initial.unchanged snapshot.root = true := by
  rcases snapshot.disk with ⟨elements, found⟩
  have disk : snapshot.root.get "disk info" = .arr elements := by
    rw [Json.get, found, Option.getD_some]
  simp [Stores.unchanged, Stores.initial, disk, Json.null_eq_arr]

/-- From the first round on, the stores hold the last upload. -/
theorem stores_hold_last_upload
    (run : Program.Rounds (timerRound location timeInterval) .initial rounds stores)
    (begun : rounds ≠ []) :
    ∃ uploaded, (uploads rounds.flatten).getLast? = some uploaded ∧ stores.Hold uploaded := by
  induction run with
  | start => exact absurd rfl begun
  | @round middle after rounds events earlier completes ih =>
      rcases timerRound_reports completes with ⟨snapshot, _, ⟨same, none, rfl⟩ | ⟨_, sent, rfl⟩⟩
      · have running : rounds ≠ [] := by
          rintro rfl
          rw [earlier.eq_start] at same
          exact Stores.initial_changed snapshot same
        rcases ih running with ⟨uploaded, last, hold⟩
        refine ⟨uploaded, ?_, hold⟩
        rw [List.flatten_append, List.flatten_singleton, uploads_append, none, List.append_nil, last]
      · refine ⟨snapshot.root, ?_, middle.hold_stored snapshot.root⟩
        rw [List.flatten_append, List.flatten_singleton, uploads_append, sent,
          List.getLast?_concat]

/-! ## Unreported changes -/

/-- Two snapshots agree on what the loop is to report. -/
structure Agrees (uploaded current : Json) : Prop where
  disk : uploaded.get "disk info" = current.get "disk info"
  memory : uploaded.get "memory info" = current.get "memory info"
  docker : uploaded.member? "docker info" = current.member? "docker info"

/-- The last upload agrees with the last snapshot. -/
def Reported (events : List monitor.Event) : Prop :=
  ∃ uploaded current, (uploads events).getLast? = some uploaded ∧
    (snapshots events).getLast? = some current ∧ Agrees uploaded current

/-- Docker info does not change alone: when it is there and disk and memory info
are equal to those before, it is what it was before. -/
def DockerNotAlone (previous next : Json) : Prop :=
  (previous.get "disk info").eq (next.get "disk info") = true →
    (previous.get "memory info").eq (next.get "memory info") = true →
    next.isMember "docker info" = true →
    previous.member? "docker info" = next.member? "docker info"

theorem reported_of_upload {earlier : List monitor.Event} {root : Json}
    (taken : snapshots events = [root]) (sent : uploads events = [root]) :
    Reported (earlier ++ events) := by
  refine ⟨root, root, ?_, ?_, ⟨rfl, rfl, rfl⟩⟩
  · rw [uploads_append, sent, List.getLast?_concat]
  · rw [snapshots_append, taken, List.getLast?_concat]

theorem reported_of_continue_iff {earlier : List monitor.Event} {root uploaded : Json}
    (taken : snapshots events = [root]) (notSent : uploads events = [])
    (last : (uploads earlier).getLast? = some uploaded) :
    Reported (earlier ++ events) ↔ Agrees uploaded root := by
  have lastSent : (uploads (earlier ++ events)).getLast? = some uploaded := by
    rw [uploads_append, notSent, List.append_nil, last]
  have lastTaken : (snapshots (earlier ++ events)).getLast? = some root := by
    rw [snapshots_append, taken, List.getLast?_concat]
  constructor
  · rintro ⟨uploaded', current, sent, current_last, agrees⟩
    rw [lastSent] at sent
    rw [lastTaken] at current_last
    cases sent
    cases current_last
    exact agrees
  · intro agrees
    exact ⟨uploaded, root, lastSent, lastTaken, agrees⟩

theorem Stores.Hold.unchanged_iff {uploaded root : Json} (hold : stores.Hold uploaded) :
    stores.unchanged root = true ↔
      (uploaded.get "disk info").eq (root.get "disk info") = true ∧
        (uploaded.get "memory info").eq (root.get "memory info") = true ∧
        root.isMember "docker info" = true := by
  rw [Stores.unchanged, hold.disk, hold.memory, Bool.and_eq_true_iff, Bool.and_eq_true_iff,
    and_assoc]

theorem reported_round_iff {after : Stores} {earlier : List monitor.Event}
    {uploaded previous root : Json} (last : (uploads earlier).getLast? = some uploaded)
    (hold : stores.Hold uploaded) (agrees : Agrees uploaded previous)
    (completes : (timerRound location timeInterval stores).run.Follows events (.done (.ok after)))
    (taken : snapshots events = [root]) :
    Reported (earlier ++ events) ↔ DockerNotAlone previous root := by
  rcases timerRound_reports completes with ⟨snapshot, taken', decision⟩
  obtain rfl : root = snapshot.root := by
    rw [taken] at taken'
    exact List.singleton_inj.mp taken'
  have unchanged_iff : stores.unchanged snapshot.root = true ↔ _ := hold.unchanged_iff
  rw [agrees.disk, agrees.memory] at unchanged_iff
  rcases decision with ⟨same, notSent, _⟩ | ⟨changed, sent, _⟩
  · rw [reported_of_continue_iff taken notSent last]
    rcases unchanged_iff.mp same with ⟨disk, memory, docker⟩
    constructor
    · intro agreesNow _ _ _
      rw [← agrees.docker, agreesNow.docker]
    · intro notAlone
      refine ⟨?_, ?_, ?_⟩
      · rw [agrees.disk, Json.eq_of_eq_true disk]
      · rw [agrees.memory, Json.eq_of_eq_true memory]
      · rw [agrees.docker, notAlone disk memory docker]
  · constructor
    · intro _ disk memory docker
      exact absurd (unchanged_iff.mpr ⟨disk, memory, docker⟩) changed
    · intro _
      exact reported_of_upload taken sent

/-- At the end of every round everything is reported. -/
def AlwaysReported (rounds : List (List monitor.Event)) : Prop :=
  ∀ earlier, earlier <+: rounds → earlier ≠ [] → Reported earlier.flatten

theorem alwaysReported_concat :
    AlwaysReported (rounds ++ [events]) ↔
      AlwaysReported rounds ∧ Reported (rounds.flatten ++ events) := by
  have whole : (rounds ++ [events]).flatten = rounds.flatten ++ events := by simp
  constructor
  · intro all
    constructor
    · intro earlier within begun
      exact all earlier (within.trans (List.prefix_append rounds [events])) begun
    · rw [← whole]
      exact all (rounds ++ [events]) List.prefix_rfl (by simp)
  · rintro ⟨before, last⟩ earlier within begun
    rcases List.prefix_concat_iff.mp within with rfl | within
    · rw [whole]
      exact last
    · exact before earlier within begun

theorem alwaysReported_iff
    (run : Program.Rounds (timerRound location timeInterval) .initial rounds stores) :
    AlwaysReported rounds ↔ (snapshots rounds.flatten).IsChain DockerNotAlone := by
  induction run with
  | start =>
      refine iff_of_true ?_ .nil
      intro earlier within begun
      exact absurd (List.prefix_nil.mp within) begun
  | @round middle after rounds events earlier completes ih =>
      rcases timerRound_reports completes with ⟨snapshot, taken, decision⟩
      rw [alwaysReported_concat, List.flatten_append, List.flatten_singleton, snapshots_append,
        taken, List.isChain_append, ih]
      apply and_congr_right
      intro chain
      by_cases begun : rounds = []
      · subst begun
        have sent : uploads events = [snapshot.root] := by
          rcases decision with ⟨same, _⟩ | ⟨_, sent, _⟩
          · rw [earlier.eq_start] at same
            exact absurd same (Stores.initial_changed snapshot)
          · exact sent
        exact iff_of_true (reported_of_upload taken sent) ⟨.singleton _, by simp [snapshots]⟩
      · rcases stores_hold_last_upload earlier begun with ⟨uploaded, last, hold⟩
        rcases ih.mpr chain rounds List.prefix_rfl begun with
          ⟨uploaded', previous, last', lastTaken, agrees⟩
        obtain rfl : uploaded = uploaded' := by
          rw [last] at last'
          exact Option.some_inj.mp last'
        rw [reported_round_iff last hold agrees completes taken, lastTaken]
        simp

/-! ### A container is restarted -/

def machineWith (containers : List Json) : Snapshot where
  root := .obj [("disk info", .arr [.num 1]), ("docker info", .arr containers),
    ("memory info", .arr [.num 2])]
  disk := ⟨[.num 1], rfl⟩
  memory := ⟨[.num 2], rfl⟩

/-- The server has stored a snapshot and orders nothing. -/
def stored : Response where
  text := marker ++ ascii "null"
  noNul := by decide
  fits := by decide

/-- A container gets another id while disk and memory info stay the same. -/
def restartRounds : List (List monitor.Event) :=
  [[⟨.linuxCommand [], machineWith [.str "a"]⟩,
      ⟨.httpPost serverUrl (machineWith [.str "a"]).root, stored⟩, ⟨.sleep 1, ()⟩],
    [⟨.linuxCommand [], machineWith [.str "b"]⟩]]

theorem stored_orders_nothing :
    Bytes.FirstOccurrence marker stored.text [] (ascii "null") := by
  refine ⟨rfl, ?_⟩
  intro earlier rest _
  exact Nat.zero_le _

theorem restartRounds_run :
    Program.Rounds (timerRound [] 1) .initial restartRounds
      (Stores.initial.stored (machineWith [.str "a"]).root) := by
  have first : (timerRound [] 1 .initial).run.Follows _ _ :=
    timerRound_uploads (Stores.initial_changed (machineWith [.str "a"]))
      (dockerImageOf_of_marker stored.fits stored_orders_nothing)
  rw [deployment, if_neg (not_not_intro rfl), List.nil_append] at first
  have same : (Stores.initial.stored (machineWith [.str "a"]).root).unchanged
      (machineWith [.str "b"]).root = true := by
    decide
  exact .round (.round .start first) (timerRound_continues same)

theorem restartRounds_unreported :
    Program.Rounds (timerRound [] 1) .initial restartRounds
        (Stores.initial.stored (machineWith [.str "a"]).root) ∧
      (∀ response ∈ responses restartRounds.flatten, marker <:+: response.text) ∧
      ¬AlwaysReported restartRounds := by
  have sent : uploads restartRounds.flatten = [(machineWith [.str "a"]).root] := rfl
  have taken : snapshots restartRounds.flatten =
    [(machineWith [.str "a"]).root, (machineWith [.str "b"]).root] := rfl
  have answers : responses restartRounds.flatten = [stored] := rfl
  refine ⟨restartRounds_run, ?_, ?_⟩
  · intro response answered
    rw [answers, List.mem_singleton] at answered
    rw [answered]
    exact stored_orders_nothing.isInfix
  · intro reported
    rcases reported restartRounds List.prefix_rfl (List.cons_ne_nil _ _) with
      ⟨uploaded, current, lastSent, lastTaken, agrees⟩
    rw [sent] at lastSent
    rw [taken] at lastTaken
    cases lastSent
    cases lastTaken
    have docker := agrees.docker
    simp [machineWith, List.lookup_cons] at docker

theorem alwaysReported_iff_restartRounds :
    AlwaysReported restartRounds ↔
      (snapshots restartRounds.flatten).IsChain DockerNotAlone :=
  alwaysReported_iff restartRounds_run

/-! ## Acknowledgements

No branch of the loop looks at the response before the stores are compared
again, so answers have no influence on what is uploaded. -/

theorem uploads_of_same_snapshots
    (run : Program.Rounds (timerRound location timeInterval) .initial rounds stores)
    {others : List (List monitor.Event)} {otherStores : Stores}
    (other : Program.Rounds (timerRound location timeInterval) .initial others otherStores)
    (same : others.map snapshots = rounds.map snapshots) :
    others.map uploads = rounds.map uploads ∧ otherStores = stores := by
  induction run generalizing others otherStores with
  | start =>
      obtain rfl : others = [] := List.map_eq_nil_iff.mp same
      exact ⟨rfl, other.eq_start⟩
  | @round middle after rounds events earlier completes ih =>
      rw [List.map_append, List.map_singleton] at same
      rcases List.map_eq_append_iff.mp same with ⟨otherRounds, last, rfl, sameRounds, sameLast⟩
      rcases List.map_eq_singleton_iff.mp sameLast with ⟨otherEvents, rfl, sameSnapshot⟩
      rcases other.last with ⟨otherMiddle, otherEarlier, otherCompletes⟩
      rcases ih otherEarlier sameRounds with ⟨sameUploads, rfl⟩
      rcases timerRound_reports completes with ⟨snapshot, taken, decision⟩
      rcases timerRound_reports otherCompletes with ⟨otherSnapshot, otherTaken, otherDecision⟩
      rw [taken, otherTaken, List.singleton_inj] at sameSnapshot
      rw [sameSnapshot] at otherDecision
      rw [List.map_append, List.map_append, sameUploads]
      rcases decision with ⟨unchanged, none, rfl⟩ | ⟨changed, sent, rfl⟩
      · rcases otherDecision with ⟨_, otherNone, rfl⟩ | ⟨changed, _⟩
        · simp [none, otherNone]
        · exact absurd unchanged changed
      · rcases otherDecision with ⟨unchanged, _⟩ | ⟨_, otherSent, rfl⟩
        · exact absurd unchanged changed
        · simp [sent, otherSent]

/-- A round takes `continue` exactly when disk and memory info equal those of the
last snapshot handed to `HttpPost` and docker info is there; the stores then hold
that snapshot's. The answers to uploads have no influence. -/
theorem continue_ignores_answers
    (run : Program.Rounds (timerRound location timeInterval) .initial (rounds ++ [events]) stores) :
    (uploads events = [] → ∃ uploaded,
      (uploads rounds.flatten).getLast? = some uploaded ∧ stores.Hold uploaded) ∧
    (∀ uploaded root, (uploads rounds.flatten).getLast? = some uploaded →
      snapshots events = [root] →
      (uploads events = [] ↔
        (uploaded.get "disk info").eq (root.get "disk info") = true ∧
        (uploaded.get "memory info").eq (root.get "memory info") = true ∧
        root.isMember "docker info" = true)) ∧
    ∀ others otherStores,
      Program.Rounds (timerRound location timeInterval) .initial others otherStores →
      others.map snapshots = (rounds ++ [events]).map snapshots →
      others.map uploads = (rounds ++ [events]).map uploads := by
  refine ⟨?_, ?_, ?_⟩
  · intro none
    rcases stores_hold_last_upload run (by simp) with ⟨uploaded, last, hold⟩
    rw [List.flatten_append, List.flatten_singleton, uploads_append, none, List.append_nil] at last
    exact ⟨uploaded, last, hold⟩
  · intro uploaded root last taken
    rcases run.last with ⟨middle, earlier, completes⟩
    have begun : rounds ≠ [] := by
      rintro rfl
      simp [uploads] at last
    rcases stores_hold_last_upload earlier begun with ⟨uploaded', last', hold⟩
    obtain rfl : uploaded = uploaded' := by
      rw [last] at last'
      exact Option.some_inj.mp last'
    rcases timerRound_reports completes with ⟨snapshot, taken', decision⟩
    obtain rfl : root = snapshot.root := by
      rw [taken] at taken'
      exact List.singleton_inj.mp taken'
    rw [← hold.unchanged_iff]
    rcases decision with ⟨same, none, _⟩ | ⟨changed, sent, _⟩
    · exact iff_of_true none same
    · rw [sent]
      exact iff_of_false (List.cons_ne_nil _ _) changed
  · intro others otherStores other same
    exact (uploads_of_same_snapshots run other same).1

/-- The page which a server sends when `doPost` throws, cut short. -/
def errorPage : Response where
  text := ascii "HTTP/1.1 500 Oops"
  noNul := by decide
  fits := by decide

theorem errorPage_no_marker : ¬marker <:+: errorPage.text := by decide

/-- An upload is answered by an error page and the machine stays the same. -/
def refusedRounds : List (List monitor.Event) :=
  [[⟨.linuxCommand [], machineWith []⟩, ⟨.httpPost serverUrl (machineWith []).root, errorPage⟩,
      ⟨.dockerDeploy (ascii "Oops"), ()⟩, ⟨.sleep 1, ()⟩],
    [⟨.linuxCommand [], machineWith []⟩]]

theorem refusedRounds_run :
    Program.Rounds (timerRound [] 1) .initial refusedRounds
      (Stores.initial.stored (machineWith []).root) := by
  have extracted : dockerImageOf errorPage.text = .ok (ascii "Oops") := by
    rw [dockerImageOf_of_no_marker errorPage.fits errorPage_no_marker]
    rfl
  have first : (timerRound [] 1 .initial).run.Follows _ _ :=
    timerRound_uploads (Stores.initial_changed (machineWith [])) extracted
  rw [deployment, if_pos (by decide)] at first
  have same : (Stores.initial.stored (machineWith []).root).unchanged
      (machineWith []).root = true := by
    decide
  exact .round (.round .start first) (timerRound_continues same)

/-- The snapshots whose upload was answered with the server's own text. -/
def acknowledged (events : List monitor.Event) : List Json :=
  events.filterMap fun
    | ⟨.httpPost _ data, response⟩ => if marker <:+: Response.text response then some data else none
    | _ => none

theorem refusedRounds_not_acknowledged :
    Program.Rounds (timerRound [] 1) .initial refusedRounds
        (Stores.initial.stored (machineWith []).root) ∧
      uploads (refusedRounds.getLast (List.cons_ne_nil _ _)) = [] ∧
      ¬∃ uploaded ∈ acknowledged refusedRounds.flatten,
        (Stores.initial.stored (machineWith []).root).Hold uploaded := by
  have none : acknowledged refusedRounds.flatten = [] := by
    have unanswered : (if marker <:+: errorPage.text then some (machineWith []).root else none) =
        none :=
      if_neg errorPage_no_marker
    simp [refusedRounds, acknowledged, unanswered]
  refine ⟨refusedRounds_run, rfl, ?_⟩
  rintro ⟨uploaded, confirmed, _⟩
  rw [none] at confirmed
  exact absurd confirmed List.not_mem_nil

theorem continue_ignores_answers_refusedRounds :
    ∃ uploaded, (uploads (refusedRounds.head (List.cons_ne_nil _ _))).getLast? = some uploaded ∧
      (Stores.initial.stored (machineWith []).root).Hold uploaded := by
  have run : Program.Rounds (timerRound [] 1) .initial
      ([refusedRounds.head (List.cons_ne_nil _ _)] ++
        [refusedRounds.getLast (List.cons_ne_nil _ _)]) _ := refusedRounds_run
  simpa using (continue_ignores_answers run).1 rfl

end HumanMachine.Client
