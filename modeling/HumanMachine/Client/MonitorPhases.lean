import HumanMachine.Client.Monitor
import HumanMachine.Program.Machine

/-!
# The phases of the monitor

The loop of `timerControl` as a machine: from one snapshot to the next it may post the
snapshot, deploy what the answer orders, and sleep. An answer from which nothing can be
extracted ends it. The stores are a part of the phase, so that the machine says which
snapshots are posted.
-/

namespace HumanMachine.Client

open Program (RunsOn)

/-- A phase is named by what comes next in it. -/
inductive MonitorPhase where
  | sampling (stores : Stores)
  | posting (root : Json) (stores : Stores)
  | deploying (dockerImage : Bytes) (stores : Stores)
  | sleeping (stores : Stores)
  /-- An exception has left the loop. -/
  | ended

/-- What comes after an answer from which this was extracted. -/
def MonitorPhase.answered (stores : Stores) : Except StdException Bytes → MonitorPhase
  | .error _ => .ended
  | .ok dockerImage =>
      if dockerImage ≠ ascii "null" then .deploying dockerImage stores else .sleeping stores

theorem MonitorPhase.answered_null (stores : Stores) :
    MonitorPhase.answered stores (.ok (ascii "null")) = .sleeping stores := by
  rw [answered]
  exact if_neg (not_not_intro rfl)

theorem MonitorPhase.answered_image {dockerImage : Bytes} (notNull : dockerImage ≠ ascii "null")
    (stores : Stores) :
    MonitorPhase.answered stores (.ok dockerImage) = .deploying dockerImage stores := by
  rw [answered]
  exact if_pos notNull

inductive MonitorStep (location : Bytes) (timeInterval : ℤ) :
    MonitorPhase → monitor.Event → MonitorPhase → Prop where
  | unchanged {stores : Stores} {snapshot : Snapshot}
      (same : stores.unchanged snapshot.root = true) :
      MonitorStep location timeInterval (.sampling stores) ⟨.linuxCommand location, snapshot⟩
        (.sampling stores)
  | changed {stores : Stores} {snapshot : Snapshot}
      (changed : ¬stores.unchanged snapshot.root = true) :
      MonitorStep location timeInterval (.sampling stores) ⟨.linuxCommand location, snapshot⟩
        (.posting snapshot.root (stores.stored snapshot.root))
  | posted {root : Json} {stores : Stores} {response : Response} {result : Except StdException Bytes}
      (extracted : dockerImageOf response.text = result) :
      MonitorStep location timeInterval (.posting root stores)
        ⟨.httpPost serverUrl root, response⟩ (.answered stores result)
  | deployed {dockerImage : Bytes} {stores : Stores} :
      MonitorStep location timeInterval (.deploying dockerImage stores)
        ⟨.dockerDeploy dockerImage, ()⟩ (.sleeping stores)
  | slept {stores : Stores} :
      MonitorStep location timeInterval (.sleeping stores) ⟨.sleep timeInterval, ()⟩
        (.sampling stores)

/-! ## The loop runs on the machine -/

variable {location : Bytes} {timeInterval : ℤ} {stores : Stores}

/-- Where a piece of the loop ends. -/
def MonitorPhase.After {α : Type} (phaseOf : α → MonitorPhase) (result : Except StdException α)
    (phase : MonitorPhase) : Prop :=
  match result with
  | .error _ => phase = .ended
  | .ok value => phase = phaseOf value

/-- The program has a name, lest the elaborator computes what is extracted. -/
theorem handleResponse_runsOn {response : Response} {result : Except StdException Bytes}
    {program : Program monitor (Except StdException Unit)}
    (extracted : dockerImageOf response.text = result)
    (handles : (handleResponse timeInterval response).run = program) :
    RunsOn (MonitorStep location timeInterval) (MonitorPhase.After fun _ => .sampling stores)
      program (.answered stores result) := by
  cases result with
  | error exception =>
      rw [handleResponse_error extracted] at handles
      subst handles
      rfl
  | ok dockerImage =>
      by_cases isNull : dockerImage = ascii "null"
      · subst isNull
        rw [handleResponse_null extracted] at handles
        subst handles
        rw [MonitorPhase.answered_null]
        intro _
        exact ⟨_, .slept, rfl⟩
      · rw [handleResponse_image extracted isNull] at handles
        subst handles
        rw [MonitorPhase.answered_image isNull]
        intro _
        refine ⟨_, .deployed, ?_⟩
        intro _
        exact ⟨_, .slept, rfl⟩

theorem posting_runsOn {root : Json} {handle : Response → Program monitor (Except StdException Unit)}
    (handles : ∀ response result, dockerImageOf (Response.text response) = result →
      RunsOn (MonitorStep location timeInterval) (MonitorPhase.After fun _ => .sampling stores)
        (handle response) (.answered stores result)) :
    RunsOn (MonitorStep location timeInterval) (MonitorPhase.After fun _ => .sampling stores)
      (.call (.httpPost serverUrl root) handle) (.posting root stores) :=
  fun response => ⟨_, .posted rfl, handles response _ rfl⟩

theorem upload_runsOn {root : Json} :
    RunsOn (MonitorStep location timeInterval) (MonitorPhase.After fun _ => .sampling stores)
      (upload timeInterval root).run (.posting root stores) := by
  rw [upload_run]
  apply posting_runsOn
  intro response result extracted
  generalize handles : (handleResponse timeInterval response).run = program
  exact handleResponse_runsOn extracted handles

theorem timerRound_runsOn :
    RunsOn (MonitorStep location timeInterval) (MonitorPhase.After .sampling)
      (timerRound location timeInterval stores).run (.sampling stores) := by
  rw [timerRound_run]
  intro (snapshot : Snapshot)
  by_cases same : stores.unchanged snapshot.root = true
  · refine ⟨_, .unchanged same, ?_⟩
    beta_reduce
    rw [if_pos same]
    rfl
  · refine ⟨_, .changed same, ?_⟩
    beta_reduce
    rw [if_neg same, ExceptT.run_bind]
    apply RunsOn.bind
    apply upload_runsOn.mono
    intro result phase after
    cases result with
    | error exception => exact after
    | ok _ => exact after

theorem forever_runsOn (bound : ℕ) :
    RunsOn (MonitorStep location timeInterval) (MonitorPhase.After Empty.elim)
      (Program.forever (timerRound location timeInterval) bound stores).run (.sampling stores) := by
  induction bound generalizing stores with
  | zero => trivial
  | succ bound ih =>
      rw [Program.forever, ExceptT.run_bind]
      apply RunsOn.bind
      apply timerRound_runsOn.mono
      intro result phase after
      cases result with
      | error exception => exact after
      | ok middle =>
          rw [MonitorPhase.After] at after
          rw [after]
          exact ih

theorem timerControl_runsOn (bound : ℕ) :
    RunsOn (MonitorStep location timeInterval) (MonitorPhase.After Empty.elim)
      (timerControl bound location timeInterval).run (.sampling .initial) :=
  forever_runsOn bound

end HumanMachine.Client
