import HumanMachine.Client.Reporting

/-!
# What the monitor loop deploys

`find` reports a missing marker as `npos`, which becomes -1 in an `int`; adding
the length of the marker makes it the offset 13. A response without the marker
therefore deploys whatever stands behind its first 13 bytes.
-/

namespace HumanMachine.Client

/-- A response orders the text behind the first marker, unless that is `null`. -/
def Orders (response dockerImage : Bytes) : Prop :=
  (∃ before, Bytes.FirstOccurrence marker response before dockerImage) ∧
    dockerImage ≠ ascii "null"

/-- Every deployment comes directly after a response, with the text extracted from it. -/
def DeploysAfterResponses (events : List monitor.Event) : Prop :=
  ∀ before dockerImage later, events = before ++ ⟨.dockerDeploy dockerImage, ()⟩ :: later →
    ∃ (earlier : List monitor.Event) (data : Json) (response : Response),
      before = earlier ++ [⟨.httpPost serverUrl data, response⟩] ∧
      dockerImageOf response.text = .ok dockerImage ∧ dockerImage ≠ ascii "null"

variable {location : Bytes} {timeInterval : ℤ} {stores : Stores}
  {rounds : List (List monitor.Event)} {events : List monitor.Event}

theorem DeploysAfterResponses.append {first second : List monitor.Event}
    (firstDeploys : DeploysAfterResponses first) (secondDeploys : DeploysAfterResponses second) :
    DeploysAfterResponses (first ++ second) := by
  intro before dockerImage later split
  rcases List.append_eq_append_iff.mp split with ⟨middle, rfl, inSecond⟩ | ⟨middle, inFirst, rest⟩
  · rcases secondDeploys middle dockerImage later inSecond with
      ⟨earlier, data, response, rfl, extracted⟩
    exact ⟨first ++ earlier, data, response, (List.append_assoc _ _ _).symm, extracted⟩
  · cases middle with
    | nil =>
        rcases secondDeploys [] dockerImage later rest.symm with ⟨earlier, _, _, impossible, _⟩
        exact absurd impossible.symm (by simp)
    | cons head middle =>
        rw [List.cons_append, List.cons.injEq] at rest
        rw [← rest.1] at inFirst
        exact firstDeploys before dockerImage middle inFirst

theorem deploysAfterResponses_of_not_mem
    (none : ∀ dockerImage, ⟨.dockerDeploy dockerImage, ()⟩ ∉ events) :
    DeploysAfterResponses events := by
  intro before dockerImage later split
  exact absurd (split ▸ List.mem_append_cons_self) (none dockerImage)

theorem deploysAfterResponses_upload {data : Json} {response : Response}
    {dockerImage : Bytes} (extracted : dockerImageOf response.text = .ok dockerImage)
    {rest : List monitor.Event} (none : ∀ dockerImage, ⟨.dockerDeploy dockerImage, ()⟩ ∉ rest) :
    DeploysAfterResponses
      (⟨.httpPost serverUrl data, response⟩ :: (deployment dockerImage ++ rest)) := by
  intro before dockerImage' later split
  rcases before with _ | ⟨first, before⟩
  · simp at split
  · rw [List.cons_append, List.cons.injEq] at split
    rcases split with ⟨rfl, split⟩
    by_cases isNull : dockerImage = ascii "null"
    · rw [deployment, if_neg (not_not_intro isNull), List.nil_append] at split
      exact absurd (split ▸ List.mem_append_cons_self) (none dockerImage')
    · rw [deployment, if_pos isNull] at split
      rcases before with _ | ⟨second, before⟩
      · simp only [List.cons_append, List.nil_append, List.cons.injEq, Sigma.mk.injEq,
          MonitorCommand.dockerDeploy.injEq] at split
        rcases split with ⟨⟨rfl, _⟩, _⟩
        exact ⟨[], data, response, rfl, extracted, isNull⟩
      · rw [List.cons_append, List.nil_append, List.cons_append, List.cons.injEq] at split
        exact absurd (split.2 ▸ List.mem_append_cons_self) (none dockerImage')

theorem upload_deploys {root : Json} {remaining : Program monitor (Except StdException Unit)}
    (follows : (upload timeInterval root).run.Follows events remaining) :
    DeploysAfterResponses events := by
  rw [upload_run] at follows
  rcases follows.of_call with ⟨rfl, _⟩ | ⟨response, later, rfl, handled⟩
  · exact deploysAfterResponses_of_not_mem (by simp)
  · rcases handleResponse_follows handled with ⟨rfl, _⟩ |
      ⟨dockerImage, extracted, ⟨rfl, _⟩ | rfl⟩
    · exact deploysAfterResponses_of_not_mem (by simp)
    · rw [← List.append_nil (deployment dockerImage)]
      exact deploysAfterResponses_upload extracted (by simp)
    · exact deploysAfterResponses_upload extracted (by simp)

theorem timerRound_deploys {remaining : Program monitor (Except StdException Stores)}
    (follows : (timerRound location timeInterval stores).run.Follows events remaining) :
    DeploysAfterResponses events := by
  rw [timerRound_run] at follows
  rcases follows.of_call with ⟨rfl, _⟩ | ⟨snapshot, later, rfl, branch⟩
  · exact deploysAfterResponses_of_not_mem (by simp)
  · have laterDeploys : DeploysAfterResponses later := by
      by_cases same : stores.unchanged snapshot.root = true
      · rw [if_pos same] at branch
        rcases branch.of_done with ⟨rfl, _⟩
        exact deploysAfterResponses_of_not_mem (by simp)
      · rw [if_neg same, ExceptT.run_bind] at branch
        rcases branch.of_bind with ⟨inside, uploads, _⟩ | ⟨first, second, result, rfl, uploads, rest⟩
        · exact upload_deploys uploads
        · cases result <;>
          · rcases rest.of_done with ⟨rfl, _⟩
            rw [List.append_nil]
            exact upload_deploys uploads
    have firstDeploys : DeploysAfterResponses [⟨.linuxCommand location, snapshot⟩] :=
      deploysAfterResponses_of_not_mem (by simp)
    exact firstDeploys.append laterDeploys

theorem rounds_deploy {after : Stores}
    (run : Program.Rounds (timerRound location timeInterval) stores rounds after) :
    DeploysAfterResponses rounds.flatten := by
  induction run with
  | start => exact deploysAfterResponses_of_not_mem (by simp)
  | round earlier completes ih =>
      rw [List.flatten_append, List.flatten_singleton]
      exact ih.append (timerRound_deploys completes)

theorem timerControl_deploys {bound : ℕ} {remaining : Program monitor (Except StdException Empty)}
    (follows : (timerControl bound location timeInterval).run.Follows events remaining) :
    DeploysAfterResponses events := by
  rcases Program.follows_forever follows with ⟨rounds, after, current, inside, rfl, run, last⟩
  exact (rounds_deploy run).append (timerRound_deploys last)

/-- The responses after which the loop deploys what they order, if anything. -/
def HandledAsOrdered (response : Bytes) : Prop :=
  marker <:+: response ∨ response.length < 13 ∨ response.drop 13 = ascii "null"

theorem orders_of_extracted {response : Response} {dockerImage : Bytes}
    (handled : HandledAsOrdered response.text)
    (extracted : dockerImageOf response.text = .ok dockerImage)
    (notNull : dockerImage ≠ ascii "null") : Orders response.text dockerImage := by
  by_cases marked : marker <:+: response.text
  · rcases Bytes.exists_firstOccurrence marked with ⟨before, rest, occurrence⟩
    rw [dockerImageOf_of_marker response.fits occurrence, Except.ok.injEq] at extracted
    subst extracted
    exact ⟨⟨before, occurrence⟩, notNull⟩
  · rw [dockerImageOf_of_no_marker response.fits marked] at extracted
    by_cases short : response.text.length < 13
    · rw [if_pos short] at extracted
      cases extracted
    · rw [if_neg short, Except.ok.injEq] at extracted
      rcases handled with marked' | short' | isNull
      · exact absurd marked' marked
      · exact absurd short' short
      · exact absurd (extracted.symm.trans isNull) notNull

theorem deploys_from_offset {response : Response} (unordered : ¬HandledAsOrdered response.text) :
    (timerControl 1 location timeInterval).run.Follows
      ([⟨.linuxCommand location, machineWith []⟩] ++
        ⟨.httpPost serverUrl (machineWith []).root, response⟩ ::
        ⟨.dockerDeploy (response.text.drop 13), ()⟩ :: [⟨.sleep timeInterval, ()⟩])
      (Program.forever (timerRound location timeInterval) 0
        (Stores.initial.stored (machineWith []).root)).run := by
  simp only [HandledAsOrdered, not_or] at unordered
  have extracted : dockerImageOf response.text = .ok (response.text.drop 13) := by
    rw [dockerImageOf_of_no_marker response.fits unordered.1, if_neg unordered.2.1]
  have round : (timerRound location timeInterval .initial).run.Follows _ _ :=
    timerRound_uploads (Stores.initial_changed (machineWith [])) extracted
  rw [deployment, if_pos unordered.2.2] at round
  exact (Program.Rounds.round .start round).follows 0

/-- Every deployment comes directly after a response. A response is followed by the
deployment of something it does not order exactly when it has no marker, goes beyond
the offset 13 and does not go on with `null` there. -/
theorem deploys_as_ordered_iff (location : Bytes) (timeInterval : ℤ) :
    (∀ bound events remaining,
      (timerControl bound location timeInterval).run.Follows events remaining →
        DeploysAfterResponses events) ∧
    ∀ response : Response,
      (∀ bound before url data dockerImage later remaining,
        (timerControl bound location timeInterval).run.Follows
          (before ++ ⟨.httpPost url data, response⟩ :: ⟨.dockerDeploy dockerImage, ()⟩ :: later)
          remaining →
        Orders response.text dockerImage) ↔
      HandledAsOrdered response.text := by
  refine ⟨fun bound events remaining => timerControl_deploys, ?_⟩
  intro response
  constructor
  · intro asOrdered
    by_contra unordered
    have orders := asOrdered _ _ _ _ _ _ _ (deploys_from_offset unordered)
    rcases orders.1 with ⟨before, occurrence⟩
    exact unordered (Or.inl occurrence.isInfix)
  · intro handled bound before url data dockerImage later remaining follows
    have split : before ++ ⟨.httpPost url data, response⟩ :: ⟨.dockerDeploy dockerImage, ()⟩ :: later =
        (before ++ [⟨.httpPost url data, response⟩]) ++ ⟨.dockerDeploy dockerImage, ()⟩ :: later := by
      simp
    rcases timerControl_deploys follows _ dockerImage later split with
      ⟨earlier, data', response', last, extracted, notNull⟩
    have sameEvent := (List.append_inj' last rfl).2
    rw [List.singleton_inj] at sameEvent
    cases sameEvent
    exact orders_of_extracted handled extracted notNull

/-- The error page orders nothing, but its last bytes are deployed. -/
theorem errorPage_deployed :
    (timerControl 1 [] 1).run.Follows
      ([⟨.linuxCommand [], machineWith []⟩] ++
        ⟨.httpPost serverUrl (machineWith []).root, errorPage⟩ ::
        ⟨.dockerDeploy (ascii "Oops"), ()⟩ :: [⟨.sleep 1, ()⟩])
      (Program.forever (timerRound [] 1) 0 (Stores.initial.stored (machineWith []).root)).run ∧
    ¬Orders errorPage.text (ascii "Oops") := by
  have unordered : ¬HandledAsOrdered errorPage.text := by
    simp only [HandledAsOrdered, not_or]
    exact ⟨errorPage_no_marker, by decide, by decide⟩
  refine ⟨deploys_from_offset unordered, ?_⟩
  rintro ⟨⟨before, occurrence⟩, _⟩
  exact errorPage_no_marker occurrence.isInfix

/-! ## Responses which end the loop

Behind a response without the marker which is shorter than 13 bytes there is no
offset 13: `substr` throws, and nothing catches the exception. An upload that failed
leaves the empty response. -/

/-- No text can be extracted from the response which the exchange brings. -/
def Fatal : monitor.Event → Prop
  | ⟨.httpPost _ _, response⟩ =>
      ∃ exception, dockerImageOf (Response.text response) = .error exception
  | _ => False

theorem dockerImageOf_error_iff (response : Response) :
    (∃ exception, dockerImageOf response.text = .error exception) ↔
      ¬(marker <:+: response.text ∨ 13 ≤ response.text.length) := by
  by_cases marked : marker <:+: response.text
  · rcases Bytes.exists_firstOccurrence marked with ⟨before, rest, occurrence⟩
    simp [dockerImageOf_of_marker response.fits occurrence, marked]
  · rw [dockerImageOf_of_no_marker response.fits marked]
    by_cases short : response.text.length < 13
    · rw [if_pos short]
      refine iff_of_true ⟨_, rfl⟩ ?_
      rintro (marked' | long)
      · exact marked marked'
      · omega
    · rw [if_neg short]
      simp only [not_lt] at short
      simp [short]

theorem handleResponse_raised_iff {response : Response}
    {remaining : Program monitor (Except StdException Unit)}
    (follows : (handleResponse timeInterval response).run.Follows events remaining) :
    Program.Raised remaining ↔ ∃ exception, dockerImageOf response.text = .error exception := by
  cases extracted : dockerImageOf response.text with
  | error exception =>
      rw [handleResponse_error extracted] at follows
      rcases follows.of_done with ⟨_, rfl⟩
      exact iff_of_true ⟨exception, rfl⟩ ⟨exception, rfl⟩
  | ok dockerImage =>
      have proceeds : ¬Program.Raised remaining := by
        rintro ⟨exception, rfl⟩
        by_cases isNull : dockerImage = ascii "null"
        · subst isNull
          rw [handleResponse_null extracted] at follows
          rcases follows.of_call_done with ⟨_, later, _, slept⟩
          rcases slept.of_done with ⟨_, impossible⟩
          cases impossible
        · rw [handleResponse_image extracted isNull] at follows
          rcases follows.of_call_done with ⟨_, later, _, deployed⟩
          rcases deployed.of_call_done with ⟨_, later, _, slept⟩
          rcases slept.of_done with ⟨_, impossible⟩
          cases impossible
      simp [proceeds]

theorem upload_raised_iff {root : Json} {remaining : Program monitor (Except StdException Unit)}
    (follows : (upload timeInterval root).run.Follows events remaining) :
    Program.Raised remaining ↔ ∃ event ∈ events, Fatal event := by
  rw [upload_run] at follows
  rcases follows.of_call with ⟨rfl, rfl⟩ | ⟨response, later, rfl, handled⟩
  · simp [Program.Raised]
  · have quiet : ∀ event ∈ later, ¬Fatal event := by
      rcases handleResponse_follows handled with ⟨rfl, _⟩ | ⟨dockerImage, _, ⟨rfl, _⟩ | rfl⟩
      · simp
      all_goals
        rw [deployment]
        split <;> simp [Fatal]
    rw [handleResponse_raised_iff handled]
    constructor
    · intro fails
      exact ⟨_, List.mem_cons_self, fails⟩
    · rintro ⟨event, mem, fatal⟩
      rcases List.mem_cons.mp mem with rfl | mem
      · exact fatal
      · exact absurd fatal (quiet event mem)

theorem timerRound_raised_iff {remaining : Program monitor (Except StdException Stores)}
    (follows : (timerRound location timeInterval stores).run.Follows events remaining) :
    Program.Raised remaining ↔ ∃ event ∈ events, Fatal event := by
  rw [timerRound_run] at follows
  rcases follows.of_call with ⟨rfl, rfl⟩ | ⟨snapshot, later, rfl, branch⟩
  · simp [Program.Raised]
  · have first : (∃ event ∈ ⟨.linuxCommand location, snapshot⟩ :: later, Fatal event) ↔
        ∃ event ∈ later, Fatal event := by
      simp only [List.mem_cons, exists_eq_or_imp, Fatal, false_or]
    rw [first]
    by_cases same : stores.unchanged snapshot.root = true
    · rw [if_pos same] at branch
      rcases branch.of_done with ⟨rfl, rfl⟩
      simp [Program.Raised]
    · rw [if_neg same, ExceptT.run_bind] at branch
      rcases branch.of_bind with ⟨inside, uploads, rfl⟩ | ⟨first, second, result, rfl, uploads, rest⟩
      · rw [← upload_raised_iff uploads]
        rcases inside with (exception | _) | _ | _
        · exact iff_of_true ⟨exception, rfl⟩ ⟨exception, rfl⟩
        all_goals simp [Program.Raised]
      · have raised := upload_raised_iff uploads
        cases result <;>
        · rcases rest.of_done with ⟨rfl, rfl⟩
          rw [List.append_nil, ← raised]
          simp [Program.Raised]

theorem timerControl_outlives_iff {bound : ℕ}
    {remaining : Program monitor (Except StdException Empty)}
    (follows : (timerControl bound location timeInterval).run.Follows events remaining) :
    (∀ exception, remaining ≠ .done (.error exception)) ↔
      ∀ response ∈ responses events,
        marker <:+: response.text ∨ 13 ≤ response.text.length := by
  have raised : Program.Raised remaining ↔ ∃ event ∈ events, Fatal event :=
    Program.forever_raised_iff (fun _ _ _ => timerRound_raised_iff) follows
  have safe : (∀ exception, remaining ≠ .done (.error exception)) ↔ ¬Program.Raised remaining := by
    simp [Program.Raised]
  rw [safe, raised]
  constructor
  · intro none response answered
    rcases List.mem_filterMap.mp answered with ⟨⟨command, answer⟩, mem, same⟩
    by_contra short
    refine none ⟨_, mem, ?_⟩
    cases command <;> cases same
    exact (dockerImageOf_error_iff response).mpr short
  · rintro long ⟨⟨command, answer⟩, mem, fatal⟩
    cases command with
    | httpPost url data =>
        exact (dockerImageOf_error_iff answer).mp fatal
          (long answer (List.mem_filterMap.mpr ⟨_, mem, rfl⟩))
    | _ => exact fatal

/-- `http_return` after an upload that failed. -/
def noResponse : Response where
  text := []
  noNul := by simp
  fits := by simp

def failedUpload : List monitor.Event :=
  [⟨.linuxCommand [], machineWith []⟩, ⟨.httpPost serverUrl (machineWith []).root, noResponse⟩]

theorem failedUpload_run :
    (timerControl 1 [] 1).run.Follows failedUpload (.done (.error .outOfRange)) := by
  have extracted : dockerImageOf noResponse.text = .error .outOfRange := by
    rw [dockerImageOf_of_no_marker noResponse.fits (by decide), if_pos (by decide)]
  have upload : (upload 1 (machineWith []).root).run.Follows
      [⟨.httpPost serverUrl (machineWith []).root, noResponse⟩] (.done (.error .outOfRange)) := by
    rw [upload_run]
    apply Program.Follows.step
    rw [handleResponse_error extracted]
    exact .refl _
  have round : (timerRound [] 1 .initial).run.Follows failedUpload
      (.done (.error .outOfRange)) := by
    rw [timerRound_run]
    apply Program.Follows.step
    rw [if_neg (Stores.initial_changed _), ExceptT.run_bind]
    exact upload.bind (.refl _)
  exact round.bind (.refl _)

theorem failedUpload_ends_monitor :
    ¬∀ bound location timeInterval events remaining,
      (timerControl bound location timeInterval).run.Follows events remaining →
      ∀ exception, remaining ≠ .done (.error exception) := by
  intro outlives
  exact outlives _ _ _ _ _ failedUpload_run _ rfl

theorem timerControl_outlives_iff_failedUpload :
    (∀ exception, (Program.done (.error .outOfRange) : Program monitor (Except StdException Empty)) ≠
        .done (.error exception)) ↔
      ∀ response ∈ responses failedUpload,
        marker <:+: response.text ∨ 13 ≤ response.text.length :=
  timerControl_outlives_iff failedUpload_run

end HumanMachine.Client
