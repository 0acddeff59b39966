import HumanMachine.Client.Sys
import HumanMachine.Client.Url
import HumanMachine.Data.Json
import HumanMachine.Program.Loop

/-!
# The monitor loop of `TimeControl.h`

One round of the loop takes a snapshot with `linux_command`, compares it with
the stores, uploads it with `HttpPost` and looks for a deployment order in the
response. The uploaded text is `toStyledString` of the snapshot; the command
carries the document itself. What the loop prints is left out.
-/

namespace HumanMachine.Client

/-- The document has an array under the key. -/
def IsSection (document : Json) (key : String) : Prop :=
  ∃ elements, document.member? key = some (.arr elements)

/-- A document returned by `linux_command`: disk and memory info are always there. -/
structure Snapshot where
  root : Json
  disk : IsSection root "disk info"
  memory : IsSection root "memory info"

/-- The C string in `http_return` after a call of `HttpPost`: empty when the call
failed, else the received bytes up to the first NUL. -/
structure Response where
  text : Bytes
  noNul : 0 ∉ text
  fits : text.length ≤ BUFSIZE

inductive MonitorCommand where
  | linuxCommand (location : Bytes)
  | httpPost (url : Bytes) (data : Json)
  | dockerDeploy (dockerImage : Bytes)
  | sleep (seconds : ℤ)

abbrev monitor : Interface where
  Command := MonitorCommand
  Answer
    | .linuxCommand _ => Snapshot
    | .httpPost _ _ => Response
    | .dockerDeploy _ => Unit
    | .sleep _ => Unit

abbrev Cpp : Type → Type := ExceptT StdException (Program monitor)

def issue (command : MonitorCommand) : Cpp (monitor.Answer command) :=
  ExceptT.lift (@Program.request monitor command)

/-- What the loop remembers of a snapshot it uploads. -/
structure Stores where
  diskStore : Json
  memoryStore : Json
  dockerStore : Json

def Stores.initial : Stores where
  diskStore := .null
  memoryStore := .null
  dockerStore := .null

/-- The `sub` which is searched for in a response. -/
def marker : Bytes := ascii "POST request.\n"

/-- The text after the marker in a response. -/
def dockerImageOf (response : Bytes) : Except StdException Bytes :=
  -- The source passes the uninitialised `index` as the start of the search.
  let index := toInt (response.find marker)
  let index := toInt (toSizeT index + marker.length)
  response.substr (toSizeT index) (toSizeT (response.length - index))

/-- The comparison with the stores: the new stores, or nothing for `continue`. -/
def storeInfo (stores : Stores) (root : Json) : Option Stores :=
  if stores.diskStore.eq (root.get "disk info") && stores.memoryStore.eq (root.get "memory info") &&
      root.isMember "docker info" && stores.dockerStore.eq (root.get "docker info") then
    none
  -- Not `!root.isMember("docker info")`: the case above is a part of this one.
  else if stores.diskStore.eq (root.get "disk info") &&
      stores.memoryStore.eq (root.get "memory info") && root.isMember "docker info" then
    none
  else if root.isMember "docker info" then
    some
      { diskStore := root.get "disk info"
        memoryStore := root.get "memory info"
        dockerStore := root.get "docker info" }
  else
    some
      { stores with
        diskStore := root.get "disk info"
        memoryStore := root.get "memory info" }

/-- What the response to an upload leads to. -/
def handleResponse (timeInterval : ℤ) (response : Response) : Cpp Unit := do
  let dockerImage ← ExceptT.mk (pure (dockerImageOf response.text))
  if dockerImage ≠ ascii "null" then
    issue (.dockerDeploy dockerImage)
  issue (.sleep timeInterval)

def upload (timeInterval : ℤ) (root : Json) : Cpp Unit := do
  let response ← issue (.httpPost serverUrl root)
  handleResponse timeInterval response

/-- One round of the loop. -/
def timerRound (location : Bytes) (timeInterval : ℤ) (stores : Stores) : Cpp Stores := do
  let snapshot ← issue (.linuxCommand location)
  match storeInfo stores snapshot.root with
  | none => return stores
  | some stores =>
      upload timeInterval snapshot.root
      return stores

/-- The loop, for at most `rounds` rounds. -/
def timerControl (rounds : ℕ) (location : Bytes) (timeInterval : ℤ) : Cpp Empty :=
  Program.forever (timerRound location timeInterval) rounds Stores.initial

/-! ## What one round does -/

/-- The condition under which a round takes `continue`. -/
def Stores.unchanged (stores : Stores) (root : Json) : Bool :=
  stores.diskStore.eq (root.get "disk info") && stores.memoryStore.eq (root.get "memory info") &&
    root.isMember "docker info"

def Stores.stored (stores : Stores) (root : Json) : Stores where
  diskStore := root.get "disk info"
  memoryStore := root.get "memory info"
  dockerStore := if root.isMember "docker info" then root.get "docker info" else stores.dockerStore

theorem storeInfo_eq (stores : Stores) (root : Json) :
    storeInfo stores root = if stores.unchanged root then none else some (stores.stored root) := by
  simp only [storeInfo, Stores.unchanged, Stores.stored, Bool.and_eq_true]
  split_ifs <;> simp_all

/-- The thread started for an extracted image. -/
def deployment (dockerImage : Bytes) : List monitor.Event :=
  if dockerImage ≠ ascii "null" then [⟨.dockerDeploy dockerImage, ()⟩] else []

variable {location : Bytes} {timeInterval : ℤ} {stores after : Stores}
  {events : List monitor.Event}

theorem issue_bind {α : Type} (command : MonitorCommand)
    (continuation : monitor.Answer command → Cpp α) :
    (issue command >>= continuation).run =
      .call command fun answer => (continuation answer).run := rfl

theorem handleResponse_error {response : Response} {exception : StdException}
    (fails : dockerImageOf response.text = .error exception) :
    (handleResponse timeInterval response).run = .done (.error exception) := by
  rw [handleResponse, fails]
  rfl

theorem handleResponse_null {response : Response}
    (extracts : dockerImageOf response.text = .ok (ascii "null")) :
    (handleResponse timeInterval response).run =
      .call (.sleep timeInterval) fun _ => .done (.ok ()) := by
  rw [handleResponse, extracts]
  rfl

theorem handleResponse_image {response : Response} {dockerImage : Bytes}
    (extracts : dockerImageOf response.text = .ok dockerImage)
    (notNull : dockerImage ≠ ascii "null") :
    (handleResponse timeInterval response).run =
      .call (.dockerDeploy dockerImage) fun _ => .call (.sleep timeInterval) fun _ =>
        .done (.ok ()) := by
  have unfolded : (handleResponse timeInterval response).run =
      ExceptT.run (m := Program monitor) (if dockerImage ≠ ascii "null" then
        issue (.dockerDeploy dockerImage) >>= fun _ => issue (.sleep timeInterval)
      else issue (.sleep timeInterval)) := by
    rw [handleResponse, extracts]
    rfl
  rw [unfolded, if_pos notNull]
  rfl

theorem handleResponse_follows {response : Response}
    {remaining : Program monitor (Except StdException Unit)}
    (follows : (handleResponse timeInterval response).run.Follows events remaining) :
    events = [] ∧ remaining ≠ .done (.ok ()) ∨
      ∃ dockerImage, dockerImageOf response.text = .ok dockerImage ∧
        (events = deployment dockerImage ∧ remaining ≠ .done (.ok ()) ∨
          events = deployment dockerImage ++ [⟨.sleep timeInterval, ()⟩]) := by
  cases extracted : dockerImageOf response.text with
  | error exception =>
      rw [handleResponse_error extracted] at follows
      rcases follows.of_done with ⟨rfl, rfl⟩
      exact Or.inl ⟨rfl, by simp⟩
  | ok dockerImage =>
      by_cases isNull : dockerImage = ascii "null"
      · subst isNull
        rw [handleResponse_null extracted] at follows
        rcases follows.of_call with ⟨rfl, rfl⟩ | ⟨_, later, rfl, slept⟩
        · exact Or.inl ⟨rfl, by simp⟩
        · rcases slept.of_done with ⟨rfl, rfl⟩
          exact Or.inr ⟨_, rfl, Or.inr (by simp [deployment])⟩
      · rw [handleResponse_image extracted isNull] at follows
        have deploys : deployment dockerImage = [⟨.dockerDeploy dockerImage, ()⟩] := if_pos isNull
        rcases follows.of_call with ⟨rfl, rfl⟩ | ⟨_, later, rfl, deployed⟩
        · exact Or.inl ⟨rfl, by simp⟩
        · rcases deployed.of_call with ⟨rfl, rfl⟩ | ⟨_, later, rfl, slept⟩
          · exact Or.inr ⟨_, rfl, Or.inl ⟨deploys.symm, by simp⟩⟩
          · rcases slept.of_done with ⟨rfl, rfl⟩
            exact Or.inr ⟨_, rfl, Or.inr (by rw [deploys]; rfl)⟩

theorem timerRound_run : (timerRound location timeInterval stores).run =
    .call (.linuxCommand location) fun snapshot : Snapshot =>
      if stores.unchanged snapshot.root then .done (.ok stores)
      else (upload timeInterval snapshot.root >>= fun _ =>
        pure (stores.stored snapshot.root)).run := by
  have branches : ∀ snapshot : Snapshot,
      ExceptT.run (m := Program monitor) (match storeInfo stores snapshot.root with
        | none => pure stores
        | some stores => upload timeInterval snapshot.root >>= fun _ => pure stores) =
      if stores.unchanged snapshot.root then .done (.ok stores)
      else (upload timeInterval snapshot.root >>= fun _ =>
        pure (stores.stored snapshot.root)).run := by
    intro snapshot
    rw [storeInfo_eq]
    by_cases same : stores.unchanged snapshot.root = true
    · simp only [if_pos same]
      rfl
    · simp only [if_neg same]
  rw [timerRound, issue_bind]
  exact congrArg (Program.call (I := monitor) (.linuxCommand location)) (funext branches)

theorem upload_run (root : Json) : (upload timeInterval root).run =
    .call (.httpPost serverUrl root) fun response : Response =>
      (handleResponse timeInterval response).run :=
  issue_bind _ _

theorem timerRound_completes {after : Stores}
    (completes : (timerRound location timeInterval stores).run.Follows events (.done (.ok after))) :
    ∃ snapshot : Snapshot,
      stores.unchanged snapshot.root = true ∧ after = stores ∧
          events = [⟨.linuxCommand location, snapshot⟩] ∨
        ¬stores.unchanged snapshot.root = true ∧ after = stores.stored snapshot.root ∧
          ∃ (response : Response) (dockerImage : Bytes),
            dockerImageOf response.text = .ok dockerImage ∧
            events = ⟨.linuxCommand location, snapshot⟩ ::
              ⟨.httpPost serverUrl snapshot.root, response⟩ ::
              (deployment dockerImage ++ [⟨.sleep timeInterval, ()⟩]) := by
  rw [timerRound_run] at completes
  rcases completes.of_call_done with ⟨snapshot, later, rfl, branch⟩
  refine ⟨snapshot, ?_⟩
  by_cases same : stores.unchanged (Snapshot.root snapshot) = true
  · rw [if_pos same] at branch
    rcases branch.of_done with ⟨rfl, finished⟩
    cases finished
    exact Or.inl ⟨same, rfl, rfl⟩
  · rw [if_neg same] at branch
    rcases branch.of_bind_ok with ⟨first, second, _, rfl, uploads, finished⟩
    rcases finished.of_done with ⟨rfl, finished⟩
    cases finished
    rw [upload_run] at uploads
    rcases uploads.of_call_done with ⟨response, later, rfl, handles⟩
    rcases handleResponse_follows handles with ⟨_, impossible⟩ |
      ⟨dockerImage, extracted, ⟨_, impossible⟩ | rfl⟩
    · exact absurd rfl impossible
    · exact absurd rfl impossible
    · refine Or.inr ⟨same, rfl, response, dockerImage, extracted, ?_⟩
      simp

theorem timerRound_continues {snapshot : Snapshot}
    (same : stores.unchanged snapshot.root = true) :
    (timerRound location timeInterval stores).run.Follows [⟨.linuxCommand location, snapshot⟩]
      (.done (.ok stores)) := by
  rw [timerRound_run]
  apply Program.Follows.step
  rw [if_pos same]
  exact .refl _

theorem handleResponse_completes {response : Response} {dockerImage : Bytes}
    (extracts : dockerImageOf response.text = .ok dockerImage) :
    (handleResponse timeInterval response).run.Follows
      (deployment dockerImage ++ [⟨.sleep timeInterval, ()⟩]) (.done (.ok ())) := by
  by_cases isNull : dockerImage = ascii "null"
  · subst isNull
    rw [handleResponse_null extracts, deployment, if_neg (not_not_intro rfl)]
    exact .step (.refl _)
  · rw [handleResponse_image extracts isNull, deployment, if_pos isNull]
    exact .step (.step (.refl _))

theorem timerRound_uploads {snapshot : Snapshot} {response : Response} {dockerImage : Bytes}
    (changed : ¬stores.unchanged snapshot.root = true)
    (extracts : dockerImageOf response.text = .ok dockerImage) :
    (timerRound location timeInterval stores).run.Follows
      (⟨.linuxCommand location, snapshot⟩ :: ⟨.httpPost serverUrl snapshot.root, response⟩ ::
        (deployment dockerImage ++ [⟨.sleep timeInterval, ()⟩]))
      (.done (.ok (stores.stored snapshot.root))) := by
  have uploads : (upload timeInterval snapshot.root).run.Follows
      (⟨.httpPost serverUrl snapshot.root, response⟩ ::
        (deployment dockerImage ++ [⟨.sleep timeInterval, ()⟩])) (.done (.ok ())) := by
    rw [upload_run]
    exact .step (handleResponse_completes extracts)
  rw [timerRound_run]
  apply Program.Follows.step
  rw [if_neg changed, ← List.append_nil (_ :: _)]
  exact uploads.bind_ok (.refl _)

/-! ## The text after the marker -/

theorem marker_length : marker.length = 14 := by decide

theorem dockerImageOf_of_marker {response before rest : Bytes}
    (fits : response.length ≤ BUFSIZE)
    (occurrence : Bytes.FirstOccurrence marker response before rest) :
    dockerImageOf response = .ok rest := by
  have length : response.length = before.length + 14 + rest.length := by
    rw [occurrence.occurs, List.length_append, List.length_append, marker_length]
  have bound : response.length ≤ 41000 := fits
  have index : toInt (toSizeT (toInt before.length) + 14) = before.length + 14 := by
    simp only [toInt, toSizeT]
    omega
  have start : toSizeT (before.length + 14) = before.length + 14 := by
    simp only [toSizeT]
    omega
  have count : toSizeT (response.length - (before.length + 14)) = rest.length := by
    simp only [toSizeT]
    omega
  rw [dockerImageOf, Bytes.find_of_firstOccurrence occurrence, marker_length]
  simp only [Nat.cast_ofNat, index, start, count, Bytes.substr]
  rw [if_neg (by omega), occurrence.occurs]
  have prefixLength : (before ++ marker).length = before.length + 14 := by
    rw [List.length_append, marker_length]
  rw [List.drop_left' prefixLength, List.take_length]

/-- Without the marker, `npos` turns into the offset 13. -/
theorem dockerImageOf_of_no_marker {response : Bytes} (fits : response.length ≤ BUFSIZE)
    (absent : ¬marker <:+: response) :
    dockerImageOf response =
      if response.length < 13 then .error .outOfRange else .ok (response.drop 13) := by
  have bound : response.length ≤ 41000 := fits
  have index : toInt (toSizeT (toInt npos) + 14) = 13 := by decide
  have start : toSizeT 13 = 13 := by decide
  rw [dockerImageOf, Bytes.find_of_not_infix absent, marker_length]
  simp only [Nat.cast_ofNat, index, start, Bytes.substr, gt_iff_lt]
  by_cases short : response.length < 13
  · rw [if_pos short, if_pos short]
  · have count : toSizeT (response.length - 13) = (response.drop 13).length := by
      simp only [toSizeT, List.length_drop]
      omega
    rw [if_neg short, if_neg short, count, List.take_length]

end HumanMachine.Client
