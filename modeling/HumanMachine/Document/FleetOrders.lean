import HumanMachine.Document.Coherence

/-!
# What the machines deploy

A deployment comes directly after an upload, and the image was taken from its answer. If the
servlet has given the answer, it is the order which the file had for the machine itself when
the document of this upload had been stored. What else can be deployed stands on a page which
is not the servlet's answer.
-/

namespace HumanMachine.Client

open Program (Follows PoolRun Carried inr)
open Server (Gson Database JavaException jdbc storeBody getBodyData getDockerResponse respond)

variable {gson : Gson} {macAddress : Double}

abbrev deploys (dockerImage : Bytes) : fleet.Event :=
  ⟨.inl (.own (.dockerDeploy dockerImage)), ()⟩

def deployed (events : List fleet.Event) : List Bytes :=
  events.filterMap fun
    | ⟨.inl (.own (.dockerDeploy dockerImage)), _⟩ => some dockerImage
    | _ => none

theorem deployed_append (first second : List fleet.Event) :
    deployed (first ++ second) = deployed first ++ deployed second :=
  List.filterMap_append

theorem deployed_uploadRule : UploadRule gson fun events => deployed events = [] where
  nil := rfl
  append := by
    intro first second none noneAgain
    rw [deployed_append, none, noneAgain, List.append_nil]
  arrival := fun _ _ => rfl
  storing := by
    intro data input served left stores
    rw [deployed, List.filterMap_eq_nil_iff]
    intro event mem
    rcases List.mem_cons.mp mem with rfl | mem
    · rfl
    · rcases List.mem_map.mp mem with ⟨_, _, rfl⟩
      rfl
  orders := fun _ => rfl
  reply := fun _ _ => rfl

theorem not_deploys_of_deployed_eq_nil {before later : List fleet.Event} {dockerImage : Bytes} :
    deployed (before ++ deploys dockerImage :: later) ≠ [] := by
  rw [deployed_append]
  exact fun none => List.cons_ne_nil _ _ (List.append_eq_nil_iff.mp none).2

/-- A part of what stands in the place of a command deploys only if it is all of a deployment. -/
theorem served_deploys {command : MonitorCommand} {left : Program fleet (monitor.Answer command)}
    {before later : List fleet.Event} {dockerImage : Bytes}
    (follows : Follows (served gson command) (before ++ deploys dockerImage :: later) left) :
    command = .dockerDeploy dockerImage ∧ before = [] ∧ ∃ value, left = .done value := by
  cases command with
  | httpPost url data =>
      exact absurd (deployed_uploadRule.upload follows) not_deploys_of_deployed_eq_nil
  | _ =>
      rcases Follows.of_call follows with ⟨none, _⟩ | ⟨answer, rest, one, returns⟩
      · simp at none
      · rcases Follows.of_done returns with ⟨rfl, rfl⟩
        rcases before with _ | ⟨first, before⟩
        · cases one <;> exact ⟨rfl, rfl, _, rfl⟩
        · simp at one

/-- No deployment is under way. -/
theorem underway_not_deploys {middle : Program monitor (Except StdException Empty)}
    {before later : List fleet.Event} {dockerImage : Bytes}
    {left : Program fleet (Except StdException Empty)} :
    ¬Program.Underway (served gson) middle (before ++ deploys dockerImage :: later) left := by
  generalize within : before ++ deploys dockerImage :: later = inside
  intro underway
  cases underway with
  | between => simp at within
  | within begun follows isOpen =>
      rw [← within] at follows
      rcases (served_deploys follows).2.2 with ⟨value, finished⟩
      exact isOpen value finished

/-- Every deployment comes directly after an upload, from the answer to which the image was
extracted. -/
theorem deployment_after_upload {bound : ℕ} {location : Bytes} {timeInterval : ℤ}
    {before later : List fleet.Event} {dockerImage : Bytes}
    {left : Program fleet (Except StdException Empty)}
    (follows : Follows (machineProgram gson bound location timeInterval)
      (before ++ deploys dockerImage :: later) left) :
    ∃ earlier upload data response, before = earlier ++ upload ∧
      Uploaded gson data upload response ∧ dockerImageOf response.text = .ok dockerImage ∧
      dockerImage ≠ ascii "null" := by
  rcases follows.of_interpret with ⟨exchanges, middle, carried, inside, split, loops, carries, underway⟩
  have inCarried : ∃ rest, carried = before ++ deploys dockerImage :: rest := by
    rcases List.append_eq_append_iff.mp split with ⟨rest, within, later'⟩ | ⟨front, rfl, inInside⟩
    · cases rest with
      | nil =>
          rw [List.nil_append] at later'
          rw [← later', ← List.nil_append (_ :: later)] at underway
          exact absurd underway underway_not_deploys
      | cons first rest =>
          rw [List.cons_append, List.cons.injEq] at later'
          exact ⟨rest, later'.1 ▸ within⟩
    · rw [inInside] at underway
      exact absurd underway underway_not_deploys
  rcases inCarried with ⟨rest, within⟩
  rcases carries.of_mem_split within with ⟨earlier, command, answer, following, head, front, back,
    tail, rfl, rfl, _, headCarried, completes, _⟩
  rcases served_deploys completes with ⟨rfl, rfl, _⟩
  rcases timerControl_deploys loops earlier dockerImage following rfl with
    ⟨uploads, data, response, rfl, extracted, notNull⟩
  rcases headCarried.of_append with ⟨first, second, rfl, _, last⟩
  cases last with
  | cons uploaded nothing =>
      cases nothing
      rcases upload_follows uploaded (outsideServlet_done response) with ⟨unfinished, _⟩ | ⟨_, same, uploaded⟩
      · exact absurd rfl (unfinished response)
      · cases same
        refine ⟨first, _, data, response, ?_, uploaded, extracted, notNull⟩
        simp

/-! ## Whose order it is -/

/-- The page is not an answer of the servlet. -/
def IsPage (page : Response) (events : List fleet.Event) : Prop :=
  (∃ data, arrives data (.turnedAway page) ∈ events) ∨
    ∃ exception, replies (.error exception) (some page) ∈ events

/-- The servlet's answers arrive as they are, behind headers without the marker. -/
def AnswersArrive (events : List fleet.Event) : Prop :=
  ∀ result response, replies (.ok result) (some response) ∈ events →
    ∃ header, ¬marker <:+: header ∧ response.text = header ++ utf8 result

theorem storeBody_returns {data : String} {object : List (String × Json)} {macId : Double}
    {events : List jdbc.Event} (read : Server.readBody gson data = .ok (object, macAddress))
    (stores : Follows (storeBody gson (some data)).run events (.done (.ok macId))) :
    macId = macAddress := by
  rcases Follows.of_bind_ok stores with ⟨first, second, con, rfl, _, inserts⟩
  have run := Server.run_logging_of_follows inserts
  cases (con : Option ℕ) with
  | none => exact ((Server.insertData_ensures_of_null read ⟨[], false⟩).result run).elim
  | some connection =>
      have returns := (Server.insertData_ensures read ⟨[], false⟩).result run
      exact returns.2.1

/-- The exchanges in which a response was made. -/
inductive Made (gson : Gson) (data : Json) (response : Response) : List fleet.Event → Prop where
  | turnedAway : Made gson data response [arrives data (.turnedAway response)]
  | served {input : Option (List Char)} {done : List fleet.Event}
      {result : Except JavaException String} (ready : Ready gson input done result) :
      Made gson data response
        (arrives data (.reached input) :: (done ++ [replies result (some response)]))

theorem Attempted.made {data : Json} {events : List fleet.Event} {response : Response}
    (attempted : Attempted gson data events (some response)) : Made gson data response events := by
  cases attempted with
  | turnedAway => exact .turnedAway
  | served ready => exact .served ready

theorem Uploaded.made {data : Json} {events : List fleet.Event} {response : Response}
    (uploaded : Uploaded gson data events response) (answered : response ≠ noResponse) :
    ∃ earlier last, events = earlier ++ last ∧ Made gson data response last := by
  cases uploaded with
  | once attempted => exact ⟨[], events, rfl, attempted.made⟩
  | @twice first second response unanswered again =>
      cases response with
      | none => exact absurd rfl answered
      | some response => exact ⟨first, second, rfl, again.made⟩

/-- The document is stored under the id, the file is read, and what it orders for this id is
answered. -/
inductive FindsOrder (gson : Gson) (macAddress : Double) (input : Option (List Char))
    (order : String) : List fleet.Event → Prop where
  | found {served : List jdbc.Event} {dockerResponseJson : Option String} {result : String}
      {response : Response}
      (stores : Follows (storeBody gson (getBodyData input)).run served (.done (.ok macAddress)))
      (ordered : getDockerResponse gson dockerResponseJson macAddress = .ok order) :
      FindsOrder gson macAddress input order
        (served.map inr ++ [readsOrders dockerResponseJson, replies (.ok result) (some response)])

theorem order_of_deployment {bound : ℕ} {location : Bytes} {timeInterval : ℤ}
    {before later : List fleet.Event} {dockerImage : Bytes}
    {left : Program fleet (Except StdException Empty)}
    (follows : Follows (machineProgram gson bound location timeInterval)
      (before ++ deploys dockerImage :: later) left)
    (named : ∀ data input, arrives data (.reached input) ∈ before →
      Server.NamesMachine gson macAddress input)
    (arrive : AnswersArrive before) :
    (∃ earlier data input answering order,
      before = earlier ++ arrives data (.reached input) :: answering ∧
      FindsOrder gson macAddress input order answering ∧ order ≠ "null" ∧
      dockerImage = utf8 order) ∨
    ∃ page, IsPage page before ∧ dockerImageOf (Response.text page) = .ok dockerImage := by
  rcases deployment_after_upload follows with
    ⟨earlier, upload, data, response, rfl, uploaded, extracted, notNull⟩
  have answered : response ≠ noResponse := by
    rintro rfl
    rcases noResponse_fatal [] data with ⟨exception, fails⟩
    rw [extracted] at fails
    cases fails
  rcases uploaded.made answered with ⟨first, last, rfl, made⟩
  cases made with
  | turnedAway => exact .inr ⟨response, .inl ⟨data, by simp⟩, extracted⟩
  | @served input done result ready =>
      cases ready with
      | @failed served exception stores =>
          exact .inr ⟨response, .inr ⟨exception, by simp⟩, extracted⟩
      | @stored served macId dockerResponseJson stores =>
          generalize answers : respond gson none dockerResponseJson macId = result at *
          cases result with
          | error exception => exact .inr ⟨response, .inr ⟨exception, by simp⟩, extracted⟩
          | ok result =>
              left
              rcases respond_answers answers with ⟨order, ordered, encoded⟩
              rcases named data input (by simp) with ⟨body, isBody, object, read⟩
              rw [isBody] at stores
              obtain rfl : macId = macAddress := storeBody_returns read stores
              rw [← isBody] at stores
              rcases arrive result response (by simp) with ⟨header, absent, text⟩
              have fits := response.fits
              rw [text, encoded] at fits extracted
              rw [dockerImageOf_greeting absent fits, Except.ok.injEq] at extracted
              have found : FindsOrder gson macId input order (served.map inr ++
                  [readsOrders dockerResponseJson, replies (.ok result) (some response)]) :=
                .found stores ordered
              refine ⟨earlier ++ first, data, input, _, order, ?_, found, ?_, extracted.symm⟩
              · simp
              · rintro rfl
                apply notNull
                rw [← extracted]
                decide +kernel

end HumanMachine.Client
