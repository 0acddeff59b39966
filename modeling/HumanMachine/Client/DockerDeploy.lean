import HumanMachine.Client.Monitor
import HumanMachine.Data.Shell

/-!
# Deploying an image: `dockerDeploy`

The thread which the monitor starts for an order writes the image behind `docker pull` and
`docker run` and hands both texts to a shell. It quotes nothing and checks nothing. What it
passes to `popen` is the pointer to the characters of a string which is destroyed by then: the
shell is given what stands there when `popen` reads it, the characters of that string or others.
-/

namespace HumanMachine.Client.DockerDeploy

open Shell (IsSimpleCommand Plain)

/-- The command of `popen` is the string which had the characters at its pointer. -/
inductive DeployCommand where
  | popen (command : Bytes)
  | pclose
  | exit (status : ℤ)

/-- `popen` answers which text it has found at the pointer and whether it returned a stream. -/
abbrev deployer : Interface where
  Command := DeployCommand
  Answer
    | .popen _ => Bytes × Bool
    | .pclose => Unit
    | .exit _ => Empty

def execCommand (command : Bytes) : Program deployer Unit := do
  let (_, fp) ← @Program.request deployer (.popen command)
  if !fp then
    let ended ← @Program.request deployer (.exit 1)
    nomatch ended
  @Program.request deployer .pclose

def dockerDeploy (dockerImage : Bytes) : Program deployer Unit := do
  let downloadCommand := ascii "docker pull " ++ dockerImage
  execCommand downloadCommand
  let deployCommand := ascii "docker run " ++ dockerImage
  execCommand deployCommand

/-- The texts which are given to a shell. -/
def commandsOf (events : List deployer.Event) : List Bytes :=
  events.filterMap fun
    | ⟨.popen _, (found, _)⟩ => some found
    | _ => none

/-- The freed characters are still in place whenever `popen` reads them. -/
def InPlace (events : List deployer.Event) : Prop :=
  ∀ command found fp, ⟨.popen command, (found, fp)⟩ ∈ events → found = command

/-- The shell is given docker commands for the image and nothing else. -/
def DockerOnly (dockerImage : Bytes) (events : List deployer.Event) : Prop :=
  ∃ verbs, verbs <+: [ascii "pull", ascii "run"] ∧
    List.Forall₂ (fun verb command => IsSimpleCommand command [ascii "docker", verb, dockerImage])
      verbs (commandsOf events)

/-- In every run in which the freed characters are still in place, the shell is given docker
commands for the image and nothing else. -/
def RunsDocker (dockerImage : Bytes) : Prop :=
  ∀ events remaining, (dockerDeploy dockerImage).Follows events remaining → InPlace events →
    DockerOnly dockerImage events

/-! ## The commands of a deployment -/

variable {events : List deployer.Event} {dockerImage : Bytes}

theorem execCommand_bind (command : Bytes) (rest : Program deployer Unit) :
    (execCommand command >>= fun _ => rest) =
      .call (.popen command) fun opened : Bytes × Bool =>
        if opened.2 then .call .pclose fun _ => rest
        else .call (.exit 1) fun ended : Empty => ended.elim := by
  apply congrArg (Program.call (I := deployer) (.popen command))
  funext opened
  rcases opened with ⟨found, fp⟩
  cases fp with
  | true => rfl
  | false =>
      apply congrArg (Program.call (I := deployer) (.exit 1))
      funext ended
      cases ended

theorem InPlace.tail {event : deployer.Event} (inPlace : InPlace (event :: events)) :
    InPlace events :=
  fun command found fp mem => inPlace command found fp (List.mem_cons_of_mem _ mem)

/-- A command is followed by what is left, unless the run stops at it. -/
theorem execCommand_follows {command : Bytes} {rest remaining : Program deployer Unit}
    (follows : (execCommand command >>= fun _ => rest).Follows events remaining)
    (inPlace : InPlace events) :
    commandsOf events <+: [command] ∨ ∃ later, commandsOf events = command :: commandsOf later ∧
      InPlace later ∧ rest.Follows later remaining := by
  rw [execCommand_bind] at follows
  rcases follows.of_call with ⟨rfl, _⟩ | ⟨⟨found, fp⟩, later, rfl, opened⟩
  · exact .inl (List.nil_prefix)
  · obtain rfl : found = command := inPlace command found fp List.mem_cons_self
    cases fp with
    | true =>
        rcases Program.Follows.of_call opened with ⟨rfl, _⟩ | ⟨_, later, rfl, closed⟩
        · exact .inl (List.prefix_refl _)
        · exact .inr ⟨later, rfl, inPlace.tail.tail, closed⟩
    | false =>
        rcases Program.Follows.of_call opened with ⟨rfl, _⟩ | ⟨ended, _⟩
        · exact .inl (List.prefix_refl _)
        · cases ended

theorem dockerDeploy_commands {remaining : Program deployer Unit}
    (follows : (dockerDeploy dockerImage).Follows events remaining) (inPlace : InPlace events) :
    commandsOf events <+: [ascii "docker pull " ++ dockerImage, ascii "docker run " ++ dockerImage] := by
  rcases execCommand_follows follows inPlace with only | ⟨later, commands, still, rest⟩
  · exact only.trans ⟨[_], rfl⟩
  · rw [commands, List.prefix_cons_inj]
    have last : (execCommand (ascii "docker run " ++ dockerImage) >>= fun _ =>
        .done ()).Follows later remaining := by
      rwa [Program.bind_done]
    rcases execCommand_follows last still with only | ⟨last, commands, _, finished⟩
    · exact only
    · rcases finished.of_done with ⟨rfl, _⟩
      rw [commands]
      exact List.prefix_refl _

theorem isSimpleCommand_pull : IsSimpleCommand (ascii "docker pull " ++ dockerImage)
    [ascii "docker", ascii "pull", dockerImage] ↔ Plain dockerImage :=
  Shell.isSimpleCommand_append_iff (by decide +kernel)
    ⟨ascii "docker", [ascii "pull"], rfl, by decide +kernel⟩ dockerImage

theorem isSimpleCommand_run : IsSimpleCommand (ascii "docker run " ++ dockerImage)
    [ascii "docker", ascii "run", dockerImage] ↔ Plain dockerImage :=
  Shell.isSimpleCommand_append_iff (by decide +kernel)
    ⟨ascii "docker", [ascii "run"], rfl, by decide +kernel⟩ dockerImage

/-- The image is to be pulled, and the shell is given this text. -/
def pulling (dockerImage found : Bytes) (fp : Bool) : List deployer.Event :=
  [⟨.popen (ascii "docker pull " ++ dockerImage), (found, fp)⟩]

theorem pulling_follows (dockerImage found : Bytes) (fp : Bool) :
    ∃ remaining, (dockerDeploy dockerImage).Follows (pulling dockerImage found fp) remaining :=
  ⟨_, .step (.refl _)⟩

theorem DockerOnly.of_pulling {found : Bytes} {fp : Bool}
    (only : DockerOnly dockerImage (pulling dockerImage found fp)) :
    IsSimpleCommand found [ascii "docker", ascii "pull", dockerImage] := by
  rcases only with ⟨verbs, among, commands⟩
  have listed : List.Forall₂ (fun verb command =>
      IsSimpleCommand command [ascii "docker", verb, dockerImage]) verbs [found] := commands
  rcases List.forall₂_cons_right_iff.mp listed with ⟨verb, others, isCommand, none, rfl⟩
  have pull : verb = ascii "pull" := (List.cons_prefix_cons.mp among).1
  rwa [pull] at isCommand

theorem inPlace_pulling (dockerImage : Bytes) (fp : Bool) :
    InPlace (pulling dockerImage (ascii "docker pull " ++ dockerImage) fp) := by
  intro command found opened mem
  cases List.mem_singleton.mp mem
  rfl

/-- While the freed characters are in place, the commands are as they should be exactly if the
image is plain. -/
theorem runsDocker_iff : RunsDocker dockerImage ↔ Plain dockerImage := by
  constructor
  · intro runs
    rcases pulling_follows dockerImage (ascii "docker pull " ++ dockerImage) false with
      ⟨remaining, follows⟩
    have only := runs _ _ follows (inPlace_pulling dockerImage false)
    exact isSimpleCommand_pull.mp only.of_pulling
  · intro plain events remaining follows inPlace
    have both : List.Forall₂ (fun verb command =>
        IsSimpleCommand command [ascii "docker", verb, dockerImage]) [ascii "pull", ascii "run"]
        [ascii "docker pull " ++ dockerImage, ascii "docker run " ++ dockerImage] :=
      .cons (isSimpleCommand_pull.mpr plain) (.cons (isSimpleCommand_run.mpr plain) .nil)
    have issued := dockerDeploy_commands follows inPlace
    have some := List.forall₂_take (commandsOf events).length both
    rw [← List.prefix_iff_eq_take.mp issued] at some
    exact ⟨_, List.take_prefix _ _, some⟩

/-- Once the characters are overwritten, a shell can be given anything. -/
theorem exists_not_dockerOnly (dockerImage : Bytes) :
    ∃ events remaining, (dockerDeploy dockerImage).Follows events remaining ∧
      ¬DockerOnly dockerImage events := by
  rcases pulling_follows dockerImage (ascii "reboot") true with ⟨remaining, follows⟩
  refine ⟨_, remaining, follows, ?_⟩
  intro only
  rcases only.of_pulling.tokens with ⟨newlines, tokens⟩
  have reboot : Shell.tokens (ascii "reboot") = some [Shell.literal (ascii "reboot")] := by
    decide +kernel
  rw [reboot] at tokens
  simp at tokens

/-! ## The order in a response -/

theorem mem_deployment (notNull : dockerImage ≠ ascii "null") (rest : List monitor.Event) :
    ⟨.dockerDeploy dockerImage, ()⟩ ∈ deployment dockerImage ++ rest := by
  rw [deployment, if_pos notNull]
  exact List.mem_cons_self

/-- Only the extracted text is deployed, and not if it is `null`. -/
theorem deployed_of_extracted {response : Response} {timeInterval : ℤ} {image : Bytes}
    {events : List monitor.Event} {remaining : Program monitor (Except StdException Unit)}
    (extracted : dockerImageOf response.text = .ok dockerImage)
    (follows : (handleResponse timeInterval response).run.Follows events remaining)
    (mem : ⟨.dockerDeploy image, ()⟩ ∈ events) :
    image = dockerImage ∧ dockerImage ≠ ascii "null" := by
  have among : ⟨.dockerDeploy image, ()⟩ ∈ deployment dockerImage := by
    rcases handleResponse_follows follows with ⟨rfl, _⟩ | ⟨other, same, ⟨rfl, _⟩ | rfl⟩
    · simp at mem
    · rw [extracted, Except.ok.injEq] at same
      rwa [same]
    · rw [extracted, Except.ok.injEq] at same
      simpa [same] using mem
  by_cases isNull : dockerImage = ascii "null"
  · simp [deployment, isNull] at among
  · exact ⟨by simpa [deployment, isNull] using among, isNull⟩

/-- An order for the image `nginx`. -/
def nginxOrder : Response where
  text := marker ++ ascii "nginx"
  noNul := by decide +kernel
  fits := by decide +kernel

/-- An order with a second command behind the image. -/
def rebootOrder : Response where
  text := marker ++ ascii "nginx;reboot"
  noNul := by decide +kernel
  fits := by decide +kernel

theorem extracted_of_marker {response : Response} {dockerImage : Bytes}
    (is : response.text = marker ++ dockerImage) :
    dockerImageOf response.text = .ok dockerImage := by
  have first : Bytes.FirstOccurrence marker response.text [] dockerImage :=
    ⟨is, fun _ _ _ => Nat.zero_le _⟩
  exact dockerImageOf_of_marker response.fits first

/-- The exchanges of a deployment whose streams are opened, with the freed characters in place. -/
def deployedInPlace (dockerImage : Bytes) : List deployer.Event :=
  [⟨.popen (ascii "docker pull " ++ dockerImage), (ascii "docker pull " ++ dockerImage, true)⟩,
    ⟨.pclose, ()⟩,
    ⟨.popen (ascii "docker run " ++ dockerImage), (ascii "docker run " ++ dockerImage, true)⟩,
    ⟨.pclose, ()⟩]

theorem inPlace_deployedInPlace (dockerImage : Bytes) : InPlace (deployedInPlace dockerImage) := by
  intro command found fp mem
  simp only [deployedInPlace, List.mem_cons, Sigma.mk.injEq, DeployCommand.popen.injEq,
    List.not_mem_nil, or_false] at mem
  rcases mem with ⟨rfl, opened⟩ | ⟨impossible, _⟩ | ⟨rfl, opened⟩ | ⟨impossible, _⟩
  · exact congrArg Prod.fst (eq_of_heq opened)
  · cases impossible
  · exact congrArg Prod.fst (eq_of_heq opened)
  · cases impossible

end HumanMachine.Client.DockerDeploy
