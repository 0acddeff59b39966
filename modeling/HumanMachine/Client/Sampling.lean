import HumanMachine.Client.Main
import HumanMachine.Client.Pipelines

/-!
# The monitor over tools and sockets

`linux_command` hands its commands to a shell, one after the other, and reads each stream to
its end; between the two samples of the interfaces it sleeps. With it in the place of a
snapshot, the client asks for nothing but the commands of the machine. What it transmits is
the document of what these have printed last.
-/

namespace HumanMachine.Client

open Program (Follows Throughout Carried Underway inr)

inductive ToolCommand where
  | popen (command : Bytes)
  | pclose
  | sleep (seconds : ℤ)
  | exit (status : ℤ)

/-- `popen` answers what its stream delivers, if it returned a stream. -/
abbrev tools : HumanMachine.Interface where
  Command := ToolCommand
  Answer
    | .popen _ => Option Bytes
    | .pclose => Unit
    | .sleep _ => Unit
    | .exit _ => Empty

/-- `exec_command` and `string_exec_command`, up to the vector which they fill. -/
def collect (probe : Probe) : Program tools Bytes := do
  let fp : Option Bytes ← @Program.request tools (.popen probe.command)
  match fp with
  | none =>
      let ended ← @Program.request tools (.exit 1)
      nomatch ended
  | some output =>
      let _ ← @Program.request tools .pclose
      return output

/-- `linux_command`; it returns nothing where an index is out of range. -/
def linuxCommandOverTools (decode : Bytes → String) (location : String) :
    Program tools (Option Json) := do
  let cpuSourceAvailable ← collect .cpuSourceAvailable
  let cpuMHz ← collect .cpuMHz
  let cpuCores ← collect .cpuCores
  let memoryTotalInfo ← collect .memoryTotalInfo
  let memoryAvailableInfo ← collect .memoryAvailableInfo
  let diskTotalInfo ← collect .diskTotalInfo
  let diskAvailableInfo ← collect .diskAvailableInfo
  let ethFirstInfo ← collect .ethFirstInfo
  let _ ← @Program.request tools (.sleep 1)
  let ethSecondInfo ← collect .ethSecondInfo
  let dockerInfo ← collect .dockerInfo
  match dockerLoop (stringExecCommand dockerInfo) with
  | none => return none
  | some docker =>
      let macAddress ← collect .macAddress
      match (stringExecCommand macAddress)[0]? with
      | none => return none
      | some address =>
          let macId := stringToHashCode address
          let timestampInfo ← collect .timestampInfo
          match (stringExecCommand timestampInfo)[0]? with
          | none => return none
          | some _ =>
              let outputs : Outputs := ⟨cpuSourceAvailable, cpuMHz, cpuCores, memoryTotalInfo,
                memoryAvailableInfo, diskTotalInfo, diskAvailableInfo, ethFirstInfo, ethSecondInfo,
                dockerInfo, macAddress, timestampInfo⟩
              return dataToJson (outputs.samples decode docker macId location)

/-! ## A sampling -/

/-- A stream is opened, read to its end and closed. -/
def streamed (probe : Probe) (output : Bytes) : List tools.Event :=
  [⟨.popen probe.command, some output⟩, ⟨.pclose, ()⟩]

/-- The exchanges of a sampling in which the commands print these texts. -/
def Outputs.events (outputs : Outputs) : List tools.Event :=
  streamed .cpuSourceAvailable outputs.cpuSourceAvailable ++
    (streamed .cpuMHz outputs.cpuMHz ++ (streamed .cpuCores outputs.cpuCores ++
    (streamed .memoryTotalInfo outputs.memoryTotalInfo ++
    (streamed .memoryAvailableInfo outputs.memoryAvailableInfo ++
    (streamed .diskTotalInfo outputs.diskTotalInfo ++
    (streamed .diskAvailableInfo outputs.diskAvailableInfo ++
    (streamed .ethFirstInfo outputs.ethFirstInfo ++ (⟨.sleep 1, ()⟩ ::
    (streamed .ethSecondInfo outputs.ethSecondInfo ++ (streamed .dockerInfo outputs.dockerInfo ++
    (streamed .macAddress outputs.macAddress ++ (streamed .timestampInfo outputs.timestampInfo ++
    []))))))))))))

variable {decode : Bytes → String}

theorem collect_bind {α : Type} (probe : Probe) (next : Bytes → Program tools α) :
    (collect probe >>= next) = .call (.popen probe.command) fun fp : Option Bytes =>
      match fp with
      | none => .call (.exit 1) fun ended : Empty => ended.elim
      | some output => .call .pclose fun _ => next output := by
  apply congrArg (Program.call (I := tools) (.popen probe.command))
  funext fp
  cases fp with
  | some output => rfl
  | none =>
      apply congrArg (Program.call (I := tools) (.exit 1))
      funext ended
      cases ended

theorem collect_completes {α : Type} {probe : Probe} {next : Bytes → Program tools α} {value : α}
    {events : List tools.Event} (follows : Follows (collect probe >>= next) events (.done value)) :
    ∃ output later, events = streamed probe output ++ later ∧
      Follows (next output) later (.done value) := by
  rw [collect_bind] at follows
  rcases follows.of_call_done with ⟨fp, later, rfl, opened⟩
  cases fp with
  | none =>
      rcases Follows.of_call_done opened with ⟨ended, _⟩
      cases ended
  | some output =>
      rcases Follows.of_call_done opened with ⟨_, later, rfl, closed⟩
      exact ⟨output, later, rfl, closed⟩

theorem collect_follows {α : Type} {probe : Probe} {next : Bytes → Program tools α} {output : Bytes}
    {later : List tools.Event} {left : Program tools α} (follows : Follows (next output) later left) :
    Follows (collect probe >>= next) (streamed probe output ++ later) left := by
  rw [collect_bind]
  exact .step (.step follows)

theorem linuxCommand_of_read {location : String} {outputs : Outputs} {docker : DockerVectors}
    {address stamp : Bytes} (loop : dockerLoop (stringExecCommand outputs.dockerInfo) = some docker)
    (first : (stringExecCommand outputs.macAddress)[0]? = some address)
    (time : (stringExecCommand outputs.timestampInfo)[0]? = some stamp) :
    linuxCommand decode location outputs =
      dataToJson (outputs.samples decode docker (stringToHashCode address) location) := by
  rw [linuxCommand, loop, first, time]
  rfl

theorem linuxCommand_eq_some {location : String} {outputs : Outputs} {document : Json}
    (sampled : linuxCommand decode location outputs = some document) :
    ∃ docker address stamp, dockerLoop (stringExecCommand outputs.dockerInfo) = some docker ∧
      (stringExecCommand outputs.macAddress)[0]? = some address ∧
      (stringExecCommand outputs.timestampInfo)[0]? = some stamp ∧
      dataToJson (outputs.samples decode docker (stringToHashCode address) location) =
        some document := by
  rcases Option.bind_eq_some_iff.mp sampled with ⟨docker, loop, rest⟩
  rcases Option.bind_eq_some_iff.mp rest with ⟨address, first, rest⟩
  rcases Option.bind_eq_some_iff.mp rest with ⟨stamp, time, document⟩
  exact ⟨docker, address, stamp, loop, first, time, document⟩

/-- A sampling returns a document exactly if the commands print texts which have it. -/
theorem linuxCommandOverTools_returns_iff {location : String} {events : List tools.Event}
    {document : Json} :
    Follows (linuxCommandOverTools decode location) events (.done (some document)) ↔
      ∃ outputs : Outputs, events = outputs.events ∧
        linuxCommand decode location outputs = some document := by
  constructor
  · intro follows
    rcases collect_completes follows with ⟨cpuSourceAvailable, _, rfl, mhz⟩
    rcases collect_completes mhz with ⟨cpuMHz, _, rfl, cores⟩
    rcases collect_completes cores with ⟨cpuCores, _, rfl, memoryTotal⟩
    rcases collect_completes memoryTotal with ⟨memoryTotalInfo, _, rfl, memoryAvailable⟩
    rcases collect_completes memoryAvailable with ⟨memoryAvailableInfo, _, rfl, diskTotal⟩
    rcases collect_completes diskTotal with ⟨diskTotalInfo, _, rfl, diskAvailable⟩
    rcases collect_completes diskAvailable with ⟨diskAvailableInfo, _, rfl, ethFirst⟩
    rcases collect_completes ethFirst with ⟨ethFirstInfo, _, rfl, sleeps⟩
    rcases Follows.of_call_done sleeps with ⟨_, _, rfl, ethSecond⟩
    rcases collect_completes ethSecond with ⟨ethSecondInfo, _, rfl, stats⟩
    rcases collect_completes stats with ⟨dockerInfo, _, rfl, containers⟩
    cases loop : dockerLoop (stringExecCommand dockerInfo) with
    | none =>
        rw [loop] at containers
        cases containers.of_done.2
    | some docker =>
        rw [loop] at containers
        rcases collect_completes containers with ⟨macAddress, _, rfl, hashes⟩
        cases first : (stringExecCommand macAddress)[0]? with
        | none =>
            rw [first] at hashes
            cases hashes.of_done.2
        | some address =>
            rw [first] at hashes
            rcases collect_completes hashes with ⟨timestampInfo, _, rfl, prints⟩
            cases time : (stringExecCommand timestampInfo)[0]? with
            | none =>
                rw [time] at prints
                cases prints.of_done.2
            | some stamp =>
                rw [time] at prints
                rcases Follows.of_done prints with ⟨rfl, same⟩
                refine ⟨⟨cpuSourceAvailable, cpuMHz, cpuCores, memoryTotalInfo,
                  memoryAvailableInfo, diskTotalInfo, diskAvailableInfo, ethFirstInfo,
                  ethSecondInfo, dockerInfo, macAddress, timestampInfo⟩, rfl, ?_⟩
                rw [Program.done.injEq] at same
                exact (linuxCommand_of_read loop first time).trans same.symm
  · rintro ⟨outputs, rfl, sampled⟩
    rcases linuxCommand_eq_some sampled with ⟨docker, address, stamp, loop, first, time, document⟩
    apply collect_follows
    apply collect_follows
    apply collect_follows
    apply collect_follows
    apply collect_follows
    apply collect_follows
    apply collect_follows
    apply collect_follows
    apply Follows.step
    apply collect_follows
    apply collect_follows
    rw [loop]
    apply collect_follows
    rw [first]
    apply collect_follows
    rw [time]
    rw [← document]
    exact .refl _

/-! ## The complete client -/

/-- What surrounds the client, with nothing left of `linux_command` but the tools. -/
abbrev complete : HumanMachine.Interface :=
  client.sum tools

def isArray : Option Json → Bool
  | some (.arr _) => true
  | _ => false

theorem isArray_iff {document : Json} {key : String} :
    isArray (document.member? key) = true ↔ IsSection document key := by
  rw [IsSection]
  cases document.member? key with
  | none => simp [isArray]
  | some value => cases value <;> simp [isArray]

instance (document : Json) (key : String) : Decidable (IsSection document key) :=
  decidable_of_iff _ isArray_iff

/-- The snapshot with this document. -/
def snapshotOf (root : Json) : Option Snapshot :=
  if sections : IsSection root "disk info" ∧ IsSection root "memory info" then
    some ⟨root, sections.1, sections.2⟩
  else none

/-- `linux_command` in the place of a snapshot. When an index is out of range, the behaviour of
the client is undefined from there on. -/
def overTools (decode : Bytes → String) : Program.Handler client complete
  | .inl (.linuxCommand location) => do
      let root ← Program.interpret Program.onRight (linuxCommandOverTools decode (decode location))
      match root.bind snapshotOf with
      | some snapshot => return snapshot
      | none => .unfinished
  | .inl command => @Program.request complete (.inl (.inl command))
  | .inr call => @Program.request complete (.inl (.inr call))

def completeProcess (decode : Bytes → String) (toStyledString : Json → Bytes) (rounds bound : ℕ)
    (location : Bytes) (timeInterval : ℤ) : Program complete (Except StdException Empty) :=
  Program.interpret (overTools decode)
    (clientProcess toStyledString rounds bound location timeInterval)

theorem snapshotOf_eq_some_iff {root : Json} {snapshot : Snapshot} :
    snapshotOf root = some snapshot ↔ snapshot.root = root := by
  rw [snapshotOf]
  constructor
  · intro is
    split at is
    · cases is
      rfl
    · cases is
  · rintro rfl
    rw [dif_pos ⟨snapshot.disk, snapshot.memory⟩]

/-- A snapshot has been taken exactly if the tools have printed the texts of its document. -/
theorem overTools_snapshot_iff {location : Bytes} {events : List complete.Event} {snapshot : Snapshot} :
    Follows (overTools decode (.inl (.linuxCommand location))) events (.done snapshot) ↔
      ∃ outputs : Outputs, events = outputs.events.map inr ∧
        linuxCommand decode (decode location) outputs = some snapshot.root := by
  constructor
  · intro follows
    rcases Follows.of_bind_done follows with ⟨first, second, root, rfl, samples, rest⟩
    rcases Follows.of_onRight samples with ⟨exchanges, middle, rfl, runs, ended⟩
    have finished : middle = .done root := by
      cases middle with
      | done value =>
          rw [Program.interpret, Program.done.injEq] at ended
          rw [ended]
      | call command next => cases ended
      | unfinished => cases ended
    subst finished
    cases root with
    | none => cases rest
    | some root =>
        cases taken : snapshotOf root with
        | none =>
            have nothing : (some root).bind snapshotOf = none := taken
            rw [nothing] at rest
            cases rest
        | some snapshot' =>
            have something : (some root).bind snapshotOf = some snapshot' := taken
            rw [something] at rest
            rcases Follows.of_done rest with ⟨rfl, same⟩
            cases same
            rw [snapshotOf_eq_some_iff] at taken
            subst taken
            rcases linuxCommandOverTools_returns_iff.mp runs with ⟨outputs, rfl, document⟩
            exact ⟨outputs, List.append_nil _, document⟩
  · rintro ⟨outputs, rfl, document⟩
    have runs := (linuxCommandOverTools_returns_iff.mpr ⟨outputs, rfl, document⟩).embedded
      (I := client)
    rw [← List.append_nil (outputs.events.map inr)]
    apply runs.bind
    have taken : (some snapshot.root).bind snapshotOf = some snapshot :=
      snapshotOf_eq_some_iff.mpr rfl
    rw [taken]
    exact .refl _

/-! ## What is transmitted -/

def isTool : complete.Event → Bool
  | ⟨.inr _, _⟩ => true
  | ⟨.inl _, _⟩ => false

def isSampling : client.Command → Bool
  | .inl (.linuxCommand _) => true
  | _ => false

/-- Outside of a snapshot, the client asks for one thing at a time. -/
theorem overTools_of_not_sampling {command : client.Command} (other : isSampling command = false) :
    overTools decode command = @Program.request complete (.inl command) := by
  cases command with
  | inr call => rfl
  | inl command =>
      cases command with
      | linuxCommand location => cases other
      | _ => rfl

theorem overTools_of_sampling {command : client.Command} {events : List complete.Event}
    {left : Program complete (client.Answer command)} (sampling : isSampling command = true)
    (follows : Follows (overTools decode command) events left) :
    ∀ event ∈ events, isTool event = true := by
  cases command with
  | inr call => cases sampling
  | inl command =>
      cases command with
      | linuxCommand location =>
          have tooled : ∀ {exchanges : List tools.Event},
              ∀ event ∈ exchanges.map (inr (I := client)), isTool event = true := by
            intro exchanges event mem
            rcases List.mem_map.mp mem with ⟨exchange, _, rfl⟩
            rfl
          rcases Follows.of_bind follows with ⟨inside, samples, rfl⟩ |
            ⟨first, second, root, rfl, samples, rest⟩
          · rcases Follows.of_onRight samples with ⟨exchanges, _, rfl, _⟩
            exact tooled
          · rcases Follows.of_onRight samples with ⟨exchanges, _, rfl, _⟩
            have nothing : second = [] := by
              cases taken : root.bind snapshotOf with
              | some snapshot =>
                  rw [taken] at rest
                  exact (Follows.of_done rest).1
              | none =>
                  rw [taken] at rest
                  cases rest
                  rfl
            rw [nothing, List.append_nil]
            exact tooled
      | _ => cases sampling

/-- The exchange of the client which an exchange outside of the tools belongs to. -/
theorem overTools_of_own {command : client.Command} (event : client.Event)
    {front back : List complete.Event} {left : Program complete (client.Answer command)}
    (follows : Follows (overTools decode command) (front ++ ⟨.inl event.1, event.2⟩ :: back) left) :
    front = [] ∧ command = event.1 ∧ isSampling command = false ∧ ∃ answer, left = .done answer := by
  cases sampling : isSampling command with
  | true =>
      have tool := overTools_of_sampling sampling follows ⟨.inl event.1, event.2⟩ (by simp)
      cases tool
  | false =>
      rw [overTools_of_not_sampling sampling] at follows
      rcases Follows.of_call follows with ⟨nothing, _⟩ | ⟨answer, later, split, rest⟩
      · simp at nothing
      · rcases Follows.of_done rest with ⟨rfl, rfl⟩
        cases front with
        | nil =>
            rw [List.nil_append, List.cons.injEq] at split
            cases split.1
            exact ⟨rfl, rfl, rfl, _, rfl⟩
        | cons first front => simp at split

/-- An exchange outside of the tools. -/
def own (event : client.Event) : complete.Event :=
  ⟨.inl event.1, event.2⟩

theorem carried_of_others {exchanges : List client.Event}
    (others : ∀ event ∈ exchanges, isSampling event.1 = false) :
    Carried (overTools decode) exchanges (exchanges.map own) := by
  induction exchanges with
  | nil => exact .nil
  | cons event exchanges ih =>
      rcases event with ⟨command, answer⟩
      rw [List.forall_mem_cons] at others
      have completes : Follows (overTools decode command) [own ⟨command, answer⟩] (.done answer) := by
        rw [overTools_of_not_sampling others.1]
        exact .step (.refl _)
      exact .cons completes (ih others.2)

/-- What is carried out between two snapshots asks nothing of the tools. -/
theorem not_isTool_of_carried {exchanges : List client.Event} {carried : List complete.Event}
    (carries : Carried (overTools decode) exchanges carried)
    (none : ∀ event ∈ exchanges, isSampling event.1 = false) :
    ∀ event ∈ carried, isTool event = false := by
  induction carries with
  | nil => exact List.forall_mem_nil _
  | @cons command answer first rest events completes later ih =>
      rw [List.forall_mem_cons] at none
      rw [List.forall_mem_append]
      refine ⟨?_, ih none.2⟩
      have same := none.1
      rw [overTools_of_not_sampling same] at completes
      rcases Follows.of_call_done completes with ⟨_, _, rfl, ended⟩
      rcases Follows.of_done ended with ⟨rfl, _⟩
      exact List.forall_mem_singleton.mpr rfl

theorem Round.snapshot_next (round : Round) {event : client.Event}
    (other : isSampling event.1 = false) : (round.next event).snapshot = round.snapshot := by
  rcases event with ⟨command, answer⟩
  cases command with
  | inr call =>
      have next : round.next ⟨.inr call, answer⟩ = _ := round.next_inr ⟨call, answer⟩
      rw [next]
  | inl command =>
      cases command with
      | linuxCommand location => cases other
      | _ => rfl

theorem snapshot_of_foldl {events : List client.Event} {root : Json}
    (last : (events.foldl Round.next .initial).snapshot = some root) :
    ∃ before location snapshot since, events = before ++ ⟨.inl (.linuxCommand location), snapshot⟩ :: since ∧
      Snapshot.root snapshot = root ∧ ∀ event ∈ since, isSampling event.1 = false := by
  induction events using List.reverseRecOn with
  | nil => cases last
  | append_singleton events event ih =>
      rw [List.foldl_append, List.foldl_cons, List.foldl_nil] at last
      cases sampling : isSampling event.1 with
      | true =>
          rcases event with ⟨command, answer⟩
          cases command with
          | inr call => cases sampling
          | inl command =>
              cases command with
              | linuxCommand location =>
                  have isRoot : some (Snapshot.root answer) = some root := last
                  exact ⟨events, location, answer, [], rfl, Option.some.inj isRoot,
                    List.forall_mem_nil _⟩
              | _ => cases sampling
      | false =>
          rw [Round.snapshot_next _ sampling] at last
          rcases ih last with ⟨before, location, snapshot, since, rfl, isRoot, none⟩
          refine ⟨before, location, snapshot, since ++ [event], by simp, isRoot, ?_⟩
          rw [List.forall_mem_append]
          exact ⟨none, List.forall_mem_singleton.mpr sampling⟩

variable {toStyledString : Json → Bytes} {rounds bound : ℕ} {location : Bytes} {timeInterval : ℤ}

/-- All snapshots are taken with the location which was entered. -/
theorem location_of_snapshot {events : List client.Event}
    {remaining : Program client (Except StdException Empty)}
    (follows : Follows (clientProcess toStyledString rounds bound location timeInterval) events
      remaining) :
    ∀ place snapshot, ⟨.inl (.linuxCommand place), snapshot⟩ ∈ events → place = location := by
  have held := (clientProcess_runsOn bound).invariant_of_follows follows
    (fun _ events => ∀ place snapshot, ⟨.inl (.linuxCommand place), snapshot⟩ ∈ events →
      place = location) nofun ?_
  · rcases held with ⟨_, same, _⟩
    exact same
  · intro phase history event after same step place snapshot mem
    rcases List.mem_append.mp mem with earlier | now
    · exact same place snapshot earlier
    · rw [List.mem_singleton] at now
      subst now
      cases step with
      | own step noUpload => cases step <;> rfl

theorem transmits_last_snapshot {earlier later : List client.Event} {fd : ℤ} {data : Bytes} {ret : ℤ}
    {remaining : Program client (Except StdException Empty)}
    (follows : Follows (clientProcess toStyledString rounds bound location timeInterval)
      (earlier ++ ⟨.inr (.send fd data), ret⟩ :: later) remaining) :
    ∃ before snapshot since, earlier = before ++ ⟨.inl (.linuxCommand location), snapshot⟩ :: since ∧
      (∀ event ∈ since, isSampling event.1 = false) ∧
      data = uploadHead toStyledString (Snapshot.root snapshot) ++ [0] := by
  rcases exists_clientPhase follows with ⟨_, ⟨permitted, _⟩, _⟩
  rcases permitted.at_split with ⟨_, _, _, root, last, isUpload⟩
  rcases snapshot_of_foldl last with ⟨before, place, snapshot, since, rfl, rfl, none⟩
  obtain rfl : place = location := location_of_snapshot follows place snapshot (by simp)
  exact ⟨before, snapshot, since, rfl, none, isUpload⟩

/-- Every transmission is the upload of the document which the tools have printed last. -/
theorem transmits_last_sampling {earlier later : List complete.Event} {fd : ℤ} {data : Bytes} {ret : ℤ}
    {remaining : Program complete (Except StdException Empty)}
    (follows : Follows (completeProcess decode toStyledString rounds bound location timeInterval)
      (earlier ++ ⟨.inl (.inr (.send fd data)), ret⟩ :: later) remaining) :
    ∃ before outputs since root, earlier = before ++ (Outputs.events outputs).map inr ++ since ∧
      (∀ event ∈ since, isTool event = false) ∧
      linuxCommand decode (decode location) outputs = some root ∧
      data = uploadHead toStyledString root ++ [0] := by
  rcases Follows.of_interpret follows with ⟨exchanges, middle, carried, inside, split, runs, carries,
    underway⟩
  have notUnderway : ∀ front back, inside ≠ front ++ ⟨.inl (.inr (.send fd data)), ret⟩ :: back := by
    intro front back inFront
    cases underway with
    | between => simp at inFront
    | within begun within isOpen =>
        rw [inFront] at within
        rcases overTools_of_own ⟨.inr (.send fd data), ret⟩ within with
          ⟨_, _, _, answer, rfl⟩
        exact isOpen answer rfl
  rcases List.append_eq_append_iff.mp split with ⟨front, inCarried, rest⟩ | ⟨back, inInside, rest⟩
  · cases front with
    | nil => exact absurd rest.symm (notUnderway [] later)
    | cons event front =>
        rw [List.cons_append, List.cons.injEq] at rest
        rcases rest with ⟨rfl, _⟩
        rcases carries.of_mem_split inCarried with ⟨before, command, answer, after, head, inFront,
          inBack, tail, rfl, rfl, rfl, headCarried, completes, tailCarried⟩
        rcases overTools_of_own ⟨.inr (.send fd data), ret⟩ completes with
          ⟨rfl, rfl, _, _⟩
        rcases transmits_last_snapshot runs with ⟨first, snapshot, since, rfl, none, isUpload⟩
        rcases headCarried.of_append with ⟨firstCarried, rest, rfl, _, sampled⟩
        cases sampled with
        | cons samples sinceCarried =>
            rcases overTools_snapshot_iff.mp samples with ⟨outputs, rfl, document⟩
            refine ⟨firstCarried, outputs, _, snapshot.root, ?_, not_isTool_of_carried sinceCarried none,
              document, isUpload⟩
            rw [List.append_nil, List.append_assoc]
  · exact absurd rest (notUnderway back later)

/-! ### A sampling of an idle machine -/

/-- A machine with one interface, which both outputs of `ifconfig` have. -/
def steady : Outputs :=
  { shrinking with ethSecondInfo := ascii "2048\n1024\n" }

theorem exists_snapshot_steady :
    ∃ snapshot : Snapshot, linuxCommand latin (latin []) steady = some snapshot.root := by
  have documents : (linuxCommand latin (latin []) steady).isSome :=
    (isSome_linuxCommand_iff latin steady (latin [])).mpr
      ⟨rfl, by decide, by decide, ⟨by decide, by decide, by decide, by decide, by decide, by decide,
        by decide, by decide⟩⟩
  rcases Option.isSome_iff_exists.mp documents with ⟨document, sampled⟩
  rcases linuxCommand_eq_some sampled with ⟨_, _, _, _, _, _, built⟩
  rcases exists_snapshot_of_dataToJson built with ⟨snapshot, rfl⟩
  exact ⟨snapshot, sampled⟩

/-- The client samples the machine, uploads the document and deploys what is ordered. -/
def steadyEvents : List complete.Event :=
  steady.events.map inr ++ nginxRound.map own

theorem isSampling_nginxRound : ∀ event ∈ nginxRound, isSampling event.1 = false := by
  rw [nginxRound, List.forall_mem_append, List.forall_mem_map]
  refine ⟨fun _ _ => rfl, ?_⟩
  rw [List.forall_mem_cons]
  exact ⟨rfl, List.forall_mem_singleton.mpr rfl⟩

theorem steadyEvents_follow : ∃ left,
    Follows (completeProcess latin (fun _ => []) 1 1 [] 1) steadyEvents left := by
  rcases exists_snapshot_steady with ⟨snapshot, document⟩
  have follows := nginxRound_follows snapshot 0
  have samples : Follows (overTools latin (.inl (.linuxCommand []))) (steady.events.map inr)
      (.done snapshot) :=
    overTools_snapshot_iff.mpr ⟨steady, rfl, document⟩
  have carries := Carried.cons samples (carried_of_others isSampling_nginxRound)
  exact ⟨_, follows.carried carries⟩

def isSend : sys.Event → Bool
  | ⟨.send _ _, _⟩ => true
  | _ => false

theorem exists_send_nginxUpload : ∃ (fd : ℤ) (data : Bytes) (ret : ℤ),
    (⟨.send fd data, ret⟩ : sys.Event) ∈ nginxUpload := by
  have sends : nginxUpload.any isSend = true := by decide +kernel
  rcases List.any_eq_true.mp sends with ⟨⟨command, ret⟩, mem, is⟩
  cases command with
  | send fd data => exact ⟨fd, data, ret, mem⟩
  | _ => cases is

theorem transmits_last_sampling_steady : ∃ earlier fd data ret later,
    steadyEvents = earlier ++ ⟨.inl (.inr (.send fd data)), ret⟩ :: later ∧
      ∃ before outputs since root, earlier = before ++ (Outputs.events outputs).map inr ++ since ∧
        (∀ event ∈ since, isTool event = false) ∧
        linuxCommand latin (latin []) outputs = some root ∧
        data = uploadHead (fun _ => []) root ++ [0] := by
  rcases exists_send_nginxUpload with ⟨fd, data, ret, mem⟩
  have sent : ⟨.inl (.inr (.send fd data)), ret⟩ ∈ steadyEvents := by
    apply List.mem_append_right
    have inRound : (inr ⟨.send fd data, ret⟩ : client.Event) ∈ nginxRound :=
      List.mem_append_left _ (List.mem_map_of_mem mem)
    exact List.mem_map_of_mem inRound
  rcases List.append_of_mem sent with ⟨earlier, later, split⟩
  rcases steadyEvents_follow with ⟨left, follows⟩
  rw [split] at follows
  exact ⟨earlier, fd, data, ret, later, split, transmits_last_sampling follows⟩

end HumanMachine.Client
