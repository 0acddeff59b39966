import HumanMachine.Client.Sampling
import HumanMachine.Document.Tables

/-!
# The network with its tools

The clients of the network take their snapshots as they are given. Here they are complete:
samplings take their turns too, one exchange with a tool after the other, while requests are on
their way and the servlet is at work for other machines. Such a network refines the one with
given snapshots.
-/

namespace HumanMachine.Client

open Program (Follows inr)
open Server (Gson Database)

/-! ## Nodes with tools -/

/-- A complete client with what is on its way between it and the server. -/
structure CompleteNode where
  program : Program complete (Except StdException Empty)
  channel : Channel

inductive CompleteLabel where
  | tool (event : tools.Event)
  | shared (label : Label)

inductive CompleteStep (gson : Gson) : CompleteNode → CompleteLabel → CompleteNode → Prop where
  | tool {command : ToolCommand} {answer : tools.Answer command}
      {next : tools.Answer command → Program complete (Except StdException Empty)}
      {channel : Channel} :
      CompleteStep gson ⟨.call (.inr command) next, channel⟩ (.tool ⟨command, answer⟩)
        ⟨next answer, channel⟩
  | own {command : MonitorCommand} {answer : monitor.Answer command}
      {next : monitor.Answer command → Program complete (Except StdException Empty)}
      {channel : Channel} :
      CompleteStep gson ⟨.call (.inl (.inl command)) next, channel⟩ (.shared (.own ⟨command, answer⟩))
        ⟨next answer, channel⟩
  | system {command : SysCommand} {answer : sys.Answer command}
      {next : sys.Answer command → Program complete (Except StdException Empty)}
      {channel after : Channel} (carries : channel.Carries ⟨command, answer⟩ after) :
      CompleteStep gson ⟨.call (.inl (.inr command)) next, channel⟩
        (.shared (.system ⟨command, answer⟩)) ⟨next answer, after⟩
  | arrive {program : Program complete (Except StdException Empty)} {request : Bytes}
      {arrival : Arrival} :
      CompleteStep gson ⟨program, .arriving request⟩ (.shared (.arrive request arrival))
        ⟨program, .ofServlet (arrival.servlet gson)⟩
  | serve {program : Program complete (Except StdException Empty)} {command : fleet.Command}
      {next : fleet.Answer command → Program fleet (Option Response)}
      {answer : fleet.Answer command} :
      CompleteStep gson ⟨program, .serving (.call command next)⟩ (.shared (.serve ⟨command, answer⟩))
        ⟨program, .ofServlet (next answer)⟩

def CompleteLabel.effect : CompleteLabel → Option Server.Effect
  | .tool _ => none
  | .shared label => label.effect

def completeEffect (db : Database) (label : CompleteLabel) (after : Database) : Prop :=
  after = db.replay label.effect.toList

def initialCompleteNode (decode : Bytes → String) (toStyledString : Json → Bytes)
    (rounds bound : ℕ) (location : Bytes) (timeInterval : ℤ) : CompleteNode where
  program := completeProcess decode toStyledString rounds bound location timeInterval
  channel := .settled none

def CompleteLabel.tool? : CompleteLabel → Option tools.Event
  | .tool event => some event
  | .shared _ => none

def CompleteLabel.shared? : CompleteLabel → Option Label
  | .tool _ => none
  | .shared label => some label

/-- What a client with given snapshots asks of nobody else. -/
def Label.isShared (label : Label) : Bool :=
  label.snapshot.isNone

variable {gson : Gson} {decode : Bytes → String} {channel channel' : Channel}
  {program program' : Program complete (Except StdException Empty)} {label : CompleteLabel}

/-- All that a step can be: the server's, the tools', or one of a client with given snapshots. -/
theorem CompleteStep.cases (step : CompleteStep gson ⟨program, channel⟩ label ⟨program', channel'⟩) :
    (program' = program ∧ ∃ shared, label = .shared shared ∧ shared.isShared = true ∧
      ∀ client, NodeStep gson ⟨client, channel⟩ shared ⟨client, channel'⟩) ∨
    (∃ (command : ToolCommand) (next : tools.Answer command → Program complete _)
      (answer : tools.Answer command), program = .call (.inr command) next ∧
      program' = next answer ∧ channel' = channel ∧ label = .tool ⟨command, answer⟩) ∨
    ∃ (command : client.Command) (next : client.Answer command → Program complete _)
      (answer : client.Answer command) (shared : Label), program = .call (.inl command) next ∧
      program' = next answer ∧ label = .shared shared ∧
      (isSampling command = false → shared.isShared = true) ∧
      ∀ following, NodeStep gson ⟨.call command following, channel⟩ shared
        ⟨following answer, channel'⟩ := by
  cases step with
  | @tool command answer next => exact .inr (.inl ⟨command, next, answer, rfl, rfl, rfl, rfl⟩)
  | @own command answer next =>
      refine .inr (.inr ⟨.inl command, next, answer, _, rfl, rfl, rfl, ?_, fun _ => .own⟩)
      intro other
      cases command with
      | linuxCommand location => cases other
      | _ => rfl
  | @system command answer next _ _ carries =>
      exact .inr (.inr ⟨.inr command, next, answer, _, rfl, rfl, rfl, fun _ => rfl,
        fun _ => .system carries⟩)
  | arrive => exact .inl ⟨rfl, _, rfl, rfl, fun _ => .arrive⟩
  | serve => exact .inl ⟨rfl, _, rfl, rfl, fun _ => .serve⟩

/-! ## The account of the samplings -/

/-- The exchanges of a sampling which is not at its end. -/
def PartOfSampling (decode : Bytes → String) (location : Bytes) (inside : List tools.Event) : Prop :=
  ∃ left, Follows (overTools decode (.inl (.linuxCommand location))) (inside.map inr) left ∧
    ∀ snapshot, left ≠ .done snapshot

/-- The exchanges with the tools are those of some samplings and these further ones; the documents
of the samplings are the snapshots. -/
structure Account (decode : Bytes → String) (location : Bytes) (seen : List CompleteLabel)
    (shown : List Label) (inside : List tools.Event) : Prop where
  shared : shown.filter Label.isShared = seen.filterMap CompleteLabel.shared?
  sampled : ∃ samplings : List Outputs,
    seen.filterMap CompleteLabel.tool? = samplings.flatMap Outputs.events ++ inside ∧
    List.Forall₂ (fun outputs root => linuxCommand decode (decode location) outputs = some root)
      samplings (shown.filterMap Label.snapshot)

variable {location : Bytes} {seen : List CompleteLabel} {shown : List Label}
  {inside : List tools.Event}

theorem partOfSampling_nil : PartOfSampling decode location [] := by
  refine ⟨_, .refl _, ?_⟩
  intro snapshot same
  cases same

theorem Account.nil : Account decode location [] [] [] :=
  ⟨rfl, [], rfl, .nil⟩

theorem Account.tool (account : Account decode location seen shown inside) (event : tools.Event) :
    Account decode location (seen ++ [.tool event]) shown (inside ++ [event]) := by
  rcases account.sampled with ⟨samplings, printed, documents⟩
  constructor
  · rw [account.shared, List.filterMap_append]
    exact (List.append_nil _).symm
  · refine ⟨samplings, ?_, documents⟩
    rw [List.filterMap_append, printed, List.append_assoc]
    rfl

theorem Account.taken {outputs : Outputs} {snapshot : Snapshot}
    (account : Account decode location seen shown outputs.events)
    (document : linuxCommand decode (decode location) outputs = some snapshot.root) :
    Account decode location seen (shown ++ [.own ⟨.linuxCommand location, snapshot⟩]) [] := by
  rcases account.sampled with ⟨samplings, printed, documents⟩
  constructor
  · rw [List.filter_append, account.shared]
    exact List.append_nil _
  · refine ⟨samplings ++ [outputs], ?_, ?_⟩
    · rw [printed, List.flatMap_append, List.flatMap_singleton, List.append_nil]
    · rw [List.filterMap_append]
      exact List.rel_append documents (.cons document .nil)

theorem Account.step {other : Label} (account : Account decode location seen shown inside)
    (isShared : other.isShared = true) :
    Account decode location (seen ++ [.shared other]) (shown ++ [other]) inside := by
  rcases account.sampled with ⟨samplings, printed, documents⟩
  constructor
  · rw [List.filter_append, account.shared, List.filterMap_append, List.filter_cons_of_pos isShared]
    rfl
  · refine ⟨samplings, ?_, ?_⟩
    · rw [List.filterMap_append, printed]
      exact List.append_nil _
    · have none : other.snapshot = none := Option.isNone_iff_eq_none.mp isShared
      rw [List.filterMap_append, List.filterMap_cons_none none, List.filterMap_nil, List.append_nil]
      exact documents

/-! ## The client with given snapshots -/

variable {toStyledString : Json → Bytes} {rounds bound : ℕ} {timeInterval : ℤ}

/-- A complete client in the middle of what is in the place of a snapshot, or elsewhere, with the
client which is given the snapshots. -/
inductive Accompanied (decode : Bytes → String) (toStyledString : Json → Bytes) (rounds bound : ℕ)
    (location : Bytes) (timeInterval : ℤ) (seen : List CompleteLabel) (shown : List Label) :
    CompleteNode → Node → Prop where
  | between {program : Program client (Except StdException Empty)} {channel : Channel}
      {exchanges : List client.Event} (account : Account decode location seen shown [])
      (path : Follows (clientProcess toStyledString rounds bound location timeInterval) exchanges
        program)
      (noSampling : ∀ place next, program ≠ .call (.inl (.linuxCommand place)) next) :
      Accompanied decode toStyledString rounds bound location timeInterval seen shown
        ⟨Program.interpret (overTools decode) program, channel⟩ ⟨program, channel⟩
  | sampling {next : Snapshot → Program client (Except StdException Empty)}
      {inside : List tools.Event} {left : Program complete Snapshot} {channel : Channel}
      {exchanges : List client.Event} (account : Account decode location seen shown inside)
      (path : Follows (clientProcess toStyledString rounds bound location timeInterval) exchanges
        (.call (.inl (.linuxCommand location)) next))
      (samples : Follows (overTools decode (.inl (.linuxCommand location))) (inside.map inr) left)
      (isOpen : ∀ snapshot, left ≠ .done snapshot) :
      Accompanied decode toStyledString rounds bound location timeInterval seen shown
        ⟨left >>= fun snapshot => Program.interpret (overTools decode) (next snapshot), channel⟩
        ⟨.call (.inl (.linuxCommand location)) next, channel⟩

theorem accompanied_of_interpret {following : Program client (Except StdException Empty)}
    {exchanges : List client.Event} (account : Account decode location seen shown [])
    (path : Follows (clientProcess toStyledString rounds bound location timeInterval) exchanges
      following) :
    Accompanied decode toStyledString rounds bound location timeInterval seen shown
      ⟨Program.interpret (overTools decode) following, channel⟩ ⟨following, channel⟩ := by
  by_cases samples : ∃ place next, following = .call (.inl (.linuxCommand place)) next
  · rcases samples with ⟨place, next, rfl⟩
    have further : Follows (clientProcess toStyledString rounds bound location timeInterval)
        (exchanges ++ [⟨.inl (.linuxCommand place), machineWith []⟩]) (next (machineWith [])) :=
      path.trans (.step (.refl _))
    obtain rfl : place = location := location_of_snapshot further place (machineWith []) (by simp)
    have unfinished : ∀ snapshot, overTools decode (.inl (.linuxCommand place)) ≠ .done snapshot := by
      intro snapshot same
      cases same
    have start : Follows (overTools decode (.inl (.linuxCommand place)))
        (([] : List tools.Event).map inr) (overTools decode (.inl (.linuxCommand place))) :=
      .refl _
    exact .sampling account path start unfinished
  · refine .between account path ?_
    intro place next same
    exact samples ⟨place, next, same⟩

/-- What the complete client asks next, if it is not a tool. -/
theorem interpret_overTools_call {following : Program client (Except StdException Empty)}
    {command : complete.Command} {next : complete.Answer command → Program complete _}
    (noSampling : ∀ place next, following ≠ .call (.inl (.linuxCommand place)) next)
    (asks : Program.interpret (overTools decode) following = .call command next) :
    ∃ (own : client.Command) (further : client.Answer own → Program client _),
      following = .call own further ∧ isSampling own = false ∧
      (⟨command, next⟩ : (command : complete.Command) × (complete.Answer command → Program complete _)) =
        ⟨.inl own, fun answer => Program.interpret (overTools decode) (further answer)⟩ := by
  cases following with
  | done value => cases asks
  | unfinished => cases asks
  | call own further =>
      have other : isSampling own = false := by
        cases own with
        | inr call => rfl
        | inl command =>
            cases command with
            | linuxCommand place => exact absurd rfl (noSampling place further)
            | _ => rfl
      refine ⟨own, further, rfl, other, ?_⟩
      rw [Program.interpret, overTools_of_not_sampling other] at asks
      cases asks
      rfl

theorem inr_injective : Function.Injective (inr : tools.Event → complete.Event) := by
  rintro ⟨command, answer⟩ ⟨command', answer'⟩ same
  cases same
  rfl

def CompleteLabel.Shows (label : CompleteLabel) (shown : Label) : Prop :=
  label = .shared shown ∨ (∃ event, label = .tool event) ∧ shown.effect = none

/-- A step of a complete node is one of the node which is given the snapshots, or belongs to a
sampling which goes on. -/
theorem Accompanied.keepsPace {whole following : CompleteNode} {node : Node}
    (accompanied : Accompanied decode toStyledString rounds bound location timeInterval seen shown
      whole node)
    (step : CompleteStep gson whole label following) :
    (∃ event, label = .tool event) ∧ Accompanied decode toStyledString rounds bound location
        timeInterval (seen ++ [label]) shown following node ∨
      ∃ label' node', label.Shows label' ∧ NodeStep gson node label' node' ∧
        Accompanied decode toStyledString rounds bound location timeInterval (seen ++ [label])
          (shown ++ [label']) following node' := by
  rcases following with ⟨after, channel'⟩
  cases accompanied with
  | @between program channel exchanges account path noSampling =>
      rcases step.cases with ⟨rfl, shared, rfl, isShared, moves⟩ |
        ⟨command, next, answer, asks, rfl, rfl, rfl⟩ |
        ⟨command, next, answer, shared, asks, rfl, rfl, isShared, moves⟩
      · exact .inr ⟨shared, _, .inl rfl, moves program,
          .between (account.step isShared) path noSampling⟩
      · rcases interpret_overTools_call noSampling asks with ⟨own, further, rfl, other, same⟩
        cases same
      · rcases interpret_overTools_call noSampling asks with ⟨own, further, rfl, other, same⟩
        cases same
        have goesOn := path.trans (.step (.refl (further answer)))
        exact .inr ⟨shared, _, .inl rfl, moves further,
          accompanied_of_interpret (account.step (isShared other)) goesOn⟩
  | @sampling next inside left channel exchanges account path samples isOpen =>
      rcases step.cases with ⟨rfl, shared, rfl, isShared, moves⟩ |
        ⟨command, more, answer, asks, rfl, rfl, rfl⟩ |
        ⟨command, more, answer, shared, asks, rfl, rfl, isShared, moves⟩
      · exact .inr ⟨shared, _, .inl rfl, moves _,
          .sampling (account.step isShared) path samples isOpen⟩
      · cases left with
        | done snapshot => exact absurd rfl (isOpen snapshot)
        | unfinished => cases asks
        | call command' further =>
            rw [Program.call_bind] at asks
            cases asks
            have later : Follows (overTools decode (.inl (.linuxCommand location)))
                ((inside ++ [(⟨command, answer⟩ : tools.Event)]).map inr) (further answer) := by
              rw [List.map_append]
              exact samples.trans (.step (.refl _))
            by_cases ends : ∃ snapshot, further answer = .done snapshot
            · rcases ends with ⟨snapshot, ended⟩
              rw [ended] at later
              rcases overTools_snapshot_iff.mp later with ⟨outputs, printed, document⟩
              have account := account.tool ⟨command, answer⟩
              rw [inr_injective.list_map printed] at account
              have goesOn : Follows (clientProcess toStyledString rounds bound location timeInterval)
                  (exchanges ++ [⟨.inl (.linuxCommand location), snapshot⟩]) (next snapshot) :=
                path.trans (.step (.refl _))
              refine .inr ⟨.own ⟨.linuxCommand location, snapshot⟩, ⟨next snapshot, _⟩,
                .inr ⟨⟨_, rfl⟩, rfl⟩, .own, ?_⟩
              beta_reduce
              rw [ended]
              exact accompanied_of_interpret (account.taken document) goesOn
            · exact .inl ⟨⟨_, rfl⟩, .sampling (account.tool ⟨command, answer⟩) path later
                (not_exists.mp ends)⟩
      · cases left with
        | done snapshot => exact absurd rfl (isOpen snapshot)
        | unfinished => cases asks
        | call command' further =>
            rw [Program.call_bind] at asks
            cases asks
            have later : Follows (overTools decode (.inl (.linuxCommand location)))
                (inside.map inr ++ [⟨.inl command, answer⟩]) (further answer) :=
              samples.trans (.step (.refl _))
            have asked : (⟨.inl command, answer⟩ : complete.Event) ∈
                inside.map inr ++ [⟨.inl command, answer⟩] :=
              List.mem_append_right _ (List.mem_singleton_self _)
            have tool := overTools_of_sampling rfl later _ asked
            cases tool

theorem completeEffect_tool {before after : Database}
    (effects : completeEffect before label after) (silent : ∃ event, label = .tool event) :
    after = before := by
  rcases silent with ⟨event, rfl⟩
  exact effects

theorem CompleteLabel.Shows.accords {before after : Database} {shown : Label}
    (effects : completeEffect before label after) (shows : label.Shows shown) :
    networkEffect before shown after := by
  rcases shows with rfl | ⟨⟨event, rfl⟩, none⟩
  · exact effects
  · rw [networkEffect, none]
    exact effects

theorem Accompanied.account {whole : CompleteNode} {node : Node}
    (accompanied : Accompanied decode toStyledString rounds bound location timeInterval seen shown
      whole node) :
    node.channel = whole.channel ∧ ∃ inside, PartOfSampling decode location inside ∧
      Account decode location seen shown inside := by
  cases accompanied with
  | between account path noSampling => exact ⟨rfl, [], partOfSampling_nil, account⟩
  | sampling account path samples isOpen => exact ⟨rfl, _, ⟨_, samples, isOpen⟩, account⟩

/-- The run of the nodes which are given the snapshots. -/
theorem exists_nodeRun {ι : Type} [DecidableEq ι] {rounds bound : ι → ℕ} {location : ι → Bytes}
    {timeInterval : ι → ℤ} {db after : Database} {labels : List (ι × CompleteLabel)}
    {nodes : ι → CompleteNode}
    (run : SystemRun (CompleteStep gson) completeEffect
      (fun i => initialCompleteNode decode toStyledString (rounds i) (bound i) (location i)
        (timeInterval i)) db labels nodes after) :
    ∃ labels' nodes', SystemRun (NodeStep gson) networkEffect
        (fun i => initialNode toStyledString (rounds i) (bound i) (location i) (timeInterval i)) db
        labels' nodes' after ∧
      ∀ i, Accompanied decode toStyledString (rounds i) (bound i) (location i) (timeInterval i)
        (projection i labels) (projection i labels') (nodes i) (nodes' i) := by
  have start : ∀ i, Accompanied decode toStyledString (rounds i) (bound i) (location i)
      (timeInterval i) [] [] (initialCompleteNode decode toStyledString (rounds i) (bound i)
        (location i) (timeInterval i))
      (initialNode toStyledString (rounds i) (bound i) (location i) (timeInterval i)) :=
    fun i => accompanied_of_interpret .nil (.refl _)
  exact exists_systemRun run (fun i => Accompanied decode toStyledString (rounds i) (bound i)
    (location i) (timeInterval i)) start Accompanied.keepsPace completeEffect_tool
    CompleteLabel.Shows.accords

/-- Every run of complete clients with their server is matched by one of clients which are given
snapshots, over the same tables: these are the documents of the samplings, whose exchanges, and
those of one which is not at its end, are all that the tools are asked. -/
theorem complete_refines {ι : Type} [DecidableEq ι] {rounds bound : ι → ℕ} {location : ι → Bytes}
    {timeInterval : ι → ℤ} {db after : Database} {labels : List (ι × CompleteLabel)}
    {nodes : ι → CompleteNode}
    (run : SystemRun (CompleteStep gson) completeEffect
      (fun i => initialCompleteNode decode toStyledString (rounds i) (bound i) (location i)
        (timeInterval i)) db labels nodes after) :
    ∃ labels' nodes', SystemRun (NodeStep gson) networkEffect
        (fun i => initialNode toStyledString (rounds i) (bound i) (location i) (timeInterval i)) db
        labels' nodes' after ∧
      ∀ i, (nodes' i).channel = (nodes i).channel ∧ ∃ inside,
        PartOfSampling decode (location i) inside ∧
        Account decode (location i) (projection i labels) (projection i labels') inside := by
  rcases exists_nodeRun run with ⟨labels', nodes', run', accompanied⟩
  exact ⟨labels', nodes', run', fun i => (accompanied i).account⟩

/-! ### Two machines which sample -/

theorem componentRun_of_tools {events : List tools.Event}
    {left : Program complete (Except StdException Empty)}
    (follows : Follows program (events.map inr) left) :
    ComponentRun (CompleteStep gson) ⟨program, channel⟩ (events.map .tool) ⟨left, channel⟩ := by
  induction events generalizing program with
  | nil =>
      rw [follows.eq_of_nil]
      exact .refl _
  | cons event events ih =>
      rcases event with ⟨command, answer⟩
      cases follows with
      | step rest => exact .step .tool (ih rest)

/-- A node with its tools, between two samplings. -/
def Node.withTools (decode : Bytes → String) (node : Node) : CompleteNode where
  program := Program.interpret (overTools decode) node.program
  channel := node.channel

@[simp]
theorem Node.withTools_channel (node : Node) : (node.withTools decode).channel = node.channel := rfl

theorem NodeStep.withTools {node following : Node} {label : Label}
    (step : NodeStep gson node label following) (isShared : label.isShared = true) :
    CompleteStep gson (node.withTools decode) (.shared label) (following.withTools decode) := by
  cases step with
  | @own command answer next channel =>
      cases command with
      | linuxCommand location => cases isShared
      | _ => exact .own
  | system carries => exact .system carries
  | arrive => exact .arrive
  | serve => exact .serve

theorem componentRun_withTools {node last : Node} {labels : List Label}
    (run : ComponentRun (NodeStep gson) node labels last)
    (isShared : ∀ label ∈ labels, label.isShared = true) :
    ComponentRun (CompleteStep gson) (node.withTools decode) (labels.map .shared)
      (last.withTools decode) := by
  induction run with
  | refl node => exact .refl _
  | step moves rest ih =>
      rw [List.forall_mem_cons] at isShared
      exact .step (moves.withTools isShared.1) (ih isShared.2)

/-- The client behind its first snapshot. -/
def afterSnapshot (snapshot : Snapshot) : Program client (Except StdException Empty) →
    Program client (Except StdException Empty)
  | .call (.inl (.linuxCommand _)) next => next snapshot
  | program => program

theorem follows_afterSnapshot {program : Program client (Except StdException Empty)} {place : Bytes}
    (asks : ∃ next, program = .call (.inl (.linuxCommand place)) next) (snapshot : Snapshot) :
    Follows program [⟨.inl (.linuxCommand place), snapshot⟩] (afterSnapshot snapshot program) := by
  rcases asks with ⟨next, rfl⟩
  exact .step (.refl _)

/-- The tools print something for the first snapshot. -/
theorem first_sampled {outputs : Outputs} {snapshot : Snapshot}
    (document : linuxCommand latin (latin []) outputs = some snapshot.root) :
    Follows (completeProcess latin reportWriter 1 2 [] 1) (outputs.events.map inr)
      (Program.interpret (overTools latin)
        (afterSnapshot snapshot (clientProcess reportWriter 1 2 [] 1))) := by
  have samples : Follows (overTools latin (.inl (.linuxCommand [])))
      (outputs.events.map inr) (.done snapshot) :=
    overTools_snapshot_iff.mpr ⟨outputs, rfl, document⟩
  have asks : ∃ next, clientProcess reportWriter 1 2 [] 1 = .call (.inl (.linuxCommand [])) next :=
    ⟨_, rfl⟩
  have carried := (follows_afterSnapshot asks snapshot).carried (.cons samples .nil)
  rw [List.append_nil] at carried
  exact carried

def sampledNode (_ : Unit) : Node where
  program := afterSnapshot reportSnapshot (clientProcess reportWriter 1 2 [] 1)
  channel := .settled none

def sampledTurns : List Unit :=
  List.replicate 37 ()

/-- The upload of the report, with the run of the servlet. -/
def sampledLabels : List (Unit × Label) :=
  systemTranscript (promptMove reportGson reportArrivals reportAnswers) sampledTurns sampledNode

def sampledRemaining : Unit → Node :=
  systemOutcome (promptMove reportGson reportArrivals reportAnswers) sampledTurns sampledNode

theorem sampledLabels_run :
    ComponentRun (NodeStep reportGson) (sampledNode ()) (projection () sampledLabels)
      (sampledRemaining ()) :=
  (systemRun_transcript nodeStep_of_promptMove
    (fun (db : Database) label => db.replay label.effect.toList) sampledTurns sampledNode
    Server.sampleDatabase).component ()

theorem sampledLabels_checked :
    ((projection () sampledLabels).all fun label =>
        label.isShared && intactForReport (false, label)) = true ∧
      (lastRequest (projection () sampledLabels)).isSome = true ∧
      (sampledRemaining ()).channel.isSettled = true := by
  decide +kernel

/-- What the reporting machine does: it samples its report and uploads it. -/
def reporting : List CompleteLabel :=
  labReport.outputs.events.map .tool ++ (projection () sampledLabels).map .shared

/-- The other machine samples steady numbers, before and after the servlet is at work. -/
def sampledTranscript : List (Bool × CompleteLabel) :=
  (reporting.take 30).map (Prod.mk false) ++
    ((steady.events.take 12).map fun event => (true, .tool event)) ++
    (reporting.drop 30).map (Prod.mk false) ++
    ((steady.events.drop 12).map fun event => (true, .tool event))

theorem projection_sampledTranscript :
    projection false sampledTranscript = reporting ∧
      projection true sampledTranscript = steady.events.map .tool := by
  have others : ∀ events : List tools.Event,
      (events.map fun event => (true, CompleteLabel.tool event)) =
        (events.map CompleteLabel.tool).map (Prod.mk true) := by
    intro events
    rw [List.map_map]
    rfl
  simp only [sampledTranscript, others, projection_append, projection_map_self]
  constructor
  · rw [projection_map_of_ne (by decide), projection_map_of_ne (by decide), List.append_nil,
      List.append_nil, List.take_append_drop]
  · rw [projection_map_of_ne (by decide), projection_map_of_ne (by decide), List.nil_append,
      List.append_nil, ← List.map_append, List.take_append_drop]

def sampledDatabase : Database :=
  sampledTranscript.foldl (fun db turn => db.replay turn.2.effect.toList) Server.sampleDatabase

theorem sampledTranscript_run : ∃ remaining : Bool → CompleteNode,
    SystemRun (CompleteStep reportGson) completeEffect
      (fun _ => initialCompleteNode latin reportWriter 1 2 [] 1) Server.sampleDatabase
      sampledTranscript remaining sampledDatabase ∧
      (remaining false).channel = (sampledRemaining ()).channel := by
  have isShared : ∀ label ∈ projection () sampledLabels, label.isShared = true := by
    intro label mem
    have checked := List.all_eq_true.mp sampledLabels_checked.1 _ mem
    rw [Bool.and_eq_true] at checked
    exact checked.1
  rcases exists_snapshot_steady with ⟨snapshot, document⟩
  have other : ∃ last, ComponentRun (CompleteStep reportGson)
      (initialCompleteNode latin reportWriter 1 2 [] 1) (steady.events.map .tool) last :=
    ⟨_, componentRun_of_tools (first_sampled document)⟩
  rcases other with ⟨last, other⟩
  have samples : ComponentRun (CompleteStep reportGson)
      (initialCompleteNode latin reportWriter 1 2 [] 1) (labReport.outputs.events.map .tool)
      ((sampledNode ()).withTools latin) :=
    componentRun_of_tools (first_sampled linuxCommand_labReport)
  have reports := samples.trans (componentRun_withTools sampledLabels_run isShared)
  refine ⟨fun second => bif second then last else (sampledRemaining ()).withTools latin,
    systemRun_of_components (fun (db : Database) (label : CompleteLabel) =>
      db.replay label.effect.toList) ?_ Server.sampleDatabase, Node.withTools_channel _⟩
  intro second
  cases second with
  | false =>
      rw [projection_sampledTranscript.1]
      exact reports
  | true =>
      rw [projection_sampledTranscript.2]
      exact other

/-- A run in which two machines sample while one of them uploads its report. -/
theorem complete_refines_lab : ∃ (labels' : List (Bool × Label)) (nodes' : Bool → Node),
    SystemRun (NodeStep reportGson) networkEffect
        (fun _ => initialNode reportWriter 1 2 [] 1) Server.sampleDatabase labels' nodes'
        sampledDatabase ∧
      ∀ second, ∃ inside, PartOfSampling latin [] inside ∧
        Account latin [] (projection second sampledTranscript) (projection second labels') inside := by
  rcases sampledTranscript_run with ⟨remaining, run, _⟩
  rcases complete_refines run with ⟨labels', nodes', refined, accounts⟩
  exact ⟨labels', nodes', refined, fun second => (accounts second).2⟩

end HumanMachine.Client
