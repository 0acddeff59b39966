import HumanMachine.Client.Sampling
import HumanMachine.Program.Heeds

/-!
# The streams of the tools

`exec_command` closes a stream before anything else is done, and calls `exit` when there is
none. The complete client does so in whatever it is in the middle of, and nowhere else.
-/

namespace HumanMachine.Client

open Program (Follows Heeds inr statusAfter)

/-- What an exchange leaves of a stream. -/
inductive StreamStatus where
  | quiet
  | opened
  | failed

def toolStatus : tools.Event → StreamStatus
  | ⟨.popen _, some _⟩ => .opened
  | ⟨.popen _, none⟩ => .failed
  | _ => .quiet

def streamStatus : complete.Event → StreamStatus
  | ⟨.inr command, answer⟩ => toolStatus ⟨command, answer⟩
  | ⟨.inl _, _⟩ => .quiet

def isOwed : Option complete.Command → Bool
  | some (.inr .pclose) | some (.inr (.exit _)) => true
  | _ => false

/-- An open stream is closed next, and without a stream the process exits; otherwise there is
neither. -/
def StreamRule : StreamStatus → Option complete.Command → Prop
  | .quiet, command => isOwed command = false
  | .opened, command => command = some (.inr .pclose)
  | .failed, command => ∃ status, command = some (.inr (.exit status))

/-- The rule inside of a sampling. -/
def ToolRule (current : StreamStatus) (command : Option ToolCommand) : Prop :=
  StreamRule current (command.map .inr)

theorem StreamRule.opened_iff {current : StreamStatus} {command : Option complete.Command}
    (rule : StreamRule current command) : command = some (.inr .pclose) ↔ current = .opened := by
  cases current with
  | quiet =>
      apply iff_of_false
      · rintro rfl
        cases rule
      · intro same
        cases same
  | opened => exact iff_of_true rule rfl
  | failed =>
      rcases rule with ⟨status, rfl⟩
      apply iff_of_false <;> intro same <;> cases same

theorem StreamRule.failed_iff {current : StreamStatus} {command : Option complete.Command}
    (rule : StreamRule current command) :
    (∃ status, command = some (.inr (.exit status))) ↔ current = .failed := by
  cases current with
  | quiet =>
      apply iff_of_false
      · rintro ⟨status, rfl⟩
        cases rule
      · intro same
        cases same
  | opened =>
      rw [StreamRule] at rule
      subst rule
      apply iff_of_false
      · rintro ⟨status, same⟩
        cases same
      · intro same
        cases same
  | failed => exact iff_of_true rule rfl

theorem heeds_collect {α : Type} {probe : Probe} {next : Bytes → Program tools α}
    (each : ∀ output, Heeds toolStatus ToolRule .quiet (next output)) :
    Heeds toolStatus ToolRule .quiet (collect probe >>= next) := by
  rw [collect_bind]
  refine ⟨rfl, fun fp => ?_⟩
  cases fp with
  | none => exact ⟨⟨1, rfl⟩, Empty.rec⟩
  | some output => exact ⟨rfl, fun _ => each output⟩

variable {decode : Bytes → String}

theorem linuxCommandOverTools_heeds (location : String) :
    Heeds toolStatus ToolRule .quiet (linuxCommandOverTools decode location) := by
  have free : ∀ document : Option Json,
      Heeds toolStatus ToolRule .quiet (.done document : Program tools (Option Json)) :=
    fun _ => rfl
  apply heeds_collect
  intro cpuSourceAvailable
  apply heeds_collect
  intro cpuMHz
  apply heeds_collect
  intro cpuCores
  apply heeds_collect
  intro memoryTotalInfo
  apply heeds_collect
  intro memoryAvailableInfo
  apply heeds_collect
  intro diskTotalInfo
  apply heeds_collect
  intro diskAvailableInfo
  apply heeds_collect
  intro ethFirstInfo
  refine ⟨rfl, fun _ => ?_⟩
  apply heeds_collect
  intro ethSecondInfo
  apply heeds_collect
  intro dockerInfo
  cases loop : dockerLoop (stringExecCommand dockerInfo) with
  | none => exact free none
  | some docker =>
      apply heeds_collect
      intro macAddress
      cases first : (stringExecCommand macAddress)[0]? with
      | none => exact free none
      | some address =>
          apply heeds_collect
          intro timestampInfo
          cases time : (stringExecCommand timestampInfo)[0]? with
          | none => exact free none
          | some stamp => exact free _

theorem quiet_of_free {current : StreamStatus} (free : StreamRule current none) : current = .quiet := by
  cases current with
  | quiet => rfl
  | opened => cases free
  | failed =>
      rcases free with ⟨status, none⟩
      cases none

theorem overTools_heeds (command : client.Command) :
    Heeds streamStatus StreamRule .quiet (overTools decode command) := by
  have free : StreamRule .quiet none := rfl
  cases sampling : isSampling command with
  | false =>
      rw [overTools_of_not_sampling sampling]
      exact ⟨rfl, fun _ => free⟩
  | true =>
      cases command with
      | inr call => cases sampling
      | inl command =>
          cases command with
          | linuxCommand location =>
              have same : ∀ event : tools.Event, streamStatus (inr event) = toolStatus event :=
                fun _ => rfl
              have samples : Heeds streamStatus StreamRule .quiet (Program.interpret
                  Program.onRight (linuxCommandOverTools decode (decode location))) :=
                (linuxCommandOverTools_heeds (decode location)).onRight same fun _ _ rule => rule
              apply samples.bind
              intro root current ended
              rw [quiet_of_free ended]
              cases root.bind snapshotOf with
              | none => exact free
              | some snapshot => exact free
          | _ => cases sampling

variable {toStyledString : Json → Bytes} {rounds bound : ℕ} {location : Bytes} {timeInterval : ℤ}
  {events : List complete.Event} {remaining : Program complete (Except StdException Empty)}

theorem streamRule_of_follows
    (follows : Follows (completeProcess decode toStyledString rounds bound location timeInterval)
      events remaining) :
    StreamRule (statusAfter streamStatus .quiet events) remaining.next? := by
  have each : ∀ command {current : StreamStatus}, StreamRule current none →
      Heeds streamStatus StreamRule current (overTools decode command) := by
    intro command current free
    rw [quiet_of_free free]
    exact overTools_heeds command
  have start : StreamRule .quiet none := rfl
  have heeds := Program.heeds_interpret each
    (clientProcess toStyledString rounds bound location timeInterval) start
  exact heeds.of_follows follows

theorem statusAfter_eq_iff {status : StreamStatus} (owed : status ≠ .quiet) :
    statusAfter streamStatus .quiet events = status ↔
      ∃ earlier event, events = earlier ++ [event] ∧ streamStatus event = status := by
  induction events using List.reverseRecOn with
  | nil =>
      apply iff_of_false owed.symm
      rintro ⟨earlier, event, nothing, _⟩
      exact List.append_ne_nil_of_right_ne_nil earlier (List.cons_ne_nil _ _) nothing.symm
  | append_singleton events event _ =>
      rw [statusAfter, List.getLast?_concat]
      constructor
      · intro same
        exact ⟨events, event, rfl, same⟩
      · rintro ⟨earlier, other, split, same⟩
        cases (List.append_inj' split rfl).2
        exact same

theorem streamStatus_eq_opened_iff {event : complete.Event} : streamStatus event = .opened ↔
    ∃ (command : Bytes) (output : Bytes), event = ⟨.inr (.popen command), some output⟩ := by
  constructor
  · intro opened
    rcases event with ⟨command | command, answer⟩
    · cases opened
    · cases command with
      | popen command =>
          cases answer with
          | none => cases opened
          | some output => exact ⟨command, output, rfl⟩
      | _ => cases opened
  · rintro ⟨command, output, rfl⟩
    rfl

theorem streamStatus_eq_failed_iff {event : complete.Event} : streamStatus event = .failed ↔
    ∃ command : Bytes, event = ⟨.inr (.popen command), none⟩ := by
  constructor
  · intro failed
    rcases event with ⟨command | command, answer⟩
    · cases failed
    · cases command with
      | popen command =>
          cases answer with
          | none => exact ⟨command, rfl⟩
          | some output => cases failed
      | _ => cases failed
  · rintro ⟨command, rfl⟩
    rfl

/-- In every run of the complete client, a stream is closed next exactly if opening it was the
last exchange, and the process exits exactly if a tool could not be started. -/
theorem streams_iff
    (follows : Follows (completeProcess decode toStyledString rounds bound location timeInterval)
      events remaining) :
    (remaining.next? = some (.inr .pclose) ↔ ∃ (earlier : List complete.Event) (command : Bytes)
      (output : Bytes), events = earlier ++ [⟨.inr (.popen command), some output⟩]) ∧
    ((∃ status, remaining.next? = some (.inr (.exit status))) ↔
      ∃ (earlier : List complete.Event) (command : Bytes),
        events = earlier ++ [⟨.inr (.popen command), none⟩]) := by
  have rule := streamRule_of_follows follows
  constructor
  · have owed : StreamStatus.opened ≠ .quiet := by
      intro same
      cases same
    refine (rule.opened_iff.trans (statusAfter_eq_iff owed)).trans ?_
    constructor
    · rintro ⟨earlier, event, rfl, opened⟩
      rcases streamStatus_eq_opened_iff.mp opened with ⟨command, output, rfl⟩
      exact ⟨earlier, command, output, rfl⟩
    · rintro ⟨earlier, command, output, rfl⟩
      exact ⟨earlier, _, rfl, rfl⟩
  · have owed : StreamStatus.failed ≠ .quiet := by
      intro same
      cases same
    refine (rule.failed_iff.trans (statusAfter_eq_iff owed)).trans ?_
    constructor
    · rintro ⟨earlier, event, rfl, failed⟩
      rcases streamStatus_eq_failed_iff.mp failed with ⟨command, rfl⟩
      exact ⟨earlier, command, rfl⟩
    · rintro ⟨earlier, command, rfl⟩
      exact ⟨earlier, _, rfl, rfl⟩

/-! ### The first tool -/

/-- The first stream is opened and gives this, or it is not opened. -/
def firstTool (output : Option Bytes) : List complete.Event :=
  [⟨.inr (.popen Probe.cpuSourceAvailable.command), output⟩]

theorem streams_iff_firstTool :
    (∃ remaining : Program complete (Except StdException Empty),
      (remaining.next? = some (.inr .pclose) ↔ ∃ (earlier : List complete.Event) (command : Bytes)
        (output : Bytes), firstTool (some []) = earlier ++ [⟨.inr (.popen command), some output⟩]) ∧
      remaining.next? = some (.inr .pclose)) ∧
    ∃ remaining : Program complete (Except StdException Empty),
      ((∃ status, remaining.next? = some (.inr (.exit status))) ↔
        ∃ (earlier : List complete.Event) (command : Bytes),
          firstTool none = earlier ++ [⟨.inr (.popen command), none⟩]) ∧
      remaining.next? = some (.inr (.exit 1)) := by
  have opened : ∃ next, Follows (completeProcess latin (fun _ => []) 1 1 [] 1) (firstTool (some []))
      (.call (.inr .pclose) next) := ⟨_, .step (.refl _)⟩
  have failed : ∃ next, Follows (completeProcess latin (fun _ => []) 1 1 [] 1) (firstTool none)
      (.call (.inr (.exit 1)) next) := ⟨_, .step (.refl _)⟩
  rcases opened with ⟨next, opened⟩
  rcases failed with ⟨atExit, failed⟩
  exact ⟨⟨_, (streams_iff opened).1, rfl⟩, ⟨_, (streams_iff failed).2, rfl⟩⟩

end HumanMachine.Client
