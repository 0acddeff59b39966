import HumanMachine.Client.DockerDeploy
import HumanMachine.Client.Process
import HumanMachine.Program.Threads

/-!
# The process: `main.cpp`

The thread of the loop starts a thread for every deployment and never waits for it. All of
them take their turns in any order. The process is at its end when an exception has left the
loop, or when a deployment calls `exit`; then all other threads are at their end with it.
-/

namespace HumanMachine.Client

open Program (Follows ThreadRun Threads Turn mainEvents threadEvents allStarted inr)
open DockerDeploy (deployer dockerDeploy DeployCommand nginxOrder)

/-- `thread dockerRun(dockerDeploy, dockerImage)` -/
def dockerRun : client.Event → Option (Program deployer Unit)
  | ⟨.inl (.dockerDeploy dockerImage), _⟩ => some (dockerDeploy dockerImage)
  | _ => none

def process (toStyledString : Json → Bytes) (rounds bound : ℕ) (location : Bytes)
    (timeInterval : ℤ) : Threads client deployer (Except StdException Empty) Unit where
  main := clientProcess toStyledString rounds bound location timeInterval
  started := []

/-- The next step of the process ends it. -/
def AtExit {α : Type} (threads : Threads client deployer α Unit) : Prop :=
  (∃ result, threads.main = .done result) ∨
    ∃ (n : ℕ) (status : ℤ) (next : Empty → Program deployer Unit),
      threads.started[n]? = some (@Program.call deployer Unit (.exit status) next)

/-! ## A deployment -/

def pulls (dockerImage : Bytes) : Bytes :=
  ascii "docker pull " ++ dockerImage

def runs (dockerImage : Bytes) : Bytes :=
  ascii "docker run " ++ dockerImage

/-- The image has been pulled; this is what the shell was given. -/
def pulled (dockerImage found : Bytes) : List deployer.Event :=
  [⟨.popen (pulls dockerImage), (found, true)⟩, ⟨.pclose, ()⟩]

/-- What is left of a deployment after these exchanges. -/
inductive Deploying (dockerImage : Bytes) : List deployer.Event → Program deployer Unit → Prop where
  | start {next : Bytes × Bool → Program deployer Unit} :
      Deploying dockerImage [] (.call (.popen (pulls dockerImage)) next)
  | pulling {found : Bytes} {next : Unit → Program deployer Unit} :
      Deploying dockerImage [⟨.popen (pulls dockerImage), (found, true)⟩] (.call .pclose next)
  | between {found : Bytes} {next : Bytes × Bool → Program deployer Unit} :
      Deploying dockerImage (pulled dockerImage found) (.call (.popen (runs dockerImage)) next)
  | running {found foundRun : Bytes} {next : Unit → Program deployer Unit} :
      Deploying dockerImage
        (pulled dockerImage found ++ [⟨.popen (runs dockerImage), (foundRun, true)⟩])
        (.call .pclose next)
  | deployed {found foundRun : Bytes} :
      Deploying dockerImage
        (pulled dockerImage found ++
          [⟨.popen (runs dockerImage), (foundRun, true)⟩, ⟨.pclose, ()⟩])
        (.done ())
  | pullFailed {found : Bytes} {next : Empty → Program deployer Unit} :
      Deploying dockerImage [⟨.popen (pulls dockerImage), (found, false)⟩] (.call (.exit 1) next)
  | runFailed {found foundRun : Bytes} {next : Empty → Program deployer Unit} :
      Deploying dockerImage
        (pulled dockerImage found ++ [⟨.popen (runs dockerImage), (foundRun, false)⟩])
        (.call (.exit 1) next)

variable {dockerImage : Bytes} {events : List deployer.Event} {left : Program deployer Unit}

theorem dockerDeploy_eq (dockerImage : Bytes) :
    dockerDeploy dockerImage = .call (.popen (pulls dockerImage)) fun opened : Bytes × Bool =>
      if opened.2 then
        .call .pclose fun _ => .call (.popen (runs dockerImage)) fun opened : Bytes × Bool =>
          if opened.2 then .call .pclose fun _ => .done ()
          else .call (.exit 1) fun ended : Empty => ended.elim
      else .call (.exit 1) fun ended : Empty => ended.elim := by
  have second := DockerDeploy.execCommand_bind (runs dockerImage) (.done ())
  rw [Program.bind_done] at second
  rw [← second]
  exact DockerDeploy.execCommand_bind (pulls dockerImage) _

theorem deploying_of_follows (follows : Follows (dockerDeploy dockerImage) events left) :
    Deploying dockerImage events left := by
  rw [dockerDeploy_eq] at follows
  rcases follows.of_call with ⟨rfl, rfl⟩ | ⟨⟨found, fp⟩, later, rfl, opened⟩
  · exact .start
  cases fp with
  | false =>
      rcases Follows.of_call opened with ⟨rfl, rfl⟩ | ⟨exited, _⟩
      · exact .pullFailed
      · cases exited
  | true =>
      rcases Follows.of_call opened with ⟨rfl, rfl⟩ | ⟨_, later, rfl, closed⟩
      · exact .pulling
      rcases Follows.of_call closed with ⟨rfl, rfl⟩ | ⟨⟨foundRun, fp⟩, later, rfl, openedRun⟩
      · exact .between
      cases fp with
      | false =>
          rcases Follows.of_call openedRun with ⟨rfl, rfl⟩ | ⟨exited, _⟩
          · exact .runFailed
          · cases exited
      | true =>
          rcases Follows.of_call openedRun with ⟨rfl, rfl⟩ | ⟨_, later, rfl, closedRun⟩
          · exact .running
          · rcases Follows.of_done closedRun with ⟨rfl, rfl⟩
            exact .deployed

/-- A deployment which waits for a command has just come to it. -/
theorem Deploying.popen {command : Bytes} {next : Bytes × Bool → Program deployer Unit}
    (deploying : Deploying dockerImage events (.call (.popen command) next)) :
    command = pulls dockerImage ∧ events = [] ∨
      command = runs dockerImage ∧ ∃ found, events = pulled dockerImage found := by
  cases deploying with
  | start => exact .inl ⟨rfl, rfl⟩
  | between => exact .inr ⟨rfl, _, rfl⟩

/-- A deployment exits exactly when its last command has failed. -/
theorem Deploying.exits_iff (deploying : Deploying dockerImage events left) :
    (∃ status, ∃ next : Empty → Program deployer Unit,
        left = .call (.exit status) next) ↔
      ∃ earlier command found, events = earlier ++ [⟨.popen command, (found, false)⟩] := by
  cases deploying with
  | pullFailed => exact iff_of_true ⟨_, _, rfl⟩ ⟨[], _, _, rfl⟩
  | runFailed => exact iff_of_true ⟨_, _, rfl⟩ ⟨_, _, _, rfl⟩
  | _ =>
      apply iff_of_false
      · rintro ⟨status, next, exits⟩
        cases exits
      · rintro ⟨earlier, command, found, failed⟩
        have last := congrArg List.getLast? failed
        simp [pulled] at last

/-! ## The deployments of a run -/

variable {toStyledString : Json → Bytes} {rounds bound : ℕ} {location : Bytes} {timeInterval : ℤ}
  {turns before after : List (Turn client deployer)}
  {last : Threads client deployer (Except StdException Empty) Unit}

theorem dockerRun_eq_some {event : client.Event} {deployment : Program deployer Unit}
    (starts : dockerRun event = some deployment) :
    ∃ image, event = ⟨.inl (.dockerDeploy image), ()⟩ ∧ deployment = dockerDeploy image := by
  rcases event with ⟨command, answer⟩
  cases command with
  | inl command =>
      cases command with
      | dockerDeploy image =>
          rw [dockerRun, Option.some.injEq] at starts
          exact ⟨image, rfl, starts.symm⟩
      | _ => cases starts
  | inr call => cases starts

/-- What an answer of the round orders before a deployment is started. -/
def Ordered (image : Bytes) (round : Round) : Prop :=
  image ≠ ascii "null" ∧
    ∃ buf, round.chunk = some buf ∧ dockerImageOf (returnedText (some buf)) = .ok image

theorem deployment_ordered {events earlier later : List client.Event}
    {left : Program client (Except StdException Empty)} {image : Bytes}
    (follows : Follows (clientProcess toStyledString rounds bound location timeInterval) events left)
    (split : events = earlier ++ ⟨.inl (.dockerDeploy image), ()⟩ :: later) :
    Ordered image (earlier.foldl Round.next .initial) := by
  rcases exists_clientPhase follows with ⟨_, ⟨permitted, _⟩, _⟩
  rw [split] at permitted
  exact permitted.at_split

/-- The n-th deployment: its `popen` is pointed to the text of a pull, as the first thing, or of
a run, behind a pull; so a shell is given this text if the freed characters are still in place. -/
theorem commands_ordered {n : ℕ} {command found : Bytes} {fp : Bool}
    (run : ThreadRun dockerRun (process toStyledString rounds bound location timeInterval)
      (before ++ .thread n ⟨.popen command, (found, fp)⟩ :: after) last)
    (inPlace : found = command) :
    ∃ earlier image later, mainEvents before = earlier ++ ⟨.inl (.dockerDeploy image), ()⟩ :: later ∧
      (earlier.filterMap dockerRun).length = n ∧
      Ordered image (earlier.foldl Round.next .initial) ∧
      (found = pulls image ∧ threadEvents n before = [] ∨
        found = runs image ∧ ∃ foundPull, threadEvents n before = pulled image foundPull) := by
  subst inPlace
  rcases run.started_before with ⟨program, next, listed, follows⟩
  have started : ((mainEvents before).filterMap dockerRun)[n]? = some program := listed
  rcases Program.exists_split_of_filterMap started with ⟨earlier, event, later, split, starts, position⟩
  rcases dockerRun_eq_some starts with ⟨image, rfl, rfl⟩
  refine ⟨earlier, image, later, split, position, ?_, (deploying_of_follows follows).popen⟩
  rcases run.of_append with ⟨middle, head, _⟩
  exact deployment_ordered head.follows_main split

theorem deployment_exits_iff {n : ℕ}
    (run : ThreadRun dockerRun (process toStyledString rounds bound location timeInterval) turns
      last) :
    (∃ (status : ℤ) (next : Empty → Program deployer Unit),
        last.started[n]? = some (@Program.call deployer Unit (.exit status) next)) ↔
      ∃ earlier command found,
        threadEvents n turns = earlier ++ [⟨.popen command, (found, false)⟩] := by
  cases listed : ((mainEvents turns).filterMap dockerRun)[n]? with
  | none =>
      have few : last.started.length ≤ n := by
        rw [run.length_started]
        exact List.getElem?_eq_none_iff.mp listed
      rw [List.getElem?_eq_none few, run.threadEvents_of_length_le few]
      apply iff_of_false nofun
      rintro ⟨earlier, command, found, failed⟩
      exact List.append_ne_nil_of_right_ne_nil earlier (List.cons_ne_nil _ _) failed.symm
  | some program =>
      rcases Program.exists_split_of_filterMap listed with ⟨_, event, _, _, starts, _⟩
      rcases dockerRun_eq_some starts with ⟨image, _, rfl⟩
      rcases run.exists_left listed with ⟨left, stands, follows⟩
      rw [stands, ← (deploying_of_follows follows).exits_iff]
      simp only [Option.some.injEq]

/-- The last call has left the loop with nothing to read an order from. -/
def Round.Unreadable (round : Round) : Prop :=
  round.called = true ∧ ∀ buf, round.chunk = some buf →
    ¬marker <:+: returnedText (some buf) ∧ (returnedText (some buf)).length < 13

/-- Between two calls, the process is at its end exactly if the answer of the round cannot be
read, or the last command of a deployment has failed. -/
theorem process_exits_iff
    (run : ThreadRun dockerRun (process toStyledString rounds bound location timeInterval) turns
      last)
    (outside : (∃ command next, last.main = .call (.inl command) next) ∨
      ∃ result, last.main = .done result) :
    AtExit last ↔
      ((mainEvents turns).foldl Round.next .initial).Unreadable ∨
        ∃ n earlier command found,
          threadEvents n turns = earlier ++ [⟨.popen command, (found, false)⟩] := by
  apply or_congr
  · rw [ended_iff run.follows_main outside, not_answered_iff]
    exact Iff.rfl
  · exact exists_congr fun n => deployment_exits_iff run

/-! ## A deployment of `nginx` -/

theorem nginxClientEvents_start : nginxClientEvents.filterMap dockerRun = [dockerDeploy (ascii "nginx")] := by
  have quiet : (nginxUpload.map inr).filterMap dockerRun = [] := by
    rw [List.filterMap_map, List.filterMap_eq_nil_iff]
    exact fun _ _ => rfl
  have snapshot : dockerRun ⟨.inl (.linuxCommand []), machineWith []⟩ = none := rfl
  rw [nginxClientEvents, nginxRound, List.filterMap_cons_none snapshot, List.filterMap_append, quiet]
  rfl

/-- A deployment whose first `popen` finds its text and returns a stream, or none. -/
def nginxTurns (fp : Bool) : List (Turn client deployer) :=
  nginxClientEvents.map .main ++
    [.thread 0 ⟨.popen (pulls (ascii "nginx")), (pulls (ascii "nginx"), fp)⟩]

/-- The image is pulled after the loop has gone to sleep. -/
theorem nginx_threadRun (fp : Bool) : ∃ last,
    ThreadRun dockerRun (process (fun _ => []) 1 2 [] 1) (nginxTurns fp) last ∧
      ∃ next, last.main = .call (.inl (.linuxCommand [])) next := by
  have follows := nginxRound_follows (machineWith []) 1
  have loops : ThreadRun dockerRun (process (fun _ => []) 1 2 [] 1) (nginxClientEvents.map .main)
      ⟨nginxClient 1 (Stores.initial.stored (machineWith []).root),
        [] ++ nginxClientEvents.filterMap dockerRun⟩ :=
    follows.threadRun []
  rw [List.nil_append, nginxClientEvents_start, dockerDeploy_eq] at loops
  exact ⟨_, loops.trans (.thread rfl (.refl _)), nginxClient_asks 0 _⟩

theorem commands_ordered_nginx :
    ∃ earlier image later, mainEvents (nginxClientEvents.map .main : List (Turn client deployer)) =
        earlier ++ ⟨.inl (.dockerDeploy image), ()⟩ :: later ∧
      (earlier.filterMap dockerRun).length = 0 ∧
      Ordered image (earlier.foldl Round.next .initial) ∧
      (pulls (ascii "nginx") = pulls image ∧
          threadEvents 0 (nginxClientEvents.map .main : List (Turn client deployer)) = [] ∨
        pulls (ascii "nginx") = runs image ∧ ∃ found,
          threadEvents 0 (nginxClientEvents.map .main : List (Turn client deployer)) =
            pulled image found) := by
  rcases nginx_threadRun true with ⟨last, run, _⟩
  exact commands_ordered run rfl

/-- The failed pull ends the process, although the loop would go on. -/
theorem process_exits_iff_noPull : ∃ last : Threads client deployer (Except StdException Empty) Unit,
    (∃ next, last.main = .call (.inl (.linuxCommand [])) next) ∧ AtExit last ∧
      (AtExit last ↔
        ((mainEvents (nginxTurns false)).foldl Round.next .initial).Unreadable ∨
          ∃ n earlier command found,
            threadEvents n (nginxTurns false) = earlier ++ [⟨.popen command, (found, false)⟩]) := by
  rcases nginx_threadRun false with ⟨last, run, next, asks⟩
  have exits := process_exits_iff run (.inl ⟨_, next, asks⟩)
  have failed : threadEvents 0 (nginxTurns false) =
      [⟨.popen (pulls (ascii "nginx")), (pulls (ascii "nginx"), false)⟩] := by
    have quiet : threadEvents 0 (nginxClientEvents.map .main : List (Turn client deployer)) = [] := by
      rw [threadEvents, List.filterMap_map, List.filterMap_eq_nil_iff]
      exact fun _ _ => rfl
    rw [nginxTurns, threadEvents, List.filterMap_append, ← threadEvents, quiet]
    rfl
  exact ⟨last, ⟨next, asks⟩, exits.mpr (.inr ⟨0, [], _, _, failed⟩), exits⟩

end HumanMachine.Client
