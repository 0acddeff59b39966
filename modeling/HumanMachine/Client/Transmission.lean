import HumanMachine.Client.Phases

/-!
# What is handed over

`send` may take a part of the bytes it is given, and on a non-blocking socket it does
so when its buffer is nearly full. `HttpDataTransmit` calls it once and looks at the
sign of the result only.
-/

namespace HumanMachine.Client

open Program (Follows)

/-- The bytes which an exchange hands over. -/
def handsOver : sys.Event → Bytes
  | ⟨.send _ data, ret⟩ => data.take (Int.toNat ret)
  | _ => []

def handedOver (events : List sys.Event) : Bytes :=
  events.flatMap handsOver

def isRecv : sys.Event → Bool
  | ⟨.recv _, _⟩ => true
  | _ => false

/-- The program has begun to wait for a response. -/
def waits (events : List sys.Event) : Bool :=
  events.any isRecv

/-- The result of a `send`. -/
def sentCount : sys.Event → Option ℤ
  | ⟨.send _ _, ret⟩ => some ret
  | _ => none

/-- The whole request is handed over before a response is awaited, and without that the
result is `NULL`. -/
structure WholeOrNothing (strHttpHead : Bytes) (events : List sys.Event)
    (remaining : Http (Option Bytes)) : Prop where
  whole : waits events = true → strHttpHead <+: handedOver events
  nothing : ∀ result, remaining = .done result → waits events = false → result = none

/-- No `send` takes a part of the request only: it fails or takes it to its end. -/
def NoShortCount (strHttpHead : Bytes) (events : List sys.Event) : Prop :=
  ∀ ret ∈ events.filterMap sentCount, ret < 0 ∨ (strHttpHead.length : ℤ) ≤ ret

variable {strHttpHead : Bytes} {events : List sys.Event} {remaining : Http (Option Bytes)} {fd : ℤ}
  {rounds : ℕ}

theorem handedOver_of_no_send (none : events.filterMap sentCount = []) : handedOver events = [] := by
  rw [handedOver, List.flatMap_eq_nil_iff]
  rintro ⟨command, answer⟩ mem
  have noCount := List.filterMap_eq_nil_iff.mp none _ mem
  cases command with
  | send => cases noCount
  | _ => rfl

/-- The end of a failed transmission. -/
theorem close_follows
    (follows : Follows (do call (.close fd); return none) events remaining) :
    events.filterMap sentCount = [] ∧ waits events = false ∧
      ∀ result, remaining = .done result → result = none := by
  rcases follows.of_call with ⟨rfl, rfl⟩ | ⟨_, later, rfl, rest⟩
  · exact ⟨rfl, rfl, by rintro result ⟨⟩⟩
  · rcases rest.of_done with ⟨rfl, rfl⟩
    exact ⟨rfl, rfl, by rintro result ⟨⟩; rfl⟩

/-- The loop sends nothing, and it does not end before it has waited. -/
theorem receive_follows (follows : Follows (receive fd rounds) events remaining) :
    events.filterMap sentCount = [] ∧ ∀ result, remaining = .done result → waits events = true := by
  induction rounds generalizing events with
  | zero =>
      cases follows
      exact ⟨rfl, by rintro result ⟨⟩⟩
  | succ rounds ih =>
      rcases follows.of_call with ⟨rfl, rfl⟩ | ⟨received, later, rfl, rest⟩
      · exact ⟨rfl, by rintro result ⟨⟩⟩
      · have silent : later.filterMap sentCount = [] := by
          change Received at received
          cases received with
          | closed => exact (close_follows rest).1
          | data buf nonempty fits => rw [rest.of_done.1]; rfl
          | failed errno =>
              change Follows (if errno = .EINTR || errno = .EAGAIN then _ else _) _ _ at rest
              split at rest
              · exact (ih rest).1
              · exact (close_follows rest).1
        exact ⟨silent, fun _ _ => rfl⟩

/-- The exchanges of a transmission: `send` comes first, and only if it does not fail a
response is awaited. -/
theorem httpDataTransmit_follows
    (follows : Follows (httpDataTransmit rounds strHttpHead fd) events remaining) :
    (events = [] ∧ ∀ result, remaining ≠ .done result) ∨
      ∃ (ret : ℤ) (later : List sys.Event),
        events = ⟨.send fd (strHttpHead ++ [0]), ret⟩ :: later ∧ later.filterMap sentCount = [] ∧
          (waits later = true → 0 ≤ ret) ∧
          ∀ result, remaining = .done result → if ret < 0 then result = none else waits later = true := by
  rcases follows.of_call with ⟨rfl, rfl⟩ | ⟨(ret : ℤ), later, rfl, rest⟩
  · left
    exact ⟨rfl, by rintro result ⟨⟩⟩
  right
  refine ⟨ret, later, rfl, ?_⟩
  rcases rest.of_call with ⟨rfl, rfl⟩ | ⟨_, later, rfl, freed⟩
  · exact ⟨rfl, by simp [waits], by rintro result ⟨⟩⟩
  change Follows (if ret < 0 then _ else _) later remaining at freed
  by_cases failed : ret < 0
  · rw [if_pos failed] at freed
    rcases close_follows freed with ⟨noSend, still, nothing⟩
    refine ⟨noSend, ?_, ?_⟩
    · intro waiting
      have waited : waits later = true := waiting
      simp [still] at waited
    · intro result finished
      rw [if_pos failed]
      exact nothing result finished
  · rw [if_neg failed] at freed
    rcases receive_follows freed with ⟨noSend, waited⟩
    refine ⟨noSend, fun _ => Int.not_lt.mp failed, ?_⟩
    intro result finished
    rw [if_neg failed]
    exact waited result finished

theorem prefix_take_iff {ret : ℤ} :
    strHttpHead <+: (strHttpHead ++ [0]).take ret.toNat ↔ strHttpHead.length ≤ ret.toNat := by
  constructor
  · intro whole
    have := whole.length_le
    rw [List.length_take] at this
    omega
  · intro enough
    exact List.prefix_take_iff.mpr ⟨List.prefix_append _ _, enough⟩

/-- The request is sent whole or the call fails, unless `send` takes a part of it; and a finished
transmission of which a part was taken has waited for the response all the same. -/
theorem whole_request_sent_iff
    (follows : Follows (httpDataTransmit rounds strHttpHead fd) events remaining) :
    (NoShortCount strHttpHead events → WholeOrNothing strHttpHead events remaining) ∧
      ∀ result, remaining = .done result →
        (WholeOrNothing strHttpHead events remaining ↔ NoShortCount strHttpHead events) := by
  rcases httpDataTransmit_follows follows with
    ⟨rfl, unfinished⟩ | ⟨ret, later, rfl, noSend, waiting, ends⟩
  · refine ⟨fun _ => ⟨by simp [waits], ?_⟩, ?_⟩
    · intro result finished
      exact absurd finished (unfinished result)
    · intro result finished
      exact absurd finished (unfinished result)
  have counts : (⟨.send fd (strHttpHead ++ [0]), ret⟩ :: later : List sys.Event).filterMap sentCount =
      [ret] := by
    simp [sentCount, noSend]
  have handed : handedOver (⟨.send fd (strHttpHead ++ [0]), ret⟩ :: later) =
      (strHttpHead ++ [0]).take ret.toNat := by
    have nothing := handedOver_of_no_send noSend
    rw [handedOver] at nothing ⊢
    simp [handsOver, nothing]
  have goes : waits (⟨.send fd (strHttpHead ++ [0]), ret⟩ :: later) = waits later := rfl
  have enough (short : NoShortCount strHttpHead (⟨.send fd (strHttpHead ++ [0]), ret⟩ :: later)) :
      WholeOrNothing strHttpHead (⟨.send fd (strHttpHead ++ [0]), ret⟩ :: later) remaining := by
    constructor
    · intro waited
      have nonneg := waiting waited
      rw [handed, prefix_take_iff]
      have := short ret (by simp [counts])
      omega
    · intro result finished still
      have ended := ends result finished
      split at ended
      · exact ended
      · exact absurd (ended.symm.trans still) (by decide)
  refine ⟨enough, ?_⟩
  intro result finished
  refine ⟨?_, enough⟩
  intro whole
  rw [NoShortCount, counts]
  intro count mem
  obtain rfl := List.mem_singleton.mp mem
  by_cases failed : count < 0
  · exact Or.inl failed
  · right
    have ended := ends result finished
    rw [if_neg failed] at ended
    have taken := whole.whole ended
    rw [handed, prefix_take_iff] at taken
    omega

/-! ## A full send buffer -/

/-- The request of `getAddress`. -/
def getHead : Bytes := httpHeadCreate (ascii "GET") (ascii "http://1.2.3.4") none

/-- Of the request, so many bytes are taken, and the response is awaited. -/
def sentEvents (taken : ℤ) : List sys.Event :=
  [⟨.send 3 (getHead ++ [0]), taken⟩, ⟨.freeHttpHead, ()⟩, ⟨.recv 3, Received.closed⟩,
    ⟨.close 3, ()⟩]

theorem sentEvents_follow_short :
    Follows (httpDataTransmit 1 getHead 3) (sentEvents 1) (.done none) :=
  .step (.step (.step (.step (.refl _))))

/-- The request has 155 bytes, and its NUL. -/
theorem sentEvents_follow :
    Follows (httpDataTransmit 1 getHead 3) (sentEvents 156) (.done none) :=
  .step (.step (.step (.step (.refl _))))

/-- The peer waits for the rest of the request. -/
theorem short_request_awaits_response :
    ¬∀ (rounds : ℕ) (strHttpHead : Bytes) (fd : ℤ) (events : List sys.Event)
      (remaining : Http (Option Bytes)),
      Follows (httpDataTransmit rounds strHttpHead fd) events remaining →
        WholeOrNothing strHttpHead events remaining := by
  intro always
  have whole := (always _ _ _ _ _ sentEvents_follow_short).whole (by decide)
  revert whole
  decide +kernel

theorem whole_request_sent_iff_getHead : WholeOrNothing getHead (sentEvents 156) (.done none) := by
  apply (whole_request_sent_iff sentEvents_follow).1
  have length : getHead.length = 155 := by decide +kernel
  change ∀ ret ∈ [(156 : ℤ)], ret < 0 ∨ (getHead.length : ℤ) ≤ ret
  rw [length]
  decide

end HumanMachine.Client
