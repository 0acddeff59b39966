import HumanMachine.Client.Outcomes
import HumanMachine.Data.Buffer

/-!
# The arrays of a response

`recv` may fill its buffer up to the last byte, and the array of `timerControl` is
smaller than this buffer. So a response is contained if it leaves room for a NUL in the
one, and its text, which ends at the first NUL, leaves room in the other.
-/

namespace HumanMachine.Client

open Program (Follows)

/-- The size of `http_return` in `timerControl`. -/
def RETURNSIZE : ℕ := 4096

namespace Arrays

/-- The buffer of `HttpDataTransmit` after `recv` has delivered these bytes. -/
def receive (bytes : Bytes) : Option (Buffer BUFSIZE) :=
  (Buffer.zeroed BUFSIZE).write 0 bytes

/-- `strcpy(strResponse, strResult)` in `HttpRequestExec`. -/
def copyResult (strResponse : Buffer RETURNSIZE) (strResult : Buffer BUFSIZE) :
    Option (Buffer RETURNSIZE) := do
  strResponse.strcpy (← strResult.text)

end Arrays

/-- The buffer holds a NUL behind the received bytes, and the copy fits into its array. -/
structure Contained (bytes : Bytes) (http_return : Buffer RETURNSIZE) : Prop where
  terminated : ∃ buf i, Arrays.receive bytes = some buf ∧ bytes.length ≤ i ∧ buf.bytes[i]? = some 0
  copied : ((Arrays.receive bytes).bind (Arrays.copyResult http_return)).isSome

theorem bytes_receive {bytes : Bytes} {buf : Buffer BUFSIZE}
    (received : Arrays.receive bytes = some buf) :
    bytes.length ≤ BUFSIZE ∧ buf.bytes = bytes ++ List.replicate (BUFSIZE - bytes.length) 0 := by
  have fits := (Buffer.isSome_write_iff _ (Nat.zero_le _)).mp (Option.isSome_of_eq_some received)
  refine ⟨by simpa using fits, ?_⟩
  rw [Buffer.bytes_write received, Buffer.zeroed, List.drop_replicate]
  simp

theorem receive_terminated_iff (bytes : Bytes) :
    (∃ buf i, Arrays.receive bytes = some buf ∧ bytes.length ≤ i ∧ buf.bytes[i]? = some 0) ↔
      bytes.length < BUFSIZE := by
  constructor
  · rintro ⟨buf, i, received, behind, nul⟩
    have within := (List.getElem?_eq_some_iff.mp nul).1
    rw [buf.length_eq] at within
    exact lt_of_le_of_lt behind within
  · intro short
    have fits : (Arrays.receive bytes).isSome := by
      rw [Arrays.receive, Buffer.isSome_write_iff _ (Nat.zero_le _), Nat.zero_add]
      exact short.le
    rcases Option.isSome_iff_exists.mp fits with ⟨buf, received⟩
    refine ⟨buf, bytes.length, received, Nat.le_refl _, ?_⟩
    have room : 0 < BUFSIZE - bytes.length := by omega
    rw [(bytes_receive received).2, List.getElem?_append_right (Nat.le_refl _), Nat.sub_self,
      List.getElem?_replicate_of_lt room]

/-- With a NUL behind it, the received text is what the buffer holds. -/
theorem text_receive {bytes : Bytes} {buf : Buffer BUFSIZE} (short : bytes.length < BUFSIZE)
    (received : Arrays.receive bytes = some buf) : buf.text = some (cString bytes) := by
  have zeros : List.replicate (BUFSIZE - bytes.length) (0 : UInt8) =
      [0] ++ List.replicate (BUFSIZE - bytes.length - 1) 0 := by
    rw [List.singleton_append, ← List.replicate_succ]
    congr
    omega
  have prefixed : (bytes ++ [0]).takeWhile (· ≠ 0) ++ [0] <+: bytes ++ [0] :=
    Buffer.prefix_of_nul (by simp)
  rw [Buffer.takeWhile_append_nul] at prefixed
  rw [Buffer.text_eq_some_iff, (bytes_receive received).2, zeros, ← List.append_assoc]
  exact ⟨Buffer.nul_not_mem_takeWhile bytes, prefixed.trans (List.prefix_append _ _)⟩

theorem isSome_copyResult_iff {bytes : Bytes} (short : bytes.length < BUFSIZE)
    (http_return : Buffer RETURNSIZE) :
    ((Arrays.receive bytes).bind (Arrays.copyResult http_return)).isSome ↔
      (cString bytes).length < RETURNSIZE := by
  rcases (receive_terminated_iff bytes).mpr short with ⟨buf, _, received, _⟩
  rw [received, Option.bind_some, Arrays.copyResult, text_receive short received]
  exact Buffer.isSome_strcpy_iff http_return (cString bytes)

theorem Contained.short {bytes : Bytes} {http_return : Buffer RETURNSIZE}
    (contained : Contained bytes http_return) :
    bytes.length < BUFSIZE ∧ (cString bytes).length < RETURNSIZE := by
  have short := (receive_terminated_iff bytes).mp contained.terminated
  exact ⟨short, (isSome_copyResult_iff short http_return).mp contained.copied⟩

/-- The bytes of a response are contained in the arrays exactly if they do not fill the
buffer, and there are less than 4096 before the first NUL. -/
theorem response_contained_iff (bytes : Bytes) (http_return : Buffer RETURNSIZE) :
    Contained bytes http_return ↔
      bytes.length < BUFSIZE ∧ (cString bytes).length < RETURNSIZE := by
  constructor
  · exact Contained.short
  · rintro ⟨short, shortText⟩
    exact ⟨(receive_terminated_iff bytes).mpr short,
      (isSome_copyResult_iff short http_return).mpr shortText⟩

/-- Where the arrays suffice, the caller's array holds the text which the call returns. -/
theorem text_of_contained {rounds : ℕ} {request : HttpCall} {events : List sys.Event}
    {value : ℤ × Bytes} (follows : Follows (request.run rounds) events (.done value)) {bytes : Bytes}
    (delivers : Delivers events bytes) {http_return : Buffer RETURNSIZE}
    (contained : Contained bytes http_return) :
    ((Arrays.receive bytes).bind (Arrays.copyResult http_return)).bind Buffer.text =
      some value.2 := by
  rcases (receive_terminated_iff bytes).mpr contained.short.1 with ⟨buf, _, received, _⟩
  have copied := Buffer.strcpy_bind_text http_return (cString bytes)
  have whole : (cString bytes).takeWhile (· ≠ 0) = cString bytes :=
    cString_of_noNul (Buffer.nul_not_mem_takeWhile bytes)
  rw [if_pos contained.short.2, whole] at copied
  rw [received, Option.bind_some, Arrays.copyResult, text_receive contained.short.1 received]
  refine copied.trans ?_
  rw [← mem_filterMap_delivered] at delivers
  rcases call_receives follows with ⟨nothing, _⟩ | ⟨buf, one, rfl⟩
  · rw [nothing] at delivers
    cases delivers
  · rw [one, List.mem_singleton] at delivers
    rw [delivers]

/-! ### A long page -/

def letters (n : ℕ) : Bytes :=
  List.replicate n 97

theorem length_letters (n : ℕ) : (letters n).length = n :=
  List.length_replicate

theorem cString_letters (n : ℕ) : cString (letters n) = letters n := by
  apply cString_of_noNul
  rw [letters, List.mem_replicate]
  rintro ⟨_, letter⟩
  exact absurd letter (by decide)

/-- A page of 5000 letters does not fit into the caller's array, and one of 41000 letters
leaves no room for a NUL in the buffer. -/
theorem long_responses_overflow :
    (letters 5000).length = 5000 ∧ ¬Contained (letters 5000) (Buffer.zeroed RETURNSIZE) ∧
      (letters BUFSIZE).length = BUFSIZE ∧
      ¬∃ buf i, Arrays.receive (letters BUFSIZE) = some buf ∧ (letters BUFSIZE).length ≤ i ∧
        buf.bytes[i]? = some 0 := by
  refine ⟨length_letters 5000, ?_, length_letters BUFSIZE, ?_⟩
  · intro contained
    have fits := contained.short.2
    rw [cString_letters, length_letters] at fits
    exact absurd fits (by decide)
  · rw [receive_terminated_iff, length_letters]
    exact Nat.lt_irrefl BUFSIZE

end HumanMachine.Client
