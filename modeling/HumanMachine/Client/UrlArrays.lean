import HumanMachine.Client.HttpRequest
import HumanMachine.Data.Buffer

/-!
# The arrays of the URL helpers

Every helper copies the URL into an array of `URLSIZE` bytes first. `HttpRequestExec`
accepts URLs of up to `URLSIZE` bytes, which leaves no room for the NUL of the longest
ones. All other copies are as long as the URL at most.
-/

namespace HumanMachine.Client

/-- The loops which copy a text up to a delimiter; the text comes with its NUL. -/
def copyUntil {size : ℕ} (stop : UInt8) (buf : Buffer size) (i : ℕ) : Bytes → Option (Buffer size)
  | [] => some buf
  | byte :: text =>
      if byte = stop then some buf
      else do
        let buf ← buf.store i byte
        copyUntil stop buf (i + 1) text

namespace Arrays

/-- The string in the array `url` of a helper. -/
def url (strUrl : Bytes) : Option Bytes := do
  let url ← (Buffer.zeroed URLSIZE).strcpy strUrl
  url.text

def getHostAddrFromUrl (strUrl : Bytes) : Option Bytes := do
  let strAddr := addrOfUrl (← url strUrl)
  let strHostAddr ← copyUntil 47 (Buffer.zeroed (strAddr.length + 1)) 0 (strAddr ++ [0])
  strHostAddr.text

def getParamFromUrl (strUrl : Bytes) : Option Bytes := do
  let strAddr := addrOfUrl (← url strUrl)
  let strParam := Buffer.zeroed (strAddr.length + 1)
  let copied := match strAddr.dropWhile (· ≠ 47) with
    | [] => strParam.strcpy []
    | _ :: rest => strParam.strcpy rest
  copied.bind Buffer.text

def getPortFromUrl (strUrl : Bytes) : Option ℤ := do
  let strHostAddr ← getHostAddrFromUrl strUrl
  let strAddr ← (Buffer.zeroed URLSIZE).strcpy strHostAddr
  match (← strAddr.text).dropWhile (· ≠ 58) with
  | [] => return 80
  | _ :: strPort => return atoi strPort

/-- The `strAddr` of `GetIPFromUrl`. -/
def hostOfUrl (strUrl : Bytes) : Option Bytes := do
  let strHostAddr ← getHostAddrFromUrl strUrl
  let strAddr ← copyUntil 58 (Buffer.zeroed (strHostAddr.length + 1)) 0 (strHostAddr ++ [0])
  strAddr.text

end Arrays

theorem copyUntil_eq_write {size : ℕ} (stop : UInt8) (buf : Buffer size) (i : ℕ) (text : Bytes) :
    copyUntil stop buf i text = buf.write i (text.takeWhile (· ≠ stop)) := by
  induction text generalizing buf i with
  | nil => rfl
  | cons byte text ih =>
      by_cases stops : byte = stop
      · simp [copyUntil, stops, Buffer.write]
      · simp [copyUntil, stops, Buffer.write, ih]

theorem prefix_of_copy {stop : UInt8} (notNul : stop ≠ 0) {text zeros : Bytes}
    (isZeros : zeros = List.replicate (text.length + 1) 0) :
    text.takeWhile (· ≠ stop) ++ [0] <+:
      (text ++ [0]).takeWhile (· ≠ stop) ++ zeros.drop ((text ++ [0]).takeWhile (· ≠ stop)).length := by
  rw [List.takeWhile_append]
  split
  · next all =>
      have same : text.takeWhile (· ≠ stop) = text :=
        (List.takeWhile_prefix _).eq_of_length all
      rw [same, List.takeWhile_cons_of_pos (by simpa using notNul.symm)]
      exact List.prefix_append _ _
  · next stops =>
      have shorter : (text.takeWhile (· ≠ stop)).length ≤ text.length :=
        (List.takeWhile_prefix _).length_le
      rw [List.prefix_append_right_inj, isZeros, List.drop_replicate]
      obtain ⟨rest, room⟩ : ∃ rest, text.length + 1 - (text.takeWhile (· ≠ stop)).length = rest + 1 :=
        ⟨text.length - (text.takeWhile (· ≠ stop)).length, by omega⟩
      rw [room, List.replicate_succ]
      exact ⟨_, rfl⟩

/-- A copy up to a delimiter fits into an array with room for the whole text. -/
theorem text_copyUntil {stop : UInt8} (notNul : stop ≠ 0) {text : Bytes} (noNul : 0 ∉ text) :
    (copyUntil stop (Buffer.zeroed (text.length + 1)) 0 (text ++ [0])).bind Buffer.text =
      some (text.takeWhile (· ≠ stop)) := by
  have fits : ((Buffer.zeroed (text.length + 1)).write 0
      ((text ++ [0]).takeWhile (· ≠ stop))).isSome := by
    rw [Buffer.isSome_write_iff _ (Nat.zero_le _), Nat.zero_add]
    exact (List.takeWhile_prefix _).length_le.trans (by simp)
  rcases Option.isSome_iff_exists.mp fits with ⟨after, written⟩
  rw [copyUntil_eq_write, written, Option.bind_some, Buffer.text_eq_some_iff]
  refine ⟨fun mem => noNul ((List.takeWhile_prefix _).subset mem), ?_⟩
  rw [Buffer.bytes_write written, List.take_zero, List.nil_append, Nat.zero_add]
  exact prefix_of_copy notNul rfl

namespace Arrays

variable (strUrl : Bytes)

theorem url_eq : url strUrl = if strUrl.length < URLSIZE then some (cString strUrl) else none :=
  Buffer.strcpy_bind_text _ strUrl

theorem short_of_url {strUrl content : Bytes} (held : url strUrl = some content) :
    content.length < URLSIZE ∧ 0 ∉ content := by
  rw [url_eq, Option.ite_none_right_eq_some, Option.some_inj] at held
  rcases held with ⟨short, rfl⟩
  exact ⟨lt_of_le_of_lt (List.takeWhile_prefix _).length_le short, Buffer.nul_not_mem_takeWhile _⟩

theorem getHostAddrFromUrl_eq (strUrl : Bytes) :
    getHostAddrFromUrl strUrl = (url strUrl).map Client.getHostAddrFromUrl := by
  rw [getHostAddrFromUrl]
  cases held : url strUrl with
  | none => rfl
  | some content =>
      have noNul : 0 ∉ addrOfUrl content :=
        fun mem => (short_of_url held).2 (mem_of_mem_addrOfUrl mem)
      exact text_copyUntil (by decide) noNul

theorem hostOfUrl_eq (strUrl : Bytes) :
    hostOfUrl strUrl = (url strUrl).map Client.hostOfUrl := by
  rw [hostOfUrl, getHostAddrFromUrl_eq]
  cases held : url strUrl with
  | none => rfl
  | some content =>
      have noNul : 0 ∉ Client.getHostAddrFromUrl content :=
        fun mem => (short_of_url held).2 (mem_of_mem_getHostAddrFromUrl mem)
      exact text_copyUntil (by decide) noNul

theorem getParamFromUrl_eq (strUrl : Bytes) :
    getParamFromUrl strUrl = (url strUrl).map Client.getParamFromUrl := by
  rw [getParamFromUrl]
  cases held : url strUrl with
  | none => rfl
  | some content =>
      have noNul : 0 ∉ addrOfUrl content :=
        fun mem => (short_of_url held).2 (mem_of_mem_addrOfUrl mem)
      simp only [bind, Option.map_some, Option.bind_some, Client.getParamFromUrl]
      cases behind : (addrOfUrl content).dropWhile (· ≠ 47) with
      | nil => exact Buffer.strcpy_bind_text _ []
      | cons slash rest =>
          have suffix : slash :: rest <:+ addrOfUrl content := behind ▸ List.dropWhile_suffix _
          have noNulRest : 0 ∉ rest := fun mem => noNul (suffix.subset (List.mem_cons_of_mem _ mem))
          have shorter : rest.length < (addrOfUrl content).length + 1 := by
            have := suffix.length_le
            rw [List.length_cons] at this
            omega
          rw [Buffer.strcpy_bind_text, if_pos shorter]
          exact congrArg some (cString_of_noNul noNulRest)

theorem getPortFromUrl_eq (strUrl : Bytes) :
    getPortFromUrl strUrl = (url strUrl).map Client.getPortFromUrl := by
  rw [getPortFromUrl, getHostAddrFromUrl_eq]
  cases held : url strUrl with
  | none => rfl
  | some content =>
      rcases short_of_url held with ⟨short, noNul⟩
      have noNulHost : 0 ∉ Client.getHostAddrFromUrl content :=
        fun mem => noNul (mem_of_mem_getHostAddrFromUrl mem)
      have shorter : (Client.getHostAddrFromUrl content).length < URLSIZE :=
        lt_of_le_of_lt ((List.takeWhile_prefix _).length_le.trans
          (addrOfUrl_suffix content).length_le) short
      have copied := Buffer.strcpy_bind_text (Buffer.zeroed URLSIZE) (Client.getHostAddrFromUrl content)
      rw [if_pos shorter] at copied
      rcases Option.bind_eq_some_iff.mp copied with ⟨strAddr, isCopy, text⟩
      have is := cString_of_noNul noNulHost
      rw [cString] at is
      simp only [bind, Option.map_some, Option.bind_some, isCopy, text, pure, is,
        Client.getPortFromUrl]
      cases (Client.getHostAddrFromUrl content).dropWhile (· ≠ 58) <;> rfl

end Arrays

/-- Every copy of the helpers stays within its array. -/
structure HelpersFit (strUrl : Bytes) : Prop where
  hostAddr : (Arrays.getHostAddrFromUrl strUrl).isSome
  param : (Arrays.getParamFromUrl strUrl).isSome
  port : (Arrays.getPortFromUrl strUrl).isSome
  ip : (Arrays.hostOfUrl strUrl).isSome

theorem helpersFit_iff (strUrl : Bytes) : HelpersFit strUrl ↔ strUrl.length < URLSIZE := by
  have copied : (Arrays.url strUrl).isSome ↔ strUrl.length < URLSIZE := by
    rw [Arrays.url_eq]
    split <;> simp [*]
  rw [← copied]
  constructor
  · intro fit
    simpa [Arrays.getHostAddrFromUrl_eq] using fit.hostAddr
  · intro isSome
    constructor
    · rwa [Arrays.getHostAddrFromUrl_eq, Option.isSome_map]
    · rwa [Arrays.getParamFromUrl_eq, Option.isSome_map]
    · rwa [Arrays.getPortFromUrl_eq, Option.isSome_map]
    · rwa [Arrays.hostOfUrl_eq, Option.isSome_map]

/-- The arrays are large enough for every accepted URL except those of exactly `URLSIZE` bytes. -/
theorem accepted_url_fits_iff {request : HttpCall} {strUrl : Bytes}
    (accepted : request.acceptedUrl = some strUrl) :
    HelpersFit strUrl ↔ strUrl.length ≠ URLSIZE := by
  have guarded : ¬URLSIZE < strUrl.length := by
    rw [HttpCall.acceptedUrl, Option.filter_eq_some_iff, decide_eq_true_eq] at accepted
    exact accepted.2.2
  rw [helpersFit_iff]
  omega

/-! ### The longest URL -/

def longestUrl : Bytes :=
  ascii "http://" ++ List.replicate 1017 97

theorem length_longestUrl : longestUrl.length = URLSIZE := by
  rw [longestUrl, List.length_append, List.length_replicate]
  rfl

/-- The NUL of a URL of 1024 bytes is written behind the array. -/
theorem longest_url_overflows :
    (HttpCall.get (some longestUrl) []).acceptedUrl = some longestUrl ∧ ¬HelpersFit longestUrl := by
  have nonempty : longestUrl ≠ [] := List.ne_nil_of_length_eq_add_one length_longestUrl
  constructor
  · rw [HttpCall.acceptedUrl, HttpCall.strUrl, Option.filter_some, if_pos]
    rw [decide_eq_true_eq, length_longestUrl]
    exact ⟨nonempty, Nat.lt_irrefl _⟩
  · rw [helpersFit_iff, length_longestUrl]
    exact Nat.lt_irrefl _

theorem accepted_url_fits_iff_servlet : HelpersFit (ascii "http://172.24.83.25:8080") := by
  have accepted : (HttpCall.get (some (ascii "http://172.24.83.25:8080")) []).acceptedUrl =
      some (ascii "http://172.24.83.25:8080") := by
    decide +kernel
  exact (accepted_url_fits_iff accepted).mpr (by decide +kernel)

end HumanMachine.Client
