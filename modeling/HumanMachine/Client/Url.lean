import HumanMachine.Data.Decimal

/-!
# Taking a URL apart

The helpers of `HttpRequest.h` which read a URL. A C string is the list of its bytes
before the NUL; a loop over the bytes ends at the NUL if it does not break before.
-/

namespace HumanMachine.Client

/-- The `strAddr` of the helpers: the text after the scheme, wherever that stands. -/
def addrOfUrl (url : Bytes) : Bytes :=
  match url.dropInfix? (ascii "http://") with
  | some (_, strAddr) => strAddr
  | none =>
      match url.dropInfix? (ascii "https://") with
      | some (_, strAddr) => strAddr
      | none => url

def getHostAddrFromUrl (strUrl : Bytes) : Bytes :=
  (addrOfUrl strUrl).takeWhile (· ≠ 47)

/-- The text after the first slash; none without a slash. -/
def getParamFromUrl (strUrl : Bytes) : Bytes :=
  ((addrOfUrl strUrl).dropWhile (· ≠ 47)).drop 1

/-- The white space of `isspace`. -/
def isSpace (byte : UInt8) : Bool :=
  byte = 32 || (9 ≤ byte && byte ≤ 13)

/-- The value of the leading digits, in the range of `long`. -/
def leadingLong (negative : Bool) (text : Bytes) : ℤ :=
  let value := decimalValue (text.takeWhile isDigit)
  if negative then max (-value) (-2 ^ 63) else min value (2 ^ 63 - 1)

/-- `atoi` of the C library: `strtol` converted to `int`. -/
def atoi (text : Bytes) : ℤ :=
  match text.dropWhile isSpace with
  | 45 :: digits => toInt (leadingLong true digits)
  | 43 :: digits => toInt (leadingLong false digits)
  | digits => toInt (leadingLong false digits)

def getPortFromUrl (strUrl : Bytes) : ℤ :=
  match (getHostAddrFromUrl strUrl).dropWhile (· ≠ 58) with
  | [] => 80
  | _ :: strPort => atoi strPort

/-- The copy of the host without the port. -/
def hostOfUrl (strUrl : Bytes) : Bytes :=
  (getHostAddrFromUrl strUrl).takeWhile (· ≠ 58)

/-- `iCount` and `iFlag` after the loop of `GetIPFromUrl` over the host. -/
def countDots (host : Bytes) : ℕ × ℕ :=
  host.foldl
    (fun (iCount, iFlag) (byte : UInt8) =>
      if byte = 46 then (iCount + 1, iFlag)
      else if iFlag = 1 then (iCount, iFlag)
      -- Every byte passes this test, so that `iFlag` is never set.
      else if byte ≥ 48 || byte ≤ 57 then (iCount, 0)
      else (iCount, 1))
    (0, 0)

/-- The test for an address in dotted form. -/
def isDotted (host : Bytes) : Bool :=
  (countDots host).1 = 3 && (countDots host).2 = 0

/-- The URL which the monitor posts to. -/
def serverUrl : Bytes := ascii "http://172.24.83.25:8080"

example : getHostAddrFromUrl serverUrl = ascii "172.24.83.25:8080" := by decide

example : getPortFromUrl serverUrl = 8080 := by decide

theorem countDots_eq (host : Bytes) : countDots host = (host.count 46, 0) := by
  induction host using List.reverseRecOn with
  | nil => rfl
  | append_singleton host byte ih =>
      have passes : byte < 48 → byte ≤ 57 := by
        simp only [UInt8.lt_iff_toNat_lt, UInt8.le_iff_toNat_le, UInt8.reduceToNat]
        omega
      rw [countDots] at ih ⊢
      rw [List.foldl_append, ih, List.count_append]
      by_cases dot : byte = 46
      · simp [dot]
      · simpa [dot] using passes

theorem isDotted_iff (host : Bytes) : isDotted host = true ↔ host.count 46 = 3 := by
  simp [isDotted, countDots_eq]

theorem addrOfUrl_suffix (url : Bytes) : addrOfUrl url <:+ url := by
  rw [addrOfUrl]
  split
  · next before strAddr found =>
      exact ⟨_, (Bytes.dropInfix?_eq_some.mp found).occurs.symm⟩
  · split
    · next before strAddr found =>
        exact ⟨_, (Bytes.dropInfix?_eq_some.mp found).occurs.symm⟩
    · exact List.suffix_refl url

theorem mem_of_mem_addrOfUrl {url : Bytes} {byte : UInt8} (mem : byte ∈ addrOfUrl url) :
    byte ∈ url :=
  (addrOfUrl_suffix url).subset mem

theorem mem_of_mem_getHostAddrFromUrl {url : Bytes} {byte : UInt8}
    (mem : byte ∈ getHostAddrFromUrl url) : byte ∈ url :=
  mem_of_mem_addrOfUrl ((List.takeWhile_prefix _).subset mem)

theorem mem_of_mem_getParamFromUrl {url : Bytes} {byte : UInt8}
    (mem : byte ∈ getParamFromUrl url) : byte ∈ url :=
  mem_of_mem_addrOfUrl ((List.dropWhile_suffix _).subset ((List.drop_suffix 1 _).subset mem))

end HumanMachine.Client
