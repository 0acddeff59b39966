import HumanMachine.Client.Url

/-!
# The parts of a URL

The helpers look for `http://` anywhere in a URL, and for `https://` only where there
is none. So a URL with the other scheme, or with none, is taken apart at a URL
inside it, such as the target of a redirection.
-/

namespace HumanMachine.Client

open Bytes (FirstOccurrence)

inductive Scheme where
  | http
  | https
  | none
  deriving DecidableEq

def Scheme.text : Scheme → Bytes
  | .http => ascii "http://"
  | .https => ascii "https://"
  | .none => []

/-- A URL as it is written: the scheme, the authority and the text behind the first slash. -/
structure WrittenUrl where
  scheme : Scheme
  authority : Bytes
  path : Option Bytes
  nonempty : authority ≠ []
  noSlash : 47 ∉ authority

namespace WrittenUrl

variable (url : WrittenUrl)

/-- What is written behind the authority. -/
def tail : Bytes :=
  match url.path with
  | some path => 47 :: path
  | none => []

/-- The text behind the scheme. -/
def rest : Bytes :=
  url.authority ++ url.tail

def text : Bytes :=
  url.scheme.text ++ url.rest

/-- The authority without the port. -/
def host : Bytes :=
  url.authority.takeWhile (· ≠ 58)

/-- The helpers return the written parts. -/
def TakenApart : Prop :=
  getHostAddrFromUrl url.text = url.authority ∧ getParamFromUrl url.text = url.path.getD []

/-- The scheme of the URL is the first one the helpers find in it. -/
def SchemeFirst : Prop :=
  url.scheme = .http ∨ ¬ascii "http://" <:+: url.rest ∧
    (url.scheme = .https ∨ ¬ascii "https://" <:+: url.rest)

end WrittenUrl

/-! ## The scheme which is found -/

theorem addrOfUrl_of_http {text before strAddr : Bytes}
    (found : FirstOccurrence (ascii "http://") text before strAddr) : addrOfUrl text = strAddr := by
  simp only [addrOfUrl, Bytes.dropInfix?_eq_some.mpr found]

theorem addrOfUrl_of_https {text before strAddr : Bytes} (absent : ¬ascii "http://" <:+: text)
    (found : FirstOccurrence (ascii "https://") text before strAddr) : addrOfUrl text = strAddr := by
  simp only [addrOfUrl, Bytes.dropInfix?_of_not_infix absent, Bytes.dropInfix?_eq_some.mpr found]

theorem addrOfUrl_of_none {text : Bytes} (noHttp : ¬ascii "http://" <:+: text)
    (noHttps : ¬ascii "https://" <:+: text) : addrOfUrl text = text := by
  simp only [addrOfUrl, Bytes.dropInfix?_of_not_infix noHttp, Bytes.dropInfix?_of_not_infix noHttps]

/-- The other scheme does not begin inside of `https://`. -/
theorem http_not_infix_https {rest : Bytes} (absent : ¬ascii "http://" <:+: rest) :
    ¬ascii "http://" <:+: ascii "https://" ++ rest := by
  have http : ascii "http://" = [104, 116, 116, 112, 58, 47, 47] := by decide
  have https : ascii "https://" = [104, 116, 116, 112, 115, 58, 47, 47] := by decide
  rw [http] at absent
  simpa [http, https, List.infix_cons_iff, List.cons_prefix_cons] using absent

theorem firstOccurrence_at_start (sub rest : Bytes) : FirstOccurrence sub (sub ++ rest) [] rest :=
  ⟨rfl, fun _ _ _ => Nat.zero_le _⟩

namespace WrittenUrl

variable {url : WrittenUrl}

theorem addrOfUrl_text (first : url.SchemeFirst) : addrOfUrl url.text = url.rest := by
  rw [text]
  cases scheme : url.scheme with
  | http => exact addrOfUrl_of_http (firstOccurrence_at_start _ _)
  | https =>
      rcases first with is | ⟨noHttp, _⟩
      · simp [scheme] at is
      · exact addrOfUrl_of_https (http_not_infix_https noHttp) (firstOccurrence_at_start _ _)
  | none =>
      rcases first with is | ⟨noHttp, is | noHttps⟩
      · simp [scheme] at is
      · simp [scheme] at is
      · exact addrOfUrl_of_none noHttp noHttps

theorem takenApart_of_addr (addr : addrOfUrl url.text = url.rest) : url.TakenApart := by
  have passes : ∀ byte ∈ url.authority, decide (byte ≠ 47) = true := by
    intro byte mem
    simpa using fun is : byte = 47 => url.noSlash (is ▸ mem)
  rw [TakenApart, getHostAddrFromUrl, getParamFromUrl, addr, rest, tail,
    List.takeWhile_append_of_pos passes, List.dropWhile_append_of_pos passes]
  cases url.path <;> simp

/-- The text which was taken apart is as long as what is written behind the scheme, but
for a slash at its end. -/
theorem length_rest_le (apart : url.TakenApart) :
    url.rest.length ≤ (addrOfUrl url.text).length + 1 := by
  rcases apart with ⟨host, param⟩
  have both := congrArg List.length
    (List.takeWhile_append_dropWhile (p := (· ≠ 47)) (l := addrOfUrl url.text))
  rw [List.length_append] at both
  rw [getHostAddrFromUrl] at host
  rw [getParamFromUrl] at param
  have host := congrArg List.length host
  have param := congrArg List.length param
  rw [List.length_drop] at param
  rw [rest, tail, List.length_append]
  cases written : url.path with
  | none =>
      simp only [List.length_nil]
      omega
  | some path =>
      simp only [written, Option.getD_some] at param
      simp only [List.length_cons]
      omega

/-- Whatever scheme is found elsewhere, too much is cut off. -/
theorem not_takenApart_of_found {sub before strAddr : Bytes} (apart : url.TakenApart)
    (addr : addrOfUrl url.text = strAddr) (found : FirstOccurrence sub url.text before strAddr) :
    before.length + sub.length ≤ url.scheme.text.length + 1 := by
  have long := length_rest_le apart
  have whole := congrArg List.length found.occurs
  rw [text] at whole
  simp only [List.length_append] at whole
  rw [addr] at long
  omega

theorem http_not_soon {before strAddr rest : Bytes} (soon : before.length ≤ 2) :
    ascii "https://" ++ rest ≠ before ++ ascii "http://" ++ strAddr := by
  have http : ascii "http://" = [104, 116, 116, 112, 58, 47, 47] := by decide
  have https : ascii "https://" = [104, 116, 116, 112, 115, 58, 47, 47] := by decide
  rw [http, https]
  match before, soon with
  | [], _ => simp
  | [_], _ => simp
  | [_, _], _ => simp

theorem schemeFirst_of_takenApart (apart : url.TakenApart) : url.SchemeFirst := by
  by_contra elsewhere
  simp only [SchemeFirst, not_or, not_and, not_not] at elsewhere
  rcases elsewhere with ⟨notHttp, inside⟩
  by_cases occurs : ascii "http://" <:+: url.rest
  · have within : ascii "http://" <:+: url.text := occurs.trans (List.suffix_append _ _).isInfix
    rcases Bytes.exists_firstOccurrence within with ⟨before, strAddr, found⟩
    have early := not_takenApart_of_found apart (addrOfUrl_of_http found) found
    have length : (ascii "http://").length = 7 := by decide
    cases scheme : url.scheme with
    | http => exact notHttp scheme
    | https =>
        have occurrence := found.occurs
        rw [text, scheme] at occurrence
        have eight : (Scheme.text .https).length = 8 := by decide
        rw [scheme] at early
        exact http_not_soon (by omega) occurrence
    | none =>
        have nothing : (Scheme.text .none).length = 0 := rfl
        rw [scheme] at early
        omega
  · rcases inside occurs with ⟨notHttps, occursHttps⟩
    have scheme : url.scheme = .none := by
      cases is : url.scheme <;> simp_all
    have same : url.text = url.rest := by
      rw [text, scheme]
      rfl
    rw [← same] at occurs occursHttps
    rcases Bytes.exists_firstOccurrence occursHttps with ⟨before, strAddr, found⟩
    have early := not_takenApart_of_found apart (addrOfUrl_of_https occurs found) found
    have length : (ascii "https://").length = 8 := by decide
    have nothing : (Scheme.text .none).length = 0 := rfl
    rw [scheme] at early
    omega

/-- A URL is taken apart as it is written exactly when no other scheme is found before its own. -/
theorem takenApart_iff (url : WrittenUrl) : url.TakenApart ↔ url.SchemeFirst :=
  ⟨schemeFirst_of_takenApart, fun first => takenApart_of_addr (addrOfUrl_text first)⟩

theorem SchemeFirst.getHostAddrFromUrl_text (first : url.SchemeFirst) :
    getHostAddrFromUrl url.text = url.authority :=
  ((takenApart_iff url).mpr first).1

theorem SchemeFirst.hostOfUrl_text (first : url.SchemeFirst) : hostOfUrl url.text = url.host := by
  rw [hostOfUrl, first.getHostAddrFromUrl_text, host]

/-- `http://172.24.83.25:8080` -/
def servlet : WrittenUrl where
  scheme := .http
  authority := ascii "172.24.83.25:8080"
  path := none
  nonempty := by decide
  noSlash := by decide

/-! ## A redirection -/

/-- `https://a/?to=http://b` -/
def redirection : WrittenUrl where
  scheme := .https
  authority := ascii "a"
  path := some (ascii "?to=http://b")
  nonempty := by decide
  noSlash := by decide

/-- The host is taken from the parameter. -/
theorem redirection_not_takenApart :
    getHostAddrFromUrl redirection.text = ascii "b" ∧ ¬redirection.TakenApart := by
  have host : getHostAddrFromUrl redirection.text = ascii "b" := by decide +kernel
  refine ⟨host, ?_⟩
  rintro ⟨written, _⟩
  rw [host] at written
  exact absurd written (by decide)

end WrittenUrl

end HumanMachine.Client
