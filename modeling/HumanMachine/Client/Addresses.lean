import HumanMachine.Client.Destination
import HumanMachine.Client.UrlParts

/-!
# Addresses and names

`GetIPFromUrl` is meant to tell an address in dotted form from a name. It counts the dots,
but its test for a digit lets every byte pass, the terminating NUL included. So three
dots make an address of any host. The host is the one behind the first scheme it finds, which
need not be that of the URL.
-/

namespace HumanMachine.Client

open Program (Run)

/-- The text which `inet_ntoa` writes. -/
def inetNtoa (address : Address) : Bytes :=
  decimal (address.extractLsb' 24 8).toNat ++ 46 :: (decimal (address.extractLsb' 16 8).toNat ++
    46 :: (decimal (address.extractLsb' 8 8).toNat ++ 46 :: decimal (address.extractLsb' 0 8).toNat))

/-- The resolver which knows these addresses. -/
def Resolver.ofHosts (hosts : Bytes → Option (List Address)) (pton : Bytes → Option Address) :
    Resolver where
  addresses name := (hosts name).map (·.map inetNtoa)
  pton := pton

/-- The first address which `gethostbyname` gives for a name. -/
def Resolver.firstAddress (resolver : Resolver) (name : Bytes) : Option Bytes :=
  resolver.addresses name >>= List.head?

/-- Nothing but digits and dots, and three of these. -/
structure IsLiteral (host : Bytes) : Prop where
  numeric : ∀ byte ∈ host, isDigit byte ∨ byte = 46
  dots : host.count 46 = 3

/-- `GetIPFromUrl` ends with this result. -/
def Resolver.Gives (resolver : Resolver) (strUrl : Bytes) (result : Option Bytes) : Prop :=
  ∀ net, ∃ events after,
    Run (netEnvironment resolver) (getIPFromUrl strUrl) net events (.done result) after

/-- The written host itself is returned if it is a literal address, else its first address. -/
def Resolver.TellsApart (resolver : Resolver) (url : WrittenUrl) : Prop :=
  ∃ result, resolver.Gives url.text result ∧
    (result = some url.host ↔ IsLiteral url.host) ∧
    (url.host ≠ [] → ¬IsLiteral url.host → result = resolver.firstAddress url.host)

theorem isLiteral_inetNtoa (address : Address) : IsLiteral (inetNtoa address) := by
  have noDot (n : ℕ) : (decimal n).count 46 = 0 :=
    List.count_eq_zero_of_not_mem (not_mem_decimal (by decide))
  constructor
  · intro byte mem
    simp only [inetNtoa, List.mem_append, List.mem_cons] at mem
    rcases mem with mem | is | mem | is | mem | is | mem
    all_goals first
      | exact Or.inl (isDigit_of_mem_decimal mem)
      | exact Or.inr is
  · rw [inetNtoa]
    simp only [List.count_append, List.count_cons_self, noDot]

/-! ## The call -/

variable {resolver : Resolver} {strUrl : Bytes} {result : Option Bytes} {url : WrittenUrl}

theorem Resolver.gives_ipOfUrl (resolver : Resolver) (strUrl : Bytes) :
    resolver.Gives strUrl (resolver.ipOfUrl strUrl) := by
  intro net
  rw [getIPFromUrl, Resolver.ipOfUrl]
  by_cases short : (hostOfUrl strUrl).length ≤ 1
  · rw [if_pos short, if_pos short]
    exact ⟨[], net, .refl _ _⟩
  rw [if_neg short, if_neg short]
  by_cases dotted : isDotted (hostOfUrl strUrl) = true
  · rw [if_pos dotted, if_pos dotted]
    exact ⟨[], net, .refl _ _⟩
  rw [if_neg dotted, if_neg dotted]
  refine ⟨[⟨.gethostbyname (hostOfUrl strUrl), resolver.addresses (hostOfUrl strUrl)⟩], net, ?_⟩
  have answered : netEnvironment resolver net (.gethostbyname (hostOfUrl strUrl))
      (resolver.addresses (hostOfUrl strUrl)) net :=
    ⟨beq_self_eq_true _, rfl⟩
  refine .step answered ?_
  cases found : resolver.addresses (hostOfUrl strUrl) with
  | none => exact .refl _ _
  | some addresses => exact .refl _ _

theorem Resolver.Gives.eq (gives : resolver.Gives strUrl result) :
    result = resolver.ipOfUrl strUrl := by
  rcases gives Net.initial with ⟨events, after, run⟩
  rw [getIPFromUrl] at run
  rw [Resolver.ipOfUrl]
  by_cases short : (hostOfUrl strUrl).length ≤ 1
  · rw [if_pos short] at run ⊢
    exact (Program.done.inj run.of_done.2.1)
  rw [if_neg short] at run ⊢
  by_cases dotted : isDotted (hostOfUrl strUrl) = true
  · rw [if_pos dotted] at run ⊢
    exact (Program.done.inj run.of_done.2.1)
  rw [if_neg dotted] at run ⊢
  cases run with
  | step answered rest =>
      obtain rfl := Net.gethostbyname_allowed answered.1
      cases found : resolver.addresses (hostOfUrl strUrl) with
      | none =>
          rw [found] at rest
          exact (Program.done.inj rest.of_done.2.1)
      | some addresses =>
          rw [found] at rest
          exact (Program.done.inj rest.of_done.2.1)

theorem Resolver.tellsApart_iff_ipOfUrl : resolver.TellsApart url ↔
    (resolver.ipOfUrl url.text = some url.host ↔ IsLiteral url.host) ∧
      (url.host ≠ [] → ¬IsLiteral url.host →
        resolver.ipOfUrl url.text = resolver.firstAddress url.host) := by
  constructor
  · rintro ⟨result, gives, told⟩
    obtain rfl := gives.eq
    exact told
  · intro told
    exact ⟨_, resolver.gives_ipOfUrl url.text, told⟩

/-- An address of the resolver is literal, and so no name which is none. -/
theorem Resolver.firstAddress_ne_self {hosts : Bytes → Option (List Address)}
    {pton : Bytes → Option Address} {name : Bytes} (named : ¬IsLiteral name) :
    (Resolver.ofHosts hosts pton).firstAddress name ≠ some name := by
  intro same
  rw [firstAddress, ofHosts] at same
  cases known : hosts name with
  | none => simp [known] at same
  | some addresses =>
      cases addresses with
      | nil => simp [known] at same
      | cons address addresses =>
          simp only [known, Option.map_some, bind, Option.bind_some, List.map_cons,
            List.head?_cons, Option.some.injEq] at same
          exact named (same ▸ isLiteral_inetNtoa address)

theorem IsLiteral.ne_nil {host : Bytes} (literal : IsLiteral host) : host ≠ [] := by
  rintro rfl
  exact absurd literal.dots (by decide)

/-- Where the written host is read, addresses and names are told apart exactly if a host with
three dots is an address, and a host of one character is no name which the resolver knows. -/
theorem Resolver.tellsApart_iff_of_host (hosts : Bytes → Option (List Address))
    (pton : Bytes → Option Address) (isRead : hostOfUrl url.text = url.host) :
    (Resolver.ofHosts hosts pton).TellsApart url ↔
      (url.host.count 46 = 3 → IsLiteral url.host) ∧
        (url.host.length = 1 →
          (Resolver.ofHosts hosts pton).firstAddress url.host = none) := by
  rw [tellsApart_iff_ipOfUrl, ipOfUrl, isRead]
  generalize url.host = host
  by_cases short : host.length ≤ 1
  · have few : host.count 46 ≤ 1 := List.count_le_length.trans short
    have named : ¬IsLiteral host := fun literal => by
      have := literal.dots
      omega
    have fewDots : host.count 46 ≠ 3 := by omega
    rw [if_pos short]
    constructor
    · rintro ⟨_, first⟩
      refine ⟨fun dots => absurd dots fewDots, ?_⟩
      intro single
      exact (first (List.ne_nil_of_length_pos (by omega)) named).symm
    · rintro ⟨_, unknown⟩
      refine ⟨by simp [named], ?_⟩
      intro nonempty _
      have positive := List.length_pos_iff.mpr nonempty
      exact (unknown (by omega)).symm
  · rw [if_neg short]
    by_cases dotted : isDotted host = true
    · have dots := (isDotted_iff host).mp dotted
      rw [if_pos dotted]
      constructor
      · rintro ⟨literal, _⟩
        exact ⟨fun _ => literal.mp rfl, by omega⟩
      · rintro ⟨literal, _⟩
        exact ⟨iff_of_true rfl (literal dots), fun _ named => absurd (literal dots) named⟩
    · have dots : host.count 46 ≠ 3 := fun dots => dotted ((isDotted_iff host).mpr dots)
      have named : ¬IsLiteral host := fun literal => dots literal.dots
      rw [if_neg dotted]
      constructor
      · intro _
        exact ⟨fun three => absurd three dots, by omega⟩
      · intro _
        exact ⟨iff_of_false (firstAddress_ne_self named) named, fun _ _ => rfl⟩

/-- A resolver which knows one name. -/
def knowing (name : Bytes) (address : Address) : Resolver :=
  .ofHosts (fun asked => if asked = name then some [address] else none) fun _ => none

theorem firstAddress_knowing (name : Bytes) (address : Address) :
    (knowing name address).firstAddress name = some (inetNtoa address) := by
  simp [Resolver.firstAddress, knowing, Resolver.ofHosts]

/-- Another host gets no address. -/
theorem ipOfUrl_knowing {name : Bytes} (address : Address) (other : hostOfUrl strUrl ≠ name) :
    (knowing name address).ipOfUrl strUrl = none ∨
      (knowing name address).ipOfUrl strUrl = some (hostOfUrl strUrl) := by
  rw [Resolver.ipOfUrl]
  split
  · exact .inl rfl
  split
  · exact .inr rfl
  · simp [knowing, Resolver.ofHosts, other]

/-- A resolver shows that another host has been read. -/
theorem host_read_of_tellsApart (nonempty : url.host ≠ [])
    (always : ∀ address, (knowing url.host address).TellsApart url) :
    hostOfUrl url.text = url.host := by
  by_contra other
  have told := fun address => Resolver.tellsApart_iff_ipOfUrl.mp (always address)
  by_cases literal : IsLiteral url.host
  · have itself := (told 0).1.mpr literal
    rcases ipOfUrl_knowing 0 other with none | found
    · rw [none] at itself
      cases itself
    · rw [found, Option.some.injEq] at itself
      exact other itself
  · have isAddress : ∀ address, hostOfUrl url.text = inetNtoa address := by
      intro address
      have first := (told address).2 nonempty literal
      rw [firstAddress_knowing] at first
      rcases ipOfUrl_knowing address other with none | found
      · rw [none] at first
        cases first
      · rw [found, Option.some.injEq] at first
        exact first
    have same := (isAddress 0).symm.trans (isAddress 1)
    exact absurd same (by decide)

theorem tellsApart_of_noHost (hosts : Bytes → Option (List Address))
    (pton : Bytes → Option Address) (noHost : url.host = []) :
    (Resolver.ofHosts hosts pton).TellsApart url := by
  rw [Resolver.tellsApart_iff_ipOfUrl, noHost]
  refine ⟨iff_of_false ?_ fun literal => literal.ne_nil rfl, fun nonempty => absurd rfl nonempty⟩
  rw [Resolver.ipOfUrl]
  split
  · exact (Option.some_ne_none _).symm
  next long =>
    split
    · intro isEmpty
      rw [Option.some.injEq] at isEmpty
      simp [isEmpty] at long
    · have unnamed : ¬IsLiteral ([] : Bytes) := fun literal => literal.ne_nil rfl
      intro isEmpty
      cases known : hosts (hostOfUrl url.text) with
      | none => simp [Resolver.ofHosts, known] at isEmpty
      | some addresses =>
          cases addresses with
          | nil => simp [Resolver.ofHosts, known] at isEmpty
          | cons address addresses =>
              simp only [Resolver.ofHosts, known, Option.map_some, bind, Option.bind_some,
                List.map_cons, List.head?_cons, Option.some.injEq] at isEmpty
              exact (isLiteral_inetNtoa address).ne_nil isEmpty

/-- Where no other scheme stands before that of the URL, addresses and names are told apart
exactly if a host with three dots is an address, and a host of one character is no name which
the resolver knows. In general they are told apart at every resolver exactly if there is no
host, or the written host is read, is an address if it has three dots, and is longer. -/
theorem Resolver.tellsApart_iff (url : WrittenUrl) :
    (url.SchemeFirst → ∀ (hosts : Bytes → Option (List Address)) (pton : Bytes → Option Address),
      ((Resolver.ofHosts hosts pton).TellsApart url ↔
        (url.host.count 46 = 3 → IsLiteral url.host) ∧
          (url.host.length = 1 →
            (Resolver.ofHosts hosts pton).firstAddress url.host = none))) ∧
    ((∀ (hosts : Bytes → Option (List Address)) (pton : Bytes → Option Address),
      (Resolver.ofHosts hosts pton).TellsApart url) ↔
      url.host = [] ∨ hostOfUrl url.text = url.host ∧
        (url.host.count 46 = 3 → IsLiteral url.host) ∧ url.host.length ≠ 1) := by
  constructor
  · intro first hosts pton
    exact tellsApart_iff_of_host hosts pton first.hostOfUrl_text
  · constructor
    · intro always
      by_cases noHost : url.host = []
      · exact .inl noHost
      have isRead := host_read_of_tellsApart noHost fun address => always _ _
      have told := (tellsApart_iff_of_host _ _ isRead).mp (always
        (fun asked => if asked = url.host then some [0] else none) fun _ => none)
      refine .inr ⟨isRead, told.1, ?_⟩
      intro single
      have unknown := (firstAddress_knowing url.host 0).symm.trans (told.2 single)
      cases unknown
    · rintro (noHost | ⟨isRead, literal, long⟩) hosts pton
      · exact tellsApart_of_noHost hosts pton noHost
      · exact (tellsApart_iff_of_host hosts pton isRead).mpr
          ⟨literal, fun single => absurd single long⟩

theorem Resolver.tellsApart_iff_servlet : IsLiteral WrittenUrl.servlet.host ∧
    ∀ (hosts : Bytes → Option (List Address)) (pton : Bytes → Option Address),
      (Resolver.ofHosts hosts pton).TellsApart .servlet := by
  have literal : IsLiteral WrittenUrl.servlet.host := ⟨by decide +kernel, by decide +kernel⟩
  refine ⟨literal, fun hosts pton => ?_⟩
  apply ((Resolver.tellsApart_iff .servlet).1 (.inl rfl) hosts pton).mpr
  exact ⟨fun _ => literal, fun single => absurd single (by decide)⟩

/-! ### A name with four labels -/

/-- `http://a.b.c.d/` -/
def fourLabels : WrittenUrl where
  scheme := .http
  authority := ascii "a.b.c.d"
  path := some []
  nonempty := by decide
  noSlash := by decide

/-- The name is returned, although the resolver has an address for it. -/
theorem fourLabels_not_toldApart :
    (knowing (ascii "a.b.c.d") 0x01020304).firstAddress (ascii "a.b.c.d") = some (ascii "1.2.3.4") ∧
      (knowing (ascii "a.b.c.d") 0x01020304).Gives (ascii "http://a.b.c.d/")
        (some (ascii "a.b.c.d")) ∧
      fourLabels.text = ascii "http://a.b.c.d/" ∧
      ¬(knowing (ascii "a.b.c.d") 0x01020304).TellsApart fourLabels := by
  have host : fourLabels.host = ascii "a.b.c.d" := by decide
  have named : ¬IsLiteral (ascii "a.b.c.d") := fun literal =>
    absurd (literal.numeric 97 (by decide)) (by decide)
  have ip : (knowing (ascii "a.b.c.d") 0x01020304).ipOfUrl (ascii "http://a.b.c.d/") =
      some (ascii "a.b.c.d") := by decide
  have text : fourLabels.text = ascii "http://a.b.c.d/" := by decide
  refine ⟨by decide, ?_, text, ?_⟩
  · rw [← ip]
    exact Resolver.gives_ipOfUrl _ _
  · intro told
    have told := Resolver.tellsApart_iff_ipOfUrl.mp told
    rw [host, text] at told
    exact named (told.1.mp ip)

end HumanMachine.Client
