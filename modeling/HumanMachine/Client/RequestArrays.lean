import HumanMachine.Client.DataToJson
import HumanMachine.Client.Framing
import HumanMachine.Client.UrlArrays
import HumanMachine.Data.JsonText

/-!
# The arrays of a request

`HttpHeadCreate` puts the request together in an array of `BUFSIZE` bytes and prints
the length of the data into one of 8 bytes. Nothing compares these sizes with the data.
-/

namespace HumanMachine.Client

open Program (Follows)
open JsonText

/-- The pieces which are appended for every method. -/
def headPieces (strMethod strUrl : Bytes) : List Bytes :=
  [strMethod, ascii " /", getParamFromUrl strUrl, ascii " HTTP/1.1\r\n", ascii "Accept: */*\r\n",
    ascii "Accept-Language: en-us,en;q=0.5\r\n", ascii "User-Agent: Mozilla/4.0\r\n",
    ascii "Host: ", getHostAddrFromUrl strUrl, ascii "\r\n", ascii "Cache-Control: no-cache\r\n",
    ascii "Connection: Keep-Alive\r\n"]

/-- The pieces of the data; `len` is the length in digits. -/
def dataPieces (len strData : Bytes) : List Bytes :=
  [ascii "Content-Type: text/html\r\n", ascii "Content-Length: ", len, ascii "\r\n\r\n", strData]

/-- `HttpHeadCreate` for `POST`, with its arrays. -/
def Arrays.httpHeadCreate (strUrl strData : Bytes) : Option Bytes := do
  let strHttpHead ← (Buffer.zeroed BUFSIZE).strcatAll (headPieces (ascii "POST") strUrl)
  let len ← (Buffer.zeroed 8).strcpy (decimal (toInt strData.length))
  let strHttpHead ← strHttpHead.strcatAll (dataPieces (← len.text) strData)
  let strHttpHead ← strHttpHead.strcatAll [ascii "\r\n\r\n"]
  strHttpHead.text

/-- The request and the number in it fit into their arrays, with a NUL each. -/
structure RequestFits (strUrl strData : Bytes) : Prop where
  head : (httpHeadCreate (ascii "POST") strUrl (some strData)).length + 1 ≤ BUFSIZE
  len : (decimal (toInt strData.length)).length + 1 ≤ 8

/-- The length of the text behind the scheme which the helpers find, without its first slash. -/
def addressLength (strUrl : Bytes) : ℕ :=
  (addrOfUrl strUrl).length - if 47 ∈ addrOfUrl strUrl then 1 else 0

theorem length_host_add_param (strUrl : Bytes) :
    (getHostAddrFromUrl strUrl).length + (getParamFromUrl strUrl).length = addressLength strUrl := by
  rw [getHostAddrFromUrl, getParamFromUrl, addressLength, List.length_drop]
  have parts := congrArg List.length
    (List.takeWhile_append_dropWhile (p := fun byte : UInt8 => decide (byte ≠ 47)) (l := addrOfUrl strUrl))
  rw [List.length_append] at parts
  split
  · next slash =>
      have behind : (addrOfUrl strUrl).dropWhile (· ≠ 47) ≠ [] := by
        rw [ne_eq, List.dropWhile_eq_nil_iff]
        intro all
        exact absurd (all 47 slash) (by decide)
      have := List.length_pos_of_ne_nil behind
      omega
  · next noSlash =>
      have behind : (addrOfUrl strUrl).dropWhile (· ≠ 47) = [] := by
        rw [List.dropWhile_eq_nil_iff]
        intro byte mem
        rw [decide_eq_true_eq]
        rintro rfl
        exact noSlash mem
      rw [behind] at parts ⊢
      simpa using parts

theorem httpHeadCreate_eq_flatten (strUrl strData : Bytes) :
    httpHeadCreate (ascii "POST") strUrl (some strData) =
      (headPieces (ascii "POST") strUrl).flatten ++
        ((dataPieces (decimal (toInt strData.length)) strData).flatten ++ ascii "\r\n\r\n") := by
  simp [httpHeadCreate, headPieces, dataPieces]

theorem length_headPieces (strUrl : Bytes) :
    (headPieces (ascii "POST") strUrl).flatten.length = 145 + addressLength strUrl := by
  have fixed : (headPieces (ascii "POST") []).flatten.length = 145 := by decide +kernel
  have noParam : getParamFromUrl [] = [] := rfl
  have noHost : getHostAddrFromUrl [] = [] := rfl
  rw [← length_host_add_param, ← fixed]
  simp only [headPieces, noParam, noHost, List.flatten_cons, List.length_append, List.length_nil]
  omega

theorem length_dataPieces (len strData : Bytes) :
    (dataPieces len strData).flatten.length = 45 + len.length + strData.length := by
  have fixed : (dataPieces [] []).flatten.length = 45 := by decide +kernel
  rw [← fixed]
  simp only [dataPieces, List.flatten_cons, List.flatten_nil, List.length_append, List.length_nil]
  omega

theorem length_httpHeadCreate (strUrl strData : Bytes) :
    (httpHeadCreate (ascii "POST") strUrl (some strData)).length =
      194 + addressLength strUrl + (decimal (toInt strData.length)).length + strData.length := by
  have trailer : (ascii "\r\n\r\n").length = 4 := rfl
  rw [httpHeadCreate_eq_flatten, List.length_append, List.length_append, length_headPieces,
    length_dataPieces, trailer]
  omega

/-- The request fits exactly if the host, the parameters, the data and the digits of its
length leave room for the 194 other bytes and the NUL. -/
theorem requestFits_iff (strUrl strData : Bytes) :
    RequestFits strUrl strData ↔
      194 + addressLength strUrl + (decimal strData.length).length + strData.length < BUFSIZE := by
  have same (short : strData.length < BUFSIZE) : toInt strData.length = strData.length :=
    toInt_length short
  constructor
  · intro fits
    have head := fits.head
    rw [length_httpHeadCreate] at head
    rw [same (by omega)] at head
    omega
  · intro short
    have small : strData.length < BUFSIZE := by omega
    constructor
    · rw [length_httpHeadCreate, same small]
      omega
    · rw [same small]
      have digits := length_decimal_le (k := 5) (by decide) (small.trans (by decide))
      omega

/-! ## Assembling the request -/

theorem headPieces_noNul {strUrl : Bytes} (noNul : 0 ∉ strUrl) :
    ∀ piece ∈ headPieces (ascii "POST") strUrl, 0 ∉ piece := by
  have param : 0 ∉ getParamFromUrl strUrl := fun mem => noNul (mem_of_mem_getParamFromUrl mem)
  have host : 0 ∉ getHostAddrFromUrl strUrl := fun mem => noNul (mem_of_mem_getHostAddrFromUrl mem)
  simp only [headPieces, List.forall_mem_cons, List.not_mem_nil, false_imp_iff, implies_true]
  simp only [param, host, not_false_eq_true]
  decide +kernel

theorem dataPieces_noNul {len strData : Bytes} (lenNoNul : 0 ∉ len) (noNul : 0 ∉ strData) :
    ∀ piece ∈ dataPieces len strData, 0 ∉ piece := by
  simp only [dataPieces, List.forall_mem_cons, List.not_mem_nil, false_imp_iff, implies_true]
  simp only [lenNoNul, noNul, not_false_eq_true]
  decide +kernel

theorem trailer_noNul : ∀ piece ∈ [ascii "\r\n\r\n"], 0 ∉ piece := by
  decide

theorem text_zeroed_bufsize : (Buffer.zeroed BUFSIZE).text = some [] :=
  Buffer.text_zeroed (by decide)

/-- Without a NUL in the URL and the data, the arrays hold the request if it fits. -/
theorem Arrays.httpHeadCreate_of_fits {strUrl strData : Bytes} (urlNoNul : 0 ∉ strUrl)
    (dataNoNul : 0 ∉ strData) (fits : RequestFits strUrl strData) :
    Arrays.httpHeadCreate strUrl strData =
      some (Client.httpHeadCreate (ascii "POST") strUrl (some strData)) := by
  have small : strData.length < BUFSIZE := by
    have := (requestFits_iff strUrl strData).mp fits
    omega
  have head := fits.head
  have lenNoNul : 0 ∉ decimal (toInt strData.length) := by
    rw [toInt_length small]
    exact not_mem_decimal (by decide)
  rw [httpHeadCreate_eq_flatten, List.length_append, List.length_append] at head
  rcases Buffer.exists_strcatAll text_zeroed_bufsize (headPieces_noNul urlNoNul)
    (by rw [List.length_nil]; omega) with ⟨first, appended, held⟩
  rcases Buffer.exists_strcatAll held (dataPieces_noNul lenNoNul dataNoNul)
    (by rw [List.nil_append]; omega) with ⟨second, appendedData, heldData⟩
  rcases Buffer.exists_strcatAll heldData trailer_noNul
    (by simp only [List.nil_append, List.length_append, List.flatten_cons, List.flatten_nil,
      List.length_nil]; omega) with ⟨third, appendedTrailer, heldTrailer⟩
  have printed := Buffer.strcpy_bind_text (Buffer.zeroed 8) (decimal (toInt strData.length))
  have lenFits : (decimal (toInt strData.length)).length < 8 := fits.len
  rw [if_pos lenFits] at printed
  rcases Option.bind_eq_some_iff.mp printed with ⟨len, isPrinted, text⟩
  have whole := cString_of_noNul lenNoNul
  rw [cString] at whole
  rw [whole] at text
  simp only [Arrays.httpHeadCreate, bind, appended, isPrinted, text, appendedData, appendedTrailer,
    heldTrailer, Option.bind_some, httpHeadCreate_eq_flatten]
  simp

theorem Arrays.fits_of_httpHeadCreate {strUrl strData head : Bytes} (urlNoNul : 0 ∉ strUrl)
    (dataNoNul : 0 ∉ strData) (assembled : Arrays.httpHeadCreate strUrl strData = some head) :
    RequestFits strUrl strData := by
  simp only [Arrays.httpHeadCreate, bind, Option.bind_eq_some_iff] at assembled
  rcases assembled with ⟨first, appended, len, printed, digits, text, second, appendedData, third,
    appendedTrailer, _⟩
  have held := (Buffer.strcatAll_eq text_zeroed_bufsize (headPieces_noNul urlNoNul)).2 _ appended
  have digitsNoNul := (Buffer.text_eq_some_iff.mp text).1
  have heldData := (Buffer.strcatAll_eq held (dataPieces_noNul digitsNoNul dataNoNul)).2 _ appendedData
  have short := (Buffer.strcatAll_eq heldData trailer_noNul).1.mp
    (Option.isSome_of_eq_some appendedTrailer)
  have trailer : [ascii "\r\n\r\n"].flatten.length = 4 := rfl
  rw [List.nil_append, List.length_append, length_headPieces, length_dataPieces, trailer] at short
  have small : strData.length < BUFSIZE := by omega
  have whole : (decimal strData.length).takeWhile (· ≠ 0) = decimal strData.length :=
    cString_of_noNul (not_mem_decimal (by decide))
  have same := Buffer.text_strcpy printed
  rw [text, toInt_length small, whole, Option.some_inj] at same
  rw [requestFits_iff, ← same]
  omega

/-! ## Calls -/

/-- The request fits, or the call fails. -/
def FitsOrFails (strUrl strData strResponse : Bytes) : Prop :=
  RequestFits strUrl strData ∨ ∀ rounds events value,
    Follows ((HttpCall.post (some strUrl) (some strData) strResponse).run rounds) events
      (.done value) → value.1 = 0

/-- Every accepted request is sent, whatever its size, if the socket of an earlier call is ready. -/
theorem exists_answered {request : HttpCall} {strUrl : Bytes}
    (accepted : request.acceptedUrl = some strUrl) :
    ∃ events, Follows (request.run 1) events (.done (1, ascii "ok")) := by
  rw [run_of_accepted accepted]
  generalize httpHeadCreate request.strMethod strUrl request.strData = strHttpHead
  refine ⟨[⟨.loadSocketFd, (3 : ℤ)⟩, ⟨.select 3, (⟨1, true, false⟩ : Selected)⟩,
    ⟨.getsockopt 3, (⟨0, 0⟩ : PendingError)⟩, ⟨.send 3 (strHttpHead ++ [0]), (1 : ℤ)⟩,
    ⟨.freeHttpHead, ()⟩, ⟨.recv 3, Received.data (ascii "ok") ok_nonempty ok_fits⟩], ?_⟩
  exact .step (.step (.step (.step (.step (.step (.refl _))))))

/-- A request which does not fit is assembled all the same. -/
theorem RequestFits.of_fitsOrFails {strUrl strData strResponse : Bytes}
    (accepted : (HttpCall.post (some strUrl) (some strData) strResponse).acceptedUrl = some strUrl)
    (holds : FitsOrFails strUrl strData strResponse) : RequestFits strUrl strData := by
  rcases holds with fits | fails
  · exact fits
  · rcases exists_answered accepted with ⟨events, follows⟩
    exact absurd (fails _ _ _ follows) (by decide)

/-- A posted request fits, or else the call fails, exactly if the host, the parameters, the data
and the digits of its length leave room for the 194 other bytes and the NUL. -/
theorem posted_request_fits_iff {strUrl strData strResponse : Bytes}
    (accepted : (HttpCall.post (some strUrl) (some strData) strResponse).acceptedUrl = some strUrl) :
    FitsOrFails strUrl strData strResponse ↔
      194 + addressLength strUrl + (decimal strData.length).length + strData.length < BUFSIZE := by
  rw [← requestFits_iff]
  exact ⟨RequestFits.of_fitsOrFails accepted, Or.inl⟩

/-! ### A thousand containers -/

/-- The samples of a machine with `n` containers. -/
def crowded (n : ℕ) : Samples where
  cpuSourceAvailable := []
  cpuMHz := []
  cpuCores := []
  memoryTotalInfo := [.fin 1]
  memoryAvailableInfo := [.fin 1]
  diskTotalInfo := [.fin 1]
  diskAvailableInfo := [.fin 1]
  ethFirstInfo := []
  ethSecondInfo := []
  dockerIDInfo := List.replicate n "0123456789ab"
  dockerCpuInfo := List.replicate n (.fin 1)
  dockerMemoryUsageInfo := List.replicate n (.fin 1)
  dockerMemoryLimitInfo := List.replicate n (.fin 1)
  dockerMemoryInfo := List.replicate n (.fin 1)
  macAddressId := [.fin 1]
  locationInfo := ["here"]
  timestampInfo := ["now"]

def containerEntry : Json :=
  .obj [("cpu", .num (.fin 1)), ("id", .str "0123456789ab"), ("memory", .num (.fin 1)),
    ("memory limit", .num (.fin 1)), ("memory usage", .num (.fin 1))]

def usageEntry : Json :=
  .obj [("available", .num (.fin 1)), ("total", .num (.fin 1)), ("used", .num (.fin 0))]

def crowdedDocument (n : ℕ) : Json :=
  .obj [("disk info", .arr [usageEntry]), ("docker info", .arr (List.replicate n containerEntry)),
    ("location info", .arr [.obj [("address", .str "here")]]),
    ("mac address info", .arr [.obj [("id", .num (.fin 1))]]),
    ("memory info", .arr [usageEntry]), ("timestamp info", .arr [.obj [("time", .str "now")]])]

theorem docker_crowded {n i : ℕ} (within : i < n) : (crowded n).docker i = some containerEntry := by
  simp only [Samples.docker, crowded, List.getElem?_replicate_of_lt within]
  rfl

theorem appendAll_same {key : String} {entry : ℕ → Option Json} {added : Json} {indices : List ℕ}
    (each : ∀ i ∈ indices, entry i = some added) (elements : List Json) :
    appendAll key entry indices (.obj [(key, .arr elements)]) =
      some (.obj [(key, .arr (elements ++ List.replicate indices.length added))]) := by
  induction indices generalizing elements with
  | nil => simp [appendAll]
  | cons i indices ih =>
      rw [List.forall_mem_cons] at each
      have next : (Json.obj [(key, .arr elements)]).appendTo key added =
          .obj [(key, .arr (elements ++ [added]))] := by
        simp [Json.appendTo, Json.set, Json.setMember, Json.get, Json.append]
      have rest := ih each.2 (elements ++ [added])
      rw [appendAll] at rest ⊢
      rw [List.foldlM_cons, each.1]
      simpa [next, List.replicate_succ] using rest

theorem used_crowded : (1 : Double) - .fin 1 / .fin 1 = .fin 0 := by
  simp [Double.one_def]

theorem memory_crowded (n : ℕ) : (crowded n).memory = some usageEntry := by
  change some ((Json.obj [("available", .num (.fin 1)), ("total", .num (.fin 1))]).set "used"
    (.num (1 - .fin 1 / .fin 1))) = _
  rw [used_crowded]
  rfl

theorem disk_crowded (n : ℕ) : (crowded n).disk = some usageEntry := by
  have sum : (0 : Double) + .fin 1 = .fin 1 := congrArg Double.fin (zero_add 1)
  change some ((Json.obj [("available", .num ((0 : Double) + .fin 1)),
    ("total", .num ((0 : Double) + .fin 1))]).set "used"
    (.num (1 - ((0 : Double) + .fin 1) / ((0 : Double) + .fin 1)))) = _
  rw [sum, used_crowded]
  rfl

theorem appendAll_docker_crowded (n : ℕ) :
    appendAll "docker info" (crowded (n + 1)).docker (List.range (n + 1)) .null =
      some (.obj [("docker info", .arr (List.replicate (n + 1) containerEntry))]) := by
  have each : ∀ i ∈ List.range (n + 1), (crowded (n + 1)).docker i = some containerEntry := by
    intro i mem
    exact docker_crowded (List.mem_range.mp mem)
  rw [List.range_succ_eq_map, List.forall_mem_cons] at each
  have first : Json.null.appendTo "docker info" containerEntry =
      .obj [("docker info", .arr [containerEntry])] := rfl
  have rest : appendAll "docker info" _ _ (.obj [("docker info", .arr [containerEntry])]) = _ :=
    appendAll_same each.2 [containerEntry]
  rw [appendAll] at rest ⊢
  rw [List.range_succ_eq_map, List.foldlM_cons, each.1]
  simpa [first, List.replicate_succ] using rest

theorem dataToJson_crowded (n : ℕ) :
    dataToJson (crowded (n + 1)) = some (crowdedDocument (n + 1)) := by
  have cpus : appendAll "cpu info" (crowded (n + 1)).cpu
      (List.range (crowded (n + 1)).cpuMHz.length) .null = some .null := rfl
  have containers : (crowded (n + 1)).dockerIDInfo.length = n + 1 := List.length_replicate
  rw [dataToJson, cpus, containers]
  have interfaces : evenIndices (crowded (n + 1)).ethFirstInfo.length = [] := evenIndices_double 0
  simp only [bind, Option.bind_some, appendAll_docker_crowded, memory_crowded, disk_crowded,
    interfaces]
  rfl

theorem hasText_usageEntry : HasText usageEntry := by
  apply hasText_obj
  simp only [List.forall_mem_cons, List.not_mem_nil, false_imp_iff, implies_true, hasText_one,
    hasText_zero]
  decide

theorem hasText_containerEntry : HasText containerEntry := by
  apply hasText_obj
  have id : HasText (.str "0123456789ab") := hasText_str (by decide)
  simp only [List.forall_mem_cons, List.not_mem_nil, false_imp_iff, implies_true, hasText_one, id]
  decide

theorem hasText_crowdedDocument (n : ℕ) : HasText (crowdedDocument (n + 1)) := by
  have alone {entry : Json} (has : HasText entry) : HasText (.arr [entry]) :=
    hasText_arr (by simpa using has)
  have single {key : String} {entry : Json} (plain : Unescaped key) (has : HasText entry) :
      HasText (.arr [.obj [(key, entry)]]) := alone (hasText_obj (by simpa using ⟨plain, has⟩))
  have containers : HasText (.arr (List.replicate (n + 1) containerEntry)) := by
    apply hasText_arr
    rw [← List.replicate_succ]
    intro entry mem
    rw [List.eq_of_mem_replicate mem]
    exact hasText_containerEntry
  have address : HasText (.arr [.obj [("address", .str "here")]]) :=
    single (by decide) (hasText_str (by decide))
  have mac : HasText (.arr [.obj [("id", .num (.fin 1))]]) := single (by decide) hasText_one
  have time : HasText (.arr [.obj [("time", .str "now")]]) :=
    single (by decide) (hasText_str (by decide))
  apply hasText_obj
  simp only [List.forall_mem_cons, List.not_mem_nil, false_imp_iff, implies_true,
    alone hasText_usageEntry, containers, address, mac, time]
  decide

theorem length_crowdedDocument {n : ℕ} {text : List Char} (isText : IsText (crowdedDocument n) text) :
    70 * n ≤ text.length := by
  have least := Derives.leastLength_le isText
  have container : leastLength containerEntry = 70 := by decide
  simp only [Phrase.leastLength, crowdedDocument, leastLength, leastMembers, leastElements_replicate,
    container] at least
  omega

/-- The document of a machine with 1000 containers has a text, but none which fits. -/
theorem crowded_request_overflows :
    ∃ document, dataToJson (crowded 1000) = some document ∧ (∃ text, IsText document text) ∧
      ∀ text : String, IsText document text.toList →
        ¬FitsOrFails serverUrl (utf8 text) [] := by
  refine ⟨crowdedDocument 1000, dataToJson_crowded 999, (hasText_crowdedDocument 999).element, ?_⟩
  intro text isText holds
  have fits := RequestFits.of_fitsOrFails (serverUrl_accepted _ _) holds
  rw [requestFits_iff] at fits
  have long := length_crowdedDocument isText
  have bytes := length_le_utf8 text
  have size : BUFSIZE = 41000 := rfl
  omega

theorem posted_request_fits_iff_listed :
    FitsOrFails serverUrl (ascii "[null]") [] := by
  apply (posted_request_fits_iff (serverUrl_accepted _ _)).mpr
  decide +kernel

end HumanMachine.Client
