import HumanMachine.Data.Decimal

/-!
# An HTTP/1.1 receiver

The framing of a byte stream into requests. Empty lines before a request line are
skipped; the request line and the fields end with the first empty line; the body has
as many bytes as the Content-Length field says, and none without that field.
-/

namespace HumanMachine.Receiver

def crlf : Bytes := [13, 10]

structure Request where
  method : Bytes
  target : Bytes
  host : Bytes
  body : Bytes
  deriving DecidableEq

/-- The parts before and after the first separator. -/
def cutAt (separator : UInt8) : Bytes → Option (Bytes × Bytes)
  | [] => none
  | byte :: bytes =>
      if byte = separator then some ([], bytes)
      else (cutAt separator bytes).map fun (before, after) => (byte :: before, after)

def readLine : Bytes → Option (Bytes × Bytes)
  | [] => none
  | 13 :: 10 :: rest => some ([], rest)
  | byte :: bytes => (readLine bytes).map fun (line, rest) => (byte :: line, rest)

/-- The lines up to the first empty one, at most so many, and what comes after it. -/
def readLines : ℕ → Bytes → Option (List Bytes × Bytes)
  | 0, _ => none
  | bound + 1, bytes => do
      let (line, rest) ← readLine bytes
      if line = [] then some ([], rest)
      else
        let (lines, rest) ← readLines bound rest
        return (line :: lines, rest)

def skipEmptyLines : Bytes → Bytes
  | 13 :: 10 :: rest => skipEmptyLines rest
  | bytes => bytes

def readRequestLine (line : Bytes) : Option (Bytes × Bytes) := do
  let (method, rest) ← cutAt 32 line
  let (target, version) ← cutAt 32 rest
  if version = ascii "HTTP/1.1" then some (method, target) else none

def isBlank (byte : UInt8) : Bool :=
  byte = 32 || byte = 9

def trim (text : Bytes) : Bytes :=
  ((text.dropWhile isBlank).reverse.dropWhile isBlank).reverse

def lower (byte : UInt8) : UInt8 :=
  if 65 ≤ byte && byte ≤ 90 then byte + 32 else byte

/-- The name, in lower case, and the value. -/
def readField (line : Bytes) : Option (Bytes × Bytes) :=
  (cutAt 58 line).map fun (name, value) => (name.map lower, trim value)

def contentLength (fields : List (Bytes × Bytes)) : Option ℕ :=
  match fields.lookup (ascii "content-length") with
  | none => some 0
  | some value => if value ≠ [] ∧ value.all isDigit then some (decimalValue value) else none

/-- The request whose head consists of these lines. -/
def readHead (lines : List Bytes) (rest : Bytes) : Option (Request × Bytes) :=
  match lines with
  | [] => none
  | line :: lines => do
      let (method, target) ← readRequestLine line
      let fields ← lines.mapM readField
      let host ← fields.lookup (ascii "host")
      let length ← contentLength fields
      if rest.length < length then none
      else return (⟨method, target, host, rest.take length⟩, rest.drop length)

/-- The first request and what comes after it. -/
def readRequest (stream : Bytes) : Option (Request × Bytes) := do
  let bytes := skipEmptyLines stream
  let (lines, rest) ← readLines bytes.length bytes
  readHead lines rest

/-- At most so many requests, and what is left over. -/
def decode : ℕ → Bytes → List Request × Bytes
  | 0, stream => ([], stream)
  | bound + 1, stream =>
      match readRequest stream with
      | none => ([], skipEmptyLines stream)
      | some (request, rest) =>
          let (requests, left) := decode bound rest
          (request :: requests, left)

def receive (stream : Bytes) : List Request × Bytes :=
  decode (stream.length + 1) stream

/-! ## Reading what was written -/

theorem cutAt_append {separator : UInt8} {before : Bytes} (after : Bytes)
    (free : separator ∉ before) :
    cutAt separator (before ++ separator :: after) = some (before, after) := by
  induction before with
  | nil => simp [cutAt]
  | cons byte before ih =>
      rw [List.mem_cons, not_or] at free
      rw [List.cons_append, cutAt, if_neg (Ne.symm free.1), ih free.2]
      rfl

theorem readLine_append {line : Bytes} (rest : Bytes) (free : 13 ∉ line) :
    readLine (line ++ crlf ++ rest) = some (line, rest) := by
  induction line with
  | nil => rfl
  | cons byte line ih =>
      rw [List.mem_cons, not_or] at free
      rw [List.cons_append, List.cons_append, readLine, ih free.2]
      · rfl
      · intro rest is
        cases is
        exact absurd rfl free.1

/-- The lines of a head, with the empty line which ends it. -/
def writeLines (lines : List Bytes) : Bytes :=
  lines.flatMap (· ++ crlf) ++ crlf

theorem writeLines_cons (line : Bytes) (lines : List Bytes) :
    writeLines (line :: lines) = line ++ crlf ++ writeLines lines := by
  simp [writeLines]

theorem readLines_writeLines {lines : List Bytes} {bound : ℕ} (rest : Bytes)
    (proper : ∀ line ∈ lines, line ≠ [] ∧ 13 ∉ line) (enough : lines.length < bound) :
    readLines bound (writeLines lines ++ rest) = some (lines, rest) := by
  induction lines generalizing bound with
  | nil =>
      cases bound with
      | zero => simp at enough
      | succ bound => rfl
  | cons line lines ih =>
      cases bound with
      | zero => simp at enough
      | succ bound =>
          rcases proper line List.mem_cons_self with ⟨nonempty, free⟩
          have later : readLines bound (writeLines lines ++ rest) = some (lines, rest) :=
            ih (fun line mem => proper line (List.mem_cons_of_mem _ mem)) (by simpa using enough)
          rw [readLines, writeLines_cons, List.append_assoc, readLine_append _ free]
          simp [nonempty, later]

theorem lines_lt_writeLines (lines : List Bytes) : lines.length < (writeLines lines).length := by
  induction lines with
  | nil => decide
  | cons line lines ih =>
      rw [writeLines_cons, List.length_append, List.length_append, List.length_cons]
      have : crlf.length = 2 := rfl
      omega

theorem skipEmptyLines_cons {byte : UInt8} (bytes : Bytes) (visible : byte ≠ 13) :
    skipEmptyLines (byte :: bytes) = byte :: bytes := by
  rw [skipEmptyLines]
  intro rest is
  cases is
  exact visible rfl

/-- A head which is written after some empty lines is read back. -/
theorem readRequest_writeLines {line : Bytes} {lines : List Bytes} {stream rest : Bytes}
    (proper : ∀ line' ∈ line :: lines, line' ≠ [] ∧ 13 ∉ line')
    (skipped : skipEmptyLines stream = skipEmptyLines (writeLines (line :: lines) ++ rest)) :
    readRequest stream = readHead (line :: lines) rest := by
  have starts : skipEmptyLines (writeLines (line :: lines) ++ rest) =
      writeLines (line :: lines) ++ rest := by
    rcases proper line List.mem_cons_self with ⟨nonempty, free⟩
    cases line with
    | nil => exact absurd rfl nonempty
    | cons byte line =>
        rw [List.mem_cons, not_or] at free
        exact skipEmptyLines_cons _ (Ne.symm free.1)
  rw [readRequest, skipped, starts]
  have enough : (line :: lines).length < (writeLines (line :: lines) ++ rest).length := by
    have := lines_lt_writeLines (line :: lines)
    rw [List.length_append]
    omega
  have read := readLines_writeLines rest proper enough
  change (readLines _ _).bind _ = _
  rw [read]
  rfl

theorem trim_blank {text : Bytes} (free : ∀ byte ∈ text, isBlank byte = false) :
    trim (32 :: text) = text := by
  have keeps (text : Bytes) (free : ∀ byte ∈ text, isBlank byte = false) :
      text.dropWhile isBlank = text := by
    cases text with
    | nil => rfl
    | cons byte text => rw [List.dropWhile_cons_of_neg]; simp [free byte List.mem_cons_self]
  have front : (32 :: text).dropWhile isBlank = text := by
    rw [List.dropWhile_cons_of_pos (by decide)]
    exact keeps text free
  rw [trim, front, keeps, List.reverse_reverse]
  intro byte mem
  exact free byte (List.mem_reverse.mp mem)

/-! ## Heads -/

/-- What is written before the body. -/
structure Head where
  method : Bytes
  target : Bytes
  fields : List (Bytes × Bytes)

def writeField (field : Bytes × Bytes) : Bytes :=
  field.1 ++ 58 :: 32 :: field.2

def Head.requestLine (head : Head) : Bytes :=
  head.method ++ 32 :: (head.target ++ 32 :: ascii "HTTP/1.1")

def Head.lines (head : Head) : List Bytes :=
  head.requestLine :: head.fields.map writeField

def Head.readFields (head : Head) : List (Bytes × Bytes) :=
  head.fields.map fun (name, value) => (name.map lower, value)

/-- The separators of a field stand only where they separate. -/
structure PlainField (field : Bytes × Bytes) : Prop where
  name : 58 ∉ field.1 ∧ 13 ∉ field.1
  value : ∀ byte ∈ field.2, isBlank byte = false ∧ byte ≠ 13

theorem plainField_mk {name value : Bytes} (plainName : 58 ∉ name ∧ 13 ∉ name)
    (plainValue : ∀ byte ∈ value, isBlank byte = false ∧ byte ≠ 13) : PlainField (name, value) :=
  ⟨plainName, plainValue⟩

theorem plainField_of_all {name value : Bytes}
    (all : (name.all (fun byte => byte != 58 && byte != 13) &&
      value.all fun byte => !isBlank byte && byte != 13) = true) : PlainField (name, value) := by
  simp only [Bool.and_eq_true, List.all_eq_true, bne_iff_ne, Bool.not_eq_true'] at all
  rcases all with ⟨plainName, plainValue⟩
  constructor
  · exact ⟨fun mem => (plainName 58 mem).1 rfl, fun mem => (plainName 13 mem).2 rfl⟩
  · exact plainValue

structure Head.Plain (head : Head) : Prop where
  method : 32 ∉ head.method ∧ 13 ∉ head.method
  target : 32 ∉ head.target ∧ 13 ∉ head.target
  fields : ∀ field ∈ head.fields, PlainField field

variable {head : Head}

theorem readRequestLine_requestLine (plain : head.Plain) :
    readRequestLine head.requestLine = some (head.method, head.target) := by
  simp [readRequestLine, Head.requestLine, cutAt_append _ plain.method.1,
    cutAt_append _ plain.target.1]

theorem readField_writeField {field : Bytes × Bytes} (plain : PlainField field) :
    readField (writeField field) = some (field.1.map lower, field.2) := by
  rw [readField, writeField, cutAt_append _ plain.name.1, Option.map_some]
  dsimp only
  rw [trim_blank fun byte mem => (plain.value byte mem).1]

theorem mapM_readField (plain : head.Plain) :
    (head.fields.map writeField).mapM readField = some head.readFields := by
  have each : ∀ fields : List (Bytes × Bytes), (∀ field ∈ fields, field ∈ head.fields) →
      (fields.map writeField).mapM readField =
        some (fields.map fun (name, value) => (name.map lower, value)) := by
    intro fields
    induction fields with
    | nil => intro; rfl
    | cons field fields ih =>
        intro among
        have mem := among field List.mem_cons_self
        rw [List.map_cons, List.mapM_cons, ih fun other mem => among other (List.mem_cons_of_mem _ mem),
          readField_writeField (plain.fields field mem)]
        rfl
  exact each head.fields fun _ mem => mem

theorem lines_proper (plain : head.Plain) : ∀ line ∈ head.lines, line ≠ [] ∧ 13 ∉ line := by
  intro line mem
  rcases List.mem_cons.mp mem with rfl | mem
  · constructor
    · simp [Head.requestLine]
    · have version : 13 ∉ ascii "HTTP/1.1" := by decide
      simp [Head.requestLine, plain.method.2, plain.target.2, version]
  · rcases List.mem_map.mp mem with ⟨field, among, rfl⟩
    constructor
    · simp [writeField]
    · have value : 13 ∉ field.2 := fun has => ((plain.fields field among).value 13 has).2 rfl
      simp [writeField, (plain.fields field among).name.2, value]

/-- A request which was written is read back, whatever comes after it. -/
theorem readRequest_of_written {stream body rest host : Bytes} (plain : head.Plain)
    (hasHost : head.readFields.lookup (ascii "host") = some host)
    (hasLength : contentLength head.readFields = some body.length)
    (skipped : skipEmptyLines stream =
      skipEmptyLines (writeLines head.lines ++ (body ++ rest))) :
    readRequest stream = some (⟨head.method, head.target, host, body⟩, rest) := by
  rw [readRequest_writeLines (lines_proper plain) skipped, readHead]
  simp [readRequestLine_requestLine plain, mapM_readField plain, hasHost, hasLength]

theorem decode_succ {bound : ℕ} {stream rest : Bytes} {request : Request}
    (read : readRequest stream = some (request, rest)) :
    decode (bound + 1) stream = (request :: (decode bound rest).1, (decode bound rest).2) := by
  rw [decode, read]

/-! ## A first byte which is not skipped -/

theorem head_of_cutAt {separator byte : UInt8} {bytes before after : Bytes}
    (cut : cutAt separator (byte :: bytes) = some (before, after)) (other : byte ≠ separator) :
    before.head? = some byte := by
  rw [cutAt, if_neg other, Option.map_eq_some_iff] at cut
  rcases cut with ⟨parts, _, is⟩
  cases is
  rfl

theorem head_of_readLine {byte : UInt8} {bytes line rest : Bytes}
    (read : readLine (byte :: bytes) = some (line, rest)) (visible : byte ≠ 13) :
    ∃ tail, line = byte :: tail := by
  rw [readLine, Option.map_eq_some_iff] at read
  · rcases read with ⟨parts, _, is⟩
    cases is
    exact ⟨_, rfl⟩
  · intro rest is
    exact absurd is visible

theorem head_of_readLines {byte : UInt8} {bytes rest : Bytes} {lines : List Bytes} {bound : ℕ}
    (read : readLines bound (byte :: bytes) = some (lines, rest)) (visible : byte ≠ 13) :
    ∃ tail later, lines = (byte :: tail) :: later := by
  cases bound with
  | zero => cases read
  | succ bound =>
      rcases Option.bind_eq_some_iff.mp read with ⟨⟨line, afterLine⟩, first, read⟩
      rcases head_of_readLine first visible with ⟨tail, rfl⟩
      dsimp only at read
      rw [if_neg (List.cons_ne_nil byte tail)] at read
      rcases Option.bind_eq_some_iff.mp read with ⟨⟨later, afterLines⟩, _, read⟩
      cases read
      exact ⟨tail, later, rfl⟩

theorem head_of_readRequestLine {byte : UInt8} {line method target : Bytes}
    (read : readRequestLine (byte :: line) = some (method, target)) (nonblank : byte ≠ 32) :
    method.head? = some byte := by
  rcases Option.bind_eq_some_iff.mp read with ⟨⟨first, afterFirst⟩, cut, read⟩
  rcases Option.bind_eq_some_iff.mp read with ⟨⟨second, version⟩, _, read⟩
  have same : first = method := by
    simp only [Option.ite_none_right_eq_some, Option.some.injEq, Prod.mk.injEq] at read
    exact read.2.1
  subst same
  exact head_of_cutAt cut nonblank

theorem head_of_readHead {byte : UInt8} {tail rest after : Bytes} {later : List Bytes}
    {request : Request} (read : readHead ((byte :: tail) :: later) rest = some (request, after))
    (nonblank : byte ≠ 32) : request.method.head? = some byte := by
  rcases Option.bind_eq_some_iff.mp read with ⟨⟨method, target⟩, line, read⟩
  rcases Option.bind_eq_some_iff.mp read with ⟨fields, _, read⟩
  rcases Option.bind_eq_some_iff.mp read with ⟨host, _, read⟩
  rcases Option.bind_eq_some_iff.mp read with ⟨length, _, read⟩
  split at read
  · cases read
  · cases read
    exact head_of_readRequestLine line nonblank

/-- The method begins with the byte with which the request begins. -/
theorem head_of_readRequest {byte : UInt8} {stream bytes rest : Bytes} {request : Request}
    (read : readRequest stream = some (request, rest))
    (skipped : skipEmptyLines stream = byte :: bytes) (visible : byte ≠ 13) (nonblank : byte ≠ 32) :
    request.method.head? = some byte := by
  rw [readRequest, skipped] at read
  rcases Option.bind_eq_some_iff.mp read with ⟨⟨lines, afterLines⟩, first, read⟩
  rcases head_of_readLines first visible with ⟨tail, later, rfl⟩
  exact head_of_readHead read nonblank

/-- From there on, either something is left over or the next method begins with that byte. -/
theorem decode_of_head {byte : UInt8} {bound : ℕ} {stream bytes left : Bytes}
    {requests : List Request} (decoded : decode bound stream = (requests, left))
    (skipped : skipEmptyLines stream = byte :: bytes) (visible : byte ≠ 13) (nonblank : byte ≠ 32) :
    (requests = [] ∧ left ≠ []) ∨
      ∃ request later, requests = request :: later ∧ request.method.head? = some byte := by
  cases bound with
  | zero =>
      cases decoded
      left
      refine ⟨rfl, ?_⟩
      rintro rfl
      cases skipped
  | succ bound =>
      rw [decode] at decoded
      cases read : readRequest stream with
      | none =>
          rw [read] at decoded
          cases decoded
          left
          exact ⟨rfl, by simp [skipped]⟩
      | some result =>
          rw [read] at decoded
          cases decoded
          right
          exact ⟨_, _, rfl, head_of_readRequest read skipped visible nonblank⟩

end HumanMachine.Receiver
