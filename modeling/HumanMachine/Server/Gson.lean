import HumanMachine.Data.Json

/-!
# Reading a document with gson

The accessors of `JsonElement`, `JsonArray` and `JsonObject` which the server
uses, with the exceptions they throw. The conversions between the text of a
number or of a string and its value are not determined by the document's
meaning; they are the fields of `Gson` and stay parameters throughout.
-/

namespace HumanMachine.Server

/-- The exceptions which end a statement of the server. -/
inductive JavaException where
  | jsonIo
  | jsonSyntax
  | sql
  | nullPointer
  | illegalState
  | unsupportedOperation
  | indexOutOfBounds
  | numberFormat
  deriving DecidableEq

@[simp]
theorem ok_bind {α β : Type} (value : α) (continuation : α → Except JavaException β) :
    (Except.ok value >>= continuation) = continuation value := rfl

/-- The conversions of the gson library. -/
structure Gson where
  /-- `JsonParser.parse`. -/
  parse : String → Except JavaException Json
  /-- `Double.parseDouble`, on a string where a number is asked for. -/
  doubleOfString : String → Option Double
  /-- `Integer.parseInt`, likewise. -/
  intOfString : String → Option ℤ
  /-- `Number.intValue`. -/
  intOfNumber : Double → ℤ
  /-- The text of a number, where a string is asked for. -/
  stringOfNumber : Double → String

namespace Gson

/-- `JsonElement.getAsJsonObject`; an object is handed on as its members. -/
def getAsJsonObject : Json → Except JavaException (List (String × Json))
  | .obj members => .ok members
  | _ => .error .illegalState

def getAsJsonArray : Json → Except JavaException (List Json)
  | .arr elements => .ok elements
  | _ => .error .illegalState

/-- `JsonObject.get`, the result of which is dereferenced by every caller: an
absent member is a null reference. -/
def get (object : List (String × Json)) (key : String) : Except JavaException Json :=
  match object.lookup key with
  | some value => .ok value
  | none => .error .nullPointer

theorem get_of_member? {members : List (String × Json)} {key : String} {value : Json}
    (found : (Json.obj members).member? key = some value) : get members key = .ok value := by
  rw [Json.member?_obj] at found
  rw [get, found]

def has (object : List (String × Json)) (key : String) : Bool :=
  (object.lookup key).isSome

/-- `JsonArray.get`. -/
def elementAt (array : List Json) (i : ℕ) : Except JavaException Json :=
  match array[i]? with
  | some element => .ok element
  | none => .error .indexOutOfBounds

variable (gson : Gson)

/-- `JsonElement.getAsDouble`; an array of one element stands for the element. -/
def getAsDouble : Json → Except JavaException Double
  | .num value => .ok value
  | .str text =>
      match gson.doubleOfString text with
      | some value => .ok value
      | none => .error .numberFormat
  | .bool _ => .error .numberFormat
  | .arr [element] => getAsDouble element
  | .arr _ => .error .illegalState
  | .null => .error .unsupportedOperation
  | .obj _ => .error .unsupportedOperation

def getAsInt : Json → Except JavaException ℤ
  | .num value => .ok (gson.intOfNumber value)
  | .str text =>
      match gson.intOfString text with
      | some value => .ok value
      | none => .error .numberFormat
  | .bool _ => .error .numberFormat
  | .arr [element] => getAsInt element
  | .arr _ => .error .illegalState
  | .null => .error .unsupportedOperation
  | .obj _ => .error .unsupportedOperation

def getAsString : Json → Except JavaException String
  | .num value => .ok (gson.stringOfNumber value)
  | .str text => .ok text
  | .bool value => .ok (toString value)
  | .arr [element] => getAsString element
  | .arr _ => .error .illegalState
  | .null => .error .unsupportedOperation
  | .obj _ => .error .unsupportedOperation

@[simp]
theorem getAsDouble_num (value : Double) : gson.getAsDouble (.num value) = .ok value := by
  simp [getAsDouble]

@[simp]
theorem getAsInt_num (value : Double) :
    gson.getAsInt (.num value) = .ok (gson.intOfNumber value) := by
  simp [getAsInt]

@[simp]
theorem getAsString_str (text : String) : gson.getAsString (.str text) = .ok text := by
  simp [getAsString]

end Gson

end HumanMachine.Server
