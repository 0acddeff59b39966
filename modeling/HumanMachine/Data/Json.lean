import HumanMachine.Data.Double

/-!
# JSON documents

The client builds documents with jsoncpp and the server reads them with gson.
A document is kept as its meaning, not as a text. An object is the list of its
members; jsoncpp keeps them in a `std::map`, and so in the order of their keys.
-/

namespace HumanMachine

inductive Json where
  | null
  | bool (value : Bool)
  | num (value : Double)
  | str (value : String)
  | arr (elements : List Json)
  | obj (members : List (String × Json))

namespace Json

/-- The value of a member of an object. -/
def member? (key : String) : Json → Option Json
  | .obj members => members.lookup key
  | _ => none

/-- `Value::isMember`. -/
def isMember (document : Json) (key : String) : Bool :=
  (document.member? key).isSome

/-- Reading through `Value::operator[]`: an absent member reads as null. -/
def get (document : Json) (key : String) : Json :=
  (document.member? key).getD .null

/-- `key` set to `value` among members in the order of their keys. -/
def setMember (key : String) (value : Json) : List (String × Json) → List (String × Json)
  | [] => [(key, value)]
  | (name, old) :: rest =>
      if name = key then (name, value) :: rest
      else if key < name then (key, value) :: (name, old) :: rest
      else (name, old) :: setMember key value rest

/-- `document[key] = value`; a null document turns into an object. -/
def set (document : Json) (key : String) (value : Json) : Json :=
  match document with
  | .obj members => .obj (setMember key value members)
  | _ => .obj [(key, value)]

/-- `Value::append`; a null value turns into an array. -/
def append (array : Json) (element : Json) : Json :=
  match array with
  | .arr elements => .arr (elements ++ [element])
  | _ => .arr [element]

/-- `document[key].append(element)` -/
def appendTo (document : Json) (key : String) (element : Json) : Json :=
  document.set key ((document.get key).append element)

mutual

/-- `Value::operator==`: the same type and equal content. -/
def eq : Json → Json → Bool
  | .null, .null => true
  | .bool left, .bool right => left == right
  | .num left, .num right => left.eq right
  | .str left, .str right => left == right
  | .arr left, .arr right => eqElements left right
  | .obj left, .obj right => eqMembers left right
  | _, _ => false

def eqElements : List Json → List Json → Bool
  | [], [] => true
  | left :: lefts, right :: rights => left.eq right && eqElements lefts rights
  | _, _ => false

def eqMembers : List (String × Json) → List (String × Json) → Bool
  | [], [] => true
  | (leftKey, left) :: lefts, (rightKey, right) :: rights =>
      leftKey == rightKey && left.eq right && eqMembers lefts rights
  | _, _ => false

end

mutual

theorem eq_of_eq_true : ∀ {left right : Json}, left.eq right = true → left = right
  | .null, right, equal => by cases right <;> simp_all [eq]
  | .bool value, right, equal => by cases right <;> simp_all [eq]
  | .num value, right, equal => by
      cases right <;> simp only [eq, Bool.false_eq_true] at equal
      rw [Double.eq_of_eq_true equal]
  | .str value, right, equal => by cases right <;> simp_all [eq]
  | .arr elements, right, equal => by
      cases right <;> simp only [eq, Bool.false_eq_true] at equal
      rw [eqElements_of_eq_true equal]
  | .obj members, right, equal => by
      cases right <;> simp only [eq, Bool.false_eq_true] at equal
      rw [eqMembers_of_eq_true equal]

theorem eqElements_of_eq_true :
    ∀ {left right : List Json}, eqElements left right = true → left = right
  | [], right, equal => by cases right <;> simp_all [eqElements]
  | head :: tail, right, equal => by
      cases right with
      | nil => simp [eqElements] at equal
      | cons other others =>
          simp only [eqElements, Bool.and_eq_true] at equal
          rw [eq_of_eq_true equal.1, eqElements_of_eq_true equal.2]

theorem eqMembers_of_eq_true :
    ∀ {left right : List (String × Json)}, eqMembers left right = true → left = right
  | [], right, equal => by cases right <;> simp_all [eqMembers]
  | (key, head) :: tail, right, equal => by
      cases right with
      | nil => simp [eqMembers] at equal
      | cons other others =>
          obtain ⟨otherKey, value⟩ := other
          simp only [eqMembers, Bool.and_eq_true, beq_iff_eq] at equal
          rw [equal.1.1, eq_of_eq_true equal.1.2, eqMembers_of_eq_true equal.2]

end

theorem null_eq_arr (elements : List Json) : Json.null.eq (.arr elements) = false := rfl

example : (Json.num .nan).eq (.num .nan) = false := by decide

@[simp]
theorem member?_obj (key : String) (members : List (String × Json)) :
    (Json.obj members).member? key = members.lookup key := rfl

theorem lookup_setMember (key other : String) (value : Json) (members : List (String × Json)) :
    (setMember key value members).lookup other =
      if other = key then some value else members.lookup other := by
  induction members with
  | nil =>
      by_cases same : other = key
      · simp [setMember, same]
      · simp [setMember, same, List.lookup_cons, beq_eq_false_iff_ne.mpr same]
  | cons head tail ih =>
      rcases head with ⟨name, old⟩
      simp only [setMember]
      split
      · next isName =>
          subst isName
          by_cases same : other = name
          · simp [same]
          · simp [same, List.lookup_cons, beq_eq_false_iff_ne.mpr same]
      · next notName =>
          split
          · by_cases same : other = key
            · simp [same]
            · simp [same, List.lookup_cons, beq_eq_false_iff_ne.mpr same]
          · rw [List.lookup_cons, List.lookup_cons, ih]
            by_cases isName : other = name
            · simp [isName, notName]
            · simp [beq_eq_false_iff_ne.mpr isName]

theorem member?_set (document : Json) (key other : String) (value : Json) :
    (document.set key value).member? other =
      if other = key then some value else document.member? other := by
  cases document with
  | obj members => exact lookup_setMember key other value members
  | _ => exact lookup_setMember key other value []

theorem member?_appendTo (document : Json) (key other : String) (element : Json) :
    (document.appendTo key element).member? other =
      if other = key then some ((document.get key).append element) else document.member? other :=
  member?_set document key other _

theorem exists_obj_set (document : Json) (key : String) (value : Json) :
    ∃ members, document.set key value = .obj members := by
  cases document <;> exact ⟨_, rfl⟩

end Json

end HumanMachine
