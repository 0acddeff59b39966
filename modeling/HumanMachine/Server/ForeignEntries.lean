import HumanMachine.Program.Loop
import HumanMachine.Server.SearchServlet

/-!
# Entries for other machines

`getDockerResponse` reads the response and the server id of an entry before it compares
the id. An entry for another machine does no harm as long as both can be read; the loop
ends at one where they cannot, and the request fails with its exception.
-/

namespace HumanMachine.Server

open Gson (getAsJsonObject getAsJsonArray get)

variable (gson : Gson) (macId : Double)

/-- What the loop reads of every entry. -/
def readEntry (element : Json) : Except JavaException (ℤ × Double) := do
  let dockerObject ← getAsJsonObject element
  let response ← gson.getAsInt (← get dockerObject "response")
  let serverId ← gson.getAsDouble (← get dockerObject "server id")
  return (response, serverId)

def readServerId (element : Json) : Except JavaException Double := do
  gson.getAsDouble (← get (← getAsJsonObject element) "server id")

def readAddress (element : Json) : Except JavaException String := do
  gson.getAsString (← get (← getAsJsonObject element) "docker address")

/-- The server id of the entry equals the mac id. -/
def isOwn (element : Json) : Bool :=
  match readServerId gson element with
  | .ok serverId => serverId.eq macId
  | .error _ => false

/-- How the loop ends at an entry, if it does. -/
def turn (element : Json) : Option (Except JavaException String) :=
  match readEntry gson element with
  | .ok (response, serverId) =>
      if serverId.eq macId && response = 1 then some (readAddress gson element) else none
  | .error exception => some (.error exception)

/-- The loop goes on behind the entry. -/
def Passes (element : Json) : Prop :=
  ∃ response serverId, readEntry gson element = .ok (response, serverId) ∧
    ¬(serverId.eq macId ∧ response = 1)

/-- The loop comes to a foreign entry which it cannot read. -/
def Disturbs (elements : List Json) (exception : JavaException) : Prop :=
  ∃ before element after, elements = before ++ element :: after ∧
    (∀ other ∈ before, Passes gson macId other) ∧
    isOwn gson macId element = false ∧ readEntry gson element = .error exception

/-- The text is one of a file with these entries. -/
def Lists (text : String) (elements : List Json) : Prop :=
  ∃ members, gson.parse text = .ok (.obj members) ∧
    members.lookup "docker response info" = some (.arr elements)

variable {gson macId}

theorem getDockerResponse_of_lists {text : String} {elements : List Json}
    (lists : Lists gson text elements) :
    getDockerResponse gson (some text) macId = findDockerResponse gson macId elements := by
  rcases lists with ⟨members, parsed, listed⟩
  have reads : Gson.get members "docker response info" = .ok (.arr elements) := by
    rw [Gson.get, listed]
  simp only [getDockerResponse, parsed, ok_bind, getAsJsonObject, reads, getAsJsonArray]

/-! ## The turns of the loop -/

theorem findDockerResponse_cons (element : Json) (elements : List Json) :
    findDockerResponse gson macId (element :: elements) =
      (turn gson macId element).getD (findDockerResponse gson macId elements) := by
  cases element with
  | obj members =>
      have unfolded : findDockerResponse gson macId (.obj members :: elements) =
          readEntry gson (.obj members) >>= fun (response, serverId) =>
            if serverId.eq macId && response = 1 then readAddress gson (.obj members)
            else findDockerResponse gson macId elements := by
        simp only [findDockerResponse, readEntry, readAddress, getAsJsonObject, ok_bind, bind_assoc,
          pure_bind]
      rw [unfolded, turn]
      cases readEntry gson (.obj members) with
      | error exception => rfl
      | ok fields =>
          rw [ok_bind]
          dsimp only
          split <;> rfl
  | _ => rfl

/-- The loop ends at the first entry at which it can. -/
theorem findDockerResponse_eq_findSome? (elements : List Json) :
    findDockerResponse gson macId elements =
      (elements.findSome? (turn gson macId)).getD (.ok "null") := by
  induction elements with
  | nil => rfl
  | cons element elements ih =>
      rw [findDockerResponse_cons, List.findSome?_cons, ih]
      cases turn gson macId element <;> rfl

theorem turn_eq_none_iff {element : Json} :
    turn gson macId element = none ↔ Passes gson macId element := by
  rw [turn, Passes]
  cases readEntry gson element with
  | error exception => simp
  | ok fields =>
      rcases fields with ⟨response, serverId⟩
      simp [and_comm]

/-- An entry which can be read has a server id which can be read. -/
theorem readServerId_of_readEntry {element : Json} {response : ℤ} {serverId : Double}
    (reads : readEntry gson element = .ok (response, serverId)) :
    readServerId gson element = .ok serverId := by
  cases element with
  | obj members =>
      simp only [readEntry, getAsJsonObject, ok_bind] at reads
      rw [readServerId, getAsJsonObject, ok_bind]
      cases responded : get members "response" >>= gson.getAsInt with
      | error exception =>
          rw [← bind_assoc, responded] at reads
          cases reads
      | ok other =>
          rw [← bind_assoc, responded, ok_bind, ← bind_assoc] at reads
          cases identified : get members "server id" >>= gson.getAsDouble with
          | error exception =>
              rw [identified] at reads
              cases reads
          | ok id =>
              rw [identified] at reads
              cases reads
              rfl
  | _ => cases reads

/-- A foreign entry which can be read is passed. -/
theorem passes_of_foreign {element : Json} (foreign : isOwn gson macId element = false)
    {fields : ℤ × Double} (reads : readEntry gson element = .ok fields) :
    Passes gson macId element := by
  refine ⟨fields.1, fields.2, reads, ?_⟩
  rintro ⟨same, -⟩
  rw [isOwn, readServerId_of_readEntry reads] at foreign
  exact Bool.false_ne_true (foreign.symm.trans same)

theorem Disturbs.cons {element : Json} (passes : Passes gson macId element)
    {elements : List Json} {exception : JavaException}
    (disturbs : Disturbs gson macId elements exception) :
    Disturbs gson macId (element :: elements) exception := by
  rcases disturbs with ⟨before, foreign, after, rfl, passed, rest⟩
  exact ⟨element :: before, foreign, after, rfl, List.forall_mem_cons.mpr ⟨passes, passed⟩, rest⟩

/-- The loop ends with the exception of a foreign entry which it cannot read. -/
theorem Disturbs.findDockerResponse_eq {elements : List Json} {exception : JavaException}
    (disturbs : Disturbs gson macId elements exception) :
    findDockerResponse gson macId elements = .error exception := by
  rcases disturbs with ⟨before, foreign, after, rfl, passed, -, unreadable⟩
  have none : before.findSome? (turn gson macId) = none := by
    rw [List.findSome?_eq_none_iff]
    exact fun other mem => turn_eq_none_iff.mpr (passed other mem)
  rw [findDockerResponse_eq_findSome?, List.findSome?_append, none, List.findSome?_cons, turn,
    unreadable]
  rfl

/-- Where no foreign entry disturbs, the own entries decide. -/
theorem findDockerResponse_own {elements : List Json}
    (undisturbed : ∀ exception, ¬Disturbs gson macId elements exception) :
    findDockerResponse gson macId elements =
      findDockerResponse gson macId (elements.filter (isOwn gson macId)) := by
  induction elements with
  | nil => rfl
  | cons element elements ih =>
      rw [findDockerResponse_cons]
      cases ends : turn gson macId element with
      | none =>
          have passes := turn_eq_none_iff.mp ends
          have rest := ih fun exception disturbs => undisturbed exception (disturbs.cons passes)
          rw [Option.getD_none, rest, List.filter_cons]
          split
          · rw [findDockerResponse_cons, ends, Option.getD_none]
          · rfl
      | some outcome =>
          have own : isOwn gson macId element = true := by
            by_contra notOwn
            have foreign := Bool.eq_false_of_not_eq_true notOwn
            cases reads : readEntry gson element with
            | error exception => exact undisturbed exception ⟨[], element, elements, rfl, by simp,
                foreign, reads⟩
            | ok fields =>
                rw [turn_eq_none_iff.mpr (passes_of_foreign foreign reads)] at ends
                cases ends
          rw [List.filter_cons, if_pos own, findDockerResponse_cons, ends]
          rfl

/-- Where every entry can be read, none disturbs. -/
theorem not_disturbs_of_readable {elements : List Json}
    (readable : ∀ element ∈ elements, ∃ fields, readEntry gson element = .ok fields)
    (exception : JavaException) : ¬Disturbs gson macId elements exception := by
  rintro ⟨before, element, after, rfl, -, -, unreadable⟩
  rcases readable element (by simp) with ⟨fields, reads⟩
  rw [unreadable] at reads
  cases reads

/-- The request fails with that exception, after its document was stored. -/
theorem doPost_fails {query dockerResponseJson : Option String} {input : Option (List Char)}
    {events : List jdbc.Event} {exception : JavaException}
    (stores : (storeBody gson (getBodyData input)).run.Follows events (.done (.ok macId)))
    (ordered : getDockerResponse gson dockerResponseJson macId = .error exception) :
    (doPost gson query input dockerResponseJson).run.Follows events (.done (.error exception)) := by
  rw [← List.append_nil events]
  refine stores.bind_ok ?_
  simp only [respond, ordered]
  exact .refl _

/-! ## Files with the same own entries -/

/-- A foreign entry which cannot be read decides when the loop comes to it. Two files with the
same own entries give the same outcome if that happens in neither. -/
theorem order_of_own_entries (gson : Gson) (macId : Double) {first second : String}
    {elements others : List Json} (lists : Lists gson first elements)
    (also : Lists gson second others)
    (same : elements.filter (isOwn gson macId) = others.filter (isOwn gson macId)) :
    (∀ exception, Disturbs gson macId elements exception →
      getDockerResponse gson (some first) macId = .error exception) ∧
    ((∀ exception, ¬Disturbs gson macId elements exception) →
      (∀ exception, ¬Disturbs gson macId others exception) →
      getDockerResponse gson (some first) macId = getDockerResponse gson (some second) macId) := by
  rw [getDockerResponse_of_lists lists, getDockerResponse_of_lists also]
  constructor
  · exact fun exception disturbs => disturbs.findDockerResponse_eq
  · intro undisturbed undisturbedToo
    rw [findDockerResponse_own undisturbed, findDockerResponse_own undisturbedToo, same]

/-- An order for machine 7. -/
def ownEntry : Json :=
  .obj [("docker address", .str "nginx"), ("response", .num 1), ("server id", .num (.fin 7))]

def foreignEntry : Json :=
  .obj [("docker address", .str "redis"), ("response", .num 1), ("server id", .num (.fin 8))]

/-- The entry of a machine which has not responded. -/
def silentEntry : Json :=
  .obj [("server id", .num (.fin 8))]

/-- A library for three files: the order alone, behind a complete entry for another machine,
and behind an incomplete one. -/
def sharedGson : Gson where
  parse := fun text => .ok (.obj [("docker response info", .arr
    (if text = "alone" then [ownEntry]
    else if text = "shared" then [foreignEntry, ownEntry]
    else [silentEntry, ownEntry]))])
  doubleOfString := fun _ => none
  intOfString := fun _ => none
  intOfNumber := fun
    | .fin value => value.num.tdiv value.den
    | _ => 0
  stringOfNumber := fun _ => ""

theorem lists_alone : Lists sharedGson "alone" [ownEntry] := ⟨_, rfl, rfl⟩

theorem lists_shared : Lists sharedGson "shared" [foreignEntry, ownEntry] := ⟨_, rfl, rfl⟩

theorem lists_incomplete : Lists sharedGson "incomplete" [silentEntry, ownEntry] := ⟨_, rfl, rfl⟩

theorem readEntry_ownEntry : readEntry sharedGson ownEntry = .ok (1, .fin 7) := by
  simp [readEntry, ownEntry, getAsJsonObject, Gson.get]
  rfl

theorem readEntry_foreignEntry : readEntry sharedGson foreignEntry = .ok (1, .fin 8) := by
  simp [readEntry, foreignEntry, getAsJsonObject, Gson.get]
  rfl

theorem isOwn_ownEntry : isOwn sharedGson (.fin 7) ownEntry = true := by
  rw [isOwn, readServerId_of_readEntry readEntry_ownEntry]
  rfl

theorem isOwn_foreignEntry : isOwn sharedGson (.fin 7) foreignEntry = false := by
  rw [isOwn, readServerId_of_readEntry readEntry_foreignEntry]
  rfl

theorem isOwn_silentEntry : isOwn sharedGson (.fin 7) silentEntry = false := by
  have reads : readServerId sharedGson silentEntry = .ok (.fin 8) := Gson.getAsDouble_num sharedGson _
  rw [isOwn, reads]
  rfl

/-- The complete entry for another machine makes no difference. -/
theorem order_of_own_entries_nginx :
    getDockerResponse sharedGson (some "alone") (.fin 7) =
      getDockerResponse sharedGson (some "shared") (.fin 7) := by
  have same : [ownEntry].filter (isOwn sharedGson (.fin 7)) =
      [foreignEntry, ownEntry].filter (isOwn sharedGson (.fin 7)) := by
    simp [isOwn_ownEntry, isOwn_foreignEntry]
  apply (order_of_own_entries sharedGson (.fin 7) lists_alone lists_shared same).2
  · apply not_disturbs_of_readable
    simp [readEntry_ownEntry]
  · apply not_disturbs_of_readable
    simp [readEntry_ownEntry, readEntry_foreignEntry]

/-- The entry without a response in front of the order lets the request of machine 7 fail. -/
theorem silentEntry_disturbs :
    [ownEntry].filter (isOwn sharedGson (.fin 7)) =
        [silentEntry, ownEntry].filter (isOwn sharedGson (.fin 7)) ∧
      getDockerResponse sharedGson (some "alone") (.fin 7) = .ok "nginx" ∧
      getDockerResponse sharedGson (some "incomplete") (.fin 7) = .error .nullPointer := by
  refine ⟨by simp [isOwn_ownEntry, isOwn_silentEntry], ?_, ?_⟩
  · have address : readAddress sharedGson ownEntry = .ok "nginx" :=
      Gson.getAsString_str sharedGson _
    rw [getDockerResponse_of_lists lists_alone, findDockerResponse_cons, turn, readEntry_ownEntry,
      address]
    rfl
  · rw [getDockerResponse_of_lists lists_incomplete]
    rfl

end HumanMachine.Server
