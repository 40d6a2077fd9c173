import BlockGraph.Json.Diagnosis.Token
import BlockGraph.Json.Shape

/-!
# Diagnoses of texts

What is wrong with a JSON text that should have some shape: the first complaint of an examination
and the number of the byte where it shows.
-/

namespace BlockGraph

/-- The complaint with a place, if it has none. -/
def Complaint.placed (c : Complaint) (place : Nat) : Complaint :=
  ⟨c.breach, some (c.place.getD place)⟩

namespace Exam

/-! ## Containers -/

/-- Leaves a list behind an item. -/
def leaveList : Exam Unit := do
  match ← peekToken with
  | some ']' => pass
  | some ',' =>
    pass
    if (← peekToken) = some ']' then complainNext .trailingComma
    complainNext .trailingCharacters
  | some _ => complainNext .trailingCharacters
  | none => complainHere .endInList

/-- Leaves an object behind a member. -/
def leaveObject : Exam Unit := do
  match ← peekToken with
  | some '\x7d' => pass
  | some ',' => complainNext .trailingComma
  | some _ => complainNext .trailingCharacters
  | none => complainHere .endInObject

/-- Examines a container from its opening bracket on, with room for so many further levels. It is
left also when a complaint about it was made. -/
def within {α : Type} (room : Nat) (leave : Exam Unit) (body : Nat → Exam α) : Exam α := do
  if room = 0 then complainNext .tooDeep
  pass
  ExceptT.mk do
    let answer ← (body (room - 1)).run
    let left ← leave.run
    let place := (← get).passed
    return match answer, left with
      | .error c, _ | .ok _, .error c => .error (c.placed place)
      | .ok a, .ok () => .ok a

/-- Whether another item of a list follows; `first` tells whether none came yet. -/
def nextItem (first : Bool) : Exam Bool := do
  match ← peekToken with
  | none => complainHere .endInList
  | some ']' => return false
  | some c =>
    if first then return true
    if c ≠ ',' then complainNext .wantsItemSeparator
    pass
    match ← peekToken with
    | none => complainHere .endInValue
    | some ']' => complainNext .trailingComma
    | some _ => return true

/-- Whether another member of an object follows; `first` tells whether none came yet. -/
def nextMember (first : Bool) : Exam Bool := do
  match ← peekToken with
  | none => complainHere .endInObject
  | some '\x7d' => return false
  | some c =>
    if first then
      if c ≠ '"' then complainNext .keyNoString
      return true
    if c ≠ ',' then complainNext .wantsMemberSeparator
    pass
    match ← peekToken with
    | none => complainHere .endInValue
    | some '"' => return true
    | some '\x7d' => complainNext .trailingComma
    | some _ => complainNext .keyNoString

/-- Passes the colon behind a key. -/
def passColon : Exam Unit := do
  match ← peekToken with
  | some ':' => pass
  | some _ => complainNext .wantsColon
  | none => complainHere .endInObject

/-! ## Values that are kept -/

/-- Passes the word that begins with the next character. -/
def passRest (word : List Char) : Exam Unit := do
  pass
  passWord word

mutual
/-- Examines a value that is kept. -/
def keep : Nat → (room : Nat) → Exam Json
  | 0, _ => complainHere .endInValue
  | fuel + 1, room => do
    match ← peekToken with
    | none => complainHere .endInValue
    | some 'n' => do passRest ['u', 'l', 'l']; return .null
    | some 't' => do passRest ['r', 'u', 'e']; return .bool true
    | some 'f' => do passRest ['a', 'l', 's', 'e']; return .bool false
    | some '"' => .str <$> examineString true
    | some '[' => .arr <$> within room leaveList fun room => keepItems fuel room true
    | some '\x7b' => .object <$> within room leaveObject fun room => keepMembers fuel room true
    | some c =>
      if c = '-' || c.isDigit then .num <$> examineNumber true else complainNext .wantsValue

/-- Examines the items of a list that is kept. -/
def keepItems : Nat → (room : Nat) → (first : Bool) → Exam (List Json)
  | 0, _, _ => return []
  | fuel + 1, room, first => do
    if ← nextItem first then
      let v ← keep fuel room
      return v :: (← keepItems fuel room false)
    else return []

/-- Examines the members of an object that is kept. -/
def keepMembers : Nat → (room : Nat) → (first : Bool) → Exam (List (String × Json))
  | 0, _, _ => return []
  | fuel + 1, room, first => do
    if ← nextMember first then
      let key ← examineString true
      passColon
      let v ← keep fuel room
      return (key, v) :: (← keepMembers fuel room false)
    else return []
end

/-! ## Values that are passed over -/

mutual
/-- Examines a value that is passed over. -/
def ignore : Nat → Exam Unit
  | 0 => complainHere .endInValue
  | fuel + 1 => do
    match ← peekToken with
    | none => complainHere .endInValue
    | some 'n' => passRest ['u', 'l', 'l']
    | some 't' => passRest ['r', 'u', 'e']
    | some 'f' => passRest ['a', 'l', 's', 'e']
    | some '"' => let _ ← examineString false
    | some '[' => do pass; ignoreItems fuel true
    | some '\x7b' => do pass; ignoreMembers fuel true
    | some c =>
      if c = '-' || c.isDigit then let _ ← examineNumber false
      else complainNext .wantsValue

/-- Examines the rest of a list that is passed over. -/
def ignoreItems : Nat → (first : Bool) → Exam Unit
  | 0, _ => return ()
  | fuel + 1, first => do
    match ← peekToken with
    | none => complainHere .endInList
    | some ']' => pass
    | some c =>
      if !first then
        if c ≠ ',' then complainNext .wantsItemSeparator
        pass
      ignore fuel
      ignoreItems fuel false

/-- Examines the rest of an object that is passed over. -/
def ignoreMembers : Nat → (first : Bool) → Exam Unit
  | 0, _ => return ()
  | fuel + 1, first => do
    match ← peekToken with
    | none => complainHere .endInObject
    | some '\x7d' => pass
    | some c =>
      if !first then
        if c ≠ ',' then complainNext .wantsMemberSeparator
        pass
      match ← peekToken with
      | none => complainHere .endInObject
      | some '"' =>
        let _ ← examineString false
        passColon
        ignore fuel
        ignoreMembers fuel false
      | some _ => complainNext .keyNoString
end

/-! ## Shapes -/

/-- Complains that the next value is of another type than the one that is wanted. -/
def complainType {α : Type} (wanted : String) : Exam α := do
  let found ← match ← peek with
    | some 'n' => do passRest ['u', 'l', 'l']; pure .null
    | some 't' => do passRest ['r', 'u', 'e']; pure (.bool true)
    | some 'f' => do passRest ['a', 'l', 's', 'e']; pure (.bool false)
    | some '"' => .text <$> examineString true
    | some '[' => pure .list
    | some '\x7b' => pure .object
    | some c =>
      if c = '-' || c.isDigit then Found.number <$> examineNumber true
      else complainNext .wantsValue
    | none => complainHere .endInValue
  complainHere (.wrongType found wanted)

/-- What a record is called where it stands as a list. -/
def listName (name : String) (fields : List (String × Shape × Bool)) : String :=
  let items := if fields.length = 1 then "element" else "elements"
  s!"struct {name} with {fields.length} {items}"

/-- Complains about the first of the fields from a number on that must not be missing in a list. -/
def endItems (wanted : String) (count : Nat) (fields : List (String × Shape × Bool)) : Exam Unit :=
  match (fields.zipIdx count).find? fun ((_, _, absent), _) => !absent with
  | some (_, i) => complain (.wrongLength i wanted)
  | none => return ()

/-- Complains about the first of the fields that must not be missing in an object. -/
def endMembers (seen : List String) (fields : List (String × Shape × Bool)) : Exam Unit :=
  match fields.find? fun (name, _, absent) => !absent && !seen.contains name with
  | some (name, _) => complain (.missingField name)
  | none => return ()

mutual
/-- Examines a value that should have a shape. -/
def examine : Nat → (room : Nat) → Shape → Exam Unit
  | 0, _, _ => complainHere .endInValue
  | fuel + 1, room, .any => do let _ ← keep fuel room
  | fuel + 1, room, .checked check => do
    match check (← keep fuel room) with
    | .ok () => return ()
    | .error why => complain (.badValue why)
  | _, _, .text => do
    match ← peekToken with
    | none => complainHere .endInValue
    | some '"' => let _ ← examineString true
    | some _ => complainType "a string"
  | fuel + 1, room, .record name fields => do
    match ← peekToken with
    | none => complainHere .endInValue
    | some '[' =>
      within room leaveList fun room => examineItems fuel room (listName name fields) 0 fields
    | some '\x7b' => within room leaveObject fun room => examineMembers fuel room fields [] true
    | some _ => complainType s!"struct {name}"

/-- Examines the fields of a record from a number on, where they stand as a list. -/
def examineItems : Nat → (room : Nat) → (wanted : String) → (count : Nat) →
    List (String × Shape × Bool) → Exam Unit
  | 0, _, _, _, _ | _, _, _, _, [] => return ()
  | fuel + 1, room, wanted, count, (name, shape, absent) :: fields => do
    if ← nextItem (count = 0) then
      examine fuel room shape
      examineItems fuel room wanted (count + 1) fields
    else endItems wanted count ((name, shape, absent) :: fields)

/-- Examines the members of a record, some of whose fields were seen. -/
def examineMembers : Nat → (room : Nat) → List (String × Shape × Bool) → (seen : List String) →
    (first : Bool) → Exam Unit
  | 0, _, _, _, _ => return ()
  | fuel + 1, room, fields, seen, first => do
    if ← nextMember first then
      let key ← examineString true
      match fields.lookup key with
      | some (shape, _) =>
        if seen.contains key then complain (.duplicateField key)
        passColon
        examine fuel room shape
        examineMembers fuel room fields (key :: seen) false
      | none =>
        passColon
        ignore fuel
        examineMembers fuel room fields seen false
    else endMembers seen fields
end

/-- Examines a text after whose value nothing may follow. -/
def examineText (fuel room : Nat) (shape : Shape) : Exam Unit := do
  examine fuel room shape
  if (← peekToken).isSome then complainNext .trailingCharacters

end Exam

/-- The greatest depth of nesting where values are kept. -/
def Shape.maxDepth : Nat := 127

/-- What is wrong with a text that should have a shape, with the number of the byte where it shows;
nothing, when it has the shape. -/
def Shape.diagnose (shape : Shape) (text : String) : Option (Breach × Nat) :=
  let cs := text.toList
  match (Exam.examineText (2 * cs.length + 4) maxDepth shape).run.run ⟨0, cs⟩ with
  | (.ok (), _) => none
  | (.error c, s) => some (c.breach, c.place.getD s.passed)

end BlockGraph
