import Relbase.Json.Basic
import Relbase.Table.AttributeSet

/-!
# Schemas

The lasting description of a table: the name under which it is shown, its
attributes, the key that must not be altered, and the next id.  `Schema.ofJson`
reads what `Schema.toJson` writes, and takes the name and the key as it finds
them.
-/

namespace Relbase

def idName : Text := "id".toList

structure Schema where
  displayName : Json
  attributes : AttributeSet
  primaryKey : Json
  nextId : Int
  deriving Repr

namespace Schema

def nameMember : Text := "originalTableName".toList

def keyMember : Text := "primaryKey".toList

def counterMember : Text := "nextPrimaryKey".toList

def attributesMember : Text := "attributes".toList

def fresh (displayName : Text) (attributes : AttributeSet) : Schema :=
  ⟨.text displayName, attributes, .text idName, 1⟩

def isKey (schema : Schema) (name : Text) : Bool :=
  match schema.primaryKey with
  | .text key => name.lower == key
  | _ => false

def toJson (schema : Schema) : Json :=
  .object
    [(nameMember, schema.displayName),
      (keyMember, schema.primaryKey),
      (counterMember, .integer schema.nextId),
      (attributesMember, .list (schema.attributes.names.map .text))]

/-! ## Reading -/

def malformed {α : Type} (fault : SchemaFault) : Except Failure α :=
  .error (.reported (.storage (.schema fault)))

def membersOf : Json → Except Failure (List (Text × Json))
  | .object members => .ok members
  | other => malformed (.notObject other)

def member (members : List (Text × Json)) (name : Text) : Except Failure Json :=
  match Assoc.get? name members with
  | some value => .ok value
  | none => malformed (.missingMember name)

/-- The elements of a value: the items of a list, the characters of a text or the
names of an object.  What stands for nothing has none. -/
def elementsOf (value : Json) : Except Failure (List Json) :=
  if !value.isPresent then .ok []
  else
    match value with
    | .list items => .ok items
    | .text characters => .ok (characters.map fun c => .text [c])
    | .object members => .ok (members.map fun entry => .text entry.1)
    | other => malformed (.notIterable other)

def addElements (set : AttributeSet) : List Json → Except Failure AttributeSet
  | [] => .ok set
  | .text name :: rest =>
      match set.add name with
      | .ok larger => addElements larger rest
      | .error error => .error (.reported error)
  | _ :: _ => .error (.unforeseen .nameNotText)

def counterOf : Json → Except Failure Int
  | .integer value => .ok value
  | .boolean value => .ok (if value then 1 else 0)
  | .number value =>
      if value.isNotANumber then malformed .undefinedCounter
      else if value.isInfinite then .error (.unforeseen .infiniteCounter)
      else .ok value.truncate
  | .text text =>
      match Text.readInteger text with
      | .ok value => .ok value
      | .error .malformed => malformed (.badCounter text)
      | .error (.oversized digits) => malformed (.oversizedCounter digits)
  | other => malformed (.notCounter other)

def ofJson (json : Json) : Except Failure Schema := do
  let members ← membersOf json
  let displayName ← member members nameMember
  let attributes ← addElements .empty (← elementsOf (← member members attributesMember))
  let primaryKey := (Assoc.get? keyMember members).getD (.text idName)
  let nextId ← counterOf (← member members counterMember)
  return ⟨displayName, attributes, primaryKey, nextId⟩

end Schema

end Relbase
