import Relbase.Failure
import Relbase.Json.Printer
import Relbase.Table.RowFile

/-!
# Metadata and row files

Actions on a store that read and write the two kinds of files.  A fault of the
store is reported with the task that met it; a file that is not text, and a path
that no file can have, are not foreseen.
-/

namespace Relbase.Files

def attempt {α : Type} (task : StorageTask) (place : Place)
    (operation : Store → Except FileCause α) : Action Store α := do
  if place.isMalformed then Action.crash .malformedPath
  else
    match operation (← get) with
    | .ok result => return result
    | .error cause => Action.fail (.storage (.file task ⟨cause, place.path⟩))

def change (task : StorageTask) (place : Place)
    (operation : Store → Except FileCause Store) : Action Store Unit := do
  set (← attempt task place operation)

def readText (task : StorageTask) (place : Place) : Action Store Text := do
  match ← attempt task place (·.read place) with
  | .text text => return text
  | .undecodable _ => Action.crash .undecodable

def writeText (task : StorageTask) (place : Place) (text : Text) : Action Store Unit :=
  change task place (·.write place (.text text))

/-! ## Metadata -/

def unreadable (place : Place) (problem : Json.Problem) : Failure :=
  match problem.cause with
  | .oversizedInteger => .unforeseen .oversizedInteger
  -- A text with surrogates in it is read in fact, and then it cannot be written.
  | .loneSurrogate => .unforeseen .surrogate
  | _ => .reported (.storage (.json place.path problem))

/-- The members of the object that a metadata file holds.  Its lines may end in
carriage returns. -/
def readMetadata (place : Place) : Action Store (List (Text × Json)) := do
  let text ← readText (.readMetadata place.path) place
  match Json.parse text.unifyNewlines with
  | .error problem => throw (unreadable place problem)
  | .ok (.object members) => return members
  | .ok _ => Action.fail (.storage (.notMetadata place.path))

/-- Write a value up to the first integer that cannot be written. -/
def writeMetadata (place : Place) (json : Json) : Action Store Unit := do
  let text := json.render
  writeText (.writeMetadata place.path) place (text.takeWhile (· ≠ Json.gap))
  if text.contains Json.gap then Action.crash .oversizedInteger

/-! ## Row files -/

def readRows (place : Place) : Action Store RowFile := do
  return RowFile.parse (← readText (.readRows place.path) place)

def writeRows (place : Place) (file : RowFile) : Action Store Unit :=
  writeText (.writeRows place.path) place file.render

/-! ## Removal -/

def deleteFile (place : Place) : Action Store Unit :=
  change (.delete place.path) place (·.remove place)

def deleteTree (place : Place) : Action Store Unit :=
  change (.delete place.path) place (·.removeTree place)

end Relbase.Files
