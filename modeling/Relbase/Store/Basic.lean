import Relbase.Map.Sorted
import Relbase.Store.Place
import Relbase.Text.Quoted

/-!
# Stores

A store is a tree of directories and files under one root, kept as a map from
keys, the lists of names that lead to them, to entries.  Every operation says by
a cause why it cannot be done, and then changes nothing.
-/

namespace Relbase

/-! ## Contents -/

/-- What a file holds: a text, or bytes that are not the UTF-8 form of any. -/
inductive Content where
  | text (value : Text)
  | undecodable (bytes : List UInt8)
  deriving DecidableEq, Repr

namespace Content

def ofBytes (bytes : List UInt8) : Content :=
  match String.fromUTF8? ⟨bytes.toArray⟩ with
  | some value => .text value.toList
  | none => .undecodable bytes

end Content

/-! ## Causes -/

inductive FileCause where
  | missing
  | alreadyExists
  | notDirectory
  | isDirectory
  | nameTooLong
  deriving DecidableEq, Repr

structure FileFault where
  cause : FileCause
  path : Text
  deriving DecidableEq, Repr

namespace FileCause

def number : FileCause → Nat
  | .missing => 2
  | .alreadyExists => 17
  | .notDirectory => 20
  | .isDirectory => 21
  | .nameTooLong => 36

def description : FileCause → Text
  | .missing => "No such file or directory".toList
  | .alreadyExists => "File exists".toList
  | .notDirectory => "Not a directory".toList
  | .isDirectory => "Is a directory".toList
  | .nameTooLong => "File name too long".toList

end FileCause

def FileFault.message (fault : FileFault) : Text :=
  "[Errno ".toList ++ Text.ofNat fault.cause.number ++ "] ".toList ++ fault.cause.description ++
    ": ".toList ++ fault.path.quoted

/-! ## Stores -/

abbrev Key := List Text

instance : Std.TransOrd Key := inferInstanceAs (Std.TransOrd (List Text))

instance : Std.LawfulEqOrd Key := inferInstanceAs (Std.LawfulEqOrd (List Text))

inductive Entry where
  | directory
  | file (content : Content)
  deriving DecidableEq, Repr

abbrev Store := SortedMap Key Entry

namespace Store

def emptyRoot : Store :=
  SortedMap.empty.insert [] .directory

def nameLimit : Nat := 255

def pathLimit : Nat := 4095

def byteSize (name : Text) : Nat :=
  name.foldl (fun size c => size + c.utf8Size) 0

/-- Follow steps from a key on.  All that is passed must be directories; what is
reached need not exist. -/
def follow (store : Store) (key : Key) : List Text → Except FileCause Key
  | [] => .ok key
  | step :: steps =>
      match store.get? key with
      | none => .error .missing
      | some (.file _) => .error .notDirectory
      | some .directory =>
          if step = [] || step = ['.'] then follow store key steps
          else if step = ['.', '.'] then
            if key = [] then .error .missing else follow store key.dropLast steps
          else if nameLimit < byteSize step then .error .nameTooLong
          else follow store (key ++ [step]) steps

def locate (store : Store) (place : Place) : Except FileCause Key :=
  if pathLimit < byteSize place.path then .error .nameTooLong
  else
    match place.steps with
    | some steps => follow store [] steps
    | none => .error .missing

def entryAt? (store : Store) (place : Place) : Option Entry :=
  if place.isMalformed then none
  else
    match store.locate place with
    | .ok key => store.get? key
    | .error _ => none

def isDirectory (store : Store) (place : Place) : Bool :=
  store.entryAt? place == some .directory

def isFile (store : Store) (place : Place) : Bool :=
  match store.entryAt? place with
  | some (.file _) => true
  | _ => false

def entryExists (store : Store) (place : Place) : Bool :=
  (store.entryAt? place).isSome

def read (store : Store) (place : Place) : Except FileCause Content := do
  let key ← store.locate place
  match store.get? key with
  | none => .error .missing
  | some .directory => .error .isDirectory
  | some (.file content) => .ok content

def write (store : Store) (place : Place) (content : Content) : Except FileCause Store := do
  let key ← store.locate place
  match store.get? key with
  | some .directory => .error .isDirectory
  | _ => .ok (store.insert key (.file content))

def remove (store : Store) (place : Place) : Except FileCause Store := do
  let key ← store.locate place
  match store.get? key with
  | none => .error .missing
  | some .directory => .error .isDirectory
  | some (.file _) => .ok (store.erase key)

def withRoot (store : Store) : Store :=
  if store.contains [] then store else store.insert [] .directory

/-- Make a directory, and the root if it is missing; a directory that is there
already will do. -/
def makeDirectory (store : Store) (place : Place) : Except FileCause Store := do
  let store := store.withRoot
  let key ← store.locate place
  match store.get? key with
  | none => .ok (store.insert key .directory)
  | some .directory => .ok store
  | some (.file _) => .error .alreadyExists

def removeTree (store : Store) (place : Place) : Except FileCause Store := do
  let key ← store.locate place
  match store.get? key with
  | none => .error .missing
  | some (.file _) => .error .notDirectory
  | some .directory => .ok (store.filter fun other _ => !key.isPrefixOf other)

end Store

end Relbase
