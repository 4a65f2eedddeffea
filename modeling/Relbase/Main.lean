import Relbase.Arguments
import Relbase.Console

/-!
# The command line

The databases lie in a directory on disk.  Before a query, the part of the
directory that the query can reach is read into the store of the session; after
it, what has changed in the store is written back.
-/

namespace Relbase.CommandLine

/-! ## The directory -/

def pathOf (root : Text) (key : Key) : String :=
  String.ofList (Text.join ['/'] ((if root = [] then ['.'] else root) :: key))

def readEntry (path : String) : IO (Option Entry) := do
  try
    let bytes ← IO.FS.readBinFile path
    return some (.file (.ofBytes bytes.toList))
  catch
    | .inappropriateType none _ _ => return some .directory
    | _ => return none

def load (root : Text) (store : Store) (key : Key) : IO Store := do
  match ← readEntry (pathOf root key) with
  | some entry => return store.insert key entry
  | none => return store.filter fun other _ => !key.isPrefixOf other

/-- The keys that a query can reach: the databases that it names and the one in
use, their metadata, and the row files that it names. -/
def reachable (session : Session) (query : Text) : List Key :=
  let identifiers := (Token.scan query).filter fun token => token.kind = .identifier
  let names := identifiers.map fun token => token.text.lower
  let current := session.databaseName.toList
  let metadata := (current ++ names).flatMap fun name => [[name], [name, Database.metadataName]]
  let rows := current.flatMap fun database =>
    names.map fun name => [database, name ++ Database.rowFileSuffix]
  [] :: metadata ++ rows

def refresh (root : Text) (session : Session) (query : Text) : IO Session := do
  let store ← (reachable session query).foldlM (load root) session.store
  return { session with store }

def writeContent (path : String) : Content → IO Unit
  | .text value => IO.FS.writeFile path (String.ofList value)
  | .undecodable bytes => IO.FS.writeBinFile path ⟨bytes.toArray⟩

def writeBack (root : Text) (before after : Store) : IO Unit := do
  for (key, entry) in before.entries do
    if !after.contains key && after.contains key.dropLast then
      match entry with
      | .directory => IO.FS.removeDirAll (pathOf root key)
      | .file _ => IO.FS.removeFile (pathOf root key)
  for (key, entry) in after.entries do
    if before.get? key ≠ some entry then
      match entry with
      | .directory => IO.FS.createDirAll (pathOf root key)
      | .file content => writeContent (pathOf root key) content

def perform {α : Type} (root : Text) (session : Session) (query : Text)
    (action : Action Session α) : IO (Except Failure α × Session) := do
  let session ← refresh root session query
  let (outcome, changed) := action.runOn session
  writeBack root session.store changed.store
  return (outcome, changed)

/-! ## The conversation -/

def write (output : IO.FS.Stream) (text : Text) : IO Unit := do
  output.putStr (String.ofList text)
  output.flush

/-- Answer queries until one says to leave, fails unforeseen, or the input ends. -/
partial def converse (root : Text) (session : Session) (input output : IO.FS.Stream) :
    IO (Option Failure × Session) := do
  write output Console.prompt
  let line := (← input.getLine).toList
  if line = [] then
    write output ['\n']
    return (none, session)
  let (reply, session) ← perform root session line (Console.answer line)
  match reply with
  | .error failure => return (some failure, session)
  | .ok .leave => return (none, session)
  | .ok .silence => converse root session input output
  | .ok (.say response) =>
      write output (response ++ ['\n'])
      converse root session input output

def run (root : Text) : IO UInt32 := do
  let output ← IO.getStdout
  write output (Console.banner ++ ['\n'])
  let (fault, session) ←
    converse root (Session.start root SortedMap.empty) (← IO.getStdin) output
  match ← perform root session [] (Console.finish fault) with
  | (.ok (), _) =>
      write output (Console.farewell ++ ['\n'])
      return 0
  | (.error failure, _) =>
      write (← IO.getStderr) (failure.message ++ ['\n'])
      return 1

def usage : Text := "usage: relbase [-h] [--data-dir DIRECTORY] [--verbose]\n".toList

end Relbase.CommandLine

def main (arguments : List String) : IO UInt32 := do
  match Relbase.Arguments.parse (arguments.map String.toList) with
  | .settings ⟨some root, _⟩ => Relbase.CommandLine.run root
  | .settings ⟨none, _⟩ =>
      Relbase.CommandLine.write (← IO.getStderr) "There is no data directory\n".toList
      return 1
  | .help =>
      Relbase.CommandLine.write (← IO.getStdout) Relbase.CommandLine.usage
      return 0
  | .misuse =>
      Relbase.CommandLine.write (← IO.getStderr) Relbase.CommandLine.usage
      return 2
