import Relbase.Report

/-!
# The console

A conversation reads one query a line until a line says to leave or the input
ends.  The database in use is saved at the end, also when a query ends the
conversation with a fault.
-/

namespace Relbase.Console

def banner : Text := "Database started. Enter one command per line; exit to quit.".toList

def prompt : Text := ">>> ".toList

def farewell : Text := "Bye.".toList

def leavingWords : List Text := ["exit".toList, "quit".toList]

inductive Reply where
  | silence
  | leave
  | say (response : Text)
  deriving DecidableEq, Repr

def answer (line : Text) : Action Session Reply := do
  let query := line.trim
  if query = [] then return .silence
  else if leavingWords.contains query.lower then return .leave
  else return .say (← Session.respond query)

def finish (fault : Option Failure) : Action Session Unit := do
  Session.close
  match fault with
  | some failure => throw failure
  | none => return

structure Transcript where
  output : Text
  outcome : Except Failure Unit
  session : Session

/-- What is written after the last prompt, and the end of the session. -/
def ending (written : Text) (fault : Option Failure) (session : Session) : Transcript :=
  match (finish fault).runOn session with
  | (.ok (), session) => ⟨written ++ farewell ++ ['\n'], .ok (), session⟩
  | (.error failure, session) => ⟨written, .error failure, session⟩

def converse (session : Session) : List Text → Transcript
  | [] => ending (prompt ++ ['\n']) none session
  | line :: rest =>
      match (answer line).runOn session with
      | (.error failure, session) => ending prompt (some failure) session
      | (.ok .leave, session) => ending prompt none session
      | (.ok .silence, session) =>
          let later := converse session rest
          { later with output := prompt ++ later.output }
      | (.ok (.say response), session) =>
          let later := converse session rest
          { later with output := prompt ++ response ++ '\n' :: later.output }

def inputLines (input : Text) : List Text :=
  let lines := Text.splitOn '\n' input
  if lines.getLast? = some [] then lines.dropLast else lines

def run (session : Session) (input : Text) : Transcript :=
  let transcript := converse session (inputLines input)
  { transcript with output := banner ++ '\n' :: transcript.output }

end Relbase.Console
