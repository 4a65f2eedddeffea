import Relbase.Execution

/-!
# Responses

The answer to a query is a text: that it was executed, with its result below it, or the
message of the error that it met.  How a result looks is left to a renderer.
-/

namespace Relbase

/-- A renderer of results; it may refuse one. -/
abbrev Renderer := ResultSet → Except Fault Text

namespace Report

def success : Text := "[OK]".toList

def failure : Text := "[ERROR]".toList

def ofRendering (render : Renderer) : Option ResultSet → Except Fault Text
  | none => .ok success
  | some result => do return success ++ '\n' :: (← render result)

def ofError (error : DbError) : Text :=
  failure ++ [':', ' '] ++ error.message

end Report

def Session.respondBy (render : Renderer) (text : Text) : Action Session Text :=
  ExceptT.mk fun session =>
    match (executeText text).runOn session with
    | (.ok result, later) =>
        match Report.ofRendering render result with
        | .ok response => (.ok response, later)
        | .error fault => (.error (.unforeseen fault), later)
    | (.error (.reported error), later) => (.ok (Report.ofError error), later)
    | (.error (.unforeseen fault), later) => (.error (.unforeseen fault), later)

end Relbase
