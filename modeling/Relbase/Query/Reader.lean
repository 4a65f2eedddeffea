import Relbase.Query.Command
import Relbase.Query.Token

/-!
# Reading commands

`Command.ofTokens` reads a list of tokens as one command:

    command    ::= form ; end
    form       ::= USE name
                 | CREATE DATABASE name | DROP DATABASE name
                 | CREATE TABLE name | CREATE TABLE name ( names ) | DROP TABLE name
                 | ALTER TABLE name ADD name | ALTER TABLE name DROP name
                 | INSERT INTO name VALUES ( literals )
                 | SELECT * FROM name filter | SELECT names FROM name filter
                 | DELETE FROM name WHERE condition
                 | UPDATE name SET assignments WHERE condition
                 | JOIN name AND name ON name AND name
    filter     ::= | WHERE condition
    condition  ::= unit | condition AND unit | condition OR unit
    unit       ::= name comparator literal | ( condition )

Lists have at least one element and commas between their elements.  Tokens after
the end are not looked at.
-/

namespace Relbase

/-! ## Faults -/

inductive QueryFault where
  | openEnded
  | unknownCommand (text : Text)
  | unexpected (expected : List TokenKind) (found : TokenKind)
  | noComparator (found : TokenKind)
  | unbalanced
  deriving DecidableEq, Repr

inductive ListFault where
  | ended
  | element (found : Token)
  | attributeName (found : TokenKind)
  | comma (found : TokenKind)
  deriving DecidableEq, Repr

inductive ReadFault where
  | query (fault : QueryFault)
  | list (fault : ListFault)
  deriving DecidableEq, Repr

def QueryFault.message : QueryFault → Text
  | .openEnded => "Syntax error: token stream is not terminated by EOF".toList
  | .unknownCommand text => "Syntax error: Unknown command ".toList ++ text.quoted
  | .unexpected expected found =>
      "Syntax error: Expected ".toList ++ Text.join " or ".toList (expected.map TokenKind.name) ++
        " but found ".toList ++ found.name
  | .noComparator found =>
      "Syntax error: Expected comparator but found ".toList ++ found.name
  | .unbalanced => "Syntax error: unbalanced parentheses in condition".toList

def ListFault.message : ListFault → Text
  | .ended => "Invalid list: unexpected end of command".toList
  | .element found =>
      "Invalid list: unexpected ".toList ++ found.kind.name ++ [' '] ++ found.text.quoted
  | .attributeName found =>
      "Invalid list: expected attribute name but found ".toList ++ found.name
  | .comma found => "Invalid list: expected COMMA but found ".toList ++ found.name

/-! ## Steps

A step reads something from the front of a list of tokens and leaves a shorter
list. -/

abbrev Shorter (tokens : List Token) := { rest : List Token // rest.length < tokens.length }

abbrev ReadStep (α : Type) := (tokens : List Token) → Except ReadFault (α × Shorter tokens)

def nextKind : List Token → TokenKind
  | [] => .endOfInput
  | token :: _ => token.kind

def expect (expected : List TokenKind) : ReadStep Token
  | [] => .error (.query (.unexpected expected .endOfInput))
  | token :: rest =>
      if token.kind ∈ expected then .ok (token, ⟨rest, Nat.lt_succ_self _⟩)
      else .error (.query (.unexpected expected token.kind))

def literalKinds : List TokenKind :=
  [.literal .text, .literal .boolean, .literal .decimal, .literal .integer, .literal .null]

/-- The value that a literal stands for: what stands between its quotes, without
blanks at the ends, or the whole of a literal that is not a quoted one. -/
def Token.value (token : Token) : Text :=
  if token.kind = .literal .text then
    if TokenKind.isQuoted token.text then Text.trim (token.text.drop 1).dropLast
    else token.text.trim
  else token.text

/-! ## Lists -/

def readElement (accepted : List TokenKind) : ReadStep Token
  | [] => .error (.list .ended)
  | token :: rest =>
      if token.kind = .endOfInput then .error (.list .ended)
      else if token.kind ∈ accepted then .ok (token, ⟨rest, Nat.lt_succ_self _⟩)
      else .error (.list (.element token))

def readAssignment : ReadStep (Text × Text)
  | [] => .error (.list (.attributeName .endOfInput))
  | name :: rest =>
      if name.kind = .identifier then
        match expect [.assign] rest with
        | .error fault => .error fault
        | .ok (_, ⟨afterAssign, hassign⟩) =>
            match expect literalKinds afterAssign with
            | .error fault => .error fault
            | .ok (value, ⟨later, hlater⟩) =>
                .ok ((name.text.lower, value.value), ⟨later, by
                  simp only [List.length_cons]
                  omega⟩)
      else .error (.list (.attributeName name.kind))

/-- Read elements with commas between them up to, but not including, a token of
the ending kind. -/
def readSeparated {α : Type} (element : ReadStep α) (ending : TokenKind) : ReadStep (List α) :=
  fun tokens =>
    match element tokens with
    | .error fault => .error fault
    | .ok (first, ⟨rest, hrest⟩) =>
        match rest with
        | [] => .error (.list (.comma .endOfInput))
        | next :: later =>
            if next.kind = ending then .ok ([first], ⟨next :: later, hrest⟩)
            else if next.kind = .comma then
              have : later.length < tokens.length := by
                simp only [List.length_cons] at hrest
                omega
              match readSeparated element ending later with
              | .error fault => .error fault
              | .ok (others, ⟨last, hlast⟩) => .ok (first :: others, ⟨last, by omega⟩)
            else .error (.list (.comma next.kind))
termination_by tokens => tokens.length

/-! ## Conditions

A condition is read with a count of the parentheses that are open.  An opening one
adds to the count, and where a chain of units ends, a closing one that comes next is
taken off it; whether they match is decided by the count at the very end. -/

def readComparison : ReadStep Comparison := fun tokens =>
  match expect [.identifier] tokens with
  | .error fault => .error fault
  | .ok (name, ⟨rest, hrest⟩) =>
      match rest with
      | [] => .error (.query (.noComparator .endOfInput))
      | token :: afterComparator =>
          match token.kind with
          | .comparator relation =>
              match expect literalKinds afterComparator with
              | .error fault => .error fault
              | .ok (value, ⟨later, hlater⟩) =>
                  .ok (⟨name.text, relation, value.value⟩, ⟨later, by
                    simp only [List.length_cons] at hrest
                    omega⟩)
          | found => .error (.query (.noComparator found))

def connective? : TokenKind → Option Connective
  | .keyword .and => some .and
  | .keyword .or => some .or
  | _ => none

def closeParen (depth : Int) :
    (tokens : List Token) → Int × { rest : List Token // rest.length ≤ tokens.length }
  | [] => (depth, ⟨[], Nat.le_refl _⟩)
  | token :: rest =>
      if token.kind = .rightParen then (depth - 1, ⟨rest, Nat.le_succ _⟩)
      else (depth, ⟨token :: rest, Nat.le_refl _⟩)

mutual

def readUnit (depth : Int) (tokens : List Token) :
    Except ReadFault ((Condition × Int) × Shorter tokens) :=
  match tokens with
  | [] => .error (.query (.unexpected [.identifier] .endOfInput))
  | token :: rest =>
      if token.kind = .leftParen then
        match readChain (depth + 1) rest with
        | .error fault => .error fault
        | .ok (result, ⟨later, hlater⟩) => .ok (result, ⟨later, Nat.lt_succ_of_lt hlater⟩)
      else
        match readComparison (token :: rest) with
        | .error fault => .error fault
        | .ok (comparison, later) => .ok ((.leaf comparison, depth), later)
termination_by 2 * tokens.length

def readChain (depth : Int) (tokens : List Token) :
    Except ReadFault ((Condition × Int) × Shorter tokens) :=
  match readUnit depth tokens with
  | .error fault => .error fault
  | .ok ((first, afterUnit), ⟨rest, hrest⟩) =>
      match readLinks first afterUnit rest with
      | .error fault => .error fault
      | .ok ((condition, afterLinks), ⟨later, hlater⟩) =>
          match closeParen afterLinks later with
          | (after, ⟨last, hlast⟩) => .ok ((condition, after), ⟨last, by omega⟩)
termination_by 2 * tokens.length + 1

/-- Read the units that follow a condition, joining each to all that stands
before it. -/
def readLinks (left : Condition) (depth : Int) (tokens : List Token) :
    Except ReadFault ((Condition × Int) × { rest : List Token // rest.length ≤ tokens.length }) :=
  match tokens with
  | [] => .ok ((left, depth), ⟨[], Nat.le_refl _⟩)
  | token :: rest =>
      match connective? token.kind with
      | none => .ok ((left, depth), ⟨token :: rest, Nat.le_refl _⟩)
      | some connective =>
          match readUnit depth rest with
          | .error fault => .error fault
          | .ok ((right, afterUnit), ⟨later, hunit⟩) =>
              match readLinks (.joined left connective right) afterUnit later with
              | .error fault => .error fault
              | .ok (result, ⟨last, hlast⟩) =>
                  .ok (result, ⟨last, by
                    simp only [List.length_cons]
                    omega⟩)
termination_by 2 * tokens.length

end

/-- Read a whole condition, behind which as many parentheses must be closed as
were opened. -/
def readCondition : ReadStep Condition := fun tokens =>
  match readChain 0 tokens with
  | .error fault => .error fault
  | .ok ((condition, depth), rest) =>
      if depth = 0 then .ok (condition, rest) else .error (.query .unbalanced)

/-! ## Commands -/

abbrev Reader := StateT (List Token) (Except ReadFault)

namespace Reader

def step {α : Type} (read : ReadStep α) : Reader α := fun tokens =>
  (read tokens).map fun (result, rest) => (result, rest.val)

def keyword (word : Keyword) : Reader Unit := do
  let _ ← step (expect [.keyword word])

def symbol (kind : TokenKind) : Reader Unit := do
  let _ ← step (expect [kind])

def name : Reader Text := do
  let token ← step (expect [.identifier])
  return token.text

def loweredName : Reader Text := do
  return (← name).lower

def oneOf (first second : Keyword) : Reader Keyword := do
  let token ← step (expect [.keyword first, .keyword second])
  return if token.kind = .keyword first then first else second

def atKind (kind : TokenKind) : Reader Bool := do
  return nextKind (← get) = kind

def names (ending : TokenKind) : Reader (List Text) := do
  return (← step (readSeparated (readElement [.identifier]) ending)).map Token.text

def condition : Reader Condition :=
  step readCondition

def use : Reader Command := do
  keyword .use
  return .use (← loweredName)

def create : Reader Command := do
  keyword .create
  let target ← oneOf .database .table
  let spelled ← name
  if target = .database then return .createDatabase spelled.lower
  if ← atKind .semicolon then return .createTable spelled.lower [] spelled
  symbol .leftParen
  let attributes ← names .rightParen
  symbol .rightParen
  return .createTable spelled.lower attributes spelled

def drop : Reader Command := do
  keyword .drop
  let target ← oneOf .database .table
  let lowered ← loweredName
  return if target = .database then .dropDatabase lowered else .dropTable lowered

def alter : Reader Command := do
  keyword .alter
  keyword .table
  let table ← loweredName
  let change ← oneOf .add .drop
  let column ← name
  return if change = .add then .addAttribute table column else .dropAttribute table column

def insert : Reader Command := do
  keyword .insert
  keyword .into
  let table ← loweredName
  keyword .values
  symbol .leftParen
  let values ← step (readSeparated (readElement literalKinds) .rightParen)
  symbol .rightParen
  return .insert table (values.map Token.value)

def columns : Reader Columns := do
  if ← atKind .asterisk then
    symbol .asterisk
    return .all
  else return .named (← names (.keyword .fromWord))

def select : Reader Command := do
  keyword .select
  let columns ← columns
  keyword .fromWord
  let table ← loweredName
  if ← atKind .semicolon then return .select columns table none
  keyword .whereWord
  return .select columns table (some (← condition))

def delete : Reader Command := do
  keyword .delete
  keyword .fromWord
  let table ← loweredName
  keyword .whereWord
  return .delete table (← condition)

def update : Reader Command := do
  keyword .update
  let table ← loweredName
  keyword .set
  let assignments ← step (readSeparated readAssignment (.keyword .whereWord))
  keyword .whereWord
  return .update table (Assoc.ofList assignments) (← condition)

def join : Reader Command := do
  keyword .join
  let leftTable ← loweredName
  keyword .and
  let rightTable ← loweredName
  keyword .on
  let leftColumn ← name
  keyword .and
  let rightColumn ← name
  return .join leftTable rightTable leftColumn rightColumn

def command : Reader Command := fun tokens =>
  match nextKind tokens with
  | .keyword .use => use tokens
  | .keyword .create => create tokens
  | .keyword .drop => drop tokens
  | .keyword .alter => alter tokens
  | .keyword .insert => insert tokens
  | .keyword .select => select tokens
  | .keyword .delete => delete tokens
  | .keyword .update => update tokens
  | .keyword .join => join tokens
  | _ => .error (.query (.unknownCommand ((tokens.head?.map Token.text).getD [])))

def whole : Reader Command := do
  let result ← command
  symbol .semicolon
  symbol .endOfInput
  return result

end Reader

namespace Command

def ofTokens (tokens : List Token) : Except ReadFault Command :=
  if tokens.getLast?.map Token.kind = some .endOfInput then
    (Reader.whole.run tokens).map Prod.fst
  else .error (.query .openEnded)

def ofText (text : Text) : Except ReadFault Command :=
  ofTokens (Token.scan text)

end Command

end Relbase
