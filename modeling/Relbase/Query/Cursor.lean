import Relbase.Query.Reader

/-!
# Reading with a cursor

A cursor keeps a list of tokens, its place in the list and the number of parentheses
that are open.  It is kept from one command to the next, also when a command is refused,
and it moves by loops that nothing but their own tests ends; `Cursor.parse` is the
reader of one command.  `Command.ofTokens` gives the same commands without a cursor.

The loops are given a number of rounds.  A walk that is not at its end after so many
rounds of a loop has no outcome, so that a loop without an end has none for any number.
-/

namespace Relbase

structure Cursor where
  tokens : List Token
  place : Nat
  depth : Int
  deriving DecidableEq, Repr

/-- Why a command is not read: an element was taken that a list does not have, or the
command is refused. -/
inductive Stop where
  | outside
  | refused (fault : ReadFault)
  deriving DecidableEq, Repr

/-- What moves a cursor.  The cursor is kept when it stops, and `none` stands for a walk
that goes on when its rounds are used up. -/
abbrev Walk := ExceptT Stop (StateT Cursor Option)

def Walk.runFrom {α : Type} (walk : Walk α) (cursor : Cursor) :
    Option (Except Stop α × Cursor) :=
  walk.run.run cursor

namespace Cursor

def fresh : Cursor :=
  ⟨[], 0, 0⟩

/-! ## Tokens -/

def refuse {α : Type} (fault : ReadFault) : Walk α :=
  throw (.refused fault)

def exhausted {α : Type} : Walk α :=
  liftM (none : Option α)

def current : Walk Token := do
  let cursor ← get
  match cursor.tokens[cursor.place]? with
  | some token => return token
  | none => throw .outside

def advance : Walk Token := do
  let token ← current
  if token.kind ≠ .endOfInput then
    modify fun cursor => { cursor with place := cursor.place + 1 }
  return token

def expect (expected : List TokenKind) : Walk Token := do
  let token ← current
  if token.kind ∈ expected then advance
  else refuse (.query (.unexpected expected token.kind))

def keyword (word : Keyword) : Walk Unit := do
  let _ ← expect [.keyword word]

def symbol (kind : TokenKind) : Walk Unit := do
  let _ ← expect [kind]

def name : Walk Text := do
  let token ← expect [.identifier]
  return token.text

def loweredName : Walk Text := do
  return (← name).lower

def oneOf (first second : Keyword) : Walk Keyword := do
  let token ← expect [.keyword first, .keyword second]
  return if token.kind = .keyword first then first else second

def atKind (kind : TokenKind) : Walk Bool := do
  return (← current).kind = kind

/-! ## Lists -/

def element (accepted : List TokenKind) : Walk Token := do
  let token ← current
  if token.kind = .endOfInput then refuse (.list .ended)
  else if token.kind ∈ accepted then advance
  else refuse (.list (.element token))

def assignment : Walk (Text × Text) := do
  let token ← current
  if token.kind = .identifier then
    let name ← advance
    let _ ← expect [.assign]
    let value ← expect literalKinds
    return (name.text.lower, value.value)
  else refuse (.list (.attributeName token.kind))

/-- Elements with commas between them up to, but not including, a token of the ending
kind, each added to what is found before it. -/
def separated {α β : Type} (element : Walk α) (add : β → α → β) (ending : TokenKind) :
    Nat → β → Walk β
  | 0, _ => exhausted
  | rounds + 1, found => do
      let found := add found (← element)
      let following ← current
      if following.kind = ending then return found
      else if following.kind = .comma then
        let _ ← advance
        separated element add ending rounds found
      else refuse (.list (.comma following.kind))

def elements (rounds : Nat) (accepted : List TokenKind) (ending : TokenKind) :
    Walk (List Token) :=
  separated (element accepted) (fun found token => found ++ [token]) ending rounds []

/-- An attribute that is assigned twice keeps its first position and its last value. -/
def assignments (rounds : Nat) : Walk (List (Text × Text)) :=
  separated assignment (fun found entry => Assoc.put entry.1 entry.2 found)
    (.keyword .whereWord) rounds []

def names (rounds : Nat) (ending : TokenKind) : Walk (List Text) := do
  return (← elements rounds [.identifier] ending).map Token.text

/-! ## Conditions -/

def comparator? : TokenKind → Option Comparator
  | .comparator relation => some relation
  | _ => none

def comparison : Walk Comparison := do
  let name ← expect [.identifier]
  let token ← current
  match comparator? token.kind with
  | some relation =>
      let _ ← advance
      let value ← expect literalKinds
      return ⟨name.text, relation, value.value⟩
  | none => refuse (.query (.noComparator token.kind))

def closeChain : Walk Unit := do
  if ← atKind .rightParen then
    let _ ← advance
    modify fun cursor => { cursor with depth := cursor.depth - 1 }

def joinUnits (found : List Condition) (connectives : List Connective) : Walk Condition :=
  match found with
  | [] => throw .outside
  | first :: others =>
      return (connectives.zip others).foldl (fun left link => .joined left link.1 link.2) first

def unit (chain : Walk Condition) : Walk Condition := do
  if ← atKind .leftParen then
    let _ ← advance
    modify fun cursor => { cursor with depth := cursor.depth + 1 }
    chain
  else return .leaf (← comparison)

def linked (units : List Condition → List Connective → Walk (List Condition × List Connective))
    (found : List Condition) (connectives : List Connective) :
    Walk (List Condition × List Connective) := do
  match connective? (← current).kind with
  | some connective =>
      let _ ← advance
      units found (connectives ++ [connective])
  | none => return (found, connectives)

def closed (units : Walk (List Condition × List Connective)) : Walk Condition := do
  let (found, connectives) ← units
  closeChain
  joinUnits found connectives

def units : Nat → List Condition → List Connective → Walk (List Condition × List Connective)
  | 0, _, _ => exhausted
  | rounds + 1, found, connectives => do
      let next ← unit (closed (units rounds [] []))
      linked (units rounds) (found ++ [next]) connectives

def chain (rounds : Nat) : Walk Condition :=
  closed (units rounds [] [])

def condition (rounds : Nat) : Walk Condition := do
  let condition ← chain rounds
  if (← get).depth = 0 then return condition
  else refuse (.query .unbalanced)

/-! ## Commands -/

def use : Walk Command := do
  keyword .use
  return .use (← loweredName)

def create (rounds : Nat) : Walk Command := do
  keyword .create
  let target ← oneOf .database .table
  let spelled ← name
  if target = .database then return .createDatabase spelled.lower
  if ← atKind .semicolon then return .createTable spelled.lower [] spelled
  symbol .leftParen
  let attributes ← names rounds .rightParen
  symbol .rightParen
  return .createTable spelled.lower attributes spelled

def drop : Walk Command := do
  keyword .drop
  let target ← oneOf .database .table
  let lowered ← loweredName
  return if target = .database then .dropDatabase lowered else .dropTable lowered

def alter : Walk Command := do
  keyword .alter
  keyword .table
  let table ← loweredName
  let change ← oneOf .add .drop
  let column ← name
  return if change = .add then .addAttribute table column else .dropAttribute table column

def insert (rounds : Nat) : Walk Command := do
  keyword .insert
  keyword .into
  let table ← loweredName
  keyword .values
  symbol .leftParen
  let values ← elements rounds literalKinds .rightParen
  symbol .rightParen
  return .insert table (values.map Token.value)

def columns (rounds : Nat) : Walk Columns := do
  if ← atKind .asterisk then
    let _ ← advance
    return .all
  else return .named (← names rounds (.keyword .fromWord))

def select (rounds : Nat) : Walk Command := do
  keyword .select
  let columns ← columns rounds
  keyword .fromWord
  let table ← loweredName
  if ← atKind .semicolon then return .select columns table none
  keyword .whereWord
  return .select columns table (some (← condition rounds))

def delete (rounds : Nat) : Walk Command := do
  keyword .delete
  keyword .fromWord
  let table ← loweredName
  keyword .whereWord
  return .delete table (← condition rounds)

def update (rounds : Nat) : Walk Command := do
  keyword .update
  let table ← loweredName
  keyword .set
  let assignments ← assignments rounds
  keyword .whereWord
  return .update table assignments (← condition rounds)

def join : Walk Command := do
  keyword .join
  let leftTable ← loweredName
  keyword .and
  let rightTable ← loweredName
  keyword .on
  let leftColumn ← name
  keyword .and
  let rightColumn ← name
  return .join leftTable rightTable leftColumn rightColumn

def command (rounds : Nat) : Walk Command := do
  match (← current).kind with
  | .keyword .use => use
  | .keyword .create => create rounds
  | .keyword .drop => drop
  | .keyword .alter => alter
  | .keyword .insert => insert rounds
  | .keyword .select => select rounds
  | .keyword .delete => delete rounds
  | .keyword .update => update rounds
  | .keyword .join => join
  | _ => refuse (.query (.unknownCommand (← current).text))

/-- A command with its semicolon and the end of the input.  Tokens that do not end with
the end of the input are refused before the cursor is set to their front. -/
def parse (rounds : Nat) (tokens : List Token) : Walk Command := do
  if tokens.getLast?.map Token.kind = some .endOfInput then
    set (⟨tokens, 0, 0⟩ : Cursor)
    let result ← command rounds
    symbol .semicolon
    symbol .endOfInput
    return result
  else refuse (.query .openEnded)

def afterParses (spare : Nat) (cursor : Cursor) : List (List Token) → Option Cursor
  | [] => some cursor
  | tokens :: later => do
      let (_, after) ← (parse (tokens.length + spare) tokens).runFrom cursor
      afterParses spare after later

end Cursor

end Relbase
