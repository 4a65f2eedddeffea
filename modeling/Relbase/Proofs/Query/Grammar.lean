import Relbase.Query.Reader

/-!
# The grammar of commands

Which lists of tokens are commands, and which commands they are, without saying how
they are read.  A relation `Is…` between tokens and a meaning stands for every
nonterminal; a condition is a first unit and the units linked to it, joined from the
left.
-/

namespace Relbase.Grammar

/-! ## Lists -/

inductive IsList {α : Type} (element : List Token → α → Prop) : List Token → List α → Prop
  | single {tokens : List Token} {first : α} (hfirst : element tokens first) :
      IsList element tokens [first]
  | more {tokens later : List Token} {comma : Token} {first : α} {others : List α}
      (hfirst : element tokens first) (hcomma : comma.kind = .comma)
      (hothers : IsList element later others) :
      IsList element (tokens ++ comma :: later) (first :: others)

def IsLiteral (token : Token) : Prop :=
  ∃ kind, token.kind = .literal kind

inductive IsName : List Token → Text → Prop
  | intro {name : Token} (hname : name.kind = .identifier) : IsName [name] name.text

inductive IsValue : List Token → Text → Prop
  | intro {literal : Token} (hliteral : IsLiteral literal) : IsValue [literal] literal.value

inductive IsAssignment : List Token → Text × Text → Prop
  | intro {name sign literal : Token} (hname : name.kind = .identifier)
      (hsign : sign.kind = .assign) (hliteral : IsLiteral literal) :
      IsAssignment [name, sign, literal] (name.text.lower, literal.value)

/-! ## Conditions -/

def connectiveWord : Connective → Keyword
  | .and => .and
  | .or => .or

/-- A condition with others joined to it one after another. -/
def joinLinks (first : Condition) (links : List (Connective × Condition)) : Condition :=
  links.foldl (fun left link => .joined left link.1 link.2) first

mutual

inductive IsUnit : List Token → Condition → Prop
  | comparison {name sign literal : Token} {relation : Comparator}
      (hname : name.kind = .identifier) (hsign : sign.kind = .comparator relation)
      (hliteral : IsLiteral literal) :
      IsUnit [name, sign, literal] (.leaf ⟨name.text, relation, literal.value⟩)
  | group {opening closing : Token} {tokens : List Token} {condition : Condition}
      (hopening : opening.kind = .leftParen) (hclosing : closing.kind = .rightParen)
      (hcondition : IsCondition tokens condition) :
      IsUnit (opening :: (tokens ++ [closing])) condition

inductive IsLinks : List Token → List (Connective × Condition) → Prop
  | nil : IsLinks [] []
  | cons {word : Token} {tokens later : List Token} {connective : Connective}
      {right : Condition} {links : List (Connective × Condition)}
      (hword : word.kind = .keyword (connectiveWord connective))
      (hright : IsUnit tokens right) (hlinks : IsLinks later links) :
      IsLinks (word :: (tokens ++ later)) ((connective, right) :: links)

inductive IsCondition : List Token → Condition → Prop
  | intro {tokens later : List Token} {first : Condition}
      {links : List (Connective × Condition)}
      (hfirst : IsUnit tokens first) (hlinks : IsLinks later links) :
      IsCondition (tokens ++ later) (joinLinks first links)

end

/-! ## Commands -/

inductive IsColumns : List Token → Columns → Prop
  | all {asterisk : Token} (hasterisk : asterisk.kind = .asterisk) : IsColumns [asterisk] .all
  | named {tokens : List Token} {names : List Text} (hnames : IsList IsName tokens names) :
      IsColumns tokens (.named names)

inductive IsFilter : List Token → Option Condition → Prop
  | absent : IsFilter [] none
  | present {word : Token} {tokens : List Token} {condition : Condition}
      (hword : word.kind = .keyword .whereWord) (hcondition : IsCondition tokens condition) :
      IsFilter (word :: tokens) (some condition)

inductive IsForm : List Token → Command → Prop
  | use {use name : Token} (huse : use.kind = .keyword .use)
      (hname : name.kind = .identifier) :
      IsForm [use, name] (.use name.text.lower)
  | createDatabase {create database name : Token} (hcreate : create.kind = .keyword .create)
      (hdatabase : database.kind = .keyword .database) (hname : name.kind = .identifier) :
      IsForm [create, database, name] (.createDatabase name.text.lower)
  | createBareTable {create table name : Token} (hcreate : create.kind = .keyword .create)
      (htable : table.kind = .keyword .table) (hname : name.kind = .identifier) :
      IsForm [create, table, name] (.createTable name.text.lower [] name.text)
  | createTable {create table name opening closing : Token} {tokens : List Token}
      {names : List Text} (hcreate : create.kind = .keyword .create)
      (htable : table.kind = .keyword .table) (hname : name.kind = .identifier)
      (hopening : opening.kind = .leftParen) (hnames : IsList IsName tokens names)
      (hclosing : closing.kind = .rightParen) :
      IsForm (create :: table :: name :: opening :: (tokens ++ [closing]))
        (.createTable name.text.lower names name.text)
  | dropDatabase {drop database name : Token} (hdrop : drop.kind = .keyword .drop)
      (hdatabase : database.kind = .keyword .database) (hname : name.kind = .identifier) :
      IsForm [drop, database, name] (.dropDatabase name.text.lower)
  | dropTable {drop table name : Token} (hdrop : drop.kind = .keyword .drop)
      (htable : table.kind = .keyword .table) (hname : name.kind = .identifier) :
      IsForm [drop, table, name] (.dropTable name.text.lower)
  | addAttribute {alter table name add column : Token} (halter : alter.kind = .keyword .alter)
      (htable : table.kind = .keyword .table) (hname : name.kind = .identifier)
      (hadd : add.kind = .keyword .add) (hcolumn : column.kind = .identifier) :
      IsForm [alter, table, name, add, column] (.addAttribute name.text.lower column.text)
  | dropAttribute {alter table name drop column : Token}
      (halter : alter.kind = .keyword .alter) (htable : table.kind = .keyword .table)
      (hname : name.kind = .identifier) (hdrop : drop.kind = .keyword .drop)
      (hcolumn : column.kind = .identifier) :
      IsForm [alter, table, name, drop, column] (.dropAttribute name.text.lower column.text)
  | insert {insert into name values opening closing : Token} {tokens : List Token}
      {contents : List Text} (hinsert : insert.kind = .keyword .insert)
      (hinto : into.kind = .keyword .into) (hname : name.kind = .identifier)
      (hvalues : values.kind = .keyword .values) (hopening : opening.kind = .leftParen)
      (hcontents : IsList IsValue tokens contents) (hclosing : closing.kind = .rightParen) :
      IsForm (insert :: into :: name :: values :: opening :: (tokens ++ [closing]))
        (.insert name.text.lower contents)
  | select {select fromWord name : Token} {tokens later : List Token} {columns : Columns}
      {filter : Option Condition} (hselect : select.kind = .keyword .select)
      (hcolumns : IsColumns tokens columns) (hfrom : fromWord.kind = .keyword .fromWord)
      (hname : name.kind = .identifier) (hfilter : IsFilter later filter) :
      IsForm (select :: (tokens ++ fromWord :: name :: later))
        (.select columns name.text.lower filter)
  | delete {delete fromWord name whereWord : Token} {tokens : List Token}
      {condition : Condition} (hdelete : delete.kind = .keyword .delete)
      (hfrom : fromWord.kind = .keyword .fromWord) (hname : name.kind = .identifier)
      (hwhere : whereWord.kind = .keyword .whereWord)
      (hcondition : IsCondition tokens condition) :
      IsForm (delete :: fromWord :: name :: whereWord :: tokens)
        (.delete name.text.lower condition)
  | update {update name set whereWord : Token} {tokens later : List Token}
      {assignments : List (Text × Text)} {condition : Condition}
      (hupdate : update.kind = .keyword .update) (hname : name.kind = .identifier)
      (hset : set.kind = .keyword .set) (hassignments : IsList IsAssignment tokens assignments)
      (hwhere : whereWord.kind = .keyword .whereWord)
      (hcondition : IsCondition later condition) :
      IsForm (update :: name :: set :: (tokens ++ whereWord :: later))
        (.update name.text.lower (Assoc.ofList assignments) condition)
  | join {join left and right on leftColumn also rightColumn : Token}
      (hjoin : join.kind = .keyword .join) (hleft : left.kind = .identifier)
      (hand : and.kind = .keyword .and) (hright : right.kind = .identifier)
      (hon : on.kind = .keyword .on) (hleftColumn : leftColumn.kind = .identifier)
      (halso : also.kind = .keyword .and) (hrightColumn : rightColumn.kind = .identifier) :
      IsForm [join, left, and, right, on, leftColumn, also, rightColumn]
        (.join left.text.lower right.text.lower leftColumn.text rightColumn.text)

inductive IsCommand : List Token → Command → Prop
  | intro {tokens : List Token} {semicolon last : Token} {command : Command}
      (hform : IsForm tokens command) (hsemicolon : semicolon.kind = .semicolon)
      (hlast : last.kind = .endOfInput) :
      IsCommand (tokens ++ [semicolon, last]) command

/-! ## Growing conditions -/

theorem joinLinks_append (first : Condition) (links others : List (Connective × Condition)) :
    joinLinks first (links ++ others) = joinLinks (joinLinks first links) others :=
  List.foldl_append

end Relbase.Grammar
