import Relbase.Map.Assoc
import Relbase.Text.Quoted
import Relbase.Value.Comparator

/-!
# Tokens

A query is cut into tokens at blanks and around symbols; a literal between single
quotes stays whole.  `Token.scan` ends with a token for the end of the input, and
a quote that is never closed leaves the rest of the query as one invalid token.
-/

namespace Relbase

inductive Keyword where
  | use
  | create
  | drop
  | alter
  | insert
  | select
  | update
  | delete
  | join
  | database
  | table
  | into
  | values
  | fromWord
  | whereWord
  | set
  | and
  | or
  | add
  | on
  deriving DecidableEq, Repr

inductive TokenKind where
  | keyword (word : Keyword)
  | literal (kind : ValueKind)
  | identifier
  | comparator (relation : Comparator)
  | assign
  | semicolon
  | comma
  | leftParen
  | rightParen
  | asterisk
  | endOfInput
  | invalid
  deriving DecidableEq, Repr

structure Token where
  kind : TokenKind
  text : Text
  deriving DecidableEq, Repr

/-! ## Names of kinds -/

def Keyword.name : Keyword → Text
  | .use => "USE".toList
  | .create => "CREATE".toList
  | .drop => "DROP".toList
  | .alter => "ALTER".toList
  | .insert => "INSERT".toList
  | .select => "SELECT".toList
  | .update => "UPDATE".toList
  | .delete => "DELETE".toList
  | .join => "JOIN".toList
  | .database => "DATABASE".toList
  | .table => "TABLE".toList
  | .into => "INTO".toList
  | .values => "VALUES".toList
  | .fromWord => "FROM".toList
  | .whereWord => "WHERE".toList
  | .set => "SET".toList
  | .and => "AND".toList
  | .or => "OR".toList
  | .add => "ADD".toList
  | .on => "ON".toList

def Keyword.all : List Keyword :=
  [.use, .create, .drop, .alter, .insert, .select, .update, .delete, .join, .database, .table,
    .into, .values, .fromWord, .whereWord, .set, .and, .or, .add, .on]

namespace TokenKind

def comparatorName : Comparator → Text
  | .equal => "EQUALS".toList
  | .notEqual => "NOT_EQUALS".toList
  | .less => "LESS_THAN".toList
  | .lessOrEqual => "LESS_THAN_OR_EQUAL".toList
  | .greater => "GREATER_THAN".toList
  | .greaterOrEqual => "GREATER_THAN_OR_EQUAL".toList
  | .like => "LIKE".toList

def literalName : ValueKind → Text
  | .integer => "INTEGER_LITERAL".toList
  | .decimal => "FLOAT_LITERAL".toList
  | .boolean => "BOOLEAN_LITERAL".toList
  | .null => "NULL_LITERAL".toList
  | .text => "STRING_LITERAL".toList

def name : TokenKind → Text
  | .keyword word => word.name
  | .literal kind => literalName kind
  | .identifier => "IDENTIFIER".toList
  | .comparator relation => comparatorName relation
  | .assign => "ASSIGN".toList
  | .semicolon => "SEMICOLON".toList
  | .comma => "COMMA".toList
  | .leftParen => "LEFT_PAREN".toList
  | .rightParen => "RIGHT_PAREN".toList
  | .asterisk => "ASTERISK".toList
  | .endOfInput => "EOF".toList
  | .invalid => "INVALID".toList

/-! ## Classification -/

def fixed : List (Text × TokenKind) :=
  Keyword.all.map (fun word => (word.name, .keyword word)) ++
    [("TRUE".toList, .literal .boolean),
      ("FALSE".toList, .literal .boolean),
      ("NULL".toList, .literal .null),
      ("LIKE".toList, .comparator .like),
      ("==".toList, .comparator .equal),
      ("!=".toList, .comparator .notEqual),
      ("<".toList, .comparator .less),
      ("<=".toList, .comparator .lessOrEqual),
      (">".toList, .comparator .greater),
      (">=".toList, .comparator .greaterOrEqual),
      ("=".toList, .assign),
      (";".toList, .semicolon),
      (",".toList, .comma),
      ("(".toList, .leftParen),
      (")".toList, .rightParen),
      ("*".toList, .asterisk)]

/-- The ASCII capital of a letter.  Besides the ASCII letters the dotless i and
the long s have one; every other character stands for itself. -/
def capital (c : Char) : Char :=
  if c = 'ı' then 'I' else if c = 'ſ' then 'S' else c.toUpper

def isQuoted (text : Text) : Bool :=
  2 ≤ text.length && text.head? == some '\x27' && text.getLast? == some '\x27'

def classify (text : Text) : TokenKind :=
  match Assoc.get? (text.map capital) fixed with
  | some kind => kind
  | none =>
      if text.isIntegerNumeral then .literal .integer
      else if text.isDecimalNumeral then .literal .decimal
      else if isQuoted text then .literal .text
      else if !text.isEmpty && text.all Char.isAlphanum then .identifier
      else .invalid

end TokenKind

namespace Token

def ofRaw (text : Text) : Token :=
  ⟨TokenKind.classify text, text⟩

def endOfInput : Token :=
  ⟨.endOfInput, "EOF".toList⟩

/-! ## Scanning -/

def isSymbol (c : Char) : Bool :=
  c == '<' || c == '>' || c == '=' || c == '(' || c == ')' || c == ',' || c == ';'

def endsWord : Text → Bool
  | [] => true
  | '!' :: '=' :: _ => true
  | c :: _ => Text.isBlank c || isSymbol c

/-- The words and symbols of a text outside quotes; of two symbols that begin at
the same character the longer is taken. -/
def splitOutside : Text → List Text
  | [] => []
  | '=' :: '=' :: rest => ['=', '='] :: splitOutside rest
  | '!' :: '=' :: rest => ['!', '='] :: splitOutside rest
  | '<' :: '=' :: rest => ['<', '='] :: splitOutside rest
  | '>' :: '=' :: rest => ['>', '='] :: splitOutside rest
  | c :: rest =>
      if isSymbol c then [c] :: splitOutside rest
      else if Text.isBlank c then splitOutside rest
      else if endsWord rest then [c] :: splitOutside rest
      else Text.extendFirst c (splitOutside rest)

/-- Raw tokens from the pieces between the quotes of a text, of which the first
is outside. -/
def splitPieces : List Text → List Text
  | [] => []
  | [outside] => splitOutside outside
  | [outside, unclosed] => splitOutside outside ++ ['\x27' :: unclosed]
  | outside :: inside :: rest =>
      splitOutside outside ++ ('\x27' :: inside ++ ['\x27']) :: splitPieces rest

def splitRaw (text : Text) : List Text :=
  splitPieces (Text.splitOn '\x27' text.trim)

def scan (text : Text) : List Token :=
  (splitRaw text).map ofRaw ++ [endOfInput]

def describe (token : Token) : Text :=
  token.kind.name ++ '(' :: token.text.quoted ++ [')']

end Token

end Relbase
