import Relbase.Proofs.Query.Commands
import Relbase.Proofs.Query.Scanning
import Relbase.Proofs.Text.Ascii

/-!
# Spelling commands

A printable command can be spelled out in pieces: keywords in any mixture of cases,
names, marks, and values between quotes, with parentheses at least around every right
operand that is itself joined.  The grammar derives the command from the tokens of each
of its spellings.
-/

namespace Relbase

def Formula.leaves {α : Type} : Formula α → List α
  | .leaf test => [test]
  | .joined left _ right => left.leaves ++ right.leaves

namespace Spelling

open Token Grammar

/-! ## Printable commands -/

def IsLoweredName (name : Text) : Prop :=
  ∃ spelled, IsIdentifier spelled ∧ spelled.lower = name

/-- A value that can stand between quotes as it is. -/
def IsPlainValue (value : Text) : Prop :=
  '\x27' ∉ value ∧ value.trim = value

def PrintableCondition (condition : Condition) : Prop :=
  ∀ comparison ∈ condition.leaves, IsIdentifier comparison.column ∧ IsPlainValue comparison.literal

def Printable : Command → Prop
  | .use database => IsLoweredName database
  | .createDatabase database => IsLoweredName database
  | .dropDatabase database => IsLoweredName database
  | .createTable table attributes displayName =>
      IsIdentifier displayName ∧ table = displayName.lower ∧ ∀ name ∈ attributes, IsIdentifier name
  | .dropTable table => IsLoweredName table
  | .addAttribute table name => IsLoweredName table ∧ IsIdentifier name
  | .dropAttribute table name => IsLoweredName table ∧ IsIdentifier name
  | .insert table values =>
      IsLoweredName table ∧ values ≠ [] ∧ ∀ value ∈ values, IsPlainValue value
  | .select .all table condition =>
      IsLoweredName table ∧ ∀ test ∈ condition, PrintableCondition test
  | .select (.named names) table condition =>
      IsLoweredName table ∧ names ≠ [] ∧ (∀ name ∈ names, IsIdentifier name) ∧
        ∀ test ∈ condition, PrintableCondition test
  | .delete table condition => IsLoweredName table ∧ PrintableCondition condition
  | .update table assignments condition =>
      IsLoweredName table ∧ assignments ≠ [] ∧ (Assoc.keys assignments).Nodup ∧
        (∀ assignment ∈ assignments,
          IsIdentifier assignment.1 ∧ assignment.1.lower = assignment.1 ∧
            IsPlainValue assignment.2) ∧
        PrintableCondition condition
  | .join leftTable rightTable leftAttribute rightAttribute =>
      IsLoweredName leftTable ∧ IsLoweredName rightTable ∧ IsIdentifier leftAttribute ∧
        IsIdentifier rightAttribute

/-! ## Spellings -/

inductive SpellsWord (name : Text) : Piece → Prop
  | intro {text : Text} (htext : text.map Char.toUpper = name) : SpellsWord name (.word text)

inductive SpellsLowered (name : Text) : Piece → Prop
  | intro {spelled : Text} (hspelled : IsIdentifier spelled) (hname : spelled.lower = name) :
      SpellsLowered name (.word spelled)

def comparatorMark? : Comparator → Option Text
  | .equal => some ['=', '=']
  | .notEqual => some ['!', '=']
  | .less => some ['<']
  | .lessOrEqual => some ['<', '=']
  | .greater => some ['>']
  | .greaterOrEqual => some ['>', '=']
  | .like => none

inductive SpellsComparator : Comparator → Piece → Prop
  | mark {relation : Comparator} {symbol : Text} (hsymbol : comparatorMark? relation = some symbol) :
      SpellsComparator relation (.mark symbol)
  | like {word : Piece} (hword : SpellsWord "LIKE".toList word) : SpellsComparator .like word

inductive SpellsList {α : Type} (element : α → List Piece → Prop) : List α → List Piece → Prop
  | single {first : α} {pieces : List Piece} (hfirst : element first pieces) :
      SpellsList element [first] pieces
  | more {first : α} {others : List α} {pieces later : List Piece} (hfirst : element first pieces)
      (hothers : SpellsList element others later) :
      SpellsList element (first :: others) (pieces ++ .mark [','] :: later)

inductive SpellsName : Text → List Piece → Prop
  | intro {name : Text} : SpellsName name [.word name]

inductive SpellsValue : Text → List Piece → Prop
  | intro {value : Text} : SpellsValue value [.quoted value]

inductive SpellsAssignment : Text × Text → List Piece → Prop
  | intro {name value : Text} {spelled : Piece} (hspelled : SpellsLowered name spelled) :
      SpellsAssignment (name, value) [spelled, .mark ['='], .quoted value]

mutual

inductive SpellsUnit : Condition → List Piece → Prop
  | comparison {name value : Text} {relation : Comparator} {sign : Piece}
      (hsign : SpellsComparator relation sign) :
      SpellsUnit (.leaf ⟨name, relation, value⟩) [.word name, sign, .quoted value]
  | group {condition : Condition} {pieces : List Piece}
      (hcondition : SpellsCondition condition pieces) :
      SpellsUnit condition (.mark ['('] :: (pieces ++ [.mark [')']]))

/-- A condition of which the left operand may stand without parentheses. -/
inductive SpellsCondition : Condition → List Piece → Prop
  | unit {condition : Condition} {pieces : List Piece} (hunit : SpellsUnit condition pieces) :
      SpellsCondition condition pieces
  | joined {left right : Condition} {connective : Connective} {word : Piece}
      {pieces later : List Piece} (hleft : SpellsCondition left pieces)
      (hword : SpellsWord (connectiveWord connective).name word) (hright : SpellsUnit right later) :
      SpellsCondition (.joined left connective right) (pieces ++ word :: later)

end

inductive SpellsColumns : Columns → List Piece → Prop
  | all : SpellsColumns .all [.word ['*']]
  | named {names : List Text} {pieces : List Piece} (hnames : SpellsList SpellsName names pieces) :
      SpellsColumns (.named names) pieces

inductive SpellsFilter : Option Condition → List Piece → Prop
  | absent : SpellsFilter none []
  | present {condition : Condition} {word : Piece} {pieces : List Piece}
      (hword : SpellsWord Keyword.whereWord.name word)
      (hcondition : SpellsCondition condition pieces) :
      SpellsFilter (some condition) (word :: pieces)

inductive SpellsForm : Command → List Piece → Prop
  | use {database : Text} {use name : Piece} (huse : SpellsWord Keyword.use.name use)
      (hname : SpellsLowered database name) : SpellsForm (.use database) [use, name]
  | createDatabase {database : Text} {create word name : Piece}
      (hcreate : SpellsWord Keyword.create.name create)
      (hword : SpellsWord Keyword.database.name word) (hname : SpellsLowered database name) :
      SpellsForm (.createDatabase database) [create, word, name]
  | dropDatabase {database : Text} {drop word name : Piece}
      (hdrop : SpellsWord Keyword.drop.name drop)
      (hword : SpellsWord Keyword.database.name word) (hname : SpellsLowered database name) :
      SpellsForm (.dropDatabase database) [drop, word, name]
  | createBareTable {table displayName : Text} {create word : Piece}
      (hcreate : SpellsWord Keyword.create.name create)
      (hword : SpellsWord Keyword.table.name word) :
      SpellsForm (.createTable table [] displayName) [create, word, .word displayName]
  | createTable {table displayName : Text} {attributes : List Text} {create word : Piece}
      {pieces : List Piece} (hcreate : SpellsWord Keyword.create.name create)
      (hword : SpellsWord Keyword.table.name word)
      (hattributes : SpellsList SpellsName attributes pieces) :
      SpellsForm (.createTable table attributes displayName)
        (create :: word :: .word displayName :: .mark ['('] :: (pieces ++ [.mark [')']]))
  | dropTable {table : Text} {drop word name : Piece} (hdrop : SpellsWord Keyword.drop.name drop)
      (hword : SpellsWord Keyword.table.name word) (hname : SpellsLowered table name) :
      SpellsForm (.dropTable table) [drop, word, name]
  | addAttribute {table column : Text} {alter word name add : Piece}
      (halter : SpellsWord Keyword.alter.name alter) (hword : SpellsWord Keyword.table.name word)
      (hname : SpellsLowered table name) (hadd : SpellsWord Keyword.add.name add) :
      SpellsForm (.addAttribute table column) [alter, word, name, add, .word column]
  | dropAttribute {table column : Text} {alter word name drop : Piece}
      (halter : SpellsWord Keyword.alter.name alter) (hword : SpellsWord Keyword.table.name word)
      (hname : SpellsLowered table name) (hdrop : SpellsWord Keyword.drop.name drop) :
      SpellsForm (.dropAttribute table column) [alter, word, name, drop, .word column]
  | insert {table : Text} {values : List Text} {insert into name word : Piece}
      {pieces : List Piece} (hinsert : SpellsWord Keyword.insert.name insert)
      (hinto : SpellsWord Keyword.into.name into) (hname : SpellsLowered table name)
      (hword : SpellsWord Keyword.values.name word)
      (hvalues : SpellsList SpellsValue values pieces) :
      SpellsForm (.insert table values)
        (insert :: into :: name :: word :: .mark ['('] :: (pieces ++ [.mark [')']]))
  | select {columns : Columns} {table : Text} {filter : Option Condition}
      {select word name : Piece} {pieces later : List Piece}
      (hselect : SpellsWord Keyword.select.name select) (hcolumns : SpellsColumns columns pieces)
      (hword : SpellsWord Keyword.fromWord.name word) (hname : SpellsLowered table name)
      (hfilter : SpellsFilter filter later) :
      SpellsForm (.select columns table filter) (select :: (pieces ++ word :: name :: later))
  | delete {table : Text} {condition : Condition} {delete fromWord name word : Piece}
      {pieces : List Piece} (hdelete : SpellsWord Keyword.delete.name delete)
      (hfrom : SpellsWord Keyword.fromWord.name fromWord) (hname : SpellsLowered table name)
      (hword : SpellsWord Keyword.whereWord.name word)
      (hcondition : SpellsCondition condition pieces) :
      SpellsForm (.delete table condition) (delete :: fromWord :: name :: word :: pieces)
  | update {table : Text} {assignments : List (Text × Text)} {condition : Condition}
      {update name set word : Piece} {pieces later : List Piece}
      (hupdate : SpellsWord Keyword.update.name update) (hname : SpellsLowered table name)
      (hset : SpellsWord Keyword.set.name set)
      (hassignments : SpellsList SpellsAssignment assignments pieces)
      (hword : SpellsWord Keyword.whereWord.name word)
      (hcondition : SpellsCondition condition later) :
      SpellsForm (.update table assignments condition)
        (update :: name :: set :: (pieces ++ word :: later))
  | join {leftTable rightTable leftAttribute rightAttribute : Text}
      {join left and right on also : Piece} (hjoin : SpellsWord Keyword.join.name join)
      (hleft : SpellsLowered leftTable left) (hand : SpellsWord Keyword.and.name and)
      (hright : SpellsLowered rightTable right) (hon : SpellsWord Keyword.on.name on)
      (halso : SpellsWord Keyword.and.name also) :
      SpellsForm (.join leftTable rightTable leftAttribute rightAttribute)
        [join, left, and, right, on, .word leftAttribute, also, .word rightAttribute]

inductive Spells : Command → List Piece → Prop
  | intro {command : Command} {pieces : List Piece} (hform : SpellsForm command pieces) :
      Spells command (pieces ++ [.mark [';']])

/-! ## Tokens of pieces -/

def tokenOf (piece : Piece) : Token :=
  .ofRaw piece.text

theorem classify_of_get? {text : Text} {kind : TokenKind}
    (h : Assoc.get? (text.map TokenKind.capital) TokenKind.fixed = some kind) :
    TokenKind.classify text = kind := by
  rw [TokenKind.classify, h]

theorem isWordChar_of_isAlphanum {c : Char} (h : c.isAlphanum = true) : isWordChar c = true :=
  isWordChar_iff.2 ⟨isBlank_of_isAlphanum h, isSymbol_of_isAlphanum h,
    ne_of_isAlphanum h (by decide), ne_of_isAlphanum h (by decide)⟩

theorem settled_alphanum {text : Text} {rest : List Piece} (hne : text ≠ [])
    (htext : text.all Char.isAlphanum = true) (hrest : Settled rest) :
    Settled (.word text :: rest) := by
  refine .word hne ?_ hrest
  rw [List.all_eq_true] at htext ⊢
  exact fun c hc => isWordChar_of_isAlphanum (htext c hc)

theorem alphanum_of_spelled {name text : Text} (hname : name.all Char.isAlphanum = true)
    (htext : text.map Char.toUpper = name) : text.all Char.isAlphanum = true := by
  rw [← htext, List.all_map, List.all_eq_true] at hname
  rw [List.all_eq_true]
  exact fun c hc => isAlphanum_of_toUpper (hname c hc)

theorem kind_of_spellsWord {name : Text} {kind : TokenKind} {piece : Piece}
    (hname : name.all Char.isAlphanum = true)
    (hkind : Assoc.get? name TokenKind.fixed = some kind) (h : SpellsWord name piece) :
    (tokenOf piece).kind = kind := by
  cases h with
  | intro htext =>
      rename_i text
      have halphanum := List.all_eq_true.1 (alphanum_of_spelled hname htext)
      have hcapital : text.map TokenKind.capital = name := by
        rw [← htext]
        exact List.map_congr_left fun c hc => capital_of_isAlphanum (halphanum c hc)
      exact classify_of_get? (hcapital ▸ hkind)

theorem settled_of_spellsWord {name : Text} {piece : Piece} {rest : List Piece}
    (hne : name ≠ []) (hname : name.all Char.isAlphanum = true) (h : SpellsWord name piece)
    (hrest : Settled rest) : Settled (piece :: rest) := by
  cases h with
  | intro htext =>
      refine settled_alphanum ?_ (alphanum_of_spelled hname htext) hrest
      rintro rfl
      exact hne htext.symm

theorem alphanum_keyword (word : Keyword) : word.name.all Char.isAlphanum = true := by
  cases word <;> decide

theorem kind_keyword {word : Keyword} {piece : Piece} (h : SpellsWord word.name piece) :
    (tokenOf piece).kind = .keyword word :=
  kind_of_spellsWord (alphanum_keyword word) (by cases word <;> decide) h

theorem settled_keyword {word : Keyword} {piece : Piece} {rest : List Piece}
    (h : SpellsWord word.name piece) (hrest : Settled rest) : Settled (piece :: rest) :=
  settled_of_spellsWord (by cases word <;> decide) (alphanum_keyword word) h hrest

theorem kind_like {piece : Piece} (h : SpellsWord "LIKE".toList piece) :
    (tokenOf piece).kind = .comparator .like :=
  kind_of_spellsWord (by decide) (by decide) h

theorem kind_comparator {relation : Comparator} {piece : Piece}
    (h : SpellsComparator relation piece) : (tokenOf piece).kind = .comparator relation := by
  cases h with
  | mark hsymbol => cases relation <;> cases hsymbol <;> decide
  | like hword => exact kind_like hword

theorem settled_comparator {relation : Comparator} {piece : Piece} {value : Text}
    {rest : List Piece} (h : SpellsComparator relation piece) (hvalue : '\x27' ∉ value)
    (hrest : Settled rest) : Settled (piece :: .quoted value :: rest) := by
  cases h with
  | mark hsymbol =>
      exact .literal (by cases relation <;> cases hsymbol <;> decide) hvalue hrest
  | like hword =>
      exact settled_of_spellsWord (by decide) (by decide) hword (.quoted hvalue hrest)

theorem kind_name {name : Text} (h : IsIdentifier name) :
    (tokenOf (.word name)).kind = .identifier := h

theorem settled_name {name : Text} {rest : List Piece} (h : IsIdentifier name)
    (hrest : Settled rest) : Settled (.word name :: rest) :=
  settled_alphanum h.ne_nil h.alphanum hrest

theorem SpellsLowered.token {name : Text} {piece : Piece} (h : SpellsLowered name piece) :
    (tokenOf piece).kind = .identifier ∧ (tokenOf piece).text.lower = name := by
  cases h with
  | intro hspelled hname => exact ⟨hspelled, hname⟩

theorem settled_lowered {name : Text} {piece : Piece} {rest : List Piece}
    (h : SpellsLowered name piece) (hrest : Settled rest) : Settled (piece :: rest) := by
  cases h with
  | intro hspelled hname => exact settled_name hspelled hrest

/-! ## Quoted values -/

theorem get?_fixed_of_quote {text : Text} (h : '\x27' ∈ text) :
    Assoc.get? (text.map TokenKind.capital) TokenKind.fixed = none := by
  have hkeys : ∀ key ∈ Assoc.keys TokenKind.fixed, '\x27' ∉ key := by decide
  rw [Assoc.get?_eq_none_iff]
  intro hmem
  refine hkeys _ hmem (List.mem_map.2 ⟨'\x27', h, by decide⟩)

theorem classify_quote (rest : Text) :
    TokenKind.classify ('\x27' :: rest) =
      if TokenKind.isQuoted ('\x27' :: rest) then .literal .text else .invalid := by
  have hsign : Numeral.splitSign ('\x27' :: rest) = (false, '\x27' :: rest) := by
    simp [Numeral.splitSign]
  have hdigit : Text.isDigit '\x27' = false := by decide
  have hinteger : Text.isIntegerNumeral ('\x27' :: rest) = false := by
    simp [Text.isIntegerNumeral, hsign, hdigit]
  have hdecimal : Text.isDecimalNumeral ('\x27' :: rest) = false := by
    simp [Text.isDecimalNumeral, hsign, Numeral.splitDigits, hdigit]
  have halphanum : Char.isAlphanum '\x27' = false := by decide
  rw [TokenKind.classify, get?_fixed_of_quote List.mem_cons_self]
  simp [hinteger, hdecimal, halphanum]

theorem isQuoted_quoted (value : Text) :
    TokenKind.isQuoted ('\x27' :: value ++ ['\x27']) = true := by
  simp [TokenKind.isQuoted, List.getLast?_cons]

theorem value_quoted (value : Text) :
    IsLiteral (tokenOf (.quoted value)) ∧ (tokenOf (.quoted value)).value = value.trim := by
  have hkind : (tokenOf (.quoted value)).kind = .literal .text := by
    rw [tokenOf, ofRaw, Piece.text, List.cons_append, classify_quote, ← List.cons_append,
      isQuoted_quoted]
    rfl
  refine ⟨⟨_, hkind⟩, ?_⟩
  rw [Token.value, if_pos hkind, tokenOf, ofRaw, Piece.text, if_pos (isQuoted_quoted value)]
  simp

/-! ## What the grammar derives -/

theorem settled_of_spellsList {α : Type} {element : α → List Piece → Prop} {elements : List α}
    {pieces : List Piece}
    (helement : ∀ x ∈ elements, ∀ part, element x part → Settled part)
    (h : SpellsList element elements pieces) : Settled pieces := by
  induction h with
  | single hfirst => exact helement _ List.mem_cons_self _ hfirst
  | more hfirst _ ih =>
      refine (helement _ List.mem_cons_self _ hfirst).append (.mark (by decide) (ih ?_))
      exact fun x hx => helement x (List.mem_cons_of_mem _ hx)

theorem isList_of_spellsList {α : Type} {element : α → List Piece → Prop}
    {IsElement : List Token → α → Prop} {elements : List α} {pieces : List Piece}
    (helement : ∀ x ∈ elements, ∀ part, element x part → IsElement (part.map tokenOf) x)
    (h : SpellsList element elements pieces) : IsList IsElement (pieces.map tokenOf) elements := by
  induction h with
  | single hfirst => exact .single (helement _ List.mem_cons_self _ hfirst)
  | more hfirst _ ih =>
      rw [List.map_append, List.map_cons]
      refine .more (helement _ List.mem_cons_self _ hfirst) (by decide) (ih ?_)
      exact fun x hx => helement x (List.mem_cons_of_mem _ hx)

theorem spells_names {names : List Text} {pieces : List Piece}
    (hnames : ∀ name ∈ names, IsIdentifier name) (h : SpellsList SpellsName names pieces) :
    Settled pieces ∧ IsList IsName (pieces.map tokenOf) names := by
  constructor
  · refine settled_of_spellsList ?_ h
    rintro name hname _ ⟨⟩
    exact settled_name (hnames name hname) .nil
  · refine isList_of_spellsList ?_ h
    rintro name hname _ ⟨⟩
    exact .intro (kind_name (hnames name hname))

theorem spells_values {values : List Text} {pieces : List Piece}
    (hvalues : ∀ value ∈ values, IsPlainValue value) (h : SpellsList SpellsValue values pieces) :
    Settled pieces ∧ IsList IsValue (pieces.map tokenOf) values := by
  constructor
  · refine settled_of_spellsList ?_ h
    rintro value hvalue _ ⟨⟩
    exact .quoted (hvalues value hvalue).1 .nil
  · refine isList_of_spellsList ?_ h
    rintro value hvalue _ ⟨⟩
    have hliteral := IsValue.intro (value_quoted value).1
    rwa [(value_quoted value).2, (hvalues value hvalue).2] at hliteral

theorem spells_assignments {assignments : List (Text × Text)} {pieces : List Piece}
    (hassignments : ∀ assignment ∈ assignments, IsPlainValue assignment.2)
    (h : SpellsList SpellsAssignment assignments pieces) :
    Settled pieces ∧ IsList IsAssignment (pieces.map tokenOf) assignments := by
  constructor
  · refine settled_of_spellsList ?_ h
    rintro assignment hmem _ ⟨hspelled⟩
    exact settled_lowered hspelled (.literal (by decide) (hassignments _ hmem).1 .nil)
  · refine isList_of_spellsList ?_ h
    rintro assignment hmem _ ⟨hspelled⟩
    rename_i name value spelled
    have hsign : (tokenOf (.mark ['='])).kind = .assign := by decide
    have hpair := IsAssignment.intro hspelled.token.1 hsign (value_quoted value).1
    rwa [hspelled.token.2, (value_quoted value).2, (hassignments _ hmem).2] at hpair

theorem isLinks_append {tokens later : List Token} {links others : List (Connective × Condition)}
    (h : IsLinks tokens links) (hothers : IsLinks later others) :
    IsLinks (tokens ++ later) (links ++ others) := by
  induction links generalizing tokens with
  | nil =>
      cases h
      exact hothers
  | cons link links ih =>
      cases h with
      | cons hword hright hlinks =>
          have hrest := ih hlinks
          simpa using IsLinks.cons hword hright hrest

theorem isCondition_joined {tokens later : List Token} {left right : Condition}
    {connective : Connective} {word : Token} (hleft : IsCondition tokens left)
    (hword : word.kind = .keyword (connectiveWord connective)) (hright : IsUnit later right) :
    IsCondition (tokens ++ word :: later) (.joined left connective right) := by
  cases hleft with
  | intro hfirst hlinks =>
      rename_i units rest first links
      have hgrown := isLinks_append hlinks (.cons hword hright .nil)
      have hcondition := IsCondition.intro hfirst hgrown
      rw [joinLinks_append] at hcondition
      simpa [joinLinks] using hcondition

mutual

theorem spells_unit {condition : Condition} {pieces : List Piece}
    (h : SpellsUnit condition pieces) :
    PrintableCondition condition → Settled pieces ∧ IsUnit (pieces.map tokenOf) condition := by
  intro hprintable
  cases h with
  | comparison hsign =>
      rename_i name value relation sign
      obtain ⟨hname, hvalue⟩ := hprintable ⟨name, relation, value⟩ List.mem_cons_self
      refine ⟨settled_name hname (settled_comparator hsign hvalue.1 .nil), ?_⟩
      have hunit := IsUnit.comparison (kind_name hname) (kind_comparator hsign)
        (value_quoted value).1
      rwa [(value_quoted value).2, hvalue.2] at hunit
  | group hcondition =>
      obtain ⟨hsettled, hderived⟩ := spells_condition hcondition hprintable
      refine ⟨.mark (by decide) (hsettled.append (.mark (by decide) .nil)), ?_⟩
      rw [List.map_cons, List.map_append]
      exact .group (by decide) (by decide) hderived
termination_by 2 * pieces.length

theorem spells_condition {condition : Condition} {pieces : List Piece}
    (h : SpellsCondition condition pieces) :
    PrintableCondition condition →
      Settled pieces ∧ IsCondition (pieces.map tokenOf) condition := by
  intro hprintable
  cases h with
  | unit hunit =>
      obtain ⟨hsettled, hderived⟩ := spells_unit hunit hprintable
      refine ⟨hsettled, ?_⟩
      simpa [joinLinks] using IsCondition.intro hderived .nil
  | joined hleft hword hright =>
      obtain ⟨hleftSettled, hleftDerived⟩ := spells_condition hleft
        fun comparison hmem => hprintable comparison (List.mem_append_left _ hmem)
      obtain ⟨hrightSettled, hrightDerived⟩ := spells_unit hright
        fun comparison hmem => hprintable comparison (List.mem_append_right _ hmem)
      refine ⟨hleftSettled.append (settled_keyword hword hrightSettled), ?_⟩
      rw [List.map_append, List.map_cons]
      exact isCondition_joined hleftDerived (kind_keyword hword) hrightDerived
termination_by 2 * pieces.length + 1

end

theorem spells_filter {filter : Option Condition} {pieces : List Piece}
    (hprintable : ∀ condition ∈ filter, PrintableCondition condition)
    (h : SpellsFilter filter pieces) :
    Settled pieces ∧ IsFilter (pieces.map tokenOf) filter := by
  cases h with
  | absent => exact ⟨.nil, .absent⟩
  | present hword hcondition =>
      obtain ⟨hsettled, hderived⟩ := spells_condition hcondition (hprintable _ rfl)
      exact ⟨settled_keyword hword hsettled, .present (kind_keyword hword) hderived⟩

theorem Printable.filter {columns : Columns} {table : Text} {filter : Option Condition}
    (h : Printable (.select columns table filter)) :
    ∀ condition ∈ filter, PrintableCondition condition := by
  cases columns with
  | all => exact h.2
  | named names => exact h.2.2.2

theorem spells_columns {columns : Columns} {table : Text} {filter : Option Condition}
    {pieces : List Piece} (hprintable : Printable (.select columns table filter))
    (h : SpellsColumns columns pieces) :
    Settled pieces ∧ IsColumns (pieces.map tokenOf) columns := by
  cases h with
  | all => exact ⟨.word (by decide) (by decide) .nil, .all (by decide)⟩
  | named hnames =>
      obtain ⟨hsettled, hderived⟩ := spells_names hprintable.2.2.1 hnames
      exact ⟨hsettled, .named hderived⟩

/-- The grammar derives a printable command from the tokens of its spellings. -/
theorem spells_form {command : Command} {pieces : List Piece} (hprintable : Printable command)
    (h : SpellsForm command pieces) :
    Settled pieces ∧ IsForm (pieces.map tokenOf) command := by
  cases h with
  | use huse hname =>
      refine ⟨settled_keyword huse (settled_lowered hname .nil), ?_⟩
      rw [← hname.token.2]
      exact .use (kind_keyword huse) hname.token.1
  | createDatabase hcreate hword hname =>
      refine ⟨settled_keyword hcreate (settled_keyword hword (settled_lowered hname .nil)), ?_⟩
      rw [← hname.token.2]
      exact .createDatabase (kind_keyword hcreate) (kind_keyword hword) hname.token.1
  | dropDatabase hdrop hword hname =>
      refine ⟨settled_keyword hdrop (settled_keyword hword (settled_lowered hname .nil)), ?_⟩
      rw [← hname.token.2]
      exact .dropDatabase (kind_keyword hdrop) (kind_keyword hword) hname.token.1
  | createBareTable hcreate hword =>
      rename_i table displayName create word
      obtain ⟨hname, htable, _⟩ := hprintable
      refine ⟨settled_keyword hcreate (settled_keyword hword (settled_name hname .nil)), ?_⟩
      rw [htable]
      exact .createBareTable (kind_keyword hcreate) (kind_keyword hword) (kind_name hname)
  | createTable hcreate hword hattributes =>
      rename_i table displayName attributes create word part
      obtain ⟨hname, htable, hprintable⟩ := hprintable
      obtain ⟨hsettled, hderived⟩ := spells_names hprintable hattributes
      refine ⟨settled_keyword hcreate (settled_keyword hword (settled_name hname
        (.mark (by decide) (hsettled.append (.mark (by decide) .nil))))), ?_⟩
      rw [htable]
      simp only [List.map_cons, List.map_append, List.map_nil]
      exact .createTable (kind_keyword hcreate) (kind_keyword hword) (kind_name hname)
        (by decide) hderived (by decide)
  | dropTable hdrop hword hname =>
      refine ⟨settled_keyword hdrop (settled_keyword hword (settled_lowered hname .nil)), ?_⟩
      rw [← hname.token.2]
      exact .dropTable (kind_keyword hdrop) (kind_keyword hword) hname.token.1
  | addAttribute halter hword hname hadd =>
      refine ⟨settled_keyword halter (settled_keyword hword (settled_lowered hname
        (settled_keyword hadd (settled_name hprintable.2 .nil)))), ?_⟩
      rw [← hname.token.2]
      exact .addAttribute (kind_keyword halter) (kind_keyword hword) hname.token.1
        (kind_keyword hadd) (kind_name hprintable.2)
  | dropAttribute halter hword hname hdrop =>
      refine ⟨settled_keyword halter (settled_keyword hword (settled_lowered hname
        (settled_keyword hdrop (settled_name hprintable.2 .nil)))), ?_⟩
      rw [← hname.token.2]
      exact .dropAttribute (kind_keyword halter) (kind_keyword hword) hname.token.1
        (kind_keyword hdrop) (kind_name hprintable.2)
  | insert hinsert hinto hname hword hvalues =>
      obtain ⟨hsettled, hderived⟩ := spells_values hprintable.2.2 hvalues
      refine ⟨settled_keyword hinsert (settled_keyword hinto (settled_lowered hname
        (settled_keyword hword
          (.mark (by decide) (hsettled.append (.mark (by decide) .nil)))))), ?_⟩
      rw [← hname.token.2]
      simp only [List.map_cons, List.map_append, List.map_nil]
      exact .insert (kind_keyword hinsert) (kind_keyword hinto) hname.token.1
        (kind_keyword hword) (by decide) hderived (by decide)
  | select hselect hcolumns hword hname hfilter =>
      obtain ⟨hcolumnsSettled, hcolumnsDerived⟩ := spells_columns hprintable hcolumns
      obtain ⟨hfilterSettled, hfilterDerived⟩ := spells_filter hprintable.filter hfilter
      refine ⟨settled_keyword hselect (hcolumnsSettled.append
        (settled_keyword hword (settled_lowered hname hfilterSettled))), ?_⟩
      rw [← hname.token.2]
      simp only [List.map_cons, List.map_append]
      exact .select (kind_keyword hselect) hcolumnsDerived (kind_keyword hword) hname.token.1
        hfilterDerived
  | delete hdelete hfrom hname hword hcondition =>
      obtain ⟨hsettled, hderived⟩ := spells_condition hcondition hprintable.2
      refine ⟨settled_keyword hdelete (settled_keyword hfrom (settled_lowered hname
        (settled_keyword hword hsettled))), ?_⟩
      rw [← hname.token.2]
      exact .delete (kind_keyword hdelete) (kind_keyword hfrom) hname.token.1
        (kind_keyword hword) hderived
  | update hupdate hname hset hassignments hword hcondition =>
      obtain ⟨_, _, hdistinct, hplain, hprintable⟩ := hprintable
      obtain ⟨hlistSettled, hlistDerived⟩ := spells_assignments
        (fun assignment hmem => (hplain assignment hmem).2.2) hassignments
      obtain ⟨hsettled, hderived⟩ := spells_condition hcondition hprintable
      refine ⟨settled_keyword hupdate (settled_lowered hname (settled_keyword hset
        (hlistSettled.append (settled_keyword hword hsettled)))), ?_⟩
      rw [← hname.token.2, ← Assoc.ofList_eq_self hdistinct]
      simp only [List.map_cons, List.map_append]
      exact .update (kind_keyword hupdate) hname.token.1 (kind_keyword hset) hlistDerived
        (kind_keyword hword) hderived
  | join hjoin hleft hand hright hon halso =>
      obtain ⟨_, _, hleftAttribute, hrightAttribute⟩ := hprintable
      refine ⟨settled_keyword hjoin (settled_lowered hleft (settled_keyword hand
        (settled_lowered hright (settled_keyword hon (settled_name hleftAttribute
          (settled_keyword halso (settled_name hrightAttribute .nil))))))), ?_⟩
      rw [← hleft.token.2, ← hright.token.2]
      exact .join (kind_keyword hjoin) hleft.token.1 (kind_keyword hand) hright.token.1
        (kind_keyword hon) (kind_name hleftAttribute) (kind_keyword halso)
        (kind_name hrightAttribute)

end Spelling

end Relbase
