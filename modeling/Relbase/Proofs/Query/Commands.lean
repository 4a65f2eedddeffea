import Mathlib.Data.List.Basic
import Relbase.Failure
import Relbase.Proofs.Query.Conditions

/-!
# Reading by the grammar: commands

`Command.ofTokens` gives a command exactly for the lists of tokens that the grammar
derives, and the command that it derives.
-/

namespace Relbase.Grammar

/-! ## Readers -/

def Yields {α : Type} (reader : Reader α) (tokens : List Token) (result : α)
    (rest : List Token) : Prop :=
  reader.run tokens = .ok (result, rest)

section

variable {α β : Type} {tokens rest : List Token}

@[simp] theorem yields_pure {value result : α} :
    Yields (pure value) tokens result rest ↔ result = value ∧ rest = tokens := by
  constructor
  · intro h
    cases h
    exact ⟨rfl, rfl⟩
  · rintro ⟨rfl, rfl⟩
    rfl

@[simp] theorem yields_bind {reader : Reader α} {next : α → Reader β} {result : β} :
    Yields (reader >>= next) tokens result rest ↔
      ∃ value between, Yields reader tokens value between ∧
        Yields (next value) between result rest := by
  have hrun : (reader >>= next).run tokens =
      (reader.run tokens).bind fun found => (next found.1).run found.2 := rfl
  rw [Yields, hrun]
  cases hreader : reader.run tokens with
  | error fault => simp [Except.bind, Yields, hreader]
  | ok found =>
      constructor
      · exact fun h => ⟨found.1, found.2, hreader, h⟩
      · rintro ⟨value, between, hvalue, hnext⟩
        cases hreader.symm.trans hvalue
        exact hnext

@[simp] theorem yields_step {read : ReadStep α} {result : α} :
    Yields (Reader.step read) tokens result rest ↔ Reads read tokens result rest := by
  have hrun : (Reader.step read).run tokens =
      (read tokens).map fun found => (found.1, found.2.val) := rfl
  rw [Yields, hrun]
  cases hread : read tokens with
  | error fault => simp [Except.map, Reads, hread]
  | ok found =>
      constructor
      · intro h
        cases h
        exact ⟨found.2.property, hread⟩
      · rintro ⟨hlt, h⟩
        cases hread.symm.trans h
        rfl

@[simp] theorem yields_atKind {kind : TokenKind} {result : Bool} :
    Yields (Reader.atKind kind) tokens result rest ↔
      result = decide (nextKind tokens = kind) ∧ rest = tokens := by
  constructor
  · intro h
    cases h
    exact ⟨rfl, rfl⟩
  · rintro ⟨rfl, rfl⟩
    rfl

@[simp] theorem yields_keyword {word : Keyword} {result : Unit} :
    Yields (Reader.keyword word) tokens result rest ↔
      ∃ token, tokens = token :: rest ∧ token.kind = .keyword word := by
  simp only [Reader.keyword, yields_bind, yields_step, yields_pure, reads_expect,
    List.mem_singleton]
  constructor
  · rintro ⟨token, between, ⟨rfl, hkind⟩, _, rfl⟩
    exact ⟨token, rfl, hkind⟩
  · rintro ⟨token, rfl, hkind⟩
    exact ⟨token, rest, ⟨rfl, hkind⟩, trivial, rfl⟩

@[simp] theorem yields_symbol {kind : TokenKind} {result : Unit} :
    Yields (Reader.symbol kind) tokens result rest ↔
      ∃ token, tokens = token :: rest ∧ token.kind = kind := by
  simp only [Reader.symbol, yields_bind, yields_step, yields_pure, reads_expect,
    List.mem_singleton]
  constructor
  · rintro ⟨token, between, ⟨rfl, hkind⟩, _, rfl⟩
    exact ⟨token, rfl, hkind⟩
  · rintro ⟨token, rfl, hkind⟩
    exact ⟨token, rest, ⟨rfl, hkind⟩, trivial, rfl⟩

@[simp] theorem yields_name {result : Text} :
    Yields Reader.name tokens result rest ↔
      ∃ token, tokens = token :: rest ∧ token.kind = .identifier ∧ result = token.text := by
  simp only [Reader.name, yields_bind, yields_step, yields_pure, reads_expect,
    List.mem_singleton]
  constructor
  · rintro ⟨token, between, ⟨rfl, hkind⟩, rfl, rfl⟩
    exact ⟨token, rfl, hkind, rfl⟩
  · rintro ⟨token, rfl, hkind, rfl⟩
    exact ⟨token, rest, ⟨rfl, hkind⟩, rfl, rfl⟩

@[simp] theorem yields_loweredName {result : Text} :
    Yields Reader.loweredName tokens result rest ↔
      ∃ token, tokens = token :: rest ∧ token.kind = .identifier ∧
        result = token.text.lower := by
  simp only [Reader.loweredName, yields_bind, yields_name, yields_pure]
  constructor
  · rintro ⟨_, between, ⟨token, rfl, hkind, rfl⟩, rfl, rfl⟩
    exact ⟨token, rfl, hkind, rfl⟩
  · rintro ⟨token, rfl, hkind, rfl⟩
    exact ⟨token.text, rest, ⟨token, rfl, hkind, rfl⟩, rfl, rfl⟩

@[simp] theorem yields_oneOf {first second result : Keyword} :
    Yields (Reader.oneOf first second) tokens result rest ↔
      ∃ token, tokens = token :: rest ∧ token.kind = .keyword result ∧
        (result = first ∨ result = second) := by
  simp only [Reader.oneOf, yields_bind, yields_step, yields_pure, reads_expect,
    List.mem_cons, List.not_mem_nil, or_false]
  constructor
  · rintro ⟨token, between, ⟨rfl, hkind⟩, rfl, rfl⟩
    refine ⟨token, rfl, ?_⟩
    rcases hkind with hkind | hkind <;> grind
  · rintro ⟨token, rfl, hkind, hresult⟩
    refine ⟨token, rest, ⟨rfl, ?_⟩, ?_, rfl⟩ <;> grind

@[simp] theorem yields_condition {result : Condition} :
    Yields Reader.condition tokens result rest ↔
      EndsChain rest ∧ ∃ part, tokens = part ++ rest ∧ IsCondition part result := by
  rw [Reader.condition, yields_step, reads_condition]

end

/-! ## Lists -/

theorem isList_map {α β : Type} {IsElement : List Token → α → Prop}
    {IsMeaning : List Token → β → Prop} {meaning : α → β}
    (hmeaning : ∀ {part value}, IsMeaning part value ↔
      ∃ element, IsElement part element ∧ value = meaning element)
    {part : List Token} {values : List β} :
    IsList IsMeaning part values ↔
      ∃ elements, IsList IsElement part elements ∧ values = elements.map meaning := by
  constructor
  · intro h
    induction h with
    | single hfirst =>
        obtain ⟨element, helement, rfl⟩ := hmeaning.1 hfirst
        exact ⟨[element], .single helement, rfl⟩
    | more hfirst hcomma _ ih =>
        obtain ⟨element, helement, rfl⟩ := hmeaning.1 hfirst
        obtain ⟨elements, helements, rfl⟩ := ih
        exact ⟨element :: elements, .more helement hcomma helements, rfl⟩
  · rintro ⟨elements, helements, rfl⟩
    induction helements with
    | single hfirst => exact .single (hmeaning.2 ⟨_, hfirst, rfl⟩)
    | more hfirst hcomma _ ih => exact .more (hmeaning.2 ⟨_, hfirst, rfl⟩) hcomma ih

theorem isList_name {part : List Token} {names : List Text} :
    IsList IsName part names ↔
      ∃ elements : List Token, IsList (fun part token => part = [token] ∧
        token.kind = .identifier) part elements ∧ names = elements.map Token.text := by
  refine isList_map fun {part text} => ⟨?_, ?_⟩
  · rintro ⟨hname⟩
    exact ⟨_, ⟨rfl, hname⟩, rfl⟩
  · rintro ⟨token, ⟨rfl, hname⟩, rfl⟩
    exact .intro hname

theorem isList_value {part : List Token} {values : List Text} :
    IsList IsValue part values ↔
      ∃ elements : List Token, IsList (fun part token => part = [token] ∧
        IsLiteral token) part elements ∧ values = elements.map Token.value := by
  refine isList_map fun {part text} => ⟨?_, ?_⟩
  · rintro ⟨hliteral⟩
    exact ⟨_, ⟨rfl, hliteral⟩, rfl⟩
  · rintro ⟨token, ⟨rfl, hliteral⟩, rfl⟩
    exact .intro hliteral

section

variable {tokens rest : List Token}

theorem yields_names (ending : TokenKind) (hcomma : ending ≠ .comma)
    (hend : ending ≠ .endOfInput) {result : List Text} :
    Yields (Reader.names ending) tokens result rest ↔
      nextKind rest = ending ∧ ∃ part, tokens = part ++ rest ∧ IsList IsName part result := by
  simp only [Reader.names, yields_bind, yields_step, yields_pure, isList_name,
    reads_separated hcomma hend reads_name_element]
  constructor
  · rintro ⟨found, between, ⟨hnext, part, rfl, hpart⟩, rfl, rfl⟩
    exact ⟨hnext, part, rfl, found, hpart, rfl⟩
  · rintro ⟨hnext, part, rfl, found, hpart, rfl⟩
    exact ⟨found, rest, ⟨hnext, part, rfl, hpart⟩, rfl, rfl⟩

theorem yields_values {result : List Token} :
    Yields (Reader.step (readSeparated (readElement literalKinds) .rightParen)) tokens result
        rest ↔
      nextKind rest = .rightParen ∧ ∃ part, tokens = part ++ rest ∧
        IsList (fun part token => part = [token] ∧ IsLiteral token) part result := by
  rw [yields_step, reads_separated (by simp) (by simp) reads_literal_element]

theorem yields_assignments {result : List (Text × Text)} :
    Yields (Reader.step (readSeparated readAssignment (.keyword .whereWord))) tokens result
        rest ↔
      nextKind rest = .keyword .whereWord ∧ ∃ part, tokens = part ++ rest ∧
        IsList IsAssignment part result := by
  rw [yields_step, reads_separated (by simp) (by simp) reads_assignment]

/-! ## What is read is a form -/

theorem isForm_of_use {command : Command} (h : Yields Reader.use tokens command rest) :
    ∃ part, tokens = part ++ rest ∧ IsForm part command := by
  simp only [Reader.use, yields_bind, yields_keyword, yields_loweredName, yields_pure] at h
  obtain ⟨_, _, ⟨use, rfl, huse⟩, _, _, ⟨name, rfl, hname, rfl⟩, rfl, rfl⟩ := h
  exact ⟨[use, name], rfl, .use huse hname⟩

theorem isForm_of_create {command : Command} (h : Yields Reader.create tokens command rest) :
    ∃ part, tokens = part ++ rest ∧ IsForm part command := by
  simp only [Reader.create, yields_bind, yields_keyword, yields_oneOf, yields_name] at h
  obtain ⟨_, _, ⟨create, rfl, hcreate⟩, target, _, ⟨word, rfl, hword, htarget⟩, _, _,
    ⟨name, rfl, hname, rfl⟩, h⟩ := h
  split at h
  · rename_i hdatabase
    subst hdatabase
    obtain ⟨rfl, rfl⟩ := yields_pure.1 h
    exact ⟨[create, word, name], rfl, .createDatabase hcreate hword hname⟩
  · rename_i hdatabase
    obtain rfl : target = .table := htarget.resolve_left hdatabase
    simp only [yields_bind, yields_atKind] at h
    obtain ⟨bare, _, ⟨rfl, rfl⟩, h⟩ := h
    split at h
    · obtain ⟨rfl, rfl⟩ := yields_pure.1 h
      exact ⟨[create, word, name], rfl, .createBareTable hcreate hword hname⟩
    · simp only [yields_bind, yields_symbol, yields_names .rightParen (by simp)
        (by simp), yields_pure] at h
      obtain ⟨_, _, ⟨opening, rfl, hopening⟩, names, _, ⟨_, part, rfl, hpart⟩, _, _,
        ⟨closing, rfl, hclosing⟩, rfl, rfl⟩ := h
      exact ⟨create :: word :: name :: opening :: (part ++ [closing]), by simp,
        .createTable hcreate hword hname hopening hpart hclosing⟩

theorem isForm_of_drop {command : Command} (h : Yields Reader.drop tokens command rest) :
    ∃ part, tokens = part ++ rest ∧ IsForm part command := by
  simp only [Reader.drop, yields_bind, yields_keyword, yields_oneOf, yields_loweredName,
    yields_pure] at h
  obtain ⟨_, _, ⟨drop, rfl, hdrop⟩, target, _, ⟨word, rfl, hword, htarget⟩, _, _,
    ⟨name, rfl, hname, rfl⟩, rfl, rfl⟩ := h
  refine ⟨[drop, word, name], rfl, ?_⟩
  rcases htarget with rfl | rfl
  · exact .dropDatabase hdrop hword hname
  · exact .dropTable hdrop hword hname

theorem isForm_of_alter {command : Command} (h : Yields Reader.alter tokens command rest) :
    ∃ part, tokens = part ++ rest ∧ IsForm part command := by
  simp only [Reader.alter, yields_bind, yields_keyword, yields_oneOf, yields_loweredName,
    yields_name, yields_pure] at h
  obtain ⟨_, _, ⟨alter, rfl, halter⟩, _, _, ⟨table, rfl, htable⟩, _, _,
    ⟨name, rfl, hname, rfl⟩, change, _, ⟨word, rfl, hword, hchange⟩, _, _,
    ⟨column, rfl, hcolumn, rfl⟩, rfl, rfl⟩ := h
  refine ⟨[alter, table, name, word, column], rfl, ?_⟩
  rcases hchange with rfl | rfl
  · exact .addAttribute halter htable hname hword hcolumn
  · exact .dropAttribute halter htable hname hword hcolumn

theorem isForm_of_insert {command : Command} (h : Yields Reader.insert tokens command rest) :
    ∃ part, tokens = part ++ rest ∧ IsForm part command := by
  simp only [Reader.insert, yields_bind, yields_keyword, yields_loweredName, yields_symbol,
    yields_values, yields_pure] at h
  obtain ⟨_, _, ⟨insert, rfl, hinsert⟩, _, _, ⟨into, rfl, hinto⟩, _, _,
    ⟨name, rfl, hname, rfl⟩, _, _, ⟨values, rfl, hvalues⟩, _, _, ⟨opening, rfl, hopening⟩,
    elements, _, ⟨_, part, rfl, hpart⟩, _, _, ⟨closing, rfl, hclosing⟩, rfl, rfl⟩ := h
  exact ⟨insert :: into :: name :: values :: opening :: (part ++ [closing]), by simp,
    .insert hinsert hinto hname hvalues hopening (isList_value.2 ⟨elements, hpart, rfl⟩)
      hclosing⟩

theorem isColumns_of_columns {columns : Columns} (h : Yields Reader.columns tokens columns rest) :
    ∃ part, tokens = part ++ rest ∧ IsColumns part columns := by
  simp only [Reader.columns, yields_bind, yields_atKind] at h
  obtain ⟨_, _, ⟨rfl, rfl⟩, h⟩ := h
  split at h
  · simp only [yields_bind, yields_symbol, yields_pure] at h
    obtain ⟨_, _, ⟨asterisk, rfl, hasterisk⟩, rfl, rfl⟩ := h
    exact ⟨[asterisk], rfl, .all hasterisk⟩
  · simp only [yields_bind, yields_names (.keyword .fromWord) (by simp) (by simp),
      yields_pure] at h
    obtain ⟨names, _, ⟨_, part, rfl, hpart⟩, rfl, rfl⟩ := h
    exact ⟨part, rfl, .named hpart⟩

theorem isForm_of_select {command : Command} (h : Yields Reader.select tokens command rest) :
    ∃ part, tokens = part ++ rest ∧ IsForm part command := by
  simp only [Reader.select, yields_bind, yields_keyword, yields_loweredName, yields_atKind] at h
  obtain ⟨_, _, ⟨select, rfl, hselect⟩, columns, _, hcolumns, _, _, ⟨fromWord, rfl, hfrom⟩,
    _, _, ⟨name, rfl, hname, rfl⟩, _, _, ⟨rfl, rfl⟩, h⟩ := h
  obtain ⟨part, rfl, hpart⟩ := isColumns_of_columns hcolumns
  split at h
  · obtain ⟨rfl, rfl⟩ := yields_pure.1 h
    exact ⟨select :: (part ++ fromWord :: name :: []), by simp,
      .select hselect hpart hfrom hname .absent⟩
  · simp only [yields_bind, yields_keyword, yields_condition, yields_pure] at h
    obtain ⟨_, _, ⟨word, rfl, hword⟩, _, _, ⟨_, filter, rfl, hfilter⟩, rfl, rfl⟩ := h
    exact ⟨select :: (part ++ fromWord :: name :: word :: filter), by simp,
      .select hselect hpart hfrom hname (.present hword hfilter)⟩

theorem isForm_of_delete {command : Command} (h : Yields Reader.delete tokens command rest) :
    ∃ part, tokens = part ++ rest ∧ IsForm part command := by
  simp only [Reader.delete, yields_bind, yields_keyword, yields_loweredName, yields_condition,
    yields_pure] at h
  obtain ⟨_, _, ⟨delete, rfl, hdelete⟩, _, _, ⟨fromWord, rfl, hfrom⟩, _, _,
    ⟨name, rfl, hname, rfl⟩, _, _, ⟨word, rfl, hword⟩, _, _, ⟨_, part, rfl, hpart⟩,
    rfl, rfl⟩ := h
  exact ⟨delete :: fromWord :: name :: word :: part, rfl,
    .delete hdelete hfrom hname hword hpart⟩

theorem isForm_of_update {command : Command} (h : Yields Reader.update tokens command rest) :
    ∃ part, tokens = part ++ rest ∧ IsForm part command := by
  simp only [Reader.update, yields_bind, yields_keyword, yields_loweredName,
    yields_assignments, yields_condition, yields_pure] at h
  obtain ⟨_, _, ⟨update, rfl, hupdate⟩, _, _, ⟨name, rfl, hname, rfl⟩, _, _,
    ⟨set, rfl, hset⟩, assignments, _, ⟨_, part, rfl, hpart⟩, _, _, ⟨word, rfl, hword⟩, _, _,
    ⟨_, filter, rfl, hfilter⟩, rfl, rfl⟩ := h
  exact ⟨update :: name :: set :: (part ++ word :: filter), by simp,
    .update hupdate hname hset hpart hword hfilter⟩

theorem isForm_of_join {command : Command} (h : Yields Reader.join tokens command rest) :
    ∃ part, tokens = part ++ rest ∧ IsForm part command := by
  simp only [Reader.join, yields_bind, yields_keyword, yields_loweredName, yields_name,
    yields_pure] at h
  obtain ⟨_, _, ⟨join, rfl, hjoin⟩, _, _, ⟨left, rfl, hleft, rfl⟩, _, _, ⟨and, rfl, hand⟩,
    _, _, ⟨right, rfl, hright, rfl⟩, _, _, ⟨on, rfl, hon⟩, _, _,
    ⟨leftColumn, rfl, hleftColumn, rfl⟩, _, _, ⟨also, rfl, halso⟩, _, _,
    ⟨rightColumn, rfl, hrightColumn, rfl⟩, rfl, rfl⟩ := h
  exact ⟨[join, left, and, right, on, leftColumn, also, rightColumn], rfl,
    .join hjoin hleft hand hright hon hleftColumn halso hrightColumn⟩

theorem isForm_of_command {command : Command} (h : Yields Reader.command tokens command rest) :
    ∃ part, tokens = part ++ rest ∧ IsForm part command := by
  unfold Yields Reader.command at h
  simp only [StateT.run] at h
  split at h
  · exact isForm_of_use h
  · exact isForm_of_create h
  · exact isForm_of_drop h
  · exact isForm_of_alter h
  · exact isForm_of_insert h
  · exact isForm_of_select h
  · exact isForm_of_delete h
  · exact isForm_of_update h
  · exact isForm_of_join h
  · cases h

/-! ## Forms are read -/

theorem endsChain_of_semicolon (hrest : nextKind rest = .semicolon) : EndsChain rest := by
  simp [EndsChain, hrest, connective?]

theorem yields_columns {part : List Token} {columns : Columns} (hpart : IsColumns part columns)
    (hrest : nextKind rest = .keyword .fromWord) :
    Yields Reader.columns (part ++ rest) columns rest := by
  cases hpart with
  | all hasterisk =>
      simp only [Reader.columns, yields_bind, yields_atKind]
      refine ⟨_, _, ⟨rfl, rfl⟩, ?_⟩
      rw [if_pos (by simp [nextKind, hasterisk])]
      simp only [yields_bind, yields_symbol, yields_pure]
      exact ⟨(), _, ⟨_, rfl, hasterisk⟩, trivial, rfl⟩
  | named hnames =>
      simp only [Reader.columns, yields_bind, yields_atKind]
      refine ⟨_, _, ⟨rfl, rfl⟩, ?_⟩
      rw [if_neg]
      · simp only [yields_bind, yields_names (.keyword .fromWord) (by simp) (by simp),
          yields_pure]
        exact ⟨_, _, ⟨hrest, part, rfl, hnames⟩, rfl, rfl⟩
      · cases hnames with
        | single hfirst =>
            cases hfirst with
            | intro hname => simp [nextKind, hname]
        | more hfirst hcomma hothers =>
            cases hfirst with
            | intro hname => simp [nextKind, hname]

theorem yields_create_database {create database name : Token}
    (hcreate : create.kind = .keyword .create) (hdatabase : database.kind = .keyword .database)
    (hname : name.kind = .identifier) :
    Yields Reader.create (create :: database :: name :: rest)
      (.createDatabase name.text.lower) rest := by
  simp only [Reader.create, yields_bind, yields_keyword, yields_oneOf, yields_name]
  refine ⟨(), _, ⟨create, rfl, hcreate⟩, .database, _, ⟨database, rfl, hdatabase, .inl rfl⟩,
    _, _, ⟨name, rfl, hname, rfl⟩, ?_⟩
  exact yields_pure.2 ⟨rfl, rfl⟩

theorem yields_create_bare_table {create table name : Token}
    (hcreate : create.kind = .keyword .create) (htable : table.kind = .keyword .table)
    (hname : name.kind = .identifier) (hrest : nextKind rest = .semicolon) :
    Yields Reader.create (create :: table :: name :: rest)
      (.createTable name.text.lower [] name.text) rest := by
  simp only [Reader.create, yields_bind, yields_keyword, yields_oneOf, yields_name]
  refine ⟨(), _, ⟨create, rfl, hcreate⟩, .table, _, ⟨table, rfl, htable, .inr rfl⟩,
    _, _, ⟨name, rfl, hname, rfl⟩, ?_⟩
  rw [if_neg (by simp)]
  simp only [yields_bind, yields_atKind]
  refine ⟨_, _, ⟨rfl, rfl⟩, ?_⟩
  rw [if_pos (by simpa using hrest)]
  exact yields_pure.2 ⟨rfl, rfl⟩

theorem yields_create_table {create table name opening closing : Token} {part : List Token}
    {names : List Text} (hcreate : create.kind = .keyword .create)
    (htable : table.kind = .keyword .table) (hname : name.kind = .identifier)
    (hopening : opening.kind = .leftParen) (hnames : IsList IsName part names)
    (hclosing : closing.kind = .rightParen) :
    Yields Reader.create (create :: table :: name :: opening :: (part ++ closing :: rest))
      (.createTable name.text.lower names name.text) rest := by
  simp only [Reader.create, yields_bind, yields_keyword, yields_oneOf, yields_name]
  refine ⟨(), _, ⟨create, rfl, hcreate⟩, .table, _, ⟨table, rfl, htable, .inr rfl⟩,
    _, _, ⟨name, rfl, hname, rfl⟩, ?_⟩
  rw [if_neg (by simp)]
  simp only [yields_bind, yields_atKind]
  refine ⟨_, _, ⟨rfl, rfl⟩, ?_⟩
  rw [if_neg (by simp [nextKind, hopening])]
  simp only [yields_bind, yields_symbol, yields_names .rightParen (by simp)
    (by simp), yields_pure]
  exact ⟨(), _, ⟨opening, rfl, hopening⟩, names, closing :: rest, ⟨hclosing, part, rfl, hnames⟩,
    (), _, ⟨closing, rfl, hclosing⟩, rfl, rfl⟩

theorem yields_drop {drop word name : Token} {target : Keyword}
    (hdrop : drop.kind = .keyword .drop) (hword : word.kind = .keyword target)
    (htarget : target = .database ∨ target = .table) (hname : name.kind = .identifier) :
    Yields Reader.drop (drop :: word :: name :: rest)
      (if target = .database then .dropDatabase name.text.lower
        else .dropTable name.text.lower) rest := by
  simp only [Reader.drop, yields_bind, yields_keyword, yields_oneOf, yields_loweredName,
    yields_pure]
  exact ⟨(), _, ⟨drop, rfl, hdrop⟩, target, _, ⟨word, rfl, hword, htarget⟩, _, _,
    ⟨name, rfl, hname, rfl⟩, rfl, rfl⟩

theorem yields_alter {alter table name word column : Token} {change : Keyword}
    (halter : alter.kind = .keyword .alter) (htable : table.kind = .keyword .table)
    (hname : name.kind = .identifier) (hword : word.kind = .keyword change)
    (hchange : change = .add ∨ change = .drop) (hcolumn : column.kind = .identifier) :
    Yields Reader.alter (alter :: table :: name :: word :: column :: rest)
      (if change = .add then .addAttribute name.text.lower column.text
        else .dropAttribute name.text.lower column.text) rest := by
  simp only [Reader.alter, yields_bind, yields_keyword, yields_oneOf, yields_loweredName,
    yields_name, yields_pure]
  exact ⟨(), _, ⟨alter, rfl, halter⟩, (), _, ⟨table, rfl, htable⟩, _, _,
    ⟨name, rfl, hname, rfl⟩, change, _, ⟨word, rfl, hword, hchange⟩, _, _,
    ⟨column, rfl, hcolumn, rfl⟩, rfl, rfl⟩

theorem yields_insert {insert into name values opening closing : Token} {part : List Token}
    {contents : List Text} (hinsert : insert.kind = .keyword .insert)
    (hinto : into.kind = .keyword .into) (hname : name.kind = .identifier)
    (hvalues : values.kind = .keyword .values) (hopening : opening.kind = .leftParen)
    (hcontents : IsList IsValue part contents) (hclosing : closing.kind = .rightParen) :
    Yields Reader.insert
      (insert :: into :: name :: values :: opening :: (part ++ closing :: rest))
      (.insert name.text.lower contents) rest := by
  obtain ⟨elements, helements, rfl⟩ := isList_value.1 hcontents
  simp only [Reader.insert, yields_bind, yields_keyword, yields_loweredName, yields_symbol,
    yields_values, yields_pure]
  exact ⟨(), _, ⟨insert, rfl, hinsert⟩, (), _, ⟨into, rfl, hinto⟩, _, _,
    ⟨name, rfl, hname, rfl⟩, (), _, ⟨values, rfl, hvalues⟩, (), _, ⟨opening, rfl, hopening⟩,
    elements, closing :: rest, ⟨hclosing, part, rfl, helements⟩, (), _,
    ⟨closing, rfl, hclosing⟩, rfl, rfl⟩

theorem yields_select {select fromWord name : Token} {part later : List Token}
    {columns : Columns} {filter : Option Condition} (hselect : select.kind = .keyword .select)
    (hcolumns : IsColumns part columns) (hfrom : fromWord.kind = .keyword .fromWord)
    (hname : name.kind = .identifier) (hfilter : IsFilter later filter)
    (hrest : nextKind rest = .semicolon) :
    Yields Reader.select (select :: (part ++ fromWord :: name :: (later ++ rest)))
      (.select columns name.text.lower filter) rest := by
  simp only [Reader.select, yields_bind, yields_keyword, yields_loweredName, yields_atKind]
  refine ⟨(), _, ⟨select, rfl, hselect⟩, columns, fromWord :: name :: (later ++ rest),
    yields_columns hcolumns hfrom, (), _, ⟨fromWord, rfl, hfrom⟩, _, _, ⟨name, rfl, hname, rfl⟩,
    _, _, ⟨rfl, rfl⟩, ?_⟩
  cases hfilter with
  | absent =>
      rw [if_pos (by simpa using hrest)]
      exact yields_pure.2 ⟨rfl, rfl⟩
  | present hword hcondition =>
      rename_i word tokens condition
      rw [if_neg (by simp [nextKind, hword])]
      simp only [yields_bind, yields_keyword, yields_condition, yields_pure]
      exact ⟨(), _, ⟨word, rfl, hword⟩, condition, rest,
        ⟨endsChain_of_semicolon hrest, tokens, rfl, hcondition⟩, rfl, rfl⟩

theorem yields_delete {delete fromWord name word : Token} {part : List Token}
    {condition : Condition} (hdelete : delete.kind = .keyword .delete)
    (hfrom : fromWord.kind = .keyword .fromWord) (hname : name.kind = .identifier)
    (hword : word.kind = .keyword .whereWord) (hcondition : IsCondition part condition)
    (hrest : nextKind rest = .semicolon) :
    Yields Reader.delete (delete :: fromWord :: name :: word :: (part ++ rest))
      (.delete name.text.lower condition) rest := by
  simp only [Reader.delete, yields_bind, yields_keyword, yields_loweredName, yields_condition,
    yields_pure]
  exact ⟨(), _, ⟨delete, rfl, hdelete⟩, (), _, ⟨fromWord, rfl, hfrom⟩, _, _,
    ⟨name, rfl, hname, rfl⟩, (), _, ⟨word, rfl, hword⟩, condition, rest,
    ⟨endsChain_of_semicolon hrest, part, rfl, hcondition⟩, rfl, rfl⟩

theorem yields_update {update name set word : Token} {part later : List Token}
    {assignments : List (Text × Text)} {condition : Condition}
    (hupdate : update.kind = .keyword .update) (hname : name.kind = .identifier)
    (hset : set.kind = .keyword .set) (hassignments : IsList IsAssignment part assignments)
    (hword : word.kind = .keyword .whereWord) (hcondition : IsCondition later condition)
    (hrest : nextKind rest = .semicolon) :
    Yields Reader.update (update :: name :: set :: (part ++ word :: (later ++ rest)))
      (.update name.text.lower (Assoc.ofList assignments) condition) rest := by
  simp only [Reader.update, yields_bind, yields_keyword, yields_loweredName,
    yields_assignments, yields_condition, yields_pure]
  exact ⟨(), _, ⟨update, rfl, hupdate⟩, _, _, ⟨name, rfl, hname, rfl⟩, (), _, ⟨set, rfl, hset⟩,
    assignments, word :: (later ++ rest), ⟨hword, part, rfl, hassignments⟩, (), _,
    ⟨word, rfl, hword⟩, condition, rest,
    ⟨endsChain_of_semicolon hrest, later, rfl, hcondition⟩, rfl, rfl⟩

theorem yields_command_iff (reader : Reader Command) {command : Command} {first : Token}
    {word : Keyword} (hfirst : first.kind = .keyword word)
    (hreader : ∀ tokens, nextKind tokens = .keyword word → Reader.command tokens = reader tokens) :
    Yields Reader.command (first :: tokens) command rest ↔
      Yields reader (first :: tokens) command rest := by
  unfold Yields StateT.run
  rw [hreader (first :: tokens) hfirst]

theorem yields_command {part : List Token} {command : Command} (hpart : IsForm part command)
    (hrest : nextKind rest = .semicolon) : Yields Reader.command (part ++ rest) command rest := by
  cases hpart with
  | use huse hname =>
      rename_i use name
      refine (yields_command_iff Reader.use huse fun _ h => by
        simp only [Reader.command, h]).2 ?_
      simp only [Reader.use, yields_bind, yields_keyword, yields_loweredName, yields_pure]
      exact ⟨(), _, ⟨use, rfl, huse⟩, _, _, ⟨name, rfl, hname, rfl⟩, rfl, rfl⟩
  | createDatabase hcreate hdatabase hname =>
      exact (yields_command_iff Reader.create hcreate fun _ h => by
        simp only [Reader.command, h]).2 (yields_create_database hcreate hdatabase hname)
  | createBareTable hcreate htable hname =>
      exact (yields_command_iff Reader.create hcreate fun _ h => by
        simp only [Reader.command, h]).2 (yields_create_bare_table hcreate htable hname hrest)
  | createTable hcreate htable hname hopening hnames hclosing =>
      refine (yields_command_iff Reader.create hcreate fun _ h => by
        simp only [Reader.command, h]).2 ?_
      simpa using yields_create_table hcreate htable hname hopening hnames hclosing
  | dropDatabase hdrop hdatabase hname =>
      exact (yields_command_iff Reader.drop hdrop fun _ h => by
        simp only [Reader.command, h]).2 (yields_drop hdrop hdatabase (.inl rfl) hname)
  | dropTable hdrop htable hname =>
      exact (yields_command_iff Reader.drop hdrop fun _ h => by
        simp only [Reader.command, h]).2 (yields_drop hdrop htable (.inr rfl) hname)
  | addAttribute halter htable hname hadd hcolumn =>
      exact (yields_command_iff Reader.alter halter fun _ h => by
        simp only [Reader.command, h]).2 (yields_alter halter htable hname hadd (.inl rfl) hcolumn)
  | dropAttribute halter htable hname hdrop hcolumn =>
      exact (yields_command_iff Reader.alter halter fun _ h => by
        simp only [Reader.command, h]).2
          (yields_alter halter htable hname hdrop (.inr rfl) hcolumn)
  | insert hinsert hinto hname hvalues hopening hcontents hclosing =>
      refine (yields_command_iff Reader.insert hinsert fun _ h => by
        simp only [Reader.command, h]).2 ?_
      simpa using yields_insert hinsert hinto hname hvalues hopening hcontents hclosing
  | select hselect hcolumns hfrom hname hfilter =>
      refine (yields_command_iff Reader.select hselect fun _ h => by
        simp only [Reader.command, h]).2 ?_
      simpa using yields_select hselect hcolumns hfrom hname hfilter hrest
  | delete hdelete hfrom hname hwhere hcondition =>
      exact (yields_command_iff Reader.delete hdelete fun _ h => by
        simp only [Reader.command, h]).2
          (yields_delete hdelete hfrom hname hwhere hcondition hrest)
  | update hupdate hname hset hassignments hwhere hcondition =>
      refine (yields_command_iff Reader.update hupdate fun _ h => by
        simp only [Reader.command, h]).2 ?_
      simpa using yields_update hupdate hname hset hassignments hwhere hcondition hrest
  | join hjoin hleft hand hright hon hleftColumn halso hrightColumn =>
      rename_i join left and right on leftColumn also rightColumn
      refine (yields_command_iff Reader.join hjoin fun _ h => by
        simp only [Reader.command, h]).2 ?_
      simp only [Reader.join, yields_bind, yields_keyword, yields_loweredName, yields_name,
        yields_pure]
      exact ⟨(), _, ⟨join, rfl, hjoin⟩, _, _, ⟨left, rfl, hleft, rfl⟩, (), _, ⟨and, rfl, hand⟩,
        _, _, ⟨right, rfl, hright, rfl⟩, (), _, ⟨on, rfl, hon⟩, _, _,
        ⟨leftColumn, rfl, hleftColumn, rfl⟩, (), _, ⟨also, rfl, halso⟩, _, _,
        ⟨rightColumn, rfl, hrightColumn, rfl⟩, rfl, rfl⟩

/-! ## Whole lists of tokens -/

theorem yields_whole {command : Command} :
    (∃ rest, Yields Reader.whole tokens command rest) ↔
      ∃ part semicolon last later, tokens = part ++ semicolon :: last :: later ∧
        IsForm part command ∧ semicolon.kind = .semicolon ∧ last.kind = .endOfInput := by
  simp only [Reader.whole, yields_bind, yields_symbol, yields_pure]
  constructor
  · rintro ⟨rest, found, between, hfound, _, _, ⟨semicolon, rfl, hsemicolon⟩, _, _,
      ⟨last, rfl, hlast⟩, rfl, rfl⟩
    obtain ⟨part, rfl, hpart⟩ := isForm_of_command hfound
    exact ⟨part, semicolon, last, rest, rfl, hpart, hsemicolon, hlast⟩
  · rintro ⟨part, semicolon, last, later, rfl, hpart, hsemicolon, hlast⟩
    exact ⟨later, command, semicolon :: last :: later, yields_command hpart hsemicolon, (), _,
      ⟨semicolon, rfl, hsemicolon⟩, (), _, ⟨last, rfl, hlast⟩, rfl, rfl⟩

theorem exists_yields_whole_iff {body : List Token} {last : Token} {command : Command}
    (hbody : ∀ token ∈ body, token.kind ≠ .endOfInput) :
    (∃ rest, Yields Reader.whole (body ++ [last]) command rest) ↔
      IsCommand (body ++ [last]) command := by
  rw [yields_whole]
  constructor
  · rintro ⟨part, semicolon, final, later, htokens, hpart, hsemicolon, hfinal⟩
    have hlater : later = [] := by
      rcases List.eq_nil_or_concat later with rfl | ⟨front, other, rfl⟩
      · rfl
      · have hsplit : body ++ [last] = (part ++ semicolon :: final :: front) ++ [other] := by
          simpa using htokens
        have hfront := List.append_inj_left' hsplit rfl
        exact absurd hfinal (hbody final (by simp [hfront]))
    subst hlater
    rw [htokens]
    exact .intro hpart hsemicolon hfinal
  · intro h
    generalize htokens : body ++ [last] = tokens at h
    cases h with
    | intro hform hsemicolon hfinal => exact ⟨_, _, _, [], rfl, hform, hsemicolon, hfinal⟩

/-! ## The exact grammar -/

theorem ofTokens_eq_ok_iff {body : List Token} {last : Token} (hlast : last.kind = .endOfInput)
    (hbody : ∀ token ∈ body, token.kind ≠ .endOfInput) {command : Command} :
    Command.ofTokens (body ++ [last]) = .ok command ↔ IsCommand (body ++ [last]) command := by
  rw [← exists_yields_whole_iff hbody]
  simp only [Command.ofTokens, List.getLast?_concat, Option.map_some, hlast, if_true, Yields]
  cases hrun : Reader.whole.run (body ++ [last]) with
  | error fault => simp [Except.map]
  | ok found =>
      obtain ⟨result, rest⟩ := found
      simp [Except.map]

/-- Where the end of the input stands at the end and nowhere else, a list of tokens is read
as a command exactly if the grammar derives that command from it; every other list is a
fault of the query or of a list in it. -/
theorem ofTokens_iff_isCommand (body : List Token) (last : Token)
    (hlast : last.kind = .endOfInput) (hbody : ∀ token ∈ body, token.kind ≠ .endOfInput) :
    (∀ command, Command.ofTokens (body ++ [last]) = .ok command ↔
        IsCommand (body ++ [last]) command) ∧
      ((¬∃ command, IsCommand (body ++ [last]) command) →
        ∃ fault, Command.ofTokens (body ++ [last]) = .error fault ∧
          ((∃ cause, DbError.ofReadFault fault = .invalidQuery cause) ∨
            ∃ cause, DbError.ofReadFault fault = .invalidList cause)) := by
  refine ⟨fun command => ofTokens_eq_ok_iff hlast hbody, fun hnone => ?_⟩
  cases hresult : Command.ofTokens (body ++ [last]) with
  | ok command => exact absurd ⟨command, (ofTokens_eq_ok_iff hlast hbody).1 hresult⟩ hnone
  | error fault =>
      refine ⟨fault, rfl, ?_⟩
      cases fault with
      | query cause => exact .inl ⟨cause, rfl⟩
      | list cause => exact .inr ⟨cause, rfl⟩

def nestedDeletion : List Token :=
  (Token.scan "DELETE FROM t WHERE a == 1 OR (b < 2 AND (c LIKE 'x y')) AND d != null;".toList).dropLast

theorem nestedDeletion_isCommand :
    (∀ token ∈ nestedDeletion, token.kind ≠ .endOfInput) ∧
      IsCommand (nestedDeletion ++ [Token.endOfInput])
        (.delete ['t']
          (.joined
            (.joined (.leaf ⟨['a'], .equal, ['1']⟩) .or
              (.joined (.leaf ⟨['b'], .less, ['2']⟩) .and
                (.leaf ⟨['c'], .like, ['x', ' ', 'y']⟩)))
            .and (.leaf ⟨['d'], .notEqual, "null".toList⟩))) := by
  have hbody : ∀ token ∈ nestedDeletion, token.kind ≠ .endOfInput := by decide +kernel
  refine ⟨hbody, ((ofTokens_iff_isCommand nestedDeletion .endOfInput rfl hbody).1 _).1 ?_⟩
  decide +kernel

end

end Relbase.Grammar
