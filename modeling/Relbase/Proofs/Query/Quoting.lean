import Mathlib.Algebra.Ring.Parity
import Relbase.Proofs.Query.RoundTrip
import Relbase.Proofs.Query.Substitution

/-!
# What stands between quotes

A text between quotes is one literal whatever it holds, and nothing around it is read
differently.  A text that occurs nowhere else marks the literal: reading a command with
the mark in its place and then putting another text there is the same as reading the
command with the other text.
-/

namespace Relbase

/-! ## Scanning -/

namespace Token

/-- A piece at an even place is a quoted text, and the pieces behind it begin outside quotes
again. -/
theorem splitPieces_append {front back : List Text} (hfront : front.length % 2 = 1)
    (hback : back ≠ []) (inside : Text) :
    splitPieces (front ++ inside :: back) =
      splitPieces front ++ ('\x27' :: inside ++ ['\x27']) :: splitPieces back := by
  induction front using splitPieces.induct with
  | case1 => cases hfront
  | case2 outside =>
      obtain ⟨next, later, rfl⟩ := List.exists_cons_of_ne_nil hback
      rfl
  | case3 outside unclosed => simp at hfront
  | case4 outside other rest hrest ih =>
      have hodd : rest.length % 2 = 1 := by
        simp only [List.length_cons] at hfront
        omega
      obtain ⟨next, later, rfl⟩ : ∃ next later, rest = next :: later :=
        List.exists_cons_of_ne_nil fun hnil => by simp [hnil] at hodd
      have hih := ih hodd
      simp only [List.cons_append] at hih ⊢
      rw [splitPieces, splitPieces, hih]
      · simp
      · simp
      · simp

def quoted (value : Text) : Token :=
  ⟨.literal .text, '\x27' :: value ++ ['\x27']⟩

theorem ofRaw_quoted (value : Text) : ofRaw ('\x27' :: value ++ ['\x27']) = quoted value := by
  rw [ofRaw, List.cons_append, Spelling.classify_quote, ← List.cons_append,
    Spelling.isQuoted_quoted]
  rfl

theorem isLiteral_quoted (value : Text) : Grammar.IsLiteral (quoted value) :=
  ⟨.text, rfl⟩

theorem value_quoted (value : Text) : (quoted value).value = value.trim := by
  rw [← ofRaw_quoted]
  exact (Spelling.value_quoted value).2

/-- Around a quoted text the tokens do not depend on it. -/
theorem scan_around_quoted (before after : Text) (heven : Even (before.count '\x27')) :
    ∃ front back, ∀ value : Text, '\x27' ∉ value →
      scan (before ++ '\x27' :: value ++ '\x27' :: after) =
        front ++ quoted value :: back := by
  have hblank : Text.isBlank '\x27' = false := by decide
  refine ⟨(splitPieces (Text.splitOn '\x27' (Text.trimStart before))).map ofRaw,
    (splitPieces (Text.splitOn '\x27' (Text.trimEnd after))).map ofRaw ++ [endOfInput], ?_⟩
  intro value hvalue
  have htrim : (before ++ '\x27' :: value ++ '\x27' :: after).trim =
      Text.trimStart before ++ '\x27' :: (value ++ '\x27' :: Text.trimEnd after) := by
    rw [Text.trim, List.append_assoc, List.cons_append, Text.trimStart_append_cons hblank,
      ← List.cons_append, ← List.append_assoc, Text.trimEnd_append_cons hblank, List.append_assoc,
      List.cons_append]
  have hodd : (Text.splitOn '\x27' (Text.trimStart before)).length % 2 = 1 := by
    rw [Text.length_splitOn, Text.count_trimStart hblank]
    rw [Nat.even_iff] at heven
    omega
  rw [scan, splitRaw, htrim, Text.splitOn_append_separator, Text.splitOn_append_cons hvalue,
    splitPieces_append hodd (Text.splitOn_ne_nil _ _),
    List.map_append, List.map_cons, ofRaw_quoted]
  simp

end Token

/-! ## Literals of a command -/

def Condition.literals (condition : Condition) : List Text :=
  condition.leaves.map Comparison.literal

def Command.literals : Command → List Text
  | .insert _ values => values
  | .select _ _ condition => (condition.map Condition.literals).getD []
  | .delete _ condition => condition.literals
  | .update _ assignments condition => assignments.map Prod.snd ++ condition.literals
  | _ => []

/-- A command with all its literals replaced by the empty text. -/
def Command.erased (command : Command) : Command :=
  command.mapTexts id fun _ => []

@[simp] theorem Condition.literals_leaf (comparison : Comparison) :
    Condition.literals (.leaf comparison) = [comparison.literal] :=
  rfl

@[simp] theorem Condition.literals_joined (left right : Condition) (connective : Connective) :
    Condition.literals (.joined left connective right) = left.literals ++ right.literals :=
  List.map_append

theorem Condition.literals_mapTexts (rename revalue : Text → Text) (condition : Condition) :
    (condition.mapTexts rename revalue).literals = condition.literals.map revalue := by
  induction condition with
  | leaf comparison => rfl
  | joined left connective right ihLeft ihRight => simp [ihLeft, ihRight]

theorem Condition.mapTexts_congr (rename : Text → Text) {first second : Text → Text}
    {condition : Condition} (h : ∀ literal ∈ condition.literals, first literal = second literal) :
    condition.mapTexts rename first = condition.mapTexts rename second := by
  induction condition with
  | leaf comparison => simp_all [Comparison.mapTexts]
  | joined left connective right ihLeft ihRight =>
      rw [Condition.literals_joined, List.forall_mem_append] at h
      simp [ihLeft h.1, ihRight h.2]

theorem Condition.mapTexts_mapTexts (rename revalue other : Text → Text) (condition : Condition) :
    (condition.mapTexts rename revalue).mapTexts id other =
      condition.mapTexts rename (other ∘ revalue) := by
  induction condition with
  | leaf comparison => rfl
  | joined left connective right ihLeft ihRight => simp [ihLeft, ihRight]

namespace Command

theorem literals_mapTexts (rename revalue : Text → Text) (command : Command) :
    (command.mapTexts rename revalue).literals = command.literals.map revalue := by
  cases command with
  | select columns table condition =>
      cases condition with
      | none => rfl
      | some condition => exact condition.literals_mapTexts rename revalue
  | delete table condition => exact condition.literals_mapTexts rename revalue
  | update table assignments condition =>
      simp [mapTexts, literals, Condition.literals_mapTexts]
  | _ => rfl

theorem mapTexts_congr (rename : Text → Text) {first second : Text → Text} {command : Command}
    (h : ∀ literal ∈ command.literals, first literal = second literal) :
    command.mapTexts rename first = command.mapTexts rename second := by
  cases command with
  | insert table values => exact congrArg (Command.insert table) (List.map_congr_left h)
  | select columns table condition =>
      cases condition with
      | none => rfl
      | some condition => simp [mapTexts, Condition.mapTexts_congr rename h]
  | delete table condition => simp [mapTexts, Condition.mapTexts_congr rename h]
  | update table assignments condition =>
      rw [literals, List.forall_mem_append, List.forall_mem_map] at h
      simp only [mapTexts, Condition.mapTexts_congr rename h.2]
      congr 1
      exact List.map_congr_left fun assignment hassignment => by rw [h.1 _ hassignment]
  | _ => rfl

theorem erased_mapTexts (revalue : Text → Text) (command : Command) :
    (command.mapTexts id revalue).erased = command.erased := by
  cases command with
  | select columns table condition =>
      cases columns <;> cases condition <;>
        simp [erased, mapTexts, Columns.mapNames, Condition.mapTexts_mapTexts, Function.comp_def]
  | _ => simp [erased, mapTexts, Condition.mapTexts_mapTexts, Function.comp_def]

end Command

/-! ## Where the literals of a command come from -/

namespace Grammar

def literalValues (tokens : List Token) : List Text :=
  (tokens.filter fun token => token.kind ∈ literalKinds).map Token.value

@[simp] theorem literalValues_nil : literalValues [] = [] :=
  rfl

@[simp] theorem literalValues_append (tokens later : List Token) :
    literalValues (tokens ++ later) = literalValues tokens ++ literalValues later := by
  simp [literalValues]

theorem literalValues_literal {token : Token} (h : IsLiteral token) (rest : List Token) :
    literalValues (token :: rest) = token.value :: literalValues rest := by
  simp [literalValues, mem_literalKinds.2 h]

theorem literalValues_other {token : Token} {kind : TokenKind} (h : token.kind = kind)
    (hkind : kind ∉ literalKinds) (rest : List Token) :
    literalValues (token :: rest) = literalValues rest := by
  simp [literalValues, h, hkind]

theorem values_eq_literalValues {tokens : List Token} {values : List Text}
    (h : IsList IsValue tokens values) : values = literalValues tokens := by
  induction h with
  | single hfirst =>
      obtain ⟨hliteral⟩ := hfirst
      rw [literalValues_literal hliteral, literalValues_nil]
  | more hfirst hcomma _ ih =>
      obtain ⟨hliteral⟩ := hfirst
      rw [List.singleton_append, literalValues_literal hliteral,
        literalValues_other hcomma (by decide), ← ih]

theorem assignments_eq_literalValues {tokens : List Token} {assignments : List (Text × Text)}
    (h : IsList IsAssignment tokens assignments) :
    assignments.map Prod.snd = literalValues tokens := by
  induction h with
  | single hfirst =>
      obtain ⟨hname, hsign, hliteral⟩ := hfirst
      rw [literalValues_other hname (by decide), literalValues_other hsign (by decide),
        literalValues_literal hliteral]
      rfl
  | more hfirst hcomma _ ih =>
      obtain ⟨hname, hsign, hliteral⟩ := hfirst
      rw [List.cons_append, List.cons_append, List.cons_append, List.nil_append,
        literalValues_other hname (by decide), literalValues_other hsign (by decide),
        literalValues_literal hliteral, literalValues_other hcomma (by decide), ← ih]
      rfl

theorem literals_joinLinks (first : Condition) (links : List (Connective × Condition)) :
    (joinLinks first links).literals =
      first.literals ++ links.flatMap fun link => link.2.literals := by
  induction links generalizing first with
  | nil => simp [joinLinks]
  | cons link links ih =>
      rw [List.flatMap_cons, ← List.append_assoc,
        ← Condition.literals_joined first link.2 link.1]
      exact ih (.joined first link.1 link.2)

mutual

theorem literals_of_isUnit {tokens : List Token} {condition : Condition}
    (h : IsUnit tokens condition) : condition.literals = literalValues tokens := by
  cases h with
  | comparison hname hsign hliteral =>
      rw [literalValues_other hname (by decide),
        literalValues_other hsign (by simp [literalKinds]), literalValues_literal hliteral]
      rfl
  | group hopening hclosing hcondition =>
      rw [literalValues_other hopening (by decide), literalValues_append,
        literalValues_other hclosing (by decide), literalValues_nil, List.append_nil]
      exact literals_of_isCondition hcondition
termination_by 3 * tokens.length

theorem literals_of_isLinks {tokens : List Token} {links : List (Connective × Condition)}
    (h : IsLinks tokens links) :
    (links.flatMap fun link => link.2.literals) = literalValues tokens := by
  cases h with
  | nil => rfl
  | cons hword hright hlinks =>
      rw [literalValues_other hword (by simp [literalKinds]), literalValues_append,
        List.flatMap_cons, literals_of_isUnit hright, literals_of_isLinks hlinks]
termination_by 3 * tokens.length + 1

theorem literals_of_isCondition {tokens : List Token} {condition : Condition}
    (h : IsCondition tokens condition) : condition.literals = literalValues tokens := by
  cases h with
  | intro hfirst hlinks =>
      rw [literals_joinLinks, literalValues_append, literals_of_isUnit hfirst,
        literals_of_isLinks hlinks]
termination_by 3 * tokens.length + 2

end

theorem literals_subperm_of_isForm {tokens : List Token} {command : Command}
    (h : IsForm tokens command) : command.literals.Subperm (literalValues tokens) := by
  cases h with
  | insert hinsert hinto hname hvalues hopening hcontents hclosing =>
      rw [literalValues_other hinsert (by decide), literalValues_other hinto (by decide),
        literalValues_other hname (by decide), literalValues_other hvalues (by decide),
        literalValues_other hopening (by decide), literalValues_append,
        ← values_eq_literalValues hcontents]
      exact (List.sublist_append_left _ _).subperm
  | select hselect hcolumns hfrom hname hfilter =>
      rw [literalValues_other hselect (by decide), literalValues_append,
        literalValues_other hfrom (by decide), literalValues_other hname (by decide)]
      refine .trans ?_ (List.sublist_append_right _ _).subperm
      cases hfilter with
      | absent => exact List.nil_subperm
      | present hword hcondition =>
          rw [literalValues_other hword (by decide), ← literals_of_isCondition hcondition]
          exact .refl _
  | delete hdelete hfrom hname hwhere hcondition =>
      rw [literalValues_other hdelete (by decide), literalValues_other hfrom (by decide),
        literalValues_other hname (by decide), literalValues_other hwhere (by decide),
        ← literals_of_isCondition hcondition]
      exact .refl _
  | update hupdate hname hset hassignments hwhere hcondition =>
      rw [literalValues_other hupdate (by decide), literalValues_other hname (by decide),
        literalValues_other hset (by decide), literalValues_append,
        literalValues_other hwhere (by decide), ← literals_of_isCondition hcondition,
        ← assignments_eq_literalValues hassignments]
      exact (List.subperm_append_right _).2 (Assoc.values_ofList_subperm _)
  | _ => exact List.nil_subperm

theorem literals_subperm_of_isCommand {tokens : List Token} {command : Command}
    (h : IsCommand tokens command) : command.literals.Subperm (literalValues tokens) := by
  cases h with
  | intro hform hsemicolon hlast =>
      rw [literalValues_append]
      exact (literals_subperm_of_isForm hform).trans (List.sublist_append_left _ _).subperm

end Grammar

/-! ## Putting a text between quotes -/

/-- Equal commands, or commands that differ in the value of one literal. -/
def Command.AgreesButForLiteral (first second : Text) (command other : Command) : Prop :=
  command.erased = other.erased ∧
    (command = other ∨ ∃ front back, command.literals = front ++ first :: back ∧
      other.literals = front ++ second :: back)

namespace Text

def unused (texts : List Text) : Text :=
  List.replicate (texts.flatten.length + 1) 'x'

theorem unused_not_mem (texts : List Text) : unused texts ∉ texts := by
  intro hmem
  have hle := (List.sublist_flatten_of_mem hmem).length_le
  rw [unused, List.length_replicate] at hle
  omega

theorem trim_unused (texts : List Text) : (unused texts).trim = unused texts := by
  refine trim_eq_self fun c hc => ?_
  rw [List.eq_of_mem_replicate hc]
  decide

theorem quote_not_mem_unused (texts : List Text) : '\x27' ∉ unused texts := by
  intro hmem
  exact absurd (List.eq_of_mem_replicate hmem) (by decide)

def instead (marker value text : Text) : Text :=
  if text = marker then value else text

theorem instead_of_not_mem {marker value : Text} {texts : List Text} (h : marker ∉ texts)
    {text : Text} (htext : text ∈ texts) : instead marker value text = text := by
  refine if_neg fun heq => h ?_
  rwa [← heq]

theorem mem_once {text : Text} {texts : List Text} (h : texts.count text ≤ 1) :
    text ∉ texts ∨
      ∃ front back, texts = front ++ text :: back ∧ text ∉ front ∧ text ∉ back := by
  by_cases hmem : text ∈ texts
  · obtain ⟨front, back, rfl⟩ := List.append_of_mem hmem
    rw [List.count_append, List.count_cons_self] at h
    exact .inr ⟨front, back, rfl, List.count_eq_zero.1 (by omega), List.count_eq_zero.1 (by omega)⟩
  · exact .inl hmem

end Text

theorem twins_of_not_mem {marker value : Text} {tokens : List Token}
    (h : marker ∉ Grammar.literalValues tokens) :
    AreTwins id (Text.instead marker value) tokens tokens := by
  refine List.forall₂_same.2 fun token htoken =>
    ⟨rfl, fun _ => rfl, fun _ => rfl, fun hliteral => ?_⟩
  refine (Text.instead_of_not_mem h (List.mem_map.2 ⟨token, ?_, rfl⟩)).symm
  exact List.mem_filter.2 ⟨htoken, decide_eq_true (Grammar.mem_literalKinds.2 hliteral)⟩

theorem twins_of_marker {marker : Text} {front back : List Token}
    (hmarker : marker ∉ Grammar.literalValues (front ++ back)) (htrim : marker.trim = marker)
    (value : Text) :
    AreTwins id (Text.instead marker value.trim) (front ++ Token.quoted marker :: back)
      (front ++ Token.quoted value :: back) := by
  rw [Grammar.literalValues_append, List.mem_append, not_or] at hmarker
  refine List.rel_append (twins_of_not_mem hmarker.1) (.cons ⟨rfl, nofun, nofun, fun _ => ?_⟩
    (twins_of_not_mem hmarker.2))
  rw [Token.value_quoted, Token.value_quoted, htrim, Text.instead, if_pos rfl]

theorem count_literals_le_one {marker query : Text} {front back : List Token} {command : Command}
    (hcommand : Command.ofText query = .ok command)
    (hscan : Token.scan query = front ++ Token.quoted marker :: back)
    (hmarker : marker ∉ Grammar.literalValues (front ++ back)) (htrim : marker.trim = marker) :
    command.literals.count marker ≤ 1 := by
  have hcount := (Grammar.literals_subperm_of_isCommand
    (Spelling.isCommand_of_ofText hcommand)).count_le marker
  rw [hscan, Grammar.literalValues_append,
    Grammar.literalValues_literal (Token.isLiteral_quoted marker), Token.value_quoted, htrim,
    List.count_append, List.count_cons_self] at hcount
  have hnone := List.count_eq_zero.2 hmarker
  rw [Grammar.literalValues_append, List.count_append] at hnone
  omega

/-- Two texts in the place of a literal that occurs at most once. -/
theorem agreesButForLiteral_of_marker {marker : Text} {command : Command}
    (hmarker : command.literals.count marker ≤ 1) (first second : Text) :
    Command.AgreesButForLiteral first second (command.mapTexts id (Text.instead marker first))
      (command.mapTexts id (Text.instead marker second)) := by
  refine ⟨by rw [Command.erased_mapTexts, Command.erased_mapTexts], ?_⟩
  rcases Text.mem_once hmarker with hnone | ⟨front, back, hliterals, hfront, hback⟩
  · refine .inl (Command.mapTexts_congr id fun literal hliteral => ?_)
    rw [Text.instead_of_not_mem hnone hliteral, Text.instead_of_not_mem hnone hliteral]
  · have hmap : ∀ value, (front ++ marker :: back).map (Text.instead marker value) =
        front ++ value :: back := by
      intro value
      have hpart : ∀ part : List Text, marker ∉ part →
          part.map (Text.instead marker value) = part := fun part hpart =>
        (List.map_congr_left fun _ htext => Text.instead_of_not_mem hpart htext).trans
          (List.map_id part)
      rw [List.map_append, List.map_cons, hpart front hfront, hpart back hback, Text.instead,
        if_pos rfl]
    refine .inr ⟨front, back, ?_, ?_⟩ <;> rw [Command.literals_mapTexts, hliterals, hmap]

/-- A text between quotes is one literal.  Around it the tokens are the same whatever it is,
and if the query is a command, only the value that the literal feeds depends on it. -/
theorem Command.quoted_inert (before after first second : Text)
    (heven : Even (before.count '\x27')) (hfirst : '\x27' ∉ first) (hsecond : '\x27' ∉ second) :
    (∃ front back,
        Token.scan (before ++ '\x27' :: first ++ '\x27' :: after) =
          front ++ Token.quoted first :: back ∧
        Token.scan (before ++ '\x27' :: second ++ '\x27' :: after) =
          front ++ Token.quoted second :: back) ∧
      Corresponds (Command.AgreesButForLiteral first.trim second.trim)
        (Command.ofText (before ++ '\x27' :: first ++ '\x27' :: after))
        (Command.ofText (before ++ '\x27' :: second ++ '\x27' :: after)) := by
  obtain ⟨front, back, hscan⟩ := Token.scan_around_quoted before after heven
  refine ⟨⟨front, back, hscan first hfirst, hscan second hsecond⟩, ?_⟩
  have hnew := Text.unused_not_mem (Grammar.literalValues (front ++ back))
  have htrim := Text.trim_unused (Grammar.literalValues (front ++ back))
  have hmarked := hscan _ (Text.quote_not_mem_unused (Grammar.literalValues (front ++ back)))
  generalize Text.unused (Grammar.literalValues (front ++ back)) = marker at hnew htrim hmarked
  -- Both queries are the one with the marker, with another text put in its place.
  have himage : ∀ value : Text, '\x27' ∉ value →
      Corresponds
        (fun command image => image = command.mapTexts id (Text.instead marker value.trim))
        (Command.ofText (before ++ '\x27' :: marker ++ '\x27' :: after))
        (Command.ofText (before ++ '\x27' :: value ++ '\x27' :: after)) := by
    intro value hvalue
    rw [Command.ofText, Command.ofText, hmarked, hscan value hvalue]
    exact Command.ofTokens_twins (twins_of_marker hnew htrim value)
  refine ((himage first hfirst).common (himage second hsecond)).mono ?_
  rintro _ _ - - ⟨command, hmark, rfl, rfl⟩
  exact agreesButForLiteral_of_marker (count_literals_le_one hmark hmarked hnew htrim) _ _

def hostileValue : Text :=
  "x); DROP TABLE t; --".toList

theorem quoted_inert_hostileValue :
    Corresponds (Command.AgreesButForLiteral hostileValue ['y'])
        (Command.ofText ("INSERT INTO t VALUES (".toList ++ '\x27' :: hostileValue ++
          '\x27' :: ", 'z');".toList))
        (Command.ofText ("INSERT INTO t VALUES (".toList ++ '\x27' :: ['y'] ++
          '\x27' :: ", 'z');".toList)) ∧
      Command.ofText ("INSERT INTO t VALUES (".toList ++ '\x27' :: ['y'] ++
          '\x27' :: ", 'z');".toList) = .ok (.insert ['t'] [['y'], ['z']]) :=
  ⟨(Command.quoted_inert "INSERT INTO t VALUES (".toList ", 'z');".toList hostileValue ['y']
      (by decide) (by decide) (by decide)).2, by decide +kernel⟩

end Relbase
