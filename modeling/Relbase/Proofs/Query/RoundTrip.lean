import Relbase.Proofs.Query.Spelling
import Relbase.Proofs.Text.Lowered

/-!
# Reading back what is spelled

Every layout of every spelling of a printable command is read as that command, every
printable command has a layout, and nothing but printable commands is ever read.
-/

namespace Relbase.Spelling

open Token Grammar

/-! ## Scanned tokens -/

/-- The tokens that scanning makes. -/
inductive Scanned : Token → Prop
  | raw {text : Text} (hraw : IsRaw text) : Scanned (ofRaw text)
  | last : Scanned endOfInput

theorem scanned_of_mem_scan {text : Text} {token : Token} (h : token ∈ scan text) :
    Scanned token := by
  rcases List.mem_append.1 h with h | h
  · obtain ⟨raw, hraw, rfl⟩ := List.mem_map.1 h
    exact .raw (isRaw_of_mem_splitRaw hraw)
  · exact List.mem_singleton.1 h ▸ .last

theorem classify_ne_endOfInput (text : Text) : TokenKind.classify text ≠ .endOfInput := by
  have hfixed : ∀ entry ∈ TokenKind.fixed, entry.2 ≠ .endOfInput := by decide
  unfold TokenKind.classify
  split
  · rename_i hkind
    exact hfixed _ (Assoc.mem_of_get? hkind)
  · repeat' split
    all_goals exact nofun

theorem Scanned.identifier {token : Token} (h : Scanned token)
    (hkind : token.kind = .identifier) : IsIdentifier token.text := by
  cases h with
  | raw hraw => exact hkind
  | last => cases hkind

theorem Scanned.value {token : Token} (h : Scanned token) (hliteral : IsLiteral token) :
    IsPlainValue token.value := by
  cases h with
  | raw hraw =>
      cases hraw with
      | bare hquote hblank =>
          rename_i text
          have hopen : TokenKind.isQuoted text = false := by
            by_contra hquoted
            simp only [TokenKind.isQuoted, Bool.not_eq_false, Bool.and_eq_true, beq_iff_eq]
              at hquoted
            exact hquote (List.mem_of_mem_head? hquoted.1.2)
          have hvalue : (ofRaw text).value = text := by
            simp [Token.value, ofRaw, hopen, Text.trim_eq_self hblank]
          rw [hvalue]
          exact ⟨hquote, Text.trim_eq_self hblank⟩
      | quoted hvalue =>
          rename_i value
          have hread := (value_quoted value).2
          rw [tokenOf, Piece.text] at hread
          rw [hread]
          exact ⟨fun hmem => hvalue ((Text.trim_sublist value).subset hmem), Text.trim_trim value⟩
      | unclosed hvalue =>
          rename_i value
          have hopen : TokenKind.isQuoted ('\x27' :: value) = false := by
            by_contra hquoted
            simp only [TokenKind.isQuoted, Bool.not_eq_false, Bool.and_eq_true, beq_iff_eq,
              decide_eq_true_eq] at hquoted
            cases value with
            | nil => exact absurd hquoted.1.1 (by decide)
            | cons c rest =>
                rw [List.getLast?_cons_cons] at hquoted
                exact hvalue (List.mem_of_mem_getLast? hquoted.2)
          obtain ⟨kind, hkind⟩ := hliteral
          rw [ofRaw, classify_quote, hopen] at hkind
          cases hkind
  | last =>
      obtain ⟨kind, hkind⟩ := hliteral
      cases hkind

/-! ## Derived commands are printable -/

theorem of_isList {α : Type} {element : List Token → α → Prop} {P : α → Prop}
    (helement : ∀ part x, (∀ token ∈ part, Scanned token) → element part x → P x)
    {tokens : List Token} {elements : List α} (hscanned : ∀ token ∈ tokens, Scanned token)
    (h : IsList element tokens elements) : elements ≠ [] ∧ ∀ x ∈ elements, P x := by
  induction h with
  | single hfirst =>
      refine ⟨List.cons_ne_nil _ _, fun x hx => ?_⟩
      rw [List.mem_singleton] at hx
      exact hx ▸ helement _ _ hscanned hfirst
  | more hfirst _ _ ih =>
      refine ⟨List.cons_ne_nil _ _, fun x hx => ?_⟩
      rcases List.mem_cons.1 hx with rfl | hx
      · exact helement _ _ (fun token hmem => hscanned token (by simp [hmem])) hfirst
      · exact (ih fun token hmem => hscanned token (by simp [hmem])).2 x hx

theorem printable_names {tokens : List Token} {names : List Text}
    (hscanned : ∀ token ∈ tokens, Scanned token) (h : IsList IsName tokens names) :
    names ≠ [] ∧ ∀ name ∈ names, IsIdentifier name := by
  refine of_isList ?_ hscanned h
  rintro _ _ hpart ⟨hname⟩
  exact (hpart _ List.mem_cons_self).identifier hname

theorem printable_values {tokens : List Token} {values : List Text}
    (hscanned : ∀ token ∈ tokens, Scanned token) (h : IsList IsValue tokens values) :
    values ≠ [] ∧ ∀ value ∈ values, IsPlainValue value := by
  refine of_isList ?_ hscanned h
  rintro _ _ hpart ⟨hliteral⟩
  exact (hpart _ List.mem_cons_self).value hliteral

theorem printable_assignments {tokens : List Token} {assignments : List (Text × Text)}
    (hscanned : ∀ token ∈ tokens, Scanned token)
    (h : IsList IsAssignment tokens assignments) :
    assignments ≠ [] ∧ ∀ assignment ∈ assignments,
      IsIdentifier assignment.1 ∧ assignment.1.lower = assignment.1 ∧
        IsPlainValue assignment.2 := by
  refine of_isList ?_ hscanned h
  rintro _ _ hpart ⟨hname, hsign, hliteral⟩
  have hidentifier := (hpart _ List.mem_cons_self).identifier hname
  exact ⟨hidentifier.lower, Text.lower_lower _, (hpart _ (by simp)).value hliteral⟩

theorem printable_joinLinks {first : Condition} {links : List (Connective × Condition)}
    (hfirst : PrintableCondition first)
    (hlinks : ∀ link ∈ links, PrintableCondition link.2) :
    PrintableCondition (joinLinks first links) := by
  induction links generalizing first with
  | nil => exact hfirst
  | cons link links ih =>
      refine ih ?_ fun other hother => hlinks other (List.mem_cons_of_mem _ hother)
      intro comparison hmem
      rcases List.mem_append.1 hmem with hmem | hmem
      · exact hfirst comparison hmem
      · exact hlinks link List.mem_cons_self comparison hmem

mutual

theorem printable_of_isUnit {tokens : List Token} {condition : Condition}
    (hscanned : ∀ token ∈ tokens, Scanned token) (h : IsUnit tokens condition) :
    PrintableCondition condition := by
  cases h with
  | comparison hname hsign hliteral =>
      intro comparison hmem
      rw [Formula.leaves, List.mem_singleton] at hmem
      rw [hmem]
      exact ⟨(hscanned _ List.mem_cons_self).identifier hname,
        (hscanned _ (by simp)).value hliteral⟩
  | group hopening hclosing hcondition =>
      exact printable_of_isCondition (fun token hmem => hscanned token (by simp [hmem])) hcondition
termination_by 3 * tokens.length

theorem printable_of_isLinks {tokens : List Token} {links : List (Connective × Condition)}
    (hscanned : ∀ token ∈ tokens, Scanned token) (h : IsLinks tokens links) :
    ∀ link ∈ links, PrintableCondition link.2 := by
  cases h with
  | nil => exact fun _ hmem => absurd hmem List.not_mem_nil
  | cons hword hright hlinks =>
      intro link hmem
      rcases List.mem_cons.1 hmem with rfl | hmem
      · exact printable_of_isUnit (fun token hmem => hscanned token (by simp [hmem])) hright
      · exact printable_of_isLinks (fun token hmem => hscanned token (by simp [hmem])) hlinks
          link hmem
termination_by 3 * tokens.length + 1

theorem printable_of_isCondition {tokens : List Token} {condition : Condition}
    (hscanned : ∀ token ∈ tokens, Scanned token) (h : IsCondition tokens condition) :
    PrintableCondition condition := by
  cases h with
  | intro hfirst hlinks =>
      exact printable_joinLinks
        (printable_of_isUnit (fun token hmem => hscanned token (by simp [hmem])) hfirst)
        (printable_of_isLinks (fun token hmem => hscanned token (by simp [hmem])) hlinks)
termination_by 3 * tokens.length + 2

end

theorem printable_of_isFilter {tokens : List Token} {filter : Option Condition}
    (hscanned : ∀ token ∈ tokens, Scanned token) (h : IsFilter tokens filter) :
    ∀ condition ∈ filter, PrintableCondition condition := by
  cases h with
  | absent => exact nofun
  | present hword hcondition =>
      rintro _ ⟨⟩
      exact printable_of_isCondition (fun token hmem => hscanned token (by simp [hmem])) hcondition

theorem loweredName_of_identifier {token : Token} (h : Scanned token)
    (hkind : token.kind = .identifier) : IsLoweredName token.text.lower :=
  ⟨token.text, h.identifier hkind, rfl⟩

theorem printable_of_isForm {tokens : List Token} {command : Command}
    (hscanned : ∀ token ∈ tokens, Scanned token) (h : IsForm tokens command) :
    Printable command := by
  cases h with
  | use huse hname => exact loweredName_of_identifier (hscanned _ (by simp)) hname
  | createDatabase hcreate hdatabase hname | dropDatabase hdrop hdatabase hname
  | dropTable hdrop htable hname =>
      exact loweredName_of_identifier (hscanned _ (by simp)) hname
  | createBareTable hcreate htable hname =>
      exact ⟨(hscanned _ (by simp)).identifier hname, rfl,
        fun _ hmem => absurd hmem List.not_mem_nil⟩
  | createTable hcreate htable hname hopening hnames hclosing =>
      exact ⟨(hscanned _ (by simp)).identifier hname, rfl,
        (printable_names (fun token hmem => hscanned token (by simp [hmem])) hnames).2⟩
  | addAttribute halter htable hname hadd hcolumn
  | dropAttribute halter htable hname hdrop hcolumn =>
      exact ⟨loweredName_of_identifier (hscanned _ (by simp)) hname,
        (hscanned _ (by simp)).identifier hcolumn⟩
  | insert hinsert hinto hname hvalues hopening hcontents hclosing =>
      exact ⟨loweredName_of_identifier (hscanned _ (by simp)) hname,
        printable_values (fun token hmem => hscanned token (by simp [hmem])) hcontents⟩
  | select hselect hcolumns hfrom hname hfilter =>
      have hlowered := loweredName_of_identifier (hscanned _ (by simp)) hname
      have hconditions :=
        printable_of_isFilter (fun token hmem => hscanned token (by simp [hmem])) hfilter
      cases hcolumns with
      | all hasterisk => exact ⟨hlowered, hconditions⟩
      | named hnames =>
          obtain ⟨hne, hidentifiers⟩ :=
            printable_names (fun token hmem => hscanned token (by simp [hmem])) hnames
          exact ⟨hlowered, hne, hidentifiers, hconditions⟩
  | delete hdelete hfrom hname hwhere hcondition =>
      exact ⟨loweredName_of_identifier (hscanned _ (by simp)) hname,
        printable_of_isCondition (fun token hmem => hscanned token (by simp [hmem])) hcondition⟩
  | update hupdate hname hset hassignments hwhere hcondition =>
      obtain ⟨hne, hplain⟩ :=
        printable_assignments (fun token hmem => hscanned token (by simp [hmem])) hassignments
      exact ⟨loweredName_of_identifier (hscanned _ (by simp)) hname, Assoc.ofList_ne_nil hne,
        Assoc.nodup_keys_ofList _,
        fun assignment hmem => hplain assignment (Assoc.mem_of_mem_ofList hmem),
        printable_of_isCondition (fun token hmem => hscanned token (by simp [hmem])) hcondition⟩
  | join hjoin hleft hand hright hon hleftColumn halso hrightColumn =>
      exact ⟨loweredName_of_identifier (hscanned _ (by simp)) hleft,
        loweredName_of_identifier (hscanned _ (by simp)) hright,
        (hscanned _ (by simp)).identifier hleftColumn,
        (hscanned _ (by simp)).identifier hrightColumn⟩

/-! ## Every printable command has a layout -/

theorem spellsWord_keyword (word : Keyword) : SpellsWord word.name (.word word.name) :=
  .intro (by cases word <;> decide)

theorem IsLoweredName.spells {name : Text} (h : IsLoweredName name) :
    ∃ piece, SpellsLowered name piece := by
  obtain ⟨spelled, hspelled, rfl⟩ := h
  exact ⟨_, .intro hspelled rfl⟩

theorem exists_spellsList {α : Type} {element : α → List Piece → Prop} {elements : List α}
    (helement : ∀ x ∈ elements, ∃ pieces, element x pieces) (hne : elements ≠ []) :
    ∃ pieces, SpellsList element elements pieces := by
  induction elements with
  | nil => exact absurd rfl hne
  | cons first others ih =>
      obtain ⟨pieces, hfirst⟩ := helement first List.mem_cons_self
      cases others with
      | nil => exact ⟨pieces, .single hfirst⟩
      | cons next rest =>
          obtain ⟨later, hothers⟩ :=
            ih (fun x hx => helement x (List.mem_cons_of_mem _ hx)) (List.cons_ne_nil _ _)
          exact ⟨_, .more hfirst hothers⟩

theorem exists_spellsNames {names : List Text} (hne : names ≠ []) :
    ∃ pieces, SpellsList SpellsName names pieces :=
  exists_spellsList (fun _ _ => ⟨_, .intro⟩) hne

theorem exists_spellsComparator (relation : Comparator) :
    ∃ piece, SpellsComparator relation piece := by
  cases relation with
  | like => exact ⟨.word "LIKE".toList, .like (.intro (by decide))⟩
  | equal | notEqual | less | lessOrEqual | greater | greaterOrEqual => exact ⟨_, .mark rfl⟩

theorem exists_spellsCondition (condition : Condition) :
    ∃ pieces, SpellsCondition condition pieces := by
  induction condition with
  | leaf comparison =>
      obtain ⟨sign, hsign⟩ := exists_spellsComparator comparison.comparator
      exact ⟨_, .unit (.comparison hsign)⟩
  | joined left connective right ihLeft ihRight =>
      obtain ⟨pieces, hleft⟩ := ihLeft
      obtain ⟨later, hright⟩ := ihRight
      exact ⟨_, .joined hleft (spellsWord_keyword _) (.group hright)⟩

theorem exists_spellsFilter (filter : Option Condition) :
    ∃ pieces, SpellsFilter filter pieces := by
  cases filter with
  | none => exact ⟨_, .absent⟩
  | some condition =>
      obtain ⟨pieces, hcondition⟩ := exists_spellsCondition condition
      exact ⟨_, .present (spellsWord_keyword _) hcondition⟩

theorem exists_spellsForm {command : Command} (h : Printable command) :
    ∃ pieces, SpellsForm command pieces := by
  have hword := spellsWord_keyword
  cases command with
  | use database =>
      obtain ⟨name, hname⟩ := IsLoweredName.spells h
      exact ⟨_, .use (hword _) hname⟩
  | createDatabase database =>
      obtain ⟨name, hname⟩ := IsLoweredName.spells h
      exact ⟨_, .createDatabase (hword _) (hword _) hname⟩
  | dropDatabase database =>
      obtain ⟨name, hname⟩ := IsLoweredName.spells h
      exact ⟨_, .dropDatabase (hword _) (hword _) hname⟩
  | createTable table attributes displayName =>
      by_cases hne : attributes = []
      · subst hne
        exact ⟨_, .createBareTable (hword _) (hword _)⟩
      · obtain ⟨pieces, hattributes⟩ := exists_spellsNames hne
        exact ⟨_, .createTable (hword _) (hword _) hattributes⟩
  | dropTable table =>
      obtain ⟨name, hname⟩ := IsLoweredName.spells h
      exact ⟨_, .dropTable (hword _) (hword _) hname⟩
  | addAttribute table column =>
      obtain ⟨name, hname⟩ := IsLoweredName.spells h.1
      exact ⟨_, .addAttribute (hword _) (hword _) hname (hword _)⟩
  | dropAttribute table column =>
      obtain ⟨name, hname⟩ := IsLoweredName.spells h.1
      exact ⟨_, .dropAttribute (hword _) (hword _) hname (hword _)⟩
  | insert table values =>
      obtain ⟨name, hname⟩ := IsLoweredName.spells h.1
      obtain ⟨pieces, hvalues⟩ :=
        exists_spellsList (fun value _ => ⟨[Piece.quoted value], SpellsValue.intro⟩) h.2.1
      exact ⟨_, .insert (hword _) (hword _) hname (hword _) hvalues⟩
  | select columns table filter =>
      obtain ⟨later, hfilter⟩ := exists_spellsFilter filter
      cases columns with
      | all =>
          obtain ⟨name, hname⟩ := IsLoweredName.spells h.1
          exact ⟨_, .select (hword _) .all (hword _) hname hfilter⟩
      | named names =>
          obtain ⟨name, hname⟩ := IsLoweredName.spells h.1
          obtain ⟨pieces, hnames⟩ := exists_spellsNames h.2.1
          exact ⟨_, .select (hword _) (.named hnames) (hword _) hname hfilter⟩
  | delete table condition =>
      obtain ⟨name, hname⟩ := IsLoweredName.spells h.1
      obtain ⟨pieces, hcondition⟩ := exists_spellsCondition condition
      exact ⟨_, .delete (hword _) (hword _) hname (hword _) hcondition⟩
  | update table assignments condition =>
      obtain ⟨name, hname⟩ := IsLoweredName.spells h.1
      obtain ⟨later, hcondition⟩ := exists_spellsCondition condition
      have hassignment : ∀ assignment ∈ assignments, ∃ pieces,
          SpellsAssignment assignment pieces := by
        intro assignment hmem
        obtain ⟨hidentifier, hlower, _⟩ := h.2.2.2.1 assignment hmem
        exact ⟨_, .intro (.intro hidentifier hlower)⟩
      obtain ⟨pieces, hassignments⟩ := exists_spellsList hassignment h.2.1
      exact ⟨_, .update (hword _) hname (hword _) hassignments (hword _) hcondition⟩
  | join leftTable rightTable leftAttribute rightAttribute =>
      obtain ⟨left, hleft⟩ := IsLoweredName.spells h.1
      obtain ⟨right, hright⟩ := IsLoweredName.spells h.2.1
      exact ⟨_, .join (hword _) hleft (hword _) hright (hword _) (hword _)⟩

def spread (layout : List (Text × Piece)) : Text :=
  layout.flatMap fun entry => entry.1 ++ entry.2.text

def spaced (afterWord : Bool) : List (Text × Piece) → Bool
  | [] => true
  | (gap, piece) :: rest =>
      gap.all Text.isBlank && !(afterWord && piece.isWord && gap.isEmpty) &&
        spaced piece.isWord rest

theorem laid_spread {layout : List (Text × Piece)} {afterWord : Bool}
    (h : spaced afterWord layout = true) : Laid afterWord (layout.map Prod.snd) (spread layout) := by
  induction layout generalizing afterWord with
  | nil => rfl
  | cons entry rest ih =>
      obtain ⟨gap, piece⟩ := entry
      simp only [spaced, Bool.and_eq_true, Bool.not_eq_true'] at h
      obtain ⟨⟨hgap, hspace⟩, hrest⟩ := h
      refine ⟨gap, spread rest, by simp [spread], hgap, ?_, ih hrest⟩
      rintro rfl hword rfl
      simp [hword] at hspace

theorem exists_laid (pieces : List Piece) : ∃ text, Laid false pieces text := by
  have hspaced (afterWord : Bool) :
      spaced afterWord (pieces.map fun piece => ([' '], piece)) = true := by
    induction pieces generalizing afterWord with
    | nil => rfl
    | cons piece pieces ih => simpa [spaced, Text.isBlank] using ih piece.isWord
  have hlaid := laid_spread (hspaced false)
  rw [List.map_map] at hlaid
  exact ⟨_, by simpa [Function.comp_def] using hlaid⟩

/-! ## The round trip -/

theorem ofText_of_spells {command : Command} {pieces : List Piece} {text : Text}
    (hprintable : Printable command) (hspells : Spells command pieces)
    (hlaid : Laid false pieces text) : Command.ofText text = .ok command := by
  cases hspells with
  | intro hform =>
      rename_i form
      obtain ⟨hsettled, hderived⟩ := spells_form hprintable hform
      have hscan := scan_of_laid (hsettled.append (.mark (by decide) .nil)) hlaid
      have hbody : ∀ token ∈ (form ++ [Piece.mark [';']]).map tokenOf,
          token.kind ≠ .endOfInput := by
        intro token hmem
        obtain ⟨piece, _, rfl⟩ := List.mem_map.1 hmem
        exact classify_ne_endOfInput _
      have hcommand : IsCommand ((form ++ [Piece.mark [';']]).map tokenOf ++ [endOfInput])
          command := by
        have hsemicolon : (tokenOf (.mark [';'])).kind = .semicolon := by decide
        have hend : endOfInput.kind = .endOfInput := rfl
        simpa using IsCommand.intro hderived hsemicolon hend
      rw [Command.ofText, hscan]
      exact (ofTokens_eq_ok_iff rfl hbody).2 hcommand

theorem exists_text {command : Command} (h : Printable command) :
    ∃ text, Command.ofText text = .ok command := by
  obtain ⟨pieces, hform⟩ := exists_spellsForm h
  obtain ⟨text, hlaid⟩ := exists_laid _
  exact ⟨text, ofText_of_spells h (.intro hform) hlaid⟩

theorem isCommand_of_ofText {command : Command} {text : Text}
    (h : Command.ofText text = .ok command) : IsCommand (scan text) command := by
  have hbody : ∀ token ∈ (splitRaw text).map ofRaw, token.kind ≠ .endOfInput := by
    intro token hmem
    obtain ⟨raw, _, rfl⟩ := List.mem_map.1 hmem
    exact classify_ne_endOfInput _
  exact (ofTokens_eq_ok_iff rfl hbody).1 h

theorem printable_of_ofText {command : Command} {text : Text}
    (h : Command.ofText text = .ok command) : Printable command := by
  have hcommand := isCommand_of_ofText h
  generalize htokens : scan text = tokens at hcommand
  cases hcommand with
  | intro hform hsemicolon hlast =>
      refine printable_of_isForm (fun token hmem => ?_) hform
      have hscan : token ∈ scan text := by
        rw [htokens]
        simp [hmem]
      exact scanned_of_mem_scan hscan

/-- Every layout of every spelling of a printable command is read as that command, and there
is such a layout; what is read from any text is printable. -/
theorem ofText_spelling :
    (∀ command pieces text, Printable command → Spells command pieces →
        Laid false pieces text → Command.ofText text = .ok command) ∧
      (∀ command, Printable command →
        ∃ pieces text, Spells command pieces ∧ Laid false pieces text) ∧
      ∀ text command, Command.ofText text = .ok command → Printable command := by
  refine ⟨fun _ _ _ => ofText_of_spells, fun command h => ?_, fun _ _ => printable_of_ofText⟩
  obtain ⟨pieces, hform⟩ := exists_spellsForm h
  obtain ⟨text, hlaid⟩ := exists_laid _
  exact ⟨_, text, .intro hform, hlaid⟩

def unevenDeletion : List (Text × Piece) :=
  [([], .word "delete".toList), ([' '], .word "FROM".toList), ("\t\n".toList, .word "Log".toList),
    ([' '], .word "where".toList), ([' '], .word ['a']), ([], .mark ['=', '=']),
    ([], .quoted "x y".toList), ([], .word "AnD".toList), ([], .mark ['(']), ([], .word ['b']),
    ([' '], .word "liKe".toList), ([], .quoted []), ([' '], .word "OR".toList),
    ([' '], .word ['c']), ([' '], .mark ['<']), ([' '], .quoted ['z']), ([], .mark [')']),
    ([' '], .mark [';'])]

theorem ofText_unevenDeletion :
    Command.ofText (spread unevenDeletion) =
      .ok (.delete "log".toList
        (.joined (.leaf ⟨['a'], .equal, "x y".toList⟩) .and
          (.joined (.leaf ⟨['b'], .like, []⟩) .or (.leaf ⟨['c'], .less, ['z']⟩)))) := by
  refine ofText_spelling.1 _ (unevenDeletion.map Prod.snd) _ ?_ ?_ (laid_spread (by decide))
  · refine ⟨⟨"Log".toList, by decide +kernel, by decide +kernel⟩, ?_⟩
    simp only [PrintableCondition, Formula.leaves, List.singleton_append, List.forall_mem_cons,
      IsPlainValue]
    decide +kernel
  · have hand : SpellsWord (connectiveWord .and).name (.word "AnD".toList) := .intro (by decide)
    have hor : SpellsWord (connectiveWord .or).name (.word "OR".toList) := .intro (by decide)
    have hlike : SpellsComparator .like (.word "liKe".toList) := .like (.intro (by decide))
    have hlog : SpellsLowered "log".toList (.word "Log".toList) :=
      .intro (by decide +kernel) (by decide +kernel)
    have hfirst : SpellsUnit (.leaf ⟨['a'], .equal, "x y".toList⟩) _ := .comparison (.mark rfl)
    have hsecond : SpellsUnit (.leaf ⟨['b'], .like, []⟩) _ := .comparison hlike
    have hthird : SpellsUnit (.leaf ⟨['c'], .less, ['z']⟩) _ := .comparison (.mark rfl)
    have hcondition := SpellsCondition.joined (.unit hfirst) hand
      (.group (.joined (.unit hsecond) hor hthird))
    exact .intro (.delete (.intro (by decide)) (.intro (by decide)) hlog (.intro (by decide))
      hcondition)

end Relbase.Spelling
