import Mathlib.Data.List.Forall2
import Relbase.Proofs.ErrorClass
import Relbase.Proofs.Map.Lookup
import Relbase.Proofs.Query.Conditions

/-!
# Reading twins

Two lists of tokens that differ in the spelling of names and in the values of literals
are read in the same way: both fail, with an error of the same class, or the second
command is the first one with its texts replaced.  One lemma stands for every reader, and
the rules for composing readers carry the relation between the results.
-/

namespace Relbase

/-! ## Replacing the texts of a command -/

def Formula.map {α β : Type} (f : α → β) : Formula α → Formula β
  | .leaf test => .leaf (f test)
  | .joined left connective right => .joined (left.map f) connective (right.map f)

def Comparison.mapTexts (rename revalue : Text → Text) (comparison : Comparison) : Comparison :=
  ⟨rename comparison.column, comparison.comparator, revalue comparison.literal⟩

def Condition.mapTexts (rename revalue : Text → Text) (condition : Condition) : Condition :=
  Formula.map (Comparison.mapTexts rename revalue) condition

@[simp] theorem Condition.mapTexts_leaf (rename revalue : Text → Text) (comparison : Comparison) :
    Condition.mapTexts rename revalue (.leaf comparison) =
      .leaf (comparison.mapTexts rename revalue) :=
  rfl

@[simp] theorem Condition.mapTexts_joined (rename revalue : Text → Text) (left right : Condition)
    (connective : Connective) :
    Condition.mapTexts rename revalue (.joined left connective right) =
      .joined (left.mapTexts rename revalue) connective (right.mapTexts rename revalue) :=
  rfl

def Columns.mapNames (rename : Text → Text) : Columns → Columns
  | .all => .all
  | .named names => .named (names.map rename)

def Command.mapTexts (rename revalue : Text → Text) : Command → Command
  | .use database => .use database
  | .createDatabase database => .createDatabase database
  | .dropDatabase database => .dropDatabase database
  | .createTable table attributes displayName =>
      .createTable table (attributes.map rename) (rename displayName)
  | .dropTable table => .dropTable table
  | .addAttribute table name => .addAttribute table (rename name)
  | .dropAttribute table name => .dropAttribute table (rename name)
  | .insert table values => .insert table (values.map revalue)
  | .select columns table condition =>
      .select (columns.mapNames rename) table (condition.map (Condition.mapTexts rename revalue))
  | .delete table condition => .delete table (condition.mapTexts rename revalue)
  | .update table assignments condition =>
      .update table (assignments.map fun assignment => (assignment.1, revalue assignment.2))
        (condition.mapTexts rename revalue)
  | .join leftTable rightTable leftAttribute rightAttribute =>
      .join leftTable rightTable (rename leftAttribute) (rename rightAttribute)

/-! ## Twins -/

/-- A token of the same kind.  Where names and literals count it has other ones, but a
name stays the same in lower case. -/
structure Token.IsTwin (rename revalue : Text → Text) (token twin : Token) : Prop where
  kind : twin.kind = token.kind
  name : token.kind = .identifier → twin.text = rename token.text
  lower : token.kind = .identifier → twin.text.lower = token.text.lower
  value : Grammar.IsLiteral token → twin.value = revalue token.value

abbrev AreTwins (rename revalue : Text → Text) (tokens twins : List Token) : Prop :=
  List.Forall₂ (Token.IsTwin rename revalue) tokens twins

/-- Both fail with errors of one class, or both succeed with related results. -/
inductive Corresponds {α β : Type} (related : α → β → Prop) :
    Except ReadFault α → Except ReadFault β → Prop
  | failed {fault other : ReadFault} (hclass : fault.errorClass = other.errorClass) :
      Corresponds related (.error fault) (.error other)
  | read {result : α} {image : β} (hrelated : related result image) :
      Corresponds related (.ok result) (.ok image)

namespace Corresponds

variable {α β γ : Type} {related follows : α → β → Prop} {first : Except ReadFault α}
  {second : Except ReadFault β}

theorem inversion (h : Corresponds related first second) :
    (∃ fault other, first = .error fault ∧ second = .error other ∧
        fault.errorClass = other.errorClass) ∨
      ∃ result image, first = .ok result ∧ second = .ok image ∧ related result image := by
  cases h with
  | failed hclass => exact .inl ⟨_, _, rfl, rfl, hclass⟩
  | read hrelated => exact .inr ⟨_, _, rfl, rfl, hrelated⟩

theorem mono (h : Corresponds related first second)
    (hmono : ∀ result image, first = .ok result → second = .ok image → related result image →
      follows result image) : Corresponds follows first second := by
  cases h with
  | failed hclass => exact .failed hclass
  | read hrelated => exact .read (hmono _ _ rfl rfl hrelated)

theorem symm (h : Corresponds related first second) :
    Corresponds (fun image result => related result image) second first := by
  cases h with
  | failed hclass => exact .failed hclass.symm
  | read hrelated => exact .read hrelated

theorem common {other : α → γ → Prop} {third : Except ReadFault γ}
    (h : Corresponds related first second) (hthird : Corresponds other first third) :
    Corresponds (fun image twin => ∃ result, first = .ok result ∧ related result image ∧
      other result twin) second third := by
  cases h with
  | failed hclass =>
      cases hthird with
      | failed hclass' => exact .failed (hclass.symm.trans hclass')
  | read hrelated =>
      cases hthird with
      | read hother => exact .read ⟨_, rfl, hrelated, hother⟩

end Corresponds

def BeforeTwins (rename revalue : Text → Text) {α β : Type} (related : α → β → Prop)
    {P Q : List Token → Prop} (first : α × Subtype P) (second : β × Subtype Q) : Prop :=
  related first.1 second.1 ∧ AreTwins rename revalue first.2.val second.2.val

def StepsAlike (rename revalue : Text → Text) {α β : Type} (related : α → β → Prop)
    (read : ReadStep α) (other : ReadStep β) : Prop :=
  ∀ ⦃tokens twins : List Token⦄, AreTwins rename revalue tokens twins →
    Corresponds (BeforeTwins rename revalue related) (read tokens) (other twins)

namespace Grammar

variable {rename revalue : Text → Text} {tokens twins : List Token}

theorem nextKind_twins (h : AreTwins rename revalue tokens twins) :
    nextKind twins = nextKind tokens := by
  cases h with
  | nil => rfl
  | cons hfirst hrest => exact hfirst.kind

/-! ## Steps -/

theorem expect_twins (expected : List TokenKind) :
    StepsAlike rename revalue
      (fun token twin => token.kind ∈ expected ∧ Token.IsTwin rename revalue token twin)
      (expect expected) (expect expected) := by
  intro tokens twins h
  cases h with
  | nil => exact .failed rfl
  | cons hfirst hrest =>
      simp only [expect, hfirst.kind]
      split
      · rename_i hkind
        exact .read ⟨⟨hkind, hfirst⟩, hrest⟩
      · exact .failed rfl

theorem readElement_twins (accepted : List TokenKind) :
    StepsAlike rename revalue
      (fun token twin => token.kind ∈ accepted ∧ Token.IsTwin rename revalue token twin)
      (readElement accepted) (readElement accepted) := by
  intro tokens twins h
  cases h with
  | nil => exact .failed rfl
  | cons hfirst hrest =>
      simp only [readElement, hfirst.kind]
      split
      · exact .failed rfl
      · split
        · rename_i hkind
          exact .read ⟨⟨hkind, hfirst⟩, hrest⟩
        · exact .failed rfl

theorem readAssignment_twins :
    StepsAlike rename revalue
      (fun assignment image => image = (assignment.1, revalue assignment.2))
      readAssignment readAssignment := by
  intro tokens twins h
  cases h with
  | nil => exact .failed rfl
  | cons hname hrest =>
      simp only [readAssignment, hname.kind]
      split
      · rename_i hkind
        rcases (expect_twins [.assign] hrest).inversion with
          ⟨_, _, hsign, himage, hclass⟩ |
            ⟨⟨_, afterSign, _⟩, ⟨_, afterTwin, _⟩, hsign, himage, -, hafter⟩
        · simp only [hsign, himage]
          exact .failed hclass
        · simp only [hsign, himage]
          rcases (expect_twins literalKinds hafter).inversion with
            ⟨_, _, hvalue, himage, hclass⟩ |
              ⟨⟨literal, later, _⟩, ⟨image, laterTwin, _⟩, hvalue, himage, hliteral, hlater⟩
          · simp only [hvalue, himage]
            exact .failed hclass
          · simp only [hvalue, himage]
            refine .read ⟨?_, hlater⟩
            rw [hname.lower hkind, hliteral.2.value (mem_literalKinds.1 hliteral.1)]
      · exact .failed rfl

theorem readSeparated_twins {α β : Type} {related : α → β → Prop} {element : ReadStep α}
    {other : ReadStep β} (helement : StepsAlike rename revalue related element other)
    (ending : TokenKind) {tokens twins : List Token} (h : AreTwins rename revalue tokens twins) :
    Corresponds (BeforeTwins rename revalue (List.Forall₂ related))
      (readSeparated element ending tokens) (readSeparated other ending twins) := by
  rw [readSeparated, readSeparated]
  rcases (helement h).inversion with
    ⟨_, _, hfirst, himage, hclass⟩ |
      ⟨⟨first, rest, hrest⟩, ⟨image, restTwin, _⟩, hfirst, himage, hrelated, htwins⟩
  · simp only [hfirst, himage]
    exact .failed hclass
  · simp only [hfirst, himage]
    rcases htwins with _ | @⟨next, twin, later, laterTwin, hnext, hlater⟩
    · exact .failed rfl
    · simp only [hnext.kind]
      split
      · exact .read ⟨.cons hrelated .nil, .cons hnext hlater⟩
      · split
        · have hshorter : later.length < tokens.length := by
            simp only [List.length_cons] at hrest
            omega
          rcases (readSeparated_twins helement ending hlater).inversion with
            ⟨_, _, hothers, himage, hclass⟩ |
              ⟨⟨others, last, _⟩, ⟨images, lastTwin, _⟩, hothers, himage, hlists, hlast⟩
          · simp only [hothers, himage]
            exact .failed hclass
          · simp only [hothers, himage]
            exact .read ⟨.cons hrelated hlists, hlast⟩
        · exact .failed rfl
termination_by tokens.length

/-! ## Conditions -/

theorem readComparison_twins :
    StepsAlike rename revalue (fun comparison image => image = comparison.mapTexts rename revalue)
      readComparison readComparison := by
  intro tokens twins h
  simp only [readComparison]
  rcases (expect_twins [.identifier] h).inversion with
    ⟨_, _, hname, himage, hclass⟩ |
      ⟨⟨name, rest, _⟩, ⟨nameTwin, restTwin, _⟩, hname, himage, ⟨hkind, hnameTwin⟩, hrest⟩
  · simp only [hname, himage]
    exact .failed hclass
  · simp only [hname, himage]
    cases hrest with
    | nil => exact .failed rfl
    | cons hsign hafter =>
        simp only [hsign.kind]
        split
        · rcases (expect_twins literalKinds hafter).inversion with
            ⟨_, _, hvalue, himage, hclass⟩ |
              ⟨⟨literal, later, _⟩, ⟨image, laterTwin, _⟩, hvalue, himage, hliteral, hlater⟩
          · simp only [hvalue, himage]
            exact .failed hclass
          · simp only [hvalue, himage]
            refine .read ⟨?_, hlater⟩
            rw [hnameTwin.name (List.mem_singleton.1 hkind),
              hliteral.2.value (mem_literalKinds.1 hliteral.1)]
            rfl
        · exact .failed rfl

theorem closeParen_twins (depth : Int) (h : AreTwins rename revalue tokens twins) :
    (closeParen depth twins).1 = (closeParen depth tokens).1 ∧
      AreTwins rename revalue (closeParen depth tokens).2.val (closeParen depth twins).2.val := by
  cases h with
  | nil => exact ⟨rfl, .nil⟩
  | cons hfirst hrest =>
      simp only [closeParen, hfirst.kind]
      split
      · exact ⟨rfl, hrest⟩
      · exact ⟨rfl, .cons hfirst hrest⟩

def ConditionsAlike (rename revalue : Text → Text) (found image : Condition × Int) : Prop :=
  image = (found.1.mapTexts rename revalue, found.2)

mutual

theorem readUnit_twins (depth : Int) {tokens twins : List Token}
    (h : AreTwins rename revalue tokens twins) :
    Corresponds (BeforeTwins rename revalue (ConditionsAlike rename revalue))
      (readUnit depth tokens) (readUnit depth twins) := by
  cases h with
  | nil =>
      rw [readUnit]
      exact .failed rfl
  | cons hfirst hrest =>
      rw [readUnit, readUnit]
      simp only [hfirst.kind]
      split
      · rcases (readChain_twins (depth + 1) hrest).inversion with
          ⟨_, _, hchain, himage, hclass⟩ |
            ⟨⟨found, later, _⟩, ⟨image, laterTwin, _⟩, hchain, himage, hrelated, hlater⟩
        · simp only [hchain, himage]
          exact .failed hclass
        · simp only [hchain, himage]
          exact .read ⟨hrelated, hlater⟩
      · rcases (readComparison_twins (.cons hfirst hrest)).inversion with
          ⟨_, _, hread, himage, hclass⟩ |
            ⟨⟨found, later, _⟩, ⟨image, laterTwin, _⟩, hread, himage, hrelated, hlater⟩
        · simp only [hread, himage]
          exact .failed hclass
        · simp only [hread, himage]
          cases hrelated
          exact .read ⟨rfl, hlater⟩
termination_by 2 * tokens.length

theorem readChain_twins (depth : Int) {tokens twins : List Token}
    (h : AreTwins rename revalue tokens twins) :
    Corresponds (BeforeTwins rename revalue (ConditionsAlike rename revalue))
      (readChain depth tokens) (readChain depth twins) := by
  rw [readChain, readChain]
  rcases (readUnit_twins depth h).inversion with
    ⟨_, _, hunit, himage, hclass⟩ |
      ⟨⟨⟨first, afterUnit⟩, rest, hrest⟩, ⟨_, restTwin, _⟩, hunit, himage, hrelated, htwins⟩
  · simp only [hunit, himage]
    exact .failed hclass
  · cases hrelated
    simp only [hunit, himage]
    rcases (readLinks_twins first afterUnit htwins).inversion with
      ⟨_, _, hlinks, himage, hclass⟩ |
        ⟨⟨⟨condition, afterLinks⟩, later, _⟩, ⟨_, laterTwin, _⟩, hlinks, himage, hrelated, hlater⟩
    · simp only [hlinks, himage]
      exact .failed hclass
    · cases hrelated
      simp only [hlinks, himage]
      obtain ⟨hdepth, hclosed⟩ := closeParen_twins afterLinks hlater
      exact .read ⟨Prod.ext rfl hdepth, hclosed⟩
termination_by 2 * tokens.length + 1

/-- The condition that was read so far is an argument, so the second reader starts from its
image. -/
theorem readLinks_twins (left : Condition) (depth : Int) {tokens twins : List Token}
    (h : AreTwins rename revalue tokens twins) :
    Corresponds (BeforeTwins rename revalue (ConditionsAlike rename revalue))
      (readLinks left depth tokens) (readLinks (left.mapTexts rename revalue) depth twins) := by
  cases h with
  | nil =>
      rw [readLinks, readLinks]
      exact .read ⟨rfl, .nil⟩
  | cons hfirst hrest =>
      rw [readLinks, readLinks]
      simp only [hfirst.kind]
      split
      · exact .read ⟨rfl, .cons hfirst hrest⟩
      · rename_i connective _
        rcases (readUnit_twins depth hrest).inversion with
          ⟨_, _, hunit, himage, hclass⟩ |
            ⟨⟨⟨right, afterUnit⟩, later, hlater⟩, ⟨_, laterTwin, _⟩, hunit, himage, hrelated,
              htwins⟩
        · simp only [hunit, himage]
          exact .failed hclass
        · cases hrelated
          simp only [hunit, himage]
          rcases (readLinks_twins (.joined left connective right) afterUnit htwins).inversion with
            ⟨_, _, hlinks, himage, hclass⟩ |
              ⟨⟨found, last, _⟩, ⟨image, lastTwin, _⟩, hlinks, himage, hrelated, hlast⟩
          · rw [Condition.mapTexts_joined] at himage
            simp only [hlinks, himage]
            exact .failed hclass
          · rw [Condition.mapTexts_joined] at himage
            simp only [hlinks, himage]
            exact .read ⟨hrelated, hlast⟩
termination_by 2 * tokens.length

end

theorem readCondition_twins :
    StepsAlike rename revalue (fun condition image => image = condition.mapTexts rename revalue)
      readCondition readCondition := by
  intro tokens twins h
  simp only [readCondition]
  rcases (readChain_twins 0 h).inversion with
    ⟨_, _, hchain, himage, hclass⟩ |
      ⟨⟨⟨condition, depth⟩, rest⟩, ⟨_, restTwin⟩, hchain, himage, hrelated, hrest⟩
  · simp only [hchain, himage]
    exact .failed hclass
  · cases hrelated
    simp only [hchain, himage]
    split
    · exact .read ⟨rfl, hrest⟩
    · exact .failed rfl

/-! ## Readers -/

def ReadersAlike (rename revalue : Text → Text) {α β : Type} (related : α → β → Prop)
    (reader : Reader α) (other : Reader β) : Prop :=
  ∀ ⦃tokens twins : List Token⦄, AreTwins rename revalue tokens twins →
    Corresponds
      (fun found image => related found.1 image.1 ∧ AreTwins rename revalue found.2 image.2)
      (reader.run tokens) (other.run twins)

section

variable {α β γ δ : Type} {related : α → β → Prop} {follows : γ → δ → Prop}

theorem pure_twins {value : α} {image : β} (h : related value image) :
    ReadersAlike rename revalue related (pure value) (pure image) :=
  fun _ _ htwins => .read ⟨h, htwins⟩

theorem bind_twins {reader : Reader α} {other : Reader β} {next : α → Reader γ}
    {later : β → Reader δ} (hreader : ReadersAlike rename revalue related reader other)
    (hnext : ∀ value image, related value image →
      ReadersAlike rename revalue follows (next value) (later image)) :
    ReadersAlike rename revalue follows (reader >>= next) (other >>= later) := by
  intro tokens twins h
  have hrun : (reader >>= next).run tokens =
      (reader.run tokens).bind fun found => (next found.1).run found.2 := rfl
  have himage : (other >>= later).run twins =
      (other.run twins).bind fun found => (later found.1).run found.2 := rfl
  rw [hrun, himage]
  rcases (hreader h).inversion with
    ⟨_, _, hfirst, hsecond, hclass⟩ | ⟨found, image, hfirst, hsecond, hrelated, hrest⟩
  · rw [hfirst, hsecond]
    exact .failed hclass
  · rw [hfirst, hsecond]
    exact hnext _ _ hrelated hrest

theorem step_twins {read : ReadStep α} {other : ReadStep β}
    (h : StepsAlike rename revalue related read other) :
    ReadersAlike rename revalue related (Reader.step read) (Reader.step other) := by
  intro tokens twins htwins
  have hrun : (Reader.step read).run tokens =
      (read tokens).map fun found => (found.1, found.2.val) := rfl
  have himage : (Reader.step other).run twins =
      (other twins).map fun found => (found.1, found.2.val) := rfl
  rw [hrun, himage]
  rcases (h htwins).inversion with
    ⟨_, _, hfirst, hsecond, hclass⟩ | ⟨found, image, hfirst, hsecond, hrelated, hrest⟩
  · rw [hfirst, hsecond]
    exact .failed hclass
  · rw [hfirst, hsecond]
    exact .read ⟨hrelated, hrest⟩

theorem separated_twins {element : ReadStep α} {other : ReadStep β}
    (helement : StepsAlike rename revalue related element other) (ending : TokenKind) :
    ReadersAlike rename revalue (List.Forall₂ related)
      (Reader.step (readSeparated element ending)) (Reader.step (readSeparated other ending)) :=
  step_twins fun _ _ h => readSeparated_twins helement ending h

end

theorem symbol_twins (kind : TokenKind) :
    ReadersAlike rename revalue Eq (Reader.symbol kind) (Reader.symbol kind) :=
  bind_twins (step_twins (expect_twins [kind])) fun _ _ _ => pure_twins rfl

theorem keyword_twins (word : Keyword) :
    ReadersAlike rename revalue Eq (Reader.keyword word) (Reader.keyword word) :=
  symbol_twins (.keyword word)

theorem name_twins :
    ReadersAlike rename revalue
      (fun spelled image => image = rename spelled ∧ image.lower = spelled.lower)
      Reader.name Reader.name :=
  bind_twins (step_twins (expect_twins [.identifier])) fun _ _ ⟨hkind, htwin⟩ =>
    pure_twins ⟨htwin.name (List.mem_singleton.1 hkind), htwin.lower (List.mem_singleton.1 hkind)⟩

theorem loweredName_twins :
    ReadersAlike rename revalue Eq Reader.loweredName Reader.loweredName :=
  bind_twins name_twins fun _ _ ⟨_, hlower⟩ => pure_twins hlower.symm

theorem oneOf_twins (first second : Keyword) :
    ReadersAlike rename revalue Eq (Reader.oneOf first second) (Reader.oneOf first second) :=
  bind_twins (step_twins (expect_twins [.keyword first, .keyword second]))
    fun _ _ ⟨_, htwin⟩ => pure_twins (by rw [htwin.kind])

theorem atKind_twins (kind : TokenKind) :
    ReadersAlike rename revalue Eq (Reader.atKind kind) (Reader.atKind kind) := by
  intro tokens twins h
  refine .read ⟨?_, h⟩
  change decide (nextKind tokens = kind) = decide (nextKind twins = kind)
  rw [nextKind_twins h]

theorem names_twins (ending : TokenKind) :
    ReadersAlike rename revalue (fun names images => images = names.map rename)
      (Reader.names ending) (Reader.names ending) := by
  refine bind_twins (separated_twins (readElement_twins [.identifier]) ending)
    fun found images hfound => pure_twins ?_
  induction hfound with
  | nil => rfl
  | cons hfirst _ ih =>
      simp only [List.map_cons, ih, hfirst.2.name (List.mem_singleton.1 hfirst.1)]

theorem values_twins {found images : List Token}
    (h : List.Forall₂
      (fun token twin => token.kind ∈ literalKinds ∧ Token.IsTwin rename revalue token twin)
      found images) :
    images.map Token.value = (found.map Token.value).map revalue := by
  induction h with
  | nil => rfl
  | cons hfirst _ ih =>
      simp only [List.map_cons, ih, hfirst.2.value (mem_literalKinds.1 hfirst.1)]

theorem assignments_twins {found images : List (Text × Text)}
    (h : List.Forall₂ (fun assignment image => image = (assignment.1, revalue assignment.2))
      found images) :
    images = found.map fun assignment => (assignment.1, revalue assignment.2) := by
  induction h with
  | nil => rfl
  | cons hfirst _ ih => rw [List.map_cons, hfirst, ih]

theorem condition_twins :
    ReadersAlike rename revalue (fun condition image => image = condition.mapTexts rename revalue)
      Reader.condition Reader.condition :=
  step_twins readCondition_twins

/-! ## Commands -/

def IsImage (rename revalue : Text → Text) (command image : Command) : Prop :=
  image = command.mapTexts rename revalue

theorem use_twins :
    ReadersAlike rename revalue (IsImage rename revalue) Reader.use Reader.use := by
  refine bind_twins (keyword_twins .use) fun _ _ _ => ?_
  refine bind_twins loweredName_twins ?_
  rintro database _ rfl
  exact pure_twins rfl

theorem create_twins :
    ReadersAlike rename revalue (IsImage rename revalue) Reader.create Reader.create := by
  refine bind_twins (keyword_twins .create) fun _ _ _ => ?_
  refine bind_twins (oneOf_twins .database .table) ?_
  rintro target _ rfl
  refine bind_twins name_twins ?_
  rintro spelled image ⟨himage, hlower⟩
  rw [hlower]
  split
  · exact pure_twins rfl
  · refine bind_twins (atKind_twins .semicolon) ?_
    rintro bare _ rfl
    split
    · refine pure_twins ?_
      rw [himage]
      rfl
    · refine bind_twins (symbol_twins .leftParen) fun _ _ _ => ?_
      refine bind_twins (names_twins .rightParen) ?_
      rintro attributes _ rfl
      refine bind_twins (symbol_twins .rightParen) fun _ _ _ => pure_twins ?_
      rw [himage]
      rfl

theorem drop_twins :
    ReadersAlike rename revalue (IsImage rename revalue) Reader.drop Reader.drop := by
  refine bind_twins (keyword_twins .drop) fun _ _ _ => ?_
  refine bind_twins (oneOf_twins .database .table) ?_
  rintro target _ rfl
  refine bind_twins loweredName_twins ?_
  rintro lowered _ rfl
  refine pure_twins ?_
  split <;> rfl

theorem alter_twins :
    ReadersAlike rename revalue (IsImage rename revalue) Reader.alter Reader.alter := by
  refine bind_twins (keyword_twins .alter) fun _ _ _ => ?_
  refine bind_twins (keyword_twins .table) fun _ _ _ => ?_
  refine bind_twins loweredName_twins ?_
  rintro table _ rfl
  refine bind_twins (oneOf_twins .add .drop) ?_
  rintro change _ rfl
  refine bind_twins name_twins ?_
  rintro column _ ⟨rfl, -⟩
  refine pure_twins ?_
  split <;> rfl

theorem insert_twins :
    ReadersAlike rename revalue (IsImage rename revalue) Reader.insert Reader.insert := by
  refine bind_twins (keyword_twins .insert) fun _ _ _ => ?_
  refine bind_twins (keyword_twins .into) fun _ _ _ => ?_
  refine bind_twins loweredName_twins ?_
  rintro table _ rfl
  refine bind_twins (keyword_twins .values) fun _ _ _ => ?_
  refine bind_twins (symbol_twins .leftParen) fun _ _ _ => ?_
  refine bind_twins (separated_twins (readElement_twins literalKinds) .rightParen)
    fun found images hfound => ?_
  refine bind_twins (symbol_twins .rightParen) fun _ _ _ => pure_twins ?_
  rw [values_twins hfound]
  rfl

theorem columns_twins :
    ReadersAlike rename revalue (fun columns image => image = columns.mapNames rename)
      Reader.columns Reader.columns := by
  refine bind_twins (atKind_twins .asterisk) ?_
  rintro all _ rfl
  split
  · exact bind_twins (symbol_twins .asterisk) fun _ _ _ => pure_twins rfl
  · refine bind_twins (names_twins (.keyword .fromWord)) ?_
    rintro names _ rfl
    exact pure_twins rfl

theorem select_twins :
    ReadersAlike rename revalue (IsImage rename revalue) Reader.select Reader.select := by
  refine bind_twins (keyword_twins .select) fun _ _ _ => ?_
  refine bind_twins columns_twins ?_
  rintro columns _ rfl
  refine bind_twins (keyword_twins .fromWord) fun _ _ _ => ?_
  refine bind_twins loweredName_twins ?_
  rintro table _ rfl
  refine bind_twins (atKind_twins .semicolon) ?_
  rintro bare _ rfl
  split
  · exact pure_twins rfl
  · refine bind_twins (keyword_twins .whereWord) fun _ _ _ => ?_
    refine bind_twins condition_twins ?_
    rintro condition _ rfl
    exact pure_twins rfl

theorem delete_twins :
    ReadersAlike rename revalue (IsImage rename revalue) Reader.delete Reader.delete := by
  refine bind_twins (keyword_twins .delete) fun _ _ _ => ?_
  refine bind_twins (keyword_twins .fromWord) fun _ _ _ => ?_
  refine bind_twins loweredName_twins ?_
  rintro table _ rfl
  refine bind_twins (keyword_twins .whereWord) fun _ _ _ => ?_
  refine bind_twins condition_twins ?_
  rintro condition _ rfl
  exact pure_twins rfl

theorem update_twins :
    ReadersAlike rename revalue (IsImage rename revalue) Reader.update Reader.update := by
  refine bind_twins (keyword_twins .update) fun _ _ _ => ?_
  refine bind_twins loweredName_twins ?_
  rintro table _ rfl
  refine bind_twins (keyword_twins .set) fun _ _ _ => ?_
  refine bind_twins (separated_twins readAssignment_twins (.keyword .whereWord))
    fun found images hfound => ?_
  refine bind_twins (keyword_twins .whereWord) fun _ _ _ => ?_
  refine bind_twins condition_twins ?_
  rintro condition _ rfl
  refine pure_twins ?_
  rw [assignments_twins hfound, Assoc.ofList_mapValues]
  rfl

theorem join_twins :
    ReadersAlike rename revalue (IsImage rename revalue) Reader.join Reader.join := by
  refine bind_twins (keyword_twins .join) fun _ _ _ => ?_
  refine bind_twins loweredName_twins ?_
  rintro leftTable _ rfl
  refine bind_twins (keyword_twins .and) fun _ _ _ => ?_
  refine bind_twins loweredName_twins ?_
  rintro rightTable _ rfl
  refine bind_twins (keyword_twins .on) fun _ _ _ => ?_
  refine bind_twins name_twins ?_
  rintro leftColumn _ ⟨rfl, -⟩
  refine bind_twins (keyword_twins .and) fun _ _ _ => ?_
  refine bind_twins name_twins ?_
  rintro rightColumn _ ⟨rfl, -⟩
  exact pure_twins rfl

theorem command_twins :
    ReadersAlike rename revalue (IsImage rename revalue) Reader.command Reader.command := by
  intro tokens twins h
  unfold Reader.command
  simp only [StateT.run, nextKind_twins h]
  split
  · exact use_twins h
  · exact create_twins h
  · exact drop_twins h
  · exact alter_twins h
  · exact insert_twins h
  · exact select_twins h
  · exact delete_twins h
  · exact update_twins h
  · exact join_twins h
  · exact .failed rfl

theorem whole_twins :
    ReadersAlike rename revalue (IsImage rename revalue) Reader.whole Reader.whole := by
  refine bind_twins command_twins fun command image himage => ?_
  refine bind_twins (symbol_twins .semicolon) fun _ _ _ => ?_
  exact bind_twins (symbol_twins .endOfInput) fun _ _ _ => pure_twins himage

theorem getLast?_twins (h : AreTwins rename revalue tokens twins) :
    twins.getLast?.map Token.kind = tokens.getLast?.map Token.kind := by
  induction h with
  | nil => rfl
  | cons hfirst hrest ih =>
      cases hrest with
      | nil => exact congrArg some hfirst.kind
      | cons hsecond hlater => simpa using ih

end Grammar

/-- Twins are both commands, the second the image of the first, or both fail with errors
of one class. -/
theorem Command.ofTokens_twins {rename revalue : Text → Text} {tokens twins : List Token}
    (h : AreTwins rename revalue tokens twins) :
    Corresponds (fun command image => image = command.mapTexts rename revalue)
      (Command.ofTokens tokens) (Command.ofTokens twins) := by
  simp only [Command.ofTokens, Grammar.getLast?_twins h]
  split
  · rcases (Grammar.whole_twins h).inversion with
      ⟨_, _, hfirst, hsecond, hclass⟩ | ⟨found, image, hfirst, hsecond, himage, -⟩
    · rw [hfirst, hsecond]
      exact .failed hclass
    · rw [hfirst, hsecond]
      exact .read himage
  · exact .failed rfl

end Relbase
