import Mathlib.Data.List.TakeWhile
import Relbase.Proofs.Json.Values

/-!
# JSON documents

A rendered value is parsed as that value, also after carriage returns were made line
feeds, since it has none.  A text that begins as an object must end with its closing
brace: what is left of a document that was cut off inside is not parsed.
-/

namespace Relbase

theorem Text.unifyNewlines_eq_self {text : Text} (h : '\r' ∉ text) : text.unifyNewlines = text := by
  induction text with
  | nil => rfl
  | cons c rest ih =>
      simp only [List.mem_cons, not_or] at h
      have hc : c ≠ '\r' := Ne.symm h.1
      rw [unifyNewlines, if_neg hc, ih h.2]
      rintro later rfl rfl
      exact hc rfl

namespace Json

/-! ## Characters of a rendered value -/

def IsWritten (c : Char) : Prop :=
  c = '\n' ∨ 0x20 ≤ c.toNat

instance (c : Char) : Decidable (IsWritten c) :=
  inferInstanceAs (Decidable (c = '\n' ∨ 0x20 ≤ c.toNat))

theorem isWritten_of_all {text : Text} (h : text.all (fun d => decide (IsWritten d)) = true) :
    ∀ d ∈ text, IsWritten d := by
  simpa using h

theorem isWritten_escapedChar (c : Char) : ∀ d ∈ escapedChar c, IsWritten d := by
  unfold escapedChar
  iterate 7
    split
    · exact isWritten_of_all (by decide)
  split
  · rename_i hcode
    have hall : ∀ n < 32, ('\\' :: 'u' :: Text.hexDigits 4 n).all
        (fun d => decide (IsWritten d)) = true := by decide
    exact isWritten_of_all (hall _ hcode)
  · rename_i hcode
    intro d hd
    rw [List.mem_singleton.1 hd]
    exact .inr (Nat.not_lt.1 hcode)

theorem isWritten_renderText (text : Text) : ∀ d ∈ renderText text, IsWritten d := by
  intro d hd
  simp only [renderText, List.cons_append, List.mem_cons, List.mem_append, List.mem_flatMap,
    List.not_mem_nil, or_false] at hd
  rcases hd with rfl | ⟨c, _, hd⟩ | rfl
  · decide
  · exact isWritten_escapedChar c d hd
  · decide

theorem isWritten_newline (level : Nat) : ∀ d ∈ newline level, IsWritten d := by
  intro d hd
  rcases List.mem_cons.1 hd with rfl | hd
  · decide
  · rw [List.eq_of_mem_replicate hd]
    decide

theorem isWritten_ofInt (i : Int) : ∀ d ∈ Text.ofInt i, IsWritten d := by
  intro d hd
  rw [Text.ofInt_eq] at hd
  rcases List.mem_append.1 hd with hd | hd
  · split at hd
    · rw [List.mem_singleton.1 hd]
      decide
    · exact absurd hd List.not_mem_nil
  · have halphanum : d.isAlphanum = true := by
      simp [Char.isAlphanum, Text.isDigit_of_mem_toDigits hd]
    exact of_alphanum (by decide +kernel) halphanum

theorem isWritten_renderItems {items : List Json}
    (h : ∀ item ∈ items, ∀ level, ∀ d ∈ renderAt level item, IsWritten d) (level : Nat) :
    ∀ d ∈ renderItems level items, IsWritten d := by
  induction items with
  | nil => exact fun d hd => absurd hd List.not_mem_nil
  | cons item items ih =>
      have hcomma : IsWritten ',' := by decide
      rw [renderItems]
      simp only [List.cons_append, List.forall_mem_cons, List.forall_mem_append]
      exact ⟨hcomma, ⟨isWritten_newline level, h item List.mem_cons_self level⟩,
        ih fun x hx => h x (List.mem_cons_of_mem _ hx)⟩

/-- What holds of every written character and in the values of an object holds in its text. -/
theorem forall_renderMembers {P : Char → Prop} (hP : ∀ d, IsWritten d → P d)
    {members : List (Text × Json)}
    (h : ∀ member ∈ members, ∀ level, ∀ d ∈ renderAt level member.2, P d) (level : Nat) :
    ∀ d ∈ renderMembers level members, P d := by
  induction members with
  | nil => exact fun d hd => absurd hd List.not_mem_nil
  | cons member members ih =>
      have hcomma : P ',' := hP _ (by decide)
      have hcolon : ∀ d ∈ [':', ' '], IsWritten d := isWritten_of_all (by decide)
      rw [renderMembers]
      simp only [List.cons_append, List.forall_mem_cons, List.forall_mem_append]
      exact ⟨hcomma, ⟨⟨⟨fun d hd => hP d (isWritten_newline level d hd),
        fun d hd => hP d (isWritten_renderText member.1 d hd)⟩,
        by simpa using fun d hd => hP d (hcolon d hd)⟩, h member List.mem_cons_self level⟩,
        ih fun x hx => h x (List.mem_cons_of_mem _ hx)⟩

theorem forall_renderObject {P : Char → Prop} (hP : ∀ d, IsWritten d → P d)
    {members : List (Text × Json)}
    (h : ∀ member ∈ members, ∀ level, ∀ d ∈ renderAt level member.2, P d) (level : Nat) :
    ∀ d ∈ renderAt level (.object members), P d := by
  cases members with
  | nil =>
      have hempty : ∀ d ∈ ['\x7b', '\x7d'], IsWritten d := isWritten_of_all (by decide)
      rw [renderAt]
      exact fun d hd => hP d (hempty d hd)
  | cons member members =>
      have hopen : P '\x7b' := hP _ (by decide)
      have hclose : ∀ d ∈ ['\x7d'], IsWritten d := isWritten_of_all (by decide)
      have hcolon : ∀ d ∈ [':', ' '], IsWritten d := isWritten_of_all (by decide)
      rw [renderAt]
      simp only [List.cons_append, List.forall_mem_cons, List.forall_mem_append]
      exact ⟨hopen, ⟨⟨⟨⟨⟨fun d hd => hP d (isWritten_newline _ d hd),
        fun d hd => hP d (isWritten_renderText _ d hd)⟩,
        by simpa using fun d hd => hP d (hcolon d hd)⟩, h member List.mem_cons_self _⟩,
        forall_renderMembers hP (fun x hx => h x (List.mem_cons_of_mem _ hx)) _⟩,
        fun d hd => hP d (isWritten_newline _ d hd)⟩, by simpa using fun d hd => hP d (hclose d hd)⟩

theorem Writable.isWritten {value : Json} (h : Writable value) (level : Nat) :
    ∀ d ∈ renderAt level value, IsWritten d := by
  induction h generalizing level with
  | null =>
      rw [renderAt]
      exact isWritten_of_all (by decide)
  | boolean value => cases value <;> (rw [renderAt]; exact isWritten_of_all (by decide))
  | integer hvalue =>
      rw [renderAt, if_neg (by simp [hvalue])]
      exact isWritten_ofInt _
  | text value =>
      rw [renderAt]
      exact isWritten_renderText value
  | list hitems ih =>
      rename_i items
      cases items with
      | nil =>
          rw [renderAt]
          exact isWritten_of_all (by decide)
      | cons item items =>
          have hopen : IsWritten '[' := by decide
          have hclose : ∀ d ∈ [']'], IsWritten d := isWritten_of_all (by decide)
          rw [renderAt]
          simp only [List.cons_append, List.forall_mem_cons, List.forall_mem_append]
          exact ⟨hopen, ⟨⟨⟨isWritten_newline _, ih item List.mem_cons_self _⟩,
            isWritten_renderItems (fun x hx => ih x (List.mem_cons_of_mem _ hx)) _⟩,
            isWritten_newline _⟩, by simpa using hclose⟩
  | object hnames hmembers ih => exact forall_renderObject (fun d hd => hd) ih level

/-! ## Whole texts -/

theorem parse_render {value : Json} (h : Writable value) :
    parse (render value).unifyNewlines = .ok value := by
  have hreturn : '\r' ∉ renderAt 0 value := fun hmem =>
    absurd (h.isWritten 0 _ hmem) (by decide)
  have hvisible : BeginsVisibly (renderAt 0 value) := by simpa using h.beginsVisibly 0 []
  have hreads : ReadsValue (skipSpace (renderAt 0 value)) value [] := by
    rw [skipSpace_of_beginsVisibly hvisible]
    simpa using h.readsBack 0 [] fun c hc => by cases hc
  obtain ⟨c, later, htext, _, _, hmark⟩ := h.begins 0
  obtain ⟨hlt, hread⟩ := hreads
  rw [render, Text.unifyNewlines_eq_self hreturn, parse, hread]
  simp [htext, hmark, skipSpace]

theorem gap_notMem_render {value : Json} (h : Writable value) : gap ∉ render value :=
  fun hmem => absurd (h.isWritten 0 _ hmem) (by decide)

/-! ## Documents that were cut off -/

theorem suffix_readCodes {opening : Nat} {text : Text} {codes : List Nat} {rest : Text}
    (h : readCodes opening text = .ok (codes, rest)) : rest <:+ text := by
  fun_induction readCodes opening text generalizing codes with
  | case1 => cases h
  | case2 => cases h
  | case3 => cases h
  | case4 a b c d next later unit _ ih =>
      obtain ⟨tail, htail, _⟩ := withCode_eq_ok h
      exact (ih htail).trans (List.suffix_append ['\\', 'u', a, b, c, d] _)
  | case5 => cases h
  | case6 => cases h
  | case7 c later _ _ c' _ ih =>
      obtain ⟨tail, htail, _⟩ := withCode_eq_ok h
      exact (ih htail).trans (List.suffix_append ['\\', c] _)
  | case8 =>
      cases h
      exact List.suffix_cons _ _
  | case9 => cases h
  | case10 c later _ _ _ _ _ _ ih =>
      obtain ⟨tail, htail, _⟩ := withCode_eq_ok h
      exact (ih htail).trans (List.suffix_cons c _)

theorem suffix_readText {text value rest : Text} (h : ReadsText text value rest) :
    rest <:+ text := by
  obtain ⟨hlt, hread⟩ := h
  unfold readText at hread
  split at hread
  · cases hread
  · rename_i codes later hcodes
    split at hread
    · cases hread
    · cases hread
      exact suffix_readCodes hcodes

theorem suffix_skipSpace (text : Text) : skipSpace text <:+ text :=
  List.dropWhile_suffix isSpace

theorem suffix_of_skipSpace_eq {text rest : Text} {c : Char} (h : skipSpace text = c :: rest) :
    rest <:+ text :=
  (List.suffix_cons c rest).trans (h ▸ suffix_skipSpace text)

-- The recursion is on the length of the text, which its cases no longer name.
set_option linter.unusedVariables false in
mutual

theorem suffix_readValue {size : Nat} {text rest : Text} {value : Json}
    (h : ReadsValue text value rest) (hsize : text.length = size) : rest <:+ text := by
  obtain ⟨hlt, hread⟩ := h
  unfold readValue at hread
  split at hread
  · cases hread
  · split at hread
    · cases hread
    · rename_i found later hlater hfound
      cases hread
      exact (suffix_readText ⟨hlater, hfound⟩).trans (List.suffix_cons _ _)
  · rename_i body
    have hbody : (skipSpace body).length < size :=
      hsize ▸ Nat.lt_succ_of_le (length_skipSpace body)
    split at hread
    · rename_i later hskip
      cases hread
      exact (suffix_of_skipSpace_eq hskip).trans (List.suffix_cons _ _)
    · dsimp only at hread
      split at hread
      · cases hread
      · rename_i items later hlater hitems
        cases hread
        exact (suffix_readItems ⟨hlater, hitems⟩ rfl).trans
          ((suffix_skipSpace body).trans (List.suffix_cons _ _))
  · rename_i body
    have hbody : (skipSpace body).length < size :=
      hsize ▸ Nat.lt_succ_of_le (length_skipSpace body)
    split at hread
    · rename_i later hskip
      cases hread
      exact (suffix_of_skipSpace_eq hskip).trans (List.suffix_cons _ _)
    · dsimp only at hread
      split at hread
      · cases hread
      · rename_i members later hlater hmembers
        cases hread
        exact (List.suffix_cons _ _).trans ((suffix_readMembers ⟨hlater, hmembers⟩ rfl).trans
          ((suffix_skipSpace body).trans (List.suffix_cons _ _)))
  · split at hread
    · cases hread
    · cases hread
      exact (List.drop_suffix _ _).trans (List.suffix_cons _ _)
termination_by 2 * size
decreasing_by all_goals omega

theorem suffix_readItems {size : Nat} {text rest : Text} {items : List Json}
    (h : ReadsItems text items rest) (hsize : text.length = size) : rest <:+ text := by
  obtain ⟨hlt, hread⟩ := h
  unfold readItems at hread
  split at hread
  · cases hread
  · rename_i item later hlater hitem
    have hfirst := suffix_readValue ⟨hlater, hitem⟩ rfl
    split at hread
    · rename_i last hskip
      cases hread
      exact (suffix_of_skipSpace_eq hskip).trans hfirst
    · rename_i next hskip
      dsimp only at hread
      split at hread
      · cases hread
      · rename_i others last hlast hothers
        cases hread
        have hshort := length_of_skipSpace_eq hskip
        have hspace := length_skipSpace next
        exact (suffix_readItems ⟨hlast, hothers⟩ rfl).trans
          ((suffix_skipSpace _).trans ((suffix_of_skipSpace_eq hskip).trans hfirst))
    · cases hread
termination_by 2 * size + 1
decreasing_by all_goals omega

theorem suffix_readMembers {size : Nat} {text rest : Text} {members : List (Text × Json)}
    (h : ReadsMembers text members rest) (hsize : text.length = size) :
    '\x7d' :: rest <:+ text := by
  obtain ⟨hlt, hread⟩ := h
  unfold readMembers at hread
  split at hread
  · rename_i body
    split at hread
    · cases hread
    · rename_i name afterName hname hreadName
      have hbody := (suffix_readText ⟨hname, hreadName⟩).trans (List.suffix_cons '"' body)
      split at hread
      · rename_i afterColon hcolon
        dsimp only at hread
        have hspace := length_skipSpace afterColon
        have hshort := length_of_skipSpace_eq hcolon
        split at hread
        · cases hread
        · rename_i value later hlater hvalue
          have hfirst := (suffix_readValue ⟨hlater, hvalue⟩ rfl).trans
            ((suffix_skipSpace _).trans ((suffix_of_skipSpace_eq hcolon).trans hbody))
          split at hread
          · rename_i last hskip
            cases hread
            rw [← hskip]
            exact (suffix_skipSpace _).trans hfirst
          · rename_i next hskip
            split at hread
            · cases hread
            · rename_i others last hlast hothers
              cases hread
              have hshortNext := length_of_skipSpace_eq hskip
              have hspaceNext := length_skipSpace next
              exact (suffix_readMembers ⟨hlast, hothers⟩ rfl).trans
                ((suffix_skipSpace _).trans ((suffix_of_skipSpace_eq hskip).trans hfirst))
          · cases hread
      · cases hread
  · cases hread
termination_by 2 * size + 1
decreasing_by all_goals (rw [List.length_cons] at hsize; omega)

end

theorem suffix_readObject {body rest : Text} {value : Json}
    (h : ReadsValue ('\x7b' :: body) value rest) : '\x7d' :: rest <:+ '\x7b' :: body := by
  obtain ⟨hlt, hread⟩ := h
  have hbody : skipSpace body <:+ '\x7b' :: body :=
    (suffix_skipSpace body).trans (List.suffix_cons _ _)
  rw [readValue] at hread
  split at hread
  · rename_i later hskip
    cases hread
    exact hskip ▸ hbody
  · split at hread
    · cases hread
    · rename_i members later hlater hmembers
      cases hread
      exact (suffix_readMembers ⟨hlater, hmembers⟩ rfl).trans hbody

def lastVisible? (text : Text) : Option Char :=
  text.reverse.find? fun c => !isSpace c

theorem lastVisible?_append_cons (text : Text) {c : Char} {blanks : Text} (hc : isSpace c = false)
    (hblanks : ∀ b ∈ blanks, isSpace b = true) : lastVisible? (text ++ c :: blanks) = some c := by
  have hnone : blanks.reverse.find? (fun b => !isSpace b) = none := by
    simpa using hblanks
  simp [lastVisible?, hnone, hc]

theorem lastVisible?_of_parse {body : Text} {value : Json}
    (h : parse ('\x7b' :: body) = .ok value) : lastVisible? ('\x7b' :: body) = some '\x7d' := by
  have hskip : skipSpace ('\x7b' :: body) = '\x7b' :: body :=
    skipSpace_of_beginsVisibly ⟨_, _, rfl, by decide⟩
  rw [parse, if_neg (by simp)] at h
  split at h
  · cases h
  · rename_i found rest hread
    split at h
    · rename_i hblank
      obtain ⟨rest, hrest⟩ := rest
      have hreads : ReadsValue (skipSpace ('\x7b' :: body)) found rest := ⟨hrest, hread⟩
      rw [hskip] at hreads
      obtain ⟨front, hfront⟩ := suffix_readObject hreads
      rw [← hfront]
      exact lastVisible?_append_cons front (by decide) (List.dropWhile_eq_nil_iff.1 hblank)
    · cases h

def Hangs (text : Text) : Prop :=
  ∃ c, lastVisible? text = some c ∧ c ≠ '\x7d'

theorem Hangs.parse_ne_ok {body : Text} (h : Hangs ('\x7b' :: body)) (value : Json) :
    parse ('\x7b' :: body) ≠ .ok value := by
  intro hparse
  obtain ⟨c, hlast, hc⟩ := h
  rw [lastVisible?_of_parse hparse] at hlast
  exact hc (Option.some.inj hlast).symm

/-- What comes before every gap of a text hangs, if it comes after another text. -/
def CutsOpen (before text : Text) : Prop :=
  ∀ front back, text = front ++ gap :: back → Hangs (before ++ front)

theorem cutsOpen_of_notMem {before text : Text} (h : gap ∉ text) : CutsOpen before text := by
  rintro front back rfl
  simp at h

theorem CutsOpen.append {before first second : Text} (hfirst : CutsOpen before first)
    (hsecond : CutsOpen (before ++ first) second) : CutsOpen before (first ++ second) := by
  intro front back heq
  rcases List.append_eq_append_iff.1 heq with ⟨middle, rfl, hmiddle⟩ | ⟨middle, rfl, hmiddle⟩
  · rw [← List.append_assoc]
    exact hsecond middle back hmiddle
  · cases middle with
    | nil => simpa using hsecond [] back hmiddle.symm
    | cons c rest =>
        obtain ⟨rfl, _⟩ := List.cons.inj hmiddle
        exact hfirst front rest rfl

structure Unclosed (value : Json) : Prop where
  cutsOpen : ∀ level before, Hangs before → CutsOpen before (renderAt level value)
  noReturn : ∀ level, '\r' ∉ renderAt level value

theorem Writable.unclosed {value : Json} (h : Writable value) : Unclosed value where
  cutsOpen level before _ := cutsOpen_of_notMem fun hmem =>
    absurd (h.isWritten level _ hmem) (by decide)
  noReturn level hmem := absurd (h.isWritten level _ hmem) (by decide)

theorem unclosed_integer (value : Int) : Unclosed (.integer value) := by
  cases hvalue : Text.isOversized value with
  | false => exact (Writable.integer hvalue).unclosed
  | true =>
      have htext (level : Nat) : renderAt level (.integer value) = [gap] := by
        rw [renderAt, if_pos hvalue]
      refine ⟨fun level before hbefore front back heq => ?_, fun level => ?_⟩
      · rw [htext] at heq
        cases front with
        | nil => simpa using hbefore
        | cons c rest => simp at heq
      · rw [htext]
        decide

/-! ## Objects with gaps -/

theorem gap_notMem_newline (level : Nat) : gap ∉ newline level := fun hmem =>
  absurd (isWritten_newline level _ hmem) (by decide)

theorem Unclosed.cutsOpen_member {value : Json} (h : Unclosed value) (level : Nat) (name : Text)
    {front : Text} (hfront : gap ∉ front) (before : Text) :
    CutsOpen before (front ++ renderText name ++ [':', ' '] ++ renderAt level value) := by
  have hname : gap ∉ renderText name := fun hmem =>
    absurd (isWritten_renderText name _ hmem) (by decide)
  have hgap : gap ∉ front ++ renderText name ++ [':', ' '] := by
    simp only [List.mem_append, not_or]
    exact ⟨⟨hfront, hname⟩, by decide⟩
  refine (cutsOpen_of_notMem hgap).append (h.cutsOpen level _ ⟨':', ?_, by decide⟩)
  rw [← List.append_assoc]
  refine lastVisible?_append_cons _ (by decide) fun b hb => ?_
  rw [List.mem_singleton.1 hb]
  rfl

theorem cutsOpen_renderMembers {members : List (Text × Json)}
    (h : ∀ member ∈ members, Unclosed member.2) (level : Nat) (before : Text) :
    CutsOpen before (renderMembers level members) := by
  induction members generalizing before with
  | nil => exact cutsOpen_of_notMem List.not_mem_nil
  | cons member members ih =>
      have hcomma : gap ∉ ',' :: newline level := by
        simp only [List.mem_cons, not_or]
        exact ⟨by decide, gap_notMem_newline level⟩
      have hmember := (h member List.mem_cons_self).cutsOpen_member level member.1 hcomma before
      exact hmember.append (ih (fun x hx => h x (List.mem_cons_of_mem _ hx)) _)

/-- An object may be cut anywhere, whatever comes before it. -/
theorem cutsOpen_object {members : List (Text × Json)} (h : ∀ member ∈ members, Unclosed member.2)
    (level : Nat) (before : Text) : CutsOpen before (renderAt level (.object members)) := by
  cases members with
  | nil => exact cutsOpen_of_notMem (by rw [renderAt]; decide)
  | cons member members =>
      have hopen : gap ∉ '\x7b' :: newline (level + 1) := by
        simp only [List.mem_cons, not_or]
        exact ⟨by decide, gap_notMem_newline (level + 1)⟩
      have hclose : gap ∉ newline level ++ ['\x7d'] := by
        simp only [List.mem_append, not_or]
        exact ⟨gap_notMem_newline level, by decide⟩
      have hmember := (h member List.mem_cons_self).cutsOpen_member (level + 1) member.1 hopen before
      have hmembers := hmember.append
        (cutsOpen_renderMembers (fun x hx => h x (List.mem_cons_of_mem _ hx)) (level + 1) _)
      rw [renderAt]
      simpa only [List.append_assoc, List.cons_append] using
        hmembers.append (cutsOpen_of_notMem hclose)

theorem mem_renderMembers {members : List (Text × Json)} {member : Text × Json} {c : Char}
    (hmember : member ∈ members) (hc : ∀ level, c ∈ renderAt level member.2) (level : Nat) :
    c ∈ renderMembers level members := by
  induction members with
  | nil => cases hmember
  | cons first members ih =>
      rw [renderMembers]
      rcases List.mem_cons.1 hmember with rfl | hmember
      · exact List.mem_append_left _ (List.mem_append_right _ (hc level))
      · exact List.mem_append_right _ (ih hmember)

theorem mem_renderObject {members : List (Text × Json)} {member : Text × Json} {c : Char}
    (hmember : member ∈ members) (hc : ∀ level, c ∈ renderAt level member.2) (level : Nat) :
    c ∈ renderAt level (.object members) := by
  cases members with
  | nil => cases hmember
  | cons first members =>
      rw [renderAt]
      refine List.mem_append_left _ (List.mem_append_left _ ?_)
      rcases List.mem_cons.1 hmember with rfl | hmember
      · exact List.mem_append_left _ (List.mem_append_right _ (hc _))
      · exact List.mem_append_right _ (mem_renderMembers hmember hc _)

theorem unclosed_object {members : List (Text × Json)} (h : ∀ member ∈ members, Unclosed member.2) :
    Unclosed (.object members) where
  cutsOpen level before _ := cutsOpen_object h level before
  noReturn level hmem := by
    have hcontrol : ∀ d, IsWritten d → d ≠ '\r' := by
      rintro d hd rfl
      exact absurd hd (by decide)
    exact forall_renderObject hcontrol
      (fun member hmember level d hd hreturn => (h member hmember).noReturn level (hreturn ▸ hd))
      level '\r' hmem rfl

theorem getLast?_renderObject (members : List (Text × Json)) (level : Nat) :
    (renderAt level (.object members)).getLast? = some '\x7d' := by
  cases members with
  | nil => rfl
  | cons member members => rw [renderAt, List.getLast?_append_cons, List.getLast?_singleton]

theorem Hangs.getLast?_ne {text : Text} (h : Hangs text) : text.getLast? ≠ some '\x7d' := by
  intro hlast
  obtain ⟨front, rfl⟩ := List.getLast?_eq_some_iff.1 hlast
  obtain ⟨c, hc, hne⟩ := h
  rw [lastVisible?_append_cons front (by decide) fun b hb => absurd hb List.not_mem_nil] at hc
  exact hne (Option.some.inj hc).symm

theorem cut_eq {members : List (Text × Json)} (hgap : gap ∈ render (.object members)) :
    ∃ front back, render (.object members) = front ++ gap :: back ∧
      (render (.object members)).takeWhile (· ≠ gap) = front := by
  obtain ⟨front, back, htext, hfront⟩ := List.eq_append_cons_of_mem hgap
  refine ⟨front, back, htext, ?_⟩
  rw [htext, List.takeWhile_append_of_pos, List.takeWhile_cons_of_neg (by simp), List.append_nil]
  intro c hc
  exact decide_eq_true fun h => hfront (h ▸ hc)

theorem hangs_cut {members : List (Text × Json)} (h : ∀ member ∈ members, Unclosed member.2)
    (hgap : gap ∈ render (.object members)) :
    Hangs ((render (.object members)).takeWhile (· ≠ gap)) := by
  obtain ⟨front, back, htext, hcut⟩ := cut_eq hgap
  rw [hcut]
  exact cutsOpen_object h 0 [] front back htext

/-- An object that was written up to a gap is not parsed. -/
theorem parse_cut_ne_ok {members : List (Text × Json)} (h : ∀ member ∈ members, Unclosed member.2)
    (hgap : gap ∈ render (.object members)) (value : Json) :
    parse (Text.unifyNewlines ((render (.object members)).takeWhile (· ≠ gap))) ≠ .ok value := by
  have hangs := hangs_cut h hgap
  obtain ⟨front, back, htext, hcut⟩ := cut_eq hgap
  rw [hcut] at hangs ⊢
  have hreturn : '\r' ∉ front := fun hmem =>
    (unclosed_object h).noReturn 0 (show _ ∈ render _ from htext ▸ List.mem_append_left _ hmem)
  rw [Text.unifyNewlines_eq_self hreturn]
  cases members with
  | nil => exact absurd hgap (by rw [render, renderAt]; decide)
  | cons member members =>
      have hopen : ∃ body, front = '\x7b' :: body := by
        rw [render, renderAt] at htext
        cases front with
        | nil =>
            obtain ⟨c, hlast, _⟩ := hangs
            cases hlast
        | cons c body => exact ⟨body, by rw [(List.cons.inj htext).1]⟩
      obtain ⟨body, rfl⟩ := hopen
      exact hangs.parse_ne_ok value

end Json

end Relbase
