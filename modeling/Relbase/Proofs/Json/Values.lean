import Relbase.Proofs.Json.Texts
import Relbase.Proofs.Map.Lookup

/-!
# Reading back JSON values

A value without double precision numbers, whose integers can be written and whose objects
name every member once, is read back from its text.
-/

namespace Relbase.Json

/-! ## Readers as relations -/

def ReadsValue (text : Text) (value : Json) (rest : Text) : Prop :=
  ∃ h, readValue text = .ok (value, ⟨rest, h⟩)

def ReadsItems (text : Text) (items : List Json) (rest : Text) : Prop :=
  ∃ h, readItems text = .ok (items, ⟨rest, h⟩)

def ReadsMembers (text : Text) (members : List (Text × Json)) (rest : Text) : Prop :=
  ∃ h, readMembers text = .ok (members, ⟨rest, h⟩)

theorem readsValue_text {body value rest : Text} (h : ReadsText body value rest) :
    ReadsValue ('"' :: body) (.text value) rest := by
  obtain ⟨hlt, hread⟩ := h
  refine ⟨Nat.lt_succ_of_lt hlt, ?_⟩
  rw [readValue, hread]

theorem readsValue_nil_list {body rest : Text} (h : skipSpace body = ']' :: rest) :
    ReadsValue ('[' :: body) (.list []) rest := by
  refine ⟨Nat.lt_succ_of_lt (length_of_skipSpace_eq h), ?_⟩
  rw [readValue]
  split
  · rename_i later hlater
    rw [h] at hlater
    cases hlater
    rfl
  · rename_i hne
    exact absurd h (hne _)

theorem readsValue_list {body rest : Text} {items : List Json}
    (hopen : ∀ later, skipSpace body ≠ ']' :: later) (h : ReadsItems (skipSpace body) items rest) :
    ReadsValue ('[' :: body) (.list items) rest := by
  obtain ⟨hlt, hread⟩ := h
  refine ⟨Nat.lt_of_lt_of_le hlt (Nat.le_succ_of_le (length_skipSpace body)), ?_⟩
  rw [readValue]
  split
  · rename_i later hlater
    exact absurd hlater (hopen later)
  · rw [hread]

theorem readsValue_nil_object {body rest : Text} (h : skipSpace body = '\x7d' :: rest) :
    ReadsValue ('\x7b' :: body) (.object []) rest := by
  refine ⟨Nat.lt_succ_of_lt (length_of_skipSpace_eq h), ?_⟩
  rw [readValue]
  split
  · rename_i later hlater
    rw [h] at hlater
    cases hlater
    rfl
  · rename_i hne
    exact absurd h (hne _)

theorem readsValue_object {body rest : Text} {members : List (Text × Json)}
    (hopen : ∀ later, skipSpace body ≠ '\x7d' :: later)
    (h : ReadsMembers (skipSpace body) members rest) :
    ReadsValue ('\x7b' :: body) (.object (Assoc.ofList members)) rest := by
  obtain ⟨hlt, hread⟩ := h
  refine ⟨Nat.lt_of_lt_of_le hlt (Nat.le_succ_of_le (length_skipSpace body)), ?_⟩
  rw [readValue]
  split
  · rename_i later hlater
    exact absurd hlater (hopen later)
  · rw [hread]

theorem readsValue_scalar {text rest : Text} {c : Char} {value : Json}
    (hc : c ≠ '"' ∧ c ≠ '[' ∧ c ≠ '\x7b')
    (h : readScalar (c :: (text ++ rest)) = .ok (value, text.length + 1)) :
    ReadsValue (c :: (text ++ rest)) value rest := by
  refine ⟨by simp only [List.length_cons, List.length_append]; omega, ?_⟩
  rw [readValue, h]
  · simp
  · exact hc.1
  · exact hc.2.1
  · exact hc.2.2

theorem readsItems_last {text later rest : Text} {item : Json} (hitem : ReadsValue text item later)
    (hend : skipSpace later = ']' :: rest) : ReadsItems text [item] rest := by
  obtain ⟨hlt, hread⟩ := hitem
  refine ⟨Nat.lt_trans (length_of_skipSpace_eq hend) hlt, ?_⟩
  rw [readItems, hread]
  dsimp only
  split
  · rename_i found hfound
    rw [hend] at hfound
    cases hfound
    rfl
  · rename_i found hfound
    rw [hend] at hfound
    cases hfound
  · rename_i hne _
    exact absurd hend (hne _)

theorem readsItems_more {text later next rest : Text} {item : Json} {items : List Json}
    (hitem : ReadsValue text item later) (hcomma : skipSpace later = ',' :: next)
    (hitems : ReadsItems (skipSpace next) items rest) : ReadsItems text (item :: items) rest := by
  obtain ⟨hlt, hread⟩ := hitem
  obtain ⟨hltItems, hreadItems⟩ := hitems
  have hshort := length_of_skipSpace_eq hcomma
  have hspace := length_skipSpace next
  refine ⟨by omega, ?_⟩
  rw [readItems, hread]
  dsimp only
  split
  · rename_i found hfound
    rw [hcomma] at hfound
    cases hfound
  · rename_i found hfound
    have heq : next = found := by
      rw [hcomma] at hfound
      cases hfound
      rfl
    subst heq
    rw [hreadItems]
  · rename_i hne
    exact absurd hcomma (hne _)

theorem readsMembers_last {body afterName afterColon later rest name : Text} {value : Json}
    (hname : ReadsText body name afterName) (hcolon : skipSpace afterName = ':' :: afterColon)
    (hvalue : ReadsValue (skipSpace afterColon) value later)
    (hend : skipSpace later = '\x7d' :: rest) :
    ReadsMembers ('"' :: body) [(name, value)] rest := by
  obtain ⟨hltName, hreadName⟩ := hname
  obtain ⟨hltValue, hreadValue⟩ := hvalue
  have hshort := length_of_skipSpace_eq hcolon
  have hspace := length_skipSpace afterColon
  have hlast := length_of_skipSpace_eq hend
  refine ⟨by simp only [List.length_cons]; omega, ?_⟩
  rw [readMembers, hreadName]
  dsimp only
  split
  · rename_i found hfound
    have heq : afterColon = found := by
      rw [hcolon] at hfound
      cases hfound
      rfl
    subst heq
    rw [hreadValue]
    dsimp only
    split
    · rename_i other hother
      rw [hend] at hother
      cases hother
      rfl
    · rename_i other hother
      rw [hend] at hother
      cases hother
    · rename_i hne _
      exact absurd hend (hne _)
  · rename_i hne
    exact absurd hcolon (hne _)

theorem readsMembers_more {body afterName afterColon later next rest name : Text} {value : Json}
    {members : List (Text × Json)}
    (hname : ReadsText body name afterName) (hcolon : skipSpace afterName = ':' :: afterColon)
    (hvalue : ReadsValue (skipSpace afterColon) value later)
    (hcomma : skipSpace later = ',' :: next)
    (hmembers : ReadsMembers (skipSpace next) members rest) :
    ReadsMembers ('"' :: body) ((name, value) :: members) rest := by
  obtain ⟨hltName, hreadName⟩ := hname
  obtain ⟨hltValue, hreadValue⟩ := hvalue
  obtain ⟨hltMembers, hreadMembers⟩ := hmembers
  have hshort := length_of_skipSpace_eq hcolon
  have hspace := length_skipSpace afterColon
  have hshortComma := length_of_skipSpace_eq hcomma
  have hspaceNext := length_skipSpace next
  refine ⟨by simp only [List.length_cons]; omega, ?_⟩
  rw [readMembers, hreadName]
  dsimp only
  split
  · rename_i found hfound
    have heq : afterColon = found := by
      rw [hcolon] at hfound
      cases hfound
      rfl
    subst heq
    rw [hreadValue]
    dsimp only
    split
    · rename_i other hother
      rw [hcomma] at hother
      cases hother
    · rename_i other hother
      have hnext : next = other := by
        rw [hcomma] at hother
        cases hother
        rfl
      subst hnext
      rw [hreadMembers]
    · rename_i hne
      exact absurd hcomma (hne _)
  · rename_i hne
    exact absurd hcolon (hne _)

/-! ## Texts of values -/

/-- A value that can be written and read again. -/
inductive Writable : Json → Prop
  | null : Writable .null
  | boolean (value : Bool) : Writable (.boolean value)
  | integer {value : Int} (hvalue : Text.isOversized value = false) : Writable (.integer value)
  | text (value : Text) : Writable (.text value)
  | list {items : List Json} (hitems : ∀ item ∈ items, Writable item) : Writable (.list items)
  | object {members : List (Text × Json)} (hnames : (Assoc.keys members).Nodup)
      (hmembers : ∀ member ∈ members, Writable member.2) : Writable (.object members)

def BeginsVisibly (text : Text) : Prop :=
  ∃ c rest, text = c :: rest ∧ isSpace c = false

theorem skipSpace_of_beginsVisibly {text : Text} (h : BeginsVisibly text) :
    skipSpace text = text := by
  obtain ⟨c, rest, rfl, hc⟩ := h
  exact List.dropWhile_cons_of_neg (by simp [hc])

theorem skipSpace_newline (level : Nat) {text : Text} (h : BeginsVisibly text) :
    skipSpace (newline level ++ text) = text := by
  have hspaces : ∀ c ∈ newline level, isSpace c = true := by
    intro c hc
    rcases List.mem_cons.1 hc with rfl | hc
    · rfl
    · rw [List.eq_of_mem_replicate hc]
      rfl
  have hskip := skipSpace_of_beginsVisibly h
  rw [skipSpace] at hskip ⊢
  rw [List.dropWhile_append_of_pos hspaces, hskip]

theorem endsNumber_newline (level : Nat) (rest : Text) : EndsNumber (newline level ++ rest) := by
  intro c hc
  cases hc
  decide

theorem endsNumber_comma (rest : Text) : EndsNumber (',' :: rest) := by
  intro c hc
  cases hc
  decide

theorem ofInt_begins (i : Int) :
    ∃ c rest, Text.ofInt i = c :: rest ∧ (c = '-' ∨ c.isDigit = true) := by
  rw [Text.ofInt_eq]
  by_cases hi : i < 0
  · rw [if_pos hi]
    exact ⟨_, _, rfl, .inl rfl⟩
  · rw [if_neg hi]
    cases hdigits : Nat.toDigits 10 i.natAbs with
    | nil => exact absurd hdigits Nat.toDigits_ne_nil
    | cons c rest =>
        exact ⟨c, rest, rfl, .inr (Text.isDigit_of_mem_toDigits (hdigits ▸ List.mem_cons_self))⟩

theorem ne_of_begins {c d : Char} (hc : c = '-' ∨ c.isDigit = true) (hminus : d ≠ '-')
    (hd : d.isDigit = false) : c ≠ d := by
  rintro rfl
  rcases hc with rfl | hc
  · exact hminus rfl
  · rw [hd] at hc
    cases hc

theorem Writable.begins {value : Json} (h : Writable value) (level : Nat) :
    ∃ c rest, renderAt level value = c :: rest ∧ isSpace c = false ∧ c ≠ ']' ∧ c ≠ '\uFEFF' := by
  cases h with
  | null => exact ⟨_, _, rfl, by decide⟩
  | boolean value => cases value <;> exact ⟨_, _, rfl, by decide⟩
  | integer hvalue =>
      rename_i value
      obtain ⟨c, rest, htext, hc⟩ := ofInt_begins value
      refine ⟨c, rest, by rw [renderAt, if_neg (by simp [hvalue]), htext], ?_,
        ne_of_begins hc (by decide) (by decide), ne_of_begins hc (by decide) (by decide)⟩
      simp only [isSpace, Bool.or_eq_false_iff, beq_eq_false_iff_ne]
      exact ⟨⟨⟨ne_of_begins hc (by decide) (by decide), ne_of_begins hc (by decide) (by decide)⟩,
        ne_of_begins hc (by decide) (by decide)⟩, ne_of_begins hc (by decide) (by decide)⟩
  | text value => exact ⟨_, _, by rw [renderAt]; rfl, by decide⟩
  | list hitems =>
      rename_i items
      cases items with
      | nil => exact ⟨_, _, by rw [renderAt], by decide⟩
      | cons item items =>
          exact ⟨_, _, by rw [renderAt]; simp only [List.cons_append]; rfl, by decide⟩
  | object hnames hmembers =>
      rename_i members
      cases members with
      | nil => exact ⟨_, _, by rw [renderAt], by decide⟩
      | cons member members =>
          exact ⟨_, _, by rw [renderAt]; simp only [List.cons_append]; rfl, by decide⟩

theorem Writable.beginsVisibly {value : Json} (h : Writable value) (level : Nat) (rest : Text) :
    BeginsVisibly (renderAt level value ++ rest) := by
  obtain ⟨c, later, htext, hc, _⟩ := h.begins level
  exact ⟨c, later ++ rest, by rw [htext]; rfl, hc⟩

/-- A value is read back, whatever follows it that a number does not go on with. -/
def ReadsBack (value : Json) : Prop :=
  ∀ level rest, EndsNumber rest → ReadsValue (renderAt level value ++ rest) value rest

theorem readsItems_render {item : Json} {items : List Json}
    (hwritable : ∀ x ∈ item :: items, Writable x) (h : ∀ x ∈ item :: items, ReadsBack x)
    (inner outer : Nat) (rest : Text) :
    ReadsItems
      (renderAt inner item ++ (renderItems inner items ++ (newline outer ++ ']' :: rest)))
      (item :: items) rest := by
  induction items generalizing item with
  | nil =>
      have hend : skipSpace (newline outer ++ ']' :: rest) = ']' :: rest :=
        skipSpace_newline outer ⟨_, _, rfl, by decide⟩
      exact readsItems_last (h item List.mem_cons_self inner _ (endsNumber_newline outer _)) hend
  | cons next items ih =>
      have hitems := ih (fun x hx => hwritable x (List.mem_cons_of_mem _ hx))
        fun x hx => h x (List.mem_cons_of_mem _ hx)
      have hvisible := (hwritable next (by simp)).beginsVisibly inner
        (renderItems inner items ++ (newline outer ++ ']' :: rest))
      rw [← skipSpace_newline inner hvisible] at hitems
      have hread := readsItems_more (h item List.mem_cons_self inner _ (endsNumber_comma _))
        (skipSpace_of_beginsVisibly ⟨_, _, rfl, by decide⟩) hitems
      simpa only [renderItems, List.append_assoc, List.cons_append] using hread

theorem renderText_append (name rest : Text) :
    renderText name ++ rest = '"' :: (name.flatMap escapedChar ++ '"' :: rest) := by
  simp [renderText]

theorem skipSpace_colon (rest : Text) : skipSpace (':' :: rest) = ':' :: rest :=
  skipSpace_of_beginsVisibly ⟨_, _, rfl, by decide⟩

theorem skipSpace_blank {text : Text} (h : BeginsVisibly text) :
    skipSpace (' ' :: text) = text := by
  have hskip := skipSpace_of_beginsVisibly h
  rw [skipSpace] at hskip ⊢
  rw [List.dropWhile_cons_of_pos (by decide), hskip]

theorem ReadsBack.afterColon {value : Json} (hwritable : Writable value) (h : ReadsBack value)
    (level : Nat) {rest : Text} (hrest : EndsNumber rest) :
    ReadsValue (skipSpace (' ' :: (renderAt level value ++ rest))) value rest := by
  rw [skipSpace_blank (hwritable.beginsVisibly level rest)]
  exact h level rest hrest

theorem beginsVisibly_renderText (name rest : Text) : BeginsVisibly (renderText name ++ rest) := by
  rw [renderText_append]
  exact ⟨_, _, rfl, by decide⟩

theorem readsMembers_render {member : Text × Json} {members : List (Text × Json)}
    (hwritable : ∀ x ∈ member :: members, Writable x.2)
    (h : ∀ x ∈ member :: members, ReadsBack x.2) (inner outer : Nat) (rest : Text) :
    ReadsMembers
      (renderText member.1 ++ (':' :: ' ' :: (renderAt inner member.2 ++
        (renderMembers inner members ++ (newline outer ++ '\x7d' :: rest)))))
      (member :: members) rest := by
  have hvalue {later : Text} (hlater : EndsNumber later) :=
    (h member List.mem_cons_self).afterColon (hwritable member List.mem_cons_self) inner hlater
  rw [renderText_append]
  cases members with
  | nil =>
      have hend : skipSpace (newline outer ++ '\x7d' :: rest) = '\x7d' :: rest :=
        skipSpace_newline outer ⟨_, _, rfl, by decide⟩
      exact readsMembers_last (readsText_escaped _ _) (skipSpace_colon _)
        (hvalue (endsNumber_newline outer _)) hend
  | cons next members =>
      have hwritableRest : ∀ x ∈ next :: members, Writable x.2 :=
        fun x hx => hwritable x (List.mem_cons_of_mem _ hx)
      have hrest : ∀ x ∈ next :: members, ReadsBack x.2 :=
        fun x hx => h x (List.mem_cons_of_mem _ hx)
      have hmembers := readsMembers_render hwritableRest hrest inner outer rest
      rw [← skipSpace_newline inner (beginsVisibly_renderText next.1 _)] at hmembers
      have hread := readsMembers_more (readsText_escaped member.1 _) (skipSpace_colon _)
        (hvalue (endsNumber_comma _)) (skipSpace_of_beginsVisibly ⟨_, _, rfl, by decide⟩) hmembers
      simpa only [renderMembers, List.append_assoc, List.cons_append, List.nil_append] using hread

theorem Writable.readsBack {value : Json} (h : Writable value) : ReadsBack value := by
  induction h with
  | null =>
      intro level rest hrest
      exact @readsValue_scalar "ull".toList rest 'n' _ (by decide) rfl
  | boolean value =>
      intro level rest hrest
      cases value with
      | true => exact @readsValue_scalar "rue".toList rest 't' _ (by decide) rfl
      | false => exact @readsValue_scalar "alse".toList rest 'f' _ (by decide) rfl
  | integer hvalue =>
      rename_i value
      intro level rest hrest
      obtain ⟨c, later, htext, hc⟩ := ofInt_begins value
      have hscalar := readScalar_ofInt hvalue hrest
      rw [renderAt, if_neg (by simp [hvalue])]
      rw [htext] at hscalar ⊢
      exact readsValue_scalar ⟨ne_of_begins hc (by decide) (by decide),
        ne_of_begins hc (by decide) (by decide), ne_of_begins hc (by decide) (by decide)⟩ hscalar
  | text value =>
      intro level rest hrest
      rw [renderAt, renderText_append]
      exact readsValue_text (readsText_escaped value rest)
  | list hitems ih =>
      rename_i items
      intro level rest hrest
      cases items with
      | nil =>
          rw [renderAt]
          exact readsValue_nil_list (skipSpace_of_beginsVisibly ⟨_, _, rfl, by decide⟩)
      | cons item items =>
          have hread := readsItems_render hitems ih (level + 1) level rest
          obtain ⟨c, later, htext, _, hclose, _⟩ :=
            (hitems item List.mem_cons_self).begins (level + 1)
          have hskip := skipSpace_newline (level + 1) ((hitems item List.mem_cons_self).beginsVisibly
            (level + 1) (renderItems (level + 1) items ++ (newline level ++ ']' :: rest)))
          rw [← hskip] at hread
          have hopen : ∀ last, skipSpace (newline (level + 1) ++ (renderAt (level + 1) item ++
              (renderItems (level + 1) items ++ (newline level ++ ']' :: rest)))) ≠ ']' :: last := by
            intro last hlast
            rw [hskip, htext] at hlast
            exact hclose (List.cons.inj hlast).1
          have hlist := readsValue_list hopen hread
          rw [renderAt]
          simpa only [List.append_assoc, List.cons_append, List.nil_append] using hlist
  | object hnames hmembers ih =>
      rename_i members
      intro level rest hrest
      cases members with
      | nil =>
          rw [renderAt]
          exact readsValue_nil_object (skipSpace_of_beginsVisibly ⟨_, _, rfl, by decide⟩)
      | cons member members =>
          have hread := readsMembers_render hmembers ih (level + 1) level rest
          have hskip := skipSpace_newline (level + 1) (beginsVisibly_renderText member.1
            (':' :: ' ' :: (renderAt (level + 1) member.2 ++ (renderMembers (level + 1) members ++
              (newline level ++ '\x7d' :: rest)))))
          rw [← hskip] at hread
          have hopen : ∀ last, skipSpace (newline (level + 1) ++ (renderText member.1 ++ (':' :: ' ' ::
              (renderAt (level + 1) member.2 ++ (renderMembers (level + 1) members ++
                (newline level ++ '\x7d' :: rest)))))) ≠ '\x7d' :: last := by
            intro last hlast
            rw [hskip, renderText_append] at hlast
            exact absurd (List.cons.inj hlast).1 (by decide)
          have hobject := readsValue_object hopen hread
          rw [Assoc.ofList_eq_self hnames] at hobject
          rw [renderAt]
          simpa only [List.append_assoc, List.cons_append, List.nil_append] using hobject

end Relbase.Json
