import Relbase.Proofs.Query.Grammar

/-!
# Reading by the grammar: steps, lists and conditions

Every step reads exactly what its nonterminal derives.  For conditions the point is the
count of open parentheses: a group that is not closed leaves the count too high and
stops before a token that no enclosing group can close with, so no later parenthesis
makes up for it.
-/

namespace Relbase

def Reads {α : Type} (step : ReadStep α) (tokens : List Token) (result : α)
    (rest : List Token) : Prop :=
  ∃ h, step tokens = .ok (result, ⟨rest, h⟩)

namespace Grammar

/-! ## Single tokens -/

theorem mem_literalKinds {kind : TokenKind} :
    kind ∈ literalKinds ↔ ∃ value, kind = .literal value := by
  constructor
  · intro h
    simp only [literalKinds, List.mem_cons, List.not_mem_nil, or_false] at h
    rcases h with h | h | h | h | h <;> exact ⟨_, h⟩
  · rintro ⟨value, rfl⟩
    cases value <;> simp [literalKinds]

theorem reads_expect {expected : List TokenKind} {tokens rest : List Token} {token : Token} :
    Reads (expect expected) tokens token rest ↔
      tokens = token :: rest ∧ token.kind ∈ expected := by
  constructor
  · rintro ⟨hlt, h⟩
    cases tokens with
    | nil => simp [expect] at h
    | cons first later =>
        simp only [expect] at h
        split at h
        · rename_i hkind
          cases h
          exact ⟨rfl, hkind⟩
        · cases h
  · rintro ⟨rfl, hkind⟩
    exact ⟨Nat.lt_succ_self _, by simp [expect, hkind]⟩

theorem reads_element {accepted : List TokenKind} {tokens rest : List Token} {token : Token}
    (haccepted : TokenKind.endOfInput ∉ accepted) :
    Reads (readElement accepted) tokens token rest ↔
      tokens = token :: rest ∧ token.kind ∈ accepted := by
  constructor
  · rintro ⟨hlt, h⟩
    cases tokens with
    | nil => simp [readElement] at h
    | cons first later =>
        simp only [readElement] at h
        split at h
        · cases h
        · split at h
          · rename_i hkind
            cases h
            exact ⟨rfl, hkind⟩
          · cases h
  · rintro ⟨rfl, hkind⟩
    have hend : token.kind ≠ .endOfInput := fun e => haccepted (e ▸ hkind)
    exact ⟨Nat.lt_succ_self _, by simp [readElement, hkind, hend]⟩

/-! ## Assignments and comparisons -/

theorem reads_assignment {tokens rest : List Token} {result : Text × Text} :
    Reads readAssignment tokens result rest ↔
      ∃ part, tokens = part ++ rest ∧ IsAssignment part result := by
  constructor
  · rintro ⟨hlt, h⟩
    cases tokens with
    | nil => simp [readAssignment] at h
    | cons name later =>
        simp only [readAssignment] at h
        split at h
        · rename_i hname
          split at h
          · cases h
          · rename_i sign afterSign hafterSign hsign
            obtain ⟨rfl, hsignKind⟩ := reads_expect.1 ⟨hafterSign, hsign⟩
            split at h
            · cases h
            · rename_i value afterValue hafterValue hvalue
              obtain ⟨rfl, hvalueKind⟩ := reads_expect.1 ⟨hafterValue, hvalue⟩
              cases h
              exact ⟨[name, sign, value], rfl,
                .intro hname (List.mem_singleton.1 hsignKind) (mem_literalKinds.1 hvalueKind)⟩
        · cases h
  · rintro ⟨part, rfl, hpart⟩
    cases hpart with
    | intro hname hsign hliteral =>
        rename_i name sign literal
        obtain ⟨hsignLt, hsignRead⟩ : Reads (expect [.assign]) (sign :: literal :: rest) sign
          (literal :: rest) := reads_expect.2 ⟨rfl, by simp [hsign]⟩
        obtain ⟨hliteralLt, hliteralRead⟩ : Reads (expect literalKinds) (literal :: rest) literal
          rest := reads_expect.2 ⟨rfl, mem_literalKinds.2 hliteral⟩
        refine ⟨by simp; omega, ?_⟩
        simp only [List.cons_append, List.nil_append, readAssignment, hname, if_true, hsignRead,
          hliteralRead]

theorem reads_comparison {tokens rest : List Token} {result : Comparison} :
    Reads readComparison tokens result rest ↔
      ∃ name sign literal : Token, tokens = name :: sign :: literal :: rest ∧
        name.kind = .identifier ∧ sign.kind = .comparator result.comparator ∧
        IsLiteral literal ∧ result = ⟨name.text, result.comparator, literal.value⟩ := by
  constructor
  · rintro ⟨hlt, h⟩
    simp only [readComparison] at h
    split at h
    · cases h
    · split at h
      · cases h
      · split at h
        · rename_i name _ _ sign afterSign hafterName hname _ relation hsign
          obtain ⟨rfl, hnameKind⟩ := reads_expect.1 ⟨hafterName, hname⟩
          split at h
          · cases h
          · rename_i value afterValue hafterValue hvalue
            obtain ⟨rfl, hvalueKind⟩ := reads_expect.1 ⟨hafterValue, hvalue⟩
            cases h
            exact ⟨name, sign, value, rfl, List.mem_singleton.1 hnameKind, hsign,
              mem_literalKinds.1 hvalueKind, rfl⟩
        · cases h
  · rintro ⟨name, sign, literal, rfl, hname, hsign, hliteral, hresult⟩
    obtain ⟨hnameLt, hnameRead⟩ : Reads (expect [.identifier]) (name :: sign :: literal :: rest)
      name (sign :: literal :: rest) := reads_expect.2 ⟨rfl, by simp [hname]⟩
    obtain ⟨hliteralLt, hliteralRead⟩ : Reads (expect literalKinds) (literal :: rest) literal
      rest := reads_expect.2 ⟨rfl, mem_literalKinds.2 hliteral⟩
    refine ⟨by simp; omega, ?_⟩
    rw [hresult]
    simp only [readComparison, hnameRead, hsign, hliteralRead]

/-! ## Lists -/

/-- If an element is read exactly by its nonterminal, so is a list of elements that ends
before the ending token. -/
theorem reads_separated {α : Type} {element : ReadStep α} {IsElement : List Token → α → Prop}
    {ending : TokenKind} (hcomma : ending ≠ .comma) (hend : ending ≠ .endOfInput)
    (helement : ∀ {tokens result rest}, Reads element tokens result rest ↔
      ∃ part, tokens = part ++ rest ∧ IsElement part result)
    {tokens rest : List Token} {results : List α} :
    Reads (readSeparated element ending) tokens results rest ↔
      nextKind rest = ending ∧ ∃ part, tokens = part ++ rest ∧ IsList IsElement part results := by
  constructor
  · rintro ⟨hlt, h⟩
    fun_induction readSeparated element ending tokens generalizing results with
    | case1 => cases h
    | case2 => cases h
    | case3 tokens first next later _ hnext hafterFirst hfirst =>
        obtain ⟨part, rfl, hpart⟩ := helement.1 ⟨hafterFirst, hfirst⟩
        cases h
        exact ⟨hnext, part, rfl, .single hpart⟩
    | case4 => cases h
    | case5 tokens first next later _ _ hnext _ others last hlast hothers hafterFirst hfirst ih =>
        obtain ⟨part, rfl, hpart⟩ := helement.1 ⟨hafterFirst, hfirst⟩
        cases h
        obtain ⟨hrest, tail, rfl, htail⟩ := ih hlast hothers
        exact ⟨hrest, part ++ next :: tail, by simp, .more hpart hnext htail⟩
    | case6 => cases h
  · rintro ⟨hrest, part, rfl, hpart⟩
    induction hpart with
    | single hfirst =>
        rename_i part first
        obtain ⟨hlt, hread⟩ := helement.2 ⟨part, rfl, hfirst⟩
        refine ⟨hlt, ?_⟩
        cases rest with
        | nil => exact absurd hrest.symm hend
        | cons next later =>
            rw [readSeparated]
            simp only [hread]
            exact if_pos hrest
    | more hfirst hnext hothers ih =>
        rename_i part later comma first others
        obtain ⟨hlt, hread⟩ : Reads element (part ++ comma :: (later ++ rest)) first
          (comma :: (later ++ rest)) := helement.2 ⟨part, rfl, hfirst⟩
        obtain ⟨hlaterLt, hlaterRead⟩ := ih
        rw [List.append_assoc, List.cons_append]
        refine ⟨by simp; omega, ?_⟩
        rw [readSeparated]
        simp only [hread]
        rw [if_neg (by rw [hnext]; exact hcomma.symm), if_pos hnext]
        simp only [hlaterRead]

theorem reads_name_element {tokens rest : List Token} {result : Token} :
    Reads (readElement [.identifier]) tokens result rest ↔
      ∃ part, tokens = part ++ rest ∧ part = [result] ∧ result.kind = .identifier := by
  rw [reads_element (by simp)]
  constructor
  · rintro ⟨rfl, hkind⟩
    exact ⟨[result], rfl, rfl, List.mem_singleton.1 hkind⟩
  · rintro ⟨_, rfl, rfl, hkind⟩
    exact ⟨rfl, List.mem_singleton.2 hkind⟩

theorem reads_literal_element {tokens rest : List Token} {result : Token} :
    Reads (readElement literalKinds) tokens result rest ↔
      ∃ part, tokens = part ++ rest ∧ part = [result] ∧ IsLiteral result := by
  rw [reads_element (by simp [literalKinds])]
  constructor
  · rintro ⟨rfl, hkind⟩
    exact ⟨[result], rfl, rfl, mem_literalKinds.1 hkind⟩
  · rintro ⟨_, rfl, rfl, hkind⟩
    exact ⟨rfl, mem_literalKinds.2 hkind⟩

/-! ## What counted reading accepts -/

theorem connective?_eq_some {kind : TokenKind} {connective : Connective} :
    connective? kind = some connective ↔ kind = .keyword (connectiveWord connective) := by
  constructor
  · intro h
    unfold connective? at h
    split at h
    · cases h
      rfl
    · cases h
      rfl
    · cases h
  · rintro rfl
    cases connective <;> rfl

/-- The next token neither links nor closes a condition. -/
def EndsChain (rest : List Token) : Prop :=
  connective? (nextKind rest) = none ∧ nextKind rest ≠ .rightParen

theorem closeParen_eq (depth : Int) (tokens : List Token) :
    (∃ closing rest, tokens = closing :: rest ∧ closing.kind = .rightParen ∧
        ∃ h, closeParen depth tokens = (depth - 1, ⟨rest, h⟩)) ∨
      nextKind tokens ≠ .rightParen ∧ ∃ h, closeParen depth tokens = (depth, ⟨tokens, h⟩) := by
  cases tokens with
  | nil => exact .inr ⟨by simp [nextKind], Nat.le_refl _, rfl⟩
  | cons token rest =>
      by_cases hkind : token.kind = .rightParen
      · exact .inl ⟨token, rest, rfl, hkind, Nat.le_succ _, by simp [closeParen, hkind]⟩
      · exact .inr ⟨hkind, Nat.le_refl _, by simp [closeParen, hkind]⟩

theorem readLinks_of_endsChain {left condition : Condition} {depth after : Int}
    {tokens rest : List Token} {hle : rest.length ≤ tokens.length} (hends : EndsChain tokens)
    (h : readLinks left depth tokens = .ok ((condition, after), ⟨rest, hle⟩)) :
    condition = left ∧ after = depth ∧ rest = tokens := by
  cases tokens with
  | nil =>
      rw [readLinks] at h
      cases h
      exact ⟨rfl, rfl, rfl⟩
  | cons token later =>
      have hnone : connective? token.kind = none := hends.1
      rw [readLinks] at h
      simp only [hnone] at h
      cases h
      exact ⟨rfl, rfl, rfl⟩

mutual

theorem unit_of_readUnit {depth after : Int} {tokens rest : List Token}
    {condition : Condition} {hlt : rest.length < tokens.length}
    (h : readUnit depth tokens = .ok ((condition, after), ⟨rest, hlt⟩)) :
    (after = depth ∧ ∃ part, tokens = part ++ rest ∧ IsUnit part condition) ∨
      (depth < after ∧ EndsChain rest) := by
  cases tokens with
  | nil =>
      rw [readUnit] at h
      cases h
  | cons token later =>
      rw [readUnit] at h
      split at h
      · rename_i hopening
        split at h
        · cases h
        · rename_i result last hlast hchain
          cases h
          rcases condition_of_readChain hchain with
            ⟨hafter, part, closing, rfl, hclosing, hpart⟩ | ⟨hafter, _, hends⟩ | ⟨hafter, hends⟩
          · exact .inl ⟨by omega, token :: (part ++ [closing]), by simp,
              .group hopening hclosing hpart⟩
          · exact .inr ⟨by omega, hends⟩
          · exact .inr ⟨by omega, hends⟩
      · split at h
        · cases h
        · rename_i comparison last hcomparison
          cases h
          obtain ⟨name, sign, literal, htokens, hname, hsign, hliteral, hresult⟩ :=
            reads_comparison.1 ⟨hlt, hcomparison⟩
          refine .inl ⟨rfl, [name, sign, literal], htokens, ?_⟩
          rw [hresult]
          exact .comparison hname hsign hliteral
termination_by 2 * tokens.length

/-- A chain takes the parenthesis that closes the group it stands in, or it is whole and
nothing closes it, or it leaves further groups open. -/
theorem condition_of_readChain {depth after : Int} {tokens rest : List Token}
    {condition : Condition} {hlt : rest.length < tokens.length}
    (h : readChain depth tokens = .ok ((condition, after), ⟨rest, hlt⟩)) :
    (after = depth - 1 ∧ ∃ part closing, tokens = part ++ closing :: rest ∧
        closing.kind = .rightParen ∧ IsCondition part condition) ∨
      (after = depth ∧ (∃ part, tokens = part ++ rest ∧ IsCondition part condition) ∧
        EndsChain rest) ∨
      (depth < after ∧ EndsChain rest) := by
  rw [readChain] at h
  split at h
  · cases h
  · rename_i first afterUnit later hlater hunit
    split at h
    · cases h
    · rename_i joined afterLinks last hlast hlinks
      have hclose := closeParen_eq afterLinks last
      rcases unit_of_readUnit hunit with ⟨rfl, part, rfl, hpart⟩ | ⟨hafterUnit, hends⟩
      · rcases links_of_readLinks hlinks with
          ⟨rfl, more, links, rfl, hmore, rfl, hnone⟩ | ⟨hafterLinks, hends⟩
        · have hwhole : IsCondition (part ++ more) (joinLinks first links) := .intro hpart hmore
          rcases hclose with ⟨closing, end', rfl, hclosing, hle, hclose⟩ | ⟨hnext, hle, hclose⟩
          · rw [hclose] at h
            cases h
            exact .inl ⟨rfl, part ++ more, closing, by simp, hclosing, hwhole⟩
          · rw [hclose] at h
            cases h
            exact .inr (.inl ⟨rfl, ⟨part ++ more, by simp, hwhole⟩, hnone, hnext⟩)
        · rcases hclose with ⟨closing, end', rfl, hclosing, hle, hclose⟩ | ⟨hnext, hle, hclose⟩
          · exact absurd hclosing hends.2
          · rw [hclose] at h
            cases h
            exact .inr (.inr ⟨hafterLinks, hends⟩)
      · obtain ⟨rfl, rfl, rfl⟩ := readLinks_of_endsChain hends hlinks
        rcases hclose with ⟨closing, end', rfl, hclosing, hle, hclose⟩ | ⟨hnext, hle, hclose⟩
        · exact absurd hclosing hends.2
        · rw [hclose] at h
          cases h
          exact .inr (.inr ⟨hafterUnit, hends⟩)
termination_by 2 * tokens.length + 1

theorem links_of_readLinks {left condition : Condition} {depth after : Int}
    {tokens rest : List Token} {hle : rest.length ≤ tokens.length}
    (h : readLinks left depth tokens = .ok ((condition, after), ⟨rest, hle⟩)) :
    (after = depth ∧ ∃ part links, tokens = part ++ rest ∧ IsLinks part links ∧
        condition = joinLinks left links ∧ connective? (nextKind rest) = none) ∨
      (depth < after ∧ EndsChain rest) := by
  cases tokens with
  | nil =>
      rw [readLinks] at h
      cases h
      exact .inl ⟨rfl, [], [], rfl, .nil, rfl, rfl⟩
  | cons token later =>
      rw [readLinks] at h
      split at h
      · rename_i hnone
        cases h
        exact .inl ⟨rfl, [], [], rfl, .nil, rfl, hnone⟩
      · rename_i connective hword
        split at h
        · cases h
        · rename_i right afterUnit afterRight hafterRight hunit
          split at h
          · cases h
          · rename_i result last hlast hlinks
            cases h
            rcases unit_of_readUnit hunit with ⟨rfl, part, rfl, hpart⟩ | ⟨hopen, hends⟩
            · rcases links_of_readLinks hlinks with
                ⟨rfl, more, links, rfl, hmore, rfl, hnone⟩ | ⟨hopen, hends⟩
              · exact .inl ⟨rfl, token :: (part ++ more), (connective, right) :: links, by simp,
                  .cons (connective?_eq_some.1 hword) hpart hmore, rfl, hnone⟩
              · exact .inr ⟨hopen, hends⟩
            · obtain ⟨rfl, rfl, rfl⟩ := readLinks_of_endsChain hends hlinks
              exact .inr ⟨hopen, hends⟩
termination_by 2 * tokens.length

end

/-! ## What the grammar derives is read -/

mutual

theorem readUnit_of_isUnit {part : List Token} {condition : Condition}
    (hpart : IsUnit part condition) (depth : Int) (rest : List Token) :
    Reads (readUnit depth) (part ++ rest) (condition, depth) rest := by
  cases hpart with
  | comparison hname hsign hliteral =>
      rename_i name sign literal relation
      obtain ⟨hlt, hread⟩ : Reads readComparison (name :: sign :: literal :: rest)
        ⟨name.text, relation, literal.value⟩ rest :=
          reads_comparison.2 ⟨name, sign, literal, rfl, hname, hsign, hliteral, rfl⟩
      simp only [List.cons_append, List.nil_append]
      refine ⟨hlt, ?_⟩
      rw [readUnit, if_neg (by simp [hname]), hread]
  | group hopening hclosing hcondition =>
      rename_i opening closing tokens
      obtain ⟨hlt, hread⟩ :=
        readChain_of_isCondition hcondition (depth + 1) (closing :: rest) (by
          simp [nextKind, hclosing, connective?])
      simp only [List.cons_append, List.append_assoc, List.nil_append]
      simp only [closeParen, hclosing, if_true, Int.add_sub_cancel] at hread
      refine ⟨by simp; omega, ?_⟩
      rw [readUnit, if_pos hopening, hread]
termination_by 2 * part.length

theorem readLinks_of_isLinks {part : List Token} {links : List (Connective × Condition)}
    (hpart : IsLinks part links) (left : Condition) (depth : Int) (rest : List Token)
    (hnone : connective? (nextKind rest) = none) {tokens : List Token}
    (htokens : tokens = part ++ rest) :
    ∃ hle, readLinks left depth tokens = .ok ((joinLinks left links, depth), ⟨rest, hle⟩) := by
  cases hpart with
  | nil =>
      rw [List.nil_append] at htokens
      subst htokens
      refine ⟨Nat.le_refl _, ?_⟩
      cases tokens with
      | nil =>
          rw [readLinks]
          rfl
      | cons token later =>
          rw [readLinks]
          simp only [show connective? token.kind = none from hnone]
          rfl
  | cons hword hright hlinks =>
      rename_i word middle later connective right links
      obtain ⟨hrightLt, hrightRead⟩ := readUnit_of_isUnit hright depth (later ++ rest)
      obtain ⟨hlinksLe, hlinksRead⟩ :=
        readLinks_of_isLinks hlinks (.joined left connective right) depth rest hnone rfl
      simp only [List.cons_append, List.append_assoc] at htokens
      subst htokens
      refine ⟨by simp; omega, ?_⟩
      rw [readLinks]
      simp only [connective?_eq_some.2 hword, hrightRead, hlinksRead]
      rfl
termination_by 2 * part.length

theorem readChain_of_isCondition {part : List Token} {condition : Condition}
    (hpart : IsCondition part condition) (depth : Int) (rest : List Token)
    (hnone : connective? (nextKind rest) = none) :
    Reads (readChain depth) (part ++ rest) (condition, (closeParen depth rest).1)
      (closeParen depth rest).2 := by
  cases hpart with
  | intro hfirst hlinks =>
      rename_i tokens later first links
      obtain ⟨hfirstLt, hfirstRead⟩ := readUnit_of_isUnit hfirst depth (later ++ rest)
      obtain ⟨hlinksLe, hlinksRead⟩ := readLinks_of_isLinks hlinks first depth rest hnone rfl
      rw [List.append_assoc]
      have hle := (closeParen depth rest).2.property
      refine ⟨by omega, ?_⟩
      rw [readChain]
      simp only [hfirstRead, hlinksRead]
termination_by 2 * part.length + 1

end

theorem reads_condition {tokens rest : List Token} {condition : Condition} :
    Reads readCondition tokens condition rest ↔
      EndsChain rest ∧ ∃ part, tokens = part ++ rest ∧ IsCondition part condition := by
  constructor
  · rintro ⟨hlt, h⟩
    simp only [readCondition] at h
    split at h
    · cases h
    · rename_i found depth later hchain
      split at h
      · rename_i hdepth
        cases h
        rcases condition_of_readChain hchain with ⟨hafter, _⟩ | ⟨_, hpart, hends⟩ | ⟨hafter, _⟩
        · omega
        · exact ⟨hends, hpart⟩
        · omega
      · cases h
  · rintro ⟨hends, part, rfl, hpart⟩
    obtain ⟨hlt, hread⟩ := readChain_of_isCondition hpart 0 rest hends.1
    rcases closeParen_eq 0 rest with ⟨closing, later, rfl, hclosing, _⟩ | ⟨_, hle, hclose⟩
    · exact absurd hclosing hends.2
    · simp only [hclose] at hread
      exact ⟨by simpa [hclose] using hlt, by simp only [readCondition, hread, if_true]⟩

end Grammar

end Relbase
