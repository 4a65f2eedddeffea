import Relbase.Proofs.ErrorClass
import Relbase.Proofs.Query.Conditions
import Relbase.Query.Cursor

/-!
# A cursor reads what a list of tokens says

Whatever a cursor has read before, a list of tokens is read to an end, nothing is read
outside the list, and the outcome is that of `Command.ofTokens`.  Reading with a cursor
follows reading without one step by step: the tokens from the place of the cursor on are
those that are left to be read, and they end with the end of the input, which holds the
cursor back.  A round of any loop takes a token, so that a list of tokens needs no more
rounds than it has tokens.
-/

namespace Relbase

variable {α β γ δ : Type} {cursor after : Cursor} {rounds : Nat} {depth : Int}
  {ahead rest : List Token} {token : Token}

/-! ## Walks -/

theorem Walk.runFrom_bind_ok {walk : Walk α} {next : α → Walk β} {value : α}
    (h : walk.runFrom cursor = some (.ok value, after)) :
    (walk >>= next).runFrom cursor = (next value).runFrom after := by
  have hrun : (walk >>= next).runFrom cursor =
      (walk.runFrom cursor).bind fun found => (ExceptT.bindCont next found.1).run found.2 := rfl
  rw [hrun, h]
  rfl

theorem Walk.runFrom_bind_error {walk : Walk α} {next : α → Walk β} {stop : Stop}
    (h : walk.runFrom cursor = some (.error stop, after)) :
    (walk >>= next).runFrom cursor = some (.error stop, after) := by
  have hrun : (walk >>= next).runFrom cursor =
      (walk.runFrom cursor).bind fun found => (ExceptT.bindCont next found.1).run found.2 := rfl
  rw [hrun, h]
  rfl

theorem Walk.runFrom_get : (get : Walk Cursor).runFrom cursor = some (.ok cursor, cursor) :=
  rfl

namespace Cursor

/-! ## The tokens in front of a cursor -/

/-- The cursor stands in front of these tokens, at most as many as there are rounds and the
last of them the end of the input, inside so many parentheses. -/
structure Faces (cursor : Cursor) (rounds : Nat) (depth : Int) (ahead : List Token) : Prop where
  drop : cursor.tokens.drop cursor.place = ahead
  depth : cursor.depth = depth
  length_le : ahead.length ≤ rounds
  ended : ahead.getLast?.map Token.kind = some .endOfInput

def next (cursor : Cursor) : Cursor :=
  { cursor with place := cursor.place + 1 }

theorem Faces.exists_cons (h : cursor.Faces rounds depth ahead) :
    ∃ token rest, ahead = token :: rest := by
  cases ahead with
  | nil => cases h.ended
  | cons token rest => exact ⟨token, rest, rfl⟩

theorem Faces.current (h : cursor.Faces rounds depth (token :: rest)) :
    Cursor.current.runFrom cursor = some (.ok token, cursor) := by
  have htoken : cursor.tokens[cursor.place]? = some token := by
    rw [← List.head?_drop, h.drop]
    rfl
  rw [Cursor.current, Walk.runFrom_bind_ok Walk.runFrom_get, htoken]
  rfl

/-- The end of the input holds the cursor back, so that it never passes the last token. -/
theorem Faces.next (h : cursor.Faces rounds depth (token :: rest))
    (hkind : token.kind ≠ .endOfInput) :
    cursor.next.Faces rounds depth rest := by
  refine ⟨?_, h.depth, Nat.le_of_succ_le h.length_le, ?_⟩
  · rw [Cursor.next, ← List.drop_drop, h.drop]
    rfl
  · have hended := h.ended
    cases rest with
    | nil => exact absurd (Option.some.inj hended) hkind
    | cons second later => simpa [List.getLast?_cons_cons] using hended

theorem Faces.advance (h : cursor.Faces rounds depth (token :: rest))
    (hkind : token.kind ≠ .endOfInput) :
    Cursor.advance.runFrom cursor = some (.ok token, cursor.next) := by
  rw [Cursor.advance, Walk.runFrom_bind_ok h.current, if_pos hkind]
  rfl

theorem Faces.advance_end (h : cursor.Faces rounds depth (token :: rest))
    (hkind : token.kind = .endOfInput) :
    Cursor.advance.runFrom cursor = some (.ok token, cursor) := by
  rw [Cursor.advance, Walk.runFrom_bind_ok h.current, if_neg (not_not_intro hkind)]
  rfl

theorem Faces.atKind (h : cursor.Faces rounds depth (token :: rest)) (kind : TokenKind) :
    (Cursor.atKind kind).runFrom cursor = some (.ok (decide (token.kind = kind)), cursor) := by
  rw [Cursor.atKind, Walk.runFrom_bind_ok h.current]
  rfl

/-! ## Following a reader -/

/-- A walk ended as a reader does: it is refused for the same fault, or its result and the
cursor are related to what the reader gives. -/
def Agrees (related : α → Cursor → β → Prop) (run : Option (Except Stop α × Cursor)) :
    Except ReadFault β → Prop
  | .error fault => ∃ after, run = some (.error (.refused fault), after)
  | .ok expected =>
      ∃ result after, run = some (.ok result, after) ∧ related result after expected

section

variable {related : α → Cursor → β → Prop} {also : γ → Cursor → δ → Prop} {walk : Walk α}
  {outcome : Except ReadFault β}

theorem Agrees.bind {next : α → Walk γ} {later : β → Except ReadFault δ}
    (h : Agrees related (walk.runFrom cursor) outcome)
    (hnext : ∀ result after expected, outcome = .ok expected → related result after expected →
      Agrees also ((next result).runFrom after) (later expected)) :
    Agrees also ((walk >>= next).runFrom cursor) (outcome.bind later) := by
  cases outcome with
  | error fault =>
      obtain ⟨after, hrun⟩ := h
      exact ⟨after, Walk.runFrom_bind_error hrun⟩
  | ok expected =>
      obtain ⟨result, after, hrun, hrelated⟩ := h
      rw [Walk.runFrom_bind_ok hrun]
      exact hnext _ _ _ rfl hrelated

theorem Agrees.map {wider : α → Cursor → δ → Prop} {f : β → δ}
    {run : Option (Except Stop α × Cursor)} (h : Agrees related run outcome)
    (hwider : ∀ {result after expected}, related result after expected →
      wider result after (f expected)) :
    Agrees wider run (outcome.map f) := by
  cases outcome with
  | error fault => exact h
  | ok expected =>
      obtain ⟨result, after, hrun, hrelated⟩ := h
      exact ⟨result, after, hrun, hwider hrelated⟩

end

def Tracks (rounds : Nat) (depth : Int) (walk : Walk α) (reader : Reader α) : Prop :=
  ∀ cursor ahead, Faces cursor rounds depth ahead →
    Agrees (fun result after found => result = found.1 ∧ after.Faces rounds depth found.2)
      (walk.runFrom cursor) (reader.run ahead)

theorem tracks_pure (value : α) : Tracks rounds depth (pure value) (pure value) :=
  fun cursor _ h => ⟨value, cursor, rfl, rfl, h⟩

theorem Tracks.bind {walk : Walk α} {reader : Reader α} {next : α → Walk β} {later : α → Reader β}
    (h : Tracks rounds depth walk reader)
    (hnext : ∀ value, Tracks rounds depth (next value) (later value)) :
    Tracks rounds depth (walk >>= next) (reader >>= later) := by
  intro cursor ahead hfaces
  refine Agrees.bind (h cursor ahead hfaces) ?_
  rintro value after ⟨_, rest⟩ - ⟨rfl, hafter⟩
  exact hnext value after rest hafter

/-! ## Single tokens -/

theorem run_expect (expected : List TokenKind) (token : Token) (rest : List Token) :
    (Reader.step (Relbase.expect expected)).run (token :: rest) =
      if token.kind ∈ expected then .ok (token, rest)
      else .error (.query (.unexpected expected token.kind)) := by
  simp only [Reader.step, StateT.run, Relbase.expect]
  split <;> rfl

theorem tracks_expect {expected : List TokenKind} (hended : .endOfInput ∉ expected) :
    Tracks rounds depth (expect expected) (Reader.step (Relbase.expect expected)) := by
  intro cursor ahead h
  obtain ⟨token, rest, rfl⟩ := h.exists_cons
  rw [run_expect, expect, Walk.runFrom_bind_ok h.current]
  split
  · rename_i hkind
    have hnot : token.kind ≠ .endOfInput := fun heq => hended (heq ▸ hkind)
    rw [h.advance hnot]
    exact ⟨token, _, rfl, rfl, h.next hnot⟩
  · exact ⟨cursor, rfl⟩

theorem run_symbol (kind : TokenKind) (token : Token) (rest : List Token) :
    (Reader.symbol kind).run (token :: rest) =
      if token.kind = kind then .ok ((), rest)
      else .error (.query (.unexpected [kind] token.kind)) := by
  rw [Reader.symbol, StateT.run_bind, run_expect]
  simp only [List.mem_singleton]
  split <;> rfl

theorem tracks_keyword (word : Keyword) :
    Tracks rounds depth (keyword word) (Reader.keyword word) :=
  (tracks_expect (by simp)).bind fun _ => tracks_pure ()

theorem tracks_symbol {kind : TokenKind} (h : kind ≠ .endOfInput) :
    Tracks rounds depth (symbol kind) (Reader.symbol kind) :=
  (tracks_expect (by simpa using h.symm)).bind fun _ => tracks_pure ()

theorem tracks_name : Tracks rounds depth name Reader.name :=
  (tracks_expect (by simp)).bind fun token => tracks_pure token.text

theorem tracks_loweredName : Tracks rounds depth loweredName Reader.loweredName :=
  tracks_name.bind fun text => tracks_pure text.lower

theorem tracks_oneOf (first second : Keyword) :
    Tracks rounds depth (oneOf first second) (Reader.oneOf first second) :=
  (tracks_expect (by simp)).bind fun _ => tracks_pure _

theorem tracks_atKind (kind : TokenKind) :
    Tracks rounds depth (atKind kind) (Reader.atKind kind) := by
  intro cursor ahead h
  obtain ⟨token, rest, rfl⟩ := h.exists_cons
  rw [h.atKind]
  exact ⟨_, cursor, rfl, rfl, h⟩

/-! ## Lists -/

theorem tracks_element {accepted : List TokenKind} :
    Tracks rounds depth (element accepted) (Reader.step (readElement accepted)) := by
  intro cursor ahead h
  obtain ⟨token, rest, rfl⟩ := h.exists_cons
  have hread : (Reader.step (readElement accepted)).run (token :: rest) =
      if token.kind = .endOfInput then .error (.list .ended)
      else if token.kind ∈ accepted then .ok (token, rest)
      else .error (.list (.element token)) := by
    simp only [Reader.step, StateT.run, readElement]
    split
    · rfl
    · split <;> rfl
  rw [hread, element, Walk.runFrom_bind_ok h.current]
  split
  · exact ⟨cursor, rfl⟩
  · rename_i hkind
    split
    · rw [h.advance hkind]
      exact ⟨token, _, rfl, rfl, h.next hkind⟩
    · exact ⟨cursor, rfl⟩

theorem run_readAssignment (token : Token) (rest : List Token) :
    (Reader.step readAssignment).run (token :: rest) =
      if token.kind = .identifier then
        ((Reader.step (Relbase.expect [.assign])).run rest).bind fun sign =>
          ((Reader.step (Relbase.expect literalKinds)).run sign.2).bind fun value =>
            .ok ((token.text.lower, value.1.value), value.2)
      else .error (.list (.attributeName token.kind)) := by
  simp only [Reader.step, StateT.run, readAssignment]
  split
  · cases hsign : Relbase.expect [.assign] rest with
    | error fault => rfl
    | ok sign =>
        obtain ⟨sign, later, hlater⟩ := sign
        simp only [Except.map, Except.bind]
        cases hvalue : Relbase.expect literalKinds later <;> rfl
  · rfl

theorem tracks_assignment : Tracks rounds depth assignment (Reader.step readAssignment) := by
  intro cursor ahead h
  obtain ⟨token, rest, rfl⟩ := h.exists_cons
  rw [run_readAssignment, assignment, Walk.runFrom_bind_ok h.current]
  split
  · rename_i hkind
    have hended : token.kind ≠ .endOfInput := by simp [hkind]
    rw [Walk.runFrom_bind_ok (h.advance hended)]
    refine Agrees.bind (tracks_expect (by simp) _ _ (h.next hended)) ?_
    rintro _ _ ⟨sign, afterSign⟩ - ⟨rfl, hafter⟩
    refine Agrees.bind (tracks_expect (by simp [literalKinds]) _ _ hafter) ?_
    rintro _ _ ⟨value, afterValue⟩ - ⟨rfl, hlast⟩
    exact ⟨_, _, rfl, rfl, hlast⟩
  · exact ⟨cursor, rfl⟩

theorem run_readSeparated (read : ReadStep α) (ending : TokenKind) (tokens : List Token) :
    (Reader.step (readSeparated read ending)).run tokens =
      ((Reader.step read).run tokens).bind fun first =>
        match first.2 with
        | [] => .error (.list (.comma .endOfInput))
        | following :: later =>
            if following.kind = ending then .ok ([first.1], following :: later)
            else if following.kind = .comma then
              ((Reader.step (readSeparated read ending)).run later).map fun others =>
                (first.1 :: others.1, others.2)
            else .error (.list (.comma following.kind)) := by
  simp only [Reader.step, StateT.run]
  rw [readSeparated]
  cases hfirst : read tokens with
  | error fault => rfl
  | ok found =>
      obtain ⟨first, rest, hrest⟩ := found
      cases rest with
      | nil => rfl
      | cons following later =>
          simp only [Except.map, Except.bind]
          by_cases hending : following.kind = ending
          · simp only [if_pos hending]
          · by_cases hcomma : following.kind = .comma
            · simp only [if_neg hending, if_pos hcomma]
              cases hothers : readSeparated read ending later <;> rfl
            · simp only [if_neg hending, if_neg hcomma]

theorem length_lt_of_step {read : ReadStep α} {tokens : List Token} {result : α}
    (h : (Reader.step read).run tokens = .ok (result, rest)) : rest.length < tokens.length := by
  simp only [Reader.step, StateT.run] at h
  cases hread : read tokens with
  | error fault =>
      rw [hread] at h
      cases h
  | ok found =>
      rw [hread] at h
      cases h
      exact found.2.property

theorem agrees_separated {walk : Walk α} {read : ReadStep α} {add : β → α → β}
    {ending : TokenKind} (hwalk : Tracks rounds depth walk (Reader.step read)) {turns : Nat}
    (hturns : ahead.length ≤ turns) (h : cursor.Faces rounds depth ahead) (found : β) :
    Agrees
      (fun result after read => result = read.1.foldl add found ∧ after.Faces rounds depth read.2)
      ((separated walk add ending turns found).runFrom cursor)
      ((Reader.step (readSeparated read ending)).run ahead) := by
  induction turns generalizing cursor ahead found with
  | zero =>
      obtain ⟨token, rest, rfl⟩ := h.exists_cons
      cases hturns
  | succ turns ih =>
      rw [separated, run_readSeparated]
      refine Agrees.bind (hwalk _ _ h) ?_
      rintro _ after ⟨first, rest⟩ houtcome ⟨rfl, hafter⟩
      obtain ⟨following, later, rfl⟩ := hafter.exists_cons
      have hlater : (following :: later).length < ahead.length := length_lt_of_step houtcome
      rw [Walk.runFrom_bind_ok hafter.current]
      simp only
      split
      · exact ⟨_, _, rfl, rfl, hafter⟩
      · split
        · rename_i hcomma
          have hended : following.kind ≠ .endOfInput := by simp [hcomma]
          rw [Walk.runFrom_bind_ok (hafter.advance hended)]
          rw [List.length_cons] at hlater
          exact (ih (by omega) (hafter.next hended) _).map id
        · exact ⟨_, rfl⟩

theorem tracks_elements (accepted : List TokenKind) (ending : TokenKind) :
    Tracks rounds depth (elements rounds accepted ending)
      (Reader.step (readSeparated (readElement accepted) ending)) := by
  intro cursor ahead h
  have hagrees : Agrees (fun result after read =>
        result = read.1.foldl (fun found token => found ++ [token]) [] ∧
          after.Faces rounds depth read.2)
      ((elements rounds accepted ending).runFrom cursor)
      ((Reader.step (readSeparated (readElement accepted) ending)).run ahead) :=
    agrees_separated tracks_element h.length_le h []
  simpa [← List.flatMap_def] using hagrees

theorem tracks_names (ending : TokenKind) :
    Tracks rounds depth (names rounds ending) (Reader.names ending) :=
  Tracks.bind (tracks_elements _ _) fun tokens => tracks_pure (tokens.map Token.text)

theorem tracks_assignments : Tracks rounds depth (assignments rounds)
    (Assoc.ofList <$> Reader.step (readSeparated readAssignment (.keyword .whereWord))) := by
  intro cursor ahead h
  have hagrees : Agrees (fun result after read =>
        result = Assoc.ofList read.1 ∧ after.Faces rounds depth read.2)
      ((assignments rounds).runFrom cursor)
      ((Reader.step (readSeparated readAssignment (.keyword .whereWord))).run ahead) :=
    agrees_separated tracks_assignment h.length_le h []
  have hrun := StateT.run_map Assoc.ofList
    (Reader.step (readSeparated readAssignment (.keyword .whereWord))) ahead
  rw [hrun]
  exact hagrees.map id

/-! ## Conditions -/

theorem run_readComparison (tokens : List Token) :
    (Reader.step readComparison).run tokens =
      ((Reader.step (Relbase.expect [.identifier])).run tokens).bind fun name =>
        match name.2 with
        | [] => .error (.query (.noComparator .endOfInput))
        | sign :: afterSign =>
            match comparator? sign.kind with
            | some relation =>
                ((Reader.step (Relbase.expect literalKinds)).run afterSign).bind fun value =>
                  .ok (⟨name.1.text, relation, value.1.value⟩, value.2)
            | none => .error (.query (.noComparator sign.kind)) := by
  simp only [Reader.step, StateT.run, readComparison]
  cases hname : Relbase.expect [.identifier] tokens with
  | error fault => rfl
  | ok found =>
      obtain ⟨name, rest, hrest⟩ := found
      cases rest with
      | nil => rfl
      | cons sign afterSign =>
          simp only [Except.map, Except.bind]
          cases sign.kind
          case comparator relation =>
            simp only [comparator?]
            cases hvalue : Relbase.expect literalKinds afterSign <;> rfl
          all_goals rfl

theorem tracks_comparison : Tracks rounds depth comparison (Reader.step readComparison) := by
  intro cursor ahead h
  rw [run_readComparison, comparison]
  refine Agrees.bind (tracks_expect (by simp) _ _ h) ?_
  rintro _ after ⟨name, rest⟩ - ⟨rfl, hafter⟩
  obtain ⟨sign, afterSign, rfl⟩ := hafter.exists_cons
  rw [Walk.runFrom_bind_ok hafter.current]
  cases hsign : comparator? sign.kind with
  | none =>
      simp only [hsign]
      exact ⟨_, rfl⟩
  | some relation =>
      have hended : sign.kind ≠ .endOfInput := by
        intro heq
        rw [heq] at hsign
        cases hsign
      simp only [hsign]
      rw [Walk.runFrom_bind_ok (hafter.advance hended)]
      refine Agrees.bind (tracks_expect (by simp [literalKinds]) _ _ (hafter.next hended)) ?_
      rintro _ _ ⟨value, afterValue⟩ - ⟨rfl, hlast⟩
      exact ⟨_, _, rfl, rfl, hlast⟩

def runLinks (left : Condition) (depth : Int) (tokens : List Token) :
    Except ReadFault ((Condition × Int) × List Token) :=
  (readLinks left depth tokens).map fun found => (found.1, found.2.val)

theorem run_readUnit (depth : Int) (token : Token) (rest : List Token) :
    (Reader.step (readUnit depth)).run (token :: rest) =
      if token.kind = .leftParen then (Reader.step (readChain (depth + 1))).run rest
      else ((Reader.step readComparison).run (token :: rest)).bind fun found =>
        .ok ((.leaf found.1, depth), found.2) := by
  simp only [Reader.step, StateT.run]
  rw [readUnit]
  split
  · cases readChain (depth + 1) rest <;> rfl
  · cases readComparison (token :: rest) <;> rfl

theorem run_readChain (depth : Int) (tokens : List Token) :
    (Reader.step (readChain depth)).run tokens =
      (((Reader.step (readUnit depth)).run tokens).bind fun first =>
        runLinks first.1.1 first.1.2 first.2).bind fun found =>
          .ok ((found.1.1, (closeParen found.1.2 found.2).1),
            (closeParen found.1.2 found.2).2.val) := by
  simp only [Reader.step, StateT.run, runLinks]
  rw [readChain]
  cases hunit : readUnit depth tokens with
  | error fault => rfl
  | ok first =>
      obtain ⟨⟨first, afterUnit⟩, rest, hrest⟩ := first
      simp only [Except.map, Except.bind]
      cases hlinks : readLinks first afterUnit rest <;> rfl

theorem runLinks_cons (left : Condition) (depth : Int) (token : Token) (rest : List Token) :
    runLinks left depth (token :: rest) =
      match connective? token.kind with
      | none => .ok ((left, depth), token :: rest)
      | some connective =>
          ((Reader.step (readUnit depth)).run rest).bind fun right =>
            runLinks (.joined left connective right.1.1) right.1.2 right.2 := by
  simp only [Reader.step, StateT.run, runLinks]
  rw [readLinks]
  cases connective? token.kind with
  | none => rfl
  | some connective =>
      cases hunit : readUnit depth rest with
      | error fault => rfl
      | ok right =>
          obtain ⟨⟨right, afterUnit⟩, later, hlater⟩ := right
          simp only [Except.map, Except.bind]
          cases hlinks : readLinks (.joined left connective right) afterUnit later <;> rfl

/-- The same condition, with as many parentheses open behind it. -/
def SameCondition (rounds : Nat) (result : Condition) (after : Cursor)
    (found : (Condition × Int) × List Token) : Prop :=
  result = found.1.1 ∧ after.Faces rounds found.1.2 found.2

def JoinsTo (rounds : Nat) (result : List Condition × List Connective) (after : Cursor)
    (found : (Condition × Int) × List Token) : Prop :=
  (∃ first others, result.1 = first :: others ∧
      Grammar.joinLinks first (result.2.zip others) = found.1.1) ∧
    after.Faces rounds found.1.2 found.2

def joinedWith (last : Condition) (connectives : List Connective) : List Condition → Condition
  | [] => last
  | first :: others => Grammar.joinLinks first (connectives.zip (others ++ [last]))

theorem agrees_closeChain (h : cursor.Faces rounds depth ahead) :
    ∃ after, closeChain.runFrom cursor = some (.ok (), after) ∧
      after.Faces rounds (closeParen depth ahead).1 (closeParen depth ahead).2.val := by
  obtain ⟨token, rest, rfl⟩ := h.exists_cons
  by_cases hkind : token.kind = .rightParen
  · have hended : token.kind ≠ .endOfInput := by simp [hkind]
    have hnext := h.next hended
    refine ⟨{ cursor.next with depth := depth - 1 }, ?_, ?_⟩
    · rw [closeChain, Walk.runFrom_bind_ok (h.atKind _)]
      simp only [hkind, decide_true, if_true]
      rw [Walk.runFrom_bind_ok (h.advance hended), ← hnext.depth]
      rfl
    · simp only [closeParen, hkind, if_true]
      exact ⟨hnext.drop, rfl, hnext.length_le, hnext.ended⟩
  · refine ⟨cursor, ?_, ?_⟩
    · rw [closeChain, Walk.runFrom_bind_ok (h.atKind _)]
      simp only [hkind, decide_false, Bool.false_eq_true, if_false]
      rfl
    · simpa only [closeParen, if_neg hkind] using h

theorem agrees_unit {chain : Walk Condition}
    (hchain : ∀ {cursor depth rest}, rest.length < ahead.length → cursor.Faces rounds depth rest →
      Agrees (SameCondition rounds) (chain.runFrom cursor)
        ((Reader.step (readChain depth)).run rest))
    (h : cursor.Faces rounds depth ahead) :
    Agrees (SameCondition rounds) ((unit chain).runFrom cursor)
      ((Reader.step (readUnit depth)).run ahead) := by
  obtain ⟨token, rest, rfl⟩ := h.exists_cons
  rw [run_readUnit, unit, Walk.runFrom_bind_ok (h.atKind _)]
  by_cases hkind : token.kind = .leftParen
  · have hended : token.kind ≠ .endOfInput := by simp [hkind]
    have hnext := h.next hended
    have hopened : ({ cursor.next with depth := cursor.next.depth + 1 } : Cursor).Faces rounds
        (depth + 1) rest := ⟨hnext.drop, by simp [hnext.depth], hnext.length_le, hnext.ended⟩
    simp only [hkind, decide_true, if_true]
    rw [Walk.runFrom_bind_ok (h.advance hended)]
    exact hchain (Nat.lt_succ_self _) hopened
  · simp only [hkind, decide_false, Bool.false_eq_true, if_false]
    refine Agrees.bind (tracks_comparison _ _ h) ?_
    rintro _ after ⟨comparison, later⟩ - ⟨rfl, hafter⟩
    exact ⟨_, _, rfl, rfl, hafter⟩

theorem agrees_linked
    {units : List Condition → List Connective → Walk (List Condition × List Connective)}
    {first : Condition} {others : List Condition} {connectives : List Connective}
    (hunits : ∀ {cursor rest} connective, rest.length < ahead.length →
      cursor.Faces rounds depth rest →
        Agrees (JoinsTo rounds)
          ((units (first :: others) (connectives ++ [connective])).runFrom cursor)
          (((Reader.step (readUnit depth)).run rest).bind fun last =>
            runLinks (joinedWith last.1.1 (connectives ++ [connective]) (first :: others))
              last.1.2 last.2))
    (hlength : connectives.length = others.length) (h : cursor.Faces rounds depth ahead) :
    Agrees (JoinsTo rounds) ((linked units (first :: others) connectives).runFrom cursor)
      (runLinks (Grammar.joinLinks first (connectives.zip others)) depth ahead) := by
  obtain ⟨token, rest, rfl⟩ := h.exists_cons
  rw [runLinks_cons, linked, Walk.runFrom_bind_ok h.current]
  cases hkind : connective? token.kind with
  | none => exact ⟨_, _, rfl, ⟨first, others, rfl, rfl⟩, h⟩
  | some connective =>
      have hended : token.kind ≠ .endOfInput := by
        intro heq
        rw [heq] at hkind
        cases hkind
      have hjoined (last : Condition) :
          joinedWith last (connectives ++ [connective]) (first :: others) =
            .joined (Grammar.joinLinks first (connectives.zip others)) connective last := by
        rw [joinedWith, List.zip_append hlength, Grammar.joinLinks_append]
        rfl
      simp only
      rw [Walk.runFrom_bind_ok (h.advance hended)]
      simpa only [hjoined] using hunits connective (Nat.lt_succ_self _) (h.next hended)

theorem agrees_closed {units : Walk (List Condition × List Connective)}
    (hunits : Agrees (JoinsTo rounds) (units.runFrom cursor)
      (((Reader.step (readUnit depth)).run ahead).bind fun first =>
        runLinks first.1.1 first.1.2 first.2)) :
    Agrees (SameCondition rounds) ((closed units).runFrom cursor)
      ((Reader.step (readChain depth)).run ahead) := by
  rw [run_readChain, closed]
  refine Agrees.bind hunits ?_
  rintro ⟨found, connectives⟩ after ⟨⟨condition, afterUnits⟩, rest⟩ -
    ⟨⟨first, others, hfound, hjoined⟩, hafter⟩
  obtain ⟨last, hclose, hlast⟩ := agrees_closeChain hafter
  simp only at hfound hjoined
  simp only
  rw [Walk.runFrom_bind_ok hclose, hfound]
  exact ⟨_, last, rfl, hjoined, hlast⟩

/-- Every unit takes a token, so that there are rounds enough for a chain and for the chains
between the parentheses in it. -/
theorem agrees_units {turns : Nat} (hturns : ahead.length ≤ turns) {found : List Condition}
    {connectives : List Connective} (hlength : connectives.length = found.length)
    (h : cursor.Faces rounds depth ahead) :
    Agrees (JoinsTo rounds) ((units turns found connectives).runFrom cursor)
      (((Reader.step (readUnit depth)).run ahead).bind fun last =>
        runLinks (joinedWith last.1.1 connectives found) last.1.2 last.2) := by
  induction turns generalizing cursor depth ahead found connectives with
  | zero =>
      obtain ⟨token, rest, rfl⟩ := h.exists_cons
      cases hturns
  | succ turns ih =>
      rw [units]
      refine Agrees.bind (agrees_unit (fun hrest hfaces =>
        agrees_closed (ih (by omega) rfl hfaces)) h) ?_
      rintro _ after ⟨⟨last, afterUnit⟩, rest⟩ houtcome ⟨rfl, hafter⟩
      have hrest : rest.length < ahead.length := length_lt_of_step houtcome
      cases found with
      | nil =>
          obtain rfl : connectives = [] := List.length_eq_zero_iff.1 hlength
          exact agrees_linked (fun _ (hlater : List.length _ < rest.length) hfaces =>
            ih (by omega) rfl hfaces) rfl hafter
      | cons first others =>
          exact agrees_linked (fun _ (hlater : List.length _ < rest.length) hfaces =>
            ih (by omega) (by simpa using hlength) hfaces) (by simpa using hlength) hafter

theorem agrees_chain (h : cursor.Faces rounds depth ahead) :
    Agrees (SameCondition rounds) ((chain rounds).runFrom cursor)
      ((Reader.step (readChain depth)).run ahead) :=
  agrees_closed (agrees_units h.length_le rfl h)

theorem run_readCondition (tokens : List Token) :
    (Reader.step readCondition).run tokens =
      ((Reader.step (readChain 0)).run tokens).bind fun found =>
        if found.1.2 = 0 then .ok (found.1.1, found.2) else .error (.query .unbalanced) := by
  simp only [Reader.step, StateT.run, readCondition]
  cases hchain : readChain 0 tokens with
  | error fault => rfl
  | ok found =>
      obtain ⟨⟨condition, depth⟩, rest⟩ := found
      by_cases hdepth : depth = 0 <;> simp [hdepth, Except.map, Except.bind]

theorem tracks_condition : Tracks rounds 0 (condition rounds) Reader.condition := by
  intro cursor ahead h
  rw [Reader.condition, run_readCondition, condition]
  refine Agrees.bind (agrees_chain h) ?_
  rintro _ after ⟨⟨condition, unclosed⟩, rest⟩ - ⟨rfl, hafter⟩
  rw [Walk.runFrom_bind_ok Walk.runFrom_get, hafter.depth]
  split
  · rename_i hdepth
    exact ⟨_, after, rfl, rfl, hdepth ▸ hafter⟩
  · exact ⟨_, rfl⟩

/-! ## Commands -/

theorem tracks_use : Tracks rounds depth use Reader.use :=
  Tracks.bind (tracks_keyword _) fun _ =>
  Tracks.bind tracks_loweredName fun _ => tracks_pure _

theorem tracks_create : Tracks rounds depth (create rounds) Reader.create := by
  refine Tracks.bind (tracks_keyword _) fun _ =>
    Tracks.bind (tracks_oneOf _ _) fun target => Tracks.bind tracks_name fun spelled => ?_
  split
  · exact tracks_pure _
  · refine Tracks.bind (tracks_atKind _) fun bare => ?_
    split
    · exact tracks_pure _
    · exact Tracks.bind (tracks_symbol (by decide)) fun _ =>
        Tracks.bind (tracks_names _) fun attributes =>
        Tracks.bind (tracks_symbol (by decide)) fun _ => tracks_pure _

theorem tracks_drop : Tracks rounds depth drop Reader.drop :=
  Tracks.bind (tracks_keyword _) fun _ =>
  Tracks.bind (tracks_oneOf _ _) fun _ =>
  Tracks.bind tracks_loweredName fun _ => tracks_pure _

theorem tracks_alter : Tracks rounds depth alter Reader.alter :=
  Tracks.bind (tracks_keyword _) fun _ =>
  Tracks.bind (tracks_keyword _) fun _ =>
  Tracks.bind tracks_loweredName fun _ =>
  Tracks.bind (tracks_oneOf _ _) fun _ =>
  Tracks.bind tracks_name fun _ => tracks_pure _

theorem tracks_insert : Tracks rounds depth (insert rounds) Reader.insert :=
  Tracks.bind (tracks_keyword _) fun _ =>
  Tracks.bind (tracks_keyword _) fun _ =>
  Tracks.bind tracks_loweredName fun _ =>
  Tracks.bind (tracks_keyword _) fun _ =>
  Tracks.bind (tracks_symbol (by decide)) fun _ =>
  Tracks.bind (tracks_elements _ _) fun _ =>
  Tracks.bind (tracks_symbol (by decide)) fun _ => tracks_pure _

theorem tracks_columns : Tracks rounds depth (columns rounds) Reader.columns := by
  intro cursor ahead h
  obtain ⟨token, rest, rfl⟩ := h.exists_cons
  rw [columns, Walk.runFrom_bind_ok (h.atKind _)]
  by_cases hkind : token.kind = .asterisk
  · have hended : token.kind ≠ .endOfInput := by simp [hkind]
    have hread : Reader.columns.run (token :: rest) =
        (Reader.symbol .asterisk >>= fun _ => pure Columns.all).run (token :: rest) := by
      simp [Reader.columns, Reader.atKind, nextKind, hkind]
    simp only [hkind, decide_true, if_true]
    rw [Walk.runFrom_bind_ok (h.advance hended), hread, StateT.run_bind, run_symbol, if_pos hkind]
    exact ⟨_, _, rfl, rfl, h.next hended⟩
  · have hread : Reader.columns.run (token :: rest) =
        (Reader.names (.keyword .fromWord) >>= fun names => pure (Columns.named names)).run
          (token :: rest) := by
      simp [Reader.columns, Reader.atKind, nextKind, hkind]
    simp only [hkind, decide_false, Bool.false_eq_true, if_false, hread]
    exact Tracks.bind (tracks_names _) (fun _ => tracks_pure _) _ _ h

theorem tracks_select : Tracks rounds 0 (select rounds) Reader.select := by
  refine Tracks.bind (tracks_keyword _) fun _ => Tracks.bind tracks_columns fun _ =>
    Tracks.bind (tracks_keyword _) fun _ => Tracks.bind tracks_loweredName fun _ =>
    Tracks.bind (tracks_atKind _) fun bare => ?_
  split
  · exact tracks_pure _
  · exact Tracks.bind (tracks_keyword _) fun _ =>
      Tracks.bind tracks_condition fun _ => tracks_pure _

theorem tracks_delete : Tracks rounds 0 (delete rounds) Reader.delete :=
  Tracks.bind (tracks_keyword _) fun _ =>
  Tracks.bind (tracks_keyword _) fun _ =>
  Tracks.bind tracks_loweredName fun _ =>
  Tracks.bind (tracks_keyword _) fun _ =>
  Tracks.bind tracks_condition fun _ => tracks_pure _

theorem tracks_update : Tracks rounds 0 (update rounds) Reader.update := by
  have hread : Reader.update = (do
      Reader.keyword .update
      let table ← Reader.loweredName
      Reader.keyword .set
      let assignments ←
        Assoc.ofList <$> Reader.step (readSeparated readAssignment (.keyword .whereWord))
      Reader.keyword .whereWord
      return .update table assignments (← Reader.condition)) := by
    simp only [Reader.update, bind_map_left]
  rw [hread]
  exact Tracks.bind (tracks_keyword _) fun _ =>
    Tracks.bind tracks_loweredName fun _ =>
    Tracks.bind (tracks_keyword _) fun _ =>
    Tracks.bind tracks_assignments fun _ =>
    Tracks.bind (tracks_keyword _) fun _ =>
    Tracks.bind tracks_condition fun _ => tracks_pure _

theorem tracks_join : Tracks rounds depth join Reader.join :=
  Tracks.bind (tracks_keyword _) fun _ =>
  Tracks.bind tracks_loweredName fun _ =>
  Tracks.bind (tracks_keyword _) fun _ =>
  Tracks.bind tracks_loweredName fun _ =>
  Tracks.bind (tracks_keyword _) fun _ =>
  Tracks.bind tracks_name fun _ =>
  Tracks.bind (tracks_keyword _) fun _ =>
  Tracks.bind tracks_name fun _ => tracks_pure _

theorem tracks_command : Tracks rounds 0 (command rounds) Reader.command := by
  intro cursor ahead h
  obtain ⟨token, rest, rfl⟩ := h.exists_cons
  have hunknown : Agrees
      (fun result after (found : Command × List Token) =>
        result = found.1 ∧ after.Faces rounds 0 found.2)
      ((do refuse (.query (.unknownCommand (← current).text)) : Walk Command).runFrom cursor)
      (.error (.query (.unknownCommand token.text))) := by
    rw [Walk.runFrom_bind_ok h.current]
    exact ⟨cursor, rfl⟩
  rw [command, Walk.runFrom_bind_ok h.current]
  simp only [Reader.command, StateT.run, nextKind]
  cases token.kind
  case keyword word =>
    cases word
    case use => exact tracks_use _ _ h
    case create => exact tracks_create _ _ h
    case drop => exact tracks_drop _ _ h
    case alter => exact tracks_alter _ _ h
    case insert => exact tracks_insert _ _ h
    case select => exact tracks_select _ _ h
    case delete => exact tracks_delete _ _ h
    case update => exact tracks_update _ _ h
    case join => exact tracks_join _ _ h
    all_goals exact hunknown
  all_goals exact hunknown

/-! ## Parsing -/

def Answers (run : Option (Except Stop α × Cursor)) (answer : Except ReadFault α) : Prop :=
  ∃ after, run = some (answer.mapError .refused, after)

theorem Agrees.answers {run : Option (Except Stop α × Cursor)} {answer : Except ReadFault α}
    (h : Agrees (fun result _ expected => result = expected) run answer) : Answers run answer := by
  cases answer with
  | error fault => exact h
  | ok expected =>
      obtain ⟨_, after, hrun, rfl⟩ := h
      exact ⟨after, hrun⟩

theorem run_whole (tokens : List Token) :
    (Reader.whole.run tokens).map Prod.fst =
      (Reader.command.run tokens).bind fun found =>
        ((Reader.symbol .semicolon).run found.2).bind fun separated =>
          ((Reader.symbol .endOfInput).run separated.2).bind fun _ => .ok found.1 := by
  have hrun : Reader.whole.run tokens =
      (Reader.command.run tokens).bind fun found =>
        ((Reader.symbol .semicolon).run found.2).bind fun separated =>
          ((Reader.symbol .endOfInput).run separated.2).bind fun last =>
            .ok (found.1, last.2) := rfl
  rw [hrun]
  cases Reader.command.run tokens with
  | error fault => rfl
  | ok found =>
      simp only [Except.bind]
      cases (Reader.symbol .semicolon).run found.2 with
      | error fault => rfl
      | ok separated =>
          simp only
          cases (Reader.symbol .endOfInput).run separated.2 <;> rfl

/-- Every list of tokens is parsed from every cursor, in as many rounds as it has tokens,
and the answer is that of reading it without a cursor. -/
theorem answers_parse {tokens : List Token} (hrounds : tokens.length ≤ rounds) (cursor : Cursor) :
    Answers ((parse rounds tokens).runFrom cursor) (Command.ofTokens tokens) := by
  rw [parse, Command.ofTokens]
  split
  · rename_i hended
    have hset : (set (⟨tokens, 0, 0⟩ : Cursor) : Walk Unit).runFrom cursor =
        some (.ok (), ⟨tokens, 0, 0⟩) := rfl
    have hfront : (⟨tokens, 0, 0⟩ : Cursor).Faces rounds 0 tokens := ⟨rfl, rfl, hrounds, hended⟩
    rw [Walk.runFrom_bind_ok hset, run_whole]
    refine Agrees.answers (Agrees.bind (tracks_command _ _ hfront) ?_)
    rintro _ after ⟨command, afterCommand⟩ - ⟨rfl, hafter⟩
    refine Agrees.bind (tracks_symbol (by decide) _ _ hafter) ?_
    rintro _ last ⟨_, afterSemicolon⟩ - ⟨rfl, hlast⟩
    obtain ⟨token, rest, rfl⟩ := hlast.exists_cons
    rw [run_symbol, symbol, expect, bind_assoc, bind_assoc, Walk.runFrom_bind_ok hlast.current]
    simp only [List.mem_singleton]
    split
    · rename_i hend
      rw [Walk.runFrom_bind_ok (hlast.advance_end hend)]
      exact ⟨_, last, rfl, rfl⟩
    · exact ⟨last, rfl⟩
  · exact ⟨cursor, rfl⟩

theorem exists_afterParses (spare : Nat) (cursor : Cursor) (earlier : List (List Token)) :
    ∃ used, afterParses spare cursor earlier = some used := by
  induction earlier generalizing cursor with
  | nil => exact ⟨cursor, rfl⟩
  | cons tokens later ih =>
      obtain ⟨after, hafter⟩ := answers_parse (Nat.le_add_right tokens.length spare) cursor
      obtain ⟨used, hused⟩ := ih after
      exact ⟨used, by simp [afterParses, hafter, hused]⟩

/-- What a cursor has parsed before, refused lists of tokens among it, makes no difference.
With as many rounds as there are tokens, or more, the reading of a list comes to its end and
takes nothing from outside the list, and the answer is that of a fresh cursor. -/
theorem parse_reused (earlier : List (List Token)) (tokens : List Token) (spare : Nat) :
    ∃ used, afterParses spare fresh earlier = some used ∧
      ∃ answer : Except ReadFault Command,
        Answers ((parse (tokens.length + spare) tokens).runFrom used) answer ∧
        Answers ((parse (tokens.length + spare) tokens).runFrom fresh) answer ∧
        answer = Command.ofTokens tokens ∧
        ∀ fault, answer = .error fault →
          fault.errorClass = .invalidQuery ∨ fault.errorClass = .invalidList := by
  obtain ⟨used, hused⟩ := exists_afterParses spare fresh earlier
  have henough : tokens.length ≤ tokens.length + spare := Nat.le_add_right _ _
  refine ⟨used, hused, Command.ofTokens tokens, answers_parse henough used,
    answers_parse henough fresh, rfl, fun fault _ => ?_⟩
  cases fault with
  | query fault => exact .inl (ReadFault.errorClass_query fault)
  | list fault => exact .inr (ReadFault.errorClass_list fault)

end Cursor

end Relbase
