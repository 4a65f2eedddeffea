import Relbase.Proofs.Session.Outcomes

/-!
# Ids are never reused

Records are numbered by the insertions into their table that have taken effect since it was
created.  An insertion takes effect if it succeeds, and also if nothing but writing fails
then; the next id in the metadata file counts them all.
-/

namespace Relbase

open Relbase.Action

def Json.member? (name : Text) : Json → Option Json
  | .object members => Assoc.get? name members
  | _ => none

namespace Session

variable {path name key : Text} {session later : Session} {counted : Except Failure (Option ResultSet) → Bool}

/-! ## Counting insertions -/

def creates (name key : Text) (session : Session) : Event → Bool
  | .reopening => false
  | .query text =>
      match Command.ofText text with
      | .ok (.createTable _ _ displayName) =>
          session.databaseName = some name && displayName.lower = key &&
            tookEffect ((executeText text).runOn session).1
      | _ => false

/-- Whether an event inserts a record into a table, with an outcome that counts. -/
def inserts (counted : Except Failure (Option ResultSet) → Bool) (name key : Text)
    (session : Session) : Event → Bool
  | .reopening => false
  | .query text =>
      match Command.ofText text with
      | .ok (.insert table _) =>
          session.databaseName = some name && table.lower = key &&
            counted ((executeText text).runOn session).1
      | _ => false

def tally (counted : Except Failure (Option ResultSet) → Bool) (name key : Text)
    (before : Session × Nat) (event : Event) : Session × Nat :=
  (before.1.react event,
    if creates name key before.1 event then 0
    else if inserts counted name key before.1 event then before.2 + 1
    else before.2)

def insertions (counted : Except Failure (Option ResultSet) → Bool) (path name key : Text)
    (events : List Event) : Nat :=
  (events.foldl (tally counted name key) (start path Store.emptyRoot, 0)).2

theorem insertions_append (events : List Event) (event : Event) :
    insertions counted path name key (events ++ [event]) =
      if creates name key (after path events) event then 0
      else if inserts counted name key (after path events) event then
        insertions counted path name key events + 1
      else insertions counted path name key events := by
  have hsession : (events.foldl (tally counted name key) (start path Store.emptyRoot, 0)).1 =
      after path events := by
    induction events using List.reverseRecOn with
    | nil => rfl
    | append_singleton events event ih =>
        rw [List.foldl_append, after_append, ← ih]
        rfl
  rw [insertions, List.foldl_append, ← hsession]
  rfl

/-! ## Counters count insertions -/

/-- The counter of a table whose row file can be is one more than its insertions, as long
as it can be written. -/
def Numbers (path : Text) (events : List Event) (name key : Text) (counter : Int) : Prop :=
  (fileIn path name (Database.rowFileName key)).IsUsable →
    counter = insertions tookEffect path name key events + 1 ∨
      (Text.digitBound : Int) ≤ counter ∧
        Text.digitBound ≤ insertions tookEffect path name key events + 1

theorem le_of_isOversized {counter : Int} (hsize : Text.isOversized counter = true)
    (hcounter : 0 ≤ counter) : (Text.digitBound : Int) ≤ counter := by
  rw [Text.isOversized_iff] at hsize
  omega

theorem numbers_append {events : List Event} {event : Event} {counter : Int}
    (hcreates : creates name key (after path events) event = false)
    (hinserts : inserts tookEffect name key (after path events) event = false) :
    Numbers path (events ++ [event]) name key counter ↔ Numbers path events name key counter := by
  rw [Numbers, Numbers, insertions_append, hcreates, hinserts]
  rfl

theorem insertions_of_inserts {events : List Event} {event : Event}
    (hcreates : creates name key (after path events) event = false)
    (hinserts : inserts tookEffect name key (after path events) event = true) :
    insertions tookEffect path name key (events ++ [event]) =
      insertions tookEffect path name key events + 1 := by
  rw [insertions_append, hcreates, hinserts]
  rfl

theorem insertions_of_creates {events : List Event} {event : Event}
    (hcreates : creates name key (after path events) event = true) :
    insertions tookEffect path name key (events ++ [event]) = 0 := by
  rw [insertions_append, hcreates]
  rfl

/-! ## One event -/

section Queries

variable {events : List Event} {text : Text}

theorem creates_of_insert {table : Text} {values : List Text}
    (hcommand : Command.ofText text = .ok (.insert table values)) (name key : Text) :
    creates name key session (.query text) = false := by
  rw [creates, hcommand]

theorem inserts_of_insert {table : Text} {values : List Text}
    (hcommand : Command.ofText text = .ok (.insert table values)) (name key : Text) :
    inserts tookEffect name key session (.query text) =
      (session.databaseName = some name && table.lower = key &&
        tookEffect ((executeText text).runOn session).1) := by
  rw [inserts, hcommand]

theorem moves_numbers {table : Text} {values : List Text}
    (hcommand : Command.ofText text = .ok (.insert table values))
    (hname : (after path events).databaseName = some name)
    (heffect : tookEffect ((executeText text).runOn (after path events)).1 = true) :
    Moves (Numbers path events) (Numbers path (events ++ [.query text])) name table.lower where
  others other key counter hne hcounter := by
    refine (numbers_append (creates_of_insert hcommand _ _) ?_).2 hcounter
    rw [inserts_of_insert hcommand, hname]
    by_cases hother : name = other
    · subst hother
      simp [Ne.symm (show key ≠ table.lower from fun heq => hne (by rw [heq]))]
    · simp [hother]
  moved counter hcounter husable := by
    rw [insertions_of_inserts (creates_of_insert hcommand _ _)
      (by rw [inserts_of_insert hcommand, hname, heffect]; simp)]
    have hnumber := hcounter husable
    push_cast at hnumber ⊢
    omega
  lost counter written hcounter hsize hwritten husable := by
    rw [insertions_of_inserts (creates_of_insert hcommand _ _)
      (by rw [inserts_of_insert hcommand, hname, heffect]; simp)]
    have hnumber := hcounter husable
    have hold := hwritten husable
    have hbound := le_of_isOversized hsize (by omega)
    push_cast at hnumber hold ⊢
    omega

theorem creates_of_createTable {table displayName : Text} {names : List Text}
    (hcommand : Command.ofText text = .ok (.createTable table names displayName))
    (name key : Text) :
    creates name key session (.query text) =
      (session.databaseName = some name && displayName.lower = key &&
        tookEffect ((executeText text).runOn session).1) := by
  rw [creates, hcommand]

theorem starts_numbers {table displayName : Text} {names : List Text}
    (hcommand : Command.ofText text = .ok (.createTable table names displayName))
    (hname : (after path events).databaseName = some name)
    (heffect : tookEffect ((executeText text).runOn (after path events)).1 = true) :
    Starts path (Numbers path events) (Numbers path (events ++ [.query text])) name
      displayName.lower where
  others other key counter hne hcounter := by
    refine (numbers_append ?_ (by rw [inserts, hcommand])).2 hcounter
    rw [creates_of_createTable hcommand, hname]
    by_cases hother : name = other
    · subst hother
      simp [Ne.symm (show key ≠ displayName.lower from fun heq => hne (by rw [heq]))]
    · simp [hother]
  first _ := by
    rw [insertions_of_creates (by rw [creates_of_createTable hcommand, hname, heffect]; simp)]
    exact .inl rfl
  unwritten hunusable counter _ husable := absurd husable hunusable

theorem creates_eq_false {command : Command} (hcommand : Command.ofText text = .ok command)
    (hcreate : ∀ table names displayName, command ≠ .createTable table names displayName)
    (name key : Text) : creates name key session (.query text) = false := by
  rw [creates, hcommand]
  split
  · rename_i heq
    exact absurd (Except.ok.inj heq) (hcreate _ _ _)
  · rfl

theorem inserts_eq_false {command : Command} (hcommand : Command.ofText text = .ok command)
    (hinsert : ∀ table values, command ≠ .insert table values) (name key : Text) :
    inserts counted name key session (.query text) = false := by
  rw [inserts, hcommand]
  split
  · rename_i heq
    exact absurd (Except.ok.inj heq) (hinsert _ _)
  · rfl

end Queries

theorem tookEffect_map {α β : Type} (outcome : Except Failure α) (f : α → β) :
    tookEffect (outcome.map f) = tookEffect outcome := by
  cases outcome <;> rfl

theorem Counts.quiet {events : List Event} {event : Event}
    (hcounts : later.Counts (Numbers path events))
    (hcreates : ∀ name key, creates name key (after path events) event = false)
    (hinserts : ∀ name key, inserts tookEffect name key (after path events) event = false) :
    later.Counts (Numbers path (events ++ [event])) :=
  hcounts.mono fun _ _ _ hcounter =>
    (numbers_append (hcreates _ _) (hinserts _ _)).2 hcounter

theorem Changes.counts_appended {events : List Event} {text : Text} {command : Command}
    {action : Action Workspace Unit} {outcome : Except Failure Unit}
    (hchanges : Changes path (after path events) action outcome later)
    (hcounting : Counting path command action) (hcommand : Command.ofText text = .ok command)
    (heffect : tookEffect ((executeText text).runOn (after path events)).1 = tookEffect outcome)
    (hcounts : (after path events).Counts (Numbers path events)) :
    later.Counts (Numbers path (events ++ [.query text])) := by
  have h := isSound_after path events
  cases hcounting with
  | inserts =>
      obtain ⟨hkept, hmoved⟩ := hchanges.counts_insert
        (R := Numbers path (events ++ [.query text])) h hcounts
      cases hboth : tookEffect outcome with
      | false =>
          refine (hkept hboth).quiet (creates_of_insert hcommand) fun name key => ?_
          rw [inserts_of_insert hcommand, heffect, hboth, Bool.and_false]
      | true =>
          exact hmoved hboth fun name database hcurrent => moves_numbers hcommand
            (databaseName_of_current hcurrent) (heffect.trans hboth)
  | creates hdisplay hnames =>
      obtain ⟨hkept, hstarted⟩ := hchanges.counts_createTable
        (R := Numbers path (events ++ [.query text])) hdisplay hnames h hcounts
      cases hboth : tookEffect outcome with
      | false =>
          refine (hkept hboth).quiet (fun name key => ?_) fun _ _ => by rw [inserts, hcommand]
          rw [creates_of_createTable hcommand, heffect, hboth, Bool.and_false]
      | true =>
          exact hstarted hboth fun name database hcurrent => starts_numbers hcommand
            (databaseName_of_current hcurrent) (heffect.trans hboth)
  | keeps hinsert hcreate hkeeps =>
      exact (hchanges.counts_of_keeps h hcounts hkeeps).quiet
        (creates_eq_false hcommand hcreate) (inserts_eq_false hcommand hinsert)

theorem counts_query {events : List Event} (hcounts : (after path events).Counts (Numbers path events))
    (text : Text) :
    ((after path events).react (.query text)).Counts (Numbers path (events ++ [.query text])) := by
  have h := isSound_after path events
  cases hcommand : Command.ofText text with
  | error fault =>
      have hsame : (after path events).react (.query text) = after path events := by
        rw [react, executeText, hcommand]
        rfl
      rw [hsame]
      exact hcounts.quiet (fun _ _ => by rw [creates, hcommand]) fun _ _ => by rw [inserts, hcommand]
  | ok command =>
      have hprintable := Spelling.printable_of_ofText hcommand
      have hexecute : executeText text = execute command := by rw [executeText, hcommand]
      rw [react, hexecute]
      cases haction : command.changing with
      | some action =>
          obtain ⟨outcome, houtcome, hchanges⟩ := h.changes_execute hprintable haction
          refine hchanges.counts_appended (counting_of_changing path hprintable haction) hcommand ?_
            hcounts
          rw [hexecute, houtcome, tookEffect_map]
      | none =>
          refine ((ensures_execute_unchanging h hcounts hprintable haction).mono
            (fun _ _ hdone => hdone.2) fun _ _ hfailed => hfailed.2).finally.quiet
              (creates_eq_false hcommand fun _ _ _ => ?_) (inserts_eq_false hcommand fun _ _ => ?_)
          all_goals
            rintro rfl
            cases haction

theorem counts_numbers (path : Text) (events : List Event) :
    (after path events).Counts (Numbers path events) := by
  induction events using List.reverseRecOn with
  | nil => exact counts_start _ path
  | append_singleton events event ih =>
      rw [after_append]
      cases event with
      | query text => exact counts_query ih text
      | reopening => exact ih.left.quiet (fun _ _ => rfl) fun _ _ => rfl

/-! ## Listed counters -/

theorem Numbers.eq_of_fits {events : List Event} {counter next : Int}
    (h : Numbers path events name key counter)
    (husable : (fileIn path name (Database.rowFileName key)).IsUsable)
    (hnext : counter ≤ next) (hsize : Text.isOversized next = false) :
    counter = insertions tookEffect path name key events + 1 := by
  refine (h husable).resolve_right fun hboth => ?_
  rw [← Bool.not_eq_true, Text.isOversized_iff] at hsize
  omega

def listed? (session : Session) (name key : Text) : Option Int := do
  let .file (.text text) ← session.store.get? [name, Database.metadataName] | none
  let metadata ← (Json.parse text.unifyNewlines).toOption
  let tables ← metadata.member? Database.tablesMember
  let description ← tables.member? key
  let .integer counter ← description.member? Schema.counterMember | none
  return counter

theorem listed?_eq {schemas : List (Text × Schema)} (hsound : SoundSchemas schemas)
    (hcounted : AllCounted schemas)
    (htext : session.store.get? [name, Database.metadataName] =
      some (.file (.text (metadataText schemas)))) (key : Text) :
    session.listed? name key = (Assoc.get? key schemas).map Schema.nextId := by
  have hdistinct := Schema.nodup_memberNames
  simp only [List.nodup_cons, List.mem_cons, List.not_mem_nil, or_false, not_or] at hdistinct
  have htables : (Json.object (describing schemas)).member? Database.tablesMember =
      some (.object (schemas.map fun entry => (entry.1, entry.2.toJson))) := by
    simp [Json.member?, describing, Assoc.get?]
  have hdescription : (Json.object (schemas.map fun entry => (entry.1, entry.2.toJson))).member? key =
      (Assoc.get? key schemas).map Schema.toJson :=
    Assoc.get?_mapValues (fun _ => Schema.toJson) key schemas
  have hcounter (schema : Schema) : schema.toJson.member? Schema.counterMember =
      some (.integer schema.nextId) := by
    simp [Json.member?, Schema.toJson, Assoc.get?, hdistinct]
  rw [listed?, htext]
  simp only [bind, Option.bind, hsound.parse_metadataText hcounted, Except.toOption, htables,
    hdescription]
  cases Assoc.get? key schemas with
  | none => rfl
  | some schema =>
      simp only [Option.map_some, hcounter]
      rfl

theorem Counts.listed {Q : Text → Text → Int → Prop} (hcounts : session.Counts Q) {counter : Int}
    (hlisted : session.listed? name key = some counter) :
    Q name key counter ∧ Text.isOversized counter = false := by
  cases hentry : session.store.get? [name, Database.metadataName] with
  | none =>
      rw [listed?, hentry] at hlisted
      cases hlisted
  | some entry =>
      obtain ⟨schemas, hsound, rfl, hcounters⟩ := hcounts.files name entry hentry
      cases hparse : Json.parse (metadataText schemas).unifyNewlines with
      | error problem =>
          simp only [listed?, hentry, hparse, Except.toOption, bind, Option.bind] at hlisted
          cases hlisted
      | ok metadata =>
          have hcounted := hsound.counted_of_parse hparse
          rw [listed?_eq hsound hcounted hentry] at hlisted
          obtain ⟨schema, hschema, rfl⟩ := Option.map_eq_some_iff.1 hlisted
          have hmem := Assoc.mem_of_get? hschema
          exact ⟨hcounters (key, schema) hmem, hcounted (key, schema) hmem⟩

theorem insertions_le_of_not_creates {events more : List Event}
    (hmore : ∀ front event, front ++ [event] <+: more →
      creates name key (after path (events ++ front)) event = false) :
    insertions counted path name key events ≤ insertions counted path name key (events ++ more) := by
  -- The last event is taken off, as counting goes on from what comes before it.
  induction more using List.reverseRecOn with
  | nil => rw [List.append_nil]
  | append_singleton more event ih =>
      have hbefore := ih fun front event hfront => hmore front event (hfront.trans (List.prefix_append _ _))
      rw [← List.append_assoc, insertions_append, hmore more event List.prefix_rfl]
      split
      · rename_i hcreates
        cases hcreates
      · split <;> omega

/-! ## Runs -/

/-- A record of some values was stored in a table of the database in use, under its next id. -/
def StoresUnder (before later : Session) (name spelled : Text) (values : List Text) (id : Int) : Prop :=
  ∃ database old changed, before.current = some (name, database) ∧
    Workspace.tableOf ⟨database, before.store⟩ spelled = .ok old ∧ old.schema.nextId = id ∧
      later.current = some (name, changed) ∧ changed.tables.get? spelled.lower =
        some (.ofTable { old.advanced with
          records := old.records.insert id (old.nextRecord values) })

theorem Changes.exists_storesUnder {events : List Event} {table : Text} {values : List Text}
    (hchanges : Changes path (after path events)
      (Workspace.onTable table do let _ ← Table.insert values) (.ok ()) later) :
    ∃ name, StoresUnder (after path events) later name table values
      (insertions tookEffect path name table.lower events + 1) := by
  have h := isSound_after path events
  cases hchanges with
  | saved hcurrent hrun hsteps hsaves =>
      rename_i name database workspace last
      have hworkspace := h.current name database hcurrent
      obtain ⟨old, hold, rfl⟩ := (hworkspace.ensures_insert table values).of_ok hrun
      have hregistered : (Workspace.registered ⟨database, (after path events).store⟩ table.lower
          (.ofTable { old.advanced with
            records := old.records.insert old.schema.nextId (old.nextRecord values) })
              ).database.tables.get? table.lower =
            some (.ofTable { old.advanced with
              records := old.records.insert old.schema.nextId (old.nextRecord values) }) := by
        rw [Workspace.registered, OrderedMap.get?_put, if_pos rfl]
      have hsize := hsaves.counted _
        (List.mem_map_of_mem (OrderedMap.get?_eq_some_iff.1 hregistered))
      have husable := hsaves.usable _ (Workspace.mem_loadedTables.2 hregistered)
      have hcounter := (counts_numbers path events).memory name database hcurrent _ _
        (hworkspace.counter?_of_tableOf hold)
      have hnumber := hcounter.eq_of_fits husable (Int.le_add_one (Int.le_refl _)) hsize
      refine ⟨name, database, old, last.database, hcurrent, hold, hnumber, rfl, ?_⟩
      rw [hsaves.database_eq, ← hnumber]
      exact hregistered

/-- The record of an insertion that succeeds is numbered by the insertions into its table that
took effect before, and the next id of a table in the metadata counts them.  So it never
decreases as long as the table is not created anew. -/
theorem insertions_number_records (path : Text) (events : List Event) :
    (∀ text table values result, Command.ofText text = .ok (.insert table values) →
      ((executeText text).runOn (after path events)).1 = .ok result →
        ∃ name, StoresUnder (after path events) (after path (events ++ [.query text])) name table
          values (insertions tookEffect path name table.lower events + 1)) ∧
    ∀ name key, (fileIn path name (Database.rowFileName key)).IsUsable →
      (∀ counter, (after path events).listed? name key = some counter →
        counter = insertions tookEffect path name key events + 1) ∧
      ∀ more, (∀ front event, front ++ [event] <+: more →
          creates name key (after path (events ++ front)) event = false) →
        ∀ counter next, (after path events).listed? name key = some counter →
          (after path (events ++ more)).listed? name key = some next → counter ≤ next := by
  have heq {events : List Event} {name key : Text} {counter : Int}
      (husable : (fileIn path name (Database.rowFileName key)).IsUsable)
      (hlisted : (after path events).listed? name key = some counter) :
      counter = insertions tookEffect path name key events + 1 := by
    obtain ⟨hnumbers, hsize⟩ := (counts_numbers path events).listed hlisted
    exact hnumbers.eq_of_fits husable (Int.le_refl counter) hsize
  refine ⟨fun text table values result hcommand hresult => ?_, fun name key husable =>
    ⟨fun counter => heq husable, fun more hmore counter next hcounter hnext => ?_⟩⟩
  · have h := isSound_after path events
    have hprintable := Spelling.printable_of_ofText hcommand
    have hexecute : executeText text = execute (.insert table values) := by
      rw [executeText, hcommand]
    obtain ⟨outcome, houtcome, hchanges⟩ := h.changes_execute hprintable rfl
    rw [hexecute, houtcome] at hresult
    rw [after_append, react, hexecute]
    cases outcome with
    | error failure => cases hresult
    | ok _ => exact hchanges.exists_storesUnder
  · have hle : insertions tookEffect path name key events ≤
        insertions tookEffect path name key (events ++ more) := insertions_le_of_not_creates hmore
    rw [heq husable hcounter, heq husable hnext]
    omega

/-- The only record of a table is deleted, and an insertion with too many values fails. -/
def deletedRecord : List Event :=
  firstTable ++ [.query "INSERT INTO t VALUES ('x');".toList,
    .query "DELETE FROM t WHERE a == 'x';".toList, .query "INSERT INTO t VALUES ('y', 'z');".toList]

theorem secondRecord_after_deletedRecord :
    (∃ name, StoresUnder (after "r".toList deletedRecord)
      (after "r".toList (deletedRecord ++ [.query "INSERT INTO t VALUES ('y');".toList])) name ['t']
        [['y']] (insertions tookEffect "r".toList name ['t'] deletedRecord + 1)) ∧
    (2 : Int) = insertions tookEffect "r".toList ['d'] ['t'] deletedRecord + 1 ∧ (2 : Int) ≤ 3 := by
  obtain ⟨hstores, hcounters⟩ := insertions_number_records "r".toList deletedRecord
  obtain ⟨hok, hlisted, hlater, hcreates⟩ :
      ((executeText "INSERT INTO t VALUES ('y');".toList).runOn
          (after "r".toList deletedRecord)).1.isOk = true ∧
        (after "r".toList deletedRecord).listed? ['d'] ['t'] = some 2 ∧
          (after "r".toList (deletedRecord ++
            [.query "INSERT INTO t VALUES ('y');".toList])).listed? ['d'] ['t'] = some 3 ∧
            creates ['d'] ['t'] (after "r".toList (deletedRecord ++ []))
              (.query "INSERT INTO t VALUES ('y');".toList) = false := by decide +kernel
  obtain ⟨result, hresult⟩ := exists_of_isOk hok
  have husable : (fileIn "r".toList ['d'] (Database.rowFileName ['t'])).IsUsable := by
    refine (Place.isUsable_file ?_ ?_).2 (by decide +kernel) <;> constructor <;> decide
  refine ⟨hstores _ ['t'] [['y']] result (by decide +kernel) hresult,
    (hcounters ['d'] ['t'] husable).1 2 hlisted,
    (hcounters ['d'] ['t'] husable).2 [.query "INSERT INTO t VALUES ('y');".toList]
      (fun front event hfront => ?_) 2 3 hlisted hlater⟩
  have hlength := hfront.length_le
  rw [List.length_append, List.length_singleton, List.length_singleton] at hlength
  obtain rfl := List.length_eq_zero_iff.1 (by omega : front.length = 0)
  obtain ⟨rest, hrest⟩ := hfront
  obtain ⟨rfl, _⟩ := List.cons.inj hrest
  exact hcreates

def unwrittenRecord : List Event :=
  firstTable ++ [.query ("CREATE TABLE ".toList ++ overlongName ++ " (a);".toList),
    .query "INSERT INTO t VALUES ('x');".toList, .reopening, .query "USE d;".toList]

/-- No insertion has succeeded, but the first one that does takes the second id. -/
theorem secondId_after_unwrittenRecord :
    insertions Except.isOk "r".toList ['d'] ['t'] unwrittenRecord = 0 ∧
      ((executeText "INSERT INTO t VALUES ('y');".toList).runOn
        (after "r".toList unwrittenRecord)).1.isOk = true ∧
      ((executeText "SELECT * FROM t;".toList).runOn (after "r".toList (unwrittenRecord ++
        [.query "INSERT INTO t VALUES ('y');".toList]))).1.toOption =
          some (some ⟨[idName, ['a']], [[['1'], ['x']], [['2'], ['y']]]⟩) := by
  decide +kernel

end Session

end Relbase
