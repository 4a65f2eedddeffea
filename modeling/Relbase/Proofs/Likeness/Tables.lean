import Relbase.Proofs.Likeness.Saving

/-!
# Changes that keep workspaces alike

A change does the same to two workspaces that are alike: an action on a table meets the same
table in both, a new table is registered and written in both, and a dropped one is gone from
both.  What comes before all tables that block saving is kept, or goes on with new ones.
-/

namespace Relbase

open Relbase.Action

namespace Workspace

variable {path name : Text} {workspace first second : Workspace}

/-! ## Registered tables -/

theorem schemas_registered (workspace : Workspace) (key : Text) (registration : Registration) :
    (workspace.registered key registration).database.schemas =
      Assoc.put key registration.schema workspace.database.schemas := by
  change (Assoc.put key registration workspace.database.tables.entries).map _ = _
  rw [Database.schemas]
  induction workspace.database.tables.entries with
  | nil => rfl
  | cons entry rest ih =>
      by_cases hentry : entry.1 = key
      · simp [Assoc.put, hentry]
      · simp [Assoc.put, hentry, ih]

theorem schemas_unregistered (workspace : Workspace) (key : Text) :
    (workspace.unregistered key).database.schemas =
      Assoc.erase key workspace.database.schemas := by
  change (Assoc.erase key workspace.database.tables.entries).map _ = _
  rw [Assoc.erase, Assoc.erase, Database.schemas, List.filter_map]
  rfl

theorem tableOf_registered (workspace : Workspace) (key : Text) (table : Table) (spelled : Text) :
    (workspace.registered key (.ofTable table)).tableOf spelled =
      if key = spelled.lower then .ok table else workspace.tableOf spelled := by
  by_cases hkey : key = spelled.lower
  · rw [if_pos hkey, tableOf_loaded]
    rw [Workspace.registered, OrderedMap.get?_put, if_pos hkey]
  · have hget : (workspace.registered key (.ofTable table)).database.tables.get? spelled.lower =
        workspace.database.tables.get? spelled.lower := by
      rw [Workspace.registered, OrderedMap.get?_put, if_neg hkey]
    rw [if_neg hkey, tableOf, hget]
    rfl

theorem tableOf_of_lower {spelled other : Text} (hlower : spelled.lower = other.lower) {table : Table}
    (htable : workspace.tableOf spelled = .ok table) : workspace.tableOf other = .ok table := by
  rw [tableOf] at htable ⊢
  rw [← hlower]
  cases hfound : workspace.database.tables.get? spelled.lower with
  | none =>
      rw [hfound] at htable
      cases htable
  | some found =>
      rw [hfound] at htable
      exact htable

theorem tableOf_registered_loaded {spelled : Text} {table : Table}
    (htable : workspace.tableOf spelled = .ok table) (other : Text) :
    (workspace.registered spelled.lower (.ofTable table)).tableOf other =
      workspace.tableOf other := by
  rw [tableOf_registered]
  split
  · rename_i hlower
    exact (tableOf_of_lower hlower htable).symm
  · rfl

theorem tableOf_congr (hfirst : first.IsSound path name) (hsecond : second.IsSound path name)
    {spelled : Text}
    (hget : first.database.tables.get? spelled.lower = second.database.tables.get? spelled.lower)
    (hfile : first.store.get? [name, Database.rowFileName spelled.lower] =
      second.store.get? [name, Database.rowFileName spelled.lower]) :
    first.tableOf spelled = second.tableOf spelled := by
  rw [tableOf, tableOf, hget, hfirst.rowFilePlace_eq, hsecond.rowFilePlace_eq]
  cases hfound : second.database.tables.get? spelled.lower with
  | none => rfl
  | some found =>
      have hkey := (hsecond.tables _ found hfound).schema.key.1
      simp only [tableAt_congr (hfirst.sameWay hsecond) hfirst.identifier hkey hfile]

theorem mem_ahead_of_append {later : Workspace} {rest : List Text}
    (hkeys : Assoc.keys later.database.schemas = Assoc.keys workspace.database.schemas ++ rest)
    (hblocks : ∀ key ∈ Assoc.keys workspace.database.schemas,
      later.Blocks path name key → workspace.Blocks path name key) {key : Text}
    (hkey : key ∈ workspace.ahead path name) : key ∈ later.ahead path name := by
  have hinitial (p : Text → Bool) (front : List Text) :
      front.takeWhile p <+: (front ++ rest).takeWhile p := by
    rw [List.takeWhile_append]
    split
    · exact (List.takeWhile_prefix p).trans (List.prefix_append front _)
    · exact List.prefix_rfl
  rw [ahead, hkeys]
  refine (hinitial _ _).mem (mem_takeWhile_of_imp (fun other hother hclear => ?_) hkey)
  rw [decide_eq_true_iff] at hclear ⊢
  exact fun hblocked => hclear (hblocks other hother hblocked)

theorem mem_ahead_of_erase {later : Workspace} {erased : Text}
    (hschemas : later.database.schemas = Assoc.erase erased workspace.database.schemas)
    (hblocks : ∀ key ∈ Assoc.keys workspace.database.schemas, key ≠ erased →
      later.Blocks path name key → workspace.Blocks path name key) {key : Text} (hne : key ≠ erased)
    (hkey : key ∈ workspace.ahead path name) : key ∈ later.ahead path name := by
  have hkeys : Assoc.keys later.database.schemas =
      (Assoc.keys workspace.database.schemas).filter fun other => other ≠ erased := by
    rw [hschemas, Assoc.keys, Assoc.keys, Assoc.erase, List.filter_map]
    rfl
  rw [ahead, hkeys, List.takeWhile_filter, List.mem_filter]
  refine ⟨mem_takeWhile_of_imp (fun other hother hclear => ?_) hkey, by simpa using hne⟩
  by_cases heq : other = erased
  · simp [heq]
  · rw [decide_eq_true_iff] at hclear
    simpa [heq] using fun hblocked => hclear (hblocks other hother heq hblocked)

theorem Alike.registered (h : Alike path name first second) {spelled : Text} {table : Table}
    (htable : first.tableOf spelled = .ok table) (changed : Table) :
    Alike path name (first.registered spelled.lower (.ofTable changed))
      (second.registered spelled.lower (.ofTable changed)) where
  stores := h.stores
  schemas := by rw [schemas_registered, schemas_registered, h.schemas]
  tables other := by rw [tableOf_registered, tableOf_registered, h.tables]
  behind key hkey hbehind := by
    have hregistered : spelled.lower ∈ Assoc.keys first.database.schemas := by
      rw [mem_keys_schemas]
      rw [tableOf] at htable
      cases hfound : first.database.tables.get? spelled.lower with
      | none =>
          rw [hfound] at htable
          cases htable
      | some found => rfl
    have hkeys : Assoc.keys (first.registered spelled.lower (.ofTable changed)).database.schemas =
        Assoc.keys first.database.schemas := by
      rw [schemas_registered, Assoc.keys_put, if_pos hregistered]
    rw [hkeys] at hkey
    rw [← List.append_nil (Assoc.keys first.database.schemas)] at hkeys
    refine h.behind key hkey fun hahead => hbehind (mem_ahead_of_append hkeys ?_ hahead)
    rintro other _ ⟨hunusable, hok⟩
    refine ⟨hunusable, ?_⟩
    rw [tableOf_registered] at hok
    split at hok
    · rename_i hlower
      rw [tableOf_of_lower hlower htable]
      rfl
    · exact hok

theorem Alike.agree_onTable {α : Type} (h : Alike path name first second) (spelled : Text)
    (action : Action Table α) :
    Agree (Alike path name) (onTable spelled action) (onTable spelled action) first second := by
  have htable := h.tables spelled
  cases hfound : first.tableOf spelled with
  | error failure =>
      constructor <;> simp only [runOn_onTable, acted, ← htable, hfound]
      exact h
  | ok table =>
      constructor <;> simp only [runOn_onTable, acted, ← htable, hfound]
      exact h.registered hfound _

/-! ## Created and dropped tables -/

/-- What has changed of a workspace is at most one table and its row file. -/
structure Touches (name key : Text) (workspace later : Workspace) : Prop where
  tables : ∀ other, other ≠ key →
    later.database.tables.get? other = workspace.database.tables.get? other
  files : ∀ other, other ≠ [name, Database.rowFileName key] →
    later.store.get? other = workspace.store.get? other

theorem Touches.tableOf {later : Workspace} {key spelled : Text}
    (htouches : Touches name key workspace later) (h : workspace.IsSound path name)
    (hlater : later.IsSound path name) (hspelled : spelled.lower ≠ key) :
    later.tableOf spelled = workspace.tableOf spelled :=
  tableOf_congr hlater h (htouches.tables _ hspelled) (htouches.files _ fun heq =>
    hspelled (rowFileName_inj (by simpa using heq)))

theorem Alike.stores_of_touches (h : Alike path name first second) {later last : Workspace}
    {key : Text} (hfirst : first.IsSound path name) (hsecond : second.IsSound path name)
    (hlater : later.IsSound path name) (hlast : last.IsSound path name)
    (hfront : Touches name key first later) (hback : Touches name key second last)
    (hsame : later.store.get? [name, Database.rowFileName key] =
      last.store.get? [name, Database.rowFileName key]) :
    later.store.Alike path last.store := by
  have hmetadata : [name, Database.metadataName] ≠ [name, Database.rowFileName key] := by
    simpa using (rowFileName_ne_metadataName key).symm
  refine h.stores.within hlater.store (fun other hother => hfront.files other (hother _))
    (fun other hother => hback.files other (hother _)) (fun file => ?_) ?_
      fun schemas hsound hcounted htext table htable => ?_
  · by_cases hfile : file = Database.rowFileName key
    · rw [hfile, hsame]
    · rw [hfront.files _ (by simpa using hfile), hback.files _ (by simpa using hfile)]
      exact h.stores.exists_iff _
  · rw [hfront.files _ hmetadata, hback.files _ hmetadata, h.stores.metadata]
  · have hkey := (hsound.sound table htable).key.1
    by_cases hfile : table.1 = key
    · rw [← hfile] at hsame
      exact tableAt_congr (hlater.sameWay hlast) hlater.identifier hkey hsame table.2
    · have hne : [name, Database.rowFileName table.1] ≠ [name, Database.rowFileName key] := by
        simpa using fun heq => hfile (rowFileName_inj heq)
      rw [hfront.files _ hmetadata] at htext
      rw [tableAt_congr (hlater.sameWay hfirst) hlater.identifier hkey (hfront.files _ hne),
        tableAt_congr (hlast.sameWay hsecond) hlater.identifier hkey (hback.files _ hne)]
      exact h.stores.tables name schemas hsound hcounted htext table htable

/-- Workspaces stay alike if one table and its row file become the same in both. -/
theorem Alike.touched (h : Alike path name first second) {later last : Workspace} {key : Text}
    (hfirst : first.IsSound path name) (hsecond : second.IsSound path name)
    (hlater : later.IsSound path name) (hlast : last.IsSound path name)
    (hfront : Touches name key first later) (hback : Touches name key second last)
    (hsame : later.store.get? [name, Database.rowFileName key] =
      last.store.get? [name, Database.rowFileName key])
    (hschemas : later.database.schemas = last.database.schemas)
    (htables : ∀ spelled, spelled.lower = key → later.tableOf spelled = last.tableOf spelled)
    (hahead : ∀ other, other ≠ key → other ∈ first.ahead path name → other ∈ later.ahead path name) :
    Alike path name later last where
  stores := h.stores_of_touches hfirst hsecond hlater hlast hfront hback hsame
  schemas := hschemas
  tables spelled := by
    by_cases hspelled : spelled.lower = key
    · exact htables spelled hspelled
    · rw [hfront.tableOf hfirst hlater hspelled, hback.tableOf hsecond hlast hspelled, h.tables]
  behind other hother hbehind := by
    by_cases hkey : other = key
    · rw [hkey, hsame]
    · have hne : [name, Database.rowFileName other] ≠ [name, Database.rowFileName key] := by
        simpa using fun heq => hkey (rowFileName_inj heq)
      rw [mem_keys_schemas, hfront.tables other hkey, ← mem_keys_schemas] at hother
      rw [hfront.files _ hne, hback.files _ hne]
      exact h.behind other hother fun hmem => hbehind (hahead other hkey hmem)

theorem Touches.blocks {later : Workspace} {key other : Text}
    (htouches : Touches name key workspace later) (h : workspace.IsSound path name)
    (hlater : later.IsSound path name) (hother : other ∈ Assoc.keys workspace.database.schemas)
    (hne : other ≠ key) (hblocks : later.Blocks path name other) :
    workspace.Blocks path name other := by
  obtain ⟨entry, hentry, rfl⟩ := List.mem_map.1 hother
  have hlower := (h.soundSchemas.sound entry hentry).key.2
  rw [Blocks] at hblocks ⊢
  rwa [htouches.tableOf h hlater (by rwa [hlower])] at hblocks

theorem Alike.created (h : Alike path name first second) {later last : Workspace} {key : Text}
    {table : Table} (hfirst : first.IsSound path name) (hsecond : second.IsSound path name)
    (hlater : later.IsSound path name) (hlast : last.IsSound path name)
    (hnew : first.database.tables.get? key = none)
    (hfront : later.database = (first.registered key (.ofTable table)).database)
    (hback : last.database = (second.registered key (.ofTable table)).database)
    (hfiles : ∀ other, other ≠ [name, Database.rowFileName key] →
      later.store.get? other = first.store.get? other ∧ last.store.get? other = second.store.get? other)
    (hsame : later.store.get? [name, Database.rowFileName key] =
      last.store.get? [name, Database.rowFileName key]) : Alike path name later last := by
  have htouches {workspace later : Workspace}
      (hdatabase : later.database = (workspace.registered key (.ofTable table)).database)
      (hfiles : ∀ other, other ≠ [name, Database.rowFileName key] →
        later.store.get? other = workspace.store.get? other) : Touches name key workspace later :=
    ⟨fun other hother => by
      rw [hdatabase, Workspace.registered, OrderedMap.get?_put, if_neg (Ne.symm hother)], hfiles⟩
  have htouched := htouches hfront fun other hother => (hfiles other hother).1
  have hloaded {workspace later : Workspace} {spelled : Text} (hspelled : spelled.lower = key)
      (hdatabase : later.database = (workspace.registered key (.ofTable table)).database) :
      later.tableOf spelled = .ok table :=
    tableOf_loaded (by rw [hdatabase, Workspace.registered, OrderedMap.get?_put, if_pos hspelled.symm])
  -- A new table comes last, so it blocks saving for none of those that were there.
  refine h.touched hfirst hsecond hlater hlast htouched
    (htouches hback fun other hother => (hfiles other hother).2) hsame ?_ ?_ ?_
  · rw [hfront, hback, schemas_registered, schemas_registered, h.schemas]
  · intro spelled hspelled
    rw [hloaded hspelled hfront, hloaded hspelled hback]
  · intro other hother
    have hkey : key ∉ Assoc.keys first.database.schemas := by
      rw [mem_keys_schemas, hnew]
      exact Bool.false_ne_true
    refine mem_ahead_of_append (by rw [hfront, schemas_registered, Assoc.keys_put, if_neg hkey])
      fun other hother => htouched.blocks hfirst hlater hother fun heq => hkey (heq ▸ hother)

theorem IsSound.rowFile_of_unusable (h : workspace.IsSound path name) {key : Text}
    (hunusable : ¬ (fileIn path name (Database.rowFileName key)).IsUsable) :
    workspace.store.get? [name, Database.rowFileName key] = none := by
  cases hentry : workspace.store.get? [name, Database.rowFileName key] with
  | none => rfl
  | some entry => exact absurd (h.store.usable name _ entry hentry).2 hunusable

theorem Alike.agree_register (h : Alike path name first second) (hfirst : first.IsSound path name)
    (hsecond : second.IsSound path name) {key : Text} {table : Table} (htable : table.IsSound key)
    (hnew : first.database.tables.get? key = none) :
    Agree (Alike path name) (register key (.ofTable table) >>= fun _ => writeTable key table)
      (register key (.ofTable table) >>= fun _ => writeTable key table) first second := by
  have hkey := htable.schema.key.1
  have hleft := hfirst.registered (Registration.isSound_ofTable htable)
  have hright := hsecond.registered (Registration.isSound_ofTable htable)
  refine agree_of_ensures (outcome_writeTable_congr hleft hright hkey _ _)
    ((ensures_bind _ _).2 (ensures_writeTable hleft hkey _))
    ((ensures_bind _ _).2 (ensures_writeTable hright hkey _)) ?_ ?_
  · rintro _ later last ⟨husable, rfl⟩ ⟨_, rfl⟩
    have hwrote {workspace : Workspace} (hworkspace : workspace.IsSound path name) :
        (workspace.withFile name (Database.rowFileName key) (rowText table)).IsSound path name :=
      hworkspace.withFile hkey.isStep_rowFileName husable
        fun heq => absurd heq (rowFileName_ne_metadataName key)
    refine h.created hfirst hsecond (hwrote hleft) (hwrote hright) hnew rfl rfl
      (fun other hother => ?_) ?_
    · rw [withFile, withFile, SortedMap.get?_insert, SortedMap.get?_insert,
        if_neg (Ne.symm hother), if_neg (Ne.symm hother)]
      exact ⟨rfl, rfl⟩
    · rw [get?_withFile, get?_withFile, if_pos rfl, if_pos rfl]
  · rintro _ later last ⟨hunusable, rfl⟩ ⟨_, rfl⟩
    exact h.created hfirst hsecond hleft hright hnew rfl rfl (fun _ _ => ⟨rfl, rfl⟩)
      ((hleft.rowFile_of_unusable hunusable).trans (hright.rowFile_of_unusable hunusable).symm)

theorem Alike.agree_createTable (h : Alike path name first second)
    (hfirst : first.IsSound path name) (hsecond : second.IsSound path name) {displayName : Text}
    {names : List Text} (hdisplay : IsIdentifier displayName)
    (hnames : ∀ name ∈ names, IsIdentifier name) :
    Agree (Alike path name) (createTable displayName names) (createTable displayName names)
      first second := by
  have hhas : second.database.hasTable displayName = first.database.hasTable displayName := by
    rw [Bool.eq_iff_iff, Database.hasTable, Database.hasTable, OrderedMap.contains,
      OrderedMap.contains, ← mem_keys_schemas, ← mem_keys_schemas, h.schemas]
  rw [createTable]
  refine agree_get_bind ?_
  rw [hhas]
  split
  · exact ⟨rfl, h⟩
  · rename_i hnew
    split
    · exact ⟨rfl, h⟩
    · rename_i attributes hattributes
      obtain ⟨hhead, hidentifiers⟩ := ensures_freshAttributes hnames hattributes
      exact h.agree_register hfirst hsecond
        (Table.isSound_ofSchema (.fresh hdisplay hhead hidentifiers))
        (by simpa [Database.hasTable, OrderedMap.contains] using hnew)

/-! ### Dropped tables -/

theorem Alike.dropped (h : Alike path name first second) (hfirst : first.IsSound path name)
    (hsecond : second.IsSound path name) (key : Text) :
    Alike path name ((first.unregistered key).withoutFile name (Database.rowFileName key))
      ((second.unregistered key).withoutFile name (Database.rowFileName key)) := by
  have htouches (workspace : Workspace) : Touches name key workspace
      ((workspace.unregistered key).withoutFile name (Database.rowFileName key)) := by
    constructor <;> intro other hother
    · rw [withoutFile, unregistered, OrderedMap.get?_erase, if_neg (Ne.symm hother)]
    · exact (SortedMap.get?_erase ..).trans (if_neg (Ne.symm hother))
  have hlater : ((first.unregistered key).withoutFile name (Database.rowFileName key)).IsSound
      path name := (hfirst.unregistered key).withoutFile
  have hgone {workspace : Workspace} {spelled : Text} (hspelled : spelled.lower = key) :
      ((workspace.unregistered key).withoutFile name (Database.rowFileName key)).tableOf spelled =
        .error (.reported (.tableNotFound spelled)) := by
    rw [tableOf, withoutFile, unregistered, OrderedMap.get?_erase, if_pos hspelled.symm]
  refine h.touched hfirst hsecond hlater (hsecond.unregistered key).withoutFile (htouches _)
    (htouches _) ?_ ?_ (fun spelled hspelled => ?_) fun other hother hmem => ?_
  · simp [withoutFile]
  · change (first.unregistered key).database.schemas = (second.unregistered key).database.schemas
    rw [schemas_unregistered, schemas_unregistered, h.schemas]
  · rw [hgone hspelled, hgone hspelled]
  · have hschemas : ((first.unregistered key).withoutFile name
        (Database.rowFileName key)).database.schemas = Assoc.erase key first.database.schemas :=
      schemas_unregistered first key
    exact mem_ahead_of_erase hschemas
      (fun other hother hne => (htouches first).blocks hfirst hlater hother hne) hother hmem

theorem IsSound.deleteFile (h : workspace.IsSound path name) {file : Text} (hfile : IsStep file) :
    ((Files.deleteFile (fileIn path name file)).runOn workspace.store).2 =
      workspace.store.erase [name, file] := by
  have hlocate {key : Key} := @Place.locate_file workspace.store path name file key
    h.identifier.isStep hfile h.store.root
  refine (Files.ensures_change (fun later hformed hremove => ?_) fun failure hno => ?_ :
    (Files.deleteFile (fileIn path name file)).Ensures workspace.store
      (fun _ later => later = workspace.store.erase [name, file])
      fun _ later => later = workspace.store.erase [name, file]).finally
  · obtain ⟨key, hkey, _, rfl⟩ := Store.remove_eq_ok.1 hremove
    obtain ⟨_, _, rfl⟩ := (hlocate hformed).1 hkey
    rfl
  · cases hentry : workspace.store.get? [name, file] with
    | none =>
        refine SortedMap.ext_get? fun key => ?_
        rw [SortedMap.get?_erase]
        split
        · rename_i heq
          rw [← heq, hentry]
        · rfl
    | some entry =>
        obtain ⟨text, rfl⟩ := h.store.file name _ entry hentry
        obtain ⟨_, husable⟩ := h.store.usable name _ _ hentry
        exact absurd (Store.remove_eq_ok.2 ⟨_, (hlocate husable.wellFormed).2 ⟨husable, h.parent, rfl⟩,
          ⟨.text text, hentry⟩, rfl⟩) (hno _ husable.wellFormed)

theorem runOn_dropTable (h : workspace.IsSound path name) (spelled : Text) :
    (dropTable spelled).runOn workspace =
      match workspace.database.tables.get? spelled.lower with
      | none => (.error (.reported (.tableNotFound spelled)), workspace)
      | some _ =>
          (((Files.deleteFile (fileIn path name (Database.rowFileName spelled.lower))).runOn
              workspace.store).1,
            (workspace.unregistered spelled.lower).withoutFile name
              (Database.rowFileName spelled.lower)) := by
  rw [dropTable, runOn_bind, runOn_registration]
  cases hfound : workspace.database.tables.get? spelled.lower with
  | none => rfl
  | some found =>
      have hkey := (h.tables _ found hfound).schema.key.1
      change (onStore (Files.deleteFile (workspace.database.rowFilePlace spelled.lower))).runOn
        (workspace.unregistered spelled.lower) = _
      rw [h.rowFilePlace_eq, onStore, runOn_within]
      refine Prod.ext rfl ?_
      rw [withoutFile, ← (h.unregistered spelled.lower).deleteFile hkey.isStep_rowFileName]

theorem Alike.agree_dropTable (h : Alike path name first second) (hfirst : first.IsSound path name)
    (hsecond : second.IsSound path name) (spelled : Text) :
    Agree (Alike path name) (dropTable spelled) (dropTable spelled) first second := by
  have hregistered : (first.database.tables.get? spelled.lower).isSome =
      (second.database.tables.get? spelled.lower).isSome := by
    rw [Bool.eq_iff_iff, ← mem_keys_schemas, ← mem_keys_schemas, h.schemas]
  cases hleft : first.database.tables.get? spelled.lower with
  | none =>
      rw [hleft] at hregistered
      have hright := Option.not_isSome_iff_eq_none.1 (Bool.eq_false_iff.1 hregistered.symm)
      constructor <;> simp only [runOn_dropTable hfirst, runOn_dropTable hsecond, hleft, hright]
      exact h
  | some found =>
      rw [hleft] at hregistered
      obtain ⟨other, hright⟩ := Option.isSome_iff_exists.1 hregistered.symm
      have hkey := (hfirst.tables _ found hleft).schema.key.1
      constructor <;> simp only [runOn_dropTable hfirst, runOn_dropTable hsecond, hleft, hright]
      · exact Files.outcome_change_congr ((hfirst.sameWay hsecond).remove hfirst.identifier.isStep
          hkey.isStep_rowFileName hfirst.store hsecond.store (h.stores.exists_iff _))
      · exact h.dropped hfirst hsecond _

end Workspace

end Relbase
