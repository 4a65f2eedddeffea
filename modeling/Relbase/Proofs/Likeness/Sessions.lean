import Relbase.Proofs.Likeness.Tables
import Relbase.Proofs.Session.Changes

/-!
# Sessions that are alike

Two sessions are twins if they are sound, their stores are alike, and the same database is in
use in both, with workspaces that are alike.  Every command has the same outcome on twins and
leaves twins.
-/

namespace Relbase

open Relbase.Action

/-! ## Stores -/

namespace Store

open Session (HasDirectory)

variable {path name : Text} {first second later last : Store}

theorem makeDirectory_congr (hname : IsStep name) (hfirst : first.IsOrderly path)
    (hsecond : second.IsOrderly path) :
    (first.makeDirectory ((Place.root path).child name)).map (fun _ => ()) =
      (second.makeDirectory ((Place.root path).child name)).map fun _ => () := by
  have hroot {store : Store} (horderly : store.IsOrderly path) : store.withRoot = store := by
    simp [withRoot, SortedMap.contains, horderly.root]
  have hok {store : Store} (horderly : store.IsOrderly path)
      (hlocate : store.locate ((Place.root path).child name) = .ok [name]) :
      (store.makeDirectory ((Place.root path).child name)).map (fun _ => ()) = .ok () := by
    simp only [makeDirectory, hroot horderly, hlocate, bind, Except.bind]
    cases hentry : store.get? [name] with
    | none => rfl
    | some entry =>
        rw [(horderly.directory name entry hentry).1]
        rfl
  have hlocate : first.locate ((Place.root path).child name) =
      second.locate ((Place.root path).child name) :=
    locate_directory_congr hname (hfirst.root.trans hsecond.root.symm)
  cases hsame : second.locate ((Place.root path).child name) with
  | error cause =>
      rw [hsame] at hlocate
      simp only [makeDirectory, hroot hfirst, hroot hsecond, hlocate, hsame, bind, Except.bind,
        Except.map]
  | ok key =>
      obtain rfl := eq_of_locate_directory hname hsame
      rw [hok hfirst (hlocate.trans hsame), hok hsecond hsame]

theorem Alike.hasDirectory (h : first.Alike path second) (horderly : first.IsOrderly path)
    (hname : IsIdentifier name) (hfirst : HasDirectory first name later) (hsecond : HasDirectory second name last) :
    later.Alike path last := by
  have hexists := h.exists_iff [name]
  cases hfirst with
  | found hdirectory =>
      cases hsecond with
      | found _ => exact h
      | made hnone =>
          rw [hdirectory, hnone] at hexists
          cases hexists
  | made hmissing =>
      cases hsecond with
      | found hdirectory =>
          rw [hdirectory, hmissing] at hexists
          cases hexists
      | made hnone =>
          have hkept (store : Store) {key : Key} (hkey : [name] ≠ key) :
              (store.insert [name] .directory).get? key = store.get? key := by
            rw [SortedMap.get?_insert, if_neg hkey]
          have hne {key : Key} (hkey : ¬ [name] <+: key) : [name] ≠ key :=
            fun heq => hkey (heq ▸ List.prefix_rfl)
          refine h.outside (horderly.insertDirectory hname hmissing) (fun key hkey => hkept _ (hne hkey))
            (fun key hkey => hkept _ (hne hkey)) (fun key _ => ?_) ?_ fun _ _ _ htext => ?_
          · by_cases hkey : [name] = key
            · rw [SortedMap.get?_insert, SortedMap.get?_insert, if_pos hkey, if_pos hkey]
            · rw [hkept _ hkey, hkept _ hkey, h.exists_iff]
          · rw [hkept _ (by simp), hkept _ (by simp), h.metadata]
          · rw [hkept _ (by simp)] at htext
            rw [horderly.parent name _ _ htext] at hmissing
            cases hmissing

theorem Alike.emptied (h : first.Alike path second)
    (hlater : IsOrderly path (first.insert [name, Database.metadataName]
      (.file (.text (metadataText []))))) :
    Alike path (first.insert [name, Database.metadataName] (.file (.text (metadataText []))))
      (second.insert [name, Database.metadataName] (.file (.text (metadataText [])))) := by
  have hkept (store : Store) {key : Key} (hkey : [name, Database.metadataName] ≠ key) :
      (store.insert [name, Database.metadataName] (.file (.text (metadataText [])))).get? key =
        store.get? key := by
    rw [SortedMap.get?_insert, if_neg hkey]
  refine h.within hlater (fun key hkey => hkept _ (hkey _).symm) (fun key hkey => hkept _ (hkey _).symm)
    (fun file => ?_) (by simp) fun schemas hsound hcounted htext => ?_
  · by_cases hfile : Database.metadataName = file
    · simp [hfile]
    · rw [hkept _ (by simpa using hfile), hkept _ (by simpa using hfile), h.exists_iff]
  · have hnil : [] = schemas := hsound.eq_of_metadataText_eq Session.soundSchemas_nil hcounted
      (by simpa using htext.symm)
    exact hnil ▸ fun _ hmem => absurd hmem List.not_mem_nil

theorem Alike.removeTree (h : first.Alike path second) (horderly : first.IsOrderly path)
    (name : Text) :
    Alike path (first.filter fun key _ => !List.isPrefixOf [name] key)
      (second.filter fun key _ => !List.isPrefixOf [name] key) := by
  have hget (store : Store) (key : Key) :=
    store.get?_filter (fun key => !List.isPrefixOf [name] key) key
  have hkept (store : Store) {key : Key} (hkey : ¬ [name] <+: key) :
      (store.filter fun key _ => !List.isPrefixOf [name] key).get? key = store.get? key := by
    rw [hget, if_pos]
    rwa [Bool.not_eq_true', Bool.eq_false_iff, ne_eq, List.isPrefixOf_iff_prefix]
  have hgone (store : Store) {key : Key} (hkey : [name] <+: key) :
      (store.filter fun key _ => !List.isPrefixOf [name] key).get? key = none := by
    rw [hget, if_neg]
    simpa [List.isPrefixOf_iff_prefix] using hkey
  have hfile : [name] <+: [name, Database.metadataName] := ⟨_, rfl⟩
  refine h.outside (horderly.removeTree name) (fun key => hkept _) (fun key => hkept _)
    (fun key hkey => ?_) ?_ fun _ _ _ htext => ?_
  · rw [hgone _ hkey, hgone _ hkey]
  · rw [hgone _ hfile, hgone _ hfile]
  · rw [hgone _ hfile] at htext
    cases htext

end Store

/-! ## Workspaces -/

namespace Workspace

variable {path name : Text} {first second : Workspace}

structure Twins (path name : Text) (first second : Workspace) : Prop where
  left : first.IsSound path name
  right : second.IsSound path name
  alike : Alike path name first second

/-- An action that has the same outcome on twins, and leaves twins. -/
def KeepsTwins {α : Type} (path : Text) (action : Action Workspace α) : Prop :=
  ∀ name first second, Twins path name first second →
    Agree (Twins path name) action action first second

theorem keepsTwins_save (path : Text) : KeepsTwins path save := by
  intro name first second h
  have hsound {workspace : Workspace} (hworkspace : workspace.IsSound path name) :
      (save.runOn workspace).2.IsSound path name :=
    ((ensures_save hworkspace).mono
      (fun _ _ hsaved => Saves.isSound ⟨hsaved.1, hsaved.2.1, hsaved.2.2⟩ hworkspace)
      fun _ _ hsaved => SavesPartly.isSound ⟨hsaved.1, hsaved.2⟩ hworkspace).finally
  have hagree := h.alike.agree_save h.left h.right
  exact ⟨hagree.outcome, hsound h.left, hsound h.right, hagree.related⟩

theorem keepsTwins_of_takesSteps {α : Type} {action : Action Workspace α}
    (hsteps : Session.TakesSteps path action)
    (haction : ∀ name first second, Twins path name first second →
      Agree (Alike path name) action action first second) : KeepsTwins path action := by
  intro name first second h
  have hsound {workspace : Workspace} (hworkspace : workspace.IsSound path name) :
      (action.runOn workspace).2.IsSound path name :=
    ((hsteps name workspace hworkspace).mono (fun _ _ hsteps => hsteps.isSound hworkspace)
      fun _ _ hsteps => hsteps.1.isSound hworkspace).finally
  have hagree := haction name first second h
  exact ⟨hagree.outcome, hsound h.left, hsound h.right, hagree.related⟩

theorem keepsTwins_loadTable (path spelled : Text) : KeepsTwins path (loadTable spelled) := by
  intro name first second h
  have htable := h.alike.tables spelled
  cases hfound : first.tableOf spelled with
  | error failure =>
      constructor <;> simp only [runOn_loadTable, ← htable, hfound]
      exact h
  | ok table =>
      have hsound := Registration.isSound_ofTable (isSound_of_tableOf h.left hfound)
      constructor <;> simp only [runOn_loadTable, ← htable, hfound]
      exact ⟨h.left.registered hsound, h.right.registered hsound, h.alike.registered hfound table⟩

theorem keepsTwins_changing {command : Command} (hprintable : Spelling.Printable command)
    {action : Action Workspace Unit} (haction : command.changing = some action) :
    KeepsTwins path action := by
  refine keepsTwins_of_takesSteps (Session.takesSteps_changing hprintable haction)
    fun name first second h => ?_
  cases command <;> cases haction
  case createTable table names displayName =>
    obtain ⟨hdisplay, _, hnames⟩ := hprintable
    rw [if_neg hdisplay.ne_nil]
    exact h.alike.agree_createTable h.left h.right hdisplay hnames
  case dropTable table => exact h.alike.agree_dropTable h.left h.right table
  all_goals exact h.alike.agree_onTable _ _

theorem mem_ahead_ofSchemas {directory : Place} {schemas : List (Text × Schema)} {store : Store}
    (h : IsSound path name ⟨.ofSchemas directory schemas, store⟩) (hsound : SoundSchemas schemas)
    {key : Text} (hkey : key ∈ Assoc.keys (Database.ofSchemas directory schemas).schemas) :
    key ∈ ahead path name ⟨.ofSchemas directory schemas, store⟩ := by
  rw [ahead, List.takeWhile_eq_self_iff.2]
  · exact hkey
  · intro other hother
    obtain ⟨found, hfound⟩ := Option.isSome_iff_exists.1 (mem_keys_schemas.1 hother)
    rw [OrderedMap.get?_eq_some_iff] at hfound
    rw [decide_eq_true_iff, h.blocks_iff hfound]
    rw [Database.entries_ofSchemas directory hsound.distinct] at hfound
    obtain ⟨table, _, heq⟩ := List.mem_map.1 hfound
    cases heq
    exact fun hblocks => Bool.noConfusion hblocks.2

theorem alike_ofSchemas {first second : Store} (hstores : first.Alike path second)
    {schemas : List (Text × Schema)} (hsound : SoundSchemas schemas) (hcounted : AllCounted schemas)
    (htext : first.get? [name, Database.metadataName] = some (.file (.text (metadataText schemas))))
    (hfirst : IsSound path name ⟨.ofSchemas ((Place.root path).child name) schemas, first⟩) :
    Alike path name ⟨.ofSchemas ((Place.root path).child name) schemas, first⟩
      ⟨.ofSchemas ((Place.root path).child name) schemas, second⟩ where
  stores := hstores
  schemas := rfl
  tables spelled := by
    rw [tableOf, tableOf]
    cases hfound : (Database.ofSchemas ((Place.root path).child name) schemas).tables.get?
      spelled.lower with
    | none => rfl
    | some found =>
        rw [OrderedMap.get?_eq_some_iff, Database.entries_ofSchemas _ hsound.distinct] at hfound
        obtain ⟨table, htable, heq⟩ := List.mem_map.1 hfound
        have hat := hstores.tables name schemas hsound hcounted htext table htable
        rw [(Prod.mk.inj heq).1] at hat
        rw [← (Prod.mk.inj heq).2]
        exact hat
  behind key hkey hbehind := absurd (mem_ahead_ofSchemas hfirst hsound hkey) hbehind

theorem Alike.inStore {database twin : Database} {first second later last : Store}
    (h : Alike path name ⟨database, first⟩ ⟨twin, second⟩)
    (hfirst : IsSound path name ⟨database, first⟩) (hsecond : IsSound path name ⟨twin, second⟩)
    (hlater : IsSound path name ⟨database, later⟩) (hlast : IsSound path name ⟨twin, last⟩)
    (hstores : later.Alike path last)
    (hfront : ∀ file, later.get? [name, file] = first.get? [name, file])
    (hback : ∀ file, last.get? [name, file] = second.get? [name, file]) :
    Alike path name ⟨database, later⟩ ⟨twin, last⟩ := by
  have hleft (spelled : Text) :
      tableOf ⟨database, later⟩ spelled = tableOf ⟨database, first⟩ spelled :=
    tableOf_congr hlater hfirst rfl (hfront _)
  have hright (spelled : Text) : tableOf ⟨twin, last⟩ spelled = tableOf ⟨twin, second⟩ spelled :=
    tableOf_congr hlast hsecond rfl (hback _)
  have hahead : ahead path name ⟨database, later⟩ = ahead path name ⟨database, first⟩ :=
    ahead_congr rfl hleft
  refine ⟨hstores, h.schemas, fun spelled => ?_, fun key hkey hbehind => ?_⟩
  · rw [hleft, hright, h.tables]
  · rw [hahead] at hbehind
    exact (hfront _).trans ((h.behind key hkey hbehind).trans (hback _).symm)

end Workspace

/-! ## Sessions -/

namespace Session

variable {path name : Text} {first second : Session}

structure Twins (path : Text) (first second : Session) : Prop where
  left : first.IsSound path
  right : second.IsSound path
  stores : first.store.Alike path second.store
  names : first.databaseName = second.databaseName
  workspaces : ∀ name database twin, first.current = some (name, database) →
    second.current = some (name, twin) →
      Workspace.Alike path name ⟨database, first.store⟩ ⟨twin, second.store⟩

theorem Twins.current (h : Twins path first second) :
    first.current = none ∧ second.current = none ∨
      ∃ name database twin, first.current = some (name, database) ∧
        second.current = some (name, twin) := by
  have hnames := h.names
  rw [databaseName, databaseName] at hnames
  rcases hleft : first.current with _ | ⟨name, database⟩ <;>
    rcases hright : second.current with _ | ⟨other, twin⟩ <;>
    rw [hleft, hright] at hnames
  · exact .inl ⟨rfl, rfl⟩
  · cases hnames
  · cases hnames
  · cases hnames
    exact .inr ⟨name, database, twin, rfl, rfl⟩

theorem Twins.entered (h : Twins path first second) {workspace twin : Workspace}
    (hworkspaces : Workspace.Twins path name workspace twin) :
    Twins path (first.entered name workspace) (second.entered name twin) where
  left := h.left.entered hworkspaces.left
  right := h.right.entered hworkspaces.right
  stores := hworkspaces.alike.stores
  names := rfl
  workspaces other database last hleft hright := by
    cases hleft
    cases hright
    exact hworkspaces.alike

theorem Twins.leave (h : Twins path first second) {later last : Store} (hlater : later.IsOrderly path)
    (hlast : last.IsOrderly path) (hstores : later.Alike path last) :
    Twins path (first.left later) (second.left last) where
  left := h.left.left hlater
  right := h.right.left hlast
  stores := hstores
  names := rfl
  workspaces _ _ _ hleft := by cases hleft

/-! ## Changes -/

theorem Twins.agree_onWorkspace {α : Type} {action : Action Workspace α}
    (h : Twins path first second) (haction : Workspace.KeepsTwins path action) :
    Agree (Twins path) (onWorkspace action) (onWorkspace action) first second := by
  rcases h.current with ⟨hleft, hright⟩ | ⟨name, database, twin, hleft, hright⟩
  · constructor <;> rw [runOn_onWorkspace_of_none hleft, runOn_onWorkspace_of_none hright]
    exact h
  · have hagree := haction name _ _ ⟨h.left.current name database hleft,
      h.right.current name twin hright, h.workspaces name database twin hleft hright⟩
    constructor <;> rw [runOn_onWorkspace hleft, runOn_onWorkspace hright]
    · exact hagree.outcome
    · exact h.entered hagree.related

theorem Twins.agree_save (h : Twins path first second) :
    Agree (Twins path) save save first second := by
  rw [save]
  refine agree_get_bind ?_
  rcases h.current with ⟨hleft, hright⟩ | ⟨name, database, twin, hleft, hright⟩ <;>
    rw [hleft, hright]
  · exact agree_pure () h
  · exact h.agree_onWorkspace (Workspace.keepsTwins_save path)

theorem Twins.agree_changing (h : Twins path first second) {command : Command}
    (hprintable : Spelling.Printable command) {action : Action Workspace Unit}
    (haction : command.changing = some action) :
    Agree (Twins path) (execute command) (execute command) first second := by
  rw [execute_of_changing haction]
  have hchange := h.agree_onWorkspace (Workspace.keepsTwins_changing hprintable haction)
  refine (hchange.bind fun _ _ _ h => ?_).bind fun _ _ _ h => agree_pure none h
  exact h.agree_save

/-! ## Whole databases -/

theorem Twins.agree_close (h : Twins path first second) :
    Agree (Twins path) close close first second := by
  rw [close]
  refine agree_get_bind ?_
  rcases h.current with ⟨hleft, hright⟩ | ⟨name, database, twin, hleft, hright⟩ <;>
    rw [hleft, hright]
  · exact agree_pure () h
  · exact h.agree_save.bind fun _ later last h => ⟨rfl, h.leave h.left.store h.right.store h.stores⟩

theorem Twins.databaseExists_eq (h : Twins path first second) (hname : IsIdentifier name) :
    first.databaseExists name = second.databaseExists name := by
  rw [Bool.eq_iff_iff, databaseExists_iff h.left hname, databaseExists_iff h.right hname,
    h.stores.exists_iff]

theorem Twins.opened (h : Twins path first second) (hname : IsIdentifier name)
    {schemas : List (Text × Schema)} (hsound : SoundSchemas schemas) (hcounted : AllCounted schemas)
    (htext : first.store.get? [name, Database.metadataName] =
      some (.file (.text (metadataText schemas)))) :
    Twins path (first.opened first.store name schemas) (second.opened second.store name schemas) := by
  have hleft := h.left.opened hname h.left.store hsound htext
  have hright := h.right.opened hname h.right.store hsound ((h.stores.metadata name).symm.trans htext)
  refine ⟨hleft, hright, h.stores, rfl, fun other database twin hdatabase htwin => ?_⟩
  cases hdatabase
  cases htwin
  rw [h.left.root, h.right.root]
  have hworkspace := hleft.current name _ rfl
  rw [h.left.root] at hworkspace
  exact Workspace.alike_ofSchemas h.stores hsound hcounted htext hworkspace

theorem ensures_onStore_readMetadata {session : Session} (h : session.IsSound path)
    (hname : IsIdentifier name) :
    (onStore (Files.readMetadata (fileIn path name Database.metadataName))).Ensures session
      (fun members later => later = session ∧ ∃ schemas, SoundSchemas schemas ∧ AllCounted schemas ∧
        session.store.get? [name, Database.metadataName] =
          some (.file (.text (metadataText schemas))) ∧ members = describing schemas)
      fun _ later => later = session := by
  rw [onStore, ensures_within]
  refine (ensures_readMetadata h.store hname).mono (fun _ _ hread => ⟨?_, hread.2⟩) fun _ _ hlater => ?_
  · rw [hread.1]
  · rw [hlater]

theorem Twins.outcome_readMetadata (h : Twins path first second) (hname : IsIdentifier name) :
    ((onStore (Files.readMetadata (fileIn path name Database.metadataName))).runOn first).1 =
      ((onStore (Files.readMetadata (fileIn path name Database.metadataName))).runOn second).1 := by
  have hread : first.store.read (fileIn path name Database.metadataName) =
      second.store.read (fileIn path name Database.metadataName) :=
    (h.stores.sameWay h.left.store h.right.store name).read hname.isStep isStep_metadataName
      (h.stores.metadata name)
  have hagree : Agree (fun _ _ => True)
      (Files.readMetadata (fileIn path name Database.metadataName))
      (Files.readMetadata (fileIn path name Database.metadataName)) first.store second.store :=
    Files.agree_readMetadata hread trivial
  exact hagree.outcome

theorem Twins.agree_useDatabase (h : Twins path first second) (hname : IsIdentifier name) :
    Agree (Twins path) (useDatabase name) (useDatabase name) first second := by
  rw [useDatabase]
  refine agree_get_bind ?_
  rw [← h.databaseExists_eq hname]
  split
  · exact ⟨rfl, h⟩
  refine h.agree_close.bind fun _ later last h => agree_get_bind ?_
  dsimp only
  rw [h.left.metadataPlace_directoryOf, h.right.metadataPlace_directoryOf]
  refine agree_bind_of_ensures (h.outcome_readMetadata hname)
    (ensures_onStore_readMetadata h.left hname) (ensures_onStore_readMetadata h.right hname) ?_ ?_
  · rintro members _ _ ⟨rfl, schemas, hsound, hcounted, htext, rfl⟩ ⟨rfl, _⟩
    rw [hsound.schemasOf_describing]
    exact ⟨rfl, h.opened hname hsound hcounted htext⟩
  · rintro _ _ _ rfl rfl
    exact h

theorem IsSound.metadata_of_databaseName {session : Session} (h : session.IsSound path)
    (hname : session.databaseName = some name) :
    (session.store.get? [name, Database.metadataName]).isSome = true := by
  obtain ⟨⟨_, database⟩, hcurrent, rfl⟩ := Option.map_eq_some_iff.1 hname
  exact (h.current _ _ hcurrent).metadata

theorem Twins.inStore (h : Twins path first second) {later last : Store}
    (hlater : later.IsOrderly path) (hlast : last.IsOrderly path) (hstores : later.Alike path last)
    (hkept : ∀ name, first.databaseName = some name → ∀ file,
      later.get? [name, file] = first.store.get? [name, file] ∧
        last.get? [name, file] = second.store.get? [name, file]) :
    Twins path { first with store := later } { second with store := last } := by
  have hleft (name : Text) (database : Database) (hcurrent : first.current = some (name, database)) :
      Workspace.IsSound path name ⟨database, later⟩ := by
    have hworkspace := h.left.current name database hcurrent
    have hname : first.databaseName = some name := by rw [databaseName, hcurrent]; rfl
    exact hworkspace.inStore hlater (by rw [(hkept name hname _).1]; exact hworkspace.metadata)
  have hright (name : Text) (database : Database) (hcurrent : second.current = some (name, database)) :
      Workspace.IsSound path name ⟨database, last⟩ := by
    have hworkspace := h.right.current name database hcurrent
    have hname : first.databaseName = some name := by rw [h.names, databaseName, hcurrent]; rfl
    exact hworkspace.inStore hlast (by rw [(hkept name hname _).2]; exact hworkspace.metadata)
  refine ⟨⟨h.left.root, hlater, hleft⟩, ⟨h.right.root, hlast, hright⟩, hstores, h.names,
    fun name database twin hdatabase htwin => ?_⟩
  have hname : first.databaseName = some name := by
    rw [databaseName, show first.current = _ from hdatabase]
    rfl
  exact (h.workspaces name database twin hdatabase htwin).inStore
    (h.left.current name database hdatabase) (h.right.current name twin htwin)
    (hleft name database hdatabase) (hright name twin htwin) hstores
    (fun file => (hkept name hname file).1) fun file => (hkept name hname file).2

theorem Twins.agree_writeEmptyMetadata (h : Twins path first second) (hname : IsIdentifier name)
    (hfirst : first.store.get? [name] = some .directory)
    (hsecond : second.store.get? [name] = some .directory)
    (hnew : first.store.get? [name, Database.metadataName] = none) :
    Agree (Twins path)
      (onStore (Files.writeMetadata (fileIn path name Database.metadataName)
        (.object (describing []))))
      (onStore (Files.writeMetadata (fileIn path name Database.metadataName)
        (.object (describing [])))) first second := by
  have hway := h.stores.sameWay h.left.store h.right.store name
  refine agree_of_ensures (Files.outcome_writeMetadata_congr fun content =>
      hway.write hname.isStep isStep_metadataName h.left.store h.right.store content content)
    (ensures_writeEmptyMetadata hname h.left.store hfirst)
    (ensures_writeEmptyMetadata hname h.right.store hsecond) ?_ ?_
  · rintro _ _ _ ⟨husable, rfl⟩ ⟨_, rfl⟩
    have hwritten {store : Store} (horderly : store.IsOrderly path)
        (hparent : store.get? [name] = some .directory) :
        Store.IsOrderly path (store.insert [name, Database.metadataName]
          (.file (.text (metadataText [])))) :=
      horderly.insertFile hparent isStep_metadataName husable fun _ => ⟨[], soundSchemas_nil, rfl⟩
    have horderly := hwritten h.left.store hfirst
    refine h.inStore horderly (hwritten h.right.store hsecond) (h.stores.emptied horderly)
      fun other hother file => ?_
    -- The database in use has metadata, so it is not the one that is created.
    have hne : [name, Database.metadataName] ≠ [other, file] := by
      intro heq
      have hmetadata := h.left.metadata_of_databaseName hother
      rw [← (List.cons.inj heq).1, hnew] at hmetadata
      cases hmetadata
    rw [SortedMap.get?_insert, SortedMap.get?_insert, if_neg hne, if_neg hne]
    exact ⟨rfl, rfl⟩
  · rintro _ _ _ ⟨_, rfl⟩ ⟨_, rfl⟩
    exact h

theorem Twins.agree_createDatabase (h : Twins path first second) (hname : IsIdentifier name) :
    Agree (Twins path) (createDatabase name) (createDatabase name) first second := by
  rw [createDatabase]
  refine agree_get_bind ?_
  rw [← h.databaseExists_eq hname]
  split
  · exact ⟨rfl, h⟩
  rename_i hexists
  have hnew : first.store.get? [name, Database.metadataName] = none := by
    rw [databaseExists_iff h.left hname] at hexists
    simpa using hexists
  dsimp only
  rw [h.left.metadataPlace_directoryOf, h.right.metadataPlace_directoryOf, h.left.directoryOf_eq,
    h.right.directoryOf_eq]
  refine agree_bind_of_ensures (Files.outcome_change_congr
    (Store.makeDirectory_congr hname.isStep h.left.store h.right.store))
    (ensures_makeDirectory h.left hname _) (ensures_makeDirectory h.right hname _) ?_
    (by rintro _ _ _ rfl rfl; exact h)
  rintro _ _ _ ⟨store, hstore, rfl⟩ ⟨last, hlast, rfl⟩
  have hmade : Twins path { first with store } { second with store := last } :=
    h.inStore (hstore.isOrderly h.left.store hname) (hlast.isOrderly h.right.store hname)
      (h.stores.hasDirectory h.left.store hname hstore hlast)
      fun other _ file => ⟨hstore.get?_file other file, hlast.get?_file other file⟩
  exact hmade.agree_writeEmptyMetadata hname hstore.get? hlast.get?
    ((hstore.get?_file name _).trans hnew)

theorem Twins.without (h : Twins path first second) (name : Text) :
    Twins path (first.without name) (second.without name) := by
  have hstores := h.stores.removeTree h.left.store name
  have hleft := h.left.store.removeTree name
  have hright := h.right.store.removeTree name
  rw [Session.without, Session.without, ← h.names]
  split
  · exact h.leave hleft hright hstores
  · rename_i hne
    refine h.inStore hleft hright hstores fun other hother file => ?_
    have hkept (store : Store) := store.get?_filter (fun key => !List.isPrefixOf [name] key) [other, file]
    have hother : name ≠ other := fun heq => hne (heq ▸ hother)
    rw [hkept, hkept]
    simp [hother]

theorem Twins.agree_deleteDatabase (h : Twins path first second) (hname : IsIdentifier name) :
    Agree (Twins path) (deleteDatabase name) (deleteDatabase name) first second := by
  have hexists : second.store.entryExists ((Place.root path).child name) =
      first.store.entryExists ((Place.root path).child name) := by
    rw [Bool.eq_iff_iff, entryExists_iff h.left.store hname, entryExists_iff h.right.store hname,
      (h.stores.sameWay h.left.store h.right.store name).parent]
  constructor <;> rw [runOn_deleteDatabase h.left hname, runOn_deleteDatabase h.right hname, hexists]
  · split <;> rfl
  · split
    · exact h.without name
    · exact h

/-! ## All commands -/

theorem Twins.agree_loading (h : Twins path first second) (spelled : Text) :
    Agree (Twins path) (onWorkspace (Workspace.loadTable spelled))
      (onWorkspace (Workspace.loadTable spelled)) first second :=
  h.agree_onWorkspace (Workspace.keepsTwins_loadTable path spelled)

theorem Twins.agree_execute (h : Twins path first second) {command : Command}
    (hprintable : Spelling.Printable command) :
    Agree (Twins path) (execute command) (execute command) first second := by
  cases command
  case createTable | dropTable | addAttribute | dropAttribute | insert | delete | update =>
    exact h.agree_changing hprintable rfl
  case use database =>
    exact (h.agree_useDatabase (isIdentifier_of_isLoweredName hprintable)).bind
      fun _ _ _ h => agree_pure none h
  case createDatabase database =>
    exact (h.agree_createDatabase (isIdentifier_of_isLoweredName hprintable)).bind
      fun _ _ _ h => agree_pure none h
  case dropDatabase database =>
    exact (h.agree_deleteDatabase (isIdentifier_of_isLoweredName hprintable)).bind
      fun _ _ _ h => agree_pure none h
  case select columns table condition =>
    rw [execute]
    refine (h.agree_loading table).bind fun found _ _ h => ?_
    exact (agree_ofOutcome _ h).bind fun _ _ _ h => agree_pure _ h
  case join leftTable rightTable leftOn rightOn =>
    rw [execute]
    refine (h.agree_loading leftTable).bind fun left _ _ h => ?_
    refine (h.agree_loading rightTable).bind fun right _ _ h => ?_
    exact (agree_ofOutcome _ h).bind fun _ _ _ h => agree_pure _ h

theorem Twins.agree_executeText (h : Twins path first second) (text : Text) :
    Agree (Twins path) (executeText text) (executeText text) first second := by
  rw [executeText]
  split
  · rename_i command hcommand
    exact h.agree_execute (Spelling.printable_of_ofText hcommand)
  · exact ⟨rfl, h⟩

end Session

end Relbase
