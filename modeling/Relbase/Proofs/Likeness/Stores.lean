import Relbase.Proofs.Loading
import Relbase.Proofs.Session.Consistency

/-!
# Stores that are alike

Two stores are alike if the same entries exist in them, with the same metadata, and if every
table that whole metadata describe is read alike from both; the row files themselves may
differ.  What is asked of a place has the same outcome in both: the way to it is the same.
-/

namespace Relbase

open Relbase.Action

/-! ## Actions on files -/

namespace Files

variable {first second : Store} {related : Store → Store → Prop} {task : StorageTask} {place : Place}

theorem agree_attempt {α : Type} {operation : Store → Except FileCause α}
    (h : operation first = operation second) (hrelated : related first second) :
    Agree related (attempt task place operation) (attempt task place operation) first second := by
  constructor <;> rw [runOn_attempt, runOn_attempt]
  · rw [h]
  · exact hrelated

theorem agree_readText (h : first.read place = second.read place)
    (hrelated : related first second) :
    Agree related (readText task place) (readText task place) first second := by
  rw [readText]
  refine (agree_attempt h hrelated).bind fun content later last hrelated => ?_
  cases content with
  | text text => exact agree_pure text hrelated
  | undecodable bytes => exact ⟨rfl, hrelated⟩

theorem agree_readRows (h : first.read place = second.read place)
    (hrelated : related first second) :
    Agree related (readRows place) (readRows place) first second := by
  rw [readRows]
  exact (agree_readText h hrelated).bind fun _ _ _ hrelated => agree_pure _ hrelated

theorem agree_readMetadata (h : first.read place = second.read place)
    (hrelated : related first second) :
    Agree related (readMetadata place) (readMetadata place) first second := by
  rw [readMetadata]
  refine (agree_readText h hrelated).bind fun text later last hrelated => ?_
  split
  · exact ⟨rfl, hrelated⟩
  · exact agree_pure _ hrelated
  · exact ⟨rfl, hrelated⟩

theorem outcome_change_congr {operation twin : Store → Except FileCause Store}
    (h : (operation first).map (fun _ => ()) = (twin second).map fun _ => ()) :
    ((change task place operation).runOn first).1 = ((change task place twin).runOn second).1 := by
  rw [change, change, runOn_bind, runOn_bind, runOn_attempt, runOn_attempt]
  cases place.isMalformed with
  | true => rfl
  | false =>
      cases hfirst : operation first <;> cases hsecond : twin second <;>
        simp only [hfirst, hsecond, Except.map, reduceCtorEq, Except.error.injEq] at h ⊢
      · rw [h]
        rfl
      · rfl

theorem agree_change {operation twin : Store → Except FileCause Store}
    (h : (operation first).map (fun _ => ()) = (twin second).map fun _ => ())
    (hchanged : ∀ later last, operation first = .ok later → twin second = .ok last →
      related later last) (hrelated : related first second) :
    Agree related (change task place operation) (change task place twin) first second := by
  refine agree_of_ensures (outcome_change_congr h)
    (ensures_change (fun later _ hok => hok) fun _ _ => rfl :
      (change task place operation).Ensures first (fun _ later => operation first = .ok later)
        fun _ later => later = first)
    (ensures_change (fun later _ hok => hok) fun _ _ => rfl :
      (change task place twin).Ensures second (fun _ later => twin second = .ok later)
        fun _ later => later = second)
    (fun _ later last => hchanged later last) ?_
  rintro _ later last rfl rfl
  exact hrelated

theorem outcome_writeMetadata_congr {json : Json}
    (h : ∀ content, (first.write place content).map (fun _ => ()) =
      (second.write place content).map fun _ => ()) :
    ((writeMetadata place json).runOn first).1 = ((writeMetadata place json).runOn second).1 := by
  have hwrite : Agree (fun _ _ => True) (writeMetadata place json) (writeMetadata place json)
      first second := by
    rw [writeMetadata]
    refine (agree_change (h _) (fun _ _ _ _ => trivial) trivial).bind fun _ _ _ _ => ?_
    split
    · exact ⟨rfl, trivial⟩
    · exact agree_pure () trivial
  exact hwrite.outcome

end Files

/-! ## Places -/

namespace Store

variable {path name file : Text} {first second : Store}

/-- Two stores have the same entries on the way to a file. -/
structure SameWay (name : Text) (first second : Store) : Prop where
  root : first.get? [] = second.get? []
  parent : first.get? [name] = second.get? [name]

theorem locate_directory_congr (hname : IsStep name) (hroot : first.get? [] = second.get? []) :
    first.locate ((Place.root path).child name) = second.locate ((Place.root path).child name) := by
  rw [locate, locate, Place.steps_root_child hname]
  simp only [follow, hroot]

theorem SameWay.locate (h : SameWay name first second) (hname : IsStep name) (hfile : IsStep file) :
    first.locate (fileIn path name file) = second.locate (fileIn path name file) := by
  rw [Store.locate, Store.locate, fileIn, Place.steps_root_child_child hname hfile]
  simp only [follow, List.nil_append, List.dropLast_nil, h.root, h.parent]

theorem eq_of_locate_directory {key : Key} (hname : IsStep name)
    (h : first.locate ((Place.root path).child name) = .ok key) : key = [name] := by
  obtain ⟨_, hfollow⟩ := (locate_eq_ok (Place.steps_root_child hname)).1 h
  obtain ⟨_, _, hfollow⟩ := (follow_cons_eq_ok hname).1 hfollow
  cases hfollow
  rfl

theorem eq_of_locate_file {key : Key} (hname : IsStep name) (hfile : IsStep file)
    (h : first.locate (fileIn path name file) = .ok key) : key = [name, file] := by
  obtain ⟨_, hfollow⟩ := (locate_eq_ok (Place.steps_root_child_child hname hfile)).1 h
  obtain ⟨_, _, hfollow⟩ := (follow_cons_eq_ok hname).1 hfollow
  obtain ⟨_, _, hfollow⟩ := (follow_cons_eq_ok hfile).1 hfollow
  cases hfollow
  rfl

theorem SameWay.read (h : SameWay name first second) (hname : IsStep name) (hfile : IsStep file)
    (hentry : first.get? [name, file] = second.get? [name, file]) :
    first.read (fileIn path name file) = second.read (fileIn path name file) := by
  rw [Store.read, Store.read, h.locate hname hfile]
  cases hlocate : second.locate (fileIn path name file) with
  | error cause => rfl
  | ok key =>
      rw [eq_of_locate_file hname hfile hlocate]
      simp only [bind, Except.bind, hentry]

theorem SameWay.write (h : SameWay name first second) (hname : IsStep name) (hfile : IsStep file)
    (hfirst : first.IsOrderly path) (hsecond : second.IsOrderly path) (content other : Content) :
    (first.write (fileIn path name file) content).map (fun _ => ()) =
      (second.write (fileIn path name file) other).map fun _ => () := by
  have hok {store : Store} (horderly : store.IsOrderly path) (content : Content)
      (hlocate : store.locate (fileIn path name file) = .ok [name, file]) :
      (store.write (fileIn path name file) content).map (fun _ => ()) = .ok () := by
    have hfree : store.get? [name, file] ≠ some .directory := fun hentry => by
      obtain ⟨text, heq⟩ := horderly.file name file _ hentry
      cases heq
    rw [write_eq_ok.2 ⟨[name, file], hlocate, hfree, rfl⟩]
    rfl
  have hlocate : first.locate (fileIn path name file) = second.locate (fileIn path name file) :=
    h.locate hname hfile
  cases hsame : second.locate (fileIn path name file) with
  | error cause =>
      rw [hsame] at hlocate
      simp only [Store.write, hlocate, hsame, bind, Except.bind, Except.map]
  | ok key =>
      obtain rfl := eq_of_locate_file hname hfile hsame
      rw [hok hfirst content (hlocate.trans hsame), hok hsecond other hsame]

theorem SameWay.remove (h : SameWay name first second) (hname : IsStep name) (hfile : IsStep file)
    (hfirst : first.IsOrderly path) (hsecond : second.IsOrderly path)
    (hexists : (first.get? [name, file]).isSome = (second.get? [name, file]).isSome) :
    (first.remove (fileIn path name file)).map (fun _ => ()) =
      (second.remove (fileIn path name file)).map fun _ => () := by
  rw [Store.remove, Store.remove, h.locate hname hfile]
  cases hlocate : second.locate (fileIn path name file) with
  | error cause => rfl
  | ok key =>
      obtain rfl := eq_of_locate_file hname hfile hlocate
      simp only [bind, Except.bind]
      cases hold : first.get? [name, file] with
      | none =>
          rw [hold] at hexists
          rw [Option.not_isSome_iff_eq_none.1 (Bool.eq_false_iff.1 hexists.symm)]
      | some entry =>
          obtain ⟨text, rfl⟩ := hfirst.file name file entry hold
          rw [hold] at hexists
          obtain ⟨other, hother⟩ := Option.isSome_iff_exists.1 hexists.symm
          obtain ⟨last, rfl⟩ := hsecond.file name file other hother
          rw [hother]
          rfl

end Store

/-! ## Tables in files -/

namespace Workspace

open Store (SameWay)

variable {path name key : Text} {first second : Store}

theorem tableAt_congr (hway : SameWay name first second) (hname : IsIdentifier name)
    (hkey : IsIdentifier key)
    (hentry : first.get? [name, Database.rowFileName key] =
      second.get? [name, Database.rowFileName key]) (schema : Schema) :
    tableAt first (fileIn path name (Database.rowFileName key)) schema =
      tableAt second (fileIn path name (Database.rowFileName key)) schema := by
  have hread : first.read (fileIn path name (Database.rowFileName key)) =
      second.read (fileIn path name (Database.rowFileName key)) :=
    hway.read hname.isStep hkey.isStep_rowFileName hentry
  have hagree : Agree (fun _ _ => True) (Files.readRows _) (Files.readRows _) first second :=
    Files.agree_readRows hread trivial
  rw [tableAt, tableAt, hagree.outcome]

theorem exists_entry_of_tableAt {store : Store} (hname : IsIdentifier name) (hkey : IsIdentifier key)
    {schema : Schema} {table : Table}
    (h : tableAt store (fileIn path name (Database.rowFileName key)) schema = .ok table) :
    (store.get? [name, Database.rowFileName key]).isSome = true := by
  have hread : (Files.readRows (fileIn path name (Database.rowFileName key))).Ensures store
      (fun _ _ => (store.get? [name, Database.rowFileName key]).isSome = true) fun _ _ => True := by
    rw [Files.readRows, ensures_bind]
    refine Files.ensures_readText (fun text _ hread => ?_) fun _ => trivial
    obtain ⟨found, hfound, hentry⟩ := Store.read_eq_ok.1 hread
    obtain rfl := Store.eq_of_locate_file hname.isStep hkey.isStep_rowFileName hfound
    rw [ensures_pure, hentry]
    rfl
  rcases hfile : (Files.readRows (fileIn path name (Database.rowFileName key))).runOn store with
    ⟨failure | file, later⟩
  · simp [tableAt, hfile, bind, Except.bind] at h
  · exact hread.of_ok hfile

end Workspace

/-! ## Stores -/

namespace Store

open Workspace (KeepsOthers tableAt)

structure Alike (path : Text) (first second : Store) : Prop where
  exists_iff : ∀ key, (first.get? key).isSome = (second.get? key).isSome
  metadata : ∀ name, first.get? [name, Database.metadataName] =
    second.get? [name, Database.metadataName]
  tables : ∀ name schemas, SoundSchemas schemas → AllCounted schemas →
    first.get? [name, Database.metadataName] = some (.file (.text (metadataText schemas))) →
      ∀ table ∈ schemas,
        tableAt first (fileIn path name (Database.rowFileName table.1)) table.2 =
          tableAt second (fileIn path name (Database.rowFileName table.1)) table.2

variable {path name : Text} {first second : Store}

theorem Alike.refl (path : Text) (store : Store) : store.Alike path store :=
  ⟨fun _ => rfl, fun _ => rfl, fun _ _ _ _ _ _ _ => rfl⟩

theorem Alike.symm (h : first.Alike path second) : second.Alike path first where
  exists_iff key := (h.exists_iff key).symm
  metadata name := (h.metadata name).symm
  tables name schemas hsound hcounted htext table htable :=
    (h.tables name schemas hsound hcounted ((h.metadata name).trans htext) table htable).symm

theorem Alike.sameWay (h : first.Alike path second) (hfirst : first.IsOrderly path)
    (hsecond : second.IsOrderly path) (name : Text) : SameWay name first second where
  root := hfirst.root.trans hsecond.root.symm
  parent := by
    have hexists := h.exists_iff [name]
    cases hentry : first.get? [name] with
    | none =>
        rw [hentry] at hexists
        exact (Option.not_isSome_iff_eq_none.1 (Bool.eq_false_iff.1 hexists.symm)).symm
    | some entry =>
        rw [hentry] at hexists
        obtain ⟨other, hother⟩ := Option.isSome_iff_exists.1 hexists.symm
        rw [hother, (hfirst.directory name entry hentry).1, (hsecond.directory name other hother).1]

theorem Alike.outside (h : first.Alike path second) {later last : Store}
    (hlater : later.IsOrderly path)
    (hfirst : ∀ key, ¬ [name] <+: key → later.get? key = first.get? key)
    (hsecond : ∀ key, ¬ [name] <+: key → last.get? key = second.get? key)
    (hexists : ∀ key, [name] <+: key → (later.get? key).isSome = (last.get? key).isSome)
    (hmetadata : later.get? [name, Database.metadataName] = last.get? [name, Database.metadataName])
    (htables : ∀ schemas, SoundSchemas schemas → AllCounted schemas →
      later.get? [name, Database.metadataName] = some (.file (.text (metadataText schemas))) →
        ∀ table ∈ schemas,
          tableAt later (fileIn path name (Database.rowFileName table.1)) table.2 =
            tableAt last (fileIn path name (Database.rowFileName table.1)) table.2) :
    later.Alike path last where
  exists_iff key := by
    by_cases hkey : [name] <+: key
    · exact hexists key hkey
    · rw [hfirst key hkey, hsecond key hkey]
      exact h.exists_iff key
  metadata other := by
    by_cases hother : name = other
    · rw [← hother]
      exact hmetadata
    · rw [hfirst _ (by simp [hother]), hsecond _ (by simp [hother])]
      exact h.metadata other
  tables other schemas hsound hcounted htext table htable := by
    by_cases hother : name = other
    · subst hother
      exact htables schemas hsound hcounted htext table htable
    · have hname := (hlater.directory other _ (hlater.parent other _ _ htext)).2
      have hkey := (hsound.sound table htable).key.1
      have hkept {store changed : Store}
          (hkeeps : ∀ key, ¬ [name] <+: key → changed.get? key = store.get? key) :
          tableAt changed (fileIn path other (Database.rowFileName table.1)) table.2 =
            tableAt store (fileIn path other (Database.rowFileName table.1)) table.2 :=
        Workspace.tableAt_congr ⟨hkeeps [] (by simp), hkeeps [other] (by simp [hother])⟩ hname hkey
          (hkeeps _ (by simp [hother])) table.2
      rw [hfirst _ (by simp [hother])] at htext
      rw [hkept hfirst, hkept hsecond]
      exact h.tables other schemas hsound hcounted htext table htable

/-- Stores stay alike if only the files of one database change, and these do so alike. -/
theorem Alike.within (h : first.Alike path second) {later last : Store}
    (hlater : later.IsOrderly path) (hfirst : KeepsOthers name first later)
    (hsecond : KeepsOthers name second last)
    (hexists : ∀ file, (later.get? [name, file]).isSome = (last.get? [name, file]).isSome)
    (hmetadata : later.get? [name, Database.metadataName] = last.get? [name, Database.metadataName])
    (htables : ∀ schemas, SoundSchemas schemas → AllCounted schemas →
      later.get? [name, Database.metadataName] = some (.file (.text (metadataText schemas))) →
        ∀ table ∈ schemas,
          tableAt later (fileIn path name (Database.rowFileName table.1)) table.2 =
            tableAt last (fileIn path name (Database.rowFileName table.1)) table.2) :
    later.Alike path last := by
  have hkeeps {store changed : Store} (h : KeepsOthers name store changed) (key : Key)
      (hkey : ¬ [name] <+: key) : changed.get? key = store.get? key :=
    h key fun file heq => hkey (heq ▸ ⟨[file], rfl⟩)
  refine h.outside hlater (hkeeps hfirst) (hkeeps hsecond) (fun key _ => ?_) hmetadata htables
  by_cases hkey : ∃ file, key = [name, file]
  · obtain ⟨file, rfl⟩ := hkey
    exact hexists file
  · rw [hfirst key fun file heq => hkey ⟨file, heq⟩, hsecond key fun file heq => hkey ⟨file, heq⟩]
    exact h.exists_iff key

end Store

end Relbase
