import ArmstrongBot.Storage.Service
import ArmstrongBot.Storage.LocalPaths
import ArmstrongBot.Library.CursorPaging

/-! `LocalStorageDriver.list`, and paging through a directory by the cursors it returns. Files do not
change while one page is made. -/

namespace Storage

open JsText PosixPath CursorPaging
open Calendar (Timestamp)

structure File where
  body : Bytes
  mtime : Timestamp

inductive Entry
  | file (file : File)
  | other

structure Directory where
  entries : List (FileName × Entry)
  distinct : (entries.map Prod.fst).Nodup

def Directory.file (directory : Directory) (name : JsString) : Option File :=
  directory.entries.findSome? fun entry =>
    match entry.2 with
    | .file file => if entry.1.val = name then some file else none
    | .other => none

/-- The directories that can be read, by the names on the way to them. -/
abbrev FileSystem := List JsString → Option Directory

def FileSystem.file (files : FileSystem) (path : List JsString) : Option File :=
  path.getLast?.bind fun name => (files path.dropLast).bind fun directory => directory.file name

def Directory.fileNames (directory : Directory) : List FileName :=
  directory.entries.filterMap fun entry =>
    match entry.2 with
    | .file _ => some entry.1
    | .other => none

structure StorageObjectMeta where
  key : JsString
  size : Nat
  contentType : JsString
  contentHash : JsString
  lastModified : Timestamp

structure LocalStorageDriver where
  contentHash : ContentHash
  workingDirectory : List JsString
  localRoot : JsString

namespace LocalStorageDriver

variable (driver : LocalStorageDriver) (keyPrefix : JsString) (limit : Nat)

def fileAt (files : FileSystem) (path : NormalPath) : Option File :=
  files.file (locate driver.workingDirectory path)

/-- Fails when there is no file that the key leads to. -/
def hashFile (files : FileSystem) (key : JsString) : Option JsString :=
  (driver.fileAt files (resolve driver.localRoot key)).map fun file =>
    driver.contentHash.sha256Hex file.body

def listedMeta (files : FileSystem) (name : FileName) : Option StorageObjectMeta :=
  let key := listedKey keyPrefix name
  (driver.fileAt files (join [(resolve driver.localRoot keyPrefix).text, name.val])).bind fun st =>
    (driver.hashFile files key).map fun contentHash =>
      { key
        size := st.body.length
        contentType := js "application/octet-stream"
        contentHash
        lastModified := st.mtime }

/-- The cursor is one of the names that `list` returns. Nothing comes back when it fails. -/
def list (files : FileSystem) (cursor : Option FileName) :
    Option (Page StorageObjectMeta FileName) :=
  let root := resolve driver.localRoot keyPrefix
  match files (locate driver.workingDirectory root) with
  | none => some { items := [], nextCursor := none }
  | some directory =>
      let names := directory.fileNames.insertionSort (· ≤ ·)
      let start := position names cursor
      let slice := (names.drop start).take limit
      (slice.mapM (driver.listedMeta keyPrefix files)).map fun items =>
        let consumedTo := start + slice.length
        { items, nextCursor := if consumedTo < names.length then slice.getLast? else none }

/-- Following the cursors through the contents that the requests meet. -/
def pages (contents : Nat → FileSystem) : Nat → Reading StorageObjectMeta FileName :=
  read fun count => driver.list keyPrefix limit (contents count)

def returnedKeys (contents : Nat → FileSystem) (count : Nat) : List JsString :=
  (driver.pages keyPrefix limit contents count).returned.map (·.key)

/-- The files of the directory that is listed. -/
def listed (files : FileSystem) : List FileName :=
  match files (locate driver.workingDirectory (resolve driver.localRoot keyPrefix)) with
  | none => []
  | some directory => directory.fileNames

/-- The key of a listed file leads to a file. -/
def opens (files : FileSystem) (name : FileName) : Bool :=
  (driver.fileAt files (resolve driver.localRoot (listedKey keyPrefix name))).isSome

/-- The paging ends, every file that is there at every request is returned, and none twice. -/
def PagesRight (contents : Nat → FileSystem) : Prop :=
  ∃ done, (driver.pages keyPrefix limit contents done).progress = .finished ∧
    (driver.returnedKeys keyPrefix limit contents done).Nodup ∧
    ∀ name : FileName,
      (∀ count cursor, (driver.pages keyPrefix limit contents count).progress = .asking cursor →
        name ∈ driver.listed keyPrefix (contents count)) →
      listedKey keyPrefix name ∈ driver.returnedKeys keyPrefix limit contents done

/-- At this request no file that was returned is in the directory behind the cursor's file, or at all
when the cursor's file is gone; and the keys of the files that are there lead to files. -/
def Settled (contents : Nat → FileSystem) (count : Nat) : Prop :=
  ∀ cursor, (driver.pages keyPrefix limit contents count).progress = .asking cursor →
    ∀ name ∈ driver.listed keyPrefix (contents count),
      (∀ asked ∈ cursor, asked ∈ driver.listed keyPrefix (contents count) → asked < name) →
      listedKey keyPrefix name ∉ driver.returnedKeys keyPrefix limit contents count ∧
        driver.opens keyPrefix (contents count) name = true

variable {driver keyPrefix limit}

theorem file_of_listed {directory : Directory} {name : FileName}
    (member : name ∈ directory.fileNames) : ∃ file, directory.file name.val = some file := by
  obtain ⟨⟨entryName, entry⟩, isEntry, isName⟩ := List.mem_filterMap.mp member
  refine Option.isSome_iff_exists.mp (List.findSome?_isSome_iff.mpr ⟨_, isEntry, ?_⟩)
  cases entry with
  | file file =>
      cases isName
      simp
  | other => cases isName

theorem fileNames_nodup (directory : Directory) : directory.fileNames.Nodup := by
  have kept : directory.fileNames.Sublist (directory.entries.map Prod.fst) := by
    rw [Directory.fileNames]
    induction directory.entries with
    | nil => exact .slnil
    | cons first rest ih =>
        obtain ⟨name, entry⟩ := first
        cases entry with
        | file file => exact ih.cons_cons _
        | other => exact ih.cons _
  exact directory.distinct.sublist kept

/-- The listed directory as a collection that is read page by page. -/
def contentOf (driver : LocalStorageDriver) (keyPrefix : JsString) (files : FileSystem) :
    Content FileName where
  names := (driver.listed keyPrefix files).insertionSort (· ≤ ·)
  opens := driver.opens keyPrefix files
  sorted := by
    have distinct : (driver.listed keyPrefix files).Nodup := by
      rw [listed]
      split
      · exact List.nodup_nil
      · exact fileNames_nodup _
    have apart := (List.perm_insertionSort (· ≤ ·) _).nodup_iff.mpr distinct
    exact ((List.pairwise_insertionSort (· ≤ ·) _).and apart).imp fun both =>
      lt_of_le_of_ne both.1 both.2

theorem mem_contentOf {files : FileSystem} {name : FileName} :
    name ∈ (contentOf driver keyPrefix files).names ↔ name ∈ driver.listed keyPrefix files :=
  (List.perm_insertionSort (· ≤ ·) _).mem_iff

theorem listedKey_injective (keyPrefix : JsString) : Function.Injective (listedKey keyPrefix) := by
  intro first second same
  have leads : ∀ name : FileName, locate [] (normalize (listedKey keyPrefix name)) =
      locate [] (normalize keyPrefix) ++ [name.val] := fun name => by
    rw [listedKey, locate_text, locate_entry]
  have names := leads first
  rw [same, leads second] at names
  exact Subtype.ext (by simpa using names.symm)

theorem listedMeta_key {files : FileSystem} {name : FileName}
    (member : name ∈ driver.listed keyPrefix files) :
    (driver.listedMeta keyPrefix files name).map (·.key) =
      if driver.opens keyPrefix files name then some (listedKey keyPrefix name) else none := by
  rw [listed] at member
  split at member
  · exact absurd member List.not_mem_nil
  · rename_i directory found
    obtain ⟨file, isFile⟩ := file_of_listed member
    have st : driver.fileAt files (join [(resolve driver.localRoot keyPrefix).text, name.val]) =
        some file := by
      rw [fileAt, locate_entry, locate_text, FileSystem.file]
      simp [found, isFile]
    rw [listedMeta, st, opens, hashFile]
    cases driver.fileAt files (resolve driver.localRoot (listedKey keyPrefix name)) <;> rfl

theorem mapM_listedMeta {files : FileSystem} {names : List FileName}
    (members : ∀ name ∈ names, name ∈ driver.listed keyPrefix files) :
    (names.mapM (driver.listedMeta keyPrefix files)).map (List.map (·.key)) =
      if names.all (driver.opens keyPrefix files) then some (names.map (listedKey keyPrefix))
      else none := by
  induction names with
  | nil => rfl
  | cons name rest ih =>
      have first := listedMeta_key (members name List.mem_cons_self)
      have others := ih fun other member => members other (List.mem_cons_of_mem _ member)
      rw [List.mapM_cons]
      cases opened : driver.opens keyPrefix files name with
      | false =>
          rw [opened] at first
          simp [Option.map_eq_none_iff.mp first, opened]
      | true =>
          rw [opened] at first
          obtain ⟨firstMeta, made, isKey⟩ := Option.map_eq_some_iff.mp first
          rw [made, List.all_cons, opened, Bool.true_and]
          cases all : rest.all (driver.opens keyPrefix files) with
          | false =>
              rw [all] at others
              simp [Option.map_eq_none_iff.mp others]
          | true =>
              rw [all] at others
              obtain ⟨restMetas, madeRest, areKeys⟩ := Option.map_eq_some_iff.mp others
              simp [madeRest, isKey, areKeys]

theorem list_keys (files : FileSystem) (cursor : Option FileName) :
    (driver.list keyPrefix limit files cursor).map (Page.map (·.key)) =
      (CursorPaging.list limit (contentOf driver keyPrefix files) cursor).map
        (Page.map (listedKey keyPrefix)) := by
  have members : ∀ slice, slice ⊆ (contentOf driver keyPrefix files).names →
      ∀ name ∈ slice, name ∈ driver.listed keyPrefix files := fun slice isSlice name member =>
    mem_contentOf.mp (isSlice member)
  simp only [LocalStorageDriver.list, CursorPaging.list]
  split
  · rename_i unread
    have none : (contentOf driver keyPrefix files).names = [] := by
      simp [contentOf, listed, unread]
    simp [none, Page.map]
  · rename_i directory found
    have names : directory.fileNames.insertionSort (· ≤ ·) =
        (contentOf driver keyPrefix files).names := by
      simp [contentOf, listed, found]
    rw [names]
    generalize position (contentOf driver keyPrefix files).names cursor = start
    have made := mapM_listedMeta (members _
      (List.Subset.trans (List.take_subset limit _) (List.drop_subset start _)))
    generalize (((contentOf driver keyPrefix files).names.drop start).take limit) = slice at made ⊢
    change _ = Option.map _ (if slice.all (driver.opens keyPrefix files) = true then _ else _)
    cases opened : slice.all (driver.opens keyPrefix files) with
    | false =>
        rw [opened] at made
        simp [Option.map_eq_none_iff.mp made]
    | true =>
        rw [opened] at made
        obtain ⟨items, isMade, areKeys⟩ := Option.map_eq_some_iff.mp made
        simp [isMade, Page.map, areKeys]

variable {contents : Nat → FileSystem}

/-- The paging is the reading of the directory, with keys for names. -/
theorem pages_keys (count : Nat) :
    (driver.pages keyPrefix limit contents count).map (·.key) =
      (read (requests limit fun request => contentOf driver keyPrefix (contents request)) count).map
        (listedKey keyPrefix) := by
  refine (read_map _ (fun _ _ => rfl) count).trans
    (Eq.trans ?_ (read_map (listedKey keyPrefix) (fun _ _ => rfl) count).symm)
  exact read_congr fun request _ => funext fun cursor => list_keys (contents request) cursor

theorem pages_progress (count : Nat) :
    (driver.pages keyPrefix limit contents count).progress =
      (read (requests limit fun request => contentOf driver keyPrefix (contents request))
        count).progress :=
  congrArg Reading.progress (pages_keys count)

theorem returnedKeys_eq (count : Nat) :
    driver.returnedKeys keyPrefix limit contents count =
      (read (requests limit fun request => contentOf driver keyPrefix (contents request))
        count).returned.map (listedKey keyPrefix) :=
  congrArg Reading.returned (pages_keys count)

theorem pagesRight_names :
    driver.PagesRight keyPrefix limit contents ↔
      CursorPaging.PagesRight limit fun request => contentOf driver keyPrefix (contents request) := by
  have injective := listedKey_injective keyPrefix
  simp only [PagesRight, CursorPaging.PagesRight, pages_progress, returnedKeys_eq,
    List.nodup_map_iff injective, List.mem_map_of_injective injective, mem_contentOf]

theorem settled_names {count : Nat} :
    driver.Settled keyPrefix limit contents count ↔
      CursorPaging.Settled limit (fun request => contentOf driver keyPrefix (contents request))
        count := by
  have injective := listedKey_injective keyPrefix
  simp only [Settled, CursorPaging.Settled, pages_progress, returnedKeys_eq,
    List.mem_map_of_injective injective, mem_contentOf]
  rfl

end LocalStorageDriver

/-- Paging through a directory that changes finitely often is right exactly when pages are not empty
and every request finds the directory settled. -/
theorem list_pages_right_iff (driver : LocalStorageDriver) (keyPrefix : JsString) (limit : Nat)
    (contents : Nat → FileSystem) :
    (∀ last, driver.PagesRight keyPrefix limit (freeze contents last)) ↔
      (0 < limit ∨ driver.listed keyPrefix (contents 0) = []) ∧
        ∀ count, driver.Settled keyPrefix limit contents count := by
  have empty : driver.listed keyPrefix (contents 0) = [] ↔
      (LocalStorageDriver.contentOf driver keyPrefix (contents 0)).names = [] := by
    simp only [List.eq_nil_iff_forall_not_mem, LocalStorageDriver.mem_contentOf]
  simp only [LocalStorageDriver.pagesRight_names, LocalStorageDriver.settled_names, empty]
  exact @pagesRight_iff FileName _ limit fun request =>
    LocalStorageDriver.contentOf driver keyPrefix (contents request)

/-! Three files in pages of two, of which the one that the first page ends with is deleted. -/

def localDriver : LocalStorageDriver :=
  { contentHash := constantHash, workingDirectory := [], localRoot := storageRoot }

def backupDirectory : List JsString :=
  [js "srv", js "bots", js "armstrong", js "storage", js "backups"]

def backupA : FileName := ⟨js "a", by decide⟩

def backupB : FileName := ⟨js "b", by decide⟩

def backupC : FileName := ⟨js "c", by decide⟩

def backups (request : Nat) : FileSystem := fun path =>
  if path = backupDirectory then
    let names := if request = 0 then [backupA, backupB, backupC] else [backupA, backupC]
    some { entries := names.map fun name => (name, .file { body := [], mtime := 0 })
           distinct := by simp only [names]; split <;> decide +kernel }
  else none

theorem deleted_cursor_repeats :
    ¬ ∀ last, localDriver.PagesRight (js "backups") 2 (freeze backups last) := by
  intro right
  obtain ⟨done, finished, distinct, -⟩ := right 1
  have ends : (localDriver.pages (js "backups") 2 (freeze backups 1) 2).progress = .finished := by
    decide +kernel
  have twice : ¬ (localDriver.returnedKeys (js "backups") 2 (freeze backups 1) 2).Nodup := by
    decide +kernel
  have same : localDriver.pages (js "backups") 2 (freeze backups 1) done = _ := read_over_unique
    (fun _ => by rw [← LocalStorageDriver.pages, finished]; exact nofun)
    fun _ => by rw [← LocalStorageDriver.pages, ends]; exact nofun
  rw [LocalStorageDriver.returnedKeys, same] at distinct
  exact twice distinct

end Storage
