import ArmstrongBot.Library.PosixPath

/-! The paths that `LocalStorageDriver` makes of keys. Symbolic links are not followed. -/

namespace Storage

open JsText PosixPath

def backslash : CodeUnit := unit 0x5C

/-- The key with slashes only and none of them in front, cut at its slashes. -/
def keySegments (key : JsString) : List JsString :=
  split slash ((key.map fun code => if code = backslash then slash else code).dropWhile (· == slash))

def resolve (localRoot key : JsString) : NormalPath := join (localRoot :: keySegments key)

/-- An entry of a directory. -/
abbrev FileName := { name : JsString // IsName name }

/-- The operations on keys; those of `list` are the prefix and the names that it returns. -/
inductive DriverOperation
  | put (key : JsString)
  | get (key : JsString)
  | getBuffer (key : JsString)
  | exists_ (key : JsString)
  | stat (key : JsString)
  | delete (key : JsString)
  | copy (sourceKey destKey : JsString)
  | list (keyPrefix : JsString) (names : List FileName)
  | download (key : JsString)

/-- `posix.join(prefix, name)` -/
def listedKey (keyPrefix : JsString) (name : FileName) : JsString := (join [keyPrefix, name.val]).text

/-- The paths that an operation hands to the file system. -/
def paths (localRoot : JsString) : DriverOperation → List NormalPath
  | .put key => [(resolve localRoot key).dirname, resolve localRoot key]
  | .get key | .getBuffer key | .exists_ key | .delete key | .download key =>
      [resolve localRoot key]
  -- the second one is that of `hashFile`
  | .stat key => [resolve localRoot key, resolve localRoot key]
  | .copy sourceKey destKey =>
      [resolve localRoot sourceKey, (resolve localRoot destKey).dirname, resolve localRoot destKey]
  | .list keyPrefix names =>
      resolve localRoot keyPrefix :: names.flatMap fun name =>
        [join [(resolve localRoot keyPrefix).text, name.val],
          resolve localRoot (listedKey keyPrefix name)]

section

variable (workingDirectory : List JsString) (localRoot : JsString)

def rootDirectory : List JsString := locate workingDirectory (normalize localRoot)

def Inside (path : NormalPath) : Prop :=
  rootDirectory workingDirectory localRoot <+: locate workingDirectory path

instance (path : NormalPath) : Decidable (Inside workingDirectory localRoot path) :=
  inferInstanceAs (Decidable (_ <+: _))

/-- The key does not lead up, or comes back along the last names of the root. -/
def StaysBelow (key : JsString) : Prop :=
  Returns (rootDirectory workingDirectory localRoot) (courseOf (keySegments key))

/-- The key does not lead to the root itself, unless the path for it is `.`, `/` or leads up only. -/
def NamesFile (key : JsString) : Prop :=
  rootDirectory workingDirectory localRoot = locate workingDirectory (resolve localRoot key) →
    (resolve localRoot key).course.downs = []

def KeysStay : DriverOperation → Prop
  | .put key => StaysBelow workingDirectory localRoot key ∧ NamesFile workingDirectory localRoot key
  | .get key | .getBuffer key | .exists_ key | .stat key | .delete key | .download key =>
      StaysBelow workingDirectory localRoot key
  | .copy sourceKey destKey =>
      StaysBelow workingDirectory localRoot sourceKey ∧
        StaysBelow workingDirectory localRoot destKey ∧ NamesFile workingDirectory localRoot destKey
  | .list keyPrefix names =>
      StaysBelow workingDirectory localRoot keyPrefix ∧
        ∀ name ∈ names, StaysBelow workingDirectory localRoot (listedKey keyPrefix name)

end

section

variable {workingDirectory : List JsString} {localRoot : JsString}

theorem inside_resolve {key : JsString} :
    Inside workingDirectory localRoot (resolve localRoot key) ↔
      StaysBelow workingDirectory localRoot key := by
  have followed := @locate_join workingDirectory localRoot (keySegments key)
    fun _ member => not_mem_split member
  rw [Inside, resolve, followed]
  exact prefix_lead_iff

theorem inside_written {key : JsString} :
    Inside workingDirectory localRoot (resolve localRoot key).dirname ∧
        Inside workingDirectory localRoot (resolve localRoot key) ↔
      StaysBelow workingDirectory localRoot key ∧ NamesFile workingDirectory localRoot key := by
  rw [and_comm, inside_resolve]
  refine and_congr_right fun stays => ?_
  exact prefix_dirname_iff (inside_resolve.mpr stays)

theorem locate_entry (workingDirectory : List JsString) (path : JsString) (name : FileName) :
    locate workingDirectory (join [path, name.val]) =
      locate workingDirectory (normalize path) ++ [name.val] := by
  have noSlash : ∀ segment ∈ [name.val], slash ∉ segment := by
    simpa using name.property.2.2.2
  have down : courseOf [name.val] = { ups := 0, downs := [name.val] } :=
    courseOf_names (by simpa using name.property) _
  rw [locate_join workingDirectory path noSlash, down]
  simp [lead]

theorem inside_entry {keyPrefix : JsString} (name : FileName)
    (stays : StaysBelow workingDirectory localRoot keyPrefix) :
    Inside workingDirectory localRoot (join [(resolve localRoot keyPrefix).text, name.val]) := by
  rw [Inside, locate_entry, locate_text]
  exact (inside_resolve.mpr stays).trans (List.prefix_append _ _)

end

/-- The paths of an operation lie inside the root exactly when its keys do not lead out of it, and
a key that is written to does not lead to the root itself. -/
theorem paths_inside_iff (workingDirectory : List JsString) (localRoot : JsString)
    (operation : DriverOperation) :
    (∀ path ∈ paths localRoot operation, Inside workingDirectory localRoot path) ↔
      KeysStay workingDirectory localRoot operation := by
  cases operation with
  | put key => simpa [paths, KeysStay] using inside_written
  | get | getBuffer | exists_ | delete | download | stat =>
      simpa [paths, KeysStay] using inside_resolve
  | copy sourceKey destKey =>
      simpa [paths, KeysStay] using and_congr inside_resolve inside_written
  | list keyPrefix names =>
      simp only [paths, KeysStay, List.forall_mem_cons, inside_resolve, List.mem_flatMap]
      refine and_congr_right fun stays => ?_
      constructor
      · intro inside name member
        exact inside_resolve.mp (inside _ ⟨name, member, by simp⟩)
      · rintro below path ⟨name, member, isPath⟩
        rcases List.mem_pair.mp isPath with rfl | rfl
        · exact inside_entry name stays
        · exact inside_resolve.mpr (below name member)

def storageRoot : JsString := js "/srv/bots/armstrong/storage"

/-- A key with dots leads to any file of the machine, and a key that leads nowhere has the directory
above the root created. -/
theorem keys_escape :
    ¬ (∀ path ∈ paths storageRoot (.get (js "../../../../etc/passwd")),
        Inside [] storageRoot path) ∧
      ¬ (∀ path ∈ paths storageRoot (.put (js "images/..")), Inside [] storageRoot path) := by
  constructor
  · intro inside
    have read := inside (resolve storageRoot (js "../../../../etc/passwd")) List.mem_cons_self
    exact absurd read (by decide +kernel)
  · intro inside
    have created := inside (resolve storageRoot (js "images/..")).dirname List.mem_cons_self
    exact absurd created (by decide +kernel)

end Storage
