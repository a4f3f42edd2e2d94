import ArmstrongBot.Library.JsMethods
import ArmstrongBot.Library.Calendar
import Mathlib.Data.List.Sort
import Mathlib.Data.List.Nodup

/-! The catalog of stored objects and the usage aggregate: `StorageObjectRepository`. -/

namespace Storage

open JsText
open Calendar (Timestamp)

abbrev Bytes := List UInt8

inductive StorageNamespace
  | transcripts
  | backups
  | rankCards
  | exports
  | plugin
  deriving DecidableEq

def namespaceSegment : StorageNamespace → JsString
  | .transcripts => js "transcripts"
  | .backups => js "backups"
  | .rankCards => js "rank-cards"
  | .exports => js "exports"
  | .plugin => js "plugin"

/-- SHA-256 in hexadecimal: 64 digits. -/
structure ContentHash where
  sha256Hex : Bytes → JsString
  length : ∀ body, (sha256Hex body).length = 64

def buildObjectKey (guildId : Option JsString) (namespace_ : StorageNamespace) (hash : JsString) :
    JsString :=
  guildId.getD (js "global") ++ js "/" ++ namespaceSegment namespace_ ++ js "/" ++ hash

/-- The hash can be read off the end of a key. -/
theorem buildObjectKey_hash {contentHash : ContentHash} {first second : Bytes}
    {firstGuild secondGuild : Option JsString} {firstNamespace secondNamespace : StorageNamespace}
    (same : buildObjectKey firstGuild firstNamespace (contentHash.sha256Hex first) =
      buildObjectKey secondGuild secondNamespace (contentHash.sha256Hex second)) :
    contentHash.sha256Hex first = contentHash.sha256Hex second := by
  refine (List.append_inj' same ?_).2
  rw [contentHash.length, contentHash.length]

structure StorageObject where
  id : JsString
  guildId : Option JsString
  namespace_ : StorageNamespace
  key : JsString
  contentHash : JsString
  size : Nat
  contentType : JsString
  filename : Option JsString
  ownerType : JsString
  ownerId : JsString
  immutable : Bool
  refCount : Int
  deletedAt : Option Timestamp
  deriving DecidableEq

def StorageObject.isLive (object : StorageObject) : Bool := object.deletedAt = none

/-- What `findDeletedWithZeroRefs` selects. -/
def StorageObject.isGarbage (object : StorageObject) : Bool :=
  !object.isLive && object.refCount ≤ 0

/-- The table `storage_objects` under its primary key. -/
structure Catalog where
  rows : List StorageObject
  distinct : (rows.map StorageObject.id).Nodup

def Catalog.empty : Catalog := { rows := [], distinct := List.nodup_nil }

theorem Catalog.eq_of_id {catalog : Catalog} {first second : StorageObject}
    (firstMember : first ∈ catalog.rows) (secondMember : second ∈ catalog.rows)
    (same : first.id = second.id) : first = second :=
  List.inj_on_of_nodup_map catalog.distinct firstMember secondMember same

def Catalog.findByHash (catalog : Catalog) (guildId : Option JsString)
    (namespace_ : StorageNamespace) (contentHash : JsString) : Option StorageObject :=
  catalog.rows.find? fun row => row.guildId = guildId ∧ row.namespace_ = namespace_ ∧
    row.contentHash = contentHash ∧ row.isLive

def Catalog.findById (catalog : Catalog) (id : JsString) : Option StorageObject :=
  catalog.rows.find? fun row => row.id = id ∧ row.isLive

def Catalog.create (catalog : Catalog) (row : StorageObject) : Option Catalog :=
  if fresh : row.id ∉ catalog.rows.map StorageObject.id then
    some
      { rows := catalog.rows ++ [row]
        distinct := by
          rw [List.map_append, List.map_singleton]
          refine List.nodup_append.mpr ⟨catalog.distinct, List.nodup_singleton _, ?_⟩
          rintro known member other isNew rfl
          rw [List.mem_singleton.mp isNew] at member
          exact fresh member }
  else none

/-- `update` by primary key; what is written leaves the id alone. -/
def Catalog.update (catalog : Catalog) (id : JsString) (change : StorageObject → StorageObject)
    (sameId : ∀ row, (change row).id = row.id) : Catalog :=
  { rows := catalog.rows.map fun row => if row.id = id then change row else row
    distinct := by
      have sameIds : (StorageObject.id ∘ fun row => if row.id = id then change row else row) =
          StorageObject.id := by
        funext row
        simp only [Function.comp_apply]
        split
        · exact sameId row
        · rfl
      rw [List.map_map, sameIds]
      exact catalog.distinct }

def StorageObject.withReference (row : StorageObject) : StorageObject :=
  { row with refCount := row.refCount + 1 }

def StorageObject.withoutReference (row : StorageObject) : StorageObject :=
  { row with refCount := row.refCount - 1 }

def StorageObject.deleted (now : Timestamp) (row : StorageObject) : StorageObject :=
  { row with deletedAt := some now }

def Catalog.incrementRefCount (catalog : Catalog) (id : JsString) : Catalog :=
  catalog.update id StorageObject.withReference fun _ => rfl

def Catalog.softDelete (catalog : Catalog) (id : JsString) (now : Timestamp) : Catalog :=
  catalog.update id (StorageObject.deleted now) fun _ => rfl

def Catalog.decrementRefCount (catalog : Catalog) (id : JsString) : Catalog :=
  catalog.update id StorageObject.withoutReference fun _ => rfl

def Catalog.findDeletedWithZeroRefs (catalog : Catalog) (limit : Int) : List StorageObject :=
  ((catalog.rows.filter StorageObject.isGarbage).insertionSort fun first second =>
    first.deletedAt.getD 0 ≤ second.deletedAt.getD 0).take (min 100 (max 1 limit)).toNat

/-! The usage aggregate. -/

structure StorageUsage where
  usedBytes : Int
  objectCount : Int
  deriving DecidableEq

/-- The upsert of `addUsage`. -/
def addUsage (usage : Record StorageUsage) (guildId : JsString) (bytesDelta countDelta : Int) :
    Record StorageUsage :=
  usage.set guildId
    (match usage guildId with
    | some row =>
        { usedBytes := row.usedBytes + bytesDelta, objectCount := row.objectCount + countDelta }
    | none => { usedBytes := bytesDelta, objectCount := countDelta })

def usedBytes (usage : Record StorageUsage) (guildId : JsString) : Int :=
  ((usage guildId).map StorageUsage.usedBytes).getD 0

def objectCount (usage : Record StorageUsage) (guildId : JsString) : Int :=
  ((usage guildId).map StorageUsage.objectCount).getD 0

/-! What the operations of the catalog do. -/

theorem create_rows {catalog next : Catalog} {row : StorageObject}
    (created : catalog.create row = some next) :
    row.id ∉ catalog.rows.map StorageObject.id ∧ next.rows = catalog.rows ++ [row] := by
  unfold Catalog.create at created
  split at created
  · rename_i fresh
    rw [← Option.some.inj created]
    exact ⟨fresh, rfl⟩
  · simp at created

theorem findById_some {catalog : Catalog} {id : JsString} {row : StorageObject}
    (found : catalog.findById id = some row) :
    row ∈ catalog.rows ∧ row.id = id ∧ row.isLive = true := by
  refine ⟨List.mem_of_find?_eq_some found, ?_⟩
  simpa using List.find?_some found

theorem findById_of_mem {catalog : Catalog} {row : StorageObject} (member : row ∈ catalog.rows)
    (live : row.isLive = true) : catalog.findById row.id = some row := by
  cases found : catalog.findById row.id with
  | some other =>
      obtain ⟨otherMember, sameId, _⟩ := findById_some found
      rw [Catalog.eq_of_id otherMember member sameId]
  | none =>
      have absent := List.find?_eq_none.mp found row member
      simp [live] at absent

theorem findByHash_some {catalog : Catalog} {guildId : Option JsString}
    {namespace_ : StorageNamespace} {contentHash : JsString} {row : StorageObject}
    (found : catalog.findByHash guildId namespace_ contentHash = some row) :
    row ∈ catalog.rows ∧ row.guildId = guildId ∧ row.namespace_ = namespace_ ∧
      row.contentHash = contentHash ∧ row.isLive = true := by
  refine ⟨List.mem_of_find?_eq_some found, ?_⟩
  simpa using List.find?_some found

theorem mem_update {catalog : Catalog} {id : JsString} {change : StorageObject → StorageObject}
    (sameId : ∀ row, (change row).id = row.id) {row : StorageObject}
    (member : row ∈ (catalog.update id change sameId).rows) :
    (row ∈ catalog.rows ∧ row.id ≠ id) ∨ ∃ before ∈ catalog.rows, before.id = id ∧
      row = change before := by
  obtain ⟨before, beforeMember, rfl⟩ := List.mem_map.mp member
  by_cases same : before.id = id
  · rw [if_pos same]
    exact Or.inr ⟨before, beforeMember, same, rfl⟩
  · rw [if_neg same]
    exact Or.inl ⟨beforeMember, same⟩

theorem mem_update_of_ne {catalog : Catalog} {id : JsString}
    (change : StorageObject → StorageObject) (sameId : ∀ row, (change row).id = row.id)
    {row : StorageObject} (member : row ∈ catalog.rows) (apart : row.id ≠ id) :
    row ∈ (catalog.update id change sameId).rows :=
  List.mem_map.mpr ⟨row, member, if_neg apart⟩

theorem mem_update_of_eq {catalog : Catalog} {id : JsString}
    (change : StorageObject → StorageObject) (sameId : ∀ row, (change row).id = row.id)
    {row : StorageObject} (member : row ∈ catalog.rows) (same : row.id = id) :
    change row ∈ (catalog.update id change sameId).rows :=
  List.mem_map.mpr ⟨row, member, if_pos same⟩

theorem update_update (catalog : Catalog) (id : JsString)
    {first second : StorageObject → StorageObject} (firstId : ∀ row, (first row).id = row.id)
    (secondId : ∀ row, (second row).id = row.id) :
    (catalog.update id first firstId).update id second secondId =
      catalog.update id (fun row => second (first row))
        (fun row => (secondId (first row)).trans (firstId row)) := by
  simp only [Catalog.update, List.map_map, Catalog.mk.injEq]
  refine List.map_congr_left ?_
  intro row _
  simp only [Function.comp_apply]
  by_cases isId : row.id = id
  · rw [if_pos isId, if_pos isId, if_pos ((firstId row).trans isId)]
  · rw [if_neg isId, if_neg isId, if_neg isId]

theorem softDelete_decrementRefCount (catalog : Catalog) (id : JsString) (now : Timestamp) :
    (catalog.softDelete id now).decrementRefCount id =
      catalog.update id (fun row => (row.deleted now).withoutReference) fun _ => rfl :=
  update_update catalog id _ _

theorem deleted_isLive {catalog : Catalog} {id : JsString} {now : Timestamp} {row : StorageObject}
    (member : row ∈ ((catalog.softDelete id now).decrementRefCount id).rows) (isId : row.id = id) :
    row.isLive = false := by
  rw [softDelete_decrementRefCount] at member
  obtain ⟨before, _, rfl⟩ := List.mem_map.mp member
  by_cases same : before.id = id
  · rw [if_pos same]
    rfl
  · rw [if_neg same] at isId
    exact absurd isId same

theorem mem_findDeletedWithZeroRefs {catalog : Catalog} {limit : Int} {row : StorageObject}
    (listed : row ∈ catalog.findDeletedWithZeroRefs limit) :
    row ∈ catalog.rows ∧ row.isGarbage = true := by
  have selected := (List.mem_insertionSort _).mp (List.mem_of_mem_take listed)
  exact List.mem_filter.mp selected

theorem addUsage_same (usage : Record StorageUsage) (guildId : JsString)
    (bytesDelta countDelta : Int) :
    usedBytes (addUsage usage guildId bytesDelta countDelta) guildId =
        usedBytes usage guildId + bytesDelta ∧
      objectCount (addUsage usage guildId bytesDelta countDelta) guildId =
        objectCount usage guildId + countDelta := by
  simp only [usedBytes, objectCount, addUsage, Record.set_same]
  cases usage guildId <;> simp

theorem addUsage_other (usage : Record StorageUsage) {guildId asked : JsString}
    (apart : asked ≠ guildId) (bytesDelta countDelta : Int) :
    usedBytes (addUsage usage guildId bytesDelta countDelta) asked = usedBytes usage asked ∧
      objectCount (addUsage usage guildId bytesDelta countDelta) asked =
        objectCount usage asked := by
  simp only [usedBytes, objectCount, addUsage, Record.set_other _ _ apart, and_self]

end Storage
