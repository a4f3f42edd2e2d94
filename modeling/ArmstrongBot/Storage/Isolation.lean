import ArmstrongBot.Library.Filtered
import ArmstrongBot.Storage.Controller
import Mathlib.Data.Fintype.EquivFin

/-! What the requests of a guild's callers reach of the catalog. -/

namespace Storage

open JsText Filtered
open Calendar (Timestamp)
open Permissions (PermissionActor)

def Catalog.ownedBy (catalog : Catalog) (guildId : JsString) : Catalog :=
  { rows := catalog.rows.filter fun row => row.guildId = some guildId
    distinct := catalog.distinct.sublist (List.filter_sublist.map StorageObject.id) }

/-- The guild has the same objects, the same usage, and the same bytes for its objects. -/
structure SameOwn (guildId : JsString) (first second : State) : Prop where
  rows : (first.catalog.ownedBy guildId).rows = (second.catalog.ownedBy guildId).rows
  usage : first.usage guildId = second.usage guildId
  blobs : ∀ row ∈ (first.catalog.ownedBy guildId).rows, first.blobs row.key = second.blobs row.key

/-- The request passes the guard; a download passes on its link, which is for an object of the
guild if it is valid. -/
def Authorised (backend : Backend) (user : PermissionActor) (now : Timestamp) (state : State) :
    Endpoint → Prop
  | .download query =>
      ∀ key ∈ query.key, ∀ sig ∈ query.sig, ∀ expiry ∈ query.expiry,
        backend.verifySignature key expiry sig now = true →
        ∃ row ∈ (state.catalog.ownedBy user.guildId).rows, row.key = key
  | endpoint => restPermissionGuard backend (some user) endpoint.claim = none

/-- What comes of a request does not depend on what others store, and leaves it alone. -/
structure GuildScoped (backend : Backend) (user : PermissionActor) (now : Timestamp)
    (state : State) (endpoint : Endpoint) : Prop where
  responds : ∀ other, SameOwn user.guildId state other →
    (handle backend state (some user) now endpoint).response =
      (handle backend other (some user) now endpoint).response
  results : ∀ other, SameOwn user.guildId state other →
    SameOwn user.guildId (handle backend state (some user) now endpoint).state
      (handle backend other (some user) now endpoint).state
  kept : ∀ row ∈ state.catalog.rows, row.guildId ≠ some user.guildId →
    row ∈ (handle backend state (some user) now endpoint).state.catalog.rows
  usage : ∀ guildId, guildId ≠ user.guildId →
    (handle backend state (some user) now endpoint).state.usage guildId = state.usage guildId
  touched : ∀ object ∈ (handle backend state (some user) now endpoint).touched,
    object.guildId = some user.guildId

/-- The path names the caller's guild, or an object of it. -/
def TargetsOwn (guildId : JsString) (state : State) : Endpoint → Prop
  | .usage asked => asked = guildId
  | .listObjects asked query => asked = guildId ∨ query = none
  | .signedUrl id | .remove id => id ∈ (state.catalog.ownedBy guildId).rows.map StorageObject.id
  | .download _ => True

variable {backend : Backend} {user : PermissionActor} {now : Timestamp} {state other : State}
  {guildId id : JsString}

theorem mem_ownedBy {catalog : Catalog} {row : StorageObject} :
    row ∈ (catalog.ownedBy guildId).rows ↔ row ∈ catalog.rows ∧ row.guildId = some guildId := by
  simp [Catalog.ownedBy]

theorem findById_ownedBy {catalog : Catalog}
    (own : id ∈ (catalog.ownedBy guildId).rows.map StorageObject.id) :
    (catalog.ownedBy guildId).findById id = catalog.findById id := by
  obtain ⟨row, member, rfl⟩ := List.mem_map.mp own
  obtain ⟨isRow, ofGuild⟩ := mem_ownedBy.mp member
  apply find?_filter_of_kept
  intro other otherMember found
  simp only [decide_eq_true_eq] at found ⊢
  rw [Catalog.eq_of_id otherMember isRow found.1, ofGuild]

theorem requireObject_own {catalog : Catalog} {object : StorageObject}
    (own : id ∈ (catalog.ownedBy guildId).rows.map StorageObject.id)
    (required : requireObject catalog id none = some object) :
    object ∈ (catalog.ownedBy guildId).rows ∧ object.id = id := by
  obtain ⟨row, member, rfl⟩ := List.mem_map.mp own
  obtain ⟨isObject, sameId, _, _⟩ := requireObject_some required
  rw [Catalog.eq_of_id isObject (mem_ownedBy.mp member).1 sameId]
  exact ⟨member, rfl⟩

theorem requireObject_none (catalog : Catalog) (id : JsString) :
    requireObject catalog id none = catalog.findById id := by
  rw [requireObject]
  cases catalog.findById id <;> rfl

theorem requireObject_sameOwn (same : SameOwn guildId state other)
    (own : id ∈ (state.catalog.ownedBy guildId).rows.map StorageObject.id) :
    requireObject state.catalog id none = requireObject other.catalog id none := by
  have otherOwn := own
  rw [same.rows] at otherOwn
  rw [requireObject_none, requireObject_none, ← findById_ownedBy own, ← findById_ownedBy otherOwn,
    Catalog.findById, Catalog.findById, same.rows]

theorem list_sameOwn (same : SameOwn guildId state other) (query : ListQuery) :
    state.catalog.list guildId query = other.catalog.list guildId query := by
  have selected (catalog : Catalog) : catalog.rows.filter (query.selects guildId) =
      (catalog.ownedBy guildId).rows.filter (query.selects guildId) := by
    refine (filter_filter_of_kept fun row member => ?_).symm
    have selects := (List.mem_filter.mp member).2
    simp only [ListQuery.selects, Bool.and_eq_true] at selects
    exact selects.1.1.2
  rw [Catalog.list, Catalog.list, selected state.catalog, selected other.catalog, same.rows]

/-! A deletion of an object of the guild. -/

def StorageObject.released (now : Timestamp) (row : StorageObject) : StorageObject :=
  (row.deleted now).withoutReference

theorem removed_state (state : State) (object : StorageObject) (now : Timestamp) :
    (removed state object now).catalog =
        state.catalog.update object.id (StorageObject.released now) (fun _ => rfl) ∧
      (removed state object now).blobs = state.blobs := by
  rw [removed, account]
  split <;> exact ⟨softDelete_decrementRefCount state.catalog object.id now, rfl⟩

theorem removed_ownedBy (state : State) (object : StorageObject) (now : Timestamp) :
    ((removed state object now).catalog.ownedBy guildId).rows =
      (state.catalog.ownedBy guildId).rows.map fun row =>
        if row.id = object.id then row.released now else row := by
  rw [(removed_state state object now).1]
  apply filter_map_of_kept
  intro row
  split <;> rfl

theorem removed_usage {object : StorageObject} (own : object.guildId = some guildId)
    (same : state.usage guildId = other.usage guildId) (now : Timestamp) :
    (removed state object now).usage guildId = (removed other object now).usage guildId := by
  simp only [removed, account, own]
  split
  · rename_i id isId
    obtain rfl : guildId = id := by simpa using (Option.filter_eq_some_iff.mp isId).1
    simp [addUsage, same]
  · exact same

theorem removed_usage_other {object : StorageObject} (own : object.guildId = some guildId)
    (state : State) {asked : JsString} (apart : asked ≠ guildId) (now : Timestamp) :
    (removed state object now).usage asked = state.usage asked := by
  simp only [removed, account, own]
  split
  · rename_i id isId
    obtain rfl : guildId = id := by simpa using (Option.filter_eq_some_iff.mp isId).1
    exact Record.set_other _ _ apart
  · rfl

theorem removed_sameOwn (same : SameOwn guildId state other) {object : StorageObject}
    (own : object.guildId = some guildId) (now : Timestamp) :
    SameOwn guildId (removed state object now) (removed other object now) := by
  refine ⟨?_, ?_, ?_⟩
  · rw [removed_ownedBy, removed_ownedBy, same.rows]
  · exact removed_usage own same.usage now
  · intro row member
    rw [removed_ownedBy] at member
    obtain ⟨before, isBefore, rfl⟩ := List.mem_map.mp member
    rw [(removed_state state object now).2, (removed_state other object now).2]
    have sameBytes := same.blobs before isBefore
    split <;> exact sameBytes

theorem removed_kept {object : StorageObject} (isObject : object ∈ state.catalog.rows)
    (own : object.guildId = some guildId) {row : StorageObject} (member : row ∈ state.catalog.rows)
    (foreign : row.guildId ≠ some guildId) (now : Timestamp) :
    row ∈ (removed state object now).catalog.rows := by
  rw [(removed_state state object now).1]
  apply mem_update_of_ne _ _ member
  intro sameId
  rw [Catalog.eq_of_id member isObject sameId] at foreign
  exact foreign own

/-! Requests that only read. -/

theorem handle_reads {endpoint : Endpoint} (reads : ∀ id, endpoint ≠ .remove id) (state : State) :
    (handle backend state (some user) now endpoint).state = state := by
  unfold handle
  split
  · rfl
  · cases endpoint with
    | usage asked => rfl
    | listObjects asked query => cases query <;> rfl
    | signedUrl id =>
        simp only [handler]
        split <;> rfl
    | remove id => exact absurd rfl (reads id)
    | download query => rfl

theorem guildScoped_reads {endpoint : Endpoint} (reads : ∀ id, endpoint ≠ .remove id)
    (responds : ∀ other, SameOwn user.guildId state other →
      (handle backend state (some user) now endpoint).response =
        (handle backend other (some user) now endpoint).response)
    (touched : ∀ object ∈ (handle backend state (some user) now endpoint).touched,
      object.guildId = some user.guildId) :
    GuildScoped backend user now state endpoint := by
  refine ⟨responds, ?_, ?_, ?_, touched⟩
  · intro other same
    rw [handle_reads reads, handle_reads reads]
    exact same
  · intro row member _
    rw [handle_reads reads]
    exact member
  · intro guildId _
    rw [handle_reads reads]

theorem download_sameOwn {query : DownloadQuery}
    (authorised : Authorised backend user now state (.download query))
    (same : SameOwn user.guildId state other) :
    serveSignedDownload backend state query now = serveSignedDownload backend other query now := by
  unfold serveSignedDownload
  split
  · rename_i key sig expiry isKey isSig isExpiry
    split
    · rfl
    · split
      · rename_i valid
        obtain ⟨row, member, rfl⟩ := authorised key (Option.filter_eq_some_iff.mp isKey).1 sig
          (Option.filter_eq_some_iff.mp isSig).1 expiry isExpiry valid
        rw [same.blobs row member]
      · rfl
  · rfl

theorem guildScoped_of_targets {endpoint : Endpoint}
    (authorised : Authorised backend user now state endpoint)
    (targets : TargetsOwn user.guildId state endpoint) :
    GuildScoped backend user now state endpoint := by
  cases endpoint with
  | usage asked =>
      obtain rfl : asked = user.guildId := targets
      have passes : restPermissionGuard backend (some user) (some (js "storage.read")) = none :=
        authorised
      refine guildScoped_reads (by simp) ?_ (by simp [handle, Endpoint.claim, passes, handler])
      intro other same
      simp [handle, Endpoint.claim, passes, handler, usageOf, usedBytes, objectCount, same.usage]
  | listObjects asked query =>
      have passes : restPermissionGuard backend (some user) (some (js "storage.read")) = none :=
        authorised
      cases query with
      | none =>
          exact guildScoped_reads (by simp) (by simp [handle, Endpoint.claim, passes, handler])
            (by simp [handle, Endpoint.claim, passes, handler])
      | some query =>
          obtain rfl : asked = user.guildId := by simpa [TargetsOwn] using targets
          refine guildScoped_reads (by simp) ?_ (by simp [handle, Endpoint.claim, passes, handler])
          intro other same
          simp [handle, Endpoint.claim, passes, handler, list_sameOwn same]
  | signedUrl id =>
      have passes : restPermissionGuard backend (some user) (some (js "storage.read")) = none :=
        authorised
      refine guildScoped_reads (by simp) ?_ ?_
      · intro other same
        simp only [handle, Endpoint.claim, passes, handler, requireObject_sameOwn same targets]
        split <;> rfl
      · intro object isTouched
        simp only [handle, Endpoint.claim, passes, handler] at isTouched
        split at isTouched
        · rename_i required
          obtain rfl := Option.mem_some.mp isTouched
          exact (mem_ownedBy.mp (requireObject_own targets required).1).2
        · simp at isTouched
  | remove id =>
      have passes : restPermissionGuard backend (some user) (some (js "storage.delete")) = none :=
        authorised
      cases required : requireObject state.catalog id none with
      | none =>
          constructor
          all_goals simp only [handle, Endpoint.claim, passes, handler, required]
          · intro other same
            rw [← requireObject_sameOwn same targets, required]
          · intro other same
            rw [← requireObject_sameOwn same targets, required]
            exact same
          · exact fun row member _ => member
          · simp
          · simp
      | some object =>
          obtain ⟨member, _⟩ := requireObject_own targets required
          obtain ⟨isObject, own⟩ := mem_ownedBy.mp member
          constructor
          all_goals simp only [handle, Endpoint.claim, passes, handler, required]
          · intro other same
            rw [← requireObject_sameOwn same targets, required]
          · intro other same
            rw [← requireObject_sameOwn same targets, required]
            exact removed_sameOwn same own now
          · exact fun row isRow foreign => removed_kept isObject own isRow foreign now
          · exact fun asked apart => removed_usage_other own state apart now
          · simpa using own
  | download query =>
      refine guildScoped_reads (by simp) ?_ (by simp [handle, Endpoint.claim, restPermissionGuard,
        handler])
      intro other same
      simp only [handle, Endpoint.claim, restPermissionGuard, handler]
      exact download_sameOwn authorised same

/-! States that a caller of the guild should not be able to tell apart. -/

theorem sameOwn_catalog {catalog : Catalog}
    (same : (catalog.ownedBy guildId).rows = (state.catalog.ownedBy guildId).rows) :
    SameOwn guildId state { state with catalog } :=
  ⟨same.symm, rfl, fun _ _ => rfl⟩

theorem sameOwn_alone :
    SameOwn guildId state { state with catalog := state.catalog.ownedBy guildId } := by
  apply sameOwn_catalog
  simp [Catalog.ownedBy]

/-- An object of another guild, or of none. -/
def foreignObject (id : JsString) (guildId : Option JsString) (query : ListQuery) :
    StorageObject :=
  { id, guildId, namespace_ := query.namespace_.getD .transcripts, key := [], contentHash := []
    size := 0, contentType := [], filename := none, ownerType := query.ownerType.getD []
    ownerId := [], immutable := true, refCount := 1, deletedAt := none }

theorem exists_beside (catalog : Catalog) (row : StorageObject)
    (fresh : row.id ∉ catalog.rows.map StorageObject.id) :
    ∃ beside : Catalog, beside.rows = catalog.rows ++ [row] := by
  cases created : catalog.create row with
  | some beside => exact ⟨beside, (create_rows created).2⟩
  | none => simp [Catalog.create, fresh] at created

theorem sameOwn_beside {catalog : Catalog} {row : StorageObject}
    (rows : catalog.rows = (state.catalog.ownedBy guildId).rows ++ [row])
    (foreign : row.guildId ≠ some guildId) : SameOwn guildId state { state with catalog } := by
  apply sameOwn_catalog
  simp [Catalog.ownedBy, rows, foreign]

theorem requireObject_alone
    (absent : id ∉ (state.catalog.ownedBy guildId).rows.map StorageObject.id) :
    requireObject (state.catalog.ownedBy guildId) id none = none := by
  rw [requireObject_none]
  refine List.find?_eq_none.mpr fun row member isFound => absent ?_
  simp only [decide_eq_true_eq] at isFound
  exact List.mem_map.mpr ⟨row, member, isFound.1⟩

theorem exists_foreign (state : State) (guildId : JsString) {id : JsString}
    (absent : id ∉ (state.catalog.ownedBy guildId).rows.map StorageObject.id) :
    ∃ (catalog : Catalog) (row : StorageObject), SameOwn guildId state { state with catalog } ∧
      requireObject catalog id none = some row := by
  let row := foreignObject id none
    { namespace_ := none, ownerType := none, page := 1, pageSize := 1 }
  obtain ⟨catalog, rows⟩ := exists_beside (state.catalog.ownedBy guildId) row absent
  have member : row ∈ catalog.rows := by simp [rows]
  refine ⟨catalog, row, sameOwn_beside rows (by simp [row, foreignObject]), ?_⟩
  rw [requireObject_none]
  exact findById_of_mem member rfl

theorem list_alone (state : State) {asked : JsString} (apart : asked ≠ guildId) (query : ListQuery) :
    ((state.catalog.ownedBy guildId).list asked query).total = 0 := by
  have none : (state.catalog.ownedBy guildId).rows.filter (query.selects asked) = [] := by
    refine List.filter_eq_nil_iff.mpr fun row member selects => apart ?_
    simp only [ListQuery.selects, Bool.and_eq_true, decide_eq_true_eq] at selects
    have ofGuild := (mem_ownedBy.mp member).2
    rw [selects.1.1.2] at ofGuild
    exact Option.some.inj ofGuild
  simp [Catalog.list, none]

theorem exists_listed (state : State) {asked : JsString} (apart : asked ≠ guildId)
    (query : ListQuery) :
    ∃ catalog : Catalog, SameOwn guildId state { state with catalog } ∧
      (catalog.list asked query).total = 1 := by
  obtain ⟨id, fresh⟩ := Infinite.exists_notMem_finset
    ((state.catalog.ownedBy guildId).rows.map StorageObject.id).toFinset
  rw [List.mem_toFinset] at fresh
  obtain ⟨catalog, rows⟩ := exists_beside (state.catalog.ownedBy guildId)
    (foreignObject id (some asked) query) fresh
  refine ⟨catalog, sameOwn_beside rows (by simpa [foreignObject] using apart), ?_⟩
  have alone := list_alone state apart query
  have selected : query.selects asked (foreignObject id (some asked) query) = true := by
    obtain ⟨namespace_, ownerType, page, pageSize⟩ := query
    cases namespace_ <;> cases ownerType <;>
      simp [ListQuery.selects, foreignObject, StorageObject.isLive]
  simp only [Catalog.list] at alone ⊢
  rw [rows, List.filter_append, List.length_append, alone]
  simp [selected]

theorem targets_of_guildScoped {endpoint : Endpoint}
    (authorised : Authorised backend user now state endpoint)
    (confined : GuildScoped backend user now state endpoint) :
    TargetsOwn user.guildId state endpoint := by
  cases endpoint with
  | usage asked =>
      have passes : restPermissionGuard backend (some user) (some (js "storage.read")) = none :=
        authorised
      by_contra apart
      let usage := state.usage.set asked
        { usedBytes := usedBytes state.usage asked + 1, objectCount := 0 }
      have sameUsage : state.usage user.guildId = usage user.guildId :=
        (Record.set_other _ _ (Ne.symm apart)).symm
      have same := confined.responds { state with usage } ⟨rfl, sameUsage, fun _ _ => rfl⟩
      simp only [handle, Endpoint.claim, passes, handler, Response.usage.injEq, usageOf,
        StorageUsageSummary.mk.injEq] at same
      have more : usedBytes usage asked = usedBytes state.usage asked + 1 := by
        simp [usage, usedBytes]
      omega
  | listObjects asked query =>
      have passes : restPermissionGuard backend (some user) (some (js "storage.read")) = none :=
        authorised
      cases query with
      | none => exact Or.inr rfl
      | some query =>
          refine Or.inl ?_
          by_contra apart
          obtain ⟨catalog, same, listed⟩ := exists_listed state apart query
          have first := confined.responds _ sameOwn_alone
          have second := confined.responds _ same
          simp only [handle, Endpoint.claim, passes, handler, Response.objects.injEq]
            at first second
          have total := congrArg ObjectPage.total (first.symm.trans second)
          rw [list_alone _ apart, listed] at total
          omega
  | signedUrl id =>
      have passes : restPermissionGuard backend (some user) (some (js "storage.read")) = none :=
        authorised
      by_contra absent
      obtain ⟨catalog, row, same, found⟩ := exists_foreign state user.guildId absent
      have first := confined.responds _ sameOwn_alone
      have second := confined.responds _ same
      have differs := first.symm.trans second
      simp [handle, Endpoint.claim, passes, handler, requireObject_alone absent, found] at differs
  | remove id =>
      have passes : restPermissionGuard backend (some user) (some (js "storage.delete")) = none :=
        authorised
      by_contra absent
      obtain ⟨catalog, row, same, found⟩ := exists_foreign state user.guildId absent
      have first := confined.responds _ sameOwn_alone
      have second := confined.responds _ same
      have differs := first.symm.trans second
      simp [handle, Endpoint.claim, passes, handler, requireObject_alone absent, found] at differs
  | download query => trivial

/-- A request of a guild's caller is confined to the guild exactly when its path is. -/
theorem guildScoped_iff {endpoint : Endpoint}
    (authorised : Authorised backend user now state endpoint) :
    GuildScoped backend user now state endpoint ↔ TargetsOwn user.guildId state endpoint :=
  ⟨targets_of_guildScoped authorised, guildScoped_of_targets authorised⟩

/-! Two guilds with a stored object each, and an owner of the first. -/

def storedObject (id guildId : JsString) : StorageObject :=
  newObject noQuota (transcript (some guildId) []) id

def twoGuilds : State :=
  { State.start with
    catalog :=
      { rows := [storedObject (js "a") (js "g"), storedObject (js "b") (js "h")]
        distinct := by decide } }

def ownerOf (guildId : JsString) : PermissionActor :=
  { userId := js "7", guildId, discordRoleIds := [], isGuildOwner := true }

def localBackend : Backend :=
  { config := noQuota
    signGetUrl := fun key _ now => { url := key, method := js "GET", expiresAt := now }
    verifySignature := fun _ _ _ _ => false
    botOwnerIds := []
    permissions := Permissions.mappedGuild }

theorem guildScoped_removal :
    GuildScoped localBackend (ownerOf (js "g")) 0 twoGuilds (.remove (js "a")) :=
  (guildScoped_iff (by unfold Authorised; decide +kernel)).mpr
    (by unfold TargetsOwn; decide +kernel)

/-- The owner of one guild deletes the object of another. -/
theorem foreign_object_removed :
    ¬ ∀ (backend : Backend) (user : PermissionActor) (now : Timestamp) (state : State)
      (endpoint : Endpoint), Authorised backend user now state endpoint →
      GuildScoped backend user now state endpoint := by
  intro all
  have confined := all localBackend (ownerOf (js "g")) 0 twoGuilds (.remove (js "b"))
    (by unfold Authorised; decide +kernel)
  have foreign := confined.touched (storedObject (js "b") (js "h")) (by decide +kernel)
  exact absurd foreign (by decide)

end Storage
