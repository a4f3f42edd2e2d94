import ArmstrongBot.Storage.Service
import Mathlib.Data.Set.Function

/-! Sequences of whole calls of `store` and `delete`: the references to an object, counted by what
the callers did. -/

namespace Storage

open JsText StepMachine
open Calendar (Timestamp)

/-- Bodies of which no two have the same hash, such as a single one. -/
structure Contents (contentHash : ContentHash) where
  bodies : Set Bytes
  apart : Set.InjOn contentHash.sha256Hex bodies

section

variable (config : StorageConfig)

def settle : Nat → State → Call → Input → State × Call
  | 0, state, call, _ => (state, call)
  | steps + 1, state, call, input =>
      match advance config state call input with
      | some (next, later) => settle steps next later input
      | none => (state, call)

/-- A whole call; `store` has the most steps, five. -/
def perform (state : State) (request : Request) (input : Input) : State × Call :=
  settle config 5 state request.call input

/-- What the callers did: the bodies they stored under the ids they got, and the objects they
asked to delete. -/
structure Ledger where
  state : State
  stores : List (JsString × Bytes)
  deletes : List JsString

def Ledger.start : Ledger := { state := .start, stores := [], deletes := [] }

def Ledger.storesOf (ledger : Ledger) (id : JsString) : Nat :=
  (ledger.stores.map Prod.fst).count id

def Ledger.deletesOf (ledger : Ledger) (id : JsString) : Nat := ledger.deletes.count id

inductive Operation (contents : Contents config.contentHash)
  | store (params : StoreParams) (member : params.body ∈ contents.bodies) (id : JsString)
      (now : Timestamp)
  | delete (id : JsString) (guildId : Option (Option JsString)) (now : Timestamp)

variable {config} in
/-- A delete counts for the object it names if there is one, live or not, that its scope admits. -/
def operate {contents : Contents config.contentHash} (ledger : Ledger) :
    Operation config contents → Option Ledger
  | .store params _ id now =>
      match perform config ledger.state (.store params) { id, now, fails := false } with
      | (state, .stored _ storedId) =>
          some { ledger with state, stores := ledger.stores ++ [(storedId, params.body)] }
      | (state, _) => some { ledger with state }
  | .delete id guildId now =>
      let state := (perform config ledger.state (.delete id guildId)
        { id := [], now, fails := false }).1
      if ledger.state.catalog.rows.any fun row => row.id = id ∧ inScope guildId row then
        some { ledger with state, deletes := ledger.deletes ++ [id] }
      else some { ledger with state }

end

/-- The object has the bytes, and the key that is signed for a download names them. -/
def Retrievable (state : State) (id : JsString) (body : Bytes) : Prop :=
  getBuffer state id = some body ∧
    (signDownloadUrl (fun key _ => key) state id).bind state.blobs = some body

/-- An object is retrievable while it was stored more often than deleted, and otherwise garbage. -/
def Counted (ledger : Ledger) : Prop :=
  ∀ stored ∈ ledger.stores,
    (ledger.deletesOf stored.1 < ledger.storesOf stored.1 →
      Retrievable ledger.state stored.1 stored.2) ∧
    ∃ row ∈ ledger.state.catalog.rows, row.id = stored.1 ∧
      (row.isGarbage = true ↔ ledger.storesOf stored.1 ≤ ledger.deletesOf stored.1)

/-- A delete finds a live object with a single reference. -/
def SingleReference {config : StorageConfig} {contents : Contents config.contentHash}
    (ledger : Ledger) : Operation config contents → Prop
  | .delete id guildId _ =>
      ∀ object ∈ requireObject ledger.state.catalog id guildId, object.refCount ≤ 1
  | .store _ _ _ _ => True

/-! What a whole call does. -/

section

variable {config : StorageConfig} {state : State} {input : Input}

theorem settle_next {call later : Call} {next : State} {steps : Nat}
    (advanced : advance config state call input = some (next, later)) :
    settle config (steps + 1) state call input = settle config steps next later input := by
  simp [settle, advanced]

theorem settle_done {call : Call} {steps : Nat} (ended : advance config state call input = none) :
    settle config steps state call input = (state, call) := by
  cases steps with
  | zero => rfl
  | succ steps => simp [settle, ended]

/-- A call of `store` is refused, takes a reference to an object with these bytes, or inserts a
fresh one. -/
theorem perform_store (works : input.fails = false) (params : StoreParams) :
    (∃ blobs, (blobs = state.blobs ∨ blobs = state.blobs.set (keyOf config params) params.body) ∧
      perform config state (.store params) input = ({ state with blobs }, .failed)) ∨
    (∃ existing, state.catalog.findByHash params.guildId params.namespace_ (hashOf config params) =
        some existing ∧
      perform config state (.store params) input =
        ({ state with catalog := state.catalog.incrementRefCount existing.id },
          .stored params existing.id)) ∨
    ∃ catalog, state.catalog.create (newObject config params input.id) = some catalog ∧
      perform config state (.store params) input =
        (account { state with catalog, blobs := state.blobs.set (keyOf config params) params.body }
          params.guildId params.body.length 1, .stored params input.id) := by
  have begun : advance config state (.checkingQuota params) input = some (state, .failed) ∨
      advance config state (.checkingQuota params) input = some (state, .findingHash params) := by
    simp only [advance, works, Bool.false_eq_true, if_false]
    split
    · exact Or.inr rfl
    · split
      · exact Or.inr rfl
      · exact Or.inl rfl
  unfold perform Request.call
  rcases begun with refused | admitted
  · refine Or.inl ⟨state.blobs, Or.inl rfl, ?_⟩
    rw [settle_next refused, settle_done (by simp [advance])]
  · rw [settle_next admitted]
    cases found : state.catalog.findByHash params.guildId params.namespace_
        (hashOf config params) with
    | some existing =>
        refine Or.inr (Or.inl ⟨existing, rfl, ?_⟩)
        simp [settle, advance, works, found]
    | none =>
        cases created : state.catalog.create (newObject config params input.id) with
        | none =>
            refine Or.inl ⟨_, Or.inr rfl, ?_⟩
            simp [settle, advance, works, found, created]
        | some catalog =>
            refine Or.inr (Or.inr ⟨catalog, rfl, ?_⟩)
            simp [settle, advance, works, found, created]

/-- A call of `delete` soft-deletes the object it finds and releases one reference. -/
theorem perform_delete (works : input.fails = false) (id : JsString)
    (guildId : Option (Option JsString)) :
    perform config state (.delete id guildId) input =
      match requireObject state.catalog id guildId with
      | none => (state, .failed)
      | some object =>
          (account
            { state with
              catalog := (state.catalog.softDelete object.id input.now).decrementRefCount object.id }
            object.guildId (-object.size) (-1), .deleted object) := by
  unfold perform Request.call
  cases required : requireObject state.catalog id guildId with
  | none => simp [settle, advance, works, required]
  | some object => simp [settle, advance, works, required]

end

/-! What holds of every row. -/

section

variable {config : StorageConfig} {contents : Contents config.contentHash}

/-- The row's key is made of its hash and names bytes with that hash. -/
def HasBytes (contents : Contents config.contentHash) (blobs : Record Bytes)
    (row : StorageObject) : Prop :=
  ∃ body ∈ contents.bodies, row.contentHash = config.contentHash.sha256Hex body ∧
    row.key = buildObjectKey row.guildId row.namespace_ row.contentHash ∧
    blobs row.key = some body

/-- The references to a live row are the stores of it, and a dead one has none left. -/
def Balanced (ledger : Ledger) (row : StorageObject) : Prop :=
  (row.isLive = true → row.refCount = ledger.storesOf row.id ∧ ledger.deletesOf row.id = 0 ∧
    1 ≤ ledger.storesOf row.id) ∧
  (row.isLive = false → row.refCount ≤ 0 ∧ ledger.storesOf row.id ≤ ledger.deletesOf row.id)

structure Tracked (contents : Contents config.contentHash) (ledger : Ledger) : Prop where
  hasBytes : ∀ row ∈ ledger.state.catalog.rows, HasBytes contents ledger.state.blobs row
  balanced : ∀ row ∈ ledger.state.catalog.rows, Balanced ledger row
  stored : ∀ stored ∈ ledger.stores, stored.2 ∈ contents.bodies ∧
    ∃ row ∈ ledger.state.catalog.rows, row.id = stored.1 ∧
      row.contentHash = config.contentHash.sha256Hex stored.2
  deleted : ∀ id ∈ ledger.deletes, ∃ row ∈ ledger.state.catalog.rows, row.id = id

theorem tracked_start : Tracked contents Ledger.start := by
  constructor <;> simp [Ledger.start, State.start, Catalog.empty]

theorem requireObject_of_mem {catalog : Catalog} {row : StorageObject} (member : row ∈ catalog.rows)
    (live : row.isLive = true) {guildId : Option (Option JsString)}
    (admits : inScope guildId row = true) : requireObject catalog row.id guildId = some row := by
  rw [requireObject, findById_of_mem member live, Option.filter_some, if_pos admits]

theorem Tracked.counted {ledger : Ledger} (tracked : Tracked contents ledger) : Counted ledger := by
  intro stored storedMember
  obtain ⟨known, row, member, isStored, sameHash⟩ := tracked.stored stored storedMember
  have balanced := tracked.balanced row member
  rw [Balanced, isStored] at balanced
  cases isLive : row.isLive with
  | true =>
      obtain ⟨_, undeleted, positive⟩ := balanced.1 isLive
      refine ⟨fun _ => ?_, row, member, isStored, ?_⟩
      · obtain ⟨body, bodyKnown, hash, _, held⟩ := tracked.hasBytes row member
        obtain rfl : body = stored.2 := contents.apart bodyKnown known (hash.symm.trans sameHash)
        have found : requireObject ledger.state.catalog stored.1 none = some row := by
          rw [← isStored]
          exact requireObject_of_mem member isLive rfl
        constructor
        · rw [getBuffer, found, Option.bind_some, held]
        · rw [signDownloadUrl, found, Option.map_some, Option.bind_some, held]
      · simp only [StorageObject.isGarbage, isLive, Bool.not_true, Bool.false_and,
          Bool.false_eq_true, false_iff]
        omega
  | false =>
      obtain ⟨released, exhausted⟩ := balanced.2 isLive
      refine ⟨fun remaining => by omega, row, member, isStored, ?_⟩
      simp [StorageObject.isGarbage, isLive, released, exhausted]

/-- A body under its own key displaces no other bytes. -/
theorem hasBytes_put {blobs : Record Bytes} {row : StorageObject}
    (hasBytes : HasBytes contents blobs row) {params : StoreParams}
    (member : params.body ∈ contents.bodies) :
    HasBytes contents (blobs.set (keyOf config params) params.body) row := by
  obtain ⟨body, bodyKnown, hash, key, held⟩ := hasBytes
  refine ⟨body, bodyKnown, hash, key, ?_⟩
  by_cases same : row.key = keyOf config params
  · rw [key, hash] at same
    rw [key, hash, same, Record.set_same,
      contents.apart member bodyKnown (buildObjectKey_hash same).symm]
  · rw [Record.set_other _ _ same, held]

theorem hasBytes_new (blobs : Record Bytes) {params : StoreParams}
    (member : params.body ∈ contents.bodies) (id : JsString) :
    HasBytes contents (blobs.set (keyOf config params) params.body)
      (newObject config params id) :=
  ⟨params.body, member, rfl, rfl, Record.set_same _ _ _⟩

theorem account_frame (state : State) (guildId : Option JsString) (bytesDelta countDelta : Int) :
    (account state guildId bytesDelta countDelta).catalog = state.catalog ∧
      (account state guildId bytesDelta countDelta).blobs = state.blobs := by
  unfold account
  split <;> exact ⟨rfl, rfl⟩

theorem storesOf_append (ledger : Ledger) (state : State) (id other : JsString) (body : Bytes) :
    ({ ledger with state, stores := ledger.stores ++ [(id, body)] } : Ledger).storesOf other =
      ledger.storesOf other + if id = other then 1 else 0 := by
  simp [Ledger.storesOf, List.count_singleton]

theorem deletesOf_append (ledger : Ledger) (state : State) (id other : JsString) :
    ({ ledger with state, deletes := ledger.deletes ++ [id] } : Ledger).deletesOf other =
      ledger.deletesOf other + if id = other then 1 else 0 := by
  simp [Ledger.deletesOf, List.count_singleton]

/-- An operation that changes what is counted of one row only. -/
theorem tracked_update {ledger next : Ledger} (tracked : Tracked contents ledger) {id : JsString}
    (change : StorageObject → StorageObject) (sameId : ∀ row, (change row).id = row.id)
    (catalog : next.state.catalog = ledger.state.catalog.update id change sameId)
    (blobs : next.state.blobs = ledger.state.blobs)
    (sameBytes : ∀ row, HasBytes contents ledger.state.blobs row →
      HasBytes contents ledger.state.blobs (change row) ∧ (change row).contentHash = row.contentHash)
    (others : ∀ other, other ≠ id → next.storesOf other = ledger.storesOf other ∧
      next.deletesOf other = ledger.deletesOf other)
    (balanced : ∀ row ∈ ledger.state.catalog.rows, row.id = id → Balanced next (change row))
    (stored : ∀ stored ∈ next.stores, stored ∈ ledger.stores ∨ stored.2 ∈ contents.bodies ∧
      ∃ row ∈ ledger.state.catalog.rows, row.id = stored.1 ∧
        row.contentHash = config.contentHash.sha256Hex stored.2)
    (deleted : ∀ asked ∈ next.deletes, asked ∈ ledger.deletes ∨
      ∃ row ∈ ledger.state.catalog.rows, row.id = asked) :
    Tracked contents next := by
  have persists (row : StorageObject) (member : row ∈ ledger.state.catalog.rows) :
      ∃ after ∈ next.state.catalog.rows, after.id = row.id ∧
        after.contentHash = row.contentHash := by
    rw [catalog]
    by_cases isId : row.id = id
    · exact ⟨change row, mem_update_of_eq change sameId member isId, sameId row,
        (sameBytes row (tracked.hasBytes row member)).2⟩
    · exact ⟨row, mem_update_of_ne change sameId member isId, rfl, rfl⟩
  refine ⟨?_, ?_, ?_, ?_⟩
  · intro row member
    rw [catalog] at member
    rw [blobs]
    rcases mem_update sameId member with ⟨before, _⟩ | ⟨row, before, _, rfl⟩
    · exact tracked.hasBytes row before
    · exact (sameBytes row (tracked.hasBytes row before)).1
  · intro row member
    rw [catalog] at member
    rcases mem_update sameId member with ⟨before, isOther⟩ | ⟨row, before, isId, rfl⟩
    · obtain ⟨sameStores, sameDeletes⟩ := others row.id isOther
      rw [Balanced, sameStores, sameDeletes]
      exact tracked.balanced row before
    · exact balanced row before isId
  · intro stored_ member
    have known : stored_.2 ∈ contents.bodies ∧ ∃ row ∈ ledger.state.catalog.rows,
        row.id = stored_.1 ∧ row.contentHash = config.contentHash.sha256Hex stored_.2 := by
      rcases stored stored_ member with earlier | fresh
      · exact tracked.stored stored_ earlier
      · exact fresh
    obtain ⟨isKnown, row, rowMember, isStored, hash⟩ := known
    obtain ⟨after, afterMember, sameRow, sameHash⟩ := persists row rowMember
    exact ⟨isKnown, after, afterMember, sameRow.trans isStored, sameHash.trans hash⟩
  · intro asked member
    have known : ∃ row ∈ ledger.state.catalog.rows, row.id = asked := by
      rcases deleted asked member with earlier | fresh
      · exact tracked.deleted asked earlier
      · exact fresh
    obtain ⟨row, rowMember, isAsked⟩ := known
    obtain ⟨after, afterMember, sameRow, _⟩ := persists row rowMember
    exact ⟨after, afterMember, sameRow.trans isAsked⟩

theorem tracked_deduped {ledger : Ledger} (tracked : Tracked contents ledger) {params : StoreParams}
    (known : params.body ∈ contents.bodies) {existing : StorageObject}
    (found : ledger.state.catalog.findByHash params.guildId params.namespace_
      (hashOf config params) = some existing) :
    Tracked contents
      { ledger with
        state :=
          { ledger.state with catalog := ledger.state.catalog.incrementRefCount existing.id }
        stores := ledger.stores ++ [(existing.id, params.body)] } := by
  obtain ⟨existingMember, _, _, sameHash, isLive⟩ := findByHash_some found
  refine tracked_update tracked .withReference
    (fun _ => rfl) rfl rfl (fun row hasBytes => ⟨hasBytes, rfl⟩) ?_ ?_ ?_ (fun _ => Or.inl)
  · intro other isOther
    rw [storesOf_append, if_neg (Ne.symm isOther)]
    exact ⟨rfl, rfl⟩
  · intro row member isId
    obtain rfl := Catalog.eq_of_id member existingMember isId
    obtain ⟨counted, undeleted, positive⟩ := (tracked.balanced row member).1 isLive
    refine ⟨fun _ => ?_, fun dead => absurd isLive (by rw [show row.isLive = false from dead]; simp)⟩
    rw [storesOf_append, show row.withReference.id = row.id from rfl, if_pos rfl]
    have recounted : row.refCount + 1 = (ledger.storesOf row.id + 1 : Nat) := by omega
    exact ⟨recounted, undeleted, by omega⟩
  · intro stored member
    rcases List.mem_append.mp member with earlier | fresh
    · exact Or.inl earlier
    · obtain rfl := List.mem_singleton.mp fresh
      exact Or.inr ⟨known, existing, existingMember, rfl, sameHash⟩

theorem tracked_created {ledger next : Ledger} (tracked : Tracked contents ledger)
    {params : StoreParams} (known : params.body ∈ contents.bodies) {id : JsString}
    {catalog : Catalog}
    (created : ledger.state.catalog.create (newObject config params id) = some catalog)
    (sameCatalog : next.state.catalog = catalog)
    (blobs : next.state.blobs = ledger.state.blobs.set (keyOf config params) params.body)
    (stores : next.stores = ledger.stores ++ [(id, params.body)])
    (deletes : next.deletes = ledger.deletes) :
    Tracked contents next := by
  obtain ⟨fresh, rows⟩ := create_rows created
  rw [← sameCatalog] at rows
  have isFresh (row : StorageObject) (member : row ∈ ledger.state.catalog.rows) : row.id ≠ id :=
    fun same => fresh (List.mem_map.mpr ⟨row, member, same⟩)
  have persists {row : StorageObject} (member : row ∈ ledger.state.catalog.rows) :
      row ∈ next.state.catalog.rows := by
    rw [rows]
    exact List.mem_append_left _ member
  have storesOf (other : JsString) :
      next.storesOf other = ledger.storesOf other + if id = other then 1 else 0 := by
    simp [Ledger.storesOf, stores, List.count_singleton]
  have deletesOf (other : JsString) : next.deletesOf other = ledger.deletesOf other := by
    rw [Ledger.deletesOf, deletes, Ledger.deletesOf]
  have unstored : ledger.storesOf id = 0 := by
    refine List.count_eq_zero.mpr ?_
    intro member
    obtain ⟨stored, storedMember, isStored⟩ := List.mem_map.mp member
    obtain ⟨_, row, rowMember, isRow, _⟩ := tracked.stored stored storedMember
    exact isFresh row rowMember (isRow.trans isStored)
  have undeleted : ledger.deletesOf id = 0 := by
    refine List.count_eq_zero.mpr ?_
    intro member
    obtain ⟨row, rowMember, isRow⟩ := tracked.deleted id member
    exact isFresh row rowMember isRow
  refine ⟨?_, ?_, ?_, ?_⟩
  · intro row member
    rw [rows] at member
    rw [blobs]
    rcases List.mem_append.mp member with earlier | isNew
    · exact hasBytes_put (tracked.hasBytes row earlier) known
    · rw [List.mem_singleton.mp isNew]
      exact hasBytes_new _ known id
  · intro row member
    rw [rows] at member
    rcases List.mem_append.mp member with earlier | isNew
    · rw [Balanced, storesOf, deletesOf, if_neg (isFresh row earlier).symm]
      exact tracked.balanced row earlier
    · rw [List.mem_singleton.mp isNew, Balanced, storesOf, deletesOf]
      simp [newObject, StorageObject.isLive, unstored, undeleted]
  · intro stored member
    rw [stores] at member
    rcases List.mem_append.mp member with earlier | isNew
    · obtain ⟨isKnown, row, rowMember, isStored, hash⟩ := tracked.stored stored earlier
      exact ⟨isKnown, row, persists rowMember, isStored, hash⟩
    · rw [List.mem_singleton.mp isNew]
      refine ⟨known, newObject config params id, ?_, rfl, rfl⟩
      rw [rows]
      exact List.mem_append_right _ (List.mem_singleton_self _)
  · intro asked member
    rw [deletes] at member
    obtain ⟨row, rowMember, isAsked⟩ := tracked.deleted asked member
    exact ⟨row, persists rowMember, isAsked⟩

theorem tracked_deleted {ledger next : Ledger} (tracked : Tracked contents ledger)
    {object : StorageObject} {now : Timestamp} (member : object ∈ ledger.state.catalog.rows)
    (isLive : object.isLive = true) (single : object.refCount ≤ 1)
    (catalog : next.state.catalog =
      (ledger.state.catalog.softDelete object.id now).decrementRefCount object.id)
    (blobs : next.state.blobs = ledger.state.blobs) (stores : next.stores = ledger.stores)
    (deletes : next.deletes = ledger.deletes ++ [object.id]) :
    Tracked contents next := by
  have storesOf (other : JsString) : next.storesOf other = ledger.storesOf other := by
    rw [Ledger.storesOf, stores, Ledger.storesOf]
  have deletesOf (other : JsString) :
      next.deletesOf other = ledger.deletesOf other + if object.id = other then 1 else 0 := by
    simp [Ledger.deletesOf, deletes, List.count_singleton]
  obtain ⟨counted, undeleted, positive⟩ := (tracked.balanced object member).1 isLive
  refine tracked_update tracked _ _ (catalog.trans (softDelete_decrementRefCount _ _ _)) blobs
    (fun row hasBytes => ⟨hasBytes, rfl⟩) ?_ ?_ ?_ ?_
  · intro other isOther
    rw [storesOf, deletesOf, if_neg isOther.symm]
    exact ⟨rfl, rfl⟩
  · intro row rowMember isId
    obtain rfl := Catalog.eq_of_id rowMember member isId
    refine ⟨fun live => (nomatch live), fun _ => ?_⟩
    rw [storesOf, deletesOf, show (row.deleted now).withoutReference.id = row.id from rfl,
      if_pos rfl]
    have released : row.refCount - 1 ≤ 0 := by omega
    have exhausted : ledger.storesOf row.id ≤ ledger.deletesOf row.id + 1 := by omega
    exact ⟨released, exhausted⟩
  · intro stored storedMember
    rw [stores] at storedMember
    exact Or.inl storedMember
  · intro asked askedMember
    rw [deletes] at askedMember
    rcases List.mem_append.mp askedMember with earlier | isNew
    · exact Or.inl earlier
    · exact Or.inr ⟨object, member, (List.mem_singleton.mp isNew).symm⟩

theorem tracked_missed {ledger : Ledger} (tracked : Tracked contents ledger)
    {object : StorageObject} (member : object ∈ ledger.state.catalog.rows)
    (isDead : object.isLive = false) :
    Tracked contents { ledger with deletes := ledger.deletes ++ [object.id] } := by
  refine { tracked with balanced := ?_, deleted := ?_ }
  · intro row rowMember
    obtain ⟨live, dead⟩ := tracked.balanced row rowMember
    rw [Balanced, deletesOf_append]
    by_cases same : object.id = row.id
    · obtain rfl := Catalog.eq_of_id member rowMember same
      refine ⟨fun isLive => absurd isLive (by simp [isDead]), fun _ => ?_⟩
      obtain ⟨released, exhausted⟩ := dead isDead
      exact ⟨released, exhausted.trans (Nat.le_add_right _ _)⟩
    · rw [if_neg same]
      exact ⟨live, dead⟩
  · intro asked askedMember
    rcases List.mem_append.mp askedMember with earlier | isNew
    · exact tracked.deleted asked earlier
    · exact ⟨object, member, (List.mem_singleton.mp isNew).symm⟩

theorem tracked_store {ledger next : Ledger} (tracked : Tracked contents ledger)
    {params : StoreParams} (known : params.body ∈ contents.bodies) {id : JsString} {now : Timestamp}
    (taken : operate ledger (.store params known id now : Operation config contents) = some next) :
    Tracked contents next := by
  simp only [operate] at taken
  have works : ({ id, now, fails := false } : Input).fails = false := rfl
  rcases @perform_store config ledger.state _ works params with
    ⟨blobs, isBlobs, performed⟩ | ⟨existing, found, performed⟩ | ⟨catalog, created, performed⟩
  all_goals
    rw [performed] at taken
    obtain rfl := Option.some.inj taken
  · rcases isBlobs with rfl | rfl
    · exact ⟨tracked.hasBytes, tracked.balanced, tracked.stored, tracked.deleted⟩
    · exact ⟨fun row member => hasBytes_put (tracked.hasBytes row member) known, tracked.balanced,
        tracked.stored, tracked.deleted⟩
  · exact tracked_deduped tracked known found
  · obtain ⟨sameCatalog, sameBlobs⟩ := account_frame
      { ledger.state with
        catalog, blobs := ledger.state.blobs.set (keyOf config params) params.body }
      params.guildId params.body.length 1
    exact tracked_created tracked known created sameCatalog sameBlobs rfl rfl

theorem operate_delete {ledger : Ledger} {id : JsString} {guildId : Option (Option JsString)}
    {object : StorageObject} (now : Timestamp)
    (required : requireObject ledger.state.catalog id guildId = some object) :
    operate ledger (.delete id guildId now : Operation config contents) =
      some
        { ledger with
          state := account
            { ledger.state with
              catalog := (ledger.state.catalog.softDelete object.id now).decrementRefCount object.id }
            object.guildId (-object.size) (-1)
          deletes := ledger.deletes ++ [object.id] } := by
  obtain ⟨member, rfl, _, admits⟩ := requireObject_some required
  have named : (ledger.state.catalog.rows.any fun row =>
      decide (row.id = object.id ∧ inScope guildId row = true)) = true :=
    List.any_eq_true.mpr ⟨object, member, decide_eq_true ⟨rfl, admits⟩⟩
  simp only [operate, perform_delete, required, named, if_true]

theorem tracked_delete {ledger next : Ledger} (tracked : Tracked contents ledger) {id : JsString}
    {guildId : Option (Option JsString)} {now : Timestamp}
    (single : SingleReference ledger (.delete id guildId now : Operation config contents))
    (taken : operate ledger (.delete id guildId now : Operation config contents) = some next) :
    Tracked contents next := by
  cases required : requireObject ledger.state.catalog id guildId with
  | none =>
      simp only [operate, perform_delete, required] at taken
      split at taken <;> obtain rfl := Option.some.inj taken
      · rename_i named
        obtain ⟨object, member, isObject⟩ := List.any_eq_true.mp named
        obtain ⟨rfl, admits⟩ := of_decide_eq_true isObject
        refine tracked_missed tracked member ?_
        cases isLive : object.isLive with
        | false => rfl
        | true =>
            rw [requireObject_of_mem member isLive admits] at required
            cases required
      · exact tracked
  | some object =>
      obtain ⟨member, _, isLive, _⟩ := requireObject_some required
      rw [operate_delete now required] at taken
      obtain rfl := Option.some.inj taken
      obtain ⟨sameCatalog, sameBlobs⟩ := account_frame
        { ledger.state with
          catalog := (ledger.state.catalog.softDelete object.id now).decrementRefCount object.id }
        object.guildId (-object.size) (-1)
      exact tracked_deleted tracked member isLive (single object required) sameCatalog sameBlobs rfl
        rfl

/-- After a delete of a live object nobody can retrieve it. -/
theorem single_of_counted {ledger next : Ledger} (tracked : Tracked contents ledger)
    {operation : Operation config contents} (taken : operate ledger operation = some next)
    (counted : Counted next) : SingleReference ledger operation := by
  cases operation with
  | store params known id now => trivial
  | delete id guildId now =>
      intro object required
      obtain ⟨member, _, isLive, _⟩ := requireObject_some required
      rw [operate_delete now required] at taken
      obtain rfl := Option.some.inj taken
      obtain ⟨references, undeleted, positive⟩ := (tracked.balanced object member).1 isLive
      obtain ⟨stored, storedMember, isStored⟩ := List.mem_map.mp (List.count_pos_iff.mp positive)
      by_contra several
      have remaining : ledger.deletesOf object.id + 1 < ledger.storesOf object.id := by omega
      have retrievable := (counted stored storedMember).1
      rw [isStored, deletesOf_append, if_pos rfl] at retrievable
      obtain ⟨found, isFound, _⟩ := Option.bind_eq_some_iff.mp (retrievable remaining).1
      obtain ⟨foundMember, sameId, foundLive, _⟩ := requireObject_some isFound
      rw [(account_frame _ _ _ _).1] at foundMember
      rw [deleted_isLive foundMember sameId] at foundLive
      cases foundLive

variable (config contents)

/-- Whole runs of stores and deletes count references right exactly when every delete of a live
object finds a single one. -/
theorem counted_always_iff (operations : List (Operation config contents)) :
    Always operate Counted .start operations ↔
      Guarded operate SingleReference .start operations := by
  refine always_iff_guarded operate (fun ledger (tracked : Tracked contents ledger) =>
    tracked.counted) ?_ (fun ledger operation next tracked taken counted =>
      single_of_counted tracked taken counted) tracked_start operations
  intro ledger operation next tracked single taken
  cases operation with
  | store params known id now => exact tracked_store tracked known taken
  | delete id guildId now => exact tracked_delete tracked single taken

end

/-! Bytes that are stored twice and deleted once. -/

def Contents.single (contentHash : ContentHash) (body : Bytes) : Contents contentHash :=
  { bodies := {body}, apart := Set.injOn_singleton _ _ }

def storing (id : JsString) : Operation noQuota (.single constantHash [1]) :=
  .store (transcript (some (js "g")) [1]) rfl id 0

/-- Whether each object that has been stored more often than deleted has its bytes. -/
def hasRemaining (ledger : Ledger) : Bool :=
  ledger.stores.all fun stored =>
    !(ledger.deletesOf stored.1 < ledger.storesOf stored.1 &&
      getBuffer ledger.state stored.1 ≠ some stored.2)

theorem hasRemaining_of_counted {ledger : Ledger} (counted : Counted ledger) :
    hasRemaining ledger = true := by
  refine List.all_eq_true.mpr fun stored member => ?_
  by_cases remaining : ledger.deletesOf stored.1 < ledger.storesOf stored.1
  · simp [((counted stored member).1 remaining).1]
  · simp [remaining]

/-- The first delete buries the row whatever its count. -/
theorem first_delete_loses_bytes :
    ¬ ∀ (config : StorageConfig) (contents : Contents config.contentHash)
      (operations : List (Operation config contents)),
      Always operate Counted .start operations := by
  intro all
  refine not_always operate hasRemaining (fun _ => hasRemaining_of_counted) ?_
    (all noQuota (.single constantHash [1])
      [storing (js "a"), storing (js "b"), .delete (js "a") none 0])
  decide +kernel

end Storage
