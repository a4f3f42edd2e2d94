import ArmstrongBot.Api.KeyScopes
import ArmstrongBot.Security.Encryption
import Mathlib.Data.List.Sort

/-! `ApiKeyService` from await to await: keys that are created, revoked, run out, and are presented,
in any order. -/

namespace Api

open Calendar (Timestamp)
open JsText StepMachine
open Encryption (Crypto)

/-- `randomBytes(24)` behind the mark of the keys. -/
def rawKeyOf (bytes : List UInt8) : JsString := js "ghk_" ++ Base64Url.encode bytes

def ApiKeys.findByGuild (keys : ApiKeys) (guildId : JsString) : List ApiKeyRecord :=
  ((keys.rows.filter fun row => row.guildId = some guildId ∧ row.revokedAt = none).insertionSort
    fun first second => second.createdAt ≤ first.createdAt).map toRecord

/-- A key whose `create` has returned, with what its caller was shown once. -/
structure Issued where
  id : JsString
  rawKey : JsString
  deriving DecidableEq

inductive AuthPhase
  | looking
  | verifying (left : List ApiKeyRecord)
  | touching (candidate : ApiKeyRecord)
  | answered (record : Option ApiKeyRecord)
  | threw
  deriving DecidableEq

/-- A call of `authenticate`, with what had been issued and revoked when it started. -/
structure Authentication where
  rawKey : JsString
  startedAt : Timestamp
  issued : List Issued
  revoked : List JsString
  phase : AuthPhase
  deriving DecidableEq

/-- The handlers that revoke list the keys of the guild first. -/
inductive RevokePhase
  | listing
  | updating
  | returned
  | notFound
  | threw
  deriving DecidableEq

structure Revocation where
  guildId : JsString
  id : JsString
  phase : RevokePhase
  deriving DecidableEq

structure KeyState where
  keys : ApiKeys
  now : Timestamp
  issued : List Issued
  revoked : List JsString
  authentications : List Authentication
  revocations : List Revocation

def KeyState.start (now : Timestamp) : KeyState :=
  { keys := Table.empty, now, issued := [], revoked := [], authentications := []
    revocations := [] }

inductive LifeAction
  | wait (ms : Nat)
  | create (guildId : Option JsString) (dto : CreateApiKeyDto) (id : JsString)
      (bytes salt : List UInt8)
  | authenticate (rawKey : JsString)
  | advance (call : Nat) (fails : Bool)
  | revoke (guildId id : JsString)
  | advanceRevoke (call : Nat) (fails : Bool)

section

variable (crypto : Crypto)

/-- What `authenticate` does up to its next await. -/
def AuthPhase.next (keys : ApiKeys) (now : Timestamp) (rawKey : JsString) (fails : Bool) :
    AuthPhase → Option (ApiKeys × AuthPhase)
  | .looking =>
      some (keys, if fails then .threw
        else .verifying (keys.findActiveByPrefix (rawKey.take prefixLength) now))
  | .verifying [] => some (keys, .answered none)
  | .verifying (candidate :: rest) =>
      some (keys, if Encryption.verify crypto rawKey candidate.hashedKey then .touching candidate
        else .verifying rest)
  | .touching candidate =>
      match if fails then none else keys.touchLastUsed candidate.id now with
      | some touched => some (touched, .answered (some candidate))
      | none => some (keys, .threw)
  | _ => none

def Revocation.next (keys : ApiKeys) (now : Timestamp) (fails : Bool) (call : Revocation) :
    Option (ApiKeys × RevokePhase) :=
  match call.phase with
  | .listing =>
      some (keys, if fails then .threw
        else if (keys.findByGuild call.guildId).any fun key => key.id = call.id then .updating
        else .notFound)
  | .updating =>
      match if fails then none else keys.revoke call.id now with
      | some revoked => some (revoked, .returned)
      | none => some (keys, .threw)
  | _ => none

def lifeStep (state : KeyState) : LifeAction → Option KeyState
  | .wait ms => some { state with now := state.now + ms }
  | .create guildId dto id bytes salt =>
      let rawKey := rawKeyOf bytes
      (state.keys.create guildId dto id rawKey (Encryption.hash crypto rawKey salt) state.now).map
        fun keys => { state with keys, issued := state.issued ++ [{ id, rawKey }] }
  | .authenticate rawKey =>
      some { state with
        authentications := state.authentications ++
          [{ rawKey, startedAt := state.now, issued := state.issued, revoked := state.revoked
             phase := .looking }] }
  | .advance index fails =>
      match state.authentications[index]? with
      | some call =>
          (call.phase.next crypto state.keys state.now call.rawKey fails).map fun next =>
            { state with
              keys := next.1
              authentications := state.authentications.set index { call with phase := next.2 } }
      | none => none
  | .revoke guildId id =>
      some { state with
        revocations := state.revocations ++ [{ guildId, id, phase := .listing }] }
  | .advanceRevoke index fails =>
      match state.revocations[index]? with
      | some call =>
          (call.next state.keys state.now fails).map fun next =>
            { state with
              keys := next.1
              revoked := if next.2 = .returned then state.revoked ++ [call.id] else state.revoked
              revocations := state.revocations.set index { call with phase := next.2 } }
      | none => none

end

/-! What becomes of a row. -/

def ApiKeyRow.Live (row : ApiKeyRow) (now : Timestamp) : Prop :=
  row.revokedAt = none ∧ ∀ expiresAt ∈ row.expiresAt, now < expiresAt

/-- Only the marks of use and of revocation are written, and a revocation is not taken back. -/
structure Later (row later : ApiKeyRow) : Prop where
  same : later = { row with lastUsedAt := later.lastUsedAt, revokedAt := later.revokedAt }
  revoked : row.revokedAt ≠ none → later.revokedAt ≠ none

def Grows (keys next : ApiKeys) : Prop :=
  ∀ id row, keys.find id = some row → ∃ later, next.find id = some later ∧ Later row later

theorem Later.refl (row : ApiKeyRow) : Later row row := ⟨rfl, id⟩

theorem grows_refl (keys : ApiKeys) : Grows keys keys :=
  fun _ row found => ⟨row, found, .refl row⟩

theorem grows_create {keys next : ApiKeys} {guildId : Option JsString} {dto : CreateApiKeyDto}
    {id rawKey hashedKey : JsString} {now : Timestamp}
    (created : keys.create guildId dto id rawKey hashedKey now = some next) : Grows keys next := by
  intro other row found
  refine ⟨row, ?_, .refl row⟩
  rw [Table.find_insert created]
  split
  · rename_i same
    rw [← same, (Table.insert_eq_some_iff.mp created).1] at found
    cases found
  · exact found

theorem grows_revoke {keys next : ApiKeys} {id : JsString} {now : Timestamp}
    (revoked : keys.revoke id now = some next) : Grows keys next := by
  intro other row found
  rw [(Table.find_change revoked).2, found, Option.map_some]
  split
  · exact ⟨row.revoked now, rfl, rfl, by simp [ApiKeyRow.revoked]⟩
  · exact ⟨row, rfl, .refl row⟩

theorem grows_touch {keys next : ApiKeys} {id : JsString} {now : Timestamp}
    (touched : keys.touchLastUsed id now = some next) : Grows keys next := by
  intro other row found
  rw [(Table.find_change touched).2, found, Option.map_some]
  split
  · exact ⟨row.used now, rfl, rfl, fun isRevoked => isRevoked⟩
  · exact ⟨row, rfl, .refl row⟩

theorem Grows.of_mem {keys next : ApiKeys} (grows : Grows keys next) {row : ApiKeyRow}
    (member : row ∈ keys.rows) : ∃ later, next.find row.id = some later ∧ Later row later :=
  grows row.id row (Table.find_key member)

/-! What the calls have read. -/

def AuthPhase.records : AuthPhase → List ApiKeyRecord
  | .verifying left => left
  | .touching candidate | .answered (some candidate) => [candidate]
  | _ => []

def AuthPhase.chosen : AuthPhase → Option ApiKeyRecord
  | .touching candidate => some candidate
  | .answered record => record
  | _ => none

/-- The record is what the row said before it was last marked. -/
def IsRecordOf (record : ApiKeyRecord) (row : ApiKeyRow) : Prop :=
  record = toRecord { row with lastUsedAt := record.lastUsedAt, revokedAt := record.revokedAt }

structure Eligible (keys : ApiKeys) (call : Authentication) (record : ApiKeyRecord) : Prop where
  unrevoked : record.id ∉ call.revoked
  unexpired : ∀ expiresAt ∈ record.expiresAt, call.startedAt < expiresAt
  row : ∃ row, keys.find record.id = some row ∧ IsRecordOf record row

/-- Revoked or run out. -/
def Dead (keys : ApiKeys) (now : Timestamp) (id : JsString) : Prop :=
  ∀ row, keys.find id = some row → ¬ row.Live now

/-- Where a call stands with a key that it presents. -/
def Pending (keys : ApiKeys) (now : Timestamp) (id : JsString) : AuthPhase → Prop
  | .verifying left => (∃ record ∈ left, record.id = id) ∨ Dead keys now id
  | .answered none => Dead keys now id
  | _ => True

variable (crypto : Crypto)

structure CallKept (state : KeyState) (call : Authentication) : Prop where
  clock : call.startedAt ≤ state.now
  revoked : ∀ id ∈ call.revoked, id ∈ state.revoked
  issued : ∀ key ∈ call.issued, key ∈ state.issued
  eligible : ∀ record ∈ call.phase.records, Eligible state.keys call record
  verified : ∀ record, call.phase.chosen = some record →
    Encryption.verify crypto call.rawKey record.hashedKey = true
  pending : ∀ key ∈ call.issued, key.rawKey = call.rawKey →
    Pending state.keys state.now key.id call.phase

/-- The row under which a key was issued. -/
def IssuedAs (key : Issued) (row : ApiKeyRow) : Prop :=
  row.keyPrefix = key.rawKey.take prefixLength ∧
    Encryption.verify crypto key.rawKey row.hashedKey = true

structure KeysKept (state : KeyState) : Prop where
  revoked : ∀ id ∈ state.revoked, ∃ row, state.keys.find id = some row ∧ row.revokedAt ≠ none
  issued : ∀ key ∈ state.issued, ∃ row, state.keys.find key.id = some row ∧ IssuedAs crypto key row
  updating : ∀ call ∈ state.revocations, call.phase = .updating →
    ∃ row, state.keys.find call.id = some row ∧ row.guildId = some call.guildId
  owned : ∀ id row, state.keys.find id = some row → row.revokedAt ≠ none →
    ∃ call ∈ state.revocations, call.id = id ∧ row.guildId = some call.guildId

/-- The invariant of all runs. -/
structure Kept (state : KeyState) : Prop where
  keys : KeysKept crypto state
  calls : ∀ call ∈ state.authentications, CallKept crypto state call

variable {crypto} {state next : KeyState}

theorem kept_start (now : Timestamp) : Kept crypto (.start now) := by
  constructor
  · constructor <;> simp [KeyState.start, Table.find, Table.empty]
  · simp [KeyState.start]

theorem Later.isRecordOf {row later : ApiKeyRow} (isLater : Later row later)
    {record : ApiKeyRecord} (isRecord : IsRecordOf record row) : IsRecordOf record later := by
  rw [IsRecordOf, isLater.same]
  exact isRecord

theorem Later.live {row later : ApiKeyRow} (isLater : Later row later) {before now : Timestamp}
    (passed : before ≤ now) (live : later.Live now) : row.Live before := by
  constructor
  · by_contra isRevoked
    exact isLater.revoked isRevoked live.1
  · intro expiresAt isExpiry
    have sameExpiry : later.expiresAt = row.expiresAt := by rw [isLater.same]
    have future := live.2 expiresAt (by rw [sameExpiry]; exact isExpiry)
    exact lt_of_le_of_lt passed future

/-- A key that has its row stays dead. -/
theorem Dead.mono {keys later : ApiKeys} {before now : Timestamp} {id : JsString}
    (grows : Grows keys later) (passed : before ≤ now) (known : (keys.find id).isSome)
    (dead : Dead keys before id) : Dead later now id := by
  intro row found live
  obtain ⟨first, isFirst⟩ := Option.isSome_iff_exists.mp known
  obtain ⟨other, isOther, isLater⟩ := grows id first isFirst
  rw [found] at isOther
  obtain rfl := Option.some.inj isOther
  exact dead first isFirst (isLater.live passed live)

theorem Pending.mono {keys later : ApiKeys} {before now : Timestamp} {id : JsString}
    (grows : Grows keys later) (passed : before ≤ now) (known : (keys.find id).isSome)
    {phase : AuthPhase} (pending : Pending keys before id phase) : Pending later now id phase := by
  cases phase with
  | verifying left => exact pending.imp_right (Dead.mono grows passed known)
  | answered record =>
      cases record with
      | none => exact Dead.mono grows passed known pending
      | some record => trivial
  | looking => trivial
  | touching candidate => trivial
  | threw => trivial

theorem Eligible.mono {keys later : ApiKeys} (grows : Grows keys later) {call : Authentication}
    {record : ApiKeyRecord} (eligible : Eligible keys call record) :
    Eligible later call record := by
  refine ⟨eligible.unrevoked, eligible.unexpired, ?_⟩
  obtain ⟨row, found, isRecord⟩ := eligible.row
  obtain ⟨other, isOther, isLater⟩ := grows record.id row found
  exact ⟨other, isOther, isLater.isRecordOf isRecord⟩

/-- What a step may do to the keys, the time, and what has been issued and revoked. -/
structure Advances (state next : KeyState) : Prop where
  grows : Grows state.keys next.keys
  now : state.now ≤ next.now
  issued : ∀ key ∈ state.issued, key ∈ next.issued
  revoked : ∀ id ∈ state.revoked, id ∈ next.revoked

theorem CallKept.mono (kept : KeysKept crypto state) (advances : Advances state next)
    {call : Authentication} (isKept : CallKept crypto state call) : CallKept crypto next call where
  clock := le_trans isKept.clock advances.now
  revoked id member := advances.revoked id (isKept.revoked id member)
  issued key member := advances.issued key (isKept.issued key member)
  eligible record member := (isKept.eligible record member).mono advances.grows
  verified := isKept.verified
  pending := by
    intro key member presents
    refine (isKept.pending key member presents).mono advances.grows advances.now ?_
    obtain ⟨row, found, _⟩ := kept.issued key (isKept.issued key member)
    rw [found]
    rfl

theorem issuedAs_later {key : Issued} {row later : ApiKeyRow} (isLater : Later row later)
    (issued : IssuedAs crypto key row) : IssuedAs crypto key later := by
  rw [IssuedAs, isLater.same]
  exact issued

theorem Grows.exists {keys later : ApiKeys} (grows : Grows keys later) {holds : ApiKeyRow → Prop}
    (keeps : ∀ row after, Later row after → holds row → holds after) {id : JsString}
    (found : ∃ row, keys.find id = some row ∧ holds row) :
    ∃ row, later.find id = some row ∧ holds row := by
  obtain ⟨row, isRow, isHeld⟩ := found
  obtain ⟨after, isAfter, isLater⟩ := grows id row isRow
  exact ⟨after, isAfter, keeps row after isLater isHeld⟩

theorem ofGuild_later {guildId : JsString} (row after : ApiKeyRow) (isLater : Later row after)
    (ofGuild : row.guildId = some guildId) : after.guildId = some guildId := by
  rw [isLater.same]
  exact ofGuild

/-- A step that revokes no row, and leaves the calls that revoke as they are. -/
theorem KeysKept.mono (kept : KeysKept crypto state) (grows : Grows state.keys next.keys)
    (revoked : next.revoked = state.revoked) (revocations : next.revocations = state.revocations)
    (issued : ∀ key ∈ next.issued, key ∈ state.issued ∨
      ∃ row, next.keys.find key.id = some row ∧ IssuedAs crypto key row)
    (unrevoked : ∀ id row, next.keys.find id = some row → row.revokedAt ≠ none →
      ∃ before, state.keys.find id = some before ∧ Later before row ∧ before.revokedAt ≠ none) :
    KeysKept crypto next where
  revoked id member := by
    rw [revoked] at member
    exact grows.exists (fun row after isLater => isLater.revoked) (kept.revoked id member)
  issued key member := by
    rcases issued key member with known | isNew
    · exact grows.exists (fun row after isLater => issuedAs_later isLater) (kept.issued key known)
    · exact isNew
  updating call member isUpdating := by
    rw [revocations] at member
    exact grows.exists ofGuild_later (kept.updating call member isUpdating)
  owned id row found isRevoked := by
    obtain ⟨before, isBefore, isLater, wasRevoked⟩ := unrevoked id row found isRevoked
    obtain ⟨call, member, isId, ofGuild⟩ := kept.owned id before isBefore wasRevoked
    rw [revocations]
    refine ⟨call, member, isId, ?_⟩
    exact ofGuild_later before row isLater ofGuild

theorem unrevoked_refl (keys : ApiKeys) (id : JsString) (row : ApiKeyRow)
    (found : keys.find id = some row) (isRevoked : row.revokedAt ≠ none) :
    ∃ before, keys.find id = some before ∧ Later before row ∧ before.revokedAt ≠ none :=
  ⟨row, found, .refl row, isRevoked⟩

theorem unrevoked_touch {keys touched : ApiKeys} {used : JsString} {now : Timestamp}
    (isTouched : keys.touchLastUsed used now = some touched) (id : JsString) (row : ApiKeyRow)
    (found : touched.find id = some row) (isRevoked : row.revokedAt ≠ none) :
    ∃ before, keys.find id = some before ∧ Later before row ∧ before.revokedAt ≠ none := by
  rw [(Table.find_change isTouched).2] at found
  obtain ⟨before, isBefore, rfl⟩ := Option.map_eq_some_iff.mp found
  refine ⟨before, isBefore, ?_⟩
  by_cases isUsed : id = used
  · rw [if_pos isUsed] at isRevoked ⊢
    exact ⟨⟨rfl, fun _ => isRevoked⟩, isRevoked⟩
  · rw [if_neg isUsed] at isRevoked ⊢
    exact ⟨.refl before, isRevoked⟩

/-! One step of `authenticate`. -/

theorem mem_findActiveByPrefix {keys : ApiKeys} {keyPrefix : JsString} {now : Timestamp}
    {record : ApiKeyRecord} :
    record ∈ keys.findActiveByPrefix keyPrefix now ↔
      ∃ row ∈ keys.rows, row.keyPrefix = keyPrefix ∧ row.Live now ∧ toRecord row = record := by
  rw [ApiKeys.findActiveByPrefix, List.mem_filter, List.mem_map]
  constructor
  · rintro ⟨⟨row, isRow, rfl⟩, unexpired⟩
    obtain ⟨member, selected⟩ := List.mem_filter.mp isRow
    obtain ⟨isPrefix, unrevoked⟩ := of_decide_eq_true selected
    refine ⟨row, member, isPrefix, ⟨unrevoked, ?_⟩, rfl⟩
    intro expiresAt isExpiry
    simpa [toRecord, Option.mem_def.mp isExpiry] using unexpired
  · rintro ⟨row, member, isPrefix, live, rfl⟩
    refine ⟨⟨row, List.mem_filter.mpr ⟨member, ?_⟩, rfl⟩, ?_⟩
    · exact decide_eq_true ⟨isPrefix, live.1⟩
    · cases isExpiry : row.expiresAt with
      | none => simp [toRecord, isExpiry]
      | some expiresAt => simpa [toRecord, isExpiry] using live.2 expiresAt isExpiry

/-- A call that has looked holds what is live, and every key that it presents is among it. -/
theorem callKept_looked (kept : KeysKept crypto state) {call : Authentication}
    (isKept : CallKept crypto state call) :
    CallKept crypto state { call with
      phase := .verifying
        (state.keys.findActiveByPrefix (call.rawKey.take prefixLength) state.now) } where
  clock := isKept.clock
  revoked := isKept.revoked
  issued := isKept.issued
  eligible := by
    intro record member
    obtain ⟨row, isRow, _, live, rfl⟩ := mem_findActiveByPrefix.mp member
    have found := Table.find_key isRow
    refine ⟨?_, ?_, row, found, rfl⟩
    · intro wasRevoked
      obtain ⟨other, isOther, isRevoked⟩ := kept.revoked _ (isKept.revoked _ wasRevoked)
      rw [show (toRecord row).id = row.id from rfl, found] at isOther
      obtain rfl := Option.some.inj isOther
      exact isRevoked live.1
    · intro expiresAt isExpiry
      exact lt_of_le_of_lt isKept.clock (live.2 expiresAt isExpiry)
  verified := by simp [AuthPhase.chosen]
  pending := by
    intro key member presents
    obtain ⟨row, found, isPrefix, _⟩ := kept.issued key (isKept.issued key member)
    have isId := Table.key_of_find found
    by_cases live : row.Live state.now
    · refine .inl ⟨toRecord row, mem_findActiveByPrefix.mpr ?_, isId⟩
      rw [presents] at isPrefix
      exact ⟨row, (Table.find_eq_some_iff.mp found).1, isPrefix, live, rfl⟩
    · refine .inr fun other isOther => ?_
      rw [found] at isOther
      obtain rfl := Option.some.inj isOther
      exact live

/-- A candidate that does not verify is not a key that the call presents. -/
theorem callKept_passed (kept : KeysKept crypto state) {call : Authentication}
    (isKept : CallKept crypto state call) {candidate : ApiKeyRecord} {rest : List ApiKeyRecord}
    (isPhase : call.phase = .verifying (candidate :: rest))
    (fails : Encryption.verify crypto call.rawKey candidate.hashedKey = false) :
    CallKept crypto state { call with phase := .verifying rest } where
  clock := isKept.clock
  revoked := isKept.revoked
  issued := isKept.issued
  eligible record member := by
    have eligible := isKept.eligible record (by rw [isPhase]; exact List.mem_cons_of_mem _ member)
    exact ⟨eligible.unrevoked, eligible.unexpired, eligible.row⟩
  verified := by simp [AuthPhase.chosen]
  pending := by
    intro key member presents
    have pending := isKept.pending key member presents
    rw [isPhase] at pending
    rcases pending with ⟨record, isRecord, isKey⟩ | dead
    · rcases List.mem_cons.mp isRecord with rfl | later
      · obtain ⟨row, found, _, verifies⟩ := kept.issued key (isKept.issued key member)
        obtain ⟨other, isOther, isRecordOf⟩ :=
          (isKept.eligible record (by rw [isPhase]; exact List.mem_cons_self)).row
        rw [isKey, found] at isOther
        obtain rfl := Option.some.inj isOther
        rw [isRecordOf] at fails
        rw [presents] at verifies
        exact absurd verifies (by simpa [toRecord] using fails)
      · exact .inl ⟨record, later, isKey⟩
    · exact .inr dead

/-- A phase that holds at most what the call has chosen, and answers it if anything. -/
theorem callKept_chosen {call : Authentication} (isKept : CallKept crypto state call)
    {phase : AuthPhase} (records : ∀ record ∈ phase.records, record ∈ call.phase.records)
    (verified : ∀ record, phase.chosen = some record →
      Encryption.verify crypto call.rawKey record.hashedKey = true)
    (pending : ∀ id, Pending state.keys state.now id call.phase →
      Pending state.keys state.now id phase) :
    CallKept crypto state { call with phase } where
  clock := isKept.clock
  revoked := isKept.revoked
  issued := isKept.issued
  eligible record member := by
    have eligible := isKept.eligible record (records record member)
    exact ⟨eligible.unrevoked, eligible.unexpired, eligible.row⟩
  verified := verified
  pending key member presents := pending key.id (isKept.pending key member presents)

/-- The keys, the phase and the time a step of `authenticate` leads to. -/
theorem call_next (kept : Kept crypto state) {index : Nat} {call : Authentication} {fails : Bool}
    {keys : ApiKeys} {phase : AuthPhase} (found : state.authentications[index]? = some call)
    (taken : call.phase.next crypto state.keys state.now call.rawKey fails = some (keys, phase)) :
    Grows state.keys keys ∧
      (∀ id row, keys.find id = some row → row.revokedAt ≠ none →
        ∃ before, state.keys.find id = some before ∧ Later before row ∧
          before.revokedAt ≠ none) ∧
      CallKept crypto state { call with phase } := by
  have isKept := kept.calls call (List.mem_of_getElem? found)
  have threw : CallKept crypto state { call with phase := .threw } :=
    callKept_chosen isKept (by simp [AuthPhase.records]) (by simp [AuthPhase.chosen])
      fun _ _ => trivial
  unfold AuthPhase.next at taken
  split at taken
  case h_1 isPhase =>
      obtain ⟨rfl, rfl⟩ := Prod.mk.inj (Option.some.inj taken)
      refine ⟨grows_refl _, unrevoked_refl _, ?_⟩
      split
      · exact threw
      · exact callKept_looked kept.keys isKept
  case h_2 isPhase =>
      obtain ⟨rfl, rfl⟩ := Prod.mk.inj (Option.some.inj taken)
      refine ⟨grows_refl _, unrevoked_refl _, callKept_chosen isKept ?_ ?_ ?_⟩
      · simp [AuthPhase.records]
      · simp [AuthPhase.chosen]
      · intro id pending
        rw [isPhase] at pending
        simpa [Pending] using pending
  case h_3 candidate rest isPhase =>
      obtain ⟨rfl, rfl⟩ := Prod.mk.inj (Option.some.inj taken)
      refine ⟨grows_refl _, unrevoked_refl _, ?_⟩
      split
      · rename_i verifies
        refine callKept_chosen isKept ?_ ?_ fun _ _ => trivial
        · intro record isRecord
          rw [isPhase, List.mem_singleton.mp isRecord]
          exact List.mem_cons_self
        · rintro record isChosen
          obtain rfl := Option.some.inj isChosen
          exact verifies
      · rename_i fails
        exact callKept_passed kept.keys isKept isPhase (by simpa using fails)
  case h_4 candidate isPhase =>
      split at taken
      · rename_i touched isTouched
        obtain ⟨rfl, rfl⟩ := Prod.mk.inj (Option.some.inj taken)
        have works : state.keys.touchLastUsed candidate.id state.now = some touched := by
          split at isTouched
          · cases isTouched
          · exact isTouched
        refine ⟨grows_touch works, unrevoked_touch works, callKept_chosen isKept ?_ ?_ ?_⟩
        · rw [isPhase]
          exact fun _ isRecord => isRecord
        · intro record isChosen
          exact isKept.verified record (by rw [isPhase]; exact isChosen)
        · exact fun _ _ => trivial
      · obtain ⟨rfl, rfl⟩ := Prod.mk.inj (Option.some.inj taken)
        exact ⟨grows_refl _, unrevoked_refl _, threw⟩
  case h_5 => cases taken

/-! One step of a handler that revokes. -/

theorem mem_findByGuild {keys : ApiKeys} {guildId : JsString} {record : ApiKeyRecord}
    (member : record ∈ keys.findByGuild guildId) :
    ∃ row, keys.find record.id = some row ∧ row.guildId = some guildId := by
  obtain ⟨row, isRow, rfl⟩ := List.mem_map.mp member
  obtain ⟨isIn, selected⟩ := List.mem_filter.mp ((List.mem_insertionSort _).mp isRow)
  exact ⟨row, Table.find_key isIn, (of_decide_eq_true selected).1⟩

theorem exists_owner_set {calls : List Revocation} {index : Nat} {call : Revocation}
    (found : calls[index]? = some call) (phase : RevokePhase) {id : JsString}
    {guildId : Option JsString}
    (owned : ∃ owner ∈ calls, owner.id = id ∧ guildId = some owner.guildId) :
    ∃ owner ∈ calls.set index { call with phase }, owner.id = id ∧
      guildId = some owner.guildId := by
  obtain ⟨owner, member, isId, ofGuild⟩ := owned
  obtain ⟨place, isPlace⟩ := List.mem_iff_getElem?.mp member
  by_cases same : place = index
  · subst same
    rw [found] at isPlace
    obtain rfl := Option.some.inj isPlace
    refine ⟨{ call with phase }, List.mem_of_getElem? (i := place) ?_, isId, ofGuild⟩
    rw [List.getElem?_set_self (List.getElem?_eq_some_iff.mp found).1]
  · refine ⟨owner, List.mem_of_getElem? (i := place) ?_, isId, ofGuild⟩
    rw [List.getElem?_set_ne (Ne.symm same), isPlace]

/-- The keys after a step that leaves the rows and what was revoked as they are. -/
theorem keysKept_set (kept : KeysKept crypto state) {index : Nat} {call : Revocation}
    (found : state.revocations[index]? = some call) {phase : RevokePhase}
    (updating : phase = .updating →
      ∃ row, state.keys.find call.id = some row ∧ row.guildId = some call.guildId) :
    KeysKept crypto
      { state with revocations := state.revocations.set index { call with phase } } where
  revoked := kept.revoked
  issued := kept.issued
  updating other member isUpdating := by
    rcases List.mem_or_eq_of_mem_set member with before | rfl
    · exact kept.updating other before isUpdating
    · exact updating isUpdating
  owned id row isRow isRevoked := exists_owner_set found phase (kept.owned id row isRow isRevoked)

theorem keysKept_revoked (kept : KeysKept crypto state) {index : Nat} {call : Revocation}
    (found : state.revocations[index]? = some call) (isUpdating : call.phase = .updating)
    {keys : ApiKeys} (works : state.keys.revoke call.id state.now = some keys) :
    KeysKept crypto
      { state with
        keys
        revoked := state.revoked ++ [call.id]
        revocations := state.revocations.set index { call with phase := .returned } } := by
  have grows := grows_revoke works
  have changed := (Table.find_change works).2
  have ofCall := kept.updating call (List.mem_of_getElem? found) isUpdating
  constructor
  · intro id member
    rcases List.mem_append.mp member with before | isNew
    · exact grows.exists (fun row after isLater => isLater.revoked) (kept.revoked id before)
    · obtain ⟨row, isRow, _⟩ := ofCall
      refine ⟨row.revoked state.now, ?_, by simp [ApiKeyRow.revoked]⟩
      rw [changed, List.mem_singleton.mp isNew, isRow, Option.map_some, if_pos rfl]
  · intro key member
    exact grows.exists (fun row after isLater => issuedAs_later isLater) (kept.issued key member)
  · intro other member otherUpdating
    rcases List.mem_or_eq_of_mem_set member with before | rfl
    · exact grows.exists ofGuild_later (kept.updating other before otherUpdating)
    · cases otherUpdating
  · intro id row isRow isRevoked
    refine exists_owner_set found .returned ?_
    rw [changed] at isRow
    obtain ⟨before, isBefore, rfl⟩ := Option.map_eq_some_iff.mp isRow
    by_cases same : id = call.id
    · rw [if_pos same]
      obtain ⟨ofRow, isOfRow, ofGuild⟩ := ofCall
      rw [same, isOfRow] at isBefore
      obtain rfl := Option.some.inj isBefore
      exact ⟨call, List.mem_of_getElem? found, same.symm, ofGuild⟩
    · rw [if_neg same] at isRevoked ⊢
      exact kept.owned id before isBefore isRevoked

theorem kept_advanceRevoke (kept : Kept crypto state) {index : Nat} {call : Revocation}
    {fails : Bool} {keys : ApiKeys} {phase : RevokePhase}
    (found : state.revocations[index]? = some call)
    (taken : call.next state.keys state.now fails = some (keys, phase)) :
    Kept crypto
      { state with
        keys
        revoked := if phase = .returned then state.revoked ++ [call.id] else state.revoked
        revocations := state.revocations.set index { call with phase } } := by
  have quiet {phase : RevokePhase} (goesOn : phase ≠ .returned)
      (updating : phase = .updating →
        ∃ row, state.keys.find call.id = some row ∧ row.guildId = some call.guildId) :
      Kept crypto
        { state with
          revoked := if phase = .returned then state.revoked ++ [call.id] else state.revoked
          revocations := state.revocations.set index { call with phase } } := by
    rw [if_neg goesOn]
    refine ⟨keysKept_set kept.keys found updating, ?_⟩
    intro other member
    refine CallKept.mono kept.keys ?_ (kept.calls other member)
    exact ⟨grows_refl _, le_refl _, fun _ member => member, fun _ member => member⟩
  unfold Revocation.next at taken
  split at taken
  case h_1 isPhase =>
      obtain ⟨rfl, rfl⟩ := Prod.mk.inj (Option.some.inj taken)
      split
      · exact quiet (by decide) (by simp)
      · split
        · rename_i listed
          refine quiet (by decide) fun _ => ?_
          obtain ⟨record, member, isId⟩ := List.any_eq_true.mp listed
          rw [← of_decide_eq_true isId]
          exact mem_findByGuild member
        · exact quiet (by decide) (by simp)
  case h_2 isPhase =>
      split at taken
      · rename_i revoked isRevoked
        obtain ⟨rfl, rfl⟩ := Prod.mk.inj (Option.some.inj taken)
        have works : state.keys.revoke call.id state.now = some revoked := by
          split at isRevoked
          · cases isRevoked
          · exact isRevoked
        rw [if_pos rfl]
        refine ⟨keysKept_revoked kept.keys found isPhase works, ?_⟩
        intro other member
        refine CallKept.mono kept.keys ?_ (kept.calls other member)
        refine ⟨grows_revoke works, le_refl _, fun _ member => member, ?_⟩
        exact fun _ member => List.mem_append_left _ member
      · obtain ⟨rfl, rfl⟩ := Prod.mk.inj (Option.some.inj taken)
        exact quiet (by decide) (by simp)
  case h_3 => cases taken

/-! Whole runs. -/

theorem kept_create (documented : crypto.Documented) (kept : Kept crypto state)
    {guildId : Option JsString} {dto : CreateApiKeyDto} {id : JsString} {bytes salt : List UInt8}
    (taken : lifeStep crypto state (.create guildId dto id bytes salt) = some next) :
    Kept crypto next := by
  obtain ⟨keys, created, rfl⟩ := Option.map_eq_some_iff.mp taken
  have grows := grows_create created
  refine ⟨kept.keys.mono grows rfl rfl ?_ ?_, ?_⟩
  · intro key member
    rcases List.mem_append.mp member with known | isNew
    · exact .inl known
    · refine .inr ?_
      rw [List.mem_singleton.mp isNew]
      exact ⟨_, by rw [Table.find_insert created, if_pos rfl], rfl,
        (Encryption.verify_hash documented _ _ salt).mpr rfl⟩
  · intro other row found isRevoked
    rw [Table.find_insert created] at found
    split at found
    · obtain rfl := Option.some.inj found
      exact absurd rfl isRevoked
    · exact ⟨row, found, .refl row, isRevoked⟩
  · intro call member
    refine CallKept.mono kept.keys ?_ (kept.calls call member)
    refine ⟨grows, le_refl _, ?_, fun _ member => member⟩
    exact fun key member => List.mem_append_left _ member

theorem kept_step (documented : crypto.Documented) (state : KeyState) (action : LifeAction)
    (next : KeyState) (kept : Kept crypto state)
    (taken : lifeStep crypto state action = some next) :
    Kept crypto next := by
  cases action with
  | wait ms =>
      obtain rfl := Option.some.inj taken
      refine ⟨⟨kept.keys.revoked, kept.keys.issued, kept.keys.updating, kept.keys.owned⟩, ?_⟩
      intro call member
      refine CallKept.mono kept.keys ?_ (kept.calls call member)
      refine ⟨grows_refl _, ?_, fun _ member => member, fun _ member => member⟩
      exact Int.le_add_of_nonneg_right (Int.natCast_nonneg ms)
  | create guildId dto id bytes salt => exact kept_create documented kept taken
  | authenticate rawKey =>
      obtain rfl := Option.some.inj taken
      refine ⟨⟨kept.keys.revoked, kept.keys.issued, kept.keys.updating, kept.keys.owned⟩, ?_⟩
      intro call member
      rcases List.mem_append.mp member with before | isNew
      · refine CallKept.mono kept.keys ?_ (kept.calls call before)
        exact ⟨grows_refl _, le_refl _, fun _ member => member, fun _ member => member⟩
      · rw [List.mem_singleton.mp isNew]
        refine ⟨le_refl _, fun _ member => member, fun _ member => member, ?_, ?_, ?_⟩
        · simp [AuthPhase.records]
        · simp [AuthPhase.chosen]
        · exact fun _ _ _ => trivial
  | advance index fails =>
      simp only [lifeStep] at taken
      split at taken
      · rename_i call found
        obtain ⟨⟨keys, phase⟩, isNext, rfl⟩ := Option.map_eq_some_iff.mp taken
        obtain ⟨grows, unrevoked, stepped⟩ := call_next kept found isNext
        refine ⟨kept.keys.mono grows rfl rfl (fun _ member => .inl member) unrevoked, ?_⟩
        have advances : Advances state { state with
            keys, authentications := state.authentications.set index { call with phase } } :=
          ⟨grows, le_refl _, fun _ member => member, fun _ member => member⟩
        intro other member
        rcases List.mem_or_eq_of_mem_set member with before | rfl
        · exact (kept.calls other before).mono kept.keys advances
        · exact stepped.mono kept.keys advances
      · cases taken
  | revoke guildId id =>
      obtain rfl := Option.some.inj taken
      refine ⟨⟨kept.keys.revoked, kept.keys.issued, ?_, ?_⟩, ?_⟩
      · intro call member isUpdating
        rcases List.mem_append.mp member with before | isNew
        · exact kept.keys.updating call before isUpdating
        · rw [List.mem_singleton.mp isNew] at isUpdating
          cases isUpdating
      · intro other row found isRevoked
        obtain ⟨call, member, owns⟩ := kept.keys.owned other row found isRevoked
        exact ⟨call, List.mem_append_left _ member, owns⟩
      · intro call member
        refine CallKept.mono kept.keys ?_ (kept.calls call member)
        exact ⟨grows_refl _, le_refl _, fun _ member => member, fun _ member => member⟩
  | advanceRevoke index fails =>
      simp only [lifeStep] at taken
      split at taken
      · rename_i call found
        obtain ⟨⟨keys, phase⟩, isNext, rfl⟩ := Option.map_eq_some_iff.mp taken
        exact kept_advanceRevoke kept found isNext
      · cases taken

theorem kept_run (documented : crypto.Documented) {now : Timestamp} {actions : List LifeAction}
    (ran : run (lifeStep crypto) (.start now) actions = some state) : Kept crypto state :=
  invariant_run (lifeStep crypto) (kept_step documented) ran (kept_start now)

def sampleCrypto : Crypto :=
  { scrypt := fun _ _ length => List.replicate length 7
    cipheriv := fun _ _ plaintext => { ciphertext := plaintext, tag := List.replicate 16 0 }
    decipheriv := fun _ _ box => .ok box.ciphertext }

theorem sampleCrypto_documented : sampleCrypto.Documented where
  scrypt_length _ _ length := List.length_replicate
  decipheriv_cipheriv _ _ _ _ _ := rfl

def sampleBytes : List UInt8 := List.replicate 24 1

def sampleLife : List LifeAction :=
  [.create (some (js "g")) { name := js "bot", scopes := [js "*"], expiresAt := some 9 } (js "k")
      sampleBytes [],
    .wait 5, .authenticate (rawKeyOf sampleBytes), .advance 0 false, .advance 0 false,
    .advance 0 false]

def sampleLifeState : KeyState :=
  (run (lifeStep sampleCrypto) (.start 0) sampleLife).get (by decide +kernel)

def sampleRecord : ApiKeyRecord :=
  { id := js "k", guildId := some (js "g"), name := js "bot"
    hashedKey := Encryption.hash sampleCrypto (rawKeyOf sampleBytes) []
    keyPrefix := (rawKeyOf sampleBytes).take prefixLength, scopes := [js "*"], lastUsedAt := none
    expiresAt := some 9, revokedAt := none, createdAt := 0 }

def sampleCall : Authentication :=
  { rawKey := rawKeyOf sampleBytes, startedAt := 5
    issued := [{ id := js "k", rawKey := rawKeyOf sampleBytes }], revoked := []
    phase := .answered (some sampleRecord) }

def lateLife : List LifeAction :=
  [.create (some (js "g")) { name := js "bot", scopes := [js "*"], expiresAt := none } (js "k")
      sampleBytes [],
    .revoke (js "g") (js "k"), .advanceRevoke 0 false, .advanceRevoke 0 false,
    .authenticate (rawKeyOf sampleBytes), .advance 0 false, .advance 0 false]

def lateState : KeyState :=
  (run (lifeStep sampleCrypto) (.start 0) lateLife).get (by decide +kernel)

def lateCall : Authentication :=
  { rawKey := rawKeyOf sampleBytes, startedAt := 0
    issued := [{ id := js "k", rawKey := rawKeyOf sampleBytes }], revoked := [js "k"]
    phase := .answered none }

end Api
