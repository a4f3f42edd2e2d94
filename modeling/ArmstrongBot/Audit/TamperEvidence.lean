import ArmstrongBot.Audit.Chain

/-! What a verified chain with a known head determines of its entries. -/

namespace Audit

open JsText JsJson
open Calendar (Timestamp toISOString toISOString_injective)

def SameRecord (left right : Record) : Prop := same left.json right.json = true

/-- Two entries are equal on every hashed field, records up to the order of their keys. -/
structure SameHashed (left right : AuditEntry) : Prop where
  scope : left.scope = right.scope
  guildId : left.guildId = right.guildId
  seq : left.seq = right.seq
  action : left.action = right.action
  source : left.source = right.source
  actorId : left.actorId = right.actorId
  actorType : left.actorType = right.actorType
  targetType : left.targetType = right.targetType
  targetId : left.targetId = right.targetId
  channelId : left.channelId = right.channelId
  correlationId : left.correlationId = right.correlationId
  causationId : left.causationId = right.causationId
  summary : left.summary = right.summary
  metadata : SameRecord left.metadata right.metadata
  before : Option.Rel SameRecord left.before right.before
  after : Option.Rel SameRecord left.after right.after
  occurredAt : left.occurredAt = right.occurredAt
  previousHash : left.previousHash = right.previousHash

/-- The records of two entries agree on their fields named `__proto__`, at every depth. -/
structure SameProto (left right : AuditEntry) : Prop where
  metadata : protoAgrees left.metadata.json right.metadata.json = true
  before : protoAgrees (nullableRecord left.before) (nullableRecord right.before) = true
  after : protoAgrees (nullableRecord left.after) (nullableRecord right.after) = true

def entryContent (entry : AuditEntry) : Json :=
  content entry.toAuditEntryDraft entry.seq entry.previousHash

def entryFields (entry : AuditEntry) : Fields :=
  contentFields entry.toAuditEntryDraft entry.seq entry.previousHash

/-! The content of an entry as a JSON value. -/

theorem entryFields_keys (left right : AuditEntry) : keys (entryFields left) = keys (entryFields right) :=
  rfl

def contentNames : List JsString :=
  [js "scope", js "guildId", js "seq", js "action", js "source", js "actorId", js "actorType",
    js "targetType", js "targetId", js "channelId", js "correlationId", js "causationId",
    js "summary", js "metadata", js "before", js "after", js "occurredAt", js "previousHash"]

theorem entryFields_names (entry : AuditEntry) : keys (entryFields entry) = contentNames := rfl

theorem entryFields_distinct (entry : AuditEntry) : (keys (entryFields entry)).Nodup := by
  rw [entryFields_names]
  decide +kernel

theorem entryFields_proto (entry : AuditEntry) : (entryFields entry).lookup protoKey = none := by
  rw [lookup_eq_none_iff, entryFields_names]
  decide +kernel

theorem nullableText_formed (text : Option JsString) : wellFormed (nullableText text) = true := by
  cases text <;> rfl

theorem nullableRecord_formed (record : Option Record) :
    wellFormed (nullableRecord record) = true := by
  cases record with
  | none => rfl
  | some record => exact record.json_formed

theorem entryContent_formed (entry : AuditEntry) : wellFormed (entryContent entry) = true := by
  refine wellFormed_obj.mpr ⟨entryFields_distinct entry, ?_⟩
  simp [contentFields, nullableText_formed, nullableRecord_formed, Record.json_formed, wellFormed]

theorem same_nullableText {left right : Option JsString} :
    same (nullableText left) (nullableText right) = true ↔ left = right := by
  cases left <;> cases right <;> simp [nullableText, same]

theorem same_nullableRecord {left right : Option Record} :
    same (nullableRecord left) (nullableRecord right) = true ↔ Option.Rel SameRecord left right := by
  cases left <;> cases right <;> simp [nullableRecord, same, SameRecord, Record.json]

theorem protoAgrees_nullableText (left right : Option JsString) :
    protoAgrees (nullableText left) (nullableText right) = true := by
  cases left <;> cases right <;> rfl

theorem scopeText_injective {left right : AuditScope} (equal : left.text = right.text) :
    left = right := by
  revert equal
  cases left <;> cases right <;> decide

theorem sourceText_injective {left right : AuditSource} (equal : left.text = right.text) :
    left = right := by
  revert equal
  cases left <;> cases right <;> decide

theorem actorTypeText_injective {left right : AuditActorType} (equal : left.text = right.text) :
    left = right := by
  revert equal
  cases left <;> cases right <;> decide

theorem same_str {left right : JsString} : same (.str left) (.str right) = true ↔ left = right := by
  simp [same]

theorem same_entryContent_iff {left right : AuditEntry} :
    same (entryContent left) (entryContent right) = true ↔ SameHashed left right := by
  rw [show entryContent left = .obj (entryFields left) from rfl,
    show entryContent right = .obj (entryFields right) from rfl,
    same_obj_iff (entryFields_distinct left) (entryFields_distinct right),
    lookup_rel_iff (entryFields_keys left right) (entryFields_distinct left)]
  simp only [entryFields, contentFields, List.forall₂_cons, List.forall₂_nil_left_iff, and_true,
    same_str, same_nullableText, same_nullableRecord]
  constructor
  · rintro ⟨scope, guildId, seq, action, source, actorId, actorType, targetType, targetId, channelId,
      correlationId, causationId, summary, metadata, before, after, occurredAt, previousHash⟩
    exact ⟨scopeText_injective scope, guildId, intText_injective seq, action,
      sourceText_injective source, actorId, actorTypeText_injective actorType, targetType, targetId,
      channelId, correlationId, causationId, summary, metadata, before, after,
      toISOString_injective occurredAt, previousHash⟩
  · intro hashed
    exact ⟨congrArg _ hashed.scope, hashed.guildId, congrArg _ hashed.seq, hashed.action,
      congrArg _ hashed.source, hashed.actorId, congrArg _ hashed.actorType, hashed.targetType,
      hashed.targetId, hashed.channelId, hashed.correlationId, hashed.causationId, hashed.summary,
      hashed.metadata, hashed.before, hashed.after, congrArg _ hashed.occurredAt,
      hashed.previousHash⟩

theorem protoAgrees_entryContent_iff {left right : AuditEntry} :
    protoAgrees (entryContent left) (entryContent right) = true ↔ SameProto left right := by
  have sameKeys := entryFields_keys left right
  have everywhere : protoAgrees (.obj (entryFields left)) (.obj (entryFields right)) = true ↔
      ∀ key, Option.Rel (fun first second => protoAgrees first second = true)
        ((entryFields left).lookup key) ((entryFields right).lookup key) := by
    rw [protoAgrees_obj_iff (entryFields_distinct left), entryFields_proto, entryFields_proto]
    simp only [rel_iff_of_sameKeys sameKeys]
    constructor
    · rintro ⟨_, all⟩ key
      by_cases proto : key = protoKey
      · rw [proto, entryFields_proto]
        simp
      · exact all key proto
    · intro all
      exact ⟨.none, fun key _ => all key⟩
  rw [show entryContent left = .obj (entryFields left) from rfl,
    show entryContent right = .obj (entryFields right) from rfl, everywhere,
    lookup_rel_iff sameKeys (entryFields_distinct left)]
  simp only [entryFields, contentFields, List.forall₂_cons, List.forall₂_nil_left_iff, and_true,
    protoAgrees_nullableText, protoAgrees, true_and]
  constructor
  · intro agrees
    exact ⟨agrees.1, agrees.2.1, agrees.2.2⟩
  · intro agrees
    exact ⟨agrees.metadata, agrees.before, agrees.after⟩

theorem sameHashed_iff {left right : AuditEntry} :
    SameHashed left right ↔
      same (dropProto (entryContent left)) (dropProto (entryContent right)) = true ∧
        SameProto left right := by
  rw [← same_entryContent_iff, ← protoAgrees_entryContent_iff]
  exact same_iff_halves (entryContent_formed left) (entryContent_formed right)

theorem previousHash_of_same {left right : AuditEntry}
    (equal : same (dropProto (entryContent left)) (dropProto (entryContent right)) = true) :
    left.previousHash = right.previousHash := by
  have held (entry : AuditEntry) : (entryFields entry).lookup (js "previousHash") =
      some (nullableText entry.previousHash) :=
    lookup_of_mem (entryFields_distinct entry) (by simp [entryFields, contentFields])
  have dropText (text : Option JsString) : dropProto (nullableText text) = nullableText text := by
    cases text <;> rfl
  have related := (same_dropProto_obj_iff (entryFields_distinct left)
    (entryFields_distinct right)).mp equal (js "previousHash") (by decide)
  rw [held, held, Option.rel_some_some, dropText, dropText] at related
  exact same_nullableText.mp related

/-! Chains that verify with one head. -/

section

variable (createHash : HashAlgorithm → JsString → JsString) (algorithm : HashAlgorithm)

/-- The digest tells apart the contents of the entries of two lists. -/
def CollisionFree (left right : List AuditEntry) : Prop :=
  ∀ first ∈ left, ∀ second ∈ right,
    createHash algorithm (canonicalJson (entryContent first)) =
        createHash algorithm (canonicalJson (entryContent second)) →
      canonicalJson (entryContent first) = canonicalJson (entryContent second)

theorem verified_linked {scope : AuditScope} {guildId : Option JsString} {entries : List AuditEntry}
    {anchor : Option ChainAnchor} {now : Timestamp}
    (valid : (verify createHash algorithm scope guildId entries anchor now).valid = true) :
    ∃ start position, HashChain.Linked (link createHash algorithm) start position entries := by
  cases entries with
  | nil => exact ⟨none, 1, trivial⟩
  | cons first rest =>
      obtain ⟨start, _, linked⟩ := (verify_valid_iff ..).mp valid first rest rfl
      exact ⟨start, first.seq, linked⟩

/-- Two lists of entries that verify from one anchor, with one length and one head, are equal on
every hashed field exactly when they agree on the fields named `__proto__` in their records. -/
theorem sameHashed_iff_sameProto {scope : AuditScope} {guildId : Option JsString}
    {left right : List AuditEntry} {anchor : Option ChainAnchor} {now later : Timestamp}
    (leftValid : (verify createHash algorithm scope guildId left anchor now).valid = true)
    (rightValid : (verify createHash algorithm scope guildId right anchor later).valid = true)
    (length : left.length = right.length)
    (head : left.getLast?.map AuditEntry.hash = right.getLast?.map AuditEntry.hash)
    (collisionFree : CollisionFree createHash algorithm left right) :
    List.Forall₂ SameHashed left right ↔ List.Forall₂ SameProto left right := by
  constructor
  · exact List.Forall₂.imp fun _ _ hashed => (sameHashed_iff.mp hashed).2
  · intro agree
    obtain ⟨_, _, leftLinked⟩ := verified_linked createHash algorithm leftValid
    obtain ⟨_, _, rightLinked⟩ := verified_linked createHash algorithm rightValid
    have outside : List.Forall₂ (fun first second =>
        same (dropProto (entryContent first)) (dropProto (entryContent second)) = true) left right := by
      refine HashChain.history_determined (link createHash algorithm) leftLinked rightLinked ?_ length
        head
      intro first firstMember second secondMember sameDigest
      have sameText := collisionFree first firstMember second secondMember sameDigest
      have equal := (canonicalJson_eq_iff (entryContent_formed first) (entryContent_formed second)).mp
        sameText
      exact ⟨equal, previousHash_of_same equal⟩
    refine List.Forall₂.mp ?_ outside agree
    intro first second equal proto
    exact sameHashed_iff.mpr ⟨equal, proto⟩

end

/-! One-entry chains that differ in the order of two keys, and in a field named `__proto__`. -/

def sealedEntry (metadata : Record) : AuditEntry :=
  let draft : AuditEntryDraft :=
    { scope := .guild, guildId := some (js "7"), action := js "guild.role.granted",
      source := .dashboard, actorId := some (js "1"), actorType := .user, targetType := none,
      targetId := none, channelId := none, correlationId := js "c", causationId := none,
      summary := js "s", metadata, before := none, after := none, occurredAt := 0 }
  { draft with
    id := js "x", seq := 1, previousHash := none
    hash := computeHash (fun _ text => text) .sha256 draft 1 none, createdAt := 0 }

def rolesThenUser : Record :=
  ⟨[(js "roles", .arr [.str (js "mod")]), (js "user", .str (js "2"))], by decide⟩

def userThenRoles : Record :=
  ⟨[(js "user", .str (js "2")), (js "roles", .arr [.str (js "mod")])], by decide⟩

theorem reordered_sameHashed :
    List.Forall₂ SameHashed [sealedEntry rolesThenUser] [sealedEntry userThenRoles] ↔
      List.Forall₂ SameProto [sealedEntry rolesThenUser] [sealedEntry userThenRoles] :=
  @sameHashed_iff_sameProto (fun _ text => text) .sha256 .guild (some (js "7")) _ _ none 0 0
    (by decide +kernel) (by decide +kernel) rfl (by decide +kernel) fun _ _ _ _ equal => equal

def granted (role : JsString) : Record :=
  ⟨[(protoKey, .obj [(js "role", .str role)])], by
    simp [wellFormed, fieldsWellFormed, keys]⟩

/-- Metadata that is changed under a field named `__proto__` goes unnoticed. -/
theorem proto_change_verifies :
    let original := sealedEntry (granted (js "member"))
    let changed := { original with metadata := granted (js "admin") }
    (verify (fun _ text => text) .sha256 .guild (some (js "7")) [original] none 0).valid = true ∧
      (verify (fun _ text => text) .sha256 .guild (some (js "7")) [changed] none 0).valid = true ∧
      original.hash = changed.hash ∧ CollisionFree (fun _ text => text) .sha256 [original] [changed] ∧
      ¬ List.Forall₂ SameHashed [original] [changed] := by
  refine ⟨by decide +kernel, by decide +kernel, rfl, fun _ _ _ _ equal => equal, ?_⟩
  intro equal
  have metadata := (List.forall₂_cons.mp equal).1.metadata
  revert metadata
  unfold SameRecord
  decide +kernel

end Audit
