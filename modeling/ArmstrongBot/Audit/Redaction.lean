import ArmstrongBot.Library.JsMethods
import ArmstrongBot.Library.JsonHidden
import ArmstrongBot.Audit.Entry
import ArmstrongBot.Events.Envelope

/-! How `AuditIngestService` makes a draft of an envelope: the top-level fields picked from the
payload, and the walk that redacts what is left of it. -/

namespace Audit

open JsText JsJson
open Calendar (Timestamp)
open Events (EventEnvelope ActorType)

/-! Fields of an object that is assigned to. -/

theorem mem_insertField {fields : Fields} {key : JsString} {value : Json} {field : JsString × Json}
    (member : field ∈ insertField fields key value) : field = (key, value) ∨ field ∈ fields := by
  induction fields with
  | nil => exact .inl (List.mem_singleton.mp member)
  | cons first rest ih =>
      obtain ⟨other, otherValue⟩ := first
      rw [insertField] at member
      split at member
      · rcases List.mem_cons.mp member with same | later
        · exact .inl same
        · exact .inr (List.mem_cons_of_mem _ later)
      · split at member
        · exact List.mem_cons.mp member
        · rcases List.mem_cons.mp member with rfl | later
          · exact .inr List.mem_cons_self
          · exact (ih later).imp_right (List.mem_cons_of_mem _)

/-- A key that is no array index comes after the others or takes its own place. -/
theorem insertField_nodup {fields : Fields} (distinct : (keys fields).Nodup) {key : JsString}
    (isName : isArrayIndex key = false) (value : Json) :
    (keys (insertField fields key value)).Nodup := by
  induction fields with
  | nil => simp [insertField, keys]
  | cons first rest ih =>
      obtain ⟨other, otherValue⟩ := first
      obtain ⟨isNew, later⟩ := List.nodup_cons.mp distinct
      have comesLater : precedes key other = false := by rw [precedes, isName, Bool.false_and]
      rw [insertField, comesLater]
      split
      · rename_i same
        exact List.nodup_cons.mpr ⟨same ▸ isNew, later⟩
      · rename_i apart
        refine List.nodup_cons.mpr ⟨fun member => ?_, ih later⟩
        obtain ⟨held, isHeld⟩ := mem_keys.mp member
        rcases mem_insertField isHeld with same | earlier
        · exact apart (Prod.mk.inj same).1.symm
        · exact isNew (mem_keys.mpr ⟨held, earlier⟩)

theorem keys_insertField_perm {fields : Fields} {key : JsString} (isNew : key ∉ keys fields)
    (value : Json) : (keys (insertField fields key value)).Perm (key :: keys fields) := by
  induction fields with
  | nil => exact List.Perm.refl _
  | cons first rest ih =>
      obtain ⟨other, otherValue⟩ := first
      obtain ⟨apart, later⟩ := not_or.mp (List.mem_cons.not.mp isNew)
      rw [insertField, if_neg apart]
      split
      · exact List.Perm.refl _
      · exact ((ih later).cons other).trans (List.Perm.swap key other _)

theorem foldl_assign_formed {fields start : Fields}
    (distinct : (keys fields ++ keys start).Nodup)
    (formed : ∀ field ∈ fields, wellFormed field.2 = true)
    (startFormed : ∀ field ∈ start, wellFormed field.2 = true) :
    wellFormed (.obj (fields.foldl assign start)) = true := by
  induction fields generalizing start with
  | nil => exact wellFormed_obj.mpr ⟨distinct, startFormed⟩
  | cons field rest ih =>
      obtain ⟨key, value⟩ := field
      obtain ⟨isNew, later⟩ := List.nodup_cons.mp distinct
      obtain ⟨valueFormed, restFormed⟩ := List.forall_mem_cons.mp formed
      rw [List.foldl_cons]
      by_cases isProto : key = protoKey
      · rw [assign, if_pos isProto]
        exact ih later restFormed startFormed
      · rw [assign, if_neg isProto]
        refine ih ?_ restFormed fun field member => ?_
        · have perm := keys_insertField_perm (fun member => isNew (List.mem_append_right _ member))
            value
          refine ((perm.append_left (keys rest)).trans List.perm_middle).nodup_iff.mpr ?_
          exact List.nodup_cons.mpr ⟨isNew, later⟩
        · rcases mem_insertField member with rfl | earlier
          · exact valueFormed
          · exact startFormed field earlier

/-! The walk. -/

def redactedText : JsString := js "[REDACTED]"

def maxRedactionDepth : Nat := 8

mutual

/-- `redacted` says of a key whether its lower case is one of the keys to redact. -/
def redact (redacted : JsString → Bool) (depth : Nat) : Json → Json
  | .arr items =>
      if maxRedactionDepth ≤ depth then .str redactedText
      else .arr (redactItems redacted (depth + 1) items)
  | .obj fields =>
      if maxRedactionDepth ≤ depth then .str redactedText
      else .obj ((redactFields redacted (depth + 1) fields).foldl assign [])
  | value => if maxRedactionDepth ≤ depth then .str redactedText else value

def redactItems (redacted : JsString → Bool) (depth : Nat) : List Json → List Json
  | [] => []
  | item :: items => redact redacted depth item :: redactItems redacted depth items

def redactFields (redacted : JsString → Bool) (depth : Nat) : Fields → Fields
  | [] => []
  | (key, value) :: fields =>
      (key, if redacted key then .str redactedText else redact redacted depth value) ::
        redactFields redacted depth fields

end

variable {redacted : JsString → Bool}

theorem redactFields_eq (depth : Nat) (fields : Fields) :
    redactFields redacted depth fields =
      mapValues (fun key value => if redacted key then .str redactedText
        else redact redacted depth value) fields := by
  induction fields with
  | nil => rfl
  | cons field fields ih => rw [redactFields, ih]; rfl

theorem redactItems_eq (depth : Nat) (items : List Json) :
    redactItems redacted depth items = items.map (redact redacted depth) := by
  induction items with
  | nil => rfl
  | cons item items ih => rw [redactItems, ih]; rfl

theorem redactFields_formed {fields : Fields} (distinct : (keys fields).Nodup) (depth : Nat)
    (formed : ∀ field ∈ fields, wellFormed (redact redacted depth field.2) = true) :
    wellFormed (.obj ((redactFields redacted depth fields).foldl assign [])) = true := by
  rw [redactFields_eq]
  refine foldl_assign_formed ?_ (fun field member => ?_) (by simp)
  · rw [keys_mapValues]
    simpa [keys] using distinct
  · obtain ⟨before, isField, rfl⟩ := List.mem_map.mp member
    simp only
    split
    · rfl
    · exact formed before isField

theorem redact_formed {value : Json} (formed : wellFormed value = true) (depth : Nat) :
    wellFormed (redact redacted depth value) = true := by
  induction value using Json.induct generalizing depth with
  | arr items ih =>
      rw [redact]
      split
      · rfl
      · rw [redactItems_eq, wellFormed_arr, List.forall_mem_map]
        exact fun item member => ih item member (wellFormed_arr.mp formed item member) (depth + 1)
  | obj fields ih =>
      obtain ⟨distinct, below⟩ := wellFormed_obj.mp formed
      rw [redact]
      split
      · rfl
      · exact redactFields_formed distinct (depth + 1) fun field member =>
          ih field member (below field member) (depth + 1)
  | null | bool | num | str =>
      simp only [redact]
      split <;> rfl

theorem redactFields_similar {left right : Fields}
    (similar : List.Forall₂ (FieldsDiffer redacted) left right) (depth : Nat)
    (below : ∀ field ∈ left, ∀ other, differOnly redacted field.2 other → ∀ depth,
      redact redacted depth field.2 = redact redacted depth other) :
    redactFields redacted depth left = redactFields redacted depth right := by
  rw [redactFields_eq, redactFields_eq]
  refine map_eq_of_forall₂ similar fun field member other differ => ?_
  rw [← differ.1]
  simp only
  rcases differ.2 with isHidden | similar
  · rw [if_pos isHidden, if_pos isHidden]
  · rw [below field member other.2 similar depth]

theorem redact_similar {left right : Json} (similar : differOnly redacted left right)
    (depth : Nat) : redact redacted depth left = redact redacted depth right := by
  induction left using Json.induct generalizing right depth with
  | arr items ih =>
      cases right with
      | arr others =>
          have same : items.map (redact redacted (depth + 1)) =
              others.map (redact redacted (depth + 1)) :=
            map_eq_of_forall₂ (differOnly_arr.mp similar) fun item member other differ =>
              ih item member differ (depth + 1)
          rw [redact, redact, redactItems_eq, redactItems_eq, same]
      | null | bool | num | str | obj => simp [differOnly] at similar
  | obj fields ih =>
      cases right with
      | obj others =>
          rw [redact, redact, redactFields_similar (differOnly_obj.mp similar) (depth + 1)
            fun field member other => ih field member]
      | null | bool | num | str | arr => simp [differOnly] at similar
  | null | bool | num | str =>
      rw [differOnly] at similar
      · rw [similar]
      · simp
      · simp

/-! The draft. -/

namespace Record

/-- `asRecordOrNull` -/
def ofJson (value : Json) (formed : wellFormed value = true) : Option Record :=
  match value, formed with
  | .obj fields, formed => some { fields, formed }
  | _, _ => none

theorem value_formed (record : Record) {key : JsString} {value : Json}
    (found : record.fields.lookup key = some value) : wellFormed value = true :=
  (wellFormed_obj.mp record.formed).2 (key, value) (lookup_mem found)

def recordAt (record : Record) (key : JsString) : Option Record :=
  match found : record.fields.lookup key with
  | some value => ofJson value (record.value_formed found)
  | none => none

/-- `pickString` -/
def stringAt (record : Record) (key : JsString) : Option JsString :=
  match record.fields.lookup key with
  | some (.str value) => some value
  | _ => none

def without (record : Record) (dropped : List JsString) : Record :=
  { fields := record.fields.filter fun field => !decide (field.1 ∈ dropped)
    formed := by
      obtain ⟨distinct, below⟩ := wellFormed_obj.mp record.formed
      refine wellFormed_obj.mpr ⟨keys_filter_nodup distinct _, fun field member => ?_⟩
      exact below field (List.mem_filter.mp member).1 }

/-- A property of an object literal, behind what was spread into it. -/
def insert (record : Record) (key : JsString) (isName : isArrayIndex key = false) (value : Json)
    (valueFormed : wellFormed value = true) : Record :=
  { fields := insertField record.fields key value
    formed := by
      obtain ⟨distinct, below⟩ := wellFormed_obj.mp record.formed
      refine wellFormed_obj.mpr ⟨insertField_nodup distinct isName value, fun field member => ?_⟩
      rcases mem_insertField member with rfl | earlier
      · exact valueFormed
      · exact below field earlier }

/-- `redact` of a record that is no part of another. -/
def redact (record : Record) (redacted : JsString → Bool) : Record :=
  { fields := (redactFields redacted 1 record.fields).foldl assign []
    formed := @Audit.redact_formed redacted _ record.formed 0 }

end Record

/-- An envelope as the bus has it: no object of its payload or its meta has a key twice. -/
structure BusEnvelope where
  envelope : EventEnvelope
  formed : wellFormed envelope.payload = true
  metaFormed : ∀ held ∈ envelope.metadata, wellFormed held = true

/-- The second segment of the event's name. -/
def entityOf (name : JsString) : Option JsString := (split (unit 46) name)[1]?

def sourceOfText (text : JsString) : Option AuditSource :=
  [AuditSource.command, .dashboard, .api, .job, .system, .event].find? fun source =>
    source.text = text

def mapSource (envelope : EventEnvelope) : AuditSource :=
  let metaSource := match envelope.metadata with
    | some (.obj fields) =>
        match fields.lookup (js "source") with
        | some (.str text) => sourceOfText text
        | _ => none
    | _ => none
  metaSource.getD (match envelope.actor.type with
    | .user => if (js "dashboard.").isPrefixOf envelope.name then .dashboard else .command
    | .api => .api
    | .job => .job
    | .discord => .event
    | .system => .system)

def mapActorType : ActorType → AuditActorType
  | .user => .user
  | .discord => .bot
  | _ => .system

def pickTargetId (payload : Record) (entity : Option JsString) : Option JsString :=
  (payload.stringAt (js "targetId")).or ((payload.stringAt (js "id")).or
    (match entity with
      | some (letter :: letters) => payload.stringAt (letter :: letters ++ js "Id")
      | _ => none))

/-- The rest of the payload, the meta and the id of the envelope. -/
def metadataOf (bus : BusEnvelope) (payload : Record) : Record :=
  let rest := payload.without [js "before", js "after"]
  let rest := match found : bus.envelope.metadata with
    | some held => rest.insert (js "meta") (by decide) held (bus.metaFormed held found)
    | none => rest
  rest.insert (js "envelopeId") (by decide) (.str bus.envelope.id) rfl

section

variable (parseDate : JsString → Timestamp)

def toDraft (bus : BusEnvelope) : AuditEntryDraft :=
  let envelope := bus.envelope
  let payload := (Record.ofJson envelope.payload bus.formed).getD Record.empty
  let entity := entityOf envelope.name
  { scope := match envelope.guildId with
      | some (_ :: _) => .guild
      | _ => .global
    guildId := envelope.guildId
    action := envelope.name
    source := mapSource envelope
    actorId := if envelope.actor.type = .system then none else some envelope.actor.id
    actorType := mapActorType envelope.actor.type
    targetType := (payload.stringAt (js "targetType")).or entity
    targetId := pickTargetId payload entity
    channelId := payload.stringAt (js "channelId")
    correlationId := envelope.correlationId
    causationId := envelope.causationId
    summary := js "audit:actions." ++ envelope.name
    metadata := metadataOf bus payload
    before := payload.recordAt (js "before")
    after := payload.recordAt (js "after")
    occurredAt := parseDate envelope.occurredAt }

end

def redactDraft (redacted : JsString → Bool) (draft : AuditEntryDraft) : AuditEntryDraft :=
  { draft with
    metadata := draft.metadata.redact redacted
    before := draft.before.map fun record => record.redact redacted
    after := draft.after.map fun record => record.redact redacted }

/-- `keys.has(key.toLowerCase())` for the keys of `redactMetadataKeys`. -/
def isRedacted (toLowerCase : JsString → JsString) (redactMetadataKeys : List JsString)
    (key : JsString) : Bool :=
  toLowerCase key ∈ redactMetadataKeys.map toLowerCase

def withoutPayload (envelope : EventEnvelope) : EventEnvelope := { envelope with payload := .null }

/-- Envelopes that are the same but for values in their payloads below redacted keys. -/
def DifferBelow (redacted : JsString → Bool) (left right : BusEnvelope) : Prop :=
  differOnly redacted left.envelope.payload right.envelope.payload ∧
    withoutPayload left.envelope = withoutPayload right.envelope

/-- The drafts of an event do not depend on what stands below redacted keys. -/
def Noninterfering (parseDate : JsString → Timestamp) (redacted : JsString → Bool)
    (name : JsString) : Prop :=
  ∀ left right : BusEnvelope, left.envelope.name = name → DifferBelow redacted left right →
    redactDraft redacted (toDraft parseDate left) = redactDraft redacted (toDraft parseDate right)

/-- The keys that `toDraft` reads of the payload. -/
def pickedKeys (name : JsString) : List JsString :=
  [js "targetType", js "targetId", js "id", js "channelId", js "before", js "after"] ++
    match entityOf name with
    | some (letter :: letters) => [letter :: letters ++ js "Id"]
    | _ => []

/-! What redaction leaves of two records that differ below redacted keys. -/

def Record.Similar (redacted : JsString → Bool) (left right : Record) : Prop :=
  List.Forall₂ (FieldsDiffer redacted) left.fields right.fields

variable {left right : Record}

theorem Record.Similar.redact (similar : Record.Similar redacted left right) :
    left.redact redacted = right.redact redacted := by
  have same := redactFields_similar similar 1 fun _ _ _ differ depth => redact_similar differ depth
  simp only [Record.redact, same]

theorem Record.Similar.without (similar : Record.Similar redacted left right)
    (dropped : List JsString) :
    Record.Similar redacted (left.without dropped) (right.without dropped) :=
  filter_similar (fun key => !decide (key ∈ dropped)) similar

theorem Record.Similar.insert (similar : Record.Similar redacted left right) {key : JsString}
    (isName : isArrayIndex key = false) {value : Json} (formed : wellFormed value = true) :
    Record.Similar redacted (left.insert key isName value formed)
      (right.insert key isName value formed) :=
  insertField_similar similar key value

theorem Record.Similar.stringAt (similar : Record.Similar redacted left right) {key : JsString}
    (shown : redacted key = false) : left.stringAt key = right.stringAt key := by
  have found := lookup_similar similar shown
  unfold Record.stringAt
  generalize left.fields.lookup key = first, right.fields.lookup key = second at found
  cases found with
  | none => rfl
  | some differ =>
      rcases differOnly_cases differ with rfl | ⟨_, _, rfl, rfl, _⟩ | ⟨_, _, rfl, rfl, _⟩ <;> rfl

theorem recordAt_none {record : Record} {key : JsString}
    (missing : record.fields.lookup key = none) : record.recordAt key = none := by
  unfold Record.recordAt
  split
  · rename_i value found
    rw [missing] at found
    cases found
  · rfl

theorem recordAt_some {record : Record} {key : JsString} {value : Json}
    (found : record.fields.lookup key = some value) :
    record.recordAt key = Record.ofJson value (record.value_formed found) := by
  unfold Record.recordAt
  split
  · rename_i other isOther
    obtain rfl : value = other := Option.some.inj (found.symm.trans isOther)
    rfl
  · rename_i missing
    rw [found] at missing
    cases missing

theorem ofJson_similar {first second : Json} (firstFormed : wellFormed first = true)
    (secondFormed : wellFormed second = true) (differ : differOnly redacted first second) :
    Option.Rel (Record.Similar redacted) (Record.ofJson first firstFormed)
      (Record.ofJson second secondFormed) := by
  cases first with
  | obj fields =>
      cases second with
      | obj others => exact .some (differOnly_obj.mp differ)
      | null | bool | num | str | arr => simp [differOnly] at differ
  | arr items =>
      cases second with
      | arr others => exact .none
      | null | bool | num | str | obj => simp [differOnly] at differ
  | null | bool | num | str =>
      rw [differOnly] at differ
      · subst differ
        exact .none
      · simp
      · simp

theorem Record.Similar.recordAt (similar : Record.Similar redacted left right) {key : JsString}
    (shown : redacted key = false) :
    (left.recordAt key).map (fun record => record.redact redacted) =
      (right.recordAt key).map fun record => record.redact redacted := by
  have found := lookup_similar similar shown
  cases isLeft : left.fields.lookup key with
  | none =>
      cases isRight : right.fields.lookup key with
      | none => rw [recordAt_none isLeft, recordAt_none isRight]
      | some value =>
          rw [isLeft, isRight] at found
          cases found
  | some value =>
      cases isRight : right.fields.lookup key with
      | none =>
          rw [isLeft, isRight] at found
          cases found
      | some other =>
          rw [isLeft, isRight] at found
          obtain differ := Option.rel_some_some.mp found
          rw [recordAt_some isLeft, recordAt_some isRight]
          have records := ofJson_similar (left.value_formed isLeft) (right.value_formed isRight) differ
          generalize Record.ofJson value _ = first, Record.ofJson other _ = second at records
          cases records with
          | none => rfl
          | some similar => exact congrArg some similar.redact

theorem payload_similar {left right : BusEnvelope} (differ : DifferBelow redacted left right) :
    Record.Similar redacted ((Record.ofJson left.envelope.payload left.formed).getD Record.empty)
      ((Record.ofJson right.envelope.payload right.formed).getD Record.empty) := by
  have records := ofJson_similar left.formed right.formed differ.1
  generalize Record.ofJson left.envelope.payload _ = first,
    Record.ofJson right.envelope.payload _ = second at records
  cases records with
  | none => exact List.Forall₂.nil
  | some similar => exact similar

theorem metadataOf_similar {bus other : BusEnvelope} {left right : Record}
    (similar : Record.Similar redacted left right)
    (sameMeta : bus.envelope.metadata = other.envelope.metadata)
    (sameId : bus.envelope.id = other.envelope.id) :
    (metadataOf bus left).redact redacted = (metadataOf other right).redact redacted := by
  have rest := similar.without [js "before", js "after"]
  unfold metadataOf
  rw [sameId]
  split
  · rename_i held found
    split
    · rename_i otherHeld isOther
      obtain rfl : held = otherHeld := Option.some.inj (found.symm.trans (sameMeta.trans isOther))
      exact ((rest.insert (by decide) (bus.metaFormed held found)).insert _ _).redact
    · rename_i missing
      rw [sameMeta, missing] at found
      cases found
  · rename_i missing
    split
    · rename_i held found
      rw [← sameMeta, missing] at found
      cases found
    · exact (rest.insert _ _).redact

theorem pickTargetId_similar (similar : Record.Similar redacted left right) {name : JsString}
    (shown : ∀ key ∈ pickedKeys name, redacted key = false) :
    pickTargetId left (entityOf name) = pickTargetId right (entityOf name) := by
  unfold pickTargetId
  rw [similar.stringAt (shown (js "targetId") (by simp [pickedKeys])),
    similar.stringAt (shown (js "id") (by simp [pickedKeys]))]
  cases isEntity : entityOf name with
  | none => rfl
  | some entity =>
      cases entity with
      | nil => rfl
      | cons letter letters =>
          have isShown := shown (letter :: letters ++ js "Id") (by simp [pickedKeys, isEntity])
          simp only [similar.stringAt isShown]

theorem noninterfering_of_shown (parseDate : JsString → Timestamp) {name : JsString}
    (shown : ∀ key ∈ pickedKeys name, redacted key = false) :
    Noninterfering parseDate redacted name := by
  rintro bus other rfl differ
  have similar := payload_similar differ
  have same := differ.2
  simp only [withoutPayload, EventEnvelope.mk.injEq] at same
  obtain ⟨sameId, sameName, _, sameGuild, sameActor, sameTime, sameCorrelation, sameCausation, _, _,
    sameMeta⟩ := same
  have targetType := similar.stringAt (shown (js "targetType") (by simp [pickedKeys]))
  have channelId := similar.stringAt (shown (js "channelId") (by simp [pickedKeys]))
  have before := similar.recordAt (shown (js "before") (by simp [pickedKeys]))
  have after := similar.recordAt (shown (js "after") (by simp [pickedKeys]))
  have targetId := pickTargetId_similar similar shown
  have metadata := metadataOf_similar similar sameMeta sameId
  have sameSource : mapSource bus.envelope = mapSource other.envelope := by
    simp only [mapSource, sameName, sameActor, sameMeta]
  simp only [redactDraft, toDraft, targetType, channelId, before, after, targetId, metadata,
    ← sameName, sameSource, sameGuild, sameActor, sameCorrelation, sameCausation, sameTime]

/-! Each key that is picked shows in the draft what stands below it. -/

def Record.single (key : JsString) (value : Json) (formed : wellFormed value = true) : Record :=
  { fields := [(key, value)]
    formed := wellFormed_obj.mpr ⟨List.nodup_singleton key, by simpa using formed⟩ }

def probe (name key : JsString) (value : Json) (formed : wellFormed value = true) : BusEnvelope :=
  { envelope :=
      { id := js "e1", name, payload := (Record.single key value formed).json, guildId := none
        actor := { type := .system, id := js "core", username := none }
        occurredAt := js "1970-01-01T00:00:00.000Z", correlationId := js "c1", causationId := none
        version := 1, idempotencyKey := none, metadata := none }
    formed := (Record.single key value formed).formed
    metaFormed := by simp }

theorem probes_differ {name key : JsString} (isHidden : redacted key = true) {first second : Json}
    (firstFormed : wellFormed first = true) (secondFormed : wellFormed second = true) :
    DifferBelow redacted (probe name key first firstFormed)
      (probe name key second secondFormed) :=
  ⟨differOnly_obj.mpr (.cons ⟨rfl, .inl isHidden⟩ .nil), rfl⟩

theorem single_stringAt (key asked text : JsString) :
    (Record.single key (.str text) rfl).stringAt asked = if asked = key then some text else none := by
  unfold Record.stringAt Record.single
  by_cases same : asked = key
  · simp [same]
  · simp [same, List.lookup_cons, beq_false_of_ne same]

theorem single_pickTargetId {name key : JsString} (text : JsString)
    (isPicked : key = js "targetId" ∨ key = js "id" ∨
      ∃ letter letters, entityOf name = some (letter :: letters) ∧
        key = letter :: letters ++ js "Id") :
    pickTargetId (Record.single key (.str text) rfl) (entityOf name) = some text := by
  unfold pickTargetId
  simp only [single_stringAt]
  by_cases first : js "targetId" = key
  · rw [if_pos first, Option.some_or]
  · by_cases second : js "id" = key
    · rw [if_neg first, if_pos second, Option.none_or, Option.some_or]
    · rcases isPicked with rfl | rfl | ⟨letter, letters, isEntity, rfl⟩
      · exact absurd rfl first
      · exact absurd rfl second
      · rw [if_neg first, if_neg second, Option.none_or, Option.none_or, isEntity]
        exact if_pos rfl

theorem shown_of_noninterfering {parseDate : JsString → Timestamp} {name : JsString}
    (safe : Noninterfering parseDate redacted name) :
    ∀ key ∈ pickedKeys name, redacted key = false := by
  intro key picked
  by_contra shown
  have isHidden : redacted key = true := by simpa using shown
  have texts := safe (probe name key (.str []) rfl) (probe name key (.str [unit 48]) rfl) rfl
    (probes_differ isHidden rfl rfl)
  have records := safe (probe name key (.obj []) rfl) (probe name key .null rfl) rfl
    (probes_differ isHidden rfl rfl)
  have noTarget : ¬ (key = js "targetId" ∨ key = js "id" ∨
      ∃ letter letters, entityOf name = some (letter :: letters) ∧
        key = letter :: letters ++ js "Id") := by
    intro isPicked
    have targetId : pickTargetId (Record.single key (.str []) rfl) (entityOf name) =
        pickTargetId (Record.single key (.str [unit 48]) rfl) (entityOf name) :=
      congrArg AuditEntryDraft.targetId texts
    rw [single_pickTargetId _ isPicked, single_pickTargetId _ isPicked] at targetId
    exact absurd targetId (by decide)
  rcases List.mem_append.mp picked with fixed | isEntity
  · simp only [List.mem_cons, List.not_mem_nil, or_false] at fixed
    rcases fixed with rfl | rfl | rfl | rfl | rfl | rfl
    · have targetType := congrArg AuditEntryDraft.targetType texts
      change some [] = some [unit 48] at targetType
      exact absurd targetType (by decide)
    · exact noTarget (.inl rfl)
    · exact noTarget (.inr (.inl rfl))
    · have channelId := congrArg AuditEntryDraft.channelId texts
      change some [] = some [unit 48] at channelId
      exact absurd channelId (by decide)
    · have before := congrArg AuditEntryDraft.before records
      cases before
    · have after := congrArg AuditEntryDraft.after records
      cases after
  · refine noTarget (.inr (.inr ?_))
    cases entity : entityOf name with
    | none =>
        rw [entity] at isEntity
        cases isEntity
    | some text =>
        cases text with
        | nil =>
            rw [entity] at isEntity
            cases isEntity
        | cons letter letters =>
            rw [entity] at isEntity
            exact ⟨letter, letters, rfl, List.mem_singleton.mp isEntity⟩

/-- For every event and every set of keys: what stands below redacted keys stays out of the draft,
all of its fields taken together, just where none of the keys that fill the draft's own fields is
redacted. -/
theorem noninterfering_iff (parseDate : JsString → Timestamp) (toLowerCase : JsString → JsString)
    (redactMetadataKeys : List JsString) (name : JsString) :
    Noninterfering parseDate (isRedacted toLowerCase redactMetadataKeys) name ↔
      ∀ key ∈ pickedKeys name, isRedacted toLowerCase redactMetadataKeys key = false :=
  ⟨shown_of_noninterfering, noninterfering_of_shown parseDate⟩

/-- With `channelId` among the keys to redact two drafts still tell which channel it was. -/
theorem redacted_channel_shows :
    ¬ Noninterfering (fun _ => 0) (isRedacted toLowerCase [js "password", js "channelId"])
      (js "tickets.ticket.closed") := by
  intro safe
  have drafts := safe (probe (js "tickets.ticket.closed") (js "channelId") (.str (js "111")) rfl)
    (probe (js "tickets.ticket.closed") (js "channelId") (.str (js "222")) rfl) rfl
    (probes_differ (by decide) rfl rfl)
  exact absurd (congrArg AuditEntryDraft.channelId drafts) (by decide +kernel)

end Audit
