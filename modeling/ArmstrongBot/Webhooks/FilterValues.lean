import ArmstrongBot.Webhooks.Outbound

/-! Equality up to the order of keys, as the canonical text of the audit module and the filters of
the outbound dispatcher decide it. -/

namespace Webhooks

open JsText JsJson
open Audit (canonicalJson dropProto protoAgrees canonicalJson_eq_iff same_iff_halves)

/-- A value as `JSON.parse` builds it. -/
structure JsonValue where
  json : Json
  formed : wellFormed json = true

/-- Two values are equal without their fields named `__proto__` only if these are equal as well. -/
def ProtoDecided (left right : JsonValue) : Prop :=
  same (dropProto left.json) (dropProto right.json) = true →
    protoAgrees left.json right.json = true

theorem valueEquals_iff_canonical (actual expected : Json) :
    valueEquals (some actual) expected = true ↔ canonicalJson actual = canonicalJson expected := by
  rw [valueEquals, decide_eq_true_iff, Option.map_some, Option.some.injEq]
  rfl

/-- A filter asks each of its values of the payload, a missing field being no value at all. -/
theorem matchesFilter_iff (fields payload : Fields) :
    matchesFilter (some fields) payload = true ↔ ∀ field ∈ fields,
      ∃ actual, property payload field.1 = some actual ∧
        canonicalJson actual = canonicalJson field.2 := by
  simp only [matchesFilter, List.all_eq_true]
  refine forall_congr' fun field => imp_congr_right fun _ => ?_
  cases property payload field.1 with
  | none => simp [valueEquals]
  | some actual => simp [valueEquals_iff_canonical]

theorem canonicalJson_reads (left right : JsonValue) :
    (canonicalJson left.json = canonicalJson right.json ↔ same left.json right.json = true) ↔
      ProtoDecided left right := by
  rw [canonicalJson_eq_iff left.formed right.formed, same_iff_halves left.formed right.formed]
  constructor
  · intro reads outside
    exact (reads.mp outside).2
  · intro decided
    exact ⟨fun outside => ⟨outside, decided outside⟩, fun both => both.1⟩

theorem keyOrder_decided (left right : JsonValue) :
    ((canonicalJson left.json = canonicalJson right.json ↔ same left.json right.json = true) ∧
        (valueEquals (some left.json) right.json = true ↔ same left.json right.json = true)) ↔
      ProtoDecided left right := by
  rw [valueEquals_iff_canonical, and_self, canonicalJson_reads]

/-- `JSON.parse` gives the first of these texts a property of the object's own. -/
def guestRole : JsonValue :=
  { json := .obj [(protoKey, .obj [(js "role", .str (js "guest"))])]
    formed := by decide +kernel }

def ownerRole : JsonValue :=
  { json := .obj [(protoKey, .obj [(js "role", .str (js "owner"))])]
    formed := by decide +kernel }

theorem proto_roles_confused :
    canonicalJson guestRole.json = canonicalJson ownerRole.json ∧
      valueEquals (some guestRole.json) ownerRole.json = true ∧
      same guestRole.json ownerRole.json = false := by
  decide +kernel

end Webhooks
