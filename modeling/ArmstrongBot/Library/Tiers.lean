import ArmstrongBot.Library.JsMap

/-! A cache of two levels: one that every process has to itself, and one that all of them share. -/

namespace Tiers

inductive Level
  | own (process : Nat)
  | shared
  deriving DecidableEq

end Tiers

abbrev Tiers (κ ν : Type*) := JsMap (Tiers.Level × κ) ν

namespace Tiers

variable {κ ν : Type*} {holds other : κ → ν → Prop} {tiers : Tiers κ ν}

/-- What is cached under a key is `holds` of it, on every level. -/
def Every (holds : κ → ν → Prop) (tiers : Tiers κ ν) : Prop :=
  ∀ entry ∈ tiers.entries, holds entry.1.2 entry.2

instance [∀ key value, Decidable (holds key value)] : Decidable (Every holds tiers) :=
  inferInstanceAs (Decidable (∀ _ ∈ _, _))

theorem every_empty : Every holds (JsMap.empty : Tiers κ ν) := by
  intro entry member
  cases member

theorem Every.mono (every : Every holds tiers)
    (implies : ∀ key value, holds key value → other key value) : Every other tiers :=
  fun entry member => implies entry.1.2 entry.2 (every entry member)

theorem Every.and (left : Every holds tiers) (right : Every other tiers) :
    Every (fun key value => holds key value ∧ other key value) tiers :=
  fun entry member => ⟨left entry member, right entry member⟩

variable [DecidableEq κ]

theorem Every.get (every : Every holds tiers) {level : Level} {key : κ} {value : ν}
    (found : tiers.get (level, key) = some value) : holds key value :=
  every ((level, key), value) (JsMap.get_eq_some.mp found)

theorem Every.set (every : Every holds tiers) (level : Level) {key : κ} {value : ν}
    (meets : holds key value) : Every holds (tiers.set (level, key) value) := by
  intro entry member
  rcases JsMap.mem_set.mp member with rfl | ⟨earlier, _⟩
  · exact meets
  · exact every entry earlier

theorem Every.delete (every : Every holds tiers) (place : Level × κ) :
    Every holds (tiers.delete place) :=
  fun entry member => every entry (JsMap.mem_delete.mp member).1

/-- Nothing is cached under the key. -/
def Lacks (key : κ) (tiers : Tiers κ ν) : Prop := Every (fun other _ => other ≠ key) tiers

instance (key : κ) : Decidable (Lacks key tiers) := inferInstanceAs (Decidable (Every _ tiers))

theorem Lacks.get {key : κ} (lacks : Lacks key tiers) (level : Level) :
    tiers.get (level, key) = none := by
  cases found : tiers.get (level, key) with
  | none => rfl
  | some value => exact absurd rfl (Every.get lacks found)

/-- The level has something under the key. -/
def Holds (tiers : Tiers κ ν) (level : Level) (key : κ) : Prop :=
  ∃ value, ((level, key), value) ∈ tiers.entries

theorem holds_iff {level : Level} {key : κ} :
    Holds tiers level key ↔ ∃ value, tiers.get (level, key) = some value := by
  simp [Holds, JsMap.get_eq_some]

theorem Holds.of_set {level place : Level} {key placed : κ} {value : ν}
    (after : Holds (tiers.set (place, placed) value) level key) :
    level = place ∧ key = placed ∨ Holds tiers level key := by
  obtain ⟨found, member⟩ := after
  rcases JsMap.mem_set.mp member with isNew | ⟨earlier, _⟩
  · have samePlace := congrArg Prod.fst isNew
    exact .inl (Prod.mk.inj samePlace)
  · exact .inr ⟨found, earlier⟩

theorem Holds.of_delete {level : Level} {key : κ} {place : Level × κ}
    (after : Holds (tiers.delete place) level key) :
    (level, key) ≠ place ∧ Holds tiers level key := by
  obtain ⟨found, member⟩ := after
  obtain ⟨earlier, apart⟩ := JsMap.mem_delete.mp member
  exact ⟨apart, found, earlier⟩

end Tiers
