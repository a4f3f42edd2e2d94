import ArmstrongBot.Library.Json
import Mathlib.Data.List.Perm.Subperm
import Mathlib.Data.List.Sort
import Mathlib.Data.Option.Basic

/-! The fields of ECMAScript objects: assignment with the own-key order it keeps, fields sorted
by key, and equality of JSON values up to the order of fields. -/

namespace JsJson

open JsText

theorem Json.induct {motive : Json → Prop} (null : motive .null)
    (bool : ∀ value, motive (.bool value)) (num : ∀ value, motive (.num value))
    (str : ∀ value, motive (.str value))
    (arr : ∀ items, (∀ item ∈ items, motive item) → motive (.arr items))
    (obj : ∀ fields, (∀ field ∈ fields, motive field.2) → motive (.obj fields)) :
    ∀ value, motive value := by
  intro value
  refine @Json.rec motive (fun items => ∀ item ∈ items, motive item)
    (fun fields => ∀ field ∈ fields, motive field.2) (fun field => motive field.2)
    null bool num str arr obj ?_ ?_ ?_ ?_ ?_ value
  · simp
  · intro item items first rest
    exact List.forall_mem_cons.mpr ⟨first, rest⟩
  · simp
  · intro field fields first rest
    exact List.forall_mem_cons.mpr ⟨first, rest⟩
  · intro key value holds
    exact holds

/-! Fields of pairwise distinct keys. -/

abbrev Fields := List (JsString × Json)

def keys (fields : Fields) : List JsString := fields.map Prod.fst

theorem mem_keys {fields : Fields} {key : JsString} :
    key ∈ keys fields ↔ ∃ value, (key, value) ∈ fields := by
  simp [keys]

theorem lookup_cons_of_ne (fields : Fields) {key other : JsString} (value : Json)
    (apart : other ≠ key) : ((key, value) :: fields).lookup other = fields.lookup other := by
  rw [List.lookup_cons, beq_false_of_ne apart]

theorem lookup_mem {fields : Fields} {key : JsString} {value : Json}
    (found : fields.lookup key = some value) : (key, value) ∈ fields := mem_of_lookup found

theorem lookup_of_mem {fields : Fields} (distinct : (keys fields).Nodup) {key : JsString}
    {value : Json} (member : (key, value) ∈ fields) : fields.lookup key = some value := by
  induction fields with
  | nil => simp at member
  | cons field fields ih =>
      obtain ⟨first, firstValue⟩ := field
      simp only [keys, List.map_cons, List.nodup_cons] at distinct
      rcases List.mem_cons.mp member with same | later
      · obtain ⟨rfl, rfl⟩ := Prod.mk.inj same
        exact List.lookup_cons_self
      · have other : key ≠ first := by
          rintro rfl
          exact distinct.1 (mem_keys.mpr ⟨value, later⟩)
        rw [List.lookup_cons, beq_false_of_ne other]
        exact ih distinct.2 later

theorem lookup_iff_mem {fields : Fields} (distinct : (keys fields).Nodup) {key : JsString}
    {value : Json} : fields.lookup key = some value ↔ (key, value) ∈ fields :=
  ⟨lookup_mem, lookup_of_mem distinct⟩

theorem lookup_eq_none_iff {fields : Fields} {key : JsString} :
    fields.lookup key = none ↔ key ∉ keys fields := by
  rw [List.lookup_eq_none_iff]
  simp only [keys, List.mem_map, not_exists, not_and, bne_iff_ne, ne_eq]
  constructor
  · intro absent field member same
    exact absent field member same.symm
  · intro absent field member same
    exact absent field member same.symm

theorem nodup_of_keys {fields : Fields} (distinct : (keys fields).Nodup) : fields.Nodup :=
  List.Nodup.of_map Prod.fst distinct

theorem perm_of_lookup {left right : Fields} (leftDistinct : (keys left).Nodup)
    (rightDistinct : (keys right).Nodup) (same : ∀ key, left.lookup key = right.lookup key) :
    left.Perm right := by
  rw [List.perm_ext_iff_of_nodup (nodup_of_keys leftDistinct) (nodup_of_keys rightDistinct)]
  rintro ⟨key, value⟩
  rw [← lookup_iff_mem leftDistinct, ← lookup_iff_mem rightDistinct, same]

theorem lookup_perm {left right : Fields} (leftDistinct : (keys left).Nodup)
    (perm : left.Perm right) (key : JsString) : left.lookup key = right.lookup key := by
  have rightDistinct : (keys right).Nodup := (perm.map Prod.fst).nodup_iff.mp leftDistinct
  apply Option.ext
  intro value
  rw [lookup_iff_mem leftDistinct, lookup_iff_mem rightDistinct, perm.mem_iff]

theorem lookup_filter (keep : JsString → Bool) (fields : Fields) (key : JsString) :
    (fields.filter fun field => keep field.1).lookup key =
      if keep key then fields.lookup key else none := by
  induction fields with
  | nil => simp
  | cons field fields ih =>
      obtain ⟨first, value⟩ := field
      by_cases same : key = first
      · subst same
        by_cases kept : keep key = true
        · simp [kept]
        · simp only [kept, List.filter_cons, ih, Bool.false_eq_true, if_false]
      · by_cases kept : keep first = true
        · simp [kept, List.lookup_cons, beq_false_of_ne same, ih]
        · simp [kept, List.lookup_cons, beq_false_of_ne same, ih]

theorem keys_filter_nodup {fields : Fields} (distinct : (keys fields).Nodup)
    (keep : JsString × Json → Bool) : (keys (fields.filter keep)).Nodup :=
  distinct.sublist (List.filter_sublist.map Prod.fst)

def mapValues (change : JsString → Json → Json) (fields : Fields) : Fields :=
  fields.map fun field => (field.1, change field.1 field.2)

@[simp] theorem keys_mapValues (change : JsString → Json → Json) (fields : Fields) :
    keys (mapValues change fields) = keys fields := by
  simp [keys, mapValues]

theorem lookup_mapValues (change : JsString → Json → Json) (fields : Fields) (key : JsString) :
    (mapValues change fields).lookup key = (fields.lookup key).map (change key) := by
  induction fields with
  | nil => rfl
  | cons field fields ih =>
      obtain ⟨first, value⟩ := field
      by_cases same : key = first
      · subst same
        simp [mapValues]
      · rw [lookup_cons_of_ne _ _ same, ← ih]
        exact lookup_cons_of_ne _ _ same

theorem rel_map_iff {left right : Option Json} {relation : Json → Json → Prop}
    {first second : Json → Json} :
    Option.Rel relation (left.map first) (right.map second) ↔
      Option.Rel (fun one other => relation (first one) (second other)) left right := by
  cases left <;> cases right <;> simp

theorem optionRel_imp {left right : Option Json} {first second : Json → Json → Prop}
    (implies : ∀ one ∈ left, ∀ other ∈ right, first one other → second one other)
    (related : Option.Rel first left right) : Option.Rel second left right := by
  cases related with
  | none => exact .none
  | some holds => exact .some (implies _ rfl _ rfl holds)

theorem optionRel_congr {left right : Option Json} {first second : Json → Json → Prop}
    (iff_ : ∀ one ∈ left, ∀ other ∈ right, (first one other ↔ second one other)) :
    Option.Rel first left right ↔ Option.Rel second left right :=
  ⟨optionRel_imp fun one member other otherMember => (iff_ one member other otherMember).mp,
    optionRel_imp fun one member other otherMember => (iff_ one member other otherMember).mpr⟩

theorem lookup_rel_iff {left right : Fields} {relation : Json → Json → Prop}
    (sameKeys : keys left = keys right) (distinct : (keys left).Nodup) :
    (∀ key, Option.Rel relation (left.lookup key) (right.lookup key)) ↔
      List.Forall₂ (fun first second => relation first.2 second.2) left right := by
  induction left generalizing right with
  | nil =>
      obtain rfl : right = [] := by simpa [keys] using sameKeys.symm
      simp
  | cons field fields ih =>
      cases right with
      | nil => simp [keys] at sameKeys
      | cons other others =>
          obtain ⟨key, value⟩ := field
          obtain ⟨otherKey, otherValue⟩ := other
          simp only [keys, List.map_cons, List.cons.injEq] at sameKeys
          obtain ⟨rfl, tailKeys⟩ := sameKeys
          simp only [keys, List.map_cons, List.nodup_cons] at distinct
          rw [List.forall₂_cons, ← ih tailKeys distinct.2]
          have absent : fields.lookup key = none := lookup_eq_none_iff.mpr distinct.1
          have otherAbsent : others.lookup key = none := by
            rw [lookup_eq_none_iff, keys, ← tailKeys]
            exact distinct.1
          constructor
          · intro all
            refine ⟨by simpa using all key, ?_⟩
            intro name
            by_cases same : name = key
            · rw [same, absent, otherAbsent]
              exact .none
            · have related := all name
              rwa [lookup_cons_of_ne _ _ same, lookup_cons_of_ne _ _ same] at related
          · rintro ⟨head, tail⟩ name
            by_cases same : name = key
            · subst same
              rw [List.lookup_cons_self, List.lookup_cons_self]
              exact .some head
            · rw [lookup_cons_of_ne _ _ same, lookup_cons_of_ne _ _ same]
              exact tail name

theorem rel_iff_of_sameKeys {left right : Fields} {relation : Json → Json → Prop}
    (sameKeys : keys left = keys right) (key : JsString) :
    Option.Rel relation (left.lookup key) (right.lookup key) ↔
      ∀ value ∈ left.lookup key, ∀ other ∈ right.lookup key, relation value other := by
  cases found : left.lookup key with
  | none =>
      have otherAbsent : right.lookup key = none := by
        rw [lookup_eq_none_iff, ← sameKeys]
        exact lookup_eq_none_iff.mp found
      simp [otherAbsent]
  | some value =>
      cases otherFound : right.lookup key with
      | none =>
          have absent := lookup_eq_none_iff.mp otherFound
          rw [← sameKeys, ← lookup_eq_none_iff, found] at absent
          simp at absent
      | some other => simp

theorem itemsRel_congr {left right : List Json} {first second : Json → Json → Prop}
    (iff_ : ∀ one ∈ left, ∀ other ∈ right, (first one other ↔ second one other)) :
    List.Forall₂ first left right ↔ List.Forall₂ second left right := by
  induction left generalizing right with
  | nil => simp
  | cons item items ih =>
      cases right with
      | nil => simp
      | cons other others =>
          rw [List.forall₂_cons, List.forall₂_cons, iff_ item (by simp) other (by simp),
            ih fun one member next nextMember => iff_ one (by simp [member]) next (by simp [nextMember])]

/-! Fields sorted by the code units of their keys. -/

def keyLe (left right : JsString × Json) : Prop := left.1 ≤ right.1

instance : DecidableRel keyLe := fun left right => inferInstanceAs (Decidable (left.1 ≤ right.1))

instance : Std.Total keyLe := ⟨fun left right => le_total left.1 right.1⟩

instance : IsTrans (JsString × Json) keyLe := ⟨fun _ _ _ => le_trans⟩

/-- `Object.keys(record).sort()`, each key with its value. -/
def sortFields (fields : Fields) : Fields := fields.insertionSort keyLe

theorem sortFields_perm (fields : Fields) : (sortFields fields).Perm fields :=
  List.perm_insertionSort keyLe fields

theorem sortFields_strict {fields : Fields} (distinct : (keys fields).Nodup) :
    (sortFields fields).Pairwise fun first second => first.1 < second.1 := by
  have sorted : (sortFields fields).Pairwise keyLe := List.pairwise_insertionSort keyLe fields
  have sortedDistinct : (keys (sortFields fields)).Nodup :=
    ((sortFields_perm fields).map Prod.fst).nodup_iff.mpr distinct
  have apart := List.pairwise_map.mp sortedDistinct
  refine List.Pairwise.imp ?_ (sorted.and apart)
  intro first second both
  exact lt_of_le_of_ne both.1 both.2

theorem sorted_eq {left right : Fields}
    (leftSorted : left.Pairwise fun first second => first.1 < second.1)
    (rightSorted : right.Pairwise fun first second => first.1 < second.1)
    (perm : left.Perm right) : left = right := by
  refine perm.eq_of_pairwise ?_ leftSorted rightSorted
  intro first second _ _ before after
  exact absurd before (lt_asymm after)

/-! Assignment of a property to an ordinary object. -/

def protoKey : JsString := js "__proto__"

/-- Array indices come before the other keys of an object, in ascending order. -/
def isArrayIndex (key : JsString) : Bool :=
  key == natText (readNat key) && decide (readNat key < 4294967295)

def precedes (key other : JsString) : Bool :=
  isArrayIndex key && (!isArrayIndex other || decide (readNat key < readNat other))

def insertField (fields : Fields) (key : JsString) (value : Json) : Fields :=
  match fields with
  | [] => [(key, value)]
  | (other, otherValue) :: rest =>
      if key = other then (key, value) :: rest
      else if precedes key other then (key, value) :: (other, otherValue) :: rest
      else (other, otherValue) :: insertField rest key value

/-- `object[key] = value`. The key `__proto__` reaches the setter of `Object.prototype`, which
makes no property of the object's own. -/
def assign (fields : Fields) (field : JsString × Json) : Fields :=
  if field.1 = protoKey then fields else insertField fields field.1 field.2

theorem lookup_insertField (fields : Fields) (key : JsString) (value : Json) (other : JsString) :
    (insertField fields key value).lookup other =
      if other = key then some value else fields.lookup other := by
  by_cases same : other = key
  · subst same
    rw [if_pos rfl]
    induction fields with
    | nil => exact List.lookup_cons_self
    | cons field fields ih =>
        obtain ⟨first, firstValue⟩ := field
        unfold insertField
        split
        · exact List.lookup_cons_self
        · rename_i apart
          split
          · exact List.lookup_cons_self
          · rw [lookup_cons_of_ne _ _ apart, ih]
  · rw [if_neg same]
    induction fields with
    | nil => exact lookup_cons_of_ne _ _ same
    | cons field fields ih =>
        obtain ⟨first, firstValue⟩ := field
        unfold insertField
        split
        · rename_i replaced
          rw [lookup_cons_of_ne _ _ same, lookup_cons_of_ne _ _ (replaced ▸ same)]
        · split
          · exact lookup_cons_of_ne _ _ same
          · rw [List.lookup_cons, List.lookup_cons, ih]

theorem assign_proto (fields : Fields) (value : Json) : assign fields (protoKey, value) = fields :=
  if_pos rfl

theorem foldl_assign_filter (start fields : Fields) :
    fields.foldl assign start =
      (fields.filter fun field => field.1 != protoKey).foldl assign start := by
  induction fields generalizing start with
  | nil => rfl
  | cons field fields ih =>
      by_cases proto : field.1 = protoKey
      · simp [proto, assign, ih]
      · simp [proto, ih]

theorem lookup_foldl_assign {fields : Fields} (distinct : (keys fields).Nodup) (start : Fields)
    (key : JsString) :
    (fields.foldl assign start).lookup key =
      if key = protoKey then start.lookup key else (fields.lookup key).or (start.lookup key) := by
  induction fields generalizing start with
  | nil => simp
  | cons field fields ih =>
      obtain ⟨first, value⟩ := field
      simp only [keys, List.map_cons, List.nodup_cons] at distinct
      rw [List.foldl_cons, ih distinct.2]
      by_cases proto : first = protoKey
      · subst proto
        rw [assign_proto]
        split
        · rfl
        · rename_i apart
          rw [lookup_cons_of_ne _ _ apart]
      · simp only [assign, if_neg proto, lookup_insertField]
        by_cases same : key = first
        · subst same
          have absent : fields.lookup key = none := lookup_eq_none_iff.mpr distinct.1
          simp [proto, absent]
        · rw [if_neg same, lookup_cons_of_ne _ _ same]

/-! Equality up to the order of fields. -/

mutual

def same : Json → Json → Bool
  | .null, .null => true
  | .bool left, .bool right => left == right
  | .num left, .num right => decide (left = right)
  | .str left, .str right => left == right
  | .arr left, .arr right => sameItems left right
  | .obj left, .obj right => left.length == right.length && sameFields left right
  | _, _ => false

def sameItems : List Json → List Json → Bool
  | [], [] => true
  | left :: lefts, right :: rights => same left right && sameItems lefts rights
  | _, _ => false

/-- Every field on the left has a field of its key and value on the right. -/
def sameFields : Fields → Fields → Bool
  | [], _ => true
  | (key, value) :: fields, others =>
      (match others.lookup key with
        | some other => same value other
        | none => false) && sameFields fields others

end

mutual

/-- No object at any depth has two fields of one key. -/
def wellFormed : Json → Bool
  | .arr items => itemsWellFormed items
  | .obj fields => decide (keys fields).Nodup && fieldsWellFormed fields
  | _ => true

def itemsWellFormed : List Json → Bool
  | [] => true
  | item :: items => wellFormed item && itemsWellFormed items

def fieldsWellFormed : Fields → Bool
  | [] => true
  | (_, value) :: fields => wellFormed value && fieldsWellFormed fields

end

theorem sameItems_iff {left right : List Json} :
    sameItems left right = true ↔
      List.Forall₂ (fun first second => same first second = true) left right := by
  induction left generalizing right with
  | nil =>
      cases right with
      | nil => simp [sameItems]
      | cons item items => simp [sameItems]
  | cons item items ih =>
      cases right with
      | nil => simp [sameItems]
      | cons other others => simp [sameItems, ih]

theorem sameFields_iff {left right : Fields} :
    sameFields left right = true ↔
      ∀ key value, (key, value) ∈ left →
        ∃ other, right.lookup key = some other ∧ same value other = true := by
  induction left with
  | nil => simp [sameFields]
  | cons field fields ih =>
      obtain ⟨first, firstValue⟩ := field
      rw [sameFields, Bool.and_eq_true, ih]
      constructor
      · rintro ⟨head, tail⟩ key value member
        rcases List.mem_cons.mp member with equal | later
        · obtain ⟨rfl, rfl⟩ := Prod.mk.inj equal
          cases found : right.lookup key with
          | none => simp [found] at head
          | some other => exact ⟨other, rfl, by simpa [found] using head⟩
        · exact tail key value later
      · intro all
        refine ⟨?_, fun key value member => all key value (List.mem_cons_of_mem _ member)⟩
        obtain ⟨other, found, equal⟩ := all first firstValue List.mem_cons_self
        simp [found, equal]

theorem same_arr_iff {left right : List Json} :
    same (.arr left) (.arr right) = true ↔
      List.Forall₂ (fun first second => same first second = true) left right := by
  rw [same, sameItems_iff]

theorem same_obj_iff {left right : Fields} (leftDistinct : (keys left).Nodup)
    (rightDistinct : (keys right).Nodup) :
    same (.obj left) (.obj right) = true ↔
      ∀ key, Option.Rel (fun first second => same first second = true)
        (left.lookup key) (right.lookup key) := by
  rw [same, Bool.and_eq_true, beq_iff_eq, sameFields_iff]
  constructor
  · rintro ⟨length, all⟩ key
    cases found : left.lookup key with
    | some value =>
        obtain ⟨other, otherFound, equal⟩ := all key value (lookup_mem found)
        rw [otherFound]
        exact .some equal
    | none =>
        have subset : keys left ⊆ keys right := by
          intro known member
          obtain ⟨value, field⟩ := mem_keys.mp member
          obtain ⟨other, otherFound, _⟩ := all known value field
          exact mem_keys.mpr ⟨other, lookup_mem otherFound⟩
        have sameLength : (keys right).length ≤ (keys left).length := by
          simp only [keys, List.length_map, length, le_refl]
        have perm : (keys left).Perm (keys right) :=
          (leftDistinct.subperm subset).perm_of_length_le sameLength
        have absent : right.lookup key = none := by
          rw [lookup_eq_none_iff, ← perm.mem_iff]
          exact lookup_eq_none_iff.mp found
        rw [absent]
        exact .none
  · intro all
    have memberIff (key : JsString) : key ∈ keys left ↔ key ∈ keys right := by
      have related := all key
      rw [← not_iff_not, ← lookup_eq_none_iff, ← lookup_eq_none_iff]
      cases leftFound : left.lookup key <;> cases rightFound : right.lookup key <;>
        simp_all
    have perm := (List.perm_ext_iff_of_nodup leftDistinct rightDistinct).mpr memberIff
    refine ⟨by simpa [keys] using perm.length_eq, ?_⟩
    intro key value member
    have related := all key
    rw [lookup_of_mem leftDistinct member] at related
    cases rightFound : right.lookup key with
    | none => simp [rightFound] at related
    | some other => exact ⟨other, rfl, by simpa [rightFound] using related⟩

theorem itemsWellFormed_iff {items : List Json} :
    itemsWellFormed items = true ↔ ∀ item ∈ items, wellFormed item = true := by
  induction items with
  | nil => simp [itemsWellFormed]
  | cons item items ih => simp [itemsWellFormed, ih]

theorem fieldsWellFormed_iff {fields : Fields} :
    fieldsWellFormed fields = true ↔ ∀ field ∈ fields, wellFormed field.2 = true := by
  induction fields with
  | nil => simp [fieldsWellFormed]
  | cons field fields ih =>
      obtain ⟨key, value⟩ := field
      rw [fieldsWellFormed, Bool.and_eq_true, ih, List.forall_mem_cons]

theorem wellFormed_arr {items : List Json} :
    wellFormed (.arr items) = true ↔ ∀ item ∈ items, wellFormed item = true := by
  rw [wellFormed, itemsWellFormed_iff]

theorem wellFormed_obj {fields : Fields} :
    wellFormed (.obj fields) = true ↔
      (keys fields).Nodup ∧ ∀ field ∈ fields, wellFormed field.2 = true := by
  rw [wellFormed, Bool.and_eq_true, decide_eq_true_eq, fieldsWellFormed_iff]

end JsJson
