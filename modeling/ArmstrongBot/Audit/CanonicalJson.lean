import ArmstrongBot.Library.JsonObject

/-! The canonical serialisation of `domain/canonical-json.ts` over JSON values, and what it
determines of a value: everything outside the fields named `__proto__`. -/

namespace Audit

open JsText JsJson

mutual

/-- `normalise`: the keys of every object sorted, then assigned one by one to a fresh object. -/
def normalise : Json → Json
  | .arr items => .arr (normaliseItems items)
  | .obj fields => .obj ((sortFields (normaliseFields fields)).foldl assign [])
  | value => value

def normaliseItems : List Json → List Json
  | [] => []
  | item :: items => normalise item :: normaliseItems items

def normaliseFields : Fields → Fields
  | [] => []
  | (key, value) :: fields => (key, normalise value) :: normaliseFields fields

end

def canonicalJson (value : Json) : JsString := stringify (normalise value)

/-! A value without its `__proto__` fields, and what two values hold in such fields. -/

mutual

def dropProto : Json → Json
  | .arr items => .arr (dropProtoItems items)
  | .obj fields => .obj ((dropProtoFields fields).filter fun field => field.1 != protoKey)
  | value => value

def dropProtoItems : List Json → List Json
  | [] => []
  | item :: items => dropProto item :: dropProtoItems items

def dropProtoFields : Fields → Fields
  | [] => []
  | (key, value) :: fields => (key, dropProto value) :: dropProtoFields fields

end

/-- Two objects hold the same under `__proto__`, or both hold nothing there. -/
def protoHeld (left right : Fields) : Bool :=
  match left.lookup protoKey, right.lookup protoKey with
  | none, none => true
  | some value, some other => same value other
  | _, _ => false

mutual

/-- Wherever both values have an object in one place, the two hold the same under `__proto__`. -/
def protoAgrees : Json → Json → Bool
  | .arr left, .arr right => protoAgreesItems left right
  | .obj left, .obj right => protoHeld left right && protoAgreesFields left right
  | _, _ => true

def protoAgreesItems : List Json → List Json → Bool
  | left :: lefts, right :: rights => protoAgrees left right && protoAgreesItems lefts rights
  | _, _ => true

def protoAgreesFields : Fields → Fields → Bool
  | [], _ => true
  | (key, value) :: fields, others =>
      (match others.lookup key with
        | some other => key == protoKey || protoAgrees value other
        | none => true) && protoAgreesFields fields others

end

theorem normaliseItems_eq (items : List Json) : normaliseItems items = items.map normalise := by
  induction items with
  | nil => rfl
  | cons item items ih => rw [normaliseItems, ih, List.map_cons]

theorem normaliseFields_eq (fields : Fields) :
    normaliseFields fields = mapValues (fun _ => normalise) fields := by
  induction fields with
  | nil => rfl
  | cons field fields ih =>
      rw [normaliseFields, ih]
      rfl

theorem dropProtoItems_eq (items : List Json) : dropProtoItems items = items.map dropProto := by
  induction items with
  | nil => rfl
  | cons item items ih => rw [dropProtoItems, ih, List.map_cons]

theorem dropProtoFields_eq (fields : Fields) :
    dropProtoFields fields = mapValues (fun _ => dropProto) fields := by
  induction fields with
  | nil => rfl
  | cons field fields ih =>
      rw [dropProtoFields, ih]
      rfl

/-! What each operation leaves under a key. -/

theorem lookup_normalise {fields : Fields} (distinct : (keys fields).Nodup) (key : JsString) :
    ((sortFields (normaliseFields fields)).foldl assign []).lookup key =
      if key = protoKey then none else (fields.lookup key).map normalise := by
  have normalised : (keys (normaliseFields fields)).Nodup := by
    rw [normaliseFields_eq, keys_mapValues]
    exact distinct
  have perm := sortFields_perm (normaliseFields fields)
  have sorted : (keys (sortFields (normaliseFields fields))).Nodup :=
    (perm.map Prod.fst).nodup_iff.mpr normalised
  rw [lookup_foldl_assign sorted, lookup_perm sorted perm, normaliseFields_eq, lookup_mapValues]
  simp

theorem lookup_dropProto (fields : Fields) (key : JsString) :
    ((dropProtoFields fields).filter fun field => field.1 != protoKey).lookup key =
      if key = protoKey then none else (fields.lookup key).map dropProto := by
  rw [lookup_filter (fun key => key != protoKey), dropProtoFields_eq, lookup_mapValues]
  by_cases proto : key = protoKey <;> simp [proto]

theorem normalise_obj_eq_iff {left right : Fields} (leftDistinct : (keys left).Nodup)
    (rightDistinct : (keys right).Nodup) :
    normalise (.obj left) = normalise (.obj right) ↔
      ∀ key, key ≠ protoKey → Option.Rel (fun first second => normalise first = normalise second)
        (left.lookup key) (right.lookup key) := by
  have relEq (first second : Option Json) : Option.Rel
      (fun one other => normalise one = normalise other) first second ↔
        first.map normalise = second.map normalise := by
    cases first <;> cases second <;> simp
  simp only [normalise, Json.obj.injEq, relEq]
  constructor
  · intro equal key apart
    have lookups := congrArg (fun fields => fields.lookup key) equal
    simpa [lookup_normalise leftDistinct, lookup_normalise rightDistinct, apart] using lookups
  · intro all
    rw [foldl_assign_filter [] (sortFields (normaliseFields left)),
      foldl_assign_filter [] (sortFields (normaliseFields right))]
    congr 1
    have normalisedKeys {fields : Fields} (distinct : (keys fields).Nodup) :
        (keys (normaliseFields fields)).Nodup := by
      rw [normaliseFields_eq, keys_mapValues]
      exact distinct
    have strict {fields : Fields} (distinct : (keys fields).Nodup) :=
      (sortFields_strict (normalisedKeys distinct)).filter fun field => field.1 != protoKey
    apply sorted_eq (strict leftDistinct) (strict rightDistinct)
    have unsorted (fields : Fields) :=
      (sortFields_perm (normaliseFields fields)).filter fun field => field.1 != protoKey
    refine (unsorted left).trans (List.Perm.trans ?_ (unsorted right).symm)
    refine perm_of_lookup (keys_filter_nodup (normalisedKeys leftDistinct) _)
      (keys_filter_nodup (normalisedKeys rightDistinct) _) ?_
    intro key
    rw [lookup_filter (fun key => key != protoKey), lookup_filter (fun key => key != protoKey),
      normaliseFields_eq, normaliseFields_eq, lookup_mapValues, lookup_mapValues]
    by_cases proto : key = protoKey
    · simp [proto]
    · simpa [proto] using all key proto

theorem same_dropProto_obj_iff {left right : Fields} (leftDistinct : (keys left).Nodup)
    (rightDistinct : (keys right).Nodup) :
    same (dropProto (.obj left)) (dropProto (.obj right)) = true ↔
      ∀ key, key ≠ protoKey →
        Option.Rel (fun first second => same (dropProto first) (dropProto second) = true)
          (left.lookup key) (right.lookup key) := by
  have droppedKeys {fields : Fields} (distinct : (keys fields).Nodup) :
      (keys ((dropProtoFields fields).filter fun field => field.1 != protoKey)).Nodup := by
    refine keys_filter_nodup ?_ _
    rw [dropProtoFields_eq, keys_mapValues]
    exact distinct
  simp only [dropProto]
  rw [same_obj_iff (droppedKeys leftDistinct) (droppedKeys rightDistinct)]
  simp only [lookup_dropProto]
  constructor
  · intro all key apart
    have related := all key
    rwa [if_neg apart, if_neg apart, rel_map_iff] at related
  · intro all key
    by_cases proto : key = protoKey
    · rw [if_pos proto, if_pos proto]
      exact .none
    · rw [if_neg proto, if_neg proto, rel_map_iff]
      exact all key proto

theorem protoHeld_iff {left right : Fields} : protoHeld left right = true ↔
    Option.Rel (fun first second => same first second = true)
      (left.lookup protoKey) (right.lookup protoKey) := by
  unfold protoHeld
  cases left.lookup protoKey <;> cases right.lookup protoKey <;> simp

theorem protoAgreesFields_iff {left right : Fields} :
    protoAgreesFields left right = true ↔ ∀ key value, (key, value) ∈ left → key ≠ protoKey →
      ∀ other ∈ right.lookup key, protoAgrees value other = true := by
  induction left with
  | nil => simp [protoAgreesFields]
  | cons field fields ih =>
      obtain ⟨first, firstValue⟩ := field
      rw [protoAgreesFields, Bool.and_eq_true, ih]
      constructor
      · rintro ⟨head, tail⟩ key value member apart other found
        rcases List.mem_cons.mp member with equal | later
        · obtain ⟨rfl, rfl⟩ := Prod.mk.inj equal
          rw [Option.mem_def.mp found] at head
          simpa [apart] using head
        · exact tail key value later apart other found
      · intro all
        refine ⟨?_, fun key value member => all key value (List.mem_cons_of_mem _ member)⟩
        cases found : right.lookup first with
        | none => rfl
        | some other =>
            by_cases proto : first = protoKey
            · simp [proto]
            · simp [all first firstValue List.mem_cons_self proto other found]

theorem protoAgrees_obj_iff {left right : Fields} (leftDistinct : (keys left).Nodup) :
    protoAgrees (.obj left) (.obj right) = true ↔
      Option.Rel (fun first second => same first second = true)
          (left.lookup protoKey) (right.lookup protoKey) ∧
        ∀ key, key ≠ protoKey → ∀ value ∈ left.lookup key, ∀ other ∈ right.lookup key,
          protoAgrees value other = true := by
  rw [protoAgrees, Bool.and_eq_true, protoHeld_iff, protoAgreesFields_iff]
  refine and_congr_right fun _ => ?_
  constructor
  · intro all key apart value found other otherFound
    exact all key value (lookup_mem found) apart other otherFound
  · intro all key value member apart other otherFound
    exact all key apart value (lookup_of_mem leftDistinct member) other otherFound

theorem same_arr_iff_parts {left right : List Json}
    (halves : ∀ item ∈ left, ∀ other ∈ right, same item other = true ↔
      same (dropProto item) (dropProto other) = true ∧ protoAgrees item other = true) :
    sameItems left right = true ↔
      sameItems (dropProtoItems left) (dropProtoItems right) = true ∧
        protoAgreesItems left right = true := by
  induction left generalizing right with
  | nil => cases right <;> simp [sameItems, dropProtoItems, protoAgreesItems]
  | cons item items ih =>
      cases right with
      | nil => simp [sameItems, dropProtoItems]
      | cons other others =>
          have tail := ih fun one member next nextMember =>
            halves one (List.mem_cons_of_mem _ member) next (List.mem_cons_of_mem _ nextMember)
          simp only [sameItems, dropProtoItems, protoAgreesItems, Bool.and_eq_true,
            halves item List.mem_cons_self other List.mem_cons_self, tail]
          exact and_and_and_comm

/-! Values of one canonical text. -/

/-- Well-formed values have one canonical form exactly when they are the same outside the fields
named `__proto__`. -/
theorem normalise_eq_iff {left right : Json} (leftFormed : wellFormed left = true)
    (rightFormed : wellFormed right = true) :
    normalise left = normalise right ↔ same (dropProto left) (dropProto right) = true := by
  induction left using Json.induct generalizing right with
  | null => cases right <;> simp [normalise, dropProto, same]
  | bool value => cases right <;> simp [normalise, dropProto, same]
  | num value => cases right <;> simp [normalise, dropProto, same]
  | str value => cases right <;> simp [normalise, dropProto, same]
  | arr items ih =>
      cases right with
      | arr others =>
          rw [wellFormed_arr] at leftFormed rightFormed
          simp only [normalise, dropProto, Json.arr.injEq, same_arr_iff, normaliseItems_eq,
            dropProtoItems_eq, List.forall₂_map_left_iff, List.forall₂_map_right_iff]
          rw [← List.forall₂_eq_eq_eq, List.forall₂_map_left_iff, List.forall₂_map_right_iff]
          apply itemsRel_congr
          intro item member other otherMember
          exact ih item member (leftFormed item member) (rightFormed other otherMember)
      | null | bool _ | num _ | str _ | obj _ => simp [normalise, dropProto, same]
  | obj fields ih =>
      cases right with
      | obj others =>
          rw [wellFormed_obj] at leftFormed rightFormed
          rw [normalise_obj_eq_iff leftFormed.1 rightFormed.1,
            same_dropProto_obj_iff leftFormed.1 rightFormed.1]
          refine forall_congr' fun key => imp_congr_right fun _ => ?_
          apply optionRel_congr
          intro value found other otherFound
          exact ih (key, value) (lookup_mem found) (leftFormed.2 _ (lookup_mem found))
            (rightFormed.2 _ (lookup_mem otherFound))
      | null | bool _ | num _ | str _ | arr _ => simp [normalise, dropProto, same]

theorem canonicalJson_eq_iff {left right : Json} (leftFormed : wellFormed left = true)
    (rightFormed : wellFormed right = true) :
    canonicalJson left = canonicalJson right ↔ same (dropProto left) (dropProto right) = true := by
  rw [← normalise_eq_iff leftFormed rightFormed]
  exact ⟨stringify_injective, fun equal => by rw [canonicalJson, equal, canonicalJson]⟩

/-- Two values are the same when they are the same without their `__proto__` fields and agree
on these. -/
theorem same_iff_halves {left right : Json} (leftFormed : wellFormed left = true)
    (rightFormed : wellFormed right = true) :
    same left right = true ↔ same (dropProto left) (dropProto right) = true ∧
      protoAgrees left right = true := by
  induction left using Json.induct generalizing right with
  | null => cases right <;> simp [dropProto, protoAgrees, same]
  | bool value => cases right <;> simp [dropProto, protoAgrees, same]
  | num value => cases right <;> simp [dropProto, protoAgrees, same]
  | str value => cases right <;> simp [dropProto, protoAgrees, same]
  | arr items ih =>
      cases right with
      | arr others =>
          rw [wellFormed_arr] at leftFormed rightFormed
          simp only [same, dropProto, protoAgrees]
          apply same_arr_iff_parts
          intro item member other otherMember
          exact ih item member (leftFormed item member) (rightFormed other otherMember)
      | null | bool _ | num _ | str _ | obj _ => simp [dropProto, same]
  | obj fields ih =>
      cases right with
      | obj others =>
          rw [wellFormed_obj] at leftFormed rightFormed
          rw [same_obj_iff leftFormed.1 rightFormed.1,
            same_dropProto_obj_iff leftFormed.1 rightFormed.1, protoAgrees_obj_iff leftFormed.1]
          have halves {key : JsString} {value other : Json} (found : value ∈ fields.lookup key)
              (otherFound : other ∈ others.lookup key) :=
            ih (key, value) (lookup_mem found) (leftFormed.2 _ (lookup_mem found))
              (rightFormed.2 _ (lookup_mem otherFound))
          constructor
          · intro all
            refine ⟨fun key _ => ?_, all protoKey, fun key _ value found other otherFound => ?_⟩
            · refine optionRel_imp ?_ (all key)
              intro value found other otherFound equal
              exact ((halves found otherFound).mp equal).1
            · have related := all key
              rw [Option.mem_def.mp found, Option.mem_def.mp otherFound] at related
              exact ((halves found otherFound).mp (by simpa using related)).2
          · rintro ⟨outside, inside, within⟩ key
            by_cases proto : key = protoKey
            · subst proto
              exact inside
            · refine optionRel_imp ?_ (outside key proto)
              intro value found other otherFound equal
              exact (halves found otherFound).mpr ⟨equal, within key proto value found other otherFound⟩
      | null | bool _ | num _ | str _ | arr _ => simp [dropProto, same]

end Audit
