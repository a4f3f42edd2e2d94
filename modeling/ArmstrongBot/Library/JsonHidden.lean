import ArmstrongBot.Library.JsonObject

/-! JSON values that differ in nothing but what stands under hidden keys, at any depth. -/

namespace JsJson

open JsText

variable (hidden : JsString → Bool)

mutual

def differOnly : Json → Json → Prop
  | .arr left, .arr right => differOnlyItems left right
  | .obj left, .obj right => differOnlyFields left right
  | left, right => left = right

def differOnlyItems : List Json → List Json → Prop
  | [], [] => True
  | left :: lefts, right :: rights => differOnly left right ∧ differOnlyItems lefts rights
  | _, _ => False

/-- The same keys in the same order. -/
def differOnlyFields : List (JsString × Json) → List (JsString × Json) → Prop
  | [], [] => True
  | (key, left) :: lefts, (other, right) :: rights =>
      key = other ∧ (hidden key = true ∨ differOnly left right) ∧ differOnlyFields lefts rights
  | _, _ => False

end

variable {hidden}

theorem map_eq_of_forall₂ {α β γ : Type*} {relation : α → β → Prop} {left : List α} {right : List β}
    {first : α → γ} {second : β → γ} (related : List.Forall₂ relation left right)
    (same : ∀ one ∈ left, ∀ other, relation one other → first one = second other) :
    left.map first = right.map second := by
  induction related with
  | nil => rfl
  | @cons one other _ _ head _ ih =>
      obtain ⟨here, later⟩ := List.forall_mem_cons.mp same
      rw [List.map_cons, List.map_cons, here other head, ih later]

theorem differOnlyItems_iff {left right : List Json} :
    differOnlyItems hidden left right ↔ List.Forall₂ (differOnly hidden) left right := by
  induction left generalizing right with
  | nil => cases right <;> simp [differOnlyItems]
  | cons first rest ih => cases right <;> simp [differOnlyItems, ih]

/-- The relation of two fields in one place. -/
def FieldsDiffer (hidden : JsString → Bool) (left right : JsString × Json) : Prop :=
  left.1 = right.1 ∧ (hidden left.1 = true ∨ differOnly hidden left.2 right.2)

theorem differOnlyFields_iff {left right : Fields} :
    differOnlyFields hidden left right ↔ List.Forall₂ (FieldsDiffer hidden) left right := by
  induction left generalizing right with
  | nil => cases right <;> simp [differOnlyFields]
  | cons first rest ih => cases right <;> simp [differOnlyFields, FieldsDiffer, ih, and_assoc]

theorem differOnly_arr {left right : List Json} :
    differOnly hidden (.arr left) (.arr right) ↔ List.Forall₂ (differOnly hidden) left right := by
  rw [differOnly, differOnlyItems_iff]

theorem differOnly_obj {left right : Fields} :
    differOnly hidden (.obj left) (.obj right) ↔
      List.Forall₂ (FieldsDiffer hidden) left right := by
  rw [differOnly, differOnlyFields_iff]

theorem differOnly_refl (value : Json) : differOnly hidden value value := by
  induction value using Json.induct with
  | arr items ih =>
      rw [differOnly_arr, List.forall₂_same]
      exact ih
  | obj fields ih =>
      rw [differOnly_obj, List.forall₂_same]
      exact fun field member => ⟨rfl, .inr (ih field member)⟩
  | null | bool | num | str => simp [differOnly]

/-- A value that is no container is the same on both sides, and so is the kind of a container. -/
theorem differOnly_cases {left right : Json} (similar : differOnly hidden left right) :
    left = right ∨
      (∃ items others, left = .arr items ∧ right = .arr others ∧
        List.Forall₂ (differOnly hidden) items others) ∨
      ∃ fields others, left = .obj fields ∧ right = .obj others ∧
        List.Forall₂ (FieldsDiffer hidden) fields others := by
  cases left with
  | arr items =>
      cases right with
      | arr others => exact .inr (.inl ⟨items, others, rfl, rfl, differOnly_arr.mp similar⟩)
      | null | bool | num | str | obj => simp [differOnly] at similar
  | obj fields =>
      cases right with
      | obj others => exact .inr (.inr ⟨fields, others, rfl, rfl, differOnly_obj.mp similar⟩)
      | null | bool | num | str | arr => simp [differOnly] at similar
  | null | bool | num | str =>
      rw [differOnly] at similar
      · exact .inl similar
      · simp
      · simp

variable {left right : Fields}

theorem lookup_similar (similar : List.Forall₂ (FieldsDiffer hidden) left right)
    {key : JsString} (shown : hidden key = false) :
    Option.Rel (differOnly hidden) (left.lookup key) (right.lookup key) := by
  induction similar with
  | nil => exact .none
  | @cons field other _ _ first _ ih =>
      obtain ⟨name, value⟩ := field
      obtain ⟨_, otherValue⟩ := other
      obtain ⟨rfl, below⟩ := first
      by_cases same : key = name
      · subst same
        rw [List.lookup_cons_self, List.lookup_cons_self]
        rcases below with isHidden | differ
        · rw [shown] at isHidden
          cases isHidden
        · exact .some differ
      · rw [lookup_cons_of_ne _ _ same, lookup_cons_of_ne _ _ same]
        exact ih

theorem filter_similar (keep : JsString → Bool)
    (similar : List.Forall₂ (FieldsDiffer hidden) left right) :
    List.Forall₂ (FieldsDiffer hidden) (left.filter fun field => keep field.1)
      (right.filter fun field => keep field.1) := by
  induction similar with
  | nil => exact .nil
  | @cons field other _ _ first _ ih =>
      rw [List.filter_cons, List.filter_cons, ← first.1]
      split
      · exact .cons first ih
      · exact ih

theorem insertField_similar (similar : List.Forall₂ (FieldsDiffer hidden) left right)
    (key : JsString) (value : Json) :
    List.Forall₂ (FieldsDiffer hidden) (insertField left key value)
      (insertField right key value) := by
  have inserted : FieldsDiffer hidden (key, value) (key, value) :=
    ⟨rfl, .inr (differOnly_refl value)⟩
  induction similar with
  | nil => exact .cons inserted .nil
  | @cons field other _ _ first rest ih =>
      obtain ⟨name, held⟩ := field
      obtain ⟨_, otherHeld⟩ := other
      obtain ⟨rfl, below⟩ := first
      rw [insertField, insertField]
      split
      · exact .cons inserted rest
      · split
        · exact .cons inserted (.cons ⟨rfl, below⟩ rest)
        · exact .cons ⟨rfl, below⟩ ih

end JsJson
