import Mathlib.Data.List.Nodup
import Mathlib.Data.List.Perm.Subperm

/-! Sums of integers over the rows of a table, and what a change of one row does to them. -/

namespace Totals

variable {α κ : Type*}

def total (weigh : α → Int) : List α → Int
  | [] => 0
  | item :: rest => weigh item + total weigh rest

@[simp] theorem total_nil (weigh : α → Int) : total weigh [] = 0 := rfl

@[simp] theorem total_cons (weigh : α → Int) (item : α) (rest : List α) :
    total weigh (item :: rest) = weigh item + total weigh rest := rfl

@[simp] theorem total_append (weigh : α → Int) (front back : List α) :
    total weigh (front ++ back) = total weigh front + total weigh back := by
  induction front with
  | nil => simp
  | cons item rest ih => rw [List.cons_append, total_cons, total_cons, ih, Int.add_assoc]

theorem total_congr {first second : α → Int} {items : List α}
    (same : ∀ item ∈ items, first item = second item) : total first items = total second items := by
  induction items with
  | nil => rfl
  | cons item rest ih =>
      rw [total_cons, total_cons, same item List.mem_cons_self,
        ih fun other member => same other (List.mem_cons_of_mem _ member)]

theorem total_const (weight : Int) (items : List α) :
    total (fun _ => weight) items = items.length * weight := by
  induction items with
  | nil => exact (Int.zero_mul weight).symm
  | cons item rest ih =>
      rw [total_cons, ih, List.length_cons, Int.natCast_add, Int.add_mul, Int.natCast_one,
        Int.one_mul, Int.add_comm]

theorem total_map (weigh : α → Int) {β : Type*} (change : β → α) (items : List β) :
    total weigh (items.map change) = total (fun item => weigh (change item)) items := by
  induction items with
  | nil => rfl
  | cons item rest ih => rw [List.map_cons, total_cons, total_cons, ih]

theorem total_add (first second : α → Int) (items : List α) :
    total (fun item => first item + second item) items = total first items + total second items := by
  induction items with
  | nil => rfl
  | cons item rest ih =>
      simp only [total_cons, ih]
      omega

theorem total_filter (weigh : α → Int) (keep : α → Bool) (items : List α) :
    total weigh (items.filter keep) = total (fun item => if keep item then weigh item else 0) items := by
  induction items with
  | nil => rfl
  | cons item rest ih =>
      cases kept : keep item with
      | true => rw [List.filter_cons_of_pos kept, total_cons, total_cons, ih, kept, if_pos rfl]
      | false =>
          rw [List.filter_cons_of_neg (by simp [kept]), total_cons, ih, kept]
          simp

theorem total_filterMap {β : Type*} (weigh : α → Int) (chosen : β → Option α) (items : List β) :
    total weigh (items.filterMap chosen) =
      total (fun item => ((chosen item).map weigh).getD 0) items := by
  induction items with
  | nil => rfl
  | cons item rest ih =>
      cases isChosen : chosen item with
      | none => rw [List.filterMap_cons_none isChosen, total_cons, ih, isChosen]; simp
      | some value => rw [List.filterMap_cons_some isChosen, total_cons, total_cons, ih, isChosen]; rfl

theorem total_le {first second : α → Int} {items : List α}
    (below : ∀ item ∈ items, first item ≤ second item) :
    total first items ≤ total second items := by
  induction items with
  | nil => exact Int.le_refl 0
  | cons item rest ih =>
      have here := below item List.mem_cons_self
      have there := ih fun other member => below other (List.mem_cons_of_mem _ member)
      rw [total_cons, total_cons]
      omega

theorem total_nonneg {weigh : α → Int} {items : List α} (nonneg : ∀ item ∈ items, 0 ≤ weigh item) :
    0 ≤ total weigh items := by
  have below := total_le nonneg
  rwa [total_const, Int.mul_zero] at below

/-- A list around one of its places. -/
theorem split_at {items : List α} {index : Nat} {item : α} (here : items[index]? = some item) :
    ∃ front back, items = front ++ item :: back ∧
      ∀ other, items.set index other = front ++ other :: back := by
  obtain ⟨bound, isItem⟩ := List.getElem?_eq_some_iff.mp here
  refine ⟨items.take index, items.drop (index + 1), ?_, ?_⟩
  · rw [← isItem, List.getElem_cons_drop, List.take_append_drop]
  · intro other
    rw [List.set_eq_take_append_cons_drop, if_pos bound]

theorem total_set (weigh : α → Int) {items : List α} {index : Nat} {item : α}
    (here : items[index]? = some item) (other : α) :
    total weigh (items.set index other) = total weigh items - weigh item + weigh other := by
  obtain ⟨front, back, rfl, replaced⟩ := split_at here
  rw [replaced, total_append, total_append, total_cons, total_cons]
  omega

/-- A change of the row under a key that no other row has. -/
theorem total_update [DecidableEq κ] (weigh : α → Int) {key : α → κ} {items : List α}
    (distinct : (items.map key).Nodup) {item : α} (member : item ∈ items) (change : α → α) :
    total weigh (items.map fun other => if key other = key item then change other else other) =
      total weigh items - weigh item + weigh (change item) := by
  obtain ⟨front, back, rfl⟩ := List.append_of_mem member
  have apart : ∀ other ∈ front ++ back, key other ≠ key item := by
    intro other isOther same
    rw [List.map_append, List.map_cons, List.nodup_middle, ← List.map_append] at distinct
    exact (List.nodup_cons.mp distinct).1 (List.mem_map.mpr ⟨other, isOther, same⟩)
  have unchanged (others : List α) (within : ∀ other ∈ others, other ∈ front ++ back) :
      others.map (fun other => if key other = key item then change other else other) = others := by
    refine (List.map_congr_left fun other isOther => ?_).trans (List.map_id others)
    exact if_neg (apart other (within other isOther))
  rw [List.map_append, List.map_cons, if_pos rfl,
    unchanged front fun _ => List.mem_append_left back,
    unchanged back fun _ => List.mem_append_right front]
  simp only [total_append, total_cons]
  omega

theorem total_perm (weigh : α → Int) {first second : List α} (same : first.Perm second) :
    total weigh first = total weigh second := by
  induction same with
  | nil => rfl
  | cons item _ ih => rw [total_cons, total_cons, ih]
  | swap => simp only [total_cons]; omega
  | trans _ _ firstSame secondSame => exact firstSame.trans secondSame

theorem total_sublist {weigh : α → Int} {items others : List α} (sublist : items.Sublist others)
    (nonneg : ∀ item ∈ others, 0 ≤ weigh item) : total weigh items ≤ total weigh others := by
  induction sublist with
  | slnil => exact Int.le_refl 0
  | cons item _ ih =>
      have here := nonneg item List.mem_cons_self
      have there := ih fun other member => nonneg other (List.mem_cons_of_mem _ member)
      rw [total_cons]
      omega
  | cons_cons item _ ih =>
      have there := ih fun other member => nonneg other (List.mem_cons_of_mem _ member)
      rw [total_cons, total_cons]
      omega

/-- Distinct items weigh no more than a list that has them all. -/
theorem total_le_of_subset {weigh : α → Int} {items others : List α} (distinct : items.Nodup)
    (subset : items ⊆ others) (nonneg : ∀ item ∈ others, 0 ≤ weigh item) :
    total weigh items ≤ total weigh others := by
  obtain ⟨chosen, same, sublist⟩ := distinct.subperm subset
  calc total weigh items = total weigh chosen := (total_perm weigh same).symm
    _ ≤ total weigh others := total_sublist sublist nonneg

end Totals
