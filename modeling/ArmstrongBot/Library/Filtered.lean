import Mathlib.Data.List.Nodup
import Mathlib.Data.List.Basic

/-! Lists with distinct keys, seen through a filter. -/

namespace Filtered

variable {α β : Type*}

theorem find?_filter_of_kept {list : List α} {keep found : α → Bool}
    (kept : ∀ item ∈ list, found item = true → keep item = true) :
    (list.filter keep).find? found = list.find? found := by
  induction list with
  | nil => rfl
  | cons item rest ih =>
      have later := ih fun other member => kept other (List.mem_cons_of_mem _ member)
      cases isFound : found item with
      | true =>
          rw [List.filter_cons_of_pos (kept item List.mem_cons_self isFound),
            List.find?_cons_of_pos isFound, List.find?_cons_of_pos isFound]
      | false =>
          rw [List.find?_cons_of_neg (by simp [isFound]), ← later, List.filter_cons]
          split
          · exact List.find?_cons_of_neg (by simp [isFound])
          · rfl

theorem filter_filter_of_kept {list : List α} {keep found : α → Bool}
    (kept : ∀ item ∈ list.filter found, keep item = true) :
    (list.filter keep).filter found = list.filter found := by
  rw [List.filter_filter]
  apply List.filter_congr
  intro item member
  cases isFound : found item with
  | false => rfl
  | true => simp [kept item (List.mem_filter.mpr ⟨member, isFound⟩)]

theorem eq_of_key {list : List α} {key : α → β} (distinct : (list.map key).Nodup) {first second : α}
    (firstMember : first ∈ list) (secondMember : second ∈ list) (same : key first = key second) :
    first = second := List.inj_on_of_nodup_map distinct firstMember secondMember same

theorem filter_map_of_kept {list : List α} {keep : α → Bool} {change : α → α}
    (same : ∀ item, keep (change item) = keep item) :
    (list.map change).filter keep = (list.filter keep).map change := by
  rw [List.filter_map]
  congr 1
  apply List.filter_congr
  intro item _
  exact same item

theorem filter_map_of_dropped {list : List α} {keep : α → Bool} {change : α → α}
    (unchanged : ∀ item ∈ list, keep item = true → change item = item)
    (dropped : ∀ item ∈ list, keep item = false → keep (change item) = false) :
    (list.map change).filter keep = list.filter keep := by
  induction list with
  | nil => rfl
  | cons item rest ih =>
      have later := ih (fun other member => unchanged other (List.mem_cons_of_mem _ member))
        (fun other member => dropped other (List.mem_cons_of_mem _ member))
      rw [List.map_cons]
      cases kept : keep item with
      | true =>
          rw [unchanged item List.mem_cons_self kept, List.filter_cons_of_pos kept,
            List.filter_cons_of_pos kept, later]
      | false =>
          have isDropped := dropped item List.mem_cons_self kept
          rw [List.filter_cons_of_neg (by simp [isDropped]),
            List.filter_cons_of_neg (by simp [kept]), later]

/-- What is left when all but the first of equal items go. -/
theorem eraseDups_sublist_nodup [BEq α] [LawfulBEq α] (list : List α) :
    list.eraseDups.Sublist list ∧ list.eraseDups.Nodup := by
  induction bound : list.length using Nat.strongRecOn generalizing list with
  | ind bound ih =>
      cases list with
      | nil => simp
      | cons item rest =>
          have shorter := List.length_filter_le (fun other => !other == item) rest
          rw [List.length_cons] at bound
          obtain ⟨sublist, nodup⟩ := ih _ (by omega) (rest.filter fun other => !other == item) rfl
          rw [List.eraseDups_cons]
          refine ⟨(sublist.trans List.filter_sublist).cons₂ item, List.nodup_cons.mpr ⟨?_, nodup⟩⟩
          rw [List.mem_eraseDups, List.mem_filter]
          rintro ⟨_, apart⟩
          simp at apart

end Filtered
