import Mathlib.Data.List.MinMax
import Mathlib.Data.List.Sort
import Mathlib.Data.List.Induction

/-! Rows that carry an integer key: the row of the largest and of the smallest key, and a
reading of the rows in pages, each of which starts behind the last key of the page before. -/

namespace Keyset

/-- The order of the keys, by its computable instance. -/
instance intPreorder : Preorder Int := Int.instLinearOrder.toPreorder

variable {α : Type*} (key : α → Int)

def Increasing (rows : List α) : Prop := rows.Pairwise fun first second => key first < key second

def sorted (rows : List α) : List α := rows.insertionSort fun first second => key first ≤ key second

/-- One page after another of the rows above the cursor, until a page is empty. -/
def pages (batch : Nat) (rows : List α) : Nat → Int → List α
  | 0, _ => []
  | fuel + 1, cursor =>
      let page := (sorted key (rows.filter fun row => cursor < key row)).take batch
      match page.getLast? with
      | none => []
      | some last => page ++ pages batch rows fuel (key last)

theorem Increasing.filter {rows : List α} (increasing : Increasing key rows) (keep : α → Bool) :
    Increasing key (rows.filter keep) := List.Pairwise.filter keep increasing

theorem Increasing.unique {rows : List α} (increasing : Increasing key rows) {first second : α}
    (firstMember : first ∈ rows) (secondMember : second ∈ rows) (same : key first = key second) :
    first = second := by
  have distinct : (rows.map key).Nodup :=
    List.pairwise_map.mpr (List.Pairwise.imp (fun {_ _} below => ne_of_lt below) increasing)
  exact List.inj_on_of_nodup_map distinct firstMember secondMember same

theorem Increasing.le_last {front : List α} {last : α}
    (increasing : Increasing key (front ++ [last])) {row : α} (member : row ∈ front ++ [last]) :
    key row ≤ key last := by
  rcases List.mem_append.mp member with inFront | isLast
  · exact le_of_lt ((List.pairwise_append.mp increasing).2.2 row inFront last (by simp))
  · rw [List.mem_singleton.mp isLast]

theorem mem_sorted {rows : List α} {row : α} : row ∈ sorted key rows ↔ row ∈ rows :=
  (List.perm_insertionSort _ rows).mem_iff

theorem argmin_le {rows : List α} {row : α} (member : row ∈ rows) :
    ∃ least, (rows.argmin key).map key = some least ∧ least ≤ key row := by
  cases found : rows.argmin key with
  | none => simp [List.argmin_eq_none.mp found] at member
  | some first => exact ⟨key first, rfl, List.le_of_mem_argmin member found⟩

theorem sorted_eq {rows : List α} (increasing : Increasing key rows) : sorted key rows = rows :=
  List.Pairwise.insertionSort_eq (List.Pairwise.imp le_of_lt increasing)

theorem argmax_eq_getLast? {rows : List α} (increasing : Increasing key rows) :
    rows.argmax key = rows.getLast? := by
  obtain rfl | ⟨front, last, rfl⟩ := List.eq_nil_or_concat' rows
  · rfl
  · cases found : (front ++ [last]).argmax key with
    | none => simp at found
    | some row =>
        have member := List.argmax_mem found
        rcases List.mem_append.mp member with inFront | isLast
        · have below := (List.pairwise_append.mp increasing).2.2 row inFront last (by simp)
          have above := List.le_of_mem_argmax (show last ∈ front ++ [last] by simp) found
          omega
        · rw [List.mem_singleton.mp isLast]
          simp

theorem argmax_snoc {rows : List α} {last : α} (above : ∀ row ∈ rows, key row < key last) :
    (rows ++ [last]).argmax key = some last := by
  rw [List.argmax_concat]
  cases found : rows.argmax key with
  | none => rfl
  | some row => exact if_pos (above row (List.argmax_mem found))

theorem argmin_eq_head? {rows : List α} (increasing : Increasing key rows) :
    rows.argmin key = rows.head? := by
  cases rows with
  | nil => rfl
  | cons first rest =>
      cases found : (first :: rest).argmin key with
      | none => simp at found
      | some row =>
          have member := List.argmin_mem found
          rcases List.mem_cons.mp member with isFirst | inRest
          · rw [isFirst, List.head?_cons]
          · have above := (List.pairwise_cons.mp increasing).1 row inRest
            have below := List.le_of_mem_argmin (List.mem_cons_self (a := first) (l := rest)) found
            omega

theorem filter_above_last {page later : List α} {last : α}
    (increasing : Increasing key (page ++ later)) (isLast : page.getLast? = some last) :
    (page ++ later).filter (fun row => key last < key row) = later := by
  obtain ⟨front, rfl⟩ := List.getLast?_eq_some_iff.mp isLast
  obtain ⟨pageIncreasing, _, across⟩ := List.pairwise_append.mp increasing
  rw [List.filter_append, List.filter_eq_nil_iff.mpr, List.filter_eq_self.mpr, List.nil_append]
  · intro row member
    simpa using across last (by simp) row member
  · intro row member
    simpa using Increasing.le_last key pageIncreasing member

/-- Pages of rows with distinct keys read every row above the cursor once, in order. -/
theorem pages_eq {batch : Nat} (positive : 0 < batch) {rows : List α}
    (increasing : Increasing key rows) {fuel : Nat} {cursor : Int}
    (enough : (rows.filter fun row => cursor < key row).length < fuel) :
    pages key batch rows fuel cursor = rows.filter fun row => cursor < key row := by
  induction fuel generalizing cursor with
  | zero => omega
  | succ fuel ih =>
      have above := increasing.filter key fun row => decide (cursor < key row)
      simp only [pages, sorted_eq key above]
      generalize equal : rows.filter (fun row => decide (cursor < key row)) = selected at above enough ⊢
      have parts : selected.take batch ++ selected.drop batch = selected := List.take_append_drop ..
      cases ending : (selected.take batch).getLast? with
      | none =>
          rw [List.getLast?_eq_none_iff, List.take_eq_nil_iff] at ending
          rcases ending with zero | empty
          · omega
          · exact empty.symm
      | some last =>
          have split : Increasing key (selected.take batch ++ selected.drop batch) := by rwa [parts]
          have member : last ∈ selected := by
            rw [← parts]
            exact List.mem_append_left _ (List.mem_of_getLast? ending)
          have raised : cursor < key last := by
            rw [← equal] at member
            simpa using (List.mem_filter.mp member).2
          have later : rows.filter (fun row => decide (key last < key row)) = selected.drop batch := by
            rw [← filter_above_last key split ending, parts, ← equal, List.filter_filter]
            apply List.filter_congr
            intro row _
            simp only [← Bool.decide_and, decide_eq_decide]
            omega
          have shorter : (selected.drop batch).length < fuel := by
            have nonempty := List.length_pos_of_mem member
            rw [List.length_drop]
            omega
          rw [← later] at shorter
          simp only []
          rw [ih shorter, later, parts]

end Keyset
