import Mathlib.Data.List.Basic

/-! Processes in a list, of which some may not be at work side by side. -/

namespace Processes

variable {α : Type*} {clash : α → α → Prop} {processes : List α} {index : Nat} {later added : α}

theorem mem_set {other : α} (member : other ∈ processes.set index later) :
    other = later ∨ ∃ place, place ≠ index ∧ processes[place]? = some other := by
  obtain ⟨place, isOther⟩ := List.mem_iff_getElem?.mp member
  rw [List.getElem?_set] at isOther
  split at isOther
  · rename_i same
    split at isOther
    · exact .inl (Option.some.inj isOther).symm
    · cases isOther
  · rename_i different
    exact .inr ⟨place, Ne.symm different, isOther⟩

/-- What holds of one process and of all the others. -/
theorem forall_of_others {holds : α → Prop} {one : α} (isOne : processes[index]? = some one)
    (own : holds one) (others : ∀ place other, place ≠ index →
      processes[place]? = some other → holds other) : ∀ other ∈ processes, holds other := by
  intro other member
  obtain ⟨place, isOther⟩ := List.mem_iff_getElem?.mp member
  by_cases same : place = index
  · rw [same, isOne] at isOther
    rw [← Option.some.inj isOther]
    exact own
  · exact others place other same isOther

/-- Only a process and itself clash. -/
def Apart (clash : α → α → Prop) (processes : List α) : Prop :=
  ∀ (first second : Nat) (one other : α), processes[first]? = some one →
    processes[second]? = some other → clash one other → first = second

theorem Apart.set (apart : Apart clash processes)
    (alone : ∀ (place : Nat) (other : α), processes[place]? = some other →
      clash later other ∨ clash other later → place = index) :
    Apart clash (processes.set index later) := by
  intro first second one other isFirst isSecond clashes
  rw [List.getElem?_set] at isFirst isSecond
  split at isFirst <;> split at isSecond
  · rename_i isIndex isIndexToo
    rw [← isIndex, ← isIndexToo]
  · rename_i isIndex _
    split at isFirst <;> cases isFirst
    rw [← isIndex]
    exact (alone second other isSecond (.inl clashes)).symm
  · rename_i isIndex
    split at isSecond <;> cases isSecond
    rw [← isIndex]
    exact alone first one isFirst (.inr clashes)
  · exact apart first second one other isFirst isSecond clashes

theorem Apart.append (apart : Apart clash processes)
    (harmless : ∀ other, ¬ clash added other ∧ ¬ clash other added) :
    Apart clash (processes ++ [added]) := by
  have earlier : ∀ (place : Nat) (one : α), (processes ++ [added])[place]? = some one →
      processes[place]? = some one ∨ one = added := by
    intro place one isOne
    rw [List.getElem?_append] at isOne
    split at isOne
    · exact .inl isOne
    · exact .inr (List.mem_singleton.mp (List.mem_of_getElem? isOne))
  intro first second one other isFirst isSecond clashes
  rcases earlier first one isFirst with wasFirst | rfl
  · rcases earlier second other isSecond with wasSecond | rfl
    · exact apart first second one other wasFirst wasSecond clashes
    · exact absurd clashes (harmless one).2
  · exact absurd clashes (harmless other).1

end Processes
