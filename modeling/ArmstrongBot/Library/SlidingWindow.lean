import Mathlib.Data.List.Basic

/-! A log of times of which only the recent ones count: each for `width` after it. -/

namespace SlidingWindow

def recent (width now : Int) (times : List Int) : List Int :=
  times.filter fun time => decide (now < time + width)

variable {width first now time : Int} {times later : List Int}

@[simp] theorem recent_nil : recent width now [] = [] := rfl

@[simp] theorem mem_recent : time ∈ recent width now times ↔ time ∈ times ∧ now < time + width := by
  simp [recent]

theorem recent_append :
    recent width now (times ++ later) = recent width now times ++ recent width now later :=
  List.filter_append ..

theorem recent_cons : recent width now (time :: times) =
    if now < time + width then time :: recent width now times else recent width now times := by
  simp [recent, List.filter_cons]

theorem recent_eq_nil (isOld : ∀ time ∈ times, time + width ≤ now) :
    recent width now times = [] := by
  refine List.filter_eq_nil_iff.mpr fun time member => ?_
  have := isOld time member
  simpa using this

theorem recent_recent (ordered : first ≤ now) :
    recent width now (recent width first times) = recent width now times := by
  rw [recent, recent, List.filter_filter, recent]
  refine List.filter_congr fun time _ => ?_
  by_cases isRecent : now < time + width
  · simp [isRecent, show first < time + width by omega]
  · simp [isRecent]

theorem recent_length_le (ordered : first ≤ now) :
    (recent width now times).length ≤ (recent width first times).length := by
  rw [← recent_recent ordered]
  exact List.length_filter_le ..

/-- Room is made exactly by a time that counted and does not any more. -/
theorem recent_length_lt_iff (ordered : first ≤ now) :
    (recent width now times).length < (recent width first times).length ↔
      ∃ time ∈ times, first < time + width ∧ time + width ≤ now := by
  rw [← recent_recent ordered]
  refine List.length_filter_lt_length_iff_exists.trans ⟨?_, ?_⟩
  · rintro ⟨time, counted, isOld⟩
    obtain ⟨isTime, isRecent⟩ := mem_recent.mp counted
    exact ⟨time, isTime, isRecent, by simpa using isOld⟩
  · rintro ⟨time, isTime, isRecent, isOld⟩
    exact ⟨time, mem_recent.mpr ⟨isTime, isRecent⟩, by simpa using isOld⟩

theorem room_after_oldest (isOldest : (recent width now times).min? = some time) :
    now < time + width ∧
      (recent width (time + width) times).length < (recent width now times).length := by
  obtain ⟨isTime, isRecent⟩ := mem_recent.mp (List.min?_mem isOldest)
  exact ⟨isRecent, (recent_length_lt_iff (Int.le_of_lt isRecent)).mpr
    ⟨time, isTime, isRecent, Int.le_refl _⟩⟩

end SlidingWindow
