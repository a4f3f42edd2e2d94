import Mathlib.Order.Bounds.Basic

/-! Moving an instant out of blocked time. A deferral takes an instant to a later one and passes
over blocked instants only. -/

namespace Deferral

variable {τ : Type*} (deferral : τ → Option τ)

/-- At most as many deferrals, one after the other. -/
def run : Nat → τ → τ
  | 0, time => time
  | rounds + 1, time =>
      match deferral time with
      | some later => run rounds later
      | none => time

/-- Exactly as many deferrals lead from the one instant to the other. -/
def Leads : Nat → τ → τ → Prop
  | 0, time, last => time = last
  | count + 1, time, last => ∃ later, deferral time = some later ∧ Leads count later last

theorem leads_run (rounds : Nat) (time : τ) :
    ∃ count ≤ rounds, Leads deferral count time (run deferral rounds time) := by
  induction rounds generalizing time with
  | zero => exact ⟨0, le_refl 0, rfl⟩
  | succ rounds ih =>
      rw [run]
      cases deferred : deferral time with
      | none => exact ⟨0, Nat.zero_le _, rfl⟩
      | some later =>
          obtain ⟨count, bound, leads⟩ := ih later
          exact ⟨count + 1, Nat.succ_le_succ bound, later, deferred, leads⟩

variable {deferral}

theorem Leads.run_eq {count rounds : Nat} {time last : τ} (leads : Leads deferral count time last)
    (ends : deferral last = none) (enough : count ≤ rounds) : run deferral rounds time = last := by
  induction count generalizing time rounds with
  | zero =>
      obtain rfl : time = last := leads
      cases rounds with
      | zero => rfl
      | succ rounds => rw [run, ends]
  | succ count ih =>
      obtain ⟨later, deferred, rest⟩ := leads
      obtain ⟨rounds, rfl⟩ := Nat.exists_eq_add_of_le' enough
      rw [Nat.add_succ, run, deferred]
      exact ih rest (Nat.le_add_left _ _)

variable [LinearOrder τ] {blocked : τ → Prop}

def Passes (blocked : τ → Prop) (deferral : τ → Option τ) : Prop :=
  ∀ time later, deferral time = some later →
    time < later ∧ ∀ between, time ≤ between → between < later → blocked between

theorem Passes.mono {other : τ → Prop} (passes : Passes blocked deferral)
    (implies : ∀ time, blocked time → other time) : Passes other deferral := by
  intro time later deferred
  obtain ⟨isLater, all⟩ := passes time later deferred
  exact ⟨isLater, fun between lower upper => implies between (all between lower upper)⟩

theorem Leads.passes (passes : Passes blocked deferral) {count : Nat} {time last : τ}
    (leads : Leads deferral count time last) :
    time ≤ last ∧ ∀ between, time ≤ between → between < last → blocked between := by
  induction count generalizing time with
  | zero =>
      obtain rfl : time = last := leads
      exact ⟨le_refl _, fun between lower upper => absurd lower (not_le.mpr upper)⟩
  | succ count ih =>
      obtain ⟨later, deferred, rest⟩ := leads
      obtain ⟨isLater, first⟩ := passes time later deferred
      obtain ⟨bound, others⟩ := ih rest
      refine ⟨isLater.le.trans bound, fun between lower upper => ?_⟩
      rcases lt_or_ge between later with before | after
      · exact first between lower before
      · exact others between after upper

/-- Deferrals that come to a free instant have come to the first one. -/
theorem Leads.isLeast (passes : Passes blocked deferral) {count : Nat} {time last : τ}
    (leads : Leads deferral count time last) (free : ¬ blocked last) :
    IsLeast {instant | time ≤ instant ∧ ¬ blocked instant} last := by
  obtain ⟨bound, all⟩ := leads.passes passes
  refine ⟨⟨bound, free⟩, fun instant ⟨lower, isFree⟩ => ?_⟩
  by_contra before
  exact isFree (all instant lower (not_le.mp before))

end Deferral
