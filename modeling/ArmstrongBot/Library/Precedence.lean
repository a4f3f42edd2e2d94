import Mathlib.Order.Basic
import Mathlib.Data.Set.Finite.Lemmas

/-! Items for and against, each with a rank: the side that holds the item of the highest rank
prevails, and a tie goes against. -/

namespace Precedence

variable {ι ρ : Type*} [LinearOrder ρ] (rank : ι → ρ)

/-- The first item of the highest rank met so far. -/
def better (best : Option ι) (item : ι) : Option ι :=
  match best with
  | none => some item
  | some current => if rank current < rank item then some item else some current

def Highest (items : List ι) (best : Option ι) : Prop :=
  (∀ item ∈ best, item ∈ items) ∧ ∀ item ∈ items, ∃ top ∈ best, rank item ≤ rank top

theorem highest_nil : Highest rank [] none := ⟨by simp, by simp⟩

theorem Highest.better {items : List ι} {best : Option ι} (highest : Highest rank items best)
    (item : ι) : Highest rank (items ++ [item]) (better rank best item) := by
  obtain ⟨member, above⟩ := highest
  cases best with
  | none =>
      have empty : items = [] := by
        apply List.eq_nil_iff_forall_not_mem.mpr
        intro other otherMember
        obtain ⟨top, isTop, _⟩ := above other otherMember
        simp at isTop
      subst empty
      exact ⟨by simp [Precedence.better], by simp [Precedence.better]⟩
  | some current =>
      simp only [Precedence.better]
      split
      · rename_i higher
        refine ⟨by simp, ?_⟩
        intro other otherMember
        refine ⟨item, rfl, ?_⟩
        rcases List.mem_append.mp otherMember with earlier | newest
        · obtain ⟨top, isTop, bound⟩ := above other earlier
          obtain rfl := Option.mem_some.mp isTop
          exact bound.trans higher.le
        · rw [List.mem_singleton.mp newest]
      · rename_i notHigher
        refine ⟨?_, ?_⟩
        · intro top isTop
          exact List.mem_append_left _ (member top isTop)
        · intro other otherMember
          rcases List.mem_append.mp otherMember with earlier | newest
          · exact above other earlier
          · rw [List.mem_singleton.mp newest]
            exact ⟨current, rfl, not_lt.mp notHigher⟩

/-- Some item for outranks every item against. -/
def Prevails (pro contra : Set ι) : Prop := ∃ item ∈ pro, ∀ other ∈ contra, rank other < rank item

theorem prevails_image {κ : Type*} (rank : κ → ρ) (view : ι → κ) (pro contra : Set ι) :
    Prevails rank (view '' pro) (view '' contra) ↔
      Prevails (fun item => rank (view item)) pro contra := by
  simp [Prevails]

theorem not_prevails_empty (contra : Set ι) : ¬ Prevails rank ∅ contra := by
  simp [Prevails]

/-- Comparing the two highest items settles who prevails. -/
theorem prevails_of_highest {pro contra : List ι} {bestPro bestContra : Option ι}
    (highestPro : Highest rank pro bestPro) (highestContra : Highest rank contra bestContra) :
    Prevails rank {item | item ∈ pro} {item | item ∈ contra} ↔
      ∃ top ∈ bestPro, ∀ other ∈ bestContra, rank other < rank top := by
  constructor
  · rintro ⟨item, member, outranks⟩
    obtain ⟨top, isTop, bound⟩ := highestPro.2 item member
    refine ⟨top, isTop, ?_⟩
    intro other isBest
    exact (outranks other (highestContra.1 other isBest)).trans_le bound
  · rintro ⟨top, isTop, outranks⟩
    refine ⟨top, highestPro.1 top isTop, ?_⟩
    intro other member
    obtain ⟨best, isBest, bound⟩ := highestContra.2 other member
    exact bound.trans_lt (outranks best isBest)

/-- What is left out on either side changes nothing exactly when each item left out is outweighed
by one that works the way the items kept decide. -/
theorem prevails_iff_of_subset {pro contra keptPro keptContra : Set ι} (finite : pro.Finite)
    (fewerPro : keptPro ⊆ pro) (fewerContra : keptContra ⊆ contra) :
    (Prevails rank keptPro keptContra ↔ Prevails rank pro contra) ↔
      (Prevails rank keptPro keptContra →
        ∀ other ∈ contra \ keptContra, ∃ item ∈ pro, rank other < rank item) ∧
      (¬ Prevails rank keptPro keptContra →
        ∀ item ∈ pro \ keptPro, ∃ other ∈ contra, rank item ≤ rank other) := by
  constructor
  · intro same
    refine ⟨?_, ?_⟩
    · intro kept other lost
      obtain ⟨item, member, outranks⟩ := same.mp kept
      exact ⟨item, member, outranks other lost.1⟩
    · intro kept item lost
      by_contra unmatched
      push Not at unmatched
      exact kept (same.mpr ⟨item, lost.1, unmatched⟩)
  · rintro ⟨lostContra, lostPro⟩
    constructor
    · intro kept
      obtain ⟨item, member, outranks⟩ := kept
      obtain ⟨top, topMember, above⟩ :=
        Set.exists_max_image pro rank finite ⟨item, fewerPro member⟩
      refine ⟨top, topMember, ?_⟩
      intro other otherMember
      by_cases keptOther : other ∈ keptContra
      · exact (outranks other keptOther).trans_le (above item (fewerPro member))
      · obtain ⟨stronger, strongerMember, bound⟩ :=
          lostContra ⟨item, member, outranks⟩ other ⟨otherMember, keptOther⟩
        exact bound.trans_le (above stronger strongerMember)
    · rintro ⟨item, member, outranks⟩
      by_contra kept
      by_cases keptItem : item ∈ keptPro
      · exact kept ⟨item, keptItem, fun other otherMember => outranks other (fewerContra otherMember)⟩
      · obtain ⟨other, otherMember, bound⟩ := lostPro kept item ⟨member, keptItem⟩
        exact absurd (outranks other otherMember) (not_lt.mpr bound)

end Precedence
