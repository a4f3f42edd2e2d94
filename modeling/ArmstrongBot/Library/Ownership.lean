import Mathlib.Data.List.Basic

/-! Sessions over shared stores, where each session owns at most one key and changes only what the
stores show under it. -/

namespace Ownership

variable {σ κ ω : Type*} (owner : σ → Option κ) (holds : σ → ω → Prop) (vacant : ω → Prop)

/-- No key has two owners, each session holds its invariant of its own key, and the stores show
nothing under the other keys. -/
structure Owned (sessions : List σ) (view : κ → ω) : Prop where
  apart : ∀ (index other : Nat) first second key, sessions[index]? = some first →
    sessions[other]? = some second → owner first = some key → owner second = some key →
    index = other
  kept : ∀ session ∈ sessions, ∀ key, owner session = some key → holds session (view key)
  others : ∀ key, (∀ session ∈ sessions, owner session ≠ some key) → vacant (view key)

variable {owner holds vacant} {sessions : List σ} {view later : κ → ω}

theorem owned_nil (blank : ∀ key, vacant (view key)) : Owned owner holds vacant [] view where
  apart := by simp
  kept := by simp
  others key _ := blank key

theorem Owned.append (owned : Owned owner holds vacant sessions view) {session : σ}
    (free : owner session = none) : Owned owner holds vacant (sessions ++ [session]) view where
  apart := by
    have known (index : Nat) (found : σ) (key : κ)
        (at_ : (sessions ++ [session])[index]? = some found) (isOwner : owner found = some key) :
        sessions[index]? = some found := by
      rw [List.getElem?_append] at at_
      split at at_
      · exact at_
      · obtain rfl : session = found := by
          rw [List.getElem?_singleton] at at_
          split at at_
          · exact Option.some.inj at_
          · cases at_
        rw [free] at isOwner
        cases isOwner
    intro index other first second key at_ otherAt isOwner isOther
    exact owned.apart index other first second key (known _ _ _ at_ isOwner)
      (known _ _ _ otherAt isOther) isOwner isOther
  kept other member key isOwner := by
    rcases List.mem_append.mp member with earlier | newest
    · exact owned.kept other earlier key isOwner
    · rw [List.mem_singleton.mp newest, free] at isOwner
      cases isOwner
  others key unowned :=
    owned.others key fun other member => unowned other (List.mem_append_left _ member)

/-- A step of one session: it stays the owner of its key, or takes one that nobody owns, and what
the stores show under the other keys stays as it is. -/
theorem Owned.set (owned : Owned owner holds vacant sessions view) {index : Nat} {session next : σ}
    (at_ : sessions[index]? = some session)
    (owners : owner next = owner session ∨
      owner session = none ∧ ∀ key, owner next = some key →
        ∀ other ∈ sessions, owner other ≠ some key)
    (frame : ∀ key, owner next ≠ some key → later key = view key)
    (own : ∀ key, owner next = some key → holds next (later key)) :
    Owned owner holds vacant (sessions.set index next) later where
  apart := by
    have reads (place : Nat) (found : σ)
        (isFound : (sessions.set index next)[place]? = some found) :
        (place = index ∧ found = next) ∨ (place ≠ index ∧ sessions[place]? = some found) := by
      rw [List.getElem?_set] at isFound
      split at isFound
      · rename_i same
        split at isFound
        · exact .inl ⟨same.symm, (Option.some.inj isFound).symm⟩
        · cases isFound
      · rename_i apart
        exact .inr ⟨fun same => apart same.symm, isFound⟩
    -- A key of the new session is a key of the old one, or of no session at all.
    have alone (place : Nat) (found : σ) (key : κ) (isFound : sessions[place]? = some found)
        (isOwner : owner found = some key) (isNext : owner next = some key) : place = index := by
      rcases owners with same | ⟨_, fresh⟩
      · exact owned.apart place index found session key isFound at_ isOwner (same ▸ isNext)
      · exact absurd isOwner (fresh key isNext found (List.mem_of_getElem? isFound))
    intro place other first second key isFirst isSecond isOwner isOther
    rcases reads place first isFirst with ⟨rfl, rfl⟩ | ⟨elsewhere, wasFirst⟩ <;>
      rcases reads other second isSecond with ⟨rfl, rfl⟩ | ⟨away, wasSecond⟩
    · rfl
    · exact absurd (alone other second key wasSecond isOther isOwner) away
    · exact absurd (alone place first key wasFirst isOwner isOther) elsewhere
    · exact owned.apart place other first second key wasFirst wasSecond isOwner isOther
  kept other member key isOwner := by
    by_cases isNext : owner next = some key
    · obtain ⟨place, isPlace⟩ := List.mem_iff_getElem?.mp member
      rw [List.getElem?_set] at isPlace
      split at isPlace
      · split at isPlace
        · rw [← Option.some.inj isPlace]
          exact own key isNext
        · cases isPlace
      · rename_i elsewhere
        rcases owners with same | ⟨_, fresh⟩
        · have samePlace :=
            owned.apart index place session other key at_ isPlace (same ▸ isNext) isOwner
          exact absurd samePlace elsewhere
        · exact absurd isOwner (fresh key isNext other (List.mem_of_getElem? isPlace))
    · rw [frame key isNext]
      rcases List.mem_or_eq_of_mem_set member with earlier | rfl
      · exact owned.kept other earlier key isOwner
      · exact absurd isOwner isNext
  others key unowned := by
    have bound : index < sessions.length := (List.getElem?_eq_some_iff.mp at_).1
    have notNext : owner next ≠ some key := unowned next (List.mem_set bound next)
    rw [frame key notNext]
    refine owned.others key fun other member isOwner => ?_
    obtain ⟨place, isPlace⟩ := List.mem_iff_getElem?.mp member
    by_cases same : index = place
    · subst same
      rw [at_] at isPlace
      obtain rfl := Option.some.inj isPlace
      rcases owners with stays | ⟨free, _⟩
      · exact notNext (stays.trans isOwner)
      · rw [free] at isOwner
        cases isOwner
    · refine unowned other (List.mem_iff_getElem?.mpr ⟨place, ?_⟩) isOwner
      rw [List.getElem?_set_ne same]
      exact isPlace

end Ownership
