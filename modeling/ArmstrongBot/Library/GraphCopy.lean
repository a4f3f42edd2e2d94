import Mathlib.Data.List.Perm.Subperm
import ArmstrongBot.Library.ObjectGraph

/-! A depth-first copy of a graph, with a placeholder for what stands under a hidden key, that gives
an object met before as it is instead of its copy. -/

namespace ObjectGraph

variable {τ κ π : Type*}

/-- The copies made so far, which stand behind the heap they are copied from, and the objects that
the walk has met. -/
structure Walk (τ κ π : Type*) where
  fresh : Heap τ κ π
  seen : List Nat

def Walk.enter (walk : Walk τ κ π) (address : Nat) : Walk τ κ π :=
  { walk with seen := address :: walk.seen }

def Walk.allocate (walk : Walk τ κ π) (node : Node τ κ π) : Walk τ κ π :=
  { walk with fresh := walk.fresh ++ [node] }

section

variable (hidden : κ → Bool) (placeholder : π) (heap : Heap τ κ π)

/-- A walk over the entries gives the copied entries and ends in the last walk. -/
inductive Copies : Walk τ κ π → List (κ × Value π) → List (κ × Value π) → Walk τ κ π → Prop
  | done {walk} : Copies walk [] [] walk
  | hide {walk last key value rest copied} : hidden key = true →
      Copies walk rest copied last →
      Copies walk ((key, value) :: rest) ((key, .prim placeholder) :: copied) last
  | keep {walk last key held rest copied} : hidden key = false →
      Copies walk rest copied last →
      Copies walk ((key, .prim held) :: rest) ((key, .prim held) :: copied) last
  | again {walk last key address rest copied} : hidden key = false → address ∈ walk.seen →
      Copies walk rest copied last →
      Copies walk ((key, .ref address) :: rest) ((key, .ref address) :: copied) last
  | copy {walk inside last key address node inner rest copied} : hidden key = false →
      address ∉ walk.seen → heap[address]? = some node →
      Copies (walk.enter address) node.entries inner inside →
      Copies (inside.allocate { node with entries := inner }) rest copied last →
      Copies walk ((key, .ref address) :: rest)
        ((key, .ref (heap.length + inside.fresh.length)) :: copied) last

end

variable {hidden : κ → Bool} {placeholder : π} {heap : Heap τ κ π} {walk inside last : Walk τ κ π}
  {entries copied inner rest : List (κ × Value π)} {key : κ} {value held found : Value π}
  {path other : List Nat} {place address target : Nat} {node : Node τ κ π}

@[simp] theorem Walk.enter_fresh : (walk.enter address).fresh = walk.fresh := rfl
@[simp] theorem Walk.enter_seen : (walk.enter address).seen = address :: walk.seen := rfl
@[simp] theorem Walk.allocate_fresh : (walk.allocate node).fresh = walk.fresh ++ [node] := rfl
@[simp] theorem Walk.allocate_seen : (walk.allocate node).seen = walk.seen := rfl

theorem Copies.fresh (copies : Copies hidden placeholder heap walk entries copied last) :
    ∃ more, last.fresh = walk.fresh ++ more := by
  induction copies with
  | done => exact ⟨[], (List.append_nil _).symm⟩
  | hide _ _ ih => exact ih
  | keep _ _ ih => exact ih
  | again _ _ _ ih => exact ih
  | copy _ _ _ _ _ ihInner ihRest =>
      obtain ⟨first, isFirst⟩ := ihInner
      obtain ⟨later, isLater⟩ := ihRest
      rw [Walk.allocate_fresh, isFirst, List.append_assoc, List.append_assoc] at isLater
      exact ⟨_, isLater⟩

theorem Copies.seen (copies : Copies hidden placeholder heap walk entries copied last) :
    walk.seen ⊆ last.seen := by
  induction copies with
  | done => exact List.Subset.refl _
  | hide _ _ ih => exact ih
  | keep _ _ ih => exact ih
  | again _ _ _ ih => exact ih
  | copy _ _ _ _ _ ihInner ihRest =>
      exact List.Subset.trans (List.subset_cons_self ..) (List.Subset.trans ihInner ihRest)

/-- The objects met are different objects of the heap. -/
structure Walk.Sound (heap : Heap τ κ π) (walk : Walk τ κ π) : Prop where
  distinct : walk.seen.Nodup
  inHeap : ∀ address ∈ walk.seen, address < heap.length

theorem Walk.Sound.enter (sound : walk.Sound heap) (isNew : address ∉ walk.seen)
    (inside : address < heap.length) : (walk.enter address).Sound heap :=
  ⟨List.nodup_cons.mpr ⟨isNew, sound.distinct⟩, List.forall_mem_cons.mpr ⟨inside, sound.inHeap⟩⟩

theorem Walk.Sound.length_le (sound : walk.Sound heap) : walk.seen.length ≤ heap.length := by
  have inRange : walk.seen ⊆ List.range heap.length := fun address member =>
    List.mem_range.mpr (sound.inHeap address member)
  simpa using (sound.distinct.subperm inRange).length_le

theorem Copies.sound (copies : Copies hidden placeholder heap walk entries copied last)
    (sound : walk.Sound heap) : last.Sound heap := by
  induction copies with
  | done => exact sound
  | hide _ _ ih => exact ih sound
  | keep _ _ ih => exact ih sound
  | again _ _ _ ih => exact ih sound
  | copy _ isNew isThere _ _ ihInner ihRest =>
      have met := ihInner (sound.enter isNew (List.getElem?_eq_some_iff.mp isThere).1)
      exact ihRest ⟨met.distinct, met.inHeap⟩

theorem Copies.length_le (copies : Copies hidden placeholder heap walk entries copied last)
    (sound : walk.Sound heap) : walk.seen.length ≤ last.seen.length :=
  (sound.distinct.subperm copies.seen).length_le

theorem Copies.cons {key₁ : κ} {out : Value π} (isShown : hidden key = false)
    (first : Copies hidden placeholder heap walk [(key₁, value)] [(key₁, out)] inside)
    (isShown₁ : hidden key₁ = false)
    (later : Copies hidden placeholder heap inside rest copied last) :
    Copies hidden placeholder heap walk ((key, value) :: rest) ((key, out) :: copied) last := by
  cases first with
  | hide isHidden => simp [isShown₁] at isHidden
  | keep _ done => cases done with | done => exact .keep isShown later
  | again _ isSeen done => cases done with | done => exact .again isShown isSeen later
  | copy _ isNew isThere inner done =>
      cases done with | done => exact .copy isShown isNew isThere inner later

theorem Copies.unique {others : List (κ × Value π)} {end₂ : Walk τ κ π}
    (copies : Copies hidden placeholder heap walk entries copied last)
    (again : Copies hidden placeholder heap walk entries others end₂) :
    copied = others ∧ last = end₂ := by
  induction copies generalizing others end₂ with
  | done => cases again with | done => exact ⟨rfl, rfl⟩
  | hide isHidden _ ih =>
      cases again with
      | hide _ later => exact ⟨by rw [(ih later).1], (ih later).2⟩
      | keep isShown => simp [isHidden] at isShown
      | again isShown => simp [isHidden] at isShown
      | copy isShown => simp [isHidden] at isShown
  | keep isShown _ ih =>
      cases again with
      | hide isHidden => simp [isShown] at isHidden
      | keep _ later => exact ⟨by rw [(ih later).1], (ih later).2⟩
  | again isShown isSeen _ ih =>
      cases again with
      | hide isHidden => simp [isShown] at isHidden
      | again _ _ later => exact ⟨by rw [(ih later).1], (ih later).2⟩
      | copy _ isNew => exact absurd isSeen isNew
  | copy isShown isNew isThere _ _ ihInner ihRest =>
      cases again with
      | hide isHidden => simp [isShown] at isHidden
      | again _ isSeen => exact absurd isSeen isNew
      | copy _ _ isThere₂ inner₂ rest₂ =>
          obtain rfl := Option.some.inj (isThere.symm.trans isThere₂)
          obtain ⟨rfl, rfl⟩ := ihInner inner₂
          obtain ⟨rfl, rfl⟩ := ihRest rest₂
          exact ⟨rfl, rfl⟩

/-- What stands under hidden keys takes no part in the walk. -/
theorem Copies.similar {heap₂ : Heap τ κ π} {entries₂ : List (κ × Value π)}
    (copies : Copies hidden placeholder heap walk entries copied last)
    (alikeHeaps : Similar hidden heap heap₂)
    (alike : List.Forall₂ (SimilarEntry hidden) entries entries₂) :
    Copies hidden placeholder heap₂ walk entries₂ copied last := by
  induction copies generalizing entries₂ with
  | done => cases alike with | nil => exact .done
  | hide isHidden _ ih =>
      cases alike with
      | @cons _ head _ _ heads rests =>
          obtain ⟨key₂, value₂⟩ := head
          obtain ⟨rfl, -⟩ := heads
          exact .hide isHidden (ih rests)
  | keep isShown _ ih =>
      cases alike with
      | @cons _ head _ _ heads rests =>
          obtain ⟨key₂, value₂⟩ := head
          obtain ⟨rfl, same⟩ := heads
          obtain rfl := same isShown
          exact .keep isShown (ih rests)
  | again isShown isSeen _ ih =>
      cases alike with
      | @cons _ head _ _ heads rests =>
          obtain ⟨key₂, value₂⟩ := head
          obtain ⟨rfl, same⟩ := heads
          obtain rfl := same isShown
          exact .again isShown isSeen (ih rests)
  | copy isShown isNew isThere _ _ ihInner ihRest =>
      cases alike with
      | @cons _ head _ _ heads rests =>
          obtain ⟨key₂, value₂⟩ := head
          obtain ⟨rfl, same⟩ := heads
          obtain rfl := same isShown
          obtain ⟨node₂, isThere₂, nodes⟩ := alikeHeaps.lookup isThere
          rw [alikeHeaps.length_eq]
          rw [nodes.kind] at ihRest
          exact .copy isShown isNew isThere₂ (ihInner nodes.entries) (ihRest rests)

/-! Where the copy leads back to an original. -/

theorem followIn_copied {more : Heap τ κ π} (isShown : hidden key = false) (isLonger : path ≠ [])
    (follows : followIn hidden (heap ++ inside.fresh) inner path = some found) :
    followIn hidden (heap ++ (inside.allocate { node with entries := inner }).fresh ++ more)
      ((key, .ref (heap.length + inside.fresh.length)) :: rest) (0 :: path) = some found := by
  have isThere : (heap ++ (inside.allocate { node with entries := inner }).fresh ++ more)[
      heap.length + inside.fresh.length]? = some { node with entries := inner } := by
    simp [Walk.allocate]
  rw [followIn_zero isShown, follow_ref isThere isLonger, Walk.allocate_fresh, ← List.append_assoc,
    List.append_assoc]
  exact followIn_grow follows

theorem followIn_cons_cases {entry : κ × Value π}
    (follows : followIn hidden heap (entry :: rest) path = some found) :
    (∃ later, path = 0 :: later ∧ hidden entry.1 = false ∧
      follow hidden heap entry.2 later = some found) ∨
    ∃ place later, path = (place + 1) :: later ∧
      followIn hidden heap rest (place :: later) = some found := by
  cases path with
  | nil => simp at follows
  | cons place later =>
      cases place with
      | zero =>
          by_cases isShown : hidden entry.1 = false
          · exact .inl ⟨later, rfl, isShown, by rwa [followIn_zero isShown] at follows⟩
          · rw [followIn_hidden (by simpa using isShown)] at follows
            cases follows
      | succ place => exact .inr ⟨place, later, rfl, by rwa [followIn_succ] at follows⟩

/-- Every path to an object met before leads, in the copy, to the original. -/
theorem Copies.returns (copies : Copies hidden placeholder heap walk entries copied last)
    (isSeen : target ∈ walk.seen)
    (follows : followIn hidden heap entries path = some (.ref target)) :
    followIn hidden (heap ++ last.fresh) copied path = some (.ref target) := by
  induction copies generalizing path with
  | done => cases path <;> simp [followIn, shown] at follows
  | hide isHidden _ ih =>
      rcases followIn_cons_cases follows with ⟨_, _, isShown, _⟩ | ⟨place, later, rfl, goesOn⟩
      · exact absurd isHidden (by simp [isShown])
      · exact followIn_succ.trans (ih isSeen goesOn)
  | keep isShown _ ih =>
      rcases followIn_cons_cases follows with ⟨later, rfl, _, goesOn⟩ | ⟨place, later, rfl, goesOn⟩
      · cases (follow_prim goesOn).2
      · exact followIn_succ.trans (ih isSeen goesOn)
  | again isShown _ _ ih =>
      rcases followIn_cons_cases follows with ⟨later, rfl, _, goesOn⟩ | ⟨place, later, rfl, goesOn⟩
      · exact (followIn_zero isShown).trans (follow_grow goesOn)
      · exact followIn_succ.trans (ih isSeen goesOn)
  | @copy walk inside last key address node inner rest copied isShown isNew isThere inCopies
      restCopies ihInner ihRest =>
      obtain ⟨more, isLast⟩ := restCopies.fresh
      rcases followIn_cons_cases follows with ⟨later, rfl, _, goesOn⟩ | ⟨place, later, rfl, goesOn⟩
      · -- A path that ends here leads to the object itself, which is new to the walk.
        have isLonger : later ≠ [] := by
          rintro rfl
          obtain rfl : address = target := by simpa using goesOn
          exact isNew isSeen
        rw [follow_ref isThere isLonger] at goesOn
        rw [isLast, ← List.append_assoc]
        exact followIn_copied isShown isLonger (ihInner (List.mem_cons_of_mem _ isSeen) goesOn)
      · exact followIn_succ.trans
          (ihRest (inCopies.seen (List.mem_cons_of_mem _ isSeen)) goesOn)

theorem head_meets {more : Heap τ κ π} (isShown : hidden key = false)
    (isThere : heap[address]? = some node) (isMet : address ∈ inside.seen)
    (meets : ∀ {later}, followIn hidden heap node.entries later = some (.ref target) →
      followIn hidden (heap ++ inside.fresh) inner later = some (.ref target) ∨
        target ∈ inside.seen)
    (follows : follow hidden heap (.ref address) path = some (.ref target)) :
    followIn hidden (heap ++ (inside.allocate { node with entries := inner }).fresh ++ more)
        ((key, .ref (heap.length + inside.fresh.length)) :: rest) (0 :: path) =
          some (.ref target) ∨
      target ∈ inside.seen := by
  by_cases endsHere : path = []
  · obtain rfl : address = target := by simpa [endsHere] using follows
    exact .inr isMet
  · rw [follow_ref isThere endsHere] at follows
    exact (meets follows).imp_left (followIn_copied isShown endsHere)

/-- A path leads to the original in the copy as well, or its object is among those met. -/
theorem Copies.meets (copies : Copies hidden placeholder heap walk entries copied last)
    (follows : followIn hidden heap entries path = some (.ref target)) :
    followIn hidden (heap ++ last.fresh) copied path = some (.ref target) ∨
      target ∈ last.seen := by
  induction copies generalizing path with
  | done => cases path <;> simp [followIn, shown] at follows
  | hide isHidden _ ih =>
      rcases followIn_cons_cases follows with ⟨_, _, isShown, _⟩ | ⟨place, later, rfl, goesOn⟩
      · exact absurd isHidden (by simp [isShown])
      · exact (ih goesOn).imp_left followIn_succ.trans
  | keep isShown _ ih =>
      rcases followIn_cons_cases follows with ⟨later, rfl, _, goesOn⟩ | ⟨place, later, rfl, goesOn⟩
      · cases (follow_prim goesOn).2
      · exact (ih goesOn).imp_left followIn_succ.trans
  | again isShown _ _ ih =>
      rcases followIn_cons_cases follows with ⟨later, rfl, _, goesOn⟩ | ⟨place, later, rfl, goesOn⟩
      · exact .inl ((followIn_zero isShown).trans (follow_grow goesOn))
      · exact (ih goesOn).imp_left followIn_succ.trans
  | @copy walk inside last key address node inner rest copied isShown isNew isThere inCopies
      restCopies ihInner ihRest =>
      obtain ⟨more, isLast⟩ := restCopies.fresh
      rcases followIn_cons_cases follows with ⟨later, rfl, _, goesOn⟩ | ⟨place, later, rfl, goesOn⟩
      · rw [isLast, ← List.append_assoc]
        exact (head_meets isShown isThere (inCopies.seen List.mem_cons_self) ihInner goesOn).imp_right
          fun isMet => restCopies.seen isMet
      · exact (ihRest goesOn).imp_left followIn_succ.trans

/-- Two paths through the first entry: an object is not met inside itself but as the original. -/
theorem twice_inside {more : Heap τ κ π} (isShown : hidden key = false)
    (isThere : heap[address]? = some node)
    (returns : ∀ {later}, followIn hidden heap node.entries later = some (.ref address) →
      followIn hidden (heap ++ inside.fresh) inner later = some (.ref address))
    (twice : ∀ {first second}, first ≠ second →
      followIn hidden heap node.entries first = some (.ref target) →
      followIn hidden heap node.entries second = some (.ref target) →
      followIn hidden (heap ++ inside.fresh) inner first = some (.ref target) ∨
        followIn hidden (heap ++ inside.fresh) inner second = some (.ref target))
    (apart : path ≠ other) (follows : follow hidden heap (.ref address) path = some (.ref target))
    (followsToo : follow hidden heap (.ref address) other = some (.ref target)) :
    followIn hidden (heap ++ (inside.allocate { node with entries := inner }).fresh ++ more)
        ((key, .ref (heap.length + inside.fresh.length)) :: rest) (0 :: path) =
          some (.ref target) ∨
      followIn hidden (heap ++ (inside.allocate { node with entries := inner }).fresh ++ more)
        ((key, .ref (heap.length + inside.fresh.length)) :: rest) (0 :: other) =
          some (.ref target) := by
  by_cases endsHere : path = []
  · obtain rfl : address = target := by simpa [endsHere] using follows
    have goesOn : other ≠ [] := fun same => apart (endsHere.trans same.symm)
    rw [follow_ref isThere goesOn] at followsToo
    exact .inr (followIn_copied isShown goesOn (returns followsToo))
  rw [follow_ref isThere endsHere] at follows
  by_cases endsToo : other = []
  · obtain rfl : address = target := by simpa [endsToo] using followsToo
    exact .inl (followIn_copied isShown endsHere (returns follows))
  rw [follow_ref isThere endsToo] at followsToo
  exact (twice apart follows followsToo).imp (followIn_copied isShown endsHere)
    (followIn_copied isShown endsToo)

/-- Of two paths to one object, one leads in the copy to the original. -/
theorem Copies.twice (copies : Copies hidden placeholder heap walk entries copied last)
    (apart : path ≠ other) (follows : followIn hidden heap entries path = some (.ref target))
    (followsToo : followIn hidden heap entries other = some (.ref target)) :
    followIn hidden (heap ++ last.fresh) copied path = some (.ref target) ∨
      followIn hidden (heap ++ last.fresh) copied other = some (.ref target) := by
  induction copies generalizing path other with
  | done => cases path <;> simp [followIn, shown] at follows
  | hide isHidden _ ih =>
      rcases followIn_cons_cases follows with ⟨_, _, isShown, _⟩ | ⟨place, later, rfl, goesOn⟩
      · exact absurd isHidden (by simp [isShown])
      rcases followIn_cons_cases followsToo with ⟨_, _, isShown, _⟩ | ⟨place₂, later₂, rfl, goesOn₂⟩
      · exact absurd isHidden (by simp [isShown])
      rw [followIn_succ, followIn_succ]
      exact ih (by simpa using apart) goesOn goesOn₂
  | keep isShown _ ih =>
      rcases followIn_cons_cases follows with ⟨later, rfl, _, goesOn⟩ | ⟨place, later, rfl, goesOn⟩
      · cases (follow_prim goesOn).2
      rcases followIn_cons_cases followsToo with ⟨_, rfl, _, goesOn₂⟩ | ⟨place₂, later₂, rfl, goesOn₂⟩
      · cases (follow_prim goesOn₂).2
      rw [followIn_succ, followIn_succ]
      exact ih (by simpa using apart) goesOn goesOn₂
  | again isShown _ _ ih =>
      rcases followIn_cons_cases follows with ⟨later, rfl, _, goesOn⟩ | ⟨place, later, rfl, goesOn⟩
      · exact .inl ((followIn_zero isShown).trans (follow_grow goesOn))
      rcases followIn_cons_cases followsToo with ⟨_, rfl, _, goesOn₂⟩ | ⟨place₂, later₂, rfl, goesOn₂⟩
      · exact .inr ((followIn_zero isShown).trans (follow_grow goesOn₂))
      rw [followIn_succ, followIn_succ]
      exact ih (by simpa using apart) goesOn goesOn₂
  | @copy walk inside last key address node inner rest copied isShown isNew isThere inCopies
      restCopies ihInner ihRest =>
      obtain ⟨more, isLast⟩ := restCopies.fresh
      have isMet : address ∈ inside.seen := inCopies.seen List.mem_cons_self
      rcases followIn_cons_cases follows with ⟨later, rfl, _, goesOn⟩ | ⟨place, later, rfl, goesOn⟩
      · rcases followIn_cons_cases followsToo with
          ⟨later₂, rfl, _, goesOn₂⟩ | ⟨place₂, later₂, rfl, goesOn₂⟩
        · rw [isLast, ← List.append_assoc]
          exact twice_inside isShown isThere (inCopies.returns List.mem_cons_self) ihInner
            (by simpa using apart) goesOn goesOn₂
        · rw [isLast, ← List.append_assoc]
          refine (head_meets isShown isThere isMet inCopies.meets goesOn).imp_right fun metToo => ?_
          rw [List.append_assoc, ← isLast]
          exact followIn_succ.trans (restCopies.returns metToo goesOn₂)
      · rcases followIn_cons_cases followsToo with
          ⟨later₂, rfl, _, goesOn₂⟩ | ⟨place₂, later₂, rfl, goesOn₂⟩
        · rw [isLast, ← List.append_assoc]
          refine (head_meets isShown isThere isMet inCopies.meets goesOn₂).symm.imp_left
            fun metToo => ?_
          rw [List.append_assoc, ← isLast]
          exact followIn_succ.trans (restCopies.returns metToo goesOn)
        · rw [followIn_succ, followIn_succ]
          exact ihRest (by simpa using apart) goesOn goesOn₂

/-! What the copies hold. -/

/-- A walk comes to an object that it has met: before it started, or along another path. -/
def MetAgain (hidden : κ → Bool) (heap : Heap τ κ π) (seen : List Nat)
    (entries : List (κ × Value π)) (target : Nat) : Prop :=
  (target ∈ seen ∧ ∃ path, followIn hidden heap entries path = some (.ref target)) ∨
  ∃ path other, path ≠ other ∧ followIn hidden heap entries path = some (.ref target) ∧
    followIn hidden heap entries other = some (.ref target)

/-- An entry of a copy refers to an original only where that is allowed. -/
structure Scrubbed (hidden : κ → Bool) (placeholder : π) (bound : Nat) (allowed : Nat → Prop)
    (entry : κ × Value π) : Prop where
  covered : hidden entry.1 = true → entry.2 = .prim placeholder
  original : ∀ target, entry.2 = .ref target → target < bound → allowed target

section

variable {seen : List Nat} {entry : κ × Value π} {allowed allowed₂ : Nat → Prop} {bound : Nat}

theorem Scrubbed.mono (scrubbed : Scrubbed hidden placeholder bound allowed entry)
    (weaker : ∀ target, allowed target → allowed₂ target) :
    Scrubbed hidden placeholder bound allowed₂ entry :=
  ⟨scrubbed.covered, fun target isRef isOriginal =>
    weaker target (scrubbed.original target isRef isOriginal)⟩

theorem followIn_later (entry : κ × Value π)
    (follows : followIn hidden heap rest path = some found) :
    ∃ place later, path = place :: later ∧
      followIn hidden heap (entry :: rest) ((place + 1) :: later) = some found := by
  cases path with
  | nil => simp at follows
  | cons place later => exact ⟨place, later, rfl, followIn_succ.trans follows⟩

theorem MetAgain.later (met : MetAgain hidden heap seen rest target) :
    MetAgain hidden heap seen (entry :: rest) target := by
  rcases met with ⟨isSeen, path, follows⟩ | ⟨path, other, apart, follows, followsToo⟩
  · obtain ⟨place, later, rfl, goesOn⟩ := followIn_later entry follows
    exact .inl ⟨isSeen, _, goesOn⟩
  · obtain ⟨place, later, rfl, goesOn⟩ := followIn_later entry follows
    obtain ⟨place₂, later₂, rfl, goesOn₂⟩ := followIn_later entry followsToo
    exact .inr ⟨_, _, by simpa using apart, goesOn, goesOn₂⟩

theorem followIn_inside (rest : List (κ × Value π)) (isShown : hidden key = false)
    (isThere : heap[address]? = some node)
    (follows : followIn hidden heap node.entries path = some found) :
    path ≠ [] ∧ followIn hidden heap ((key, .ref address) :: rest) (0 :: path) = some found := by
  have isLonger : path ≠ [] := by
    rintro rfl
    simp at follows
  exact ⟨isLonger, by rw [followIn_zero isShown, follow_ref isThere isLonger, follows]⟩

theorem MetAgain.within (isShown : hidden key = false) (isThere : heap[address]? = some node)
    (met : MetAgain hidden heap (address :: seen) node.entries target) :
    MetAgain hidden heap seen ((key, .ref address) :: rest) target := by
  rcases met with ⟨isSeen, path, follows⟩ | ⟨path, other, apart, follows, followsToo⟩
  · obtain ⟨isLonger, goesOn⟩ := followIn_inside rest isShown isThere follows
    rcases List.mem_cons.mp isSeen with rfl | earlier
    · -- The object is met at the entry, and again inside itself.
      refine .inr ⟨[0], 0 :: path, by simpa using isLonger.symm, ?_, goesOn⟩
      rw [followIn_zero isShown, follow_nil]
    · exact .inl ⟨earlier, _, goesOn⟩
  · exact .inr ⟨0 :: path, 0 :: other, by simpa using apart,
      (followIn_inside _ isShown isThere follows).2, (followIn_inside _ isShown isThere followsToo).2⟩

end

theorem Copies.seen_met (copies : Copies hidden placeholder heap walk entries copied last)
    (isSeen : target ∈ last.seen) :
    target ∈ walk.seen ∨ ∃ path, followIn hidden heap entries path = some (.ref target) := by
  have bump {entry : κ × Value π} {rest : List (κ × Value π)}
      (leads : ∃ path, followIn hidden heap rest path = some (.ref target)) :
      ∃ path, followIn hidden heap (entry :: rest) path = some (.ref target) := by
    obtain ⟨path, follows⟩ := leads
    obtain ⟨place, later, -, goesOn⟩ := followIn_later entry follows
    exact ⟨_, goesOn⟩
  induction copies with
  | done => exact .inl isSeen
  | hide _ _ ih => exact (ih isSeen).imp_right bump
  | keep _ _ ih => exact (ih isSeen).imp_right bump
  | again _ _ _ ih => exact (ih isSeen).imp_right bump
  | copy isShown _ isThere _ _ ihInner ihRest =>
      rcases ihRest isSeen with earlier | leads
      · rcases ihInner earlier with isMet | ⟨path, follows⟩
        · rcases List.mem_cons.mp isMet with rfl | before
          · exact .inr ⟨[0], by rw [followIn_zero isShown, follow_nil]⟩
          · exact .inl before
        · exact .inr ⟨_, (followIn_inside _ isShown isThere follows).2⟩
      · exact .inr (bump leads)

theorem MetAgain.after {seen : List Nat} {entry : κ × Value π}
    (isMet : ∀ target ∈ inside.seen, target ∈ seen ∨
      ∃ path, followIn hidden heap (entry :: rest) (0 :: path) = some (.ref target))
    (met : MetAgain hidden heap inside.seen rest target) :
    MetAgain hidden heap seen (entry :: rest) target := by
  rcases met with ⟨isSeen, path, follows⟩ | apart
  · obtain ⟨place, later, rfl, goesOn⟩ := followIn_later entry follows
    rcases isMet target isSeen with before | ⟨first, isFirst⟩
    · exact .inl ⟨before, _, goesOn⟩
    · exact .inr ⟨0 :: first, (place + 1) :: later, by simp, isFirst, goesOn⟩
  · exact (MetAgain.later (.inr apart) : MetAgain hidden heap seen (entry :: rest) target)

def Scrubs (hidden : κ → Bool) (placeholder : π) (bound : Nat) (allowed : Nat → Prop)
    (walk : Walk τ κ π) (copied : List (κ × Value π)) (last : Walk τ κ π) : Prop :=
  (∀ entry ∈ copied, Scrubbed hidden placeholder bound allowed entry) ∧
  ∀ node ∈ last.fresh, node ∈ walk.fresh ∨
    ∀ entry ∈ node.entries, Scrubbed hidden placeholder bound allowed entry

theorem Scrubs.cons {bound : Nat} {first entry : κ × Value π} {seen : List Nat}
    (scrubs : Scrubs hidden placeholder bound (MetAgain hidden heap seen rest) walk copied last)
    (scrubbed : Scrubbed hidden placeholder bound (MetAgain hidden heap seen (first :: rest))
      entry) :
    Scrubs hidden placeholder bound (MetAgain hidden heap seen (first :: rest)) walk
      (entry :: copied) last := by
  refine ⟨List.forall_mem_cons.mpr ⟨scrubbed, fun held member => ?_⟩, fun node member => ?_⟩
  · exact (scrubs.1 held member).mono fun _ => MetAgain.later
  · exact (scrubs.2 node member).imp_right fun all held isEntry =>
      (all held isEntry).mono fun _ => MetAgain.later

theorem Copies.scrubs (copies : Copies hidden placeholder heap walk entries copied last) :
    Scrubs hidden placeholder heap.length (MetAgain hidden heap walk.seen entries) walk copied
      last := by
  induction copies with
  | done => exact ⟨fun _ member => absurd member List.not_mem_nil, fun _ member => .inl member⟩
  | hide isHidden _ ih => exact ih.cons ⟨fun _ => rfl, fun _ isRef => by cases isRef⟩
  | keep isShown _ ih =>
      exact ih.cons ⟨fun isHidden => by simp [isShown] at isHidden, fun _ isRef => by cases isRef⟩
  | again isShown isSeen _ ih =>
      refine ih.cons ⟨fun isHidden => by simp [isShown] at isHidden, ?_⟩
      rintro target ⟨⟩ _
      exact .inl ⟨isSeen, [0], by rw [followIn_zero isShown, follow_nil]⟩
  | @copy walk inside last key address node inner rest copied isShown isNew isThere inCopies _
      ihInner ihRest =>
      have fromInside (target : Nat)
          (met : MetAgain hidden heap (walk.enter address).seen node.entries target) :
          MetAgain hidden heap walk.seen ((key, .ref address) :: rest) target :=
        MetAgain.within isShown isThere met
      have fromRest (target : Nat) (met : MetAgain hidden heap inside.seen rest target) :
          MetAgain hidden heap walk.seen ((key, .ref address) :: rest) target := by
        refine MetAgain.after (fun object isSeen => ?_) met
        rcases inCopies.seen_met isSeen with isMet | ⟨path, follows⟩
        · rcases List.mem_cons.mp isMet with rfl | before
          · exact .inr ⟨[], by rw [followIn_zero isShown, follow_nil]⟩
          · exact .inl before
        · exact .inr ⟨path, (followIn_inside _ isShown isThere follows).2⟩
      refine ⟨List.forall_mem_cons.mpr ⟨⟨fun isHidden => by simp [isShown] at isHidden, ?_⟩,
        fun entry member => (ihRest.1 entry member).mono fromRest⟩, ?_⟩
      · rintro target ⟨⟩ inside
        omega
      · intro made member
        rcases ihRest.2 made member with before | all
        · rcases List.mem_append.mp before with earlier | here
          · exact (ihInner.2 made earlier).imp_right fun all entry isEntry =>
              (all entry isEntry).mono fromInside
          · obtain rfl := List.mem_singleton.mp here
            exact .inr fun entry isEntry => (ihInner.1 entry isEntry).mono fromInside
        · exact .inr fun entry isEntry => (all entry isEntry).mono fromRest

/-! The copy of a whole graph. -/

/-- Two different paths lead to the object, past no hidden key. -/
def Twice (hidden : κ → Bool) (heap : Heap τ κ π) (root : Value π) (target : Nat) : Prop :=
  ∃ path other, path ≠ other ∧ follow hidden heap root path = some (.ref target) ∧
    follow hidden heap root other = some (.ref target)

/-- An object with a hidden key is come to twice. -/
def Exposed (hidden : κ → Bool) (heap : Heap τ κ π) (root : Value π) : Prop :=
  ∃ target node, Twice hidden heap root target ∧ heap[target]? = some node ∧
    ∃ entry ∈ node.entries, hidden entry.1 = true

section

variable {root out : Value π}

theorem Twice.entry (twice : Twice hidden heap root address) (isThere : heap[address]? = some node)
    (isEntry : node.entries[place]? = some (key, .ref target)) (isShown : hidden key = false) :
    Twice hidden heap root target := by
  obtain ⟨path, other, apart, follows, followsToo⟩ := twice
  have shows := shown_eq_some.mpr ⟨key, isEntry, isShown⟩
  exact ⟨path ++ [place], other ++ [place], by simpa using apart,
    follow_snoc follows isThere shows, follow_snoc followsToo isThere shows⟩

theorem followIn_root (follows : followIn hidden heap [(key, root)] path = some found) :
    ∃ later, path = 0 :: later ∧ follow hidden heap root later = some found := by
  rcases followIn_cons_cases follows with ⟨later, rfl, _, goesOn⟩ | ⟨place, later, _, goesOn⟩
  · exact ⟨later, rfl, goesOn⟩
  · simp [followIn, shown] at goesOn

theorem MetAgain.twice (met : MetAgain hidden heap [] [(key, root)] target) :
    Twice hidden heap root target := by
  rcases met with ⟨isSeen, _⟩ | ⟨path, other, apart, follows, followsToo⟩
  · exact absurd isSeen List.not_mem_nil
  · obtain ⟨later, rfl, goesOn⟩ := followIn_root follows
    obtain ⟨later₂, rfl, goesOn₂⟩ := followIn_root followsToo
    exact ⟨later, later₂, by simpa using apart, goesOn, goesOn₂⟩

theorem Copies.leak
    (copies : Copies hidden placeholder heap ⟨[], []⟩ [(key, root)] [(key, out)] last)
    (isShown : hidden key = false) (twice : Twice hidden heap root target) :
    Reaches (heap ++ last.fresh) out target := by
  obtain ⟨path, other, apart, follows, followsToo⟩ := twice
  have leads : follow hidden (heap ++ last.fresh) out path = some (.ref target) ∨
      follow hidden (heap ++ last.fresh) out other = some (.ref target) := by
    have apartToo : 0 :: path ≠ 0 :: other := by simpa using apart
    have one := copies.twice apartToo ((followIn_zero isShown).trans follows)
      ((followIn_zero isShown).trans followsToo)
    rwa [followIn_zero isShown, followIn_zero isShown] at one
  rcases leads with first | second
  · exact ⟨path, follow_all first⟩
  · exact ⟨other, follow_all second⟩

/-- What a clean copy may refer to: another copy, or an original that is come to twice. -/
def Allowed (hidden : κ → Bool) (heap : Heap τ κ π) (root value : Value π) : Prop :=
  ∀ address, value = .ref address → heap.length ≤ address ∨ Twice hidden heap root address

theorem Scrubbed.allowed {entry : κ × Value π}
    (scrubbed : Scrubbed hidden placeholder heap.length (Twice hidden heap root) entry) :
    Allowed hidden heap root entry.2 := by
  intro address isRef
  by_cases inside : address < heap.length
  · exact .inr (scrubbed.original address isRef inside)
  · exact .inl (by omega)

theorem allowed_along {fresh : Heap τ κ π} (safe : ¬ Exposed hidden heap root)
    (scrubbed : ∀ node ∈ fresh, ∀ entry ∈ node.entries,
      Scrubbed hidden placeholder heap.length (Twice hidden heap root) entry)
    (start : Allowed hidden heap root value)
    (follows : follow (fun _ => false) (heap ++ fresh) value path = some found) :
    Allowed hidden heap root found := by
  induction path generalizing value with
  | nil =>
      obtain rfl : value = found := by simpa using follows
      exact start
  | cons place path ih =>
      obtain ⟨address, node, next, rfl, isThere, isShown, goesOn⟩ := follow_cons_eq_some.mp follows
      obtain ⟨key, isEntry, -⟩ := shown_eq_some.mp isShown
      refine ih ?_ goesOn
      by_cases inside : address < heap.length
      · rw [List.getElem?_append_left inside] at isThere
        have twice : Twice hidden heap root address := (start address rfl).resolve_left (by omega)
        have plain : hidden key = false := by
          by_contra isHidden
          exact safe ⟨address, node, twice, isThere, _, List.mem_of_getElem? isEntry,
            by simpa using isHidden⟩
        rintro target rfl
        exact .inr (twice.entry isThere isEntry plain)
      · rw [List.getElem?_append_right (by omega)] at isThere
        exact (scrubbed node (List.mem_of_getElem? isThere) _
          (List.mem_of_getElem? isEntry)).allowed

section

variable (copies : Copies hidden placeholder heap ⟨[], []⟩ [(key, root)] [(key, out)] last)
  (safe : ¬ Exposed hidden heap root)

include copies

theorem Copies.fresh_scrubbed : ∀ node ∈ last.fresh, ∀ entry ∈ node.entries,
    Scrubbed hidden placeholder heap.length (Twice hidden heap root) entry := by
  intro node member entry isEntry
  have all := (copies.scrubs.2 node member).resolve_left List.not_mem_nil
  exact (all entry isEntry).mono fun _ met => met.twice

include safe

theorem Copies.reached (reaches : Reaches (heap ++ last.fresh) out target) :
    heap.length ≤ target ∨ Twice hidden heap root target := by
  obtain ⟨path, follows⟩ := reaches
  have start : Allowed hidden heap root out :=
    ((copies.scrubs.1 (key, out) List.mem_cons_self).mono fun _ met => met.twice).allowed
  exact allowed_along safe (copies.fresh_scrubbed) start follows target rfl

theorem Copies.clean : Clean hidden placeholder (heap ++ last.fresh) out := by
  intro address node reaches isThere entry isEntry isHidden
  rcases copies.reached safe reaches with isCopy | twice
  · rw [List.getElem?_append_right isCopy] at isThere
    exact (copies.fresh_scrubbed node (List.mem_of_getElem? isThere) entry
      isEntry).covered isHidden
  · by_cases inside : address < heap.length
    · rw [List.getElem?_append_left inside] at isThere
      exact absurd ⟨address, node, twice, isThere, entry, isEntry, isHidden⟩ safe
    · rw [List.getElem?_append_right (by omega)] at isThere
      exact (copies.fresh_scrubbed node (List.mem_of_getElem? isThere) entry
        isEntry).covered isHidden

theorem Copies.look {heap₂ : Heap τ κ π} (alike : Similar hidden heap heap₂) (path : List Nat) :
    look (heap ++ last.fresh) out path = look (heap₂ ++ last.fresh) out path := by
  refine look_agree (fun address reaches => ?_) path
  have sameLength := alike.length_eq
  by_cases inside : address < heap.length
  · rw [List.getElem?_append_left inside, List.getElem?_append_left (by omega)]
    have twice := (copies.reached safe reaches).resolve_left (by omega)
    have isThere := List.getElem?_eq_getElem inside
    obtain ⟨node₂, isThere₂, nodes⟩ := alike.lookup isThere
    rw [isThere, isThere₂, nodes.eq_of_plain]
    intro entry isEntry
    by_contra isHidden
    exact safe ⟨address, _, twice, isThere, entry, isEntry, by simpa using isHidden⟩
  · rw [List.getElem?_append_right (by omega), List.getElem?_append_right (by omega), sameLength]

end

end

end ObjectGraph
