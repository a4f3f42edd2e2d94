import Mathlib.Data.List.Forall2

/-! Graphs of objects held by reference, and the paths through them. A path names, level by level,
the place of an entry; objects may be shared and may lead back to themselves. -/

namespace ObjectGraph

variable {τ κ π : Type*}

inductive Value (π : Type*)
  | prim (value : π)
  | ref (address : Nat)
  deriving DecidableEq

@[ext] structure Node (τ κ π : Type*) where
  kind : τ
  entries : List (κ × Value π)
  deriving DecidableEq

abbrev Heap (τ κ π : Type*) := List (Node τ κ π)

section

variable (hidden : κ → Bool)

/-- The value at a place, unless its key hides it. -/
def shown (entries : List (κ × Value π)) (place : Nat) : Option (Value π) :=
  match entries[place]? with
  | none => none
  | some (key, value) => if hidden key then none else some value

def follow (heap : Heap τ κ π) : Value π → List Nat → Option (Value π)
  | value, [] => some value
  | .prim _, _ :: _ => none
  | .ref address, place :: path =>
      match heap[address]? with
      | none => none
      | some node =>
          match shown hidden node.entries place with
          | none => none
          | some value => follow heap value path

def followIn (heap : Heap τ κ π) (entries : List (κ × Value π)) : List Nat → Option (Value π)
  | [] => none
  | place :: path =>
      match shown hidden entries place with
      | none => none
      | some value => follow hidden heap value path

end

section

variable {hidden : κ → Bool} {heap more : Heap τ κ π} {entries rest : List (κ × Value π)}
  {entry : κ × Value π} {key : κ} {value held found : Value π} {path later : List Nat}
  {place address : Nat} {node : Node τ κ π}

theorem shown_eq_some : shown hidden entries place = some value ↔
    ∃ key, entries[place]? = some (key, value) ∧ hidden key = false := by
  unfold shown
  cases entries[place]? with
  | none => simp
  | some entry =>
      obtain ⟨key, held⟩ := entry
      by_cases isHidden : hidden key = true
      · simp [isHidden]
      · simp [isHidden]

@[simp] theorem shown_succ : shown hidden (entry :: rest) (place + 1) = shown hidden rest place := by
  simp [shown]

theorem shown_zero (isShown : hidden key = false) :
    shown hidden ((key, value) :: rest) 0 = some value := by
  simp [shown, isShown]

theorem shown_hidden (isHidden : hidden key = true) :
    shown hidden ((key, value) :: rest) 0 = none := by
  simp [shown, isHidden]

@[simp] theorem follow_nil : follow hidden heap value [] = some value := by
  cases value <;> rfl

@[simp] theorem followIn_nil : followIn hidden heap entries [] = none := rfl

theorem follow_cons_eq_some : follow hidden heap value (place :: path) = some found ↔
    ∃ address node next, value = .ref address ∧ heap[address]? = some node ∧
      shown hidden node.entries place = some next ∧
      follow hidden heap next path = some found := by
  cases value with
  | prim value => simp [follow]
  | ref address =>
      rw [follow]
      cases isThere : heap[address]? with
      | none => simp [isThere]
      | some node =>
          cases isShown : shown hidden node.entries place with
          | none => simp [isShown, isThere]
          | some next => simp [isShown, isThere]

theorem followIn_cons_eq_some : followIn hidden heap entries (place :: path) = some found ↔
    ∃ next, shown hidden entries place = some next ∧
      follow hidden heap next path = some found := by
  rw [followIn]
  cases shown hidden entries place with
  | none => simp
  | some next => simp

theorem followIn_succ : followIn hidden heap (entry :: rest) ((place + 1) :: path) =
    followIn hidden heap rest (place :: path) := by
  simp [followIn]

theorem followIn_zero (isShown : hidden key = false) :
    followIn hidden heap ((key, value) :: rest) (0 :: path) = follow hidden heap value path := by
  simp [followIn, shown_zero isShown]

theorem followIn_hidden (isHidden : hidden key = true) :
    followIn hidden heap ((key, value) :: rest) (0 :: path) = none := by
  simp [followIn, shown_hidden isHidden]

theorem follow_prim {held : π} (follows : follow hidden heap (.prim held) path = some found) :
    path = [] ∧ found = .prim held := by
  cases path with
  | nil => exact ⟨rfl, by simpa using follows.symm⟩
  | cons place path => simp [follow] at follows

theorem follow_ref (isThere : heap[address]? = some node) (isLonger : path ≠ []) :
    follow hidden heap (.ref address) path = followIn hidden heap node.entries path := by
  cases path with
  | nil => exact absurd rfl isLonger
  | cons place path => simp [follow, followIn, isThere]

theorem follow_append (follows : follow hidden heap value path = some held) :
    follow hidden heap value (path ++ later) = follow hidden heap held later := by
  induction path generalizing value with
  | nil =>
      obtain rfl : value = held := by simpa using follows
      rfl
  | cons place path ih =>
      obtain ⟨address, node, next, rfl, isThere, isShown, goesOn⟩ := follow_cons_eq_some.mp follows
      rw [List.cons_append, ← ih goesOn]
      simp [follow, isThere, isShown]

theorem follow_snoc (follows : follow hidden heap value path = some (.ref address))
    (isThere : heap[address]? = some node)
    (isShown : shown hidden node.entries place = some held) :
    follow hidden heap value (path ++ [place]) = some held := by
  rw [follow_append follows]
  exact follow_cons_eq_some.mpr ⟨address, node, held, rfl, isThere, isShown, follow_nil⟩

theorem follow_grow (follows : follow hidden heap value path = some found) :
    follow hidden (heap ++ more) value path = some found := by
  induction path generalizing value with
  | nil => simpa using follows
  | cons place path ih =>
      obtain ⟨address, node, next, rfl, isThere, isShown, goesOn⟩ := follow_cons_eq_some.mp follows
      have stays : (heap ++ more)[address]? = some node := by
        rw [List.getElem?_append_left (List.getElem?_eq_some_iff.mp isThere).1, isThere]
      exact follow_cons_eq_some.mpr ⟨address, node, next, rfl, stays, isShown, ih goesOn⟩

theorem followIn_grow (follows : followIn hidden heap entries path = some found) :
    followIn hidden (heap ++ more) entries path = some found := by
  cases path with
  | nil => simp at follows
  | cons place path =>
      obtain ⟨next, isShown, goesOn⟩ := followIn_cons_eq_some.mp follows
      exact followIn_cons_eq_some.mpr ⟨next, isShown, follow_grow goesOn⟩

theorem follow_all (follows : follow hidden heap value path = some found) :
    follow (fun _ => false) heap value path = some found := by
  induction path generalizing value with
  | nil => simpa using follows
  | cons place path ih =>
      obtain ⟨address, node, next, rfl, isThere, isShown, goesOn⟩ := follow_cons_eq_some.mp follows
      obtain ⟨key, isEntry, -⟩ := shown_eq_some.mp isShown
      exact follow_cons_eq_some.mpr ⟨address, node, next, rfl, isThere,
        shown_eq_some.mpr ⟨key, isEntry, rfl⟩, ih goesOn⟩

end

/-! What is read of a graph, by whatever path. -/

/-- What is seen at the end of a path: a primitive value, or an object's kind and keys. -/
inductive Sight (τ κ π : Type*)
  | value (held : π)
  | object (kind : τ) (keys : List κ)

def sight (heap : Heap τ κ π) : Value π → Option (Sight τ κ π)
  | .prim held => some (.value held)
  | .ref address => heap[address]?.map fun node => .object node.kind (node.entries.map Prod.fst)

def look (heap : Heap τ κ π) (value : Value π) (path : List Nat) : Option (Sight τ κ π) :=
  (follow (fun _ => false) heap value path).bind (sight heap)

def Reaches (heap : Heap τ κ π) (value : Value π) (address : Nat) : Prop :=
  ∃ path, follow (fun _ => false) heap value path = some (.ref address)

section

variable {heap other : Heap τ κ π} {value next : Value π} {path : List Nat} {key : κ}
  {place address : Nat} {node : Node τ κ π}

theorem Reaches.refl : Reaches heap (.ref address) address := ⟨[], rfl⟩

theorem Reaches.entry (isThere : heap[address]? = some node)
    (isEntry : node.entries[place]? = some (key, next)) {target : Nat}
    (reaches : Reaches heap next target) : Reaches heap (.ref address) target := by
  obtain ⟨path, follows⟩ := reaches
  exact ⟨place :: path, follow_cons_eq_some.mpr ⟨address, node, next, rfl, isThere,
    shown_eq_some.mpr ⟨key, isEntry, rfl⟩, follows⟩⟩

/-- Heaps that agree on what a value reaches read alike from it. -/
theorem follow_agree (agree : ∀ address, Reaches heap value address →
      heap[address]? = other[address]?) :
    follow (fun _ => false) heap value path = follow (fun _ => false) other value path := by
  induction path generalizing value with
  | nil => simp
  | cons place path ih =>
      cases value with
      | prim held => rfl
      | ref address =>
          rw [follow, follow, ← agree address .refl]
          cases isThere : heap[address]? with
          | none => rfl
          | some node =>
              cases isShown : shown (fun _ => false) node.entries place with
              | none => simp [isShown]
              | some next =>
                  obtain ⟨key, isEntry, -⟩ := shown_eq_some.mp isShown
                  simp only [isShown]
                  exact ih fun target reaches => agree target (reaches.entry isThere isEntry)

theorem look_agree (agree : ∀ address, Reaches heap value address →
      heap[address]? = other[address]?) (path : List Nat) :
    look heap value path = look other value path := by
  unfold look
  rw [← follow_agree agree]
  cases ends : follow (fun _ => false) heap value path with
  | none => rfl
  | some found =>
      cases found with
      | prim held => rfl
      | ref address => simp [sight, agree address ⟨path, ends⟩]

end

/-! Graphs that show the placeholder under every hidden key. -/

def Clean (hidden : κ → Bool) (placeholder : π) (heap : Heap τ κ π) (value : Value π) : Prop :=
  ∀ address node, Reaches heap value address → heap[address]? = some node →
    ∀ entry ∈ node.entries, hidden entry.1 = true → entry.2 = .prim placeholder

section

variable {heap other : Heap τ κ π} {value value₂ : Value π} {path : List Nat} {key : κ}
  {place address : Nat} {node : Node τ κ π} {hidden : κ → Bool} {placeholder : π}

theorem sight_prim {held : π} (sees : sight heap value = some (.value held)) :
    value = .prim held := by
  cases value with
  | prim other =>
      obtain rfl : other = held := by simpa [sight] using sees
      rfl
  | ref address => simp [sight] at sees

theorem look_object {kind : τ} {keys : List κ}
    (looks : look heap value path = some (.object kind keys)) :
    ∃ address node, follow (fun _ => false) heap value path = some (.ref address) ∧
      heap[address]? = some node ∧ node.kind = kind ∧ node.entries.map Prod.fst = keys := by
  obtain ⟨found, follows, sees⟩ := Option.bind_eq_some_iff.mp looks
  cases found with
  | prim held => simp [sight] at sees
  | ref address =>
      obtain ⟨node, isThere, same⟩ := Option.map_eq_some_iff.mp sees
      obtain ⟨rfl, rfl⟩ := Sight.object.inj same
      exact ⟨address, node, follows, isThere, rfl, rfl⟩

/-- A graph that reads like a clean one is clean. -/
theorem Clean.of_look (clean : Clean hidden placeholder heap value)
    (alike : ∀ path, look heap value path = look other value₂ path) :
    Clean hidden placeholder other value₂ := by
  rintro address node ⟨path, follows⟩ isThere ⟨key, held⟩ isEntry isHidden
  obtain ⟨place, inside, atPlace⟩ := List.getElem_of_mem isEntry
  have isEntryAt : node.entries[place]? = some (key, held) :=
    List.getElem?_eq_some_iff.mpr ⟨inside, atPlace⟩
  -- The clean graph has an object with the same keys there, and so the placeholder at the place.
  have looks : look heap value path = some (.object node.kind (node.entries.map Prod.fst)) := by
    rw [alike path]
    simp [look, follows, sight, isThere]
  obtain ⟨address₁, node₁, follows₁, isThere₁, -, sameKeys⟩ := look_object looks
  obtain ⟨⟨key₁, held₁⟩, isEntry₁, isKey⟩ : ∃ entry, node₁.entries[place]? = some entry ∧
      entry.1 = key := by
    have atKeys : (node₁.entries.map Prod.fst)[place]? = some key := by
      simp [sameKeys, isEntryAt]
    simpa using atKeys
  obtain rfl : key₁ = key := isKey
  have covered : held₁ = .prim placeholder :=
    clean address₁ node₁ ⟨path, follows₁⟩ isThere₁ _ (List.mem_of_getElem? isEntry₁) isHidden
  have goesOn₁ := follow_snoc follows₁ isThere₁ (shown_eq_some.mpr ⟨_, isEntry₁, rfl⟩)
  have goesOn := follow_snoc follows isThere (shown_eq_some.mpr ⟨_, isEntryAt, rfl⟩)
  have sees := alike (path ++ [place])
  rw [look, look, goesOn₁, goesOn, covered] at sees
  exact sight_prim sees.symm

end

/-! Graphs that differ under hidden keys only. -/

def SimilarEntry (hidden : κ → Bool) (first second : κ × Value π) : Prop :=
  first.1 = second.1 ∧ (hidden first.1 = false → first.2 = second.2)

structure SimilarNode (hidden : κ → Bool) (first second : Node τ κ π) : Prop where
  kind : first.kind = second.kind
  entries : List.Forall₂ (SimilarEntry hidden) first.entries second.entries

def Similar (hidden : κ → Bool) (first second : Heap τ κ π) : Prop :=
  List.Forall₂ (SimilarNode hidden) first second

section

variable {hidden : κ → Bool} {first second : Heap τ κ π} {node : Node τ κ π} {address : Nat}

theorem Similar.lookup (similar : Similar hidden first second)
    (isThere : first[address]? = some node) :
    ∃ other, second[address]? = some other ∧ SimilarNode hidden node other := by
  obtain ⟨inside, rfl⟩ := List.getElem?_eq_some_iff.mp isThere
  have inOther : address < second.length := similar.length_eq ▸ inside
  exact ⟨second[address], List.getElem?_eq_getElem inOther, similar.get inside inOther⟩

theorem shown_similar {entries others : List (κ × Value π)} {place : Nat} {value : Value π}
    (alike : List.Forall₂ (SimilarEntry hidden) entries others)
    (isShown : shown hidden entries place = some value) :
    shown hidden others place = some value := by
  obtain ⟨key, isEntry, plain⟩ := shown_eq_some.mp isShown
  obtain ⟨inside, atPlace⟩ := List.getElem?_eq_some_iff.mp isEntry
  have inOthers : place < others.length := alike.length_eq ▸ inside
  have same := alike.get inside inOthers
  simp only [List.get_eq_getElem, atPlace] at same
  refine shown_eq_some.mpr ⟨key, ?_, plain⟩
  rw [List.getElem?_eq_getElem inOthers, Prod.ext same.1 (same.2 plain)]

theorem follow_similar {value found : Value π} {path : List Nat}
    (similar : Similar hidden first second)
    (follows : follow hidden first value path = some found) :
    follow hidden second value path = some found := by
  induction path generalizing value with
  | nil => simpa using follows
  | cons place path ih =>
      obtain ⟨address, node, next, rfl, isThere, isShown, goesOn⟩ := follow_cons_eq_some.mp follows
      obtain ⟨other, isThere₂, nodes⟩ := similar.lookup isThere
      exact follow_cons_eq_some.mpr ⟨address, other, next, rfl, isThere₂,
        shown_similar nodes.entries isShown, ih goesOn⟩

theorem entries_eq_of_plain {entries others : List (κ × Value π)}
    (alike : List.Forall₂ (SimilarEntry hidden) entries others)
    (isPlain : ∀ entry ∈ entries, hidden entry.1 = false) : entries = others := by
  induction alike with
  | nil => rfl
  | cons heads _ ih =>
      obtain ⟨isShown, rest⟩ := List.forall_mem_cons.mp isPlain
      rw [Prod.ext heads.1 (heads.2 isShown), ih rest]

theorem SimilarNode.eq_of_plain {other : Node τ κ π} (similar : SimilarNode hidden node other)
    (isPlain : ∀ entry ∈ node.entries, hidden entry.1 = false) : node = other :=
  Node.ext similar.kind (entries_eq_of_plain similar.entries isPlain)

end

end ObjectGraph
