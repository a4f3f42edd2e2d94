import ArmstrongBot.Library.GraphCopy
import ArmstrongBot.Library.JsMethods
import ArmstrongBot.Library.JsNumber

/-! `redact`, the serializer that scrubs what is logged. -/

namespace RedactionSerializer

open JsText ObjectGraph
open JsNumber (Number)

inductive Primitive
  | undefined
  | null
  | boolean (value : Bool)
  | number (value : Number)
  | text (value : JsString)
  | function (name : JsString)
  deriving DecidableEq

/-- An object that is no array is what `Object.entries` gives of it. -/
inductive Kind
  | array
  | record
  deriving DecidableEq

/-- The items of an array stand under no key. -/
abbrev Key := Option JsString

abbrev Objects := Heap Kind Key Primitive

def redactedKeys : List JsString :=
  [js "password", js "token", js "rconPassword", js "authorization", js "apiKey", js "hashedKey",
    js "secret"]

def redactedPlaceholder : Primitive := .text (js "[REDACTED]")

def redactedSet : List JsString := redactedKeys.map toLowerCase

def isRedactedKey (key : JsString) : Bool := redactedSet.contains (toLowerCase key)

def isHidden (key : Key) : Bool := key.any isRedactedKey

/-- The objects there are, and those that the calls so far have seen. -/
structure State where
  heap : Objects
  seen : List Nat
  deriving DecidableEq

def State.add (state : State) (address : Nat) : State := { state with seen := address :: state.seen }

def State.create (state : State) (object : Node Kind Key Primitive) : Value Primitive × State :=
  (.ref state.heap.length, { state with heap := state.heap ++ [object] })

abbrev Entries := List (Key × Value Primitive)

abbrev Visit := Value Primitive → State → Option (Value Primitive × State)

/-- `input.map(item => redact(item, seen))` -/
def mapItems (visit : Visit) : Entries → State → Option (Entries × State)
  | [], state => some ([], state)
  | (key, item) :: rest, state =>
      match visit item state with
      | none => none
      | some (copy, next) =>
          match mapItems visit rest next with
          | none => none
          | some (copies, last) => some ((key, copy) :: copies, last)

/-- The loop over `Object.entries(input)`. A key `__proto__`, which sets the prototype of the copy,
is an entry like the others. -/
def redactEntries (visit : Visit) : Entries → State → Option (Entries × State)
  | [], state => some ([], state)
  | (key, value) :: rest, state =>
      if isHidden key then
        match redactEntries visit rest state with
        | none => none
        | some (copies, last) => some ((key, .prim redactedPlaceholder) :: copies, last)
      else
        match visit value state with
        | none => none
        | some (copy, next) =>
            match redactEntries visit rest next with
            | none => none
            | some (copies, last) => some ((key, copy) :: copies, last)

def redactInside (visit : Visit) (object : Node Kind Key Primitive) (state : State) :
    Option (Entries × State) :=
  match object.kind with
  | .array => mapItems visit object.entries state
  | .record => redactEntries visit object.entries state

/-- With `levels` calls within each other. A copy is created when its entries are there: nothing
refers to it before. -/
def redact : Nat → Visit
  | 0, _, _ => none
  | _ + 1, .prim value, state => some (.prim value, state)
  | levels + 1, .ref address, state =>
      if address ∈ state.seen then some (.ref address, state)
      else
        match state.heap[address]? with
        | none => none
        | some object =>
            match redactInside (redact levels) object (state.add address) with
            | none => none
            | some (copies, last) => some (last.create { object with entries := copies })

/-- An input with all the objects it may lead to. -/
structure Graph where
  heap : Objects
  root : Value Primitive
  rooted : ∀ address, root = .ref address → address < heap.length
  closed : ∀ node ∈ heap, ∀ entry ∈ node.entries, ∀ address, entry.2 = .ref address →
    address < heap.length
  items : ∀ node ∈ heap, node.kind = .array → ∀ entry ∈ node.entries, entry.1 = none

/-- What a call on the input returns, however many levels beyond the objects there are, and the
objects afterwards. -/
def Returns (graph : Graph) (out : Value Primitive) (after : Objects) : Prop :=
  ∀ levels, graph.heap.length < levels → ∃ seen,
    redact levels graph.root ⟨graph.heap, []⟩ = some (out, ⟨after, seen⟩)

structure SameButSecrets (graph other : Graph) : Prop where
  root : graph.root = other.root
  heap : Similar isHidden graph.heap other.heap

/-- The call returns, leaves the objects of the input as they are, and gives an output that holds
the placeholder under every redacted key and reads the same whatever stands there in the input. -/
def KeepsSecrets (graph : Graph) : Prop :=
  ∃ out after, Returns graph out after ∧ graph.heap <+: after ∧
    Clean isHidden redactedPlaceholder after out ∧
    ∀ other, SameButSecrets graph other → ∀ out₂ after₂, Returns other out₂ after₂ →
      ∀ path, look after out path = look after₂ out₂ path

abbrev WalkState := Walk Kind Key Primitive

/-- The state in which a walk over the objects of the input is. -/
def State.during (heap : Objects) (walk : WalkState) : State :=
  { heap := heap ++ walk.fresh, seen := walk.seen }

abbrev CopiesIn (heap : Objects) := Copies isHidden redactedPlaceholder heap

def WithinHeap (heap : Objects) (value : Value Primitive) : Prop :=
  ∀ address, value = .ref address → address < heap.length

/-- With that many levels to go, the visit of a value returns its copy. -/
def Visits (heap : Objects) (levels : Nat) (visit : Visit) : Prop :=
  ∀ value walk, WithinHeap heap value → walk.Sound heap →
    heap.length < levels + walk.seen.length →
    ∃ out last, visit value (.during heap walk) = some (out, .during heap last) ∧
      CopiesIn heap walk [(none, value)] [(none, out)] last

section

variable {heap : Objects} {visit : Visit} {levels : Nat}

theorem mapItems_eq_redactEntries {items : Entries} (areItems : ∀ entry ∈ items, entry.1 = none)
    (state : State) : mapItems visit items state = redactEntries visit items state := by
  induction items generalizing state with
  | nil => rfl
  | cons entry rest ih =>
      obtain ⟨key, item⟩ := entry
      obtain ⟨isItem, areRest⟩ := List.forall_mem_cons.mp areItems
      obtain rfl : key = none := isItem
      simp only [mapItems, redactEntries, isHidden, Option.any_none, Bool.false_eq_true, ↓reduceIte,
        ih areRest]

theorem redactInside_eq {object : Node Kind Key Primitive} (state : State)
    (areItems : object.kind = .array → ∀ entry ∈ object.entries, entry.1 = none) :
    redactInside visit object state = redactEntries visit object.entries state := by
  unfold redactInside
  cases isArray : object.kind with
  | array => exact mapItems_eq_redactEntries (areItems isArray) state
  | record => rfl

theorem redactEntries_copies (visits : Visits heap levels visit) {entries : Entries}
    (within : ∀ entry ∈ entries, WithinHeap heap entry.2) {walk : WalkState}
    (sound : walk.Sound heap) (enough : heap.length < levels + walk.seen.length) :
    ∃ copied last,
      redactEntries visit entries (.during heap walk) = some (copied, .during heap last) ∧
      CopiesIn heap walk entries copied last := by
  induction entries generalizing walk with
  | nil => exact ⟨[], walk, rfl, .done⟩
  | cons entry rest ih =>
      obtain ⟨key, value⟩ := entry
      obtain ⟨inHeap, restInHeap⟩ := List.forall_mem_cons.mp within
      rw [redactEntries]
      by_cases covered : isHidden key = true
      · obtain ⟨copied, last, runs, copies⟩ := ih restInHeap sound enough
        exact ⟨_, last, by simp [covered, runs], .hide covered copies⟩
      · have isShown : isHidden key = false := by simpa using covered
        obtain ⟨out, next, runs, first⟩ := visits value walk inHeap sound enough
        have longer := first.length_le sound
        obtain ⟨copied, last, runsOn, copies⟩ := ih restInHeap (first.sound sound) (by omega)
        exact ⟨_, last, by simp [isShown, runs, runsOn], first.cons isShown rfl copies⟩

end

theorem redact_visits (graph : Graph) (levels : Nat) :
    Visits graph.heap levels (redact levels) := by
  induction levels with
  | zero =>
      intro value walk _ sound enough
      have := sound.length_le
      omega
  | succ levels ih =>
      intro value walk inHeap sound enough
      cases value with
      | prim held => exact ⟨_, walk, rfl, .keep rfl .done⟩
      | ref address =>
          rw [redact]
          by_cases isSeen : address ∈ (State.during graph.heap walk).seen
          · exact ⟨_, walk, if_pos isSeen, .again rfl isSeen .done⟩
          · have inside : address < graph.heap.length := inHeap address rfl
            have isThere := List.getElem?_eq_getElem inside
            have isObject : graph.heap[address] ∈ graph.heap := List.getElem_mem inside
            obtain ⟨copied, last, runs, copies⟩ := redactEntries_copies ih
              (fun entry member => graph.closed _ isObject entry member)
              (sound.enter isSeen inside) (by simp only [Walk.enter_seen, List.length_cons]; omega)
            have isFound : (State.during graph.heap walk).heap[address]? =
                some graph.heap[address] := by
              rw [State.during, List.getElem?_append_left inside, isThere]
            have runsInside : redactInside (redact levels) graph.heap[address]
                ((State.during graph.heap walk).add address) =
                  some (copied, .during graph.heap last) :=
              (redactInside_eq _ (graph.items _ isObject)).trans runs
            refine ⟨.ref (graph.heap.length + last.fresh.length),
              last.allocate { graph.heap[address] with entries := copied }, ?_,
              .copy rfl isSeen isThere copies .done⟩
            rw [if_neg isSeen, isFound]
            simp only [runsInside]
            simp [State.create, State.during]

theorem redact_returns (graph : Graph) : ∃ out last,
    Returns graph out (graph.heap ++ last.fresh) ∧
    CopiesIn graph.heap ⟨[], []⟩ [(none, graph.root)] [(none, out)] last := by
  have start : Walk.Sound graph.heap (⟨[], []⟩ : WalkState) :=
    ⟨List.nodup_nil, fun _ member => absurd member List.not_mem_nil⟩
  have runs (levels : Nat) (enough : graph.heap.length < levels) :=
    redact_visits graph levels graph.root ⟨[], []⟩ graph.rooted start enough
  have noFresh : State.during graph.heap (⟨[], []⟩ : WalkState) = ⟨graph.heap, []⟩ := by
    simp [State.during]
  obtain ⟨out, last, -, copies⟩ := runs (graph.heap.length + 1) (by omega)
  refine ⟨out, last, fun levels enough => ?_, copies⟩
  obtain ⟨out₂, last₂, isRun, copies₂⟩ := runs levels enough
  obtain ⟨same, rfl⟩ := copies.unique copies₂
  obtain rfl : out = out₂ := by simpa using same
  exact ⟨last.seen, by rw [← noFresh, isRun, State.during]⟩

theorem Returns.unique {graph : Graph} {out out₂ : Value Primitive} {after after₂ : Objects}
    (returns : Returns graph out after) (returns₂ : Returns graph out₂ after₂) :
    out = out₂ ∧ after = after₂ := by
  obtain ⟨seen, runs⟩ := returns (graph.heap.length + 1) (by omega)
  obtain ⟨seen₂, runs₂⟩ := returns₂ (graph.heap.length + 1) (by omega)
  rw [runs, Option.some.injEq, Prod.mk.injEq, State.mk.injEq] at runs₂
  exact ⟨runs₂.1, runs₂.2.1⟩

def spoilEntry (entry : Key × Value Primitive) : Key × Value Primitive :=
  if isHidden entry.1 then (entry.1, .prim .null) else entry

@[simp] theorem spoilEntry_fst (entry : Key × Value Primitive) :
    (spoilEntry entry).1 = entry.1 := by
  unfold spoilEntry
  split <;> rfl

theorem spoilEntry_ref {entry : Key × Value Primitive} {address : Nat}
    (isRef : (spoilEntry entry).2 = .ref address) : entry.2 = .ref address := by
  unfold spoilEntry at isRef
  split at isRef
  · cases isRef
  · exact isRef

def spoilNode (node : Node Kind Key Primitive) : Node Kind Key Primitive :=
  { node with entries := node.entries.map spoilEntry }

/-- The graph with `null` under every redacted key. -/
def Graph.spoil (graph : Graph) : Graph where
  heap := graph.heap.map spoilNode
  root := graph.root
  rooted := by simpa using graph.rooted
  closed := by
    intro node isNode entry isEntry address isRef
    obtain ⟨held, isHeld, rfl⟩ := List.mem_map.mp isNode
    obtain ⟨first, isFirst, rfl⟩ := List.mem_map.mp isEntry
    simpa using graph.closed held isHeld first isFirst address (spoilEntry_ref isRef)
  items := by
    intro node isNode isArray entry isEntry
    obtain ⟨held, isHeld, rfl⟩ := List.mem_map.mp isNode
    obtain ⟨first, isFirst, rfl⟩ := List.mem_map.mp isEntry
    simpa using graph.items held isHeld isArray first isFirst

theorem Graph.spoil_same (graph : Graph) : SameButSecrets graph graph.spoil := by
  refine ⟨rfl, List.forall₂_map_right_iff.mpr (List.forall₂_same.mpr fun node _ => ⟨rfl, ?_⟩)⟩
  refine List.forall₂_map_right_iff.mpr (List.forall₂_same.mpr fun entry _ => ⟨by simp, ?_⟩)
  intro isShown
  simp [spoilEntry, isShown]

/-- A call keeps the secrets of its input exactly when no object with a redacted key is come to
along two different paths past no redacted key. -/
theorem redact_keeps_secrets_iff (graph : Graph) :
    KeepsSecrets graph ↔ ¬ Exposed isHidden graph.heap graph.root := by
  obtain ⟨out, last, returns, copies⟩ := redact_returns graph
  constructor
  · rintro ⟨out₁, after, returns₁, -, clean, alike⟩
      ⟨target, node, ⟨path, other, apart, follows, followsToo⟩, isThere, entry, isEntry, isSecret⟩
    obtain ⟨out₂, last₂, returns₂, copies₂⟩ := redact_returns graph.spoil
    have same := graph.spoil_same
    -- With another secret the original of the object is in the output, which should be clean.
    have leaks := copies₂.leak rfl ⟨path, other, apart, same.root ▸ follow_similar same.heap follows,
      same.root ▸ follow_similar same.heap followsToo⟩
    have isThere₂ : (graph.spoil.heap ++ last₂.fresh)[target]? = some (spoilNode node) := by
      have inside : target < graph.heap.length := (List.getElem?_eq_some_iff.mp isThere).1
      rw [List.getElem?_append_left (by simpa [Graph.spoil] using inside)]
      simp [Graph.spoil, isThere]
    have covered := (clean.of_look (alike graph.spoil same out₂ _ returns₂)) target _ leaks isThere₂
      (spoilEntry entry) (List.mem_map_of_mem isEntry) (by simpa using isSecret)
    simp [spoilEntry, isSecret, redactedPlaceholder] at covered
  · intro safe
    refine ⟨out, _, returns, List.prefix_append _ _, copies.clean safe, ?_⟩
    intro other same out₂ after₂ returns₂ path
    obtain ⟨out₃, last₃, returns₃, copies₃⟩ := redact_returns other
    obtain ⟨rfl, rfl⟩ := returns₂.unique returns₃
    have alikeRoots : List.Forall₂ (SimilarEntry isHidden) [((none : Key), graph.root)]
        [(none, other.root)] := .cons ⟨rfl, fun _ => same.root⟩ .nil
    obtain ⟨sameOut, rfl⟩ := (copies.similar same.heap alikeRoots).unique copies₃
    obtain rfl : out = out₂ := by simpa using sameOut
    exact copies.look safe same.heap path

/-- `{ first: shared, second: shared }` with `shared = { token: 's' }` -/
def sharedToken : Graph where
  heap := [⟨.record, [(some (js "first"), .ref 1), (some (js "second"), .ref 1)]⟩,
    ⟨.record, [(some (js "token"), .prim (.text (js "s")))]⟩]
  root := .ref 0
  rooted := by simp
  closed := by
    simp only [List.forall_mem_cons, Value.ref.injEq]
    simp
  items := by simp

/-- The second meeting with the shared object gives the object itself, its token with it. -/
theorem shared_token_leaks : ¬ KeepsSecrets sharedToken := by
  rintro ⟨out, after, returns, -, clean, -⟩
  obtain ⟨seen, runs⟩ := returns 3 (by decide)
  have result : (redact 3 sharedToken.root ⟨sharedToken.heap, []⟩).map
      (fun answer => (answer.1, answer.2.heap)) =
      some (.ref 3, sharedToken.heap ++
        [⟨.record, [(some (js "token"), .prim redactedPlaceholder)]⟩,
          ⟨.record, [(some (js "first"), .ref 2), (some (js "second"), .ref 1)]⟩]) := by
    decide +kernel
  rw [runs, Option.map_some, Option.some.injEq, Prod.mk.injEq] at result
  obtain ⟨rfl, rfl⟩ := result
  have token := clean 1 ⟨.record, [(some (js "token"), .prim (.text (js "s")))]⟩ ⟨[1], rfl⟩ rfl
    (some (js "token"), .prim (.text (js "s"))) List.mem_cons_self (by decide +kernel)
  exact absurd token (by decide +kernel)

end RedactionSerializer
