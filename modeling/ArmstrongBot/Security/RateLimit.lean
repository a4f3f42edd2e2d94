import ArmstrongBot.Library.StepMachine
import Mathlib.Data.List.Perm.Subperm

/-! `RateLimitService` on one key: the sorted set of its hits, its block, and any number of calls of
`consume` whose Redis commands take effect in any order. All clocks are one. -/

namespace RateLimit

open StepMachine

structure RateLimitOptions where
  points : Nat
  duration : Nat
  blockFor : Option Nat
  deriving DecidableEq

def RateLimitOptions.windowMs (options : RateLimitOptions) : Int := options.duration * 1000

structure RateLimitResult where
  allowed : Bool
  remaining : Nat
  retryAfterMs : Int
  deriving DecidableEq

/-- `${now}-${random}`, whose score is `now`. -/
structure Member where
  now : Int
  random : Nat
  deriving DecidableEq

/-- The sorted set in the order of its making, and when it expires. -/
structure SortedSet where
  members : List Member
  deadline : Option Int
  deriving DecidableEq

def SortedSet.absent : SortedSet := { members := [], deadline := none }

/-- What the key holds: an expired set is gone. -/
def SortedSet.live (set : SortedSet) (clock : Int) : SortedSet :=
  if set.deadline.any fun deadline => deadline ≤ clock then .absent else set

/-- The scores lie between zero and the bound. -/
def SortedSet.zremrangebyscore (set : SortedSet) (bound : Int) : SortedSet :=
  let kept := set.members.filter fun member => !(0 ≤ member.now && member.now ≤ bound)
  if kept = [] then .absent else { set with members := kept }

def SortedSet.zadd (set : SortedSet) (member : Member) : SortedSet :=
  if member ∈ set.members then set else { set with members := set.members ++ [member] }

def SortedSet.pexpire (set : SortedSet) (deadline : Int) : SortedSet :=
  if set.members = [] then set else { set with deadline := some deadline }

/-- `zrange` from 0 to 0. -/
def SortedSet.oldest (set : SortedSet) : Option Int :=
  (set.members.map Member.now).min?

/-- The command of Redis that a call waits for. -/
inductive Phase
  | pttl
  | zremrangebyscore
  | zcard
  | zrange
  | block
  | zadd (count : Nat)
  | pexpire (count : Nat)
  | returned (result : RateLimitResult)
  | failed
  deriving DecidableEq

/-- A call, with the number of blocks that had been set at its `pttl`, the random number of its
member once it is let through, and whether a block stood when it was added. -/
structure Call where
  now : Int
  checked : Nat
  random : Option Nat
  underBlock : Bool
  phase : Phase
  deriving DecidableEq

def Call.to (call : Call) (phase : Phase) : Call := { call with phase }

def Call.member (call : Call) : Member := { now := call.now, random := call.random.getD 0 }

/-- The set, the expiry of the block, and how many blocks have been set. -/
structure State where
  clock : Int
  set : SortedSet
  block : Option Int
  blocks : Nat
  calls : List Call

def State.start (clock : Int) : State :=
  { clock, set := .absent, block := none, blocks := 0, calls := [] }

def State.members (state : State) : List Member := (state.set.live state.clock).members

/-- What is left of the block, which is not positive where there is none. -/
def State.blockTtl (state : State) : Int :=
  match state.block with
  | some expiry => expiry - state.clock
  | none => -2

inductive Action
  | tick (elapsed : Nat)
  | consume
  | advance (call : Nat) (random : Nat) (fails : Bool)

def rejected (retryAfterMs : Int) : Phase :=
  .returned { allowed := false, remaining := 0, retryAfterMs }

section

variable (options : RateLimitOptions)

/-- The next command of a call takes effect, and the call goes on up to the one after it. -/
def advance (state : State) (index : Nat) (call : Call) (random : Nat) : Option State :=
  let goes (later : Call) : State := { state with calls := state.calls.set index later }
  let set := state.set.live state.clock
  match call.phase with
  | .pttl =>
      some (goes (if 0 < state.blockTtl then call.to (rejected state.blockTtl)
        else { call.to .zremrangebyscore with checked := state.blocks }))
  | .zremrangebyscore =>
      some { goes (call.to .zcard) with
        set := set.zremrangebyscore (call.now - options.windowMs) }
  | .zcard =>
      let count := set.members.length
      some (goes (if options.points ≤ count then call.to .zrange
        else { call.to (.zadd count) with random := some random }))
  | .zrange =>
      let retryAfterMs := max 1 (set.oldest.getD call.now + options.windowMs - call.now)
      some (goes (call.to (match options.blockFor with
        | some blockFor => if 0 < blockFor then .block else rejected retryAfterMs
        | none => rejected retryAfterMs)))
  | .block =>
      let blockForMs : Int := options.blockFor.getD 0 * 1000
      some { goes (call.to (rejected blockForMs)) with
        block := some (state.clock + blockForMs), blocks := state.blocks + 1 }
  | .zadd count =>
      some { goes { call.to (.pexpire count) with underBlock := decide (0 < state.blockTtl) } with
        set := set.zadd call.member }
  | .pexpire count =>
      some { goes (call.to (.returned
          { allowed := true, remaining := options.points - count - 1, retryAfterMs := 0 })) with
        set := set.pexpire (state.clock + options.windowMs) }
  | .returned _ | .failed => none

def step (state : State) : Action → Option State
  | .tick elapsed => some { state with clock := state.clock + elapsed }
  | .consume => some { state with
      calls := state.calls ++
        [{ now := state.clock, checked := 0, random := none, underBlock := false
           phase := .pttl }] }
  | .advance index random fails =>
      match state.calls[index]? with
      | some call =>
          if fails then
            match call.phase with
            | .returned _ | .failed => none
            | _ => some { state with
                calls := state.calls.set index { call.to .failed with random := none } }
          else advance options state index call random
      | none => none

end

def Call.admitted (call : Call) : Bool :=
  match call.phase with
  | .returned result => result.allowed
  | _ => false

def inWindow (options : RateLimitOptions) (start now : Int) : Bool :=
  start ≤ now && now < start + options.windowMs

/-- No window has more admitted calls than points, and none was admitted under a block. -/
structure RateLimited (options : RateLimitOptions) (state : State) : Prop where
  window : ∀ start,
    (state.calls.countP fun call => call.admitted && inWindow options start call.now) ≤
      options.points
  block : ∀ call ∈ state.calls, call.admitted = true → call.underBlock = false

/-- The calls let through less than a window before or after the time. -/
def near (options : RateLimitOptions) (state : State) (now : Int) : List Call :=
  state.calls.filter fun call =>
    call.random.isSome && decide (now - options.windowMs < call.now) &&
      decide (call.now < now + options.windowMs)

/-- Each of these calls has a member of its own in the set. -/
def Counted (options : RateLimitOptions) (state : State) (now : Int) : Prop :=
  ((near options state now).map Call.member).Nodup ∧
    ∀ call ∈ near options state now, call.member ∈ state.members

/-- A call is let through by a count of all calls near it, and added where no block that was set
since its `pttl` stands. -/
def Sees (options : RateLimitOptions) (state : State) (call : Call) : Prop :=
  match call.phase with
  | .zcard => options.points ≤ state.members.length ∨ Counted options state call.now
  | .zadd _ => call.checked = state.blocks ∨ state.blockTtl ≤ 0
  | _ => True

def SeesAll (options : RateLimitOptions) (state : State) : Action → Prop
  | .advance index _ fails =>
      fails = true ∨ ∀ call ∈ state.calls[index]?, Sees options state call
  | _ => True

/-! What holds in the runs whose calls see all that concerns them. -/

/-- The call is between its `pttl` and its `zadd`. -/
def Phase.waits : Phase → Bool
  | .zremrangebyscore | .zcard | .zadd _ => true
  | _ => false

structure Sound (options : RateLimitOptions) (state : State) : Prop where
  window : ∀ start,
    (state.calls.countP fun call => call.random.isSome && inWindow options start call.now) ≤
      options.points
  through : ∀ call ∈ state.calls, ∀ count,
    call.phase = .zadd count ∨ call.phase = .pexpire count → call.random.isSome = true
  admitted : ∀ call ∈ state.calls, call.admitted = true → call.random.isSome = true
  checked : ∀ call ∈ state.calls, call.checked ≤ state.blocks
  unblocked : ∀ call ∈ state.calls, call.phase.waits = true → call.checked = state.blocks →
    state.blockTtl ≤ 0
  clear : ∀ call ∈ state.calls, call.underBlock = false

variable {options : RateLimitOptions} {state next : State} {call later : Call} {index : Nat}

theorem sound_start (clock : Int) : Sound options (State.start clock) := by
  constructor <;> simp [State.start]

theorem rateLimited_of_sound (sound : Sound options state) : RateLimited options state where
  window start := by
    refine Nat.le_trans (List.countP_mono_left fun call member counted => ?_) (sound.window start)
    rw [Bool.and_eq_true] at counted ⊢
    exact ⟨sound.admitted call member counted.1, counted.2⟩
  block call member _ := sound.clear call member

theorem countP_set_le {calls : List Call} {counts : Call → Bool} {bound : Nat}
    (found : calls[index]? = some call) (below : calls.countP counts ≤ bound)
    (fits : counts later = true → counts call = true ∨ calls.countP counts < bound) :
    (calls.set index later).countP counts ≤ bound := by
  obtain ⟨isIndex, isCall⟩ := List.getElem?_eq_some_iff.mp found
  have counted := List.boole_getElem_le_countP (p := counts) isIndex
  rw [List.countP_set isIndex]
  rw [isCall] at counted ⊢
  cases isCounted : counts later with
  | false =>
      simp only [Bool.false_eq_true, if_false]
      omega
  | true =>
      rcases fits isCounted with before | room
      · simp only [before, if_true] at counted ⊢
        omega
      · simp only [if_true]
        omega

/-- Where a count sees all calls near the time and is below the points, each window around the time
has room. -/
theorem room_of_counted {now start : Int} (counted : Counted options state now)
    (below : state.members.length < options.points) (inside : inWindow options start now = true) :
    (state.calls.countP fun call => call.random.isSome && inWindow options start call.now) <
      options.points := by
  have isNear : (state.calls.countP fun call =>
      call.random.isSome && inWindow options start call.now) ≤ (near options state now).length := by
    rw [near, ← List.countP_eq_length_filter]
    refine List.countP_mono_left fun call _ counts => ?_
    simp only [inWindow, Bool.and_eq_true, decide_eq_true_eq] at counts inside ⊢
    exact ⟨⟨counts.1, by omega⟩, by omega⟩
  have seen : ((near options state now).map Call.member).length ≤ state.members.length := by
    refine (counted.1.subperm fun member isMember => ?_).length_le
    obtain ⟨call, isCall, rfl⟩ := List.mem_map.mp isMember
    exact counted.2 call isCall
  rw [List.length_map] at seen
  omega

theorem sound_goes (sound : Sound options state) (found : state.calls[index]? = some call)
    (set : SortedSet) (sameNow : later.now = call.now)
    (lets : later.random.isSome = true → call.random.isSome = true ∨
      Counted options state call.now ∧ state.members.length < options.points)
    (through : ∀ count, later.phase = .zadd count ∨ later.phase = .pexpire count →
      later.random.isSome = true)
    (admitted : later.admitted = true → later.random.isSome = true)
    (checked : later.checked ≤ state.blocks)
    (unblocked : later.phase.waits = true → later.checked = state.blocks → state.blockTtl ≤ 0)
    (clear : later.underBlock = false) :
    Sound options { state with set, calls := state.calls.set index later } where
  window start := by
    refine countP_set_le found (sound.window start) fun counts => ?_
    rw [Bool.and_eq_true, sameNow] at counts
    rcases lets counts.1 with before | ⟨counted, below⟩
    · exact .inl (by rw [before, counts.2]; rfl)
    · exact .inr (room_of_counted counted below counts.2)
  through other member count isPhase := by
    rcases List.mem_or_eq_of_mem_set member with before | rfl
    · exact sound.through other before count isPhase
    · exact through count isPhase
  admitted other member isAdmitted := by
    rcases List.mem_or_eq_of_mem_set member with before | rfl
    · exact sound.admitted other before isAdmitted
    · exact admitted isAdmitted
  checked other member := by
    rcases List.mem_or_eq_of_mem_set member with before | rfl
    · exact sound.checked other before
    · exact checked
  unblocked other member waits same := by
    rcases List.mem_or_eq_of_mem_set member with before | rfl
    · exact sound.unblocked other before waits same
    · exact unblocked waits same
  clear other member := by
    rcases List.mem_or_eq_of_mem_set member with before | rfl
    · exact sound.clear other before
    · exact clear

theorem sound_leaves (sound : Sound options state) (found : state.calls[index]? = some call)
    (set : SortedSet) {phase : Phase} (closed : phase.waits = false)
    (through : ∀ count, phase ≠ .pexpire count) (refused : (call.to phase).admitted = false) :
    Sound options { state with set, calls := state.calls.set index (call.to phase) } := by
  have member := List.mem_of_getElem? found
  refine sound_goes sound found set rfl (fun lets => .inl lets) ?_ ?_ (sound.checked call member) ?_
    (sound.clear call member)
  · rintro count (isPhase | isPhase)
    · have isZadd : phase = .zadd count := isPhase
      rw [isZadd] at closed
      cases closed
    · exact absurd isPhase (through count)
  · intro isAdmitted
    rw [refused] at isAdmitted
    cases isAdmitted
  · intro waits
    have isWaiting : phase.waits = true := waits
    rw [closed] at isWaiting
    cases isWaiting

theorem sound_block (sound : Sound options state) (found : state.calls[index]? = some call)
    (retryAfterMs : Int) (expiry : Option Int) :
    Sound options
      { state with
        calls := state.calls.set index (call.to (rejected retryAfterMs))
        block := expiry, blocks := state.blocks + 1 } := by
  have rejects : Sound options
      { state with calls := state.calls.set index (call.to (rejected retryAfterMs)) } :=
    sound_leaves sound found state.set rfl (by simp [rejected]) rfl
  refine ⟨rejects.window, rejects.through, rejects.admitted, ?_, ?_, rejects.clear⟩
  · exact fun other member => Nat.le_succ_of_le (rejects.checked other member)
  · intro other member _ same
    have bound := rejects.checked other member
    simp only at same bound
    omega

theorem sound_advance (sound : Sound options state) (found : state.calls[index]? = some call)
    (sees : Sees options state call) {random : Nat}
    (advanced : advance options state index call random = some next) : Sound options next := by
  have member := List.mem_of_getElem? found
  have checked := sound.checked call member
  have clear := sound.clear call member
  unfold advance at advanced
  dsimp only at advanced
  split at advanced
  · obtain rfl := Option.some.inj advanced
    split
    · exact sound_leaves sound found state.set rfl (by simp [rejected]) rfl
    · rename_i free
      refine sound_goes sound found state.set rfl (fun lets => .inl lets) (by simp [Call.to])
        (by simp [Call.to, Call.admitted]) (Nat.le_refl _) ?_ clear
      exact fun _ _ => by omega
  · rename_i isPhase
    obtain rfl := Option.some.inj advanced
    refine sound_goes sound found _ rfl (fun lets => .inl lets) (by simp [Call.to])
      (by simp [Call.to, Call.admitted]) checked ?_ clear
    exact fun _ same => sound.unblocked call member (by rw [isPhase]; rfl) same
  · rename_i isPhase
    obtain rfl := Option.some.inj advanced
    split
    · exact sound_leaves sound found state.set rfl (by simp) rfl
    · rename_i below
      rw [Sees, isPhase] at sees
      have counted := sees.resolve_left below
      refine sound_goes sound found state.set rfl
        (fun _ => .inr ⟨counted, Nat.lt_of_not_le below⟩) (fun _ _ => rfl) (fun _ => rfl) checked ?_
        clear
      exact fun _ same => sound.unblocked call member (by rw [isPhase]; rfl) same
  · obtain rfl := Option.some.inj advanced
    split
    · split
      · exact sound_leaves sound found state.set rfl (by simp) rfl
      · exact sound_leaves sound found state.set rfl (by simp [rejected]) rfl
    · exact sound_leaves sound found state.set rfl (by simp [rejected]) rfl
  · obtain rfl := Option.some.inj advanced
    exact sound_block sound found _ _
  · rename_i count isPhase
    obtain rfl := Option.some.inj advanced
    rw [Sees, isPhase] at sees
    have free : state.blockTtl ≤ 0 := by
      rcases sees with same | free
      · exact sound.unblocked call member (by rw [isPhase]; rfl) same
      · exact free
    have random := sound.through call member count (.inl isPhase)
    refine sound_goes sound found _ rfl (fun lets => .inl lets) (fun _ _ => random)
      (fun _ => random) checked (fun waits => by cases waits) ?_
    exact decide_eq_false (by omega)
  · rename_i count isPhase
    obtain rfl := Option.some.inj advanced
    have random := sound.through call member count (.inr isPhase)
    exact sound_goes sound found _ rfl (fun lets => .inl lets) (fun _ _ => random) (fun _ => random)
      checked (fun waits => by cases waits) clear
  · cases advanced
  · cases advanced

theorem sound_step {action : Action} (sound : Sound options state)
    (sees : SeesAll options state action) (taken : step options state action = some next) :
    Sound options next := by
  cases action with
  | tick elapsed =>
      obtain rfl := Option.some.inj taken
      refine ⟨sound.window, sound.through, sound.admitted, sound.checked, ?_, sound.clear⟩
      intro call member waits same
      have before := sound.unblocked call member waits same
      unfold State.blockTtl at before ⊢
      cases isBlock : state.block with
      | none => simp
      | some expiry =>
          simp only [isBlock] at before ⊢
          omega
  | consume =>
      obtain rfl := Option.some.inj taken
      have split {holds : Call → Prop} (before : ∀ call ∈ state.calls, holds call)
          (isNew : holds { now := state.clock, checked := 0, random := none, underBlock := false
                           phase := .pttl }) :
          ∀ call ∈ state.calls ++ [{ now := state.clock, checked := 0, random := none
                                     underBlock := false, phase := .pttl }], holds call := by
        intro call member
        rcases List.mem_append.mp member with earlier | last
        · exact before call earlier
        · rw [List.mem_singleton.mp last]
          exact isNew
      refine ⟨fun start => ?_, split sound.through (by simp),
        split sound.admitted (by simp [Call.admitted]), split sound.checked (Nat.zero_le _),
        split sound.unblocked (by simp [Phase.waits]), split sound.clear rfl⟩
      rw [List.countP_append]
      simpa using sound.window start
  | advance index random fails =>
      simp only [step] at taken
      split at taken
      · rename_i call found
        have member := List.mem_of_getElem? found
        split at taken
        · split at taken
          · cases taken
          · cases taken
          · obtain rfl := Option.some.inj taken
            exact sound_goes sound found state.set rfl (by simp) (by simp [Call.to])
              (by simp [Call.to, Call.admitted]) (sound.checked call member)
              (by simp [Call.to, Phase.waits]) (sound.clear call member)
        · rename_i works
          rcases sees with fails | sees
          · exact absurd fails works
          · exact sound_advance sound found (sees call found) taken
      · cases taken

/-- The limit holds where every call that is let through sees the hits and the blocks that concern
it. -/
theorem rateLimited_of_sees (options : RateLimitOptions) (clock : Int) (actions : List Action)
    (guarded : Guarded (step options) (SeesAll options) (State.start clock) actions) :
    Always (step options) (RateLimited options) (State.start clock) actions := by
  have sound : Always (step options) (Sound options) (State.start clock) actions :=
    always_of_guarded (step options)
      (fun state action next sound sees taken => sound_step sound sees taken) (sound_start clock)
      guarded
  exact sound.mono _ fun state sound => rateLimited_of_sound sound

instance (options : RateLimitOptions) (state : State) (now : Int) :
    Decidable (Counted options state now) :=
  inferInstanceAs (Decidable (_ ∧ ∀ call ∈ near options state now, _))

instance (options : RateLimitOptions) (state : State) (call : Call) :
    Decidable (Sees options state call) := by
  unfold Sees
  split <;> infer_instance

instance (options : RateLimitOptions) (state : State) (action : Action) :
    Decidable (SeesAll options state action) := by
  cases action <;> unfold SeesAll <;> infer_instance

/-! One point in a second, and two calls. -/

def sampleOptions : RateLimitOptions := { points := 1, duration := 1, blockFor := none }

def advancing (call count : Nat) : List Action := List.replicate count (.advance call 7 false)

/-- The second call comes when the first one has been admitted. -/
theorem rateLimited_in_turn :
    Always (step sampleOptions) (RateLimited sampleOptions) (State.start 1000)
      ([.consume] ++ advancing 0 5 ++ [.consume] ++ advancing 1 4) :=
  rateLimited_of_sees sampleOptions 1000 _ (by decide +kernel)

def windowKept (options : RateLimitOptions) (start : Int) (state : State) : Bool :=
  (state.calls.countP fun call => call.admitted && inWindow options start call.now) ≤
    options.points

theorem windowKept_of_rateLimited (start : Int) (state : State)
    (limited : RateLimited sampleOptions state) : windowKept sampleOptions start state = true :=
  decide_eq_true (limited.window start)

/-- Both calls count before either of them adds its hit. -/
theorem window_exceeded :
    ¬ ∀ (options : RateLimitOptions) (clock : Int) (actions : List Action),
      Always (step options) (RateLimited options) (State.start clock) actions := by
  intro all
  refine not_always (step sampleOptions) (windowKept sampleOptions 1000)
    (windowKept_of_rateLimited 1000) ?_
    (all sampleOptions 1000
      ([.consume, .consume] ++ advancing 0 3 ++ advancing 1 3 ++
        [.advance 0 7 false, .advance 1 8 false] ++ advancing 0 1 ++ advancing 1 1))
  decide +kernel

end RateLimit
