import ArmstrongBot.Library.SlidingWindow
import ArmstrongBot.Security.RateLimit

/-! Calls of `consume` on one key, each at one time and after the one before it: which of them are
admitted, and what the others are told to wait. -/

namespace RateLimit

open StepMachine SlidingWindow

/-- What Redis has on the key. -/
structure Store where
  set : SortedSet
  block : Option Int

/-- The time of a call, and the random number of its member if it is let through. -/
structure Turn where
  now : Nat
  random : Nat
  deriving DecidableEq

def Turn.member (turn : Turn) : Member := { now := turn.now, random := turn.random }

def Store.blockTtl (store : Store) (now : Int) : Int :=
  match store.block with
  | some expiry => expiry - now
  | none => -2

/-- The set as it is counted. -/
def Store.trimmed (store : Store) (options : RateLimitOptions) (now : Int) : SortedSet :=
  (store.set.live now).zremrangebyscore (now - options.windowMs)

def RateLimitOptions.blockForMs (options : RateLimitOptions) : Int :=
  options.blockFor.getD 0 * 1000

def turnedAway (retryAfterMs : Int) : RateLimitResult :=
  { allowed := false, remaining := 0, retryAfterMs }

def consume (options : RateLimitOptions) (store : Store) (turn : Turn) :
    RateLimitResult × Store :=
  let now : Int := turn.now
  if 0 < store.blockTtl now then (turnedAway (store.blockTtl now), store)
  else
    let set := store.trimmed options now
    let count := set.members.length
    if options.points ≤ count then
      let retryAfterMs := max 1 (set.oldest.getD now + options.windowMs - now)
      if options.blockFor.any fun blockFor => 0 < blockFor then
        (turnedAway options.blockForMs, { set, block := some (now + options.blockForMs) })
      else (turnedAway retryAfterMs, { store with set })
    else
      ({ allowed := true, remaining := options.points - count - 1, retryAfterMs := 0 },
        { store with set := (set.zadd turn.member).pexpire (now + options.windowMs) })

/-- A call that has been answered. -/
structure Past where
  turn : Turn
  result : RateLimitResult
  deriving DecidableEq

/-- The calls answered so far stand with the last one first. -/
structure Limiter where
  clock : Nat
  store : Store
  past : List Past

def Limiter.start : Limiter :=
  { clock := 0, store := { set := .absent, block := none }, past := [] }

def admitted (past : List Past) : List Past := past.filter fun call => call.result.allowed

def Limiter.answer (state : Limiter) (turn : Turn) (result : RateLimitResult) (store : Store) :
    Limiter :=
  { clock := turn.now, store, past := ⟨turn, result⟩ :: state.past }

/-- No call comes before the last one, and none gets the member of another. -/
def serve (options : RateLimitOptions) (state : Limiter) (turn : Turn) : Option Limiter :=
  if state.clock ≤ turn.now ∧ turn ∉ (admitted state.past).map Past.turn then
    let answer := consume options state.store turn
    some (state.answer turn answer.1 answer.2)
  else none

/-! What the answers should be, told from the answers before. -/

def admissions (past : List Past) : List Int := (admitted past).map fun call => call.turn.now

def admittedWithin (options : RateLimitOptions) (past : List Past) (now : Int) : Nat :=
  (recent options.windowMs now (admissions past)).length

/-- A call that is turned away while no block is active starts one. -/
def underBlock (options : RateLimitOptions) : List Past → Int → Bool
  | [], _ => false
  | call :: earlier, now =>
      if call.result.allowed || underBlock options earlier call.turn.now then
        underBlock options earlier now
      else decide (now < call.turn.now + options.blockForMs)

/-- When the caller has waited as told. -/
def Past.retry (call : Past) (random : Nat) : Turn :=
  { now := call.turn.now + call.result.retryAfterMs.toNat, random }

/-- The last call was admitted just if no block was active and the window had room. -/
def Decided (options : RateLimitOptions) (state : Limiter) : Prop :=
  ∀ call earlier, state.past = call :: earlier →
    (call.result.allowed = true ↔ underBlock options earlier call.turn.now = false ∧
      admittedWithin options earlier call.turn.now < options.points)

/-- If the last call was turned away, it is admitted after the wait. -/
def Retried (options : RateLimitOptions) (state : Limiter) : Prop :=
  ∀ call earlier, state.past = call :: earlier → call.result.allowed = false → ∀ random,
    (consume options state.store (call.retry random)).1.allowed = true

structure Answered (options : RateLimitOptions) (state : Limiter) : Prop where
  decided : Decided options state
  retried : Retried options state

/-- At a call that finds the window full while no block is active: there are points at all, and
where it starts a block, some hit of the window is out of it when the block ends. -/
def Fits (options : RateLimitOptions) (state : Limiter) (turn : Turn) : Prop :=
  underBlock options state.past turn.now = false →
  options.points ≤ admittedWithin options state.past turn.now →
    0 < options.points ∧ (options.blockForMs ≤ 0 ∨ ∃ time ∈ admissions state.past,
      turn.now < time + options.windowMs ∧
        time + options.windowMs ≤ turn.now + options.blockForMs)

/-! What the store has of the calls. -/

structure Tracks (options : RateLimitOptions) (state : Limiter) : Prop where
  ordered : ∀ call ∈ state.past, call.turn.now ≤ state.clock
  members : ∀ member ∈ state.store.set.members,
    ∃ call ∈ admitted state.past, call.turn.member = member
  deadline : ∀ deadline, state.store.set.deadline = some deadline →
    ∀ member ∈ state.store.set.members, member.now + options.windowMs ≤ deadline
  hits : ∀ now : Int, state.clock ≤ now →
    (recent options.windowMs now (state.store.set.members.map Member.now)).Perm
      (recent options.windowMs now (admissions state.past))
  block : ∀ now : Int, state.clock ≤ now →
    (underBlock options state.past now = true ↔ 0 < state.store.blockTtl now)
  room : admittedWithin options state.past state.clock ≤ options.points

section

variable {options : RateLimitOptions} {state next : Limiter} {turn : Turn} {store : Store}
  {set : SortedSet} {now bound : Int} {past : List Past} {call : Past}

@[simp] theorem answer_past {result : RateLimitResult} :
    (state.answer turn result store).past = ⟨turn, result⟩ :: state.past := rfl

@[simp] theorem answer_store {result : RateLimitResult} :
    (state.answer turn result store).store = store := rfl

@[simp] theorem answer_clock {result : RateLimitResult} :
    (state.answer turn result store).clock = turn.now := rfl

theorem blockFor_any : (options.blockFor.any fun blockFor => 0 < blockFor) = true ↔
    0 < options.blockForMs := by
  unfold RateLimitOptions.blockForMs
  cases options.blockFor with
  | none => simp
  | some blockFor =>
      simp only [Option.any_some, decide_eq_true_eq, Option.getD_some]
      omega

theorem blockTtl_le {first : Int} (ordered : first ≤ now) :
    store.blockTtl now ≤ store.blockTtl first := by
  unfold Store.blockTtl
  cases store.block with
  | none => exact Int.le_refl _
  | some expiry => exact Int.sub_le_sub_left ordered _

theorem consume_blocked (active : 0 < store.blockTtl turn.now) :
    consume options store turn = (turnedAway (store.blockTtl turn.now), store) := by
  unfold consume
  exact if_pos active

theorem consume_full (free : store.blockTtl turn.now ≤ 0)
    (full : options.points ≤ (store.trimmed options turn.now).members.length)
    (noBlock : options.blockForMs ≤ 0) :
    consume options store turn =
      (turnedAway (max 1 ((store.trimmed options turn.now).oldest.getD turn.now +
        options.windowMs - turn.now)), { store with set := store.trimmed options turn.now }) := by
  unfold consume
  dsimp only
  rw [if_neg (Int.not_lt.mpr free), if_pos full,
    if_neg fun blocks => Int.not_lt.mpr noBlock (blockFor_any.mp blocks)]

theorem consume_starts_block (free : store.blockTtl turn.now ≤ 0)
    (full : options.points ≤ (store.trimmed options turn.now).members.length)
    (blocks : 0 < options.blockForMs) :
    consume options store turn = (turnedAway options.blockForMs,
      { set := store.trimmed options turn.now, block := some (turn.now + options.blockForMs) }) := by
  unfold consume
  dsimp only
  rw [if_neg (Int.not_lt.mpr free), if_pos full, if_pos (blockFor_any.mpr blocks)]

theorem consume_admits (free : store.blockTtl turn.now ≤ 0)
    (below : (store.trimmed options turn.now).members.length < options.points) :
    consume options store turn =
      ({ allowed := true
         remaining := options.points - (store.trimmed options turn.now).members.length - 1
         retryAfterMs := 0 },
        { store with
          set := ((store.trimmed options turn.now).zadd turn.member).pexpire
            (turn.now + options.windowMs) }) := by
  unfold consume
  dsimp only
  rw [if_neg (Int.not_lt.mpr free), if_neg (Nat.not_le.mpr below)]

theorem zremrangebyscore_members : (set.zremrangebyscore bound).members =
    set.members.filter fun member => !(0 ≤ member.now && member.now ≤ bound) := by
  unfold SortedSet.zremrangebyscore
  by_cases isEmpty : (set.members.filter fun member =>
      !(0 ≤ member.now && member.now ≤ bound)) = []
  · simp only [isEmpty, ↓reduceIte]
    rfl
  · simp only [isEmpty, ↓reduceIte]

theorem zremrangebyscore_deadline {deadline : Int}
    (isDeadline : (set.zremrangebyscore bound).deadline = some deadline) :
    set.deadline = some deadline := by
  unfold SortedSet.zremrangebyscore at isDeadline
  dsimp only at isDeadline
  split at isDeadline
  · cases isDeadline
  · exact isDeadline

theorem trimmed_member {member : Member}
    (isMember : member ∈ (store.trimmed options now).members) : member ∈ store.set.members := by
  rw [Store.trimmed, zremrangebyscore_members] at isMember
  have isLive := (List.mem_filter.mp isMember).1
  unfold SortedSet.live at isLive
  split at isLive
  · cases isLive
  · exact isLive

theorem trimmed_deadline {deadline : Int}
    (isDeadline : (store.trimmed options now).deadline = some deadline) :
    store.set.deadline = some deadline := by
  have isLive := zremrangebyscore_deadline isDeadline
  unfold SortedSet.live at isLive
  split at isLive
  · cases isLive
  · exact isLive

theorem admissions_admitted (isAllowed : call.result.allowed = true) :
    admissions (call :: past) = (call.turn.now : Int) :: admissions past := by
  simp [admissions, admitted, isAllowed]

theorem admissions_rejected (isRejected : call.result.allowed = false) :
    admissions (call :: past) = admissions past := by
  simp [admissions, admitted, isRejected]

theorem Tracks.nonneg (tracks : Tracks options state) {member : Member}
    (isMember : member ∈ state.store.set.members) : 0 ≤ member.now := by
  obtain ⟨call, _, rfl⟩ := tracks.members member isMember
  exact Int.natCast_nonneg _

theorem Tracks.trim_times (tracks : Tracks options state) :
    (state.store.set.members.filter fun member =>
      !(0 ≤ member.now && member.now ≤ now - options.windowMs)).map Member.now =
      recent options.windowMs now (state.store.set.members.map Member.now) := by
  rw [recent, List.filter_map]
  congr 1
  refine List.filter_congr fun member isMember => ?_
  have nonneg := tracks.nonneg isMember
  by_cases isOld : member.now ≤ now - options.windowMs
  · simp [nonneg, isOld, show ¬ now < member.now + options.windowMs by omega]
  · simp [isOld, show now < member.now + options.windowMs by omega]

/-- The expiry of the set takes away no hit that the trim would leave. -/
theorem Tracks.trimmed_times (tracks : Tracks options state) :
    (state.store.trimmed options now).members.map Member.now =
      recent options.windowMs now (state.store.set.members.map Member.now) := by
  rw [Store.trimmed, zremrangebyscore_members]
  unfold SortedSet.live
  split
  · rename_i isGone
    obtain ⟨deadline, isDeadline, isOver⟩ : ∃ deadline,
        state.store.set.deadline = some deadline ∧ deadline ≤ now := by
      simpa [Option.any_eq_true] using isGone
    refine (recent_eq_nil fun time isTime => ?_).symm
    obtain ⟨member, isMember, rfl⟩ := List.mem_map.mp isTime
    exact Int.le_trans (tracks.deadline deadline isDeadline member isMember) isOver
  · exact tracks.trim_times

theorem Tracks.trimmed_perm (tracks : Tracks options state) (later : state.clock ≤ now) :
    ((state.store.trimmed options now).members.map Member.now).Perm
      (recent options.windowMs now (admissions state.past)) := by
  rw [tracks.trimmed_times]
  exact tracks.hits now later

theorem Tracks.count (tracks : Tracks options state) (later : state.clock ≤ now) :
    (state.store.trimmed options now).members.length = admittedWithin options state.past now := by
  rw [← List.length_map Member.now, (tracks.trimmed_perm later).length_eq, admittedWithin]

theorem Tracks.free_iff (tracks : Tracks options state) (later : state.clock ≤ now) :
    underBlock options state.past now = false ↔ state.store.blockTtl now ≤ 0 := by
  rw [← Int.not_lt, ← tracks.block now later, Bool.not_eq_true]

theorem Tracks.consume_allowed (tracks : Tracks options state) (later : state.clock ≤ turn.now) :
    (consume options state.store turn).1.allowed = true ↔
      underBlock options state.past turn.now = false ∧
        admittedWithin options state.past turn.now < options.points := by
  have laterTime : (state.clock : Int) ≤ turn.now := Int.ofNat_le.mpr later
  rw [tracks.free_iff laterTime, ← tracks.count laterTime]
  by_cases active : 0 < state.store.blockTtl turn.now
  · rw [consume_blocked active]
    exact iff_of_false (by simp [turnedAway]) fun both => Int.not_lt.mpr both.1 active
  have free := Int.not_lt.mp active
  by_cases below : (state.store.trimmed options turn.now).members.length < options.points
  · rw [consume_admits free below]
    simp [free, below]
  have full := Nat.not_lt.mp below
  by_cases blocks : 0 < options.blockForMs
  · rw [consume_starts_block free full blocks]
    simp [turnedAway, full]
  · rw [consume_full free full (Int.not_lt.mp blocks)]
    simp [turnedAway, full]

theorem admittedWithin_le {first : Int} (ordered : first ≤ now) :
    admittedWithin options past now ≤ admittedWithin options past first :=
  recent_length_le ordered

theorem Tracks.reject (tracks : Tracks options state) (later : state.clock ≤ turn.now)
    {result : RateLimitResult} (isRejected : result.allowed = false) {block : Option Int}
    (sameSet : set = state.store.set ∨ set = state.store.trimmed options turn.now)
    (blocks : ∀ now : Int, turn.now ≤ now →
      (underBlock options (⟨turn, result⟩ :: state.past) now = true ↔
        0 < (⟨set, block⟩ : Store).blockTtl now)) :
    Tracks options (state.answer turn result ⟨set, block⟩) where
  ordered := by
    refine List.forall_mem_cons.mpr ⟨Nat.le_refl _, fun call member => ?_⟩
    exact Nat.le_trans (tracks.ordered call member) later
  members member isMember := by
    have before : member ∈ state.store.set.members := by
      rcases sameSet with rfl | rfl
      · exact isMember
      · exact trimmed_member isMember
    simpa [admitted, isRejected] using tracks.members member before
  deadline deadline isDeadline member isMember := by
    rcases sameSet with rfl | rfl
    · exact tracks.deadline deadline isDeadline member isMember
    · exact tracks.deadline deadline (trimmed_deadline isDeadline) member (trimmed_member isMember)
  hits now isLater := by
    have ordered : (turn.now : Int) ≤ now := isLater
    have before := tracks.hits now (Int.le_trans (Int.ofNat_le.mpr later) ordered)
    rw [answer_past, admissions_rejected isRejected]
    rcases sameSet with rfl | rfl
    · exact before
    · rw [answer_store, tracks.trimmed_times, recent_recent ordered]
      exact before
  block := blocks
  room := by
    rw [admittedWithin, answer_past, admissions_rejected isRejected]
    exact Nat.le_trans (admittedWithin_le (Int.ofNat_le.mpr later)) tracks.room

theorem added_eq {member : Member} {deadline : Int} (isNew : member ∉ set.members) :
    (set.zadd member).pexpire deadline =
      { members := set.members ++ [member], deadline := some deadline } := by
  simp [SortedSet.zadd, SortedSet.pexpire, isNew]

theorem Turn.member_injective {other : Turn} (same : turn.member = other.member) :
    turn = other := by
  obtain ⟨sameNow, sameRandom⟩ := Member.mk.inj same
  cases turn
  cases other
  exact Turn.mk.injEq .. ▸ ⟨Int.ofNat.inj sameNow, sameRandom⟩

theorem Tracks.admit (tracks : Tracks options state) (later : state.clock ≤ turn.now)
    (isNew : turn ∉ (admitted state.past).map Past.turn) {result : RateLimitResult}
    (isAllowed : result.allowed = true)
    (below : admittedWithin options state.past turn.now < options.points) :
    Tracks options (state.answer turn result { state.store with
      set := ((state.store.trimmed options turn.now).zadd turn.member).pexpire
        (turn.now + options.windowMs) }) := by
  have laterTime : (state.clock : Int) ≤ turn.now := Int.ofNat_le.mpr later
  have notThere : turn.member ∉ (state.store.trimmed options turn.now).members := by
    intro isMember
    obtain ⟨call, isCall, same⟩ := tracks.members _ (trimmed_member isMember)
    exact isNew (List.mem_map.mpr ⟨call, isCall, Turn.member_injective same⟩)
  rw [added_eq notThere]
  refine ⟨?_, ?_, ?_, ?_, ?_, ?_⟩
  · refine List.forall_mem_cons.mpr ⟨Nat.le_refl _, fun call member => ?_⟩
    exact Nat.le_trans (tracks.ordered call member) later
  · intro member isMember
    have keeps : admitted (⟨turn, result⟩ :: state.past) =
        ⟨turn, result⟩ :: admitted state.past := by
      simp [admitted, isAllowed]
    rw [answer_past, keeps]
    rcases List.mem_append.mp isMember with before | isLast
    · obtain ⟨call, isCall, same⟩ := tracks.members member (trimmed_member before)
      exact ⟨call, List.mem_cons_of_mem _ isCall, same⟩
    · exact ⟨_, List.mem_cons_self, (List.mem_singleton.mp isLast).symm⟩
  · intro deadline isDeadline member isMember
    obtain rfl := Option.some.inj isDeadline
    have atMost : member.now ≤ turn.now := by
      rcases List.mem_append.mp isMember with before | isLast
      · obtain ⟨call, isCall, rfl⟩ := tracks.members member (trimmed_member before)
        have := tracks.ordered call (List.mem_filter.mp isCall).1
        exact Int.ofNat_le.mpr (Nat.le_trans this later)
      · rw [List.mem_singleton.mp isLast]
        exact Int.le_refl _
    omega
  · intro now isLater
    have ordered : (turn.now : Int) ≤ now := isLater
    have isPast : state.clock ≤ now := Int.le_trans laterTime ordered
    rw [answer_past, answer_store, List.map_append, recent_append, tracks.trimmed_times,
      recent_recent ordered, admissions_admitted isAllowed]
    refine (List.perm_append_comm.trans ?_)
    have joined : recent options.windowMs now ([turn.member].map Member.now) ++
        recent options.windowMs now (state.store.set.members.map Member.now) =
        recent options.windowMs now (turn.now :: state.store.set.members.map Member.now) := by
      rw [← recent_append]
      rfl
    rw [joined, recent_cons, recent_cons]
    split
    · exact (tracks.hits now isPast).cons _
    · exact tracks.hits now isPast
  · intro now isLater
    have same : underBlock options (⟨turn, result⟩ :: state.past) now =
        underBlock options state.past now := by
      simp [underBlock, isAllowed]
    rw [answer_past, same]
    exact tracks.block now (Int.le_trans laterTime isLater)
  · rw [admittedWithin, answer_past, admissions_admitted isAllowed, recent_cons]
    split
    · exact below
    · exact Nat.le_of_lt below

/-- What an answer can be: the four ways through `consume`. -/
inductive Outcome (options : RateLimitOptions) (state : Limiter) (turn : Turn) : Limiter → Prop
  | blocked : underBlock options state.past turn.now = true →
      0 < state.store.blockTtl turn.now →
      Outcome options state turn
        (state.answer turn (turnedAway (state.store.blockTtl turn.now)) state.store)
  | full : underBlock options state.past turn.now = false →
      options.points ≤ admittedWithin options state.past turn.now → options.blockForMs ≤ 0 →
      Outcome options state turn
        (state.answer turn
          (turnedAway (max 1 ((state.store.trimmed options turn.now).oldest.getD turn.now +
            options.windowMs - turn.now)))
          { state.store with set := state.store.trimmed options turn.now })
  | startsBlock : underBlock options state.past turn.now = false →
      options.points ≤ admittedWithin options state.past turn.now → 0 < options.blockForMs →
      Outcome options state turn
        (state.answer turn (turnedAway options.blockForMs)
          { set := state.store.trimmed options turn.now
            block := some (turn.now + options.blockForMs) })
  | admits {remaining : Nat} : underBlock options state.past turn.now = false →
      admittedWithin options state.past turn.now < options.points →
      Outcome options state turn
        (state.answer turn { allowed := true, remaining, retryAfterMs := 0 }
          { state.store with
            set := ((state.store.trimmed options turn.now).zadd turn.member).pexpire
              (turn.now + options.windowMs) })

theorem serve_eq_some : serve options state turn = some next ↔
    (state.clock ≤ turn.now ∧ turn ∉ (admitted state.past).map Past.turn) ∧
      next = state.answer turn (consume options state.store turn).1
        (consume options state.store turn).2 := by
  unfold serve
  split
  · rename_i isNext
    exact ⟨fun same => ⟨isNext, (Option.some.inj same).symm⟩, fun both => by rw [both.2]⟩
  · rename_i isNext
    exact iff_of_false (by simp) fun both => isNext both.1

theorem Tracks.outcome (tracks : Tracks options state)
    (served : serve options state turn = some next) : Outcome options state turn next := by
  obtain ⟨⟨later, -⟩, rfl⟩ := serve_eq_some.mp served
  have laterTime : (state.clock : Int) ≤ turn.now := Int.ofNat_le.mpr later
  have count := tracks.count laterTime
  by_cases active : 0 < state.store.blockTtl turn.now
  · rw [consume_blocked active]
    exact .blocked ((tracks.block _ laterTime).mpr active) active
  have free := Int.not_lt.mp active
  have unblocked := (tracks.free_iff laterTime).mpr free
  by_cases below : (state.store.trimmed options turn.now).members.length < options.points
  · rw [consume_admits free below]
    exact .admits unblocked (count ▸ below)
  have full := Nat.not_lt.mp below
  by_cases blocks : 0 < options.blockForMs
  · rw [consume_starts_block free full blocks]
    exact .startsBlock unblocked (count ▸ full) blocks
  · rw [consume_full free full (Int.not_lt.mp blocks)]
    exact .full unblocked (count ▸ full) (Int.not_lt.mp blocks)

theorem Tracks.serve (tracks : Tracks options state)
    (served : serve options state turn = some next) : Tracks options next := by
  obtain ⟨⟨later, isNew⟩, -⟩ := serve_eq_some.mp served
  have laterTime : (state.clock : Int) ≤ turn.now := Int.ofNat_le.mpr later
  cases tracks.outcome served with
  | blocked active _ =>
      refine tracks.reject later rfl (.inl rfl) fun now isLater => ?_
      rw [underBlock, if_pos (by simp [active])]
      exact tracks.block now (Int.le_trans laterTime isLater)
  | full unblocked _ noBlock =>
      refine tracks.reject later rfl (.inr rfl) fun now isLater => ?_
      rw [underBlock, if_neg (by simp [unblocked, turnedAway]), decide_eq_true_eq]
      have free : state.store.blockTtl now ≤ 0 :=
        Int.le_trans (blockTtl_le isLater) ((tracks.free_iff laterTime).mp unblocked)
      have sameBlock : (⟨state.store.trimmed options turn.now, state.store.block⟩ : Store).blockTtl
          now = state.store.blockTtl now := rfl
      dsimp only
      omega
  | startsBlock unblocked _ _ =>
      refine tracks.reject later rfl (.inr rfl) fun now isLater => ?_
      rw [underBlock, if_neg (by simp [unblocked, turnedAway]), decide_eq_true_eq]
      simp only [Store.blockTtl]
      omega
  | admits _ below => exact tracks.admit later isNew rfl below

/-- The window has room when the active block ends. -/
def Freed (options : RateLimitOptions) (state : Limiter) : Prop :=
  ∀ expiry, state.store.block = some expiry → state.clock < expiry →
    admittedWithin options state.past expiry < options.points

theorem Tracks.within_le (tracks : Tracks options state) (later : state.clock ≤ turn.now) :
    admittedWithin options state.past turn.now ≤ options.points :=
  Nat.le_trans (admittedWithin_le (Int.ofNat_le.mpr later)) tracks.room

theorem Tracks.room_iff (tracks : Tracks options state) (later : state.clock ≤ turn.now)
    (full : options.points ≤ admittedWithin options state.past turn.now)
    (ordered : turn.now ≤ now) :
    admittedWithin options state.past now < options.points ↔
      ∃ time ∈ admissions state.past, turn.now < time + options.windowMs ∧
        time + options.windowMs ≤ now := by
  have exactly := Nat.le_antisymm full (tracks.within_le later)
  rw [← recent_length_lt_iff ordered, ← admittedWithin, ← admittedWithin, ← exactly]

theorem not_active {expiry : Int} (free : store.blockTtl turn.now ≤ 0)
    (isBlock : store.block = some expiry) : ¬ turn.now < expiry := by
  simp only [Store.blockTtl, isBlock] at free
  omega

theorem Tracks.freed (tracks : Tracks options state) (freed : Freed options state)
    (fits : Fits options state turn) (served : RateLimit.serve options state turn = some next) :
    Freed options next := by
  obtain ⟨⟨later, isNew⟩, -⟩ := serve_eq_some.mp served
  have laterTime : (state.clock : Int) ≤ turn.now := Int.ofNat_le.mpr later
  have unblocked (free : underBlock options state.past turn.now = false) :
      state.store.blockTtl turn.now ≤ 0 := (tracks.free_iff laterTime).mp free
  intro expiry isBlock
  cases tracks.outcome served with
  | blocked _ _ =>
      intro active
      rw [admittedWithin, answer_past, admissions_rejected rfl]
      exact freed expiry isBlock (Int.lt_of_le_of_lt laterTime active)
  | full free _ _ => exact fun active => absurd active (not_active (unblocked free) isBlock)
  | startsBlock free full blocks =>
      intro _
      obtain rfl := Option.some.inj isBlock
      rw [admittedWithin, answer_past, admissions_rejected rfl]
      exact (tracks.room_iff later full (by omega)).mpr
        ((fits free full).2.resolve_left (Int.not_le.mpr blocks))
  | admits free _ => exact fun active => absurd active (not_active (unblocked free) isBlock)

theorem Tracks.decided (tracks : Tracks options state)
    (served : RateLimit.serve options state turn = some next) : Decided options next := by
  obtain ⟨⟨later, -⟩, rfl⟩ := serve_eq_some.mp served
  intro call earlier isLast
  obtain ⟨rfl, rfl⟩ := List.cons.inj isLast
  exact tracks.consume_allowed later

/-- The answer is right if after the wait the block is over and the window has room. -/
theorem Tracks.answered_iff (tracks : Tracks options state) {wait : Int} (nonneg : 0 ≤ wait)
    (served : RateLimit.serve options state turn =
      some (state.answer turn (turnedAway wait) store)) :
    Answered options (state.answer turn (turnedAway wait) store) ↔
      store.blockTtl (turn.now + wait) ≤ 0 ∧
        admittedWithin options state.past (turn.now + wait) < options.points := by
  have after := tracks.serve served
  have isLater (random : Nat) : turn.now ≤ (Past.retry ⟨turn, turnedAway wait⟩ random).now :=
    Nat.le_add_right ..
  have isNow (random : Nat) :
      ((Past.retry ⟨turn, turnedAway wait⟩ random).now : Int) = turn.now + wait := by
    simp only [Past.retry, turnedAway]
    omega
  have allowed (random : Nat) :
      (consume options store (Past.retry ⟨turn, turnedAway wait⟩ random)).1.allowed = true ↔
        store.blockTtl (turn.now + wait) ≤ 0 ∧
          admittedWithin options state.past (turn.now + wait) < options.points := by
    have isAllowed := after.consume_allowed (isLater random)
    rw [after.free_iff (Int.ofNat_le.mpr (isLater random)), isNow, answer_store, admittedWithin,
      answer_past, admissions_rejected rfl, ← admittedWithin] at isAllowed
    exact isAllowed
  constructor
  · intro answered
    exact (allowed 0).mp (answered.retried _ _ rfl rfl 0)
  · intro both
    refine ⟨tracks.decided served, fun call earlier isLast _ random => ?_⟩
    obtain ⟨rfl, rfl⟩ := List.cons.inj isLast
    exact (allowed random).mpr both

theorem Tracks.oldest (tracks : Tracks options state) (later : state.clock ≤ turn.now)
    (points : 0 < options.points)
    (full : options.points ≤ admittedWithin options state.past turn.now) :
    ∃ time, (state.store.trimmed options turn.now).oldest = some time ∧
      turn.now < time + options.windowMs ∧
      admittedWithin options state.past (time + options.windowMs) < options.points := by
  have laterTime : (state.clock : Int) ≤ turn.now := Int.ofNat_le.mpr later
  have sameLength {now : Int} (isLater : state.clock ≤ now) :
      (recent options.windowMs now (state.store.set.members.map Member.now)).length =
        admittedWithin options state.past now := (tracks.hits now isLater).length_eq
  unfold SortedSet.oldest
  rw [tracks.trimmed_times]
  cases isOldest : (recent options.windowMs turn.now
      (state.store.set.members.map Member.now)).min? with
  | none =>
      rw [List.min?_eq_none_iff] at isOldest
      have := sameLength laterTime
      rw [isOldest, List.length_nil] at this
      omega
  | some time =>
      obtain ⟨isRecent, hasRoom⟩ := room_after_oldest isOldest
      have isLater : (state.clock : Int) ≤ time + options.windowMs := by omega
      rw [sameLength isLater, sameLength laterTime] at hasRoom
      exact ⟨time, rfl, isRecent, Nat.lt_of_lt_of_le hasRoom (tracks.within_le later)⟩

theorem Tracks.answered (tracks : Tracks options state) (freed : Freed options state)
    (fits : Fits options state turn) (served : RateLimit.serve options state turn = some next) :
    Answered options next := by
  obtain ⟨⟨later, -⟩, -⟩ := serve_eq_some.mp served
  have laterTime : (state.clock : Int) ≤ turn.now := Int.ofNat_le.mpr later
  cases tracks.outcome served with
  | blocked _ active =>
      refine (tracks.answered_iff (Int.le_of_lt active) served).mpr ?_
      cases isBlock : state.store.block with
      | none => simp [Store.blockTtl, isBlock] at active
      | some expiry =>
          simp only [Store.blockTtl, isBlock] at active ⊢
          have atExpiry : turn.now + (expiry - turn.now) = expiry := by omega
          rw [atExpiry]
          exact ⟨by omega, freed expiry isBlock (by omega)⟩
  | full unblocked isFull _ =>
      obtain ⟨time, isOldest, isRecent, hasRoom⟩ :=
        tracks.oldest later (fits unblocked isFull).1 isFull
      refine (tracks.answered_iff (by omega) served).mpr ?_
      have waits : turn.now + max 1 ((state.store.trimmed options turn.now).oldest.getD turn.now +
          options.windowMs - turn.now) = time + options.windowMs := by
        rw [isOldest, Option.getD_some]
        omega
      rw [waits]
      exact ⟨Int.le_trans (blockTtl_le (Int.le_of_lt isRecent))
        ((tracks.free_iff laterTime).mp unblocked), hasRoom⟩
  | startsBlock unblocked isFull blocks =>
      refine (tracks.answered_iff (Int.le_of_lt blocks) served).mpr ⟨by simp [Store.blockTtl], ?_⟩
      exact (tracks.room_iff later isFull (by omega)).mpr
        ((fits unblocked isFull).2.resolve_left (Int.not_le.mpr blocks))
  | admits _ _ =>
      refine ⟨tracks.decided served, fun call earlier isLast isRejected => ?_⟩
      obtain ⟨rfl, rfl⟩ := List.cons.inj isLast
      cases isRejected

theorem Tracks.fits (tracks : Tracks options state)
    (served : RateLimit.serve options state turn = some next) (answered : Answered options next) :
    Fits options state turn := by
  obtain ⟨⟨later, -⟩, -⟩ := serve_eq_some.mp served
  intro unblocked isFull
  cases tracks.outcome served with
  | blocked active _ => exact absurd active (by simp [unblocked])
  | full _ _ noBlock =>
      have both := (tracks.answered_iff (by omega) served).mp answered
      exact ⟨Nat.lt_of_le_of_lt (Nat.zero_le _) both.2, .inl noBlock⟩
  | startsBlock _ _ blocks =>
      have both := (tracks.answered_iff (Int.le_of_lt blocks) served).mp answered
      exact ⟨Nat.lt_of_le_of_lt (Nat.zero_le _) both.2,
        .inr ((tracks.room_iff later isFull (by omega)).mp both.2)⟩
  | admits _ below => exact absurd isFull (Nat.not_le.mpr below)

end

structure InTurn (options : RateLimitOptions) (state : Limiter) : Prop where
  tracks : Tracks options state
  freed : Freed options state
  answered : Answered options state

theorem inTurn_start (options : RateLimitOptions) : InTurn options Limiter.start where
  tracks := by
    constructor <;>
      simp [Limiter.start, SortedSet.absent, admissions, admitted, underBlock, Store.blockTtl,
        admittedWithin]
  freed := by
    intro expiry isBlock
    cases isBlock
  answered := by
    constructor <;>
      · intro call earlier isLast
        cases isLast

/-- Whatever a block does to the wait, the decision is right in every run. -/
theorem decided_in_turn (options : RateLimitOptions) (turns : List Turn) :
    Always (serve options) (Decided options) Limiter.start turns := by
  have start := inTurn_start options
  have both : Always (serve options) (fun state => Tracks options state ∧ Decided options state)
      Limiter.start turns := by
    refine always_of_guarded (serve options) (fun state turn next before _ served => ?_)
      ⟨start.tracks, start.answered.decided⟩ (guarded_of_forall _ (fun _ _ _ => trivial) _)
    exact ⟨before.1.serve served, before.1.decided served⟩
  exact both.mono _ fun state kept => kept.2

/-- Every answer is right exactly where there are points at all, and no block ends before the window
that was full when it was set has room again. -/
theorem answered_in_turn_iff (options : RateLimitOptions) (turns : List Turn) :
    Always (serve options) (Answered options) Limiter.start turns ↔
      Guarded (serve options) (Fits options) Limiter.start turns := by
  refine always_iff_guarded (serve options) (fun state inTurn => inTurn.answered) ?_ ?_
    (inTurn_start options) turns
  · intro state turn next inTurn fits served
    exact ⟨inTurn.tracks.serve served, inTurn.tracks.freed inTurn.freed fits served,
      inTurn.tracks.answered inTurn.freed fits served⟩
  · intro state turn next inTurn served answered
    exact inTurn.tracks.fits served answered

/-- One hit a minute, and a block of ten seconds. -/
def shortBlock : RateLimitOptions := { points := 1, duration := 60, blockFor := some 10 }

def retryAdmitted (options : RateLimitOptions) (state : Limiter) : Bool :=
  match state.past with
  | [] => true
  | call :: _ => call.result.allowed || (consume options state.store (call.retry 3)).1.allowed

theorem retryAdmitted_of_answered (options : RateLimitOptions) (state : Limiter)
    (answered : Answered options state) : retryAdmitted options state = true := by
  unfold retryAdmitted
  cases isPast : state.past with
  | nil => rfl
  | cons call earlier =>
      by_cases isAllowed : call.result.allowed = true
      · simp [isAllowed]
      · simp [answered.retried call earlier isPast (by simpa using isAllowed) 3]

/-- The block is over ten seconds after the second call; the hit counts for another fifty. -/
theorem short_block_retry_rejected :
    ¬ Always (serve shortBlock) (Answered shortBlock) Limiter.start [⟨0, 1⟩, ⟨0, 2⟩] :=
  not_always (serve shortBlock) (retryAdmitted shortBlock)
    (retryAdmitted_of_answered shortBlock) (by decide +kernel)

end RateLimit
