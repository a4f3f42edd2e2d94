import ArmstrongBot.Security.Turns

/-! Calls in turn are runs of the commands in which each call comes when the one before it has
returned. -/

namespace RateLimit

open StepMachine

/-- The state with one more call. -/
def State.serving (state : State) (call : Call) : State :=
  { state with calls := state.calls ++ [call] }

/-- Where a call leads to from the clock and the calls before it. -/
structure Ends (clock : Int) (calls : List Call) (answer : RateLimitResult × Store)
    (final : State) : Prop where
  clock : final.clock = clock
  store : ⟨final.set, final.block⟩ = answer.2
  results : final.calls.map Call.phase = calls.map Call.phase ++ [.returned answer.1]

structure Simulates (state : State) (limiter : Limiter) : Prop where
  clock : state.clock = limiter.clock
  store : ⟨state.set, state.block⟩ = limiter.store
  results : state.calls.map Call.phase =
    limiter.past.reverse.map fun call => Phase.returned call.result

section

variable {options : RateLimitOptions} {state final : State} {limiter next : Limiter} {turn : Turn}
  {store : Store} {now : Int} {call : Call}

@[simp] theorem serving_set : (state.serving call).set = state.set := rfl

@[simp] theorem serving_clock : (state.serving call).clock = state.clock := rfl

@[simp] theorem serving_blockTtl : (state.serving call).blockTtl = state.blockTtl := rfl

@[simp] theorem serving_calls {later : Call} :
    (state.serving call).calls.set state.calls.length later = state.calls ++ [later] := by
  simp [State.serving]

theorem serving_step (random : Nat) : step options (state.serving call)
      (.advance state.calls.length random false) =
    advance options (state.serving call) state.calls.length call random := by
  simp [step, State.serving]

theorem serving_pttl_blocked (random : Nat) (isPhase : call.phase = .pttl)
    (active : 0 < state.blockTtl) :
    step options (state.serving call) (.advance state.calls.length random false) =
      some (state.serving (call.to (rejected state.blockTtl))) := by
  rw [serving_step, advance, isPhase]
  simp only [serving_calls]
  rw [if_pos (show 0 < (state.serving call).blockTtl from active)]
  rfl

theorem serving_pttl_free (random : Nat) (isPhase : call.phase = .pttl)
    (free : ¬ 0 < state.blockTtl) :
    step options (state.serving call) (.advance state.calls.length random false) =
      some (state.serving { call.to .zremrangebyscore with checked := state.blocks }) := by
  rw [serving_step, advance, isPhase]
  simp only [serving_calls]
  rw [if_neg (show ¬ 0 < (state.serving call).blockTtl from free)]
  rfl

theorem serving_zremrangebyscore (random : Nat) (isPhase : call.phase = .zremrangebyscore) :
    step options (state.serving call) (.advance state.calls.length random false) =
      some (State.serving { state with
        set := (state.set.live state.clock).zremrangebyscore (call.now - options.windowMs) }
          (call.to .zcard)) := by
  rw [serving_step, advance, isPhase]
  simp only [serving_calls]
  rfl

theorem serving_zcard_full (random : Nat) (isPhase : call.phase = .zcard)
    (isLive : state.set.live state.clock = state.set)
    (full : options.points ≤ state.set.members.length) :
    step options (state.serving call) (.advance state.calls.length random false) =
      some (state.serving (call.to .zrange)) := by
  rw [serving_step, advance, isPhase]
  simp only [serving_calls, serving_set, serving_clock, isLive, if_pos full]
  rfl

theorem serving_zcard_below (random : Nat) (isPhase : call.phase = .zcard)
    (isLive : state.set.live state.clock = state.set)
    (below : ¬ options.points ≤ state.set.members.length) :
    step options (state.serving call) (.advance state.calls.length random false) =
      some (state.serving { call.to (.zadd state.set.members.length) with
        random := some random }) := by
  rw [serving_step, advance, isPhase]
  simp only [serving_calls, serving_set, serving_clock, isLive, if_neg below]
  rfl

theorem serving_zrange (random : Nat) (isPhase : call.phase = .zrange) :
    step options (state.serving call) (.advance state.calls.length random false) =
      some (state.serving (call.to (if options.blockFor.any fun blockFor => 0 < blockFor then .block
        else rejected (max 1 ((state.set.live state.clock).oldest.getD call.now +
          options.windowMs - call.now))))) := by
  rw [serving_step, advance, isPhase]
  simp only [serving_calls, serving_set, serving_clock]
  cases options.blockFor with
  | none => rfl
  | some blockFor => simp [State.serving]

theorem serving_block (random : Nat) (isPhase : call.phase = .block) :
    step options (state.serving call) (.advance state.calls.length random false) =
      some (State.serving { state with
        block := some (state.clock + options.blockForMs), blocks := state.blocks + 1 }
          (call.to (rejected options.blockForMs))) := by
  rw [serving_step, advance, isPhase]
  simp only [serving_calls, serving_clock]
  rfl

theorem serving_zadd (random : Nat) {count : Nat} (isPhase : call.phase = .zadd count) :
    step options (state.serving call) (.advance state.calls.length random false) =
      some (State.serving { state with set := (state.set.live state.clock).zadd call.member }
        { call.to (.pexpire count) with underBlock := decide (0 < state.blockTtl) }) := by
  rw [serving_step, advance, isPhase]
  simp only [serving_calls, serving_set, serving_clock, serving_blockTtl]
  rfl

theorem serving_pexpire (random : Nat) {count : Nat} (isPhase : call.phase = .pexpire count) :
    step options (state.serving call) (.advance state.calls.length random false) =
      some (State.serving { state with
        set := (state.set.live state.clock).pexpire (state.clock + options.windowMs) }
        (call.to (.returned
          { allowed := true, remaining := options.points - count - 1, retryAfterMs := 0 }))) := by
  rw [serving_step, advance, isPhase]
  simp only [serving_calls, serving_set, serving_clock]
  rfl

theorem live_eq {set : SortedSet} (isLive : ∀ deadline, set.deadline = some deadline →
    now < deadline) : set.live now = set := by
  unfold SortedSet.live
  cases isDeadline : set.deadline with
  | none => simp
  | some deadline =>
      have later := isLive deadline isDeadline
      simp [show ¬ deadline ≤ now by omega]

theorem trimmed_isLive {deadline : Int}
    (isDeadline : (store.trimmed options now).deadline = some deadline) : now < deadline := by
  have isLive := zremrangebyscore_deadline isDeadline
  unfold SortedSet.live at isLive
  split at isLive
  · cases isLive
  · rename_i isLater
    simpa [isLive] using isLater

theorem zadd_deadline {set : SortedSet} {member : Member} :
    (set.zadd member).deadline = set.deadline := by
  unfold SortedSet.zadd
  split <;> rfl

theorem returned_reached {result : RateLimitResult} (isPhase : call.phase = .returned result) :
    Reaches (step options) (fun _ => True)
      (Ends state.clock state.calls (result, ⟨state.set, state.block⟩)) (state.serving call) :=
  .here ⟨rfl, rfl, by simp [State.serving, isPhase]⟩

theorem full_reached (isPhase : call.phase = .zrange) (atNow : call.now = state.clock)
    (isLive : state.set.live state.clock = state.set) (noBlock : ¬ 0 < options.blockForMs) :
    Reaches (step options) (fun _ => True)
      (Ends state.clock state.calls
        (turnedAway (max 1 (state.set.oldest.getD state.clock + options.windowMs - state.clock)),
          ⟨state.set, state.block⟩)) (state.serving call) := by
  refine Reaches.cons trivial (serving_zrange 0 isPhase) ?_
  rw [isLive, atNow, if_neg fun any => noBlock (blockFor_any.mp any)]
  exact returned_reached rfl

theorem starts_block_reached (isPhase : call.phase = .zrange) (starts : 0 < options.blockForMs) :
    Reaches (step options) (fun _ => True)
      (Ends state.clock state.calls (turnedAway options.blockForMs,
        ⟨state.set, some (state.clock + options.blockForMs)⟩)) (state.serving call) := by
  refine Reaches.cons trivial (serving_zrange 0 isPhase) ?_
  rw [if_pos (blockFor_any.mpr starts)]
  refine Reaches.cons trivial (serving_block 0 rfl) ?_
  exact returned_reached rfl

theorem admits_reached {count : Nat} (isPhase : call.phase = .zadd count)
    (isLive : ∀ deadline, state.set.deadline = some deadline → state.clock < deadline) :
    Reaches (step options) (fun _ => True)
      (Ends state.clock state.calls
        ({ allowed := true, remaining := options.points - count - 1, retryAfterMs := 0 },
          ⟨(state.set.zadd call.member).pexpire (state.clock + options.windowMs), state.block⟩))
      (state.serving call) := by
  refine Reaches.cons trivial (serving_zadd 0 isPhase) ?_
  rw [live_eq isLive]
  refine Reaches.cons trivial (serving_pexpire 0 rfl) ?_
  have addedLive : (state.set.zadd call.member).live state.clock = state.set.zadd call.member :=
    live_eq fun deadline isDeadline => isLive deadline (zadd_deadline ▸ isDeadline)
  simp only [addedLive]
  exact returned_reached rfl

/-- A call alone on the key is `consume`. -/
theorem consume_reached (atTime : state.clock = turn.now) :
    Reaches (step options) (fun _ => True)
      (Ends state.clock state.calls (consume options ⟨state.set, state.block⟩ turn)) state := by
  obtain ⟨clock, set, block, blocks, calls⟩ := state
  obtain rfl : clock = turn.now := atTime
  let store : Store := ⟨set, block⟩
  -- The state once the set has been trimmed.
  let counted : State := ⟨turn.now, store.trimmed options turn.now, block, blocks, calls⟩
  have isLive : ∀ deadline, counted.set.deadline = some deadline → counted.clock < deadline :=
    fun deadline => trimmed_isLive
  refine Reaches.cons trivial (show step options _ .consume = some _ from rfl) ?_
  by_cases active : 0 < store.blockTtl turn.now
  · rw [consume_blocked active]
    refine Reaches.cons trivial (serving_pttl_blocked 0 rfl active) ?_
    exact returned_reached (by rfl)
  have free := Int.not_lt.mp active
  refine Reaches.cons trivial (serving_pttl_free 0 rfl active) ?_
  refine Reaches.cons trivial
    (show step options _ _ = some (counted.serving _) from serving_zremrangebyscore 0 rfl) ?_
  by_cases full : options.points ≤ counted.set.members.length
  · refine Reaches.cons trivial (serving_zcard_full 0 rfl (live_eq isLive) full) ?_
    by_cases starts : 0 < options.blockForMs
    · rw [consume_starts_block free full starts]
      exact starts_block_reached (by rfl) starts
    · rw [consume_full free full (Int.not_lt.mp starts)]
      exact full_reached (by rfl) (by rfl) (live_eq isLive) starts
  · refine Reaches.cons trivial
      (serving_zcard_below turn.random rfl (live_eq isLive) full) ?_
    rw [consume_admits free (Nat.not_le.mp full)]
    exact admits_reached (by rfl) isLive

theorem serve_reached (simulates : Simulates state limiter)
    (served : serve options limiter turn = some next) :
    Reaches (step options) (fun _ => True) (fun final => Simulates final next) state := by
  obtain ⟨⟨later, -⟩, rfl⟩ := serve_eq_some.mp served
  refine Reaches.cons trivial
    (show step options state (.tick (turn.now - limiter.clock)) = some _ from rfl) ?_
  have atTime : state.clock + ((turn.now - limiter.clock : Nat) : Int) = turn.now := by
    rw [simulates.clock]
    omega
  refine (consume_reached atTime).trans fun final ends => .here ⟨ends.clock.trans atTime, ?_, ?_⟩
  · rw [ends.store, simulates.store]
    rfl
  · rw [ends.results, simulates.results, simulates.store]
    simp

/-- Every run of calls in turn is one of the commands. -/
theorem turns_reached (simulates : Simulates state limiter) {turns : List Turn}
    (answered : run (serve options) limiter turns = some next) :
    Reaches (step options) (fun _ => True) (fun final => Simulates final next) state := by
  induction turns generalizing state limiter with
  | nil =>
      obtain rfl : limiter = next := by simpa [run] using answered
      exact .here simulates
  | cons turn rest ih =>
      obtain ⟨between, served, later⟩ := (run_cons (serve options)).mp answered
      exact (serve_reached simulates served).trans fun middle isMiddle => ih isMiddle later

end

end RateLimit
