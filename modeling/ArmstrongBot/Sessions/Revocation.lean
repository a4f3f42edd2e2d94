import ArmstrongBot.Sessions.Stores

/-! Which sessions the calls that start after a `destroy` may still be given. -/

namespace Sessions

open JsText StepMachine CacheService
open Calendar (Timestamp)

variable {ttls : TtlSeconds} {state next : State} {session other : SessionId}

theorem key_injective (same : session.key = other.key) : session = other := by
  obtain ⟨store, id⟩ := session
  obtain ⟨otherStore, otherId⟩ := other
  cases store <;> cases otherStore
  · rw [List.append_cancel_left same]
  · have differ := congrArg (List.take 13) same
    simp only [SessionId.key, List.take_append] at differ
    exact absurd (List.append_inj_left differ (by decide)) (by decide)
  · have differ := congrArg (List.take 13) same
    simp only [SessionId.key, List.take_append] at differ
    exact absurd (List.append_inj_left differ (by decide)) (by decide)
  · rw [List.append_cancel_left same]

def Inactive (session : SessionId) (rows : Rows) : Prop :=
  session.store = .dashboard → ∀ row, rows.find session.id = some row → row.revokedAt ≠ none

/-- The invariant of the runs in which every `destroy` leaves nothing behind. -/
structure Sound (state : State) : Prop where
  gone : ∀ session ∈ state.destroyed, Gone session state
  named : ∀ session ∈ state.destroyed, ∃ call ∈ state.calls, call.session = session
  inactive : ∀ session ∈ state.destroyed, Inactive session state.rows
  revoked : ∀ call ∈ state.calls, ∀ deleted, call.phase = .destroying deleted (some true) →
    Inactive call.session state.rows
  reads : ∀ call ∈ state.calls, call.phase = .reading → call.session.store = .dashboard
  late : ∀ call ∈ state.calls, call.late = true → call.session ∈ state.destroyed
  rejected : Revoked state

theorem sound_start : Sound State.start := by
  constructor <;> simp [State.start, Revoked]

/-! What one step of a call does. -/

theorem storing_holds (value : Cached) (ttlSeconds : Nat) (now : Timestamp) :
    storing value ttlSeconds now = .created ∨
      ∃ entry, storing value ttlSeconds now = .storing entry := by
  unfold storing
  dsimp only
  split
  · exact .inl rfl
  · exact .inr ⟨_, rfl⟩

/-- What a call may do to the rows and the caches, and which phases it may come to. -/
structure Moves (state : State) (call : Call) (rows : Rows) (cache : Levels Cached)
    (phase : Phase) : Prop where
  lacks : ∀ key, (call.phase.holds = true → key ≠ call.session.key) →
    state.cache.Lacks key → cache.Lacks key
  inactive : ∀ session, Inactive session state.rows → Inactive session rows
  holds : phase.holds = true →
    call.phase.holds = true ∨ ¬ state.cache.Lacks call.session.key
  resolves : ∀ found, phase = .resolved (some found) →
    call.phase.holds = true ∨ ¬ Inactive call.session state.rows
  revoked : ∀ deleted, phase = .destroying deleted (some true) → Inactive call.session rows
  reads : phase = .reading → call.session.store = .dashboard

/-- A call that goes on with what it has, or without anything. -/
theorem moves_quiet {call : Call} {phase : Phase}
    (holds : phase.holds = true → call.phase.holds = true)
    (resolves : ∀ found, phase ≠ .resolved (some found))
    (waits : ∀ deleted revoked, phase ≠ .destroying deleted revoked)
    (reads : phase = .reading → call.session.store = .dashboard) :
    Moves state call state.rows state.cache phase where
  lacks _ _ lacks := lacks
  inactive _ inactive := inactive
  holds isHeld := .inl (holds isHeld)
  resolves found isFound := absurd isFound (resolves found)
  revoked deleted isPhase := absurd isPhase (waits deleted (some true))
  reads := reads

theorem findActive_some {rows : Rows} {id : JsString} {now : Timestamp}
    {row : DashboardSessionRow} (found : findActive rows id now = some row) :
    rows.find id = some row ∧ row.revokedAt = none := by
  obtain ⟨isRow, active⟩ := Option.filter_eq_some_iff.mp found
  exact ⟨isRow, (of_decide_eq_true active).1⟩

theorem moves_advance {call : Call} {input : Input} {cache : Levels Cached} {phase : Phase}
    (reads : call.phase = .reading → call.session.store = .dashboard)
    (taken : advance ttls state call input = some (cache, phase)) :
    Moves state call state.rows cache phase := by
  unfold advance at taken
  split at taken
  case h_1 hot isPhase =>
      obtain ⟨rfl, rfl⟩ := Prod.mk.inj (Option.some.inj taken)
      have holds : call.phase.holds = true := by rw [isPhase]; rfl
      rcases storing_holds (.hot hot) ttls.dashboard input.now with created | ⟨entry, stores⟩
      · rw [created]
        exact moves_quiet (fun _ => holds) (by simp) (by simp) (by simp)
      · rw [stores]
        exact moves_quiet (fun _ => holds) (by simp) (by simp) (by simp)
  case h_2 entry isPhase =>
      obtain ⟨rfl, rfl⟩ := Prod.mk.inj (Option.some.inj taken)
      have holds : call.phase.holds = true := by rw [isPhase]; rfl
      refine ⟨?_, fun _ inactive => inactive, fun _ => .inl holds, by simp, by simp, by simp⟩
      intro key apart lacks
      exact every_redisSet lacks (apart holds).symm input.fails
  case h_3 isPhase =>
      obtain ⟨rfl, rfl⟩ := Prod.mk.inj (Option.some.inj taken)
      refine ⟨fun _ _ lacks => lacks, fun _ inactive => inactive, ?_, by simp, by simp, by simp⟩
      intro holds
      refine .inr fun lacks => ?_
      cases hit : redisGet state.cache call.session.key input.fails with
      | none => simp [hit, Phase.holds] at holds
      | some entry =>
          have found := redisGet_hit hit
          rw [lacks.get] at found
          cases found
  case h_4 entry isPhase =>
      obtain ⟨rfl, rfl⟩ := Prod.mk.inj (Option.some.inj taken)
      have holds : call.phase.holds = true := by rw [isPhase]; rfl
      refine ⟨?_, fun _ inactive => inactive, by simp [Phase.holds], fun _ _ => .inl holds,
        by simp, by simp⟩
      intro key apart lacks
      exact lacks.set _ (apart holds).symm
  case h_5 isPhase =>
      split at taken
      · rename_i store
        obtain ⟨rfl, rfl⟩ := Prod.mk.inj (Option.some.inj taken)
        exact moves_quiet (by simp [Phase.holds]) (by simp) (by simp) (fun _ => store)
      · obtain ⟨rfl, rfl⟩ := Prod.mk.inj (Option.some.inj taken)
        exact moves_quiet (by simp [Phase.holds]) (by simp) (by simp) (by simp)
  case h_6 isPhase =>
      split at taken
      · obtain ⟨rfl, rfl⟩ := Prod.mk.inj (Option.some.inj taken)
        exact moves_quiet (by simp [Phase.holds]) (by simp) (by simp) (by simp)
      · obtain ⟨rfl, rfl⟩ := Prod.mk.inj (Option.some.inj taken)
        refine ⟨fun _ _ lacks => lacks, fun _ inactive => inactive, by simp [Phase.holds], ?_,
          by simp, by simp⟩
        intro found isFound
        obtain ⟨row, isRow, _⟩ := Option.map_eq_some_iff.mp (Phase.resolved.inj isFound)
        obtain ⟨stored, active⟩ := findActive_some isRow
        exact .inr fun inactive => inactive (reads isPhase) row stored active
  case h_7 => cases taken

theorem inactive_revoke {rows : Rows} (inactive : Inactive session rows) (id : JsString)
    (now : Timestamp) : Inactive session (revoke rows id now) := by
  intro store row found
  rw [revoke, Table.find_update] at found
  obtain ⟨before, isBefore, rfl⟩ := Option.map_eq_some_iff.mp found
  split
  · simp [DashboardSessionRow.revoke]
  · exact inactive store before isBefore

theorem revoke_inactive (rows : Rows) (now : Timestamp) :
    Inactive session (revoke rows session.id now) := by
  intro store row found
  rw [revoke, Table.find_update] at found
  obtain ⟨before, isBefore, rfl⟩ := Option.map_eq_some_iff.mp found
  split
  · simp [DashboardSessionRow.revoke]
  · rename_i unselected
    simpa [Table.key_of_find isBefore] using unselected

section Steps

theorem Sound.unheld (sound : Sound state) {call : Call} (member : call ∈ state.calls)
    (destroyed : call.session ∈ state.destroyed) : call.phase.holds = false :=
  (sound.gone call.session destroyed).held call member rfl

theorem sound_move (sound : Sound state) {index : Nat} {call : Call}
    (found : state.calls[index]? = some call) {rows : Rows} {cache : Levels Cached} {phase : Phase}
    (moves : Moves state call rows cache phase) :
    Sound { state with rows, cache, calls := state.calls.set index (call.to phase) } := by
  have callMember := List.mem_of_getElem? found
  constructor
  · intro session destroyed
    have gone := sound.gone session destroyed
    constructor
    -- only a call that holds a session can cache it, and none holds a destroyed one
    · refine moves.lacks session.key (fun holds same => ?_) gone.cached
      have isCall := key_injective same
      rw [isCall] at destroyed
      rw [sound.unheld callMember destroyed] at holds
      cases holds
    · intro other member isSession
      rcases List.mem_or_eq_of_mem_set member with before | rfl
      · exact gone.held other before isSession
      · cases holds : phase.holds with
        | false => exact holds
        | true =>
            rcases moves.holds holds with held | notLacking
            · rw [gone.held call callMember isSession] at held
              cases held
            · have same : call.session = session := isSession
              rw [same] at notLacking
              exact absurd gone.cached notLacking
  · intro session destroyed
    obtain ⟨named, member, isNamed⟩ := sound.named session destroyed
    by_cases same : call.session = session
    · refine ⟨call.to phase, List.mem_of_getElem? (i := index) ?_, same⟩
      rw [List.getElem?_set_self (List.getElem?_eq_some_iff.mp found).1]
    · obtain ⟨place, isPlace⟩ := List.mem_iff_getElem?.mp member
      refine ⟨named, List.mem_of_getElem? (i := place) ?_, isNamed⟩
      rw [List.getElem?_set_ne, isPlace]
      rintro rfl
      rw [isPlace] at found
      exact same (Option.some.inj found ▸ isNamed)
  · exact fun session destroyed => moves.inactive session (sound.inactive session destroyed)
  · intro other member deleted isPhase
    rcases List.mem_or_eq_of_mem_set member with before | rfl
    · exact moves.inactive _ (sound.revoked other before deleted isPhase)
    · exact moves.revoked deleted isPhase
  · intro other member isPhase
    rcases List.mem_or_eq_of_mem_set member with before | rfl
    · exact sound.reads other before isPhase
    · exact moves.reads isPhase
  · intro other member late
    rcases List.mem_or_eq_of_mem_set member with before | rfl
    · exact sound.late other before late
    · exact sound.late call callMember late
  · intro other member late answer isPhase
    rcases List.mem_or_eq_of_mem_set member with before | rfl
    · exact sound.rejected other before late answer isPhase
    -- a late call has neither an entry at hand nor an active row to read
    · have destroyed := sound.late call callMember late
      rcases moves.resolves answer isPhase with holds | active
      · rw [sound.unheld callMember destroyed] at holds
        cases holds
      · exact active (sound.inactive call.session destroyed)

theorem sound_begin (sound : Sound state) (process : Nat) {phase : Phase} {rows : Rows}
    {cache : Levels Cached} (lacks : ∀ key, state.cache.Lacks key → cache.Lacks key)
    (inactive : ∀ call ∈ state.calls, Inactive call.session state.rows →
      Inactive call.session rows)
    (holds : phase.holds = true → session ∉ state.destroyed)
    (resolves : ∀ found, phase = .resolved (some found) → session ∉ state.destroyed)
    (revoked : ∀ deleted, phase = .destroying deleted (some true) → session.store = .api)
    (reads : phase ≠ .reading) :
    Sound { begin state process session phase with rows, cache } := by
  have split : ∀ call ∈ (begin state process session phase).calls, call ∈ state.calls ∨
      call = { process, session, late := decide (session ∈ state.destroyed), phase } := by
    intro call member
    rcases List.mem_append.mp member with before | isNew
    · exact .inl before
    · exact .inr (List.mem_singleton.mp isNew)
  constructor
  · intro destroyedSession destroyed
    have gone := sound.gone destroyedSession destroyed
    refine ⟨lacks _ gone.cached, ?_⟩
    intro call member isSession
    rcases split call member with before | rfl
    · exact gone.held call before isSession
    · cases isHeld : phase.holds with
      | false => rfl
      | true =>
          have same : session = destroyedSession := isSession
          rw [← same] at destroyed
          exact absurd destroyed (holds isHeld)
  · intro destroyedSession destroyed
    obtain ⟨call, member, isSession⟩ := sound.named destroyedSession destroyed
    exact ⟨call, List.mem_append_left _ member, isSession⟩
  · intro destroyedSession destroyed
    obtain ⟨call, member, rfl⟩ := sound.named destroyedSession destroyed
    exact inactive call member (sound.inactive _ destroyed)
  · intro call member deleted isPhase
    rcases split call member with before | rfl
    · exact inactive call before (sound.revoked call before deleted isPhase)
    · intro store
      rw [revoked deleted isPhase] at store
      cases store
  · intro call member isPhase
    rcases split call member with before | rfl
    · exact sound.reads call before isPhase
    · exact absurd isPhase reads
  · intro call member late
    rcases split call member with before | rfl
    · exact sound.late call before late
    · exact of_decide_eq_true late
  · intro call member late answer isPhase
    rcases split call member with before | rfl
    · exact sound.rejected call before late answer isPhase
    · exact resolves answer isPhase (of_decide_eq_true late)

theorem sound_create (sound : Sound state) {process : Nat} {id : JsString} {login : Login}
    {now : Timestamp} (fresh : Fresh state { store := login.store, id })
    (created : create ttls state process id login now = some next) : Sound next := by
  have isNew : ({ store := login.store, id } : SessionId) ∉ state.destroyed := by
    intro destroyed
    obtain ⟨call, member, isSession⟩ := sound.named _ destroyed
    exact fresh call member isSession
  cases login with
  | dashboard user guilds =>
      obtain ⟨rows, inserted, rfl⟩ := Option.map_eq_some_iff.mp created
      refine sound_begin sound process (fun _ lacks => lacks) ?_ (fun _ => isNew)
        (fun _ _ => isNew) (by simp) (by simp)
      intro call member inactive store row found
      rw [Table.find_insert inserted] at found
      split at found
      · rename_i same
        have sameId : id = call.session.id := same
        refine absurd ?_ (fresh call member)
        rw [sameId, Login.store, ← store]
      · exact inactive store row found
  | api data =>
      obtain rfl := Option.some.inj created
      refine sound_begin sound process (fun _ lacks => lacks) (fun _ _ inactive => inactive)
        (fun _ => isNew) (fun _ _ => isNew) ?_ ?_
      · rcases storing_holds (.data data) ttls.api now with isCreated | ⟨entry, stores⟩
        · simp [isCreated]
        · simp [stores]
      · rcases storing_holds (.data data) ttls.api now with isCreated | ⟨entry, stores⟩
        · simp [isCreated]
        · simp [stores]

theorem sound_resolve (sound : Sound state) (process : Nat) (session : SessionId)
    (now : Timestamp) : Sound (resolve state process session now) := by
  refine sound_begin sound process (fun key lacks => every_memoryGet lacks process _ now)
    (fun _ _ inactive => inactive) ?_ ?_ ?_ ?_
  · split <;> simp [Phase.holds]
  · intro found isFound destroyed
    split at isFound
    · rename_i entry hit
      have cached := memoryGet_hit hit
      rw [(sound.gone session destroyed).cached.get] at cached
      cases cached
    · cases isFound
  · split <;> simp
  · split <;> simp

theorem sound_destroy (sound : Sound state) (process : Nat) (session : SessionId) :
    Sound (destroy state process session) := by
  refine sound_begin sound process (fun key lacks => lacks.delete _)
    (fun _ _ inactive => inactive) (by simp [Phase.holds]) (by simp) ?_ (by simp)
  intro deleted isPhase
  split at isPhase
  · simp at isPhase
  · rename_i store
    exact store

theorem sound_returns (sound : Sound state) {call : Call} (member : call ∈ state.calls)
    (gone : Gone call.session state) (inactive : Inactive call.session state.rows) :
    Sound { state with destroyed := state.destroyed ++ [call.session] } where
  gone := by
    intro session destroyed
    rcases List.mem_append.mp destroyed with before | isNew
    · exact ⟨(sound.gone session before).cached, (sound.gone session before).held⟩
    · rw [List.mem_singleton.mp isNew]
      exact ⟨gone.cached, gone.held⟩
  named := by
    intro session destroyed
    rcases List.mem_append.mp destroyed with before | isNew
    · exact sound.named session before
    · exact ⟨call, member, (List.mem_singleton.mp isNew).symm⟩
  inactive := by
    intro session destroyed
    rcases List.mem_append.mp destroyed with before | isNew
    · exact sound.inactive session before
    · rw [List.mem_singleton.mp isNew]
      exact inactive
  revoked := sound.revoked
  reads := sound.reads
  late other isCall isLate := List.mem_append_left _ (sound.late other isCall isLate)
  rejected := sound.rejected

theorem sound_step {action : Action} (sound : Sound state) (clean : ReturnsGone state action)
    (taken : step ttls state action = some next) : Sound next := by
  cases action with
  | create process id login now =>
      simp only [step] at taken
      split at taken
      · rename_i fresh
        exact sound_create sound fresh taken
      · cases taken
  | resolve process session now =>
      obtain rfl := Option.some.inj taken
      exact sound_resolve sound process session now
  | destroy process session =>
      obtain rfl := Option.some.inj taken
      exact sound_destroy sound process session
  | advance index input =>
      simp only [step] at taken
      split at taken
      · rename_i call found
        obtain ⟨⟨cache, phase⟩, advanced, rfl⟩ := Option.map_eq_some_iff.mp taken
        have reads := sound.reads call (List.mem_of_getElem? found)
        exact sound_move sound found (moves_advance reads advanced)
      · cases taken
  | landDelete index fails =>
      simp only [step] at taken
      split at taken
      · rename_i call found
        split at taken
        · rename_i revoked isPhase
          obtain rfl := Option.some.inj taken
          refine sound_move sound found ⟨fun key _ lacks => every_redisDelete lacks fails,
            fun _ inactive => inactive, by simp [Phase.holds], by simp, ?_, by simp⟩
          rintro _ ⟨⟩
          exact sound.revoked call (List.mem_of_getElem? found) _ isPhase
        · cases taken
      · cases taken
  | landRevoke index input =>
      simp only [step] at taken
      split at taken
      · rename_i call found
        split at taken
        · rename_i deleted isPhase
          obtain rfl := Option.some.inj taken
          refine sound_move sound found ⟨fun _ _ lacks => lacks, ?_, by simp [Phase.holds],
            by simp, ?_, by simp⟩
          · intro session inactive
            split
            · exact inactive
            · exact inactive_revoke inactive _ _
          · intro _ isDone
            split
            · simp_all
            · exact revoke_inactive state.rows input.now
        · cases taken
      · cases taken
  | returns index =>
      simp only [step] at taken
      split at taken
      · rename_i call found
        split at taken
        · rename_i isPhase
          obtain rfl := Option.some.inj taken
          have isCall := List.mem_of_getElem? found
          have inactive := sound.revoked call isCall _ isPhase
          have returned := sound_returns sound isCall (clean call found) inactive
          exact sound_move returned found (moves_quiet (by simp [Phase.holds]) (by simp) (by simp)
            (by simp))
        · cases taken
      · cases taken
  | evict level key =>
      obtain rfl := Option.some.inj taken
      refine ⟨fun session destroyed => ?_, sound.named, sound.inactive, sound.revoked,
        sound.reads, sound.late, sound.rejected⟩
      have gone := sound.gone session destroyed
      exact ⟨gone.cached.delete _, gone.held⟩

end Steps

/-! A `resolve` comes to its end if it is answered. -/

/-- How many steps a `resolve` has before it at most. -/
def Phase.remaining : Phase → Nat
  | .asking => 3
  | .answered _ => 2
  | .reading => 1
  | _ => 0

/-- A step of the call itself. -/
def Advances (index : Nat) (action : Action) : Prop := ∃ input, action = .advance index input

/-- The late calls that wait can still come to `null`. -/
def AnswersNull (ttls : TtlSeconds) (state : State) : Prop :=
  ∀ (index : Nat) (call : Call), state.calls[index]? = some call → call.late = true →
    0 < call.phase.remaining →
      Reaches (step ttls) (Advances index)
        (fun final => final.calls[index]? = some (call.to (.resolved none))) state

def answering : Input := { now := 0, fails := false }

theorem advance_remaining (ttls : TtlSeconds) (state : State) (call : Call)
    (waits : 0 < call.phase.remaining) :
    ∃ cache phase, advance ttls state call answering = some (cache, phase) ∧
      phase.remaining < call.phase.remaining ∧
      (0 < phase.remaining ∨ ∃ answer, phase = .resolved answer) := by
  cases isPhase : call.phase with
  | asking =>
      refine ⟨_, _, by rw [advance, isPhase], ?_⟩
      simp [Phase.remaining]
  | answered hit =>
      cases hit with
      | some entry =>
          refine ⟨_, _, by rw [advance, isPhase], ?_⟩
          simp [Phase.remaining]
      | none =>
          cases store : call.session.store with
          | dashboard =>
              refine ⟨state.cache, .reading, by simp only [advance, isPhase, store], ?_⟩
              simp [Phase.remaining]
          | api =>
              refine ⟨state.cache, .resolved none, by simp only [advance, isPhase, store], ?_⟩
              simp [Phase.remaining]
  | reading =>
      refine ⟨state.cache,
        .resolved ((findActive state.rows call.session.id answering.now).map coldSession), ?_, ?_⟩
      · rw [advance, isPhase]
        rfl
      · simp [Phase.remaining]
  | _ => simp [isPhase, Phase.remaining] at waits

theorem resolve_ends (ttls : TtlSeconds) {index : Nat} {call : Call}
    (found : state.calls[index]? = some call) (waits : 0 < call.phase.remaining) :
    Reaches (step ttls) (Advances index)
      (fun final => ∃ answer, final.calls[index]? = some (call.to (.resolved answer))) state := by
  refine reaches_of_decreasing (step ttls)
    (fun state => ∃ phase, state.calls[index]? = some (call.to phase) ∧
      (0 < phase.remaining ∨ ∃ answer, phase = .resolved answer))
    (fun state => ((state.calls[index]?).map fun call => call.phase.remaining).getD 0) ?_
    ⟨call.phase, found, .inl waits⟩
  rintro state ⟨phase, isCall, left | ⟨answer, rfl⟩⟩
  · right
    obtain ⟨cache, later, advanced, lower, ends⟩ :=
      advance_remaining ttls state (call.to phase) left
    have isLater : (state.calls.set index (call.to later))[index]? = some (call.to later) :=
      List.getElem?_set_self (List.getElem?_eq_some_iff.mp isCall).1
    refine ⟨.advance index answering,
      { state with cache, calls := state.calls.set index (call.to later) }, ⟨_, rfl⟩, ?_,
      ⟨later, isLater, ends⟩, ?_⟩
    · simp only [step, isCall, advanced, Option.map_some]
      rfl
    · simp only [isLater, isCall]
      exact lower
  · exact .inl ⟨answer, isCall⟩

theorem answersNull_of_sound (sound : Sound state) : AnswersNull ttls state := by
  intro index call found late waits
  have keeps : ∀ state action next, Sound state → Advances index action →
      step ttls state action = some next → Sound next := by
    rintro state _ next sound ⟨input, rfl⟩ taken
    have clean : ReturnsGone state (.advance index input) := trivial
    exact sound_step sound clean taken
  obtain ⟨actions, own, final, reached, ⟨answer, isAnswer⟩, finalSound⟩ :=
    (resolve_ends ttls found waits).keeps (step ttls) Sound keeps sound
  refine ⟨actions, own, final, reached, ?_⟩
  have rejected := finalSound.rejected _ (List.mem_of_getElem? isAnswer) late
  cases answer with
  | none => exact isAnswer
  | some session => exact absurd rfl (rejected session)

theorem sessionsRevoked_of_gone (ttls : TtlSeconds) (actions : List Action)
    (guarded : Guarded (step ttls) ReturnsGone State.start actions) :
    Always (step ttls) (fun state => Revoked state ∧ AnswersNull ttls state)
      State.start actions := by
  have sound : Always (step ttls) Sound State.start actions :=
    always_of_guarded (step ttls)
      (fun state action next sound clean taken => sound_step sound clean taken) sound_start guarded
  exact sound.mono _ fun state sound => ⟨sound.rejected, answersNull_of_sound sound⟩

instance (session : SessionId) (state : State) : Decidable (Gone session state) :=
  decidable_of_iff (state.cache.Lacks session.key ∧
      ∀ call ∈ state.calls, ¬ (call.session = session ∧ call.phase.holds = true)) (by
    constructor
    · rintro ⟨cached, held⟩
      exact ⟨cached, fun call member isSession => by simpa [isSession] using held call member⟩
    · rintro ⟨cached, held⟩
      exact ⟨cached, fun call member ⟨isSession, holds⟩ => by
        simp [held call member isSession] at holds⟩)

instance (state : State) (action : Action) : Decidable (ReturnsGone state action) := by
  cases action <;> unfold ReturnsGone <;> infer_instance

/-! A session of the dashboard that one process creates, another one serves, and the first one
destroys. -/

def sampleTtls : TtlSeconds := { dashboard := 43200, api := 86400 }

def sampleUser : DashboardUser :=
  { discordId := js "u", username := js "u", globalName := none, avatarHash := none
    isBotOwner := false }

def sampleSession : SessionId := { store := .dashboard, id := js "s" }

def advancing (call : Nat) : Action := .advance call { now := 0, fails := false }

def created : List Action :=
  [.create 0 (js "s") (.dashboard sampleUser []) 0, advancing 0, advancing 0]

def destroyed (call : Nat) : List Action :=
  [.destroy 0 sampleSession, .landDelete call false,
    .landRevoke call { now := 0, fails := false }, .returns call]

/-- No process but Redis had the session. -/
theorem sessionsRevoked_unserved :
    Always (step sampleTtls) (fun state => Revoked state ∧ AnswersNull sampleTtls state)
      State.start [created, destroyed 1, [.resolve 1 sampleSession 0], [advancing 2, advancing 2,
        advancing 2]].flatten :=
  sessionsRevoked_of_gone sampleTtls _ (by decide +kernel)

def isRevoked (call : Call) : Bool :=
  match call.phase with
  | .resolved (some _) => !call.late
  | _ => true

theorem isRevoked_of_revoked (state : State) (revoked : Revoked state) :
    state.calls.all isRevoked = true := by
  refine List.all_eq_true.mpr ?_
  intro call member
  unfold isRevoked
  split
  · rename_i session resolved
    cases late : call.late with
    | false => rfl
    | true => exact absurd resolved (revoked call member late session)
  · rfl

/-- What the other process took into its memory outlives the session. -/
theorem destroyed_session_resolves :
    ¬ ∀ (ttls : TtlSeconds) (actions : List Action),
      Always (step ttls) Revoked State.start actions := by
  intro all
  refine not_always (step sampleTtls) (fun state => state.calls.all isRevoked)
    isRevoked_of_revoked ?_
    (all sampleTtls [created, [.resolve 1 sampleSession 0, advancing 1, advancing 1], destroyed 2,
      [.resolve 1 sampleSession 0]].flatten)
  decide +kernel

end Sessions
