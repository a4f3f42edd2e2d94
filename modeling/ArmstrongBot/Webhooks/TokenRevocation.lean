import ArmstrongBot.Webhooks.EndpointHistory

/-! Which calls of `accept` the updates that have returned rule out. -/

namespace WebhookEndpoints

open JsText StepMachine CacheService
open Calendar (Timestamp)
open Webhooks (WebhookEndpoint WebhooksConfig Request Refusal refusal Services InboundAction
  inboundStep)

variable {state next : State} {log returned : List Update} {update : Update}

/-! The invariant of the runs in which every change returns clean. -/

/-- What a call has at hand, and what it went by. -/
structure Served (log returned : List Update) (accept : Accept) : Prop where
  carried : ∀ row, accept.phase.carries = some row →
    Good log returned (cacheKey accept.token) row
  after : ∀ update ∈ accept.after, update ∈ returned
  rejected : ∀ endpointId place, accept.phase = .admitted endpointId place →
    ∀ update ∈ accept.after, ¬ Bars log update accept.token endpointId

def MutationPhase.made : MutationPhase → Option Update
  | .updated _ update | .deleting _ update | .settled update => update
  | .rereading update | .returned update => some update
  | _ => none

structure Sound (state : State) : Prop where
  rows : RowsSound state.log state.drawn state.rows
  cached : state.cache.Every fun key entry => Good state.log state.returned key entry.value
  accepts : ∀ accept ∈ state.accepts, Served state.log state.returned accept
  mutations : ∀ mutation ∈ state.mutations, ∀ update, mutation.phase.made = some update →
    update ∈ state.log
  returned : ∀ update ∈ state.returned, update ∈ state.log

theorem sound_start : Sound State.start := by
  constructor
  · constructor <;> simp [State.start, Table.empty]
  · exact Tiers.every_empty
  · simp [State.start]
  · simp [State.start]
  · simp [State.start]

theorem rejectsRevoked_of_sound (sound : Sound state) : RejectsRevoked state :=
  fun accept member endpointId place admitted _ =>
    (sound.accepts accept member).rejected endpointId place admitted

section Steps

theorem Bars.of_cons {newest : Update} {token endpointId : JsString}
    (bars : Bars (newest :: log) update token endpointId) : Bars log update token endpointId := by
  by_cases rotates : update.change = .rotate
  · rw [bars_rotate rotates] at bars ⊢
    exact bars
  · rw [bars_iff rotates] at bars ⊢
    obtain ⟨closes, same, notReopened⟩ := bars
    exact ⟨closes, same, fun reopened => notReopened (reopened.cons newest)⟩

theorem Good.logs {key : JsString} {row : Stamped} (good : Good log returned key row)
    {newest : Update} (stamp : newest.stamp = log.length + 1) :
    Good (newest :: log) returned key row := by
  refine ⟨good.keyed, Nat.le_succ_of_le good.read, ?_, good.clean⟩
  intro update isLogged known
  rcases List.mem_cons.mp isLogged with rfl | before
  · have read := good.read
    omega
  · exact (good.follows update before known).cons newest

theorem Good.returns {key : JsString} {row : Stamped} (good : Good log returned key row)
    (clean : update.contradicts row = false) : Good log (update :: returned) key row := by
  refine ⟨good.keyed, good.read, good.follows, ?_⟩
  intro other isReturned
  rcases List.mem_cons.mp isReturned with rfl | before
  · exact clean
  · exact good.clean other before

theorem mem_held_cached {entry : (Tiers.Level × JsString) × CacheEntry Stamped}
    (member : entry ∈ state.cache.entries) : entry.2.value ∈ held state :=
  List.mem_append_left _ (List.mem_map_of_mem member)

theorem mem_held_carried {accept : Accept} (member : accept ∈ state.accepts) {row : Stamped}
    (carries : accept.phase.carries = some row) : row ∈ held state :=
  List.mem_append_right _ (List.mem_filterMap.mpr ⟨accept, member, carries⟩)

/-- A call of a change goes on without an update. -/
theorem sound_quiet (sound : Sound state) {index : Nat} {mutation : Mutation}
    (found : state.mutations[index]? = some mutation) {cache : Levels Stamped}
    {phase : MutationPhase}
    (cached : cache.Every fun key entry => Good state.log state.returned key entry.value)
    (made : ∀ update, phase.made = some update → mutation.phase.made = some update) :
    Sound { state with cache, mutations := state.mutations.set index (mutation.to phase) } := by
  refine ⟨sound.rows, cached, sound.accepts, ?_, sound.returned⟩
  intro other member update isMade
  rcases List.mem_or_eq_of_mem_set member with before | rfl
  · exact sound.mutations other before update isMade
  · exact sound.mutations mutation (List.mem_of_getElem? found) update (made update isMade)

theorem sound_write (sound : Sound state) {index : Nat} {mutation : Mutation}
    (found : state.mutations[index]? = some mutation) {oldToken : JsString} {input : Input}
    {phase : MutationPhase}
    (written : write state mutation oldToken input = some (next, phase)) :
    Sound { next with mutations := state.mutations.set index (mutation.to phase) } := by
  unfold write at written
  split at written
  · cases written
  rename_i fresh
  split at written
  · obtain ⟨rfl, rfl⟩ := Prod.mk.inj (Option.some.inj written)
    exact sound_quiet sound found sound.cached (by simp [MutationPhase.made])
  rename_i row isRow
  obtain ⟨rfl, rfl⟩ := Prod.mk.inj (Option.some.inj written)
  constructor
  · exact sound.rows.write isRow fun rotates isDrawn => fresh ⟨rotates, isDrawn⟩
  -- what was read before the update keeps the number it was read at
  · exact sound.cached.mono fun key entry good => good.logs rfl
  · intro accept member
    have served := sound.accepts accept member
    exact ⟨fun row carries => (served.carried row carries).logs rfl, served.after,
      fun endpointId place admitted update isAfter bars =>
        served.rejected endpointId place admitted update isAfter bars.of_cons⟩
  · intro other member update isMade
    rcases List.mem_or_eq_of_mem_set member with before | rfl
    · exact List.mem_cons_of_mem _ (sound.mutations other before update isMade)
    · rw [← Option.some.inj isMade]
      exact List.mem_cons_self
  · exact fun update isReturned => List.mem_cons_of_mem _ (sound.returned update isReturned)

theorem sound_advanceMutation (sound : Sound state) {index : Nat} {mutation : Mutation}
    (found : state.mutations[index]? = some mutation) {input : Input} {phase : MutationPhase}
    (advanced : advanceMutation state mutation input = some (next, phase)) :
    Sound { next with mutations := state.mutations.set index (mutation.to phase) } := by
  unfold advanceMutation at advanced
  split at advanced
  case h_1 =>
      split at advanced
      · split at advanced <;> obtain ⟨rfl, rfl⟩ := Prod.mk.inj (Option.some.inj advanced)
        · exact sound_quiet sound found sound.cached (by simp [MutationPhase.made])
        · exact sound_quiet sound found sound.cached (by simp [MutationPhase.made])
      · obtain ⟨rfl, rfl⟩ := Prod.mk.inj (Option.some.inj advanced)
        exact sound_quiet sound found sound.cached (by simp [MutationPhase.made])
  case h_2 =>
      split at advanced
      · obtain ⟨rfl, rfl⟩ := Prod.mk.inj (Option.some.inj advanced)
        exact sound_quiet sound found sound.cached (by simp [MutationPhase.made])
      · exact sound_write sound found advanced
  case h_3 oldToken update isPhase =>
      obtain ⟨rfl, rfl⟩ := Prod.mk.inj (Option.some.inj advanced)
      refine sound_quiet sound found (sound.cached.delete _) ?_
      rw [isPhase]
      exact fun _ made => made
  case h_4 oldToken update isPhase =>
      obtain ⟨rfl, rfl⟩ := Prod.mk.inj (Option.some.inj advanced)
      refine sound_quiet sound found (every_redisDelete sound.cached input.fails) ?_
      rw [isPhase]
      intro other made
      cases update with
      | none => exact made
      | some update =>
          rw [afterDelete] at made
          split at made
          · exact made
          · exact made
  case h_5 update isPhase =>
      split at advanced <;> obtain ⟨rfl, rfl⟩ := Prod.mk.inj (Option.some.inj advanced)
      · exact sound_quiet sound found sound.cached (by simp [MutationPhase.made])
      · refine sound_quiet sound found sound.cached ?_
        rw [isPhase]
        intro other made
        obtain ⟨_, _, isUpdate⟩ := Option.map_eq_some_iff.mp made
        exact congrArg some isUpdate
  case h_6 =>
      obtain ⟨rfl, rfl⟩ := Prod.mk.inj (Option.some.inj advanced)
      exact sound_quiet sound found sound.cached (by simp [MutationPhase.made])
  case h_7 => cases advanced

theorem refusal_none {config : WebhooksConfig} {request : Request} {endpoint : WebhookEndpoint}
    (passes : refusal config request (some endpoint) = none) :
    endpoint.enabled = true ∧ endpoint.deletedAt.isNone = true := by
  unfold refusal at passes
  split at passes
  · cases passes
  · dsimp only at passes
    split at passes
    · rename_i active
      simpa using active
    · cases passes

/-- What a call decides on, and what it comes to. -/
theorem decideOn_phase (config : WebhooksConfig) (inbound : Webhooks.State) (request : Request)
    (found : Option WebhookEndpointRecord) (now : Timestamp) :
    (∃ refusal, (decideOn config inbound request found now).2 = .refused refusal) ∨
      ∃ record, found = some record ∧ record.active = true ∧
        (decideOn config inbound request found now).2 =
          .admitted record.id inbound.calls.length := by
  unfold decideOn
  dsimp only
  split
  · rename_i endpoint passes isEndpoint
    obtain ⟨record, isRecord, rfl⟩ := Option.map_eq_some_iff.mp isEndpoint
    rw [isEndpoint] at passes
    obtain ⟨enabled, live⟩ := refusal_none passes
    exact .inr ⟨record, isRecord, by simp [WebhookEndpointRecord.active, enabled, live], rfl⟩
  · exact .inl ⟨_, rfl⟩
  · exact .inl ⟨_, rfl⟩

section Accepts

variable {config : WebhooksConfig} {accept : Accept} {inbound : Webhooks.State}

theorem served_plain (after : ∀ update ∈ accept.after, update ∈ returned) {phase : AcceptPhase}
    (carries : phase.carries = none) (admitted : ∀ endpointId place,
      phase ≠ .admitted endpointId place) : Served log returned (accept.to phase) where
  carried row isRow := by
    rw [Accept.to, carries] at isRow
    cases isRow
  after := after
  rejected endpointId place isPhase := absurd isPhase (admitted endpointId place)

theorem served_decideOn (accept : Accept) (after : ∀ update ∈ accept.after, update ∈ returned)
    (logged : ∀ update ∈ returned, update ∈ log) (request : Request)
    {found : Option WebhookEndpointRecord} (now : Timestamp)
    (good : ∀ record ∈ found, ∃ read,
      Good log returned (cacheKey accept.token) { record, read }) :
    Served log returned (accept.to (decideOn config inbound request found now).2) := by
  rcases decideOn_phase config inbound request found now with
    ⟨refusal, refused⟩ | ⟨record, isRecord, active, admitted⟩
  · rw [refused]
    exact served_plain after rfl (by simp)
  · rw [admitted]
    obtain ⟨read, isGood⟩ := good record isRecord
    refine ⟨by simp [Accept.to, AcceptPhase.carries], after, ?_⟩
    rintro _ _ ⟨⟩ update isAfter
    have isReturned := after update isAfter
    exact isGood.not_bars active isReturned (logged update isReturned)

theorem sound_accepts (sound : Sound state) {cache : Levels Stamped} {accepts : List Accept}
    (cached : cache.Every fun key entry => Good state.log state.returned key entry.value)
    (served : ∀ accept ∈ accepts, accept ∈ state.accepts ∨
      Served state.log state.returned accept) :
    Sound { state with cache, inbound, accepts } := by
  refine ⟨sound.rows, cached, ?_, sound.mutations, sound.returned⟩
  intro accept member
  rcases served accept member with before | isServed
  · exact sound.accepts accept before
  · exact isServed

theorem served_advance (sound : Sound state) (isServed : Served state.log state.returned accept)
    {input : Input} {cache : Levels Stamped} {phase : AcceptPhase}
    (advanced : advance config state accept input = some (cache, inbound, phase)) :
    (cache.Every fun key entry => Good state.log state.returned key entry.value) ∧
      Served state.log state.returned (accept.to phase) := by
  have after := isServed.after
  unfold advance at advanced
  dsimp only at advanced
  split at advanced
  case h_1 =>
      obtain ⟨rfl, same⟩ := Prod.mk.inj (Option.some.inj advanced)
      obtain ⟨rfl, rfl⟩ := Prod.mk.inj same
      refine ⟨sound.cached, ?_, after, by simp [Accept.to]⟩
      intro row carries
      obtain ⟨entry, hit, rfl⟩ := Option.map_eq_some_iff.mp carries
      exact sound.cached.get (redisGet_hit hit)
  case h_2 entry isPhase =>
      obtain ⟨rfl, same⟩ := Prod.mk.inj (Option.some.inj advanced)
      have good := isServed.carried entry.value (by rw [isPhase]; rfl)
      refine ⟨sound.cached.set _ good, ?_⟩
      rw [← (Prod.mk.inj same).2]
      refine served_decideOn accept after sound.returned accept.request input.now ?_
      rintro _ ⟨⟩
      exact ⟨entry.value.read, good⟩
  case h_3 =>
      obtain ⟨rfl, same⟩ := Prod.mk.inj (Option.some.inj advanced)
      obtain ⟨rfl, rfl⟩ := Prod.mk.inj same
      exact ⟨sound.cached, served_plain after rfl (by simp)⟩
  case h_4 =>
      split at advanced
      · obtain ⟨rfl, same⟩ := Prod.mk.inj (Option.some.inj advanced)
        obtain ⟨rfl, rfl⟩ := Prod.mk.inj same
        exact ⟨sound.cached, served_plain after rfl (by simp)⟩
      split at advanced
      · rename_i record found
        obtain ⟨rfl, same⟩ := Prod.mk.inj (Option.some.inj advanced)
        obtain ⟨rfl, rfl⟩ := Prod.mk.inj same
        refine ⟨sound.cached, ?_, after, by simp [Accept.to]⟩
        rintro row ⟨⟩
        exact sound.rows.good sound.returned found
      · obtain ⟨rfl, same⟩ := Prod.mk.inj (Option.some.inj advanced)
        refine ⟨sound.cached, ?_⟩
        rw [← (Prod.mk.inj same).2]
        exact served_decideOn accept after sound.returned accept.request input.now (by simp)
  case h_5 row isPhase =>
      obtain ⟨rfl, same⟩ := Prod.mk.inj (Option.some.inj advanced)
      obtain ⟨rfl, rfl⟩ := Prod.mk.inj same
      have good := isServed.carried row (by rw [isPhase]; rfl)
      refine ⟨sound.cached.set _ good, ?_, after, by simp [Accept.to]⟩
      rintro other ⟨⟩
      exact good
  case h_6 entry isPhase =>
      obtain ⟨rfl, same⟩ := Prod.mk.inj (Option.some.inj advanced)
      have good := isServed.carried entry.value (by rw [isPhase]; rfl)
      refine ⟨every_redisSet sound.cached good input.fails, ?_⟩
      rw [← (Prod.mk.inj same).2]
      refine served_decideOn accept after sound.returned accept.request input.now ?_
      rintro _ ⟨⟩
      exact ⟨entry.value.read, good⟩
  case h_7 => cases advanced

theorem sound_begin (sound : Sound state) (process : Nat) (token : JsString) (request : Request)
    (now : Timestamp) : Sound (begin config state process token request now) := by
  let started (phase : AcceptPhase) : Accept :=
    { process, token, request, after := state.returned, phase }
  have starts {cache : Levels Stamped} {inbound : Webhooks.State} {phase : AcceptPhase}
      (cached : cache.Every fun key entry => Good state.log state.returned key entry.value)
      (served : Served state.log state.returned (started phase)) :
      Sound { state with cache, inbound, accepts := state.accepts ++ [started phase] } := by
    refine sound_accepts sound cached ?_
    intro accept member
    rcases List.mem_append.mp member with before | isNew
    · exact .inl before
    · rw [List.mem_singleton.mp isNew]
      exact .inr served
  have after : ∀ update ∈ (started .asking).after, update ∈ state.returned :=
    fun _ isAfter => isAfter
  unfold begin
  dsimp only
  split
  · exact starts sound.cached (served_plain after rfl (by simp))
  · have cached := every_memoryGet sound.cached process (cacheKey token) now
    split
    · rename_i entry cache isHit
      rw [isHit] at cached
      have hit := memoryGet_hit (congrArg Prod.fst isHit)
      refine starts cached (served_decideOn (started .asking) after sound.returned request now ?_)
      rintro _ ⟨⟩
      exact ⟨entry.value.read, sound.cached.get hit⟩
    · rename_i cache isMiss
      rw [isMiss] at cached
      exact starts cached (served_plain after rfl (by simp))

end Accepts

theorem sound_returns (sound : Sound state) {index : Nat} {mutation : Mutation}
    (found : state.mutations[index]? = some mutation)
    (settled : mutation.phase = .settled (some update))
    (clean : ∀ row ∈ held state, update.contradicts row = false) :
    Sound { state with
      mutations := state.mutations.set index (mutation.to (.returned update))
      returned := update :: state.returned } := by
  have isLogged := sound.mutations mutation (List.mem_of_getElem? found) update
    (by rw [settled]; rfl)
  constructor
  · exact sound.rows
  · intro entry member
    exact (sound.cached entry member).returns (clean _ (mem_held_cached member))
  · intro accept member
    have served := sound.accepts accept member
    refine ⟨?_, fun update isAfter => List.mem_cons_of_mem _ (served.after update isAfter),
      served.rejected⟩
    intro row carries
    exact (served.carried row carries).returns (clean row (mem_held_carried member carries))
  · intro other member made isMade
    rcases List.mem_or_eq_of_mem_set member with before | rfl
    · exact sound.mutations other before made isMade
    · rw [← Option.some.inj isMade]
      exact isLogged
  · intro other isReturned
    rcases List.mem_cons.mp isReturned with rfl | before
    · exact isLogged
    · exact sound.returned other before

theorem sound_step {services : Services} {config : WebhooksConfig} {action : Action}
    (sound : Sound state) (clean : ReturnsClean state action)
    (taken : step config services state action = some next) : Sound next := by
  cases action with
  | create row =>
      simp only [step, create] at taken
      split at taken
      · cases taken
      · rename_i fresh
        obtain ⟨rows, inserted, rfl⟩ := Option.map_eq_some_iff.mp taken
        have rowsSound := sound.rows.insert (by exact fresh) inserted
        exact ⟨rowsSound, sound.cached, sound.accepts, sound.mutations, sound.returned⟩
  | mutate process guildId id change =>
      obtain rfl := Option.some.inj taken
      refine ⟨sound.rows, sound.cached, sound.accepts, ?_, sound.returned⟩
      intro mutation member update made
      rcases List.mem_append.mp member with before | isNew
      · exact sound.mutations mutation before update made
      · rw [List.mem_singleton.mp isNew] at made
        cases made
  | advanceMutation index input =>
      simp only [step] at taken
      split at taken
      · rename_i mutation found
        obtain ⟨⟨after, phase⟩, advanced, rfl⟩ := Option.map_eq_some_iff.mp taken
        exact sound_advanceMutation sound found advanced
      · cases taken
  | returns index =>
      simp only [step] at taken
      split at taken
      · rename_i mutation found
        split at taken
        · rename_i update settled
          obtain rfl := Option.some.inj taken
          exact sound_returns sound found settled (clean mutation found update (by rw [settled]; rfl))
        · cases taken
      · cases taken
  | accept process token request now =>
      obtain rfl := Option.some.inj taken
      exact sound_begin sound process token request now
  | advance index input =>
      simp only [step] at taken
      split at taken
      · rename_i accept found
        obtain ⟨⟨cache, inbound, phase⟩, advanced, rfl⟩ := Option.map_eq_some_iff.mp taken
        have isServed := sound.accepts accept (List.mem_of_getElem? found)
        obtain ⟨cached, served⟩ := served_advance sound isServed advanced
        refine sound_accepts sound cached ?_
        intro other member
        rcases List.mem_or_eq_of_mem_set member with before | rfl
        · exact .inl before
        · exact .inr served
      · cases taken
  | inbound action =>
      have same : ∃ inbound, next = { state with inbound } := by
        cases action with
        | accept request found now => cases taken
        | _ =>
            simp only [step] at taken
            obtain ⟨inbound, _, rfl⟩ := Option.map_eq_some_iff.mp taken
            exact ⟨inbound, rfl⟩
      obtain ⟨inbound, rfl⟩ := same
      exact ⟨sound.rows, sound.cached, sound.accepts, sound.mutations, sound.returned⟩
  | evict level key =>
      obtain rfl := Option.some.inj taken
      exact ⟨sound.rows, sound.cached.delete _, sound.accepts, sound.mutations, sound.returned⟩

end Steps

/-! A call of `accept` comes to its decision if it is answered. -/

/-- How many steps a call has before its decision at most. -/
def AcceptPhase.remaining : AcceptPhase → Nat
  | .asking => 5
  | .answered _ => 4
  | .reading => 3
  | .found _ => 2
  | .storing _ => 1
  | _ => 0

def AcceptPhase.decided : AcceptPhase → Bool
  | .admitted _ _ | .refused _ => true
  | _ => false

/-- A step of the call itself. -/
def Advances (index : Nat) (action : Action) : Prop := ∃ input, action = .advance index input

/-- The calls that wait can still come to a decision. -/
def Decides (config : WebhooksConfig) (services : Services) (state : State) : Prop :=
  ∀ (index : Nat) (accept : Accept), state.accepts[index]? = some accept →
    0 < accept.phase.remaining →
      Reaches (step config services) (Advances index)
        (fun final => ∃ phase, final.accepts[index]? = some (accept.to phase) ∧
          phase.decided = true) state

def answering : Input := { now := 0, fails := false, token := [], signingSecret := [] }

theorem decideOn_decided (config : WebhooksConfig) (inbound : Webhooks.State) (request : Request)
    (found : Option WebhookEndpointRecord) (now : Timestamp) :
    (decideOn config inbound request found now).2.decided = true ∧
      (decideOn config inbound request found now).2.remaining = 0 := by
  rcases decideOn_phase config inbound request found now with
    ⟨refusal, refused⟩ | ⟨record, _, _, admitted⟩
  · rw [refused]
    exact ⟨rfl, rfl⟩
  · rw [admitted]
    exact ⟨rfl, rfl⟩

theorem advance_remaining (config : WebhooksConfig) (state : State) (accept : Accept)
    (waits : 0 < accept.phase.remaining) :
    ∃ cache inbound phase,
      advance config state accept answering = some (cache, inbound, phase) ∧
      phase.remaining < accept.phase.remaining ∧ (0 < phase.remaining ∨ phase.decided = true) := by
  have decided (found : Option WebhookEndpointRecord) (left : Nat) :
      let decision := decideOn config state.inbound accept.request found answering.now
      decision.2.remaining < left + 1 ∧ (0 < decision.2.remaining ∨ decision.2.decided = true) := by
    obtain ⟨isDecided, none⟩ :=
      decideOn_decided config state.inbound accept.request found answering.now
    exact ⟨none ▸ Nat.succ_pos left, .inr isDecided⟩
  cases isPhase : accept.phase with
  | asking =>
      refine ⟨_, _, _, by rw [advance, isPhase], ?_⟩
      simp [AcceptPhase.remaining]
  | answered hit =>
      cases hit with
      | some entry =>
          exact ⟨_, _, _, by rw [advance, isPhase], decided (some entry.value.record) 3⟩
      | none =>
          refine ⟨_, _, _, by rw [advance, isPhase], ?_⟩
          simp [AcceptPhase.remaining]
  | reading =>
      cases found : findFirst state.rows accept.token with
      | some record =>
          refine ⟨state.cache, state.inbound, .found { record, read := state.log.length }, ?_, ?_⟩
          · simp [advance, isPhase, found, answering]
          · simp [AcceptPhase.remaining]
      | none =>
          let decision := decideOn config state.inbound accept.request none answering.now
          refine ⟨state.cache, decision.1, decision.2, ?_, decided none 2⟩
          simp [advance, isPhase, found, answering, decision]
  | found row =>
      refine ⟨_, _, _, by rw [advance, isPhase], ?_⟩
      simp [AcceptPhase.remaining]
  | storing entry =>
      exact ⟨_, _, _, by rw [advance, isPhase], decided (some entry.value.record) 0⟩
  | _ => simp [isPhase, AcceptPhase.remaining] at waits

theorem decides (config : WebhooksConfig) (services : Services) (state : State) :
    Decides config services state := by
  intro index accept found waits
  refine reaches_of_decreasing (step config services)
    (fun state => ∃ phase, state.accepts[index]? = some (accept.to phase) ∧
      (0 < phase.remaining ∨ phase.decided = true))
    (fun state => ((state.accepts[index]?).map fun accept => accept.phase.remaining).getD 0) ?_
    ⟨accept.phase, found, .inl waits⟩
  rintro state ⟨phase, isAccept, left | isDecided⟩
  · right
    obtain ⟨cache, inbound, later, advanced, lower, ends⟩ :=
      advance_remaining config state (accept.to phase) left
    have isLater : (state.accepts.set index (accept.to later))[index]? = some (accept.to later) :=
      List.getElem?_set_self (List.getElem?_eq_some_iff.mp isAccept).1
    refine ⟨.advance index answering,
      { state with cache, inbound, accepts := state.accepts.set index (accept.to later) },
      ⟨_, rfl⟩, ?_, ⟨later, isLater, ends⟩, ?_⟩
    · simp only [step, isAccept, advanced, Option.map_some]
      rfl
    · simp only [isLater, isAccept]
      exact lower
  · exact .inl ⟨phase, isAccept, isDecided⟩

theorem rejectsRevoked_of_clean (config : WebhooksConfig) (services : Services)
    (actions : List Action)
    (guarded : Guarded (step config services) ReturnsClean State.start actions) :
    Always (step config services)
      (fun state => RejectsRevoked state ∧ Decides config services state) State.start actions := by
  have sound : Always (step config services) Sound State.start actions :=
    always_of_guarded (step config services)
      (fun state action next sound clean taken => sound_step sound clean taken) sound_start guarded
  exact sound.mono _ fun state sound =>
    ⟨rejectsRevoked_of_sound sound, decides config services state⟩

instance (state : State) (action : Action) : Decidable (ReturnsClean state action) := by
  cases action <;> unfold ReturnsClean <;> infer_instance

/-! An endpoint whose token is rotated after a lookup of the token, or while it is under way. -/

def sampleRow : WebhookEndpointRecord :=
  { Webhooks.customEndpoint with token := js "t", label := js "l", createdAt := 0 }

def asked (token : JsString) : Action := .accept 0 token (Webhooks.signedRequest []) 0

def advancing (accept : Nat) : Action := .advance accept answering

def rotating (mutation : Nat) (token : JsString) : List Action :=
  let advancing : Action := .advanceMutation mutation { answering with token }
  [.mutate 0 (js "g") (js "e") .rotate, advancing, advancing, advancing, advancing, advancing]

/-- The deliveries of the calls that were let through. -/
def delivered (place : Nat) : List Action :=
  [[], [], [], js "d", [], []].map fun id => .inbound (Webhooks.advancing place id)

theorem rejectsRevoked_settled :
    Always (step Webhooks.sampleConfig Webhooks.sampleServices)
      (fun state => RejectsRevoked state ∧
        Decides Webhooks.sampleConfig Webhooks.sampleServices state) State.start
      [[.create sampleRow, asked (js "t"), advancing 0, advancing 0, advancing 0, advancing 0,
        advancing 0], rotating 0 (js "u"), [.returns 0, asked (js "t"), advancing 1, advancing 1,
        advancing 1, asked (js "u")]].flatten :=
  rejectsRevoked_of_clean Webhooks.sampleConfig Webhooks.sampleServices _ (by decide +kernel)

/-- What `RejectsRevoked` says of a token that was rotated away. -/
def rejectsRotated (state : State) : Bool :=
  state.accepts.all fun accept =>
    match accept.phase with
    | .admitted _ place =>
        !accepted state place || accept.after.all fun update =>
          !(decide (update.change = .rotate) && decide (accept.token = update.token))
    | _ => true

theorem rejectsRotated_of_rejects (state : State) (rejects : RejectsRevoked state) :
    rejectsRotated state = true := by
  refine List.all_eq_true.mpr ?_
  intro accept member
  split
  · rename_i endpointId place admitted
    cases isAccepted : accepted state place with
    | false => rfl
    | true =>
        refine List.all_eq_true.mpr ?_
        intro update isAfter
        have notBarred := rejects accept member endpointId place admitted isAccepted update isAfter
        by_cases rotates : update.change = .rotate
        · rw [bars_rotate rotates] at notBarred
          simp [notBarred]
        · simp [rotates]
  · rfl

/-- The lookup that read the row before the update fills the cache after the old token was
dropped from it. -/
theorem revoked_token_accepted :
    ¬ ∀ (config : WebhooksConfig) (services : Services) (actions : List Action),
      Always (step config services) RejectsRevoked State.start actions := by
  intro all
  refine not_always (step Webhooks.sampleConfig Webhooks.sampleServices) rejectsRotated
    rejectsRotated_of_rejects ?_
    (all Webhooks.sampleConfig Webhooks.sampleServices
      [[.create sampleRow, asked (js "t"), advancing 0, advancing 0, advancing 0],
        rotating 0 (js "u"), [.returns 0, advancing 0, asked (js "t")], delivered 0].flatten)
  decide +kernel

end WebhookEndpoints
