import ArmstrongBot.Webhooks.Inbound
import ArmstrongBot.Library.StepMachine

/-! Histories of inbound requests: which validly signed deliveries are answered as accepted
without a job. -/

namespace Webhooks

open JsText JobQueue StepMachine
open Calendar (Timestamp)

section

variable (services : Services) (config : WebhooksConfig)

def Call.Valid (call : Call) : Prop :=
  verifySignature services config call call.receivedAt = .ok ()

instance (call : Call) : Decidable (call.Valid services config) :=
  inferInstanceAs (Decidable (_ = _))

def HasJob (state : State) (id : JsString) (rawBody : Bytes) : Prop :=
  id ∈ state.enqueued ∧ ∃ row ∈ state.deliveries.rows, row.id = id ∧ row.rawBody = rawBody

/-- Each validly signed request answered as accepted has its job. -/
def NoneLost (state : State) : Prop :=
  ∀ call ∈ state.calls, call.Valid services config → ∀ id ∈ call.phase.accepts,
    HasJob state id call.request.rawBody

/-- A row that a validly signed request finds under its external id is no leftover: the attempt
that stored it has got as far as the queue, and it holds the bytes of the request. -/
def FindsQueued (state : State) : InboundAction → Prop
  | .advance index input => ∀ call ∈ state.calls[index]?, call.Valid services config →
      input.fails = false → ∀ externalId ∈ call.phase.looking,
      ∀ row ∈ state.deliveries.findIngressByExternalId call.endpoint.id externalId,
        row.id ∈ state.enqueued ∧ row.rawBody = call.request.rawBody
  | _ => True

/-- The calls are accounted for, and so are the rows that a call is about to enqueue. -/
structure Accounted (state : State) : Prop where
  answered : NoneLost services config state
  held : ∀ call ∈ state.calls, ∀ id ∈ call.phase.holds,
    ∃ row ∈ state.deliveries.rows, row.id = id ∧ row.rawBody = call.request.rawBody

end

variable {services : Services} {config : WebhooksConfig}

theorem accounted_start : Accounted services config State.start := by
  constructor
  · simp [NoneLost, State.start]
  · simp [State.start]

theorem row_extends {state next : State} (extends_ : Extends state next) {id : JsString}
    {rawBody : Bytes}
    (stored : ∃ row ∈ state.deliveries.rows, row.id = id ∧ row.rawBody = rawBody) :
    ∃ row ∈ next.deliveries.rows, row.id = id ∧ row.rawBody = rawBody := by
  obtain ⟨row, member, sameId, sameBody⟩ := stored
  obtain ⟨later, laterMember, same⟩ := extends_.rows row member
  exact ⟨later, laterMember, same.id.trans sameId, same.rawBody.trans sameBody⟩

theorem hasJob_extends {state next : State} (extends_ : Extends state next) {id : JsString}
    {rawBody : Bytes} (hasJob : HasJob state id rawBody) : HasJob next id rawBody :=
  ⟨extends_.enqueued hasJob.1, row_extends extends_ hasJob.2⟩

theorem accounted_of_extends {state next : State} (accounted : Accounted services config state)
    (extends_ : Extends state next)
    (calls : ∀ call ∈ next.calls, call ∈ state.calls ∨
      (call.Valid services config → ∀ id ∈ call.phase.accepts,
        HasJob next id call.request.rawBody) ∧
      ∀ id ∈ call.phase.holds, ∃ row ∈ next.deliveries.rows,
        row.id = id ∧ row.rawBody = call.request.rawBody) : Accounted services config next := by
  constructor
  · intro call member valid id accepts
    rcases calls call member with earlier | ⟨answered, _⟩
    · exact hasJob_extends extends_ (accounted.answered call earlier valid id accepts)
    · exact answered valid id accepts
  · intro call member id holds
    rcases calls call member with earlier | ⟨_, held⟩
    · exact row_extends extends_ (accounted.held call earlier id holds)
    · exact held id holds

theorem accounted_effect {state next : State} {call later : Call} {index : Nat} {input : Input}
    (accounted : Accounted services config state) (found : state.calls[index]? = some call)
    (taken : advance services config state call input = some (next, later))
    (met : FindsQueued services config state (.advance index input)) :
    Accounted services config { next with calls := state.calls.set index later } := by
  have effect := advance_effect taken
  have extended := effect_extends effect
  have extends_ : Extends state { next with calls := state.calls.set index later } :=
    ⟨extended.rows, extended.receipts, extended.enqueued⟩
  have member := List.mem_of_getElem? found
  apply accounted_of_extends accounted extends_
  intro other otherMember
  rcases List.mem_or_eq_of_mem_set otherMember with earlier | rfl
  · exact Or.inl earlier
  · right
    cases effect with
    | quiet _ _ _ holds accepts => simp [holds, accepts]
    | deduped works looking isFound =>
        refine ⟨?_, by simp [Phase.holds]⟩
        intro valid id accepts
        obtain rfl := Option.some.inj accepts
        obtain ⟨isQueued, sameBody⟩ := met call found valid works _ looking _ isFound
        exact ⟨isQueued, _, (findIngressByExternalId_some isFound).1, rfl, sameBody⟩
    | stored _ stored phases accepts =>
        obtain ⟨deliveries, inserted, rfl⟩ := store_some stored
        refine ⟨by simp [accepts], ?_⟩
        intro id holds
        rcases phases with ⟨noHold, _⟩ | ⟨marking, _⟩
        · simp [noHold] at holds
        · obtain rfl : input.id = id := by simpa [Call.to, marking, Phase.holds] using holds
          refine ⟨newDelivery input.id call.endpoint call.request, ?_, rfl, rfl⟩
          simp [insert_rows inserted]
    | updated phases accepts =>
        refine ⟨by simp [accepts], ?_⟩
        intro id holds
        rcases phases with noHold | ⟨enqueueing, marking⟩
        · simp [noHold] at holds
        · rename_i held _ _
          obtain rfl : held = id := by simpa [Call.to, enqueueing, Phase.holds] using holds
          have stored := accounted.held call member held (by rw [marking]; rfl)
          exact row_extends extends_ stored
    | queued phase =>
        rename_i held
        refine ⟨?_, by simp [Phase.holds]⟩
        intro _ id accepts
        obtain rfl := Option.some.inj accepts
        have stored := accounted.held call member held (by rw [phase]; rfl)
        exact ⟨by simp, row_extends extends_ stored⟩

theorem accounted_step {state next : State} {action : InboundAction}
    (accounted : Accounted services config state) (met : FindsQueued services config state action)
    (taken : inboundStep services config state action = some next) :
    Accounted services config next := by
  cases action with
  | accept request found now =>
      obtain rfl := Option.some.inj taken
      unfold accept
      split
      · rename_i endpoint _
        apply accounted_of_extends accounted
        · exact ⟨(Extends.refl state).rows, List.Subset.refl _, List.Subset.refl _⟩
        · intro call member
          rcases List.mem_append.mp member with earlier | newest
          · exact Or.inl earlier
          · right
            rw [List.mem_singleton.mp newest]
            simp [received_phase request endpoint now]
      · exact accounted
  | advance index input =>
      simp only [inboundStep] at taken
      split at taken
      · rename_i call found
        obtain ⟨⟨reached, later⟩, advanced, rfl⟩ := Option.map_eq_some_iff.mp taken
        exact accounted_effect accounted found advanced met
      · simp at taken
  | expireClaim key =>
      obtain rfl := Option.some.inj taken
      exact ⟨accounted.answered, accounted.held⟩
  | attempt jobId outcome now =>
      have sameCalls : next.calls = state.calls := by
        simp only [inboundStep, attempt] at taken
        split at taken
        · simp at taken
        · split at taken <;> obtain rfl := Option.some.inj taken <;> rfl
      apply accounted_of_extends accounted (attempt_extends taken)
      intro call member
      rw [sameCalls] at member
      exact Or.inl member

theorem findsQueued_of_noneLost {state next : State} {action : InboundAction}
    (taken : inboundStep services config state action = some next)
    (noneLost : NoneLost services config next) : FindsQueued services config state action := by
  cases action with
  | advance index input =>
      intro call found valid works externalId looking row isFound
      have advanced : next = { state with
          calls := state.calls.set index (call.to (.answered (.accepted row.id true))) } := by
        have isCall : state.calls[index]? = some call := found
        simp only [inboundStep, isCall, advance_found works looking isFound, Option.map_some] at taken
        exact (Option.some.inj taken).symm
      subst advanced
      have bound := (List.getElem?_eq_some_iff.mp found).1
      obtain ⟨isQueued, stored, member, sameId, sameBody⟩ :=
        noneLost _ (List.mem_set bound _) valid row.id rfl
      obtain rfl := eq_of_id member (findIngressByExternalId_some isFound).1 sameId
      exact ⟨isQueued, sameBody⟩
  | _ => trivial

/-- Nothing is lost exactly when every row met under an external id is no leftover. -/
theorem noneLost_always_iff (services : Services) (config : WebhooksConfig)
    (actions : List InboundAction) :
    Always (inboundStep services config) (NoneLost services config) State.start actions ↔
      Guarded (inboundStep services config) (FindsQueued services config) State.start actions := by
  apply always_iff_guarded (inboundStep services config)
    (fun state accounted => accounted.answered)
    (fun state action next accounted met taken => accounted_step accounted met taken)
    (fun state action next _ taken noneLost => findsQueued_of_noneLost taken noneLost)
  exact accounted_start

instance (state : State) (id : JsString) (rawBody : Bytes) : Decidable (HasJob state id rawBody) :=
  inferInstanceAs (Decidable (_ ∧ _))

instance (state : State) : Decidable (NoneLost services config state) :=
  inferInstanceAs (Decidable (∀ call ∈ state.calls, _ → _))

/-- A forged request stores a rejected row under the id of the genuine one, which is then answered
as a duplicate. -/
theorem genuine_swallowed :
    ¬ ∀ (services : Services) (config : WebhooksConfig) (actions : List InboundAction),
      Always (inboundStep services config) (NoneLost services config) State.start actions := by
  intro all
  refine not_always (inboundStep sampleServices sampleConfig)
    (fun state => decide (NoneLost sampleServices sampleConfig state)) (fun _ => decide_eq_true) ?_
    (all sampleServices sampleConfig
      [accepting (forgedRequest [(js "x-webhook-delivery", js "d")]), advancing 0 [],
        advancing 0 [], advancing 0 (js "r"), advancing 0 [],
        accepting (signedRequest [(js "x-webhook-delivery", js "d")]), advancing 1 []])
  decide +kernel

end Webhooks
