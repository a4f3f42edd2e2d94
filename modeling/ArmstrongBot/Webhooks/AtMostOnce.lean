import ArmstrongBot.Library.Processes
import ArmstrongBot.Webhooks.VerifiedOnly

/-! Interleavings of inbound requests and jobs: how often one provider delivery is published. -/

namespace Webhooks

open JsText JobQueue StepMachine
open Calendar (Timestamp)

section

/-! `bodyId` is the string field `id` of a body that is a JSON object. -/

variable (bodyId : Bytes → Option JsString)

/-- The provider's delivery id: where `accept` or the normalizer of the provider looks for it. -/
def providerDeliveryId (row : IngressDelivery) : Option JsString :=
  match row.provider with
  | .github => extractDeliveryId .github row.headers
  | .stripe => bodyId row.rawBody
  | .fivem | .custom =>
      (extractDeliveryId row.provider row.headers).or
        ((bodyId row.rawBody).or (header row.headers (js "x-delivery-id")))

/-- Two rows are one provider delivery if they agree on this: the endpoint and the provider's
delivery id, or the raw body where there is none. -/
def deliveryKey (row : IngressDelivery) : JsString × (JsString ⊕ Bytes) :=
  (row.endpointId, (providerDeliveryId bodyId row).elim (Sum.inr row.rawBody) Sum.inl)

/-- The row was stored by a request whose signature had been found valid. -/
def Signed (state : State) (row : IngressDelivery) : Prop := (row.id, true) ∈ state.receipts

instance (state : State) (row : IngressDelivery) : Decidable (Signed state row) :=
  inferInstanceAs (Decidable (_ ∈ _))

/-- No two events are published for validly signed requests of one provider delivery. -/
def AtMostOnce (state : State) : Prop :=
  state.published.Pairwise fun first second =>
    Signed state first.1 → Signed state second.1 →
      deliveryKey bodyId first.1 ≠ deliveryKey bodyId second.1

instance (state : State) : Decidable (AtMostOnce bodyId state) :=
  inferInstanceAs (Decidable (List.Pairwise _ _))

/-- A request that is about to be stored carries the external id of every row that is there for
its delivery, and no run of `process` that has published stops before its end. -/
def MeetsIndex (services : Services) (state : State) : InboundAction → Prop
  | .advance index input => ∀ call ∈ state.calls[index]?, call.phase = .storing →
      input.fails = false → ∀ row ∈ state.deliveries.rows, Signed state row →
      deliveryKey bodyId row =
        deliveryKey bodyId (newDelivery input.id call.endpoint call.request) →
      row.externalId = call.externalId ∧ call.externalId ≠ none
  | .attempt jobId outcome now => ∀ job ∈ withStatus state.queue jobId .waiting,
      ∀ row ∈ state.deliveries.findIngressById job.data,
      ¬ ((normalize services row now).toOption.join.isSome ∧ outcome.reaches .publish ∧
        ¬ outcome.reaches .finish)
  | _ => True

local instance (priority := 2000) decidableImp {first second : Prop} [Decidable first]
    [Decidable second] : Decidable (first → second) :=
  decidable_of_iff (¬ (first ∧ ¬ second)) not_and_not_right

instance (services : Services) (state : State) (action : InboundAction) :
    Decidable (MeetsIndex bodyId services state action) := by
  cases action <;> unfold MeetsIndex <;> infer_instance

end

/-- Each row is on its way to at most one event. -/
structure Single (bodyId : Bytes → Option JsString) (state : State) : Prop where
  vetted : Vetted state
  known : ∀ receipt ∈ state.receipts, ∃ row ∈ state.deliveries.rows, row.id = receipt.1
  apart : ∀ first ∈ state.deliveries.rows, ∀ second ∈ state.deliveries.rows,
    Signed state first → Signed state second →
    deliveryKey bodyId first = deliveryKey bodyId second → first.id = second.id
  heldOnce : ∀ (left right : Nat) (first second : Call) (id : JsString),
    state.calls[left]? = some first → state.calls[right]? = some second →
    first.phase.holds = some id → second.phase.holds = some id → left = right
  unqueued : ∀ call ∈ state.calls, ∀ id ∈ call.phase.holds, id ∉ state.enqueued
  verified : ∀ id ∈ state.enqueued, (id, true) ∈ state.receipts
  queued : ∀ job ∈ state.queue, job.data ∈ state.enqueued
  logged : ∀ entry ∈ state.published, entry.1.id ∈ state.enqueued ∧
    ∃ row ∈ state.deliveries.rows, SameReceipt row entry.1
  once : (state.published.map fun entry => entry.1.id).Nodup
  waiting : ∀ job ∈ state.queue, job.status = .waiting →
    job.data ∉ state.published.map fun entry => entry.1.id

variable {bodyId : Bytes → Option JsString} {services : Services} {config : WebhooksConfig}

theorem single_start : Single bodyId State.start := by
  constructor
  case vetted => exact vetted_start
  all_goals simp [State.start, Table.empty]

theorem deliveryKey_congr {first second : IngressDelivery} (same : SameReceipt first second) :
    deliveryKey bodyId first = deliveryKey bodyId second := by
  simp only [deliveryKey, providerDeliveryId, same.endpointId, same.provider, same.rawBody,
    same.headers]

theorem signed_congr {state : State} {first second : IngressDelivery}
    (same : SameReceipt first second) : Signed state first ↔ Signed state second := by
  rw [Signed, Signed, same.id]

theorem atMostOnce_of_single {state : State} (single : Single bodyId state) :
    AtMostOnce bodyId state := by
  have distinct := List.pairwise_map.mp single.once
  apply distinct.imp_of_mem
  intro first second firstMember secondMember apart firstSigned secondSigned sameKey
  obtain ⟨_, left, leftMember, leftSame⟩ := single.logged first firstMember
  obtain ⟨_, right, rightMember, rightSame⟩ := single.logged second secondMember
  apply apart
  rw [← leftSame.id, ← rightSame.id]
  apply single.apart left leftMember right rightMember
  · exact (signed_congr leftSame).mpr firstSigned
  · exact (signed_congr rightSame).mpr secondSigned
  · rw [deliveryKey_congr leftSame, deliveryKey_congr rightSame, sameKey]

theorem single_table {state : State} (single : Single bodyId state) {table : Table}
    (origin : ∀ row ∈ table.rows, ∃ earlier ∈ state.deliveries.rows, SameReceipt row earlier)
    (kept : ∀ row ∈ state.deliveries.rows, ∃ later ∈ table.rows, SameReceipt later row) :
    Single bodyId { state with deliveries := table } := by
  refine { single with vetted := ?_, known := ?_, apart := ?_, logged := ?_ }
  · exact ⟨single.vetted.calls, single.vetted.held, single.vetted.jobs, single.vetted.published⟩
  · intro receipt member
    obtain ⟨row, rowMember, isId⟩ := single.known receipt member
    obtain ⟨later, laterMember, same⟩ := kept row rowMember
    exact ⟨later, laterMember, same.id.trans isId⟩
  · intro first firstMember second secondMember firstSigned secondSigned sameKey
    obtain ⟨left, leftMember, leftSame⟩ := origin first firstMember
    obtain ⟨right, rightMember, rightSame⟩ := origin second secondMember
    rw [leftSame.id, rightSame.id]
    apply single.apart left leftMember right rightMember
    · exact (signed_congr leftSame).mp firstSigned
    · exact (signed_congr rightSame).mp secondSigned
    · rw [← deliveryKey_congr leftSame, ← deliveryKey_congr rightSame, sameKey]
  · intro entry member
    obtain ⟨isQueued, row, rowMember, same⟩ := single.logged entry member
    obtain ⟨later, laterMember, sameLater⟩ := kept row rowMember
    exact ⟨isQueued, later, laterMember, sameLater.trans same⟩

theorem Single.holders {state : State} (single : Single bodyId state) (id : JsString) :
    Processes.Apart
      (fun one other : Call => one.phase.holds = some id ∧ other.phase.holds = some id)
      state.calls :=
  fun left right one other isOne isOther clash =>
    single.heldOnce left right one other id isOne isOther clash.1 clash.2

/-- A call may go on to hold a row that is not queued and that no other call holds. -/
theorem single_setCall {state : State} (single : Single bodyId state) {index : Nat} {later : Call}
    (vetted : Vetted { state with calls := state.calls.set index later })
    (unqueued : ∀ id ∈ later.phase.holds, id ∉ state.enqueued)
    (free : ∀ id ∈ later.phase.holds, ∀ (other : Nat) (call : Call), other ≠ index →
      state.calls[other]? = some call → call.phase.holds ≠ some id) :
    Single bodyId { state with calls := state.calls.set index later } := by
  refine { single with vetted := vetted, heldOnce := ?_, unqueued := ?_ }
  · intro left right first second id isFirst isSecond firstHolds secondHolds
    refine ((single.holders id).set ?_) left right first second isFirst isSecond
      ⟨firstHolds, secondHolds⟩
    intro place other isOther clash
    by_contra elsewhere
    rcases clash with ⟨laterHolds, otherHolds⟩ | ⟨otherHolds, laterHolds⟩
    · exact free id laterHolds place other elsewhere isOther otherHolds
    · exact free id laterHolds place other elsewhere isOther otherHolds
  · intro call member
    rcases List.mem_or_eq_of_mem_set member with earlier | rfl
    · exact single.unqueued call earlier
    · exact unqueued

/-- A row may be added unless a signed row of its delivery is there. -/
theorem single_store {state next : State} (single : Single bodyId state) {call : Call}
    {id : JsString} (stored : store state call id = some next)
    (apart : call.verified = true → ∀ row ∈ state.deliveries.rows, Signed state row →
      deliveryKey bodyId row ≠ deliveryKey bodyId (newDelivery id call.endpoint call.request)) :
    Single bodyId next := by
  have vetted := vetted_store single.vetted stored
  obtain ⟨deliveries, inserted, rfl⟩ := store_some stored
  have rows := insert_rows inserted
  have separate := insert_separate inserted
  have before {row : IngressDelivery} (member : row ∈ state.deliveries.rows)
      (signed : (row.id, true) ∈ state.receipts ++ [(id, call.verified)]) : Signed state row := by
    rcases List.mem_append.mp signed with earlier | newest
    · exact earlier
    · obtain ⟨same, _⟩ := Prod.mk.inj (List.mem_singleton.mp newest)
      exact absurd same (separate row member).1
  have newest {row : IngressDelivery} (isNew : row = newDelivery id call.endpoint call.request)
      (signed : (row.id, true) ∈ state.receipts ++ [(id, call.verified)]) :
      call.verified = true := by
    rcases List.mem_append.mp signed with earlier | newest
    · obtain ⟨other, member, same⟩ := single.known _ earlier
      rw [isNew] at same
      exact absurd same (separate other member).1
    · obtain ⟨_, verified⟩ := Prod.mk.inj (List.mem_singleton.mp newest)
      exact verified.symm
  refine
    { vetted, known := ?_, apart := ?_, heldOnce := single.heldOnce, unqueued := single.unqueued
      verified := ?_, queued := single.queued, logged := ?_, once := single.once
      waiting := single.waiting }
  · intro receipt member
    rw [rows]
    rcases List.mem_append.mp member with earlier | isNew
    · obtain ⟨row, rowMember, isId⟩ := single.known receipt earlier
      exact ⟨row, List.mem_append_left _ rowMember, isId⟩
    · rw [List.mem_singleton.mp isNew]
      exact ⟨_, List.mem_append_right _ List.mem_cons_self, rfl⟩
  · intro first firstMember second secondMember firstSigned secondSigned sameKey
    rw [rows] at firstMember secondMember
    rcases List.mem_append.mp firstMember with firstEarlier | firstNew <;>
      rcases List.mem_append.mp secondMember with secondEarlier | secondNew
    · exact single.apart first firstEarlier second secondEarlier (before firstEarlier firstSigned)
        (before secondEarlier secondSigned) sameKey
    · obtain rfl := List.mem_singleton.mp secondNew
      exact absurd sameKey
        (apart (newest rfl secondSigned) first firstEarlier (before firstEarlier firstSigned))
    · obtain rfl := List.mem_singleton.mp firstNew
      exact absurd sameKey.symm
        (apart (newest rfl firstSigned) second secondEarlier (before secondEarlier secondSigned))
    · rw [List.mem_singleton.mp firstNew, List.mem_singleton.mp secondNew]
  · intro other member
    exact List.mem_append_left _ (single.verified other member)
  · intro entry member
    obtain ⟨isQueued, row, rowMember, same⟩ := single.logged entry member
    refine ⟨isQueued, row, ?_, same⟩
    rw [rows]
    exact List.mem_append_left _ rowMember

theorem single_enqueue {state : State} (single : Single bodyId state) {id : JsString}
    (verified : (id, true) ∈ state.receipts) (unqueued : id ∉ state.enqueued)
    (free : ∀ call ∈ state.calls, call.phase.holds ≠ some id) :
    Single bodyId (enqueueInboundProcess state id) := by
  refine
    { vetted := vetted_enqueue single.vetted verified, known := single.known, apart := single.apart
      heldOnce := single.heldOnce, unqueued := ?_, verified := ?_, queued := ?_, logged := ?_
      once := single.once, waiting := ?_ }
  · intro call member held holds isQueued
    rcases List.mem_append.mp isQueued with earlier | newest
    · exact single.unqueued call member held holds earlier
    · rw [List.mem_singleton.mp newest] at holds
      exact free call member holds
  · intro other member
    rcases List.mem_append.mp member with earlier | newest
    · exact single.verified other earlier
    · rw [List.mem_singleton.mp newest]
      exact verified
  · intro job member
    rcases mem_add.mp member with earlier | ⟨_, rfl⟩
    · exact List.mem_append_left _ (single.queued job earlier)
    · exact List.mem_append_right _ List.mem_cons_self
  · intro entry member
    obtain ⟨isQueued, stored⟩ := single.logged entry member
    exact ⟨List.mem_append_left _ isQueued, stored⟩
  · intro job member isWaiting
    rcases mem_add.mp member with earlier | ⟨_, rfl⟩
    · exact single.waiting job earlier isWaiting
    · intro published
      obtain ⟨entry, entryMember, isId⟩ := List.mem_map.mp published
      obtain rfl : entry.1.id = id := isId
      exact unqueued (single.logged entry entryMember).1

/-- Two requests of one delivery cannot both be stored: the unique index refuses the second. -/
theorem fresh_of_stored {state next : State} {call : Call} {index : Nat} {input : Input}
    (found : state.calls[index]? = some call) (works : input.fails = false)
    (stored : store state call input.id = some next) (storing : call.phase = .storing)
    (met : MeetsIndex bodyId services state (.advance index input)) :
    ∀ row ∈ state.deliveries.rows, Signed state row →
      deliveryKey bodyId row ≠
        deliveryKey bodyId (newDelivery input.id call.endpoint call.request) := by
  intro row member signed sameKey
  obtain ⟨sameId, isSome⟩ := met call found storing works row member signed sameKey
  obtain ⟨deliveries, inserted, _⟩ := store_some stored
  have sameEndpoint : row.endpointId = call.endpoint.id := congrArg Prod.fst sameKey
  have separate := (insert_separate inserted row member).2 sameEndpoint sameId
  exact isSome (sameId.symm.trans separate)

theorem single_effect {state next : State} {call later : Call} {index : Nat} {input : Input}
    (single : Single bodyId state) (found : state.calls[index]? = some call)
    (sound : later.Sound) (effect : Effect state call input next later)
    (met : MeetsIndex bodyId services state (.advance index input)) :
    Single bodyId { next with calls := state.calls.set index later } := by
  have member := List.mem_of_getElem? found
  obtain ⟨vetted, sameCalls, verified⟩ := vetted_effect single.vetted member effect
  have vettedLater : Vetted { next with calls := state.calls.set index later } := by
    apply vetted_setCall vetted sound verified
    intro other otherMember
    rw [sameCalls]
    exact List.mem_or_eq_of_mem_set otherMember
  have alone {id : JsString} (holds : call.phase.holds = some id) :
      ∀ (other : Nat) (second : Call), other ≠ index → state.calls[other]? = some second →
        second.phase.holds ≠ some id := by
    intro other second isOther isSecond secondHolds
    exact isOther (single.heldOnce other index second call id isSecond found secondHolds holds)
  cases effect with
  | @quiet claims _ _ _ _ noHold _ =>
      have quiet : Single bodyId { state with claims } := { single with vetted := vetted }
      exact single_setCall quiet vettedLater (by simp [noHold]) (by simp [noHold])
  | deduped =>
      exact single_setCall single vettedLater (by simp [Phase.holds]) (by simp [Phase.holds])
  | @stored next phase works stored phases _ =>
      have storedSingle : Single bodyId next := by
        apply single_store single stored
        intro isVerified
        rcases phases with ⟨_, reason, rejecting⟩ | ⟨_, storing⟩
        · have refused := single.vetted.calls call member false (by rw [rejecting]; rfl)
          simp [isVerified] at refused
        · exact fresh_of_stored found works stored storing met
      obtain ⟨deliveries, inserted, rfl⟩ := store_some stored
      have fresh : (input.id, true) ∉ state.receipts := by
        intro known
        obtain ⟨row, rowMember, same⟩ := single.known _ known
        exact (insert_separate inserted row rowMember).1 same
      have holdsInput : ∀ id ∈ phase.holds, input.id = id := by
        intro id holds
        rcases phases with ⟨noHold, _⟩ | ⟨marking, _⟩
        · simp [noHold] at holds
        · simpa [marking, Phase.holds] using holds
      apply single_setCall storedSingle vettedLater
      · intro id holds isQueued
        obtain rfl := holdsInput id holds
        exact fresh (single.verified _ isQueued)
      · intro id holds other second _ isSecond secondHolds
        obtain rfl := holdsInput id holds
        have secondMember := List.mem_of_getElem? isSecond
        exact fresh (single.vetted.held second secondMember _ secondHolds)
  | @updated held update phase phases _ =>
      have updated : Single bodyId (updateRow state held update) :=
        single_table single (fun _ rowMember => mem_updateIngressStatus rowMember)
          (fun _ rowMember => mem_updateIngressStatus_of_mem held update rowMember)
      rcases phases with noHold | ⟨enqueueing, marking⟩
      · exact single_setCall updated vettedLater (by simp [noHold]) (by simp [noHold])
      · have holdsHeld : call.phase.holds = some held := by rw [marking]; rfl
        apply single_setCall updated vettedLater
        · intro id holds
          obtain rfl : held = id := by simpa [enqueueing, Phase.holds] using holds
          exact single.unqueued call member held holdsHeld
        · intro id holds
          obtain rfl : held = id := by simpa [enqueueing, Phase.holds] using holds
          exact alone holdsHeld
  | @queued held phase =>
      have holdsHeld : call.phase.holds = some held := by rw [phase]; rfl
      let answered := call.to (.answered (.accepted held false))
      have letGo : Single bodyId { state with calls := state.calls.set index answered } := by
        refine single_setCall single ?_ (by simp [answered, Phase.holds])
          (by simp [answered, Phase.holds])
        apply vetted_setCall single.vetted sound (by simp [Phase.holds])
        intro other otherMember
        exact List.mem_or_eq_of_mem_set otherMember
      apply single_enqueue letGo
      · exact single.vetted.held call member held holdsHeld
      · exact single.unqueued call member held holdsHeld
      · intro other otherMember holds
        rcases Processes.mem_set otherMember with rfl | ⟨position, elsewhere, isOther⟩
        · simp [answered, Phase.holds] at holds
        · exact alone holdsHeld position other elsewhere isOther holds

theorem mem_settleJob_waiting {queue : List (Job JsString JsString)} {jobId : JsString}
    {returned : Bool} {outcome : Outcome} {job : Job JsString JsString}
    (member : job ∈ settleJob queue jobId returned outcome) (waiting : job.status = .waiting) :
    job ∈ queue ∨ job.id = jobId ∧ returned = false := by
  unfold settleJob at member
  split at member
  · exact Or.inl member
  · split at member
    · rcases mem_complete member with ⟨earlier, _⟩ | ⟨_, completed⟩
      · exact Or.inl earlier
      · rw [completed] at waiting
        cases waiting
    · rename_i notReturned
      rcases mem_change member with ⟨earlier, _⟩ | ⟨before, _, isJob, rfl⟩
      · exact Or.inl earlier
      · exact Or.inr ⟨isJob, by simpa using notReturned⟩

theorem returns_of_finish {outcome : Outcome} (finishes : outcome.reaches .finish = true) :
    outcome = .returns := by
  cases outcome with
  | returns => rfl
  | throws failing => cases failing <;> simp [Outcome.reaches, ProcessStep.index] at finishes
  | dies before => cases before <;> simp [Outcome.reaches, ProcessStep.index] at finishes

theorem processRow_event {outcome : Outcome} {now : Timestamp} {row : IngressDelivery}
    {event : IntegrationEvent}
    (published : (processRow services outcome now row).event = some event) :
    normalize services row now = .ok (some event) ∧ outcome.reaches .publish = true := by
  unfold processRow at published
  split at published
  · split at published
    · simp at published
    · rename_i normalized normal
      split at published
      · rename_i finishes
        obtain rfl : normalized = some event := published
        rw [returns_of_finish finishes]
        exact ⟨normal, rfl⟩
      · obtain ⟨rfl, reaches⟩ := Option.filter_eq_some_iff.mp published
        exact ⟨normal, reaches⟩
  · simp at published

theorem processRow_returns {now : Timestamp} {row : IngressDelivery} {event : IntegrationEvent}
    (normal : normalize services row now = .ok (some event)) :
    (processRow services .returns now row).returned = true := by
  simp [processRow, normal, Outcome.reaches]

/-- The job that was taken may wait again; its row is still unpublished. -/
theorem settled_unpublished {state : State} (single : Single bodyId state) {jobId : JsString}
    {job : Job JsString JsString} (found : withStatus state.queue jobId .waiting = some job)
    {returned : Bool} {outcome : Outcome} {settled : Job JsString JsString}
    (member : settled ∈ settleJob state.queue jobId returned outcome)
    (waiting : settled.status = .waiting) :
    settled.data ∉ state.published.map fun entry => entry.1.id := by
  obtain ⟨jobMember, isJob, jobWaiting⟩ := withStatus_some found
  rcases mem_settleJob_waiting member waiting with earlier | ⟨sameJob, _⟩
  · exact single.waiting settled earlier waiting
  · obtain ⟨before, beforeMember, sameId, sameData⟩ := mem_settleJob member
    have beforeId := (single.vetted.jobs before beforeMember).2
    have jobIdOf := (single.vetted.jobs job jobMember).2
    have same : settled.data = job.data := by
      rw [← sameData]
      apply inboundJobId_injective
      rw [← beforeId, ← jobIdOf, sameId, sameJob, isJob]
    rw [same]
    exact single.waiting job jobMember jobWaiting

theorem single_attempt {state next : State} {jobId : JsString} {outcome : Outcome}
    {now : Timestamp} (single : Single bodyId state)
    (met : MeetsIndex bodyId services state (.attempt jobId outcome now))
    (taken : attempt services state jobId outcome now = some next) : Single bodyId next := by
  have vetted := vetted_attempt single.vetted taken
  unfold attempt at taken
  split at taken
  · simp at taken
  · rename_i job found
    obtain ⟨jobMember, isJob, jobWaiting⟩ := withStatus_some found
    have queued {returned : Bool} : ∀ settled ∈ settleJob state.queue jobId returned outcome,
        settled.data ∈ state.enqueued := by
      intro settled member
      obtain ⟨before, beforeMember, _, sameData⟩ := mem_settleJob member
      rw [← sameData]
      exact single.queued before beforeMember
    split at taken <;> obtain rfl := Option.some.inj taken
    · exact { single with
        vetted := vetted, queued := queued
        waiting := fun settled member => settled_unpublished single found member }
    · rename_i row isRow
      obtain ⟨rowMember, sameId⟩ := findIngressById_some isRow
      let processing := processRow services outcome now row
      have updated : Single bodyId { state with
          deliveries := processing.updates.foldl
            (fun table update => table.updateIngressStatus row.id update) state.deliveries } :=
        single_table single (fun _ member => mem_foldl_update_origin member)
          (fun _ member => mem_foldl_update member)
      refine { updated with
        vetted := vetted, queued := queued, logged := ?_, once := ?_, waiting := ?_ }
      · intro entry member
        rcases List.mem_append.mp member with earlier | newest
        · exact updated.logged entry earlier
        · obtain ⟨event, _, rfl⟩ := Option.map_eq_some_iff.mp (Option.mem_toList.mp newest)
          refine ⟨?_, mem_foldl_update rowMember⟩
          simp only
          rw [sameId]
          exact single.queued job jobMember
      · cases isEvent : (processRow services outcome now row).event with
        | none => simpa [isEvent] using single.once
        | some event =>
            simp only [Option.map_some, Option.toList_some, List.map_append,
              List.map_cons, List.map_nil]
            refine List.nodup_append.mpr ⟨single.once, List.nodup_singleton _, ?_⟩
            rintro known knownMember other isRowId rfl
            rw [List.mem_singleton.mp isRowId, sameId] at knownMember
            exact single.waiting job jobMember jobWaiting knownMember
      · intro settled member waiting
        cases isEvent : (processRow services outcome now row).event with
        | none => simpa [isEvent] using settled_unpublished single found member waiting
        | some event =>
            -- the run has returned, so that what waits is another job
            obtain ⟨normal, reaches⟩ := processRow_event isEvent
            have finishes : outcome.reaches .finish = true := by
              by_contra stops
              exact met job found row isRow ⟨by rw [normal]; rfl, reaches, stops⟩
            obtain rfl := returns_of_finish finishes
            simp only [processRow_returns normal] at member
            have otherJob : settled.id ≠ jobId ∧ settled ∈ state.queue := by
              rcases mem_complete member with ⟨earlier, apart⟩ | ⟨_, completed⟩
              · exact ⟨apart, earlier⟩
              · rw [completed] at waiting
                cases waiting
            simp only [Option.map_some, Option.toList_some, List.map_append,
              List.map_cons, List.map_nil, List.mem_append, List.mem_singleton, not_or]
            refine ⟨single.waiting settled otherJob.2 waiting, ?_⟩
            rw [sameId]
            intro sameData
            apply otherJob.1
            rw [(single.vetted.jobs settled otherJob.2).2, sameData,
              ← (single.vetted.jobs job jobMember).2, isJob]

theorem single_accept {state : State} (single : Single bodyId state) {call : Call}
    (vetted : Vetted { state with calls := state.calls ++ [call] })
    (noHold : call.phase.holds = none) :
    Single bodyId { state with calls := state.calls ++ [call] } := by
  refine { single with vetted := vetted, heldOnce := ?_, unqueued := ?_ }
  · intro left right first second id isFirst isSecond firstHolds secondHolds
    refine ((single.holders id).append fun other => ?_) left right first second isFirst isSecond
      ⟨firstHolds, secondHolds⟩
    simp [noHold]
  · intro other member id holds
    rcases List.mem_append.mp member with before | newest
    · exact single.unqueued other before id holds
    · rw [List.mem_singleton.mp newest, noHold] at holds
      cases holds

theorem single_step {state next : State} {action : InboundAction} (single : Single bodyId state)
    (met : MeetsIndex bodyId services state action)
    (taken : inboundStep services config state action = some next) : Single bodyId next := by
  have vetted := vetted_inbound single.vetted taken
  cases action with
  | accept request found now =>
      obtain rfl := Option.some.inj taken
      unfold accept at vetted ⊢
      split at vetted
      · rename_i endpoint _
        exact single_accept single vetted (received_phase request endpoint now).1
      · exact single
  | advance index input =>
      simp only [inboundStep] at taken
      split at taken
      · rename_i call found
        obtain ⟨⟨reached, later⟩, advanced, rfl⟩ := Option.map_eq_some_iff.mp taken
        have sound := single.vetted.calls call (List.mem_of_getElem? found)
        exact single_effect single found (advance_sound sound advanced) (advance_effect advanced) met
      · simp at taken
  | expireClaim key =>
      obtain rfl := Option.some.inj taken
      exact { single with vetted := vetted }
  | attempt jobId outcome now => exact single_attempt single met taken

def twice (headers : Headers) (lookups : List InboundAction) : List InboundAction :=
  [accepting (signedRequest headers), accepting (signedRequest headers)] ++ lookups ++
    [advancing 0 [], advancing 0 [], advancing 0 [], advancing 1 [], advancing 1 []]

end Webhooks
