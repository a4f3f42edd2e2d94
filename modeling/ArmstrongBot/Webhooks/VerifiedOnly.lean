import ArmstrongBot.Webhooks.Inbound
import ArmstrongBot.Library.StepMachine

/-! Runs of the whole webhook module: whose deliveries are published. -/

namespace Webhooks

open JsText JobQueue StepMachine
open Calendar (Timestamp)

/-- Every event published comes from a row whose signature was found valid at receipt. -/
def OnlyVerified (state : State) : Prop :=
  ∀ entry ∈ state.published, (entry.1.id, true) ∈ state.receipts

instance (state : State) : Decidable (OnlyVerified state) :=
  inferInstanceAs (Decidable (∀ entry ∈ state.published, _))

/-- A replay is asked only for a delivery whose signature was found valid at receipt. -/
def ReplaysVerified (state : State) : Action → Prop
  | .replay guildId id => ∀ row ∈ state.deliveries.findIngressById id,
      row.guildId = some guildId → (row.id, true) ∈ state.receipts
  | .inbound _ => True

instance (state : State) (action : Action) : Decidable (ReplaysVerified state action) := by
  cases action <;> unfold ReplaysVerified <;> infer_instance

/-- Only rows with a valid signature are on their way to the worker. -/
structure Vetted (state : State) : Prop where
  calls : ∀ call ∈ state.calls, call.Sound
  held : ∀ call ∈ state.calls, ∀ id ∈ call.phase.holds, (id, true) ∈ state.receipts
  jobs : ∀ job ∈ state.queue, (job.data, true) ∈ state.receipts ∧ job.id = inboundJobId job.data
  published : OnlyVerified state

variable {services : Services} {config : WebhooksConfig}

theorem vetted_start : Vetted State.start := by
  constructor <;> simp [State.start, OnlyVerified]

theorem vetted_enqueue {state : State} (vetted : Vetted state) {id : JsString}
    (verified : (id, true) ∈ state.receipts) : Vetted (enqueueInboundProcess state id) := by
  refine ⟨vetted.calls, vetted.held, ?_, vetted.published⟩
  intro job member
  rcases mem_add.mp member with earlier | ⟨_, rfl⟩
  · exact vetted.jobs job earlier
  · exact ⟨verified, rfl⟩

theorem vetted_store {state next : State} {call : Call} {id : JsString} (vetted : Vetted state)
    (stored : store state call id = some next) : Vetted next := by
  obtain ⟨deliveries, inserted, rfl⟩ := store_some stored
  refine ⟨vetted.calls, ?_, ?_, ?_⟩
  · intro other member held holds
    exact List.mem_append_left _ (vetted.held other member held holds)
  · intro job member
    obtain ⟨verified, jobId⟩ := vetted.jobs job member
    exact ⟨List.mem_append_left _ verified, jobId⟩
  · intro entry member
    exact List.mem_append_left _ (vetted.published entry member)

theorem vetted_setCall {state : State} (vetted : Vetted state) {call : Call} (sound : call.Sound)
    (held : ∀ id ∈ call.phase.holds, (id, true) ∈ state.receipts) {calls : List Call}
    (members : ∀ other ∈ calls, other ∈ state.calls ∨ other = call) :
    Vetted { state with calls } := by
  refine ⟨?_, ?_, vetted.jobs, vetted.published⟩
  · intro other member
    rcases members other member with earlier | rfl
    · exact vetted.calls other earlier
    · exact sound
  · intro other member
    rcases members other member with earlier | rfl
    · exact vetted.held other earlier
    · exact held

theorem vetted_effect {state next : State} {call later : Call} {input : Input}
    (vetted : Vetted state) (member : call ∈ state.calls)
    (effect : Effect state call input next later) :
    Vetted next ∧ next.calls = state.calls ∧
      ∀ id ∈ later.phase.holds, (id, true) ∈ next.receipts := by
  cases effect with
  | quiet _ _ _ holds _ =>
      exact ⟨⟨vetted.calls, vetted.held, vetted.jobs, vetted.published⟩, rfl, by simp [holds]⟩
  | deduped => exact ⟨vetted, rfl, by simp [Phase.holds]⟩
  | stored _ stored phases _ =>
      refine ⟨vetted_store vetted stored, ?_, ?_⟩
      · obtain ⟨deliveries, _, rfl⟩ := store_some stored
        rfl
      · obtain ⟨deliveries, _, rfl⟩ := store_some stored
        intro id holds
        rcases phases with ⟨noHold, _⟩ | ⟨marking, storing⟩
        · simp [noHold] at holds
        · obtain rfl : input.id = id := by simpa [Call.to, marking, Phase.holds] using holds
          have verified := vetted.calls call member true (by rw [storing]; rfl)
          simp [verified]
  | updated phases _ =>
      rename_i held _ _ _
      refine ⟨⟨vetted.calls, vetted.held, vetted.jobs, vetted.published⟩, rfl, ?_⟩
      intro id holds
      rcases phases with noHold | ⟨enqueueing, marking⟩
      · simp [noHold] at holds
      · obtain rfl : held = id := by simpa [Call.to, enqueueing, Phase.holds] using holds
        exact vetted.held call member held (by rw [marking]; rfl)
  | queued phase =>
      rename_i held
      have verified := vetted.held call member held (by rw [phase]; rfl)
      exact ⟨vetted_enqueue vetted verified, rfl, by simp [Phase.holds]⟩

theorem vetted_attempt {state next : State} {jobId : JsString} {outcome : Outcome}
    {now : Timestamp} (vetted : Vetted state)
    (taken : attempt services state jobId outcome now = some next) : Vetted next := by
  have settled {returned : Bool} : ∀ job ∈ settleJob state.queue jobId returned outcome,
      (job.data, true) ∈ state.receipts ∧ job.id = inboundJobId job.data := by
    intro job member
    obtain ⟨before, beforeMember, sameId, sameData⟩ := mem_settleJob member
    rw [← sameId, ← sameData]
    exact vetted.jobs before beforeMember
  unfold attempt at taken
  split at taken
  · simp at taken
  · rename_i job found
    have verified := (vetted.jobs job (withStatus_some found).1).1
    split at taken <;> obtain rfl := Option.some.inj taken
    · exact ⟨vetted.calls, vetted.held, settled, vetted.published⟩
    · rename_i row isRow
      refine ⟨vetted.calls, vetted.held, settled, ?_⟩
      intro entry member
      rcases List.mem_append.mp member with earlier | newest
      · exact vetted.published entry earlier
      · obtain ⟨event, _, rfl⟩ := Option.map_eq_some_iff.mp (Option.mem_toList.mp newest)
        simp only
        rw [(findIngressById_some isRow).2]
        exact verified

theorem vetted_inbound {state next : State} {action : InboundAction} (vetted : Vetted state)
    (taken : inboundStep services config state action = some next) : Vetted next := by
  cases action with
  | accept request found now =>
      obtain rfl := Option.some.inj taken
      unfold accept
      split
      · rename_i endpoint _
        apply vetted_setCall vetted (received_sound request endpoint now)
        · simp [(received_phase request endpoint now).1]
        · intro other member
          simpa using member
      · exact vetted
  | advance index input =>
      simp only [inboundStep] at taken
      split at taken
      · rename_i call found
        obtain ⟨⟨reached, later⟩, advanced, rfl⟩ := Option.map_eq_some_iff.mp taken
        have member := List.mem_of_getElem? found
        obtain ⟨kept, sameCalls, held⟩ := vetted_effect vetted member (advance_effect advanced)
        apply vetted_setCall kept (advance_sound (vetted.calls call member) advanced) held
        intro other otherMember
        rw [sameCalls]
        exact List.mem_or_eq_of_mem_set otherMember
      · simp at taken
  | expireClaim key =>
      obtain rfl := Option.some.inj taken
      exact ⟨vetted.calls, vetted.held, vetted.jobs, vetted.published⟩
  | attempt jobId outcome now => exact vetted_attempt vetted taken

theorem vetted_step {state next : State} {action : Action} (vetted : Vetted state)
    (met : ReplaysVerified state action)
    (taken : step services config state action = some next) : Vetted next := by
  cases action with
  | inbound action => exact vetted_inbound vetted taken
  | replay guildId id =>
      simp only [step, replay] at taken
      split at taken
      · rename_i row found
        obtain ⟨ofGuild, isNext⟩ := Option.ite_none_right_eq_some.mp taken
        obtain rfl := Option.some.inj isNext
        exact vetted_enqueue vetted (met row found ofGuild)
      · simp at taken

theorem inboundJobId_injective {first second : JsString}
    (same : inboundJobId first = inboundJobId second) : first = second := List.append_cancel_left same

/-- The job of a replayed row is new unless the row is on its way already. -/
theorem published_after_replay {state next : State} {guildId id : JsString} (vetted : Vetted state)
    (taken : step services config state (.replay guildId id) = some next)
    (unverified : ¬ ReplaysVerified state (.replay guildId id))
    (normalizes : ∀ row ∈ state.deliveries.findIngressById id,
      ∃ now event, normalize services row now = .ok (some event)) :
    ∃ later, ¬ Always (step services config) OnlyVerified next later := by
  simp only [step, replay] at taken
  split at taken
  · rename_i row found
    obtain ⟨_, isNext⟩ := Option.ite_none_right_eq_some.mp taken
    obtain rfl := Option.some.inj isNext
    obtain ⟨now, event, normal⟩ := normalizes row found
    obtain rfl := (findIngressById_some found).2
    have notVerified : (row.id, true) ∉ state.receipts := by
      intro verified
      apply unverified
      intro other isFound _
      rw [found] at isFound
      obtain rfl := Option.some.inj isFound
      exact verified
    have fresh : inboundJobId row.id ∉ ids state.queue := by
      intro member
      obtain ⟨job, jobMember, sameJob⟩ := mem_ids.mp member
      obtain ⟨verified, jobId⟩ := vetted.jobs job jobMember
      rw [inboundJobId_injective (jobId.symm.trans sameJob)] at verified
      exact notVerified verified
    have waiting := withStatus_add fresh row.id
    refine ⟨[.inbound (.attempt (inboundJobId row.id) .returns now)], ?_⟩
    intro always
    have attempted : ∃ final, step services config (enqueueInboundProcess state row.id)
        (.inbound (.attempt (inboundJobId row.id) .returns now)) = some final ∧
        (row, event) ∈ final.published ∧ final.receipts = state.receipts := by
      simp only [step, inboundStep, attempt, enqueueInboundProcess, waiting, found]
      refine ⟨_, rfl, ?_, rfl⟩
      simp [processRow, Outcome.reaches, normal]
    obtain ⟨final, reached, isPublished, sameReceipts⟩ := attempted
    have later : OnlyVerified final := (always.2 final reached).head
    have verified := later _ isPublished
    rw [sameReceipts] at verified
    exact notVerified verified
  · simp at taken

def forgedDelivery : List Action :=
  [accepting (forgedRequest []), advancing 0 [], advancing 0 (js "r"), advancing 0 []].map .inbound

end Webhooks
