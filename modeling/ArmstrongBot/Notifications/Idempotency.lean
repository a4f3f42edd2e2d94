import ArmstrongBot.Library.Processes
import ArmstrongBot.Notifications.Dispatch

/-! Whether the calls with one dedupe key create one notification, and answer only once all of its
deliveries have their jobs. -/

namespace Notifications.Dispatch

open JsText StepMachine

def Phase.isAnswered : Phase → Bool
  | .answered _ => true
  | _ => false

/-- The call is between its check and its claim, or it has claimed the key and is not answered: it
is still at work or has failed. -/
def Call.holds (call : Call) : Bool :=
  call.phase = .marking || call.claimed && !call.phase.isAnswered

/-- The answer stands for a notification. -/
def Call.delivers (call : Call) : Bool :=
  match call.phase with
  | .answered (.deduped _) | .answered (.dispatched ..) => true
  | _ => false

/-- One notification is there, with a job for every row of its deliveries. -/
def Complete (state : State) : Prop :=
  state.created.length = 1 ∧ ∀ id ∈ state.created, ∀ row ∈ state.database.deliveriesOf id,
    deliveryJobId row.id ∈ state.jobs.map DeliveryJob.jobId

instance (state : State) : Decidable (Complete state) := by
  unfold Complete
  infer_instance

structure Idempotent (state : State) : Prop where
  once : state.created.length ≤ 1
  complete : ∀ call ∈ state.calls, call.delivers = true → Complete state

/-- Deduplication is on, and no call checks the key while another one holds it. -/
def Uninterrupted (config : NotificationsConfig) (dedupeKey : JsString) (state : State) :
    Action → Prop
  | .dispatch _ => config.dedupeTtlSeconds ≠ 0 ∧ dedupeKey ≠ []
  | .advance index _ => ∀ call ∈ state.calls[index]?, call.phase = .checking →
      ∀ other ∈ state.calls.eraseIdx index, other.holds = false

instance (config : NotificationsConfig) (dedupeKey : JsString) (state : State) :
    DecidablePred (Uninterrupted config dedupeKey state) := fun action => by
  unfold Uninterrupted
  split <;> infer_instance

/-! The invariant. -/

/-- The call holds the key, or has been answered with a notification of its own. -/
def Call.engaged (call : Call) : Bool :=
  call.holds || match call.phase with
    | .answered (.dispatched ..) => true
    | _ => false

def Call.HasClaim (state : State) (call : Call) : Prop :=
  call.claimed = true ∧ ∃ key ∈ state.claims, call.key = some key

/-- What a call has come to know or to do. -/
def Call.Progress (state : State) (call : Call) : Prop :=
  match call.phase with
  | .checking => call.claimed = false
  | .lookingUp | .answered (.deduped _) => call.claimed = false ∧ Complete state
  | .marking => call.claimed = false ∧ state.created = []
  | .resolving .. | .releasing _ | .creating _ => call.HasClaim state ∧ state.created = []
  | .emitting record deliveries _ => call.HasClaim state ∧ state.created = [record.id] ∧
      ∀ row ∈ state.database.deliveriesOf record.id, row ∈ deliveries
  | .enqueueing record _ delivery left _ => call.HasClaim state ∧ state.created = [record.id] ∧
      ∀ row ∈ state.database.deliveriesOf record.id, row ∈ delivery :: left ∨
        deliveryJobId row.id ∈ state.jobs.map DeliveryJob.jobId
  | .answered (.dispatched ..) => call.HasClaim state ∧ Complete state
  | .answered (.skipped _) => True
  | .failed => call.claimed = true → call.HasClaim state ∧ state.created.length ≤ 1

structure Sound (key : Option JsString) (state : State) : Prop where
  progress : ∀ call ∈ state.calls, call.Progress state
  sameKey : ∀ call ∈ state.calls, call.key = key
  claims : ∀ claimed ∈ state.claims, key = some claimed
  apart : Processes.Apart (fun one other => one.engaged = true ∧ other.engaged = true) state.calls
  idle : (∀ call ∈ state.calls, call.engaged = false) → state.created = [] ∧ state.claims = []

variable {key : Option JsString} {state after : State} {index : Nat} {call next : Call}

theorem created_of_engaged (progress : call.Progress state) (engaged : call.engaged = true) :
    state.created.length ≤ 1 := by
  unfold Call.Progress at progress
  unfold Call.engaged Call.holds at engaged
  split at progress <;> rename_i isPhase
  · simp [isPhase, progress] at engaged
  · simp [isPhase, progress] at engaged
  · exact progress.2.1.le
  · simp [progress]
  · simp [progress]
  · simp [progress]
  · simp [progress]
  · simp [progress]
  · simp [progress]
  · exact progress.2.1.le
  · simp [isPhase, Phase.isAnswered] at engaged
  · exact (progress (by simpa [isPhase, Phase.isAnswered] using engaged)).2

theorem idempotent_of_sound (sound : Sound key state) : Idempotent state := by
  constructor
  · by_cases idle : ∀ call ∈ state.calls, call.engaged = false
    · simp [(sound.idle idle).1]
    · simp only [not_forall, Bool.not_eq_false] at idle
      obtain ⟨call, member, engaged⟩ := idle
      exact created_of_engaged (sound.progress call member) engaged
  · intro call member delivers
    have progress := sound.progress call member
    unfold Call.Progress at progress
    unfold Call.delivers at delivers
    split at delivers <;> rename_i isPhase
    · simp only [isPhase] at progress
      exact progress.2
    · simp only [isPhase] at progress
      exact progress.2
    · cases delivers

/-! What a step keeps. -/

/-- A call that is not engaged only has what it knows. -/
theorem progress_idle (progress : call.Progress state) (idle : call.engaged = false)
    (complete : Complete state → Complete after) : call.Progress after := by
  unfold Call.Progress at progress ⊢
  unfold Call.engaged Call.holds at idle
  split at progress <;> rename_i isPhase <;>
    simp only [isPhase, Phase.isAnswered, Call.HasClaim] at idle progress ⊢
  · exact progress
  · exact ⟨progress.1, complete progress.2⟩
  · exact ⟨progress.1, complete progress.2⟩
  · simp at idle
  · simp [progress] at idle
  · simp [progress] at idle
  · simp [progress] at idle
  · simp [progress] at idle
  · simp [progress] at idle
  · simp at idle
  · simp_all

theorem sound_set (sound : Sound key state) (isCall : state.calls[index]? = some call)
    (others : ∀ place other, place ≠ index → state.calls[place]? = some other →
      other.Progress after)
    (own : next.Progress after) (sameKey : next.key = key)
    (claims : ∀ claimed ∈ after.claims, key = some claimed)
    (alone : next.engaged = true → ∀ place other, place ≠ index →
      state.calls[place]? = some other → other.engaged = false)
    (idle : next.engaged = false → (∀ place other, place ≠ index →
      state.calls[place]? = some other → other.engaged = false) →
      after.created = [] ∧ after.claims = []) :
    Sound key { after with calls := state.calls.set index next } := by
  refine ⟨?_, ?_, claims, ?_, ?_⟩
  · intro other member
    rcases Processes.mem_set member with rfl | ⟨place, apart, isOther⟩
    · exact own
    · exact others place other apart isOther
  · intro other member
    rcases List.mem_or_eq_of_mem_set member with before | rfl
    · exact sound.sameKey other before
    · exact sameKey
  · refine sound.apart.set fun place other isOther clash => ?_
    by_contra apart
    rcases clash with ⟨engaged, otherEngaged⟩ | ⟨otherEngaged, engaged⟩
    · rw [alone engaged place other apart isOther] at otherEngaged
      cases otherEngaged
    · rw [alone engaged place other apart isOther] at otherEngaged
      cases otherEngaged
  · intro allIdle
    have bound := (List.getElem?_eq_some_iff.mp isCall).1
    refine idle (allIdle next (List.mem_set bound next)) ?_
    intro place other apart isOther
    refine allIdle other (List.mem_iff_getElem?.mpr ⟨place, ?_⟩)
    rw [List.getElem?_set_ne (Ne.symm apart)]
    exact isOther

theorem others_idle (sound : Sound key state) (isCall : state.calls[index]? = some call)
    (engaged : call.engaged = true) (place : Nat) (other : Call) (apart : place ≠ index)
    (isOther : state.calls[place]? = some other) : other.engaged = false := by
  by_contra isEngaged
  exact apart (sound.apart place index other call isOther isCall
    ⟨by simpa using isEngaged, engaged⟩)

theorem sound_engaged (sound : Sound key state) (isCall : state.calls[index]? = some call)
    (engaged : call.engaged = true) (complete : Complete state → Complete after)
    (own : next.Progress after) (sameKey : next.key = call.key)
    (claims : ∀ claimed ∈ after.claims, key = some claimed)
    (idle : next.engaged = false → after.created = [] ∧ after.claims = []) :
    Sound key { after with calls := state.calls.set index next } := by
  have alone := others_idle sound isCall engaged
  refine sound_set sound isCall ?_ own ?_ claims (fun _ => alone) fun isIdle _ => idle isIdle
  · intro place other apart isOther
    exact progress_idle (sound.progress other (List.mem_of_getElem? isOther))
      (alone place other apart isOther) complete
  · rw [sameKey]
    exact sound.sameKey call (List.mem_of_getElem? isCall)

theorem sound_kept (sound : Sound key state) (isCall : state.calls[index]? = some call)
    (isIdle : call.engaged = false) (own : next.Progress state) (sameKey : next.key = call.key)
    (alone : next.engaged = true → ∀ place other, place ≠ index →
      state.calls[place]? = some other → other.engaged = false) :
    Sound key { state with calls := state.calls.set index next } := by
  refine sound_set sound isCall ?_ own ?_ sound.claims alone ?_
  · exact fun place other _ isOther => sound.progress other (List.mem_of_getElem? isOther)
  · rw [sameKey]
    exact sound.sameKey call (List.mem_of_getElem? isCall)
  · intro _ othersIdle
    exact sound.idle (Processes.forall_of_others isCall isIdle othersIdle)

/-! The steps of a call. -/

theorem engaged_of_claimed (claimed : call.claimed = true)
    (unanswered : call.phase.isAnswered = false) : call.engaged = true := by
  simp [Call.engaged, Call.holds, claimed, unanswered]

theorem sound_failed (sound : Sound key state) (isCall : state.calls[index]? = some call)
    (mayFail : call.phase.mayFail = true) :
    Sound key { state with calls := state.calls.set index (call.to .failed) } := by
  have progress := sound.progress call (List.mem_of_getElem? isCall)
  have claims (hasClaim : call.HasClaim state) (unanswered : call.phase.isAnswered = false)
      (once : state.created.length ≤ 1) :
      Sound key { state with calls := state.calls.set index (call.to .failed) } := by
    have engaged := engaged_of_claimed hasClaim.1 unanswered
    refine sound_engaged sound isCall engaged id (fun _ => ⟨hasClaim, once⟩) rfl sound.claims ?_
    have still : (call.to .failed).engaged = true := engaged_of_claimed hasClaim.1 rfl
    intro isIdle
    rw [still] at isIdle
    cases isIdle
  unfold Call.Progress at progress
  cases isPhase : call.phase with
  | lookingUp =>
      simp only [isPhase] at progress
      have unclaimed (phase : Phase) (notMarking : phase ≠ .marking)
          (unanswered : phase.isAnswered = false) : (call.to phase).engaged = false := by
        cases phase <;> simp_all [Call.engaged, Call.holds, Phase.isAnswered]
      have isIdle : call.engaged = false := by
        have same : call.to .lookingUp = call := by
          rw [← isPhase]
          rfl
        rw [← same]
        exact unclaimed .lookingUp (by simp) rfl
      refine sound_kept sound isCall isIdle ?_ rfl ?_
      · intro isClaimed
        rw [Call.to_claimed, progress.1] at isClaimed
        cases isClaimed
      · intro engaged
        rw [unclaimed .failed (by simp) rfl] at engaged
        cases engaged
  | resolving =>
      simp only [isPhase] at progress
      exact claims progress.1 (by rw [isPhase]; rfl) (by simp [progress.2])
  | creating =>
      simp only [isPhase] at progress
      exact claims progress.1 (by rw [isPhase]; rfl) (by simp [progress.2])
  | emitting =>
      simp only [isPhase] at progress
      exact claims progress.1 (by rw [isPhase]; rfl) (by simp [progress.2.1])
  | enqueueing =>
      simp only [isPhase] at progress
      exact claims progress.1 (by rw [isPhase]; rfl) (by simp [progress.2.1])
  | _ =>
      rw [isPhase] at mayFail
      cases mayFail

theorem dispatched_of_engaged (progress : call.Progress state) (engaged : call.engaged = true)
    (free : call.holds = false) : call.HasClaim state ∧ Complete state := by
  unfold Call.engaged at engaged
  unfold Call.Progress at progress
  rw [free, Bool.false_or] at engaged
  split at engaged
  · rename_i isPhase
    simp only [isPhase] at progress
    exact progress
  · cases engaged

/-- The key is claimed exactly when a call has been answered with a notification. -/
theorem sound_checking (sound : Sound key state) (isCall : state.calls[index]? = some call)
    (isChecking : call.phase = .checking)
    (free : ∀ other ∈ state.calls.eraseIdx index, other.holds = false) {claimed : JsString}
    (isKey : call.key = some claimed) :
    Sound key { state with
      calls := state.calls.set index
        (call.to (if claimed ∈ state.claims then .lookingUp else .marking)) } := by
  have member := List.mem_of_getElem? isCall
  have unclaimed : call.claimed = false := by
    have progress := sound.progress call member
    simpa only [Call.Progress, isChecking] using progress
  have isIdle : call.engaged = false := by
    simp [Call.engaged, Call.holds, isChecking, unclaimed]
  have sameKey : key = some claimed := (sound.sameKey call member).symm.trans isKey
  have dispatched (place : Nat) (other : Call) (apart : place ≠ index)
      (isOther : state.calls[place]? = some other) (engaged : other.engaged = true) :
      other.HasClaim state ∧ Complete state :=
    dispatched_of_engaged (sound.progress other (List.mem_of_getElem? isOther)) engaged
      (free other (List.mem_eraseIdx_iff_getElem?.mpr ⟨place, apart, isOther⟩))
  split
  · rename_i isClaimed
    have complete : Complete state := by
      by_contra incomplete
      have allIdle : ∀ other ∈ state.calls, other.engaged = false := by
        refine Processes.forall_of_others isCall isIdle fun place other apart isOther => ?_
        by_contra engaged
        exact incomplete (dispatched place other apart isOther (by simpa using engaged)).2
      rw [(sound.idle allIdle).2] at isClaimed
      cases isClaimed
    refine sound_kept sound isCall isIdle ⟨unclaimed, complete⟩ rfl ?_
    intro engaged
    simp [Call.engaged, Call.holds, unclaimed] at engaged
  · rename_i isFree
    have othersIdle (place : Nat) (other : Call) (apart : place ≠ index)
        (isOther : state.calls[place]? = some other) : other.engaged = false := by
      by_contra engaged
      obtain ⟨⟨_, taken, isTaken, _⟩, _⟩ :=
        dispatched place other apart isOther (by simpa using engaged)
      rw [sameKey] at sound
      rw [← Option.some.inj (sound.claims taken isTaken)] at isTaken
      exact isFree isTaken
    have created : state.created = [] :=
      (sound.idle (Processes.forall_of_others isCall isIdle othersIdle)).1
    exact sound_kept sound isCall isIdle ⟨unclaimed, created⟩ rfl fun _ => othersIdle

theorem planning_kept (hasClaim : call.HasClaim state) (created : state.created = [])
    (recipients : List NotificationRecipient) (plan : Plan) :
    (call.to (planning call.input.dedupeKey recipients plan)).Progress state ∧
      (call.to (planning call.input.dedupeKey recipients plan)).engaged = true := by
  have claimed := hasClaim.1
  obtain ⟨_, _, isKey⟩ := hasClaim.2
  obtain ⟨dedupeKey, isGiven, _⟩ := Option.bind_eq_some_iff.mp isKey
  unfold planning
  cases recipients with
  | cons recipient left => exact ⟨⟨hasClaim, created⟩, engaged_of_claimed claimed rfl⟩
  | nil =>
      simp only [isGiven, Option.isSome_some, if_true]
      split
      · exact ⟨⟨hasClaim, created⟩, engaged_of_claimed claimed rfl⟩
      · exact ⟨⟨hasClaim, created⟩, engaged_of_claimed claimed rfl⟩

theorem enqueuing_kept (state : State) (hasClaim : call.HasClaim state)
    {record : NotificationRecord} (created : state.created = [record.id])
    (left : List DeliveryRecord)
    (rows : ∀ row ∈ state.database.deliveriesOf record.id,
      row ∈ left ∨ deliveryJobId row.id ∈ state.jobs.map DeliveryJob.jobId)
    (deliveries : Nat) (skipped : List Skip) :
    (call.to (enqueuing record deliveries left skipped)).Progress state ∧
      (call.to (enqueuing record deliveries left skipped)).engaged = true := by
  cases left with
  | cons delivery left => exact ⟨⟨hasClaim, created, rows⟩, engaged_of_claimed hasClaim.1 rfl⟩
  | nil =>
      refine ⟨⟨hasClaim, by simp [created], ?_⟩, by simp [Call.engaged, enqueuing]⟩
      intro id isCreated row member
      rw [created, List.mem_singleton] at isCreated
      rw [isCreated] at member
      simpa using rows row member

/-- The deliveries of a new notification are those of the same transaction. -/
theorem deliveriesOf_create {database created : Database} {input : CreateNotificationInput}
    {generated : Generated} (isCreated : database.create input generated = some created) :
    ∀ row ∈ created.deliveriesOf generated.id, row ∈ input.deliveryRows generated := by
  intro row member
  obtain ⟨isRow, ofNotification⟩ := List.mem_filter.mp member
  simp only [decide_eq_true_eq] at ofNotification
  unfold Database.create at isCreated
  split at isCreated
  · rename_i notifications deliveries inserted added
    split at isCreated
    · obtain rfl := Option.some.inj isCreated
      rw [Table.insertAll_rows added] at isRow
      rcases List.mem_append.mp isRow with earlier | isNew
      · have known := database.owned row earlier
        rw [ofNotification] at known
        obtain ⟨other, isOther, sameId⟩ := List.mem_map.mp known
        have fresh := (Table.insert_eq_some_iff.mp inserted).1
        rw [show (input.row generated).id = other.id from sameId.symm,
          Table.find_key isOther] at fresh
        cases fresh
      · exact isNew
    · cases isCreated
  · cases isCreated

theorem mem_enqueueDelivery (jobs : List DeliveryJob) (data : DeliveryJobData)
    (attempts backoffMs : Nat) (delayMs : Int) (jobId : JsString) :
    jobId ∈ (enqueueDelivery jobs data attempts backoffMs delayMs).map DeliveryJob.jobId ↔
      jobId ∈ jobs.map DeliveryJob.jobId ∨ jobId = deliveryJobId data.deliveryId := by
  unfold enqueueDelivery
  split
  · rename_i known
    constructor
    · exact Or.inl
    · rintro (isJob | rfl)
      · exact isJob
      · exact known
  · simp

theorem sound_enqueueing (sound : Sound key state) (isCall : state.calls[index]? = some call)
    {record : NotificationRecord} {deliveries : Nat} {delivery : DeliveryRecord}
    {left : List DeliveryRecord} {skipped : List Skip}
    (isPhase : call.phase = .enqueueing record deliveries delivery left skipped)
    {jobs : List DeliveryJob} (grows : ∀ id, id ∈ jobs.map DeliveryJob.jobId ↔
      id ∈ state.jobs.map DeliveryJob.jobId ∨ id = deliveryJobId delivery.id) :
    Sound key { state with
      jobs
      calls := state.calls.set index (call.to (enqueuing record deliveries left skipped)) } := by
  have progress := sound.progress call (List.mem_of_getElem? isCall)
  unfold Call.Progress at progress
  simp only [isPhase] at progress
  obtain ⟨hasClaim, created, rows⟩ := progress
  have left_or_enqueued : ∀ row ∈ state.database.deliveriesOf record.id,
      row ∈ left ∨ deliveryJobId row.id ∈ jobs.map DeliveryJob.jobId := by
    intro row member
    rcases rows row member with isLeft | isJob
    · rcases List.mem_cons.mp isLeft with rfl | later
      · exact Or.inr ((grows _).mpr (Or.inr rfl))
      · exact Or.inl later
    · exact Or.inr ((grows _).mpr (Or.inl isJob))
  obtain ⟨own, engaged⟩ := enqueuing_kept { state with jobs } hasClaim created left
    left_or_enqueued deliveries skipped
  have complete : Complete state → Complete { state with jobs } := by
    rintro ⟨one, enqueued⟩
    exact ⟨one, fun id isId row member => (grows _).mpr (Or.inl (enqueued id isId row member))⟩
  refine sound_engaged sound isCall (engaged_of_claimed hasClaim.1 (by rw [isPhase]; rfl)) complete
    own rfl sound.claims ?_
  intro isIdle
  rw [engaged] at isIdle
  cases isIdle

theorem sound_proceed {config : NotificationsConfig} {input : Input} (sound : Sound key state)
    (isCall : state.calls[index]? = some call)
    (free : call.phase = .checking → ∀ other ∈ state.calls.eraseIdx index, other.holds = false)
    (proceeded : proceed config state call input = some (after, next)) :
    Sound key { after with calls := state.calls.set index next } := by
  have progress := sound.progress call (List.mem_of_getElem? isCall)
  have isKey := sound.sameKey call (List.mem_of_getElem? isCall)
  unfold proceed at proceeded
  unfold Call.Progress at progress
  have busy {phase : Phase} (engaged : (call.to phase).engaged = true)
      (isIdle : (call.to phase).engaged = false) : after.created = [] ∧ after.claims = [] := by
    rw [engaged] at isIdle
    cases isIdle
  cases isPhase : call.phase with
  | checking =>
      simp only [isPhase] at proceeded
      obtain ⟨claimed, ofCall, same⟩ := Option.map_eq_some_iff.mp proceeded
      obtain ⟨rfl, rfl⟩ := Prod.mk.inj same
      exact sound_checking sound isCall isPhase (free isPhase) ofCall
  | lookingUp =>
      simp only [isPhase] at proceeded progress
      obtain ⟨rfl, rfl⟩ := Prod.mk.inj (Option.some.inj proceeded)
      refine sound_kept sound isCall ?_ ⟨progress.1, progress.2⟩ rfl ?_
      · simp [Call.engaged, Call.holds, isPhase, progress.1]
      · intro engaged
        simp [Call.engaged, Call.holds, progress.1] at engaged
  | marking =>
      simp only [isPhase] at proceeded progress
      obtain ⟨claimed, ofCall, same⟩ := Option.map_eq_some_iff.mp proceeded
      obtain ⟨rfl, rfl⟩ := Prod.mk.inj same
      have hasClaim : ({ call with claimed := true } : Call).HasClaim
          { state with claims := claimed :: state.claims } :=
        ⟨rfl, claimed, List.mem_cons_self, ofCall⟩
      obtain ⟨own, engaged⟩ := planning_kept hasClaim progress.2 call.input.recipients .empty
      refine sound_engaged sound isCall (by simp [Call.engaged, Call.holds, isPhase]) id own rfl ?_
        fun isIdle => absurd (engaged.symm.trans isIdle) (by simp)
      intro other member
      rcases List.mem_cons.mp member with rfl | earlier
      · exact isKey.symm.trans ofCall
      · exact sound.claims other earlier
  | resolving recipient left plan =>
      simp only [isPhase] at proceeded progress
      obtain ⟨rfl, rfl⟩ := Prod.mk.inj (Option.some.inj proceeded)
      obtain ⟨own, engaged⟩ := planning_kept progress.1 progress.2 left
        (input.decisions.foldl (Plan.add recipient) plan)
      exact sound_engaged sound isCall (engaged_of_claimed progress.1.1 (by rw [isPhase]; rfl)) id
        own rfl sound.claims (busy engaged)
  | releasing skipped =>
      simp only [isPhase] at proceeded progress
      obtain ⟨claimed, isClaimed, ofCall⟩ := progress.1.2
      simp only [ofCall] at proceeded
      obtain ⟨rfl, rfl⟩ := Prod.mk.inj (Option.some.inj proceeded)
      refine sound_engaged sound isCall (engaged_of_claimed progress.1.1 (by rw [isPhase]; rfl)) id
        trivial rfl (fun other member => sound.claims other (List.mem_of_mem_filter member)) ?_
      intro _
      refine ⟨progress.2, List.filter_eq_nil_iff.mpr fun other member => ?_⟩
      have same := sound.claims other member
      rw [← isKey, ofCall] at same
      simp [Option.some.inj same]
  | creating plan =>
      simp only [isPhase] at proceeded progress
      obtain ⟨database, isCreated, same⟩ := Option.map_eq_some_iff.mp proceeded
      obtain ⟨rfl, rfl⟩ := Prod.mk.inj same
      refine sound_engaged sound isCall (engaged_of_claimed progress.1.1 (by rw [isPhase]; rfl)) ?_
        ⟨progress.1, ?_, deliveriesOf_create isCreated⟩ rfl sound.claims
        (busy (engaged_of_claimed progress.1.1 rfl))
      · rintro ⟨one, _⟩
        simp [progress.2] at one
      · simp only [progress.2, List.nil_append]
        rfl
  | emitting record deliveries skipped =>
      simp only [isPhase] at proceeded progress
      obtain ⟨rfl, rfl⟩ := Prod.mk.inj (Option.some.inj proceeded)
      obtain ⟨hasClaim, created, rows⟩ := progress
      obtain ⟨own, engaged⟩ := enqueuing_kept state hasClaim created deliveries
        (fun row member => Or.inl (rows row member)) deliveries.length skipped
      exact sound_engaged sound isCall (engaged_of_claimed hasClaim.1 (by rw [isPhase]; rfl)) id
        own rfl sound.claims (busy engaged)
  | enqueueing record deliveries delivery left skipped =>
      simp only [isPhase] at proceeded progress
      obtain ⟨rfl, rfl⟩ := Prod.mk.inj (Option.some.inj proceeded)
      exact sound_enqueueing sound isCall isPhase (mem_enqueueDelivery state.jobs
        { deliveryId := delivery.id, notificationId := record.id } config.maxDeliveryAttempts
        config.backoffBaseMs (delayMs delivery input.now))
  | answered answer =>
      simp only [isPhase] at proceeded
      cases proceeded
  | failed =>
      simp only [isPhase] at proceeded
      cases proceeded

/-! Runs. -/

theorem sound_start (key : Option JsString) (database : Database) (jobs : List DeliveryJob) :
    Sound key (.start database jobs) := by
  refine ⟨?_, ?_, ?_, ?_, ?_⟩ <;> simp [State.start, Processes.Apart]

theorem sound_dispatch {config : NotificationsConfig} {input : DispatchNotificationInput}
    {dedupeKey : JsString} (sound : Sound (cacheKey input.guildId dedupeKey) state)
    (ofKey : input.dedupeKey = some dedupeKey) (enabled : config.dedupeTtlSeconds ≠ 0)
    (given : dedupeKey ≠ []) :
    Sound (cacheKey input.guildId dedupeKey)
      { state with calls := state.calls ++ [doDispatch config input] } := by
  have isTruthy : truthy input.dedupeKey = some dedupeKey := by simp [ofKey, truthy, given]
  have unclaimed : (doDispatch config input).claimed = false := rfl
  have isKey : (doDispatch config input).key = cacheKey input.guildId dedupeKey := by
    show (truthy input.dedupeKey).bind _ = _
    rw [isTruthy]
    rfl
  have isPhase : (doDispatch config input).phase = .failed ∨
      (doDispatch config input).phase = .checking := by
    simp only [doDispatch, isTruthy, if_neg enabled]
    split
    · exact Or.inl rfl
    · exact Or.inr rfl
  have isIdle : (doDispatch config input).engaged = false := by
    rcases isPhase with failed | checking
    · simp [Call.engaged, Call.holds, failed, unclaimed]
    · simp [Call.engaged, Call.holds, checking, unclaimed]
  refine ⟨?_, ?_, sound.claims, ?_, ?_⟩
  · intro call member
    rcases List.mem_append.mp member with before | isNew
    · exact sound.progress call before
    · rw [List.mem_singleton.mp isNew]
      rcases isPhase with failed | checking
      · simp only [Call.Progress, failed, unclaimed]
        intro isClaimed
        cases isClaimed
      · simp only [Call.Progress, checking, unclaimed]
  · intro call member
    rcases List.mem_append.mp member with before | isNew
    · exact sound.sameKey call before
    · rw [List.mem_singleton.mp isNew]
      exact isKey
  · refine sound.apart.append fun other => ?_
    simp [isIdle]
  · intro allIdle
    exact sound.idle fun call member => allIdle call (List.mem_append_left _ member)

theorem sound_step {config : NotificationsConfig} {guildId : Option JsString}
    {dedupeKey : JsString} {action : Action} (sound : Sound (cacheKey guildId dedupeKey) state)
    (uninterrupted : Uninterrupted config dedupeKey state action)
    (taken : step config guildId dedupeKey state action = some after) :
    Sound (cacheKey guildId dedupeKey) after := by
  cases action with
  | dispatch input =>
      simp only [step] at taken
      split at taken
      · rename_i same
        obtain ⟨rfl, ofKey⟩ := same
        obtain rfl := Option.some.inj taken
        exact sound_dispatch sound ofKey uninterrupted.1 uninterrupted.2
      · cases taken
  | advance index input =>
      obtain ⟨call, isCall, rest⟩ := Option.bind_eq_some_iff.mp taken
      obtain ⟨⟨later, next⟩, advanced, rfl⟩ := Option.map_eq_some_iff.mp rest
      unfold advance at advanced
      split at advanced
      · split at advanced
        · rename_i mayFail
          obtain ⟨rfl, rfl⟩ := Prod.mk.inj (Option.some.inj advanced)
          exact sound_failed sound isCall mayFail
        · cases advanced
      · exact sound_proceed sound isCall (uninterrupted call isCall) advanced

theorem idempotent_of_uninterrupted (config : NotificationsConfig) (guildId : Option JsString)
    (dedupeKey : JsString) (database : Database) (jobs : List DeliveryJob) (actions : List Action)
    (uninterrupted : Guarded (step config guildId dedupeKey) (Uninterrupted config dedupeKey)
      (.start database jobs) actions) :
    Always (step config guildId dedupeKey) Idempotent (.start database jobs) actions :=
  (always_of_guarded (step config guildId dedupeKey) (fun _ _ _ => sound_step)
    (sound_start (cacheKey guildId dedupeKey) database jobs) uninterrupted).mono
    (step config guildId dedupeKey) fun _ => idempotent_of_sound

/-! One member is told of a ticket, twice. -/

def hourly : NotificationsConfig :=
  { dedupeTtlSeconds := 3600, maxDeliveryAttempts := 5, backoffBaseMs := 2000 }

def emptyDatabase : Database :=
  { notifications := .empty, deliveries := .empty, owned := Database.empty_owned }

def ticketOpened : DispatchNotificationInput :=
  { guildId := some (js "g"), category := .tickets, priority := none
    templateKey := js "tickets.opened"
    recipients := [{ NotificationRecipient.nobody with userId := some (js "u") }]
    dedupeKey := some (js "t") }

def answered (fails : Bool) : Input :=
  { fails, decisions := [{ channel := .discordDm, allowed := true, reason := none }]
    generated := { id := js "n", deliveryIds := [js "d"], now := 1 }, now := 1 }

def advances (index count : Nat) : List Action :=
  List.replicate count (.advance index (answered false))

def toldTwice : List Action :=
  [[.dispatch ticketOpened], advances 0 6, [.dispatch ticketOpened], advances 1 2].flatten

theorem idempotent_ticket :
    Always (step hourly (some (js "g")) (js "t")) Idempotent (.start emptyDatabase []) toldTwice :=
  idempotent_of_uninterrupted hourly (some (js "g")) (js "t") emptyDatabase [] toldTwice
    (by decide +kernel)

/-- The rows are not created, and the caller tries again. -/
def failedOnce : List Action :=
  [[.dispatch ticketOpened], advances 0 3, [.advance 0 (answered true), .dispatch ticketOpened],
    advances 1 2].flatten

theorem retry_is_deduped :
    ¬ ∀ (config : NotificationsConfig) (guildId : Option JsString) (dedupeKey : JsString)
      (database : Database) (jobs : List DeliveryJob) (actions : List Action),
      config.dedupeTtlSeconds ≠ 0 → dedupeKey ≠ [] →
      Always (step config guildId dedupeKey) Idempotent (.start database jobs) actions := by
  intro all
  have idempotent := all hourly (some (js "g")) (js "t") emptyDatabase [] failedOnce (by decide)
    (by decide)
  exact not_always (step hourly (some (js "g")) (js "t"))
    (fun state => decide (∀ call ∈ state.calls, call.delivers = true → Complete state))
    (fun _ holds => decide_eq_true holds.complete) (by decide +kernel) idempotent

end Notifications.Dispatch
