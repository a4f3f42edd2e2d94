import ArmstrongBot.Library.Processes
import ArmstrongBot.Notifications.Delivery

/-! Whether a status that ends a delivery stays, and nothing is sent after it. -/

namespace Notifications

open JsText StepMachine

/-- Nothing happens to a status that ends a delivery, and no send begins under one. -/
def Happening.Allowed : Happening → Prop
  | .changed _ before _ => before.isTerminal = false
  | .sending _ _ status => ∀ current ∈ status, current.isTerminal = false
  | .cancelled _ => True

instance : DecidablePred Happening.Allowed := fun happening => by
  unfold Happening.Allowed
  split <;> infer_instance

/-- No send begins once `cancelPending` has returned. -/
def Happening.Precedes : Happening → Happening → Prop
  | .cancelled notificationId, .sending _ ofNotification _ => ofNotification ≠ notificationId
  | _, _ => True

instance (first second : Happening) : Decidable (first.Precedes second) := by
  unfold Happening.Precedes
  split <;> infer_instance

structure TerminalIsFinal (state : State) : Prop where
  allowed : ∀ happening ∈ state.history, happening.Allowed
  ordered : state.history.Pairwise Happening.Precedes

/-! The condition. A call is under way on a delivery from when it has read its row until it has
written it. -/

def Call.delivery : Call → Option DeliveryRecord
  | .loading delivery _ | .rendering delivery _ _ | .sending delivery _ _ _
  | .recording delivery _ _ _ _ _ | .attempting delivery _ _ _ | .burying delivery _ _ =>
      some delivery
  | _ => none

/-- The delivery of a run that has not begun to send it. -/
def Call.unsent : Call → Option DeliveryRecord
  | .loading delivery _ | .rendering delivery _ _ => some delivery
  | _ => none

/-- Going on, the call may leave another status than this one. -/
def Call.MayLeave (status : DeliveryStatus) : Call → Prop
  | .recording .. => status ≠ .sent
  | .burying .. => status ≠ .dead
  | _ => True

instance (status : DeliveryStatus) : DecidablePred (Call.MayLeave status) := fun call => by
  unfold Call.MayLeave
  split <;> infer_instance

/-- No other call is under way on the delivery, except one that will write the same. -/
def State.Alone (state : State) (index : Nat) (deliveryId : JsString) (status : DeliveryStatus) :
    Prop :=
  ∀ other ∈ state.calls.eraseIdx index, ∀ delivery ∈ other.delivery, delivery.id = deliveryId →
    ¬ other.MayLeave status

instance (state : State) (index : Nat) (deliveryId : JsString) (status : DeliveryStatus) :
    Decidable (state.Alone index deliveryId status) := by
  unfold State.Alone
  infer_instance

/-- No run that has read a row of the notification has yet to begin its send. -/
def State.AllSent (state : State) (notificationId : JsString) : Prop :=
  ∀ call ∈ state.calls, ∀ delivery ∈ call.unsent, delivery.notificationId ≠ notificationId

instance (state : State) (notificationId : JsString) :
    Decidable (state.AllSent notificationId) := by
  unfold State.AllSent
  infer_instance

def CallUndisturbed (state : State) (index : Nat) : Call → Prop
  | .finding data _ => ∀ row ∈ state.store.deliveries.find data.deliveryId,
      row.status ≠ .dead ∧ (row.status.isTerminal = false →
        .cancelled row.notificationId ∉ state.history)
  | .recording delivery .. => state.Alone index delivery.id .sent
  | .burying delivery .. => state.Alone index delivery.id .dead
  | .cancelling notificationId _ => ∀ row ∈ state.store.deliveries.rows,
      row.isPendingOf notificationId = true → state.Alone index row.id .cancelled
  | .listing notificationId =>
      findPending state.store.deliveries notificationId = [] → state.AllSent notificationId
  | .removing notificationId pending => pending = [] → state.AllSent notificationId
  | _ => True

instance (state : State) (index : Nat) : DecidablePred (CallUndisturbed state index) :=
  fun call => by
    unfold CallUndisturbed
    split <;> infer_instance

def Undisturbed (state : State) : Action → Prop
  | .advance index input => input.failure = none →
      ∀ call ∈ state.calls[index]?, CallUndisturbed state index call
  | _ => True

instance (state : State) : DecidablePred (Undisturbed state) := fun action => by
  unfold Undisturbed
  split <;> infer_instance

/-! What a call does between two awaits. -/

def Call.writes : Call → Option (DeliveryRecord × DeliveryStatus)
  | .recording delivery _ _ _ _ _ => some (delivery, .sent)
  | .attempting delivery _ _ _ => some (delivery, .failed)
  | .burying delivery _ _ => some (delivery, .dead)
  | _ => none

theorem Call.delivery_of_unsent {call : Call} {delivery : DeliveryRecord}
    (isUnsent : delivery ∈ call.unsent) : delivery ∈ call.delivery := by
  cases call <;> first | exact isUnsent | cases isUnsent

theorem Call.delivery_of_writes {call : Call} {delivery : DeliveryRecord} {status : DeliveryStatus}
    (writes : call.writes = some (delivery, status)) :
    delivery ∈ call.delivery ∧ ∀ other, other ≠ status → call.MayLeave other := by
  cases call <;> cases writes
  · exact ⟨rfl, fun other apart => apart⟩
  · exact ⟨rfl, fun _ _ => trivial⟩
  · exact ⟨rfl, fun other apart => apart⟩

/-- No row is written, and a send is neither begun nor ruled out. -/
structure WentOn (store : Store) (call : Call) (later : Store) (next : Call) : Prop where
  kept : later.deliveries = store.deliveries
  delivery : ∀ delivery ∈ next.delivery, delivery ∈ call.delivery ∧ ∀ status, call.MayLeave status
  isUnsent : ∀ delivery ∈ next.unsent, delivery ∈ call.unsent
  quiet : call.announces later next = []

inductive Effect (store : Store) : Call → Store → Call → Prop
  | picked {data : DeliveryJobData} {attemptsMade : Nat} {row : DeliveryRecord} :
      store.deliveries.find data.deliveryId = some row →
      row.status ≠ .cancelled → row.status ≠ .sent →
      Effect store (.finding data attemptsMade) store (.loading row attemptsMade)
  | examined {data : DeliveryJobData} {error : JsString} {row : DeliveryRecord} :
      store.deliveries.find data.deliveryId = some row →
      row.status ≠ .cancelled → row.status ≠ .sent →
      Effect store (.examining data error) store (.burying row error row.attempts)
  | began {delivery : DeliveryRecord} {notification : NotificationRecord} {attemptNo : Nat} :
      Effect store (.rendering delivery notification attemptNo) store
        (.sending delivery notification attemptNo (recipientFromDelivery delivery))
  | wentOn {call next : Call} {later : Store} : WentOn store call later next →
      Effect store call later next
  | wrote {call next : Call} {later : Store} {delivery : DeliveryRecord} {status : DeliveryStatus}
      {change : DeliveryRecord → DeliveryRecord} :
      call.writes = some (delivery, status) → next.delivery = none →
      call.announces later next = [] →
      (∀ id, later.deliveries.find id = (store.deliveries.find id).map fun row =>
        if id = delivery.id then change row else row) →
      (∀ row, (change row).status = status) →
      (∀ row, (change row).notificationId = row.notificationId) →
      Effect store call later next
  | cancelled {notificationId : JsString} {pending : List JsString} :
      Effect store (.cancelling notificationId pending)
        (store.withDeliveries (updatePending store.deliveries notificationId))
        (.removing notificationId pending)
  | unneeded {notificationId : JsString} : findPending store.deliveries notificationId = [] →
      Effect store (.listing notificationId) store (.ended .returned)
  | removed {notificationId : JsString} :
      Effect store (.removing notificationId []) store (.ended .returned)

variable {providers : List NotificationChannel} {call next : Call} {store later : Store}

theorem WentOn.leaves (kept : later.deliveries = store.deliveries) (left : next.delivery = none)
    (quiet : call.announces later next = []) : WentOn store call later next := by
  refine ⟨kept, ?_, ?_, quiet⟩
  · intro delivery isDelivery
    rw [left] at isDelivery
    cases isDelivery
  · intro delivery isUnsent
    have isDelivery := Call.delivery_of_unsent isUnsent
    rw [left] at isDelivery
    cases isDelivery

theorem wentOn_settle (delivery : DeliveryRecord) (notification : NotificationRecord)
    (attemptNo : Nat) (recipient : NotificationRecipient) (result : ProviderSendResult)
    (input : Input) :
    WentOn store (.sending delivery notification attemptNo recipient) store
      (settle delivery notification attemptNo result input) := by
  have settled : (settle delivery notification attemptNo result input).delivery = some delivery ∧
      (settle delivery notification attemptNo result input).unsent = none := by
    unfold settle
    split
    · exact ⟨rfl, rfl⟩
    · split <;> exact ⟨rfl, rfl⟩
  refine ⟨rfl, ?_, ?_, rfl⟩
  · rw [settled.1]
    exact fun _ isDelivery => ⟨isDelivery, fun _ => trivial⟩
  · rw [settled.2]
    intro _ isUnsent
    cases isUnsent

theorem wentOn_loading (delivery : DeliveryRecord) (attemptsMade : Nat)
    (sameDelivery : next.delivery = some delivery) :
    WentOn store (.loading delivery attemptsMade) store next := by
  refine ⟨rfl, ?_, ?_, rfl⟩
  · rw [sameDelivery]
    exact fun _ isDelivery => ⟨isDelivery, fun _ => trivial⟩
  · intro other isUnsent
    have isDelivery := Call.delivery_of_unsent isUnsent
    rw [sameDelivery] at isDelivery
    exact isDelivery

theorem effect_proceed {input : Input}
    (proceeded : proceed providers store input call = some (later, next)) :
    Effect store call later next := by
  cases call with
  | finding data attemptsMade =>
      obtain ⟨rfl, rfl⟩ := Prod.mk.inj (Option.some.inj proceeded)
      cases found : findDelivery store.deliveries data.deliveryId with
      | none => exact .wentOn (.leaves rfl rfl rfl)
      | some row =>
          dsimp only
          split
          · exact .wentOn (.leaves rfl rfl rfl)
          · rename_i isOpen
            rw [not_or] at isOpen
            exact .picked found isOpen.1 isOpen.2
  | loading delivery attemptsMade =>
      obtain ⟨rfl, rfl⟩ := Prod.mk.inj (Option.some.inj proceeded)
      refine .wentOn (wentOn_loading delivery attemptsMade ?_)
      split
      · rfl
      · split <;> rfl
  | rendering delivery notification attemptNo =>
      obtain ⟨rfl, rfl⟩ := Prod.mk.inj (Option.some.inj proceeded)
      exact .began
  | sending delivery notification attemptNo recipient =>
      obtain ⟨rfl, rfl⟩ := Prod.mk.inj (Option.some.inj proceeded)
      exact .wentOn (wentOn_settle delivery notification attemptNo recipient input.result input)
  | recording delivery notification attemptNo providerMessageId deliveredAt latencyMs =>
      obtain ⟨deliveries, marked, same⟩ := Option.map_eq_some_iff.mp proceeded
      obtain ⟨rfl, rfl⟩ := Prod.mk.inj same
      exact .wrote rfl rfl rfl (find_markResult marked) (fun _ => rfl) fun _ => rfl
  | attempting delivery notification attemptNo error =>
      obtain ⟨deliveries, marked, same⟩ := Option.map_eq_some_iff.mp proceeded
      obtain ⟨rfl, rfl⟩ := Prod.mk.inj same
      exact .wrote rfl rfl rfl (find_markAttempt marked) (fun _ => rfl) fun _ => rfl
  | burying delivery error attempts =>
      obtain ⟨deliveries, marked, same⟩ := Option.map_eq_some_iff.mp proceeded
      obtain ⟨rfl, rfl⟩ := Prod.mk.inj same
      exact .wrote rfl rfl rfl (find_markResult marked) (fun _ => rfl) fun _ => rfl
  | reporting delivery error attempts =>
      obtain ⟨rfl, rfl⟩ := Prod.mk.inj (Option.some.inj proceeded)
      exact .wentOn (.leaves rfl rfl rfl)
  | emitting event outcome =>
      obtain ⟨rfl, rfl⟩ := Prod.mk.inj (Option.some.inj proceeded)
      exact .wentOn (.leaves rfl rfl rfl)
  | examining data error =>
      obtain ⟨rfl, rfl⟩ := Prod.mk.inj (Option.some.inj proceeded)
      cases found : findDelivery store.deliveries data.deliveryId with
      | none => exact .wentOn (.leaves rfl rfl rfl)
      | some row =>
          dsimp only
          split
          · exact .wentOn (.leaves rfl rfl rfl)
          · rename_i isOpen
            rw [not_or] at isOpen
            exact .examined found isOpen.2 isOpen.1
  | listing notificationId =>
      obtain ⟨rfl, rfl⟩ := Prod.mk.inj (Option.some.inj proceeded)
      cases listed : findPending store.deliveries notificationId with
      | nil => exact .unneeded listed
      | cons first rest =>
          exact .wentOn (.leaves rfl rfl rfl)
  | cancelling notificationId pending =>
      obtain ⟨rfl, rfl⟩ := Prod.mk.inj (Option.some.inj proceeded)
      exact .cancelled
  | removing notificationId pending =>
      simp only [proceed] at proceeded
      split at proceeded
      · rename_i allRemoved
        obtain ⟨rfl, rfl⟩ := Prod.mk.inj (Option.some.inj proceeded)
        rw [allRemoved]
        exact .removed
      · split at proceeded
        · obtain ⟨rfl, rfl⟩ := Prod.mk.inj (Option.some.inj proceeded)
          exact .wentOn (.leaves rfl rfl rfl)
        · cases proceeded
  | ended outcome => cases proceeded

theorem wentOn_reject {input : Input} {message : JsString}
    (rejected : reject input message call = some next) : WentOn store call store next := by
  cases call with
  | sending delivery notification attemptNo recipient =>
      obtain rfl := Option.some.inj rejected
      exact wentOn_settle delivery notification attemptNo recipient _ input
  | emitting event outcome =>
      cases event <;> obtain rfl := Option.some.inj rejected <;> exact .leaves rfl rfl rfl
  | ended outcome => cases rejected
  | _ =>
      obtain rfl := Option.some.inj rejected
      exact .leaves rfl rfl rfl

/-! The invariant. -/

structure Sound (state : State) : Prop where
  final : TerminalIsFinal state
  underway : ∀ call ∈ state.calls, ∀ delivery ∈ call.delivery,
    ∃ row, state.store.deliveries.find delivery.id = some row ∧
      row.notificationId = delivery.notificationId ∧
      (row.status.isTerminal = true → ¬ call.MayLeave row.status)
  uncancelled : ∀ call ∈ state.calls, ∀ delivery ∈ call.unsent,
    .cancelled delivery.notificationId ∉ state.history

theorem sound_start (store : Store) : Sound (.start store) := by
  refine ⟨⟨?_, List.Pairwise.nil⟩, ?_, ?_⟩ <;> simp [State.start]

/-- What is written to the rows: a status changes only before it is final, and becomes final only
while no call that may leave another is under way. -/
def Rewrites (state : State) (index : Nat) (later : DeliveryTable) : Prop :=
  ∀ id row, state.store.deliveries.find id = some row →
    ∃ after, later.find id = some after ∧ after.notificationId = row.notificationId ∧
      (after.status = row.status ∨ row.status.isTerminal = false ∧
        (after.status.isTerminal = true → state.Alone index id after.status))

variable {state : State} {index : Nat}

theorem rewrites_refl (state : State) (index : Nat) :
    Rewrites state index state.store.deliveries := by
  intro id row found
  exact ⟨row, found, rfl, Or.inl rfl⟩

theorem rewrites_updatePending {notificationId : JsString}
    (alone : ∀ row ∈ state.store.deliveries.rows, row.isPendingOf notificationId = true →
      state.Alone index row.id .cancelled) :
    Rewrites state index (updatePending state.store.deliveries notificationId) := by
  intro id row isRow
  refine ⟨_, by rw [find_updatePending, isRow]; rfl, ?_⟩
  beta_reduce
  split
  · rename_i selected
    have pending : row.status = .pending := by
      simp only [DeliveryRecord.isPendingOf, decide_eq_true_eq] at selected
      exact selected.2
    obtain ⟨member, sameId⟩ := Table.find_eq_some_iff.mp isRow
    refine ⟨rfl, Or.inr ⟨by rw [pending]; rfl, fun _ => ?_⟩⟩
    rw [← sameId]
    exact alone row member selected
  · exact ⟨rfl, Or.inl rfl⟩

theorem alone_of_undisturbed (undisturbed : CallUndisturbed state index call)
    {delivery : DeliveryRecord} {status : DeliveryStatus}
    (writes : call.writes = some (delivery, status)) (isFinal : status.isTerminal = true) :
    state.Alone index delivery.id status := by
  cases call <;> cases writes
  · exact undisturbed
  · cases isFinal
  · exact undisturbed

theorem rewrites_effect (sound : Sound state) (isCall : state.calls[index]? = some call)
    (undisturbed : CallUndisturbed state index call)
    (effect : Effect state.store call later next) : Rewrites state index later.deliveries := by
  cases effect with
  | wentOn wentOn =>
      rw [wentOn.kept]
      exact rewrites_refl state index
  | cancelled => exact rewrites_updatePending undisturbed
  | @wrote _ _ _ delivery status change writes _ _ found toStatus sameNotification =>
      obtain ⟨ofDelivery, mayLeave⟩ := Call.delivery_of_writes writes
      obtain ⟨known, isKnown, _, final⟩ :=
        sound.underway call (List.mem_of_getElem? isCall) delivery ofDelivery
      intro id row isRow
      refine ⟨_, by rw [found, isRow]; rfl, ?_⟩
      split
      · rename_i same
        rw [same] at isRow ⊢
        obtain rfl := Option.some.inj (isKnown.symm.trans isRow)
        rw [toStatus, sameNotification]
        by_cases sameStatus : status = known.status
        · exact ⟨rfl, Or.inl sameStatus⟩
        · refine ⟨rfl, Or.inr ⟨?_, alone_of_undisturbed undisturbed writes⟩⟩
          by_contra isFinal
          exact final (by simpa using isFinal) (mayLeave _ (Ne.symm sameStatus))
      · exact ⟨rfl, Or.inl rfl⟩
  | _ => exact rewrites_refl state index

theorem mem_statusChanges {deliveries after : DeliveryTable} {happening : Happening}
    (member : happening ∈ deliveries.rows.filterMap (statusChange after)) :
    ∃ row later, deliveries.find row.id = some row ∧ after.find row.id = some later ∧
      later.status ≠ row.status ∧ happening = .changed row.id row.status later.status := by
  obtain ⟨row, isRow, isChange⟩ := List.mem_filterMap.mp member
  obtain ⟨later, found, changed⟩ := Option.bind_eq_some_iff.mp isChange
  split at changed
  · cases changed
  · rename_i apart
    exact ⟨row, later, Table.find_key isRow, found, apart, (Option.some.inj changed).symm⟩

/-- A call comes to a delivery by reading its row, and goes on with the delivery that it has. -/
theorem underway_effect (sound : Sound state) (isCall : state.calls[index]? = some call)
    (undisturbed : CallUndisturbed state index call)
    (effect : Effect state.store call later next) {delivery : DeliveryRecord}
    (ofDelivery : delivery ∈ next.delivery) :
    ∃ row, later.deliveries.find delivery.id = some row ∧
      row.notificationId = delivery.notificationId ∧
      (row.status.isTerminal = true → ¬ next.MayLeave row.status) := by
  have underway := sound.underway call (List.mem_of_getElem? isCall)
  cases effect with
  | @picked data attemptsMade row found notCancelled notSent =>
      obtain rfl := Option.some.inj ofDelivery
      obtain ⟨notDead, _⟩ := undisturbed row found
      refine ⟨row, Table.find_key (Table.find_eq_some_iff.mp found).1, rfl, ?_⟩
      cases isStatus : row.status <;> simp_all [DeliveryStatus.isTerminal]
  | @examined data error row found notCancelled notSent =>
      obtain rfl := Option.some.inj ofDelivery
      refine ⟨row, Table.find_key (Table.find_eq_some_iff.mp found).1, rfl, ?_⟩
      cases isStatus : row.status <;> simp_all [DeliveryStatus.isTerminal, Call.MayLeave]
  | began =>
      obtain rfl := Option.some.inj ofDelivery
      exact underway _ rfl
  | wentOn wentOn =>
      obtain ⟨was, leavesAny⟩ := wentOn.delivery delivery ofDelivery
      obtain ⟨row, found, same, final⟩ := underway delivery was
      rw [wentOn.kept]
      exact ⟨row, found, same, fun isFinal => absurd (leavesAny _) (final isFinal)⟩
  | wrote _ left _ _ _ _ =>
      rw [left] at ofDelivery
      cases ofDelivery
  | cancelled => cases ofDelivery
  | unneeded => cases ofDelivery
  | removed => cases ofDelivery

theorem uncancelled_effect (sound : Sound state) (isCall : state.calls[index]? = some call)
    (undisturbed : CallUndisturbed state index call)
    (effect : Effect state.store call later next) {delivery : DeliveryRecord}
    (isUnsent : delivery ∈ next.unsent) : .cancelled delivery.notificationId ∉ state.history := by
  cases effect with
  | @picked data attemptsMade row found notCancelled notSent =>
      obtain rfl := Option.some.inj isUnsent
      obtain ⟨notDead, uncancelled⟩ := undisturbed row found
      apply uncancelled
      cases isStatus : row.status <;> simp_all [DeliveryStatus.isTerminal]
  | wentOn wentOn =>
      exact sound.uncancelled call (List.mem_of_getElem? isCall) delivery
        (wentOn.isUnsent delivery isUnsent)
  | wrote _ left _ _ _ _ =>
      have isDelivery := Call.delivery_of_unsent isUnsent
      rw [left] at isDelivery
      cases isDelivery
  | _ => cases isUnsent

/-- What a step keeps, before what it announces. -/
theorem sound_rows (sound : Sound state) (rewrites : Rewrites state index later.deliveries)
    (underway : ∀ delivery ∈ next.delivery, ∃ row, later.deliveries.find delivery.id = some row ∧
      row.notificationId = delivery.notificationId ∧
      (row.status.isTerminal = true → ¬ next.MayLeave row.status))
    (uncancelled : ∀ delivery ∈ next.unsent,
      .cancelled delivery.notificationId ∉ state.history) :
    Sound { store := later, calls := state.calls.set index next
            history := state.history ++
              state.store.deliveries.rows.filterMap (statusChange later.deliveries) } := by
  refine ⟨⟨?_, ?_⟩, ?_, ?_⟩
  · intro happening member
    rcases List.mem_append.mp member with earlier | isChange
    · exact sound.final.allowed happening earlier
    · obtain ⟨row, after, isRow, isAfter, apart, rfl⟩ := mem_statusChanges isChange
      obtain ⟨same, isSame, _, kept | ⟨wasOpen, _⟩⟩ := rewrites row.id row isRow
      · obtain rfl := Option.some.inj (isSame.symm.trans isAfter)
        exact absurd kept apart
      · exact wasOpen
  · refine List.pairwise_append.mpr ⟨sound.final.ordered, ?_, ?_⟩
    · refine List.pairwise_of_forall_mem_list ?_
      intro first isFirst second isSecond
      obtain ⟨row, after, _, _, _, rfl⟩ := mem_statusChanges isFirst
      trivial
    · intro first _ second isSecond
      obtain ⟨row, after, _, _, _, rfl⟩ := mem_statusChanges isSecond
      cases first <;> trivial
  · intro call member delivery isDelivery
    rcases Processes.mem_set member with rfl | ⟨place, apart, isCall⟩
    · exact underway delivery isDelivery
    · obtain ⟨row, found, sameNotification, final⟩ :=
        sound.underway call (List.mem_of_getElem? isCall) delivery isDelivery
      obtain ⟨after, isAfter, same, kept | ⟨_, alone⟩⟩ := rewrites delivery.id row found
      · exact ⟨after, isAfter, same.trans sameNotification, by rwa [kept]⟩
      · refine ⟨after, isAfter, same.trans sameNotification, fun isFinal => ?_⟩
        exact alone isFinal call
          (List.mem_eraseIdx_iff_getElem?.mpr ⟨place, apart, isCall⟩) delivery isDelivery rfl
  · intro call member delivery isUnsent isCancelled
    have earlier : .cancelled delivery.notificationId ∈ state.history := by
      rcases List.mem_append.mp isCancelled with earlier | isChange
      · exact earlier
      · obtain ⟨row, after, _, _, _, isOther⟩ := mem_statusChanges isChange
        cases isOther
    rcases List.mem_or_eq_of_mem_set member with before | rfl
    · exact sound.uncancelled call before delivery isUnsent earlier
    · exact uncancelled delivery isUnsent earlier

/-- What happens is allowed, and the calls have nothing to send after it. -/
theorem sound_happening (sound : Sound state) {happening : Happening} (allowed : happening.Allowed)
    (ordered : ∀ earlier ∈ state.history, earlier.Precedes happening)
    (allSent : ∀ notificationId, happening = .cancelled notificationId →
      state.AllSent notificationId) :
    Sound { state with history := state.history ++ [happening] } := by
  refine ⟨⟨?_, ?_⟩, sound.underway, ?_⟩
  · intro other member
    rcases List.mem_append.mp member with earlier | isNew
    · exact sound.final.allowed other earlier
    · rw [List.mem_singleton.mp isNew]
      exact allowed
  · refine List.pairwise_append.mpr ⟨sound.final.ordered, List.pairwise_singleton _ _, ?_⟩
    intro first isEarlier second isNew
    rw [List.mem_singleton.mp isNew]
    exact ordered first isEarlier
  · intro call member delivery isUnsent isCancelled
    rcases List.mem_append.mp isCancelled with earlier | isNew
    · exact sound.uncancelled call member delivery isUnsent earlier
    · exact allSent _ (List.mem_singleton.mp isNew).symm call member delivery isUnsent rfl

/-- Neither a status that changes nor an earlier send stands against a send. -/
theorem precedes_sending {deliveryId notificationId : JsString} {status : Option DeliveryStatus}
    {deliveries after : DeliveryTable} {history : List Happening}
    (uncancelled : .cancelled notificationId ∉ history) :
    ∀ earlier ∈ history ++ deliveries.rows.filterMap (statusChange after),
      earlier.Precedes (.sending deliveryId notificationId status) := by
  intro earlier member
  cases earlier with
  | cancelled other =>
      rintro rfl
      rcases List.mem_append.mp member with isEarlier | isChange
      · exact uncancelled isEarlier
      · obtain ⟨row, later, _, _, _, isOther⟩ := mem_statusChanges isChange
        cases isOther
  | _ => trivial

theorem sound_effect (sound : Sound state) (isCall : state.calls[index]? = some call)
    (undisturbed : CallUndisturbed state index call)
    (effect : Effect state.store call later next) :
    Sound { store := later, calls := state.calls.set index next
            history := state.history ++
              state.store.deliveries.rows.filterMap (statusChange later.deliveries) ++
              call.announces later next } := by
  have kept := sound_rows sound (rewrites_effect sound isCall undisturbed effect)
    (fun _ => underway_effect sound isCall undisturbed effect)
    fun _ => uncancelled_effect sound isCall undisturbed effect
  have silent (quiet : call.announces later next = []) :
      Sound { store := later, calls := state.calls.set index next
              history := state.history ++
                state.store.deliveries.rows.filterMap (statusChange later.deliveries) ++
                call.announces later next } := by
    rw [quiet, List.append_nil]
    exact kept
  cases effect with
  | picked => exact silent rfl
  | examined => exact silent rfl
  | wentOn wentOn => exact silent wentOn.quiet
  | wrote _ _ quiet _ _ _ => exact silent quiet
  | cancelled => exact silent rfl
  | @began delivery notification attemptNo =>
      have isMember := List.mem_of_getElem? isCall
      obtain ⟨row, found, _, final⟩ := sound.underway _ isMember delivery rfl
      refine sound_happening kept ?_
        (precedes_sending (sound.uncancelled _ isMember delivery rfl))
        fun _ isOther => by cases isOther
      intro current isCurrent
      rw [found] at isCurrent
      obtain rfl := Option.some.inj isCurrent
      by_contra isFinal
      exact final (by simpa using isFinal) trivial
  | unneeded listed =>
      refine sound_happening kept trivial (fun earlier _ => by cases earlier <;> trivial) ?_
      rintro _ ⟨⟩ other member delivery isUnsent
      rcases List.mem_or_eq_of_mem_set member with before | rfl
      · exact undisturbed listed other before delivery isUnsent
      · cases isUnsent
  | removed =>
      refine sound_happening kept trivial (fun earlier _ => by cases earlier <;> trivial) ?_
      rintro _ ⟨⟩ other member delivery isUnsent
      rcases List.mem_or_eq_of_mem_set member with before | rfl
      · exact undisturbed rfl other before delivery isUnsent
      · cases isUnsent

theorem sound_wentOn (sound : Sound state) (isCall : state.calls[index]? = some call)
    (wentOn : WentOn state.store call state.store next) :
    Sound { store := state.store, calls := state.calls.set index next
            history := state.history ++
              state.store.deliveries.rows.filterMap (statusChange state.store.deliveries) ++
              call.announces state.store next } := by
  have isMember := List.mem_of_getElem? isCall
  rw [wentOn.quiet, List.append_nil]
  refine sound_rows sound (rewrites_refl state index) ?_ ?_
  · intro delivery isDelivery
    obtain ⟨was, leavesAny⟩ := wentOn.delivery delivery isDelivery
    obtain ⟨row, found, same, final⟩ := sound.underway call isMember delivery was
    exact ⟨row, found, same, fun isFinal => absurd (leavesAny _) (final isFinal)⟩
  · intro delivery isUnsent
    exact sound.uncancelled call isMember delivery (wentOn.isUnsent delivery isUnsent)

theorem sound_begin (sound : Sound state) {added : Call} (idle : added.delivery = none) :
    Sound { state with calls := state.calls ++ [added] } := by
  refine ⟨⟨sound.final.allowed, sound.final.ordered⟩, ?_, ?_⟩
  · intro call member delivery isDelivery
    rcases List.mem_append.mp member with before | isNew
    · exact sound.underway call before delivery isDelivery
    · rw [List.mem_singleton.mp isNew, idle] at isDelivery
      cases isDelivery
  · intro call member delivery isUnsent
    rcases List.mem_append.mp member with before | isNew
    · exact sound.uncancelled call before delivery isUnsent
    · have isDelivery := Call.delivery_of_unsent isUnsent
      rw [List.mem_singleton.mp isNew, idle] at isDelivery
      cases isDelivery

theorem sound_step {action : Action} {after : State} (sound : Sound state)
    (undisturbed : Undisturbed state action) (taken : step providers state action = some after) :
    Sound after := by
  cases action with
  | work data attemptsMade =>
      simp only [step] at taken
      split at taken
      · obtain rfl := Option.some.inj taken
        exact sound_begin sound rfl
      · cases taken
  | exhaust data error =>
      obtain rfl := Option.some.inj taken
      exact sound_begin sound rfl
  | cancelPending notificationId =>
      obtain rfl := Option.some.inj taken
      exact sound_begin sound rfl
  | advance index input =>
      obtain ⟨call, isCall, rest⟩ := Option.bind_eq_some_iff.mp taken
      obtain ⟨⟨later, next⟩, proceeds, rfl⟩ := Option.map_eq_some_iff.mp rest
      unfold Call.proceeds at proceeds
      cases failed : input.failure with
      | none =>
          rw [failed] at proceeds
          exact sound_effect sound isCall (undisturbed failed call isCall)
            (effect_proceed proceeds)
      | some message =>
          rw [failed] at proceeds
          obtain ⟨rejected, isRejected, same⟩ := Option.map_eq_some_iff.mp proceeds
          obtain ⟨rfl, rfl⟩ := Prod.mk.inj same
          exact sound_wentOn sound isCall (wentOn_reject isRejected)

theorem terminalIsFinal_of_undisturbed (providers : List NotificationChannel) (store : Store)
    (actions : List Action)
    (undisturbed : Guarded (step providers) Undisturbed (.start store) actions) :
    Always (step providers) TerminalIsFinal (.start store) actions :=
  (always_of_guarded (step providers) (fun _ _ _ => sound_step) (sound_start store)
    undisturbed).mono (step providers) fun _ sound => sound.final

/-! Two deliveries of one notification. -/

def ticketNotification : NotificationRecord :=
  { id := js "n", guildId := some (js "g"), category := .tickets, priority := .normal
    templateKey := js "tickets.opened", dedupeKey := none, createdAt := 0, deletedAt := none }

def ticketDelivery (id : JsString) : DeliveryRecord :=
  { id, notificationId := js "n", channel := .discordDm, status := .pending
    recipientUserId := some (js "u"), recipientRef := some (js "u"), providerMessageId := none
    attempts := 0, lastError := none, scheduledFor := none, deliveredAt := none }

def ticketStore : Store :=
  { notifications := { rows := [ticketNotification], distinct := by decide }
    deliveries :=
      { rows := [ticketDelivery (js "d"), ticketDelivery (js "e")], distinct := by decide }
    jobs := [js "d", js "e"] }

def answered (ok : Bool) : Input :=
  { failure := none, result := { ok, providerMessageId := none, retryable := true, error := none }
    now := 1, latencyMs := 1, deliveryId := js "e", locked := false }

def jobOf (deliveryId : JsString) : DeliveryJobData := { deliveryId, notificationId := js "n" }

def advances (index count : Nat) (ok : Bool) : List Action :=
  List.replicate count (.advance index (answered ok))

/-- Both jobs are run, one of them after `cancelPending`, and the other one twice. -/
def cancelledBetween : List Action :=
  [[.work (jobOf (js "d")) 0], advances 0 6 true, [.cancelPending (js "n")], advances 1 4 true,
    [.work (jobOf (js "d")) 1], advances 2 1 true, [.exhaust (jobOf (js "e")) (js "timeout")],
    advances 3 1 true].flatten

theorem terminalIsFinal_ticket :
    Always (step [.discordDm]) TerminalIsFinal (.start ticketStore) cancelledBetween :=
  terminalIsFinal_of_undisturbed [.discordDm] ticketStore cancelledBetween (by decide +kernel)

/-- A transient failure, a cancellation, and the retry of the queue. -/
def retriedAfterwards : List Action :=
  [[.work (jobOf (js "d")) 0], advances 0 6 false, [.cancelPending (js "n")], advances 1 4 true,
    [.work (jobOf (js "d")) 1], advances 2 3 true].flatten

theorem cancelled_retry_sends :
    ¬ ∀ (providers : List NotificationChannel) (store : Store) (actions : List Action),
      Always (step providers) TerminalIsFinal (.start store) actions := by
  intro all
  have final := all [.discordDm] ticketStore retriedAfterwards
  exact not_always (step [.discordDm])
    (fun state => decide (state.history.Pairwise Happening.Precedes))
    (fun _ final => decide_eq_true final.ordered) (by decide +kernel) final

end Notifications
