import ArmstrongBot.Webhooks.Outbound
import ArmstrongBot.Library.Filtered
import ArmstrongBot.Library.Noninterference
import Mathlib.Data.Fintype.EquivFin

/-! Runs of the fan-out: which guild's subscriptions an event reaches, and what a guild sees of the
others. -/

namespace Webhooks

open JsText JsJson StepMachine Filtered
open Calendar (Timestamp)
open Events (EventEnvelope)

def ofGuild (guild : JsString) (event : EventEnvelope) : Bool := event.guildId = some guild

/-- An event with a guild is enqueued for and sent to subscriptions of that guild only. -/
structure Isolated (state : OutboundState) : Prop where
  enqueued : ∀ entry ∈ state.enqueued, ∀ guild ∈ entry.1.guildId, entry.2.guildId = guild
  sent : ∀ entry ∈ state.sent, ∀ guild ∈ entry.1.guildId, entry.2.1.guildId = guild

instance (state : OutboundState) : Decidable (Isolated state) :=
  decidable_of_iff
    ((∀ entry ∈ state.enqueued, ∀ guild ∈ entry.1.guildId, entry.2.guildId = guild) ∧
      ∀ entry ∈ state.sent, ∀ guild ∈ entry.1.guildId, entry.2.1.guildId = guild)
    ⟨fun both => ⟨both.1, both.2⟩, fun isolated => ⟨isolated.enqueued, isolated.sent⟩⟩

/-- No subscription of another guild matches an event that is fanned out. -/
def MatchesOwn (config : OutboundConfig) (state : OutboundState) : OutboundAction → Prop
  | .dispatch _ event => ∀ guild ∈ event.guildId,
      ∀ subscription ∈ matching config state.subscriptions event, subscription.guildId = guild
  | _ => True

instance (config : OutboundConfig) (state : OutboundState) (action : OutboundAction) :
    Decidable (MatchesOwn config state action) := by
  cases action <;> unfold MatchesOwn <;> infer_instance

/-! What a guild sees: its subscriptions, and what becomes of its events. -/

def SubscriptionTable.ownedBy (table : SubscriptionTable) (guild : JsString) : SubscriptionTable :=
  { rows := table.rows.filter fun row => row.guildId = guild
    distinct := table.distinct.sublist (List.filter_sublist.map Subscription.id) }

def guildView (guild : JsString) (state : OutboundState) : OutboundState :=
  { subscriptions := state.subscriptions.ownedBy guild
    dispatches := state.dispatches.filter fun dispatch => ofGuild guild dispatch.event
    outgoing := state.outgoing.filter fun outgoing => ofGuild guild outgoing.event
    enqueued := state.enqueued.filter fun entry => ofGuild guild entry.1
    sent := state.sent.filter fun entry => ofGuild guild entry.1 }

/-- The actions that concern a guild: on its subscriptions, and steps of its events. -/
def concerns (guild : JsString) (state : OutboundState) : OutboundAction → Bool
  | .create _ input => input.guildId = guild
  | .remove guildId _ _ => guildId = guild
  | .dispatch _ event => ofGuild guild event
  | .fanOut key _ => state.dispatches.any fun dispatch =>
      dispatch.key = key && ofGuild guild dispatch.event
  | .runJob id _ _ => state.outgoing.any fun outgoing =>
      outgoing.delivery.id = id && ofGuild guild outgoing.event

/-! The table seen by a guild. -/

theorem row_eq {table : SubscriptionTable} {first second : Subscription}
    (firstMember : first ∈ table.rows) (secondMember : second ∈ table.rows)
    (same : first.id = second.id) : first = second :=
  eq_of_key table.distinct firstMember secondMember same

theorem findById_some {table : SubscriptionTable} {id : JsString} {row : Subscription}
    (found : table.findById id = some row) : row ∈ table.rows ∧ row.id = id := by
  refine ⟨List.mem_of_find?_eq_some found, ?_⟩
  have selected := List.find?_some found
  simp only [decide_eq_true_eq] at selected
  exact selected.1

/-- A row of the guild is found in its view, and so is the lack of one. -/
theorem findById_ownedBy {table : SubscriptionTable} {guild id : JsString} {row : Subscription}
    (member : row ∈ table.rows) (isId : row.id = id) (ofGuild : row.guildId = guild) :
    (table.ownedBy guild).findById id = table.findById id := by
  apply find?_filter_of_kept
  intro other otherMember isFound
  simp only [decide_eq_true_eq] at isFound ⊢
  rw [row_eq otherMember member (isFound.1.trans isId.symm), ofGuild]

/-- Rows stay, with their id and their guild. -/
def Persists (table next : SubscriptionTable) : Prop :=
  ∀ row ∈ table.rows, ∃ later ∈ next.rows, later.id = row.id ∧ later.guildId = row.guildId

theorem create_rows {table next : SubscriptionTable} {id : JsString} {input : CreateSubscription}
    (created : table.create id input = some next) :
    id ∉ table.rows.map Subscription.id ∧ next.rows = table.rows ++ [input.row id] := by
  unfold SubscriptionTable.create at created
  split at created
  · rename_i fresh
    rw [← Option.some.inj created]
    exact ⟨fresh, rfl⟩
  · simp at created

theorem persists_create {table next : SubscriptionTable} {id : JsString}
    {input : CreateSubscription} (created : table.create id input = some next) :
    Persists table next := by
  intro row member
  refine ⟨row, ?_, rfl, rfl⟩
  rw [(create_rows created).2]
  exact List.mem_append_left _ member

theorem persists_softDelete (table : SubscriptionTable) (id : JsString) (now : Timestamp) :
    Persists table (table.softDelete id now) := by
  intro row member
  refine ⟨_, List.mem_map_of_mem member, ?_⟩
  split <;> exact ⟨rfl, rfl⟩

/-! The invariant: whatever is under way for an event with a guild is under way to its own
subscriptions. -/

structure Own (state : OutboundState) : Prop where
  keys : (state.dispatches.map Dispatch.key).Nodup
  ids : (state.outgoing.map fun outgoing => outgoing.delivery.id).Nodup
  remaining : ∀ dispatch ∈ state.dispatches, ∀ guild ∈ dispatch.event.guildId,
    ∀ subscription ∈ dispatch.remaining, subscription.guildId = guild ∧
      ∃ row ∈ state.subscriptions.rows, row.id = subscription.id ∧ row.guildId = guild
  outgoing : ∀ outgoing ∈ state.outgoing, ∀ guild ∈ outgoing.event.guildId,
    ∃ row ∈ state.subscriptions.rows,
      row.id = outgoing.delivery.subscriptionId ∧ row.guildId = guild
  isolated : Isolated state

theorem own_start (table : SubscriptionTable) : Own (.start table) := by
  refine ⟨List.nodup_nil, List.nodup_nil, ?_, ?_, ⟨?_, ?_⟩⟩ <;> simp [OutboundState.start]

variable {services : OutboundServices} {config : OutboundConfig}

theorem own_subscriptions {state : OutboundState} (own : Own state) {table : SubscriptionTable}
    (persists : Persists state.subscriptions table) :
    Own { state with subscriptions := table } := by
  have moved {id guild : JsString}
      (stored : ∃ row ∈ state.subscriptions.rows, row.id = id ∧ row.guildId = guild) :
      ∃ row ∈ table.rows, row.id = id ∧ row.guildId = guild := by
    obtain ⟨row, member, sameId, sameGuild⟩ := stored
    obtain ⟨later, laterMember, laterId, laterGuild⟩ := persists row member
    exact ⟨later, laterMember, laterId.trans sameId, laterGuild.trans sameGuild⟩
  refine { own with remaining := ?_, outgoing := ?_, isolated := ⟨own.isolated.enqueued,
    own.isolated.sent⟩ }
  · intro dispatch member guild isGuild subscription remains
    obtain ⟨sameGuild, stored⟩ := own.remaining dispatch member guild isGuild subscription remains
    exact ⟨sameGuild, moved stored⟩
  · intro outgoing member guild isGuild
    exact moved (own.outgoing outgoing member guild isGuild)

theorem mem_matching {table : SubscriptionTable} {event : EventEnvelope}
    {subscription : Subscription} (member : subscription ∈ matching config table event) :
    subscription ∈ table.rows := by
  unfold matching at member
  split at member
  · exact List.mem_of_mem_filter (List.mem_of_mem_filter member)
  · simp at member

theorem own_dispatch {state next : OutboundState} {key : Nat} {event : EventEnvelope}
    (own : Own state) (met : MatchesOwn config state (.dispatch key event))
    (taken : dispatchForEvent config state key event = some next) : Own next := by
  obtain ⟨fresh, isNext⟩ := Option.ite_none_left_eq_some.mp taken
  obtain rfl := Option.some.inj isNext
  refine { own with keys := ?_, remaining := ?_, isolated := ⟨own.isolated.enqueued,
    own.isolated.sent⟩ }
  · rw [List.map_append, List.map_singleton]
    exact List.nodup_append.mpr ⟨own.keys, List.nodup_singleton _, by
      rintro known member other isNew rfl
      rw [List.mem_singleton.mp isNew] at member
      exact fresh member⟩
  · intro dispatch member guild isGuild subscription remains
    rcases List.mem_append.mp member with earlier | newest
    · exact own.remaining dispatch earlier guild isGuild subscription remains
    · obtain rfl := List.mem_singleton.mp newest
      have sameGuild := met guild isGuild subscription remains
      exact ⟨sameGuild, subscription, mem_matching remains, rfl, sameGuild⟩

theorem keys_leave (dispatches : List Dispatch) (key : Nat) (remaining : List Subscription) :
    (leave dispatches key remaining).map Dispatch.key = dispatches.map Dispatch.key := by
  rw [leave, List.map_map]
  apply List.map_congr_left
  intro dispatch _
  simp only [Function.comp_apply]
  split <;> rfl

theorem mem_leave {dispatches : List Dispatch} {key : Nat} {remaining : List Subscription}
    {dispatch : Dispatch} (member : dispatch ∈ leave dispatches key remaining) :
    ∃ before ∈ dispatches, dispatch.event = before.event ∧
      (dispatch = before ∨ before.key = key ∧ dispatch.remaining = remaining) := by
  obtain ⟨before, beforeMember, rfl⟩ := List.mem_map.mp member
  refine ⟨before, beforeMember, ?_⟩
  split
  · rename_i isKey
    exact ⟨rfl, Or.inr ⟨isKey, rfl⟩⟩
  · exact ⟨rfl, Or.inl rfl⟩

theorem own_leave {state : OutboundState} (own : Own state) {key : Nat} {dispatch : Dispatch}
    (found : (state.dispatches.find? fun other => other.key = key) = some dispatch)
    {remaining : List Subscription} (part : remaining ⊆ dispatch.remaining) :
    Own { state with dispatches := leave state.dispatches key remaining } := by
  have isKey : dispatch.key = key := by simpa using List.find?_some found
  refine { own with keys := ?_, remaining := ?_, isolated := ⟨own.isolated.enqueued,
    own.isolated.sent⟩ }
  · simpa only [keys_leave] using own.keys
  · intro other member guild isGuild subscription remains
    obtain ⟨before, beforeMember, sameEvent, same | ⟨sameKey, isRemaining⟩⟩ := mem_leave member
    · rw [same] at isGuild remains
      exact own.remaining before beforeMember guild isGuild subscription remains
    · obtain rfl : before = dispatch :=
        eq_of_key own.keys beforeMember (List.mem_of_find?_eq_some found) (sameKey.trans isKey.symm)
      rw [isRemaining] at remains
      rw [sameEvent] at isGuild
      exact own.remaining before beforeMember guild isGuild subscription (part remains)

theorem own_fanOut {state next : OutboundState} {key : Nat} {input : FanOut} (own : Own state)
    (taken : fanOut state key input = some next) : Own next := by
  unfold fanOut at taken
  split at taken
  · rename_i event subscription rest found
    have member := List.mem_of_find?_eq_some found
    split at taken
    · obtain ⟨fresh, isNext⟩ := Option.ite_none_left_eq_some.mp taken
      obtain rfl := Option.some.inj isNext
      have part : (if input.enqueues then rest else []) ⊆ subscription :: rest := by
        split
        · exact List.subset_cons_self _ _
        · exact List.nil_subset _
      have left := own_leave own found part
      refine { left with ids := ?_, outgoing := ?_, isolated := ⟨?_, own.isolated.sent⟩ }
      · rw [List.map_append, List.map_singleton]
        exact List.nodup_append.mpr ⟨own.ids, List.nodup_singleton _, by
          rintro known knownMember other isNew rfl
          rw [List.mem_singleton.mp isNew] at knownMember
          exact fresh knownMember⟩
      · intro outgoing outgoingMember guild isGuild
        rcases List.mem_append.mp outgoingMember with earlier | newest
        · exact own.outgoing outgoing earlier guild isGuild
        · obtain rfl := List.mem_singleton.mp newest
          exact (own.remaining _ member guild isGuild subscription List.mem_cons_self).2
      · intro entry entryMember guild isGuild
        rcases List.mem_append.mp entryMember with earlier | newest
        · exact own.isolated.enqueued entry earlier guild isGuild
        · split at newest
          · obtain rfl := List.mem_singleton.mp newest
            exact (own.remaining _ member guild isGuild subscription List.mem_cons_self).1
          · simp at newest
    · obtain rfl := Option.some.inj taken
      exact own_leave own found (List.nil_subset _)
  · simp at taken

theorem mem_settle {outgoing : List Outgoing} {id : JsString} {change : Outgoing → Outgoing}
    {later : Outgoing} (member : later ∈ settle outgoing id change) :
    ∃ before ∈ outgoing, later = before ∨ later = change before := by
  obtain ⟨before, beforeMember, rfl⟩ := List.mem_map.mp member
  refine ⟨before, beforeMember, ?_⟩
  split
  · exact Or.inr rfl
  · exact Or.inl rfl

/-- A run of `deliver` leaves alone what a delivery is about. -/
theorem after_same (config : OutboundConfig) (outgoing : Outgoing) (attemptsMade : Nat)
    (delivering : Delivering) (recorded exhausts : Bool) :
    let later := outgoing.after config attemptsMade delivering recorded exhausts
    later.event = outgoing.event ∧ later.delivery.id = outgoing.delivery.id ∧
      later.delivery.subscriptionId = outgoing.delivery.subscriptionId := by
  have updated : ∀ update : Option OutboundUpdate,
      (update.elim outgoing.delivery fun update => update.apply outgoing.delivery).id =
        outgoing.delivery.id ∧
      (update.elim outgoing.delivery fun update => update.apply outgoing.delivery).subscriptionId =
        outgoing.delivery.subscriptionId := by
    intro update
    cases update <;> exact ⟨rfl, rfl⟩
  have exhausted : ∀ delivery : OutboundDelivery, (onExhausted delivery).id = delivery.id ∧
      (onExhausted delivery).subscriptionId = delivery.subscriptionId := by
    intro delivery
    unfold onExhausted
    split <;> exact ⟨rfl, rfl⟩
  refine ⟨rfl, ?_⟩
  simp only [Outgoing.after]
  split
  · exact ⟨(exhausted _).1.trans (updated _).1, (exhausted _).2.trans (updated _).2⟩
  · exact updated _

theorem own_runJob {state next : OutboundState} {id : JsString} {input : Attempt}
    {exhausts : Bool} (own : Own state)
    (taken : runJob services config state id input exhausts = some next) : Own next := by
  unfold runJob at taken
  split at taken
  · rename_i event delivery attemptsMade found
    obtain rfl := Option.some.inj taken
    refine { own with ids := ?_, outgoing := ?_, isolated := ⟨own.isolated.enqueued, ?_⟩ }
    · have sameIds : (settle state.outgoing id fun outgoing => outgoing.after config attemptsMade
          (deliver services delivery (state.subscriptions.findById delivery.subscriptionId) input)
          input.recorded exhausts).map (fun outgoing => outgoing.delivery.id) =
            state.outgoing.map fun outgoing => outgoing.delivery.id := by
        rw [settle, List.map_map]
        apply List.map_congr_left
        intro outgoing _
        simp only [Function.comp_apply]
        split
        · exact (after_same config outgoing attemptsMade _ input.recorded exhausts).2.1
        · rfl
      rw [sameIds]
      exact own.ids
    · intro later member guild isGuild
      obtain ⟨before, beforeMember, rfl | rfl⟩ := mem_settle member
      · exact own.outgoing later beforeMember guild isGuild
      · have same := after_same config before attemptsMade
          (deliver services delivery (state.subscriptions.findById delivery.subscriptionId) input)
          input.recorded exhausts
        rw [same.2.2]
        rw [same.1] at isGuild
        exact own.outgoing before beforeMember guild isGuild
    · intro entry member guild isGuild
      rcases List.mem_append.mp member with earlier | newest
      · exact own.isolated.sent entry earlier guild isGuild
      · obtain ⟨subscription, isFound, isEntry⟩ :=
          Option.bind_eq_some_iff.mp (Option.mem_toList.mp newest)
        obtain ⟨post, _, rfl⟩ := Option.map_eq_some_iff.mp isEntry
        obtain ⟨subscriptionMember, sameId⟩ := findById_some isFound
        obtain ⟨row, rowMember, rowId, rowGuild⟩ :=
          own.outgoing _ (List.mem_of_find?_eq_some found) guild isGuild
        rw [row_eq subscriptionMember rowMember (sameId.trans rowId.symm)]
        exact rowGuild
  · simp at taken

theorem own_step {state next : OutboundState} {action : OutboundAction} (own : Own state)
    (met : MatchesOwn config state action)
    (taken : outboundStep services config state action = some next) : Own next := by
  cases action with
  | create id input =>
      simp only [outboundStep, createSubscription] at taken
      split at taken
      · obtain ⟨table, created, rfl⟩ := Option.map_eq_some_iff.mp taken
        exact own_subscriptions own (persists_create created)
      · rw [← Option.some.inj taken]
        exact own
  | remove guildId id now =>
      obtain rfl := Option.some.inj taken
      unfold removeSubscription
      split
      · split
        · exact own_subscriptions own (persists_softDelete _ _ _)
        · exact own
      · exact own
  | dispatch key event => exact own_dispatch own met taken
  | fanOut key input => exact own_fanOut own taken
  | runJob id input exhausts => exact own_runJob own taken

/-! Each step in the view of a guild. -/

variable {guild : JsString}

theorem create_ownedBy {table next : SubscriptionTable} {id : JsString} {input : CreateSubscription}
    (created : table.create id input = some next) (isGuild : input.guildId = guild) :
    (table.ownedBy guild).create id input = some (next.ownedBy guild) := by
  obtain ⟨fresh, rows⟩ := create_rows created
  have freshInView : id ∉ (table.ownedBy guild).rows.map Subscription.id := by
    intro member
    exact fresh ((List.filter_sublist.map Subscription.id).subset member)
  rw [SubscriptionTable.create, dif_pos freshInView]
  congr 1
  apply SubscriptionTable.ext
  simp [SubscriptionTable.ownedBy, rows, CreateSubscription.row, isGuild]

theorem create_notOwned {table next : SubscriptionTable} {id : JsString} {input : CreateSubscription}
    (created : table.create id input = some next) (isOther : input.guildId ≠ guild) :
    next.ownedBy guild = table.ownedBy guild := by
  apply SubscriptionTable.ext
  simp [SubscriptionTable.ownedBy, (create_rows created).2, CreateSubscription.row, isOther]

theorem softDelete_ownedBy (table : SubscriptionTable) (id : JsString) (now : Timestamp) :
    (table.ownedBy guild).softDelete id now = (table.softDelete id now).ownedBy guild := by
  apply SubscriptionTable.ext
  apply Eq.symm
  apply filter_map_of_kept
  intro row
  split <;> rfl

theorem softDelete_notOwned {table : SubscriptionTable} {id : JsString} {row : Subscription}
    (found : table.findById id = some row) (isOther : row.guildId ≠ guild) (now : Timestamp) :
    (table.softDelete id now).ownedBy guild = table.ownedBy guild := by
  obtain ⟨member, isId⟩ := findById_some found
  apply SubscriptionTable.ext
  apply filter_map_of_dropped
  · intro other otherMember ofGuild
    apply if_neg
    rintro ⟨sameId, _⟩
    rw [row_eq otherMember member (sameId.trans isId.symm)] at ofGuild
    exact isOther (by simpa using ofGuild)
  · intro other _ notOfGuild
    split <;> exact notOfGuild

theorem remove_ownedBy (state : OutboundState) (id : JsString) (now : Timestamp) :
    removeSubscription (guildView guild state) guild id now =
      guildView guild (removeSubscription state guild id now) := by
  unfold removeSubscription
  cases found : state.subscriptions.findById id with
  | some row =>
      obtain ⟨member, isId⟩ := findById_some found
      by_cases isGuild : row.guildId = guild
      · have inView := findById_ownedBy member isId isGuild
        simp only [guildView, inView, found, isGuild, if_true, softDelete_ownedBy]
      · have notInView : (state.subscriptions.ownedBy guild).findById id = none := by
          apply List.find?_eq_none.mpr
          intro other otherMember selected
          obtain ⟨inTable, ofGuild⟩ := List.mem_filter.mp otherMember
          simp only [decide_eq_true_eq] at selected ofGuild
          rw [row_eq inTable member (selected.1.trans isId.symm)] at ofGuild
          exact isGuild ofGuild
        simp only [guildView, notInView, isGuild, if_false]
  | none =>
      have notInView : (state.subscriptions.ownedBy guild).findById id = none := by
        apply List.find?_eq_none.mpr
        intro other otherMember
        exact List.find?_eq_none.mp found other (List.mem_of_mem_filter otherMember)
      simp only [guildView, notInView]

theorem remove_notOwned (state : OutboundState) {guildId : JsString} (isOther : guildId ≠ guild)
    (id : JsString) (now : Timestamp) :
    guildView guild (removeSubscription state guildId id now) = guildView guild state := by
  unfold removeSubscription
  cases found : state.subscriptions.findById id with
  | some row =>
      by_cases isOwner : row.guildId = guildId
      · have apart : row.guildId ≠ guild := by
          rw [isOwner]
          exact isOther
        simp only [isOwner, if_true, guildView, softDelete_notOwned found apart]
      · simp only [isOwner, if_false]
  | none => rfl

theorem matching_ownedBy {table : SubscriptionTable} {event : EventEnvelope}
    (own : ∀ subscription ∈ matching config table event, subscription.guildId = guild) :
    matching config (table.ownedBy guild) event = matching config table event := by
  unfold matching at own ⊢
  split
  · rename_i allowed
    rw [if_pos allowed] at own
    simp only [SubscriptionTable.findEnabledForEvent, List.filter_filter] at own ⊢
    apply filter_filter_of_kept
    intro row member
    simpa using own row member
  · rfl

theorem leave_ofGuild (dispatches : List Dispatch) (key : Nat) (remaining : List Subscription) :
    (leave dispatches key remaining).filter (fun dispatch => ofGuild guild dispatch.event) =
      leave (dispatches.filter fun dispatch => ofGuild guild dispatch.event) key remaining := by
  apply filter_map_of_kept
  intro dispatch
  split <;> rfl

theorem leave_notOfGuild {dispatches : List Dispatch} {key : Nat}
    (others : ∀ dispatch ∈ dispatches, dispatch.key = key → ofGuild guild dispatch.event = false)
    (remaining : List Subscription) :
    (leave dispatches key remaining).filter (fun dispatch => ofGuild guild dispatch.event) =
      dispatches.filter fun dispatch => ofGuild guild dispatch.event := by
  apply filter_map_of_dropped
  · intro dispatch member isOfGuild
    apply if_neg
    intro isKey
    rw [others dispatch member isKey] at isOfGuild
    cases isOfGuild
  · intro dispatch _ notOfGuild
    split <;> exact notOfGuild

theorem settle_ofGuild {outgoing : List Outgoing} {id : JsString} {change : Outgoing → Outgoing}
    (sameEvent : ∀ other, (change other).event = other.event) :
    (settle outgoing id change).filter (fun other => ofGuild guild other.event) =
      settle (outgoing.filter fun other => ofGuild guild other.event) id change := by
  apply filter_map_of_kept
  intro other
  split
  · rw [sameEvent]
  · rfl

theorem settle_notOfGuild {outgoing : List Outgoing} {id : JsString} {change : Outgoing → Outgoing}
    (sameEvent : ∀ other, (change other).event = other.event)
    (others : ∀ other ∈ outgoing, other.delivery.id = id → ofGuild guild other.event = false) :
    (settle outgoing id change).filter (fun other => ofGuild guild other.event) =
      outgoing.filter fun other => ofGuild guild other.event := by
  apply filter_map_of_dropped
  · intro other member isOfGuild
    apply if_neg
    intro isId
    rw [others other member isId] at isOfGuild
    cases isOfGuild
  · intro other _ notOfGuild
    split
    · rw [sameEvent]
      exact notOfGuild
    · exact notOfGuild

theorem after_ofGuild (outgoing : List Outgoing) (id : JsString) (attemptsMade : Nat)
    (delivering : Delivering) (recorded exhausts : Bool) :
    (settle outgoing id fun other =>
        other.after config attemptsMade delivering recorded exhausts).filter
      (fun other => ofGuild guild other.event) =
    settle (outgoing.filter fun other => ofGuild guild other.event) id fun other =>
      other.after config attemptsMade delivering recorded exhausts :=
  settle_ofGuild fun other => (after_same config other attemptsMade delivering recorded exhausts).1

theorem sent_event {found : Option Subscription} {post : Option Post} {event : EventEnvelope}
    {entry : EventEnvelope × Subscription × Post}
    (member : entry ∈ (found.bind fun subscription =>
      post.map fun post => (event, subscription, post)).toList) : entry.1 = event := by
  obtain ⟨subscription, _, isEntry⟩ := Option.bind_eq_some_iff.mp (Option.mem_toList.mp member)
  obtain ⟨sent, _, rfl⟩ := Option.map_eq_some_iff.mp isEntry
  rfl

theorem dispatch_ownedBy {state next : OutboundState} {key : Nat} {event : EventEnvelope}
    (met : MatchesOwn config state (.dispatch key event)) (isOfGuild : ofGuild guild event = true)
    (taken : dispatchForEvent config state key event = some next) :
    dispatchForEvent config (guildView guild state) key event = some (guildView guild next) := by
  obtain ⟨fresh, isNext⟩ := Option.ite_none_left_eq_some.mp taken
  obtain rfl := Option.some.inj isNext
  have freshInView : key ∉ (guildView guild state).dispatches.map Dispatch.key := by
    intro member
    exact fresh ((List.filter_sublist.map Dispatch.key).subset member)
  have sameMatching : matching config (guildView guild state).subscriptions event =
      matching config state.subscriptions event :=
    matching_ownedBy (met guild (by simpa [ofGuild] using isOfGuild))
  rw [dispatchForEvent, if_neg freshInView, sameMatching]
  simp [guildView, isOfGuild]

theorem fanOut_ownedBy {state next : OutboundState} {key : Nat} {input : FanOut} (own : Own state)
    (isOwned : concerns guild state (.fanOut key input) = true)
    (taken : fanOut state key input = some next) :
    fanOut (guildView guild state) key input = some (guildView guild next) := by
  obtain ⟨owner, ownerMember, isOwner⟩ := List.any_eq_true.mp isOwned
  obtain ⟨ownerKey, ownerGuild⟩ : owner.key = key ∧ ofGuild guild owner.event = true := by
    simpa using isOwner
  have inView : ((guildView guild state).dispatches.find? fun dispatch => dispatch.key = key) =
      state.dispatches.find? fun dispatch => dispatch.key = key := by
    apply find?_filter_of_kept
    intro other member isKey
    rw [eq_of_key own.keys member ownerMember ((of_decide_eq_true isKey).trans ownerKey.symm)]
    exact ownerGuild
  unfold fanOut at taken ⊢
  rw [inView]
  split at taken
  · rename_i foundKey event subscription rest found
    have isKey : foundKey = key := by simpa using List.find?_some found
    have isOwnerFound : owner = { key := foundKey, event, remaining := subscription :: rest } :=
      eq_of_key own.keys ownerMember (List.mem_of_find?_eq_some found) (ownerKey.trans isKey.symm)
    have isOfGuild : ofGuild guild event = true := by
      rw [isOwnerFound] at ownerGuild
      exact ownerGuild
    cases creates : input.creates with
    | true =>
        simp only [creates, if_true] at taken
        obtain ⟨fresh, isNext⟩ := Option.ite_none_left_eq_some.mp taken
        obtain rfl := Option.some.inj isNext
        have freshInView :
            input.id ∉ (guildView guild state).outgoing.map fun other => other.delivery.id := by
          intro member
          exact fresh ((List.filter_sublist.map fun other : Outgoing => other.delivery.id).subset
            member)
        simp only [if_true, freshInView, if_false]
        cases enqueues : input.enqueues <;>
          simp [guildView, leave_ofGuild, isOfGuild]
    | false =>
        simp only [creates, Bool.false_eq_true, if_false] at taken
        obtain rfl := Option.some.inj taken
        simp [guildView, leave_ofGuild]
  · simp at taken

theorem fanOut_notOwned {state next : OutboundState} {key : Nat} {input : FanOut}
    (notOwned : concerns guild state (.fanOut key input) = false)
    (taken : fanOut state key input = some next) : guildView guild next = guildView guild state := by
  have others : ∀ dispatch ∈ state.dispatches, dispatch.key = key →
      ofGuild guild dispatch.event = false := by
    intro dispatch member isKey
    have unowned := List.any_eq_false.mp notOwned dispatch member
    simpa [isKey] using unowned
  unfold fanOut at taken
  split at taken
  · rename_i foundKey event subscription rest found
    have notOfGuild : ofGuild guild event = false :=
      others _ (List.mem_of_find?_eq_some found) (by simpa using List.find?_some found)
    split at taken
    · obtain ⟨_, isNext⟩ := Option.ite_none_left_eq_some.mp taken
      obtain rfl := Option.some.inj isNext
      cases enqueues : input.enqueues <;>
        simp [guildView, leave_notOfGuild others, notOfGuild]
    · obtain rfl := Option.some.inj taken
      simp [guildView, leave_notOfGuild others]
  · simp at taken

theorem runJob_ownedBy {state next : OutboundState} {id : JsString} {input : Attempt}
    {exhausts : Bool} (own : Own state)
    (isOwned : concerns guild state (.runJob id input exhausts) = true)
    (taken : runJob services config state id input exhausts = some next) :
    runJob services config (guildView guild state) id input exhausts =
      some (guildView guild next) := by
  obtain ⟨owner, ownerMember, isOwner⟩ := List.any_eq_true.mp isOwned
  obtain ⟨ownerId, ownerGuild⟩ : owner.delivery.id = id ∧ ofGuild guild owner.event = true := by
    simpa using isOwner
  have inView : ((guildView guild state).outgoing.find? fun other => other.delivery.id = id) =
      state.outgoing.find? fun other => other.delivery.id = id := by
    apply find?_filter_of_kept
    intro other member isId
    rw [eq_of_key own.ids member ownerMember ((of_decide_eq_true isId).trans ownerId.symm)]
    exact ownerGuild
  unfold runJob at taken ⊢
  rw [inView]
  split at taken
  · rename_i event delivery attemptsMade found
    have isId : delivery.id = id := by simpa using List.find?_some found
    have isOwnerFound : owner = { event, delivery, job := some attemptsMade } :=
      eq_of_key own.ids ownerMember (List.mem_of_find?_eq_some found) (ownerId.trans isId.symm)
    have isOfGuild : ofGuild guild event = true := by
      rw [isOwnerFound] at ownerGuild
      exact ownerGuild
    obtain ⟨row, rowMember, rowId, rowGuild⟩ :=
      own.outgoing _ (List.mem_of_find?_eq_some found) guild (by simpa [ofGuild] using isOfGuild)
    have sameFound : (guildView guild state).subscriptions.findById delivery.subscriptionId =
        state.subscriptions.findById delivery.subscriptionId :=
      findById_ownedBy rowMember rowId rowGuild
    obtain rfl := Option.some.inj taken
    simp only [sameFound]
    simp only [guildView, after_ofGuild, List.filter_append]
    congr 3
    apply Eq.symm
    apply List.filter_eq_self.mpr
    intro entry member
    rw [sent_event member]
    exact isOfGuild
  · simp at taken

theorem runJob_notOwned {state next : OutboundState} {id : JsString} {input : Attempt}
    {exhausts : Bool} (notOwned : concerns guild state (.runJob id input exhausts) = false)
    (taken : runJob services config state id input exhausts = some next) :
    guildView guild next = guildView guild state := by
  have others : ∀ other ∈ state.outgoing, other.delivery.id = id →
      ofGuild guild other.event = false := by
    intro other member isId
    have unowned := List.any_eq_false.mp notOwned other member
    simpa [isId] using unowned
  unfold runJob at taken
  split at taken
  · rename_i event delivery attemptsMade found
    have notOfGuild : ofGuild guild event = false :=
      others _ (List.mem_of_find?_eq_some found) (by simpa using List.find?_some found)
    obtain rfl := Option.some.inj taken
    simp only [guildView, List.filter_append]
    rw [settle_notOfGuild (fun other => (after_same config other attemptsMade _ _ _).1) others]
    congr 1
    apply List.append_right_eq_self.mpr
    apply List.filter_eq_nil_iff.mpr
    intro entry member
    rw [sent_event member, notOfGuild]
    exact Bool.false_ne_true
  · simp at taken

theorem view_unseen {state next : OutboundState} {action : OutboundAction}
    (notOwned : concerns guild state action = false)
    (taken : outboundStep services config state action = some next) :
    guildView guild next = guildView guild state := by
  cases action with
  | create id input =>
      simp only [outboundStep, createSubscription] at taken
      split at taken
      · obtain ⟨table, created, rfl⟩ := Option.map_eq_some_iff.mp taken
        simp only [guildView, create_notOwned created (by simpa [concerns] using notOwned)]
      · rw [← Option.some.inj taken]
  | remove guildId id now =>
      obtain rfl := Option.some.inj taken
      exact remove_notOwned state (by simpa [concerns] using notOwned) id now
  | dispatch key event =>
      have notOfGuild : ofGuild guild event = false := notOwned
      obtain ⟨_, isNext⟩ := Option.ite_none_left_eq_some.mp taken
      obtain rfl := Option.some.inj isNext
      simp [guildView, notOfGuild]
  | fanOut key input => exact fanOut_notOwned notOwned taken
  | runJob id input exhausts => exact runJob_notOwned notOwned taken

theorem view_consistent {state next : OutboundState} {action : OutboundAction} (own : Own state)
    (met : MatchesOwn config state action) (isOwned : concerns guild state action = true)
    (taken : outboundStep services config state action = some next) :
    outboundStep services config (guildView guild state) action = some (guildView guild next) := by
  cases action with
  | create id input =>
      simp only [outboundStep, createSubscription] at taken ⊢
      split at taken
      · rename_i allowed
        obtain ⟨table, created, rfl⟩ := Option.map_eq_some_iff.mp taken
        have isGuild : input.guildId = guild := by simpa [concerns] using isOwned
        have inView := create_ownedBy created isGuild
        rw [if_pos allowed]
        simp only [guildView, inView, Option.map_some]
      · rename_i refused
        rw [if_neg refused, ← Option.some.inj taken]
  | remove guildId id now =>
      obtain rfl : guildId = guild := by simpa [concerns] using isOwned
      obtain rfl := Option.some.inj taken
      exact congrArg some (remove_ownedBy state id now)
  | dispatch key event => exact dispatch_ownedBy met isOwned taken
  | fanOut key input => exact fanOut_ownedBy own isOwned taken
  | runJob id input exhausts => exact runJob_ownedBy own isOwned taken

/-! A fan-out that has come upon a subscription of another guild gets to it. -/

theorem find?_leave {dispatches : List Dispatch} {key : Nat} {dispatch : Dispatch}
    (found : (dispatches.find? fun other => other.key = key) = some dispatch)
    (remaining : List Subscription) :
    ((leave dispatches key remaining).find? fun other => other.key = key) =
      some { dispatch with remaining } := by
  induction dispatches with
  | nil => simp at found
  | cons first rest ih =>
      by_cases isKey : first.key = key
      · obtain rfl : first = dispatch := by simpa [isKey] using found
        simp [leave, isKey]
      · have later := ih (by simpa [isKey] using found)
        simpa [leave, isKey] using later

theorem fanOut_foreign {guildId : JsString} {key : Nat} {event : EventEnvelope}
    (isGuild : event.guildId = some guildId) {remaining : List Subscription}
    {foreign : Subscription} (isOther : foreign.guildId ≠ guildId) (remains : foreign ∈ remaining)
    {state : OutboundState} (found : (state.dispatches.find? fun other => other.key = key) =
      some { key, event, remaining }) :
    ∃ later, ¬ Always (outboundStep services config) Isolated state later := by
  induction remaining generalizing state with
  | nil => simp at remains
  | cons subscription rest ih =>
      obtain ⟨id, fresh⟩ := Infinite.exists_notMem_finset
        (state.outgoing.map fun outgoing => outgoing.delivery.id).toFinset
      rw [List.mem_toFinset] at fresh
      let action : OutboundAction := .fanOut key { id, creates := true, enqueues := true }
      obtain ⟨next, taken, isEnqueued, foundNext⟩ :
          ∃ next, outboundStep services config state action = some next ∧
            (event, subscription) ∈ next.enqueued ∧
            (next.dispatches.find? fun other => other.key = key) =
              some { key, event, remaining := rest } := by
        simp only [action, outboundStep, fanOut, found, if_true, fresh, if_false]
        refine ⟨_, rfl, by simp, ?_⟩
        exact find?_leave found rest
      rcases List.mem_cons.mp remains with rfl | remainsLater
      · refine ⟨[action], ?_⟩
        intro always
        have isolated : Isolated next := always.2 next taken
        exact isOther (isolated.enqueued _ isEnqueued guildId isGuild)
      · obtain ⟨later, fails⟩ := ih remainsLater foundNext
        refine ⟨action :: later, ?_⟩
        intro always
        exact fails (always.2 next taken)

/-- While each event of a guild matches its own subscriptions only, it reaches these alone; what a
guild sees depends then on its own subscriptions and events alone, whatever those of the others; and
an event that matches a subscription of another guild can be enqueued for it. -/
theorem isolated_always (services : OutboundServices) (config : OutboundConfig)
    (table : SubscriptionTable) (actions : List OutboundAction)
    (guarded : Guarded (outboundStep services config) (MatchesOwn config) (.start table) actions) :
    Always (outboundStep services config) Isolated (.start table) actions ∧
    (∀ (guild : JsString) (other : SubscriptionTable) (otherActions : List OutboundAction)
      (final otherFinal : OutboundState),
      table.ownedBy guild = other.ownedBy guild →
      Guarded (outboundStep services config) (MatchesOwn config) (.start other) otherActions →
      run (outboundStep services config) (.start table) actions = some final →
      run (outboundStep services config) (.start other) otherActions = some otherFinal →
      purged (outboundStep services config) (concerns guild) (.start table) actions =
        purged (outboundStep services config) (concerns guild) (.start other) otherActions →
      guildView guild final = guildView guild otherFinal) ∧
    ∀ state key event next, outboundStep services config state (.dispatch key event) = some next →
      ¬ MatchesOwn config state (.dispatch key event) →
      ∃ later, ¬ Always (outboundStep services config) Isolated next later := by
  have keeps : ∀ (state : OutboundState) (action : OutboundAction) (next : OutboundState), Own state →
      MatchesOwn config state action → outboundStep services config state action = some next →
      Own next := fun state action next own met taken => own_step own met taken
  refine ⟨?_, ?_, ?_⟩
  · have own := always_of_guarded (outboundStep services config) keeps (own_start table) guarded
    exact own.mono _ fun state own => own.isolated
  · intro guild other otherActions final otherFinal sameOwned otherGuarded reached otherReached same
    exact view_eq_of_purged keeps
      (fun state action next _ _ notOwned taken => view_unseen notOwned taken)
      (fun state action next own met isOwned taken => view_consistent own met isOwned taken)
      (own_start table) (own_start other) (by simp [guildView, OutboundState.start, sameOwned])
      guarded otherGuarded reached otherReached same
  · intro state key event next taken notMet
    simp only [MatchesOwn, not_forall] at notMet
    obtain ⟨guild, isGuild, foreign, isMatch, isOther⟩ := notMet
    obtain ⟨fresh, isNext⟩ := Option.ite_none_left_eq_some.mp taken
    obtain rfl := Option.some.inj isNext
    have none : (state.dispatches.find? fun dispatch => dispatch.key = key) = none := by
      apply List.find?_eq_none.mpr
      intro dispatch member isKey
      exact fresh (List.mem_map.mpr ⟨dispatch, member, of_decide_eq_true isKey⟩)
    let begun : Dispatch :=
      { key, event, remaining := matching config state.subscriptions event }
    have found :
        ((state.dispatches ++ [begun]).find? fun dispatch => dispatch.key = key) = some begun := by
      rw [List.find?_append, none]
      simp [begun]
    exact fanOut_foreign isGuild isOther isMatch found

/-! Two guilds with a subscription each, and an event of the first of them. -/

def subscriptionOf (guildId eventType : JsString) : Subscription :=
  { id := guildId, guildId, eventType, targetUrl := js "https://" ++ guildId
    signingSecret := [], enabled := true, filter := none, deletedAt := none }

def twoGuilds (otherType : JsString) : SubscriptionTable :=
  { rows := [subscriptionOf (js "g") (js "tickets.created"), subscriptionOf (js "h") otherType]
    distinct := by
      have apart : js "g" ≠ js "h" := by decide
      simpa [subscriptionOf] using apart }

def ticketCreated : EventEnvelope :=
  { id := js "e", name := js "tickets.created", payload := .obj [], guildId := some (js "g")
    actor := { type := .system, id := js "core", username := none }, occurredAt := []
    correlationId := [], causationId := none, version := 1, idempotencyKey := none
    metadata := none }

def outboundConfig : OutboundConfig :=
  { enabled := true, maxAttempts := 8
    allowedOutboundEvents :=
      [js "integration.event", js "tickets.created", js "moderation.ban.issued"] }

def outboundServices : OutboundServices := { decrypt := id, hmacHex := fun _ _ => [] }

def delivering (id : JsString) : List OutboundAction :=
  [.fanOut 0 { id, creates := true, enqueues := true },
    .runJob id { now := 0, response := .status 200, reads := true, recorded := true } true]

theorem isolated_apart :
    Always (outboundStep outboundServices outboundConfig) Isolated
      (.start (twoGuilds (js "moderation.ban.issued")))
      (.dispatch 0 ticketCreated :: delivering (js "d")) :=
  (isolated_always outboundServices outboundConfig _ _ (by decide +kernel)).1

/-- The lookup goes by the name of the event alone. -/
theorem sent_to_other_guild :
    ¬ ∀ (services : OutboundServices) (config : OutboundConfig) (table : SubscriptionTable)
      (actions : List OutboundAction),
      Always (outboundStep services config) Isolated (.start table) actions := by
  intro all
  refine not_always (outboundStep outboundServices outboundConfig)
    (fun state => decide (Isolated state)) (fun _ => decide_eq_true) ?_
    (all outboundServices outboundConfig (twoGuilds (js "tickets.created"))
      (.dispatch 0 ticketCreated :: (delivering (js "d") ++ delivering (js "f"))))
  decide +kernel

end Webhooks
