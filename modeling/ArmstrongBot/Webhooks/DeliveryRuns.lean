import ArmstrongBot.Webhooks.GuildIsolation

/-! The runs of the job of one outbound delivery, each to its end: the attempts of the queue,
redundant duplicates of them, and the calls of `onExhausted`. -/

namespace Webhooks

open JsText StepMachine
open Calendar (Timestamp)
open Events (EventEnvelope)

deriving instance DecidableEq for Response

/-- What happens to a delivery: a POST is answered, its status is written, a run throws. -/
inductive Happening
  | posted (response : Response)
  | wrote (status : DeliveryStatus)
  | threw
  deriving DecidableEq

/-- A delivery, the attempts made of its job while it is not finished, and the number of calls of
`onExhausted` that are under way. -/
structure DeliveryState where
  subscriptions : SubscriptionTable
  delivery : OutboundDelivery
  job : Option Nat
  exhausted : Nat
  history : List Happening

def DeliveryState.start (subscriptions : SubscriptionTable) (delivery : OutboundDelivery) :
    DeliveryState :=
  { subscriptions, delivery, job := some 0, exhausted := 0, history := [] }

def DeliveryState.subscription (state : DeliveryState) : Option Subscription :=
  state.subscriptions.findById state.delivery.subscriptionId

section

variable (services : OutboundServices) (config : OutboundConfig)

def DeliveryState.deliver (state : DeliveryState) (now : Timestamp) (response : Response) :
    Delivering :=
  Webhooks.deliver services state.delivery state.subscription
    { now, response, reads := true, recorded := true }

def DeliveryState.after (state : DeliveryState) (delivering : Delivering) (response : Response) :
    DeliveryState :=
  { state with
    delivery := delivering.update.elim state.delivery fun update => update.apply state.delivery
    history := state.history ++
      ((delivering.post.map fun _ => Happening.posted response).toList ++
        (delivering.update.map fun update => Happening.wrote update.status).toList ++
        if delivering.returned then [] else [.threw]) }

inductive RunAction
  | create (id : JsString) (input : CreateSubscription)
  | remove (id : JsString) (now : Timestamp)
  | attempt (now : Timestamp) (response : Response)
  | duplicate (now : Timestamp) (response : Response)
  | exhaust

/-- An attempt is counted by the queue, and the last one that fails makes the worker call
`onExhausted`; what becomes of a duplicate is lost on the queue. -/
def runStep (state : DeliveryState) : RunAction → Option DeliveryState
  | .create id input =>
      (state.subscriptions.create id input).map fun subscriptions => { state with subscriptions }
  | .remove id now => some { state with subscriptions := state.subscriptions.softDelete id now }
  | .attempt now response =>
      state.job.map fun attemptsMade =>
        let delivering := state.deliver services now response
        let job := nextJob config attemptsMade delivering.returned
        { state.after delivering response with
          job
          exhausted :=
            if !delivering.returned && job.isNone then state.exhausted + 1 else state.exhausted }
  | .duplicate now response => some (state.after (state.deliver services now response) response)
  | .exhaust =>
      match state.exhausted with
      | 0 => none
      | exhausted + 1 =>
          some { state with
            exhausted
            delivery := onExhausted state.delivery
            history := state.history ++
              if state.delivery.status = .processed then [] else [.wrote .deadLettered] }

end

def isPermanent (statusCode : Nat) : Bool :=
  400 ≤ statusCode && statusCode < 500 && statusCode ≠ 429

def Happening.isPost : Happening → Bool
  | .posted _ => true
  | _ => false

/-- What ends a delivery. -/
def Happening.isFinal : Happening → Bool
  | .posted (.status code) => isPermanent code
  | .wrote status => status = .processed || status = .deadLettered
  | _ => false

/-- Nothing is posted after the end, and a processed delivery stays processed. -/
def Follows (earlier later : Happening) : Prop :=
  (earlier.isFinal = true → later.isPost = false) ∧
    (earlier = .wrote .processed → ∀ status, later = .wrote status → status = .processed)

structure DeliveredOnce (config : OutboundConfig) (state : DeliveryState) : Prop where
  ordered : state.history.Pairwise Follows
  counted : state.subscription ≠ none →
    state.delivery.attempts = state.history.countP Happening.isPost
  exhausted : .wrote .deadLettered ∈ state.history → config.maxAttempts ≤ state.history.count .threw

/-- No run starts after the end of the delivery, unless it is processed or its subscription is
gone. -/
def NotEnded (state : DeliveryState) : RunAction → Prop
  | .attempt _ _ | .duplicate _ _ =>
      state.delivery.status = .processed ∨ state.subscription = none ∨
        ∀ happening ∈ state.history, happening.isFinal = false
  | _ => True

instance (state : DeliveryState) (action : RunAction) : Decidable (NotEnded state action) := by
  cases action <;> unfold NotEnded <;> infer_instance

/-! What a run does. -/

inductive Executed (delivery : OutboundDelivery) (found : Option Subscription)
    (response : Response) : OutboundDelivery → List Happening → Prop
  | redundant : delivery.status = .processed → Executed delivery found response delivery []
  | orphaned {next : OutboundDelivery} : delivery.status ≠ .processed → found = none →
      next.status = .failed → next.subscriptionId = delivery.subscriptionId →
      Executed delivery found response next [.wrote .failed]
  | posted {next : OutboundDelivery} {thrown : List Happening} : delivery.status ≠ .processed →
      found ≠ none → next.status = .processed ∨ next.status = .failed →
      next.subscriptionId = delivery.subscriptionId → next.attempts = delivery.attempts + 1 →
      thrown = [] ∨ thrown = [.threw] →
      Executed delivery found response next (.posted response :: .wrote next.status :: thrown)

variable {services : OutboundServices} {config : OutboundConfig}

/-- A run appends what it does to the history; one that does not return has thrown. -/
theorem after_executed (services : OutboundServices) (state : DeliveryState) (now : Timestamp)
    (response : Response) :
    ∃ next happened,
      state.after (state.deliver services now response) response =
        { state with delivery := next, history := state.history ++ happened } ∧
      Executed state.delivery state.subscription response next happened ∧
      ((state.deliver services now response).returned = false → .threw ∈ happened) := by
  refine ⟨_, _, rfl, ?_, ?_⟩
  · unfold DeliveryState.deliver deliver
    by_cases processed : state.delivery.status = .processed
    · simp only [processed, if_true]
      exact .redundant processed
    · simp only [processed, if_true, if_false]
      cases found : state.subscription with
      | none => exact .orphaned processed rfl rfl rfl
      | some subscription =>
          cases response with
          | error reason => exact .posted processed (by simp) (Or.inr rfl) rfl rfl (Or.inr rfl)
          | status code =>
              by_cases success : 200 ≤ code ∧ code < 300
              · simp only [success, and_self, if_true]
                exact .posted processed (by simp) (Or.inl rfl) rfl rfl (Or.inl rfl)
              · simp only [success, if_false]
                refine .posted processed (by simp) (Or.inr rfl) rfl rfl ?_
                cases isRetryable code
                · exact Or.inl rfl
                · exact Or.inr rfl
  · intro thrown
    simp [thrown]

/-! The subscription of a delivery, once gone, does not come back. -/

def Known (state : DeliveryState) : Prop :=
  state.delivery.subscriptionId ∈ state.subscriptions.rows.map Subscription.id

theorem findById_of_live {table : SubscriptionTable} {row : Subscription}
    (member : row ∈ table.rows) (live : row.deletedAt = none) :
    table.findById row.id = some row := by
  cases found : table.findById row.id with
  | some other =>
      obtain ⟨otherMember, same⟩ := findById_some found
      rw [row_eq otherMember member same]
  | none =>
      have absent := List.find?_eq_none.mp found row member
      simp [live] at absent

theorem findById_live {table : SubscriptionTable} {id : JsString} {row : Subscription}
    (found : table.findById id = some row) : row.deletedAt = none := by
  have selected := List.find?_some found
  simp only [decide_eq_true_eq] at selected
  exact selected.2

theorem findById_create {table next : SubscriptionTable} {id asked : JsString}
    {input : CreateSubscription} (created : table.create id input = some next)
    (known : asked ∈ table.rows.map Subscription.id) (found : next.findById asked ≠ none) :
    table.findById asked ≠ none := by
  obtain ⟨fresh, rows⟩ := create_rows created
  obtain ⟨row, isFound⟩ := Option.ne_none_iff_exists'.mp found
  obtain ⟨member, rfl⟩ := findById_some isFound
  rw [rows] at member
  rcases List.mem_append.mp member with earlier | isNew
  · rw [findById_of_live earlier (findById_live isFound)]
    simp
  · rw [List.mem_singleton.mp isNew] at known
    exact absurd known fresh

theorem findById_softDelete {table : SubscriptionTable} {id asked : JsString} {now : Timestamp}
    (found : (table.softDelete id now).findById asked ≠ none) : table.findById asked ≠ none := by
  obtain ⟨row, isFound⟩ := Option.ne_none_iff_exists'.mp found
  obtain ⟨member, rfl⟩ := findById_some isFound
  have live := findById_live isFound
  obtain ⟨before, beforeMember, rfl⟩ := List.mem_map.mp member
  by_cases removed : before.id = id ∧ before.deletedAt = none
  · rw [if_pos removed] at live
    simp at live
  · rw [if_neg removed] at live ⊢
    rw [findById_of_live beforeMember live]
    simp

theorem known_of_persists {table next : SubscriptionTable} (persists : Persists table next)
    {id : JsString} (known : id ∈ table.rows.map Subscription.id) :
    id ∈ next.rows.map Subscription.id := by
  obtain ⟨row, member, rfl⟩ := List.mem_map.mp known
  obtain ⟨later, laterMember, same, _⟩ := persists row member
  exact List.mem_map.mpr ⟨later, laterMember, same⟩

/-! The invariant. -/

structure Settled (config : OutboundConfig) (state : DeliveryState) : Prop where
  known : Known state
  processed : .wrote .processed ∈ state.history → state.delivery.status = .processed
  job : ∀ attemptsMade ∈ state.job, attemptsMade ≤ state.history.count .threw
  calls : 0 < state.exhausted → config.maxAttempts ≤ state.history.count .threw
  once : DeliveredOnce config state

theorem settled_start {subscriptions : SubscriptionTable} {delivery : OutboundDelivery}
    (known : delivery.subscriptionId ∈ subscriptions.rows.map Subscription.id)
    (unattempted : delivery.attempts = 0) :
    Settled config (.start subscriptions delivery) := by
  refine ⟨known, ?_, ?_, ?_, ⟨List.Pairwise.nil, ?_, ?_⟩⟩
  · simp [DeliveryState.start]
  · simp [DeliveryState.start]
  · simp [DeliveryState.start]
  · intro _
    exact unattempted
  · simp [DeliveryState.start]

theorem follows_new {state : DeliveryState} (settled : Settled config state) {response : Response}
    {next : OutboundDelivery} {happened : List Happening}
    (executed : Executed state.delivery state.subscription response next happened)
    (notEnded : state.delivery.status = .processed ∨ state.subscription = none ∨
      ∀ happening ∈ state.history, happening.isFinal = false) :
    (state.history ++ happened).Pairwise Follows := by
  have open_ (isOpen : state.delivery.status ≠ .processed) {earlier : Happening}
      (member : earlier ∈ state.history) : earlier ≠ .wrote .processed := by
    rintro rfl
    exact isOpen (settled.processed member)
  refine List.pairwise_append.mpr ⟨settled.once.ordered, ?_, ?_⟩
  · cases executed with
    | redundant => exact List.Pairwise.nil
    | orphaned => exact List.pairwise_singleton _ _
    | posted _ _ status _ _ thrown =>
        rcases status with isStatus | isStatus <;> rcases thrown with rfl | rfl <;>
          simp [Follows, Happening.isPost, isStatus]
  · intro earlier member later isLater
    cases executed with
    | redundant => simp at isLater
    | orphaned isOpen =>
        obtain rfl := List.mem_singleton.mp isLater
        exact ⟨fun _ => rfl, fun wrote => absurd wrote (open_ isOpen member)⟩
    | posted isOpen found =>
        refine ⟨fun isFinal => ?_, fun wrote => absurd wrote (open_ isOpen member)⟩
        rcases notEnded with processed | missing | none
        · exact absurd processed isOpen
        · exact absurd missing found
        · rw [none earlier member] at isFinal
          exact absurd isFinal (by decide)

/-- What a run keeps, apart from what the queue makes of it. -/
theorem settled_executed {state : DeliveryState} (settled : Settled config state)
    {response : Response} {next : OutboundDelivery} {happened : List Happening}
    (executed : Executed state.delivery state.subscription response next happened)
    (notEnded : state.delivery.status = .processed ∨ state.subscription = none ∨
      ∀ happening ∈ state.history, happening.isFinal = false) :
    Settled config { state with delivery := next, history := state.history ++ happened } := by
  have sameSubscription : next.subscriptionId = state.delivery.subscriptionId := by
    cases executed with
    | redundant => rfl
    | orphaned _ _ _ same => exact same
    | posted _ _ _ same => exact same
  have count : (state.history ++ happened).count .threw =
      state.history.count .threw + happened.count .threw := List.count_append
  refine ⟨?_, ?_, ?_, ?_, follows_new settled executed notEnded, ?_, ?_⟩
  · simpa [Known, sameSubscription] using settled.known
  · intro wrote
    rcases List.mem_append.mp wrote with earlier | isNew
    · have processed := settled.processed earlier
      cases executed with
      | redundant => exact processed
      | orphaned isOpen => exact absurd processed isOpen
      | posted isOpen => exact absurd processed isOpen
    · cases executed with
      | redundant => simp at isNew
      | orphaned => simp at isNew
      | posted _ _ _ _ _ thrown => rcases thrown with rfl | rfl <;> simpa [eq_comm] using isNew
  · intro attemptsMade isJob
    have bound := settled.job attemptsMade isJob
    show attemptsMade ≤ (state.history ++ happened).count .threw
    omega
  · intro pending
    have bound := settled.calls pending
    show config.maxAttempts ≤ (state.history ++ happened).count .threw
    omega
  · intro found
    have same : DeliveryState.subscription
        { state with delivery := next, history := state.history ++ happened } =
          state.subscription := by
      simp [DeliveryState.subscription, sameSubscription]
    rw [same] at found
    have counted := settled.once.counted found
    cases executed with
    | redundant => simpa using counted
    | orphaned _ missing => exact absurd missing found
    | posted _ _ _ _ attempts thrown =>
        rcases thrown with rfl | rfl <;>
          simp [attempts, counted, List.countP_cons, Happening.isPost]
  · intro wrote
    have earlier : .wrote .deadLettered ∈ state.history := by
      rcases List.mem_append.mp wrote with earlier | isNew
      · exact earlier
      · cases executed with
        | redundant => simp at isNew
        | orphaned => simp at isNew
        | posted _ _ status _ _ thrown =>
            rcases status with isStatus | isStatus <;> rcases thrown with rfl | rfl <;>
              simp [isStatus] at isNew
    have bound := settled.once.exhausted earlier
    show config.maxAttempts ≤ (state.history ++ happened).count .threw
    omega

theorem nextJob_thrown (config : OutboundConfig) (attemptsMade : Nat) :
    (∀ later ∈ nextJob config attemptsMade false, later = attemptsMade + 1) ∧
      (nextJob config attemptsMade false = none → config.maxAttempts ≤ attemptsMade + 1) := by
  unfold nextJob
  by_cases last : config.maxAttempts ≤ attemptsMade + 1
  · simp [last]
  · simp [last]

/-- The attempt of a job: the count of the runs that have thrown keeps up with the queue's. -/
theorem settled_attempt {state next : DeliveryState} (settled : Settled config state)
    {now : Timestamp} {response : Response}
    (notEnded : NotEnded state (.attempt now response))
    (taken : runStep services config state (.attempt now response) = some next) :
    Settled config next := by
  obtain ⟨attemptsMade, isJob, rfl⟩ := Option.map_eq_some_iff.mp taken
  obtain ⟨delivery, happened, after, executed, throws⟩ :=
    after_executed services state now response
  have kept := settled_executed settled executed notEnded
  have bound := settled.job attemptsMade isJob
  have count : (state.history ++ happened).count .threw =
      state.history.count .threw + happened.count .threw := List.count_append
  simp only [after]
  cases returned : (state.deliver services now response).returned with
  | true =>
      refine ⟨kept.known, kept.processed, ?_, ?_, kept.once.ordered, kept.once.counted,
        kept.once.exhausted⟩
      · simp [nextJob]
      · simpa using kept.calls
  | false =>
      have thrown := List.count_pos_iff.mpr (throws returned)
      obtain ⟨increments, exhausts⟩ := nextJob_thrown config attemptsMade
      refine ⟨kept.known, kept.processed, ?_, ?_, kept.once.ordered, kept.once.counted,
        kept.once.exhausted⟩
      · intro later isLater
        have isNext := increments later isLater
        show later ≤ (state.history ++ happened).count .threw
        omega
      · intro pending
        show config.maxAttempts ≤ (state.history ++ happened).count .threw
        cases last : nextJob config attemptsMade false with
        | none =>
            have enough := exhausts last
            omega
        | some later =>
            simp only [last, Option.isNone_some, Bool.and_false, Bool.false_eq_true, if_false]
              at pending
            exact kept.calls pending

theorem settled_exhaust {state next : DeliveryState} (settled : Settled config state)
    (taken : runStep services config state .exhaust = some next) : Settled config next := by
  simp only [runStep] at taken
  split at taken
  · simp at taken
  · rename_i calls pending
    obtain rfl := Option.some.inj taken
    have enough := settled.calls (by omega)
    by_cases processed : state.delivery.status = .processed
    · simp only [onExhausted, processed, if_true, List.append_nil]
      exact ⟨settled.known, settled.processed, settled.job, fun _ => enough, settled.once.ordered,
        settled.once.counted, settled.once.exhausted⟩
    · have isOpen {earlier : Happening} (member : earlier ∈ state.history) :
          earlier ≠ .wrote .processed := by
        rintro rfl
        exact processed (settled.processed member)
      simp only [onExhausted, processed, if_false]
      refine ⟨settled.known, ?_, ?_, ?_, ⟨?_, ?_, ?_⟩⟩
      · intro wrote
        rcases List.mem_append.mp wrote with earlier | isNew
        · exact absurd rfl (isOpen earlier)
        · simp at isNew
      · simpa [List.count_append] using settled.job
      · intro _
        simpa [List.count_append] using enough
      · refine List.pairwise_append.mpr ⟨settled.once.ordered, List.pairwise_singleton _ _, ?_⟩
        intro earlier member later isNew
        obtain rfl := List.mem_singleton.mp isNew
        exact ⟨fun _ => rfl, fun wrote => absurd wrote (isOpen member)⟩
      · intro found
        simpa [Happening.isPost] using settled.once.counted found
      · intro _
        simpa [List.count_append] using enough

theorem settled_step {state : DeliveryState} {action : RunAction} {next : DeliveryState}
    (settled : Settled config state) (notEnded : NotEnded state action)
    (taken : runStep services config state action = some next) : Settled config next := by
  cases action with
  | create id input =>
      obtain ⟨table, created, rfl⟩ := Option.map_eq_some_iff.mp taken
      have known := known_of_persists (persists_create created) settled.known
      refine ⟨known, settled.processed, settled.job, settled.calls, settled.once.ordered, ?_,
        settled.once.exhausted⟩
      intro found
      exact settled.once.counted (findById_create created settled.known found)
  | remove id now =>
      obtain rfl := Option.some.inj taken
      have known := known_of_persists (persists_softDelete state.subscriptions id now) settled.known
      refine ⟨known, settled.processed, settled.job, settled.calls, settled.once.ordered, ?_,
        settled.once.exhausted⟩
      intro found
      exact settled.once.counted (findById_softDelete found)
  | attempt now response => exact settled_attempt settled notEnded taken
  | duplicate now response =>
      obtain rfl := Option.some.inj taken
      obtain ⟨delivery, happened, after, executed, _⟩ :=
        after_executed services state now response
      rw [after]
      exact settled_executed settled executed notEnded
  | exhaust => exact settled_exhaust settled taken

/-- A run that starts after the end, of a delivery that is still open, posts again. -/
theorem notEnded_of_ordered {state : DeliveryState} {response : Response}
    {next : OutboundDelivery} {happened : List Happening}
    (executed : Executed state.delivery state.subscription response next happened)
    (ordered : (state.history ++ happened).Pairwise Follows) :
    state.delivery.status = .processed ∨ state.subscription = none ∨
      ∀ happening ∈ state.history, happening.isFinal = false := by
  cases executed with
  | redundant processed => exact Or.inl processed
  | orphaned _ missing => exact Or.inr (Or.inl missing)
  | posted =>
      refine Or.inr (Or.inr fun happening member => ?_)
      have follows := (List.pairwise_append.mp ordered).2.2 happening member _ List.mem_cons_self
      cases isFinal : happening.isFinal with
      | false => rfl
      | true => exact absurd (follows.1 isFinal) (by simp [Happening.isPost])

theorem notEnded_of_once {state next : DeliveryState} {action : RunAction}
    (taken : runStep services config state action = some next)
    (once : DeliveredOnce config next) : NotEnded state action := by
  cases action with
  | create id input => trivial
  | remove id now => trivial
  | attempt now response =>
      obtain ⟨attemptsMade, _, rfl⟩ := Option.map_eq_some_iff.mp taken
      obtain ⟨delivery, happened, after, executed, _⟩ :=
        after_executed services state now response
      have ordered := once.ordered
      simp only [after] at ordered
      exact notEnded_of_ordered executed ordered
  | duplicate now response =>
      obtain rfl := Option.some.inj taken
      obtain ⟨delivery, happened, after, executed, _⟩ :=
        after_executed services state now response
      rw [after] at once
      exact notEnded_of_ordered executed once.ordered
  | exhaust => trivial

/-- A delivery goes through its machine as it should exactly when none of its runs starts after
its end. -/
theorem deliveredOnce_iff (services : OutboundServices) (config : OutboundConfig)
    (subscriptions : SubscriptionTable) (delivery : OutboundDelivery)
    (known : delivery.subscriptionId ∈ subscriptions.rows.map Subscription.id)
    (unattempted : delivery.attempts = 0) (actions : List RunAction) :
    Always (runStep services config) (DeliveredOnce config) (.start subscriptions delivery)
        actions ↔
      Guarded (runStep services config) NotEnded (.start subscriptions delivery) actions := by
  have sound (state : DeliveryState) (settled : Settled config state) :
      DeliveredOnce config state := settled.once
  exact always_iff_guarded _ sound (fun _ _ _ settled notEnded => settled_step settled notEnded)
    (fun _ _ _ _ => notEnded_of_once) (settled_start known unattempted) actions

/-! A delivery of an event to a subscription of its guild. -/

def ticketDelivery : OutboundDelivery :=
  createOutbound (js "d") (subscriptionOf (js "g") (js "tickets.created")) ticketCreated

theorem deliveredOnce_retried :
    Always (runStep outboundServices outboundConfig) (DeliveredOnce outboundConfig)
      (.start (twoGuilds (js "moderation.ban.issued")) ticketDelivery)
      [.attempt 0 (.status 503), .duplicate 1 (.error (js "timeout")), .attempt 2 (.status 200),
        .duplicate 3 (.status 404)] :=
  (deliveredOnce_iff outboundServices outboundConfig _ ticketDelivery (by decide) rfl _).mpr
    (by decide +kernel)

/-- The target refuses the delivery for good, and a redundant run of the job posts it again. -/
theorem refused_posted_again :
    ¬ ∀ (services : OutboundServices) (config : OutboundConfig) (subscriptions : SubscriptionTable)
      (delivery : OutboundDelivery),
      delivery.subscriptionId ∈ subscriptions.rows.map Subscription.id → delivery.attempts = 0 →
      ∀ actions, Always (runStep services config) (DeliveredOnce config)
        (.start subscriptions delivery) actions := by
  intro all
  refine not_always (runStep outboundServices outboundConfig)
    (fun state => !((state.history.take 1).any Happening.isFinal &&
      (state.history.drop 1).any Happening.isPost)) ?_ ?_
    (all outboundServices outboundConfig (twoGuilds (js "moderation.ban.issued")) ticketDelivery
      (by decide) rfl [.attempt 0 (.status 404), .duplicate 1 (.status 200)])
  · intro state once
    have ordered := once.ordered
    cases history : state.history with
    | nil => rfl
    | cons first later =>
        rw [history] at ordered
        have follows := (List.pairwise_cons.mp ordered).1
        cases isFinal : first.isFinal with
        | false => simp [isFinal]
        | true => simpa [isFinal] using fun other member => (follows other member).1 isFinal
  · decide +kernel

end Webhooks
