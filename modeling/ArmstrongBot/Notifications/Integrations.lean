import ArmstrongBot.Events.Bus
import ArmstrongBot.Library.StepMachine
import ArmstrongBot.Library.Table

/-! The integration notifiers: the polls of Twitch and YouTube and the pushes of GitHub, from await
to await, over the event bus. -/

namespace Notifications.Integrations

open JsText JsJson JsNumber JobQueue
open Calendar (Timestamp toISOString)
open Events (EventEnvelope DeliveryPolicy PublishOptions CorrelationContext Runtime buildEnvelope
  deliveryOf jobIdOf)

inductive IntegrationProviderName
  | twitch
  | youtube
  | github
  deriving DecidableEq

structure IntegrationSubscription where
  id : JsString
  guildId : JsString
  provider : IntegrationProviderName
  externalId : JsString
  announceChannelId : Option JsString
  cursor : Option JsString
  active : Bool
  deletedAt : Option Timestamp
  deriving DecidableEq

abbrev SubscriptionTable := Table IntegrationSubscription.id

def listActiveByProvider (subscriptions : SubscriptionTable) (provider : IntegrationProviderName) :
    List IntegrationSubscription :=
  subscriptions.rows.filter fun row =>
    row.provider = provider ∧ row.active = true ∧ row.deletedAt = none

def IntegrationSubscription.withCursor (cursor : JsString) (row : IntegrationSubscription) :
    IntegrationSubscription :=
  { row with cursor := some cursor }

theorem IntegrationSubscription.withCursor_id (cursor : JsString) (row : IntegrationSubscription) :
    (row.withCursor cursor).id = row.id := rfl

def setCursor (subscriptions : SubscriptionTable) (id cursor : JsString) :
    Option SubscriptionTable :=
  subscriptions.change id (IntegrationSubscription.withCursor cursor)
    (IntegrationSubscription.withCursor_id cursor)

/-! Items. -/

def eventName : IntegrationProviderName → JsString
  | .twitch => js "integration.twitch.online"
  | .youtube => js "integration.youtube.upload"
  | .github => js "integration.github.push"

/-- The field of the payload with the id of the item. -/
def itemField : IntegrationProviderName → JsString
  | .twitch => js "streamId"
  | .youtube => js "videoId"
  | .github => js "commitSha"

/-- A push with its repository and head. -/
structure GithubPush where
  repo : JsString
  sha : JsString
  ref : Option JsString
  commitCount : Number
  pusher : Option JsString
  htmlUrl : Option JsString
  deriving DecidableEq

inductive Source
  | poll (provider : IntegrationProviderName)
  | push (body : GithubPush)
  deriving DecidableEq

def Source.provider : Source → IntegrationProviderName
  | .poll provider => provider
  | .push _ => .github

/-- An item as it was found for a subscription; a push has no title. -/
structure Found where
  id : JsString
  title : JsString
  occurredAt : Timestamp
  deriving DecidableEq

structure UpstreamItem where
  cursor : JsString
  eventName : JsString
  payload : Json

def pageUrl (externalId id : JsString) : IntegrationProviderName → JsString
  | .twitch => js "https://twitch.tv/" ++ externalId
  | .youtube => js "https://youtu.be/" ++ id
  | .github => js "https://github.com/" ++ externalId

def buildItem (provider : IntegrationProviderName) (sub : IntegrationSubscription) (found : Found) :
    UpstreamItem :=
  { cursor := found.id, eventName := eventName provider
    payload := .obj
      [(js "guildId", .str sub.guildId), (js "externalId", .str sub.externalId),
        (itemField provider, .str found.id), (js "title", .str found.title),
        (js "url", .str (pageUrl sub.externalId found.id provider)),
        (js "occurredAt", .str (toISOString found.occurredAt))] }

def pushItem (body : GithubPush) (sub : IntegrationSubscription) (found : Found) : UpstreamItem :=
  { cursor := found.id, eventName := eventName .github
    payload := .obj
      [(js "guildId", .str sub.guildId), (js "externalId", .str sub.externalId),
        (js "ref", .str (body.ref.getD (js "unknown"))), (itemField .github, .str found.id),
        (js "commitCount", .num body.commitCount),
        (js "pusher", .str (body.pusher.getD (js "unknown"))),
        (js "url", .str (body.htmlUrl.getD (pageUrl sub.externalId found.id .github))),
        (js "occurredAt", .str (toISOString found.occurredAt))] }

def Source.item : Source → IntegrationSubscription → Found → UpstreamItem
  | .poll provider => buildItem provider
  | .push body => pushItem body

/-- A poll takes the cursor for its key, a push the guild and the head. -/
def Source.idempotencyKey : Source → IntegrationSubscription → Found → JsString
  | .poll _, _, found => found.id
  | .push _, sub, found => sub.guildId ++ js ":" ++ found.id

def actorId : IntegrationProviderName → JsString
  | .twitch => js "notifications.twitch"
  | .youtube => js "notifications.youtube"
  | .github => js "notifications.github"

def Source.options (source : Source) (sub : IntegrationSubscription) (found : Found) :
    PublishOptions :=
  { PublishOptions.empty with
    guildId := some sub.guildId
    actor := some { type := .system, id := actorId source.provider, username := none }
    idempotencyKey := some (source.idempotencyKey sub found)
    metadata := (sub.announceChannelId.filter fun id => id ≠ []).map fun id =>
      .obj [(js "announceChannelId", .str id)] }

/-! Calls of `poll` and `ingest`. -/

inductive Ending
  | returned
  | ingested (accepted : Bool) (reason : Option JsString)
  | threw
  deriving DecidableEq

inductive Phase
  | listing
  | fetching (sub : IntegrationSubscription) (left : List IntegrationSubscription)
  | publishing (sub : IntegrationSubscription) (found : Found)
      (left : List IntegrationSubscription)
  | advancing (sub : IntegrationSubscription) (found : Found)
      (left : List IntegrationSubscription)
  | ended (ending : Ending)
  deriving DecidableEq

structure Call where
  source : Source
  phase : Phase
  deriving DecidableEq

def Call.to (call : Call) (phase : Phase) : Call := { call with phase }

@[simp] theorem Call.to_phase (call : Call) (phase : Phase) : (call.to phase).phase = phase := rfl

@[simp] theorem Call.to_source (call : Call) (phase : Phase) :
    (call.to phase).source = call.source := rfl

structure GithubPushBody where
  ref : Option JsString
  after : Option JsString
  commitCount : Number
  fullName : Option JsString
  htmlUrl : Option JsString
  pusher : Option JsString
  deriving DecidableEq

def truthy (text : Option JsString) : Option JsString := text.filter fun text => text ≠ []

/-- `ingest` before its first await: a call, or the reason why the body is not accepted. -/
def ingest (body : GithubPushBody) : Except JsString Call :=
  match truthy body.fullName, truthy body.after with
  | some repo, some sha =>
      .ok
        { source := .push
            { repo, sha, ref := body.ref, commitCount := body.commitCount, pusher := body.pusher
              htmlUrl := body.htmlUrl }
          phase := .listing }
  | _, _ => .error (js "missing repository or sha")

/-- Where the loop over the subscriptions goes on. -/
def Source.next (source : Source) (left : List IntegrationSubscription) (now : Timestamp) : Phase :=
  match left, source with
  | sub :: left, .poll _ => .fetching sub left
  | sub :: left, .push body =>
      .publishing sub { id := body.sha, title := [], occurredAt := now } left
  | [], .poll _ => .ended .returned
  | [], .push _ => .ended (.ingested true none)

/-- The subscriptions of the provider, and of them those of the repository that was pushed to. -/
def Source.start (source : Source) (subscriptions : SubscriptionTable) (now : Timestamp) : Phase :=
  let active := listActiveByProvider subscriptions source.provider
  match source with
  | .poll _ => source.next active now
  | .push body =>
      match active.filter fun sub => sub.externalId = body.repo with
      | [] => .ended (.ingested false (some (js "no subscription for repository")))
      | matching => source.next matching now

/-- A failure ends a push; a poll logs it and goes on. -/
def Source.failed (source : Source) (left : List IntegrationSubscription) (now : Timestamp) :
    Phase :=
  match source with
  | .poll _ => source.next left now
  | .push _ => .ended .threw

/-- How far a publish got that failed. -/
inductive Landed
  | nothing
  | logged
  | queued
  deriving DecidableEq

structure Input where
  fails : Bool
  landed : Landed
  fetched : Option (JsString × JsString)
  envelopeId : JsString
  context : CorrelationContext
  now : Timestamp

/-- The subscription and the item that an event is about. -/
structure Observation where
  guildId : JsString
  provider : IntegrationProviderName
  externalId : JsString
  cursor : JsString
  deriving DecidableEq

def Source.observation (source : Source) (sub : IntegrationSubscription) (found : Found) :
    Observation :=
  { guildId := sub.guildId, provider := source.provider, externalId := sub.externalId
    cursor := found.id }

/-- The bus, the subscriptions and the calls, with the events that got a job, those that a worker
took to the handlers, and the items that a cursor was set to. -/
structure State where
  runtime : Runtime
  subscriptions : SubscriptionTable
  calls : List Call
  enqueued : List EventEnvelope
  reached : List EventEnvelope
  advanced : List Observation

def State.start (registries : Events.Registries) (subscriptions : SubscriptionTable) : State :=
  { runtime := .start registries, subscriptions, calls := [], enqueued := [], reached := []
    advanced := [] }

def Source.envelope (source : Source) (sub : IntegrationSubscription) (found : Found)
    (input : Input) : EventEnvelope :=
  let item := source.item sub found
  buildEnvelope input.envelopeId input.now input.context item.eventName item.payload
    (source.options sub found)

def Source.delivery (source : Source) (sub : IntegrationSubscription) (found : Found) :
    DeliveryPolicy :=
  deliveryOf (source.item sub found).eventName (source.options sub found)

def publish (state : State) (envelope : EventEnvelope) (delivery : DeliveryPolicy) : State :=
  { state with
    runtime := Events.publish state.runtime envelope delivery
    enqueued :=
      if jobIdOf envelope ∈ ids state.runtime.queue then state.enqueued
      else state.enqueued ++ [envelope] }

def proceed (state : State) (call : Call) (input : Input) : Option (State × Call) :=
  match call.phase with
  | .listing => some (state, call.to (call.source.start state.subscriptions input.now))
  | .fetching sub left =>
      some (state, call.to (match input.fetched with
        | none => call.source.next left input.now
        | some (id, title) =>
            if sub.cursor = some id then call.source.next left input.now
            else .publishing sub { id, title, occurredAt := input.now } left))
  | .publishing sub found left =>
      some (publish state (call.source.envelope sub found input) (call.source.delivery sub found),
        call.to (.advancing sub found left))
  | .advancing sub found left =>
      (setCursor state.subscriptions sub.id found.id).map fun subscriptions =>
        ({ state with
            subscriptions
            advanced := state.advanced ++ [call.source.observation sub found] },
          call.to (call.source.next left input.now))
  | .ended _ => none

def reject (state : State) (call : Call) (input : Input) : Option (State × Call) :=
  match call.phase with
  | .listing => some (state, call.to (.ended .threw))
  | .fetching _ left | .advancing _ _ left =>
      some (state, call.to (call.source.failed left input.now))
  | .publishing sub found left =>
      let envelope := call.source.envelope sub found input
      let delivery := call.source.delivery sub found
      some (match input.landed with
        | .nothing => state
        | .logged => { state with runtime := Events.persist state.runtime envelope delivery }
        | .queued => publish state envelope delivery,
        call.to (call.source.failed left input.now))
  | .ended _ => none

def advance (state : State) (call : Call) (input : Input) : Option (State × Call) :=
  if input.fails then reject state call input else proceed state call input

/-- A worker takes a job to the handlers, which return or throw. -/
def work (state : State) (jobId : JsString) (returns : Bool) : Option State :=
  (withStatus state.runtime.queue jobId .waiting).map fun job =>
    { state with
      reached := state.reached ++ [job.data]
      runtime :=
        if returns then Events.work state.runtime jobId
        else { state.runtime with
          queue := retry Events.jobAttempts state.runtime.queue jobId } }

inductive Action
  | poll (provider : IntegrationProviderName)
  | ingest (body : GithubPushBody)
  | advance (index : Nat) (input : Input)
  | work (jobId : JsString) (returns : Bool)
  | publishOther (envelope : EventEnvelope) (delivery : DeliveryPolicy)

/-- Only Twitch and YouTube are polled; the events of the integrations come from here alone. -/
def step (state : State) : Action → Option State
  | .poll provider =>
      if provider = .github then none
      else some { state with
        calls := state.calls ++ [{ source := .poll provider, phase := .listing }] }
  | .ingest body =>
      some (match ingest body with
        | .ok call => { state with calls := state.calls ++ [call] }
        | .error _ => state)
  | .advance index input =>
      (state.calls[index]?).bind fun call =>
        (advance state call input).map fun (after, next) =>
          { after with calls := state.calls.set index next }
  | .work jobId returns => work state jobId returns
  | .publishOther envelope delivery =>
      if ∃ provider ∈ [IntegrationProviderName.twitch, .youtube, .github],
          envelope.name = eventName provider then none
      else some { state with runtime := Events.publish state.runtime envelope delivery }

end Notifications.Integrations
