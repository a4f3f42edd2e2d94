import ArmstrongBot.Library.Filtered
import ArmstrongBot.Notifications.Dispatch

/-! `PreferenceResolver`: the channels on which a notification reaches a recipient, from the
preferences that were stored and the quiet hours of the guild. -/

namespace Notifications.Preferences

open JsText
open Calendar (Timestamp)
open Dispatch (ChannelDecision CreateDeliveryInput Plan Skip planFor recipientRef truthy)

/-! The table. -/

structure PreferenceKey where
  guildId : JsString
  userId : JsString
  category : NotificationCategory
  channel : NotificationChannel
  deriving DecidableEq

structure PreferenceRow where
  key : PreferenceKey
  enabled : Bool
  deletedAt : Option Timestamp
  deriving DecidableEq

structure UpsertPreferenceInput where
  key : PreferenceKey
  enabled : Bool
  deriving DecidableEq

/-- The table under its unique constraint. -/
abbrev PreferenceTable := Table PreferenceRow.key

def UpsertPreferenceInput.row (input : UpsertPreferenceInput) : PreferenceRow :=
  { key := input.key, enabled := input.enabled, deletedAt := none }

def UpsertPreferenceInput.apply (input : UpsertPreferenceInput) (row : PreferenceRow) :
    PreferenceRow :=
  { row with enabled := input.enabled, deletedAt := none }

theorem apply_key (input : UpsertPreferenceInput) (row : PreferenceRow) :
    (input.apply row).key = row.key := rfl

def upsert (table : PreferenceTable) (input : UpsertPreferenceInput) : PreferenceTable :=
  table.upsert input.row input.apply (apply_key input)

def upsertMany (table : PreferenceTable) (inputs : List UpsertPreferenceInput) : PreferenceTable :=
  inputs.foldl upsert table

def findForUser (table : PreferenceTable) (guildId userId : JsString) : List PreferenceRow :=
  table.rows.filter fun row =>
    row.key.guildId = guildId ∧ row.key.userId = userId ∧ row.deletedAt = none

/-! The resolver. -/

def categoryText : NotificationCategory → JsString
  | .system => js "system"
  | .moderation => js "moderation"
  | .tickets => js "tickets"
  | .integrations => js "integrations"
  | .digest => js "digest"
  | .marketing => js "marketing"

def prefKey (category : NotificationCategory) (channel : NotificationChannel) : JsString :=
  categoryText category ++ js ":" ++ channel.text

def PreferenceRow.prefKey (row : PreferenceRow) : JsString :=
  Preferences.prefKey row.key.category row.key.channel

structure QuietHours where
  enabled : Bool
  startHour : Nat
  endHour : Nat
  timezone : JsString
  startBound : startHour < 24
  endBound : endHour < 24

structure NotificationsGuildConfig where
  enabledChannels : List NotificationChannel
  quietHours : QuietHours

structure ResolveChannelsInput where
  guildId : Option JsString
  userId : Option JsString
  category : NotificationCategory
  priority : NotificationPriority
  forcedChannels : List NotificationChannel

def allChannels : List NotificationChannel :=
  [.discordDm, .discordChannel, .webhook, .email, .push]

/-- The table, if there is a guild and a user to ask it for. -/
def loadUserPrefs (table : PreferenceTable) (guildId userId : Option JsString) :
    Record PreferenceRow :=
  match truthy guildId, truthy userId with
  | some guildId, some userId =>
      Record.ofList PreferenceRow.prefKey (findForUser table guildId userId)
  | _, _ => Record.empty

def candidateChannels (input : ResolveChannelsInput) (config : NotificationsGuildConfig) :
    List NotificationChannel :=
  if input.forcedChannels = [] then
    allChannels.filter fun channel => config.enabledChannels.contains channel
  else input.forcedChannels.eraseDups

def decideChannel (category : NotificationCategory) (userPrefs : Record PreferenceRow)
    (quiet : Bool) (channel : NotificationChannel) : ChannelDecision :=
  if (userPrefs (prefKey category channel)).map PreferenceRow.enabled = some false then
    { channel, allowed := false, reason := some (js "user-disabled") }
  else if quiet then { channel, allowed := false, reason := some (js "quiet-hours") }
  else { channel, allowed := true, reason := none }

section

-- the hour of a time in a zone, where the zone is known and its text has one
variable (zoneHour : Timestamp → JsString → Option Nat)

def hourInZone (now : Timestamp) (timezone : JsString) : Nat :=
  match zoneHour now timezone with
  | some hour => hour % 24
  | none => (Calendar.fields now).hours

def inQuietHours (config : NotificationsGuildConfig) (now : Timestamp) : Bool :=
  let quietHours := config.quietHours
  if !quietHours.enabled then false
  else
    let hour := hourInZone zoneHour now quietHours.timezone
    if quietHours.startHour = quietHours.endHour then false
    else if quietHours.endHour < quietHours.startHour then
      quietHours.startHour ≤ hour || hour < quietHours.endHour
    else quietHours.startHour ≤ hour && hour < quietHours.endHour

def resolve (table : PreferenceTable) (config : NotificationsGuildConfig)
    (input : ResolveChannelsInput) (now : Timestamp) : List ChannelDecision :=
  let quiet := input.priority ≠ .critical && inQuietHours zoneHour config now
  (candidateChannels input config).map
    (decideChannel input.category (loadUserPrefs table input.guildId input.userId) quiet)

end

/-! What was stored. -/

/-- The last thing that was written under a key. -/
def lastWrite (writes : List UpsertPreferenceInput) (key : PreferenceKey) : Option Bool :=
  ((writes.filter fun input => input.key = key).getLast?).map UpsertPreferenceInput.enabled

theorem lastWrite_append (writes : List UpsertPreferenceInput) (input : UpsertPreferenceInput)
    (key : PreferenceKey) :
    lastWrite (writes ++ [input]) key =
      if input.key = key then some input.enabled else lastWrite writes key := by
  rw [lastWrite, List.filter_append]
  split
  · rename_i same
    rw [List.filter_cons_of_pos (by simpa using same), List.filter_nil, List.getLast?_append]
    rfl
  · rename_i apart
    rw [List.filter_cons_of_neg (by simpa using apart), List.filter_nil, List.append_nil]
    rfl

theorem upsertMany_append (table : PreferenceTable) (writes : List UpsertPreferenceInput)
    (input : UpsertPreferenceInput) :
    upsertMany table (writes ++ [input]) = upsert (upsertMany table writes) input := by
  simp [upsertMany]

/-- The table has the last writes, and nothing is deleted. -/
theorem find_upsertMany (writes : List UpsertPreferenceInput) (key : PreferenceKey) :
    (upsertMany Table.empty writes).find key =
      (lastWrite writes key).map fun enabled => { key, enabled, deletedAt := none } := by
  induction writes using List.reverseRecOn with
  | nil => rfl
  | append_singleton writes input ih =>
      rw [upsertMany_append, upsert, Table.find_upsert, lastWrite_append]
      by_cases same : input.key = key
      · rw [if_pos same, if_pos (show input.row.key = key from same), Option.map_some, ih, ← same]
        cases lastWrite writes input.key <;> rfl
      · rw [if_neg same, if_neg (show ¬ input.row.key = key from same), ih]

theorem categoryText_injective {left right : NotificationCategory}
    (same : categoryText left = categoryText right) : left = right := by
  cases left <;> cases right <;> first | rfl | exact absurd same (by decide)

theorem channelText_injective {left right : NotificationChannel}
    (same : left.text = right.text) : left = right := by
  cases left <;> cases right <;> first | rfl | exact absurd same (by decide)

theorem prefKey_injective {left right : NotificationCategory} {first second : NotificationChannel}
    (same : prefKey left first = prefKey right second) : left = right ∧ first = second := by
  have front (category : NotificationCategory) (channel : NotificationChannel) :
      (prefKey category channel).takeWhile (fun code => code ≠ unit 58) =
        categoryText category := by
    cases category <;> cases channel <;> decide
  have isCategory : left = right := by
    apply categoryText_injective
    rw [← front left first, same, front]
  subst isCategory
  exact ⟨rfl, channelText_injective (List.append_cancel_left same)⟩

/-- What the resolver reads of a user is the last write. -/
theorem loadUserPrefs_upsertMany (writes : List UpsertPreferenceInput) {guildId userId : JsString}
    (isGuild : guildId ≠ []) (isUser : userId ≠ []) (category : NotificationCategory)
    (channel : NotificationChannel) :
    (loadUserPrefs (upsertMany Table.empty writes) (some guildId) (some userId)
        (prefKey category channel)).map PreferenceRow.enabled =
      lastWrite writes { guildId, userId, category, channel } := by
  have found := find_upsertMany writes { guildId, userId, category, channel }
  have guild : truthy (some guildId) = some guildId := by simp [truthy, isGuild]
  have user : truthy (some userId) = some userId := by simp [truthy, isUser]
  rw [loadUserPrefs, guild, user]
  dsimp only
  cases read : Record.ofList PreferenceRow.prefKey
      (findForUser (upsertMany Table.empty writes) guildId userId) (prefKey category channel) with
  | some row =>
      obtain ⟨member, isKey⟩ := Record.ofList_find read
      obtain ⟨inTable, selected⟩ := List.mem_filter.mp member
      obtain ⟨ofGuild, ofUser, _⟩ := of_decide_eq_true selected
      obtain ⟨isCategory, isChannel⟩ := prefKey_injective isKey
      have isRow : row.key = { guildId, userId, category, channel } := by
        rw [← ofGuild, ← ofUser, ← isCategory, ← isChannel]
      have stored := Table.find_key inTable
      rw [isRow, found] at stored
      obtain ⟨enabled, written, rfl⟩ := Option.map_eq_some_iff.mp stored
      rw [written]
      rfl
  | none =>
      cases written : lastWrite writes { guildId, userId, category, channel } with
      | none => rfl
      | some enabled =>
          rw [written, Option.map_some] at found
          have member := (Table.find_eq_some_iff.mp found).1
          have listed : _ ∈ findForUser (upsertMany Table.empty writes) guildId userId :=
            List.mem_filter.mpr ⟨member, by simp⟩
          have present : (Record.ofList PreferenceRow.prefKey _ (PreferenceRow.prefKey _)).isSome :=
            Record.ofList_isSome listed
          rw [PreferenceRow.prefKey, read] at present
          cases present

/-! The quiet hours. -/

/-- One of the hours that come from the start on, around the clock, before the end. -/
def Quiet (quietHours : QuietHours) (hour : Nat) : Prop :=
  quietHours.enabled = true ∧
    ∃ passed < (quietHours.endHour + 24 - quietHours.startHour) % 24,
      (quietHours.startHour + passed) % 24 = hour

theorem hourInZone_lt (zoneHour : Timestamp → JsString → Option Nat) (now : Timestamp)
    (timezone : JsString) : hourInZone zoneHour now timezone < 24 := by
  unfold hourInZone
  split
  · omega
  · simp only [Calendar.fields, Calendar.dayMs]
    omega

theorem inQuietHours_iff (zoneHour : Timestamp → JsString → Option Nat)
    (config : NotificationsGuildConfig) (now : Timestamp) :
    inQuietHours zoneHour config now = true ↔
      Quiet config.quietHours (hourInZone zoneHour now config.quietHours.timezone) := by
  have bound := hourInZone_lt zoneHour now config.quietHours.timezone
  have startBound := config.quietHours.startBound
  have endBound := config.quietHours.endBound
  unfold inQuietHours Quiet
  dsimp only
  generalize hourInZone zoneHour now config.quietHours.timezone = hour at bound
  cases config.quietHours.enabled with
  | false => simp
  | true =>
      simp only [Bool.not_true, Bool.false_eq_true, if_false, true_and]
      split
      · rename_i none
        refine iff_of_false (by decide) ?_
        rintro ⟨passed, before, _⟩
        omega
      · split
        · rw [Bool.or_eq_true, decide_eq_true_eq, decide_eq_true_eq]
          constructor
          · rintro (late | early)
            · exact ⟨hour - config.quietHours.startHour, by omega, by omega⟩
            · exact ⟨hour + 24 - config.quietHours.startHour, by omega, by omega⟩
          · rintro ⟨passed, before, isHour⟩
            omega
        · rw [Bool.and_eq_true, decide_eq_true_eq, decide_eq_true_eq]
          constructor
          · rintro ⟨late, early⟩
            exact ⟨hour - config.quietHours.startHour, by omega, by omega⟩
          · rintro ⟨passed, before, isHour⟩
            omega

/-! The plan for a recipient. -/

/-- What `dispatch` asks for each recipient. -/
def channelsFor (guildId : Option JsString) (category : NotificationCategory)
    (priority : NotificationPriority) (channels : List NotificationChannel)
    (recipient : NotificationRecipient) : ResolveChannelsInput :=
  { guildId, userId := recipient.userId, category, priority, forcedChannels := channels }

def deliveryTo (recipient : NotificationRecipient) (channel : NotificationChannel) :
    CreateDeliveryInput :=
  { channel, recipientUserId := recipient.userId, recipientRef := recipientRef recipient channel
    scheduledFor := none }

def Addressed (recipient : NotificationRecipient) (channel : NotificationChannel) : Prop :=
  (truthy (recipientRef recipient channel)).isSome = true

instance (recipient : NotificationRecipient) (channel : NotificationChannel) :
    Decidable (Addressed recipient channel) :=
  inferInstanceAs (Decidable (_ = true))

/-- Both checks of an address come to one. -/
theorem planFor_cases (recipient : NotificationRecipient) (decision : ChannelDecision) :
    (decision.allowed = true ∧ Addressed recipient decision.channel ∧
        planFor recipient decision = .ok (deliveryTo recipient decision.channel)) ∨
      (¬ (decision.allowed = true ∧ Addressed recipient decision.channel) ∧
        ∃ reason, planFor recipient decision = .error reason) := by
  obtain ⟨channel, allowed, reason⟩ := decision
  cases allowed with
  | false => exact .inr ⟨by simp, _, rfl⟩
  | true =>
      by_cases addressed : Addressed recipient channel
      · refine .inl ⟨rfl, addressed, ?_⟩
        rw [Addressed, ← Option.not_isNone, Bool.not_eq_true'] at addressed
        cases channel <;> rw [recipientRef] at addressed <;>
          simp [planFor, Dispatch.channelRequiresAddress, recipientRef, deliveryTo, addressed]
      · refine .inr ⟨fun both => addressed both.2, ?_⟩
        rw [Addressed, ← Option.not_isNone, Bool.not_eq_true', Bool.not_eq_false] at addressed
        cases channel <;> rw [recipientRef] at addressed <;>
          simp [planFor, Dispatch.channelRequiresAddress, recipientRef, addressed]

/-- The channels that a loop over the decisions plans for, and the others. -/
theorem foldl_add (recipient : NotificationRecipient) (decisions : List ChannelDecision)
    (plan : Plan) :
    ∃ skips : List Skip,
      (decisions.foldl (Plan.add recipient) plan).planned = plan.planned ++
        ((decisions.filter fun decision =>
          decision.allowed = true ∧ Addressed recipient decision.channel).map
            ChannelDecision.channel).map (deliveryTo recipient) ∧
      (decisions.foldl (Plan.add recipient) plan).skipped = plan.skipped ++ skips ∧
      skips.map Prod.fst = (decisions.filter fun decision =>
        ¬ (decision.allowed = true ∧ Addressed recipient decision.channel)).map
          ChannelDecision.channel := by
  induction decisions generalizing plan with
  | nil => exact ⟨[], by simp⟩
  | cons decision rest ih =>
      obtain ⟨skips, planned, skipped, channels⟩ := ih (plan.add recipient decision)
      rw [List.foldl_cons]
      rcases planFor_cases recipient decision with
        ⟨allowed, addressed, isPlan⟩ | ⟨refused, reason, isPlan⟩
      · refine ⟨skips, ?_, ?_, ?_⟩
        · rw [planned, List.filter_cons_of_pos (by simp [allowed, addressed])]
          simp [Plan.add, isPlan]
        · rw [skipped]
          simp [Plan.add, isPlan]
        · rw [channels, List.filter_cons_of_neg (by simp [allowed, addressed])]
      · refine ⟨(decision.channel, reason) :: skips, ?_, ?_, ?_⟩
        · rw [planned, List.filter_cons_of_neg (by simpa using refused)]
          simp [Plan.add, isPlan]
        · rw [skipped]
          simp [Plan.add, isPlan]
        · rw [List.map_cons, channels,
            List.filter_cons_of_pos (by rw [decide_eq_true_eq]; exact refused), List.map_cons]

theorem candidateChannels_nodup (input : ResolveChannelsInput) (config : NotificationsGuildConfig) :
    (candidateChannels input config).Nodup := by
  unfold candidateChannels
  split
  · exact List.Nodup.filter _ (by decide)
  · exact (Filtered.eraseDups_sublist_nodup input.forcedChannels).2

theorem mem_candidateChannels {input : ResolveChannelsInput} {config : NotificationsGuildConfig}
    {channel : NotificationChannel} :
    channel ∈ candidateChannels input config ↔
      if input.forcedChannels = [] then channel ∈ config.enabledChannels
      else channel ∈ input.forcedChannels := by
  unfold candidateChannels
  split
  · rw [List.mem_filter, List.contains_iff_mem]
    exact and_iff_right (by cases channel <;> decide)
  · exact List.mem_eraseDups

/-- A notification reaches a recipient on a channel. -/
structure Reaches (zoneHour : Timestamp → JsString → Option Nat)
    (writes : List UpsertPreferenceInput) (config : NotificationsGuildConfig) (now : Timestamp)
    (input : ResolveChannelsInput) (recipient : NotificationRecipient)
    (channel : NotificationChannel) : Prop where
  listed : if input.forcedChannels = [] then channel ∈ config.enabledChannels
    else channel ∈ input.forcedChannels
  wanted : ∀ guildId userId, input.guildId = some guildId → guildId ≠ [] →
    input.userId = some userId → userId ≠ [] →
    lastWrite writes { guildId, userId, category := input.category, channel } ≠ some false
  awake : input.priority = .critical ∨
    ¬ Quiet config.quietHours (hourInZone zoneHour now config.quietHours.timezone)
  addressed : Addressed recipient channel

theorem truthy_eq_some {text : Option JsString} {value : JsString} :
    truthy text = some value ↔ text = some value ∧ value ≠ [] := by
  simp [truthy, Option.filter_eq_some_iff]

/-- A user is asked for only where there is a guild, and both have ids. -/
theorem unwanted_iff (writes : List UpsertPreferenceInput) (guildId userId : Option JsString)
    (category : NotificationCategory) (channel : NotificationChannel) :
    (loadUserPrefs (upsertMany Table.empty writes) guildId userId
        (prefKey category channel)).map PreferenceRow.enabled = some false ↔
      ∃ guild user, guildId = some guild ∧ guild ≠ [] ∧ userId = some user ∧ user ≠ [] ∧
        lastWrite writes { guildId := guild, userId := user, category, channel } = some false := by
  constructor
  · intro refused
    cases isGuild : truthy guildId with
    | none => simp [loadUserPrefs, isGuild, Record.empty] at refused
    | some guild =>
        cases isUser : truthy userId with
        | none => simp [loadUserPrefs, isGuild, isUser, Record.empty] at refused
        | some user =>
            obtain ⟨rfl, guildNonempty⟩ := truthy_eq_some.mp isGuild
            obtain ⟨rfl, userNonempty⟩ := truthy_eq_some.mp isUser
            rw [loadUserPrefs_upsertMany writes guildNonempty userNonempty] at refused
            exact ⟨guild, user, rfl, guildNonempty, rfl, userNonempty, refused⟩
  · rintro ⟨guild, user, rfl, guildNonempty, rfl, userNonempty, refused⟩
    rw [loadUserPrefs_upsertMany writes guildNonempty userNonempty]
    exact refused

theorem reaches_iff (zoneHour : Timestamp → JsString → Option Nat)
    (writes : List UpsertPreferenceInput) (config : NotificationsGuildConfig) (now : Timestamp)
    (input : ResolveChannelsInput) (recipient : NotificationRecipient)
    (channel : NotificationChannel) :
    Reaches zoneHour writes config now input recipient channel ↔
      channel ∈ candidateChannels input config ∧
        (decideChannel input.category
          (loadUserPrefs (upsertMany Table.empty writes) input.guildId input.userId)
          (input.priority ≠ .critical && inQuietHours zoneHour config now) channel).allowed = true ∧
        Addressed recipient channel := by
  have quiet := inQuietHours_iff zoneHour config now
  have unwanted := unwanted_iff writes input.guildId input.userId input.category channel
  rw [mem_candidateChannels]
  constructor
  · intro reaches
    refine ⟨reaches.listed, ?_, reaches.addressed⟩
    rw [decideChannel, if_neg, if_neg]
    · rcases reaches.awake with critical | awake
      · simp [critical]
      · simp [quiet, awake]
    · rintro refused
      obtain ⟨guild, user, isGuild, guildNonempty, isUser, userNonempty, isFalse⟩ :=
        unwanted.mp refused
      exact reaches.wanted guild user isGuild guildNonempty isUser userNonempty isFalse
  · rintro ⟨listed, allowed, addressed⟩
    rw [decideChannel] at allowed
    split at allowed
    · cases allowed
    · rename_i notRefused
      split at allowed
      · cases allowed
      · rename_i notQuiet
        refine ⟨listed, ?_, ?_, addressed⟩
        · intro guild user isGuild guildNonempty isUser userNonempty isFalse
          exact notRefused
            (unwanted.mpr ⟨guild, user, isGuild, guildNonempty, isUser, userNonempty, isFalse⟩)
        · by_cases critical : input.priority = .critical
          · exact .inl critical
          · refine .inr fun isQuiet => notQuiet ?_
            simp [critical, quiet.mpr isQuiet]

end Notifications.Preferences
