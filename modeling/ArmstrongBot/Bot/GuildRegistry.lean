import ArmstrongBot.Library.Calendar
import ArmstrongBot.Library.StepMachine
import ArmstrongBot.Library.Table

/-! `GuildRegistryRepository` under the handlers of `BotGatewayListener`: the reconciliation of the
guilds at `ready` beside the guilds that the bot joins and leaves while it runs. -/

namespace GuildRegistry

open JsText StepMachine
open Calendar (Timestamp)

structure GuildSnapshot where
  discordId : JsString
  name : JsString
  iconHash : Option JsString
  ownerId : JsString
  deriving DecidableEq

structure GuildRow where
  discordId : JsString
  name : JsString
  iconHash : Option JsString
  ownerId : JsString
  active : Bool
  deletedAt : Option Timestamp
  deriving DecidableEq

abbrev Guilds := Table GuildRow.discordId

def GuildSnapshot.toRow (snapshot : GuildSnapshot) : GuildRow :=
  { discordId := snapshot.discordId, name := snapshot.name, iconHash := snapshot.iconHash
    ownerId := snapshot.ownerId, active := true, deletedAt := none }

def GuildRow.refreshed (snapshot : GuildSnapshot) (row : GuildRow) : GuildRow :=
  { row with
    name := snapshot.name, iconHash := snapshot.iconHash, ownerId := snapshot.ownerId
    active := true, deletedAt := none }

def GuildRow.deactivated (now : Timestamp) (row : GuildRow) : GuildRow :=
  { row with active := false, deletedAt := some now }

theorem refreshed_discordId (snapshot : GuildSnapshot) (row : GuildRow) :
    (row.refreshed snapshot).discordId = row.discordId := rfl

theorem deactivated_discordId (now : Timestamp) (row : GuildRow) :
    (row.deactivated now).discordId = row.discordId := rfl

def upsert (guilds : Guilds) (snapshot : GuildSnapshot) : Guilds :=
  guilds.upsert snapshot.toRow (GuildRow.refreshed snapshot) (refreshed_discordId snapshot)

def deactivate (guilds : Guilds) (discordId : JsString) (now : Timestamp) : Guilds :=
  guilds.update (fun row => row.discordId = discordId) (GuildRow.deactivated now)
    (deactivated_discordId now)

/-- The last command of `reconcile`. -/
def deactivateOthers (guilds : Guilds) (ids : List JsString) (now : Timestamp) : Guilds :=
  guilds.update (fun row => row.active && (ids.isEmpty || row.discordId ∉ ids))
    (GuildRow.deactivated now) (deactivated_discordId now)

/-- A gateway event whose handler has not come to the database. -/
inductive Event
  | guildCreate (snapshot : GuildSnapshot)
  | guildDelete (discordId : JsString)
  deriving DecidableEq

def Event.guild : Event → JsString
  | .guildCreate snapshot => snapshot.discordId
  | .guildDelete discordId => discordId

def Event.joins : Event → Bool
  | .guildCreate _ => true
  | .guildDelete _ => false

def Event.handle (guilds : Guilds) (now : Timestamp) : Event → Guilds
  | .guildCreate snapshot => upsert guilds snapshot
  | .guildDelete discordId => deactivate guilds discordId now

/-- How far `reconcile` is with its snapshots. -/
inductive Work
  | upserting (ids : List JsString) (remaining : List GuildSnapshot)
  | done
  deriving DecidableEq

/-- The table, the guilds the bot is a member of, and what is under way. -/
structure State where
  guilds : Guilds
  members : List GuildSnapshot
  work : Work
  pending : List Event

def memberIds (members : List GuildSnapshot) : List JsString :=
  members.map GuildSnapshot.discordId

/-- `onReady`, with the table as the run before it left it. -/
def State.ready (guilds : Guilds) (members : List GuildSnapshot) : State :=
  { guilds, members, work := .upserting (memberIds members) members, pending := [] }

inductive Action
  | join (snapshot : GuildSnapshot)
  | leave (discordId : JsString)
  | reconcile (now : Timestamp)
  | handle (event : Nat) (now : Timestamp)

def reconcile (state : State) (now : Timestamp) : Option State :=
  match state.work with
  | .upserting ids (snapshot :: rest) =>
      some { state with guilds := upsert state.guilds snapshot, work := .upserting ids rest }
  | .upserting ids [] =>
      some { state with guilds := deactivateOthers state.guilds ids now, work := .done }
  | .done => none

/-- The handlers of a guild, in the order of their events. -/
def handlersOf (guild : JsString) (pending : List Event) : List Event :=
  pending.filter fun event => event.guild = guild

def step (state : State) : Action → Option State
  | .join snapshot =>
      if snapshot.discordId ∈ memberIds state.members then none
      else some { state with
        members := state.members ++ [snapshot]
        pending := state.pending ++ [.guildCreate snapshot] }
  | .leave discordId =>
      if discordId ∈ memberIds state.members then some { state with
        members := state.members.filter fun snapshot => snapshot.discordId ≠ discordId
        pending := state.pending ++ [.guildDelete discordId] }
      else none
  | .reconcile now => reconcile state now
  | .handle index now =>
      match state.pending[index]? with
      | some event =>
          if handlersOf event.guild (state.pending.take index) = [] then some { state with
            guilds := event.handle state.guilds now, pending := state.pending.eraseIdx index }
          else none
      | none => none

/-- Once all handlers have finished, the active rows are the guilds of the bot. -/
def Agrees (state : State) : Prop :=
  state.work = .done → state.pending = [] → ∀ discordId,
    (∃ row ∈ state.guilds.rows, row.discordId = discordId ∧ row.active = true) ↔
      discordId ∈ memberIds state.members

/-- `reconcile` activates a guild only while the bot is in it, and deactivates one only while the
bot is not, unless a handler of the guild is still to run. -/
def Current (state : State) : Action → Prop
  | .reconcile _ =>
      match state.work with
      | .upserting _ (snapshot :: _) =>
          snapshot.discordId ∈ memberIds state.members ∨
            handlersOf snapshot.discordId state.pending ≠ []
      | .upserting ids [] => ∀ discordId ∈ memberIds state.members,
          discordId ∈ ids ∨ handlersOf discordId state.pending ≠ []
      | .done => True
  | _ => True

/-! The active rows after each command. -/

def isActive (guilds : Guilds) (discordId : JsString) : Bool :=
  (guilds.find discordId).any GuildRow.active

variable {guilds : Guilds} {discordId : JsString}

theorem isActive_iff :
    isActive guilds discordId = true ↔
      ∃ row ∈ guilds.rows, row.discordId = discordId ∧ row.active = true := by
  simp only [isActive, Option.any_eq_true, Table.find_eq_some_iff, and_assoc]

theorem isActive_upsert (snapshot : GuildSnapshot) :
    isActive (upsert guilds snapshot) discordId =
      if snapshot.discordId = discordId then true else isActive guilds discordId := by
  have isKey : snapshot.toRow.discordId = snapshot.discordId := rfl
  rw [isActive, upsert, Table.find_upsert, isKey]
  split
  · cases guilds.find discordId <;> rfl
  · rfl

theorem isActive_deactivate (other : JsString) (now : Timestamp) :
    isActive (deactivate guilds other now) discordId =
      if other = discordId then false else isActive guilds discordId := by
  rw [isActive, deactivate, Table.find_update]
  cases found : guilds.find discordId with
  | none => simp [isActive, found]
  | some row =>
      have isKey := Table.key_of_find found
      by_cases same : other = discordId
      · simp [same, isKey, GuildRow.deactivated]
      · simp [same, isKey, isActive, found, Ne.symm same]

theorem isActive_deactivateOthers (ids : List JsString) (now : Timestamp) :
    isActive (deactivateOthers guilds ids now) discordId =
      if discordId ∈ ids then isActive guilds discordId else false := by
  rw [isActive, deactivateOthers, Table.find_update]
  cases found : guilds.find discordId with
  | none => simp [isActive, found]
  | some row =>
      have isKey := Table.key_of_find found
      by_cases known : discordId ∈ ids
      · have nonempty : ids ≠ [] := List.ne_nil_of_mem known
        simp [known, nonempty, isKey, isActive, found]
      · cases isRowActive : row.active <;>
          simp [known, isKey, isRowActive, GuildRow.deactivated]

theorem isActive_handle (event : Event) (now : Timestamp) :
    isActive (event.handle guilds now) discordId =
      if event.guild = discordId then event.joins else isActive guilds discordId := by
  cases event with
  | guildCreate snapshot => exact isActive_upsert snapshot
  | guildDelete other => exact isActive_deactivate other now

/-! The handlers that are to run. -/

variable {state next : State}

theorem handlersOf_append (pending : List Event) (event : Event) :
    handlersOf discordId (pending ++ [event]) =
      handlersOf discordId pending ++ if event.guild = discordId then [event] else [] := by
  rw [handlersOf, List.filter_append]
  by_cases same : event.guild = discordId <;> simp [handlersOf, same]

theorem handlersOf_eraseIdx {pending : List Event} {index : Nat} {event : Event}
    (found : pending[index]? = some event)
    (first : handlersOf event.guild (pending.take index) = []) :
    handlersOf discordId pending =
      (if event.guild = discordId then [event] else []) ++
        handlersOf discordId (pending.eraseIdx index) := by
  obtain ⟨bound, isEvent⟩ := List.getElem?_eq_some_iff.mp found
  have whole : pending = pending.take index ++ event :: pending.drop (index + 1) := by
    rw [← isEvent, ← List.drop_eq_getElem_cons bound, List.take_append_drop]
  have split := congrArg (handlersOf discordId) whole
  rw [split, List.eraseIdx_eq_take_drop_succ]
  by_cases same : event.guild = discordId
  · subst same
    simp only [handlersOf] at first
    simp [handlersOf, first]
  · simp [handlersOf, same]

/-- `reconcile` has nothing more to do to the guild. -/
def Reconciled (state : State) (discordId : JsString) : Prop :=
  match state.work with
  | .upserting ids remaining => discordId ∈ ids ∧ discordId ∉ memberIds remaining
  | .done => True

structure Sound (state : State) : Prop where
  known : ∀ ids remaining, state.work = .upserting ids remaining →
    ∀ discordId ∈ memberIds remaining, discordId ∈ ids
  last : ∀ discordId event, (handlersOf discordId state.pending).getLast? = some event →
    (event.joins = true ↔ discordId ∈ memberIds state.members)
  settled : ∀ discordId, handlersOf discordId state.pending = [] → Reconciled state discordId →
    (isActive state.guilds discordId = true ↔ discordId ∈ memberIds state.members)

theorem sound_ready (guilds : Guilds) (members : List GuildSnapshot) :
    Sound (State.ready guilds members) := by
  refine ⟨?_, ?_, ?_⟩
  · intro ids remaining isWork
    obtain ⟨rfl, rfl⟩ := Work.upserting.inj isWork
    exact fun _ member => member
  · simp [State.ready, handlersOf]
  · rintro discordId _ ⟨member, absent⟩
    exact absurd member absent

theorem sound_event (sound : Sound state) {event : Event} {members : List GuildSnapshot}
    (tells : event.joins = true ↔ event.guild ∈ memberIds members)
    (others : ∀ discordId, discordId ≠ event.guild →
      (discordId ∈ memberIds members ↔ discordId ∈ memberIds state.members)) :
    Sound { state with members, pending := state.pending ++ [event] } := by
  refine ⟨sound.known, ?_, ?_⟩
  · intro discordId last isLast
    rw [handlersOf_append] at isLast
    by_cases same : event.guild = discordId
    · subst same
      rw [if_pos rfl, List.getLast?_concat] at isLast
      rw [← Option.some.inj isLast]
      exact tells
    · rw [if_neg same, List.append_nil] at isLast
      exact (sound.last discordId last isLast).trans (others discordId (Ne.symm same)).symm
  · intro discordId none reconciled
    rw [handlersOf_append, List.append_eq_nil_iff] at none
    have apart : event.guild ≠ discordId := by
      rintro same
      simp [same] at none
    exact (sound.settled discordId none.1 reconciled).trans (others discordId (Ne.symm apart)).symm

theorem sound_reconcile (sound : Sound state) {now : Timestamp}
    (current : Current state (.reconcile now)) (taken : reconcile state now = some next) :
    Sound next := by
  unfold reconcile at taken
  split at taken
  · rename_i ids snapshot rest isWork
    obtain rfl := Option.some.inj taken
    simp only [Current, isWork] at current
    refine ⟨?_, sound.last, ?_⟩
    · intro otherIds remaining isNext discordId member
      obtain ⟨rfl, rfl⟩ := Work.upserting.inj isNext
      exact sound.known ids _ isWork discordId (List.mem_cons_of_mem _ member)
    · rintro discordId none ⟨isKnown, absent⟩
      simp only [isActive_upsert]
      by_cases same : snapshot.discordId = discordId
      · subst same
        rw [if_pos rfl, eq_self_iff_true, true_iff]
        exact current.resolve_right fun waits => waits none
      · rw [if_neg same]
        refine sound.settled discordId none ?_
        simp only [Reconciled, isWork, memberIds, List.map_cons, List.mem_cons, not_or]
        exact ⟨isKnown, Ne.symm same, absent⟩
  · rename_i ids isWork
    obtain rfl := Option.some.inj taken
    simp only [Current, isWork] at current
    refine ⟨by simp, sound.last, ?_⟩
    intro discordId none _
    simp only [isActive_deactivateOthers]
    split
    · rename_i isKnown
      refine sound.settled discordId none ?_
      simp [Reconciled, isWork, isKnown, memberIds]
    · rename_i unknown
      have gone : discordId ∉ memberIds state.members := by
        rintro member
        rcases current discordId member with isKnown | waits
        · exact unknown isKnown
        · exact waits none
      simp [gone]
  · cases taken

theorem sound_handle (sound : Sound state) {index : Nat} {event : Event} {now : Timestamp}
    (found : state.pending[index]? = some event)
    (first : handlersOf event.guild (state.pending.take index) = []) :
    Sound { state with
      guilds := event.handle state.guilds now, pending := state.pending.eraseIdx index } := by
  refine ⟨sound.known, ?_, ?_⟩
  · intro discordId last isLast
    refine sound.last discordId last ?_
    rw [handlersOf_eraseIdx found first, List.getLast?_append]
    simp only at isLast
    rw [isLast, Option.some_or]
  · intro discordId none reconciled
    have before : handlersOf discordId state.pending = _ := handlersOf_eraseIdx found first
    simp only at none
    rw [none, List.append_nil] at before
    simp only [isActive_handle]
    by_cases same : event.guild = discordId
    · subst same
      rw [if_pos rfl] at before ⊢
      exact sound.last _ event (by rw [before]; rfl)
    · rw [if_neg same] at before ⊢
      exact sound.settled discordId before reconciled

theorem sound_step {action : Action} (sound : Sound state) (current : Current state action)
    (taken : step state action = some next) : Sound next := by
  cases action with
  | join snapshot =>
      simp only [step] at taken
      split at taken
      · cases taken
      · obtain rfl := Option.some.inj taken
        refine sound_event sound ?_ ?_
        · simp [Event.joins, Event.guild, memberIds]
        · intro discordId apart
          have isOther : discordId ≠ snapshot.discordId := apart
          simp [memberIds, isOther]
  | leave discordId =>
      simp only [step] at taken
      split at taken
      · obtain rfl := Option.some.inj taken
        refine sound_event sound ?_ ?_
        · simp [Event.joins, Event.guild, memberIds]
        · intro other apart
          have isOther : other ≠ discordId := apart
          simp only [memberIds, List.mem_map, List.mem_filter, decide_eq_true_eq]
          constructor
          · rintro ⟨snapshot, ⟨member, _⟩, rfl⟩
            exact ⟨snapshot, member, rfl⟩
          · rintro ⟨snapshot, member, rfl⟩
            exact ⟨snapshot, ⟨member, isOther⟩, rfl⟩
      · cases taken
  | reconcile now => exact sound_reconcile sound current taken
  | handle index now =>
      simp only [step] at taken
      split at taken
      · rename_i event found
        split at taken
        · rename_i first
          obtain rfl := Option.some.inj taken
          exact sound_handle sound found first
        · cases taken
      · cases taken

theorem agrees_of_sound (sound : Sound state) : Agrees state := by
  intro done finished discordId
  rw [← isActive_iff]
  refine sound.settled discordId (by simp [finished, handlersOf]) ?_
  simp [Reconciled, done]

/-- The registry agrees with the membership where `reconcile` only does what still holds. -/
theorem agrees_of_current (guilds : Guilds) (members : List GuildSnapshot) (actions : List Action)
    (guarded : Guarded step Current (State.ready guilds members) actions) :
    Always step Agrees (State.ready guilds members) actions := by
  have sound : Always step Sound (State.ready guilds members) actions :=
    always_of_guarded step
      (fun state action next sound current taken => sound_step sound current taken)
      (sound_ready guilds members) guarded
  exact sound.mono _ fun state sound => agrees_of_sound sound

instance (state : State) (action : Action) : Decidable (Current state action) := by
  cases action with
  | reconcile now =>
      unfold Current
      dsimp only
      split <;> infer_instance
  | join _ | leave _ | handle _ _ => exact .isTrue trivial

/-! The bot is in one guild when it is ready, and in another one a little later. -/

def first : GuildSnapshot :=
  { discordId := js "1", name := js "first", iconHash := none, ownerId := js "u" }

def second : GuildSnapshot :=
  { discordId := js "2", name := js "second", iconHash := none, ownerId := js "u" }

/-- The handler of the second guild runs after the reconciliation. -/
theorem agrees_joined_meanwhile :
    Always step Agrees (State.ready .empty [first])
      [.join second, .reconcile 0, .reconcile 0, .handle 0 0] :=
  agrees_of_current .empty [first] _ (by decide +kernel)

def activeMember (state : State) (discordId : JsString) : Bool :=
  state.work ≠ .done || !state.pending.isEmpty || discordId ∉ memberIds state.members ||
    isActive state.guilds discordId

theorem activeMember_of_agrees (state : State) (agrees : Agrees state) :
    activeMember state (js "2") = true := by
  by_contra fails
  simp only [activeMember, Bool.not_eq_true, Bool.or_eq_false_iff, decide_eq_false_iff_not,
    not_not, ne_eq, Bool.not_eq_false', List.isEmpty_iff, and_assoc] at fails
  obtain ⟨done, finished, member, inactive⟩ := fails
  have active := isActive_iff.mpr ((agrees done finished (js "2")).mpr member)
  rw [inactive] at active
  cases active

/-- The bulk deactivation takes a guild that has joined since the snapshot for one that is gone. -/
theorem joined_guild_deactivated :
    ¬ ∀ (guilds : Guilds) (members : List GuildSnapshot) (actions : List Action),
      Always step Agrees (State.ready guilds members) actions := by
  intro all
  refine not_always step (fun state => activeMember state (js "2")) activeMember_of_agrees ?_
    (all .empty [first] [.join second, .reconcile 0, .handle 0 0, .reconcile 0])
  decide +kernel

end GuildRegistry
