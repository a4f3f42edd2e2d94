import ArmstrongBot.Permissions.Mutations
import ArmstrongBot.Events.Envelope
import ArmstrongBot.Library.StepMachine

/-! One process with the cached context of one guild: the two tiers of `CacheService.getOrSet`,
its loader, the mutations, and the invalidation that the event handlers of `PermissionService`
start and nobody awaits. -/

namespace Permissions

open JsText StepMachine
open Events (getEventPolicy)

inductive Table
  | grants
  | mappings
  deriving DecidableEq

def Mutation.table : Mutation → Table
  | .setClaimGrant _ _ _ | .removeClaimGrant _ _ => .grants
  | .assignGroup _ _ | .unassignGroup _ _ => .mappings

structure Versions where
  grants : Nat
  mappings : Nat
  deriving DecidableEq

namespace Versions

def zero : Versions := { grants := 0, mappings := 0 }

def Le (first second : Versions) : Prop :=
  first.grants ≤ second.grants ∧ first.mappings ≤ second.mappings

instance (first second : Versions) : Decidable (Le first second) :=
  inferInstanceAs (Decidable (_ ∧ _))

def join (first second : Versions) : Versions :=
  { grants := max first.grants second.grants, mappings := max first.mappings second.mappings }

def bump (versions : Versions) : Table → Versions
  | .grants => { versions with grants := versions.grants + 1 }
  | .mappings => { versions with mappings := versions.mappings + 1 }

def only (versions : Versions) : Table → Versions
  | .grants => { grants := versions.grants, mappings := 0 }
  | .mappings => { grants := 0, mappings := versions.mappings }

theorem Le.refl (versions : Versions) : Le versions versions := ⟨Nat.le_refl _, Nat.le_refl _⟩

theorem Le.trans {first second third : Versions} (left : Le first second) (right : Le second third) :
    Le first third := ⟨left.1.trans right.1, left.2.trans right.2⟩

theorem zero_le (versions : Versions) : Le zero versions := ⟨Nat.zero_le _, Nat.zero_le _⟩

theorem join_le {first second bound : Versions} :
    Le (join first second) bound ↔ Le first bound ∧ Le second bound := by
  simp only [Le, join]
  omega

theorem le_bump (versions : Versions) (table : Table) : Le versions (versions.bump table) := by
  cases table <;> simp [Le, bump]

theorem only_le (versions : Versions) (table : Table) : Le (versions.only table) versions := by
  cases table <;> simp [Le, only]

end Versions

/-- A context with the mutations committed when the rows of each table were read. -/
structure Loaded where
  snapshot : Snapshot
  read : Versions

/-- `loadSnapshot` under way, with the results that have come back. -/
structure Loader where
  groups : Option (List ResolvedGroup × Nat)
  mappings : Option (Record (List JsString) × Nat)

inductive Phase
  | asked
  | answered (hit : Option Loaded)
  | joined
  | decided (loaded : Loaded)
  | failed

/-- A call of `can`; `floor` counts the mutations that had returned when it started. -/
structure Check where
  actor : PermissionActor
  claim : JsString
  floor : Versions
  phase : Phase

inductive CallPhase
  | written
  | published
  | returned
  deriving DecidableEq

structure Call where
  mutation : Mutation
  stamp : Versions
  phase : CallPhase

structure State where
  database : Database
  written : Versions
  returned : Versions
  calls : List Call
  jobs : Nat
  l1 : Option Loaded
  l2 : Option Loaded
  writes : List Loaded
  deletes : Nat
  loader : Option Loader
  checks : List Check

def State.start (database : Database) : State :=
  { database, written := .zero, returned := .zero, calls := [], jobs := 0, l1 := none, l2 := none
    writes := [], deletes := 0, loader := none, checks := [] }

/-- The steps between two awaits. A Redis command takes effect some time after it is issued, or
fails and is passed over. -/
inductive Action
  | write (mutation : Mutation)
  | publish (call : Nat)
  | returns (call : Nat)
  | handle
  | landDelete (fails : Bool)
  | landWrite (index : Nat) (fails : Bool)
  | check (actor : PermissionActor) (claim : JsString)
  | fetch (check : Nat) (fails : Bool)
  | resume (check : Nat)
  | readGroups
  | readMappings
  | finishLoad
  | failLoad
  | expireL1
  | expireL2

/-- `void cacheFacade.invalidate(…)`: the first tier forgets at once, the second is told to. -/
def invalidate (state : State) : State := { state with l1 := none, deletes := state.deletes + 1 }

def publishChange (state : State) (mutation : Mutation) : State :=
  let delivery := (getEventPolicy mutation.event).delivery
  let dispatched := if delivery.usesSync then invalidate state else state
  if delivery.usesAsync then { dispatched with jobs := dispatched.jobs + 1 } else dispatched

def setCall (state : State) (index : Nat) (call : Call) : State :=
  { state with calls := state.calls.set index call }

def setPhase (state : State) (index : Nat) (check : Check) (phase : Phase) : State :=
  { state with checks := state.checks.set index { check with phase } }

def settleJoined (phase : Phase) (check : Check) : Check :=
  match check.phase with
  | .joined => { check with phase }
  | _ => check

def writeRows (guildId : JsString) (state : State) (mutation : Mutation) : Option State :=
  (Permissions.mutate state.database guildId mutation).map fun database =>
    let written := state.written.bump mutation.table
    { state with
      database, written
      calls := state.calls ++ [{ mutation, stamp := written.only mutation.table, phase := .written }] }

/-- `CacheService.get` up to the answer of the first tier. -/
def startCheck (state : State) (actor : PermissionActor) (claim : JsString) : State :=
  let phase := match state.l1 with
    | some loaded => Phase.decided loaded
    | none => .asked
  { state with checks := state.checks ++ [{ actor, claim, floor := state.returned, phase }] }

/-- What `getOrSet` does with the answer of the second tier. -/
def resumeCheck (state : State) (index : Nat) (check : Check) : Option Loaded → State
  | some hit => { (setPhase state index check (.decided hit)) with l1 := some hit }
  | none =>
      { (setPhase state index check .joined) with
        loader := some (state.loader.getD { groups := none, mappings := none }) }

/-- The loader is done: whoever joined it moves on. -/
def settle (state : State) (phase : Phase) : State :=
  { state with loader := none, checks := state.checks.map (settleJoined phase) }

def finishLoad (state : State) (groups : List ResolvedGroup × Nat)
    (mappings : Record (List JsString) × Nat) : State :=
  let loaded : Loaded :=
    { snapshot := snapshotOf groups.1 mappings.1
      read := { grants := groups.2, mappings := mappings.2 } }
  { (settle state (.decided loaded)) with
    l1 := some loaded
    writes := state.writes ++ [loaded] }

def step (guildId : JsString) (state : State) : Action → Option State
  | .write mutation => writeRows guildId state mutation
  | .publish index =>
      match state.calls[index]? with
      | some call =>
          if call.phase = .written then
            some (publishChange (setCall state index { call with phase := .published }) call.mutation)
          else none
      | none => none
  | .returns index =>
      match state.calls[index]? with
      | some call =>
          if call.phase = .published then
            some { (setCall state index { call with phase := .returned }) with
              returned := state.returned.join call.stamp }
          else none
      | none => none
  | .handle => if state.jobs = 0 then none else some (invalidate { state with jobs := state.jobs - 1 })
  | .landDelete fails =>
      if state.deletes = 0 then none
      else some { state with
        deletes := state.deletes - 1
        l2 := if fails then state.l2 else none }
  | .landWrite index fails =>
      match state.writes[index]? with
      | some loaded => some { state with
          writes := state.writes.eraseIdx index
          l2 := if fails then state.l2 else some loaded }
      | none => none
  | .check actor claim => some (startCheck state actor claim)
  | .fetch index fails =>
      match state.checks[index]? with
      | some check =>
          match check.phase with
          | .asked => some (setPhase state index check (.answered (if fails then none else state.l2)))
          | _ => none
      | none => none
  | .resume index =>
      match state.checks[index]? with
      | some check =>
          match check.phase with
          | .answered hit => some (resumeCheck state index check hit)
          | _ => none
      | none => none
  | .readGroups =>
      match state.loader with
      | some loader =>
          if loader.groups.isSome then none
          else some { state with loader := some { loader with
            groups := some (loadResolvedGroups state.database guildId, state.written.grants) } }
      | none => none
  | .readMappings =>
      match state.loader with
      | some loader =>
          if loader.mappings.isSome then none
          else some { state with loader := some { loader with
            mappings := some (buildRoleToGroupsMap state.database guildId, state.written.mappings) } }
      | none => none
  | .finishLoad =>
      match state.loader with
      | some { groups := some groups, mappings := some mappings } =>
          some (finishLoad state groups mappings)
      | _ => none
  | .failLoad =>
      if state.loader.isSome then some (settle state .failed) else none
  | .expireL1 => some { state with l1 := none }
  | .expireL2 => some { state with l2 := none }

def Check.answer (botOwnerIds : List JsString) (check : Check) : Option (Except PermissionError Bool) :=
  match check.phase with
  | .decided loaded => some (can botOwnerIds loaded.snapshot check.actor check.claim)
  | _ => none

/-- Every check decides on a context that includes each mutation that had returned before it. -/
def DecideCurrently (state : State) : Prop :=
  ∀ check ∈ state.checks, ∀ loaded, check.phase = .decided loaded →
    check.floor.Le loaded.read

/-! The contexts that a later check may still be served. -/

def Check.hit (check : Check) : Option Loaded :=
  match check.phase with
  | .answered hit => hit
  | _ => none

/-- The contexts in either tier, on their way to the second, or handed to a check. -/
def contexts (state : State) : List Loaded :=
  state.l1.toList ++ state.l2.toList ++ state.writes ++ state.checks.filterMap Check.hit

def Loader.After (loader : Loader) (floor : Versions) : Prop :=
  (∀ groups ∈ loader.groups, floor.grants ≤ groups.2) ∧
    ∀ mappings ∈ loader.mappings, floor.mappings ≤ mappings.2

/-- No context that lacks one of the counted mutations is cached or on its way into a cache. -/
def Fresh (floor : Versions) (state : State) : Prop :=
  (∀ loaded ∈ contexts state, floor.Le loaded.read) ∧ ∀ loader ∈ state.loader, loader.After floor

/-- A mutation returns only when no context from before it is left. -/
def ReturnsSettled (state : State) : Action → Prop
  | .returns index => ∀ call ∈ state.calls[index]?, Fresh call.stamp state
  | _ => True

end Permissions
