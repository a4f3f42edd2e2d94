import ArmstrongBot.Cache.Instances
import ArmstrongBot.I18n.Translations
import ArmstrongBot.Library.StepMachine

/-! `TranslationServiceImpl` in any number of processes with one Redis and one database: the bundles
it keeps in a map of its own, in the memory of the cache and in Redis, and the events that
invalidate them. The calls advance from await to await. -/

namespace I18n

open JsText StepMachine CacheService
open Calendar (Timestamp)

def colon : CodeUnit := unit 58

/-- Where `t` looks a key up. The ids of guilds, like the namespaces that `parseKey` reads, have no
colon, and none of them is the word that stands for all guilds. -/
structure Scope where
  guildId : Option JsString
  locale : JsString
  ns : JsString
  guildFormed : ∀ id ∈ guildId, id ≠ [] ∧ colon ∉ id ∧ id ≠ js "global"
  nsFormed : colon ∉ ns
  deriving DecidableEq

def Scope.inLocale (scope : Scope) (locale : JsString) : Scope := { scope with locale }

def Scope.global (scope : Scope) : Source :=
  { guildId := none, locale := scope.locale, ns := scope.ns }

def Scope.own (scope : Scope) : Option Source :=
  scope.guildId.map fun id => { guildId := some id, locale := scope.locale, ns := scope.ns }

def bundleMemKey (locale ns : JsString) (guildId : Option JsString) : JsString :=
  guildId.getD (js "global") ++ colon :: (locale ++ colon :: ns)

/-- `forGuild` or `forGlobal` of the translations. -/
def bundleRedisKey (locale ns : JsString) (guildId : Option JsString) : JsString :=
  let suffix := js "translations" ++ colon :: (locale ++ colon :: ns)
  match guildId with
  | some id => js "guild" ++ colon :: (id ++ colon :: suffix)
  | none => js "global" ++ colon :: suffix

def Scope.memKey (scope : Scope) : JsString := bundleMemKey scope.locale scope.ns scope.guildId

def Scope.redisKey (scope : Scope) : JsString := bundleRedisKey scope.locale scope.ns scope.guildId

/-- The rows of one source as they were read, and how many changes had been made by then. -/
structure Part where
  rows : Record JsString
  since : Nat

/-- A merged bundle, in the parts of which it is made; the files never change. -/
structure Bundle where
  scope : Scope
  global : Part
  guild : Option Part
  shaped : guild.isSome = scope.guildId.isSome

/-- `load`, once its parts have come. -/
def assemble (scope : Scope) (global : Part) (guild : Option Part) : Option Bundle :=
  if shaped : guild.isSome = scope.guildId.isSome then some { scope, global, guild, shaped }
  else none

abbrev Files := JsString → JsString → Record JsString

/-- `{ ...fileBundle, ...globalDbBundle, ...guildDbBundle }[path]`. -/
def Bundle.message (files : Files) (bundle : Bundle) (path : JsString) : Option JsString :=
  ((bundle.guild.bind fun part => part.rows path).or (bundle.global.rows path)).or
    (files bundle.scope.locale bundle.scope.ns path)

/-- The guild override of the database, else the global row of the database, else the file. -/
def precedence (files : Files) (rows : Rows) (scope : Scope) (path : JsString) : Option JsString :=
  ((scope.own.bind fun source => loadSource rows source path).or
    (loadSource rows scope.global path)).or (files scope.locale scope.ns path)

/-- Where a lookup of `t` stands. A `loading` call runs the loader of its key, and those that
`joined` wait for it. -/
inductive Phase
  | found (bundle : Bundle)
  | asking
  | answered (hit : Option (CacheEntry Bundle))
  | loading (global guild : Option Part)
  | joined (leader : Nat)
  | storing (entry : CacheEntry Bundle)
  | got (bundle : Bundle)
  | returned (message : Option JsString)
  | failed

/-- A `t`: the scope of the locale it is at, the locales that are left, the changes that had been
handled when it started, and the bundles it has used. -/
structure Call where
  process : Nat
  scope : Scope
  path : JsString
  chain : List JsString
  floor : List Nat
  consulted : List (Scope × Bundle)
  phase : Phase

def Call.to (call : Call) (phase : Phase) : Call := { call with phase }

/-- An `invalidate` for the event of a change, whose command to Redis may have landed. -/
structure Invalidation where
  number : Nat
  source : Source
  landed : Bool

/-- The log has what the event of each change names; `handled` are those changes whose invalidation
has completed. -/
structure State where
  rows : Rows
  log : List Source
  memory : Tiers JsString Bundle
  cache : Levels Bundle
  calls : List Call
  invalidations : List Invalidation
  handled : List Nat

def State.start (rows : Rows) : State :=
  { rows, log := [], memory := .empty, cache := .empty, calls := [], invalidations := []
    handled := [] }

inductive Action
  | change (change : Change)
  | t (process : Nat) (scope : Scope) (path : JsString) (chain : List JsString) (now : Timestamp)
  | advance (call : Nat) (now : Timestamp) (fails : Bool)
  | readGlobal (call : Nat)
  | readGuild (call : Nat)
  | finish (call : Nat) (now : Timestamp)
  | failLoad (call : Nat)
  | handle (process : Nat) (number : Nat)
  | landDelete (invalidation : Nat) (fails : Bool)
  | complete (invalidation : Nat)
  | evict (level : Tiers.Level) (key : JsString)

/-- `getBundle` up to what the memory of its process has. -/
def lookup (state : State) (process : Nat) (scope : Scope) (now : Timestamp) :
    Levels Bundle × Phase :=
  match state.memory.get (.own process, scope.memKey) with
  | some bundle => (state.cache, .found bundle)
  | none =>
      let (hit, cache) := memoryGet state.cache process scope.redisKey now
      (cache, match hit with
        | some entry => .got entry.value
        | none => .asking)

def readSource (state : State) (source : Source) : Part :=
  { rows := loadSource state.rows source, since := state.log.length }

/-- The loader of the key in the process, which is in `inflight`. -/
def leaderOf (state : State) (call : Call) : Option Nat :=
  state.calls.findIdx? fun other =>
    other.process = call.process && other.scope.redisKey = call.scope.redisKey &&
      match other.phase with
      | .loading _ _ => true
      | _ => false

/-- Whoever joined the leader gets what it has; they have asked for the same key. -/
def settle (index : Nat) (scope : Scope) (phase : Phase) (calls : List Call) : List Call :=
  calls.map fun call =>
    match call.phase with
    | .joined leader => if leader = index ∧ call.scope = scope then call.to phase else call
    | _ => call

section

variable (files : Files) (cacheTtlSeconds : Nat)

/-- `t` with a bundle: its message, or the next locale of the chain. -/
def proceed (state : State) (index : Nat) (call : Call) (bundle : Bundle) (now : Timestamp) :
    State :=
  let used : Call := { call with consulted := call.consulted ++ [(call.scope, bundle)] }
  match bundle.message files call.path, call.chain with
  | some message, _ =>
      { state with calls := state.calls.set index (used.to (.returned (some message))) }
  | none, [] => { state with calls := state.calls.set index (used.to (.returned none)) }
  | none, locale :: rest =>
      let scope := call.scope.inLocale locale
      let (cache, phase) := lookup state call.process scope now
      { state with
        cache, calls := state.calls.set index { used with scope, chain := rest, phase } }

def advance (state : State) (index : Nat) (call : Call) (now : Timestamp) (fails : Bool) :
    Option State :=
  let goes (phase : Phase) : State := { state with calls := state.calls.set index (call.to phase) }
  match call.phase with
  | .found bundle => some (proceed files state index call bundle now)
  | .asking => some (goes (.answered (redisGet state.cache call.scope.redisKey fails)))
  | .answered (some entry) =>
      some { goes (.got entry.value) with
        cache := state.cache.set (.own call.process, call.scope.redisKey) entry }
  | .answered none =>
      some (goes (match leaderOf state call with
        | some leader => .joined leader
        | none => .loading none none))
  | .storing entry =>
      some { state with
        cache := redisSet state.cache call.scope.redisKey entry fails
        calls := settle index call.scope (.got entry.value)
          (state.calls.set index (call.to (.got entry.value))) }
  | .got bundle =>
      some (proceed files
        { state with memory := state.memory.set (.own call.process, call.scope.memKey) bundle }
        index call bundle now)
  | .loading _ _ | .joined _ | .returned _ | .failed => none

/-- The steps of a loader; its reads come in either order. -/
def load (state : State) (index : Nat) (call : Call) : Action → Option State
  | .readGlobal _ =>
      match call.phase with
      | .loading none guild => some { state with
          calls := state.calls.set index
            (call.to (.loading (some (readSource state call.scope.global)) guild)) }
      | _ => none
  | .readGuild _ =>
      match call.phase, call.scope.own with
      | .loading global none, some source => some { state with
          calls := state.calls.set index
            (call.to (.loading global (some (readSource state source)))) }
      | _, _ => none
  | .finish _ now =>
      match call.phase with
      | .loading (some global) guild =>
          (assemble call.scope global guild).map fun bundle =>
            let entry := entryOf bundle cacheTtlSeconds now
            { state with
              cache := state.cache.set (.own call.process, call.scope.redisKey) entry
              calls := state.calls.set index (call.to (.storing entry)) }
      | _ => none
  | .failLoad _ =>
      match call.phase with
      | .loading _ _ => some { state with
          calls := settle index call.scope .failed (state.calls.set index (call.to .failed)) }
      | _ => none
  | _ => none

/-- The handler of a change's event, which is given the namespace and the locale. -/
def handle (state : State) (process : Nat) (number : Nat) (source : Source) : State :=
  { state with
    memory := state.memory.delete (.own process, bundleMemKey source.locale source.ns none)
    cache := state.cache.delete (.own process, bundleRedisKey source.locale source.ns none)
    invalidations := state.invalidations ++ [{ number, source, landed := false }] }

def step (state : State) (action : Action) : Option State :=
  match action with
  | .change change =>
      (change.apply state.rows).map fun next =>
        { state with rows := next.1, log := state.log ++ [next.2] }
  | .t process scope path chain now =>
      let (cache, phase) := lookup state process scope now
      some { state with
        cache
        calls := state.calls ++
          [{ process, scope, path, chain, floor := state.handled, consulted := [], phase }] }
  | .advance index now fails =>
      match state.calls[index]? with
      | some call => advance files state index call now fails
      | none => none
  | .readGlobal index | .readGuild index | .finish index _ | .failLoad index =>
      match state.calls[index]? with
      | some call => load cacheTtlSeconds state index call action
      | none => none
  | .handle process number =>
      (state.log[number]?).map fun source => handle state process number source
  | .landDelete index fails =>
      match state.invalidations[index]? with
      | some invalidation =>
          if invalidation.landed then none
          else some { state with
            cache := redisDelete state.cache
              (bundleRedisKey invalidation.source.locale invalidation.source.ns none) fails
            invalidations := state.invalidations.set index { invalidation with landed := true } }
      | none => none
  | .complete index =>
      match state.invalidations[index]? with
      | some invalidation =>
          if invalidation.landed then some { state with
            handled := state.handled ++ [invalidation.number]
            invalidations := state.invalidations.eraseIdx index }
          else none
      | none => none
  | .evict level key => some { state with cache := state.cache.delete (level, key) }

end

/-! What is asked of the bundles that are used. -/

/-- What the parts of a bundle have to meet, each for its source. -/
def Bundle.Parts (meets : Source → Part → Prop) (bundle : Bundle) : Prop :=
  meets bundle.scope.global bundle.global ∧
    ∀ source ∈ bundle.scope.own, ∀ part ∈ bundle.guild, meets source part

/-- The part was read after the change, where the change is one of its source. -/
def HasRead (changed : Source) (number : Nat) (source : Source) (part : Part) : Prop :=
  source = changed → number < part.since

def Scope.affected (scope : Scope) (source : Source) : Prop :=
  source = scope.global ∨ some source = scope.own

/-- A `t` uses no bundle from before a change that had been handled when it started, and where no
other change affects its scope, what it uses is what the database has. -/
structure Coherent (files : Files) (state : State) : Prop where
  fresh : ∀ call ∈ state.calls, ∀ used ∈ call.consulted, ∀ number ∈ call.floor,
    ∀ source ∈ state.log[number]?, used.2.Parts (HasRead source number)
  current : ∀ call ∈ state.calls, ∀ used ∈ call.consulted,
    (∀ number, ∀ source ∈ state.log[number]?, used.1.affected source → number ∈ call.floor) →
      ∀ path, used.2.message files path = precedence files state.rows used.1 path

/-- The parts that a call still carries into a cache. -/
def Phase.Parts (meets : Source → Part → Prop) (scope : Scope) : Phase → Prop
  | .answered (some entry) | .storing entry => entry.value.Parts meets
  | .got bundle => bundle.Parts meets
  | .loading global guild =>
      (∀ part ∈ global, meets scope.global part) ∧
        ∀ source ∈ scope.own, ∀ part ∈ guild, meets source part
  | _ => True

/-- Every cached bundle of the source, and every one on its way into a cache, was read after the
change. -/
structure Clean (state : State) (source : Source) (number : Nat) : Prop where
  memory : state.memory.Every fun _ bundle => bundle.Parts (HasRead source number)
  cache : state.cache.Every fun _ entry => entry.value.Parts (HasRead source number)
  calls : ∀ call ∈ state.calls, call.phase.Parts (HasRead source number) call.scope

/-- An invalidation completes only when nothing of before its change is left. -/
def CompletesClean (state : State) : Action → Prop
  | .complete index => ∀ invalidation ∈ state.invalidations[index]?,
      Clean state invalidation.source invalidation.number
  | _ => True

end I18n
