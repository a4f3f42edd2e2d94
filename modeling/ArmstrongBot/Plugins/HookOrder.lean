import ArmstrongBot.Library.StepMachine
import ArmstrongBot.Plugins.Lifecycle

/-! Overlapping calls of `enablePlugin` and `disablePlugin` for one plugin. A call checks the
status and starts its hook without a pause; it writes the status when the hook has come back. -/

namespace Plugins

open JsText StepMachine

inductive Switch
  | enable
  | disable
  deriving DecidableEq

namespace Switch

def target : Switch → PluginStatus
  | .enable => .enabled
  | .disable => .disabled

def other : Switch → Switch
  | .enable => .disable
  | .disable => .enable

/-- What the call does to the entry once its hook is back. -/
def settle (switch : Switch) (guildId : Option JsString) (entry : LoadedPluginEntry) :
    LoadedPluginEntry :=
  match switch with
  | .enable => entry.enabledFor guildId
  | .disable => entry.drained.disabledFor guildId

end Switch

structure SwitchCall where
  switch : Switch
  guildId : Option JsString
  deriving DecidableEq

/-- The calls whose hook is running, and the hooks in the order in which they were started. -/
structure HookState where
  entry : LoadedPluginEntry
  running : List SwitchCall
  log : List Switch

def HookState.start (plugin : Plugin) : HookState :=
  { entry := { plugin, status := .installed, enabledGuilds := ∅, disposers := [] }
    running := [], log := [] }

inductive HookAction
  | start (call : SwitchCall)
  | finish (index : Nat) (outcome : HookOutcome)

def SwitchCall.finish (call : SwitchCall) (outcome : HookOutcome) (entry : LoadedPluginEntry) :
    LoadedPluginEntry :=
  if outcome = .resolves then call.switch.settle call.guildId entry else entry.withStatus .errored

/-- A call that the check refuses starts nothing. -/
def hookStep (state : HookState) : HookAction → Option HookState
  | .start call =>
      if assertTransition state.entry.status call.switch.target then
        some { state with running := state.running ++ [call], log := state.log ++ [call.switch] }
      else none
  | .finish index outcome =>
      state.running[index]?.map fun call =>
        { state with
          entry := call.finish outcome state.entry
          running := state.running.eraseIdx index }

/-- The hooks take turns, the next one being the expected one. -/
def AlternatesFrom : Switch → List Switch → Prop
  | _, [] => True
  | expected, first :: rest => first = expected ∧ AlternatesFrom expected.other rest

def Alternates (log : List Switch) : Prop := AlternatesFrom .enable log

/-- No hook is running when a call gets in, and a call of `disable` that gets in after an error
does not come after an `onDisable`. -/
def TakesTurns (state : HookState) : HookAction → Prop
  | .start _ => state.running = [] ∧
      (state.entry.status = .errored → state.log.getLast? = some .enable)
  | .finish _ _ => True

def nextSwitch (expected : Switch) (log : List Switch) : Switch :=
  log.getLast?.elim expected Switch.other

theorem alternatesFrom_append {expected : Switch} {log : List Switch} {switch : Switch} :
    AlternatesFrom expected (log ++ [switch]) ↔
      AlternatesFrom expected log ∧ switch = nextSwitch expected log := by
  induction log generalizing expected with
  | nil => simp [AlternatesFrom, nextSwitch]
  | cons first rest ih =>
      rw [List.cons_append, AlternatesFrom, AlternatesFrom, ih, and_assoc]
      constructor
      · rintro ⟨rfl, alternates, next⟩
        refine ⟨rfl, alternates, ?_⟩
        rw [next, nextSwitch, nextSwitch]
        cases rest <;> simp [List.getLast?_cons]
      · rintro ⟨rfl, alternates, next⟩
        refine ⟨rfl, alternates, ?_⟩
        rw [next, nextSwitch, nextSwitch]
        cases rest <;> simp [List.getLast?_cons]

theorem alternates_append {log : List Switch} {switch : Switch} :
    Alternates (log ++ [switch]) ↔ Alternates log ∧ switch = nextSwitch .enable log :=
  alternatesFrom_append

/-- A status lets only one of the two calls in. -/
theorem switch_of_status {status : PluginStatus} {first second : Switch}
    (admitsFirst : assertTransition status first.target = true)
    (admitsSecond : assertTransition status second.target = true) : first = second := by
  cases status <;> cases first <;> cases second <;>
    simp_all [assertTransition, allowedTransitions, Switch.target]

/-- The last hook that an idle plugin has seen, where its status tells. -/
def SeenLast (status : PluginStatus) (last : Option Switch) : Prop :=
  (status = .installed → last = none) ∧ (status = .enabled → last = some .enable) ∧
    (status = .disabled → last = some .disable)

/-- At most one hook is running, and it is the one started last. -/
structure Turned (state : HookState) : Prop where
  alternates : Alternates state.log
  idle : state.running = [] → SeenLast state.entry.status state.log.getLast?
  busy : state.running ≠ [] → ∃ call, state.running = [call] ∧
    state.log.getLast? = some call.switch ∧
    assertTransition state.entry.status call.switch.target = true

theorem turned_start (plugin : Plugin) : Turned (.start plugin) :=
  ⟨trivial, fun _ => ⟨fun _ => rfl, nofun, nofun⟩, fun busy => absurd rfl busy⟩

theorem nextSwitch_of_idle {state : HookState} {call : SwitchCall}
    (admits : assertTransition state.entry.status call.switch.target = true)
    (seen : SeenLast state.entry.status state.log.getLast?)
    (afterError : state.entry.status = .errored → state.log.getLast? = some .enable) :
    call.switch = nextSwitch .enable state.log := by
  obtain ⟨installed, enabled, disabled⟩ := seen
  unfold nextSwitch
  cases switch : call.switch with
  | enable =>
      rw [switch] at admits
      rcases enabled_of admits with status | status
      · simp [installed status]
      · simp [disabled status, Switch.other]
  | disable =>
      rw [switch] at admits
      rcases disabled_of admits with status | status
      · simp [enabled status, Switch.other]
      · simp [afterError status, Switch.other]

theorem turned_step {state next : HookState} {action : HookAction} (turned : Turned state)
    (takesTurns : TakesTurns state action) (taken : hookStep state action = some next) :
    Turned next := by
  cases action with
  | start call =>
      obtain ⟨idle, afterError⟩ := takesTurns
      obtain ⟨admits, started⟩ := Option.ite_none_right_eq_some.mp taken
      obtain rfl := Option.some.inj started
      have nextIs := nextSwitch_of_idle admits (turned.idle idle) afterError
      refine ⟨alternates_append.mpr ⟨turned.alternates, nextIs⟩, ?_, ?_⟩
      · intro empty
        simp at empty
      · intro _
        exact ⟨call, by simp [idle], by simp, admits⟩
  | finish index outcome =>
      obtain ⟨call, found, rfl⟩ := Option.map_eq_some_iff.mp taken
      have notIdle : state.running ≠ [] := by
        intro idle
        simp [idle] at found
      obtain ⟨only, isOnly, last, _⟩ := turned.busy notIdle
      have first : index = 0 ∧ only = call := by
        rw [isOnly] at found
        simpa [List.getElem?_singleton] using found
      obtain ⟨rfl, rfl⟩ := first
      refine ⟨turned.alternates, ?_, ?_⟩
      · intro _
        simp only [SeenLast, last]
        cases switch : only.switch <;> by_cases resolves : outcome = .resolves <;>
          simp [SwitchCall.finish, resolves, switch, Switch.settle, LoadedPluginEntry.enabledFor,
            LoadedPluginEntry.disabledFor, LoadedPluginEntry.withStatus]
      · simp [isOnly]

theorem takesTurns_of_alternates {state next : HookState} {action : HookAction}
    (turned : Turned state) (taken : hookStep state action = some next)
    (alternates : Alternates next.log) : TakesTurns state action := by
  cases action with
  | start call =>
      obtain ⟨admits, started⟩ := Option.ite_none_right_eq_some.mp taken
      obtain rfl := Option.some.inj started
      have isNext := (alternates_append.mp alternates).2
      refine ⟨?_, ?_⟩
      · by_contra busy
        obtain ⟨only, _, last, onlyAdmits⟩ := turned.busy busy
        have same := switch_of_status admits onlyAdmits
        simp only [nextSwitch, last, Option.elim_some, same] at isNext
        cases switch : only.switch <;> simp [switch, Switch.other] at isNext
      · intro errored
        have isDisable : call.switch = .disable := by
          cases switch : call.switch with
          | enable =>
              simp [switch, errored, Switch.target, assertTransition, allowedTransitions] at admits
          | disable => rfl
        rw [isDisable, nextSwitch] at isNext
        cases last : state.log.getLast? with
        | none => simp [last] at isNext
        | some hook =>
            rw [last, Option.elim_some] at isNext
            cases hook with
            | enable => rfl
            | disable => exact absurd isNext (by decide)
  | finish index outcome => trivial

/-- The hooks of a plugin take turns exactly in the runs whose calls do. -/
theorem hooks_alternate_iff (plugin : Plugin) (actions : List HookAction) :
    Always hookStep (fun state => Alternates state.log) (.start plugin) actions ↔
      Guarded hookStep TakesTurns (.start plugin) actions := by
  have sound : ∀ state, Turned state → Alternates state.log := fun _ turned => turned.alternates
  exact always_iff_guarded hookStep sound (fun _ _ _ => turned_step)
    (fun _ _ _ => takesTurns_of_alternates) (turned_start plugin) actions

/-- Two guilds that enable the plugin at the same time run `onEnable` twice. -/
theorem overlapping_enables :
    ¬ Always hookStep (fun state => Alternates state.log) (.start weatherPlugin)
      [.start { switch := .enable, guildId := some (js "100") },
        .start { switch := .enable, guildId := some (js "200") }] := by
  intro always
  have twice := (always.2 _ rfl).2 _ rfl
  exact absurd twice.2.1 (by decide)

end Plugins
