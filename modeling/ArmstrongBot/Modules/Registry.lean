import ArmstrongBot.Library.Calendar
import ArmstrongBot.Library.JsMap
import ArmstrongBot.Plugins.DependencyOrder

/-! `ModuleRegistry` of the module system, and the order in which its modules are initialised. -/

namespace ModuleSystem

open JsText DepthFirst Relation
open Calendar (Timestamp)

structure ModuleManifest where
  id : JsString
  dependsOn : List JsString
  deriving DecidableEq

structure BaseModule where
  manifest : ModuleManifest
  deriving DecidableEq

structure RegisteredModule where
  base : BaseModule
  manifest : ModuleManifest
  registeredAt : Timestamp
  deriving DecidableEq

structure ModuleRegistry where
  modules : JsMap JsString RegisteredModule
  named : ∀ entry ∈ modules.entries, entry.2.manifest.id = entry.1

namespace ModuleRegistry

def empty : ModuleRegistry := { modules := .empty, named := by simp [JsMap.empty] }

def get (registry : ModuleRegistry) (id : JsString) : Option RegisteredModule :=
  registry.modules.get id

/-- A module whose id is taken is skipped. -/
def register (registry : ModuleRegistry) (base : BaseModule) (now : Timestamp) : ModuleRegistry :=
  if (registry.get base.manifest.id).isSome then registry
  else
    { modules := registry.modules.set base.manifest.id
        { base, manifest := base.manifest, registeredAt := now }
      named := by
        intro entry member
        rcases JsMap.mem_set.mp member with rfl | ⟨earlier, _⟩
        · rfl
        · exact registry.named entry earlier }

def all (registry : ModuleRegistry) : List RegisteredModule := registry.modules.values

def ids (registry : ModuleRegistry) : List JsString := registry.modules.entries.map Prod.fst

end ModuleRegistry

inductive RegistryError
  | circular (id : JsString)
  | unknown (id : JsString)
  deriving DecidableEq

def RegistryError.message : RegistryError → JsString
  | .circular id => js "Circular dependency detected involving module \"" ++ id ++ js "\""
  | .unknown id => js "Unknown module dependency: \"" ++ id ++ js "\""

def lookUp (registry : ModuleRegistry) (id : JsString) :
    Except RegistryError (List JsString × RegisteredModule) :=
  match registry.get id with
  | some registered => .ok (registered.manifest.dependsOn, registered)
  | none => .error (.unknown id)

def resolveInitOrder (registry : ModuleRegistry) :
    Except (Stop RegistryError) (List RegisteredModule) :=
  (search (fun id : JsString => id) (lookUp registry) .circular (registry.ids.length + 1)
    registry.ids).map Search.order

/-! What it is to find. -/

variable {registry : ModuleRegistry}

def DependsOn (registry : ModuleRegistry) (id other : JsString) : Prop :=
  ∃ registered, registry.get id = some registered ∧ other ∈ registered.manifest.dependsOn

def NamesUnregistered (registry : ModuleRegistry) : Prop :=
  ∃ registered ∈ registry.all, ∃ id ∈ registered.manifest.dependsOn, registry.get id = none

def Cyclic (registry : ModuleRegistry) : Prop := ∃ id, TransGen (DependsOn registry) id id

/-- Every module once, after all those that it depends on. -/
structure Ordered (registry : ModuleRegistry) (order : List RegisteredModule) : Prop where
  all : order.Perm registry.all
  after : ∀ front registered back, order = front ++ registered :: back →
    ∀ id ∈ registered.manifest.dependsOn, ∃ earlier ∈ front, earlier.manifest.id = id

theorem get_id {id : JsString} {registered : RegisteredModule}
    (found : registry.get id = some registered) : registered.manifest.id = id :=
  registry.named (id, registered) (JsMap.get_eq_some.mp found)

theorem mem_all {registered : RegisteredModule} :
    registered ∈ registry.all ↔ ∃ id, registry.get id = some registered := by
  simp [ModuleRegistry.all, JsMap.values, ModuleRegistry.get, JsMap.get_eq_some]

theorem mem_ids {id : JsString} :
    id ∈ registry.ids ↔ ∃ registered, registry.get id = some registered := by
  simp [ModuleRegistry.ids, ModuleRegistry.get, JsMap.get_eq_some]

theorem leads_eq : Leads (lookUp registry) = DependsOn registry := by
  ext id other
  constructor
  · rintro ⟨children, item, found, isChild⟩
    rw [lookUp] at found
    split at found
    · rename_i isRegistered
      cases found
      exact ⟨item, isRegistered, isChild⟩
    · cases found
  · rintro ⟨registered, isRegistered, isDependency⟩
    exact ⟨_, registered, by rw [lookUp, isRegistered], isDependency⟩

theorem registry_domain :
    Domain (fun id : JsString => id) (lookUp registry) registry.ids (fun _ => True) where
  distinct _ _ _ _ same := same
  leads _ _ _ _ := trivial
  listed id _ expanded found := by
    cases isRegistered : registry.get id with
    | some registered => exact mem_ids.mpr ⟨registered, isRegistered⟩
    | none =>
        rw [lookUp, isRegistered] at found
        cases found

theorem fails_of_reached {root id : JsString} {failure : RegistryError}
    (isRoot : root ∈ registry.ids)
    (reached : ReflTransGen (Leads (lookUp registry)) root id)
    (fails : Fails (lookUp registry) .circular id failure) :
    NamesUnregistered registry ∨ Cyclic registry := by
  rw [leads_eq] at reached
  rcases fails with failed | ⟨_, cycle⟩
  · have missing : registry.get id = none := by
      rw [lookUp] at failed
      split at failed
      · cases failed
      · assumption
    rcases ReflTransGen.cases_tail reached with rfl | ⟨before, _, registered, found, isDependency⟩
    · obtain ⟨registered, found⟩ := mem_ids.mp isRoot
      rw [missing] at found
      cases found
    · exact .inl ⟨registered, mem_all.mpr ⟨before, found⟩, id, isDependency, missing⟩
  · rw [leads_eq] at cycle
    exact .inr ⟨id, cycle⟩

theorem registered_of_cycle {id : JsString} (cycle : TransGen (DependsOn registry) id id) :
    id ∈ registry.ids := by
  obtain ⟨other, ⟨registered, found, _⟩, _⟩ := TransGen.head'_iff.mp cycle
  exact mem_ids.mpr ⟨registered, found⟩

section

variable {done : List JsString} {next : Search JsString RegisteredModule}
  (lists : Lists (fun id : JsString => id) (lookUp registry) (fun _ => True) done next)

include lists

theorem registered_of_done {id : JsString} (member : id ∈ done) : id ∈ registry.ids := by
  obtain ⟨expanded, looked⟩ := lists.expanded member
  exact registry_domain.listed id trivial expanded looked

theorem order_eq : next.order.map some = done.map registry.get := by
  have looked : ∀ id, ((lookUp registry id).map Prod.snd).toOption = registry.get id := by
    intro id
    rw [lookUp]
    cases registry.get id <;> rfl
  calc next.order.map some
      = (next.order.map (Except.ok : _ → Except RegistryError _)).map Except.toOption := by
        simp [Function.comp_def, Except.toOption]
    _ = (done.map fun id => (lookUp registry id).map Prod.snd).map Except.toOption := by
        rw [lists.items]
    _ = done.map registry.get := by simp [looked]

theorem mem_order {registered : RegisteredModule} :
    registered ∈ next.order ↔ ∃ id ∈ done, registry.get id = some registered := by
  have mapped : some registered ∈ next.order.map some ↔
      some registered ∈ done.map registry.get := by
    rw [order_eq lists]
  simpa using mapped

theorem ordered (present : ∀ id ∈ registry.ids, id ∈ done) : Ordered registry next.order where
  all := by
    have distinct : (next.order.map some).Nodup := by
      rw [order_eq lists]
      refine List.Nodup.map_on ?_ lists.distinct
      intro id member other _ same
      obtain ⟨registered, found⟩ := mem_ids.mp (registered_of_done lists member)
      rw [← get_id found, get_id (same ▸ found)]
    have values : registry.all.Nodup := by
      refine List.Nodup.of_map (fun registered => registered.manifest.id) ?_
      have sameIds :
          registry.all.map (fun registered => registered.manifest.id) = registry.ids := by
        rw [ModuleRegistry.all, JsMap.values, List.map_map]
        exact List.map_congr_left registry.named
      rw [sameIds]
      exact registry.modules.distinct
    rw [List.perm_ext_iff_of_nodup distinct.of_map values]
    intro registered
    rw [mem_order lists, mem_all]
    constructor
    · rintro ⟨id, _, found⟩
      exact ⟨id, found⟩
    · rintro ⟨id, found⟩
      exact ⟨id, present id (mem_ids.mpr ⟨registered, found⟩), found⟩
  after := by
    intro front registered back split id isDependency
    have mapped := order_eq lists
    rw [split, List.map_append, List.map_cons] at mapped
    obtain ⟨before, rest, whole, fronts, others⟩ := List.map_eq_append_iff.mp mapped.symm
    obtain ⟨name, later, rfl, isName, _⟩ := List.map_eq_cons_iff.mp others
    have leads : Leads (lookUp registry) name id := by
      rw [leads_eq]
      exact ⟨registered, isName, isDependency⟩
    have isEarlier := lists.closed before name later whole id leads
    have isMapped : registry.get id ∈ front.map some := by
      rw [← fronts]
      exact List.mem_map_of_mem isEarlier
    obtain ⟨earlier, isFront, found⟩ := List.mem_map.mp isMapped
    exact ⟨earlier, isFront, get_id found.symm⟩

end

/-- The search fails exactly where a dependency is missing or there is a cycle. -/
theorem resolveInitOrder_spec (registry : ModuleRegistry) :
    ((∃ failure, resolveInitOrder registry = .error (.thrown failure)) ↔
      NamesUnregistered registry ∨ Cyclic registry) ∧
    (¬ (NamesUnregistered registry ∨ Cyclic registry) →
      ∃ order, resolveInitOrder registry = .ok order ∧ Ordered registry order) := by
  have ends : Ends (fun id : JsString => id) (lookUp registry) .circular (fun _ => True) [] []
      registry.ids (search (fun id : JsString => id) (lookUp registry) .circular
        (registry.ids.length + 1) registry.ids) :=
    ends_search registry_domain (fun _ _ => trivial) (Nat.lt_succ_self registry.ids.length)
  rw [resolveInitOrder]
  cases found : search (fun id : JsString => id) (lookUp registry) .circular
      (registry.ids.length + 1) registry.ids with
  | error stop =>
      rw [found] at ends
      cases stop with
      | thrown failure =>
          obtain ⟨root, isRoot, id, reached, fails⟩ := ends
          have flawed := fails_of_reached isRoot reached fails
          exact ⟨⟨fun _ => flawed, fun _ => ⟨failure, rfl⟩⟩, fun sound => absurd flawed sound⟩
      | noLevel => exact ends.elim
  | ok next =>
      rw [found] at ends
      obtain ⟨done, lists, present, _⟩ := ends
      rw [List.nil_append] at lists present
      have sound : ¬ (NamesUnregistered registry ∨ Cyclic registry) := by
        rintro (⟨item, isRegistered, id, isDependency, missing⟩ | ⟨id, cycle⟩)
        · obtain ⟨name, found⟩ := mem_all.mp isRegistered
          have leads : Leads (lookUp registry) name id := by
            rw [leads_eq]
            exact ⟨item, found, isDependency⟩
          have isDone := lists.closed.reaches (present name (mem_ids.mpr ⟨item, found⟩))
            (.single leads)
          obtain ⟨other, isOther⟩ := mem_ids.mp (registered_of_done lists isDone)
          rw [missing] at isOther
          cases isOther
        · have isDone := present id (registered_of_cycle cycle)
          rw [← leads_eq] at cycle
          exact lists.closed.acyclic lists.distinct isDone cycle
      refine ⟨⟨?_, fun flawed => absurd flawed sound⟩,
        fun _ => ⟨next.order, rfl, ordered lists present⟩⟩
      rintro ⟨failure, thrown⟩
      cases thrown

/-- Plugins and modules both come after what they depend on, or there is no such order. -/
theorem dependenciesFirst (manifests : List Plugins.PluginManifest)
    (distinct : Plugins.DistinctNames manifests) (registry : ModuleRegistry) :
    (((∃ manifest, Plugins.topologicalOrder manifests =
        .error (.thrown (Plugins.cycleError manifest))) ↔ Plugins.Cyclic manifests) ∧
      (¬ Plugins.Cyclic manifests → ∃ sorted, Plugins.topologicalOrder manifests = .ok sorted ∧
        Plugins.Ordered manifests sorted)) ∧
    (((∃ failure, resolveInitOrder registry = .error (.thrown failure)) ↔
        NamesUnregistered registry ∨ Cyclic registry) ∧
      (¬ (NamesUnregistered registry ∨ Cyclic registry) →
        ∃ order, resolveInitOrder registry = .ok order ∧ Ordered registry order)) :=
  ⟨Plugins.topologicalOrder_spec distinct, resolveInitOrder_spec registry⟩

/-! Two plugins that depend on each other, and two modules in a row. -/

def samplePlugin (name dependency : JsString) : Plugins.PluginManifest :=
  { name, version := js "1.0.0", sdkRange := js "^1.0.0"
    dependencies := [{ name := dependency, range := js "*", required := none }] }

def sampleRegistry : ModuleRegistry :=
  (ModuleRegistry.empty.register { manifest := { id := js "b", dependsOn := [js "a"] } } 0).register
    { manifest := { id := js "a", dependsOn := [] } } 1

theorem dependenciesFirst_sample :
    (((∃ manifest, Plugins.topologicalOrder
          [samplePlugin (js "a") (js "b"), samplePlugin (js "b") (js "a")] =
        .error (.thrown (Plugins.cycleError manifest))) ↔
      Plugins.Cyclic [samplePlugin (js "a") (js "b"), samplePlugin (js "b") (js "a")]) ∧
      (¬ Plugins.Cyclic [samplePlugin (js "a") (js "b"), samplePlugin (js "b") (js "a")] →
        ∃ sorted, Plugins.topologicalOrder
            [samplePlugin (js "a") (js "b"), samplePlugin (js "b") (js "a")] = .ok sorted ∧
          Plugins.Ordered [samplePlugin (js "a") (js "b"), samplePlugin (js "b") (js "a")]
            sorted)) ∧
    (((∃ failure, resolveInitOrder sampleRegistry = .error (.thrown failure)) ↔
        NamesUnregistered sampleRegistry ∨ Cyclic sampleRegistry) ∧
      (¬ (NamesUnregistered sampleRegistry ∨ Cyclic sampleRegistry) →
        ∃ order, resolveInitOrder sampleRegistry = .ok order ∧ Ordered sampleRegistry order)) :=
  dependenciesFirst [samplePlugin (js "a") (js "b"), samplePlugin (js "b") (js "a")]
    (by unfold Plugins.DistinctNames; decide +kernel) sampleRegistry

example : (resolveInitOrder sampleRegistry).map (List.map fun item => item.manifest.id) =
    .ok [js "a", js "b"] := by decide +kernel

end ModuleSystem
