import ArmstrongBot.Library.DepthFirst
import ArmstrongBot.Plugins.Lifecycle

/-! `topologicalOrder` of `PluginDependencyResolver`. -/

namespace Plugins

open JsText DepthFirst Relation

structure PluginError where
  code : PluginErrorCode
  message : JsString
  pluginName : Option JsString
  deriving DecidableEq

def cycleError (manifest : PluginManifest) : PluginError :=
  { code := .dependencyCycle
    message := js "Dependency cycle detected involving \"" ++ manifest.name ++ js "\""
    pluginName := some manifest.name }

/-- The dependencies of a plugin that are among the manifests. -/
def presentDependencies (manifests : List PluginManifest) (manifest : PluginManifest) :
    List PluginManifest :=
  manifest.dependencies.filterMap fun dependency =>
    if dependency.name ∈ manifests.map PluginManifest.name then
      manifests.find? fun other => other.name = dependency.name
    else none

def withDependencies (manifests : List PluginManifest) (manifest : PluginManifest) :
    Except PluginError (List PluginManifest × PluginManifest) :=
  .ok (presentDependencies manifests manifest, manifest)

def topologicalOrder (manifests : List PluginManifest) :
    Except (Stop PluginError) (List PluginManifest) :=
  (search PluginManifest.name (withDependencies manifests) cycleError (manifests.length + 1)
    manifests).map Search.order

/-! What it is to find. -/

def DistinctNames (manifests : List PluginManifest) : Prop :=
  (manifests.map PluginManifest.name).Nodup

def DependsOn (manifests : List PluginManifest) (manifest other : PluginManifest) : Prop :=
  other ∈ manifests ∧ ∃ dependency ∈ manifest.dependencies, dependency.name = other.name

def Cyclic (manifests : List PluginManifest) : Prop :=
  ∃ manifest ∈ manifests, TransGen (DependsOn manifests) manifest manifest

/-- All plugins, each after its present dependencies. -/
structure Ordered (manifests sorted : List PluginManifest) : Prop where
  all : sorted.Perm manifests
  after : ∀ front manifest back, sorted = front ++ manifest :: back →
    ∀ other, DependsOn manifests manifest other → other ∈ front

variable {manifests : List PluginManifest}

theorem eq_of_name (distinct : DistinctNames manifests) {manifest other : PluginManifest}
    (member : manifest ∈ manifests) (isOther : other ∈ manifests)
    (same : manifest.name = other.name) : manifest = other :=
  List.inj_on_of_nodup_map distinct member isOther same

theorem leads_iff (distinct : DistinctNames manifests) {manifest other : PluginManifest} :
    Leads (withDependencies manifests) manifest other ↔ DependsOn manifests manifest other := by
  constructor
  · rintro ⟨children, item, expanded, isChild⟩
    obtain ⟨rfl, rfl⟩ := Prod.mk.inj (Except.ok.inj expanded)
    obtain ⟨dependency, isDependency, found⟩ := List.mem_filterMap.mp isChild
    split at found
    · have sameName := List.find?_some found
      exact ⟨List.mem_of_find?_eq_some found, dependency, isDependency,
        (of_decide_eq_true sameName).symm⟩
    · cases found
  · rintro ⟨isOther, dependency, isDependency, sameName⟩
    refine ⟨_, _, rfl, List.mem_filterMap.mpr ⟨dependency, isDependency, ?_⟩⟩
    rw [sameName, if_pos (List.mem_map_of_mem isOther)]
    cases found : manifests.find? fun candidate => candidate.name = other.name with
    | none => simpa using List.find?_eq_none.mp found other isOther
    | some candidate =>
        have isSame : candidate.name = other.name := by simpa using List.find?_some found
        rw [eq_of_name distinct (List.mem_of_find?_eq_some found) isOther isSame]

theorem manifests_domain (distinct : DistinctNames manifests) :
    Domain PluginManifest.name (withDependencies manifests) manifests (· ∈ manifests) where
  distinct _ _ member isOther same := eq_of_name distinct member isOther same
  leads _ _ _ leads := ((leads_iff distinct).mp leads).1
  listed _ member _ _ := member

theorem leads_eq (distinct : DistinctNames manifests) :
    Leads (withDependencies manifests) = DependsOn manifests := by
  ext manifest other
  exact leads_iff distinct

/-- The search fails where it meets a cycle, and lists everything where there is none. -/
theorem topologicalOrder_spec (distinct : DistinctNames manifests) :
    ((∃ manifest, topologicalOrder manifests = .error (.thrown (cycleError manifest))) ↔
      Cyclic manifests) ∧
    (¬ Cyclic manifests → ∃ sorted, topologicalOrder manifests = .ok sorted ∧
      Ordered manifests sorted) := by
  have ends : Ends PluginManifest.name (withDependencies manifests) cycleError (· ∈ manifests) [] []
      manifests (search PluginManifest.name (withDependencies manifests) cycleError
        (manifests.length + 1) manifests) :=
    ends_search (manifests_domain distinct) (fun _ member => member)
      (Nat.lt_succ_self manifests.length)
  rw [topologicalOrder]
  cases found : search PluginManifest.name (withDependencies manifests) cycleError
      (manifests.length + 1) manifests with
  | error stop =>
      rw [found] at ends
      cases stop with
      | thrown failure =>
          obtain ⟨root, isRoot, manifest, reached, failed | ⟨rfl, cycle⟩⟩ := ends
          · cases failed
          · have cyclic : Cyclic manifests := by
              rw [leads_eq distinct] at reached cycle
              refine ⟨manifest, ?_, cycle⟩
              rcases ReflTransGen.cases_tail reached with rfl | ⟨_, _, last⟩
              · exact isRoot
              · exact last.1
            exact ⟨⟨fun _ => cyclic, fun _ => ⟨manifest, rfl⟩⟩,
              fun acyclic => absurd cyclic acyclic⟩
      | noLevel => exact ends.elim
  | ok next =>
      rw [found] at ends
      obtain ⟨done, lists, present, _⟩ := ends
      rw [List.nil_append] at lists present
      have listed : next.order = done := by
        have items := lists.items
        simp only [withDependencies, Except.map] at items
        exact ((List.map_injective_iff.mpr fun _ _ => Except.ok.inj) items).symm
      have acyclic : ¬ Cyclic manifests := by
        rintro ⟨manifest, member, cycle⟩
        rw [← leads_eq distinct] at cycle
        exact lists.closed.acyclic lists.distinct (present manifest member) cycle
      have ordered : Ordered manifests next.order := by
        rw [listed]
        refine ⟨?_, ?_⟩
        · rw [List.perm_ext_iff_of_nodup lists.distinct distinct.of_map]
          exact fun manifest => ⟨lists.met manifest, present manifest⟩
        · intro front manifest back split other depends
          rw [← leads_eq distinct] at depends
          exact lists.closed front manifest back split other depends
      refine ⟨⟨?_, fun cyclic => absurd cyclic acyclic⟩, fun _ => ⟨next.order, rfl, ordered⟩⟩
      rintro ⟨manifest, thrown⟩
      cases thrown

end Plugins
