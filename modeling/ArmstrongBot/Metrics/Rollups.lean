import ArmstrongBot.Metrics.Recording

/-! What the rollups of a snapshot say about the recordings before it. -/

namespace Metrics

open JsText Instruments

/-- The value under the name of a metric, in the snapshot of its scope. -/
def rollup (snapshots : List ScopedSnapshotValues) (name : MetricName) : Option Quantity :=
  (snapshots.find? fun snapshot => snapshot.scope = (metricCatalog name).scope).bind fun snapshot =>
    (snapshot.values.find? fun entry => entry.1 = name).map Prod.snd

theorem mem_allMetricNames (name : MetricName) : name ∈ allMetricNames := by
  cases name <;> decide

theorem mem_metricScopes (scope : MetricScope) : scope ∈ metricScopes := by
  cases scope <;> decide

theorem find?_filterMap_name (names : List MetricName) (values : MetricName → Option Quantity)
    (name : MetricName) :
    ((names.filterMap fun other => (values other).map fun value => (other, value)).find?
      fun entry => entry.1 = name).map Prod.snd = if name ∈ names then values name else none := by
  induction names with
  | nil => rfl
  | cons first rest ih =>
      cases valued : values first with
      | none =>
          rw [List.filterMap_cons_none (by rw [valued]; rfl), ih]
          by_cases here : name = first
          · rw [here, valued]
            simp
          · simp [here]
      | some value =>
          rw [List.filterMap_cons_some (by rw [valued]; rfl)]
          by_cases here : first = name
          · rw [List.find?_cons_of_pos (by simpa using here)]
            simp [← here, valued]
          · rw [List.find?_cons_of_neg (by simpa using here), ih]
            simp [Ne.symm here]

theorem find?_snapshots (scopes : List MetricScope)
    (values : MetricScope → List (MetricName × Quantity)) (scope : MetricScope) :
    ((scopes.map fun other =>
        ({ scope := other, values := values other } : ScopedSnapshotValues)).filter
      fun snapshot => snapshot.values ≠ []).find? (fun snapshot => snapshot.scope = scope) =
    if scope ∈ scopes ∧ values scope ≠ [] then some { scope, values := values scope } else none := by
  induction scopes with
  | nil => simp
  | cons first rest ih =>
      rw [List.map_cons]
      by_cases here : first = scope
      · subst here
        by_cases empty : values first = []
        · rw [List.filter_cons_of_neg (by simpa using empty), ih]
          simp [empty]
        · rw [List.filter_cons_of_pos (by simpa using empty), List.find?_cons_of_pos (by simp)]
          simp [empty]
      · rw [List.filter_cons, apply_ite (List.find? _), List.find?_cons_of_neg (by simpa using here),
          ite_self, ih]
        simp [Ne.symm here]

theorem rollup_buildAll {κ : Type} [DecidableEq κ] (registry : Registry κ) (store : CacheCounts)
    (name : MetricName) :
    rollup (buildAll registry store) name =
      ((getMetricsAsJSON registry store).foldl addTotal JsMap.empty).get name := by
  generalize isByName : (getMetricsAsJSON registry store).foldl addTotal JsMap.empty = byName
  have ofScope : valuesForScope (metricCatalog name).scope byName =
      allMetricNames.filterMap fun other =>
        (if (metricCatalog other).scope ≠ (metricCatalog name).scope then none
          else byName.get other).map fun value => (other, value) := by
    refine List.filterMap_congr fun other _ => ?_
    split
    · rfl
    · rfl
  have values : ((valuesForScope (metricCatalog name).scope byName).find?
      fun entry => entry.1 = name).map Prod.snd = byName.get name := by
    rw [ofScope, find?_filterMap_name, if_pos (mem_allMetricNames name), if_neg (by simp)]
  rw [rollup, buildAll, isByName, find?_snapshots]
  by_cases empty : valuesForScope (metricCatalog name).scope byName = []
  · rw [if_neg (fun both => both.2 empty), ← values, empty]
    rfl
  · rw [if_pos ⟨mem_metricScopes _, empty⟩]
    exact values

/-- What a metric with these samples is rolled up to. -/
def totalOf (samples : List Quantity) : Option Quantity :=
  if samples = [] then none else some samples.sum

theorem get_addTotal (byName : JsMap MetricName Quantity) (metric : MetricName × List Quantity)
    (name : MetricName) :
    (addTotal byName metric).get name =
      if metric.1 = name then (totalOf metric.2).or (byName.get name) else byName.get name := by
  rw [addTotal, totalOf]
  by_cases empty : metric.2 = []
  · rw [if_pos empty, if_pos empty, Option.none_or, ite_self]
  · rw [if_neg empty, if_neg empty, JsMap.get_set, ← List.sum_eq_foldl, Option.some_or]
    simp only [eq_comm]

theorem get_foldl_addTotal {metrics : List (MetricName × List Quantity)}
    (distinct : (metrics.map Prod.fst).Nodup) (byName : JsMap MetricName Quantity)
    (name : MetricName) :
    (metrics.foldl addTotal byName).get name =
      ((metrics.find? fun metric => metric.1 = name).bind fun metric => totalOf metric.2).or
        (byName.get name) := by
  induction metrics generalizing byName with
  | nil => rfl
  | cons metric rest ih =>
      obtain ⟨isNew, later⟩ := List.nodup_cons.mp distinct
      rw [List.foldl_cons, ih later, get_addTotal]
      by_cases here : metric.1 = name
      · have absent : rest.find? (fun other => other.1 = name) = none := by
          refine List.find?_eq_none.mpr fun other member same => ?_
          have sameName : other.1 = name := by simpa using same
          exact isNew (here ▸ sameName ▸ List.mem_map_of_mem member)
        rw [absent, if_pos here, List.find?_cons_of_pos (by simpa using here)]
        rfl
      · rw [if_neg here, List.find?_cons_of_neg (by simpa using here)]

variable {κ : Type} [DecidableEq κ] (hashObject : List (JsString × JsString) → κ)

/-! One recording changes the instrument of its own metric alone. -/

theorem resolve_existing {registry : Registry κ} {name : MetricName} {instrument : Instrument κ}
    (found : registry.instruments.get name = some instrument) (expected : MetricType) :
    resolve hashObject registry name expected = some (instrument, registry) := by
  simp only [resolve, found]

theorem resolve_fresh {registry : Registry κ} {name : MetricName}
    (absent : registry.instruments.get name = none)
    (free : ¬ (registry.collectsHitRatio = true ∧ name = .cacheHitRatio)) :
    ∃ resolved, resolve hashObject registry name (metricCatalog name).type =
      some (build hashObject registry.defaultBuckets (metricCatalog name), resolved) := by
  refine ⟨{ registry with
    instruments := registry.instruments.set name
      (build hashObject registry.defaultBuckets (metricCatalog name)) }, ?_⟩
  simp only [resolve, absent, ne_eq, not_true_eq_false, if_false, if_neg free]

theorem resolve_refused {registry : Registry κ} {name : MetricName} {expected : MetricType}
    (absent : registry.instruments.get name = none)
    (refused : (metricCatalog name).type ≠ expected ∨
      registry.collectsHitRatio = true ∧ name = .cacheHitRatio) :
    resolve hashObject registry name expected = none := by
  simp only [resolve, absent]
  split
  · rfl
  · rename_i sameType
    rw [if_pos (refused.resolve_left sameType)]

/-- What the registry keeps through every recording. -/
structure Same (registry next : Registry κ) : Prop where
  defaultBuckets : next.defaultBuckets = registry.defaultBuckets
  collectsHitRatio : next.collectsHitRatio = registry.collectsHitRatio

theorem resolve_keeps {registry resolved : Registry κ} {name : MetricName} {expected : MetricType}
    {instrument : Instrument κ}
    (isResolved : resolve hashObject registry name expected = some (instrument, resolved)) :
    Same registry resolved ∧ resolved.instruments.get name = some instrument ∧
      ∀ other, other ≠ name → resolved.instruments.get other = registry.instruments.get other := by
  cases found : registry.instruments.get name with
  | some existing =>
      rw [resolve_existing hashObject found] at isResolved
      obtain ⟨rfl, rfl⟩ := Prod.mk.inj (Option.some.inj isResolved)
      exact ⟨⟨rfl, rfl⟩, found, fun _ _ => rfl⟩
  | none =>
      simp only [resolve, found] at isResolved
      split at isResolved
      · cases isResolved
      · split at isResolved
        · cases isResolved
        · obtain ⟨rfl, rfl⟩ := Prod.mk.inj (Option.some.inj isResolved)
          refine ⟨⟨rfl, rfl⟩, by rw [JsMap.get_set, if_pos rfl], fun other apart => ?_⟩
          rw [JsMap.get_set, if_neg apart]

theorem safe_keeps (registry : Registry κ) (name : MetricName) (expected : MetricType)
    (mutate : Instrument κ → Option (Instrument κ)) :
    Same registry (safe hashObject registry name expected mutate) ∧
      ∀ other, other ≠ name → (safe hashObject registry name expected mutate).instruments.get other =
        registry.instruments.get other := by
  rw [safe]
  cases isResolved : resolve hashObject registry name expected with
  | none => exact ⟨⟨rfl, rfl⟩, fun _ _ => rfl⟩
  | some pair =>
      obtain ⟨instrument, resolved⟩ := pair
      obtain ⟨same, _, others⟩ := resolve_keeps hashObject isResolved
      cases mutated : mutate instrument with
      | none => simpa only [mutated] using ⟨same, others⟩
      | some changed =>
          simp only [mutated]
          refine ⟨⟨same.1, same.2⟩, fun other apart => ?_⟩
          rw [JsMap.get_set, if_neg apart, others other apart]

theorem safe_get {registry resolved : Registry κ} {name : MetricName} {expected : MetricType}
    {instrument : Instrument κ} (mutate : Instrument κ → Option (Instrument κ))
    (isResolved : resolve hashObject registry name expected = some (instrument, resolved)) :
    (safe hashObject registry name expected mutate).instruments.get name =
      some ((mutate instrument).getD instrument) := by
  simp only [safe, isResolved]
  cases mutate instrument with
  | none => exact (resolve_keeps hashObject isResolved).2.1
  | some changed => exact (JsMap.get_set _ _ _ _).trans (if_pos rfl)

/-- A method of another instrument type does nothing. -/
theorem safe_refused {registry : Registry κ} {name : MetricName} {expected : MetricType}
    {mutate : Instrument κ → Option (Instrument κ)}
    (lacks : ∀ instrument, registry.instruments.get name = some instrument → mutate instrument = none)
    (refused : registry.instruments.get name = none → (metricCatalog name).type ≠ expected ∨
      registry.collectsHitRatio = true ∧ name = .cacheHitRatio) :
    (safe hashObject registry name expected mutate).instruments.get name =
      registry.instruments.get name := by
  cases found : registry.instruments.get name with
  | none => simp only [safe, resolve_refused hashObject found (refused found), found]
  | some instrument =>
      rw [safe_get hashObject mutate (resolve_existing hashObject found expected),
        lacks instrument found, Option.getD_none]

def Recording.name : Recording → MetricName
  | .incCounter name _ _ => name
  | .setGauge name _ _ => name
  | .observeHistogram name _ _ => name

def Recording.expected : Recording → MetricType
  | .incCounter _ _ _ => .counter
  | .setGauge _ _ _ => .gauge
  | .observeHistogram _ _ _ => .histogram

def Recording.method : Recording → Instrument κ → Option (Instrument κ)
  | .incCounter name value labels =>
      Instrument.inc (seriesOf hashObject name labels) (value.getD (.finite 1))
  | .setGauge name value labels => Instrument.set (seriesOf hashObject name labels) value
  | .observeHistogram name value labels =>
      Instrument.observe (seriesOf hashObject name labels) value

theorem record_keeps (registry : Registry κ) (recording : Recording) :
    Same registry (record hashObject registry recording) ∧
      ∀ other, other ≠ recording.name →
        (record hashObject registry recording).instruments.get other =
          registry.instruments.get other := by
  cases recording with
  | incCounter name value labels => exact safe_keeps hashObject registry name _ _
  | setGauge name value labels =>
      rw [record, setGauge]
      split
      · exact safe_keeps hashObject registry name _ _
      · exact ⟨⟨rfl, rfl⟩, fun _ _ => rfl⟩
  | observeHistogram name value labels =>
      rw [record, observeHistogram]
      split
      · exact safe_keeps hashObject registry name _ _
      · exact ⟨⟨rfl, rfl⟩, fun _ _ => rfl⟩

/-- A recording of another metric, or one whose method the instrument lacks, changes nothing. -/
theorem record_untouched {registry : Registry κ} {name : MetricName} {recording : Recording}
    (lacks : recording.name = name →
      ((metricCatalog name).type ≠ recording.expected ∨
        registry.collectsHitRatio = true ∧ name = .cacheHitRatio) ∧
      ∀ instrument, registry.instruments.get name = some instrument →
        recording.method hashObject instrument = none) :
    (record hashObject registry recording).instruments.get name = registry.instruments.get name := by
  by_cases own : recording.name = name
  · subst own
    have same := safe_refused hashObject (lacks rfl).2 fun _ => (lacks rfl).1
    cases recording with
    | incCounter name value labels => exact same
    | setGauge name value labels =>
        rw [record, setGauge]
        split
        · exact same
        · rfl
    | observeHistogram name value labels =>
        rw [record, observeHistogram]
        split
        · exact same
        · rfl
  · exact (record_keeps hashObject registry recording).2 name (Ne.symm own)

end Metrics
