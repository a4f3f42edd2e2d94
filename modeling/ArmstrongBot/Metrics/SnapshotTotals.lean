import ArmstrongBot.Metrics.Rollups

/-! Whole histories of recordings: when the rollups are the totals that the snapshot promises. -/

namespace Metrics

open JsText Instruments

variable {κ : Type} [DecidableEq κ] (hashObject : List (JsString × JsString) → κ)

omit [DecidableEq κ] in
/-- The module starts with a new registry, whatever its configuration. -/
theorem onModuleInit_new (enabled : Bool) (histogramBucketsSeconds : List Rat) :
    ∃ buckets collects, onModuleInit (Registry.new defaultBuckets false : Registry κ) enabled
      histogramBucketsSeconds = Registry.new buckets collects := by
  rw [onModuleInit]
  split
  · rw [setDefaultBuckets]
    split
    · exact ⟨histogramBucketsSeconds, true, rfl⟩
    · exact ⟨defaultBuckets, true, rfl⟩
  · exact ⟨defaultBuckets, false, rfl⟩

/-! What a history says of one metric. -/

/-- A counter drops infinite and negative increments. -/
def increment (name : MetricName) : Recording → Option Quantity
  | .incCounter other value _ =>
      let value := value.getD (.finite 1)
      if other = name ∧ ¬ (value.isInfinite || value.isNegative) then some value else none
  | .setGauge _ _ _ => none
  | .observeHistogram _ _ _ => none

def observation (name : MetricName) : Recording → Option Rat
  | .observeHistogram other value _ => if other = name then value.toFinite else none
  | .incCounter _ _ _ => none
  | .setGauge _ _ _ => none

def setting (name : MetricName) : Recording → Option (κ × Quantity)
  | .setGauge other value labels =>
      if other = name ∧ value.isFinite then some (seriesOf hashObject name labels, value) else none
  | .incCounter _ _ _ => none
  | .observeHistogram _ _ _ => none

/-- What `incCounter` has added to a gauge: to its own series since the series was last set, and to
its other series. -/
def drift (name : MetricName) (series : κ) (sums : Option (Quantity × Quantity)) :
    Recording → Option (Quantity × Quantity)
  | .setGauge other value _ =>
      if other = name ∧ value.isFinite then some (0, (sums.map Prod.snd).getD 0) else sums
  | .incCounter other value labels =>
      if other = name then
        sums.map fun (own, others) =>
          if seriesOf hashObject name labels = series then (own + value.getD (.finite 1), others)
          else (own, others + value.getD (.finite 1))
      else sums
  | .observeHistogram _ _ _ => sums

def increments (name : MetricName) (history : List Recording) : List Quantity :=
  history.filterMap (increment name)

def observations (name : MetricName) (history : List Recording) : List Rat :=
  history.filterMap (observation name)

def settings (name : MetricName) (history : List Recording) : List (κ × Quantity) :=
  history.filterMap (setting hashObject name)

def strayIncrements (name : MetricName) (series : κ) (history : List Recording) : Quantity :=
  (history.foldl (drift hashObject name series) none).elim 0 fun sums => sums.1 + sums.2

/-! Counters. -/

theorem values_ne_nil {σ : Type} {map : JsMap κ σ} {key : κ} {value : σ}
    (found : map.get key = some value) : map.values ≠ [] := by
  intro empty
  have member := List.mem_map_of_mem (f := Prod.snd) (JsMap.get_eq_some.mp found)
  rw [JsMap.values] at empty
  rw [empty] at member
  cases member

theorem set_values_ne_nil {σ : Type} (map : JsMap κ σ) (key : κ) (value : σ) :
    (map.set key value).values ≠ [] :=
  values_ne_nil ((JsMap.get_set map key key value).trans (if_pos rfl))

omit [DecidableEq κ] in
theorem free_of_type {registry : Registry κ} {name : MetricName}
    (notGauge : (metricCatalog name).type ≠ .gauge) :
    ¬ (registry.collectsHitRatio = true ∧ name = .cacheHitRatio) := by
  rintro ⟨_, rfl⟩
  exact notGauge rfl

theorem start_sum (labelNames : List JsString) :
    (start hashObject labelNames (0 : Quantity)).values.sum = 0 := by
  rw [start]
  split
  · exact add_zero 0
  · rfl

def CounterTracks (increments : List Quantity) (instrument : Option (Instrument κ)) : Prop :=
  (instrument = none ∧ increments = []) ∨
    ∃ series, instrument = some (.counter series) ∧ series.values.sum = increments.sum ∧
      (increments ≠ [] → series.values ≠ [])

theorem counter_resolves {registry : Registry κ} {name : MetricName} {increments : List Quantity}
    (isCounter : (metricCatalog name).type = .counter)
    (tracks : CounterTracks increments (registry.instruments.get name)) :
    ∃ series resolved, resolve hashObject registry name .counter = some (.counter series, resolved) ∧
      CounterTracks increments (some (.counter series : Instrument κ)) := by
  rcases tracks with ⟨absent, rfl⟩ | ⟨series, found, total⟩
  · obtain ⟨resolved, isResolved⟩ := resolve_fresh hashObject absent
      (free_of_type (by rw [isCounter]; decide))
    rw [build, isCounter] at isResolved
    refine ⟨_, resolved, isResolved, .inr ⟨_, rfl, start_sum hashObject _, ?_⟩⟩
    exact fun none => absurd rfl none
  · exact ⟨series, registry, resolve_existing hashObject found .counter, .inr ⟨series, rfl, total⟩⟩

theorem counter_inc {increments : List Quantity} {series : JsMap κ Quantity} (labels : κ)
    (value : Quantity) (tracks : CounterTracks increments (some (.counter series : Instrument κ))) :
    CounterTracks
      (increments ++ (if ¬ (value.isInfinite || value.isNegative) then [value] else []))
      (some (((Instrument.counter series).inc labels value).getD (.counter series))) := by
  rw [Instrument.inc]
  by_cases refused : (value.isInfinite || value.isNegative) = true
  · rw [if_pos refused, if_neg (not_not.mpr refused), List.append_nil]
    exact tracks
  · rcases tracks with ⟨absent, _⟩ | ⟨_, found, total, _⟩
    · cases absent
    · obtain rfl := Instrument.counter.inj (Option.some.inj found)
      rw [if_neg refused, if_pos refused]
      refine .inr ⟨_, rfl, ?_, fun _ => set_values_ne_nil _ _ _⟩
      rw [sum_addTo, total, List.sum_append, List.sum_singleton]

omit [DecidableEq κ] in
theorem counter_lacks {increments : List Quantity} {instrument : Instrument κ}
    {method : Instrument κ → Option (Instrument κ)}
    (tracks : CounterTracks increments (some instrument))
    (refuses : ∀ series, method (.counter series) = none) : method instrument = none := by
  rcases tracks with ⟨absent, _⟩ | ⟨series, found, _⟩
  · cases absent
  · obtain rfl := Option.some.inj found
    exact refuses series

theorem counter_step {registry : Registry κ} {name : MetricName} {increments : List Quantity}
    (isCounter : (metricCatalog name).type = .counter)
    (tracks : CounterTracks increments (registry.instruments.get name)) (recording : Recording) :
    CounterTracks (increments ++ (increment name recording).toList)
      ((record hashObject registry recording).instruments.get name) := by
  cases recording with
  | incCounter other value labels =>
      by_cases own : other = name
      · subst own
        obtain ⟨series, resolved, isResolved, same⟩ := counter_resolves hashObject isCounter tracks
        rw [record, incCounter, safe_get hashObject _ isResolved]
        have next := counter_inc (seriesOf hashObject other labels) (value.getD (.finite 1)) same
        simpa [increment, apply_ite Option.toList] using next
      · have apart : (Recording.incCounter other value labels).name ≠ name := own
        rw [record_untouched hashObject fun same => absurd same apart]
        simpa [increment, own] using tracks
  | setGauge other value labels =>
      rw [increment, Option.toList_none, List.append_nil, record_untouched hashObject]
      · exact tracks
      · refine fun _ => ⟨.inl (by rw [isCounter]; rintro ⟨⟩), fun instrument found => ?_⟩
        exact counter_lacks (found ▸ tracks) fun _ => rfl
  | observeHistogram other value labels =>
      rw [increment, Option.toList_none, List.append_nil, record_untouched hashObject]
      · exact tracks
      · refine fun _ => ⟨.inl (by rw [isCounter]; rintro ⟨⟩), fun instrument found => ?_⟩
        exact counter_lacks (found ▸ tracks) fun _ => rfl

theorem filterMap_singleton {α β : Type*} (chosen : α → Option β) (item : α) :
    [item].filterMap chosen = (chosen item).toList := by
  cases taken : chosen item <;> simp [taken]

theorem counter_run {name : MetricName} (isCounter : (metricCatalog name).type = .counter)
    (buckets : List Rat) (collects : Bool) (history : List Recording) :
    CounterTracks (increments name history)
      ((history.foldl (record hashObject) (Registry.new buckets collects)).instruments.get name) := by
  induction history using List.reverseRecOn with
  | nil => exact .inl ⟨rfl, rfl⟩
  | append_singleton history recording ih =>
      rw [increments, List.filterMap_append, filterMap_singleton, List.foldl_concat]
      exact counter_step hashObject isCounter ih recording

/-! Histograms. -/

theorem keeps_run (buckets : List Rat) (collects : Bool) (history : List Recording) :
    Same (Registry.new buckets collects : Registry κ)
      (history.foldl (record hashObject) (Registry.new buckets collects)) := by
  induction history using List.reverseRecOn with
  | nil => exact ⟨rfl, rfl⟩
  | append_singleton history recording ih =>
      rw [List.foldl_concat]
      have step := (record_keeps hashObject
        (history.foldl (record hashObject) (Registry.new buckets collects)) recording).1
      exact ⟨step.1.trans ih.1, step.2.trans ih.2⟩

def HistogramTracks (bounds observations : List Rat) (instrument : Option (Instrument κ)) : Prop :=
  (instrument = none ∧ observations = []) ∨
    ∃ series, instrument = some (.histogram bounds series) ∧
      (Instrument.histogram bounds series).samples.sum =
        (observations.map fun value => Quantity.ofNat 1 + surplus bounds value).sum ∧
      (observations ≠ [] → series.values ≠ [])

theorem histogram_resolves {registry : Registry κ} {name : MetricName} {observations : List Rat}
    (isHistogram : (metricCatalog name).type = .histogram)
    (tracks : HistogramTracks registry.defaultBuckets observations (registry.instruments.get name)) :
    ∃ series resolved, resolve hashObject registry name .histogram =
        some (.histogram registry.defaultBuckets series, resolved) ∧
      HistogramTracks registry.defaultBuckets observations
        (some (.histogram registry.defaultBuckets series : Instrument κ)) := by
  rcases tracks with ⟨absent, rfl⟩ | ⟨series, found, total⟩
  · obtain ⟨resolved, isResolved⟩ := resolve_fresh hashObject absent
      (free_of_type (by rw [isHistogram]; decide))
    rw [build, isHistogram] at isResolved
    refine ⟨_, resolved, isResolved, .inr ⟨_, rfl, ?_, fun none => absurd rfl none⟩⟩
    rw [start]
    split
    · have one : (Instrument.histogram registry.defaultBuckets
          (JsMap.empty.set (hashObject []) Buckets.zero)).samples =
          Buckets.zero.samples registry.defaultBuckets ++ [] := rfl
      rw [one, List.append_nil]
      exact sum_samples_zero registry.defaultBuckets
    · rfl
  · exact ⟨series, registry, resolve_existing hashObject found .histogram, .inr ⟨series, rfl, total⟩⟩

theorem histogram_observe {bounds observations : List Rat} {series : JsMap κ Buckets} (labels : κ)
    (value : Rat) (tracks : HistogramTracks bounds observations
      (some (.histogram bounds series : Instrument κ))) :
    HistogramTracks bounds (observations ++ [value])
      (some (((Instrument.histogram bounds series).observe labels (.finite value)).getD
        (.histogram bounds series))) := by
  rcases tracks with ⟨absent, _⟩ | ⟨_, found, total, _⟩
  · cases absent
  · obtain ⟨-, rfl⟩ := Instrument.histogram.inj (Option.some.inj found)
    refine .inr ⟨_, rfl, ?_, fun _ => set_values_ne_nil _ _ _⟩
    have observed : (Instrument.histogram bounds series).observe labels (.finite value) = some _ := rfl
    rw [sum_observe observed, total, List.map_append, List.sum_append, List.map_singleton,
      List.sum_singleton]

omit [DecidableEq κ] in
theorem histogram_lacks {bounds observations : List Rat} {instrument : Instrument κ}
    {method : Instrument κ → Option (Instrument κ)}
    (tracks : HistogramTracks bounds observations (some instrument))
    (refuses : ∀ series, method (.histogram bounds series) = none) : method instrument = none := by
  rcases tracks with ⟨absent, _⟩ | ⟨series, found, _⟩
  · cases absent
  · obtain rfl := Option.some.inj found
    exact refuses series

theorem histogram_step {registry : Registry κ} {name : MetricName} {bounds observations : List Rat}
    (isHistogram : (metricCatalog name).type = .histogram)
    (isBounds : registry.defaultBuckets = bounds)
    (tracks : HistogramTracks bounds observations (registry.instruments.get name))
    (recording : Recording) :
    HistogramTracks bounds (observations ++ (observation name recording).toList)
      ((record hashObject registry recording).instruments.get name) := by
  subst isBounds
  cases recording with
  | observeHistogram other value labels =>
      by_cases own : other = name
      · subst own
        rw [record, observeHistogram, observation, if_pos rfl]
        cases value with
        | finite value =>
            obtain ⟨series, resolved, isResolved, same⟩ :=
              histogram_resolves hashObject isHistogram tracks
            rw [if_pos (show (Quantity.finite value).isFinite = true from rfl),
              safe_get hashObject _ isResolved]
            exact histogram_observe (seriesOf hashObject other labels) value same
        | infinite negative => simpa [Quantity.isFinite, Quantity.toFinite] using tracks
        | nan => simpa [Quantity.isFinite, Quantity.toFinite] using tracks
      · have apart : (Recording.observeHistogram other value labels).name ≠ name := own
        rw [record_untouched hashObject fun same => absurd same apart]
        simpa [observation, own] using tracks
  | incCounter other value labels =>
      rw [observation, Option.toList_none, List.append_nil, record_untouched hashObject]
      · exact tracks
      · refine fun _ => ⟨.inl (by rw [isHistogram]; rintro ⟨⟩), fun instrument found => ?_⟩
        exact histogram_lacks (found ▸ tracks) fun _ => rfl
  | setGauge other value labels =>
      rw [observation, Option.toList_none, List.append_nil, record_untouched hashObject]
      · exact tracks
      · refine fun _ => ⟨.inl (by rw [isHistogram]; rintro ⟨⟩), fun instrument found => ?_⟩
        exact histogram_lacks (found ▸ tracks) fun _ => rfl

theorem histogram_run {name : MetricName} (isHistogram : (metricCatalog name).type = .histogram)
    (buckets : List Rat) (collects : Bool) (history : List Recording) :
    HistogramTracks buckets (observations name history)
      ((history.foldl (record hashObject) (Registry.new buckets collects)).instruments.get name) := by
  induction history using List.reverseRecOn with
  | nil => exact .inl ⟨rfl, rfl⟩
  | append_singleton history recording ih =>
      have bounds := (keeps_run hashObject buckets collects history).defaultBuckets
      rw [observations, List.filterMap_append, filterMap_singleton, List.foldl_concat]
      exact histogram_step hashObject isHistogram bounds ih recording

/-! Gauges. -/

/-- The gauge once it is set: its own series and the sum of the others. -/
def GaugeTracks (series : κ) (settings : List (κ × Quantity)) (sums : Option (Quantity × Quantity))
    (instrument : Option (Instrument κ)) : Prop :=
  (instrument = none ∧ settings = [] ∧ sums = none) ∨
    ∃ values own others last, instrument = some (.gauge values) ∧ sums = some (own, others) ∧
      settings.getLast? = some (series, last) ∧ values.get series = some (last + own) ∧
      (values.delete series).values.sum = others

theorem start_delete_sum (labelNames : List JsString) (series : κ) :
    ((start hashObject labelNames (0 : Quantity)).delete series).values.sum = 0 := by
  rw [start]
  split
  · have entries : (JsMap.empty.set (hashObject []) (0 : Quantity)).entries = [(hashObject [], 0)] := rfl
    simp only [JsMap.delete, JsMap.values, entries, List.filter_cons]
    split
    · exact add_zero 0
    · rfl
  · rfl

theorem gauge_set {registry : Registry κ} {name : MetricName} {series : κ}
    {settings : List (κ × Quantity)} {sums : Option (Quantity × Quantity)}
    (isGauge : (metricCatalog name).type = .gauge)
    (free : ¬ (registry.collectsHitRatio = true ∧ name = .cacheHitRatio))
    (tracks : GaugeTracks series settings sums (registry.instruments.get name)) (value : Quantity) :
    GaugeTracks series (settings ++ [(series, value)]) (some (0, (sums.map Prod.snd).getD 0))
      ((safe hashObject registry name .gauge (Instrument.set series value)).instruments.get name) := by
  have written (values : JsMap κ Quantity) {others : Quantity}
      (isSum : (values.delete series).values.sum = others) :
      GaugeTracks series (settings ++ [(series, value)]) (some (0, others))
        (some (.gauge (values.set series value) : Instrument κ)) := by
    refine .inr ⟨_, 0, others, value, rfl, rfl, List.getLast?_concat, ?_, ?_⟩
    · rw [JsMap.get_set, if_pos rfl, add_zero]
    · rw [JsMap.delete_set_same, isSum]
  rcases tracks with ⟨absent, _, rfl⟩ | ⟨values, own, others, last, found, rfl, _, _, isSum⟩
  · obtain ⟨resolved, isResolved⟩ := resolve_fresh hashObject absent free
    rw [build, isGauge] at isResolved
    rw [safe_get hashObject _ isResolved]
    exact written _ (start_delete_sum hashObject _ series)
  · rw [safe_get hashObject _ (resolve_existing hashObject found .gauge)]
    exact written values isSum

theorem gauge_inc {registry : Registry κ} {name : MetricName} {series : κ}
    {settings : List (κ × Quantity)} {sums : Option (Quantity × Quantity)}
    (isGauge : (metricCatalog name).type = .gauge)
    (tracks : GaugeTracks series settings sums (registry.instruments.get name)) (labels : κ)
    (value : Quantity) :
    GaugeTracks series settings
      (sums.map fun (own, others) =>
        if labels = series then (own + value, others) else (own, others + value))
      ((safe hashObject registry name .counter (Instrument.inc labels value)).instruments.get
        name) := by
  rcases tracks with ⟨absent, rfl, rfl⟩ | ⟨values, own, others, last, found, rfl, isLast, isOwn, isSum⟩
  · have refused : resolve hashObject registry name .counter = none :=
      resolve_refused hashObject absent (.inl (by rw [isGauge]; rintro ⟨⟩))
    rw [safe, refused]
    exact .inl ⟨absent, rfl, rfl⟩
  · rw [safe_get hashObject _ (resolve_existing hashObject found .counter)]
    by_cases here : labels = series
    · subst here
      refine .inr ⟨addTo values labels value, own + value, others, last, rfl, ?_, isLast, ?_, ?_⟩
      · simp
      · rw [addTo, isOwn, JsMap.get_set, if_pos rfl, ← add_assoc]
        rfl
      · rw [addTo, JsMap.delete_set_same, isSum]
    · refine .inr ⟨addTo values labels value, own, others + value, last, rfl, ?_, isLast, ?_, ?_⟩
      · simp [here]
      · rw [addTo, JsMap.get_set, if_neg (Ne.symm here), isOwn]
      · rw [delete_addTo _ _ here, sum_addTo, isSum]

theorem gauge_step {registry : Registry κ} {name : MetricName} {series : κ}
    {settings : List (κ × Quantity)} {sums : Option (Quantity × Quantity)}
    (isGauge : (metricCatalog name).type = .gauge)
    (free : ¬ (registry.collectsHitRatio = true ∧ name = .cacheHitRatio))
    (tracks : GaugeTracks series settings sums (registry.instruments.get name))
    (recording : Recording)
    (single : ∀ value ∈ setting hashObject name recording, value.1 = series) :
    GaugeTracks series (settings ++ (setting hashObject name recording).toList)
      (drift hashObject name series sums recording)
      ((record hashObject registry recording).instruments.get name) := by
  cases recording with
  | setGauge other value labels =>
      by_cases own : other = name ∧ value.isFinite = true
      · obtain ⟨rfl, finite⟩ := own
        rw [setting, if_pos ⟨rfl, finite⟩] at single ⊢
        obtain rfl : seriesOf hashObject other labels = series := single _ rfl
        rw [drift, if_pos ⟨rfl, finite⟩, record, setGauge, if_pos finite]
        exact gauge_set hashObject isGauge free tracks value
      · rw [setting, if_neg own, drift, if_neg own, Option.toList_none, List.append_nil, record,
          setGauge]
        split
        · rename_i finite
          have apart : name ≠ other := fun same => own ⟨same.symm, finite⟩
          rw [(safe_keeps hashObject registry other _ _).2 name apart]
          exact tracks
        · exact tracks
  | incCounter other value labels =>
      rw [setting, Option.toList_none, List.append_nil]
      by_cases own : other = name
      · subst own
        rw [drift, if_pos rfl]
        exact gauge_inc hashObject isGauge tracks (seriesOf hashObject other labels) _
      · have apart : (Recording.incCounter other value labels).name ≠ name := own
        rw [drift, if_neg own, record_untouched hashObject fun same => absurd same apart]
        exact tracks
  | observeHistogram other value labels =>
      rw [setting, Option.toList_none, List.append_nil, drift, record_untouched hashObject]
      · exact tracks
      · refine fun _ => ⟨.inl (by rw [isGauge]; rintro ⟨⟩), fun instrument found => ?_⟩
        rcases tracks with ⟨absent, _⟩ | ⟨values, _, _, _, isGauge, _⟩
        · rw [absent] at found
          cases found
        · rw [isGauge] at found
          exact Option.some.inj found ▸ rfl

theorem gauge_run {name : MetricName} {series : κ} {collects : Bool} {history : List Recording}
    (isGauge : (metricCatalog name).type = .gauge)
    (free : ¬ (collects = true ∧ name = .cacheHitRatio)) (buckets : List Rat)
    (single : ∀ value ∈ settings hashObject name history, value.1 = series) :
    GaugeTracks series (settings hashObject name history)
      (history.foldl (drift hashObject name series) none)
      ((history.foldl (record hashObject) (Registry.new buckets collects)).instruments.get name) := by
  induction history using List.reverseRecOn with
  | nil => exact .inl ⟨rfl, rfl, rfl⟩
  | append_singleton history recording ih =>
      have same := (keeps_run hashObject buckets collects history).collectsHitRatio
      rw [settings, List.filterMap_append, filterMap_singleton] at single ⊢
      rw [List.foldl_concat, List.foldl_concat]
      refine gauge_step hashObject isGauge ?_ (ih fun value member => ?_) recording fun value member => ?_
      · rw [same]
        exact free
      · exact single value (List.mem_append_left _ member)
      · exact single value (List.mem_append_right _ (Option.mem_toList.mpr member))

/-! The rollups. -/

theorem uncollected_run (buckets : List Rat) (history : List Recording) :
    (history.foldl (record hashObject) (Registry.new buckets true)).instruments.get
      .cacheHitRatio = none := by
  induction history using List.reverseRecOn with
  | nil => rfl
  | append_singleton history recording ih =>
      have collects := (keeps_run hashObject buckets true history).collectsHitRatio
      rw [List.foldl_concat, record_untouched hashObject, ih]
      refine fun _ => ⟨.inr ⟨collects, rfl⟩, fun instrument found => ?_⟩
      rw [ih] at found
      cases found

omit [DecidableEq κ] in
theorem find?_samples (instruments : JsMap MetricName (Instrument κ)) (name : MetricName) :
    (((instruments.entries.map fun entry => (entry.1, entry.2.samples)).find?
      fun metric => metric.1 = name).bind fun metric => totalOf metric.2) =
      (instruments.get name).bind fun instrument => totalOf instrument.samples := by
  rw [List.find?_map, JsMap.get, Option.bind_map, Option.bind_map]
  rfl

theorem rollup_run (buckets : List Rat) (collects : Bool) (store : CacheCounts)
    (history : List Recording) (name : MetricName) :
    rollup (buildAll (history.foldl (record hashObject) (Registry.new buckets collects)) store) name =
      if collects = true ∧ name = .cacheHitRatio then some (hitRatio store)
      else ((history.foldl (record hashObject) (Registry.new buckets collects)).instruments.get
        name).bind fun instrument => totalOf instrument.samples := by
  have same : (history.foldl (record hashObject) (Registry.new buckets collects)).collectsHitRatio =
      collects := (keeps_run hashObject buckets collects history).collectsHitRatio
  have uncollected := uncollected_run hashObject buckets history
  rw [rollup_buildAll, getMetricsAsJSON, same]
  have names (instruments : JsMap MetricName (Instrument κ)) :
      (instruments.entries.map fun entry => (entry.1, entry.2.samples)).map Prod.fst =
        instruments.entries.map Prod.fst := List.map_map
  cases collects with
  | false =>
      rw [if_neg (by simp), List.nil_append, get_foldl_addTotal (by rw [names]; exact JsMap.distinct _),
        find?_samples]
      exact Option.or_none
  | true =>
      generalize history.foldl (record hashObject) (Registry.new buckets true) = registry at uncollected
      have distinct : (MetricName.cacheHitRatio :: registry.instruments.entries.map Prod.fst).Nodup := by
        refine List.nodup_cons.mpr ⟨fun member => ?_, registry.instruments.distinct⟩
        obtain ⟨entry, isEntry, isName⟩ := List.mem_map.mp member
        exact JsMap.get_eq_none.mp uncollected entry isEntry isName
      rw [if_pos rfl, List.singleton_append, get_foldl_addTotal (by rwa [List.map_cons, names])]
      by_cases here : name = .cacheHitRatio
      · rw [if_pos ⟨rfl, here⟩, List.find?_cons_of_pos (by simpa using here.symm)]
        simp [totalOf]
      · rw [if_neg (fun both => here both.2),
          List.find?_cons_of_neg (by simpa using Ne.symm here), find?_samples]
        exact Option.or_none

/-- What the snapshot promises for one metric. A gauge that the collector registers is set last by
the collector itself, when the snapshot reads it. -/
def RollupRight (collects : Bool) (store : CacheCounts) (history : List Recording)
    (name : MetricName) (rolled : Option Quantity) : Prop :=
  match (metricCatalog name).type with
  | .counter =>
      rolled.getD 0 = (increments name history).sum ∧
        (increments name history ≠ [] → rolled.isSome = true)
  | .histogram =>
      rolled.getD 0 = Quantity.ofNat (observations name history).length ∧
        (observations name history ≠ [] → rolled.isSome = true)
  | .gauge =>
      if collects = true ∧ name = .cacheHitRatio then rolled = some (hitRatio store)
      else ∀ series, settings hashObject name history ≠ [] →
        (∀ value ∈ settings hashObject name history, value.1 = series) →
          rolled = (settings hashObject name history).getLast?.map Prod.snd

theorem totalOf_getD (samples : List Quantity) : (totalOf samples).getD 0 = samples.sum := by
  rw [totalOf]
  split
  · rename_i empty
    rw [empty]
    rfl
  · rfl

theorem totalOf_isSome {samples : List Quantity} (some : samples ≠ []) :
    (totalOf samples).isSome = true := by
  rw [totalOf, if_neg some]
  rfl

omit [DecidableEq κ] in
theorem counter_right {increments : List Quantity} {instrument : Option (Instrument κ)}
    (tracks : CounterTracks increments instrument) :
    (instrument.bind fun instrument => totalOf instrument.samples).getD 0 = increments.sum ∧
      (increments ≠ [] →
        (instrument.bind fun instrument => totalOf instrument.samples).isSome = true) := by
  rcases tracks with ⟨rfl, rfl⟩ | ⟨series, rfl, total, some⟩
  · exact ⟨rfl, fun none => absurd rfl none⟩
  · exact ⟨(totalOf_getD series.values).trans total, fun counted => totalOf_isSome (some counted)⟩

theorem sum_ones (observations : List Rat) :
    (observations.map fun _ => Quantity.ofNat 1).sum = Quantity.ofNat observations.length := by
  induction observations with
  | nil => rfl
  | cons value rest ih =>
      rw [List.map_cons, List.sum_cons, ih, List.length_cons, Nat.add_comm, Quantity.ofNat_add]

omit [DecidableEq κ] in
theorem histogram_right_iff {bounds observations : List Rat} {instrument : Option (Instrument κ)}
    (tracks : HistogramTracks bounds observations instrument) :
    ((instrument.bind fun instrument => totalOf instrument.samples).getD 0 =
          Quantity.ofNat observations.length ∧
        (observations ≠ [] →
          (instrument.bind fun instrument => totalOf instrument.samples).isSome = true)) ↔
      (observations.map (surplus bounds)).sum = 0 := by
  rcases tracks with ⟨rfl, rfl⟩ | ⟨series, rfl, total, some⟩
  · exact ⟨fun _ => rfl, fun _ => ⟨rfl, fun none => absurd rfl none⟩⟩
  · have sum : (totalOf (Instrument.histogram bounds series).samples).getD 0 =
        Quantity.ofNat observations.length + (observations.map (surplus bounds)).sum := by
      rw [totalOf_getD, total, List.sum_map_add, sum_ones]
    rw [Option.bind_some, sum, Quantity.ofNat, Quantity.finite_add_eq_iff]
    refine ⟨fun both => both.1, fun none => ⟨none, fun observed => totalOf_isSome ?_⟩⟩
    intro empty
    obtain ⟨buckets, rest, isValues⟩ := List.exists_cons_of_ne_nil (some observed)
    rw [Instrument.samples, isValues, List.flatMap_cons, Buckets.samples] at empty
    simp at empty

theorem surplus_total {bounds observations : List Rat}
    (nonneg : ∀ value ∈ observations, 0 ≤ value) :
    ∃ total : Rat, (observations.map (surplus bounds)).sum = .finite total ∧
      (observations.length : Rat) ≤ total := by
  induction observations with
  | nil => exact ⟨0, rfl, Rat.le_refl⟩
  | cons value rest ih =>
      obtain ⟨total, isTotal, least⟩ := ih fun other member => nonneg other (List.mem_cons_of_mem _ member)
      refine ⟨(bucketsOf bounds value + 1 : Nat) + value + total, ?_, ?_⟩
      · rw [List.map_cons, List.sum_cons, isTotal]
        rfl
      · have positive := nonneg value List.mem_cons_self
        have counted := Rat.natCast_nonneg (a := bucketsOf bounds value)
        rw [List.length_cons, Rat.natCast_add, Rat.natCast_add]
        grind

/-- Of durations, which are never negative, not one may be recorded. -/
theorem surplus_eq_zero_iff {bounds observations : List Rat}
    (nonneg : ∀ value ∈ observations, 0 ≤ value) :
    (observations.map (surplus bounds)).sum = 0 ↔ observations = [] := by
  constructor
  · intro none
    obtain ⟨total, isTotal, least⟩ := @surplus_total bounds observations nonneg
    obtain rfl : total = 0 := Quantity.finite.inj (isTotal.symm.trans none)
    exact List.length_eq_zero_iff.mp (Nat.le_zero.mp (Rat.natCast_le_natCast.mp least))
  · rintro rfl
    rfl

omit [DecidableEq κ] in
theorem settings_finite {name : MetricName} {history : List Recording} {entry : κ × Quantity}
    (member : entry ∈ settings hashObject name history) : ∃ value, entry.2 = .finite value := by
  obtain ⟨recording, _, isEntry⟩ := List.mem_filterMap.mp member
  cases recording with
  | incCounter => cases isEntry
  | observeHistogram => cases isEntry
  | setGauge other value labels =>
      rw [setting] at isEntry
      split at isEntry
      · rename_i own
        obtain rfl := Option.some.inj isEntry
        cases value with
        | finite value => exact ⟨value, rfl⟩
        | infinite => cases own.2
        | nan => cases own.2
      · cases isEntry

theorem gauge_right_iff {name : MetricName} {series : κ} {history : List Recording}
    {instrument : Option (Instrument κ)} (set : settings hashObject name history ≠ [])
    (tracks : GaugeTracks series (settings hashObject name history)
      (history.foldl (drift hashObject name series) none) instrument) :
    (instrument.bind fun instrument => totalOf instrument.samples) =
        (settings hashObject name history).getLast?.map Prod.snd ↔
      strayIncrements hashObject name series history = 0 := by
  rcases tracks with ⟨_, unset, _⟩ | ⟨values, own, others, last, rfl, isSums, isLast, isOwn, isSum⟩
  · exact absurd unset set
  · obtain ⟨value, finite⟩ := settings_finite hashObject (List.mem_of_getLast? isLast)
    obtain rfl : last = .finite value := finite
    have total : totalOf values.values = some (.finite value + (own + others)) := by
      rw [totalOf, if_neg (values_ne_nil isOwn), sum_values values series, isOwn, isSum,
        Option.getD_some, add_assoc]
    rw [isLast, strayIncrements, isSums, Option.bind_some, Instrument.samples, total]
    simp only [Option.map_some, Option.some.injEq, Option.elim_some]
    exact Quantity.finite_add_eq_iff

section Assembly

variable (buckets : List Rat) (collects : Bool) (store : CacheCounts) (history : List Recording)
  {name : MetricName}

theorem counter_rollup (isCounter : (metricCatalog name).type = .counter) :
    RollupRight hashObject collects store history name (rollup (buildAll
      (history.foldl (record hashObject) (Registry.new buckets collects)) store) name) := by
  have free : ¬ (collects = true ∧ name = .cacheHitRatio) := by
    rintro ⟨_, rfl⟩
    cases isCounter
  rw [rollup_run, if_neg free]
  simp only [RollupRight, isCounter]
  exact counter_right (counter_run hashObject isCounter buckets collects history)

theorem histogram_rollup_iff (isHistogram : (metricCatalog name).type = .histogram) :
    RollupRight hashObject collects store history name (rollup (buildAll
      (history.foldl (record hashObject) (Registry.new buckets collects)) store) name) ↔
    ((observations name history).map (surplus buckets)).sum = 0 := by
  have free : ¬ (collects = true ∧ name = .cacheHitRatio) := by
    rintro ⟨_, rfl⟩
    cases isHistogram
  rw [rollup_run, if_neg free]
  simp only [RollupRight, isHistogram]
  exact histogram_right_iff (histogram_run hashObject isHistogram buckets collects history)

theorem gauge_rollup_iff (isGauge : (metricCatalog name).type = .gauge) :
    RollupRight hashObject collects store history name (rollup (buildAll
      (history.foldl (record hashObject) (Registry.new buckets collects)) store) name) ↔
    (¬ (collects = true ∧ name = .cacheHitRatio) →
      ∀ series, settings hashObject name history ≠ [] →
        (∀ value ∈ settings hashObject name history, value.1 = series) →
          strayIncrements hashObject name series history = 0) := by
  rw [rollup_run]
  simp only [RollupRight, isGauge]
  by_cases collected : collects = true ∧ name = .cacheHitRatio
  · rw [if_pos collected, if_pos collected]
    exact ⟨fun _ free => absurd collected free, fun _ => rfl⟩
  · rw [if_neg collected, if_neg collected, forall_prop_of_true collected]
    refine forall_congr' fun series => forall_congr' fun set => forall_congr' fun single => ?_
    exact gauge_right_iff hashObject set (gauge_run hashObject isGauge collected buckets single)

end Assembly

end Metrics
