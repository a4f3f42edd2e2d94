import ArmstrongBot.Library.Instruments
import ArmstrongBot.Library.JsMethods
import ArmstrongBot.Library.JsNumber

/-! Recording into the metrics registry and the rollups that a snapshot takes from it. -/

namespace Metrics

open JsText Instruments

inductive MetricScope
  | system
  | gateway
  | api
  | database
  | cache
  | queue
  | commands
  deriving DecidableEq

def metricScopes : List MetricScope :=
  [.system, .gateway, .api, .database, .cache, .queue, .commands]

inductive MetricType
  | counter
  | gauge
  | histogram
  deriving DecidableEq

inductive MetricName
  | processCpuSeconds
  | processResidentMemoryBytes
  | eventLoopLagSeconds
  | gatewayLatencySeconds
  | gatewayShardState
  | gatewayReconnectsTotal
  | discordRateLimitTotal
  | httpRequestDurationSeconds
  | httpRequestsTotal
  | dbQueryDurationSeconds
  | dbPoolConnections
  | cacheOpsTotal
  | cacheHitRatio
  | jobDurationSeconds
  | jobsTotal
  | queueDepth
  | queueDlqDepth
  | commandDurationSeconds
  | commandsTotal
  | moduleEventsTotal
  deriving DecidableEq

def allMetricNames : List MetricName :=
  [.processCpuSeconds, .processResidentMemoryBytes, .eventLoopLagSeconds, .gatewayLatencySeconds,
    .gatewayShardState, .gatewayReconnectsTotal, .discordRateLimitTotal,
    .httpRequestDurationSeconds, .httpRequestsTotal, .dbQueryDurationSeconds, .dbPoolConnections,
    .cacheOpsTotal, .cacheHitRatio, .jobDurationSeconds, .jobsTotal, .queueDepth, .queueDlqDepth,
    .commandDurationSeconds, .commandsTotal, .moduleEventsTotal]

structure MetricDefinition where
  type : MetricType
  labelNames : List JsString
  scope : MetricScope

def metricCatalog : MetricName → MetricDefinition
  | .processCpuSeconds => { type := .counter, labelNames := [], scope := .system }
  | .processResidentMemoryBytes => { type := .gauge, labelNames := [], scope := .system }
  | .eventLoopLagSeconds => { type := .gauge, labelNames := [], scope := .system }
  | .gatewayLatencySeconds =>
      { type := .histogram, labelNames := [js "shard"], scope := .gateway }
  | .gatewayShardState => { type := .gauge, labelNames := [js "shard"], scope := .gateway }
  | .gatewayReconnectsTotal => { type := .counter, labelNames := [js "shard"], scope := .gateway }
  | .discordRateLimitTotal => { type := .counter, labelNames := [js "global"], scope := .gateway }
  | .httpRequestDurationSeconds =>
      { type := .histogram, labelNames := [js "method", js "route", js "status_class"]
        scope := .api }
  | .httpRequestsTotal =>
      { type := .counter, labelNames := [js "method", js "route", js "status_class"], scope := .api }
  | .dbQueryDurationSeconds =>
      { type := .histogram, labelNames := [js "model", js "action"], scope := .database }
  | .dbPoolConnections => { type := .gauge, labelNames := [js "state"], scope := .database }
  | .cacheOpsTotal => { type := .counter, labelNames := [js "result"], scope := .cache }
  | .cacheHitRatio => { type := .gauge, labelNames := [], scope := .cache }
  | .jobDurationSeconds =>
      { type := .histogram, labelNames := [js "queue", js "state"], scope := .queue }
  | .jobsTotal => { type := .counter, labelNames := [js "queue", js "state"], scope := .queue }
  | .queueDepth => { type := .gauge, labelNames := [js "queue"], scope := .queue }
  | .queueDlqDepth => { type := .gauge, labelNames := [js "queue"], scope := .queue }
  | .commandDurationSeconds =>
      { type := .histogram, labelNames := [js "module", js "command", js "status"]
        scope := .commands }
  | .commandsTotal =>
      { type := .counter, labelNames := [js "module", js "command", js "status"]
        scope := .commands }
  | .moduleEventsTotal => { type := .counter, labelNames := [js "module"], scope := .commands }

inductive LabelValue
  | text (value : JsString)
  | number (value : JsNumber.Number)
  | infinite (negative : Bool)
  | nan

/-- `String(value)` -/
def LabelValue.toText : LabelValue → JsString
  | .text value => value
  | .number value => JsNumber.numberText value
  | .infinite negative => if negative then js "-Infinity" else js "Infinity"
  | .nan => js "NaN"

abbrev MetricLabels := Record LabelValue

/-- `pick`: the labels that the metric declares. -/
def pick (name : MetricName) (labels : MetricLabels) : List (JsString × JsString) :=
  (metricCatalog name).labelNames.filterMap fun key =>
    (labels key).map fun value => (key, value.toText)

/-- The registry. With `collectsHitRatio` the collector has registered a gauge of its own under
the name of the cache hit ratio. -/
structure Registry (κ : Type) where
  instruments : JsMap MetricName (Instrument κ)
  defaultBuckets : List Rat
  collectsHitRatio : Bool

variable {κ : Type} [DecidableEq κ] (hashObject : List (JsString × JsString) → κ)

def Registry.new (defaultBuckets : List Rat) (collectsHitRatio : Bool) : Registry κ :=
  { instruments := JsMap.empty, defaultBuckets, collectsHitRatio }

def defaultBuckets : List Rat :=
  [5 / 1000, 1 / 100, 25 / 1000, 5 / 100, 1 / 10, 25 / 100, 5 / 10, 1, 25 / 10, 5, 10]

def setDefaultBuckets (registry : Registry κ) (buckets : List Rat) : Registry κ :=
  if 0 < buckets.length then { registry with defaultBuckets := buckets } else registry

/-- `onModuleInit` of the collector. -/
def onModuleInit (registry : Registry κ) (enabled : Bool) (histogramBucketsSeconds : List Rat) :
    Registry κ :=
  if enabled then
    { setDefaultBuckets registry histogramBucketsSeconds with collectsHitRatio := true }
  else registry

/-- The series of a new instrument: where it has no labels its one series is there from the start. -/
def start {σ : Type} (labelNames : List JsString) (zero : σ) : JsMap κ σ :=
  if labelNames = [] then JsMap.empty.set (hashObject []) zero else JsMap.empty

def build (defaultBuckets : List Rat) (definition : MetricDefinition) : Instrument κ :=
  match definition.type with
  | .counter => .counter (start hashObject definition.labelNames 0)
  | .gauge => .gauge (start hashObject definition.labelNames 0)
  | .histogram => .histogram defaultBuckets (start hashObject definition.labelNames Buckets.zero)

/-- The instrument under the name, built where there is none of the name yet. The type is checked
for a new one only, and the client refuses a second instrument under one name. -/
def resolve (registry : Registry κ) (name : MetricName) (expected : MetricType) :
    Option (Instrument κ × Registry κ) :=
  match registry.instruments.get name with
  | some existing => some (existing, registry)
  | none =>
      if (metricCatalog name).type ≠ expected then none
      else if registry.collectsHitRatio = true ∧ name = .cacheHitRatio then none
      else
        let instrument := build hashObject registry.defaultBuckets (metricCatalog name)
        some (instrument,
          { registry with instruments := registry.instruments.set name instrument })

/-- `safe`: what throws is dropped. -/
def safe (registry : Registry κ) (name : MetricName) (expected : MetricType)
    (mutate : Instrument κ → Option (Instrument κ)) : Registry κ :=
  match resolve hashObject registry name expected with
  | none => registry
  | some (instrument, resolved) =>
      match mutate instrument with
      | none => resolved
      | some changed => { resolved with instruments := resolved.instruments.set name changed }

def seriesOf (name : MetricName) (labels : Option MetricLabels) : κ :=
  hashObject ((labels.map (pick name)).getD [])

def incCounter (registry : Registry κ) (name : MetricName) (value : Option Quantity)
    (labels : Option MetricLabels) : Registry κ :=
  safe hashObject registry name .counter
    (Instrument.inc (seriesOf hashObject name labels) (value.getD (.finite 1)))

def setGauge (registry : Registry κ) (name : MetricName) (value : Quantity)
    (labels : Option MetricLabels) : Registry κ :=
  if value.isFinite then
    safe hashObject registry name .gauge (Instrument.set (seriesOf hashObject name labels) value)
  else registry

def observeHistogram (registry : Registry κ) (name : MetricName) (value : Quantity)
    (labels : Option MetricLabels) : Registry κ :=
  if value.isFinite then
    safe hashObject registry name .histogram
      (Instrument.observe (seriesOf hashObject name labels) value)
  else registry

inductive Recording
  | incCounter (name : MetricName) (value : Option Quantity) (labels : Option MetricLabels)
  | setGauge (name : MetricName) (value : Quantity) (labels : Option MetricLabels)
  | observeHistogram (name : MetricName) (value : Quantity) (labels : Option MetricLabels)

def record (registry : Registry κ) : Recording → Registry κ
  | .incCounter name value labels => incCounter hashObject registry name value labels
  | .setGauge name value labels => setGauge hashObject registry name value labels
  | .observeHistogram name value labels => observeHistogram hashObject registry name value labels

/-- The running counts of the memory cache store. -/
structure CacheCounts where
  hits : Nat
  misses : Nat

/-- `collect` of the cache hit ratio. -/
def hitRatio (store : CacheCounts) : Quantity :=
  if 0 < store.hits + store.misses then .finite (store.hits / (store.hits + store.misses : Nat))
  else 0

def getMetricsAsJSON (registry : Registry κ) (store : CacheCounts) :
    List (MetricName × List Quantity) :=
  (if registry.collectsHitRatio then [(.cacheHitRatio, [hitRatio store])] else []) ++
    registry.instruments.entries.map fun entry => (entry.1, entry.2.samples)

structure ScopedSnapshotValues where
  scope : MetricScope
  values : List (MetricName × Quantity)

def addTotal (byName : JsMap MetricName Quantity) (metric : MetricName × List Quantity) :
    JsMap MetricName Quantity :=
  if metric.2 = [] then byName
  else byName.set metric.1 (metric.2.foldl (fun sum value => sum + value) 0)

def valuesForScope (scope : MetricScope) (byName : JsMap MetricName Quantity) :
    List (MetricName × Quantity) :=
  allMetricNames.filterMap fun name =>
    if (metricCatalog name).scope ≠ scope then none else (byName.get name).map fun value => (name, value)

def buildAll (registry : Registry κ) (store : CacheCounts) : List ScopedSnapshotValues :=
  let byName := (getMetricsAsJSON registry store).foldl addTotal JsMap.empty
  (metricScopes.map fun scope => { scope, values := valuesForScope scope byName }).filter fun snapshot =>
    snapshot.values ≠ []

end Metrics
