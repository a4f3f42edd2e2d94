import ArmstrongBot.Storage.Service
import ArmstrongBot.Library.Totals

/-! Interleavings of `store` and `delete` with failing steps: the usage aggregate against the live
objects of a guild, and its quota. -/

namespace Storage

open JsText StepMachine Totals
open Calendar (Timestamp)

def liveObjects (catalog : Catalog) (guildId : JsString) : List StorageObject :=
  catalog.rows.filter fun row => row.isLive ∧ row.guildId = some guildId

def liveBytes (catalog : Catalog) (guildId : JsString) : Int :=
  total (fun row => row.size) (liveObjects catalog guildId)

def Call.isOver : Call → Bool
  | .stored _ _ | .deleted _ | .failed => true
  | _ => false

structure UsageMatches (config : StorageConfig) (state : State) : Prop where
  idle : (state.calls.all Call.isOver) = true → ∀ guildId,
    usedBytes state.usage guildId = liveBytes state.catalog guildId ∧
      objectCount state.usage guildId = (liveObjects state.catalog guildId).length
  nonneg : ∀ guildId, 0 ≤ usedBytes state.usage guildId ∧ 0 ≤ objectCount state.usage guildId
  bounded : ∀ guildId, config.quotaBytes guildId = 0 ∨
    liveBytes state.catalog guildId ≤ config.quotaBytes guildId

/-! Both figures of the aggregate are kept alike, one in bytes and one in objects. -/

inductive Measure
  | bytes
  | objects

def Measure.weigh : Measure → Nat → Int
  | .bytes, size => size
  | .objects, _ => 1

def Measure.used : Measure → Record StorageUsage → JsString → Int
  | .bytes => usedBytes
  | .objects => objectCount

def amount (measure : Measure) (asked : JsString) (guildId : Option JsString) (size : Nat) : Int :=
  if guildId = some asked then measure.weigh size else 0

def liveTotal (measure : Measure) (catalog : Catalog) (guildId : JsString) : Int :=
  total (fun row => measure.weigh row.size) (liveObjects catalog guildId)

/-- What the aggregate has too much on account of a call. -/
def debt (measure : Measure) (guildId : JsString) : Call → Int
  | .accounting params _ => -amount measure guildId params.guildId params.body.length
  | .decrementing object | .releasing object => amount measure guildId object.guildId object.size
  | _ => 0

/-- The bytes of a store that has passed the quota check and inserts no row yet. -/
def admittedBytes (guildId : JsString) : Call → Int
  | .findingHash params | .putting params | .creating params =>
      amount .bytes guildId params.guildId params.body.length
  | _ => 0

/-- The bytes of a store that has passed the quota check and is not accounted for yet. -/
def underWay (guildId : JsString) : Call → Int
  | .accounting params _ => amount .bytes guildId params.guildId params.body.length
  | call => admittedBytes guildId call

def Call.accountingId : Call → Option JsString
  | .accounting _ id => some id
  | _ => none

def Call.releasingId : Call → Option JsString
  | .decrementing object | .releasing object => some object.id
  | _ => none

/-- The quota check would pass as well if it counted the stores of the guild that are under way; a
fresh row is of no guild or of one with an id; the row that a call soft-deletes is live still; and
the object whose bytes it gives back has been accounted for. -/
def callKeepsUsage (config : StorageConfig) (state : State) (id : JsString) : Call → Bool
  | .checkingQuota params =>
      match params.guildId with
      | none => true
      | some guildId =>
          config.quotaBytes guildId = 0 ||
            usedBytes state.usage guildId + total (underWay guildId) state.calls +
              params.body.length ≤ config.quotaBytes guildId ||
            !withinQuota config state.usage guildId params.body.length
  | .creating params =>
      params.guildId ≠ some [] || !(state.catalog.create (newObject config params id)).isSome
  | .deleting object => state.catalog.rows.all fun row => row.id ≠ object.id || row.isLive
  | .releasing object => state.calls.all fun call => call.accountingId ≠ some object.id
  | _ => true

/-- No step fails between the change of the catalog and that of the aggregate, and the others
keep it right. -/
def keepsUsage (config : StorageConfig) (state : State) : Action → Bool
  | .advance index input => state.calls[index]?.all fun call =>
      if input.fails then !call.owes else callKeepsUsage config state input.id call
  | .begin _ => true

def KeepsUsage (config : StorageConfig) (state : State) (action : Action) : Prop :=
  keepsUsage config state action = true

instance (config : StorageConfig) (state : State) (action : Action) :
    Decidable (KeepsUsage config state action) :=
  inferInstanceAs (Decidable (_ = true))

/-! Totals over the catalog. -/

theorem amount_nonneg (measure : Measure) (asked : JsString) (guildId : Option JsString)
    (size : Nat) : 0 ≤ amount measure asked guildId size := by
  unfold amount
  split
  · cases measure <;> simp [Measure.weigh]
  · exact Int.le_refl 0

theorem admittedBytes_nonneg (guildId : JsString) (call : Call) :
    0 ≤ admittedBytes guildId call := by
  cases call <;> first | exact Int.le_refl 0 | exact amount_nonneg _ _ _ _

def liveAmount (measure : Measure) (guildId : JsString) (row : StorageObject) : Int :=
  if row.isLive then amount measure guildId row.guildId row.size else 0

theorem liveTotal_eq (measure : Measure) (catalog : Catalog) (guildId : JsString) :
    liveTotal measure catalog guildId = total (liveAmount measure guildId) catalog.rows := by
  rw [liveTotal, liveObjects, total_filter]
  refine total_congr ?_
  intro row _
  by_cases isLive : row.isLive = true <;> by_cases isGuild : row.guildId = some guildId <;>
    simp [liveAmount, amount, isLive, isGuild]

theorem liveTotal_update_same (measure : Measure) (guildId : JsString) {catalog : Catalog}
    (id : JsString) (change : StorageObject → StorageObject)
    (sameId : ∀ row, (change row).id = row.id)
    (same : ∀ row, liveAmount measure guildId (change row) = liveAmount measure guildId row) :
    liveTotal measure (catalog.update id change sameId) guildId =
      liveTotal measure catalog guildId := by
  rw [liveTotal_eq, liveTotal_eq, Catalog.update, total_map]
  refine total_congr ?_
  intro row _
  by_cases isId : row.id = id
  · rw [if_pos isId, same]
  · rw [if_neg isId]

theorem liveTotal_references (measure : Measure) (guildId : JsString) (catalog : Catalog)
    (id : JsString) :
    liveTotal measure (catalog.incrementRefCount id) guildId =
        liveTotal measure catalog guildId ∧
      liveTotal measure (catalog.decrementRefCount id) guildId =
        liveTotal measure catalog guildId :=
  ⟨liveTotal_update_same measure guildId id .withReference (fun _ => rfl) fun _ => rfl,
    liveTotal_update_same measure guildId id .withoutReference (fun _ => rfl) fun _ => rfl⟩

theorem liveTotal_created (measure : Measure) (guildId : JsString) {config : StorageConfig}
    {catalog next : Catalog} {params : StoreParams} {id : JsString}
    (created : catalog.create (newObject config params id) = some next) :
    liveTotal measure next guildId =
      liveTotal measure catalog guildId +
        amount measure guildId params.guildId params.body.length := by
  rw [liveTotal_eq, liveTotal_eq, (create_rows created).2, total_append]
  simp [liveAmount, newObject, StorageObject.isLive]

theorem liveTotal_softDelete (measure : Measure) (guildId : JsString) {catalog : Catalog}
    {row : StorageObject} (member : row ∈ catalog.rows) (isLive : row.isLive = true)
    (now : Timestamp) :
    liveTotal measure (catalog.softDelete row.id now) guildId =
      liveTotal measure catalog guildId - amount measure guildId row.guildId row.size := by
  have alive : liveAmount measure guildId row = amount measure guildId row.guildId row.size :=
    if_pos isLive
  have gone : liveAmount measure guildId (row.deleted now) = 0 := rfl
  have updated := total_update (liveAmount measure guildId) catalog.distinct member (.deleted now)
  rw [alive, gone] at updated
  rw [liveTotal_eq, liveTotal_eq]
  exact updated.trans (Int.add_zero _)

/-! Every step leaves the aggregate, less the debts of the calls, at the live objects. -/

/-- The row of an object, by what no step changes of it. -/
def Names (catalog : Catalog) (id : JsString) (guildId : Option JsString) (size : Nat) : Prop :=
  ∃ row ∈ catalog.rows, row.id = id ∧ row.guildId = guildId ∧ row.size = size

def Known (catalog : Catalog) : Call → Prop
  | .accounting params id => Names catalog id params.guildId params.body.length
  | .deleting object | .decrementing object | .releasing object =>
      Names catalog object.id object.guildId object.size
  | _ => True

theorem known_mono {catalog next : Catalog} {call : Call} (known : Known catalog call)
    (persists : ∀ row ∈ catalog.rows, Names next row.id row.guildId row.size) :
    Known next call := by
  have names {id : JsString} {guildId : Option JsString} {size : Nat}
      (before : Names catalog id guildId size) : Names next id guildId size := by
    obtain ⟨row, member, rfl, rfl, rfl⟩ := before
    exact persists row member
  cases call with
  | accounting params id => exact names known
  | deleting object => exact names known
  | decrementing object => exact names known
  | releasing object => exact names known
  | _ => trivial

theorem account_guild (state : State) {guildId : JsString} (isGuild : guildId ≠ [])
    (bytesDelta countDelta : Int) :
    account state (some guildId) bytesDelta countDelta =
      { state with usage := addUsage state.usage guildId bytesDelta countDelta } := by
  have kept : (some guildId).filter (fun id => decide (id ≠ [])) = some guildId := by
    simp [isGuild]
  rw [account, kept]

theorem account_used (measure : Measure) (state : State) {guildId : Option JsString}
    (proper : guildId ≠ some []) (size : Nat) (asked : JsString) :
    measure.used (account state guildId size 1).usage asked =
        measure.used state.usage asked + amount measure asked guildId size ∧
      measure.used (account state guildId (-size) (-1)).usage asked =
        measure.used state.usage asked - amount measure asked guildId size := by
  cases guildId with
  | none => simp [account, amount]
  | some guildId =>
      have isGuild : guildId ≠ [] := fun empty => proper (congrArg some empty)
      by_cases same : asked = guildId
      · subst same
        rw [account_guild state isGuild, account_guild state isGuild]
        cases measure <;>
          simp [amount, Measure.used, Measure.weigh, addUsage_same, Int.sub_eq_add_neg]
      · have other : guildId ≠ asked := Ne.symm same
        rw [account_guild state isGuild, account_guild state isGuild]
        cases measure <;> simp [amount, other, Measure.used, addUsage_other _ same]

theorem account_catalog (state : State) (guildId : Option JsString) (bytesDelta countDelta : Int) :
    (account state guildId bytesDelta countDelta).catalog = state.catalog := by
  unfold account
  split <;> rfl

section

variable {config : StorageConfig} {state next : State} {input : Input} {call later : Call}

theorem update_persists {catalog : Catalog} {id : JsString}
    (change : StorageObject → StorageObject) (sameId : ∀ row, (change row).id = row.id)
    (same : ∀ row, (change row).guildId = row.guildId ∧ (change row).size = row.size) :
    ∀ row ∈ catalog.rows,
      Names (catalog.update id change sameId) row.id row.guildId row.size := by
  intro row member
  by_cases isId : row.id = id
  · exact ⟨change row, mem_update_of_eq change sameId member isId, sameId row, same row⟩
  · exact ⟨row, mem_update_of_ne change sameId member isId, rfl, rfl, rfl⟩

theorem effect_persists (effect : Effect config state input call next later) :
    ∀ row ∈ state.catalog.rows, Names next.catalog row.id row.guildId row.size := by
  have unchanged : ∀ row ∈ state.catalog.rows, Names state.catalog row.id row.guildId row.size :=
    fun row member => ⟨row, member, rfl, rfl, rfl⟩
  cases effect with
  | deduped => exact update_persists .withReference (fun _ => rfl) fun _ => ⟨rfl, rfl⟩
  | created _ created =>
      intro row member
      refine ⟨row, ?_, rfl, rfl, rfl⟩
      rw [(create_rows created).2]
      exact List.mem_append_left _ member
  | accounted _ =>
      rw [account_catalog]
      exact unchanged
  | softDeleted _ => exact update_persists (.deleted _) (fun _ => rfl) fun _ => ⟨rfl, rfl⟩
  | decremented _ => exact update_persists .withoutReference (fun _ => rfl) fun _ => ⟨rfl, rfl⟩
  | released _ =>
      rw [account_catalog]
      exact unchanged
  | _ => exact unchanged

theorem effect_known (effect : Effect config state input call next later)
    (known : Known state.catalog call) : Known next.catalog later := by
  have persists := effect_persists effect
  cases effect with
  | required required =>
      obtain ⟨member, _, _, _⟩ := requireObject_some required
      exact ⟨_, member, rfl, rfl, rfl⟩
  | created _ created =>
      refine ⟨newObject config _ input.id, ?_, rfl, rfl, rfl⟩
      rw [(create_rows created).2]
      exact List.mem_append_right _ (List.mem_singleton_self _)
  | softDeleted _ =>
      obtain ⟨row, member, isId, isGuild, isSize⟩ := known
      have named := persists row member
      rwa [isId, isGuild, isSize] at named
  | decremented _ =>
      obtain ⟨row, member, isId, isGuild, isSize⟩ := known
      have named := persists row member
      rwa [isId, isGuild, isSize] at named
  | _ => trivial

theorem effect_proper (effect : Effect config state input call next later)
    (keeps : input.fails = false → callKeepsUsage config state input.id call = true)
    (proper : ∀ row ∈ state.catalog.rows, row.guildId ≠ some []) :
    ∀ row ∈ next.catalog.rows, row.guildId ≠ some [] := by
  have updated {id : JsString} (change : StorageObject → StorageObject)
      (sameId : ∀ row, (change row).id = row.id)
      (same : ∀ row, (change row).guildId = row.guildId) :
      ∀ row ∈ (state.catalog.update id change sameId).rows, row.guildId ≠ some [] := by
    intro row member
    rcases mem_update sameId member with ⟨before, _⟩ | ⟨row, before, _, rfl⟩
    · exact proper row before
    · rw [same]
      exact proper row before
  cases effect with
  | deduped => exact updated .withReference (fun _ => rfl) fun _ => rfl
  | created works created =>
      intro row member
      rw [(create_rows created).2] at member
      rcases List.mem_append.mp member with before | isNew
      · exact proper row before
      · rw [List.mem_singleton.mp isNew]
        have accepted := keeps works
        rw [callKeepsUsage, created] at accepted
        simpa [newObject] using accepted
  | accounted _ =>
      rw [account_catalog]
      exact proper
  | softDeleted _ => exact updated (.deleted _) (fun _ => rfl) fun _ => rfl
  | decremented _ => exact updated .withoutReference (fun _ => rfl) fun _ => rfl
  | released _ =>
      rw [account_catalog]
      exact proper
  | _ => exact proper

/-- A step shifts as much between aggregate and live objects as between the debts of its call. -/
theorem effect_balance (measure : Measure) (guildId : JsString)
    (effect : Effect config state input call next later)
    (settles : input.fails = true → call.owes = false)
    (keeps : input.fails = false → callKeepsUsage config state input.id call = true)
    (proper : ∀ row ∈ state.catalog.rows, row.guildId ≠ some [])
    (known : Known state.catalog call) :
    measure.used next.usage guildId - liveTotal measure next.catalog guildId -
        debt measure guildId later =
      measure.used state.usage guildId - liveTotal measure state.catalog guildId -
        debt measure guildId call := by
  cases effect with
  | failed cause =>
      have owesNothing : call.owes = false := cause.elim settles id
      have debtless : debt measure guildId call = 0 := by
        cases call <;> first | rfl | cases owesNothing
      rw [debtless]
      rfl
  | deduped =>
      rw [(liveTotal_references measure guildId _ _).1]
      rfl
  | created _ created =>
      rw [liveTotal_created measure guildId created]
      simp only [debt]
      omega
  | accounted _ =>
      obtain ⟨row, member, _, isGuild, _⟩ := known
      rw [(account_used measure state (isGuild ▸ proper row member) _ guildId).1, account_catalog]
      simp only [debt]
      omega
  | softDeleted works =>
      obtain ⟨row, member, isObject, isGuild, isSize⟩ := known
      have isLive : row.isLive = true := by
        have alive := List.all_eq_true.mp (keeps works) row member
        simpa [isObject] using alive
      have buried := liveTotal_softDelete measure guildId member isLive input.now
      rw [isObject, isGuild, isSize] at buried
      simp only [buried, debt]
      omega
  | decremented _ =>
      rw [(liveTotal_references measure guildId _ _).2]
      rfl
  | released _ =>
      obtain ⟨row, member, _, isGuild, _⟩ := known
      rw [(account_used measure state (isGuild ▸ proper row member) _ guildId).2, account_catalog]
      simp only [debt]
      omega
  | _ => rfl

/-- What is live and what is still to be inserted grows at the quota check only. -/
theorem effect_live (guildId : JsString) (effect : Effect config state input call next later)
    (keeps : input.fails = false → callKeepsUsage config state input.id call = true)
    (known : Known state.catalog call) :
    (∃ params, call = .checkingQuota params ∧ later = .findingHash params ∧ next = state ∧
      input.fails = false ∧ (params.guildId = some guildId →
        withinQuota config state.usage guildId params.body.length = true)) ∨
    liveTotal .bytes next.catalog guildId + admittedBytes guildId later ≤
      liveTotal .bytes state.catalog guildId + admittedBytes guildId call := by
  have nonneg := admittedBytes_nonneg guildId call
  cases effect with
  | failed _ => exact Or.inr (Int.add_le_add_left nonneg _)
  | admitted works within => exact Or.inl ⟨_, rfl, rfl, rfl, works, within guildId⟩
  | found => exact Or.inr (Int.add_le_add_left nonneg _)
  | deduped =>
      rw [(liveTotal_references .bytes guildId _ _).1]
      exact Or.inr (Int.le_refl _)
  | created _ created =>
      rw [liveTotal_created .bytes guildId created]
      exact Or.inr (Int.le_of_eq (Int.add_zero _))
  | softDeleted works =>
      obtain ⟨row, member, isObject, isGuild, isSize⟩ := known
      have isLive : row.isLive = true := by
        have alive := List.all_eq_true.mp (keeps works) row member
        simpa [isObject] using alive
      have buried := liveTotal_softDelete .bytes guildId member isLive input.now
      have size := amount_nonneg .bytes guildId row.guildId row.size
      rw [isObject] at buried
      simp only [buried, admittedBytes]
      exact Or.inr (by omega)
  | decremented _ =>
      rw [(liveTotal_references .bytes guildId _ _).2]
      exact Or.inr (Int.le_refl _)
  | accounted _ =>
      rw [account_catalog]
      exact Or.inr (Int.le_refl _)
  | released _ =>
      rw [account_catalog]
      exact Or.inr (Int.le_refl _)
  | _ => exact Or.inr (Int.le_refl _)

/-- Counting what is under way makes up for what the aggregate lacks. -/
theorem admitted_le (guildId : JsString) (calls : List Call) :
    total (admittedBytes guildId) calls ≤
      total (debt .bytes guildId) calls + total (underWay guildId) calls := by
  rw [← total_add]
  refine total_le ?_
  intro call _
  cases call with
  | accounting params id =>
      simp only [admittedBytes, debt, underWay]
      omega
  | decrementing object =>
      simpa [admittedBytes, debt, underWay] using amount_nonneg .bytes guildId _ _
  | releasing object =>
      simpa [admittedBytes, debt, underWay] using amount_nonneg .bytes guildId _ _
  | _ => simp [admittedBytes, debt, underWay]

theorem effect_bounded (guildId : JsString) (effect : Effect config state input call next later)
    {index : Nat} (current : state.calls[index]? = some call)
    (keeps : input.fails = false → callKeepsUsage config state input.id call = true)
    (known : Known state.catalog call)
    (balance : usedBytes state.usage guildId =
      liveTotal .bytes state.catalog guildId + total (debt .bytes guildId) state.calls)
    (bounded : liveTotal .bytes state.catalog guildId + total (admittedBytes guildId) state.calls ≤
      config.quotaBytes guildId) :
    config.quotaBytes guildId = 0 ∨
      liveTotal .bytes next.catalog guildId +
        total (admittedBytes guildId) (state.calls.set index later) ≤
      config.quotaBytes guildId := by
  have admitted := admitted_le guildId state.calls
  rw [total_set _ current]
  rcases effect_live guildId effect keeps known with
    ⟨params, rfl, rfl, rfl, works, within⟩ | shrinks
  · by_cases isGuild : params.guildId = some guildId
    · have fits := keeps works
      simp only [callKeepsUsage, isGuild, within isGuild, Bool.not_true, Bool.or_false,
        Bool.or_eq_true, decide_eq_true_eq] at fits
      simp only [admittedBytes, amount, isGuild, if_true, Measure.weigh]
      omega
    · have none : amount .bytes guildId params.guildId params.body.length = 0 := if_neg isGuild
      simp only [admittedBytes, none]
      omega
  · exact Or.inr (by omega)

/-! An object is released only after it has been accounted for. -/

theorem mem_ids {named : Call → Option JsString} {front back : List Call} {id : JsString} :
    id ∈ (front ++ call :: back).filterMap named ↔
      named call = some id ∨ id ∈ (front ++ back).filterMap named := by
  simp only [List.mem_filterMap, List.mem_append, List.mem_cons]
  constructor
  · rintro ⟨other, isFront | rfl | isBack, isId⟩
    · exact Or.inr ⟨other, Or.inl isFront, isId⟩
    · exact Or.inl isId
    · exact Or.inr ⟨other, Or.inr isBack, isId⟩
  · rintro (isId | ⟨other, isFront | isBack, isId⟩)
    · exact ⟨call, Or.inr (Or.inl rfl), isId⟩
    · exact ⟨other, Or.inl isFront, isId⟩
    · exact ⟨other, Or.inr (Or.inr isBack), isId⟩

theorem nodup_ids {named : Call → Option JsString} {front back : List Call} :
    ((front ++ call :: back).filterMap named).Nodup ↔
      ((front ++ back).filterMap named).Nodup ∧
        ∀ id, named call = some id → id ∉ (front ++ back).filterMap named := by
  rw [List.filterMap_append, List.filterMap_append]
  cases isNamed : named call with
  | none => simp [isNamed]
  | some id => simp [isNamed, List.nodup_middle, and_comm]

theorem update_lives {catalog : Catalog} {id : JsString} (change : StorageObject → StorageObject)
    (sameId : ∀ row, (change row).id = row.id) (sameLive : ∀ row, (change row).isLive = row.isLive) :
    ∀ row ∈ catalog.rows, row.isLive = true →
      ∃ after ∈ (catalog.update id change sameId).rows, after.id = row.id ∧ after.isLive = true := by
  intro row member isLive
  by_cases isId : row.id = id
  · exact ⟨change row, mem_update_of_eq change sameId member isId, sameId row,
      (sameLive row).trans isLive⟩
  · exact ⟨row, mem_update_of_ne change sameId member isId, rfl, isLive⟩

/-- Accountings are of different objects, each of them live or about to be released. -/
structure Pending (catalog : Catalog) (calls : List Call) : Prop where
  distinct : (calls.filterMap Call.accountingId).Nodup
  held : ∀ id ∈ calls.filterMap Call.accountingId,
    (∃ row ∈ catalog.rows, row.id = id ∧ row.isLive = true) ∨
      id ∈ calls.filterMap Call.releasingId

theorem pending_iff {catalog : Catalog} {front back : List Call} :
    Pending catalog (front ++ call :: back) ↔
      (((front ++ back).filterMap Call.accountingId).Nodup ∧
        ∀ id, call.accountingId = some id → id ∉ (front ++ back).filterMap Call.accountingId) ∧
      ∀ id, call.accountingId = some id ∨ id ∈ (front ++ back).filterMap Call.accountingId →
        (∃ row ∈ catalog.rows, row.id = id ∧ row.isLive = true) ∨
          call.releasingId = some id ∨ id ∈ (front ++ back).filterMap Call.releasingId := by
  constructor
  · rintro ⟨distinct, held⟩
    exact ⟨nodup_ids.mp distinct, fun id member => (held id (mem_ids.mpr member)).imp_right
      mem_ids.mp⟩
  · rintro ⟨distinct, held⟩
    exact ⟨nodup_ids.mpr distinct, fun id member => (held id (mem_ids.mp member)).imp_right
      mem_ids.mpr⟩

/-- A step that neither begins nor ends an accounting or a release, nor buries a row. -/
theorem Pending.keep {before after : Catalog} {front back : List Call}
    (pending : Pending before (front ++ call :: back))
    (sameAccounting : later.accountingId = call.accountingId)
    (sameReleasing : later.releasingId = call.releasingId)
    (lives : ∀ row ∈ before.rows, row.isLive = true →
      ∃ kept ∈ after.rows, kept.id = row.id ∧ kept.isLive = true) :
    Pending after (front ++ later :: back) := by
  rw [pending_iff] at pending ⊢
  rw [sameAccounting, sameReleasing]
  refine ⟨pending.1, ?_⟩
  intro id member
  refine (pending.2 id member).imp_left ?_
  rintro ⟨row, rowMember, rfl, isLive⟩
  exact lives row rowMember isLive

theorem unaccounted {catalog : Catalog} {calls : List Call} {id : JsString}
    (known : ∀ call ∈ calls, Known catalog call) (fresh : id ∉ catalog.rows.map StorageObject.id) :
    id ∉ calls.filterMap Call.accountingId := by
  intro member
  obtain ⟨other, otherMember, isId⟩ := List.mem_filterMap.mp member
  have otherKnown := known other otherMember
  cases other <;> cases isId
  obtain ⟨row, rowMember, isRow, _⟩ := otherKnown
  exact fresh (List.mem_map.mpr ⟨row, rowMember, isRow⟩)

theorem pending_effect {index : Nat} (effect : Effect config state input call next later)
    (current : state.calls[index]? = some call)
    (settles : input.fails = true → call.owes = false)
    (keeps : input.fails = false → callKeepsUsage config state input.id call = true)
    (known : ∀ call ∈ state.calls, Known state.catalog call)
    (pending : Pending state.catalog state.calls) :
    Pending next.catalog (state.calls.set index later) := by
  obtain ⟨front, back, isCalls, replaced⟩ := split_at current
  have within {other : Call} (member : other ∈ front ++ back) : other ∈ state.calls := by
    rw [isCalls]
    exact List.mem_append.mpr ((List.mem_append.mp member).imp id (List.mem_cons_of_mem _))
  rw [isCalls] at pending
  rw [replaced]
  have same : ∀ row ∈ state.catalog.rows, row.isLive = true →
      ∃ after ∈ state.catalog.rows, after.id = row.id ∧ after.isLive = true :=
    fun row member isLive => ⟨row, member, rfl, isLive⟩
  cases effect with
  | failed cause =>
      have owesNothing : call.owes = false := cause.elim settles id
      cases call <;> first | exact pending.keep rfl rfl same | cases owesNothing
  | admitted _ _ => exact pending.keep rfl rfl same
  | found => exact pending.keep rfl rfl same
  | missed => exact pending.keep rfl rfl same
  | put => exact pending.keep rfl rfl same
  | required _ => exact pending.keep rfl rfl same
  | deduped => exact pending.keep rfl rfl (update_lives .withReference (fun _ => rfl) fun _ => rfl)
  | @created params catalog works created =>
      obtain ⟨fresh, rows⟩ := create_rows created
      obtain ⟨⟨distinct, _⟩, held⟩ := pending_iff.mp pending
      refine pending_iff.mpr ⟨⟨distinct, ?_⟩, ?_⟩
      · intro id isId
        obtain rfl : input.id = id := Option.some.inj isId
        exact unaccounted (fun other member => known other (within member)) fresh
      · rintro id (isId | member)
        · refine Or.inl ⟨newObject config params input.id, ?_, Option.some.inj isId, rfl⟩
          rw [rows]
          exact List.mem_append_right _ (List.mem_singleton_self _)
        · refine (held id (Or.inr member)).imp_left ?_
          rintro ⟨row, rowMember, isRow⟩
          refine ⟨row, ?_, isRow⟩
          rw [rows]
          exact List.mem_append_left _ rowMember
  | accounted _ =>
      obtain ⟨⟨distinct, _⟩, held⟩ := pending_iff.mp pending
      rw [account_catalog]
      refine pending_iff.mpr ⟨⟨distinct, nofun⟩, ?_⟩
      rintro id (isNone | member)
      · cases isNone
      · exact held id (Or.inr member)
  | @softDeleted object works =>
      obtain ⟨⟨distinct, _⟩, held⟩ := pending_iff.mp pending
      refine pending_iff.mpr ⟨⟨distinct, nofun⟩, ?_⟩
      intro id member
      rcases held id member with ⟨row, rowMember, rfl, isLive⟩ | isNone | releasing
      · by_cases isObject : row.id = object.id
        · exact Or.inr (Or.inl (congrArg some isObject.symm))
        · exact Or.inl ⟨row, mem_update_of_ne (.deleted _) (fun _ => rfl) rowMember isObject, rfl,
            isLive⟩
      · cases isNone
      · exact Or.inr (Or.inr releasing)
  | decremented _ =>
      exact pending.keep rfl rfl (update_lives .withoutReference (fun _ => rfl) fun _ => rfl)
  | @released object works =>
      obtain ⟨⟨distinct, _⟩, held⟩ := pending_iff.mp pending
      rw [account_catalog]
      refine pending_iff.mpr ⟨⟨distinct, nofun⟩, ?_⟩
      rintro id (isNone | member)
      · cases isNone
      · refine (held id (Or.inr member)).imp_right ?_
        rintro (isObject | releasing)
        · obtain ⟨other, otherMember, isId⟩ := List.mem_filterMap.mp member
          have accounted := List.all_eq_true.mp (keeps works) other (within otherMember)
          exact absurd (isId.trans isObject.symm) (of_decide_eq_true accounted)
        · exact Or.inr releasing

/-! The objects that lack in the aggregate are among those that it has too much of. -/

def weightOf (measure : Measure) (guildId : JsString) (catalog : Catalog) (id : JsString) : Int :=
  ((catalog.rows.find? fun row => row.id = id).map fun row =>
    amount measure guildId row.guildId row.size).getD 0

theorem weightOf_names (measure : Measure) (asked : JsString) {catalog : Catalog} {id : JsString}
    {guildId : Option JsString} {size : Nat} (names : Names catalog id guildId size) :
    weightOf measure asked catalog id = amount measure asked guildId size := by
  obtain ⟨row, member, rfl, rfl, rfl⟩ := names
  rw [weightOf]
  cases found : catalog.rows.find? fun other => decide (other.id = row.id) with
  | some other =>
      have sameId : other.id = row.id := by simpa using List.find?_some found
      rw [Catalog.eq_of_id (List.mem_of_find?_eq_some found) member sameId]
      rfl
  | none =>
      have absent := List.find?_eq_none.mp found row member
      simp at absent

theorem weightOf_nonneg (measure : Measure) (guildId : JsString) (catalog : Catalog)
    (id : JsString) : 0 ≤ weightOf measure guildId catalog id := by
  unfold weightOf
  cases catalog.rows.find? fun row => decide (row.id = id) with
  | none => exact Int.le_refl 0
  | some row => exact amount_nonneg _ _ _ _

theorem liveTotal_weights (measure : Measure) (catalog : Catalog) (guildId : JsString) :
    liveTotal measure catalog guildId = total (weightOf measure guildId catalog)
      ((catalog.rows.filter StorageObject.isLive).map StorageObject.id) := by
  rw [total_map, total_filter, liveTotal_eq]
  refine total_congr ?_
  intro row member
  rw [liveAmount, weightOf_names measure guildId ⟨row, member, rfl, rfl, rfl⟩]

theorem debt_weights (measure : Measure) (guildId : JsString) {catalog : Catalog}
    {calls : List Call} (known : ∀ call ∈ calls, Known catalog call) :
    total (debt measure guildId) calls +
        total (weightOf measure guildId catalog) (calls.filterMap Call.accountingId) =
      total (weightOf measure guildId catalog) (calls.filterMap Call.releasingId) := by
  rw [total_filterMap, total_filterMap, ← total_add]
  refine total_congr ?_
  intro call member
  have isKnown := known call member
  cases call with
  | accounting params id =>
      simp only [debt, Call.accountingId, Call.releasingId, Option.map_some, Option.getD_some,
        weightOf_names measure guildId isKnown, Option.map_none, Option.getD_none]
      omega
  | decrementing object =>
      simp [debt, Call.accountingId, Call.releasingId, weightOf_names measure guildId isKnown]
  | releasing object =>
      simp [debt, Call.accountingId, Call.releasingId, weightOf_names measure guildId isKnown]
  | _ => rfl

theorem debt_covered (measure : Measure) (guildId : JsString) {catalog : Catalog}
    {calls : List Call} (known : ∀ call ∈ calls, Known catalog call)
    (pending : Pending catalog calls) :
    0 ≤ liveTotal measure catalog guildId + total (debt measure guildId) calls := by
  have debts := debt_weights measure guildId known
  have among : calls.filterMap Call.accountingId ⊆
      (catalog.rows.filter StorageObject.isLive).map StorageObject.id ++
        calls.filterMap Call.releasingId := by
    intro id member
    rcases pending.held id member with ⟨row, rowMember, rfl, isLive⟩ | releasing
    · refine List.mem_append_left _ (List.mem_map.mpr ⟨row, ?_, rfl⟩)
      exact List.mem_filter.mpr ⟨rowMember, isLive⟩
    · exact List.mem_append_right _ releasing
  have covered := total_le_of_subset pending.distinct among fun id _ =>
    weightOf_nonneg measure guildId catalog id
  rw [total_append, ← liveTotal_weights] at covered
  omega

/-! Runs. -/

/-- The aggregate is the live objects and the debts of the calls, and the quota covers the live
objects and what is still to be inserted. -/
structure Settling (config : StorageConfig) (state : State) : Prop where
  balance : ∀ measure guildId, Measure.used measure state.usage guildId =
    liveTotal measure state.catalog guildId + total (debt measure guildId) state.calls
  proper : ∀ row ∈ state.catalog.rows, row.guildId ≠ some []
  known : ∀ call ∈ state.calls, Known state.catalog call
  pending : Pending state.catalog state.calls
  bounded : ∀ guildId, config.quotaBytes guildId = 0 ∨
    liveTotal .bytes state.catalog guildId + total (admittedBytes guildId) state.calls ≤
      config.quotaBytes guildId

theorem settling_start : Settling config State.start := by
  refine ⟨?_, ?_, ?_, ⟨?_, ?_⟩, ?_⟩
  · intro measure guildId
    cases measure <;> rfl
  · intro row member
    cases member
  · intro call member
    cases member
  · exact List.nodup_nil
  · intro id member
    cases member
  · intro guildId
    exact Or.inr (Int.natCast_nonneg _)

theorem settling_begin (settling : Settling config state) (request : Request) :
    Settling config { state with calls := state.calls ++ [request.call] } := by
  have idle : (∀ measure guildId, debt measure guildId request.call = 0) ∧
      (∀ guildId, admittedBytes guildId request.call = 0) ∧ Known state.catalog request.call ∧
      request.call.accountingId = none ∧ request.call.releasingId = none := by
    cases request <;> exact ⟨fun _ _ => rfl, fun _ => rfl, trivial, rfl, rfl⟩
  obtain ⟨debtless, unadmitted, isKnown, unaccounted, unreleased⟩ := idle
  refine ⟨?_, settling.proper, ?_, ?_, ?_⟩
  · intro measure guildId
    rw [settling.balance measure guildId, total_append, total_cons, total_nil,
      debtless measure guildId, Int.add_zero, Int.add_zero]
  · intro call member
    rcases List.mem_append.mp member with earlier | begun
    · exact settling.known call earlier
    · rw [List.mem_singleton.mp begun]
      exact isKnown
  · refine ⟨?_, ?_⟩
    · simpa [unaccounted] using settling.pending.distinct
    · simpa [unaccounted, unreleased] using settling.pending.held
  · intro guildId
    rw [total_append, total_cons, total_nil, unadmitted, Int.add_zero, Int.add_zero]
    exact settling.bounded guildId

theorem settling_step {action : Action} (settling : Settling config state)
    (keeps : KeepsUsage config state action)
    (taken : step config state action = some next) : Settling config next := by
  cases action with
  | begin request =>
      obtain rfl := Option.some.inj taken
      exact settling_begin settling request
  | advance index input =>
      obtain ⟨call, middle, later, current, advanced, rfl⟩ := step_advance taken
      have effect : Effect config state input call middle later := advance_effect advanced
      have known := settling.known call (List.mem_of_getElem? current)
      have kept : (if input.fails then !call.owes else
          callKeepsUsage config state input.id call) = true := by
        simpa [KeepsUsage, keepsUsage, current] using keeps
      have settles : input.fails = true → call.owes = false := by
        intro fails
        rw [if_pos fails] at kept
        simpa using kept
      have keeps : input.fails = false → callKeepsUsage config state input.id call = true := by
        intro works
        rwa [if_neg (by simp [works])] at kept
      have proper := effect_proper effect keeps settling.proper
      have persists := effect_persists effect
      have isKnown := effect_known effect known
      have pending := pending_effect effect current settles keeps settling.known settling.pending
      refine ⟨?_, proper, ?_, pending, ?_⟩
      · intro measure guildId
        have shifted := effect_balance measure guildId effect settles keeps settling.proper known
        have before := settling.balance measure guildId
        rw [total_set _ current]
        show Measure.used measure middle.usage guildId = liveTotal measure middle.catalog guildId + _
        omega
      · intro other member
        rcases List.mem_or_eq_of_mem_set member with earlier | rfl
        · exact known_mono (settling.known other earlier) persists
        · exact isKnown
      · intro guildId
        rcases settling.bounded guildId with unlimited | bounded
        · exact Or.inl unlimited
        · have balance := settling.balance .bytes guildId
          exact effect_bounded guildId effect current keeps known balance bounded

theorem Settling.matches (settling : Settling config state) : UsageMatches config state := by
  have covered (measure : Measure) (guildId : JsString) :
      0 ≤ Measure.used measure state.usage guildId := by
    rw [settling.balance]
    exact debt_covered measure guildId settling.known settling.pending
  refine ⟨?_, fun guildId => ⟨covered .bytes guildId, covered .objects guildId⟩, ?_⟩
  · intro isIdle guildId
    have settled (measure : Measure) : total (debt measure guildId) state.calls = 0 := by
      have debtless : ∀ call ∈ state.calls, debt measure guildId call = 0 := by
        intro call member
        have ended := List.all_eq_true.mp isIdle call member
        cases call <;> first | rfl | cases ended
      rw [total_congr debtless, total_const, Int.mul_zero]
    have bytes := settling.balance .bytes guildId
    have objects := settling.balance .objects guildId
    rw [settled, Int.add_zero] at bytes objects
    refine ⟨bytes, objects.trans ?_⟩
    rw [liveTotal, show (fun row : StorageObject => Measure.weigh .objects row.size) = fun _ => 1
      from rfl, total_const, Int.mul_one]
  · intro guildId
    refine (settling.bounded guildId).imp_right ?_
    intro bounded
    have admitted : 0 ≤ total (admittedBytes guildId) state.calls :=
      total_nonneg fun call _ => admittedBytes_nonneg guildId call
    have live : liveBytes state.catalog guildId = liveTotal .bytes state.catalog guildId := rfl
    omega

variable (config) in
/-- In every interleaving that leaves no debt of a call behind, buries no row twice and admits no
more than the quota, the aggregate is right. -/
theorem usageMatches_always (actions : List Action)
    (guarded : Guarded (step config) (KeepsUsage config) .start actions) :
    Always (step config) (UsageMatches config) .start actions := by
  have settling := always_of_guarded (step config) (fun _ _ _ before keeps taken =>
    settling_step before keeps taken) settling_start guarded
  exact settling.mono _ fun _ kept => kept.matches

end

/-! Calls that overlap. -/

def smallQuota : StorageConfig := { contentHash := constantHash, quotaBytes := fun _ => 4 }

def taking (call : Nat) : Action := .advance call { id := js "a", now := 0, fails := false }

/-- The second store comes upon the object of the first, and the third is refused while the object
is being deleted. -/
theorem usageMatches_overlapping :
    Always (step smallQuota) (UsageMatches smallQuota) .start
      ([.begin (.store (transcript (some (js "g")) [1, 2])), taking 0, taking 0,
        .begin (.store (transcript (some (js "g")) [1, 2])), taking 1, taking 0, taking 0, taking 1,
        taking 0, taking 1, .begin (.delete (js "a") none), taking 2, taking 2,
        .begin (.store (transcript (some (js "g")) [1, 2, 3])), taking 3, taking 2, taking 2]) :=
  usageMatches_always smallQuota _ (by decide +kernel)

/-- Both deletes find the object before either has soft-deleted it. -/
theorem deleted_twice :
    ¬ ∀ (config : StorageConfig) (actions : List Action),
      Always (step config) (UsageMatches config) .start actions := by
  intro all
  refine not_always (step noQuota) (fun state => 0 ≤ usedBytes state.usage (js "g"))
    (fun _ usage => decide_eq_true (usage.nonneg _).1) ?_
    (all noQuota
      ([.begin (.store (transcript (some (js "g")) [1])), taking 0, taking 0, taking 0, taking 0,
        taking 0, .begin (.delete (js "a") none), .begin (.delete (js "a") none), taking 1, taking 2,
        taking 1, taking 1, taking 1, taking 2, taking 2, taking 2]))
  decide +kernel

end Storage
