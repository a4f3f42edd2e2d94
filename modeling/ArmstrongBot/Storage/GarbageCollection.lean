import ArmstrongBot.Storage.Service

/-! Interleavings of `store` and `delete`: whose bytes the rows share that garbage collection
finds. -/

namespace Storage

open JsText StepMachine
open Calendar (Timestamp)

/-- No row that is garbage shares its key with a live one. -/
def Apart (state : State) : Prop :=
  ∀ dead ∈ state.catalog.rows, dead.isGarbage = true →
    ∀ live ∈ state.catalog.rows, live.isLive = true → dead.key ≠ live.key

/-- Reclaiming what `findDeletedWithZeroRefs` returns leaves the bytes of every live object. -/
def ReclaimsSafely (state : State) : Prop :=
  ∀ limit, ∀ dead ∈ state.catalog.findDeletedWithZeroRefs limit,
    ∀ live ∈ state.catalog.rows, live.isLive = true → dead.key ≠ live.key

theorem reclaimsSafely_of_apart {state : State} (apart : Apart state) : ReclaimsSafely state := by
  intro limit dead listed
  obtain ⟨member, garbage⟩ := mem_findDeletedWithZeroRefs listed
  exact apart dead member garbage

/-- A row is inserted only under a key that no garbage has, and the last reference to a row is
released only while no live row has its key. -/
def CallKeepsApart (config : StorageConfig) (state : State) (id : JsString) : Call → Prop
  | .creating params => (state.catalog.create (newObject config params id)).isSome = true →
      ∀ dead ∈ state.catalog.rows, dead.isGarbage = true →
        dead.key ≠ (newObject config params id).key
  | .decrementing object => ∀ row ∈ state.catalog.rows, row.id = object.id → row.refCount ≤ 1 →
      ∀ live ∈ state.catalog.rows, live.isLive = true → row.key ≠ live.key
  | _ => True

def KeepsApart (config : StorageConfig) (state : State) : Action → Prop
  | .advance index input => input.fails = false →
      ∀ call ∈ state.calls[index]?, CallKeepsApart config state input.id call
  | .begin _ => True

def Holds (catalog : Catalog) : Call → Prop
  | .deleting object => ∃ row ∈ catalog.rows, row.id = object.id
  | .decrementing object => ∃ row ∈ catalog.rows, row.id = object.id ∧ row.isLive = false
  | _ => True

/-- Live rows are referenced, and a call releases a reference to a row that it has soft-deleted. -/
structure Referenced (state : State) : Prop where
  apart : Apart state
  counted : ∀ row ∈ state.catalog.rows, row.isLive = true → 1 ≤ row.refCount
  held : ∀ call ∈ state.calls, Holds state.catalog call

variable {config : StorageConfig}

theorem referenced_start : Referenced State.start := by
  constructor <;> simp [State.start, Catalog.empty, Apart]

theorem isGarbage_iff {row : StorageObject} :
    row.isGarbage = true ↔ row.isLive = false ∧ row.refCount ≤ 0 := by
  simp [StorageObject.isGarbage]

theorem referenced_calls {state : State} (referenced : Referenced state) {index : Nat} {later : Call}
    (held : Holds state.catalog later) :
    Referenced { state with calls := state.calls.set index later } := by
  refine { referenced with held := ?_ }
  intro call member
  rcases List.mem_or_eq_of_mem_set member with earlier | rfl
  · exact referenced.held call earlier
  · exact held

theorem holds_mono {catalog next : Catalog} {call : Call} (held : Holds catalog call)
    (persists : ∀ row ∈ catalog.rows, ∃ after ∈ next.rows,
      after.id = row.id ∧ (row.isLive = false → after.isLive = false)) : Holds next call := by
  cases call with
  | deleting object =>
      obtain ⟨row, member, isObject⟩ := held
      obtain ⟨after, afterMember, sameId, _⟩ := persists row member
      exact ⟨after, afterMember, sameId.trans isObject⟩
  | decrementing object =>
      obtain ⟨row, member, isObject, dead⟩ := held
      obtain ⟨after, afterMember, sameId, buried⟩ := persists row member
      exact ⟨after, afterMember, sameId.trans isObject, buried dead⟩
  | _ => trivial

theorem referenced_update {state : State} (referenced : Referenced state) (id : JsString)
    (change : StorageObject → StorageObject) (sameId : ∀ row, (change row).id = row.id)
    (sameKey : ∀ row, (change row).key = row.key)
    (buried : ∀ row, row.isLive = false → (change row).isLive = false)
    (counted : ∀ row ∈ state.catalog.rows, row.id = id → (change row).isLive = true →
      1 ≤ (change row).refCount)
    (apart : ∀ row ∈ state.catalog.rows, row.id = id → (change row).isGarbage = true →
      ∀ live ∈ state.catalog.rows, live.isLive = true → row.key ≠ live.key) :
    Referenced { state with catalog := state.catalog.update id change sameId } := by
  have lives {row : StorageObject} (live : (change row).isLive = true) : row.isLive = true := by
    cases isLive : row.isLive with
    | true => rfl
    | false =>
        rw [buried row isLive] at live
        cases live
  refine ⟨?_, ?_, ?_⟩
  · intro dead deadMember garbage live liveMember isLive
    have liveBefore : ∃ before ∈ state.catalog.rows, before.isLive = true ∧ before.key = live.key := by
      rcases mem_update sameId liveMember with ⟨before, _⟩ | ⟨row, before, _, rfl⟩
      · exact ⟨live, before, isLive, rfl⟩
      · exact ⟨row, before, lives isLive, (sameKey row).symm⟩
    obtain ⟨before, beforeMember, beforeLive, liveKey⟩ := liveBefore
    rw [← liveKey]
    rcases mem_update sameId deadMember with ⟨deadBefore, _⟩ | ⟨row, deadBefore, isId, rfl⟩
    · exact referenced.apart dead deadBefore garbage before beforeMember beforeLive
    · rw [sameKey]
      exact apart row deadBefore isId garbage before beforeMember beforeLive
  · intro row member isLive
    rcases mem_update sameId member with ⟨before, _⟩ | ⟨row, before, isId, rfl⟩
    · exact referenced.counted row before isLive
    · exact counted row before isId isLive
  · intro call member
    refine holds_mono (referenced.held call member) ?_
    intro row rowMember
    by_cases isId : row.id = id
    · exact ⟨change row, mem_update_of_eq change sameId rowMember isId, sameId row, buried row⟩
    · exact ⟨row, mem_update_of_ne change sameId rowMember isId, rfl, fun dead => dead⟩

theorem referenced_created {state : State} (referenced : Referenced state) {params : StoreParams}
    {id : JsString} {catalog : Catalog}
    (created : state.catalog.create (newObject config params id) = some catalog)
    (unused : ∀ dead ∈ state.catalog.rows, dead.isGarbage = true →
      dead.key ≠ (newObject config params id).key) :
    Referenced { state with catalog } := by
  obtain ⟨_, rows⟩ := create_rows created
  have isNew {row : StorageObject} (member : row ∈ catalog.rows) :
      row ∈ state.catalog.rows ∨ row = newObject config params id := by
    rw [rows] at member
    simpa using member
  refine ⟨?_, ?_, ?_⟩
  · intro dead deadMember garbage live liveMember isLive
    rcases isNew deadMember with deadBefore | rfl
    · rcases isNew liveMember with liveBefore | rfl
      · exact referenced.apart dead deadBefore garbage live liveBefore isLive
      · exact unused dead deadBefore garbage
    · exact absurd (isGarbage_iff.mp garbage).2 (by simp [newObject])
  · intro row member isLive
    rcases isNew member with before | rfl
    · exact referenced.counted row before isLive
    · exact Int.le_refl 1
  · intro call member
    refine holds_mono (referenced.held call member) ?_
    intro row rowMember
    refine ⟨row, ?_, rfl, fun dead => dead⟩
    rw [rows]
    exact List.mem_append_left _ rowMember

theorem referenced_account {state : State} (referenced : Referenced state)
    (guildId : Option JsString) (bytesDelta countDelta : Int) :
    Referenced (account state guildId bytesDelta countDelta) := by
  unfold account
  split
  · exact ⟨referenced.apart, referenced.counted, referenced.held⟩
  · exact referenced

theorem referenced_softDelete {state : State} (referenced : Referenced state) (id : JsString)
    (now : Timestamp) :
    Referenced { state with catalog := state.catalog.softDelete id now } := by
  refine referenced_update referenced id (.deleted now)
    (fun _ => rfl) (fun _ => rfl) (fun _ _ => rfl) ?_ ?_
  · intro row _ _ live
    cases live
  · intro row member _ garbage
    have released : row.refCount ≤ 0 := (isGarbage_iff.mp garbage).2
    cases isLive : row.isLive with
    | true =>
        have counted := referenced.counted row member isLive
        omega
    | false => exact referenced.apart row member (isGarbage_iff.mpr ⟨isLive, released⟩)

theorem referenced_increment {state : State} (referenced : Referenced state) (id : JsString) :
    Referenced { state with catalog := state.catalog.incrementRefCount id } := by
  refine referenced_update referenced id .withReference
    (fun _ => rfl) (fun _ => rfl) (fun _ dead => dead) ?_ ?_
  · intro row member _ live
    have counted := referenced.counted row member live
    show 1 ≤ row.refCount + 1
    omega
  · intro row member _ garbage
    obtain ⟨dead, released⟩ := isGarbage_iff.mp garbage
    have below : row.refCount + 1 ≤ 0 := released
    exact referenced.apart row member (isGarbage_iff.mpr ⟨dead, by omega⟩)

theorem referenced_decrement {state : State} (referenced : Referenced state)
    {object : StorageObject} (held : Holds state.catalog (.decrementing object))
    (unused : ∀ row ∈ state.catalog.rows, row.id = object.id → row.refCount ≤ 1 →
      ∀ live ∈ state.catalog.rows, live.isLive = true → row.key ≠ live.key) :
    Referenced { state with catalog := state.catalog.decrementRefCount object.id } := by
  obtain ⟨dead, deadMember, isObject, isDead⟩ := held
  refine referenced_update referenced object.id .withoutReference
    (fun _ => rfl) (fun _ => rfl) (fun _ dead => dead) ?_ ?_
  · intro row member isId live
    have isLive : row.isLive = true := live
    rw [Catalog.eq_of_id member deadMember (isId.trans isObject.symm), isDead] at isLive
    cases isLive
  · intro row member isId garbage
    have released : row.refCount - 1 ≤ 0 := (isGarbage_iff.mp garbage).2
    exact unused row member isId (by omega)

theorem referenced_effect {state next : State} {call later : Call} {input : Input}
    (referenced : Referenced state) (current : call ∈ state.calls)
    (keepsApart : input.fails = false → CallKeepsApart config state input.id call)
    (effect : Effect config state input call next later) :
    Referenced next ∧ Holds next.catalog later := by
  have held := referenced.held call current
  cases effect with
  | failed _ => exact ⟨referenced, trivial⟩
  | admitted _ _ => exact ⟨referenced, trivial⟩
  | found => exact ⟨referenced, trivial⟩
  | missed => exact ⟨referenced, trivial⟩
  | put => exact ⟨⟨referenced.apart, referenced.counted, referenced.held⟩, trivial⟩
  | required required =>
      obtain ⟨member, isObject, _, _⟩ := requireObject_some required
      exact ⟨referenced, _, member, rfl⟩
  | deduped => exact ⟨referenced_increment referenced _, trivial⟩
  | created works created =>
      exact ⟨referenced_created referenced created (keepsApart works (by simp [created])), trivial⟩
  | accounted _ => exact ⟨referenced_account referenced _ _ _, trivial⟩
  | softDeleted _ =>
      obtain ⟨row, member, isObject⟩ := held
      have buried := mem_update_of_eq (StorageObject.deleted input.now) (fun _ => rfl) member
        isObject
      exact ⟨referenced_softDelete referenced _ _, _, buried, isObject, rfl⟩
  | decremented works =>
      exact ⟨referenced_decrement referenced held (keepsApart works), trivial⟩
  | released _ => exact ⟨referenced_account referenced _ _ _, trivial⟩

theorem effect_calls {state next : State} {call later : Call} {input : Input}
    (effect : Effect config state input call next later) : next.calls = state.calls := by
  have account_calls (guildId : Option JsString) (bytesDelta countDelta : Int) :
      (account state guildId bytesDelta countDelta).calls = state.calls := by
    unfold account
    split <;> rfl
  cases effect <;> first | rfl | exact account_calls _ _ _

theorem referenced_step {state next : State} {action : Action} (referenced : Referenced state)
    (keepsApart : KeepsApart config state action)
    (taken : step config state action = some next) : Referenced next := by
  cases action with
  | begin request =>
      obtain rfl := Option.some.inj taken
      refine { referenced with held := ?_ }
      intro call member
      rcases List.mem_append.mp member with earlier | begun
      · exact referenced.held call earlier
      · rw [List.mem_singleton.mp begun]
        cases request <;> trivial
  | advance index input =>
      obtain ⟨call, middle, later, current, advanced, rfl⟩ := step_advance taken
      have effect := advance_effect advanced
      obtain ⟨kept, held⟩ := referenced_effect referenced (List.mem_of_getElem? current)
        (fun works => keepsApart works call current) effect
      rw [← effect_calls effect]
      exact referenced_calls kept held

/-- Where garbage has no key of a live row after a step, the step met the condition. -/
theorem keepsApart_of_apart {state next : State} {action : Action} (referenced : Referenced state)
    (taken : step config state action = some next) (apart : Apart next) :
    KeepsApart config state action := by
  cases action with
  | begin request => trivial
  | advance index input =>
      intro works call current
      obtain ⟨other, middle, later, otherCurrent, advanced, rfl⟩ := step_advance taken
      obtain rfl : call = other := Option.some.inj (current.symm.trans otherCurrent)
      cases call with
      | creating params =>
          intro accepted dead deadMember garbage
          obtain ⟨catalog, created⟩ := Option.isSome_iff_exists.mp accepted
          simp only [advance, works, created, Bool.false_eq_true, if_false, Option.some.injEq,
            Prod.mk.injEq] at advanced
          obtain ⟨rfl, rfl⟩ := advanced
          obtain ⟨_, rows⟩ := create_rows created
          refine apart dead ?_ garbage (newObject config params input.id) ?_ rfl
          · rw [rows]
            exact List.mem_append_left _ deadMember
          · rw [rows]
            exact List.mem_append_right _ (List.mem_singleton_self _)
      | decrementing object =>
          intro row member isObject last live liveMember isLive
          obtain ⟨dead, deadMember, deadId, isDead⟩ :=
            referenced.held _ (List.mem_of_getElem? current)
          obtain rfl := Catalog.eq_of_id member deadMember (isObject.trans deadId.symm)
          have liveOther : live.id ≠ object.id := by
            intro same
            rw [Catalog.eq_of_id liveMember member (same.trans isObject.symm), isDead] at isLive
            cases isLive
          simp only [advance, works, Bool.false_eq_true, if_false, Option.some.injEq,
            Prod.mk.injEq] at advanced
          obtain ⟨rfl, rfl⟩ := advanced
          have released := mem_update_of_eq .withoutReference (fun _ => rfl) member isObject
          have untouched := mem_update_of_ne .withoutReference (fun _ => rfl) liveMember liveOther
          refine apart row.withoutReference released ?_ live untouched isLive
          refine isGarbage_iff.mpr ⟨isDead, ?_⟩
          show row.refCount - 1 ≤ 0
          omega
      | _ => trivial

variable (config)

/-- The bytes of live objects survive every collection of garbage in the runs that insert no row
under the key of garbage and release no row's last reference while a live row has its key; in all
others some garbage has the key of a live row. -/
theorem reclaimsSafely_always (actions : List Action) :
    (Guarded (step config) (KeepsApart config) .start actions →
      Always (step config) ReclaimsSafely .start actions) ∧
    (Always (step config) Apart .start actions ↔
      Guarded (step config) (KeepsApart config) .start actions) := by
  have apart : Always (step config) Apart .start actions ↔
      Guarded (step config) (KeepsApart config) .start actions :=
    always_iff_guarded (step config) (fun state (referenced : Referenced state) => referenced.apart)
      (fun state action next referenced met taken => referenced_step referenced met taken)
      (fun state action next referenced taken kept => keepsApart_of_apart referenced taken kept)
      referenced_start actions
  refine ⟨?_, apart⟩
  intro guarded
  exact (apart.mpr guarded).mono _ fun _ kept => reclaimsSafely_of_apart kept

/-! Bytes that are stored, deleted and stored again. -/

def performing (request : Request) (call steps : Nat) (id : JsString) : List Action :=
  .begin request :: List.replicate steps (.advance call { id, now := 0, fails := false })

def safeOnce (state : State) : Bool :=
  (state.catalog.findDeletedWithZeroRefs 1).all fun dead =>
    state.catalog.rows.all fun row => !(row.isLive && row.key = dead.key)

theorem safeOnce_of_reclaimsSafely {state : State} (safe : ReclaimsSafely state) :
    safeOnce state = true := by
  refine List.all_eq_true.mpr fun dead listed => List.all_eq_true.mpr fun row member => ?_
  cases isLive : row.isLive with
  | false => rfl
  | true => simp [(safe 1 dead listed row member isLive).symm]

/-- `findByHash` passes over the deleted row, and the fresh one takes its key. -/
theorem restored_bytes_collected :
    ¬ ∀ (config : StorageConfig) (actions : List Action),
      Always (step config) ReclaimsSafely .start actions := by
  intro all
  refine not_always (step noQuota) safeOnce (fun _ => safeOnce_of_reclaimsSafely) ?_
    (all noQuota
      (performing (.store (transcript (some (js "g")) [1])) 0 5 (js "a") ++
        performing (.delete (js "a") none) 1 4 [] ++
        performing (.store (transcript (some (js "g")) [1])) 2 5 (js "b")))
  decide +kernel

end Storage
