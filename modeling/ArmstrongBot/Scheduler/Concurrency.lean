import ArmstrongBot.Library.Processes
import ArmstrongBot.Library.StepMachine
import ArmstrongBot.Scheduler.Replacement

/-! Calls of the service that overlap, and the live rows that a dedup tuple comes to have. -/

namespace Scheduler

open JsText StepMachine
open Calendar (Timestamp)

/-- A dedup tuple as `findByDedup` looks for it, with the null guild of the platform a guild like
any other. -/
structure Slot where
  guildId : Option JsString
  kind : JsString
  idempotencyKey : JsString
  deriving DecidableEq

def ScheduleEntity.slot (row : ScheduleEntity) : Option Slot :=
  row.idempotencyKey.map fun idempotencyKey =>
    { guildId := row.guildId, kind := row.kind, idempotencyKey }

def CreateScheduleInput.slot (data : CreateScheduleInput) : Option Slot :=
  data.idempotencyKey.map fun idempotencyKey =>
    { guildId := data.guildId, kind := data.kind, idempotencyKey }

def Schedules.live (schedules : Schedules) (slot : Slot) : List ScheduleEntity :=
  schedules.rows.filter fun row => row.isLive ∧ row.slot = some slot

/-- The table and the queue under the calls that are at work on them. A call that is never advanced
again is one whose process has ended. -/
structure World where
  state : State
  calls : List Call

def World.start : World := { state := .start, calls := [] }

inductive Action
  | ask (request : Request)
  | advance (index : Nat) (input : Input)
  | runJob (jobId : JsString) (succeeds : Bool) (now : Timestamp)
  | runRepeatable (repeatKey : JsString) (succeeds willRetry : Bool) (now : Timestamp)

section

variable (services : Services)

def World.step (world : World) : Action → Option World
  | .ask request => some { world with calls := world.calls ++ [request.call] }
  | .advance index input =>
      match world.calls[index]? with
      | none => none
      | some call =>
          match advance services world.state call input with
          | none => none
          | some next => some { state := next.1, calls := world.calls.set index next.2 }
  | .runJob jobId succeeds now => some { world with state := runJob world.state jobId succeeds now }
  | .runRepeatable repeatKey succeeds willRetry now =>
      some { world with state := runRepeatable world.state repeatKey succeeds willRetry now }

def OneLive (world : World) : Prop :=
  ∀ slot, (world.state.schedules.live slot).length ≤ 1

/-- The row that the step of a call inserts. -/
def insertedRow (schedules : Schedules) (call : Call) (input : Input) : Option ScheduleEntity :=
  match call with
  | .creating data =>
      if input.fails = false ∧ services.columnsHold (data.row input.id) = true ∧
          schedules.Admits (data.row input.id) then some (data.row input.id)
      else none
  | _ => none

/-- A row of the platform is inserted only where its tuple has no live row. -/
def InsertsAlone (world : World) : Action → Prop
  | .advance index input =>
      ∀ call ∈ world.calls[index]?,
        ∀ row ∈ insertedRow services world.state.schedules call input, row.guildId = none →
          ∀ slot ∈ row.slot, world.state.schedules.live slot = []
  | _ => True

/-- The tuple for which a call has looked, and has yet to insert a row. -/
def Call.window : Call → Option Slot
  | .unqueueing _ (some data) | .softDeleting _ (some data) | .creating data => data.slot
  | _ => none

/-- A platform tuple is looked up when no other call is about to insert a row of it, and what is
found gives way. -/
def TakesTurns (world : World) : Action → Prop
  | .advance index _ =>
      ∀ data key, world.calls[index]? = some (.finding data key) → data.guildId = none →
        ∀ slot ∈ data.slot, (∀ other ∈ world.calls, other.window ≠ some slot) ∧
          ∀ row ∈ world.state.schedules.live slot, givesWay data row = true
  | _ => True

end

theorem mem_live {schedules : Schedules} {slot : Slot} {row : ScheduleEntity} :
    row ∈ schedules.live slot ↔
      row ∈ schedules.rows ∧ row.isLive = true ∧ row.slot = some slot := by
  simp [Schedules.live]

/-! What a step does to the live rows of each tuple. -/

/-- No row comes to life. -/
def Fewer (schedules next : Schedules) : Prop :=
  ∀ slot, List.Sublist ((next.live slot).map ScheduleEntity.id)
    ((schedules.live slot).map ScheduleEntity.id)

theorem Fewer.refl (schedules : Schedules) : Fewer schedules schedules :=
  fun _ => List.Sublist.refl _

theorem fewer_update (schedules : Schedules) (id : JsString)
    (change : ScheduleEntity → ScheduleEntity)
    (same : ∀ row, (change row).id = row.id ∧ (change row).dedup = row.dedup)
    (sameSlot : ∀ row, (change row).slot = row.slot)
    (stays : ∀ row, (change row).isLive = true → row.isLive = true) :
    Fewer schedules (schedules.update id change same) := by
  intro slot
  rw [Schedules.live, Schedules.live, Schedules.update, List.filter_map, List.map_map,
    Schedules.comp_written fun row => (same row).1]
  refine (List.monotone_filter_right _ fun row isLive => ?_).map _
  simp only [Function.comp_apply, decide_eq_true_eq] at isLive ⊢
  split at isLive
  · rw [sameSlot] at isLive
    exact ⟨stays row isLive.1, isLive.2⟩
  · exact isLive

theorem fewer_softDelete (schedules : Schedules) (id : JsString) (now : Timestamp) :
    Fewer schedules (schedules.softDelete id now) :=
  fewer_update schedules id _ _ (fun _ => rfl) fun _ isLive => absurd isLive (by
    simp [ScheduleEntity.isLive, ScheduleEntity.cancelled])

theorem fewer_setBullJobId (schedules : Schedules) (id bullJobId : JsString) :
    Fewer schedules (schedules.setBullJobId id bullJobId) :=
  fewer_update schedules id _ _ (fun _ => rfl) fun _ isLive => isLive

theorem fewer_recordAttempt (schedules : Schedules) (scheduleId : JsString)
    (succeeds willRetry : Bool) (now : Timestamp) :
    Fewer schedules (recordAttempt schedules scheduleId succeeds willRetry now) := by
  unfold recordAttempt
  split
  · exact fewer_update _ _ _ _ (fun _ => rfl) fun _ isLive => isLive
  · split
    · exact .refl _
    · exact fewer_update _ _ _ _ (fun _ => rfl) fun _ isLive => isLive

theorem live_append {schedules next : Schedules} {row : ScheduleEntity}
    (inserted : next.rows = schedules.rows ++ [row]) (slot : Slot) :
    next.live slot =
      schedules.live slot ++ [row].filter fun row => row.isLive ∧ row.slot = some slot := by
  rw [Schedules.live, inserted, List.filter_append]
  rfl

/-- The unique index keeps the tuples of guilds apart, live or not. -/
theorem live_of_admits {schedules : Schedules} {row : ScheduleEntity} {slot : Slot}
    (admits : schedules.Admits row) (isSlot : row.slot = some slot) (inGuild : row.guildId ≠ none) :
    schedules.live slot = [] := by
  refine List.eq_nil_iff_forall_not_mem.mpr fun other member => ?_
  obtain ⟨isRow, _, otherSlot⟩ := mem_live.mp member
  obtain ⟨guildId, isGuild⟩ := Option.ne_none_iff_exists'.mp inGuild
  obtain ⟨key, isKey, rfl⟩ := Option.map_eq_some_iff.mp isSlot
  obtain ⟨otherKey, hasKey, sameSlot⟩ := Option.map_eq_some_iff.mp otherSlot
  obtain ⟨sameGuild, sameKind, rfl⟩ := Slot.mk.inj sameSlot
  refine admits.2 { guildId, kind := row.kind, idempotencyKey := otherKey } ?_ ?_
  · simp [ScheduleEntity.dedup, isGuild, isKey]
  · refine List.mem_filterMap.mpr ⟨other, isRow, ?_⟩
    simp [ScheduleEntity.dedup, sameGuild.trans isGuild, hasKey, sameKind]

theorem live_created (data : CreateScheduleInput) (id : JsString) (slot : Slot) :
    ([data.row id].filter fun row => row.isLive ∧ row.slot = some slot) =
      if data.slot = some slot then [data.row id] else [] := by
  have sameSlot : (data.row id).slot = data.slot := rfl
  have isLive : (data.row id).isLive = true := rfl
  by_cases isSlot : data.slot = some slot <;> simp [sameSlot, isLive, isSlot]

section Steps

variable {services : Services}

theorem advance_creating {state next : State} {data : CreateScheduleInput} {later : Call}
    {input : Input} (taken : advance services state (.creating data) input = some (next, later)) :
    (insertedRow services state.schedules (.creating data) input = none ∧ next = state ∧
        later = .failed) ∨
      (insertedRow services state.schedules (.creating data) input = some (data.row input.id) ∧
        state.schedules.Admits (data.row input.id) ∧
        next.schedules.rows = state.schedules.rows ++ [data.row input.id] ∧
        (later = .clearing (data.row input.id) ∨ later = .adding (data.row input.id))) := by
  by_cases inserts : input.fails = false ∧ services.columnsHold (data.row input.id) = true ∧
      state.schedules.Admits (data.row input.id)
  · right
    obtain ⟨works, holds, admits⟩ := inserts
    obtain ⟨schedules, created, rows⟩ := Schedules.create_of_admits admits
    refine ⟨if_pos ⟨works, holds, admits⟩, admits, ?_⟩
    simp only [advance, works, holds, created, Bool.false_and, Bool.false_eq_true, if_false,
      if_true] at taken
    split at taken <;> cases taken
    · exact ⟨rows, .inl rfl⟩
    · exact ⟨rows, .inr rfl⟩
  · left
    refine ⟨if_neg inserts, ?_⟩
    cases fails : input.fails with
    | true =>
        simp only [advance, fails, Call.canFail, Bool.and_self, if_true] at taken
        cases taken
        exact ⟨rfl, rfl⟩
    | false =>
        have refused : (if services.columnsHold (data.row input.id) then
            state.schedules.create (data.row input.id) else none) = none := by
          split
          · rename_i holds
            exact dif_neg fun admits => inserts ⟨fails, holds, admits⟩
          · rfl
        simp only [advance, fails, refused, Bool.false_and, Bool.false_eq_true, if_false] at taken
        cases taken
        exact ⟨rfl, rfl⟩

/-- Only a call that creates has more live rows afterwards. -/
theorem advance_fewer {state next : State} {call later : Call} {input : Input}
    (taken : advance services state call input = some (next, later))
    (inserts : insertedRow services state.schedules call input = none) :
    Fewer state.schedules next.schedules := by
  by_cases creates : ∃ data, call = .creating data
  · obtain ⟨data, rfl⟩ := creates
    rcases advance_creating taken with ⟨_, rfl, _⟩ | ⟨isRow, _⟩
    · exact .refl _
    · rw [isRow] at inserts
      cases inserts
  · cases advance_effect taken with
    | createdOnce | createdRecurring => exact absurd ⟨_, rfl⟩ creates
    | softDeleted | cancelled => exact fewer_softDelete _ _ _
    | recorded => exact fewer_setBullJobId _ _ _
    | _ => exact .refl _

theorem fewer_runJob (state : State) (jobId : JsString) (succeeds : Bool) (now : Timestamp) :
    Fewer state.schedules (runJob state jobId succeeds now).schedules := by
  unfold runJob
  split
  · exact .refl _
  · exact fewer_recordAttempt _ _ _ _ _

theorem fewer_runRepeatable (state : State) (repeatKey : JsString) (succeeds willRetry : Bool)
    (now : Timestamp) :
    Fewer state.schedules (runRepeatable state repeatKey succeeds willRetry now).schedules := by
  unfold runRepeatable
  split
  · exact .refl _
  · exact fewer_recordAttempt _ _ _ _ _

inductive Stepped (services : Services) (world : World) : Action → World → Prop
  | asked (request : Request) :
      Stepped services world (.ask request) { world with calls := world.calls ++ [request.call] }
  | advanced {index : Nat} {input : Input} {call later : Call} {next : State} :
      world.calls[index]? = some call →
      advance services world.state call input = some (next, later) →
      Stepped services world (.advance index input)
        { state := next, calls := world.calls.set index later }
  | ran {action : Action} {next : State} : (∀ index input, action ≠ .advance index input) →
      Fewer world.state.schedules next.schedules →
      Stepped services world action { world with state := next }

theorem step_cases {world next : World} {action : Action}
    (taken : world.step services action = some next) : Stepped services world action next := by
  cases action with
  | ask request =>
      cases taken
      exact .asked request
  | advance index input =>
      simp only [World.step] at taken
      split at taken
      · cases taken
      · rename_i call isCall
        split at taken
        · cases taken
        · rename_i advanced isNext
          cases taken
          exact .advanced isCall isNext
  | runJob jobId succeeds now =>
      cases taken
      exact .ran (fun _ _ => Action.noConfusion) (fewer_runJob _ _ _ _)
  | runRepeatable repeatKey succeeds willRetry now =>
      cases taken
      exact .ran (fun _ _ => Action.noConfusion) (fewer_runRepeatable _ _ _ _ _)

theorem OneLive.fewer {world next : World} (oneLive : OneLive world)
    (fewer : Fewer world.state.schedules next.state.schedules) : OneLive next := by
  intro slot
  have shorter := (fewer slot).length_le
  rw [List.length_map, List.length_map] at shorter
  exact shorter.trans (oneLive slot)

theorem OneLive.step {world next : World} {action : Action} (oneLive : OneLive world)
    (alone : InsertsAlone services world action)
    (taken : world.step services action = some next) : OneLive next := by
  cases step_cases taken with
  | asked => exact oneLive
  | ran _ fewer => exact oneLive.fewer fewer
  | @advanced index input call later state isCall advanced =>
      cases inserts : insertedRow services world.state.schedules call input with
      | none => exact oneLive.fewer (advance_fewer advanced inserts)
      | some row =>
          cases call with
          | creating data =>
              rcases advance_creating advanced with ⟨isNone, _⟩ | ⟨isRow, admits, rows, _⟩
              · rw [isNone] at inserts
                cases inserts
              · intro slot
                rw [live_append rows, live_created]
                split
                · rename_i isSlot
                  have vacant : world.state.schedules.live slot = [] := by
                    by_cases platform : data.guildId = none
                    · exact alone _ isCall _ isRow platform slot isSlot
                    · exact live_of_admits admits isSlot platform
                  rw [vacant]
                  exact Nat.le_refl 1
                · rw [List.append_nil]
                  exact oneLive slot
          | _ => cases inserts

/-- An insert beside a live row leaves two. -/
theorem insertsAlone_of_oneLive {world next : World} {action : Action}
    (taken : world.step services action = some next) (oneLive : OneLive next) :
    InsertsAlone services world action := by
  cases step_cases taken with
  | asked => trivial
  | ran other =>
      cases action with
      | advance index input => exact absurd rfl (other index input)
      | _ => trivial
  | @advanced index input call later state isCall advanced =>
      intro known isKnown row isRow platform slot isSlot
      obtain rfl := Option.some.inj (isCall.symm.trans isKnown)
      cases call with
      | creating data =>
          rcases advance_creating advanced with ⟨isNone, _⟩ | ⟨isData, _, rows, _⟩
          · rw [isNone] at isRow
            cases isRow
          · obtain rfl := Option.some.inj (isData.symm.trans isRow)
            have atMost := oneLive slot
            have wanted : data.slot = some slot := isSlot
            rw [live_append rows, live_created, if_pos wanted, List.length_append] at atMost
            exact List.length_eq_zero_iff.mp (Nat.le_zero.mp (Nat.le_of_succ_le_succ atMost))
      | _ => cases isRow

/-! Calls that take turns at the tuples of the platform. -/

/-- The row that a call is about to remove. -/
def Call.evicts : Call → Option JsString
  | .unqueueing existing _ | .softDeleting existing _ => some existing.id
  | _ => none

/-- Of a platform tuple that a call has looked up, only the row that it removes is live. -/
def Sighted (schedules : Schedules) (call : Call) : Prop :=
  ∀ slot ∈ call.window, slot.guildId = none →
    ∀ row ∈ schedules.live slot, call.evicts = some row.id

structure Turns (world : World) : Prop where
  oneLive : OneLive world
  sighted : ∀ call ∈ world.calls, Sighted world.state.schedules call
  keyed : ∀ data key, Call.finding data key ∈ world.calls → data.idempotencyKey = some key
  apart : ∀ slot : Slot, slot.guildId = none → ∀ (first second : Nat) (firstCall secondCall : Call),
    world.calls[first]? = some firstCall → world.calls[second]? = some secondCall →
    firstCall.window = some slot → secondCall.window = some slot → first = second

theorem turns_start : Turns .start where
  oneLive := fun _ => Nat.zero_le 1
  sighted := by simp [World.start]
  keyed := by simp [World.start]
  apart := by simp [World.start]

theorem Turns.slotwise {world : World} (turns : Turns world) {slot : Slot}
    (platform : slot.guildId = none) :
    Processes.Apart (fun one other : Call => one.window = some slot ∧ other.window = some slot)
      world.calls :=
  fun first second one other isFirst isSecond clash =>
    turns.apart slot platform first second one other isFirst isSecond clash.1 clash.2

theorem Sighted.fewer {schedules next : Schedules} {call : Call} (sighted : Sighted schedules call)
    (fewer : Fewer schedules next) : Sighted next call := by
  intro slot inWindow platform row member
  obtain ⟨before, wasLive, sameId⟩ :=
    List.mem_map.mp ((fewer slot).subset (List.mem_map_of_mem member))
  rw [← sameId]
  exact sighted slot inWindow platform before wasLive

theorem eq_of_oneLive {world : World} (oneLive : OneLive world) {slot : Slot}
    {first second : ScheduleEntity} (firstMember : first ∈ world.state.schedules.live slot)
    (secondMember : second ∈ world.state.schedules.live slot) : first = second := by
  have atMost := oneLive slot
  cases isLive : world.state.schedules.live slot with
  | nil =>
      rw [isLive] at firstMember
      cases firstMember
  | cons row rest =>
      rw [isLive] at firstMember secondMember atMost
      obtain rfl : rest = [] :=
        List.length_eq_zero_iff.mp (Nat.le_zero.mp (Nat.le_of_succ_le_succ atMost))
      rw [List.mem_singleton.mp firstMember, List.mem_singleton.mp secondMember]

/-- The live rows of a tuple are those that `findByDedup` looks for. -/
theorem mem_live_iff_matches {schedules : Schedules} {data : CreateScheduleInput} {key : JsString}
    {slot : Slot} (isKey : data.idempotencyKey = some key) (isSlot : data.slot = some slot)
    {row : ScheduleEntity} :
    row ∈ schedules.live slot ↔ row ∈ schedules.rows ∧ row.guildId = data.guildId ∧
      row.kind = data.kind ∧ row.idempotencyKey = some key ∧ row.isLive = true := by
  obtain rfl : { guildId := data.guildId, kind := data.kind, idempotencyKey := key } = slot := by
    simpa [CreateScheduleInput.slot, isKey] using isSlot
  rw [mem_live]
  refine and_congr_right fun _ => ?_
  constructor
  · rintro ⟨isLive, sameSlot⟩
    obtain ⟨hasKey, isRow, same⟩ := Option.map_eq_some_iff.mp sameSlot
    obtain ⟨sameGuild, sameKind, rfl⟩ := Slot.mk.inj same
    exact ⟨sameGuild, sameKind, isRow, isLive⟩
  · rintro ⟨sameGuild, sameKind, hasKey, isLive⟩
    exact ⟨isLive, by simp [ScheduleEntity.slot, sameGuild, sameKind, hasKey]⟩

theorem not_mem_softDelete {schedules : Schedules} {id : JsString} {now : Timestamp}
    {row : ScheduleEntity} (member : row ∈ (schedules.softDelete id now).rows)
    (isLive : row.isLive = true) : row.id ≠ id := by
  obtain ⟨before, _, rfl⟩ := List.mem_map.mp member
  split at isLive
  · cases isLive
  · rename_i other
    rwa [if_neg other]

theorem slot_unkeyed {request : ScheduleOnceInput} {now : Timestamp}
    (valid : request.isValid = true)
    (noKey : (request.idempotencyKey.filter fun key => key ≠ []) = none) :
    (request.row services now).slot = none := by
  have unkeyed : request.idempotencyKey = none := by
    cases isKey : request.idempotencyKey with
    | none => rfl
    | some key =>
        obtain rfl : key = [] := by simpa [isKey] using noKey
        simp [ScheduleOnceInput.isValid, isKey] at valid
  simp [CreateScheduleInput.slot, ScheduleOnceInput.row, unkeyed]

/-- A call keeps its tuple or has just looked it up. -/
theorem window_advance {state next : State} {call later : Call} {input : Input}
    (taken : advance services state call input = some (next, later)) {slot : Slot}
    (inWindow : later.window = some slot) :
    call.window = some slot ∨ ∃ data key, call = .finding data key ∧ data.slot = some slot := by
  cases advance_effect taken with
  | unqueued | kept =>
      rename_i data _
      cases data with
      | none => cases inWindow
      | some data => exact .inl inWindow
  | softDeleted => exact .inl inWindow
  | found | missed => exact .inr ⟨_, _, rfl, inWindow⟩
  | preparedUnkeyed valid noKey =>
      rw [Call.window, slot_unkeyed valid noKey] at inWindow
      cases inWindow
  | _ => cases inWindow

theorem Turns.insertsAlone {world : World} (turns : Turns world) (action : Action) :
    InsertsAlone services world action := by
  cases action with
  | advance index input =>
      intro call isCall row isRow platform slot isSlot
      cases call with
      | creating data =>
          obtain rfl := Option.some.inj (Option.ite_none_right_eq_some.mp isRow).2
          refine List.eq_nil_iff_forall_not_mem.mpr fun other member => ?_
          have guildless : slot.guildId = none := by
            obtain ⟨key, _, rfl⟩ := Option.map_eq_some_iff.mp isSlot
            exact platform
          have evicted := turns.sighted _ (List.mem_of_getElem? isCall) slot isSlot guildless other
            member
          cases evicted
      | _ => cases isRow
  | _ => trivial

/-- What a call sees after its own step. -/
theorem sighted_advance {world : World} {next : State} {index : Nat} {call later : Call}
    {input : Input} (turns : Turns world) (takes : TakesTurns world (.advance index input))
    (isCall : world.calls[index]? = some call)
    (taken : advance services world.state call input = some (next, later)) :
    Sighted next.schedules later := by
  have member := List.mem_of_getElem? isCall
  intro slot inWindow platform row isLive
  have sighted := turns.sighted call member slot
  cases advance_effect taken with
  | unqueued | kept =>
      rename_i data _
      cases data with
      | none => cases inWindow
      | some data => exact sighted inWindow platform row isLive
  | @softDeleted existing data =>
      obtain ⟨before, wasLive, sameId⟩ := List.mem_map.mp
        ((fewer_softDelete world.state.schedules existing.id input.now slot).subset
          (List.mem_map_of_mem isLive))
      have evicted : some existing.id = some before.id := sighted inWindow platform before wasLive
      obtain ⟨isRow, alive, _⟩ := mem_live.mp isLive
      exact absurd (sameId.symm.trans (Option.some.inj evicted).symm)
        (not_mem_softDelete isRow alive)
  | @found data key existing found =>
      have isExisting : existing ∈ world.state.schedules.live slot :=
        (mem_live_iff_matches (turns.keyed data key member) inWindow).mpr
          (Schedules.findByDedup_some (Option.filter_eq_some_iff.mp found).1)
      rw [eq_of_oneLive turns.oneLive isLive isExisting]
      rfl
  | @missed data key missed =>
      have isKey := turns.keyed data key member
      have guildless : data.guildId = none := by
        obtain ⟨_, _, rfl⟩ := Option.map_eq_some_iff.mp inWindow
        exact platform
      obtain ⟨isRow, matching⟩ := (mem_live_iff_matches isKey inWindow).mp isLive
      cases found : world.state.schedules.findByDedup data.guildId data.kind key with
      | none => exact absurd (decide_eq_true matching) (List.find?_eq_none.mp found row isRow)
      | some existing =>
          have isExisting : existing ∈ world.state.schedules.live slot :=
            (mem_live_iff_matches isKey inWindow).mpr (Schedules.findByDedup_some found)
          have gives := (takes data key isCall guildless slot inWindow).2 existing isExisting
          rw [found, Option.filter_some, if_pos gives] at missed
          cases missed
  | preparedUnkeyed valid noKey =>
      rw [Call.window, slot_unkeyed valid noKey] at inWindow
      cases inWindow
  | _ => cases inWindow

/-- What another call sees. -/
theorem sighted_other {world : World} {next : State} {index place : Nat} {call later other : Call}
    {input : Input} (turns : Turns world) (isCall : world.calls[index]? = some call)
    (isOther : world.calls[place]? = some other) (different : place ≠ index)
    (taken : advance services world.state call input = some (next, later)) :
    Sighted next.schedules other := by
  have sighted := turns.sighted other (List.mem_of_getElem? isOther)
  cases inserts : insertedRow services world.state.schedules call input with
  | none => exact sighted.fewer (advance_fewer taken inserts)
  | some row =>
      cases call with
      | creating data =>
          rcases advance_creating taken with ⟨isNone, _⟩ | ⟨_, _, rows, _⟩
          · rw [isNone] at inserts
            cases inserts
          · intro slot inWindow platform other isLive
            rw [live_append rows, live_created] at isLive
            split at isLive
            · rename_i isSlot
              exact absurd
                (turns.apart slot platform place index _ _ isOther isCall inWindow isSlot) different
            · rw [List.append_nil] at isLive
              exact sighted slot inWindow platform other isLive
      | _ => cases inserts

theorem keyed_advance {state next : State} {call : Call} {input : Input}
    {data : CreateScheduleInput} {key : JsString}
    (taken : advance services state call input = some (next, .finding data key)) :
    data.idempotencyKey = some key := by
  cases advance_effect taken with
  | preparedOnce _ isKey => exact (Option.filter_eq_some_iff.mp isKey).1
  | preparedRecurring => rfl

/-- A call that comes to have a platform tuple had it, or is alone with it. -/
theorem alone_advance {world : World} {next : State} {index place : Nat} {call later other : Call}
    {input : Input} {slot : Slot} (turns : Turns world)
    (takes : TakesTurns world (.advance index input))
    (isCall : world.calls[index]? = some call) (isOther : world.calls[place]? = some other)
    (taken : advance services world.state call input = some (next, later))
    (platform : slot.guildId = none) (inWindow : later.window = some slot)
    (otherWindow : other.window = some slot) : place = index := by
  rcases window_advance taken inWindow with kept | ⟨data, key, rfl, isSlot⟩
  · exact turns.apart slot platform place index _ _ isOther isCall otherWindow kept
  · have guildless : data.guildId = none := by
      obtain ⟨_, _, rfl⟩ := Option.map_eq_some_iff.mp isSlot
      exact platform
    exact absurd otherWindow
      ((takes data key isCall guildless slot isSlot).1 other (List.mem_of_getElem? isOther))

theorem window_call (request : Request) : request.call.window = none := by
  cases request <;> rfl

theorem Turns.advance {world : World} {next : State} {index : Nat} {call later : Call}
    {input : Input} (turns : Turns world) (takes : TakesTurns world (.advance index input))
    (isCall : world.calls[index]? = some call)
    (taken : Scheduler.advance services world.state call input = some (next, later))
    (oneLive : OneLive { state := next, calls := world.calls.set index later }) :
    Turns { state := next, calls := world.calls.set index later } where
  oneLive := oneLive
  sighted := by
    intro other member
    rcases Processes.mem_set member with rfl | ⟨place, different, isOther⟩
    · exact sighted_advance turns takes isCall taken
    · exact sighted_other turns isCall isOther different taken
  keyed := by
    intro data key member
    rcases Processes.mem_set member with rfl | ⟨place, different, isOther⟩
    · exact keyed_advance taken
    · exact turns.keyed data key (List.mem_of_getElem? isOther)
  apart := by
    intro slot platform first second firstCall secondCall isFirst isSecond firstIn secondIn
    refine ((turns.slotwise platform).set ?_) first second _ _ isFirst isSecond ⟨firstIn, secondIn⟩
    rintro place other isOther (⟨laterIn, otherIn⟩ | ⟨otherIn, laterIn⟩)
    · exact alone_advance turns takes isCall isOther taken platform laterIn otherIn
    · exact alone_advance turns takes isCall isOther taken platform laterIn otherIn

theorem Turns.ask {world : World} (turns : Turns world) (request : Request) :
    Turns { world with calls := world.calls ++ [request.call] } where
  oneLive := turns.oneLive
  sighted := by
    intro call member
    rcases List.mem_append.mp member with known | isNew
    · exact turns.sighted call known
    · intro slot inWindow
      rw [List.mem_singleton.mp isNew, window_call] at inWindow
      cases inWindow
  keyed := by
    intro data key member
    rcases List.mem_append.mp member with known | isNew
    · exact turns.keyed data key known
    · cases request <;> cases List.mem_singleton.mp isNew
  apart := by
    intro slot platform first second firstCall secondCall isFirst isSecond firstIn secondIn
    refine ((turns.slotwise platform).append fun other => ?_) first second _ _ isFirst isSecond
      ⟨firstIn, secondIn⟩
    simp [window_call]

theorem Turns.step {world next : World} {action : Action} (turns : Turns world)
    (takes : TakesTurns world action) (taken : world.step services action = some next) :
    Turns next := by
  have oneLive := turns.oneLive.step (turns.insertsAlone action) taken
  cases step_cases taken with
  | asked request => exact turns.ask request
  | advanced isCall advanced => exact turns.advance takes isCall advanced oneLive
  | ran _ fewer =>
      exact { turns with
        oneLive
        sighted := fun call member => (turns.sighted call member).fewer fewer }

end Steps

/-- Whether a tuple ever has two live rows depends on the inserts for the platform alone, and those
are alone when the calls take turns. -/
theorem oneLive_iff (services : Services) (actions : List Action) :
    (Always (World.step services) OneLive .start actions ↔
      Guarded (World.step services) (InsertsAlone services) .start actions) ∧
    (Guarded (World.step services) TakesTurns .start actions →
      Always (World.step services) OneLive .start actions) := by
  have sound : ∀ world, Turns world → OneLive world := fun _ turns => turns.oneLive
  refine ⟨?_, fun guarded => ?_⟩
  · exact always_iff_guarded (World.step services) (fun _ oneLive => oneLive)
      (fun _ _ _ oneLive alone taken => oneLive.step alone taken)
      (fun _ _ _ _ taken oneLive => insertsAlone_of_oneLive taken oneLive) turns_start.oneLive
      actions
  · exact (always_of_guarded (World.step services)
      (fun _ _ _ turns takes taken => turns.step takes taken) turns_start guarded).mono _ sound

def cleanup : Request :=
  .scheduleRecurring
    { guildId := none, kind := js "cleanup", payload := .obj [], cron := some (js "0 4 * * *")
      everyMs := none, timezone := some (js "UTC")
      idempotencyKey := js "scheduler.cleanup.global", deferrableInMaintenance := some false
      maxAttempts := none }

/-- Two instances of the bot start, and each looks for the cleanup schedule before the other has
inserted it. -/
def twoStarts : List Action :=
  [.ask cleanup, .ask cleanup, .advance 0 (working "a" 0), .advance 1 (working "b" 0),
    .advance 0 (working "a" 0), .advance 1 (working "b" 0), .advance 0 (working "a" 0),
    .advance 1 (working "b" 0)]

theorem two_live_cleanups :
    ¬ ∀ (services : Services) (actions : List Action),
      Always (World.step services) OneLive .start actions := by
  intro all
  refine not_always (World.step plainServices) (fun world => decide ((world.state.schedules.live
    { guildId := none, kind := js "cleanup"
      idempotencyKey := js "scheduler.cleanup.global" }).length ≤ 1))
    (fun world oneLive => decide_eq_true (oneLive _)) ?_ (all plainServices twoStarts)
  decide +kernel

end Scheduler
