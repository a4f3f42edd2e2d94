import ArmstrongBot.Library.JsMap
import ArmstrongBot.Scheduler.Replacement

/-! `ScheduleReconciler`: a whole pass, and which repeatables it leaves. -/

namespace Scheduler

open JsText
open Calendar (Timestamp)

structure RepeatableSummary where
  key : JsString
  name : JsString
  pattern : Option JsString
  tz : Option JsString
  id : Option JsString
  deriving DecidableEq

/-- What `getRepeatableJobs` decides: the order, which is that of the next runs, and the id that it
reports of a repeatable. -/
structure Listing where
  order : List Repeatable → List Repeatable
  idOf : Repeatable → Option JsString

def summaryOf (listing : Listing) (repeatable : Repeatable) : RepeatableSummary :=
  match repeatable.repeats with
  | .cron pattern timezone =>
      { key := repeatable.key, name := repeatable.name, pattern := some pattern
        tz := some timezone, id := listing.idOf repeatable }
  | .every _ =>
      { key := repeatable.key, name := repeatable.name, pattern := none, tz := none
        id := listing.idOf repeatable }

def listRepeatables (listing : Listing) (queue : Queue) : List RepeatableSummary :=
  (listing.order queue.repeatables).map (summaryOf listing)

/-- The repeatables that are listed, by the id of their schedule. -/
def byScheduleId (listing : Listing) (queue : Queue) : JsMap JsString RepeatableSummary :=
  .ofEntries ((listRepeatables listing queue).map fun summary =>
    (summary.id.getD summary.key, summary))

/-- An interval schedule is never found to have drifted. -/
def hasDrifted (cron : Option JsString) (timezone : JsString) (existing : RepeatableSummary) :
    Bool :=
  match cron.filter fun cron => cron ≠ [] with
  | none => false
  | some cron => existing.pattern ≠ some cron || existing.tz.getD (js "UTC") ≠ timezone

def ScheduleEntity.isCron (row : ScheduleEntity) : Bool :=
  (row.cron.filter fun cron => cron ≠ []).isSome

def dbActive (schedules : Schedules) : List ScheduleEntity :=
  schedules.findActiveRecurring.filter fun row => row.status = .active

section

variable (services : Services) (now : Timestamp)

/-- `enqueueRecurring` and the update of the row; a pass ends where the update fails. -/
def rehydrate (state : State) (schedule : ScheduleEntity) : Option State :=
  let repeatable := repeatableOf services schedule now
  if services.columnsHold (schedule.withJob repeatable.key) then
    some
      { schedules := state.schedules.setBullJobId schedule.id repeatable.key
        queue := state.queue.addRecurring repeatable }
  else none

/-- The loop body of `reconcile`. -/
def visit (progress : State × JsMap JsString RepeatableSummary) (schedule : ScheduleEntity) :
    Option (State × JsMap JsString RepeatableSummary) :=
  match progress.2.get schedule.id with
  | none => (rehydrate services now progress.1 schedule).map fun state => (state, progress.2)
  | some existing =>
      if hasDrifted schedule.cron schedule.timezone existing then
        let cleared := { progress.1 with queue := progress.1.queue.removeRepeatable existing.key }
        (rehydrate services now cleared schedule).map fun state =>
          (state, progress.2.delete schedule.id)
      else some (progress.1, progress.2.delete schedule.id)

def removeOrphans (queue : Queue) (orphans : List RepeatableSummary) : Queue :=
  orphans.foldl (fun queue orphan => queue.removeRepeatable orphan.key) queue

/-- A pass to which nothing fails and in which nothing else happens. -/
def reconcile (listing : Listing) (state : State) : Option State :=
  ((dbActive state.schedules).foldlM (visit services now)
      (state, byScheduleId listing state.queue)).map fun progress =>
    { progress.1 with queue := removeOrphans progress.1.queue progress.2.values }

end

/-! What a pass relies on. -/

/-- BullMQ: the key of a repeatable tells its job id, every repeatable is listed once, and with the
job id that it was added with. -/
structure Reports (bull : BullMQ) (listing : Listing) : Prop where
  separates : ∀ name id repeats otherName otherId otherRepeats,
    bull.repeatKey name id repeats = bull.repeatKey otherName otherId otherRepeats → id = otherId
  lists : ∀ repeatables, (listing.order repeatables).Perm repeatables
  reports : ∀ repeatable, listing.idOf repeatable = some repeatable.data.scheduleId

/-- BullMQ has one repeatable for a key, and makes the keys itself. -/
structure Registered (bull : BullMQ) (queue : Queue) : Prop where
  distinct : (queue.repeatables.map Repeatable.key).Nodup
  keyed : ∀ repeatable ∈ queue.repeatables,
    repeatable.key = bull.repeatKey repeatable.name repeatable.data.scheduleId repeatable.repeats

def repeatablesOf (repeatables : List Repeatable) (id : JsString) : List Repeatable :=
  repeatables.filter fun repeatable => repeatable.data.scheduleId = id

def Current (schedule : ScheduleEntity) (repeatable : Repeatable) : Prop :=
  repeatable.repeats = repeatsOf schedule

/-- Each active recurring row has one repeatable, with what the row says, and there are no others. -/
structure Converged (state : State) : Prop where
  current : ∀ row ∈ dbActive state.schedules, ∃ repeatable,
    repeatablesOf state.queue.repeatables row.id = [repeatable] ∧ Current row repeatable
  others : ∀ repeatable ∈ state.queue.repeatables,
    ∃ row ∈ dbActive state.schedules, row.id = repeatable.data.scheduleId

section Api

variable {bull : BullMQ} {queue : Queue} {id : JsString}

theorem mem_repeatablesOf {repeatables : List Repeatable} {repeatable : Repeatable} :
    repeatable ∈ repeatablesOf repeatables id ↔
      repeatable ∈ repeatables ∧ repeatable.data.scheduleId = id := by
  simp [repeatablesOf]

theorem mem_dbActive {schedules : Schedules} {row : ScheduleEntity} :
    row ∈ dbActive schedules ↔ row ∈ schedules.rows ∧ row.type = .recurring ∧
      row.isLive = true ∧ row.status = .active := by
  simp only [dbActive, Schedules.findActiveRecurring, List.mem_filter, decide_eq_true_eq]
  constructor
  · rintro ⟨⟨member, isType, isLive, _⟩, isActive⟩
    exact ⟨member, isType, isLive, isActive⟩
  · rintro ⟨member, isType, isLive, isActive⟩
    exact ⟨⟨member, isType, isLive, by rw [isActive]; rfl⟩, isActive⟩

theorem mem_removeRepeatable {key : JsString} {repeatable : Repeatable} :
    repeatable ∈ (queue.removeRepeatable key).repeatables ↔
      repeatable ∈ queue.repeatables ∧ repeatable.key ≠ key := by
  simp [Queue.removeRepeatable]

theorem removeOrphans_eq (queue : Queue) (orphans : List RepeatableSummary) :
    removeOrphans queue orphans =
      { queue with
        repeatables := queue.repeatables.filter fun repeatable =>
          ∀ orphan ∈ orphans, repeatable.key ≠ orphan.key } := by
  induction orphans generalizing queue with
  | nil => simp [removeOrphans]
  | cons orphan orphans ih =>
      have unfolded : removeOrphans queue (orphan :: orphans) =
          removeOrphans (queue.removeRepeatable orphan.key) orphans := rfl
      rw [unfolded, ih, Queue.removeRepeatable, List.filter_filter]
      congr 1
      refine List.filter_congr fun repeatable _ => ?_
      simp [Bool.and_comm]

theorem Registered.removeRepeatable (registered : Registered bull queue) (key : JsString) :
    Registered bull (queue.removeRepeatable key) where
  distinct := registered.distinct.sublist (List.filter_sublist.map _)
  keyed := fun repeatable member => registered.keyed repeatable (mem_removeRepeatable.mp member).1

theorem Registered.addRecurring (registered : Registered bull queue) {repeatable : Repeatable}
    (keyed : repeatable.key =
      bull.repeatKey repeatable.name repeatable.data.scheduleId repeatable.repeats) :
    Registered bull (queue.addRecurring repeatable) where
  distinct := by
    rw [Queue.addRecurring, List.map_append]
    refine List.nodup_append.mpr
      ⟨(registered.removeRepeatable _).distinct, List.nodup_singleton _, ?_⟩
    rintro key member other isNew rfl
    obtain ⟨before, isBefore, sameKey⟩ := List.mem_map.mp member
    rw [List.mem_singleton.mp isNew] at sameKey
    exact (mem_removeRepeatable.mp isBefore).2 sameKey
  keyed := by
    intro other member
    rcases List.mem_append.mp member with before | isNew
    · exact registered.keyed other (mem_removeRepeatable.mp before).1
    · rw [List.mem_singleton.mp isNew]
      exact keyed

theorem repeatablesOf_removeRepeatable (queue : Queue) (key id : JsString) :
    repeatablesOf (queue.removeRepeatable key).repeatables id =
      (repeatablesOf queue.repeatables id).filter fun repeatable => repeatable.key ≠ key := by
  rw [repeatablesOf, Queue.removeRepeatable, List.filter_filter, repeatablesOf, List.filter_filter]
  exact List.filter_congr fun _ _ => Bool.and_comm _ _

theorem repeatablesOf_addRecurring (queue : Queue) (repeatable : Repeatable) :
    repeatablesOf (queue.addRecurring repeatable).repeatables repeatable.data.scheduleId =
      ((repeatablesOf queue.repeatables repeatable.data.scheduleId).filter
        fun other => other.key ≠ repeatable.key) ++ [repeatable] := by
  rw [← repeatablesOf_removeRepeatable, Queue.addRecurring, repeatablesOf, List.filter_append]
  congr 1
  exact List.filter_cons_of_pos (decide_eq_true rfl)

/-- What has another schedule's key stays when the key is removed. -/
theorem repeatablesOf_other (registered : Registered bull queue) {listing : Listing}
    (reports : Reports bull listing) {other : JsString} (apart : id ≠ other) (name : JsString)
    (repeats : RepeatOptions) :
    repeatablesOf (queue.removeRepeatable (bull.repeatKey name other repeats)).repeatables id =
      repeatablesOf queue.repeatables id := by
  rw [repeatablesOf_removeRepeatable]
  refine List.filter_eq_self.mpr fun repeatable member => decide_eq_true fun sameKey => ?_
  obtain ⟨isRepeatable, rfl⟩ := mem_repeatablesOf.mp member
  rw [registered.keyed repeatable isRepeatable] at sameKey
  exact apart (reports.separates _ _ _ _ _ _ sameKey)

theorem repeatablesOf_addRecurring_other (registered : Registered bull queue) {listing : Listing}
    (reports : Reports bull listing) {repeatable : Repeatable}
    (keyed : repeatable.key =
      bull.repeatKey repeatable.name repeatable.data.scheduleId repeatable.repeats)
    (apart : id ≠ repeatable.data.scheduleId) :
    repeatablesOf (queue.addRecurring repeatable).repeatables id =
      repeatablesOf queue.repeatables id := by
  have unmatched : repeatablesOf [repeatable] id = [] :=
    List.filter_cons_of_neg (by simpa using Ne.symm apart)
  have removed := repeatablesOf_other registered reports apart repeatable.name repeatable.repeats
  rw [← keyed] at removed
  rw [Queue.addRecurring, repeatablesOf, List.filter_append, ← repeatablesOf, removed,
    ← repeatablesOf, unmatched, List.append_nil]

end Api

/-! A visit, and the visits of a pass. -/

/-- What the repeatables of a schedule become when it is visited. -/
def corrected (services : Services) (now : Timestamp) (row : ScheduleEntity)
    (existing : Option RepeatableSummary) (entries : List Repeatable) : List Repeatable :=
  let renewed (kept : List Repeatable) :=
    (kept.filter fun other => other.key ≠ (repeatableOf services row now).key) ++
      [repeatableOf services row now]
  match existing with
  | none => renewed entries
  | some existing =>
      if hasDrifted row.cron row.timezone existing then
        renewed (entries.filter fun repeatable => repeatable.key ≠ existing.key)
      else entries

/-- Every entry of the map has a key of the schedule that it stands for. -/
def Indexed (bull : BullMQ) (map : JsMap JsString RepeatableSummary) : Prop :=
  ∀ entry ∈ map.entries, ∃ name repeats, entry.2.key = bull.repeatKey name entry.1 repeats

/-- What a pass reads of the active rows. -/
def standing (schedules : Schedules) : List (JsString × RepeatOptions) :=
  (dbActive schedules).map fun row => (row.id, repeatsOf row)

structure VisitSpec (services : Services) (now : Timestamp) (row : ScheduleEntity)
    (progress next : State × JsMap JsString RepeatableSummary) : Prop where
  registered : Registered services.bull next.1.queue
  own : repeatablesOf next.1.queue.repeatables row.id =
    corrected services now row (progress.2.get row.id)
      (repeatablesOf progress.1.queue.repeatables row.id)
  others : ∀ id ≠ row.id, repeatablesOf next.1.queue.repeatables id =
    repeatablesOf progress.1.queue.repeatables id
  map : ∀ entry, entry ∈ next.2.entries ↔ entry ∈ progress.2.entries ∧ entry.1 ≠ row.id
  standing : standing next.1.schedules = standing progress.1.schedules

section Pass

variable {services : Services} {listing : Listing} {now : Timestamp}

theorem standing_setBullJobId (schedules : Schedules) (id bullJobId : JsString) :
    standing (schedules.setBullJobId id bullJobId) = standing schedules := by
  have same : dbActive (schedules.setBullJobId id bullJobId) = (dbActive schedules).map
      fun row => if row.id = id then row.withJob bullJobId else row := by
    rw [dbActive, Schedules.findActiveRecurring, Schedules.setBullJobId_rows, List.filter_map,
      List.filter_map]
    congr 1
    rw [Schedules.comp_written, Schedules.comp_written, dbActive, Schedules.findActiveRecurring]
    · exact fun _ => rfl
    · exact fun _ => rfl
  rw [standing, same, List.map_map, Schedules.comp_written, standing]
  exact fun _ => rfl

theorem rehydrate_spec {state next : State} {row : ScheduleEntity}
    (reports : Reports services.bull listing) (registered : Registered services.bull state.queue)
    (done : rehydrate services now state row = some next) :
    Registered services.bull next.queue ∧
      repeatablesOf next.queue.repeatables row.id =
        ((repeatablesOf state.queue.repeatables row.id).filter
          fun other => other.key ≠ (repeatableOf services row now).key) ++
          [repeatableOf services row now] ∧
      (∀ id ≠ row.id, repeatablesOf next.queue.repeatables id =
        repeatablesOf state.queue.repeatables id) ∧
      standing next.schedules = standing state.schedules := by
  obtain rfl := Option.some.inj (Option.ite_none_right_eq_some.mp done).2
  exact ⟨registered.addRecurring rfl, repeatablesOf_addRecurring _ _,
    fun id apart => repeatablesOf_addRecurring_other registered reports rfl apart,
    standing_setBullJobId _ _ _⟩

theorem visit_spec {progress next : State × JsMap JsString RepeatableSummary}
    {row : ScheduleEntity} (reports : Reports services.bull listing)
    (registered : Registered services.bull progress.1.queue)
    (indexed : Indexed services.bull progress.2)
    (done : visit services now progress row = some next) :
    VisitSpec services now row progress next := by
  unfold visit at done
  cases found : progress.2.get row.id with
  | none =>
      simp only [found] at done
      obtain ⟨state, isState, rfl⟩ := Option.map_eq_some_iff.mp done
      obtain ⟨isRegistered, own, others, same⟩ := rehydrate_spec reports registered isState
      refine ⟨isRegistered, ?_, others, ?_, same⟩
      · rw [own, found]
        rfl
      · intro entry
        refine ⟨fun member => ⟨member, JsMap.get_eq_none.mp found entry member⟩, And.left⟩
  | some existing =>
      have isEntry := JsMap.get_eq_some.mp found
      simp only [found] at done
      split at done
      · rename_i drifted
        obtain ⟨state, isState, rfl⟩ := Option.map_eq_some_iff.mp done
        obtain ⟨isRegistered, own, others, same⟩ :=
          rehydrate_spec reports (registered.removeRepeatable existing.key) isState
        refine ⟨isRegistered, ?_, ?_, fun entry => JsMap.mem_delete, same⟩
        · rw [own, found, corrected, if_pos drifted, repeatablesOf_removeRepeatable]
        · intro id apart
          obtain ⟨name, repeats, isKey⟩ := indexed _ isEntry
          rw [others id apart, isKey]
          exact repeatablesOf_other registered reports apart name repeats
      · rename_i matching
        cases done
        refine ⟨registered, ?_, fun _ _ => rfl, fun entry => JsMap.mem_delete, rfl⟩
        rw [found, corrected, if_neg matching]

theorem Indexed.step {map next : JsMap JsString RepeatableSummary} {bull : BullMQ}
    (indexed : Indexed bull map) (fewer : ∀ entry ∈ next.entries, entry ∈ map.entries) :
    Indexed bull next := fun entry member => indexed entry (fewer entry member)

structure PassSpec (services : Services) (now : Timestamp) (rows : List ScheduleEntity)
    (progress next : State × JsMap JsString RepeatableSummary) : Prop where
  registered : Registered services.bull next.1.queue
  own : ∀ row ∈ rows, repeatablesOf next.1.queue.repeatables row.id =
    corrected services now row (progress.2.get row.id)
      (repeatablesOf progress.1.queue.repeatables row.id)
  others : ∀ id ∉ rows.map ScheduleEntity.id, repeatablesOf next.1.queue.repeatables id =
    repeatablesOf progress.1.queue.repeatables id
  map : ∀ entry, entry ∈ next.2.entries ↔
    entry ∈ progress.2.entries ∧ entry.1 ∉ rows.map ScheduleEntity.id
  standing : standing next.1.schedules = standing progress.1.schedules

theorem get_of_entries {map next : JsMap JsString RepeatableSummary} {id : JsString}
    (same : ∀ summary, (id, summary) ∈ next.entries ↔ (id, summary) ∈ map.entries) :
    next.get id = map.get id := by
  refine Option.ext fun summary => ?_
  rw [JsMap.get_eq_some, JsMap.get_eq_some, same]

theorem visits_spec {rows : List ScheduleEntity}
    {progress next : State × JsMap JsString RepeatableSummary}
    (reports : Reports services.bull listing) (distinct : (rows.map ScheduleEntity.id).Nodup)
    (registered : Registered services.bull progress.1.queue)
    (indexed : Indexed services.bull progress.2)
    (done : rows.foldlM (visit services now) progress = some next) :
    PassSpec services now rows progress next := by
  induction rows generalizing progress with
  | nil =>
      cases done
      exact ⟨registered, by simp, by simp, by simp, rfl⟩
  | cons row rows ih =>
      rw [List.foldlM_cons] at done
      obtain ⟨middle, visited, later⟩ := Option.bind_eq_some_iff.mp done
      obtain ⟨isNew, others⟩ := List.nodup_cons.mp distinct
      have first := visit_spec reports registered indexed visited
      have rest := ih others first.registered
        (indexed.step fun entry member => ((first.map entry).mp member).1) later
      refine ⟨rest.registered, ?_, ?_, ?_, rest.standing.trans first.standing⟩
      · intro other member
        rcases List.mem_cons.mp member with rfl | inRest
        · rw [rest.others _ isNew, first.own]
        · have apart : other.id ≠ row.id := by
            intro same
            exact isNew (same ▸ List.mem_map_of_mem inRest)
          rw [rest.own other inRest, first.others _ apart, get_of_entries fun summary => ?_]
          exact ⟨fun inNext => ((first.map _).mp inNext).1,
            fun inMap => (first.map _).mpr ⟨inMap, apart⟩⟩
      · intro id absent
        simp only [List.map_cons, List.mem_cons, not_or] at absent
        rw [rest.others id absent.2, first.others id absent.1]
      · intro entry
        simp only [rest.map, first.map, List.map_cons, List.mem_cons, not_or]
        exact and_assoc

theorem summaryOf_key (listing : Listing) (repeatable : Repeatable) :
    (summaryOf listing repeatable).key = repeatable.key := by
  cases isRepeats : repeatable.repeats <;> simp [summaryOf, isRepeats]

theorem summaryOf_id (listing : Listing) (repeatable : Repeatable) :
    (summaryOf listing repeatable).id = listing.idOf repeatable := by
  cases isRepeats : repeatable.repeats <;> simp [summaryOf, isRepeats]

/-- Of the repeatables of one schedule the map has the one that is listed last. -/
theorem mem_byScheduleId (reports : Reports services.bull listing) {queue : Queue}
    {entry : JsString × RepeatableSummary} :
    entry ∈ (byScheduleId listing queue).entries ↔
      ∃ repeatable, (repeatablesOf (listing.order queue.repeatables) entry.1).getLast? =
        some repeatable ∧ entry.2 = summaryOf listing repeatable := by
  have entries : ((listRepeatables listing queue).map fun summary =>
      (summary.id.getD summary.key, summary)) = (listing.order queue.repeatables).map
        fun repeatable => (repeatable.data.scheduleId, summaryOf listing repeatable) := by
    rw [listRepeatables, List.map_map]
    refine List.map_congr_left fun repeatable _ => ?_
    simp [summaryOf_id, reports.reports]
  have selected : (((listing.order queue.repeatables).map fun repeatable =>
      (repeatable.data.scheduleId, summaryOf listing repeatable)).filter
        fun other => other.1 = entry.1) =
      (repeatablesOf (listing.order queue.repeatables) entry.1).map
        fun repeatable => (repeatable.data.scheduleId, summaryOf listing repeatable) := by
    rw [List.filter_map]
    rfl
  rw [byScheduleId, JsMap.mem_ofEntries, entries, selected, List.getLast?_map,
    Option.map_eq_some_iff]
  refine exists_congr fun repeatable => and_congr_right fun isLast => ?_
  have ofSchedule := (mem_repeatablesOf.mp (List.mem_of_getLast? isLast)).2
  rw [ofSchedule, Prod.ext_iff]
  exact ⟨fun same => same.2.symm, fun same => ⟨rfl, same.symm⟩⟩

theorem get_byScheduleId (reports : Reports services.bull listing) (queue : Queue)
    (id : JsString) :
    (byScheduleId listing queue).get id =
      (repeatablesOf (listing.order queue.repeatables) id).getLast?.map (summaryOf listing) := by
  refine Option.ext fun summary => ?_
  rw [JsMap.get_eq_some, mem_byScheduleId reports, Option.map_eq_some_iff]
  exact exists_congr fun repeatable => and_congr_right fun _ => eq_comm

theorem mem_listed (reports : Reports services.bull listing) {queue : Queue} {id : JsString}
    {repeatable : Repeatable} :
    repeatable ∈ repeatablesOf (listing.order queue.repeatables) id ↔
      repeatable ∈ repeatablesOf queue.repeatables id := by
  rw [mem_repeatablesOf, mem_repeatablesOf, (reports.lists _).mem_iff]

theorem indexed_byScheduleId (reports : Reports services.bull listing) {queue : Queue}
    (registered : Registered services.bull queue) :
    Indexed services.bull (byScheduleId listing queue) := by
  intro entry member
  obtain ⟨repeatable, isLast, isSummary⟩ := (mem_byScheduleId reports).mp member
  obtain ⟨isRepeatable, isId⟩ :=
    mem_repeatablesOf.mp ((mem_listed reports).mp (List.mem_of_getLast? isLast))
  refine ⟨repeatable.name, repeatable.repeats, ?_⟩
  rw [isSummary, summaryOf_key, ← isId]
  exact registered.keyed repeatable isRepeatable

/-- What a pass leaves of each schedule. -/
structure ReconcileSpec (services : Services) (now : Timestamp) (listing : Listing)
    (state next : State) : Prop where
  registered : Registered services.bull next.queue
  active : ∀ row ∈ dbActive state.schedules, repeatablesOf next.queue.repeatables row.id =
    corrected services now row ((byScheduleId listing state.queue).get row.id)
      (repeatablesOf state.queue.repeatables row.id)
  orphans : ∀ id ∉ (dbActive state.schedules).map ScheduleEntity.id,
    repeatablesOf next.queue.repeatables id =
      (repeatablesOf state.queue.repeatables id).filter fun repeatable =>
        ∀ orphan ∈ (byScheduleId listing state.queue).get id, repeatable.key ≠ orphan.key
  standing : standing next.schedules = standing state.schedules

theorem dbActive_ids_nodup (schedules : Schedules) :
    ((dbActive schedules).map ScheduleEntity.id).Nodup :=
  schedules.distinct.sublist ((List.filter_sublist.trans List.filter_sublist).map _)

theorem repeatablesOf_filter (repeatables : List Repeatable) (keep : Repeatable → Bool)
    (id : JsString) :
    repeatablesOf (repeatables.filter keep) id = (repeatablesOf repeatables id).filter keep := by
  rw [repeatablesOf, repeatablesOf, List.filter_filter, List.filter_filter]
  exact List.filter_congr fun _ _ => Bool.and_comm _ _

theorem reconcile_spec {state next : State} (reports : Reports services.bull listing)
    (registered : Registered services.bull state.queue)
    (done : reconcile services now listing state = some next) :
    ReconcileSpec services now listing state next := by
  obtain ⟨progress, visited, rfl⟩ := Option.map_eq_some_iff.mp done
  have indexed := indexed_byScheduleId reports registered
  have pass := visits_spec reports (dbActive_ids_nodup _) registered indexed visited
  -- What is left in the map has keys of schedules that are not active.
  have orphanKeys : ∀ repeatable ∈ progress.1.queue.repeatables, ∀ entry ∈ progress.2.entries,
      repeatable.key = entry.2.key → entry.1 = repeatable.data.scheduleId := by
    intro repeatable isRepeatable entry isEntry sameKey
    obtain ⟨name, repeats, isKey⟩ := indexed entry ((pass.map entry).mp isEntry).1
    rw [pass.registered.keyed repeatable isRepeatable, isKey] at sameKey
    exact (reports.separates _ _ _ _ _ _ sameKey).symm
  have kept : ∀ id, repeatablesOf (removeOrphans progress.1.queue progress.2.values).repeatables id =
      (repeatablesOf progress.1.queue.repeatables id).filter fun repeatable =>
        ∀ orphan ∈ progress.2.values, repeatable.key ≠ orphan.key := by
    intro id
    rw [removeOrphans_eq, repeatablesOf_filter]
  refine ⟨?_, ?_, ?_, pass.standing⟩
  · rw [removeOrphans_eq]
    exact ⟨pass.registered.distinct.sublist (List.filter_sublist.map _), fun repeatable member =>
      pass.registered.keyed repeatable (List.mem_filter.mp member).1⟩
  · intro row member
    rw [kept, ← pass.own row member]
    refine List.filter_eq_self.mpr fun repeatable isOwn => decide_eq_true fun orphan isOrphan => ?_
    obtain ⟨isRepeatable, isId⟩ := mem_repeatablesOf.mp isOwn
    obtain ⟨entry, isEntry, rfl⟩ := List.mem_map.mp isOrphan
    intro sameKey
    refine ((pass.map entry).mp isEntry).2 ?_
    rw [orphanKeys repeatable isRepeatable entry isEntry sameKey, isId]
    exact List.mem_map_of_mem member
  · intro id absent
    rw [kept, ← pass.others id absent]
    refine List.filter_congr fun repeatable isOwn => decide_eq_decide.mpr ?_
    obtain ⟨isRepeatable, isId⟩ := mem_repeatablesOf.mp isOwn
    constructor
    · intro apart orphan isGet
      have inMap := (pass.map (id, orphan)).mpr ⟨JsMap.get_eq_some.mp isGet, absent⟩
      exact apart orphan (List.mem_map.mpr ⟨_, inMap, rfl⟩)
    · intro apart orphan isOrphan sameKey
      obtain ⟨entry, isEntry, rfl⟩ := List.mem_map.mp isOrphan
      obtain rfl : entry.1 = id :=
        (orphanKeys repeatable isRepeatable entry isEntry sameKey).trans isId
      exact apart entry.2 (JsMap.get_eq_some.mpr ((pass.map entry).mp isEntry).1) sameKey

/-! What a pass leaves alone: the jobs, and of the rows all but the references to their jobs. -/

def ScheduleEntity.unrecorded (row : ScheduleEntity) : ScheduleEntity :=
  { row with bullJobId := none }

def outline (schedules : Schedules) : List ScheduleEntity :=
  schedules.rows.map ScheduleEntity.unrecorded

theorem outline_setBullJobId (schedules : Schedules) (id bullJobId : JsString) :
    outline (schedules.setBullJobId id bullJobId) = outline schedules := by
  rw [outline, Schedules.setBullJobId_rows, List.map_map, Schedules.comp_written, outline]
  exact fun _ => rfl

theorem visit_frame {progress next : State × JsMap JsString RepeatableSummary}
    {row : ScheduleEntity} (done : visit services now progress row = some next) :
    next.1.queue.jobs = progress.1.queue.jobs ∧
      outline next.1.schedules = outline progress.1.schedules := by
  have frame : ∀ state middle, rehydrate services now state row = some middle →
      middle.queue.jobs = state.queue.jobs ∧ outline middle.schedules = outline state.schedules := by
    intro state middle done
    obtain rfl := Option.some.inj (Option.ite_none_right_eq_some.mp done).2
    exact ⟨rfl, outline_setBullJobId _ _ _⟩
  unfold visit at done
  split at done
  · obtain ⟨state, isState, rfl⟩ := Option.map_eq_some_iff.mp done
    exact frame progress.1 state isState
  · split at done
    · obtain ⟨state, isState, rfl⟩ := Option.map_eq_some_iff.mp done
      have framed := frame _ state isState
      exact framed
    · cases done
      exact ⟨rfl, rfl⟩

theorem reconcile_frame {state next : State}
    (done : reconcile services now listing state = some next) :
    next.queue.jobs = state.queue.jobs ∧ outline next.schedules = outline state.schedules := by
  have visits : ∀ (rows : List ScheduleEntity) progress middle,
      rows.foldlM (visit services now) progress = some middle →
        middle.1.queue.jobs = progress.1.queue.jobs ∧
          outline middle.1.schedules = outline progress.1.schedules := by
    intro rows
    induction rows with
    | nil =>
        intro progress middle done
        cases done
        exact ⟨rfl, rfl⟩
    | cons row rows ih =>
        intro progress middle done
        rw [List.foldlM_cons] at done
        obtain ⟨first, visited, later⟩ := Option.bind_eq_some_iff.mp done
        have frame := visit_frame visited
        have rest := ih first middle later
        exact ⟨rest.1.trans frame.1, rest.2.trans frame.2⟩
  obtain ⟨progress, visited, rfl⟩ := Option.map_eq_some_iff.mp done
  rw [removeOrphans_eq]
  exact visits _ _ _ visited

/-! Convergence. -/

theorem hasDrifted_iff (listing : Listing) (row : ScheduleEntity) (repeatable : Repeatable) :
    hasDrifted row.cron row.timezone (summaryOf listing repeatable) = true ↔
      ¬ Current row repeatable ∧ row.isCron = true := by
  unfold hasDrifted Current repeatsOf ScheduleEntity.isCron
  cases row.cron.filter fun cron => cron ≠ [] with
  | none => simp
  | some cron =>
      cases isRepeats : repeatable.repeats with
      | cron pattern timezone => simp [summaryOf, isRepeats, imp_iff_not_or]
      | every milliseconds => simp [summaryOf, isRepeats]

theorem key_inj {queue : Queue} {bull : BullMQ} (registered : Registered bull queue)
    {first second : Repeatable} (firstMember : first ∈ queue.repeatables)
    (secondMember : second ∈ queue.repeatables) (sameKey : first.key = second.key) :
    first = second :=
  List.inj_on_of_nodup_map registered.distinct firstMember secondMember sameKey

end Pass

/-- A pass puts the repeatables of an active row right: there is none, or a current one alone, or
the one listed last has drifted and all others have the key that the row asks for. -/
def Correctable (services : Services) (row : ScheduleEntity) (listed : List Repeatable) : Prop :=
  ∀ last ∈ listed.getLast?,
    (Current row last ∧ listed.dropLast = []) ∨
      (¬ Current row last ∧ row.isCron = true ∧ ∀ other ∈ listed.dropLast,
        other.key = services.bull.repeatKey row.kind row.id (repeatsOf row))

/-- The repeatables that are listed for each schedule can be put right; of one that is not active
there is at most one. -/
structure Amendable (services : Services) (listing : Listing) (state : State) : Prop where
  active : ∀ row ∈ dbActive state.schedules,
    Correctable services row (repeatablesOf (listing.order state.queue.repeatables) row.id)
  orphans : ∀ id ∉ (dbActive state.schedules).map ScheduleEntity.id,
    (repeatablesOf (listing.order state.queue.repeatables) id).dropLast = []

section Convergence

variable {services : Services} {listing : Listing} {now : Timestamp}

theorem nodup_repeatables {queue : Queue} {bull : BullMQ} (registered : Registered bull queue) :
    queue.repeatables.Nodup := registered.distinct.of_map _

theorem listed_perm (reports : Reports services.bull listing) (queue : Queue) (id : JsString) :
    (repeatablesOf (listing.order queue.repeatables) id).Perm
      (repeatablesOf queue.repeatables id) := (reports.lists _).filter _

/-- The one listed last is the only one with its key. -/
theorem front_key_ne {state : State} {id : JsString} {last : Repeatable}
    (reports : Reports services.bull listing) (registered : Registered services.bull state.queue)
    (isLast : (repeatablesOf (listing.order state.queue.repeatables) id).getLast? = some last) :
    ∀ other ∈ (repeatablesOf (listing.order state.queue.repeatables) id).dropLast,
      other.key ≠ last.key := by
  have split := List.dropLast_append_getLast? last isLast
  have distinct : (repeatablesOf (listing.order state.queue.repeatables) id).Nodup :=
    (listed_perm reports state.queue id).nodup_iff.mpr ((nodup_repeatables registered).filter _)
  have inQueue : ∀ repeatable ∈ repeatablesOf (listing.order state.queue.repeatables) id,
      repeatable ∈ state.queue.repeatables := fun repeatable member =>
    (mem_repeatablesOf.mp ((mem_listed reports).mp member)).1
  rw [← split] at distinct inQueue
  intro other inFront sameKey
  have isLastMember := List.mem_singleton_self last
  have same := key_inj registered (inQueue other (List.mem_append_left _ inFront))
    (inQueue last (List.mem_append_right _ isLastMember)) sameKey
  exact (List.nodup_append.mp distinct).2.2 other inFront last isLastMember same

/-- Removing the key of the last one and another key leaves nothing. -/
theorem removed_eq_nil {state : State} {id : JsString} {last : Repeatable} (key : JsString)
    (reports : Reports services.bull listing) (registered : Registered services.bull state.queue)
    (isLast : (repeatablesOf (listing.order state.queue.repeatables) id).getLast? = some last) :
    (((repeatablesOf state.queue.repeatables id).filter fun repeatable =>
        repeatable.key ≠ last.key).filter fun repeatable => repeatable.key ≠ key) = [] ↔
      ∀ other ∈ (repeatablesOf (listing.order state.queue.repeatables) id).dropLast,
        other.key = key := by
  have split := List.dropLast_append_getLast? last isLast
  simp only [List.filter_filter, List.filter_eq_nil_iff, Bool.and_eq_true, decide_eq_true_eq,
    not_and_or, not_not, ← mem_listed reports]
  constructor
  · intro removed other inFront
    have member : other ∈ repeatablesOf (listing.order state.queue.repeatables) id := by
      rw [← split]
      exact List.mem_append_left _ inFront
    exact (removed other member).resolve_right
      (front_key_ne reports registered isLast other inFront)
  · intro others repeatable member
    rw [← split] at member
    rcases List.mem_append.mp member with inFront | isLastOne
    · exact .inl (others repeatable inFront)
    · exact .inr (congrArg Repeatable.key (List.mem_singleton.mp isLastOne))

theorem corrected_iff {state : State} {row : ScheduleEntity} (now : Timestamp)
    (reports : Reports services.bull listing) (registered : Registered services.bull state.queue) :
    (∃ repeatable, corrected services now row ((byScheduleId listing state.queue).get row.id)
      (repeatablesOf state.queue.repeatables row.id) = [repeatable] ∧ Current row repeatable) ↔
    Correctable services row (repeatablesOf (listing.order state.queue.repeatables) row.id) := by
  have perm := listed_perm reports state.queue row.id
  have renewed : Current row (repeatableOf services row now) := rfl
  rw [get_byScheduleId reports, Correctable]
  cases isLast : (repeatablesOf (listing.order state.queue.repeatables) row.id).getLast? with
  | none =>
      rw [List.getLast?_eq_none_iff] at isLast
      rw [isLast] at perm
      simp [List.nil_perm.mp perm, corrected, renewed]
  | some last =>
      have split := List.dropLast_append_getLast? last isLast
      have chosen : ∀ property : Repeatable → Prop,
          (∀ other ∈ some last, property other) ↔ property last := by simp
      rw [chosen, Option.map_some, corrected]
      by_cases drifted : ¬ Current row last ∧ row.isCron = true
      · rw [if_pos ((hasDrifted_iff listing row last).mpr drifted), summaryOf_key]
        have removed := removed_eq_nil (repeatableOf services row now).key reports registered isLast
        constructor
        · rintro ⟨repeatable, one, _⟩
          have nothingElse := (List.append_eq_singleton_iff.mp one).resolve_right
            fun other => absurd other.2 (List.cons_ne_nil _ _)
          exact .inr ⟨drifted.1, drifted.2, removed.mp nothingElse.1⟩
        · rintro (⟨isCurrent, _⟩ | ⟨_, _, others⟩)
          · exact absurd isCurrent drifted.1
          · exact ⟨_, congrArg (· ++ [repeatableOf services row now]) (removed.mpr others), renewed⟩
      · rw [if_neg fun found => drifted ((hasDrifted_iff listing row last).mp found)]
        constructor
        · rintro ⟨repeatable, one, isCurrent⟩
          rw [one, List.perm_singleton] at perm
          rw [perm] at isLast ⊢
          obtain rfl := Option.some.inj isLast
          exact .inl ⟨isCurrent, rfl⟩
        · rintro (⟨isCurrent, alone⟩ | ⟨stale, isCron, _⟩)
          · rw [alone, List.nil_append] at split
            rw [← split] at perm
            exact ⟨last, List.perm_singleton.mp perm.symm, isCurrent⟩
          · exact absurd ⟨stale, isCron⟩ drifted

theorem orphans_iff {state : State} {id : JsString}
    (reports : Reports services.bull listing) (registered : Registered services.bull state.queue) :
    ((repeatablesOf state.queue.repeatables id).filter fun repeatable =>
      ∀ orphan ∈ (byScheduleId listing state.queue).get id, repeatable.key ≠ orphan.key) = [] ↔
    (repeatablesOf (listing.order state.queue.repeatables) id).dropLast = [] := by
  have perm := listed_perm reports state.queue id
  rw [get_byScheduleId reports]
  cases isLast : (repeatablesOf (listing.order state.queue.repeatables) id).getLast? with
  | none =>
      rw [List.getLast?_eq_none_iff] at isLast
      rw [isLast] at perm ⊢
      simp [List.nil_perm.mp perm]
  | some last =>
      have removed := removed_eq_nil last.key reports registered isLast
      rw [List.filter_filter] at removed
      simp only [Bool.and_self] at removed
      simp only [Option.map_some, Option.mem_some_iff, forall_eq', summaryOf_key]
      rw [removed, List.eq_nil_iff_forall_not_mem]
      exact forall₂_congr fun other inFront =>
        iff_false_intro (front_key_ne reports registered isLast other inFront)

/-- Whether a state has converged is told by what a pass reads. -/
theorem converged_iff_standing (state : State) :
    Converged state ↔
      (∀ entry ∈ standing state.schedules, ∃ repeatable,
        repeatablesOf state.queue.repeatables entry.1 = [repeatable] ∧
          repeatable.repeats = entry.2) ∧
      ∀ repeatable ∈ state.queue.repeatables,
        ∃ entry ∈ standing state.schedules, entry.1 = repeatable.data.scheduleId := by
  have exists_ : ∀ id, (∃ entry ∈ standing state.schedules, entry.1 = id) ↔
      ∃ row ∈ dbActive state.schedules, row.id = id := by
    simp [standing]
  simp only [exists_]
  simp only [standing, List.forall_mem_map]
  exact ⟨fun converged => ⟨converged.current, converged.others⟩, fun facts => ⟨facts.1, facts.2⟩⟩

/-- Visits of rows whose repeatables have not drifted change nothing. -/
theorem visits_unchanged (services : Services) (now : Timestamp) (state : State)
    {rows : List ScheduleEntity} (map : JsMap JsString RepeatableSummary)
    (distinct : (rows.map ScheduleEntity.id).Nodup)
    (matching : ∀ row ∈ rows, ∃ existing, map.get row.id = some existing ∧
      hasDrifted row.cron row.timezone existing = false) :
    ∃ rest, rows.foldlM (visit services now) (state, map) = some (state, rest) ∧
      ∀ entry, entry ∈ rest.entries ↔
        entry ∈ map.entries ∧ entry.1 ∉ rows.map ScheduleEntity.id := by
  induction rows generalizing map with
  | nil => exact ⟨map, rfl, by simp⟩
  | cons row rows ih =>
      obtain ⟨isNew, others⟩ := List.nodup_cons.mp distinct
      obtain ⟨existing, found, matches_⟩ := matching row List.mem_cons_self
      have visited : visit services now (state, map) row = some (state, map.delete row.id) := by
        simp only [visit, found, matches_, Bool.false_eq_true, if_false]
      obtain ⟨rest, later, entries⟩ := ih (map.delete row.id) others fun other member => by
        obtain ⟨found, isGet, matches_⟩ := matching other (List.mem_cons_of_mem _ member)
        have apart : other.id ≠ row.id := fun same => isNew (same ▸ List.mem_map_of_mem member)
        refine ⟨found, ?_, matches_⟩
        rw [get_of_entries fun summary => ?_, isGet]
        exact ⟨fun inRest => (JsMap.mem_delete.mp inRest).1,
          fun inMap => JsMap.mem_delete.mpr ⟨inMap, apart⟩⟩
      refine ⟨rest, ?_, fun entry => ?_⟩
      · rw [List.foldlM_cons, visited]
        exact later
      · simp only [entries, JsMap.mem_delete, List.map_cons, List.mem_cons, not_or]
        exact and_assoc

theorem reconcile_of_converged {state : State} (reports : Reports services.bull listing)
    (converged : Converged state) : reconcile services now listing state = some state := by
  have matching : ∀ row ∈ dbActive state.schedules, ∃ existing,
      (byScheduleId listing state.queue).get row.id = some existing ∧
        hasDrifted row.cron row.timezone existing = false := by
    intro row member
    obtain ⟨repeatable, one, isCurrent⟩ := converged.current row member
    have listed := listed_perm reports state.queue row.id
    rw [one, List.perm_singleton] at listed
    refine ⟨summaryOf listing repeatable, ?_, Bool.eq_false_iff.mpr fun drifted => ?_⟩
    · rw [get_byScheduleId reports, listed]
      rfl
    · exact ((hasDrifted_iff listing row repeatable).mp drifted).1 isCurrent
  obtain ⟨rest, visited, entries⟩ :=
    visits_unchanged services now state _ (dbActive_ids_nodup state.schedules) matching
  have empty : rest.values = [] := by
    refine List.map_eq_nil_iff.mpr (List.eq_nil_iff_forall_not_mem.mpr fun entry member => ?_)
    obtain ⟨inMap, absent⟩ := (entries entry).mp member
    obtain ⟨repeatable, isLast, _⟩ := (mem_byScheduleId reports).mp inMap
    obtain ⟨isRepeatable, isId⟩ :=
      mem_repeatablesOf.mp ((mem_listed reports).mp (List.mem_of_getLast? isLast))
    obtain ⟨row, isActive, sameId⟩ := converged.others repeatable isRepeatable
    exact absent (sameId.trans isId ▸ List.mem_map_of_mem isActive)
  rw [reconcile, visited, Option.map_some, empty]
  rfl

theorem converged_next_iff {state next : State} (reports : Reports services.bull listing)
    (registered : Registered services.bull state.queue)
    (done : reconcile services now listing state = some next) :
    Converged next ↔ Amendable services listing state := by
  have spec := reconcile_spec reports registered done
  have others : (∀ repeatable ∈ next.queue.repeatables,
      ∃ row ∈ dbActive state.schedules, row.id = repeatable.data.scheduleId) ↔
      ∀ id ∉ (dbActive state.schedules).map ScheduleEntity.id,
        repeatablesOf next.queue.repeatables id = [] := by
    simp only [List.eq_nil_iff_forall_not_mem, mem_repeatablesOf]
    constructor
    · rintro owned id absent repeatable ⟨isRepeatable, rfl⟩
      obtain ⟨row, isActive, sameId⟩ := owned repeatable isRepeatable
      exact absent (sameId ▸ List.mem_map_of_mem isActive)
    · intro empty repeatable isRepeatable
      by_contra orphan
      refine empty repeatable.data.scheduleId (fun isActive => orphan ?_) repeatable
        ⟨isRepeatable, rfl⟩
      exact List.mem_map.mp isActive
  have sameState : Converged next ↔
      Converged { schedules := state.schedules, queue := next.queue } := by
    rw [converged_iff_standing, converged_iff_standing, spec.standing]
  rw [sameState]
  constructor
  · intro converged
    constructor
    · intro row member
      rw [← corrected_iff now reports registered, ← spec.active row member]
      exact converged.current row member
    · intro id absent
      rw [← orphans_iff reports registered, ← spec.orphans id absent]
      exact others.mp converged.others id absent
  · intro amendable
    constructor
    · intro row member
      rw [spec.active row member]
      exact (corrected_iff now reports registered).mpr (amendable.active row member)
    · refine others.mpr fun id absent => ?_
      rw [spec.orphans id absent]
      exact (orphans_iff reports registered).mpr (amendable.orphans id absent)

end Convergence

/-! Passes over one schedule. -/

/-- Every unit of the id behind a mark. -/
def quotedId (id : JsString) : JsString := id.flatMap (fun code => [unit 1, code]) ++ [unit 0]

theorem marks_apart : unit 1 ≠ unit 0 := by decide

theorem quotedId_append_inj {first second : JsString} {rest others : JsString}
    (same : quotedId first ++ rest = quotedId second ++ others) : first = second := by
  induction first generalizing second with
  | nil =>
      cases second with
      | nil => rfl
      | cons code second => simp [quotedId, Ne.symm marks_apart] at same
  | cons code first ih =>
      cases second with
      | nil => simp [quotedId, marks_apart] at same
      | cons other second =>
          have units : code = other ∧ quotedId first ++ rest = quotedId second ++ others := by
            simpa [quotedId] using same
          rw [units.1, ih units.2]

def keyedServices : Services :=
  { plainServices with
    bull :=
      { acceptsId := plainServices.bull.acceptsId
        repeatKey := fun name id repeats => quotedId id ++ (name ++ match repeats with
          | .cron pattern timezone => js ":" ++ timezone ++ js ":" ++ pattern
          | .every milliseconds => js "::" ++ intText milliseconds) } }

def plainListing : Listing :=
  { order := id, idOf := fun repeatable => some repeatable.data.scheduleId }

theorem plainReports : Reports keyedServices.bull plainListing where
  separates := fun _ _ _ _ _ _ same => quotedId_append_inj same
  lists := fun repeatables => .refl repeatables
  reports := fun _ => rfl

def recurringRow (id : JsString) (cron : Option JsString) (everyMs : Option Int) : ScheduleEntity :=
  { id, guildId := some (js "g"), kind := js "backup", type := .recurring, status := .active
    payload := .obj [], idempotencyKey := some (js "k"), cron, everyMs, timezone := js "UTC"
    nextRunAt := none, lastRunAt := none, deferrable := true, maxAttempts := 5, bullJobId := none
    deletedAt := none }

def oneRow (row : ScheduleEntity) (repeatables : List ScheduleEntity) : State :=
  { schedules :=
      { rows := [row], distinct := List.nodup_singleton _
        unique := by cases isTuple : row.dedup <;> simp [isTuple] }
    queue :=
      { jobs := [], repeatables := repeatables.map fun row => repeatableOf keyedServices row 0 } }

/-- A row whose pattern is not that of its repeatable, beside a repeatable of a row that is gone. -/
def driftedCron : State :=
  oneRow (recurringRow (js "s") (some (js "0 4 * * *")) none)
    [recurringRow (js "s") (some (js "0 3 * * *")) none, recurringRow (js "t") none (some 60000)]

end Scheduler
