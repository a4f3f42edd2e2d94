import ArmstrongBot.Audit.Writers
import ArmstrongBot.Library.JobQueue

/-! The queue `audit.ingest` between `AuditIngestService` and the workers of
`jobs/audit-ingest.processor.ts`, with workers that may die at any point. -/

namespace Audit

open JsText JobQueue
open Calendar (Timestamp)

def ingestAttempts : Nat := 5

def completedLimit : Nat := 1000

def ingestJobId (dedupeKey : JsString) : JsString := js "ingest:" ++ dedupeKey

/-- The workers are named by the jobs that they process. `contributed` logs the entries that
reached the ledger, each with the job that it came from. -/
structure Ingest where
  writers : Writers JsString
  queue : List (Job JsString AuditEntryDraft)
  contributed : List (JsString × AuditEntry)

def Ingest.empty (clock : Timestamp) : Ingest :=
  { writers := .empty clock, queue := [], contributed := [] }

inductive IngestAction
  | deliver (envelopeId : JsString) (draft : AuditEntryDraft)
  | take (jobId : JsString)
  | findLast (jobId : JsString)
  | computeHash (jobId : JsString)
  | insert (jobId : JsString) (id : JsString)
  | acknowledge (jobId : JsString)
  | fail (jobId : JsString)
  | crash (jobId : JsString)

def enqueueDraft (state : Ingest) (draft : AuditEntryDraft) (dedupeKey : JsString) : Ingest :=
  { state with queue := add state.queue (ingestJobId dedupeKey) draft }

/-- The entry that the worker of a job has in the ledger and has not acknowledged. -/
def Worker.unacknowledged : Worker → Option AuditEntry
  | .returned entry => some entry
  | _ => none

section

variable (createHash : HashAlgorithm → JsString → JsString) (algorithm : HashAlgorithm)

def writeBy (state : Ingest) (action : Write JsString) : Option Ingest :=
  (write createHash algorithm state.writers action).map fun next => { state with writers := next }

def ingest (state : Ingest) : IngestAction → Option Ingest
  | .deliver envelopeId draft => some (enqueueDraft state draft envelopeId)
  | .take jobId =>
      match withStatus state.queue jobId .waiting with
      | some job => writeBy createHash algorithm { state with queue := start state.queue jobId }
          (.start jobId job.data)
      | none => none
  | .findLast jobId => writeBy createHash algorithm state (.findLast jobId)
  | .computeHash jobId => writeBy createHash algorithm state (.computeHash jobId)
  | .insert jobId id =>
      (writeBy createHash algorithm state (.insert jobId id)).map fun next =>
        match (next.writers.workers jobId).unacknowledged with
        | some entry => { next with contributed := state.contributed ++ [(jobId, entry)] }
        | none => next
  | .acknowledge jobId =>
      match withStatus state.queue jobId .active, (state.writers.workers jobId).unacknowledged with
      | some _, some _ => some { state with
          writers := state.writers.setWorker jobId .idle
          queue := complete completedLimit state.queue jobId }
      | _, _ => none
  | .fail jobId =>
      match withStatus state.queue jobId .active, (state.writers.workers jobId).unacknowledged with
      | some _, none => some { state with
          writers := state.writers.setWorker jobId .idle
          queue := JobQueue.retry ingestAttempts state.queue jobId }
      | _, _ => none
  | .crash jobId =>
      match withStatus state.queue jobId .active with
      | some _ => some { state with
          writers := state.writers.setWorker jobId .idle, queue := stall state.queue jobId }
      | none => none

end

def contributions (state : Ingest) (envelopeId : JsString) : List (JsString × AuditEntry) :=
  state.contributed.filter fun contribution => contribution.1 == ingestJobId envelopeId

def AtMostOnce (state : Ingest) : Prop :=
  ∀ envelopeId, (contributions state envelopeId).length ≤ 1

/-- No worker dies between the insert and the acknowledgement, and no envelope is delivered again
once it has an entry in the ledger and the queue has dropped its job. -/
def RunsOnce (state : Ingest) : IngestAction → Prop
  | .deliver envelopeId _ => contributions state envelopeId ≠ [] →
      ingestJobId envelopeId ∈ ids state.queue
  | .crash jobId => (state.writers.workers jobId).unacknowledged = none
  | _ => True

instance (state : Ingest) (action : IngestAction) : Decidable (RunsOnce state action) := by
  cases action <;> unfold RunsOnce <;> infer_instance

/-- A job with an entry in the ledger is completed, or its worker is about to acknowledge it. -/
structure Settled (state : Ingest) : Prop where
  distinct : (ids state.queue).Nodup
  once : (state.contributed.map Prod.fst).Nodup
  finished : ∀ job ∈ state.queue, job.id ∈ state.contributed.map Prod.fst →
    job.status = .completed ∨
      job.status = .active ∧ (state.writers.workers job.id).unacknowledged ≠ none
  busy : ∀ jobId, state.writers.workers jobId ≠ .idle →
    ∃ job ∈ state.queue, job.id = jobId ∧ job.status = .active

theorem mem_contributed {state : Ingest} {envelopeId : JsString} :
    contributions state envelopeId ≠ [] ↔
      ingestJobId envelopeId ∈ state.contributed.map Prod.fst := by
  constructor
  · intro nonempty
    obtain ⟨contribution, member⟩ := List.exists_mem_of_ne_nil _ nonempty
    obtain ⟨logged, sameJob⟩ := List.mem_filter.mp member
    exact List.mem_map.mpr ⟨contribution, logged, by simpa using sameJob⟩
  · intro member
    obtain ⟨contribution, logged, sameJob⟩ := List.mem_map.mp member
    exact List.ne_nil_of_mem (List.mem_filter.mpr ⟨logged, by simpa using sameJob⟩)

theorem Settled.atMostOnce {state : Ingest} (settled : Settled state) : AtMostOnce state := by
  intro envelopeId
  have count : (contributions state envelopeId).length =
      (state.contributed.map Prod.fst).count (ingestJobId envelopeId) := by
    rw [contributions, ← List.countP_eq_length_filter, List.count, List.countP_map]
    rfl
  rw [count]
  exact List.nodup_iff_count_le_one.mp settled.once _

theorem Settled.fresh {state : Ingest} (settled : Settled state) {job : Job JsString AuditEntryDraft}
    (member : job ∈ state.queue) (unfinished : job.status ≠ .completed)
    (open_ : (state.writers.workers job.id).unacknowledged = none) :
    job.id ∉ state.contributed.map Prod.fst := by
  intro inserted
  rcases settled.finished job member inserted with done | ⟨_, pending⟩
  · exact unfinished done
  · exact pending open_

/-! What each action keeps. -/

section

variable {createHash : HashAlgorithm → JsString → JsString} {algorithm : HashAlgorithm}

theorem settled_deliver {state : Ingest} (settled : Settled state) {envelopeId : JsString}
    (draft : AuditEntryDraft)
    (once : RunsOnce state (.deliver envelopeId draft)) :
    Settled (enqueueDraft state draft envelopeId) := by
  refine ⟨ids_add_nodup settled.distinct _ _, settled.once, ?_, ?_⟩
  · intro job member inserted
    rcases mem_add.mp member with earlier | ⟨dropped, rfl⟩
    · exact settled.finished job earlier inserted
    · exact absurd (once (mem_contributed.mpr inserted)) dropped
  · intro jobId working
    obtain ⟨job, member, same, active⟩ := settled.busy jobId working
    exact ⟨job, mem_add.mpr (Or.inl member), same, active⟩

theorem Settled.moves {state : Ingest} (settled : Settled state) {writers : Writers JsString}
    {jobId : JsString} (others : ∀ other, other ≠ jobId →
      writers.workers other = state.writers.workers other)
    (before : (state.writers.workers jobId).unacknowledged = none)
    {queue : List (Job JsString AuditEntryDraft)} (distinct : (ids queue).Nodup)
    (same : ∀ job ∈ queue, (job ∈ state.queue ∧ job.id ≠ jobId) ∨
      ∃ earlier ∈ state.queue, earlier.id = jobId ∧ earlier.status ≠ .completed ∧ job.id = jobId)
    (stays : ∀ job ∈ state.queue, job.id ≠ jobId → job ∈ queue)
    (busy : writers.workers jobId ≠ .idle → ∃ job ∈ queue, job.id = jobId ∧ job.status = .active) :
    Settled { state with writers, queue } := by
  refine ⟨distinct, settled.once, ?_, ?_⟩
  · intro job member inserted
    rcases same job member with ⟨earlier, apart⟩ | ⟨earlier, earlierMember, sameId, unfinished, isJob⟩
    · show _ ∨ _ ∧ (writers.workers job.id).unacknowledged ≠ none
      rw [others job.id apart]
      exact settled.finished job earlier inserted
    · rw [← sameId] at before
      have untouched := settled.fresh earlierMember unfinished before
      rw [sameId, ← isJob] at untouched
      exact absurd inserted untouched
  · intro other working
    by_cases isJob : other = jobId
    · subst isJob
      exact busy working
    · obtain ⟨job, member, sameId, active⟩ := settled.busy other (by rwa [← others other isJob])
      exact ⟨job, stays job member (by rwa [sameId]), sameId, active⟩

theorem setWorker_other {state : Writers JsString} {jobId other : JsString} (position : Worker)
    (apart : other ≠ jobId) : (state.setWorker jobId position).workers other = state.workers other :=
  Function.update_of_ne apart _ _

@[simp] theorem setWorker_self (state : Writers JsString) (jobId : JsString) (position : Worker) :
    (state.setWorker jobId position).workers jobId = position :=
  Function.update_self _ _ _

theorem Settled.active {state : Ingest} (settled : Settled state) {jobId : JsString}
    (working : state.writers.workers jobId ≠ .idle) {job : Job JsString AuditEntryDraft}
    (member : job ∈ state.queue) (same : job.id = jobId) : job.status = .active := by
  obtain ⟨other, otherMember, otherId, active⟩ := settled.busy jobId working
  rw [eq_of_id settled.distinct member otherMember (same.trans otherId.symm)]
  exact active

theorem settled_position {state : Ingest} (settled : Settled state) {jobId : JsString}
    (working : state.writers.workers jobId ≠ .idle)
    (before : (state.writers.workers jobId).unacknowledged = none) (position : Worker) :
    Settled { state with writers := state.writers.setWorker jobId position } := by
  refine settled.moves (fun other apart => setWorker_other position apart) before
    settled.distinct ?_ (fun _ member _ => member) ?_
  · intro job member
    by_cases same : job.id = jobId
    · exact Or.inr ⟨job, member, same, by simp [settled.active working member same], same⟩
    · exact Or.inl ⟨member, same⟩
  · intro _
    obtain ⟨job, member, same, active⟩ := settled.busy jobId working
    exact ⟨job, member, same, active⟩

theorem settled_take {state next : Ingest} (settled : Settled state) {jobId : JsString}
    (taken : ingest createHash algorithm state (.take jobId) = some next) : Settled next := by
  simp only [ingest] at taken
  split at taken
  · rename_i job found
    obtain ⟨member, sameId, waiting⟩ := withStatus_some found
    have idle : state.writers.workers jobId = .idle := by
      by_contra working
      have active := settled.active working member sameId
      simp [waiting] at active
    simp only [writeBy, write, idle, Option.map_some, Option.some.injEq] at taken
    subst next
    refine settled.moves (fun other apart => setWorker_other _ apart) (by rw [idle]; rfl)
      ?_ ?_ ?_ ?_
    · rw [ids_start]
      exact settled.distinct
    · intro other otherMember
      rcases mem_change otherMember with earlier | ⟨before, beforeMember, beforeId, rfl⟩
      · exact Or.inl earlier
      · have same := eq_of_id settled.distinct beforeMember member (beforeId.trans sameId.symm)
        exact Or.inr ⟨before, beforeMember, beforeId, by simp [same, waiting], beforeId⟩
    · exact fun other otherMember apart => mem_change_of_ne _ otherMember apart
    · intro _
      exact ⟨_, mem_change_of_eq _ member sameId, sameId, rfl⟩
  · simp at taken

theorem settled_leave {state : Ingest} (settled : Settled state) {jobId : JsString}
    {job : Job JsString AuditEntryDraft} (found : withStatus state.queue jobId .active = some job)
    (open_ : (state.writers.workers jobId).unacknowledged = none)
    (update : Job JsString AuditEntryDraft → Job JsString AuditEntryDraft)
    (keepsId : ∀ job, (update job).id = job.id) :
    Settled { state with
      writers := state.writers.setWorker jobId .idle, queue := change state.queue jobId update } := by
  obtain ⟨member, sameId, active⟩ := withStatus_some found
  apply settled.moves (fun other apart => setWorker_other _ apart) open_
  · rw [ids_change keepsId]
    exact settled.distinct
  · intro other otherMember
    rcases mem_change otherMember with earlier | ⟨before, beforeMember, beforeId, rfl⟩
    · exact Or.inl earlier
    · have same := eq_of_id settled.distinct beforeMember member (beforeId.trans sameId.symm)
      exact Or.inr ⟨before, beforeMember, beforeId, by simp [same, active],
        (keepsId before).trans beforeId⟩
  · exact fun other otherMember apart => mem_change_of_ne _ otherMember apart
  · simp

theorem settled_insert {state : Ingest} (settled : Settled state) {jobId : JsString}
    {draft : AuditEntryDraft} {attempt : Nat} {seq : Int} {previousHash : Option JsString}
    {hash : JsString} (position : state.writers.workers jobId =
      .inserting draft attempt seq previousHash hash) (entry : AuditEntry) (ledger : Ledger) :
    Settled { state with
      writers := { (state.writers.setWorker jobId (.returned entry)) with ledger }
      contributed := state.contributed ++ [(jobId, entry)] } := by
  have working : state.writers.workers jobId ≠ .idle := by simp [position]
  have open_ : (state.writers.workers jobId).unacknowledged = none := by rw [position]; rfl
  have fresh : jobId ∉ state.contributed.map Prod.fst := by
    obtain ⟨job, member, sameId, active⟩ := settled.busy jobId working
    have untouched := settled.fresh member (by simp [active]) (by rwa [sameId])
    rwa [sameId] at untouched
  refine ⟨settled.distinct, ?_, ?_, ?_⟩
  · rw [List.map_append]
    refine List.nodup_append.mpr ⟨settled.once, by simp, ?_⟩
    rintro known member other isJob rfl
    have isJobId : known = jobId := by simpa using isJob
    rw [isJobId] at member
    exact fresh member
  · intro job member inserted
    show _ ∨ _ ∧
      ((state.writers.setWorker jobId (.returned entry)).workers job.id).unacknowledged ≠ none
    by_cases same : job.id = jobId
    · refine Or.inr ⟨settled.active working member same, ?_⟩
      rw [same, setWorker_self]
      simp [Worker.unacknowledged]
    · rw [setWorker_other _ same]
      apply settled.finished job member
      simpa [same] using inserted
  · intro other otherWorking
    by_cases same : other = jobId
    · rw [same]
      exact settled.busy jobId working
    · exact settled.busy other (by rwa [← setWorker_other (.returned entry) same])

theorem settled_acknowledge {state : Ingest} (settled : Settled state) {jobId : JsString} :
    Settled { state with
      writers := state.writers.setWorker jobId .idle
      queue := complete completedLimit state.queue jobId } := by
  refine ⟨ids_complete_nodup settled.distinct jobId, settled.once, ?_, ?_⟩
  · intro job member inserted
    rcases mem_complete member with ⟨earlier, apart⟩ | ⟨_, done⟩
    · show _ ∨ _ ∧ ((state.writers.setWorker jobId .idle).workers job.id).unacknowledged ≠ none
      rw [setWorker_other _ apart]
      exact settled.finished job earlier inserted
    · exact Or.inl done
  · intro other working
    have apart : other ≠ jobId := by
      rintro rfl
      simp at working
    rw [setWorker_other _ apart] at working
    obtain ⟨job, member, sameId, active⟩ := settled.busy other working
    exact ⟨job, mem_complete_of_ne member (by rwa [sameId]) (by simp [active]), sameId, active⟩

theorem settled_ingest {state next : Ingest} {action : IngestAction} (settled : Settled state)
    (once : RunsOnce state action)
    (taken : ingest createHash algorithm state action = some next) : Settled next := by
  cases action with
  | deliver envelopeId draft =>
      obtain rfl := Option.some.inj taken
      exact settled_deliver settled draft once
  | take jobId => exact settled_take settled taken
  | findLast jobId =>
      obtain ⟨writers, written, rfl⟩ := Option.map_eq_some_iff.mp taken
      simp only [write] at written
      split at written
      · rename_i draft attempt position
        obtain rfl := Option.some.inj written
        exact settled_position settled (by simp [position]) (by rw [position]; rfl) _
      · simp at written
  | computeHash jobId =>
      obtain ⟨writers, written, rfl⟩ := Option.map_eq_some_iff.mp taken
      simp only [write] at written
      split at written
      · rename_i draft attempt last position
        obtain rfl := Option.some.inj written
        exact settled_position settled (by simp [position]) (by rw [position]; rfl) _
      · simp at written
  | insert jobId id =>
      obtain ⟨middle, written, rfl⟩ := Option.map_eq_some_iff.mp taken
      obtain ⟨writers, inserted, rfl⟩ := Option.map_eq_some_iff.mp written
      simp only [write] at inserted
      split at inserted
      · rename_i draft attempt seq previousHash hash position
        split at inserted
        · rename_i entry ledger appended
          obtain rfl := Option.some.inj inserted
          simp only [setWorker_self, Worker.unacknowledged]
          exact settled_insert settled position entry ledger
        · rename_i conflict rejected
          obtain rfl := Option.some.inj inserted
          have again : (retry draft attempt conflict).unacknowledged = none := by
            unfold retry
            split <;> rfl
          simp only [setWorker_self, again]
          exact settled_position settled (by simp [position]) (by rw [position]; rfl) _
      · simp at inserted
  | acknowledge jobId =>
      simp only [ingest] at taken
      split at taken
      · obtain rfl := Option.some.inj taken
        exact settled_acknowledge settled
      · simp at taken
  | fail jobId =>
      simp only [ingest] at taken
      split at taken
      · rename_i job found open_
        obtain rfl := Option.some.inj taken
        exact settled_leave settled found open_ _ fun _ => rfl
      · simp at taken
  | crash jobId =>
      simp only [ingest] at taken
      split at taken
      · rename_i job found
        obtain rfl := Option.some.inj taken
        exact settled_leave settled found once _ fun _ => rfl
      · simp at taken

variable (createHash algorithm)

end

/-! An envelope whose worker fails once, and one whose worker dies behind its insert. -/

def processOnce (id : JsString) : List IngestAction :=
  [.take (js "ingest:e"), .findLast (js "ingest:e"), .computeHash (js "ingest:e"),
    .insert (js "ingest:e") id]

def failsThenSucceeds : List IngestAction :=
  [.deliver (js "e") (guildDraft 0), .take (js "ingest:e"), .fail (js "ingest:e")] ++
    processOnce (js "x") ++ [.acknowledge (js "ingest:e"), .deliver (js "e") (guildDraft 0)]

def diesBeforeAcknowledging : List IngestAction :=
  [.deliver (js "e") (guildDraft 0)] ++ processOnce (js "x") ++ [.crash (js "ingest:e")] ++
    processOnce (js "y") ++ [.acknowledge (js "ingest:e")]

end Audit
