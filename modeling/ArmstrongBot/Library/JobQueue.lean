import Mathlib.Data.List.Nodup
import Mathlib.Data.List.Basic

/-! A job queue with ids: adding a job whose id is retained does nothing, failed jobs are retained,
and of the completed jobs the latest ones up to a limit. -/

namespace JobQueue

inductive Status
  | waiting
  | active
  | completed
  | failed
  deriving DecidableEq

structure Job (κ δ : Type*) where
  id : κ
  data : δ
  attemptsMade : Nat
  status : Status

variable {κ δ : Type*}

def ids (queue : List (Job κ δ)) : List κ := queue.map Job.id

theorem mem_ids {queue : List (Job κ δ)} {id : κ} : id ∈ ids queue ↔ ∃ job ∈ queue, job.id = id := by
  simp [ids]

theorem eq_of_id {queue : List (Job κ δ)} (distinct : (ids queue).Nodup) {first second : Job κ δ}
    (firstMember : first ∈ queue) (secondMember : second ∈ queue) (same : first.id = second.id) :
    first = second := List.inj_on_of_nodup_map distinct firstMember secondMember same

variable [DecidableEq κ]

def add (queue : List (Job κ δ)) (id : κ) (data : δ) : List (Job κ δ) :=
  if id ∈ ids queue then queue
  else queue ++ [{ id, data, attemptsMade := 0, status := .waiting }]

def withStatus (queue : List (Job κ δ)) (id : κ) (status : Status) : Option (Job κ δ) :=
  queue.find? fun job => decide (job.id = id ∧ job.status = status)

def change (queue : List (Job κ δ)) (id : κ) (update : Job κ δ → Job κ δ) : List (Job κ δ) :=
  queue.map fun job => if job.id = id then update job else job

/-- From the latest job back, completed jobs beyond the limit are dropped. -/
def keepLatest : Nat → List (Job κ δ) → List (Job κ δ)
  | _, [] => []
  | limit, job :: earlier =>
      if job.status = .completed then
        match limit with
        | 0 => keepLatest 0 earlier
        | limit + 1 => job :: keepLatest limit earlier
      else job :: keepLatest limit earlier

def trim (limit : Nat) (queue : List (Job κ δ)) : List (Job κ δ) :=
  (keepLatest limit queue.reverse).reverse

def complete (limit : Nat) (queue : List (Job κ δ)) (id : κ) : List (Job κ δ) :=
  trim limit (queue.filter (fun job => job.id ≠ id) ++
    (queue.filter fun job => job.id = id).map fun job => { job with status := .completed })

def start (queue : List (Job κ δ)) (id : κ) : List (Job κ δ) :=
  change queue id fun job => { job with status := .active }

/-- A job that failed waits again while it has attempts left. -/
def retry (attempts : Nat) (queue : List (Job κ δ)) (id : κ) : List (Job κ δ) :=
  change queue id fun job => { job with
    attemptsMade := job.attemptsMade + 1
    status := if job.attemptsMade + 1 < attempts then .waiting else .failed }

def stall (queue : List (Job κ δ)) (id : κ) : List (Job κ δ) :=
  change queue id fun job => { job with status := .waiting }

theorem withStatus_some {queue : List (Job κ δ)} {id : κ} {status : Status} {job : Job κ δ}
    (found : withStatus queue id status = some job) :
    job ∈ queue ∧ job.id = id ∧ job.status = status := by
  refine ⟨List.mem_of_find?_eq_some found, ?_⟩
  simpa using List.find?_some found

theorem withStatus_add {queue : List (Job κ δ)} {id : κ} (fresh : id ∉ ids queue) (data : δ) :
    withStatus (add queue id data) id .waiting =
      some { id, data, attemptsMade := 0, status := .waiting } := by
  have earlier : withStatus queue id .waiting = none := by
    cases found : withStatus queue id .waiting with
    | none => rfl
    | some job =>
        obtain ⟨member, same, _⟩ := withStatus_some found
        exact absurd (mem_ids.mpr ⟨job, member, same⟩) fresh
  rw [withStatus] at earlier ⊢
  rw [add, if_neg fresh, List.find?_append, earlier]
  simp

theorem mem_add {queue : List (Job κ δ)} {id : κ} {data : δ} {job : Job κ δ} :
    job ∈ add queue id data ↔
      job ∈ queue ∨ id ∉ ids queue ∧ job = { id, data, attemptsMade := 0, status := .waiting } := by
  unfold add
  split
  · rename_i retained
    simp [retained]
  · rename_i fresh
    simp [fresh]

theorem mem_ids_add {queue : List (Job κ δ)} {id other : κ} {data : δ} :
    other ∈ ids (add queue id data) ↔ other ∈ ids queue ∨ other = id := by
  unfold add
  split
  · rename_i retained
    refine ⟨Or.inl, ?_⟩
    rintro (member | rfl)
    · exact member
    · exact retained
  · simp [ids]

theorem ids_add_nodup {queue : List (Job κ δ)} (distinct : (ids queue).Nodup) (id : κ) (data : δ) :
    (ids (add queue id data)).Nodup := by
  unfold add
  split
  · exact distinct
  · rename_i fresh
    rw [ids, List.map_append]
    refine List.nodup_append.mpr ⟨distinct, by simp, ?_⟩
    rintro known member other isNew rfl
    have isId : known = id := by simpa using isNew
    rw [isId] at member
    exact fresh member

theorem mem_change {queue : List (Job κ δ)} {id : κ} {update : Job κ δ → Job κ δ} {job : Job κ δ}
    (member : job ∈ change queue id update) :
    (job ∈ queue ∧ job.id ≠ id) ∨ ∃ before ∈ queue, before.id = id ∧ job = update before := by
  obtain ⟨before, beforeMember, rfl⟩ := List.mem_map.mp member
  by_cases same : before.id = id
  · rw [if_pos same]
    exact Or.inr ⟨before, beforeMember, same, rfl⟩
  · rw [if_neg same]
    exact Or.inl ⟨beforeMember, same⟩

theorem mem_change_of_ne {queue : List (Job κ δ)} {id : κ} (update : Job κ δ → Job κ δ)
    {job : Job κ δ} (member : job ∈ queue) (apart : job.id ≠ id) : job ∈ change queue id update :=
  List.mem_map.mpr ⟨job, member, if_neg apart⟩

theorem mem_change_of_eq {queue : List (Job κ δ)} {id : κ} (update : Job κ δ → Job κ δ)
    {job : Job κ δ} (member : job ∈ queue) (same : job.id = id) : update job ∈ change queue id update :=
  List.mem_map.mpr ⟨job, member, if_pos same⟩

theorem ids_change {queue : List (Job κ δ)} {id : κ} {update : Job κ δ → Job κ δ}
    (keepsId : ∀ job, (update job).id = job.id) : ids (change queue id update) = ids queue := by
  rw [ids, change, List.map_map]
  apply List.map_congr_left
  intro job _
  simp only [Function.comp_apply]
  split
  · exact keepsId job
  · rfl

theorem ids_start (queue : List (Job κ δ)) (id : κ) : ids (start queue id) = ids queue :=
  ids_change fun _ => rfl

theorem ids_retry (attempts : Nat) (queue : List (Job κ δ)) (id : κ) :
    ids (retry attempts queue id) = ids queue := ids_change fun _ => rfl

theorem ids_stall (queue : List (Job κ δ)) (id : κ) : ids (stall queue id) = ids queue :=
  ids_change fun _ => rfl

omit [DecidableEq κ] in
theorem keepLatest_sublist (limit : Nat) (queue : List (Job κ δ)) :
    (keepLatest limit queue).Sublist queue := by
  induction queue generalizing limit with
  | nil => exact List.Sublist.slnil
  | cons job earlier ih =>
      unfold keepLatest
      split
      · cases limit with
        | zero => exact (ih 0).cons job
        | succ limit => exact (ih limit).cons_cons job
      · exact (ih limit).cons_cons job

omit [DecidableEq κ] in
theorem mem_keepLatest {limit : Nat} {queue : List (Job κ δ)} {job : Job κ δ} (member : job ∈ queue)
    (unfinished : job.status ≠ .completed) : job ∈ keepLatest limit queue := by
  induction queue generalizing limit with
  | nil => simp at member
  | cons first earlier ih =>
      unfold keepLatest
      rcases List.mem_cons.mp member with rfl | later
      · rw [if_neg unfinished]
        exact List.mem_cons_self
      · split
        · cases limit with
          | zero => exact ih later
          | succ limit => exact List.mem_cons_of_mem _ (ih later)
        · exact List.mem_cons_of_mem _ (ih later)

omit [DecidableEq κ] in
theorem trim_sublist (limit : Nat) (queue : List (Job κ δ)) : (trim limit queue).Sublist queue := by
  rw [← List.reverse_sublist, trim, List.reverse_reverse]
  exact keepLatest_sublist limit queue.reverse

omit [DecidableEq κ] in
theorem mem_trim {limit : Nat} {queue : List (Job κ δ)} {job : Job κ δ} (member : job ∈ queue)
    (unfinished : job.status ≠ .completed) : job ∈ trim limit queue := by
  rw [trim, List.mem_reverse]
  exact mem_keepLatest (List.mem_reverse.mpr member) unfinished

theorem mem_complete {limit : Nat} {queue : List (Job κ δ)} {id : κ} {job : Job κ δ}
    (member : job ∈ complete limit queue id) :
    (job ∈ queue ∧ job.id ≠ id) ∨ (job.id = id ∧ job.status = .completed) := by
  have kept := (trim_sublist limit _).subset member
  rcases List.mem_append.mp kept with other | done
  · exact Or.inl (by simpa using List.mem_filter.mp other)
  · obtain ⟨before, selected, rfl⟩ := List.mem_map.mp done
    exact Or.inr ⟨by simpa using (List.mem_filter.mp selected).2, rfl⟩

/-- No operation on a job that is there makes up data. -/
theorem mem_complete_origin {limit : Nat} {queue : List (Job κ δ)} {id : κ} {job : Job κ δ}
    (member : job ∈ complete limit queue id) :
    ∃ before ∈ queue, before.id = job.id ∧ before.data = job.data := by
  have kept := (trim_sublist limit _).subset member
  rcases List.mem_append.mp kept with other | done
  · exact ⟨job, List.mem_of_mem_filter other, rfl, rfl⟩
  · obtain ⟨before, selected, rfl⟩ := List.mem_map.mp done
    exact ⟨before, List.mem_of_mem_filter selected, rfl, rfl⟩

theorem mem_retry_origin {attempts : Nat} {queue : List (Job κ δ)} {id : κ} {job : Job κ δ}
    (member : job ∈ retry attempts queue id) :
    ∃ before ∈ queue, before.id = job.id ∧ before.data = job.data := by
  rcases mem_change member with ⟨same, _⟩ | ⟨before, beforeMember, _, rfl⟩
  · exact ⟨job, same, rfl, rfl⟩
  · exact ⟨before, beforeMember, rfl, rfl⟩

theorem mem_ids_complete {limit : Nat} {queue : List (Job κ δ)} {id other : κ}
    (member : other ∈ ids (complete limit queue id)) : other ∈ ids queue := by
  have kept := (List.Sublist.map Job.id (trim_sublist limit _)).subset member
  rw [List.map_append, List.map_map, List.mem_append] at kept
  rcases kept with inOthers | isJob
  · exact (List.filter_sublist.map Job.id).subset inOthers
  · exact (List.filter_sublist.map Job.id).subset isJob

theorem mem_complete_of_ne {limit : Nat} {queue : List (Job κ δ)} {id : κ} {job : Job κ δ}
    (member : job ∈ queue) (apart : job.id ≠ id) (unfinished : job.status ≠ .completed) :
    job ∈ complete limit queue id :=
  mem_trim (List.mem_append_left _ (List.mem_filter.mpr ⟨member, by simpa using apart⟩)) unfinished

theorem ids_complete_nodup {limit : Nat} {queue : List (Job κ δ)} (distinct : (ids queue).Nodup)
    (id : κ) : (ids (complete limit queue id)).Nodup := by
  apply List.Nodup.sublist ((trim_sublist limit _).map Job.id)
  rw [List.map_append, List.map_map]
  refine List.nodup_append.mpr ⟨?_, ?_, ?_⟩
  · exact distinct.sublist (List.filter_sublist.map Job.id)
  · exact distinct.sublist (List.filter_sublist.map Job.id)
  · rintro first firstMember second secondMember rfl
    obtain ⟨job, selected, rfl⟩ := List.mem_map.mp firstMember
    obtain ⟨other, otherSelected, same⟩ := List.mem_map.mp secondMember
    have apart := (List.mem_filter.mp selected).2
    have isId := (List.mem_filter.mp otherSelected).2
    simp only [ne_eq, decide_not, Bool.not_eq_true', decide_eq_false_iff_not] at apart
    exact apart (same.symm.trans (by simpa using isId))

/-! A job that was started ends like one that waits. -/

theorem filter_change (queue : List (Job κ δ)) (id : κ) (update : Job κ δ → Job κ δ)
    (keepsId : ∀ job, (update job).id = job.id) :
    (change queue id update).filter (fun job => job.id ≠ id) =
        queue.filter (fun job => job.id ≠ id) ∧
      (change queue id update).filter (fun job => job.id = id) =
        (queue.filter fun job => job.id = id).map update := by
  induction queue with
  | nil => exact ⟨rfl, rfl⟩
  | cons job rest ih =>
      rw [change, List.map_cons, ← change]
      obtain ⟨others, own⟩ := ih
      simp only [ne_eq, decide_not] at others own ⊢
      by_cases same : job.id = id
      · simp [same, keepsId, others, own]
      · simp [same, others, own]

theorem complete_start (limit : Nat) (queue : List (Job κ δ)) (id : κ) :
    complete limit (start queue id) id = complete limit queue id := by
  obtain ⟨others, own⟩ :=
    filter_change queue id (fun job => { job with status := .active }) fun _ => rfl
  rw [complete, start, others, own, List.map_map]
  rfl

theorem retry_start (attempts : Nat) (queue : List (Job κ δ)) (id : κ) :
    retry attempts (start queue id) id = retry attempts queue id := by
  rw [retry, retry, start, change, change, change, List.map_map]
  refine List.map_congr_left fun job _ => ?_
  simp only [Function.comp_apply]
  split <;> rfl

theorem withStatus_of_mem {queue : List (Job κ δ)} {job : Job κ δ} (distinct : (ids queue).Nodup)
    (member : job ∈ queue) : withStatus queue job.id job.status = some job := by
  cases found : withStatus queue job.id job.status with
  | none =>
      have missed := List.find?_eq_none.mp found job member
      simp at missed
  | some other =>
      obtain ⟨isOther, sameId, _⟩ := withStatus_some found
      exact congrArg some (eq_of_id distinct isOther member sameId)

theorem withStatus_start {queue : List (Job κ δ)} {id : κ} {job : Job κ δ}
    (distinct : (ids queue).Nodup) (member : job ∈ queue) (isJob : job.id = id) :
    withStatus (start queue id) id .active = some { job with status := .active } := by
  have started := mem_change_of_eq (fun job => { job with status := .active }) member isJob
  rw [← ids_start queue id] at distinct
  subst isJob
  exact withStatus_of_mem distinct started

theorem withStatus_stall {queue : List (Job κ δ)} {id : κ} {job : Job κ δ}
    (distinct : (ids queue).Nodup) (member : job ∈ queue) (isJob : job.id = id) :
    withStatus (stall queue id) id .waiting = some { job with status := .waiting } := by
  have stalled := mem_change_of_eq (fun job => { job with status := .waiting }) member isJob
  rw [← ids_stall queue id] at distinct
  subst isJob
  exact withStatus_of_mem distinct stalled

/-- A job that waits is as it was once its start is undone. -/
theorem stall_start {queue : List (Job κ δ)} {id : κ} {job : Job κ δ}
    (distinct : (ids queue).Nodup) (found : withStatus queue id .waiting = some job) :
    stall (start queue id) id = queue := by
  obtain ⟨member, isJob, waiting⟩ := withStatus_some found
  rw [stall, start, change, change, List.map_map]
  refine (List.map_congr_left fun other otherMember => ?_).trans (List.map_id queue)
  simp only [Function.comp_apply, id_eq]
  by_cases same : other.id = id
  · obtain rfl := eq_of_id distinct otherMember member (same.trans isJob.symm)
    rw [if_pos same, if_pos (show _ = id from same), ← waiting]
  · simp [same]

/-! Whatever tells the jobs of a queue apart by their data goes on to. -/

theorem data_complete_nodup {β : Type*} {limit : Nat} {queue : List (Job κ δ)} (tag : δ → β)
    (distinct : (queue.map fun job => tag job.data).Nodup) (id : κ) :
    ((complete limit queue id).map fun job => tag job.data).Nodup := by
  refine List.Nodup.sublist ((trim_sublist limit _).map _) ?_
  have parts := (List.filter_append_perm (fun job => decide (job.id ≠ id)) queue).map
    fun job => tag job.data
  rw [List.map_append] at parts ⊢
  rw [List.map_map]
  refine (parts.nodup_iff.mpr distinct).perm ?_
  refine List.Perm.append_left _ (List.Perm.of_eq ?_)
  rw [List.filter_congr fun job _ => (by simp : (!decide (job.id ≠ id)) = decide (job.id = id))]
  rfl

theorem data_retry {β : Type*} (attempts : Nat) (queue : List (Job κ δ)) (id : κ) (tag : δ → β) :
    ((retry attempts queue id).map fun job => tag job.data) = queue.map fun job => tag job.data := by
  rw [retry, change, List.map_map]
  refine List.map_congr_left fun job _ => ?_
  simp only [Function.comp_apply]
  split <;> rfl

end JobQueue
