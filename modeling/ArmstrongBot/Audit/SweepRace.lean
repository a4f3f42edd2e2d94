import ArmstrongBot.Audit.Writers

/-! A retention sweep, one statement at a time, among workers that append. -/

namespace Audit

open JsText
open Calendar (Timestamp)

structure SweepTask where
  chain : ChainKey
  now : Timestamp
  config : AuditGuildConfig

def SweepTask.cutoff (task : SweepTask) : Timestamp :=
  computeCutoff task.now task.config.retentionDays

/-- Where a sweep stands in `sweepChain`, with the variables that it has read by then. -/
inductive Sweeper
  | idle
  | started (task : SweepTask)
  | firstRead (task : SweepTask) (first : Int)
  | retainedRead (task : SweepTask) (first : Int) (firstRetained : Option Int)
  | bounded (task : SweepTask) (first bound : Int)
  | boundaryRead (task : SweepTask) (first bound : Int) (boundary : AuditEntry)
  | exporting (task : SweepTask) (first bound : Int) (boundary : AuditEntry) (storageRef : JsString)
      (cursor : Int)
  | written (task : SweepTask) (first bound : Int) (boundary : AuditEntry) (storageRef : JsString)
  | recorded (task : SweepTask) (bound : Int) (archive : AuditArchive)

structure Deletion where
  entry : AuditEntry
  task : SweepTask
  archive : Option AuditArchive

structure Race (ι : Type*) extends Writers ι where
  sweeper : Sweeper
  deleted : List Deletion

def Race.empty {ι : Type*} (clock : Timestamp) : Race ι :=
  { Writers.empty clock with sweeper := .idle, deleted := [] }

inductive RaceAction (ι : Type*)
  | write (action : Write ι)
  | start (task : SweepTask)
  | firstSeq
  | firstSeqAtOrAfter
  | findLast
  | findBySeq
  | openFile
  | exportPage
  | createArchive
  | pruneUpTo
  | fail

/-- The rows that the next page of an export selects from, in order. -/
def exportRows (ledger : Ledger) (chain : ChainKey) (cursor bound : Int) : List AuditEntry :=
  Keyset.sorted AuditEntry.seq
    ((ledger.rows chain).filter fun entry => decide (cursor < entry.seq ∧ entry.seq ≤ bound))

/-- `handle.write` of the serialised page. -/
def writePage (ledger : Ledger) (storageRef : JsString) (page : List AuditEntry) : Ledger :=
  { ledger with files := ledger.files.map fun file =>
      if file.storageRef = storageRef then { file with entries := file.entries ++ page } else file }

def deletions (ledger : Ledger) (task : SweepTask) (bound : Int) (archive : Option AuditArchive) :
    List Deletion :=
  ((ledger.rows task.chain).filter fun entry => decide (entry.seq ≤ bound)).map fun entry =>
    { entry, task, archive }

section

variable {ι : Type*} [DecidableEq ι] (createHash : HashAlgorithm → JsString → JsString)
  (algorithm : HashAlgorithm) (archiveDir : JsString)

def race (state : Race ι) : RaceAction ι → Option (Race ι)
  | .write action =>
      (write createHash algorithm state.toWriters action).map fun next =>
        { state with toWriters := next }
  | .start task =>
      match state.sweeper with
      | .idle => some { state with sweeper := .started task }
      | _ => none
  | .firstSeq =>
      match state.sweeper with
      | .started task => match firstSeq state.ledger task.chain with
        | some first => some { state with sweeper := .firstRead task first }
        | none => some { state with sweeper := .idle }
      | _ => none
  | .firstSeqAtOrAfter =>
      match state.sweeper with
      | .firstRead task first => some { state with
          sweeper := .retainedRead task first
            (firstSeqAtOrAfter state.ledger task.chain task.cutoff) }
      | _ => none
  | .findLast =>
      match state.sweeper with
      | .retainedRead task first firstRetained =>
          match pruneBound firstRetained (findLast state.ledger task.chain) with
          | .ok bound =>
              if bound < first then some { state with sweeper := .idle }
              else some { state with sweeper := .bounded task first bound }
          | .error _ => some { state with sweeper := .idle }
      | _ => none
  | .findBySeq =>
      match state.sweeper with
      | .bounded task first bound =>
          if task.config.archiveBeforeDelete then
            match findBySeq state.ledger task.chain bound with
            | some boundary => some { state with sweeper := .boundaryRead task first bound boundary }
            | none => some { state with sweeper := .idle }
          else none
      | _ => none
  | .openFile =>
      match state.sweeper with
      | .boundaryRead task first bound boundary =>
          let format := task.config.archiveFormat
          let storageRef := archivePath archiveDir task.chain task.now first bound format
          match writeFile state.ledger storageRef format [] with
          | some next => some { state with
              ledger := next, sweeper := .exporting task first bound boundary storageRef (first - 1) }
          | none => some { state with sweeper := .idle }
      | _ => none
  | .exportPage =>
      match state.sweeper with
      | .exporting task first bound boundary storageRef cursor =>
          let page := (exportRows state.ledger task.chain cursor bound).take exportBatch
          match page.getLast? with
          | none => some { state with sweeper := .written task first bound boundary storageRef }
          | some last => some { state with
              ledger := writePage state.ledger storageRef page
              sweeper := .exporting task first bound boundary storageRef last.seq }
      | _ => none
  | .createArchive =>
      match state.sweeper with
      | .written task first bound boundary storageRef =>
          let archive := toArchive state.ledger task.chain task.config.archiveFormat first bound
            (bound - first + 1) storageRef boundary.hash
          some { state with
            ledger := createArchive state.ledger archive, sweeper := .recorded task bound archive }
      | _ => none
  | .pruneUpTo =>
      match state.sweeper with
      | .bounded task _ bound =>
          if task.config.archiveBeforeDelete then none
          else some { state with
            ledger := (pruneUpTo state.ledger task.chain bound).2, sweeper := .idle
            deleted := state.deleted ++ deletions state.ledger task bound none }
      | .recorded task bound archive => some { state with
          ledger := (pruneUpTo state.ledger task.chain bound).2, sweeper := .idle
          deleted := state.deleted ++ deletions state.ledger task bound (some archive) }
      | _ => none
  | .fail => some { state with sweeper := .idle }

end

/-! What a sweep may delete. -/

def Stored (ledger : Ledger) (storageRef : JsString) (entry : AuditEntry) : Prop :=
  ∃ file ∈ ledger.files, file.storageRef = storageRef ∧ entry ∈ file.entries

/-- The entry was past retention and, under a policy that archives, is in the file of the archive
that the sweep recorded and in its range. -/
def Deletion.Justified (ledger : Ledger) (deletion : Deletion) : Prop :=
  deletion.entry.occurredAt < deletion.task.cutoff ∧
    (deletion.task.config.archiveBeforeDelete = true →
      ∃ archive ∈ ledger.archives, deletion.archive = some archive ∧
        archive.chain = deletion.entry.chain ∧ archive.fromSeq ≤ deletion.entry.seq ∧
        deletion.entry.seq ≤ archive.toSeq ∧ Stored ledger archive.storageRef deletion.entry)

def DeletesOnlyOld {ι : Type*} (state : Race ι) : Prop :=
  ∀ deletion ∈ state.deleted, deletion.Justified state.ledger

/-- Whether a sweep still takes account of an entry that is inserted now. Once it has read the
first retained number, it sees no younger entry below that number; once it has exported up to
its cursor, it exports nothing more up to there. -/
def Admits : Sweeper → AuditEntryDraft → Int → Prop
  | .retainedRead task _ firstRetained, draft, seq => draft.chain = task.chain →
      draft.occurredAt < task.cutoff ∨ ∃ retained ∈ firstRetained, retained ≤ seq
  | .bounded task first bound, draft, seq | .boundaryRead task first bound _, draft, seq =>
      draft.chain = task.chain → bound < seq ∨
        draft.occurredAt < task.cutoff ∧ (task.config.archiveBeforeDelete = true → first ≤ seq)
  | .exporting task first bound _ _ cursor, draft, seq => draft.chain = task.chain →
      bound < seq ∨ draft.occurredAt < task.cutoff ∧ first ≤ seq ∧ cursor < seq
  | .written task _ bound _ _, draft, seq | .recorded task bound _, draft, seq =>
      draft.chain = task.chain → bound < seq
  | _, _, _ => True

/-- Every accepted insert is one the sweep still takes account of, no row lies below the first
number that an archiving sweep has read, and no two rows on the two sides of a page's end share
a number. -/
def Undisturbed {ι : Type*} (state : Race ι) : RaceAction ι → Prop
  | .write (.insert worker id) =>
      match state.workers worker with
      | .inserting draft _ seq previousHash hash =>
          (append state.ledger id draft seq previousHash hash).isOk = true →
            Admits state.sweeper draft seq
      | _ => True
  | .findLast =>
      match state.sweeper with
      | .retainedRead task first firstRetained => task.config.archiveBeforeDelete = true →
          (∀ retained ∈ firstRetained, first < retained) →
            ∀ row ∈ state.ledger.rows task.chain, first ≤ row.seq
      | _ => True
  | .exportPage =>
      match state.sweeper with
      | .exporting task _ bound _ _ cursor =>
          ∀ row ∈ (exportRows state.ledger task.chain cursor bound).take exportBatch,
            ∀ later ∈ (exportRows state.ledger task.chain cursor bound).drop exportBatch,
              row.seq < later.seq
      | _ => True
  | _ => True

instance (sweeper : Sweeper) (draft : AuditEntryDraft) (seq : Int) :
    Decidable (Admits sweeper draft seq) := by
  cases sweeper <;> unfold Admits <;> infer_instance

instance {ι : Type*} (state : Race ι) (action : RaceAction ι) :
    Decidable (Undisturbed state action) := by
  unfold Undisturbed
  split <;> (try split) <;> infer_instance

def Ready (ledger : Ledger) : Sweeper → Prop
  | .retainedRead task _ firstRetained => ∀ row ∈ ledger.rows task.chain,
      row.occurredAt < task.cutoff ∨ ∃ retained ∈ firstRetained, retained ≤ row.seq
  | .bounded task first bound => ∀ row ∈ ledger.rows task.chain, row.seq ≤ bound →
      row.occurredAt < task.cutoff ∧ (task.config.archiveBeforeDelete = true → first ≤ row.seq)
  | .boundaryRead task first bound _ => task.config.archiveBeforeDelete = true ∧
      ∀ row ∈ ledger.rows task.chain, row.seq ≤ bound →
        row.occurredAt < task.cutoff ∧ (task.config.archiveBeforeDelete = true → first ≤ row.seq)
  | .exporting task first bound _ storageRef cursor =>
      (∃ file ∈ ledger.files, file.storageRef = storageRef) ∧
        ∀ row ∈ ledger.rows task.chain, row.seq ≤ bound → row.occurredAt < task.cutoff ∧
          first ≤ row.seq ∧ (row.seq ≤ cursor → Stored ledger storageRef row)
  | .written task first bound _ storageRef => ∀ row ∈ ledger.rows task.chain, row.seq ≤ bound →
      row.occurredAt < task.cutoff ∧ first ≤ row.seq ∧ Stored ledger storageRef row
  | .recorded task bound archive => archive ∈ ledger.archives ∧ archive.chain = task.chain ∧
      archive.toSeq = bound ∧ ∀ row ∈ ledger.rows task.chain, row.seq ≤ bound →
        row.occurredAt < task.cutoff ∧ archive.fromSeq ≤ row.seq ∧
          Stored ledger archive.storageRef row
  | _ => True

structure Careful {ι : Type*} (state : Race ι) : Prop where
  deletes : DeletesOnlyOld state
  ready : Ready state.ledger state.sweeper

structure Keeps (ledger next : Ledger) : Prop where
  archives : ∀ archive ∈ ledger.archives, archive ∈ next.archives
  paths : ∀ storageRef, (∃ file ∈ ledger.files, file.storageRef = storageRef) →
    ∃ file ∈ next.files, file.storageRef = storageRef
  stored : ∀ storageRef entry, Stored ledger storageRef entry → Stored next storageRef entry

theorem Keeps.of_same {ledger next : Ledger} (archives : next.archives = ledger.archives)
    (files : next.files = ledger.files) : Keeps ledger next := by
  refine ⟨by simp [archives], by simp [files], ?_⟩
  intro storageRef entry stored
  rwa [Stored, files]

theorem Keeps.createArchive (ledger : Ledger) (archive : AuditArchive) :
    Keeps ledger (createArchive ledger archive) :=
  ⟨fun _ member => List.mem_append_left _ member, fun _ exists_ => exists_, fun _ _ stored => stored⟩

theorem Keeps.writeFile {ledger next : Ledger} {storageRef : JsString} {format : AuditExportFormat}
    {entries : List AuditEntry} (opened : writeFile ledger storageRef format entries = some next) :
    Keeps ledger next := by
  unfold Audit.writeFile at opened
  split at opened
  · simp at opened
  · obtain rfl := Option.some.inj opened
    refine ⟨fun _ member => member, ?_, ?_⟩
    · rintro other ⟨file, member, same⟩
      exact ⟨file, List.mem_append_left _ member, same⟩
    · rintro other entry ⟨file, member, same, inside⟩
      exact ⟨file, List.mem_append_left _ member, same, inside⟩

theorem stored_writePage {ledger : Ledger} {storageRef : JsString} {page : List AuditEntry}
    (exists_ : ∃ file ∈ ledger.files, file.storageRef = storageRef) {entry : AuditEntry}
    (member : entry ∈ page) : Stored (writePage ledger storageRef page) storageRef entry := by
  obtain ⟨file, fileMember, same⟩ := exists_
  refine ⟨_, List.mem_map_of_mem fileMember, ?_, ?_⟩
  · simp [same]
  · simp [same, member]

theorem Keeps.writePage (ledger : Ledger) (storageRef : JsString) (page : List AuditEntry) :
    Keeps ledger (writePage ledger storageRef page) := by
  refine ⟨fun _ member => member, ?_, ?_⟩
  · rintro other ⟨file, member, same⟩
    refine ⟨_, List.mem_map_of_mem member, ?_⟩
    split
    · exact same
    · exact same
  · rintro other entry ⟨file, member, same, inside⟩
    refine ⟨_, List.mem_map_of_mem member, ?_⟩
    split
    · exact ⟨same, List.mem_append_left _ inside⟩
    · exact ⟨same, inside⟩

theorem Deletion.Justified.keeps {ledger next : Ledger} (keeps : Keeps ledger next)
    {deletion : Deletion} (justified : deletion.Justified ledger) : deletion.Justified next := by
  refine ⟨justified.1, ?_⟩
  intro archives
  obtain ⟨archive, member, recorded, inChain, lower, upper, stored⟩ := justified.2 archives
  exact ⟨archive, keeps.archives archive member, recorded, inChain, lower, upper,
    keeps.stored _ _ stored⟩

theorem Ready.lasts {ledger next : Ledger} {sweeper : Sweeper} (ready : Ready ledger sweeper)
    (keeps : Keeps ledger next)
    (rows : ∀ chain, ∀ row ∈ next.rows chain, row ∈ ledger.rows chain ∨
      row.chain = chain ∧ Admits sweeper row.toAuditEntryDraft row.seq) :
    Ready next sweeper := by
  cases sweeper with
  | idle | started _ | firstRead _ _ => trivial
  | retainedRead task first firstRetained =>
      intro row member
      rcases rows _ row member with earlier | ⟨inChain, admitted⟩
      · exact ready row earlier
      · exact admitted inChain
  | bounded task first bound =>
      intro row member upTo
      rcases rows _ row member with earlier | ⟨inChain, admitted⟩
      · exact ready row earlier upTo
      · exact (admitted inChain).resolve_left (not_lt.mpr upTo)
  | boundaryRead task first bound boundary =>
      refine ⟨ready.1, ?_⟩
      intro row member upTo
      rcases rows _ row member with earlier | ⟨inChain, admitted⟩
      · exact ready.2 row earlier upTo
      · exact (admitted inChain).resolve_left (not_lt.mpr upTo)
  | exporting task first bound boundary storageRef cursor =>
      refine ⟨keeps.paths _ ready.1, ?_⟩
      intro row member upTo
      rcases rows _ row member with earlier | ⟨inChain, admitted⟩
      · obtain ⟨old, above, stored⟩ := ready.2 row earlier upTo
        exact ⟨old, above, fun behind => keeps.stored _ _ (stored behind)⟩
      · obtain ⟨old, above, ahead⟩ := (admitted inChain).resolve_left (not_lt.mpr upTo)
        exact ⟨old, above, fun behind => absurd ahead (not_lt.mpr behind)⟩
  | written task first bound boundary storageRef =>
      intro row member upTo
      rcases rows _ row member with earlier | ⟨inChain, admitted⟩
      · obtain ⟨old, above, stored⟩ := ready row earlier upTo
        exact ⟨old, above, keeps.stored _ _ stored⟩
      · exact absurd (admitted inChain) (not_lt.mpr upTo)
  | recorded task bound archive =>
      refine ⟨keeps.archives _ ready.1, ready.2.1, ready.2.2.1, ?_⟩
      intro row member upTo
      rcases rows _ row member with earlier | ⟨inChain, admitted⟩
      · obtain ⟨old, above, stored⟩ := ready.2.2.2 row earlier upTo
        exact ⟨old, above, keeps.stored _ _ stored⟩
      · exact absurd (admitted inChain) (not_lt.mpr upTo)

theorem mem_exportRows {ledger : Ledger} {chain : ChainKey} {cursor bound : Int} {row : AuditEntry} :
    row ∈ exportRows ledger chain cursor bound ↔
      row ∈ ledger.rows chain ∧ cursor < row.seq ∧ row.seq ≤ bound := by
  rw [exportRows, Keyset.mem_sorted, List.mem_filter, decide_eq_true_eq]

/-! What each statement of a sweep establishes. -/

theorem ready_firstSeqAtOrAfter (ledger : Ledger) (task : SweepTask) (first : Int) :
    Ready ledger (.retainedRead task first
      (firstSeqAtOrAfter ledger task.chain task.cutoff)) := by
  intro row member
  by_cases old : row.occurredAt < task.cutoff
  · exact Or.inl old
  · right
    have fresh : row ∈ (ledger.rows task.chain).filter
        fun entry => decide (task.cutoff ≤ entry.occurredAt) := by
      simpa [member] using old
    exact Keyset.argmin_le AuditEntry.seq fresh

theorem ready_findLast {ledger : Ledger} {task : SweepTask} {first bound : Int}
    {firstRetained : Option Int} {last : Option AuditEntry}
    (ready : Ready ledger (.retainedRead task first firstRetained))
    (above : task.config.archiveBeforeDelete = true →
      (∀ retained ∈ firstRetained, first < retained) →
        ∀ row ∈ ledger.rows task.chain, first ≤ row.seq)
    (computed : pruneBound firstRetained last = .ok bound) (reached : ¬ bound < first) :
    Ready ledger (.bounded task first bound) := by
  intro row member upTo
  cases firstRetained with
  | none =>
      have old : row.occurredAt < task.cutoff := by simpa using ready row member
      exact ⟨old, fun archives => above archives (by simp) row member⟩
  | some retained =>
      obtain rfl : retained - 1 = bound := by simpa [pruneBound] using computed
      refine ⟨?_, fun archives => above archives ?_ row member⟩
      · rcases ready row member with old | ⟨other, same, below⟩
        · exact old
        · obtain rfl := Option.some.inj same
          omega
      · intro other same
        obtain rfl := Option.some.inj same
        omega

theorem ready_openFile {ledger next : Ledger} {task : SweepTask} {first bound : Int}
    {boundary : AuditEntry} {storageRef : JsString} {format : AuditExportFormat}
    (ready : Ready ledger (.boundaryRead task first bound boundary))
    (opened : writeFile ledger storageRef format [] = some next) :
    Ready next (.exporting task first bound boundary storageRef (first - 1)) := by
  have sameRows := rows_writeFile opened task.chain
  constructor
  · unfold writeFile at opened
    split at opened
    · simp at opened
    · obtain rfl := Option.some.inj opened
      exact ⟨_, List.mem_append_right _ List.mem_cons_self, rfl⟩
  · intro row member upTo
    rw [sameRows] at member
    obtain ⟨old, above⟩ := ready.2 row member upTo
    refine ⟨old, above ready.1, ?_⟩
    intro behind
    have lower := above ready.1
    omega

theorem ready_written {ledger : Ledger} {task : SweepTask} {first bound cursor : Int}
    {boundary : AuditEntry} {storageRef : JsString}
    (ready : Ready ledger (.exporting task first bound boundary storageRef cursor))
    (empty : (exportRows ledger task.chain cursor bound).take exportBatch = []) :
    Ready ledger (.written task first bound boundary storageRef) := by
  intro row member upTo
  obtain ⟨old, above, stored⟩ := ready.2 row member upTo
  refine ⟨old, above, stored ?_⟩
  by_contra ahead
  have selected := mem_exportRows.mpr ⟨member, not_le.mp ahead, upTo⟩
  rcases List.take_eq_nil_iff.mp empty with zero | none
  · exact absurd zero (by decide)
  · simp [none] at selected

theorem ready_exportPage {ledger : Ledger} {task : SweepTask} {first bound cursor : Int}
    {boundary last : AuditEntry} {storageRef : JsString}
    (ready : Ready ledger (.exporting task first bound boundary storageRef cursor))
    (apart : ∀ row ∈ (exportRows ledger task.chain cursor bound).take exportBatch,
      ∀ later ∈ (exportRows ledger task.chain cursor bound).drop exportBatch, row.seq < later.seq)
    (ends : ((exportRows ledger task.chain cursor bound).take exportBatch).getLast? = some last) :
    Ready (writePage ledger storageRef ((exportRows ledger task.chain cursor bound).take exportBatch))
      (.exporting task first bound boundary storageRef last.seq) := by
  have keeps := Keeps.writePage ledger storageRef
    ((exportRows ledger task.chain cursor bound).take exportBatch)
  refine ⟨keeps.paths _ ready.1, ?_⟩
  intro row member upTo
  obtain ⟨old, above, stored⟩ := ready.2 row member upTo
  refine ⟨old, above, ?_⟩
  intro behind
  by_cases earlier : row.seq ≤ cursor
  · exact keeps.stored _ _ (stored earlier)
  · have selected : row ∈ exportRows ledger task.chain cursor bound :=
      mem_exportRows.mpr ⟨member, not_le.mp earlier, upTo⟩
    rw [← List.take_append_drop exportBatch (exportRows ledger task.chain cursor bound)] at selected
    rcases List.mem_append.mp selected with inPage | later
    · exact stored_writePage ready.1 inPage
    · exact absurd (apart last (List.mem_of_getLast? ends) row later) (not_lt.mpr behind)

theorem justified_plain {ledger : Ledger} {task : SweepTask} {first bound : Int}
    (ready : Ready ledger (.bounded task first bound))
    (keepsNone : task.config.archiveBeforeDelete = false) :
    ∀ deletion ∈ deletions ledger task bound none, deletion.Justified ledger := by
  intro deletion member
  obtain ⟨row, selected, rfl⟩ := List.mem_map.mp member
  obtain ⟨inChain, upTo⟩ := List.mem_filter.mp selected
  exact ⟨(ready row inChain (by simpa using upTo)).1, by simp [keepsNone]⟩

theorem justified_archived {ledger : Ledger} {task : SweepTask} {bound : Int}
    {archive : AuditArchive} (ready : Ready ledger (.recorded task bound archive)) :
    ∀ deletion ∈ deletions ledger task bound (some archive), deletion.Justified ledger := by
  intro deletion member
  obtain ⟨row, selected, rfl⟩ := List.mem_map.mp member
  obtain ⟨inChain, upTo⟩ := List.mem_filter.mp selected
  have upToBound : row.seq ≤ bound := by simpa using upTo
  obtain ⟨recorded, archiveChain, ends, covered⟩ := ready
  obtain ⟨old, above, stored⟩ := covered row inChain upToBound
  refine ⟨old, fun _ => ⟨archive, recorded, rfl, ?_, above, by rw [ends]; exact upToBound, stored⟩⟩
  exact archiveChain.trans (mem_rows.mp inChain).2.symm

section

variable {ι : Type*} [DecidableEq ι] (createHash : HashAlgorithm → JsString → JsString)
  (algorithm : HashAlgorithm) (archiveDir : JsString)

omit [DecidableEq ι] in
theorem Careful.moves {state : Race ι} (careful : Careful state) {next : Ledger}
    (keeps : Keeps state.ledger next) {sweeper : Sweeper} (ready : Ready next sweeper) :
    Careful { state with ledger := next, sweeper } := by
  refine ⟨?_, ready⟩
  intro deletion member
  exact (careful.deletes deletion member).keeps keeps

omit [DecidableEq ι] in
theorem Careful.prunes {state : Race ι} (careful : Careful state) {task : SweepTask} {bound : Int}
    {archive : Option AuditArchive}
    (justified : ∀ deletion ∈ deletions state.ledger task bound archive,
      deletion.Justified state.ledger) :
    Careful { state with
      ledger := (pruneUpTo state.ledger task.chain bound).2, sweeper := .idle
      deleted := state.deleted ++ deletions state.ledger task bound archive } := by
  refine ⟨?_, trivial⟩
  have keeps : Keeps state.ledger (pruneUpTo state.ledger task.chain bound).2 :=
    Keeps.of_same rfl rfl
  intro deletion member
  rcases List.mem_append.mp member with earlier | now
  · exact (careful.deletes deletion earlier).keeps keeps
  · exact (justified deletion now).keeps keeps

variable {createHash algorithm archiveDir}

theorem careful_write {state : Race ι} (careful : Careful state) {action : Write ι}
    {next : Writers ι} (taken : write createHash algorithm state.toWriters action = some next)
    (undisturbed : Undisturbed state (.write action)) :
    Careful { state with toWriters := next } := by
  obtain ⟨archives, files, entries⟩ := write_tables createHash algorithm taken
  have keeps : Keeps state.ledger next.ledger := Keeps.of_same archives files
  refine ⟨fun deletion member => (careful.deletes deletion member).keeps keeps, ?_⟩
  apply careful.ready.lasts keeps
  intro chain row member
  rcases entries with same |
    ⟨worker, id, draft, attempt, seq, previousHash, hash, entry, rfl, position, appended⟩
  · left
    rwa [Ledger.rows, same] at member
  · simp only [Undisturbed, position] at undisturbed
    have admitted := undisturbed (by rw [appended]; rfl)
    obtain ⟨_, entryEq, nextEq⟩ := append_ok_iff.mp appended
    rw [nextEq, rows_snoc] at member
    rcases List.mem_append.mp member with earlier | newest
    · exact Or.inl earlier
    · right
      split at newest
      · rename_i inChain
        rw [List.mem_singleton.mp newest]
        refine ⟨inChain, ?_⟩
        rw [entryEq]
        exact admitted
      · simp at newest

theorem careful_race {state next : Race ι} {action : RaceAction ι} (careful : Careful state)
    (undisturbed : Undisturbed state action)
    (taken : race createHash algorithm archiveDir state action = some next) : Careful next := by
  have still (sweeper : Sweeper) (ready : Ready state.ledger sweeper) :
      Careful { state with sweeper } := careful.moves (Keeps.of_same rfl rfl) ready
  have ready := careful.ready
  cases action with
  | write action =>
      obtain ⟨writers, written, rfl⟩ := Option.map_eq_some_iff.mp taken
      exact careful_write careful written undisturbed
  | start task =>
      simp only [race] at taken
      split at taken <;> simp only [Option.some.injEq, reduceCtorEq] at taken
      exact taken ▸ still _ trivial
  | firstSeq =>
      simp only [race] at taken
      split at taken
      · split at taken
        · exact Option.some.inj taken ▸ still _ trivial
        · exact Option.some.inj taken ▸ still _ trivial
      · simp at taken
  | firstSeqAtOrAfter =>
      simp only [race] at taken
      split at taken
      · exact Option.some.inj taken ▸ still _ (ready_firstSeqAtOrAfter _ _ _)
      · simp at taken
  | findLast =>
      simp only [race] at taken
      split at taken
      · rename_i task first firstRetained position
        simp only [Undisturbed, position] at undisturbed
        rw [position] at ready
        split at taken
        · rename_i bound computed
          split at taken
          · exact Option.some.inj taken ▸ still _ trivial
          · rename_i reached
            exact Option.some.inj taken ▸ still _ (ready_findLast ready undisturbed computed reached)
        · exact Option.some.inj taken ▸ still _ trivial
      · simp at taken
  | findBySeq =>
      simp only [race] at taken
      split at taken
      · rename_i task first bound position
        rw [position] at ready
        split at taken
        · rename_i archives
          split at taken
          · exact Option.some.inj taken ▸ still (.boundaryRead task first bound _) ⟨archives, ready⟩
          · exact Option.some.inj taken ▸ still _ trivial
        · simp at taken
      · simp at taken
  | openFile =>
      simp only [race] at taken
      split at taken
      · rename_i task first bound boundary position
        rw [position] at ready
        split at taken
        · rename_i opened written
          exact Option.some.inj taken ▸ careful.moves (Keeps.writeFile written)
            (ready_openFile ready written)
        · exact Option.some.inj taken ▸ still _ trivial
      · simp at taken
  | exportPage =>
      simp only [race] at taken
      split at taken
      · rename_i task first bound boundary storageRef cursor position
        simp only [Undisturbed, position] at undisturbed
        rw [position] at ready
        split at taken
        · rename_i ends
          exact Option.some.inj taken ▸ still _
            (ready_written ready (List.getLast?_eq_none_iff.mp ends))
        · rename_i last ends
          exact Option.some.inj taken ▸ careful.moves (Keeps.writePage _ _ _)
            (ready_exportPage ready undisturbed ends)
      · simp at taken
  | createArchive =>
      simp only [race] at taken
      split at taken
      · rename_i task first bound boundary storageRef position
        rw [position] at ready
        refine Option.some.inj taken ▸ careful.moves (Keeps.createArchive _ _) ⟨?_, rfl, rfl, ready⟩
        exact List.mem_append_right _ List.mem_cons_self
      · simp at taken
  | pruneUpTo =>
      simp only [race] at taken
      split at taken
      · rename_i task first bound position
        rw [position] at ready
        split at taken
        · simp at taken
        · rename_i plain
          exact Option.some.inj taken ▸ careful.prunes (justified_plain ready (by simpa using plain))
      · rename_i task bound archive position
        rw [position] at ready
        exact Option.some.inj taken ▸ careful.prunes (justified_archived ready)
      · simp at taken
  | fail => exact Option.some.inj taken ▸ still _ trivial

variable (createHash algorithm archiveDir)

/-- In a run of sweeps among workers whose inserts the sweeps take account of, a sweep deletes
only entries past retention, and an archiving one only entries that its archive holds. -/
theorem deletesOnlyOld_always (clock : Timestamp) {actions : List (RaceAction ι)}
    (guarded : StepMachine.Guarded (race createHash algorithm archiveDir) Undisturbed
      (Race.empty clock) actions) :
    StepMachine.Always (race createHash algorithm archiveDir) DeletesOnlyOld (Race.empty clock)
      actions := by
  have initial : Careful (Race.empty clock : Race ι) := ⟨by simp [DeletesOnlyOld, Race.empty], trivial⟩
  have careful := StepMachine.always_of_guarded (race createHash algorithm archiveDir)
    (fun _ _ _ careful undisturbed taken => careful_race careful undisturbed taken) initial guarded
  exact careful.mono _ fun _ careful => careful.deletes

end

/-! A sweep during which a worker appends: before the sweep has read anything, and between its
reads of the first retained number and of the last row. -/

def appendBy (draft : AuditEntryDraft) (id : JsString) : List (RaceAction Unit) :=
  [.write (.start () draft), .write (.findLast ()), .write (.computeHash ()), .write (.insert () id)]

def sweepTask (config : AuditGuildConfig) : SweepTask :=
  { chain := (.guild, some (js "7")), now := 45 * dayMs, config }

def quietSweep : List (RaceAction Unit) :=
  appendBy (guildDraft 0) (js "x") ++ [.start (sweepTask archiveFirst)] ++
    appendBy (guildDraft (45 * dayMs)) (js "y") ++
    [.firstSeq, .firstSeqAtOrAfter, .findLast, .findBySeq, .openFile, .exportPage, .exportPage,
      .createArchive, .pruneUpTo]

theorem quietSweep_deletesOnlyOld :
    StepMachine.Always (race (fun _ text => text) .sha256 (js "/archives")) DeletesOnlyOld
        (Race.empty 0) quietSweep ∧
      ((StepMachine.run (race (fun _ text => text) .sha256 (js "/archives")) (Race.empty 0)
        quietSweep).map fun state => state.deleted.length) = some 1 :=
  ⟨deletesOnlyOld_always _ _ _ 0 (by decide +kernel), by decide +kernel⟩

def overtakenSweep : List (RaceAction Unit) :=
  appendBy (guildDraft 0) (js "x") ++
    [.start (sweepTask deleteOnly), .firstSeq, .firstSeqAtOrAfter] ++
    appendBy (guildDraft (45 * dayMs)) (js "y") ++ [.findLast, .pruneUpTo]

theorem overtakenSweep_deletes_fresh :
    ¬ StepMachine.Always (race (fun _ text => text) .sha256 (js "/archives")) DeletesOnlyOld
      (Race.empty 0) overtakenSweep := by
  let check (state : Race Unit) : Bool :=
    state.deleted.all fun deletion => decide (deletion.entry.occurredAt < deletion.task.cutoff)
  refine StepMachine.not_always _ check ?_ (by decide +kernel)
  intro state deletes
  simp only [check, List.all_eq_true, decide_eq_true_eq]
  exact fun deletion member => (deletes deletion member).1

end Audit
