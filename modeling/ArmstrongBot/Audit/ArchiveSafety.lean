import ArmstrongBot.Audit.SweepRace

/-! Appends and retention sweeps one after the other, where a sweep may throw at any statement
that writes, and what is left of every entry that was ever appended. -/

namespace Audit

open JsText
open Calendar (Timestamp)

/-- How an awaited statement ends: it throws before or after it took effect. -/
inductive Outcome
  | returns
  | throws (tookEffect : Bool)

/-- How the writing of an archive file ends. A throw leaves no file, or one with as many of the
entries as were written by then. -/
inductive WriteOutcome
  | returns
  | throws (written : Option Nat)

/-- Where a sweep stands between its writes. -/
inductive SweepStage
  | idle
  | bounded (task : SweepTask) (first : Int) (boundary : AuditEntry)
  | written (task : SweepTask) (first : Int) (boundary : AuditEntry) (storageRef : JsString)
  | recorded (task : SweepTask) (bound : Int)
  | emitted (task : SweepTask) (bound : Int)

/-- The ledger, the sweep under way, and every entry that an append returned. -/
structure Sweeps where
  ledger : Ledger
  stage : SweepStage
  appended : List AuditEntry

def Sweeps.empty (clock : Timestamp) : Sweeps :=
  { ledger := Ledger.empty clock, stage := .idle, appended := [] }

inductive SweepStep
  | append (draft : AuditEntryDraft) (ids : Nat → JsString)
  | pass (elapsed : Nat)
  | start (task : SweepTask)
  | write (outcome : WriteOutcome)
  | createArchive (outcome : Outcome)
  | emit (outcome : Outcome)
  | pruneUpTo (outcome : Outcome)

/-- The reads of `sweepChain`, up to its first write. -/
def readBounds (ledger : Ledger) (task : SweepTask) : SweepStage :=
  match firstSeq ledger task.chain with
  | none => .idle
  | some first =>
      match pruneBound (firstSeqAtOrAfter ledger task.chain task.cutoff)
        (findLast ledger task.chain) with
      | .error _ => .idle
      | .ok bound =>
          if bound < first then .idle
          else if task.config.archiveBeforeDelete then
            match findBySeq ledger task.chain bound with
            | none => .idle
            | some boundary => .bounded task first boundary
          else .emitted task bound

/-- The state after a statement: the statement's effect if it took place, and the next stage if
the statement returned. -/
def Sweeps.after (state : Sweeps) (effect : Ledger) (stage : SweepStage) : Outcome → Sweeps
  | .returns => { state with ledger := effect, stage }
  | .throws true => { state with ledger := effect, stage := .idle }
  | .throws false => { state with stage := .idle }

section

variable (createHash : HashAlgorithm → JsString → JsString) (algorithm : HashAlgorithm)
  (archiveDir : JsString)

/-- `store.write`; where the file is there already, it throws whatever the outcome. -/
def writeStep (state : Sweeps) (task : SweepTask) (first : Int) (boundary : AuditEntry)
    (outcome : WriteOutcome) : Sweeps :=
  let format := task.config.archiveFormat
  let storageRef := archivePath archiveDir task.chain task.now first boundary.seq format
  let exported := iterateChainRange state.ledger task.chain (first - 1) (some boundary.seq)
  let stopped := { state with stage := .idle }
  match outcome with
  | .returns => match writeFile state.ledger storageRef format exported with
      | some next => { state with
          ledger := next, stage := .written task first boundary storageRef }
      | none => stopped
  | .throws none => stopped
  | .throws (some written) =>
      match writeFile state.ledger storageRef format (exported.take written) with
      | some next => { stopped with ledger := next }
      | none => stopped

def sweepStep (state : Sweeps) : SweepStep → Option Sweeps
  | .append draft ids =>
      match state.stage, appendWithRetry createHash algorithm state.ledger ids draft with
      | .idle, .ok (entry, next) =>
          some { state with ledger := next, appended := state.appended ++ [entry] }
      | _, _ => none
  | .pass elapsed =>
      some { state with ledger := { state.ledger with clock := state.ledger.clock + elapsed } }
  | .start task =>
      match state.stage with
      | .idle => some { state with stage := readBounds state.ledger task }
      | _ => none
  | .write outcome =>
      match state.stage with
      | .bounded task first boundary =>
          some (writeStep archiveDir state task first boundary outcome)
      | _ => none
  | .createArchive outcome =>
      match state.stage with
      | .written task first boundary storageRef =>
          let archive := toArchive state.ledger task.chain task.config.archiveFormat first
            boundary.seq (boundary.seq - first + 1) storageRef boundary.hash
          some (state.after (createArchive state.ledger archive) (.recorded task boundary.seq)
            outcome)
      | _ => none
  | .emit outcome =>
      match state.stage with
      | .recorded task bound => some (state.after state.ledger (.emitted task bound) outcome)
      | _ => none
  | .pruneUpTo outcome =>
      match state.stage with
      | .emitted task bound =>
          some (state.after (pruneUpTo state.ledger task.chain bound).2 .idle outcome)
      | _ => none

end

/-! What is kept of an entry. -/

/-- The entries in the file that a `storageRef` names. -/
def fileContent (ledger : Ledger) (storageRef : JsString) : List AuditEntry :=
  ((ledger.files.find? fun file => file.storageRef == storageRef).map ArchiveFile.entries).getD []

/-- The archive covers the entry's number, its file holds the entry, and its root hash is the hash
of the entry that its file has under its last number. -/
structure AuditArchive.Holds (ledger : Ledger) (archive : AuditArchive) (entry : AuditEntry) :
    Prop where
  chain : archive.chain = entry.chain
  lower : archive.fromSeq ≤ entry.seq
  upper : entry.seq ≤ archive.toSeq
  inside : entry ∈ fileContent ledger archive.storageRef
  rooted : ∃ last ∈ fileContent ledger archive.storageRef,
    last.chain = archive.chain ∧ last.seq = archive.toSeq ∧ archive.rootHash = last.hash
  onlyRoot : ∀ last ∈ fileContent ledger archive.storageRef,
    last.chain = archive.chain → last.seq = archive.toSeq → archive.rootHash = last.hash

def Archived (ledger : Ledger) (entry : AuditEntry) : Prop :=
  ∃ archive ∈ ledger.archives, archive.Holds ledger entry

def NothingLost (state : Sweeps) : Prop :=
  ∀ entry ∈ state.appended, entry ∈ state.ledger.entries ∨ Archived state.ledger entry

/-! An archive that holds an entry goes on holding it. -/

/-- No recorded archive is lost, and no file with entries in it is written again. -/
structure Preserves (ledger next : Ledger) : Prop where
  archives : ∀ archive ∈ ledger.archives, archive ∈ next.archives
  contents : ∀ storageRef, fileContent ledger storageRef ≠ [] →
    fileContent next storageRef = fileContent ledger storageRef

theorem Preserves.of_same {ledger next : Ledger} (archives : next.archives = ledger.archives)
    (files : next.files = ledger.files) : Preserves ledger next := by
  refine ⟨by simp [archives], ?_⟩
  intro storageRef _
  rw [fileContent, files, fileContent]

theorem Preserves.createArchive (ledger : Ledger) (archive : AuditArchive) :
    Preserves ledger (createArchive ledger archive) :=
  ⟨fun _ member => List.mem_append_left _ member, fun _ _ => rfl⟩

theorem fileContent_writeFile {ledger next : Ledger} {storageRef : JsString}
    {format : AuditExportFormat} {entries : List AuditEntry}
    (written : writeFile ledger storageRef format entries = some next) :
    fileContent next storageRef = entries := by
  unfold writeFile at written
  split at written
  · simp at written
  · rename_i absent
    obtain rfl := Option.some.inj written
    have none : ledger.files.find? (fun file => file.storageRef == storageRef) = none := by
      rw [List.find?_eq_none]
      intro file member same
      exact absent (List.any_eq_true.mpr ⟨file, member, same⟩)
    simp [fileContent, none]

theorem Preserves.writeFile {ledger next : Ledger} {storageRef : JsString}
    {format : AuditExportFormat} {entries : List AuditEntry}
    (written : writeFile ledger storageRef format entries = some next) :
    Preserves ledger next := by
  unfold Audit.writeFile at written
  split at written
  · simp at written
  · obtain rfl := Option.some.inj written
    refine ⟨fun _ member => member, ?_⟩
    intro other nonempty
    cases found : ledger.files.find? fun file => file.storageRef == other with
    | none => simp [fileContent, found] at nonempty
    | some file => simp [fileContent, found]

theorem AuditArchive.Holds.preserved {ledger next : Ledger} (preserves : Preserves ledger next)
    {archive : AuditArchive} {entry : AuditEntry} (holds : archive.Holds ledger entry) :
    archive.Holds next entry := by
  have same := preserves.contents archive.storageRef (List.ne_nil_of_mem holds.inside)
  exact ⟨holds.chain, holds.lower, holds.upper, same ▸ holds.inside, same ▸ holds.rooted,
    same ▸ holds.onlyRoot⟩

theorem Archived.preserved {ledger next : Ledger} (preserves : Preserves ledger next)
    {entry : AuditEntry} (archived : Archived ledger entry) : Archived next entry := by
  obtain ⟨archive, member, holds⟩ := archived
  exact ⟨archive, preserves.archives archive member, holds.preserved preserves⟩

section

variable (createHash : HashAlgorithm → JsString → JsString) (algorithm : HashAlgorithm)

/-! The invariant. A chain is linked from wherever its last prune cut it, and a chain without rows
starts anew. -/

def ChainLinked (ledger : Ledger) (chain : ChainKey) : Prop :=
  ∃ start position,
    HashChain.Linked (link createHash algorithm) start position (ledger.rows chain) ∧
    (ledger.rows chain = [] → start = none ∧ position = 1)

/-- What a sweep has established by the time it reaches a stage. -/
def SweepStage.Ready (ledger : Ledger) : SweepStage → Prop
  | .idle => True
  | .bounded task first boundary =>
      firstSeq ledger task.chain = some first ∧ boundary ∈ ledger.rows task.chain
  | .written task first boundary storageRef =>
      firstSeq ledger task.chain = some first ∧ boundary ∈ ledger.rows task.chain ∧
        fileContent ledger storageRef =
          (ledger.rows task.chain).filter fun entry => decide (entry.seq ≤ boundary.seq)
  | .recorded task bound | .emitted task bound =>
      ∃ boundary ∈ ledger.rows task.chain, boundary.seq = bound ∧
        ∀ row ∈ ledger.rows task.chain, row.seq ≤ bound → Archived ledger row

theorem SweepStage.Ready.preserved {ledger next : Ledger} (preserves : Preserves ledger next)
    (entries : next.entries = ledger.entries) {stage : SweepStage} (ready : stage.Ready ledger) :
    stage.Ready next := by
  have sameRows (chain : ChainKey) : next.rows chain = ledger.rows chain := by
    rw [Ledger.rows, entries, Ledger.rows]
  cases stage with
  | idle => trivial
  | bounded task first boundary => simpa only [SweepStage.Ready, firstSeq, sameRows] using ready
  | written task first boundary storageRef =>
      obtain ⟨firstRead, member, contentEq⟩ := ready
      have nonempty : fileContent ledger storageRef ≠ [] := by
        rw [contentEq]
        exact List.ne_nil_of_mem (List.mem_filter.mpr ⟨member, by simp⟩)
      simp only [SweepStage.Ready, firstSeq, sameRows, preserves.contents storageRef nonempty]
      exact ⟨firstRead, member, contentEq⟩
  | recorded task bound | emitted task bound =>
      obtain ⟨boundary, member, ends, archived⟩ := ready
      simp only [SweepStage.Ready, sameRows]
      exact ⟨boundary, member, ends, fun row inChain upTo =>
        (archived row inChain upTo).preserved preserves⟩

structure Safe (state : Sweeps) : Prop where
  linked : ∀ chain, ChainLinked createHash algorithm state.ledger chain
  kept : NothingLost state
  ready : state.stage.Ready state.ledger

variable {createHash algorithm}

theorem safe_empty (clock : Timestamp) : Safe createHash algorithm (Sweeps.empty clock) :=
  ⟨fun _ => ⟨none, 1, trivial, fun _ => ⟨rfl, rfl⟩⟩, by simp [NothingLost, Sweeps.empty], trivial⟩

/-- A step that leaves the table of entries alone keeps what it preserves. -/
theorem Safe.moves {state : Sweeps} (safe : Safe createHash algorithm state) {next : Ledger}
    (preserves : Preserves state.ledger next) (entries : next.entries = state.ledger.entries)
    {stage : SweepStage} (ready : stage.Ready next) :
    Safe createHash algorithm { state with ledger := next, stage } := by
  refine ⟨?_, ?_, ready⟩
  · intro chain
    have sameRows : next.rows chain = state.ledger.rows chain := by
      rw [Ledger.rows, entries, Ledger.rows]
    simpa only [ChainLinked, sameRows] using safe.linked chain
  · intro entry member
    rcases safe.kept entry member with inLedger | archived
    · left
      show entry ∈ next.entries
      rwa [entries]
    · exact Or.inr (archived.preserved preserves)

theorem Safe.stops {state : Sweeps} (safe : Safe createHash algorithm state) :
    Safe createHash algorithm { state with stage := .idle } :=
  safe.moves (Preserves.of_same rfl rfl) rfl trivial

theorem safe_after {state : Sweeps} (safe : Safe createHash algorithm state) {effect : Ledger}
    {stage : SweepStage} (took : ∀ reached : SweepStage, reached.Ready effect →
      Safe createHash algorithm { state with ledger := effect, stage := reached })
    (ready : stage.Ready effect) (outcome : Outcome) :
    Safe createHash algorithm (state.after effect stage outcome) := by
  cases outcome with
  | returns => exact took stage ready
  | throws tookEffect =>
      cases tookEffect with
      | true => exact took .idle trivial
      | false => exact safe.stops

/-! What each step keeps. -/

theorem safe_append {state : Sweeps} (safe : Safe createHash algorithm state)
    (idle : state.stage = .idle) {draft : AuditEntryDraft} {ids : Nat → JsString}
    {entry : AuditEntry} {next : Ledger}
    (appended : appendWithRetry createHash algorithm state.ledger ids draft = .ok (entry, next)) :
    Safe createHash algorithm
      { state with ledger := next, appended := state.appended ++ [entry] } := by
  obtain ⟨rfl, draftEq, seqEq, previousEq, recomputed⟩ := appendWithRetry_ok appended
  have preserves : Preserves state.ledger
      { state.ledger with entries := state.ledger.entries ++ [entry] } := Preserves.of_same rfl rfl
  refine ⟨?_, ?_, by simp [idle, SweepStage.Ready]⟩
  · intro chain
    simp only [ChainLinked, rows_snoc]
    obtain ⟨start, position, linked, opening⟩ := safe.linked chain
    by_cases inChain : entry.chain = chain
    · rw [← draftEq, inChain] at seqEq previousEq
      refine ⟨start, position, ?_, by simp [inChain]⟩
      rw [if_pos inChain]
      exact Linked.append linked opening seqEq previousEq recomputed
    · rw [if_neg inChain, List.append_nil]
      exact ⟨start, position, linked, opening⟩
  · intro other member
    rcases List.mem_append.mp member with earlier | newest
    · rcases safe.kept other earlier with inLedger | archived
      · exact Or.inl (List.mem_append_left _ inLedger)
      · exact Or.inr (archived.preserved preserves)
    · exact Or.inl (List.mem_append_right _ newest)

theorem ready_readBounds (ledger : Ledger) {task : SweepTask}
    (archives : task.config.archiveBeforeDelete = true) :
    (readBounds ledger task).Ready ledger := by
  simp only [readBounds, archives, if_true]
  split
  · trivial
  · rename_i first firstRead
    split
    · trivial
    · split
      · trivial
      · split
        · trivial
        · rename_i boundary found
          exact ⟨firstRead, List.mem_of_find?_eq_some found⟩

theorem exported_eq {ledger : Ledger} {chain : ChainKey}
    (linked : ChainLinked createHash algorithm ledger chain) {first : Int}
    (firstRead : firstSeq ledger chain = some first) (bound : Int) :
    iterateChainRange ledger chain (first - 1) (some bound) =
      (ledger.rows chain).filter fun entry => decide (entry.seq ≤ bound) := by
  obtain ⟨start, position, chainLinked, _⟩ := linked
  by_cases empty : ledger.rows chain = []
  · simp [firstSeq, empty] at firstRead
  · rw [firstSeq_linked chainLinked empty] at firstRead
    rw [← Option.some.inj firstRead]
    exact iterateChainRange_linked chainLinked bound

theorem safe_write {archiveDir : JsString} {state : Sweeps}
    (safe : Safe createHash algorithm state) {task : SweepTask} {first : Int}
    {boundary : AuditEntry} (stage : state.stage = .bounded task first boundary)
    (outcome : WriteOutcome) :
    Safe createHash algorithm (writeStep archiveDir state task first boundary outcome) := by
  have ready := safe.ready
  rw [stage] at ready
  have opened {storageRef : JsString} {format : AuditExportFormat} {entries : List AuditEntry}
      {next : Ledger} (written : writeFile state.ledger storageRef format entries = some next)
      {reached : SweepStage} (reachedReady : reached.Ready next) :
      Safe createHash algorithm { state with ledger := next, stage := reached } := by
    refine safe.moves (Preserves.writeFile written) ?_ reachedReady
    unfold writeFile at written
    split at written
    · simp at written
    · obtain rfl := Option.some.inj written
      rfl
  cases outcome with
  | returns =>
      simp only [writeStep]
      split
      · rename_i next written
        refine opened written ⟨?_, ?_, ?_⟩
        · rw [firstSeq, rows_writeFile written]
          exact ready.1
        · rw [rows_writeFile written]
          exact ready.2
        · rw [fileContent_writeFile written, rows_writeFile written]
          exact exported_eq (safe.linked task.chain) ready.1 boundary.seq
      · exact safe.stops
  | throws written =>
      cases written with
      | none => exact safe.stops
      | some count =>
          simp only [writeStep]
          split
          · rename_i next written
            exact opened written trivial
          · exact safe.stops

/-- The archive row that a sweep records holds every row up to its bound. -/
theorem holds_recorded {ledger : Ledger} {task : SweepTask} {first : Int} {boundary : AuditEntry}
    {storageRef : JsString} (linked : ChainLinked createHash algorithm ledger task.chain)
    (ready : (SweepStage.written task first boundary storageRef).Ready ledger)
    {format : AuditExportFormat} {entryCount : Int} {row : AuditEntry}
    (member : row ∈ ledger.rows task.chain) (upTo : row.seq ≤ boundary.seq) :
    (toArchive ledger task.chain format first boundary.seq entryCount storageRef
      boundary.hash).Holds ledger row := by
  obtain ⟨firstRead, boundaryMember, contentEq⟩ := ready
  obtain ⟨start, position, chainLinked, _⟩ := linked
  have increasing := linked_increasing chainLinked
  have inContent {entry : AuditEntry} : entry ∈ fileContent ledger storageRef ↔
      entry ∈ ledger.rows task.chain ∧ entry.seq ≤ boundary.seq := by
    rw [contentEq, List.mem_filter, decide_eq_true_eq]
  have nonempty : ledger.rows task.chain ≠ [] := List.ne_nil_of_mem member
  have firstPosition : position = first :=
    Option.some.inj ((firstSeq_linked chainLinked nonempty).symm.trans firstRead)
  constructor
  · exact (mem_rows.mp member).2.symm
  · rw [toArchive, ← firstPosition]
    exact (chainLinked.seq_bounds _ member).1
  · exact upTo
  · exact inContent.mpr ⟨member, upTo⟩
  · refine ⟨boundary, inContent.mpr ⟨boundaryMember, le_refl _⟩, ?_, rfl, rfl⟩
    exact (mem_rows.mp boundaryMember).2
  · intro last lastMember _ lastSeq
    have same : last = boundary :=
      increasing.unique _ (inContent.mp lastMember).1 boundaryMember lastSeq
    rw [same]
    rfl

theorem safe_createArchive {state : Sweeps} (safe : Safe createHash algorithm state)
    {task : SweepTask} {first : Int} {boundary : AuditEntry} {storageRef : JsString}
    (stage : state.stage = .written task first boundary storageRef)
    (format : AuditExportFormat) (entryCount : Int) (outcome : Outcome) :
    Safe createHash algorithm (state.after (createArchive state.ledger (toArchive state.ledger
      task.chain format first boundary.seq entryCount storageRef boundary.hash))
        (.recorded task boundary.seq) outcome) := by
  have ready := safe.ready
  rw [stage] at ready
  have preserves := Preserves.createArchive state.ledger (toArchive state.ledger task.chain format
    first boundary.seq entryCount storageRef boundary.hash)
  refine safe_after safe (fun reached => safe.moves preserves rfl) ?_ outcome
  refine ⟨boundary, ready.2.1, rfl, ?_⟩
  intro row member upTo
  have holds : (toArchive state.ledger task.chain format first boundary.seq entryCount storageRef
      boundary.hash).Holds state.ledger row :=
    holds_recorded (safe.linked task.chain) ready member upTo
  exact ⟨_, List.mem_append_right _ List.mem_cons_self, holds.preserved preserves⟩

theorem linked_pruneUpTo {ledger : Ledger} {chain : ChainKey}
    (linked : ∀ other, ChainLinked createHash algorithm ledger other) {boundary : AuditEntry}
    (member : boundary ∈ ledger.rows chain) (other : ChainKey) :
    ChainLinked createHash algorithm (pruneUpTo ledger chain boundary.seq).2 other := by
  rw [ChainLinked, rows_pruneUpTo]
  by_cases same : other = chain
  · subst same
    rw [if_pos rfl]
    obtain ⟨start, position, chainLinked, _⟩ := linked other
    have later := (chainLinked.cut _ member).2
    cases left : (ledger.rows other).filter fun entry => decide (boundary.seq < entry.seq) with
    | nil => exact ⟨none, 1, trivial, fun _ => ⟨rfl, rfl⟩⟩
    | cons first rest =>
        refine ⟨some boundary.hash, boundary.seq + 1, ?_, by simp⟩
        rw [← left]
        exact later
  · rw [if_neg same]
    exact linked other

theorem safe_pruneUpTo {state : Sweeps} (safe : Safe createHash algorithm state)
    {task : SweepTask} {bound : Int} (stage : state.stage = .emitted task bound)
    (outcome : Outcome) :
    Safe createHash algorithm
      (state.after (pruneUpTo state.ledger task.chain bound).2 .idle outcome) := by
  have ready := safe.ready
  rw [stage] at ready
  obtain ⟨boundary, member, rfl, archived⟩ := ready
  have preserves : Preserves state.ledger (pruneUpTo state.ledger task.chain boundary.seq).2 :=
    Preserves.of_same rfl rfl
  have idle : SweepStage.idle.Ready (pruneUpTo state.ledger task.chain boundary.seq).2 := trivial
  refine safe_after safe (fun reached ready => ?_) idle outcome
  refine ⟨linked_pruneUpTo safe.linked member, ?_, ready⟩
  intro entry entryMember
  rcases safe.kept entry entryMember with inLedger | inArchive
  · by_cases pruned : entry.chain = task.chain ∧ entry.seq ≤ boundary.seq
    · have row := mem_rows.mpr ⟨inLedger, pruned.1⟩
      exact Or.inr ((archived entry row pruned.2).preserved preserves)
    · left
      refine List.mem_filter.mpr ⟨inLedger, ?_⟩
      simpa [imp_iff_not_or] using pruned
  · exact Or.inr (inArchive.preserved preserves)

theorem safe_step {archiveDir : JsString} {state next : Sweeps} {step : SweepStep}
    (safe : Safe createHash algorithm state)
    (archives : ∀ task, step = .start task → task.config.archiveBeforeDelete = true)
    (taken : sweepStep createHash algorithm archiveDir state step = some next) :
    Safe createHash algorithm next := by
  cases step with
  | append draft ids =>
      simp only [sweepStep] at taken
      split at taken
      · rename_i entry written idle appended
        exact Option.some.inj taken ▸ safe_append safe idle appended
      · simp at taken
  | pass elapsed =>
      obtain rfl := Option.some.inj taken
      have preserves : Preserves state.ledger
          { state.ledger with clock := state.ledger.clock + elapsed } := Preserves.of_same rfl rfl
      exact safe.moves preserves rfl (safe.ready.preserved preserves rfl)
  | start task =>
      simp only [sweepStep] at taken
      split at taken
      · refine Option.some.inj taken ▸ safe.moves (Preserves.of_same rfl rfl) rfl ?_
        exact ready_readBounds state.ledger (archives task rfl)
      · simp at taken
  | write outcome =>
      simp only [sweepStep] at taken
      split at taken
      · rename_i task first boundary stage
        exact Option.some.inj taken ▸ safe_write safe stage outcome
      · simp at taken
  | createArchive outcome =>
      simp only [sweepStep] at taken
      split at taken
      · rename_i task first boundary storageRef stage
        exact Option.some.inj taken ▸ safe_createArchive safe stage _ _ outcome
      · simp at taken
  | emit outcome =>
      simp only [sweepStep] at taken
      split at taken
      · rename_i task bound stage
        have ready := safe.ready
        rw [stage] at ready
        have ready : (SweepStage.emitted task bound).Ready state.ledger := ready
        exact Option.some.inj taken ▸ safe_after safe
          (fun reached => safe.moves (Preserves.of_same rfl rfl) rfl) ready outcome
      · simp at taken
  | pruneUpTo outcome =>
      simp only [sweepStep] at taken
      split at taken
      · rename_i task bound stage
        exact Option.some.inj taken ▸ safe_pruneUpTo safe stage outcome
      · simp at taken

variable (createHash algorithm)

/-- A sweep that returns is a run in which every statement returns. -/
theorem sweepChain_run {archiveDir : JsString} {state : Sweeps} (idle : state.stage = .idle)
    {task : SweepTask} {count : Nat} {next : Ledger}
    (swept : sweepChain state.ledger archiveDir task.chain task.now task.config =
      .ok (count, next)) :
    ∃ steps, StepMachine.run (sweepStep createHash algorithm archiveDir) state steps =
      some { state with ledger := next } := by
  obtain ⟨ledger, stage, appended⟩ := state
  subst idle
  simp only [sweepChain] at swept
  split at swept
  · rename_i none
    obtain rfl := (Prod.mk.inj (Except.ok.inj swept)).2
    exact ⟨[.start task], by simp [StepMachine.run, sweepStep, readBounds, none]⟩
  · rename_i first firstRead
    split at swept
    · simp at swept
    · rename_i bound computed
      have computed : pruneBound (firstSeqAtOrAfter ledger task.chain task.cutoff)
        (findLast ledger task.chain) = .ok bound := computed
      split at swept
      · rename_i below
        obtain rfl := (Prod.mk.inj (Except.ok.inj swept)).2
        refine ⟨[.start task], ?_⟩
        simp [StepMachine.run, sweepStep, readBounds, firstRead, computed, below]
      · rename_i reached
        split at swept
        · rename_i archives
          simp only [archiveRange] at swept
          split at swept
          · simp at swept
          · rename_i archived done
            obtain rfl := (Prod.mk.inj (Except.ok.inj swept)).2
            split at done
            · simp at done
            · rename_i boundary found
              obtain rfl : boundary.seq = bound := by simpa using List.find?_some found
              split at done
              · simp at done
              · rename_i written writeOk
                obtain rfl := Except.ok.inj done
                refine ⟨[.start task, .write .returns, .createArchive .returns, .emit .returns,
                  .pruneUpTo .returns], ?_⟩
                simp only [StepMachine.run, sweepStep, readBounds, firstRead, computed,
                  if_neg reached, if_pos archives, found, writeStep, writeOk, Sweeps.after,
                  Option.bind_some]
                rfl
        · rename_i plain
          obtain rfl := (Prod.mk.inj (Except.ok.inj swept)).2
          refine ⟨[.start task, .pruneUpTo .returns], ?_⟩
          simp only [StepMachine.run, sweepStep, readBounds, firstRead, computed, if_neg reached,
            if_neg plain, Sweeps.after, Option.bind_some]
          rfl

/-- Along every run of appends and archiving sweeps, wherever the sweeps throw and however often
they are tried again, every entry ever appended is in the ledger or in an archive. -/
theorem nothingLost_always (archiveDir : JsString) (clock : Timestamp) {steps : List SweepStep}
    (archives : ∀ task, SweepStep.start task ∈ steps → task.config.archiveBeforeDelete = true) :
    StepMachine.Always (sweepStep createHash algorithm archiveDir) NothingLost
      (Sweeps.empty clock) steps := by
  have archiving : ∀ step ∈ steps, ∀ task, step = .start task →
      task.config.archiveBeforeDelete = true := by
    rintro step member task rfl
    exact archives task member
  have guarded := StepMachine.guarded_of_forall (sweepStep createHash algorithm archiveDir)
    (fun step member _ => archiving step member) (Sweeps.empty clock)
  have initial : Safe createHash algorithm (Sweeps.empty clock) := safe_empty clock
  have safe := StepMachine.always_of_guarded (sweepStep createHash algorithm archiveDir)
    (fun _ _ _ safe met taken => safe_step safe met taken)
    initial guarded
  exact safe.mono _ fun _ safe => safe.kept

end

/-! One entry, and a sweep of every day: the first stops in the middle of the file, the second does
not hear that its archive was recorded, the third runs to its end. -/

def dailySweep (day : Int) : SweepTask :=
  { chain := (.guild, some (js "7")), now := day * dayMs, config := archiveFirst }

def interruptedSweeps : List SweepStep :=
  [.append (guildDraft 0) fun _ => js "x",
    .start (dailySweep 45), .write (.throws (some 0)),
    .start (dailySweep 46), .write .returns, .createArchive (.throws true),
    .start (dailySweep 47), .write .returns, .createArchive .returns, .emit .returns,
    .pruneUpTo .returns]

theorem interruptedSweeps_lose_nothing :
    StepMachine.Always (sweepStep (fun _ text => text) .sha256 (js "/archives")) NothingLost
        (Sweeps.empty 0) interruptedSweeps ∧
      ((StepMachine.run (sweepStep (fun _ text => text) .sha256 (js "/archives"))
        (Sweeps.empty 0) interruptedSweeps).map fun state =>
          (state.ledger.entries.length, state.ledger.archives.length,
            state.ledger.files.length)) = some (0, 2, 3) := by
  refine ⟨nothingLost_always _ _ _ 0 ?_, by decide +kernel⟩
  intro task member
  simp only [interruptedSweeps, List.mem_cons, SweepStep.start.injEq, reduceCtorEq,
    List.not_mem_nil, or_false, false_or] at member
  rcases member with rfl | rfl | rfl <;> rfl

end Audit
