import ArmstrongBot.Audit.Repository

/-! `RetentionService.sweepChain` of `domain/retention.service.ts`, run without another writer
between its statements. -/

namespace Audit

open JsText
open Calendar (Timestamp toISOString)

def dayMs : Int := 24 * 60 * 60 * 1000

/-- The retention policy of a guild, within the bounds that its schema checks. -/
structure AuditGuildConfig where
  retentionDays : Int
  archiveBeforeDelete : Bool
  archiveFormat : AuditExportFormat
  longEnough : 30 ≤ retentionDays
  shortEnough : retentionDays ≤ 3650

def computeCutoff (now : Timestamp) (retentionDays : Int) : Timestamp := now - retentionDays * dayMs

inductive SweepError
  | missingLast
  | boundaryVanished (seq : Int)
  | fileExists (storageRef : JsString)
  deriving DecidableEq

/-- The bound below which everything is pruned. `last!.seq` throws where there is no last row. -/
def pruneBound (firstRetained : Option Int) (last : Option AuditEntry) : Except SweepError Int :=
  match firstRetained with
  | some seq => .ok (seq - 1)
  | none => match last with
    | some entry => .ok entry.seq
    | none => .error .missingLast

def scopeDirectory : AuditScope → JsString
  | .guild => js "guild"
  | .global => js "global"

def archivePath (archiveDir : JsString) (chain : ChainKey) (now : Timestamp) (firstSeq bound : Int)
    (format : AuditExportFormat) : JsString :=
  archiveDir ++ js "/" ++ scopeDirectory chain.1 ++ js "/" ++ chain.2.getD (js "global") ++ js "/" ++
    (toISOString now).take 10 ++ js "-" ++ intText firstSeq ++ js "-" ++ intText bound ++ js "." ++
    format.text

/-- The archiving half of a sweep: the file first, then the row that points to it. -/
def archiveRange (ledger : Ledger) (archiveDir : JsString) (chain : ChainKey) (now : Timestamp)
    (format : AuditExportFormat) (firstSeq bound : Int) : Except SweepError Ledger :=
  match findBySeq ledger chain bound with
  | none => .error (.boundaryVanished bound)
  | some boundary =>
      let storageRef := archivePath archiveDir chain now firstSeq bound format
      let exported := iterateChainRange ledger chain (firstSeq - 1) (some bound)
      match writeFile ledger storageRef format exported with
      | none => .error (.fileExists storageRef)
      | some written => .ok (createArchive written (toArchive written chain format firstSeq bound
          (bound - firstSeq + 1) storageRef boundary.hash))

def sweepChain (ledger : Ledger) (archiveDir : JsString) (chain : ChainKey) (now : Timestamp)
    (config : AuditGuildConfig) : Except SweepError (Nat × Ledger) :=
  let cutoff := computeCutoff now config.retentionDays
  match firstSeq ledger chain with
  | none => .ok (0, ledger)
  | some first =>
      match pruneBound (firstSeqAtOrAfter ledger chain cutoff) (findLast ledger chain) with
      | .error error => .error error
      | .ok bound =>
          if bound < first then .ok (0, ledger)
          else if config.archiveBeforeDelete then
            match archiveRange ledger archiveDir chain now config.archiveFormat first bound with
            | .error error => .error error
            | .ok archived => .ok (pruneUpTo archived chain bound)
          else .ok (pruneUpTo ledger chain bound)

/-! What a sweep of a chain does, once the rows of the chain are linked. -/

/-- The rows before the first one inside the retention window. -/
def expired (cutoff : Timestamp) (rows : List AuditEntry) : List AuditEntry :=
  rows.takeWhile fun entry => decide (entry.occurredAt < cutoff)

def retained (cutoff : Timestamp) (rows : List AuditEntry) : List AuditEntry :=
  rows.dropWhile fun entry => decide (entry.occurredAt < cutoff)

theorem expired_append_retained (cutoff : Timestamp) (rows : List AuditEntry) :
    expired cutoff rows ++ retained cutoff rows = rows := List.takeWhile_append_dropWhile

theorem expired_old {cutoff : Timestamp} {rows : List AuditEntry} {entry : AuditEntry}
    (member : entry ∈ expired cutoff rows) : entry.occurredAt < cutoff := by
  simpa using List.mem_takeWhile_imp member

theorem retained_head {cutoff : Timestamp} {rows rest : List AuditEntry} {first : AuditEntry}
    (head : retained cutoff rows = first :: rest) : cutoff ≤ first.occurredAt := by
  have kept := List.head?_dropWhile_not (fun entry => decide (entry.occurredAt < cutoff)) rows
  rw [show rows.dropWhile (fun entry => decide (entry.occurredAt < cutoff)) = first :: rest from head]
    at kept
  simpa using kept

section

variable {createHash : HashAlgorithm → JsString → JsString} {algorithm : HashAlgorithm}
  {ledger : Ledger} {chain : ChainKey} {start : Option JsString} {position : Int}
  (linked : HashChain.Linked (link createHash algorithm) start position (ledger.rows chain))

include linked

theorem linked_increasing : Keyset.Increasing AuditEntry.seq (ledger.rows chain) := linked.increasing

theorem linked_parts (cutoff : Timestamp) :
    HashChain.Linked (link createHash algorithm) start position (expired cutoff (ledger.rows chain)) ∧
      HashChain.Linked (link createHash algorithm)
        (HashChain.tip (link createHash algorithm) start (expired cutoff (ledger.rows chain)))
        (position + (expired cutoff (ledger.rows chain)).length)
        (retained cutoff (ledger.rows chain)) := by
  rw [← HashChain.linked_append, expired_append_retained]
  exact linked

theorem firstSeqAtOrAfter_eq (cutoff : Timestamp) :
    firstSeqAtOrAfter ledger chain cutoff =
      (retained cutoff (ledger.rows chain)).head?.map AuditEntry.seq := by
  have increasing := (linked_increasing linked).filter _ fun entry => decide (cutoff ≤ entry.occurredAt)
  rw [firstSeqAtOrAfter, Keyset.argmin_eq_head? _ increasing, List.head?_filter, retained,
    List.find?_eq_head?_dropWhile_not]
  congr 3
  funext entry
  rw [← decide_not]
  exact decide_eq_decide.mpr Int.not_le

theorem pruneBound_eq (cutoff : Timestamp) (nonempty : ledger.rows chain ≠ []) :
    pruneBound (firstSeqAtOrAfter ledger chain cutoff) (findLast ledger chain) =
      .ok (position + (expired cutoff (ledger.rows chain)).length - 1) := by
  rw [firstSeqAtOrAfter_eq linked, findLast_eq (linked_increasing linked)]
  have parts := expired_append_retained cutoff (ledger.rows chain)
  have later := (linked_parts linked cutoff).2
  cases kept : retained cutoff (ledger.rows chain) with
  | nil =>
      rw [kept, List.append_nil] at parts
      cases ending : (ledger.rows chain).getLast? with
      | none => exact absurd (List.getLast?_eq_none_iff.mp ending) nonempty
      | some last =>
          have lastSeq : last.seq = position + (ledger.rows chain).length - 1 :=
            linked.seq_last _ ending
          simp [pruneBound, lastSeq, parts]
  | cons first rest =>
      rw [kept] at later
      have firstSeq : first.seq = position + (expired cutoff (ledger.rows chain)).length := later.1
      simp [pruneBound, firstSeq]

theorem filter_above (cutoff : Timestamp) :
    (ledger.rows chain).filter (fun entry =>
        decide (position + (expired cutoff (ledger.rows chain)).length - 1 < entry.seq)) =
      retained cutoff (ledger.rows chain) := by
  have parts := expired_append_retained cutoff (ledger.rows chain)
  have above := HashChain.filter_above (link createHash algorithm) (parts.symm ▸ linked)
  rwa [parts] at above

theorem filter_upTo (cutoff : Timestamp) :
    (ledger.rows chain).filter (fun entry =>
        decide (entry.seq ≤ position + (expired cutoff (ledger.rows chain)).length - 1)) =
      expired cutoff (ledger.rows chain) := by
  have parts := expired_append_retained cutoff (ledger.rows chain)
  have upTo := HashChain.filter_upTo (link createHash algorithm) (parts.symm ▸ linked)
  rwa [parts] at upTo

theorem firstSeq_linked (nonempty : ledger.rows chain ≠ []) : firstSeq ledger chain = some position := by
  rw [firstSeq_eq (linked_increasing linked)]
  cases rows : ledger.rows chain with
  | nil => exact absurd rows nonempty
  | cons first rest =>
      rw [rows] at linked
      exact congrArg some linked.1

theorem boundary_seq {cutoff : Timestamp} {front : List AuditEntry} {boundary : AuditEntry}
    (old : expired cutoff (ledger.rows chain) = front ++ [boundary]) :
    boundary.seq = position + (expired cutoff (ledger.rows chain)).length - 1 :=
  (linked_parts linked cutoff).1.seq_last _ (by simp [old])

theorem findBySeq_boundary {cutoff : Timestamp} {front : List AuditEntry} {boundary : AuditEntry}
    (old : expired cutoff (ledger.rows chain) = front ++ [boundary]) :
    findBySeq ledger chain boundary.seq = some boundary := by
  have member : boundary ∈ ledger.rows chain := by
    rw [← expired_append_retained cutoff (ledger.rows chain), old]
    simp
  cases found : findBySeq ledger chain boundary.seq with
  | none =>
      have absent := List.find?_eq_none.mp found boundary member
      simp at absent
  | some row =>
      have sameSeq : row.seq = boundary.seq := by simpa using List.find?_some found
      rw [(linked_increasing linked).unique _ (List.mem_of_find?_eq_some found) member sameSeq]

theorem iterateChainRange_linked (bound : Int) :
    iterateChainRange ledger chain (position - 1) (some bound) =
      (ledger.rows chain).filter fun entry => decide (entry.seq ≤ bound) := by
  have increasing := (linked_increasing linked).filter _ fun entry => decide (entry.seq ≤ bound)
  have everything : ((ledger.rows chain).filter fun entry => decide (entry.seq ≤ bound)).filter
      (fun entry => decide (position - 1 < entry.seq)) =
        (ledger.rows chain).filter fun entry => decide (entry.seq ≤ bound) := by
    rw [List.filter_eq_self]
    intro entry member
    have bounds : position ≤ entry.seq ∧ _ := linked.seq_bounds _ (List.mem_of_mem_filter member)
    simp only [decide_eq_true_eq]
    omega
  simp only [iterateChainRange]
  rw [Keyset.pages_eq _ (by decide) increasing, everything]
  rw [everything]
  omega

theorem iterateChainRange_expired (cutoff : Timestamp) :
    iterateChainRange ledger chain (position - 1)
        (some (position + (expired cutoff (ledger.rows chain)).length - 1)) =
      expired cutoff (ledger.rows chain) := by
  rw [iterateChainRange_linked linked, filter_upTo linked]

theorem cut_iff (cutoff : Timestamp) (boundary kept : AuditEntry) :
    (∃ front rest, expired cutoff (ledger.rows chain) = front ++ [boundary] ∧
        retained cutoff (ledger.rows chain) = kept :: rest) ↔
      boundary ∈ ledger.rows chain ∧ kept ∈ ledger.rows chain ∧ kept.seq = boundary.seq + 1 ∧
        (∀ row ∈ ledger.rows chain, row.seq ≤ boundary.seq → row.occurredAt < cutoff) ∧
        cutoff ≤ kept.occurredAt := by
  have parts := expired_append_retained cutoff (ledger.rows chain)
  obtain ⟨early, later⟩ := linked_parts linked cutoff
  have split {row : AuditEntry} : row ∈ ledger.rows chain ↔
      row ∈ expired cutoff (ledger.rows chain) ∨ row ∈ retained cutoff (ledger.rows chain) := by
    rw [← List.mem_append, parts]
  have laterSeq {row : AuditEntry} (member : row ∈ retained cutoff (ledger.rows chain)) :
      position + (expired cutoff (ledger.rows chain)).length ≤ row.seq := (later.seq_bounds _ member).1
  constructor
  · rintro ⟨front, rest, old, kept_⟩
    have boundarySeq := boundary_seq linked old
    have keptSeq : kept.seq = position + (expired cutoff (ledger.rows chain)).length := by
      rw [kept_] at later
      exact later.1
    refine ⟨split.mpr (Or.inl (by simp [old])), split.mpr (Or.inr (by simp [kept_])), by omega, ?_,
      retained_head kept_⟩
    intro row member upTo
    rcases split.mp member with inExpired | inRetained
    · exact expired_old inExpired
    · have above := laterSeq inRetained
      omega
  · rintro ⟨boundaryMember, keptMember, follows, allOld, fresh⟩
    have keptRetained : kept ∈ retained cutoff (ledger.rows chain) := by
      rcases split.mp keptMember with inExpired | inRetained
      · exact absurd (expired_old inExpired) (not_lt.mpr fresh)
      · exact inRetained
    cases kept_ : retained cutoff (ledger.rows chain) with
    | nil => simp [kept_] at keptRetained
    | cons first rest =>
        have firstFresh := retained_head kept_
        have firstMember : first ∈ ledger.rows chain := split.mpr (Or.inr (by simp [kept_]))
        have firstSeq : first.seq = position + (expired cutoff (ledger.rows chain)).length := by
          rw [kept_] at later
          exact later.1
        have notBelow : ¬ first.seq ≤ boundary.seq := fun upTo =>
          absurd (allOld first firstMember upTo) (not_lt.mpr firstFresh)
        have keptAbove := laterSeq keptRetained
        have firstIsKept : first = kept :=
          (linked_increasing linked).unique _ firstMember keptMember (by omega)
        have boundaryExpired : boundary ∈ expired cutoff (ledger.rows chain) := by
          rcases split.mp boundaryMember with inExpired | inRetained
          · exact inExpired
          · have above := laterSeq inRetained
            omega
        obtain none | ⟨front, last, old⟩ :=
          List.eq_nil_or_concat' (expired cutoff (ledger.rows chain))
        · simp [none] at boundaryExpired
        · have lastMember : last ∈ ledger.rows chain := split.mpr (Or.inl (by simp [old]))
          have lastSeq := boundary_seq linked old
          have lastIsBoundary : last = boundary :=
            (linked_increasing linked).unique _ lastMember boundaryMember (by omega)
          exact ⟨front, rest, by rw [old, lastIsBoundary], by rw [firstIsKept]⟩

/-- What archiving the expired rows leaves behind: a new file with these rows, and a new archive
that points to it and ends in the last of them. -/
structure Recorded (ledger next : Ledger) (chain : ChainKey) (position : Int)
    (entries : List AuditEntry) (boundary : AuditEntry) (archive : AuditArchive)
    (file : ArchiveFile) : Prop where
  archives : next.archives = ledger.archives ++ [archive]
  files : next.files = ledger.files ++ [file]
  clock : next.clock = ledger.clock + 1
  chainEq : archive.chain = chain
  fromSeq : archive.fromSeq = position
  toSeq : archive.toSeq = boundary.seq
  rootHash : archive.rootHash = boundary.hash
  createdAt : archive.createdAt = ledger.clock
  storageRef : archive.storageRef = file.storageRef
  content : file.entries = entries
  fresh : ∀ other ∈ ledger.files, other.storageRef ≠ file.storageRef

theorem archiveRange_ok {archiveDir : JsString} {now : Timestamp} {format : AuditExportFormat}
    {cutoff : Timestamp} {front : List AuditEntry} {boundary : AuditEntry} {archived : Ledger}
    (old : expired cutoff (ledger.rows chain) = front ++ [boundary])
    (done : archiveRange ledger archiveDir chain now format position boundary.seq = .ok archived) :
    archived.entries = ledger.entries ∧ ∃ archive file, Recorded ledger archived chain position
      (expired cutoff (ledger.rows chain)) boundary archive file := by
  simp only [archiveRange, findBySeq_boundary linked old, writeFile] at done
  split at done
  · simp at done
  · rename_i written writeOk
    split at writeOk
    · simp at writeOk
    · rename_i absent
      obtain rfl := Option.some.inj writeOk
      obtain rfl := Except.ok.inj done
      refine ⟨rfl, _, _, rfl, rfl, rfl, rfl, rfl, rfl, rfl, rfl, rfl, ?_, ?_⟩
      · rw [boundary_seq linked old]
        exact iterateChainRange_expired linked cutoff
      · intro other member same
        refine absent (List.any_eq_true.mpr ⟨other, member, ?_⟩)
        exact beq_iff_eq.mpr same

theorem rows_pruned {cutoff : Timestamp} {front : List AuditEntry} {boundary : AuditEntry}
    (old : expired cutoff (ledger.rows chain) = front ++ [boundary]) {archived : Ledger}
    (sameEntries : archived.entries = ledger.entries) (other : ChainKey) :
    (pruneUpTo archived chain boundary.seq).2.rows other =
      if other = chain then retained cutoff (ledger.rows chain) else ledger.rows other := by
  have sameRows : archived.rows other = ledger.rows other := by
    rw [Ledger.rows, sameEntries, Ledger.rows]
  rw [rows_pruneUpTo, sameRows]
  split
  · rename_i same
    rw [same, boundary_seq linked old]
    exact filter_above linked _
  · rfl

/-- A sweep that returns leaves the ledger alone when no leading row is expired; else it removes
the expired rows, after archiving them where the policy says so. -/
theorem sweepChain_ok {archiveDir : JsString} {now : Timestamp} {config : AuditGuildConfig}
    {count : Nat} {next : Ledger}
    (swept : sweepChain ledger archiveDir chain now config = .ok (count, next)) :
    let cutoff := computeCutoff now config.retentionDays
    (expired cutoff (ledger.rows chain) = [] ∧ next = ledger) ∨
      ∃ front boundary, expired cutoff (ledger.rows chain) = front ++ [boundary] ∧
        (∀ other, next.rows other =
          if other = chain then retained cutoff (ledger.rows chain) else ledger.rows other) ∧
        (config.archiveBeforeDelete = false ∧ next.archives = ledger.archives ∧
            next.files = ledger.files ∧ next.clock = ledger.clock ∨
          config.archiveBeforeDelete = true ∧ ∃ archive file, Recorded ledger next chain position
            (expired cutoff (ledger.rows chain)) boundary archive file) := by
  intro cutoff
  by_cases empty : ledger.rows chain = []
  · have none : firstSeq ledger chain = none := by simp [firstSeq, empty]
    simp only [sweepChain, none] at swept
    obtain ⟨_, rfl⟩ := Prod.mk.inj (Except.ok.inj swept)
    exact Or.inl ⟨by rw [empty]; rfl, rfl⟩
  · simp only [sweepChain, firstSeq_linked linked empty] at swept
    rw [show computeCutoff now config.retentionDays = cutoff from rfl,
      pruneBound_eq linked cutoff empty] at swept
    obtain none | ⟨front, boundary, old⟩ := List.eq_nil_or_concat' (expired cutoff (ledger.rows chain))
    · left
      simp only [none, List.length_nil] at swept
      rw [if_pos (by omega)] at swept
      obtain ⟨_, rfl⟩ := Prod.mk.inj (Except.ok.inj swept)
      exact ⟨none, rfl⟩
    · right
      rw [← boundary_seq linked old] at swept
      have reached : ¬ boundary.seq < position := by
        rw [boundary_seq linked old, old]
        simp only [List.length_append, List.length_singleton]
        omega
      simp only [if_neg reached] at swept
      refine ⟨front, boundary, old, ?_⟩
      split at swept
      · rename_i archives
        split at swept
        · simp at swept
        · rename_i archived done
          obtain ⟨sameEntries, archive, file, recorded⟩ := archiveRange_ok linked old done
          obtain rfl := (Prod.mk.inj (Except.ok.inj swept)).2
          exact ⟨rows_pruned linked old sameEntries, Or.inr ⟨archives, archive, file,
            recorded.archives, recorded.files, recorded.clock, recorded.chainEq, recorded.fromSeq,
            recorded.toSeq, recorded.rootHash, recorded.createdAt, recorded.storageRef,
            recorded.content, recorded.fresh⟩⟩
      · rename_i keeps
        obtain rfl := (Prod.mk.inj (Except.ok.inj swept)).2
        exact ⟨rows_pruned linked old rfl, Or.inl ⟨by simpa using keeps, rfl, rfl, rfl⟩⟩

end

end Audit
