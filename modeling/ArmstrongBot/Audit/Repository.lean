import ArmstrongBot.Audit.Chain
import ArmstrongBot.Library.Keyset

/-! The tables behind the audit module, the archive files, and the queries of
`infrastructure/audit.repository.ts` and `infrastructure/audit-archive.store.ts`. -/

namespace Audit

open JsText
open Calendar (Timestamp)

inductive AuditExportFormat
  | json
  | ndjson
  | csv
  deriving DecidableEq

def AuditExportFormat.text : AuditExportFormat → JsString
  | .json => js "json"
  | .ndjson => js "ndjson"
  | .csv => js "csv"

structure AuditArchive where
  scope : AuditScope
  guildId : Option JsString
  format : AuditExportFormat
  fromSeq : Int
  toSeq : Int
  entryCount : Int
  storageRef : JsString
  rootHash : JsString
  createdAt : Timestamp
  deriving DecidableEq

def AuditArchive.chain (archive : AuditArchive) : ChainKey := (archive.scope, archive.guildId)

structure ArchiveFile where
  storageRef : JsString
  format : AuditExportFormat
  entries : List AuditEntry
  deriving DecidableEq

/-- The tables `audit_entries` and `audit_archives`, rows in the order they were written, the
archive files, and the clock that dates new rows. -/
structure Ledger where
  entries : List AuditEntry
  archives : List AuditArchive
  files : List ArchiveFile
  clock : Timestamp
  deriving DecidableEq

def Ledger.empty (clock : Timestamp) : Ledger :=
  { entries := [], archives := [], files := [], clock }

def Ledger.rows (ledger : Ledger) (chain : ChainKey) : List AuditEntry :=
  ledger.entries.filter fun entry => entry.chain == chain

inductive AppendError
  | unreachable
  | seqConflict (scope : AuditScope) (guildId : Option JsString) (seq : Int)
  deriving DecidableEq

/-- The unique indexes: the id, the hash, and (scope, guildId, seq), which does not bind rows
whose `guildId` is null. -/
def violatesUnique (row entry : AuditEntry) : Bool :=
  row.id == entry.id || row.hash == entry.hash ||
    (entry.guildId.isSome && row.chain == entry.chain && row.seq == entry.seq)

def toEntry (ledger : Ledger) (id : JsString) (draft : AuditEntryDraft) (seq : Int)
    (previousHash : Option JsString) (hash : JsString) : AuditEntry :=
  { draft with id, seq, previousHash, hash, createdAt := ledger.clock }

def append (ledger : Ledger) (id : JsString) (draft : AuditEntryDraft) (seq : Int)
    (previousHash : Option JsString) (hash : JsString) : Except AppendError (AuditEntry × Ledger) :=
  let entry := toEntry ledger id draft seq previousHash hash
  if ledger.entries.any fun row => violatesUnique row entry then
    .error (.seqConflict draft.scope draft.guildId seq)
  else .ok (entry, { ledger with entries := ledger.entries ++ [entry] })

def findLast (ledger : Ledger) (chain : ChainKey) : Option AuditEntry :=
  (ledger.rows chain).argmax AuditEntry.seq

def firstSeq (ledger : Ledger) (chain : ChainKey) : Option Int :=
  ((ledger.rows chain).argmin AuditEntry.seq).map AuditEntry.seq

def findBySeq (ledger : Ledger) (chain : ChainKey) (seq : Int) : Option AuditEntry :=
  (ledger.rows chain).find? fun entry => entry.seq == seq

def firstSeqAtOrAfter (ledger : Ledger) (chain : ChainKey) (cutoff : Timestamp) : Option Int :=
  (((ledger.rows chain).filter fun entry => decide (cutoff ≤ entry.occurredAt)).argmin
    AuditEntry.seq).map AuditEntry.seq

def findAnchor (ledger : Ledger) (chain : ChainKey) (toSeq : Int) : Option ChainAnchor :=
  ((ledger.archives.filter fun archive => archive.chain == chain && archive.toSeq == toSeq).argmax
    AuditArchive.createdAt).map fun archive =>
      { toSeq := archive.toSeq, rootHash := archive.rootHash }

def exportBatch : Nat := 500

/-- The entries with a sequence number in `(afterSeq, upToSeq]`, read in pages. -/
def iterateChainRange (ledger : Ledger) (chain : ChainKey) (afterSeq : Int) (upToSeq : Option Int) :
    List AuditEntry :=
  let selected := match upToSeq with
    | none => ledger.rows chain
    | some upTo => (ledger.rows chain).filter fun entry => decide (entry.seq ≤ upTo)
  Keyset.pages AuditEntry.seq exportBatch selected (selected.length + 1) afterSeq

def iterateChain (ledger : Ledger) (chain : ChainKey) : List AuditEntry :=
  iterateChainRange ledger chain 0 none

def toArchive (ledger : Ledger) (chain : ChainKey) (format : AuditExportFormat)
    (fromSeq toSeq entryCount : Int) (storageRef rootHash : JsString) : AuditArchive :=
  { scope := chain.1, guildId := chain.2, format, fromSeq, toSeq, entryCount, storageRef, rootHash,
    createdAt := ledger.clock }

/-- The row is dated by the database; the next statement runs at a later time. -/
def createArchive (ledger : Ledger) (archive : AuditArchive) : Ledger :=
  { ledger with archives := ledger.archives ++ [archive], clock := ledger.clock + 1 }

def pruneUpTo (ledger : Ledger) (chain : ChainKey) (toSeq : Int) : Nat × Ledger :=
  let kept := ledger.entries.filter fun entry => !(entry.chain == chain && decide (entry.seq ≤ toSeq))
  (ledger.entries.length - kept.length, { ledger with entries := kept })

/-- `AuditArchiveStore.write`, which opens the file with the flag `wx`: a file that is there is
never overwritten. -/
def writeFile (ledger : Ledger) (storageRef : JsString) (format : AuditExportFormat)
    (entries : List AuditEntry) : Option Ledger :=
  if ledger.files.any fun file => file.storageRef == storageRef then none
  else some { ledger with files := ledger.files ++ [{ storageRef, format, entries }] }

/-! What the statements do to the rows of each chain. -/

@[simp] theorem toEntry_chain (ledger : Ledger) (id : JsString) (draft : AuditEntryDraft) (seq : Int)
    (previousHash : Option JsString) (hash : JsString) :
    (toEntry ledger id draft seq previousHash hash).chain = draft.chain := rfl

theorem mem_rows {ledger : Ledger} {chain : ChainKey} {entry : AuditEntry} :
    entry ∈ ledger.rows chain ↔ entry ∈ ledger.entries ∧ entry.chain = chain := by
  simp [Ledger.rows]

theorem append_ok_iff {ledger next : Ledger} {id : JsString} {draft : AuditEntryDraft} {seq : Int}
    {previousHash : Option JsString} {hash : JsString} {entry : AuditEntry} :
    append ledger id draft seq previousHash hash = .ok (entry, next) ↔
      (∀ row ∈ ledger.entries, violatesUnique row entry = false) ∧
        entry = toEntry ledger id draft seq previousHash hash ∧
        next = { ledger with entries := ledger.entries ++ [entry] } := by
  unfold append
  simp only []
  split
  · rename_i conflict
    simp only [reduceCtorEq, false_iff]
    rintro ⟨free, rfl, _⟩
    obtain ⟨row, member, violated⟩ := List.any_eq_true.mp conflict
    rw [free row member] at violated
    exact absurd violated (by decide)
  · rename_i free
    simp only [Bool.not_eq_true, List.any_eq_false] at free
    rw [Except.ok.injEq, Prod.mk.injEq]
    constructor
    · rintro ⟨rfl, rfl⟩
      exact ⟨fun row member => by simpa using free row member, rfl, rfl⟩
    · rintro ⟨_, rfl, rfl⟩
      exact ⟨rfl, rfl⟩

@[simp] theorem rows_snoc (ledger : Ledger) (entry : AuditEntry) (chain : ChainKey) :
    Ledger.rows { ledger with entries := ledger.entries ++ [entry] } chain =
      ledger.rows chain ++ if entry.chain = chain then [entry] else [] := by
  by_cases same : entry.chain = chain <;> simp [Ledger.rows, same]

@[simp] theorem rows_createArchive (ledger : Ledger) (archive : AuditArchive) (chain : ChainKey) :
    (createArchive ledger archive).rows chain = ledger.rows chain := rfl

theorem rows_writeFile {ledger next : Ledger} {storageRef : JsString} {format : AuditExportFormat}
    {entries : List AuditEntry} (written : writeFile ledger storageRef format entries = some next)
    (chain : ChainKey) : next.rows chain = ledger.rows chain := by
  unfold writeFile at written
  split at written
  · simp at written
  · obtain rfl := Option.some.inj written
    rfl

theorem rows_pruneUpTo (ledger : Ledger) (chain other : ChainKey) (toSeq : Int) :
    (pruneUpTo ledger chain toSeq).2.rows other =
      if other = chain then (ledger.rows other).filter fun entry => decide (toSeq < entry.seq)
      else ledger.rows other := by
  simp only [pruneUpTo, Ledger.rows, List.filter_filter]
  split
  · rename_i same
    subst same
    apply List.filter_congr
    intro entry _
    have flip : decide (toSeq < entry.seq) = !decide (entry.seq ≤ toSeq) := by
      rw [← decide_not]
      exact decide_eq_decide.mpr Int.not_le.symm
    cases entry.chain == other <;> simp [flip]
  · rename_i apart
    apply List.filter_congr
    intro entry _
    by_cases inChain : entry.chain = other
    · simp [inChain, apart]
    · simp [beq_false_of_ne inChain]

section

variable {ledger : Ledger} {chain : ChainKey}

theorem findLast_eq (increasing : Keyset.Increasing AuditEntry.seq (ledger.rows chain)) :
    findLast ledger chain = (ledger.rows chain).getLast? :=
  Keyset.argmax_eq_getLast? _ increasing

theorem firstSeq_eq (increasing : Keyset.Increasing AuditEntry.seq (ledger.rows chain)) :
    firstSeq ledger chain = (ledger.rows chain).head?.map AuditEntry.seq := by
  rw [firstSeq, Keyset.argmin_eq_head? _ increasing]

theorem iterateChain_eq (increasing : Keyset.Increasing AuditEntry.seq (ledger.rows chain))
    (positive : ∀ entry ∈ ledger.rows chain, 0 < entry.seq) :
    iterateChain ledger chain = ledger.rows chain := by
  have everything : (ledger.rows chain).filter (fun entry => decide (0 < entry.seq)) =
      ledger.rows chain := by
    rw [List.filter_eq_self]
    simpa using positive
  simp only [iterateChain, iterateChainRange]
  rw [Keyset.pages_eq _ (by decide) increasing, everything]
  rw [everything]
  omega

end

end Audit
