import ArmstrongBot.Audit.Repository
import ArmstrongBot.Library.KeysetScan

/-! The two iterators of `infrastructure/audit.repository.ts` over a table of any size. -/

namespace Audit

open JsText
open Calendar (Timestamp)
open KeysetScan (Keyset Sorting Exhausts Separated scan remaining exhausts_iff_separated)

structure AuditQuery where
  guildId : Option JsString
  scope : Option AuditScope
  actorId : Option JsString
  action : Option JsString
  targetType : Option JsString
  targetId : Option JsString
  correlationId : Option JsString
  source : Option AuditSource
  earliest : Option Timestamp
  latest : Option Timestamp

/-- A text that is given and not empty restricts the column. -/
def restricts (asked : Option JsString) (holds : JsString → Bool) : Bool :=
  match asked with
  | none | some [] => true
  | some text => holds text

/-- An action that ends in a full stop stands for every action it begins. -/
def actionMatches (action asked : JsString) : Bool :=
  if asked.getLast? = some (unit 46) then asked.isPrefixOf action else action == asked

/-- `toWhere`, with the bounds `from` and `to` as `earliest` and `latest`. -/
def toWhere (query : AuditQuery) (row : AuditEntry) : Bool :=
  query.scope.all (fun scope => row.scope == scope) &&
  query.guildId.all (fun guildId => row.guildId == some guildId) &&
  restricts query.actorId (fun actorId => row.actorId == some actorId) &&
  restricts query.targetType (fun targetType => row.targetType == some targetType) &&
  restricts query.targetId (fun targetId => row.targetId == some targetId) &&
  restricts query.correlationId (fun correlationId => row.correlationId == correlationId) &&
  query.source.all (fun source => row.source == source) &&
  restricts query.action (actionMatches row.action) &&
  query.earliest.all (fun earliest => decide (earliest ≤ row.occurredAt)) &&
  query.latest.all (fun latest => decide (row.occurredAt ≤ latest))

/-- The table `audit_entries` under its primary key and the index over (scope, guildId, seq),
which does not bind rows without a guild. -/
structure AuditTable where
  rows : List AuditEntry
  primary : rows.Pairwise fun first second => first.id ≠ second.id
  numbered : rows.Pairwise fun first second =>
    first.guildId ≠ none → first.chain = second.chain → first.seq ≠ second.seq

/-! The order and the cursor of `streamForExport`. -/

structure ExportCursor where
  occurredAt : Timestamp
  id : JsString

/-- `orderBy: [{ occurredAt: 'asc' }, { id: 'asc' }]` -/
def exportOrder (first second : AuditEntry) : Bool :=
  decide (first.occurredAt < second.occurredAt) ||
    (decide (first.occurredAt = second.occurredAt) && decide (first.id ≤ second.id))

def exportResumes (cursor : ExportCursor) (row : AuditEntry) : Bool :=
  decide (cursor.occurredAt < row.occurredAt) ||
    (decide (row.occurredAt = cursor.occurredAt) && decide (cursor.id < row.id))

theorem exportOrder_iff {first second : AuditEntry} : exportOrder first second = true ↔
    first.occurredAt < second.occurredAt ∨
      first.occurredAt = second.occurredAt ∧ first.id ≤ second.id := by
  simp [exportOrder]

theorem exportResumes_iff {cursor : ExportCursor} {row : AuditEntry} :
    exportResumes cursor row = true ↔ cursor.occurredAt < row.occurredAt ∨
      row.occurredAt = cursor.occurredAt ∧ cursor.id < row.id := by
  simp [exportResumes]

def exportKeyset : Keyset AuditEntry ExportCursor :=
  { le := exportOrder
    cursorOf := fun row => { occurredAt := row.occurredAt, id := row.id }
    behind := exportResumes
    total := by
      intro first second
      rw [exportOrder_iff, exportOrder_iff]
      rcases Int.lt_trichotomy first.occurredAt second.occurredAt with earlier | together | later
      · exact Or.inl (Or.inl earlier)
      · exact (le_total first.id second.id).imp (fun below => Or.inr ⟨together, below⟩)
          fun above => Or.inr ⟨together.symm, above⟩
      · exact Or.inr (Or.inl later)
    transitive := by
      intro first second third
      simp only [exportOrder_iff]
      rintro (before | ⟨together, below⟩) (after | ⟨alike, above⟩)
      · exact Or.inl (Int.lt_trans before after)
      · exact Or.inl (alike ▸ before)
      · exact Or.inl (together ▸ after)
      · exact Or.inr ⟨together.trans alike, below.trans above⟩
    resumes := by
      intro last row
      rw [Bool.eq_iff_iff, Bool.not_eq_true', ← Bool.not_eq_true, exportResumes_iff,
        exportOrder_iff, not_or, not_and, not_le]
      constructor
      · rintro (later | ⟨together, above⟩)
        · exact ⟨Int.not_lt.mpr (Int.le_of_lt later), fun alike => absurd alike (Int.ne_of_gt later)⟩
        · exact ⟨Int.not_lt.mpr (Int.le_of_eq together.symm), fun _ => above⟩
      · rintro ⟨notEarlier, above⟩
        rcases Int.lt_or_eq_of_le (Int.not_lt.mp notEarlier) with later | together
        · exact Or.inl later
        · exact Or.inr ⟨together.symm, above together.symm⟩
    onward := by
      intro cursor first later
      simp only [exportResumes_iff, exportOrder_iff]
      rintro (behind | ⟨together, above⟩) (after | ⟨alike, below⟩)
      · exact Or.inl (Int.lt_trans behind after)
      · exact Or.inl (alike ▸ behind)
      · exact Or.inl (together ▸ after)
      · exact Or.inr ⟨alike.symm.trans together, above.trans_le below⟩ }

/-! The order and the cursor of `iterateChainRange`. -/

def chainKeyset : Keyset AuditEntry Int :=
  { le := fun first second => decide (first.seq ≤ second.seq)
    cursorOf := AuditEntry.seq
    behind := fun cursor row => decide (cursor < row.seq)
    total := by
      intro first second
      simp only [decide_eq_true_eq]
      omega
    transitive := by
      intro first second third
      simp only [decide_eq_true_eq]
      omega
    resumes := by
      intro last row
      rw [← decide_not, decide_eq_decide]
      omega
    onward := by
      intro cursor first later
      simp only [decide_eq_true_eq]
      omega }

/-- The rows of a chain up to a sequence number. -/
def segment (rows : List AuditEntry) (chain : ChainKey) (upToSeq : Option Int) : List AuditEntry :=
  rows.filter fun row => row.chain == chain && upToSeq.all fun upTo => decide (row.seq ≤ upTo)

/-! The iterator of the other modules is the one with the batches of the source. -/

def seqSorting : Sorting chainKeyset :=
  { sort := Keyset.sorted AuditEntry.seq
    perm := fun rows => List.perm_insertionSort _ rows
    ordered := fun rows => by
      simpa [chainKeyset, Keyset.sorted] using
        List.pairwise_insertionSort (fun first second => first.seq ≤ second.seq) rows }

theorem yielded_pages {batch : Nat} {rows : List AuditEntry} {start : Option Int} (fuel : Nat) :
    ∀ count cursor,
      (scan (fun _ => seqSorting) batch rows start count).isOver = false →
      (scan (fun _ => seqSorting) batch rows start count).cursor = some cursor →
      (scan (fun _ => seqSorting) batch rows start (count + fuel)).yielded =
        (scan (fun _ => seqSorting) batch rows start count).yielded ++
          Keyset.pages AuditEntry.seq batch rows fuel cursor := by
  induction fuel with
  | zero => simp [Keyset.pages]
  | succ fuel ih =>
      intro count cursor reading at_
      have step : scan (fun _ => seqSorting) batch rows start (count + 1) =
          (scan (fun _ => seqSorting) batch rows start count).next seqSorting batch rows := rfl
      have pageEq : seqSorting.sort (remaining chainKeyset rows (some cursor)) =
          Keyset.sorted AuditEntry.seq (rows.filter fun row => cursor < row.seq) := rfl
      rw [show count + (fuel + 1) = count + 1 + fuel by omega, Keyset.pages]
      cases ending : ((Keyset.sorted AuditEntry.seq (rows.filter fun row => cursor < row.seq)).take
          batch).getLast? with
      | none =>
          have isOver : (scan (fun _ => seqSorting) batch rows start (count + 1)).isOver = true := by
            rw [step, KeysetScan.Scan.next, reading, at_, pageEq]
            simp [ending]
          rw [KeysetScan.scan_over isOver (Nat.le_add_right _ _), step, KeysetScan.Scan.next,
            reading, at_, pageEq]
          simp [ending]
      | some last =>
          have next : scan (fun _ => seqSorting) batch rows start (count + 1) =
              { yielded := (scan (fun _ => seqSorting) batch rows start count).yielded ++
                  (Keyset.sorted AuditEntry.seq (rows.filter fun row => cursor < row.seq)).take batch
                cursor := some last.seq, isOver := false } := by
            rw [step, KeysetScan.Scan.next, reading, at_, pageEq]
            simp [ending, chainKeyset]
          rw [ih (count + 1) last.seq (by rw [next]) (by rw [next]), next, List.append_assoc]

theorem iterateChainRange_scan (ledger : Ledger) (chain : ChainKey) (afterSeq : Int)
    (upToSeq : Option Int) :
    ∃ count, (scan (fun _ => seqSorting) exportBatch (segment ledger.entries chain upToSeq)
        (some afterSeq) count).isOver = true ∧
      (scan (fun _ => seqSorting) exportBatch (segment ledger.entries chain upToSeq)
        (some afterSeq) count).yielded = iterateChainRange ledger chain afterSeq upToSeq := by
  have opened : iterateChainRange ledger chain afterSeq upToSeq =
      Keyset.pages AuditEntry.seq exportBatch (segment ledger.entries chain upToSeq)
        ((segment ledger.entries chain upToSeq).length + 1) afterSeq := by
    cases upToSeq with
    | none =>
        have selected : segment ledger.entries chain none = ledger.rows chain := by
          simp [segment, Ledger.rows]
        rw [selected]
        rfl
    | some upTo =>
        have selected : segment ledger.entries chain (some upTo) =
            (ledger.rows chain).filter fun entry => decide (entry.seq ≤ upTo) := by
          simp [segment, Ledger.rows, List.filter_filter, Bool.and_comm]
        rw [selected]
        rfl
  rw [opened]
  generalize segment ledger.entries chain upToSeq = rows
  have positive : 0 < exportBatch := by decide
  obtain ⟨count, soon, isOver, -⟩ := KeysetScan.scan_ends positive
    (fun _ => seqSorting) rows (some afterSeq)
  have fewer : (remaining chainKeyset rows (some afterSeq)).length ≤ rows.length :=
    List.length_filter_le ..
  refine ⟨rows.length + 1, ?_, ?_⟩
  · rw [KeysetScan.scan_over isOver (by omega)]
    exact isOver
  · have pages := @yielded_pages exportBatch rows (some afterSeq) (rows.length + 1) 0 afterSeq
      rfl rfl
    rw [Nat.zero_add] at pages
    rw [pages]
    rfl

/-! Both iterators, with batches of any size. -/

structure BatchSize where
  rows : Nat
  positive : 0 < rows

def BatchSize.ofSource : BatchSize := { rows := exportBatch, positive := by decide }

section

variable (exportSortings : Nat → Sorting exportKeyset) (chainSortings : Nat → Sorting chainKeyset)
  (batch : BatchSize) (table : AuditTable)

/-- `streamForExport` ends after every row that the query selects, once and in order. -/
def StreamsAll (query : AuditQuery) : Prop :=
  Exhausts exportSortings batch.rows (table.rows.filter (toWhere query)) none

/-- `iterateChainRange` ends after every row of the range, once and in order. -/
def IteratesAll (chain : ChainKey) (afterSeq : Int) (upToSeq : Option Int) : Prop :=
  Exhausts chainSortings batch.rows (segment table.rows chain upToSeq) (some afterSeq)

/-- No batch of the range ends between two rows of one sequence number. -/
def RangeSeparated (chain : ChainKey) (afterSeq : Int) (upToSeq : Option Int) : Prop :=
  Separated chainKeyset batch.rows
    (remaining chainKeyset (segment table.rows chain upToSeq) (some afterSeq))

theorem streams_all (query : AuditQuery) : StreamsAll exportSortings batch table query := by
  refine (exhausts_iff_separated batch.positive exportSortings _ none).mpr ?_
  refine KeysetScan.separated_of_distinct ((table.primary.filter _).imp ?_)
  intro first second apart
  simp only [← Bool.not_eq_true, ← not_and_or]
  rintro ⟨below, above⟩
  rcases exportOrder_iff.mp below with earlier | ⟨together, le⟩ <;>
    rcases exportOrder_iff.mp above with later | ⟨alike, ge⟩
  · exact absurd earlier (Int.lt_asymm later)
  · exact absurd alike (Int.ne_of_gt earlier)
  · exact absurd together (Int.ne_of_gt later)
  · exact apart (le_antisymm le ge)

theorem iterates_guild_chain (scope : AuditScope) (guildId : JsString) (afterSeq : Int)
    (upToSeq : Option Int) :
    IteratesAll chainSortings batch table (scope, some guildId) afterSeq upToSeq := by
  refine (exhausts_iff_separated batch.positive chainSortings _ _).mpr ?_
  refine KeysetScan.separated_of_distinct (List.Pairwise.filter _ ?_)
  have ofGuild : ∀ row ∈ segment table.rows (scope, some guildId) upToSeq,
      row.chain = (scope, some guildId) := by
    intro row member
    simp only [segment, List.mem_filter, Bool.and_eq_true, beq_iff_eq] at member
    exact member.2.1
  refine List.Pairwise.imp_of_mem ?_ (table.numbered.filter _)
  intro first second firstMember secondMember unique
  have firstChain := ofGuild first firstMember
  have guild : first.guildId = some guildId := congrArg Prod.snd firstChain
  have apart := unique (by simp [guild]) (firstChain.trans (ofGuild second secondMember).symm)
  simp only [chainKeyset, decide_eq_false_iff_not]
  omega

theorem iterators_exhaust_iff (query : AuditQuery) (chain : ChainKey) (afterSeq : Int)
    (upToSeq : Option Int) :
    (StreamsAll exportSortings batch table query ∧
        IteratesAll chainSortings batch table chain afterSeq upToSeq) ↔
      RangeSeparated batch table chain afterSeq upToSeq := by
  rw [IteratesAll, exhausts_iff_separated batch.positive, RangeSeparated]
  exact and_iff_right (streams_all exportSortings batch table query)

end

/-- The global chain when two processes have both written the number 500. -/
def globalRow (index : Nat) : AuditEntry :=
  { scope := .global, guildId := none, action := js "system.started", source := .system
    actorId := none, actorType := .system, targetType := none, targetId := none, channelId := none
    correlationId := js "c", causationId := none, summary := js "s", metadata := Record.empty
    before := none, after := none, occurredAt := index, id := natText index
    seq := if index < 500 then index + 1 else 500, previousHash := none, hash := natText index
    createdAt := index }

def crowdedTable : AuditTable :=
  { rows := (List.range 501).map globalRow
    primary := by
      refine List.pairwise_map.mpr (List.Pairwise.imp ?_ (List.nodup_range (n := 501)))
      intro first second apart same
      exact apart (natText_injective same)
    numbered := by
      refine List.pairwise_map.mpr (List.Pairwise.imp ?_ (List.nodup_range (n := 501)))
      intro first second _ guild
      exact absurd rfl guild }

theorem globalRows_range (indices : List Nat) :
    remaining chainKeyset (segment (indices.map globalRow) (.global, none) none) (some 0) =
      indices.map globalRow := by
  rw [remaining, segment, List.filter_filter]
  refine List.filter_eq_self.mpr ?_
  simp only [List.mem_map]
  rintro row ⟨index, -, rfl⟩
  simp only [chainKeyset, globalRow, AuditEntryDraft.chain]
  simp
  split <;> omega

/-- The batch of 500 rows ends behind the first row of the number 500. -/
theorem batch_skips_row :
    ¬ IteratesAll (fun _ => seqSorting) .ofSource crowdedTable (.global, none) 0 none := by
  intro all
  have separated := (exhausts_iff_separated BatchSize.ofSource.positive _ _ _).mp all
  simp only [crowdedTable, globalRows_range] at separated
  have member : globalRow 500 ∈ (List.range 501).map globalRow :=
    List.mem_map.mpr ⟨500, List.mem_range.mpr (by omega), rfl⟩
  refine separated (globalRow 500) member 500 (Nat.dvd_refl 500) ?_
  rw [KeysetScan.before, KeysetScan.upTo, List.countP_map, List.countP_map]
  decide +kernel

end Audit
