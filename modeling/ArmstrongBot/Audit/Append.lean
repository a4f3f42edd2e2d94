import ArmstrongBot.Audit.Repository

/-! `appendWithRetry` of `jobs/audit-ingest.processor.ts`, run without another writer between
its statements. -/

namespace Audit

open JsText

def maxAppendAttempts : Nat := 5

def nextSeq (last : Option AuditEntry) : Int := (last.map AuditEntry.seq).getD 0 + 1

def nextPrevious (last : Option AuditEntry) : Option JsString := last.map AuditEntry.hash

section

variable (createHash : HashAlgorithm → JsString → JsString) (algorithm : HashAlgorithm)

def nextHash (draft : AuditEntryDraft) (last : Option AuditEntry) : JsString :=
  computeHash createHash algorithm draft (nextSeq last) (nextPrevious last)

def appendAttempt (ledger : Ledger) (id : JsString) (draft : AuditEntryDraft) :
    Except AppendError (AuditEntry × Ledger) :=
  let last := findLast ledger draft.chain
  append ledger id draft (nextSeq last) (nextPrevious last) (nextHash createHash algorithm draft last)

/-- The loop with the attempts that remain; every attempt generates an id of its own. -/
def retryAppend (ledger : Ledger) (ids : Nat → JsString) (draft : AuditEntryDraft) :
    Nat → AppendError → Except AppendError (AuditEntry × Ledger)
  | 0, lastError => .error lastError
  | remaining + 1, _ =>
      match appendAttempt createHash algorithm ledger (ids remaining) draft with
      | .ok result => .ok result
      | .error conflict => retryAppend ledger ids draft remaining conflict

def appendWithRetry (ledger : Ledger) (ids : Nat → JsString) (draft : AuditEntryDraft) :
    Except AppendError (AuditEntry × Ledger) :=
  retryAppend createHash algorithm ledger ids draft maxAppendAttempts .unreachable

variable {createHash algorithm}

theorem retryAppend_ok {ledger next : Ledger} {ids : Nat → JsString} {draft : AuditEntryDraft}
    {remaining : Nat} {lastError : AppendError} {entry : AuditEntry}
    (appended : retryAppend createHash algorithm ledger ids draft remaining lastError =
      .ok (entry, next)) :
    ∃ id, appendAttempt createHash algorithm ledger id draft = .ok (entry, next) := by
  induction remaining generalizing lastError with
  | zero => simp [retryAppend] at appended
  | succ remaining ih =>
      unfold retryAppend at appended
      split at appended
      · rename_i result attempted
        obtain rfl := Except.ok.inj appended
        exact ⟨_, attempted⟩
      · exact ih appended

/-- An append that returns adds one row behind the last row of its chain. -/
theorem appendWithRetry_ok {ledger next : Ledger} {ids : Nat → JsString} {draft : AuditEntryDraft}
    {entry : AuditEntry}
    (appended : appendWithRetry createHash algorithm ledger ids draft = .ok (entry, next)) :
    next = { ledger with entries := ledger.entries ++ [entry] } ∧
      entry.toAuditEntryDraft = draft ∧
      entry.seq = nextSeq (findLast ledger draft.chain) ∧
      entry.previousHash = nextPrevious (findLast ledger draft.chain) ∧
      (link createHash algorithm).recomputed entry = entry.hash := by
  obtain ⟨id, attempted⟩ := retryAppend_ok appended
  obtain ⟨_, rfl, written⟩ := append_ok_iff.mp attempted
  exact ⟨written, rfl, rfl, rfl, rfl⟩

/-- What an append makes of a chain that is linked from some position on: the chain with one
more link, from position 1 on if it was empty. -/
theorem Linked.append {ledger : Ledger} {chain : ChainKey} {entry : AuditEntry}
    {start : Option JsString} {position : Int}
    (linked : HashChain.Linked (link createHash algorithm) start position (ledger.rows chain))
    (opening : ledger.rows chain = [] → start = none ∧ position = 1)
    (seqEq : entry.seq = nextSeq (findLast ledger chain))
    (previousEq : entry.previousHash = nextPrevious (findLast ledger chain))
    (recomputed : (link createHash algorithm).recomputed entry = entry.hash) :
    HashChain.Linked (link createHash algorithm) start position (ledger.rows chain ++ [entry]) := by
  rw [HashChain.linked_snoc]
  have increasing : Keyset.Increasing AuditEntry.seq (ledger.rows chain) := linked.increasing
  rw [findLast_eq increasing] at seqEq previousEq
  refine ⟨linked, ?_, ?_, recomputed⟩
  · show entry.seq = position + (ledger.rows chain).length
    cases ending : (ledger.rows chain).getLast? with
    | none =>
        have empty := List.getLast?_eq_none_iff.mp ending
        simp [seqEq, nextSeq, empty, (opening empty).2]
    | some last =>
        have lastSeq : last.seq = position + (ledger.rows chain).length - 1 :=
          linked.seq_last _ ending
        simp only [seqEq, nextSeq, ending, Option.map_some, Option.getD_some]
        omega
  · show entry.previousHash = HashChain.tip (link createHash algorithm) start (ledger.rows chain)
    cases ending : (ledger.rows chain).getLast? with
    | none =>
        have empty := List.getLast?_eq_none_iff.mp ending
        simp [previousEq, nextPrevious, empty, (opening empty).1]
    | some last => simp [previousEq, nextPrevious, ending, HashChain.tip, link]

end

end Audit
