import ArmstrongBot.Audit.Integrity

/-! Any number of workers that run `appendWithRetry` at once, one statement at a time. -/

namespace Audit

open JsText
open Calendar (Timestamp)

/-- Where a worker stands in the loop of `appendWithRetry`. -/
inductive Worker
  | idle
  | reading (draft : AuditEntryDraft) (attempt : Nat)
  | computing (draft : AuditEntryDraft) (attempt : Nat) (last : Option AuditEntry)
  | inserting (draft : AuditEntryDraft) (attempt : Nat) (seq : Int) (previousHash : Option JsString)
      (hash : JsString)
  | returned (entry : AuditEntry)
  | thrown (error : AppendError)

structure Writers (ι : Type*) where
  ledger : Ledger
  workers : ι → Worker

def Writers.empty {ι : Type*} (clock : Timestamp) : Writers ι :=
  { ledger := .empty clock, workers := fun _ => .idle }

inductive Write (ι : Type*)
  | start (worker : ι) (draft : AuditEntryDraft)
  | findLast (worker : ι)
  | computeHash (worker : ι)
  | insert (worker : ι) (id : JsString)
  | abort (worker : ι)
  | pass (elapsed : Nat)

section

variable {ι : Type*} [DecidableEq ι] (createHash : HashAlgorithm → JsString → JsString)
  (algorithm : HashAlgorithm)

def Writers.setWorker (state : Writers ι) (worker : ι) (position : Worker) : Writers ι :=
  { state with workers := Function.update state.workers worker position }

def retry (draft : AuditEntryDraft) (attempt : Nat) (conflict : AppendError) : Worker :=
  if attempt < maxAppendAttempts then .reading draft (attempt + 1) else .thrown conflict

def write (state : Writers ι) : Write ι → Option (Writers ι)
  | .start worker draft =>
      match state.workers worker with
      | .idle | .returned _ | .thrown _ => some (state.setWorker worker (.reading draft 1))
      | _ => none
  | .findLast worker =>
      match state.workers worker with
      | .reading draft attempt =>
          some (state.setWorker worker
            (.computing draft attempt (findLast state.ledger draft.chain)))
      | _ => none
  | .computeHash worker =>
      match state.workers worker with
      | .computing draft attempt last =>
          some (state.setWorker worker (.inserting draft attempt (nextSeq last) (nextPrevious last)
            (nextHash createHash algorithm draft last)))
      | _ => none
  | .insert worker id =>
      match state.workers worker with
      | .inserting draft attempt seq previousHash hash =>
          match append state.ledger id draft seq previousHash hash with
          | .ok (entry, next) =>
              some { (state.setWorker worker (.returned entry)) with ledger := next }
          | .error conflict => some (state.setWorker worker (retry draft attempt conflict))
      | _ => none
  | .abort worker => some (state.setWorker worker .idle)
  | .pass elapsed =>
      some { state with ledger := { state.ledger with clock := state.ledger.clock + elapsed } }

/-- An action of a worker leaves the tables as they are, or is an insert that is accepted. -/
theorem write_tables {state next : Writers ι} {action : Write ι}
    (taken : write createHash algorithm state action = some next) :
    next.ledger.archives = state.ledger.archives ∧ next.ledger.files = state.ledger.files ∧
      (next.ledger.entries = state.ledger.entries ∨
        ∃ worker id draft attempt seq previousHash hash entry,
          action = .insert worker id ∧
          state.workers worker = .inserting draft attempt seq previousHash hash ∧
          append state.ledger id draft seq previousHash hash = .ok (entry, next.ledger)) := by
  cases action with
  | insert worker id =>
      simp only [write] at taken
      split at taken
      · rename_i draft attempt seq previousHash hash position
        split at taken
        · rename_i entry ledger appended
          obtain rfl := Option.some.inj taken
          obtain ⟨_, _, rfl⟩ := append_ok_iff.mp appended
          exact ⟨rfl, rfl, Or.inr ⟨worker, id, draft, attempt, seq, previousHash, hash, entry, rfl,
            position, appended⟩⟩
        · obtain rfl := Option.some.inj taken
          exact ⟨rfl, rfl, Or.inl rfl⟩
      · simp at taken
  | start worker draft =>
      simp only [write] at taken
      split at taken <;> simp only [Option.some.injEq, reduceCtorEq] at taken
      all_goals exact taken ▸ ⟨rfl, rfl, Or.inl rfl⟩
  | findLast worker =>
      simp only [write] at taken
      split at taken <;> simp only [Option.some.injEq, reduceCtorEq] at taken
      exact taken ▸ ⟨rfl, rfl, Or.inl rfl⟩
  | computeHash worker =>
      simp only [write] at taken
      split at taken <;> simp only [Option.some.injEq, reduceCtorEq] at taken
      exact taken ▸ ⟨rfl, rfl, Or.inl rfl⟩
  | abort worker =>
      obtain rfl := Option.some.inj taken
      exact ⟨rfl, rfl, Or.inl rfl⟩
  | pass elapsed =>
      obtain rfl := Option.some.inj taken
      exact ⟨rfl, rfl, Or.inl rfl⟩

end

end Audit
