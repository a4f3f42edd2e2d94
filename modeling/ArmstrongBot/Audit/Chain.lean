import ArmstrongBot.Audit.Entry
import ArmstrongBot.Library.HashChain

/-! `AuditChainService` of `domain/audit-chain.service.ts`: the hash of an entry and the
verification of a stored chain. -/

namespace Audit

open JsText JsJson
open Calendar (Timestamp toISOString)

inductive HashAlgorithm
  | sha256
  | sha512
  deriving DecidableEq

structure ChainAnchor where
  toSeq : Int
  rootHash : JsString
  deriving DecidableEq

structure ChainVerificationResult where
  scope : AuditScope
  guildId : Option JsString
  checked : Nat
  valid : Bool
  firstBrokenSeq : Option Int
  verifiedAt : Timestamp

def nullableText : Option JsString → Json
  | none => .null
  | some text => .str text

def nullableRecord : Option Record → Json
  | none => .null
  | some record => record.json

def contentFields (draft : AuditEntryDraft) (seq : Int) (previousHash : Option JsString) : Fields :=
  [(js "scope", .str draft.scope.text), (js "guildId", nullableText draft.guildId),
    (js "seq", .str (intText seq)), (js "action", .str draft.action),
    (js "source", .str draft.source.text), (js "actorId", nullableText draft.actorId),
    (js "actorType", .str draft.actorType.text), (js "targetType", nullableText draft.targetType),
    (js "targetId", nullableText draft.targetId), (js "channelId", nullableText draft.channelId),
    (js "correlationId", .str draft.correlationId),
    (js "causationId", nullableText draft.causationId), (js "summary", .str draft.summary),
    (js "metadata", draft.metadata.json), (js "before", nullableRecord draft.before),
    (js "after", nullableRecord draft.after),
    (js "occurredAt", .str (toISOString draft.occurredAt)),
    (js "previousHash", nullableText previousHash)]

def content (draft : AuditEntryDraft) (seq : Int) (previousHash : Option JsString) : Json :=
  .obj (contentFields draft seq previousHash)

section

-- `createHash` is the digest of the crypto library, in hexadecimal.
variable (createHash : HashAlgorithm → JsString → JsString) (algorithm : HashAlgorithm)

def computeHash (draft : AuditEntryDraft) (seq : Int) (previousHash : Option JsString) : JsString :=
  createHash algorithm (canonicalJson (content draft seq previousHash))

/-- The link that the source expects of an entry; `none` is its `undefined`. -/
def expectedPrevious (previous : Option AuditEntry) (anchor : Option ChainAnchor)
    (entry : AuditEntry) : Option (Option JsString) :=
  match previous with
  | some before => some (some before.hash)
  | none =>
      if entry.seq = 1 then some none
      else match anchor with
        | some anchor => if anchor.toSeq = entry.seq - 1 then some (some anchor.rootHash) else none
        | none => none

def linkageOk (previous : Option AuditEntry) (anchor : Option ChainAnchor) (entry : AuditEntry) :
    Bool :=
  expectedPrevious previous anchor entry == some entry.previousHash

def seqOk (previous : Option AuditEntry) (entry : AuditEntry) : Bool :=
  match previous with
  | none => true
  | some before => entry.seq == before.seq + 1

def contentOk (entry : AuditEntry) : Bool :=
  computeHash createHash algorithm entry.toAuditEntryDraft entry.seq entry.previousHash == entry.hash

def entryOk (previous : Option AuditEntry) (anchor : Option ChainAnchor) (entry : AuditEntry) :
    Bool :=
  linkageOk previous anchor entry && seqOk previous entry && contentOk createHash algorithm entry

/-- The loop of `verify`: the number of entries it checks and the sequence number it breaks at. -/
def verifyLoop (anchor : Option ChainAnchor) :
    Option AuditEntry → Nat → List AuditEntry → Nat × Option Int
  | _, checked, [] => (checked, none)
  | previous, checked, entry :: rest =>
      if entryOk createHash algorithm previous anchor entry then
        verifyLoop anchor (some entry) (checked + 1) rest
      else (checked + 1, some entry.seq)

def verify (scope : AuditScope) (guildId : Option JsString) (entries : List AuditEntry)
    (anchor : Option ChainAnchor) (now : Timestamp) : ChainVerificationResult :=
  let (checked, firstBrokenSeq) := verifyLoop createHash algorithm anchor none 0 entries
  { scope, guildId, checked, valid := firstBrokenSeq.isNone, firstBrokenSeq, verifiedAt := now }

def link : HashChain.Shape AuditEntry JsString where
  seq := AuditEntry.seq
  previous := AuditEntry.previousHash
  hash := AuditEntry.hash
  recomputed := fun entry =>
    computeHash createHash algorithm entry.toAuditEntryDraft entry.seq entry.previousHash

theorem entryOk_iff (previous : Option AuditEntry) (anchor : Option ChainAnchor)
    (entry : AuditEntry) :
    entryOk createHash algorithm previous anchor entry = true ↔
      expectedPrevious previous anchor entry = some entry.previousHash ∧
        (∀ before, previous = some before → entry.seq = before.seq + 1) ∧
        (link createHash algorithm).recomputed entry = entry.hash := by
  cases previous <;> simp [entryOk, linkageOk, seqOk, contentOk, link, and_assoc]

theorem verifyLoop_some (anchor : Option ChainAnchor) (before : AuditEntry) (checked : Nat)
    (entries : List AuditEntry) :
    (verifyLoop createHash algorithm anchor (some before) checked entries).2 = none ↔
      HashChain.Linked (link createHash algorithm) (some before.hash) (before.seq + 1) entries := by
  induction entries generalizing before checked with
  | nil => simp [verifyLoop, HashChain.Linked]
  | cons entry rest ih =>
      have checks := entryOk_iff createHash algorithm (some before) anchor entry
      by_cases passed : entryOk createHash algorithm (some before) anchor entry = true
      · obtain ⟨expected, follows, recomputed⟩ := checks.mp passed
        have seqEq := follows before rfl
        have previousEq := Option.some.inj expected
        rw [verifyLoop, if_pos passed, ih, seqEq]
        exact ⟨fun linked => ⟨seqEq, previousEq.symm, recomputed, linked⟩, fun linked => linked.2.2.2⟩
      · rw [verifyLoop, if_neg passed]
        simp only [reduceCtorEq, false_iff]
        rintro ⟨seqEq, previousEq, recomputed, _⟩
        refine passed (checks.mpr ⟨congrArg some previousEq.symm, ?_, recomputed⟩)
        intro prior same
        obtain rfl := Option.some.inj same
        exact seqEq

/-- A chain passes exactly when its entries are linked from the first one on and the first one
carries the link that position 1, or the anchor, gives it. -/
theorem verify_valid_iff (scope : AuditScope) (guildId : Option JsString)
    (entries : List AuditEntry) (anchor : Option ChainAnchor) (now : Timestamp) :
    (verify createHash algorithm scope guildId entries anchor now).valid = true ↔
      ∀ first rest, entries = first :: rest →
        ∃ start, expectedPrevious none anchor first = some start ∧
          HashChain.Linked (link createHash algorithm) start first.seq entries := by
  cases entries with
  | nil => simp [verify, verifyLoop]
  | cons entry rest =>
      have checks := entryOk_iff createHash algorithm none anchor entry
      simp only [verify, Option.isNone_iff_eq_none]
      by_cases passed : entryOk createHash algorithm none anchor entry = true
      · obtain ⟨expected, _, recomputed⟩ := checks.mp passed
        rw [verifyLoop, if_pos passed, verifyLoop_some]
        constructor
        · rintro linked first tail same
          obtain ⟨rfl, rfl⟩ := List.cons.inj same
          exact ⟨entry.previousHash, expected, rfl, rfl, recomputed, linked⟩
        · intro valid
          obtain ⟨start, _, linked⟩ := valid entry rest rfl
          exact linked.2.2.2
      · rw [verifyLoop, if_neg passed]
        simp only [reduceCtorEq, false_iff]
        intro valid
        obtain ⟨start, expected, linked⟩ := valid entry rest rfl
        refine passed (checks.mpr ⟨?_, by simp, linked.2.2.1⟩)
        rw [expected]
        exact congrArg some linked.2.1.symm

end

end Audit
