import ArmstrongBot.Audit.Append
import ArmstrongBot.Audit.Retention
import ArmstrongBot.Library.StepMachine

/-! Runs of appends and retention sweeps one after the other, and `verifyChain` of
`application/audit.service.ts` in every state of them. -/

namespace Audit

open JsText
open Calendar (Timestamp)

inductive Operation
  | append (draft : AuditEntryDraft) (ids : Nat → JsString)
  | sweep (chain : ChainKey) (now : Timestamp) (config : AuditGuildConfig)
  | pass (elapsed : Nat)

section

variable (createHash : HashAlgorithm → JsString → JsString) (algorithm : HashAlgorithm)
  (archiveDir : JsString)

/-- An operation that throws leaves the ledger as it is and is no step. -/
def operate (ledger : Ledger) : Operation → Option Ledger
  | .append draft ids =>
      match appendWithRetry createHash algorithm ledger ids draft with
      | .ok (_, next) => some next
      | .error _ => none
  | .sweep chain now config =>
      match sweepChain ledger archiveDir chain now config with
      | .ok (_, next) => some next
      | .error _ => none
  | .pass elapsed => some { ledger with clock := ledger.clock + elapsed }

def anchorOf (ledger : Ledger) (chain : ChainKey) : Option ChainAnchor :=
  match firstSeq ledger chain with
  | some seq => if 1 < seq then findAnchor ledger chain (seq - 1) else none
  | none => none

def verifyChain (ledger : Ledger) (chain : ChainKey) (now : Timestamp) : ChainVerificationResult :=
  verify createHash algorithm chain.1 chain.2 (iterateChain ledger chain) (anchorOf ledger chain) now

def Verifies (ledger : Ledger) : Prop :=
  ∀ chain now, (verifyChain createHash algorithm ledger chain now).valid = true

/-- A sweep that prunes a part of a chain leaves an anchor with the hash of the last entry it
prunes: it archives, or such an anchor is there already. -/
def LeavesAnchor (ledger : Ledger) : Operation → Prop
  | .sweep chain now config =>
      let cutoff := computeCutoff now config.retentionDays
      config.archiveBeforeDelete = true ∨
        ∀ boundary ∈ ledger.rows chain, ∀ kept ∈ ledger.rows chain, kept.seq = boundary.seq + 1 →
          (∀ row ∈ ledger.rows chain, row.seq ≤ boundary.seq → row.occurredAt < cutoff) →
          cutoff ≤ kept.occurredAt →
            (findAnchor ledger chain boundary.seq).map ChainAnchor.rootHash = some boundary.hash
  | _ => True

/-! The anchors that a ledger reports. -/

theorem findAnchor_toSeq {ledger : Ledger} {chain : ChainKey} {toSeq : Int} {anchor : ChainAnchor}
    (found : findAnchor ledger chain toSeq = some anchor) : anchor.toSeq = toSeq := by
  obtain ⟨archive, newest, rfl⟩ := Option.map_eq_some_iff.mp found
  have member := List.mem_filter.mp (List.argmax_mem newest)
  simp only [Bool.and_eq_true, beq_iff_eq] at member
  exact member.2.2

theorem findAnchor_newest {ledger next : Ledger} {archive : AuditArchive}
    (dated : ∀ other ∈ ledger.archives, other.createdAt < archive.createdAt)
    (recorded : next.archives = ledger.archives ++ [archive]) (chain : ChainKey) (toSeq : Int) :
    findAnchor next chain toSeq =
      if archive.chain = chain ∧ archive.toSeq = toSeq then
        some { toSeq := archive.toSeq, rootHash := archive.rootHash }
      else findAnchor ledger chain toSeq := by
  rw [findAnchor, recorded, List.filter_append]
  split
  · rename_i matching
    have selected : [archive].filter (fun other => other.chain == chain && other.toSeq == toSeq) =
        [archive] := by
      simp [matching]
    rw [selected, Keyset.argmax_snoc]
    · rfl
    · intro other member
      exact dated other (List.mem_of_mem_filter member)
  · rename_i apart
    have dropped : [archive].filter (fun other => other.chain == chain && other.toSeq == toSeq) =
        [] := by
      simpa using apart
    rw [dropped, List.append_nil]
    rfl

/-! The invariant: every chain is linked from its anchor, or from position 1. -/

def Anchored (ledger : Ledger) (chain : ChainKey) (first : Int) (start : Option JsString) : Prop :=
  (first = 1 ∧ start = none) ∨
    (1 < first ∧ ∃ anchor, findAnchor ledger chain (first - 1) = some anchor ∧
      start = some anchor.rootHash)

structure Sound (ledger : Ledger) : Prop where
  chains : ∀ chain first rest, ledger.rows chain = first :: rest →
    ∃ start, Anchored ledger chain first.seq start ∧
      HashChain.Linked (link createHash algorithm) start first.seq (first :: rest)
  dated : ∀ archive ∈ ledger.archives, archive.createdAt < ledger.clock

variable {createHash algorithm}

theorem Anchored.positive {ledger : Ledger} {chain : ChainKey} {first : Int}
    {start : Option JsString} (anchored : Anchored ledger chain first start) : 1 ≤ first := by
  rcases anchored with ⟨one, _⟩ | ⟨later, _⟩ <;> omega

theorem Sound.linked {ledger : Ledger} (sound : Sound createHash algorithm ledger)
    (chain : ChainKey) : ∃ start position,
      HashChain.Linked (link createHash algorithm) start position (ledger.rows chain) ∧
        1 ≤ position ∧ (ledger.rows chain = [] → start = none ∧ position = 1) := by
  cases rows : ledger.rows chain with
  | nil => exact ⟨none, 1, trivial, le_refl _, fun _ => ⟨rfl, rfl⟩⟩
  | cons first rest =>
      obtain ⟨start, anchored, linked⟩ := sound.chains chain first rest rows
      exact ⟨start, first.seq, linked, anchored.positive, by simp⟩

/-- On linked rows with positive numbers, verification asks for the link that the anchor gives. -/
theorem verifyChain_valid_iff {ledger : Ledger} {chain : ChainKey} {start : Option JsString}
    {position : Int} (positive : 1 ≤ position)
    (linked : HashChain.Linked (link createHash algorithm) start position (ledger.rows chain))
    (now : Timestamp) :
    (verifyChain createHash algorithm ledger chain now).valid = true ↔
      ∀ first rest, ledger.rows chain = first :: rest → Anchored ledger chain position start := by
  have increasing : Keyset.Increasing AuditEntry.seq (ledger.rows chain) := linked.increasing
  have read : iterateChain ledger chain = ledger.rows chain := by
    apply iterateChain_eq increasing
    intro entry member
    have bounds : position ≤ entry.seq ∧ _ := linked.seq_bounds _ member
    omega
  rw [verifyChain, verify_valid_iff, read]
  refine forall_congr' fun first => forall_congr' fun rest => imp_congr_right fun rows => ?_
  rw [rows] at linked
  have firstPosition : first.seq = position := linked.1
  have anchorEq : anchorOf ledger chain =
      if 1 < position then findAnchor ledger chain (position - 1) else none := by
    simp [anchorOf, firstSeq_eq increasing, rows, firstPosition]
  have expected : expectedPrevious none (anchorOf ledger chain) first = some start ↔
      Anchored ledger chain position start := by
    simp only [expectedPrevious, anchorEq, firstPosition, Anchored]
    by_cases one : position = 1
    · simp [one, eq_comm]
    · have later : 1 < position := by omega
      simp only [one, later, if_true, if_false, false_and, false_or, true_and]
      cases found : findAnchor ledger chain (position - 1) with
      | none => simp
      | some anchor => simp [findAnchor_toSeq found, eq_comm]
  rw [← expected]
  constructor
  · rintro ⟨other, otherExpected, otherLinked⟩
    have same : start = other := linked.2.1.symm.trans (by rw [rows] at otherLinked; exact otherLinked.2.1)
    rw [same]
    exact otherExpected
  · intro anchored
    exact ⟨start, anchored, by rw [rows, firstPosition]; exact linked⟩

theorem Sound.verifies {ledger : Ledger} (sound : Sound createHash algorithm ledger) :
    Verifies createHash algorithm ledger := by
  intro chain now
  cases rows : ledger.rows chain with
  | nil =>
      have linked : HashChain.Linked (link createHash algorithm) none 1 (ledger.rows chain) := by
        rw [rows]
        trivial
      exact (verifyChain_valid_iff (le_refl 1) linked now).mpr (by simp [rows])
  | cons first rest =>
      obtain ⟨start, anchored, linked⟩ := sound.chains chain first rest rows
      rw [← rows] at linked
      exact (verifyChain_valid_iff anchored.positive linked now).mpr fun _ _ _ => anchored

theorem sound_empty (clock : Timestamp) : Sound createHash algorithm (Ledger.empty clock) := by
  constructor
  · simp [Ledger.empty, Ledger.rows]
  · simp [Ledger.empty]

theorem sound_append {ledger next : Ledger} (sound : Sound createHash algorithm ledger)
    {ids : Nat → JsString} {draft : AuditEntryDraft} {entry : AuditEntry}
    (appended : appendWithRetry createHash algorithm ledger ids draft = .ok (entry, next)) :
    Sound createHash algorithm next := by
  obtain ⟨rfl, draftEq, seqEq, previousEq, recomputed⟩ := appendWithRetry_ok appended
  refine ⟨?_, sound.dated⟩
  intro chain first rest rows
  rw [rows_snoc] at rows
  by_cases inChain : entry.chain = chain
  · rw [if_pos inChain] at rows
    rw [← draftEq, inChain] at seqEq previousEq
    obtain ⟨start, position, linked, _, opening⟩ := sound.linked chain
    have longer := Linked.append linked opening seqEq previousEq recomputed
    rw [rows] at longer
    have firstPosition : first.seq = position := longer.1
    refine ⟨start, ?_, by rw [firstPosition]; exact longer⟩
    cases old : ledger.rows chain with
    | nil => exact Or.inl ⟨firstPosition.trans (opening old).2, (opening old).1⟩
    | cons oldFirst oldRest =>
        obtain ⟨oldStart, anchored, oldLinked⟩ := sound.chains chain oldFirst oldRest old
        rw [old, List.cons_append] at rows
        rw [old] at linked
        have sameFirst := (List.cons.inj rows).1
        have sameStart : oldStart = start := oldLinked.2.1.symm.trans linked.2.1
        rw [← sameFirst, ← sameStart]
        exact anchored
  · rw [if_neg inChain, List.append_nil] at rows
    exact sound.chains chain first rest rows

theorem kept_linked {ledger : Ledger} {chain : ChainKey} {start : Option JsString} {position : Int}
    (linked : HashChain.Linked (link createHash algorithm) start position (ledger.rows chain))
    {cutoff : Timestamp} {front : List AuditEntry} {boundary : AuditEntry}
    (old : expired cutoff (ledger.rows chain) = front ++ [boundary]) :
    position ≤ boundary.seq ∧
      HashChain.Linked (link createHash algorithm) (some boundary.hash) (boundary.seq + 1)
        (retained cutoff (ledger.rows chain)) := by
  have later := (linked_parts linked cutoff).2
  have boundarySeq := boundary_seq linked old
  have tip : HashChain.tip (link createHash algorithm) start (expired cutoff (ledger.rows chain)) =
      some boundary.hash := by
    rw [old, HashChain.tip_snoc]
    rfl
  have nonempty : 0 < (expired cutoff (ledger.rows chain)).length := by simp [old]
  have behind : position + (expired cutoff (ledger.rows chain)).length = boundary.seq + 1 := by omega
  rw [tip, behind] at later
  exact ⟨by omega, later⟩

theorem sound_sweep {archiveDir : JsString} {ledger next : Ledger}
    (sound : Sound createHash algorithm ledger) {chain : ChainKey} {now : Timestamp}
    {config : AuditGuildConfig} {count : Nat}
    (swept : sweepChain ledger archiveDir chain now config = .ok (count, next))
    (leaves : LeavesAnchor ledger (.sweep chain now config)) :
    Sound createHash algorithm next := by
  obtain ⟨start, position, linked, positive, _⟩ := sound.linked chain
  rcases sweepChain_ok linked swept with ⟨_, rfl⟩ | ⟨front, boundary, old, keptRows, archives⟩
  · exact sound
  · obtain ⟨boundaryPosition, keptLinked⟩ := kept_linked linked old
    have otherAnchors (other : ChainKey) (toSeq : Int) (apart : other ≠ chain) :
        findAnchor next other toSeq = findAnchor ledger other toSeq := by
      rcases archives with ⟨_, same, _⟩ | ⟨_, archive, file, recorded⟩
      · rw [findAnchor, same, findAnchor]
      · rw [findAnchor_newest (by rw [recorded.createdAt]; exact sound.dated) recorded.archives, if_neg]
        rintro ⟨same, _⟩
        exact apart (same.symm.trans recorded.chainEq)
    constructor
    · intro other first rest rows
      rw [keptRows] at rows
      by_cases same : other = chain
      · subst same
        rw [if_pos rfl] at rows
        rw [rows] at keptLinked
        have firstSeq : first.seq = boundary.seq + 1 := keptLinked.1
        refine ⟨some boundary.hash, Or.inr ⟨by omega, ?_⟩, by rw [firstSeq]; exact keptLinked⟩
        rw [show first.seq - 1 = boundary.seq by omega]
        rcases archives with ⟨plain, same, _⟩ | ⟨_, archive, file, recorded⟩
        · obtain ⟨boundaryMember, keptMember, follows, allOld, fresh⟩ :=
            (cut_iff linked _ boundary first).mp ⟨front, rest, old, rows⟩
          have there := (leaves.resolve_left (by simp [plain])) boundary boundaryMember first keptMember
            follows allOld fresh
          obtain ⟨anchor, found, root⟩ := Option.map_eq_some_iff.mp there
          refine ⟨anchor, ?_, congrArg some root.symm⟩
          rw [findAnchor, same]
          exact found
        · refine ⟨{ toSeq := archive.toSeq, rootHash := archive.rootHash }, ?_,
            congrArg some recorded.rootHash.symm⟩
          rw [findAnchor_newest (by rw [recorded.createdAt]; exact sound.dated) recorded.archives,
            if_pos ⟨recorded.chainEq, recorded.toSeq⟩]
      · rw [if_neg same] at rows
        obtain ⟨otherStart, anchored, otherLinked⟩ := sound.chains other first rest rows
        refine ⟨otherStart, ?_, otherLinked⟩
        simpa only [Anchored, otherAnchors other _ same] using anchored
    · rcases archives with ⟨_, sameArchives, _, sameClock⟩ | ⟨_, archive, file, recorded⟩
      · rw [sameArchives, sameClock]
        exact sound.dated
      · rw [recorded.archives, recorded.clock]
        intro other member
        rcases List.mem_append.mp member with earlier | newest
        · exact Int.lt_add_one_of_le (le_of_lt (sound.dated other earlier))
        · rw [List.mem_singleton.mp newest, recorded.createdAt]
          exact Int.lt_add_one_of_le (le_refl _)

theorem leavesAnchor_of_verifies {archiveDir : JsString} {ledger next : Ledger}
    (sound : Sound createHash algorithm ledger) {chain : ChainKey} {now : Timestamp}
    {config : AuditGuildConfig} {count : Nat}
    (swept : sweepChain ledger archiveDir chain now config = .ok (count, next))
    (verifies : Verifies createHash algorithm next) : LeavesAnchor ledger (.sweep chain now config) := by
  obtain ⟨start, position, linked, positive, _⟩ := sound.linked chain
  refine or_iff_not_imp_left.mpr ?_
  intro plain boundary boundaryMember kept keptMember follows allOld fresh
  obtain ⟨front, rest, old, rows⟩ := (cut_iff linked _ boundary kept).mpr
    ⟨boundaryMember, keptMember, follows, allOld, fresh⟩
  rcases sweepChain_ok linked swept with ⟨none, _⟩ | ⟨_, last, lastOld, keptRows, archives⟩
  · simp [none] at old
  · obtain ⟨boundaryPosition, keptLinked⟩ := kept_linked linked old
    have nextRows : next.rows chain = kept :: rest := by rw [keptRows, if_pos rfl, rows]
    rw [rows, ← nextRows] at keptLinked
    have anchored :=
      (verifyChain_valid_iff (by omega) keptLinked 0).mp (verifies chain 0) kept rest nextRows
    rcases anchored with ⟨one, _⟩ | ⟨_, anchor, found, root⟩
    · omega
    · rcases archives with ⟨_, same, _⟩ | ⟨archives, _⟩
      · rw [show boundary.seq + 1 - 1 = boundary.seq by omega, findAnchor, same] at found
        rw [findAnchor, found]
        exact root.symm
      · exact absurd archives plain

variable (createHash algorithm)

/-- Along a run of appends and sweeps every chain verifies in every state exactly when every
sweep leaves an anchor where it cuts a chain. -/
theorem verifies_always_iff (archiveDir : JsString) (clock : Timestamp)
    (operations : List Operation) :
    StepMachine.Always (operate createHash algorithm archiveDir) (Verifies createHash algorithm)
        (Ledger.empty clock) operations ↔
      StepMachine.Guarded (operate createHash algorithm archiveDir) LeavesAnchor
        (Ledger.empty clock) operations := by
  have verified : ∀ ledger, Sound createHash algorithm ledger → Verifies createHash algorithm ledger :=
    fun _ sound => sound.verifies
  refine StepMachine.always_iff_guarded _ verified ?_ ?_ (sound_empty clock) operations
  · intro ledger operation next sound leaves taken
    cases operation with
    | append draft ids =>
        simp only [operate] at taken
        split at taken
        · rename_i entry after appended
          obtain rfl := Option.some.inj taken
          exact sound_append sound appended
        · simp at taken
    | sweep chain now config =>
        simp only [operate] at taken
        split at taken
        · rename_i count after swept
          obtain rfl := Option.some.inj taken
          exact sound_sweep sound swept leaves
        · simp at taken
    | pass elapsed =>
        obtain rfl := Option.some.inj taken
        refine ⟨sound.chains, ?_⟩
        intro archive member
        have later := Int.le_add_of_nonneg_right (a := ledger.clock) (Int.natCast_nonneg elapsed)
        exact lt_of_lt_of_le (sound.dated archive member) later
  · intro ledger operation next sound taken verifies
    cases operation with
    | append draft ids => trivial
    | pass elapsed => trivial
    | sweep chain now config =>
        simp only [operate] at taken
        split at taken
        · rename_i count after swept
          obtain rfl := Option.some.inj taken
          exact leavesAnchor_of_verifies sound swept verifies
        · simp at taken

end

/-! A run in which a sweep that does not archive prunes the first of two entries. -/

def guildDraft (occurredAt : Timestamp) : AuditEntryDraft :=
  { scope := .guild, guildId := some (js "7"), action := js "guild.member.banned",
    source := .command, actorId := some (js "1"), actorType := .user, targetType := none,
    targetId := none, channelId := none, correlationId := js "c", causationId := none,
    summary := js "s", metadata := .empty, before := none, after := none, occurredAt }

def deleteOnly : AuditGuildConfig :=
  { retentionDays := 30, archiveBeforeDelete := false, archiveFormat := .ndjson,
    longEnough := by decide, shortEnough := by decide }

def archiveFirst : AuditGuildConfig :=
  { retentionDays := 30, archiveBeforeDelete := true, archiveFormat := .ndjson,
    longEnough := by decide, shortEnough := by decide }

def plainSweep : List Operation :=
  [.append (guildDraft 0) fun _ => js "x", .append (guildDraft (40 * dayMs)) fun _ => js "y",
    .sweep (.guild, some (js "7")) (45 * dayMs) deleteOnly]

theorem plainSweep_breaks_verification :
    ¬ StepMachine.Always (operate (fun _ text => text) .sha256 (js "/archives"))
      (Verifies (fun _ text => text) .sha256) (Ledger.empty 0) plainSweep := by
  let check (ledger : Ledger) : Bool :=
    (verifyChain (fun _ text => text) .sha256 ledger (.guild, some (js "7")) 0).valid
  refine StepMachine.not_always _ check ?_ (by decide +kernel)
  intro ledger verifies
  exact verifies (.guild, some (js "7")) 0

end Audit
