import ArmstrongBot.Audit.Writers

/-! The rows of a chain under any interleaving of workers that append to it. -/

namespace Audit

open JsText
open Calendar (Timestamp)

/-- The rows form one chain: distinct and contiguous numbers, each row linked to the row of the
number before its own. -/
structure Linear (rows : List AuditEntry) : Prop where
  distinct : rows.Pairwise fun first second => first.seq ≠ second.seq
  contiguous : ∀ row ∈ rows, row.seq = 1 ∨ ∃ before ∈ rows, row.seq = before.seq + 1
  opens : ∀ row ∈ rows, row.seq = 1 → row.previousHash = none
  links : ∀ before ∈ rows, ∀ row ∈ rows, row.seq = before.seq + 1 →
    row.previousHash = some before.hash

def AllLinear {ι : Type*} (state : Writers ι) : Prop := ∀ chain, Linear (state.ledger.rows chain)

/-- No worker inserts a row of a chain without a guild under a number that a row of the chain
has, unless its id or its hash is taken as well. -/
def TakesFreeNumber {ι : Type*} (state : Writers ι) : Write ι → Prop
  | .insert worker id =>
      match state.workers worker with
      | .inserting draft _ seq _ hash => draft.guildId = none →
          (∃ row ∈ state.ledger.rows draft.chain, row.seq = seq) →
            ∃ row ∈ state.ledger.entries, row.id = id ∨ row.hash = hash
      | _ => True
  | _ => True

section

variable {createHash : HashAlgorithm → JsString → JsString} {algorithm : HashAlgorithm}

theorem Linear.of_linked {rows : List AuditEntry}
    (linked : HashChain.Linked (link createHash algorithm) none 1 rows) : Linear rows := by
  have bounds {row : AuditEntry} (member : row ∈ rows) : 1 ≤ row.seq ∧ row.seq < 1 + rows.length :=
    linked.seq_bounds _ member
  constructor
  · exact List.Pairwise.imp (fun {_ _} below => ne_of_lt below) linked.increasing
  · intro row member
    obtain ⟨lower, upper⟩ := bounds member
    by_cases one : row.seq = 1
    · exact Or.inl one
    · obtain ⟨before, beforeMember, found⟩ : ∃ before ∈ rows, before.seq = row.seq - 1 :=
        linked.exists_seq _ (by omega) (by omega)
      exact Or.inr ⟨before, beforeMember, by omega⟩
  · intro row member one
    cases rows with
    | nil => simp at member
    | cons first rest =>
        have increasing : Keyset.Increasing AuditEntry.seq (first :: rest) := linked.increasing
        have isFirst := increasing.unique _ member List.mem_cons_self (one.trans linked.1.symm)
        rw [isFirst]
        exact linked.2.1
  · intro before beforeMember row member follows
    exact linked.previous_eq _ beforeMember member follows

/-- What a worker carries from its read of the chain: the last row was a row of the chain, and
is still one. -/
def Prepared (createHash : HashAlgorithm → JsString → JsString) (algorithm : HashAlgorithm)
    (ledger : Ledger) : Worker → Prop
  | .computing draft _ last => ∀ row ∈ last, row ∈ ledger.rows draft.chain
  | .inserting draft _ seq previousHash hash => ∃ last : Option AuditEntry,
      (∀ row ∈ last, row ∈ ledger.rows draft.chain) ∧ seq = nextSeq last ∧
        previousHash = nextPrevious last ∧ hash = nextHash createHash algorithm draft last
  | _ => True

theorem Prepared.mono {ledger next : Ledger} {worker : Worker}
    (grows : ∀ chain, ∀ row ∈ ledger.rows chain, row ∈ next.rows chain)
    (prepared : Prepared createHash algorithm ledger worker) :
    Prepared createHash algorithm next worker := by
  cases worker with
  | computing draft attempt last => exact fun row member => grows _ row (prepared row member)
  | inserting draft attempt seq previousHash hash =>
      obtain ⟨last, known, carried⟩ := prepared
      exact ⟨last, fun row member => grows _ row (known row member), carried⟩
  | idle | reading _ _ | returned _ | thrown _ => trivial

theorem findLast_of_free {ledger : Ledger} {chain : ChainKey} {last : Option AuditEntry}
    (linked : HashChain.Linked (link createHash algorithm) none 1 (ledger.rows chain))
    (known : ∀ row ∈ last, row ∈ ledger.rows chain)
    (free : ∀ row ∈ ledger.rows chain, row.seq ≠ nextSeq last) :
    findLast ledger chain = last := by
  have increasing : Keyset.Increasing AuditEntry.seq (ledger.rows chain) := linked.increasing
  rw [findLast_eq increasing]
  cases ending : (ledger.rows chain).getLast? with
  | none =>
      have empty := List.getLast?_eq_none_iff.mp ending
      cases last with
      | none => rfl
      | some row => simpa [empty] using known row rfl
  | some final =>
      have finalMember := List.mem_of_getLast? ending
      have finalSeq : final.seq = 1 + (ledger.rows chain).length - 1 := linked.seq_last _ ending
      have occupied {seq : Int} (lower : 1 ≤ seq) (upper : seq ≤ final.seq) : seq ≠ nextSeq last := by
        obtain ⟨row, member, found⟩ : ∃ row ∈ ledger.rows chain, row.seq = seq :=
          linked.exists_seq _ lower (by omega)
        rw [← found]
        exact free row member
      have finalBounds : 1 ≤ final.seq ∧ _ := linked.seq_bounds _ finalMember
      cases last with
      | none => exact absurd rfl (occupied (le_refl 1) finalBounds.1)
      | some row =>
          have rowBounds : 1 ≤ row.seq ∧ row.seq < 1 + (ledger.rows chain).length :=
            linked.seq_bounds _ (known row rfl)
          have isFinal : final.seq = row.seq := by
            by_contra apart
            exact occupied (show 1 ≤ row.seq + 1 by omega) (by omega) (by simp [nextSeq])
          rw [increasing.unique _ finalMember (known row rfl) isFinal]

structure Linearised {ι : Type*} (createHash : HashAlgorithm → JsString → JsString)
    (algorithm : HashAlgorithm) (state : Writers ι) : Prop where
  linked : ∀ chain, HashChain.Linked (link createHash algorithm) none 1 (state.ledger.rows chain)
  prepared : ∀ worker, Prepared createHash algorithm state.ledger (state.workers worker)

theorem Linearised.linear {ι : Type*} {state : Writers ι}
    (linearised : Linearised createHash algorithm state) : AllLinear state :=
  fun chain => Linear.of_linked (linearised.linked chain)

variable {ι : Type*} [DecidableEq ι]

theorem Linearised.setWorker {state : Writers ι} (linearised : Linearised createHash algorithm state)
    (worker : ι) {position : Worker}
    (prepared : Prepared createHash algorithm state.ledger position) :
    Linearised createHash algorithm (state.setWorker worker position) := by
  refine ⟨linearised.linked, ?_⟩
  intro other
  by_cases same : other = worker
  · subst same
    simpa [Writers.setWorker] using prepared
  · simpa [Writers.setWorker, Function.update_of_ne same] using linearised.prepared other

theorem prepared_retry (ledger : Ledger) (draft : AuditEntryDraft) (attempt : Nat)
    (conflict : AppendError) :
    Prepared createHash algorithm ledger (retry draft attempt conflict) := by
  unfold retry
  split <;> trivial

theorem linearised_insert {state : Writers ι} (linearised : Linearised createHash algorithm state)
    {worker : ι} {draft : AuditEntryDraft} {attempt : Nat} {seq : Int}
    {previousHash : Option JsString} {hash id : JsString} {entry : AuditEntry} {next : Ledger}
    (position : state.workers worker = .inserting draft attempt seq previousHash hash)
    (appended : append state.ledger id draft seq previousHash hash = .ok (entry, next))
    (free : ∀ row ∈ state.ledger.rows draft.chain, row.seq ≠ seq) :
    Linearised createHash algorithm
      { (state.setWorker worker (.returned entry)) with ledger := next } := by
  obtain ⟨_, rfl, rfl⟩ := append_ok_iff.mp appended
  have carried := linearised.prepared worker
  rw [position] at carried
  obtain ⟨last, known, rfl, rfl, rfl⟩ := carried
  have lastEq := findLast_of_free (linearised.linked draft.chain) known free
  constructor
  · intro chain
    rw [rows_snoc]
    split
    · rename_i inChain
      subst inChain
      refine Linked.append (linearised.linked _) (fun _ => ⟨rfl, rfl⟩) ?_ ?_ rfl
      · exact congrArg nextSeq lastEq.symm
      · exact congrArg nextPrevious lastEq.symm
    · rw [List.append_nil]
      exact linearised.linked chain
  · intro other
    have settled : Prepared createHash algorithm state.ledger
        (.returned (toEntry state.ledger id draft (nextSeq last) (nextPrevious last)
          (nextHash createHash algorithm draft last))) := trivial
    refine Prepared.mono ?_ ((linearised.setWorker worker settled).prepared other)
    intro chain row member
    rw [rows_snoc]
    exact List.mem_append_left _ member

omit [DecidableEq ι] in
/-- The index on (scope, guildId, seq) and the condition for chains without a guild leave only
inserts under free numbers. -/
theorem free_of_appended {state : Writers ι} {worker : ι} {draft : AuditEntryDraft} {attempt : Nat}
    {seq : Int} {previousHash : Option JsString} {hash id : JsString} {entry : AuditEntry}
    {next : Ledger}
    (position : state.workers worker = .inserting draft attempt seq previousHash hash)
    (appended : append state.ledger id draft seq previousHash hash = .ok (entry, next))
    (takes : TakesFreeNumber state (.insert worker id)) :
    ∀ row ∈ state.ledger.rows draft.chain, row.seq ≠ seq := by
  obtain ⟨unique, rfl, _⟩ := append_ok_iff.mp appended
  intro row member same
  obtain ⟨inTable, inChain⟩ := mem_rows.mp member
  have admitted := unique row inTable
  simp only [violatesUnique, toEntry, inChain, same, Bool.or_eq_false_iff, beq_eq_false_iff_ne]
    at admitted
  cases guild : draft.guildId with
  | some guildId => simp [guild] at admitted
  | none =>
      simp only [TakesFreeNumber, position] at takes
      obtain ⟨other, otherMember, taken⟩ := takes guild ⟨row, member, same⟩
      have otherAdmitted := unique other otherMember
      simp only [violatesUnique, toEntry, Bool.or_eq_false_iff, beq_eq_false_iff_ne] at otherAdmitted
      rcases taken with sameId | sameHash
      · exact otherAdmitted.1.1 sameId
      · exact otherAdmitted.1.2 sameHash

theorem linearised_write {state next : Writers ι} {action : Write ι}
    (linearised : Linearised createHash algorithm state) (takes : TakesFreeNumber state action)
    (taken : write createHash algorithm state action = some next) :
    Linearised createHash algorithm next := by
  cases action with
  | start worker draft =>
      simp only [write] at taken
      split at taken
      · obtain rfl := Option.some.inj taken
        exact linearised.setWorker worker trivial
      · obtain rfl := Option.some.inj taken
        exact linearised.setWorker worker trivial
      · obtain rfl := Option.some.inj taken
        exact linearised.setWorker worker trivial
      · simp at taken
  | findLast worker =>
      simp only [write] at taken
      split at taken
      · obtain rfl := Option.some.inj taken
        apply linearised.setWorker worker
        intro row member
        exact List.argmax_mem member
      · simp at taken
  | computeHash worker =>
      simp only [write] at taken
      split at taken
      · rename_i draft attempt last position
        obtain rfl := Option.some.inj taken
        have known := linearised.prepared worker
        rw [position] at known
        exact linearised.setWorker worker ⟨last, known, rfl, rfl, rfl⟩
      · simp at taken
  | insert worker id =>
      simp only [write] at taken
      split at taken
      · rename_i draft attempt seq previousHash hash position
        split at taken
        · rename_i entry ledger appended
          obtain rfl := Option.some.inj taken
          exact linearised_insert linearised position appended
            (free_of_appended position appended takes)
        · obtain rfl := Option.some.inj taken
          exact linearised.setWorker worker (prepared_retry _ _ _ _)
      · simp at taken
  | abort worker =>
      obtain rfl := Option.some.inj taken
      exact linearised.setWorker worker trivial
  | pass elapsed =>
      obtain rfl := Option.some.inj taken
      exact ⟨linearised.linked, linearised.prepared⟩

theorem takesFreeNumber_of_linear {state next : Writers ι} {action : Write ι}
    (taken : write createHash algorithm state action = some next) (linear : AllLinear next) :
    TakesFreeNumber state action := by
  cases action with
  | insert worker id =>
      simp only [TakesFreeNumber]
      split
      · rename_i draft attempt seq previousHash hash position
        rintro guild ⟨row, member, same⟩
        simp only [write, position] at taken
        split at taken
        · rename_i entry ledger appended
          obtain ⟨_, rfl, rfl⟩ := append_ok_iff.mp appended
          obtain rfl := Option.some.inj taken
          have distinct := (linear draft.chain).distinct
          rw [rows_snoc, if_pos (toEntry_chain ..)] at distinct
          exact absurd same ((List.pairwise_append.mp distinct).2.2 row member _ List.mem_cons_self)
        · rename_i conflict rejected
          by_contra free
          simp only [not_exists, not_and, not_or] at free
          have admitted : append state.ledger id draft seq previousHash hash =
              .ok (toEntry state.ledger id draft seq previousHash hash,
                { state.ledger with entries := state.ledger.entries ++
                  [toEntry state.ledger id draft seq previousHash hash] }) := by
            refine append_ok_iff.mpr ⟨?_, rfl, rfl⟩
            intro other otherMember
            obtain ⟨otherId, otherHash⟩ := free other otherMember
            simp [violatesUnique, toEntry, otherId, otherHash, guild]
          simp [admitted] at rejected
      · trivial
  | start _ _ | findLast _ | computeHash _ | abort _ | pass _ => trivial

variable (createHash algorithm)

/-- However workers interleave, the rows of every chain stay one linear chain exactly when no
worker inserts under a taken number where no index rejects it. -/
theorem linear_always_iff (clock : Timestamp) (actions : List (Write ι)) :
    StepMachine.Always (write createHash algorithm) AllLinear (Writers.empty clock) actions ↔
      StepMachine.Guarded (write createHash algorithm) TakesFreeNumber (Writers.empty clock)
        actions := by
  have linear : ∀ state : Writers ι, Linearised createHash algorithm state → AllLinear state :=
    fun _ linearised => linearised.linear
  refine StepMachine.always_iff_guarded _ linear ?_ ?_ ?_ actions
  · intro state action next linearised takes taken
    exact linearised_write linearised takes taken
  · intro state action next _ taken allLinear
    exact takesFreeNumber_of_linear taken allLinear
  · exact ⟨fun chain => trivial, fun worker => trivial⟩

end

/-! Two workers that read the empty global chain before either of them inserts. -/

def globalDraft (action : JsString) : AuditEntryDraft :=
  { guildDraft 0 with scope := .global, guildId := none, action }

def bothInsertFirst : List (Write Bool) :=
  [.start true (globalDraft (js "a")), .start false (globalDraft (js "b")), .findLast true,
    .findLast false, .computeHash true, .computeHash false, .insert true (js "x"),
    .insert false (js "y")]

theorem bothInsertFirst_share_number :
    ¬ StepMachine.Always (write (fun _ text => text) .sha256) AllLinear (Writers.empty 0)
      bothInsertFirst := by
  let check (state : Writers Bool) : Bool :=
    decide ((state.ledger.rows (.global, none)).Pairwise fun first second => first.seq ≠ second.seq)
  refine StepMachine.not_always _ check ?_ (by decide +kernel)
  intro state linear
  exact decide_eq_true (linear (.global, none)).distinct

end Audit
