import ArmstrongBot.Audit.Integrity

/-! The sequence numbers that appends assign over a run of appends and sweeps, with a log of
every entry ever appended next to the ledger. -/

namespace Audit

open JsText
open Calendar (Timestamp)

structure Logged where
  ledger : Ledger
  assigned : List AuditEntry

/-- The entries ever appended to a chain, in append order. -/
def Logged.history (state : Logged) (chain : ChainKey) : List AuditEntry :=
  state.assigned.filter fun entry => entry.chain == chain

def Logged.empty (clock : Timestamp) : Logged := { ledger := .empty clock, assigned := [] }

section

variable (createHash : HashAlgorithm → JsString → JsString) (algorithm : HashAlgorithm)
  (archiveDir : JsString)

def operateLogged (state : Logged) : Operation → Option Logged
  | .append draft ids =>
      match appendWithRetry createHash algorithm state.ledger ids draft with
      | .ok (entry, next) => some { ledger := next, assigned := state.assigned ++ [entry] }
      | .error _ => none
  | operation =>
      (operate createHash algorithm archiveDir state.ledger operation).map fun next =>
        { state with ledger := next }

/-- The numbers of a chain increase in append order, and what an archive holds under a number
is what the ledger holds under it. -/
structure Unambiguous (state : Logged) : Prop where
  increasing : ∀ chain, Keyset.Increasing AuditEntry.seq (state.history chain)
  contents : ∀ archive ∈ state.ledger.archives, ∀ file ∈ state.ledger.files,
    file.storageRef = archive.storageRef → ∀ archived ∈ file.entries,
      ∀ row ∈ state.ledger.rows archive.chain, archived.seq = row.seq → archived = row
  ranges : ∀ archive ∈ state.ledger.archives, ∀ file ∈ state.ledger.files,
    file.storageRef = archive.storageRef → ∀ row ∈ state.ledger.rows archive.chain,
      archive.fromSeq ≤ row.seq → row.seq ≤ archive.toSeq → row ∈ file.entries

/-- No append to a chain that has had entries and has none left. -/
def KeepsNumbering (state : Logged) : Operation → Prop
  | .append draft _ => state.ledger.rows draft.chain = [] → state.history draft.chain = []
  | _ => True

/-- The rows of a chain end its history; the archives of a chain lie before its rows. -/
structure Numbered (state : Logged) : Prop where
  linked : ∀ chain, ∃ start position,
    HashChain.Linked (link createHash algorithm) start position (state.ledger.rows chain) ∧
      (state.ledger.rows chain = [] → start = none ∧ position = 1)
  increasing : ∀ chain, Keyset.Increasing AuditEntry.seq (state.history chain)
  positive : ∀ entry ∈ state.assigned, 1 ≤ entry.seq
  suffix : ∀ chain, state.ledger.rows chain <:+ state.history chain
  archivesEnd : ∀ archive ∈ state.ledger.archives, ∃ archived ∈ state.history archive.chain,
    archive.toSeq = archived.seq
  archivesBefore : ∀ archive ∈ state.ledger.archives, ∀ row ∈ state.ledger.rows archive.chain,
    archive.toSeq < row.seq
  stored : ∀ archive ∈ state.ledger.archives, ∃ file ∈ state.ledger.files,
    file.storageRef = archive.storageRef
  contents : ∀ archive ∈ state.ledger.archives, ∀ file ∈ state.ledger.files,
    file.storageRef = archive.storageRef → ∀ archived ∈ file.entries, archived.seq ≤ archive.toSeq

variable {createHash algorithm archiveDir}

theorem Numbered.unambiguous {state : Logged} (numbered : Numbered createHash algorithm state) :
    Unambiguous state := by
  refine ⟨numbered.increasing, ?_, ?_⟩
  · intro archive member file fileMember same archived archivedMember row rowMember equal
    have upTo := numbered.contents archive member file fileMember same archived archivedMember
    have above := numbered.archivesBefore archive member row rowMember
    omega
  · intro archive member file _ _ row rowMember _ upTo
    have above := numbered.archivesBefore archive member row rowMember
    omega

theorem numbered_empty (clock : Timestamp) : Numbered createHash algorithm (Logged.empty clock) := by
  refine ⟨fun chain => ⟨none, 1, trivial, fun _ => ⟨rfl, rfl⟩⟩, fun chain => List.Pairwise.nil, ?_,
    fun chain => List.suffix_rfl, ?_, ?_, ?_, ?_⟩ <;> simp [Logged.empty, Ledger.empty]

theorem nextSeq_above {state : Logged} (numbered : Numbered createHash algorithm state)
    {chain : ChainKey} (keeps : state.ledger.rows chain = [] → state.history chain = [])
    {entry : AuditEntry} (member : entry ∈ state.history chain) :
    entry.seq < nextSeq (findLast state.ledger chain) := by
  obtain ⟨start, position, linked, _⟩ := numbered.linked chain
  rw [findLast_eq (linked_increasing linked)]
  cases ending : (state.ledger.rows chain).getLast? with
  | none =>
      rw [keeps (List.getLast?_eq_none_iff.mp ending)] at member
      simp at member
  | some last =>
      obtain ⟨front, rows⟩ := List.getLast?_eq_some_iff.mp ending
      obtain ⟨pruned, history⟩ := numbered.suffix chain
      have increasing := numbered.increasing chain
      rw [← history, rows, ← List.append_assoc] at increasing member
      have upTo := Keyset.Increasing.le_last _ increasing member
      simp only [nextSeq, Option.map_some, Option.getD_some]
      omega

theorem history_snoc (state : Logged) (next : Ledger) (entry : AuditEntry) (chain : ChainKey) :
    Logged.history { ledger := next, assigned := state.assigned ++ [entry] } chain =
      state.history chain ++ if entry.chain = chain then [entry] else [] := by
  by_cases same : entry.chain = chain <;> simp [Logged.history, same]

theorem numbered_append {state : Logged} (numbered : Numbered createHash algorithm state)
    {ids : Nat → JsString} {draft : AuditEntryDraft} {entry : AuditEntry} {next : Ledger}
    (appended : appendWithRetry createHash algorithm state.ledger ids draft = .ok (entry, next))
    (keeps : state.ledger.rows draft.chain = [] → state.history draft.chain = []) :
    Numbered createHash algorithm { ledger := next, assigned := state.assigned ++ [entry] } := by
  obtain ⟨rfl, rfl, seqEq, previousEq, recomputed⟩ := appendWithRetry_ok appended
  have above {earlier : AuditEntry} (member : earlier ∈ state.history entry.chain) :
      earlier.seq < entry.seq := by
    rw [seqEq]
    exact nextSeq_above numbered keeps member
  constructor
  · intro chain
    obtain ⟨start, position, linked, opening⟩ := numbered.linked chain
    rw [rows_snoc]
    by_cases inChain : entry.chain = chain
    · subst inChain
      rw [if_pos rfl]
      exact ⟨start, position, Linked.append linked opening seqEq previousEq recomputed, by simp⟩
    · rw [if_neg inChain, List.append_nil]
      exact ⟨start, position, linked, opening⟩
  · intro chain
    rw [history_snoc]
    by_cases inChain : entry.chain = chain
    · subst inChain
      rw [if_pos rfl]
      refine List.pairwise_append.mpr ⟨numbered.increasing _, List.pairwise_singleton _ _, ?_⟩
      intro earlier member later isEntry
      rw [List.mem_singleton.mp isEntry]
      exact above member
    · rw [if_neg inChain, List.append_nil]
      exact numbered.increasing chain
  · intro other member
    rcases List.mem_append.mp member with earlier | newest
    · exact numbered.positive other earlier
    · rw [List.mem_singleton.mp newest, seqEq]
      obtain ⟨start, position, linked, _⟩ := numbered.linked entry.chain
      cases last : findLast state.ledger entry.chain with
      | none => simp [nextSeq]
      | some row =>
          have rowMember := List.argmax_mem last
          have inHistory := (numbered.suffix entry.chain).subset rowMember
          have rowPositive := numbered.positive row (List.mem_of_mem_filter inHistory)
          simp only [nextSeq, Option.map_some, Option.getD_some]
          omega
  · intro chain
    rw [history_snoc, rows_snoc]
    obtain ⟨pruned, history⟩ := numbered.suffix chain
    exact ⟨pruned, by rw [← history, List.append_assoc]⟩
  · intro archive member
    obtain ⟨archived, inHistory, ends⟩ := numbered.archivesEnd archive member
    rw [history_snoc]
    exact ⟨archived, List.mem_append_left _ inHistory, ends⟩
  · intro archive member row rowMember
    rw [rows_snoc] at rowMember
    rcases List.mem_append.mp rowMember with earlier | newest
    · exact numbered.archivesBefore archive member row earlier
    · split at newest
      · rename_i inChain
        obtain ⟨archived, inHistory, ends⟩ := numbered.archivesEnd archive member
        rw [List.mem_singleton.mp newest, ends]
        exact above (inChain ▸ inHistory)
      · simp at newest
  · exact numbered.stored
  · exact numbered.contents

theorem Numbered.prune {state : Logged} (numbered : Numbered createHash algorithm state)
    {chain : ChainKey} {cutoff : Timestamp} {front : List AuditEntry} {boundary : AuditEntry}
    {next : Ledger} (old : expired cutoff (state.ledger.rows chain) = front ++ [boundary])
    (keptRows : ∀ other, next.rows other =
      if other = chain then retained cutoff (state.ledger.rows chain) else state.ledger.rows other)
    (sameArchives : next.archives = state.ledger.archives)
    (sameFiles : next.files = state.ledger.files) :
    Numbered createHash algorithm { state with ledger := next } := by
  have fewer (other : ChainKey) : next.rows other <:+ state.ledger.rows other := by
    rw [keptRows]
    split
    · rename_i same
      rw [same]
      exact List.dropWhile_suffix _
    · exact List.suffix_rfl
  constructor
  · intro other
    rw [keptRows]
    by_cases same : other = chain
    · rw [if_pos same]
      obtain ⟨start, position, linked, _⟩ := numbered.linked chain
      cases kept : retained cutoff (state.ledger.rows chain) with
      | nil => exact ⟨none, 1, trivial, fun _ => ⟨rfl, rfl⟩⟩
      | cons first rest =>
          have keptLinked := (kept_linked linked old).2
          rw [kept] at keptLinked
          exact ⟨_, _, keptLinked, by simp⟩
    · rw [if_neg same]
      exact numbered.linked other
  · exact numbered.increasing
  · exact numbered.positive
  · intro other
    exact (fewer other).trans (numbered.suffix other)
  · rw [sameArchives]
    exact numbered.archivesEnd
  · intro other member row rowMember
    rw [sameArchives] at member
    exact numbered.archivesBefore other member row ((fewer _).subset rowMember)
  · rw [sameArchives, sameFiles]
    exact numbered.stored
  · rw [sameArchives, sameFiles]
    exact numbered.contents

/-- What is archived after its rows are gone lies before those that are left, in a new file. -/
theorem Numbered.archive {state : Logged} (numbered : Numbered createHash algorithm state)
    {before next : Ledger} {position : Int} {entries : List AuditEntry} {boundary : AuditEntry}
    {chain : ChainKey} {archive : AuditArchive} {file : ArchiveFile}
    (recorded : Recorded before next chain position entries boundary archive file)
    (sameRows : next.rows = state.ledger.rows) (sameArchives : before.archives = state.ledger.archives)
    (sameFiles : before.files = state.ledger.files) (inHistory : boundary ∈ state.history chain)
    (below : ∀ row ∈ state.ledger.rows chain, boundary.seq < row.seq)
    (upTo : ∀ entry ∈ entries, entry.seq ≤ boundary.seq) :
    Numbered createHash algorithm { state with ledger := next } := by
  have archives := recorded.archives
  have files := recorded.files
  rw [sameArchives] at archives
  rw [sameFiles] at files
  constructor
  · rw [sameRows]
    exact numbered.linked
  · exact numbered.increasing
  · exact numbered.positive
  · rw [sameRows]
    exact numbered.suffix
  · intro other member
    rw [archives] at member
    rcases List.mem_append.mp member with earlier | newest
    · exact numbered.archivesEnd other earlier
    · rw [List.mem_singleton.mp newest, recorded.chainEq]
      exact ⟨boundary, inHistory, recorded.toSeq⟩
  · intro other member row rowMember
    rw [archives] at member
    rw [sameRows] at rowMember
    rcases List.mem_append.mp member with earlier | newest
    · exact numbered.archivesBefore other earlier row rowMember
    · rw [List.mem_singleton.mp newest] at rowMember ⊢
      rw [recorded.chainEq] at rowMember
      rw [recorded.toSeq]
      exact below row rowMember
  · intro other member
    rw [archives] at member
    rw [files]
    rcases List.mem_append.mp member with earlier | newest
    · obtain ⟨stored, storedMember, sameRef⟩ := numbered.stored other earlier
      exact ⟨stored, List.mem_append_left _ storedMember, sameRef⟩
    · rw [List.mem_singleton.mp newest]
      exact ⟨file, by simp, recorded.storageRef.symm⟩
  · intro other member stored storedMember sameRef archived archivedMember
    have isFresh := recorded.fresh
    rw [sameFiles] at isFresh
    rw [archives] at member
    rw [files] at storedMember
    rcases List.mem_append.mp member with earlier | newest <;>
      rcases List.mem_append.mp storedMember with earlierFile | newestFile
    · exact numbered.contents other earlier stored earlierFile sameRef archived archivedMember
    · -- the new file is at a path that no earlier archive points to
      obtain ⟨held, heldMember, heldRef⟩ := numbered.stored other earlier
      rw [List.mem_singleton.mp newestFile] at sameRef
      exact absurd (heldRef.trans sameRef.symm) (isFresh held heldMember)
    · rw [List.mem_singleton.mp newest, recorded.storageRef] at sameRef
      exact absurd sameRef (isFresh stored earlierFile)
    · rw [List.mem_singleton.mp newestFile, recorded.content] at archivedMember
      rw [List.mem_singleton.mp newest, recorded.toSeq]
      exact upTo archived archivedMember

theorem numbered_sweep {state : Logged} (numbered : Numbered createHash algorithm state)
    {chain : ChainKey} {now : Timestamp} {config : AuditGuildConfig} {count : Nat} {next : Ledger}
    (swept : sweepChain state.ledger archiveDir chain now config = .ok (count, next)) :
    Numbered createHash algorithm { state with ledger := next } := by
  obtain ⟨start, position, linked, _⟩ := numbered.linked chain
  rcases sweepChain_ok linked swept with ⟨_, rfl⟩ | ⟨front, boundary, old, keptRows, archives⟩
  · exact numbered
  · rcases archives with ⟨_, sameArchives, sameFiles, _⟩ | ⟨_, archive, file, recorded⟩
    · exact numbered.prune old keptRows sameArchives sameFiles
    · let pruned : Ledger :=
        { next with archives := state.ledger.archives, files := state.ledger.files }
      have prunedNumbered : Numbered createHash algorithm { state with ledger := pruned } :=
        numbered.prune old keptRows rfl rfl
      have boundaryMember : boundary ∈ state.ledger.rows chain := by
        rw [← expired_append_retained (computeCutoff now config.retentionDays)
          (state.ledger.rows chain), old]
        simp
      refine prunedNumbered.archive recorded rfl rfl rfl
        ((numbered.suffix chain).subset boundaryMember) ?_ ?_
      · intro row rowMember
        have isKept : row ∈ next.rows chain := rowMember
        rw [keptRows, if_pos rfl] at isKept
        have bounds : boundary.seq + 1 ≤ row.seq ∧ _ :=
          (kept_linked linked old).2.seq_bounds _ isKept
        omega
      · intro entry member
        have bounds : _ ∧ entry.seq < _ :=
          (linked_parts linked (computeCutoff now config.retentionDays)).1.seq_bounds _ member
        have boundarySeq := boundary_seq linked old
        omega

theorem keepsNumbering_of_unambiguous {state : Logged}
    (numbered : Numbered createHash algorithm state) {ids : Nat → JsString}
    {draft : AuditEntryDraft} {entry : AuditEntry} {next : Ledger}
    (appended : appendWithRetry createHash algorithm state.ledger ids draft = .ok (entry, next))
    (unambiguous : Unambiguous { ledger := next, assigned := state.assigned ++ [entry] }) :
    KeepsNumbering state (.append draft ids) := by
  intro empty
  obtain ⟨rfl, rfl, seqEq, _⟩ := appendWithRetry_ok appended
  have none : findLast state.ledger entry.chain = none := by simp [findLast, empty]
  have restarts : entry.seq = 1 := by rw [seqEq, none]; rfl
  have increasing := unambiguous.increasing entry.chain
  rw [history_snoc, if_pos rfl] at increasing
  by_contra nonempty
  obtain ⟨earlier, member⟩ := List.exists_mem_of_ne_nil _ nonempty
  have below := (List.pairwise_append.mp increasing).2.2 earlier member entry (by simp)
  have positive := numbered.positive earlier (List.mem_of_mem_filter member)
  omega

variable (createHash algorithm archiveDir)

/-- Along a run of appends and sweeps no number is ever assigned twice within a chain exactly
when no append meets a chain that has lost all of its entries. -/
theorem unambiguous_always_iff (clock : Timestamp) (operations : List Operation) :
    StepMachine.Always (operateLogged createHash algorithm archiveDir) Unambiguous
        (Logged.empty clock) operations ↔
      StepMachine.Guarded (operateLogged createHash algorithm archiveDir) KeepsNumbering
        (Logged.empty clock) operations := by
  have clear : ∀ state, Numbered createHash algorithm state → Unambiguous state :=
    fun _ numbered => numbered.unambiguous
  refine StepMachine.always_iff_guarded _ clear ?_ ?_ (numbered_empty clock) operations
  · intro state operation next numbered keeps taken
    cases operation with
    | append draft ids =>
        simp only [operateLogged] at taken
        split at taken
        · rename_i entry after appended
          obtain rfl := Option.some.inj taken
          exact numbered_append numbered appended keeps
        · simp at taken
    | sweep chain now config =>
        obtain ⟨ledger, operated, rfl⟩ := Option.map_eq_some_iff.mp taken
        simp only [operate] at operated
        split at operated
        · rename_i count after swept
          obtain rfl := Option.some.inj operated
          exact numbered_sweep numbered swept
        · simp at operated
    | pass elapsed =>
        obtain rfl := Option.some.inj taken
        exact ⟨numbered.linked, numbered.increasing, numbered.positive, numbered.suffix,
          numbered.archivesEnd, numbered.archivesBefore, numbered.stored, numbered.contents⟩
  · intro state operation next numbered taken unambiguous
    cases operation with
    | append draft ids =>
        simp only [operateLogged] at taken
        split at taken
        · rename_i entry after appended
          obtain rfl := Option.some.inj taken
          exact keepsNumbering_of_unambiguous numbered appended unambiguous
        · simp at taken
    | sweep chain now config => trivial
    | pass elapsed => trivial

end

/-! A run in which a sweep prunes a whole chain, which then begins at 1 again. -/

def wholeSweep : List Operation :=
  [.append (guildDraft 0) fun _ => js "x", .sweep (.guild, some (js "7")) (45 * dayMs) archiveFirst,
    .append (guildDraft (46 * dayMs)) fun _ => js "y"]

theorem wholeSweep_repeats_number :
    ¬ StepMachine.Always (operateLogged (fun _ text => text) .sha256 (js "/archives")) Unambiguous
      (Logged.empty 0) wholeSweep := by
  let check (state : Logged) : Bool :=
    decide (((state.history (.guild, some (js "7"))).map AuditEntry.seq).Pairwise (· < ·))
  refine StepMachine.not_always _ check ?_ (by decide +kernel)
  intro state unambiguous
  exact decide_eq_true (List.pairwise_map.mpr (unambiguous.increasing _))

end Audit
