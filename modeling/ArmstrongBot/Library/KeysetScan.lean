import Mathlib.Data.List.Perm.Subperm
import Mathlib.Data.List.Sort

/-! A reading in batches that resumes behind the last row of the batch before. Distinct rows may be
equal in the order of the reading, and then a batch may end between them. -/

namespace KeysetScan

/-- An order of the rows, and the cursor that a row leaves: behind it are the rows that the order
puts strictly after that row. -/
structure Keyset (α γ : Type*) where
  le : α → α → Bool
  cursorOf : α → γ
  behind : γ → α → Bool
  total : ∀ first second, le first second = true ∨ le second first = true
  transitive : ∀ first second third, le first second = true → le second third = true →
    le first third = true
  resumes : ∀ last row, behind (cursorOf last) row = !le row last
  onward : ∀ cursor first later, behind cursor first = true → le first later = true →
    behind cursor later = true

variable {α γ : Type*} {keyset : Keyset α γ}

theorem Keyset.refl (keyset : Keyset α γ) (row : α) : keyset.le row row = true :=
  (keyset.total row row).elim id id

/-- A way to put rows in the order, which leaves equal rows in an order of its own. -/
structure Sorting (keyset : Keyset α γ) where
  sort : List α → List α
  perm : ∀ rows, (sort rows).Perm rows
  ordered : ∀ rows, (sort rows).Pairwise fun first second => keyset.le first second = true

def Sorting.stable (keyset : Keyset α γ) : Sorting keyset :=
  { sort := fun rows => rows.insertionSort fun first second => keyset.le first second = true
    perm := fun rows => List.perm_insertionSort _ rows
    ordered := fun rows =>
      have : Std.Total fun first second => keyset.le first second = true := ⟨keyset.total⟩
      have : IsTrans α fun first second => keyset.le first second = true := ⟨keyset.transitive⟩
      List.pairwise_insertionSort _ rows }

def remaining (keyset : Keyset α γ) (rows : List α) : Option γ → List α
  | none => rows
  | some cursor => rows.filter (keyset.behind cursor)

structure Scan (α γ : Type*) where
  yielded : List α
  cursor : Option γ
  isOver : Bool

def Scan.start (cursor : Option γ) : Scan α γ := { yielded := [], cursor, isOver := false }

def Scan.next (sorting : Sorting keyset) (size : Nat) (rows : List α) (scan : Scan α γ) :
    Scan α γ :=
  if scan.isOver then scan
  else
    let batch := (sorting.sort (remaining keyset rows scan.cursor)).take size
    match batch.getLast? with
    | none => { scan with isOver := true }
    | some last =>
        { yielded := scan.yielded ++ batch, cursor := some (keyset.cursorOf last)
          isOver := false }

/-- The reading after so many queries, each answered in an order of the rows. -/
def scan (sortings : Nat → Sorting keyset) (size : Nat) (rows : List α) (cursor : Option γ) :
    Nat → Scan α γ
  | 0 => .start cursor
  | count + 1 => (scan sortings size rows cursor count).next (sortings count) size rows

/-- The reading ends, and has then yielded each of the remaining rows once, in order. -/
def Exhausts (sortings : Nat → Sorting keyset) (size : Nat) (rows : List α) (cursor : Option γ) :
    Prop :=
  ∃ count, (scan sortings size rows cursor count).isOver = true ∧
    (scan sortings size rows cursor count).yielded.Perm (remaining keyset rows cursor) ∧
    (scan sortings size rows cursor count).yielded.Pairwise fun first second =>
      keyset.le first second = true

def before (keyset : Keyset α γ) (rows : List α) (row : α) : Nat :=
  rows.countP fun other => !keyset.le row other

def upTo (keyset : Keyset α γ) (rows : List α) (row : α) : Nat :=
  rows.countP fun other => keyset.le other row

/-- No whole number of batches ends within a group of rows that the order does not tell apart. -/
def Separated (keyset : Keyset α γ) (size : Nat) (rows : List α) : Prop :=
  ∀ row ∈ rows, ∀ count, size ∣ count →
    ¬ (before keyset rows row < count ∧ count < upTo keyset rows row)

theorem separated_perm {size : Nat} {rows others : List α} (perm : rows.Perm others) :
    Separated keyset size rows ↔ Separated keyset size others := by
  simp only [Separated, before, upTo, perm.mem_iff, perm.countP_eq]

theorem separated_of_distinct {size : Nat} {rows : List α}
    (apart : rows.Pairwise fun first second =>
      keyset.le first second = false ∨ keyset.le second first = false) :
    Separated keyset size rows := by
  rintro row member count - ⟨below, above⟩
  obtain ⟨front, rest, rfl⟩ := List.append_of_mem member
  obtain ⟨-, restApart, across⟩ := List.pairwise_append.mp apart
  have others : ∀ other ∈ front ++ rest,
      keyset.le other row = true → (!keyset.le row other) = true := by
    intro other otherMember least
    rcases List.mem_append.mp otherMember with inFront | inRest
    · have differ := across other inFront row List.mem_cons_self
      simpa [least] using differ
    · have differ := (List.pairwise_cons.mp restApart).1 other inRest
      simpa [least] using differ
  have least := List.countP_mono_left others
  simp only [before, upTo, List.countP_append, List.countP_cons, keyset.refl] at below above least
  simp at below above
  omega

/-! One batch. -/

section

variable {size : Nat} {sorted : List α} {last : α}

theorem le_last (ordered : sorted.Pairwise fun first second => keyset.le first second = true)
    (isLast : (sorted.take size).getLast? = some last) {row : α} (member : row ∈ sorted.take size) :
    keyset.le row last = true := by
  obtain ⟨front, equal⟩ := List.getLast?_eq_some_iff.mp isLast
  have taken : (sorted.take size).Pairwise fun first second => keyset.le first second = true :=
    ordered.sublist (List.take_sublist size sorted)
  rw [equal] at taken member
  rcases List.mem_append.mp member with inFront | atEnd
  · exact (List.pairwise_append.mp taken).2.2 row inFront last (List.mem_singleton_self last)
  · rw [List.mem_singleton.mp atEnd]
    exact keyset.refl last

theorem last_le (ordered : sorted.Pairwise fun first second => keyset.le first second = true)
    (isLast : (sorted.take size).getLast? = some last) {row : α} (member : row ∈ sorted.drop size) :
    keyset.le last row = true := by
  rw [← List.take_append_drop size sorted] at ordered
  exact (List.pairwise_append.mp ordered).2.2 last (List.mem_of_getLast? isLast) row member

/-- Every row of the batch counts among the rows up to its last one. -/
theorem batch_length_le (ordered : sorted.Pairwise fun first second => keyset.le first second = true)
    (isLast : (sorted.take size).getLast? = some last) :
    (sorted.take size).length ≤ upTo keyset sorted last := by
  have all : (sorted.take size).countP (fun row => keyset.le row last) = (sorted.take size).length :=
    List.countP_eq_length.mpr fun row member => le_last ordered isLast member
  rw [← all]
  exact (List.take_sublist size sorted).countP_le

/-- The rows before the last row of a batch are in the batch, and the last row is not before
itself. -/
theorem before_last_lt (ordered : sorted.Pairwise fun first second => keyset.le first second = true)
    (isLast : (sorted.take size).getLast? = some last) :
    before keyset sorted last < size := by
  have none : (sorted.drop size).countP (fun row => !keyset.le last row) = 0 := by
    rw [List.countP_eq_zero]
    intro row member
    simp [last_le ordered isLast member]
  have some : (sorted.take size).countP (fun row => !keyset.le last row) <
      (sorted.take size).length := by
    refine lt_of_le_of_ne List.countP_le_length fun equal => ?_
    have self := List.countP_eq_length.mp equal last (List.mem_of_getLast? isLast)
    simp [keyset.refl] at self
  have taken : (sorted.take size).length ≤ size := by
    rw [List.length_take]
    omega
  have parts : before keyset sorted last =
      (sorted.take size).countP (fun row => !keyset.le last row) +
        (sorted.drop size).countP fun row => !keyset.le last row := by
    rw [before, ← List.countP_append, List.take_append_drop]
  omega

/-- Whoever comes behind the last row of a batch has every row up to that one before it. -/
theorem counts_later (keyset : Keyset α γ) (rows : List α) {row : α}
    (later : keyset.le row last = false) :
    before keyset rows row =
        upTo keyset rows last + before keyset (rows.filter fun other => !keyset.le other last) row ∧
      upTo keyset rows row =
        upTo keyset rows last + upTo keyset (rows.filter fun other => !keyset.le other last) row := by
  have above : keyset.le last row = true := by
    simpa [later] using keyset.total row last
  have counted : ∀ other, keyset.le other last = true →
      keyset.le row other = false ∧ keyset.le other row = true := by
    intro other least
    refine ⟨?_, keyset.transitive _ _ _ least above⟩
    rw [← Bool.not_eq_true]
    intro below
    rw [keyset.transitive _ _ _ below least] at later
    exact absurd later (by decide)
  simp only [before, upTo]
  induction rows with
  | nil => simp
  | cons other others ih =>
      cases least : keyset.le other last with
      | true =>
          obtain ⟨notBelow, reached⟩ := counted other least
          simp [least, notBelow, reached]
          omega
      | false =>
          simp [List.countP_cons, least]
          omega

theorem separated_iff (ordered : sorted.Pairwise fun first second => keyset.le first second = true)
    (isLast : (sorted.take size).getLast? = some last) :
    Separated keyset size sorted ↔
      (sorted.take size).length = upTo keyset sorted last ∧
        Separated keyset size (sorted.filter fun row => !keyset.le row last) := by
  have reached := batch_length_le ordered isLast
  have lastMember : last ∈ sorted := List.mem_of_mem_take (List.mem_of_getLast? isLast)
  have upToLength : upTo keyset sorted last ≤ sorted.length := List.countP_le_length
  rw [List.length_take] at reached ⊢
  by_cases short : sorted.length ≤ size
  · -- the last batch: nothing is behind it, and it is shorter than two batches
    have whole : upTo keyset sorted last = sorted.length := by omega
    have nothing : (sorted.filter fun row => !keyset.le row last) = [] := by
      rw [List.filter_eq_nil_iff]
      intro row member
      simpa using List.countP_eq_length.mp whole row member
    rw [nothing]
    constructor
    · intro _
      exact ⟨by omega, by simp [Separated]⟩
    · rintro - row - count divides ⟨below, above⟩
      have fits : upTo keyset sorted row ≤ sorted.length := List.countP_le_length
      have least := Nat.le_of_dvd (by omega) divides
      omega
  · have startsBelow := before_last_lt ordered isLast
    constructor
    · intro separated
      have wholeBatch : upTo keyset sorted last = size := by
        have inside := separated last lastMember size (Nat.dvd_refl size)
        omega
      refine ⟨by omega, fun row member count divides inside => ?_⟩
      obtain ⟨rowMember, later⟩ := List.mem_filter.mp member
      obtain ⟨below, above⟩ := counts_later keyset sorted (Bool.not_eq_true' _ ▸ later)
      refine separated row rowMember (size + count) (Nat.dvd_add (Nat.dvd_refl size) divides) ?_
      omega
    · rintro ⟨wholeBatch, separated⟩ row member count divides ⟨below, above⟩
      cases later : keyset.le row last with
      | true =>
          -- the group of `row` ends with the batch
          have within : upTo keyset sorted row ≤ upTo keyset sorted last :=
            List.countP_mono_left fun other _ least => keyset.transitive _ _ _ least later
          have least := Nat.le_of_dvd (by omega) divides
          omega
      | false =>
          obtain ⟨belowLater, aboveLater⟩ := counts_later keyset sorted later
          have rest : count - size + size = count := by omega
          rw [← rest] at divides
          refine separated row (List.mem_filter.mpr ⟨member, by simp [later]⟩) (count - size)
            ((Nat.dvd_add_left (Nat.dvd_refl size)).mp divides) ?_
          omega

end

/-! The whole reading. -/

/-- What a reading of these rows yields: some of them, in order, and all of them exactly when no
batch ends within a group. -/
structure Faithful (keyset : Keyset α γ) (size : Nat) (rows yielded : List α) : Prop where
  subperm : yielded.Subperm rows
  ordered : yielded.Pairwise fun first second => keyset.le first second = true
  complete : yielded.length = rows.length ↔ Separated keyset size rows

theorem remaining_behind (keyset : Keyset α γ) (rows : List α) (cursor : Option γ) {last : α}
    (member : last ∈ remaining keyset rows cursor) :
    remaining keyset rows (some (keyset.cursorOf last)) =
      (remaining keyset rows cursor).filter fun row => !keyset.le row last := by
  cases cursor with
  | none => exact List.filter_congr fun row _ => keyset.resumes last row
  | some cursor =>
      have lastBehind := (List.mem_filter.mp member).2
      rw [remaining, remaining, List.filter_filter]
      refine List.filter_congr fun row _ => ?_
      rw [keyset.resumes]
      cases later : keyset.le row last with
      | true => rfl
      | false =>
          have above : keyset.le last row = true := by
            simpa [later] using keyset.total row last
          simp [keyset.onward cursor last row lastBehind above]

theorem Faithful.batch {size : Nat} {rows sorted yielded : List α} {last : α}
    (perm : sorted.Perm rows)
    (ordered : sorted.Pairwise fun first second => keyset.le first second = true)
    (isLast : (sorted.take size).getLast? = some last)
    (rest : Faithful keyset size (rows.filter fun row => !keyset.le row last) yielded) :
    Faithful keyset size rows (sorted.take size ++ yielded) := by
  have ahead : (sorted.take size).Subperm (rows.filter fun row => keyset.le row last) := by
    have kept : (sorted.take size).filter (fun row => keyset.le row last) = sorted.take size :=
      List.filter_eq_self.mpr fun row member => le_last ordered isLast member
    rw [← kept]
    exact (((List.take_sublist size sorted).filter _).subperm).trans (perm.filter _).subperm
  have parts := List.filter_append_perm (fun row => keyset.le row last) rows
  refine ⟨(ahead.append rest.subperm).trans parts.subperm, ?_, ?_⟩
  · refine List.pairwise_append.mpr ⟨ordered.sublist (List.take_sublist size sorted), rest.ordered, ?_⟩
    intro row member other otherMember
    have later := (List.mem_filter.mp (rest.subperm.subset otherMember)).2
    have above : keyset.le last other = true := by
      simpa [Bool.not_eq_true' _ ▸ later] using keyset.total other last
    exact keyset.transitive _ _ _ (le_last ordered isLast member) above
  · have lengths := parts.length_eq
    rw [List.length_append, ← List.countP_eq_length_filter] at lengths
    have aheadCount : upTo keyset sorted last = upTo keyset rows last := perm.countP_eq _
    have reached := batch_length_le ordered isLast
    have restLength := rest.subperm.length_le
    rw [← separated_perm perm, separated_iff ordered isLast,
      separated_perm (perm.filter _), ← rest.complete, List.length_append]
    rw [aheadCount] at reached ⊢
    simp only [upTo] at reached ⊢
    omega

theorem scan_from {size : Nat} (positive : 0 < size) (sortings : Nat → Sorting keyset)
    (rows : List α) (start : Option γ) (length : Nat) :
    ∀ count, (scan sortings size rows start count).isOver = false →
      (remaining keyset rows (scan sortings size rows start count).cursor).length = length →
      ∃ later yielded, later ≤ count + length + 1 ∧
        (scan sortings size rows start later).isOver = true ∧
        (scan sortings size rows start later).yielded =
          (scan sortings size rows start count).yielded ++ yielded ∧
        Faithful keyset size (remaining keyset rows (scan sortings size rows start count).cursor)
          yielded := by
  induction length using Nat.strongRecOn with
  | ind length ih =>
      intro count reading size_
      generalize here : scan sortings size rows start count = now at reading size_
      have step : scan sortings size rows start (count + 1) = now.next (sortings count) size rows := by
        rw [scan, here]
      generalize sortedEq : (sortings count).sort (remaining keyset rows now.cursor) = sorted
      have perm : sorted.Perm (remaining keyset rows now.cursor) := by
        rw [← sortedEq]
        exact (sortings count).perm _
      have ordered : sorted.Pairwise fun first second => keyset.le first second = true := by
        rw [← sortedEq]
        exact (sortings count).ordered _
      cases ending : (sorted.take size).getLast? with
      | none =>
          have nothing : sorted = [] := by
            rw [List.getLast?_eq_none_iff, List.take_eq_nil_iff] at ending
            exact ending.resolve_left (by omega)
          rw [nothing] at perm
          refine ⟨count + 1, [], by omega, ?_, ?_, ?_⟩
          · simp [step, Scan.next, reading, sortedEq, ending]
          · simp [step, Scan.next, reading, sortedEq, ending]
          · rw [List.nil_perm.mp perm]
            exact ⟨List.Subperm.refl _, .nil, by simp [Separated]⟩
      | some last =>
          have next : scan sortings size rows start (count + 1) =
              { yielded := now.yielded ++ sorted.take size
                cursor := some (keyset.cursorOf last), isOver := false } := by
            simp [step, Scan.next, reading, sortedEq, ending]
          have member : last ∈ remaining keyset rows now.cursor :=
            perm.mem_iff.mp (List.mem_of_mem_take (List.mem_of_getLast? ending))
          have behind := remaining_behind keyset rows now.cursor member
          have shorter : ((remaining keyset rows now.cursor).filter fun row =>
              !keyset.le row last).length < length := by
            rw [← size_]
            refine List.length_filter_lt_length_iff_exists.mpr ⟨last, member, ?_⟩
            simp [keyset.refl]
          obtain ⟨later, yielded, soon, isOver, total, faithful⟩ := ih _ shorter (count + 1)
            (by rw [next]) (by rw [next, behind])
          rw [next] at total faithful
          refine ⟨later, sorted.take size ++ yielded, by omega, isOver, ?_, ?_⟩
          · rw [total, List.append_assoc]
          · rw [behind] at faithful
            exact faithful.batch perm ordered ending

theorem scan_over {sortings : Nat → Sorting keyset} {size : Nat} {rows : List α} {start : Option γ}
    {count : Nat} (isOver : (scan sortings size rows start count).isOver = true) {later : Nat}
    (after : count ≤ later) :
    scan sortings size rows start later = scan sortings size rows start count := by
  induction later, after using Nat.le_induction with
  | base => rfl
  | succ later _ ih => rw [scan, ih, Scan.next, if_pos isOver]

/-- Every reading ends, with one query more than there are rows at most. -/
theorem scan_ends {size : Nat} (positive : 0 < size) (sortings : Nat → Sorting keyset)
    (rows : List α) (start : Option γ) :
    ∃ count ≤ (remaining keyset rows start).length + 1,
      (scan sortings size rows start count).isOver = true ∧
        Faithful keyset size (remaining keyset rows start)
          (scan sortings size rows start count).yielded := by
  obtain ⟨later, yielded, soon, isOver, total, faithful⟩ :=
    scan_from positive sortings rows start _ 0 rfl rfl
  refine ⟨later, ?_, isOver, total ▸ faithful⟩
  rw [Nat.zero_add] at soon
  exact soon

theorem exhausts_iff_separated {size : Nat} (positive : 0 < size) (sortings : Nat → Sorting keyset)
    (rows : List α) (start : Option γ) :
    Exhausts sortings size rows start ↔ Separated keyset size (remaining keyset rows start) := by
  obtain ⟨ending, -, isOver, faithful⟩ := scan_ends positive sortings rows start
  rw [← faithful.complete]
  constructor
  · rintro ⟨count, countOver, perm, -⟩
    rcases Nat.le_total ending count with after | before
    · rw [← scan_over isOver after]
      exact perm.length_eq
    · rw [scan_over countOver before]
      exact perm.length_eq
  · intro complete
    exact ⟨ending, isOver, faithful.subperm.perm_of_length_le complete.ge, faithful.ordered⟩

end KeysetScan
