import Mathlib.Data.List.Basic

/-! Comma-separated values: rows of cells, a cell in quotes where it has a sign in it and every quote
inside doubled. Rows end with a line feed, to the reader also with a carriage return before it. -/

namespace Csv

structure Marks (α : Type*) where
  quote : α
  comma : α
  cr : α
  lf : α
  distinct : [quote, comma, cr, lf].Nodup

variable {α : Type*} [DecidableEq α] (marks : Marks α)

def Marks.all : List α := [marks.quote, marks.comma, marks.cr, marks.lf]

def doubled (text : List α) : List α :=
  text.flatMap fun letter => if letter = marks.quote then [letter, letter] else [letter]

def cell (text : List α) : List α :=
  if text.any (· ∈ marks.all) then marks.quote :: (doubled marks text ++ [marks.quote]) else text

/-- The cells joined by commas, and the end of the row. -/
def row : List (List α) → List α
  | [] => [marks.lf]
  | [last] => cell marks last ++ [marks.lf]
  | first :: second :: rest => cell marks first ++ marks.comma :: row (second :: rest)

def table (rows : List (List (List α))) : List α := rows.flatMap (row marks)

/-- Where the reader stands: before a row, before a cell, inside of a bare cell or of a quoted one,
after a quote that may close it, after a carriage return. -/
inductive Mode
  | fresh
  | opened
  | bare
  | quoted
  | closing
  | returned
  deriving DecidableEq

/-- The rows read, the cells of the row at hand and the letters of the cell at hand. -/
structure Reader (α : Type*) where
  mode : Mode
  rows : List (List (List α))
  cells : List (List α)
  letters : List α

def Reader.start : Reader α := { mode := .fresh, rows := [], cells := [], letters := [] }

def Reader.endCell (reader : Reader α) : Reader α :=
  { reader with mode := .opened, cells := reader.cells ++ [reader.letters], letters := [] }

def Reader.endRow (reader : Reader α) : Reader α :=
  { mode := .fresh, rows := reader.rows ++ [reader.cells ++ [reader.letters]], cells := []
    letters := [] }

def Reader.keep (reader : Reader α) (mode : Mode) (letter : α) : Reader α :=
  { reader with mode, letters := reader.letters ++ [letter] }

/-- One letter. A quote inside of a bare cell and letters around a quoted one are no table. -/
def Reader.step (reader : Reader α) (letter : α) : Option (Reader α) :=
  match reader.mode with
  | .quoted =>
      if letter = marks.quote then some { reader with mode := .closing }
      else some (reader.keep .quoted letter)
  | .returned => if letter = marks.lf then some reader.endRow else none
  | mode =>
      if letter = marks.comma then some reader.endCell
      else if letter = marks.lf then some reader.endRow
      else if letter = marks.cr then some { reader with mode := .returned }
      else if letter = marks.quote then
        match mode with
        | .closing => some (reader.keep .quoted letter)
        | .bare => none
        | _ => some { reader with mode := .quoted }
      else if mode = .closing then none else some (reader.keep .bare letter)

/-- The last row may lack its end; a text cut off inside of quotes is no table. -/
def Reader.finish (reader : Reader α) : Option (List (List (List α))) :=
  match reader.mode with
  | .fresh => some reader.rows
  | .quoted | .returned => none
  | _ => some reader.endRow.rows

def read (text : List α) : Option (List (List (List α))) :=
  (text.foldlM (Reader.step marks) .start).bind Reader.finish

variable {marks} {reader : Reader α}

omit [DecidableEq α] in
theorem marks_apart (marks : Marks α) : marks.lf ≠ marks.comma ∧ marks.quote ≠ marks.comma ∧
    marks.quote ≠ marks.lf ∧ marks.quote ≠ marks.cr := by
  have distinct := marks.distinct
  simp only [List.nodup_cons, List.mem_cons, List.not_mem_nil, or_false, not_or] at distinct
  obtain ⟨⟨comma, cr, lf⟩, ⟨_, apart⟩, _⟩ := distinct
  exact ⟨Ne.symm apart, comma, lf, cr⟩

theorem step_comma (awaits : reader.mode ≠ .quoted ∧ reader.mode ≠ .returned) :
    reader.step marks marks.comma = some reader.endCell := by
  unfold Reader.step
  split
  · exact absurd ‹_› awaits.1
  · exact absurd ‹_› awaits.2
  · rw [if_pos rfl]

theorem step_lf (awaits : reader.mode ≠ .quoted ∧ reader.mode ≠ .returned) :
    reader.step marks marks.lf = some reader.endRow := by
  unfold Reader.step
  split
  · exact absurd ‹_› awaits.1
  · exact absurd ‹_› awaits.2
  · rw [if_neg (marks_apart marks).1, if_pos rfl]

/-- A letter that is no mark goes into the cell, which is bare from then on. -/
theorem step_plain {letter : α} (plain : letter ∉ marks.all)
    (awaits : reader.mode = .fresh ∨ reader.mode = .opened ∨ reader.mode = .bare) :
    reader.step marks letter = some (reader.keep .bare letter) := by
  simp only [Marks.all, List.mem_cons, List.not_mem_nil, or_false, not_or] at plain
  obtain ⟨notQuote, notComma, notCr, notLf⟩ := plain
  rcases awaits with mode | mode | mode <;>
    simp [Reader.step, mode, notQuote, notComma, notCr, notLf]

theorem foldlM_plain {text : List α} (plain : ∀ letter ∈ text, letter ∉ marks.all)
    (isBare : reader.mode = .bare) :
    text.foldlM (Reader.step marks) reader =
      some { reader with letters := reader.letters ++ text } := by
  induction text generalizing reader with
  | nil => simp
  | cons letter text ih =>
      obtain ⟨isPlain, later⟩ := List.forall_mem_cons.mp plain
      rw [List.foldlM_cons, step_plain isPlain (.inr (.inr isBare)), Option.bind_eq_bind,
        Option.bind_some, ih later rfl]
      simp [Reader.keep, isBare]

theorem doubled_cons (letter : α) (text : List α) :
    doubled marks (letter :: text) =
      (if letter = marks.quote then [letter, letter] else [letter]) ++ doubled marks text :=
  rfl

/-- A doubled quote leaves the reader inside of the quotes with one quote more. -/
theorem foldlM_doubled (text : List α) (isQuoted : reader.mode = .quoted) :
    (doubled marks text).foldlM (Reader.step marks) reader =
      some { reader with letters := reader.letters ++ text } := by
  induction text generalizing reader with
  | nil => simp [doubled]
  | cons letter text ih =>
      have kept : (doubled marks text).foldlM (Reader.step marks) (reader.keep .quoted letter) =
          some { reader with letters := reader.letters ++ letter :: text } := by
        rw [ih rfl]
        simp [Reader.keep, isQuoted]
      rw [doubled_cons, List.foldlM_append]
      by_cases isQuote : letter = marks.quote
      · obtain ⟨_, notComma, notLf, notCr⟩ := marks_apart marks
        simpa [isQuote, Reader.step, isQuoted, notComma, notLf, notCr, Reader.keep] using kept
      · simpa [isQuote, Reader.step, isQuoted] using kept

variable (marks) in
/-- From the beginning of a cell the reader comes to its end with its letters. -/
theorem foldlM_cell (text : List α) (atStart : reader.mode = .fresh ∨ reader.mode = .opened)
    (noLetters : reader.letters = []) :
    ∃ mode, (mode ≠ .quoted ∧ mode ≠ .returned) ∧
      (cell marks text).foldlM (Reader.step marks) reader =
        some { reader with mode, letters := text } := by
  unfold cell
  split
  · refine ⟨.closing, by decide, ?_⟩
    obtain ⟨_, notComma, notLf, notCr⟩ := marks_apart marks
    have enters : reader.step marks marks.quote = some { reader with mode := .quoted } := by
      rcases atStart with mode | mode <;> simp [Reader.step, mode, notComma, notLf, notCr]
    have inside : (doubled marks text).foldlM (Reader.step marks) { reader with mode := .quoted } =
        _ := foldlM_doubled text rfl
    rw [List.foldlM_cons, enters, Option.bind_eq_bind, Option.bind_some, List.foldlM_append, inside]
    simp [Reader.step, noLetters]
  · rename_i noMarks
    have plain : ∀ letter ∈ text, letter ∉ marks.all := by simpa using noMarks
    cases text with
    | nil =>
        refine ⟨reader.mode, by rcases atStart with mode | mode <;> simp [mode], ?_⟩
        obtain ⟨mode, rows, cells, letters⟩ := reader
        obtain rfl : letters = [] := noLetters
        rfl
    | cons letter text =>
        obtain ⟨isPlain, later⟩ := List.forall_mem_cons.mp plain
        refine ⟨.bare, by decide, ?_⟩
        have awaits : reader.mode = .fresh ∨ reader.mode = .opened ∨ reader.mode = .bare := by
          rcases atStart with mode | mode <;> simp [mode]
        rw [List.foldlM_cons, step_plain isPlain awaits, Option.bind_eq_bind, Option.bind_some,
          foldlM_plain later rfl]
        simp [Reader.keep, noLetters]

theorem foldlM_row {cells : List (List α)} (filled : cells ≠ [])
    (atStart : reader.mode = .fresh ∨ reader.mode = .opened) (noLetters : reader.letters = []) :
    (row marks cells).foldlM (Reader.step marks) reader =
      some { mode := .fresh, rows := reader.rows ++ [reader.cells ++ cells], cells := []
             letters := [] } := by
  induction cells generalizing reader with
  | nil => exact absurd rfl filled
  | cons first rest ih =>
      obtain ⟨mode, awaits, isRead⟩ := foldlM_cell marks first atStart noLetters
      cases rest with
      | nil =>
          rw [row, List.foldlM_append, isRead, Option.bind_eq_bind, Option.bind_some,
            List.foldlM_cons, step_lf awaits]
          rfl
      | cons second rest =>
          rw [row, List.foldlM_append, isRead, Option.bind_eq_bind, Option.bind_some,
            List.foldlM_cons, step_comma awaits, Option.bind_eq_bind, Option.bind_some,
            ih (List.cons_ne_nil _ _) (.inr rfl) rfl]
          simp [Reader.endCell]

theorem foldlM_table {rows : List (List (List α))} (filled : ∀ cells ∈ rows, cells ≠ [])
    (before : List (List (List α))) :
    (table marks rows).foldlM (Reader.step marks)
        { mode := .fresh, rows := before, cells := [], letters := [] } =
      some { mode := .fresh, rows := before ++ rows, cells := [], letters := [] } := by
  induction rows generalizing before with
  | nil => simp [table]
  | cons cells rows ih =>
      obtain ⟨isFilled, later⟩ := List.forall_mem_cons.mp filled
      rw [table, List.flatMap_cons, List.foldlM_append, foldlM_row isFilled (.inl rfl) rfl,
        Option.bind_eq_bind, Option.bind_some, List.nil_append]
      have tail := ih later (before ++ [cells])
      rw [List.append_assoc] at tail
      exact tail

/-- Reading gives back what was written, cell by cell, whatever is in the cells. -/
theorem read_table {rows : List (List (List α))} (filled : ∀ cells ∈ rows, cells ≠ []) :
    read marks (table marks rows) = some rows := by
  rw [read, Reader.start, foldlM_table filled]
  rfl

end Csv
