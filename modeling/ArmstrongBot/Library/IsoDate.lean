import ArmstrongBot.Library.Calendar
import Mathlib.Tactic.SplitIfs

/-! `new Date(text)` for a text in the format of `toISOString`, and that it gives back every time
value that ECMAScript allows. -/

namespace IsoDate

open JsText Calendar

/-- The number in the first digits of a text, which must be there. -/
def readDigits (width : Nat) (text : JsString) : Option (Nat × JsString) :=
  if (text.take width).length = width ∧ (text.take width).all isDigit = true then
    some (readNat (text.take width), text.drop width)
  else none

def readMark (mark : CodeUnit) : JsString → Option JsString
  | code :: rest => if code = mark then some rest else none
  | [] => none

/-- Six digits behind a sign, where a negative zero is refused, or four digits. -/
def readYear (text : JsString) : Option (Int × JsString) :=
  match text with
  | [] => none
  | code :: rest =>
      if code = unit 43 then (readDigits 6 rest).map fun year => ((year.1 : Int), year.2)
      else if code = unit 45 then
        (readDigits 6 rest).bind fun year =>
          if year.1 = 0 then none else some (-(year.1 : Int), year.2)
      else (readDigits 4 text).map fun year => ((year.1 : Int), year.2)

def readFields (text : JsString) : Option Fields := do
  let (year, rest) ← readYear text
  let (month, rest) ← readDigits 2 (← readMark (unit 45) rest)
  let (date, rest) ← readDigits 2 (← readMark (unit 45) rest)
  let (hours, rest) ← readDigits 2 (← readMark (unit 84) rest)
  let (minutes, rest) ← readDigits 2 (← readMark (unit 58) rest)
  let (seconds, rest) ← readDigits 2 (← readMark (unit 58) rest)
  let (milliseconds, rest) ← readDigits 3 (← readMark (unit 46) rest)
  if rest = [unit 90] then some { year, month, date, hours, minutes, seconds, milliseconds }
  else none

/-- `MakeDate` of what the fields say. -/
def timeOf (fields : Fields) : Timestamp :=
  (dayFromYear fields.year + monthStart (leapDays fields.year) (fields.month - 1) +
    (fields.date - 1)) * dayMs +
    (fields.hours * 3600000 + fields.minutes * 60000 + fields.seconds * 1000 + fields.milliseconds)

def maxTime : Int := 8640000000000000

/-- A time value that is not `NaN`. -/
def Valid (time : Timestamp) : Prop := -maxTime ≤ time ∧ time ≤ maxTime

instance (time : Timestamp) : Decidable (Valid time) := inferInstanceAs (Decidable (_ ∧ _))

def InRange (fields : Fields) : Prop :=
  (1 ≤ fields.month ∧ fields.month ≤ 12) ∧ (1 ≤ fields.date ∧ fields.date ≤ 31) ∧
    fields.hours ≤ 23 ∧ fields.minutes ≤ 59 ∧ fields.seconds ≤ 59

instance (fields : Fields) : Decidable (InRange fields) := inferInstanceAs (Decidable (_ ∧ _))

def parse (text : JsString) : Option Timestamp :=
  (readFields text).bind fun fields =>
    if InRange fields ∧ Valid (timeOf fields) then some (timeOf fields) else none

theorem readDigits_padStart {width value : Nat} (positive : 0 < width) (bound : value < 10 ^ width)
    (rest : JsString) :
    readDigits width (padStart width (natText value) ++ rest) = some (value, rest) := by
  have length : (padStart width (natText value)).length = width :=
    padStart_length (natText_length_le positive bound)
  have front : (padStart width (natText value) ++ rest).take width =
      padStart width (natText value) := List.take_left' length
  have back : (padStart width (natText value) ++ rest).drop width = rest := List.drop_left' length
  rw [readDigits, front, back, if_pos, readNat_padStart]
  exact ⟨length, List.all_eq_true.mpr fun code member => padStart_isDigit width value code member⟩

theorem readMark_cons (mark : CodeUnit) (rest : JsString) :
    readMark mark (mark :: rest) = some rest := if_pos rfl

theorem padStart_cons {width value : Nat} (positive : 0 < width) (bound : value < 10 ^ width) :
    ∃ first rest, padStart width (natText value) = first :: rest ∧ isDigit first = true := by
  have length : (padStart width (natText value)).length = width :=
    padStart_length (natText_length_le positive bound)
  cases isText : padStart width (natText value) with
  | nil =>
      rw [isText, List.length_nil] at length
      omega
  | cons first rest =>
      refine ⟨first, rest, rfl, padStart_isDigit width value first ?_⟩
      rw [isText]
      exact List.mem_cons_self

theorem readYear_yearText {year : Int} (bound : year.natAbs < 1000000) (rest : JsString) :
    readYear (yearText year ++ rest) = some (year, rest) := by
  unfold yearText
  split_ifs with short negative
  · have few : year.natAbs < 10 ^ 4 := by omega
    obtain ⟨first, others, isText, isFirst⟩ :=
      padStart_cons (show 0 < 4 by omega) few
    have plus : first ≠ unit 43 := by
      rintro rfl
      exact absurd isFirst (by decide)
    have minus : first ≠ unit 45 := by
      rintro rfl
      exact absurd isFirst (by decide)
    have whole := readDigits_padStart (show 0 < 4 by omega) few rest
    rw [isText, List.cons_append] at whole ⊢
    rw [readYear, if_neg plus, if_neg minus, whole, Option.map_some]
    refine congrArg some (Prod.ext ?_ rfl)
    dsimp only
    omega
  · have few : year.natAbs < 10 ^ 6 := bound
    rw [List.cons_append, readYear, if_neg (by decide), if_pos rfl,
      readDigits_padStart (by omega) few, Option.bind_some, if_neg (by omega)]
    refine congrArg some (Prod.ext ?_ rfl)
    dsimp only
    omega
  · have few : year.natAbs < 10 ^ 6 := bound
    rw [List.cons_append, readYear, if_pos rfl, readDigits_padStart (by omega) few,
      Option.map_some]
    refine congrArg some (Prod.ext ?_ rfl)
    dsimp only
    omega

theorem bind_of_read {α β : Type} {read : Option α} {value : α} {next : α → Option β}
    {result : Option β} (reads : read = some value) (continues : next value = result) :
    (read >>= next) = result := by
  rw [reads]
  exact continues

theorem readFields_text {fields : Fields} (year : fields.year.natAbs < 1000000)
    (month : fields.month < 100) (date : fields.date < 100) (hours : fields.hours < 100)
    (minutes : fields.minutes < 100) (seconds : fields.seconds < 100)
    (milliseconds : fields.milliseconds < 1000) : readFields fields.text = some fields := by
  have two {value : Nat} (bound : value < 100) (rest : JsString) :
      readDigits 2 (padStart 2 (natText value) ++ rest) = some (value, rest) :=
    readDigits_padStart (by omega) bound rest
  have three (rest : JsString) :
      readDigits 3 (padStart 3 (natText fields.milliseconds) ++ rest) =
        some (fields.milliseconds, rest) :=
    readDigits_padStart (by omega) milliseconds rest
  have marks : js "-" = [unit 45] ∧ js "T" = [unit 84] ∧ js ":" = [unit 58] ∧ js "." = [unit 46] ∧
      js "Z" = [unit 90] := by decide
  obtain ⟨dash, letter, colon, dot, zone⟩ := marks
  rw [readFields, Fields.text, dash, letter, colon, dot, zone]
  apply bind_of_read (readYear_yearText year _)
  apply bind_of_read (readMark_cons _ _)
  apply bind_of_read (two month _)
  apply bind_of_read (readMark_cons _ _)
  apply bind_of_read (two date _)
  apply bind_of_read (readMark_cons _ _)
  apply bind_of_read (two hours _)
  apply bind_of_read (readMark_cons _ _)
  apply bind_of_read (two minutes _)
  apply bind_of_read (readMark_cons _ _)
  apply bind_of_read (two seconds _)
  apply bind_of_read (readMark_cons _ _)
  apply bind_of_read (three _)
  exact if_pos rfl

theorem year_bound {time : Int} (valid : Valid time) :
    (fields time).year.natAbs < 1000000 := by
  have lower : (-8640000000000000 : Int) ≤ time := valid.1
  have upper : time ≤ (8640000000000000 : Int) := valid.2
  have bounds := yearFromDay_bounds (time / dayMs)
  have isYear : (fields time).year = yearFromDay (time / dayMs) := rfl
  rw [isYear]
  generalize yearFromDay (time / dayMs) = year at bounds
  simp only [dayFromYear, dayMs] at bounds
  omega

theorem fields_inRange (time : Timestamp) : InRange (fields time) := by
  have within := dayWithinYear_bounds (time / dayMs)
  have monthBounds := monthFromDay_bounds (leapDays_cases (yearFromDay (time / dayMs)))
    within.1 within.2
  have month := monthFromDay_lt (leapDays (yearFromDay (time / dayMs)))
    (dayWithinYear (time / dayMs))
  have remainder := Int.emod_lt_of_pos time (show 0 < dayMs by decide)
  simp only [InRange, fields]
  simp only [dayMs] at *
  omega

theorem timeOf_fields (time : Timestamp) : timeOf (fields time) = time := by
  rw [timeOf, day_recovered, clock_recovered]
  exact Int.ediv_mul_add_emod time dayMs

/-- Every time value that has a text is read back from it. -/
theorem parse_toISOString {time : Timestamp} (valid : Valid time) :
    parse (toISOString time) = some time := by
  obtain ⟨month, date, hours, minutes, seconds, milliseconds⟩ := fields_bounds time
  rw [parse, toISOString, readFields_text (year_bound valid) month date hours minutes seconds
    milliseconds, Option.bind_some, timeOf_fields, if_pos ⟨fields_inRange time, valid⟩]

end IsoDate
