import ArmstrongBot.Library.JsText

/-! The proleptic Gregorian calendar of ECMAScript time values, and `Date.prototype.toISOString`. -/

namespace Calendar

open JsText

abbrev Timestamp := Int

def dayMs : Int := 86400000

def dayFromYear (year : Int) : Int :=
  365 * (year - 1970) + (year - 1969) / 4 - (year - 1901) / 100 + (year - 1601) / 400

/-- The year a day falls in: the estimate by the mean year is off by one at most. -/
def yearFromDay (day : Int) : Int :=
  let estimate := 1970 + day * 400 / 146097
  if dayFromYear (estimate + 1) ≤ day then estimate + 1
  else if day < dayFromYear estimate then estimate - 1
  else estimate

theorem yearFromDay_bounds (day : Int) :
    dayFromYear (yearFromDay day) ≤ day ∧ day < dayFromYear (yearFromDay day + 1) := by
  simp only [yearFromDay]
  split
  · simp only [dayFromYear] at *
    omega
  · split
    · rw [Int.sub_add_cancel]
      simp only [dayFromYear] at *
      omega
    · omega

def leapDays (year : Int) : Int := dayFromYear (year + 1) - dayFromYear year - 365

theorem leapDays_cases (year : Int) : leapDays year = 0 ∨ leapDays year = 1 := by
  simp only [leapDays, dayFromYear]
  omega

def monthStart (leap : Int) (month : Nat) : Int :=
  match month with
  | 0 => 0
  | 1 => 31
  | 2 => 59 + leap
  | 3 => 90 + leap
  | 4 => 120 + leap
  | 5 => 151 + leap
  | 6 => 181 + leap
  | 7 => 212 + leap
  | 8 => 243 + leap
  | 9 => 273 + leap
  | 10 => 304 + leap
  | 11 => 334 + leap
  | _ => 365 + leap

/-- The month a day within the year falls in, counted from 0. -/
def monthFromDay (leap day : Int) : Nat :=
  if day < 31 then 0 else if day < 59 + leap then 1 else if day < 90 + leap then 2
  else if day < 120 + leap then 3 else if day < 151 + leap then 4
  else if day < 181 + leap then 5 else if day < 212 + leap then 6
  else if day < 243 + leap then 7 else if day < 273 + leap then 8
  else if day < 304 + leap then 9 else if day < 334 + leap then 10 else 11

theorem monthFromDay_lt (leap day : Int) : monthFromDay leap day < 12 := by
  unfold monthFromDay
  repeat' refine iteInduction (motive := fun month => month < 12) (fun _ => ?_) fun _ => ?_
  all_goals omega

theorem monthFromDay_bounds {leap day : Int} (isLeap : leap = 0 ∨ leap = 1) (lower : 0 ≤ day)
    (upper : day < 365 + leap) :
    monthStart leap (monthFromDay leap day) ≤ day ∧
      day < monthStart leap (monthFromDay leap day) + 31 := by
  -- One case for each of the eleven comparisons.
  unfold monthFromDay
  iterate 11
    refine iteInduction (motive := fun month => monthStart leap month ≤ day ∧
      day < monthStart leap month + 31) (fun _ => ?_) (fun _ => ?_)
    rotate_left
  all_goals
    simp only [monthStart]
    omega

structure Fields where
  year : Int
  month : Nat
  date : Nat
  hours : Nat
  minutes : Nat
  seconds : Nat
  milliseconds : Nat

def dayWithinYear (day : Int) : Int := day - dayFromYear (yearFromDay day)

def fields (time : Timestamp) : Fields :=
  let day := time / dayMs
  let year := yearFromDay day
  let month := monthFromDay (leapDays year) (dayWithinYear day)
  let within := (time % dayMs).toNat
  { year := year
    month := month + 1
    date := (dayWithinYear day - monthStart (leapDays year) month + 1).toNat
    hours := within / 3600000
    minutes := within / 60000 % 60
    seconds := within / 1000 % 60
    milliseconds := within % 1000 }

/-- Four digits for the years 0 to 9999, a sign and six digits for the others. -/
def yearText (year : Int) : JsString :=
  if 0 ≤ year ∧ year ≤ 9999 then padStart 4 (natText year.natAbs)
  else (if year < 0 then unit 45 else unit 43) :: padStart 6 (natText year.natAbs)

def Fields.text (time : Fields) : JsString :=
  yearText time.year ++ (js "-" ++ (padStart 2 (natText time.month) ++ (js "-" ++
    (padStart 2 (natText time.date) ++ (js "T" ++ (padStart 2 (natText time.hours) ++ (js ":" ++
      (padStart 2 (natText time.minutes) ++ (js ":" ++ (padStart 2 (natText time.seconds) ++
        (js "." ++ (padStart 3 (natText time.milliseconds) ++ js "Z"))))))))))))

def toISOString (time : Timestamp) : JsString := (fields time).text

theorem dayWithinYear_bounds (day : Int) :
    0 ≤ dayWithinYear day ∧ dayWithinYear day < 365 + leapDays (yearFromDay day) := by
  have bounds := yearFromDay_bounds day
  simp only [dayWithinYear, leapDays]
  omega

theorem fields_bounds (time : Int) :
    (fields time).month < 100 ∧ (fields time).date < 100 ∧ (fields time).hours < 100 ∧
      (fields time).minutes < 100 ∧ (fields time).seconds < 100 ∧
      (fields time).milliseconds < 1000 := by
  have within := dayWithinYear_bounds (time / dayMs)
  have monthBounds := monthFromDay_bounds (leapDays_cases (yearFromDay (time / dayMs)))
    within.1 within.2
  have month := monthFromDay_lt (leapDays (yearFromDay (time / dayMs)))
    (dayWithinYear (time / dayMs))
  have remainder := Int.emod_lt_of_pos time (show 0 < dayMs by decide)
  simp only [fields]
  simp only [dayMs] at *
  omega

theorem day_recovered (time : Int) :
    dayFromYear (fields time).year +
      monthStart (leapDays (fields time).year) ((fields time).month - 1) +
      ((fields time).date - 1) = time / dayMs := by
  have within := dayWithinYear_bounds (time / dayMs)
  have monthBounds := monthFromDay_bounds (leapDays_cases (yearFromDay (time / dayMs)))
    within.1 within.2
  have year : dayWithinYear (time / dayMs) =
      time / dayMs - dayFromYear (yearFromDay (time / dayMs)) := rfl
  simp only [fields, Nat.add_sub_cancel]
  rw [Int.toNat_of_nonneg (by omega)]
  omega

theorem clock_recovered (time : Int) :
    ((fields time).hours * 3600000 + (fields time).minutes * 60000 +
      (fields time).seconds * 1000 + (fields time).milliseconds : Int) = time % dayMs := by
  have nonneg : 0 ≤ time % dayMs := Int.emod_nonneg time (by decide)
  simp only [fields]
  omega

/-- The time value is a function of its printed fields. -/
theorem fields_injective {left right : Int} (same : fields left = fields right) :
    left = right := by
  have day : left / dayMs = right / dayMs := by rw [← day_recovered, ← day_recovered, same]
  have clock : left % dayMs = right % dayMs := by rw [← clock_recovered, ← clock_recovered, same]
  rw [← Int.mul_ediv_add_emod left dayMs, ← Int.mul_ediv_add_emod right dayMs, day, clock]

theorem yearText_injective {left right : Int} (same : yearText left = yearText right) :
    left = right := by
  have unsigned (value : Nat) (sign : CodeUnit) (rest : JsString)
      (notDigit : isDigit sign = false) : padStart 4 (natText value) ≠ sign :: rest := by
    intro equal
    have digit := padStart_isDigit 4 value sign (by simp [equal])
    simp [notDigit] at digit
  have signNotDigit (year : Int) : isDigit (if year < 0 then unit 45 else unit 43) = false := by
    split <;> decide
  have signs : (unit 45 : CodeUnit) ≠ unit 43 := by decide
  unfold yearText at same
  by_cases leftShort : 0 ≤ left ∧ left ≤ 9999 <;> by_cases rightShort : 0 ≤ right ∧ right ≤ 9999
  · rw [if_pos leftShort, if_pos rightShort] at same
    have magnitude := padStart_injective same
    omega
  · rw [if_pos leftShort, if_neg rightShort] at same
    exact absurd same (unsigned _ _ _ (signNotDigit right))
  · rw [if_neg leftShort, if_pos rightShort] at same
    exact absurd same.symm (unsigned _ _ _ (signNotDigit left))
  · rw [if_neg leftShort, if_neg rightShort] at same
    obtain ⟨sign, digits⟩ := List.cons.inj same
    have magnitude := padStart_injective digits
    by_cases leftSign : left < 0 <;> by_cases rightSign : right < 0 <;>
      simp only [leftSign, rightSign, if_true, if_false] at sign
    · omega
    · exact absurd sign signs
    · exact absurd sign.symm signs
    · omega

theorem padStart_split {width left right : Nat} {leftRest rightRest : JsString}
    (positive : 0 < width) (leftBound : left < 10 ^ width) (rightBound : right < 10 ^ width)
    (same : padStart width (natText left) ++ leftRest = padStart width (natText right) ++ rightRest) :
    left = right ∧ leftRest = rightRest := by
  have lengths : (padStart width (natText left)).length = (padStart width (natText right)).length := by
    rw [padStart_length (natText_length_le positive leftBound),
      padStart_length (natText_length_le positive rightBound)]
  obtain ⟨digits, rest⟩ := List.append_inj same lengths
  exact ⟨padStart_injective digits, rest⟩

/-- Two time values print alike only when they are the same. -/
theorem toISOString_injective {left right : Int}
    (same : toISOString left = toISOString right) : left = right := by
  obtain ⟨lm, ld, lh, lmin, ls, lms⟩ := fields_bounds left
  obtain ⟨rm, rd, rh, rmin, rs, rms⟩ := fields_bounds right
  have tail (time : Int) : (js "-" ++ (padStart 2 (natText (fields time).month) ++ (js "-" ++
      (padStart 2 (natText (fields time).date) ++ (js "T" ++ (padStart 2 (natText (fields time).hours) ++
        (js ":" ++ (padStart 2 (natText (fields time).minutes) ++ (js ":" ++
          (padStart 2 (natText (fields time).seconds) ++ (js "." ++
            (padStart 3 (natText (fields time).milliseconds) ++ js "Z")))))))))))).length = 20 := by
    obtain ⟨m, d, h, min, s, ms⟩ := fields_bounds time
    simp only [List.length_append,
      padStart_length (natText_length_le (show 0 < 2 by omega) m),
      padStart_length (natText_length_le (show 0 < 2 by omega) d),
      padStart_length (natText_length_le (show 0 < 2 by omega) h),
      padStart_length (natText_length_le (show 0 < 2 by omega) min),
      padStart_length (natText_length_le (show 0 < 2 by omega) s),
      padStart_length (natText_length_le (show 0 < 3 by omega) ms)]
    decide
  obtain ⟨year, rest⟩ := List.append_inj' same ((tail left).trans (tail right).symm)
  obtain ⟨month, rest⟩ := padStart_split (by omega) lm rm (List.append_cancel_left rest)
  obtain ⟨date, rest⟩ := padStart_split (by omega) ld rd (List.append_cancel_left rest)
  obtain ⟨hours, rest⟩ := padStart_split (by omega) lh rh (List.append_cancel_left rest)
  obtain ⟨minutes, rest⟩ := padStart_split (by omega) lmin rmin (List.append_cancel_left rest)
  obtain ⟨seconds, rest⟩ := padStart_split (by omega) ls rs (List.append_cancel_left rest)
  obtain ⟨milliseconds, _⟩ := padStart_split (by omega) lms rms (List.append_cancel_left rest)
  have yearEq := yearText_injective year
  apply fields_injective
  cases leftFields : fields left with
  | mk => cases rightFields : fields right with
    | mk => simp_all

end Calendar
