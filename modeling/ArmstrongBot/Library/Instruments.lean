import ArmstrongBot.Library.JsMap
import ArmstrongBot.Library.Quantities
import Mathlib.Tactic.Abel

/-! Counters, gauges and histograms of a metrics client. An instrument keeps one series for each
set of label values; a method that it lacks, or that refuses its argument, has no result. -/

namespace Instruments

open Quantity

/-- A histogram's series: an observation counts in the first bucket that it fits in. -/
structure Buckets where
  bucketValues : Rat → Nat
  sum : Rat
  count : Nat

def Buckets.zero : Buckets := { bucketValues := fun _ => 0, sum := 0, count := 0 }

def findBound (bounds : List Rat) (value : Rat) : Option Rat :=
  bounds.find? fun bound => value ≤ bound

def bump (bucketValues : Rat → Nat) (bound : Rat) : Rat → Nat :=
  fun asked => if asked = bound then bucketValues asked + 1 else bucketValues asked

def Buckets.observe (bounds : List Rat) (value : Rat) (buckets : Buckets) : Buckets :=
  { bucketValues := (findBound bounds value).elim buckets.bucketValues (bump buckets.bucketValues)
    sum := buckets.sum + value
    count := buckets.count + 1 }

/-- One sample for each bucket, with all that the buckets up to it have counted. -/
def cumulative (bucketValues : Rat → Nat) (counted : Nat) : List Rat → List Quantity
  | [] => []
  | bound :: rest =>
      ofNat (counted + bucketValues bound) ::
        cumulative bucketValues (counted + bucketValues bound) rest

/-- The buckets, the one without a bound, `_sum` and `_count`. -/
def Buckets.samples (bounds : List Rat) (buckets : Buckets) : List Quantity :=
  cumulative buckets.bucketValues 0 bounds ++
    [ofNat buckets.count, finite buckets.sum, ofNat buckets.count]

inductive Instrument (κ : Type)
  | counter (series : JsMap κ Quantity)
  | gauge (series : JsMap κ Quantity)
  | histogram (bounds : List Rat) (series : JsMap κ Buckets)

variable {κ : Type} [DecidableEq κ]

/-- `setValueDelta`: a series that is not there yet starts with the value. -/
def addTo (series : JsMap κ Quantity) (labels : κ) (delta : Quantity) : JsMap κ Quantity :=
  series.set labels (((series.get labels).map (· + delta)).getD delta)

namespace Instrument

def inc (labels : κ) (value : Quantity) : Instrument κ → Option (Instrument κ)
  | counter series =>
      if value.isInfinite || value.isNegative then none else some (counter (addTo series labels value))
  | gauge series => some (gauge (addTo series labels value))
  | histogram _ _ => none

def set (labels : κ) (value : Quantity) : Instrument κ → Option (Instrument κ)
  | gauge series => some (gauge (series.set labels value))
  | _ => none

def observe (labels : κ) (value : Quantity) : Instrument κ → Option (Instrument κ)
  | histogram bounds series =>
      match value with
      | finite value =>
          some (histogram bounds
            (series.set labels (((series.get labels).getD Buckets.zero).observe bounds value)))
      | _ => none
  | _ => none

/-- The values that the JSON form of the instrument lists. -/
def samples : Instrument κ → List Quantity
  | counter series => series.values
  | gauge series => series.values
  | histogram bounds series => series.values.flatMap fun buckets => buckets.samples bounds

end Instrument

/-! What a write adds to the sum of the samples. -/

variable {σ : Type}

theorem sum_setIn (weigh : σ → Quantity) {entries : List (κ × σ)} {key : κ} {value : σ}
    {delta : Quantity}
    (grown : weigh value =
      (((entries.find? fun entry => entry.1 = key).map Prod.snd).map weigh).getD 0 + delta) :
    (((JsMap.setIn entries key value).map Prod.snd).map weigh).sum =
      ((entries.map Prod.snd).map weigh).sum + delta := by
  induction entries with
  | nil =>
      rw [List.find?_nil, Option.map_none, Option.map_none, Option.getD_none] at grown
      simp [JsMap.setIn, grown]
  | cons entry rest ih =>
      rw [JsMap.setIn]
      by_cases here : entry.1 = key
      · rw [List.find?_cons_of_pos (by simpa using here)] at grown
        simp only [Option.map_some, Option.getD_some] at grown
        simp only [if_pos here, List.map_cons, List.sum_cons, grown]
        abel
      · rw [List.find?_cons_of_neg (by simpa using here)] at grown
        simp only [if_neg here, List.map_cons, List.sum_cons, ih grown]
        abel

theorem sum_set (weigh : σ → Quantity) {map : JsMap κ σ} {key : κ} {value : σ} {delta : Quantity}
    (grown : weigh value = ((map.get key).map weigh).getD 0 + delta) :
    ((map.set key value).values.map weigh).sum = (map.values.map weigh).sum + delta :=
  sum_setIn weigh grown

theorem sum_addTo (series : JsMap κ Quantity) (labels : κ) (delta : Quantity) :
    (addTo series labels delta).values.sum = series.values.sum + delta := by
  have grown : id (((series.get labels).map (· + delta)).getD delta) =
      ((series.get labels).map id).getD 0 + delta := by
    cases series.get labels with
    | none => exact (zero_add delta).symm
    | some value => rfl
  simpa [addTo] using sum_set id grown

/-- The sum splits into one series and the others. -/
theorem sum_values (series : JsMap κ Quantity) (labels : κ) :
    series.values.sum = (series.get labels).getD 0 + (series.delete labels).values.sum := by
  obtain ⟨entries, distinct⟩ := series
  simp only [JsMap.values, JsMap.get, JsMap.delete]
  induction entries with
  | nil => simp
  | cons entry rest ih =>
      obtain ⟨isNew, later⟩ := List.nodup_cons.mp distinct
      by_cases here : entry.1 = labels
      · have others : ∀ other ∈ rest, other.1 ≠ labels := by
          intro other member same
          exact isNew (here ▸ same ▸ List.mem_map_of_mem member)
        have kept : rest.filter (fun other => other.1 ≠ labels) = rest :=
          List.filter_eq_self.mpr (by simpa using others)
        rw [List.find?_cons_of_pos (by simpa using here), List.filter_cons_of_neg (by simpa using here),
          kept]
        rfl
      · rw [List.find?_cons_of_neg (by simpa using here), List.filter_cons_of_pos (by simpa using here),
          List.map_cons, List.map_cons, List.sum_cons, List.sum_cons, ih later]
        abel

theorem delete_addTo (series : JsMap κ Quantity) {labels other : κ} (delta : Quantity)
    (apart : other ≠ labels) :
    (addTo series other delta).delete labels = addTo (series.delete labels) other delta := by
  rw [addTo, addTo, JsMap.delete_set _ _ apart, JsMap.get_delete (Ne.symm apart)]

/-- In how many cumulative samples a bucket counts. -/
def reach (bound : Rat) : List Rat → Nat
  | [] => 0
  | other :: rest => (if other = bound then rest.length + 1 else 0) + reach bound rest

/-- In how many buckets of the exported histogram an observation counts, the last one apart. -/
def bucketsOf (bounds : List Rat) (value : Rat) : Nat :=
  (findBound bounds value).elim 0 fun bound => reach bound bounds

theorem sum_cumulative_add (bucketValues : Rat → Nat) (counted more : Nat) (bounds : List Rat) :
    (cumulative bucketValues (counted + more) bounds).sum =
      (cumulative bucketValues counted bounds).sum + ofNat (more * bounds.length) := by
  induction bounds generalizing counted with
  | nil => simp [cumulative]
  | cons bound rest ih =>
      have reordered : counted + more + bucketValues bound = counted + bucketValues bound + more := by
        omega
      rw [cumulative, cumulative, List.sum_cons, List.sum_cons, reordered, ih, List.length_cons,
        Nat.mul_succ, ofNat_add _ more, ofNat_add _ more, add_add_add_comm,
        add_comm (ofNat more)]

theorem sum_cumulative_bump (bucketValues : Rat → Nat) (bound : Rat) (counted : Nat)
    (bounds : List Rat) :
    (cumulative (bump bucketValues bound) counted bounds).sum =
      (cumulative bucketValues counted bounds).sum + ofNat (reach bound bounds) := by
  induction bounds generalizing counted with
  | nil => simp [cumulative, reach]
  | cons other rest ih =>
      rw [cumulative, cumulative, List.sum_cons, List.sum_cons, reach]
      by_cases here : other = bound
      · have bumped : counted + bump bucketValues bound other =
            counted + bucketValues other + 1 := by
          rw [bump, if_pos here, Nat.add_assoc]
        rw [bumped, ih, sum_cumulative_add, if_pos here, Nat.one_mul,
          ofNat_add (counted + bucketValues other) 1, ofNat_add (rest.length + 1),
          ofNat_add rest.length 1]
        abel
      · have same : counted + bump bucketValues bound other = counted + bucketValues other := by
          rw [bump, if_neg here]
        rw [same, ih, if_neg here, Nat.zero_add, add_assoc]

/-- What an observation adds to the exported samples: one for `_count`, and as much again as the
buckets that count it, the bucket without a bound and its own value. -/
def surplus (bounds : List Rat) (value : Rat) : Quantity :=
  ofNat (bucketsOf bounds value + 1) + finite value

theorem sum_samples_zero (bounds : List Rat) : (Buckets.zero.samples bounds).sum = 0 := by
  have empty : (cumulative (fun _ => 0) 0 bounds).sum = 0 := by
    induction bounds with
    | nil => rfl
    | cons bound rest ih => rw [cumulative, List.sum_cons, ih, add_zero]; rfl
  simp [Buckets.samples, Buckets.zero, empty, ← zero_eq]

theorem sum_samples_observe (bounds : List Rat) (value : Rat) (buckets : Buckets) :
    ((buckets.observe bounds value).samples bounds).sum =
      (buckets.samples bounds).sum + (ofNat 1 + surplus bounds value) := by
  have counted : (cumulative (buckets.observe bounds value).bucketValues 0 bounds).sum =
      (cumulative buckets.bucketValues 0 bounds).sum + ofNat (bucketsOf bounds value) := by
    rw [Buckets.observe, bucketsOf]
    cases findBound bounds value with
    | none => exact (add_zero _).symm
    | some bound => exact sum_cumulative_bump buckets.bucketValues bound 0 bounds
  have total : (buckets.observe bounds value).count = buckets.count + 1 := rfl
  have sum : (buckets.observe bounds value).sum = buckets.sum + value := rfl
  simp only [Buckets.samples, List.sum_append, List.sum_cons, List.sum_nil, counted, total, sum,
    surplus, ofNat_add, ← finite_add]
  abel

theorem sum_observe {labels : κ} {value : Rat} {bounds : List Rat} {series : JsMap κ Buckets}
    {next : Instrument κ}
    (observed : (Instrument.histogram bounds series).observe labels (finite value) = some next) :
    next.samples.sum =
      (Instrument.histogram bounds series).samples.sum + (ofNat 1 + surplus bounds value) := by
  obtain rfl := Option.some.inj observed
  simp only [Instrument.samples, List.flatMap_def, List.sum_flatten, List.map_map]
  refine sum_set (List.sum ∘ Buckets.samples bounds) ?_
  rw [Function.comp_apply]
  rw [sum_samples_observe]
  cases series.get labels with
  | none => exact congrArg (· + _) (sum_samples_zero bounds)
  | some buckets => rfl

end Instruments
