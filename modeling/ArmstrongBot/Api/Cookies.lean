import ArmstrongBot.Library.JsMethods
import ArmstrongBot.Library.UriDecoding

/-! The readers of the `Cookie` header: `parseCookies` of the API, `RealtimeAuth.cookie`, and
`readCookie` of the dashboard. -/

namespace Cookies

open JsText
open UriDecoding (decodeURIComponent)

/-- What a reader answers for a name. An object without a property of the name answers with what
it inherits. -/
inductive Answer
  | throws
  | nothing
  | text (value : JsString)
  | inherited
  deriving DecidableEq

def Answer.of : Option JsString → Answer
  | none => .nothing
  | some value => .text value

/-- The name and the value of a part with a `=`. -/
def entryOf (part : JsString) : Option (JsString × JsString) :=
  if part.contains (unit 61) then
    some (trim (part.takeWhile (· ≠ unit 61)), trim ((part.dropWhile (· ≠ unit 61)).drop 1))
  else none

/-- One turn of the loop of `parseCookies`. The key `__proto__` reaches a setter that ignores
strings. -/
def parsePart (out : Record JsString) (part : JsString) : Option (Record JsString) :=
  match entryOf part with
  | none => some out
  | some (name, value) =>
      if name = [] then some out
      else (decodeURIComponent value).map fun decoded =>
        if name = protoName then out else out.set name decoded

def parseCookies (header : JsString) : Option (Record JsString) :=
  if header = [] then some Record.empty
  else (split (unit 59) header).foldlM parsePart Record.empty

/-- `parseCookies(req)[name]` -/
def apiCookie (header name : JsString) : Answer :=
  match parseCookies header with
  | none => .throws
  | some out =>
      match out name with
      | some value => .text value
      | none => if name ∈ inheritedNames then .inherited else .nothing

def firstOf (name : JsString) : List JsString → Answer
  | [] => .nothing
  | part :: parts =>
      match entryOf part with
      | none => firstOf name parts
      | some (found, value) =>
          if found = name then
            match decodeURIComponent value with
            | none => .throws
            | some decoded => .text decoded
          else firstOf name parts

def firstCookie (header name : JsString) : Answer :=
  if header = [] then .nothing else firstOf name (split (unit 59) header)

/-- `RealtimeAuth.cookie` -/
def realtimeCookie (header name : JsString) : Answer := firstCookie header name

/-- `readCookie` of the dashboard's `SessionGuard` -/
def readCookie (header name : JsString) : Answer := firstCookie header name

def readers : List (JsString → JsString → Answer) := [apiCookie, realtimeCookie, readCookie]

/-! The header as a list of entries. -/

def entries (header : JsString) : List (JsString × JsString) :=
  (split (unit 59) header).filterMap entryOf

def valuesOf (name : JsString) (pairs : List (JsString × JsString)) : List JsString :=
  (pairs.filter fun entry => entry.1 = name).map Prod.snd

/-- The values that the header gives for a name, in the order of the header. -/
def named (header name : JsString) : List JsString := valuesOf name (entries header)

@[simp] theorem entries_nil : entries [] = [] := by decide

theorem firstOf_eq (name : JsString) (parts : List JsString) :
    firstOf name parts =
      match (valuesOf name (parts.filterMap entryOf)).head? with
      | none => .nothing
      | some value => match decodeURIComponent value with
          | none => .throws
          | some decoded => .text decoded := by
  induction parts with
  | nil => rfl
  | cons part parts ih =>
      rw [firstOf]
      cases found : entryOf part with
      | none => simp only [ih, List.filterMap_cons, found]
      | some entry =>
          obtain ⟨key, value⟩ := entry
          by_cases same : key = name
          · simp [found, valuesOf, same]
          · simp only [if_neg same, ih, List.filterMap_cons, found]
            simp [valuesOf, same]

theorem firstCookie_eq (header name : JsString) :
    firstCookie header name =
      match (named header name).head? with
      | none => .nothing
      | some value => match decodeURIComponent value with
          | none => .throws
          | some decoded => .text decoded := by
  by_cases empty : header = []
  · subst empty
    simp [firstCookie, named, valuesOf]
  · rw [firstCookie, if_neg empty, firstOf_eq]
    rfl

/-- Every cookie with a name has a value that decodes. -/
def Decodes (pairs : List (JsString × JsString)) : Prop :=
  ∀ entry ∈ pairs, entry.1 ≠ [] → (decodeURIComponent entry.2).isSome = true

theorem mem_valuesOf {name value : JsString} {pairs : List (JsString × JsString)} :
    value ∈ valuesOf name pairs ↔ (name, value) ∈ pairs := by
  simp [valuesOf]

theorem valuesOf_cons (name key value : JsString) (pairs : List (JsString × JsString)) :
    valuesOf name ((key, value) :: pairs) =
      if key = name then value :: valuesOf name pairs else valuesOf name pairs := by
  by_cases same : key = name <;> simp [valuesOf, same]

/-- The loop ends, and leaves under a name the last value of the name, or what was there before. -/
theorem foldlM_parsePart {parts : List JsString} {start : Record JsString}
    (decodes : Decodes (parts.filterMap entryOf)) :
    ∃ out, parts.foldlM parsePart start = some out ∧ ∀ name, out name =
      if name = [] ∨ name = protoName then start name
      else ((valuesOf name (parts.filterMap entryOf)).getLast?.bind decodeURIComponent).or
        (start name) := by
  induction parts generalizing start with
  | nil => exact ⟨start, rfl, fun name => by simp [valuesOf]⟩
  | cons part parts ih =>
      rw [List.foldlM_cons, parsePart]
      cases found : entryOf part with
      | none =>
          simp only [List.filterMap_cons, found] at decodes ⊢
          exact ih decodes
      | some entry =>
          obtain ⟨key, value⟩ := entry
          simp only [List.filterMap_cons, found] at decodes ⊢
          have later : Decodes (parts.filterMap entryOf) := fun entry member =>
            decodes entry (List.mem_cons_of_mem _ member)
          by_cases unnamed : key = []
          · obtain ⟨out, result, reads⟩ := @ih start later
            refine ⟨out, by rw [if_pos unnamed]; exact result, fun name => ?_⟩
            rw [reads name]
            split
            · rfl
            · rename_i ordinary
              have apart : key ≠ name := by
                rintro rfl
                exact ordinary (Or.inl unnamed)
              rw [valuesOf_cons, if_neg apart]
          · obtain ⟨decoded, decode⟩ :=
              Option.isSome_iff_exists.mp (decodes (key, value) List.mem_cons_self unnamed)
            obtain ⟨out, result, reads⟩ :=
              @ih (if key = protoName then start else start.set key decoded) later
            refine ⟨out, ?_, fun name => ?_⟩
            · rw [if_neg unnamed, decode]
              exact result
            rw [reads name]
            split
            · rename_i special
              split
              · rfl
              · rename_i notProto
                refine Record.set_other start decoded ?_
                rintro rfl
                exact special.elim unnamed notProto
            · rename_i ordinary
              rw [valuesOf_cons]
              by_cases same : key = name
              · subst same
                rw [if_neg fun proto => ordinary (Or.inr proto), Record.set_same, if_pos rfl,
                  List.getLast?_cons]
                cases last : (valuesOf key (parts.filterMap entryOf)).getLast? with
                | none => simp [decode]
                | some other =>
                    have member := mem_valuesOf.mp (List.mem_of_getLast? last)
                    obtain ⟨shown, read⟩ := Option.isSome_iff_exists.mp
                      (later (key, other) member unnamed)
                    simp [read]
              · rw [if_neg same]
                congr 1
                split
                · rfl
                · exact Record.set_other start decoded fun equal => same equal.symm

theorem foldlM_parsePart_isSome {parts : List JsString} {start : Record JsString}
    (returned : (parts.foldlM parsePart start).isSome = true) :
    Decodes (parts.filterMap entryOf) := by
  induction parts generalizing start with
  | nil => simp [Decodes]
  | cons part parts ih =>
      rw [List.foldlM_cons] at returned
      cases step : parsePart start part with
      | none => simp [step] at returned
      | some next =>
          rw [step] at returned
          have later := @ih next returned
          rw [parsePart] at step
          cases found : entryOf part with
          | none => simpa only [List.filterMap_cons, found] using later
          | some entry =>
              obtain ⟨key, value⟩ := entry
              simp only [found] at step
              simp only [List.filterMap_cons, found, Decodes, List.forall_mem_cons]
              refine ⟨fun named => ?_, later⟩
              rw [if_neg named] at step
              obtain ⟨decoded, decode, _⟩ := Option.map_eq_some_iff.mp step
              simp [decode]

/-! The three readers. -/

theorem parseCookies_eq (header : JsString) :
    parseCookies header = (split (unit 59) header).foldlM parsePart Record.empty := by
  by_cases empty : header = []
  · subst empty
    rfl
  · rw [parseCookies, if_neg empty]

theorem apiCookie_eq {header : JsString} (decodes : Decodes (entries header)) (name : JsString) :
    apiCookie header name =
      match if name = [] ∨ name = protoName then none
        else (named header name).getLast?.bind decodeURIComponent with
      | some value => .text value
      | none => if name ∈ inheritedNames then .inherited else .nothing := by
  obtain ⟨out, result, reads⟩ := @foldlM_parsePart _ Record.empty decodes
  simp only [apiCookie, parseCookies_eq, result, reads name, Record.empty, Option.or_none]
  rfl

theorem decodes_of_apiCookie {header name : JsString} (answered : apiCookie header name ≠ .throws) :
    Decodes (entries header) := by
  refine @foldlM_parsePart_isSome _ Record.empty ?_
  rw [← parseCookies_eq]
  cases parsed : parseCookies header with
  | none => simp [apiCookie, parsed] at answered
  | some out => rfl

/-- The header without what is malformed and without the cookies of other names. -/
def relevant (name part : JsString) : Bool :=
  match entryOf part with
  | none => false
  | some (found, value) => found == name && (decodeURIComponent value).isSome

def cleaned (header name : JsString) : JsString :=
  [unit 59].intercalate ((split (unit 59) header).filter (relevant name))

/-- The three readers find one value or none, none of them throws, and each finds the same in the
header without malformed and unrelated cookies. -/
def SameCookie (header name : JsString) : Prop :=
  ∃ value, ∀ reader ∈ readers,
    reader header name = .of value ∧ reader (cleaned header name) name = .of value

/-- Every cookie with a name decodes, the name is not `__proto__`, and the header has no cookie of
the name and no object inherits it, or has some, with one value in the first and the last of
them, and the name is not empty. -/
structure Uniform (header name : JsString) : Prop where
  decodes : Decodes (entries header)
  ordinary : name ≠ protoName
  absent : named header name = [] → name ∉ inheritedNames
  present : named header name ≠ [] → name ≠ []
  agrees : (named header name).head?.bind decodeURIComponent =
    (named header name).getLast?.bind decodeURIComponent

theorem entries_cleaned (header name : JsString) :
    entries (cleaned header name) =
      (entries header).filter fun entry => entry.1 == name && (decodeURIComponent entry.2).isSome := by
  have kept (parts : List JsString) : (parts.filter (relevant name)).filterMap entryOf =
      (parts.filterMap entryOf).filter fun entry =>
        entry.1 == name && (decodeURIComponent entry.2).isSome := by
    induction parts with
    | nil => rfl
    | cons part parts ih =>
        cases found : entryOf part with
        | none => simp [relevant, found, ih]
        | some entry =>
            have here : relevant name part =
                (entry.1 == name && (decodeURIComponent entry.2).isSome) := by
              simp only [relevant, found]
            cases keeps : entry.1 == name && (decodeURIComponent entry.2).isSome with
            | true => simp only [List.filter_cons, List.filterMap_cons, here, keeps, found, ih, if_true]
            | false => simp [here, keeps, found, ih]
  rw [← show _ = (entries header).filter _ from kept (split (unit 59) header), cleaned, entries]
  generalize pieces : (split (unit 59) header).filter (relevant name) = parts
  have free : ∀ part ∈ parts, unit 59 ∉ part := by
    intro part member
    rw [← pieces] at member
    exact not_mem_split (List.mem_of_mem_filter member)
  cases parts with
  | nil => exact entries_nil
  | cons part parts => rw [split, List.splitOn_intercalate _ free (List.cons_ne_nil part parts)]

theorem named_cleaned {header name : JsString} (uniform : Uniform header name) :
    named (cleaned header name) name = named header name := by
  rw [named, entries_cleaned, valuesOf, List.filter_filter, named, valuesOf]
  congr 1
  refine List.filter_congr fun entry member => ?_
  by_cases same : entry.1 = name
  · have present : named header name ≠ [] := by
      refine List.ne_nil_of_mem (a := entry.2) (mem_valuesOf.mpr ?_)
      rw [← same]
      exact member
    have decode := uniform.decodes entry member (same ▸ uniform.present present)
    simp [same, decode]
  · simp [same]

theorem Uniform.cleaned {header name : JsString} (uniform : Uniform header name) :
    Uniform (cleaned header name) name := by
  have same := named_cleaned uniform
  refine ⟨?_, uniform.ordinary, same ▸ uniform.absent, same ▸ uniform.present, same ▸ uniform.agrees⟩
  intro entry member
  rw [entries_cleaned] at member
  exact uniform.decodes entry (List.mem_of_mem_filter member)

theorem Uniform.finds {header name : JsString} (uniform : Uniform header name) :
    ∀ reader ∈ readers,
      reader header name = .of ((named header name).head?.bind decodeURIComponent) := by
  have api : apiCookie header name =
      .of ((named header name).head?.bind decodeURIComponent) := by
    rw [apiCookie_eq uniform.decodes]
    cases values : named header name with
    | nil => simp [uniform.absent values, Answer.of]
    | cons value rest =>
        have present : named header name ≠ [] := by simp [values]
        have ordinary : ¬ (name = [] ∨ name = protoName) :=
          not_or.mpr ⟨uniform.present present, uniform.ordinary⟩
        have member : (name, value) ∈ entries header := mem_valuesOf.mp (by rw [← named, values]; simp)
        obtain ⟨decoded, decode⟩ :=
          Option.isSome_iff_exists.mp (uniform.decodes _ member (uniform.present present))
        rw [if_neg ordinary, ← values, ← uniform.agrees, values]
        simp [decode, Answer.of]
  have first : firstCookie header name =
      .of ((named header name).head?.bind decodeURIComponent) := by
    rw [firstCookie_eq]
    cases values : named header name with
    | nil => rfl
    | cons value rest =>
        have present : named header name ≠ [] := by simp [values]
        have member : (name, value) ∈ entries header := mem_valuesOf.mp (by rw [← named, values]; simp)
        obtain ⟨decoded, decode⟩ :=
          Option.isSome_iff_exists.mp (uniform.decodes _ member (uniform.present present))
        simp [decode, Answer.of]
  intro reader member
  simp only [readers, List.mem_cons, List.not_mem_nil, or_false] at member
  rcases member with rfl | rfl | rfl
  · exact api
  · exact first
  · exact first

theorem sameCookie_iff_uniform (header name : JsString) :
    SameCookie header name ↔ Uniform header name := by
  constructor
  · rintro ⟨value, all⟩
    have api : apiCookie header name = .of value := (all apiCookie (by simp [readers])).1
    have first : firstCookie header name = .of value := (all realtimeCookie (by simp [readers])).1
    have decodes : Decodes (entries header) := by
      refine @decodes_of_apiCookie header name ?_
      rw [api]
      cases value <;> simp [Answer.of]
    rw [apiCookie_eq decodes] at api
    rw [firstCookie_eq] at first
    have ordinary : name ≠ protoName := by
      have inherits : protoName ∈ inheritedNames := by decide +kernel
      rintro rfl
      simp only [or_true, if_true, inherits] at api
      cases value <;> simp [Answer.of] at api
    -- without a name the API finds nothing, and the other readers find the first value
    have present : named header name ≠ [] → name ≠ [] := by
      have notInherited : ([] : JsString) ∉ inheritedNames := by decide +kernel
      rintro values rfl
      obtain ⟨opening, rest, equal⟩ := List.exists_cons_of_ne_nil values
      simp only [true_or, if_true, notInherited, if_false] at api
      rw [equal, ← api] at first
      cases decode : decodeURIComponent opening <;> simp [decode] at first
    refine ⟨decodes, ordinary, ?_, present, ?_⟩
    · intro values inherits
      simp only [values, List.getLast?_nil, Option.bind_none, ite_self, if_pos inherits] at api
      cases value <;> simp [Answer.of] at api
    · cases values : named header name with
      | nil => rfl
      | cons opening rest =>
          have nonempty : name ≠ [] := present (by simp [values])
          rw [values] at api first
          rw [if_neg (not_or.mpr ⟨nonempty, ordinary⟩)] at api
          cases opened : decodeURIComponent opening with
          | none =>
              simp only [List.head?_cons, opened] at first
              cases value <;> simp [Answer.of] at first
          | some decoded =>
              simp only [List.head?_cons, opened] at first
              rw [← first] at api
              cases closed : (opening :: rest).getLast?.bind decodeURIComponent with
              | none =>
                  rw [closed] at api
                  by_cases inherits : name ∈ inheritedNames <;> simp [inherits] at api
              | some other =>
                  rw [closed] at api
                  simpa [opened] using api.symm
  · intro uniform
    refine ⟨_, fun reader member => ⟨uniform.finds reader member, ?_⟩⟩
    rw [uniform.cleaned.finds reader member, named_cleaned uniform]

/-- One header names two sessions; in another a broken cookie hides the session from the API. -/
theorem sessions_differ :
    apiCookie (js "sid=a; sid=b") (js "sid") = .text (js "b") ∧
      realtimeCookie (js "sid=a; sid=b") (js "sid") = .text (js "a") ∧
      apiCookie (js "sid=a; theme=50%") (js "sid") = .throws ∧
      readCookie (js "sid=a; theme=50%") (js "sid") = .text (js "a") := by
  decide +kernel

end Cookies
