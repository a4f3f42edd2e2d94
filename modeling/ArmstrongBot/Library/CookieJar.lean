import ArmstrongBot.Library.JsMap
import ArmstrongBot.Library.JsMethods

/-! The cookies that a browser holds for a site, and the header that it sends them in. -/

namespace CookieJar

open JsText

structure Name where
  text : JsString
  apart : unit 59 ∉ text ∧ unit 61 ∉ text
  trimmed : trim text = text
  deriving DecidableEq

/-- A strict cookie stays away from requests that another site leads to. -/
structure Cookie where
  value : JsString
  apart : unit 59 ∉ value
  trimmed : trim value = value
  expiresAt : Option Int
  strict : Bool

/-- The cookie that a response sets, unless the browser would cut its value. -/
def Cookie.of (value : JsString) (expiresAt : Option Int) (strict : Bool) : Option Cookie :=
  if fits : unit 59 ∉ value ∧ trim value = value then
    some { value, apart := fits.1, trimmed := fits.2, expiresAt, strict }
  else none

abbrev Jar := JsMap Name Cookie

def Cookie.isSent (cookie : Cookie) (now : Int) (crossSite : Bool) : Bool :=
  cookie.expiresAt.all (fun expiresAt => now < expiresAt) && !(crossSite && cookie.strict)

def sent (jar : Jar) (now : Int) (crossSite : Bool) : List (Name × Cookie) :=
  jar.entries.filter fun entry => entry.2.isSent now crossSite

def pair (entry : Name × Cookie) : JsString := entry.1.text ++ unit 61 :: entry.2.value

def header (jar : Jar) (now : Int) (crossSite : Bool) : JsString :=
  [unit 59, unit 32].intercalate ((sent jar now crossSite).map pair)

theorem trim_space (text : JsString) : trim (unit 32 :: text) = trim text := by
  have isSpace : isSpace (unit 32) = true := by decide
  rw [trim, List.dropWhile_cons_of_pos isSpace, trim]

theorem not_mem_pair (entry : Name × Cookie) : unit 59 ∉ pair entry := by
  intro member
  rcases List.mem_append.mp member with inName | later
  · exact entry.1.apart.1 inName
  · rcases List.mem_cons.mp later with isSign | inValue
    · exact absurd isSign (by decide)
    · exact entry.2.apart inValue

/-- Between two cookies stand a semicolon and a space, which goes with the later one. -/
theorem intercalate_spaced (first : JsString) (rest : List JsString) :
    [unit 59, unit 32].intercalate (first :: rest) =
      [unit 59].intercalate (first :: rest.map fun text => unit 32 :: text) := by
  induction rest generalizing first with
  | nil => rfl
  | cons second rest ih =>
      rw [List.intercalate_cons_cons, ih, List.map_cons, List.intercalate_cons_cons]
      cases rest with
      | nil => simp [List.intercalate_singleton]
      | cons third rest =>
          simp only [List.map_cons, List.intercalate_cons_cons]
          simp

/-- The pieces of the header, if something is sent. -/
theorem split_header {jar : Jar} {now : Int} {crossSite : Bool} {first : Name × Cookie}
    {rest : List (Name × Cookie)} (isSent : sent jar now crossSite = first :: rest) :
    split (unit 59) (header jar now crossSite) =
      pair first :: rest.map fun entry => unit 32 :: pair entry := by
  rw [header, isSent, List.map_cons, intercalate_spaced, List.map_map]
  refine List.splitOn_intercalate _ ?_ (List.cons_ne_nil _ _)
  intro piece member
  rcases List.mem_cons.mp member with rfl | later
  · exact not_mem_pair first
  · obtain ⟨entry, _, rfl⟩ := List.mem_map.mp later
    refine fun inPiece => (List.mem_cons.mp inPiece).elim (by decide) (not_mem_pair entry)

theorem header_nil {jar : Jar} {now : Int} {crossSite : Bool}
    (isSent : sent jar now crossSite = []) : header jar now crossSite = [] := by
  rw [header, isSent]
  rfl

theorem name_ext {first second : Name} (same : first.text = second.text) : first = second := by
  cases first
  cases second
  simpa using same

/-- Of one name one value is sent at most. -/
theorem sent_named (jar : Jar) (now : Int) (crossSite : Bool) (name : Name) :
    (((sent jar now crossSite).map fun entry => (entry.1.text, entry.2.value)).filter
        fun entry => entry.1 = name.text).map Prod.snd =
      (((jar.get name).filter fun cookie => cookie.isSent now crossSite).map Cookie.value).toList := by
  obtain ⟨entries, distinct⟩ := jar
  simp only [sent, JsMap.get]
  induction entries with
  | nil => rfl
  | cons entry rest ih =>
      obtain ⟨isNew, later⟩ := List.nodup_cons.mp distinct
      by_cases here : entry.1 = name
      · have others : rest.filter (fun other => other.1.text = name.text) = [] := by
          refine List.filter_eq_nil_iff.mpr fun other member same => isNew ?_
          rw [here, ← name_ext (of_decide_eq_true same)]
          exact List.mem_map_of_mem member
        have none_later : (((rest.filter fun other => other.2.isSent now crossSite).map
            fun other => (other.1.text, other.2.value)).filter
              fun other => other.1 = name.text) = [] := by
          rw [List.filter_map, List.filter_filter]
          refine List.map_eq_nil_iff.mpr (List.filter_eq_nil_iff.mpr fun other member both => ?_)
          obtain ⟨same, _⟩ := (Bool.and_eq_true ..).mp both
          exact List.filter_eq_nil_iff.mp others other member same
        rw [List.find?_cons_of_pos (by simpa using here), Option.map_some, List.filter_cons]
        split
        · rename_i isSent
          rw [List.map_cons, List.filter_cons_of_pos (by simp [here]), none_later,
            Option.filter_some, if_pos isSent]
          rfl
        · rename_i isKept
          rw [none_later, Option.filter_some, if_neg isKept]
          rfl
      · have apart : entry.1.text ≠ name.text := fun same => here (name_ext same)
        rw [List.find?_cons_of_neg (by simpa using here), ← ih later, List.filter_cons]
        split
        · rw [List.map_cons, List.filter_cons_of_neg (by simpa using apart)]
        · rfl

end CookieJar
