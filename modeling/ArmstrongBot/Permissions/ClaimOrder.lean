import ArmstrongBot.Library.PathPatterns
import ArmstrongBot.Permissions.Resolver

/-! Claims as patterns of paths: how the comparison of texts in `covers` and the count of segments in
`specificity` hang together. -/

namespace Permissions

open JsText PathPattern

/-- A claim without a wildcard. -/
def Claim.isConcrete (claim : Claim) : Bool := claim.value != star && !dotStar.isSuffixOf claim.value

def join (path : List JsString) : JsString := [dot].intercalate path

/-- A wildcard stands for what goes on from its path. -/
def Claim.pattern (claim : Claim) : PathPattern JsString :=
  if claim.value = star then .all
  else if open_ : dotStar.isSuffixOf claim.value = true ∧ (split dot claim.value).dropLast ≠ [] then
    .below (split dot claim.value).dropLast open_.2
  else .exact (split dot claim.value) (List.splitOn_ne_nil dot claim.value)

/-! Segments have neither dots nor stars. -/

theorem not_mem_segment {segment : JsString} (isSegment_ : isSegment segment = true) {code : CodeUnit}
    (special : (isLower code || isDigit code) = false) : code ∉ segment := by
  intro member
  rw [isSegment, Bool.and_eq_true, List.all_eq_true] at isSegment_
  rw [isSegment_.2 code member] at special
  cases special

theorem Segments.free {path : List JsString} (segments : Segments path) : ∀ piece ∈ path, dot ∉ piece :=
  fun piece member => not_mem_segment (segments piece member) (by decide)

theorem Segments.not_star {path : List JsString} (segments : Segments path) : star ∉ path :=
  fun member => absurd (segments star member) (by decide)

theorem split_join {path : List JsString} (nonempty : path ≠ []) (segments : Segments path) :
    split dot (join path) = path :=
  List.splitOn_intercalate dot segments.free nonempty

theorem join_split (text : JsString) : join (split dot text) = text := List.intercalate_splitOn dot

theorem split_join_append {path : List JsString} (nonempty : path ≠ []) (segments : Segments path)
    (rest : JsString) : split dot (join path ++ dot :: rest) = path ++ split dot rest := by
  induction path with
  | nil => exact absurd rfl nonempty
  | cons first path ih =>
      have free := segments.free first List.mem_cons_self
      cases path with
      | nil =>
          rw [join, List.intercalate_singleton, split, List.splitOn_append_cons_self_of_not_mem free]
          rfl
      | cons second path =>
          have later := ih (List.cons_ne_nil second path)
            fun piece member => segments piece (List.mem_cons_of_mem first member)
          rw [join, List.intercalate_cons_cons, List.append_assoc, List.append_assoc,
            List.singleton_append, split, List.splitOn_append_cons_self_of_not_mem free]
          rw [join, split] at later
          rw [later]
          rfl

theorem split_wildcard {path : List JsString} (nonempty : path ≠ []) (segments : Segments path) :
    split dot (join path ++ dotStar) = path ++ [star] := by
  have text : dotStar = dot :: star := by decide
  have last : split dot star = [star] := by decide
  rw [text, split_join_append nonempty segments, last]

/-- A text begins with a path and a dot if its segments go on from the path. -/
theorem prefix_iff_goesOn {path : List JsString} (nonempty : path ≠ []) (segments : Segments path)
    (text : JsString) : join path ++ [dot] <+: text ↔ GoesOn path (split dot text) := by
  constructor
  · rintro ⟨rest, rfl⟩
    rw [List.append_assoc, List.singleton_append, split_join_append nonempty segments]
    exact ⟨split dot rest, List.splitOn_ne_nil dot rest, rfl⟩
  · rintro ⟨rest, some, isSplit⟩
    have free : ∀ piece ∈ rest, dot ∉ piece := by
      intro piece member
      have isPiece : piece ∈ split dot text := by
        rw [isSplit]
        exact List.mem_append_right path member
      exact not_mem_split isPiece
    have whole : split dot (join path ++ dot :: join rest) = split dot text := by
      rw [split_join_append nonempty segments, isSplit, join, split, List.splitOn_intercalate dot free some]
    have same := congrArg join whole
    rw [join_split, join_split] at same
    exact ⟨join rest, by rw [← same]; simp⟩

/-- The three forms of a claim. -/
inductive Claim.View (claim : Claim) : PathPattern JsString → Prop
  | all (value : claim.value = star) : View claim .all
  | exact {path : List JsString} (nonempty : path ≠ []) (segments : Segments path)
      (value : claim.value = join path) : View claim (.exact path nonempty)
  | below {path : List JsString} (nonempty : path ≠ []) (segments : Segments path)
      (value : claim.value = join path ++ dotStar) : View claim (.below path nonempty)

theorem isSuffix_wildcard (text : JsString) : dotStar.isSuffixOf (text ++ dotStar) = true := by
  rw [List.isSuffixOf_iff_suffix]
  exact List.suffix_append text dotStar

theorem isSuffix_join {path : List JsString} (nonempty : path ≠ []) (segments : Segments path) :
    dotStar.isSuffixOf (join path) = false := by
  rw [Bool.eq_false_iff, ne_eq, List.isSuffixOf_iff_suffix]
  rintro ⟨front, same⟩
  have text : dotStar = dot :: star := by decide
  have pieces := congrArg (split dot) same
  rw [split_join nonempty segments, text, split, List.splitOn_append_cons_self] at pieces
  have last : star ∈ path := by
    rw [← pieces]
    exact List.mem_append_right _ (by decide)
  exact segments.not_star last

theorem join_ne_star {path : List JsString} (nonempty : path ≠ []) (segments : Segments path) :
    join path ≠ star := by
  intro same
  have pieces := congrArg (split dot) same
  rw [split_join nonempty segments, show split dot star = [star] by decide] at pieces
  exact segments.not_star (by simp [pieces])

theorem wildcard_ne_star (text : JsString) : text ++ dotStar ≠ star := by
  intro same
  have lengths := congrArg List.length same
  rw [List.length_append, show dotStar.length = 2 by decide, show star.length = 1 by decide] at lengths
  omega

theorem Claim.view (claim : Claim) : claim.View claim.pattern := by
  have formed := claim.formed
  rw [matchesPattern, Bool.or_eq_true, beq_iff_eq] at formed
  rcases formed with value | namespaced
  · rw [Claim.pattern, if_pos value]
    exact .all value
  · have whole := join_split claim.value
    rcases isNamespaced_cases namespaced with ⟨nonempty, segments⟩ | ⟨path, nonempty, segments, pieces⟩
    · have notStar := join_ne_star nonempty segments
      have closed := isSuffix_join nonempty segments
      rw [whole] at notStar closed
      rw [Claim.pattern, if_neg notStar, dif_neg fun open_ => by rw [closed] at open_; cases open_.1]
      exact .exact nonempty segments whole.symm
    · have value : claim.value = join path ++ dotStar := by
        have same : split dot claim.value = split dot (join path ++ dotStar) := by
          rw [pieces, split_wildcard nonempty segments]
        have texts := congrArg join same
        rwa [join_split, join_split] at texts
      have front : (split dot claim.value).dropLast = path := by
        rw [pieces, List.dropLast_concat]
      have open_ : dotStar.isSuffixOf claim.value = true ∧ (split dot claim.value).dropLast ≠ [] := by
        rw [front, value]
        exact ⟨isSuffix_wildcard _, nonempty⟩
      have notStar : claim.value ≠ star := by
        rw [value]
        exact wildcard_ne_star _
      rw [Claim.pattern, if_neg notStar, dif_pos open_]
      simp only [front]
      exact .below nonempty segments value

theorem pattern_injective {first second : Claim} (same : first.pattern = second.pattern) :
    first = second := by
  have texts : first.value = second.value := by
    have firstView := first.view
    have secondView := second.view
    rw [same] at firstView
    generalize second.pattern = pattern at firstView secondView
    cases firstView with
    | all value =>
        cases secondView with
        | all other => rw [value, other]
    | exact _ _ value =>
        cases secondView with
        | exact _ _ other => rw [value, other]
    | below _ _ value =>
        cases secondView with
        | below _ _ other => rw [value, other]
  cases first
  cases second
  subst texts
  rfl

theorem covers_iff (held required : Claim) :
    held.covers required = true ↔ held.value = star ∨ held.value = required.value ∨
      dotStar.isSuffixOf held.value = true ∧ held.value.dropLast <+: required.value := by
  rw [Claim.covers]
  by_cases all : held.value = star
  · simp [all]
  · by_cases same : held.value = required.value
    · simp [same]
    · by_cases open_ : dotStar.isSuffixOf held.value = true
      · simp [all, same, open_, List.isPrefixOf_iff_prefix]
      · simp [all, same, open_]

theorem exact_ne_wildcard {path other : List JsString} (nonempty : path ≠ []) (segments : Segments path) :
    join path ≠ join other ++ dotStar := by
  intro same
  have closed := isSuffix_join nonempty segments
  rw [same, isSuffix_wildcard] at closed
  cases closed

theorem join_injective {path other : List JsString} (nonempty : path ≠ []) (segments : Segments path)
    (otherNonempty : other ≠ []) (otherSegments : Segments other) (same : join path = join other) :
    path = other := by
  rw [← split_join nonempty segments, same, split_join otherNonempty otherSegments]

/-- A wildcard covers what begins with its path and a dot, itself included. -/
theorem covers_wildcard_iff {held required : Claim} {path : List JsString} (nonempty : path ≠ [])
    (segments : Segments path) (value : held.value = join path ++ dotStar) :
    held.covers required = true ↔ GoesOn path (split dot required.value) := by
  have front : (join path ++ dotStar).dropLast = join path ++ [dot] := by
    rw [List.dropLast_append_of_ne_nil (by decide)]
    rfl
  rw [covers_iff, value, front, isSuffix_wildcard, prefix_iff_goesOn nonempty segments]
  constructor
  · rintro (all | same | ⟨_, goesOn⟩)
    · exact absurd all (wildcard_ne_star _)
    · rw [← same, split_wildcard nonempty segments]
      exact ⟨[star], by simp, rfl⟩
    · exact goesOn
  · exact fun goesOn => .inr (.inr ⟨rfl, goesOn⟩)

theorem goesOn_wildcard_iff (path other : List JsString) :
    GoesOn path (other ++ [star]) ↔ path <+: other := by
  constructor
  · intro goesOn
    have shorter := goesOn.length_lt
    rw [List.length_append, List.length_singleton] at shorter
    exact List.prefix_of_prefix_length_le goesOn.isPrefix (List.prefix_append other [star]) (by omega)
  · rintro ⟨rest, rfl⟩
    exact ⟨rest ++ [star], by simp, by simp⟩

/-- `covers` reads the texts as the patterns compare. -/
theorem covers_iff_pattern (held required : Claim) :
    held.covers required = true ↔ held.pattern.Covers required.pattern := by
  have heldView := held.view
  have requiredView := required.view
  generalize held.pattern = pattern at heldView
  generalize required.pattern = asked at requiredView
  cases heldView with
  | all value => exact iff_of_true ((covers_iff held required).mpr (.inl value)) trivial
  | @exact path nonempty segments value =>
      have plain : held.covers required = true ↔ join path = required.value := by
        rw [covers_iff, value, isSuffix_join nonempty segments]
        simp [join_ne_star nonempty segments]
      rw [plain]
      cases requiredView with
      | all other =>
          rw [other]
          exact iff_of_false (join_ne_star nonempty segments) id
      | exact otherNonempty otherSegments other =>
          rw [other]
          constructor
          · exact join_injective nonempty segments otherNonempty otherSegments
          · intro same
            exact congrArg join same
      | below otherNonempty otherSegments other =>
          rw [other]
          exact iff_of_false (exact_ne_wildcard nonempty segments) id
  | @below path nonempty segments value =>
      rw [covers_wildcard_iff nonempty segments value]
      cases requiredView with
      | all other =>
          rw [other, show split dot star = [star] by decide]
          refine iff_of_false ?_ id
          intro goesOn
          have shorter := goesOn.length_lt
          have positive := List.length_pos_iff.mpr nonempty
          rw [List.length_singleton] at shorter
          omega
      | exact otherNonempty otherSegments other =>
          rw [other, split_join otherNonempty otherSegments]
          exact Iff.rfl
      | below otherNonempty otherSegments other =>
          rw [other, split_wildcard otherNonempty otherSegments]
          exact goesOn_wildcard_iff path _

theorem specificity_eq_rank (claim : Claim) : claim.specificity = claim.pattern.rank := by
  have view := claim.view
  generalize claim.pattern = pattern at view
  cases view with
  | all value => simp [Claim.specificity, value, rank]
  | exact nonempty segments value =>
      rw [Claim.specificity, value, if_neg (by simpa using join_ne_star nonempty segments),
        isSuffix_join nonempty segments, split_join nonempty segments]
      rfl
  | below nonempty segments value =>
      rw [Claim.specificity, value, if_neg (by simpa using wildcard_ne_star _), isSuffix_wildcard,
        split_wildcard nonempty segments, List.length_append]
      rfl

theorem isConcrete_iff (claim : Claim) :
    claim.isConcrete = true ↔ ∃ path nonempty, claim.pattern = .exact path nonempty := by
  have view := claim.view
  generalize claim.pattern = pattern at view
  cases view with
  | all value => simp [Claim.isConcrete, value]
  | exact nonempty segments value =>
      refine iff_of_true ?_ ⟨_, nonempty, rfl⟩
      simp [Claim.isConcrete, value, join_ne_star nonempty segments, isSuffix_join nonempty segments]
  | below nonempty segments value => simp [Claim.isConcrete, value, isSuffix_wildcard]

/-! Every path is the path of a concrete claim. -/

theorem matchesPattern_join {path : List JsString} (nonempty : path ≠ []) (segments : Segments path) :
    matchesPattern (join path) = true := by
  rw [matchesPattern, split_join nonempty segments, isNamespaced_segments nonempty segments, Bool.or_true]

def Claim.ofPath (path : List JsString) (nonempty : path ≠ []) (segments : Segments path) : Claim :=
  { value := join path, formed := matchesPattern_join nonempty segments }

theorem pattern_ofPath {path : List JsString} (nonempty : path ≠ []) (segments : Segments path) :
    (Claim.ofPath path nonempty segments).pattern = .exact path nonempty := by
  have view := (Claim.ofPath path nonempty segments).view
  generalize (Claim.ofPath path nonempty segments).pattern = pattern at view
  cases view with
  | all value => exact absurd value (join_ne_star nonempty segments)
  | exact otherNonempty otherSegments value =>
      obtain rfl := join_injective nonempty segments otherNonempty otherSegments value
      rfl
  | below _ _ value => exact absurd value (exact_ne_wildcard nonempty segments)

def OfConcrete (path : List JsString) : Prop :=
  ∃ (claim : Claim) (nonempty : path ≠ []), claim.pattern = .exact path nonempty

theorem ofConcrete_of_segments {path : List JsString} (nonempty : path ≠ [])
    (segments : Segments path) : OfConcrete path :=
  ⟨Claim.ofPath path nonempty segments, nonempty, pattern_ofPath nonempty segments⟩

theorem samples_ofConcrete (claim : Claim) :
    ∀ path ∈ samples (js "a") claim.pattern, OfConcrete path := by
  have letter : isSegment (js "a") = true := by decide
  have view := claim.view
  intro path member
  generalize claim.pattern = pattern at view member
  cases view with
  | all _ =>
      simp only [samples, List.mem_cons, List.not_mem_nil, or_false] at member
      rcases member with rfl | rfl
      · exact ofConcrete_of_segments (by simp) (by simp [Segments, letter])
      · exact ofConcrete_of_segments (by simp) (by simp [Segments, letter])
  | exact nonempty segments _ =>
      obtain rfl := List.mem_singleton.mp member
      exact ofConcrete_of_segments nonempty segments
  | below nonempty segments _ =>
      have extended (rest : List JsString) (more : Segments rest) : Segments (_ ++ rest) :=
        fun piece isPiece => (List.mem_append.mp isPiece).elim (segments piece) (more piece)
      simp only [samples, List.mem_cons, List.not_mem_nil, or_false] at member
      rcases member with rfl | rfl
      · exact ofConcrete_of_segments (by simp) (extended _ (by simp [Segments, letter]))
      · exact ofConcrete_of_segments (by simp) (extended _ (by simp [Segments, letter]))

theorem covers_iff_concrete (held required : Claim) :
    held.covers required = true ↔ ∀ concrete : Claim, concrete.isConcrete = true →
      required.covers concrete = true → held.covers concrete = true := by
  have reads {claim concrete : Claim} {path : List JsString} {nonempty : path ≠ []}
      (isExact : concrete.pattern = .exact path nonempty) :
      claim.covers concrete = true ↔ claim.pattern.Matches path := by
    rw [covers_iff_pattern, isExact, covers_exact_iff]
  rw [covers_iff_pattern, covers_iff_matches (js "a") (samples_ofConcrete required)]
  constructor
  · intro subset concrete isConcrete covers
    obtain ⟨path, nonempty, isExact⟩ := (isConcrete_iff concrete).mp isConcrete
    exact (reads isExact).mpr (subset path ⟨concrete, nonempty, isExact⟩ ((reads isExact).mp covers))
  · rintro subset path ⟨concrete, nonempty, isExact⟩ matches_
    have isConcrete := (isConcrete_iff concrete).mpr ⟨path, nonempty, isExact⟩
    exact (reads isExact).mp (subset concrete isConcrete ((reads isExact).mpr matches_))

theorem covers_trans {first second third : Claim} (covers : first.covers second = true)
    (later : second.covers third = true) : first.covers third = true :=
  (covers_iff_pattern first third).mpr
    (((covers_iff_pattern first second).mp covers).trans ((covers_iff_pattern second third).mp later))

theorem specificity_lt {held required : Claim} (covers : held.covers required = true)
    (apart : held ≠ required) : held.specificity < required.specificity := by
  rw [specificity_eq_rank, specificity_eq_rank]
  exact ((covers_iff_pattern held required).mp covers).rank_lt fun same => apart (pattern_injective same)

theorem eq_of_specificity_eq {first second required : Claim} (covers : first.covers required = true)
    (other : second.covers required = true) (same : first.specificity = second.specificity) :
    first = second := by
  rw [specificity_eq_rank, specificity_eq_rank] at same
  exact pattern_injective (eq_of_rank_eq ((covers_iff_pattern first required).mp covers)
    ((covers_iff_pattern second required).mp other) same)

/-- The matches of a group are grants whose claims cover the required one. -/
theorem held_of_match {groupKey : JsString} {required : Claim} {grants : List Grant}
    {found : MatchResult} (member : found ∈ matchesOf groupKey required grants) :
    ∃ held, Claim.parse found.matchedClaim = .ok held ∧ held.covers required = true ∧
      found.specificity = held.specificity := by
  obtain ⟨grant, _, isFound⟩ := List.mem_filterMap.mp member
  cases parsed : Claim.parse grant.claim with
  | error failure => simp [parsed] at isFound
  | ok held =>
      by_cases covers : held.covers required = true
      · simp only [parsed, covers, if_true, Option.some.injEq] at isFound
        subst isFound
        exact ⟨held, parsed, covers, rfl⟩
      · simp [parsed, covers] at isFound

theorem claims_ordered :
    (∀ claim : Claim, claim.covers claim = true) ∧
    (∀ first second third : Claim, first.covers second = true → second.covers third = true →
      first.covers third = true) ∧
    (∀ first second : Claim, first.covers second = true → second.covers first = true →
      first = second) ∧
    (∀ held required : Claim, held.covers required = true ↔ ∀ concrete : Claim,
      concrete.isConcrete = true → required.covers concrete = true → held.covers concrete = true) ∧
    (∀ held required : Claim, held.covers required = true → held ≠ required →
      held.specificity < required.specificity) ∧
    (∀ first second required : Claim, first.covers required = true → second.covers required = true →
      first.specificity = second.specificity → first = second) ∧
    ∀ (required : Claim) (groupKey otherKey : JsString) (grants others : List Grant),
      ∀ found ∈ matchesOf groupKey required grants, ∀ other ∈ matchesOf otherKey required others,
        found.specificity = other.specificity →
        Claim.parse found.matchedClaim = Claim.parse other.matchedClaim := by
  refine ⟨?_, ?_, ?_, covers_iff_concrete, ?_, ?_, ?_⟩
  · intro claim
    exact (covers_iff_pattern claim claim).mpr (covers_refl claim.pattern)
  · exact fun first second third covers later => covers_trans covers later
  · intro first second covers back
    exact pattern_injective (((covers_iff_pattern first second).mp covers).antisymm
      ((covers_iff_pattern second first).mp back))
  · exact fun held required covers apart => specificity_lt covers apart
  · exact fun first second required covers other same => eq_of_specificity_eq covers other same
  · intro required groupKey otherKey grants others found isFound other isOther same
    obtain ⟨held, parsed, covers, isHeld⟩ := held_of_match isFound
    obtain ⟨second, otherParsed, otherCovers, isSecond⟩ := held_of_match isOther
    rw [isHeld, isSecond] at same
    rw [parsed, otherParsed, eq_of_specificity_eq covers otherCovers same]

end Permissions
