import ArmstrongBot.Library.JsMethods

/-! `Claim` of `core/permissions/domain`: dot-namespaced claims and their wildcards. -/

namespace Permissions

open JsText

inductive PermissionError
  | invalidClaim (raw : JsString)
  | maxDepthExceeded (maxDepth : Nat) (groupKey : JsString)
  | groupNotFound (groupKey guildId : JsString)
  | grantGroupNotFound (groupKey : JsString)
  deriving DecidableEq

def PermissionError.message : PermissionError → JsString
  | .invalidClaim raw =>
      js "Invalid claim format: \"" ++ raw ++
        js "\". Expected dot-namespaced lowercase string or wildcard."
  | .maxDepthExceeded maxDepth groupKey =>
      js "Max inheritance depth (" ++ natText maxDepth ++
        js ") exceeded — possible cycle in group \"" ++ groupKey ++ js "\""
  | .groupNotFound groupKey guildId =>
      js "Group \"" ++ groupKey ++ js "\" not found in guild " ++ guildId
  | .grantGroupNotFound groupKey => js "Group \"" ++ groupKey ++ js "\" not found"

def dot : CodeUnit := unit 46

def star : JsString := js "*"

def dotStar : JsString := js ".*"

/-- A segment `[a-z0-9]+`. -/
def isSegment (segment : JsString) : Bool :=
  !segment.isEmpty && segment.all fun code => isLower code || isDigit code

/-- The segments of `[a-z0-9]+(\.[a-z0-9]+)*(\.\*)?`. -/
def isNamespaced : List JsString → Bool
  | [] => false
  | [segment] => isSegment segment
  | [segment, last] => isSegment segment && (isSegment last || last == star)
  | segment :: rest => isSegment segment && isNamespaced rest

def matchesPattern (text : JsString) : Bool := text == star || isNamespaced (split dot text)

/-- A claim in its normal form, which only `parse` makes. -/
structure Claim where
  value : JsString
  formed : matchesPattern value = true
  deriving DecidableEq

def Claim.parse (raw : JsString) : Except PermissionError Claim :=
  let value := toLowerCase (trim raw)
  if formed : matchesPattern value = true then .ok { value, formed } else .error (.invalidClaim raw)

def Claim.covers (held required : Claim) : Bool :=
  if held.value == star then true
  else if held.value == required.value then true
  else if dotStar.isSuffixOf held.value then held.value.dropLast.isPrefixOf required.value
  else false

/-- Twice the specificity of the source, which is whole: `depth - 1 + 0.5` for a wildcard. -/
def Claim.specificity (claim : Claim) : Nat :=
  if claim.value == star then 0
  else
    let depth := (split dot claim.value).length
    if dotStar.isSuffixOf claim.value then 2 * (depth - 1) + 1 else 2 * depth

/-! The segments of a claim, with or without a star behind them. -/

def Segments (path : List JsString) : Prop := ∀ segment ∈ path, isSegment segment = true

theorem isNamespaced_cases {pieces : List JsString} (namespaced : isNamespaced pieces = true) :
    pieces ≠ [] ∧ Segments pieces ∨ ∃ path, path ≠ [] ∧ Segments path ∧ pieces = path ++ [star] := by
  fun_induction isNamespaced pieces with
  | case1 => cases namespaced
  | case2 segment => exact .inl ⟨by simp, by simpa [Segments] using namespaced⟩
  | case3 segment last =>
      simp only [Bool.and_eq_true, Bool.or_eq_true, beq_iff_eq] at namespaced
      rcases namespaced.2 with isLast | rfl
      · exact .inl ⟨by simp, by simp [Segments, namespaced.1, isLast]⟩
      · exact .inr ⟨[segment], by simp, by simp [Segments, namespaced.1], rfl⟩
  | case4 segment rest _ _ ih =>
      rw [Bool.and_eq_true] at namespaced
      rcases ih namespaced.2 with ⟨_, segments⟩ | ⟨path, nonempty, segments, rfl⟩
      · exact .inl ⟨by simp, List.forall_mem_cons.mpr ⟨namespaced.1, segments⟩⟩
      · exact .inr ⟨segment :: path, by simp, List.forall_mem_cons.mpr ⟨namespaced.1, segments⟩, rfl⟩

theorem isNamespaced_segments {path : List JsString} (nonempty : path ≠ []) (segments : Segments path) :
    isNamespaced path = true := by
  fun_induction isNamespaced path with
  | case1 => exact absurd rfl nonempty
  | case2 segment => exact segments segment List.mem_cons_self
  | case3 segment last =>
      simp [segments segment List.mem_cons_self, segments last (by simp)]
  | case4 segment rest notEmpty _ ih =>
      rw [segments segment List.mem_cons_self, Bool.true_and]
      exact ih notEmpty fun piece member => segments piece (List.mem_cons_of_mem segment member)

end Permissions
