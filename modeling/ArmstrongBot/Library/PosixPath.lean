import ArmstrongBot.Library.JsMethods

/-! Paths as POSIX has them: texts, their normal form, and the directories they lead to. -/

namespace PosixPath

open JsText

def slash : CodeUnit := unit 0x2F

def current : JsString := js "."

def parent : JsString := js ".."

def IsName (segment : JsString) : Prop :=
  segment ≠ [] ∧ segment ≠ current ∧ segment ≠ parent ∧ slash ∉ segment

instance (segment : JsString) : Decidable (IsName segment) :=
  inferInstanceAs (Decidable (_ ∧ _))

/-- Where a path leads from a directory: up so many times, and then down along these names. -/
structure Course where
  ups : Nat
  downs : List JsString
  deriving DecidableEq

def Course.step (course : Course) (segment : JsString) : Course :=
  if segment = [] ∨ segment = current then course
  else if segment = parent then
    if course.downs = [] then { course with ups := course.ups + 1 }
    else { course with downs := course.downs.dropLast }
  else { course with downs := course.downs ++ [segment] }

def courseOf (segments : List JsString) : Course := segments.foldl Course.step { ups := 0, downs := [] }

/-- What `normalize` leaves of a path. Nothing leads above the root of an absolute one. -/
structure NormalPath where
  absolute : Bool
  course : Course
  rooted : absolute = true → course.ups = 0
  names : ∀ name ∈ course.downs, IsName name

theorem names_step {course : Course} {segment : JsString} (noSlash : slash ∉ segment)
    (names : ∀ name ∈ course.downs, IsName name) :
    ∀ name ∈ (course.step segment).downs, IsName name := by
  unfold Course.step
  split
  · exact names
  · rename_i notCurrent
    split
    · split
      · exact names
      · exact fun name member => names name (List.dropLast_subset _ member)
    · rename_i notParent
      intro name member
      rcases List.mem_append.mp member with earlier | newest
      · exact names name earlier
      · obtain rfl := List.mem_singleton.mp newest
        exact ⟨fun empty => notCurrent (.inl empty), fun same => notCurrent (.inr same), notParent,
          noSlash⟩

theorem names_courseOf {segments : List JsString}
    (noSlash : ∀ segment ∈ segments, slash ∉ segment) :
    ∀ name ∈ (courseOf segments).downs, IsName name := by
  have general : ∀ course : Course, (∀ name ∈ course.downs, IsName name) →
      ∀ name ∈ (segments.foldl Course.step course).downs, IsName name := by
    induction segments with
    | nil => exact fun course names => names
    | cons segment rest ih =>
        intro course names
        exact ih (fun other member => noSlash other (List.mem_cons_of_mem _ member)) _
          (names_step (noSlash segment List.mem_cons_self) names)
  exact general _ (by simp)

def isAbsolute (path : JsString) : Bool := decide (path.head? = some slash)

/-- `normalize`. A slash at the end is not kept: it leads nowhere. -/
def normalize (path : JsString) : NormalPath :=
  let course := courseOf (split slash path)
  { absolute := isAbsolute path
    course := { ups := if isAbsolute path then 0 else course.ups, downs := course.downs }
    rooted := fun absolute => if_pos absolute
    names := names_courseOf fun _ member => not_mem_split member }

def join (parts : List JsString) : NormalPath :=
  normalize ([slash].intercalate (parts.filter fun part => part ≠ []))

def NormalPath.parts (path : NormalPath) : List JsString :=
  List.replicate path.course.ups parent ++ path.course.downs

def NormalPath.text (path : NormalPath) : JsString :=
  if path.absolute then slash :: [slash].intercalate path.parts
  else if path.parts = [] then current
  else [slash].intercalate path.parts

/-- `dirname` of a path in normal form. -/
def NormalPath.dirname (path : NormalPath) : NormalPath :=
  if path.course.downs = [] then
    { path with
      course := { path.course with ups := path.course.ups - 1 }
      rooted := fun absolute => by simp [path.rooted absolute] }
  else
    { path with
      course := { path.course with downs := path.course.downs.dropLast }
      names := fun name member => path.names name (List.dropLast_subset _ member) }

/-! The directories that paths lead to, as the names on the way there from the root. -/

def lead (base : List JsString) (course : Course) : List JsString :=
  base.take (base.length - course.ups) ++ course.downs

def walk (base : List JsString) (segment : JsString) : List JsString :=
  if segment = [] ∨ segment = current then base
  else if segment = parent then base.dropLast
  else base ++ [segment]

def startOf (absolute : Bool) (workingDirectory : List JsString) : List JsString :=
  if absolute then [] else workingDirectory

def locate (workingDirectory : List JsString) (path : NormalPath) : List JsString :=
  lead (startOf path.absolute workingDirectory) path.course

theorem lead_step (base : List JsString) (course : Course) (segment : JsString) :
    lead base (course.step segment) = walk (lead base course) segment := by
  unfold Course.step walk
  split
  · rfl
  · split
    · split
      · rename_i noDowns
        simp only [lead, noDowns, List.append_nil]
        rw [List.dropLast_eq_take, List.take_take, List.length_take]
        congr 1
        omega
      · rename_i downs
        simp only [lead]
        rw [List.dropLast_append_of_ne_nil downs]
    · simp [lead]

theorem lead_courseOf (base segments : List JsString) :
    lead base (courseOf segments) = segments.foldl walk base := by
  have general : ∀ course : Course,
      lead base (segments.foldl Course.step course) = segments.foldl walk (lead base course) := by
    induction segments with
    | nil => exact fun _ => rfl
    | cons segment rest ih =>
        intro course
        rw [List.foldl_cons, List.foldl_cons, ih, lead_step]
  have start : lead base { ups := 0, downs := [] } = base := by simp [lead]
  rw [courseOf, general, start]

/-- The segments are followed one after the other. -/
theorem lead_append (base first second : List JsString) :
    lead base (courseOf (first ++ second)) = lead (lead base (courseOf first)) (courseOf second) := by
  simp only [lead_courseOf, List.foldl_append]

theorem locate_normalize (workingDirectory : List JsString) (path : JsString) :
    locate workingDirectory (normalize path) =
      lead (startOf (isAbsolute path) workingDirectory) (courseOf (split slash path)) := by
  cases absolute : isAbsolute path with
  | true => simp [locate, normalize, startOf, absolute, lead]
  | false => simp [locate, normalize, startOf, absolute]

/-! Joined paths. -/

theorem split_nil : split slash [] = [[]] := List.splitOn_nil slash

theorem split_intercalate {parts : List JsString} (some : parts ≠ []) :
    split slash ([slash].intercalate parts) = parts.flatMap (split slash) := by
  induction parts with
  | nil => exact absurd rfl some
  | cons part rest ih =>
      cases rest with
      | nil => simp
      | cons next others =>
          rw [List.intercalate_cons_cons, List.append_assoc, List.singleton_append, split,
            List.splitOn_append_cons_self, List.flatMap_cons]
          exact congrArg (split slash part ++ ·) (ih (by simp))

theorem courseOf_intercalate (parts : List JsString) :
    courseOf (split slash ([slash].intercalate parts)) =
      courseOf (parts.flatMap (split slash)) := by
  by_cases some : parts = []
  · subst some
    simp [split_nil, courseOf, Course.step]
  · rw [split_intercalate some]

theorem courseOf_filter (parts : List JsString) :
    courseOf ((parts.filter fun part => part ≠ []).flatMap (split slash)) =
      courseOf (parts.flatMap (split slash)) := by
  have general : ∀ course : Course,
      ((parts.filter fun part => part ≠ []).flatMap (split slash)).foldl Course.step course =
        (parts.flatMap (split slash)).foldl Course.step course := by
    induction parts with
    | nil => exact fun _ => rfl
    | cons part rest ih =>
        intro course
        by_cases empty : part = []
        · subst empty
          rw [List.filter_cons_of_neg (by simp), List.flatMap_cons, List.foldl_append, split_nil, ih]
          simp [Course.step]
        · rw [List.filter_cons_of_pos (by simpa using empty), List.flatMap_cons, List.flatMap_cons,
            List.foldl_append, List.foldl_append, ih]
  exact general _

theorem flatMap_split {segments : List JsString} (noSlash : ∀ segment ∈ segments, slash ∉ segment) :
    segments.flatMap (split slash) = segments := by
  induction segments with
  | nil => rfl
  | cons segment rest ih =>
      rw [List.flatMap_cons, split, List.splitOn_eq_singleton (noSlash segment List.mem_cons_self),
        ih fun other member => noSlash other (List.mem_cons_of_mem _ member)]
      rfl

theorem not_absolute {segment : JsString} (noSlash : slash ∉ segment) :
    isAbsolute segment = false := by
  cases segment with
  | nil => rfl
  | cons code rest =>
      have apart : code ≠ slash := fun same => noSlash (by simp [same])
      simp [isAbsolute, apart]

/-- The first part that is not empty tells whether the whole is absolute. -/
theorem isAbsolute_intercalate {part : JsString} (isPart : part ≠ []) (rest : List JsString) :
    isAbsolute ([slash].intercalate (part :: rest)) = isAbsolute part := by
  obtain ⟨code, codes, rfl⟩ := List.exists_cons_of_ne_nil isPart
  cases rest with
  | nil => simp
  | cons next others => simp [List.intercalate_cons_cons, isAbsolute]

theorem isAbsolute_joined (path : JsString) {segments : List JsString}
    (noSlash : ∀ segment ∈ segments, slash ∉ segment) :
    isAbsolute ([slash].intercalate ((path :: segments).filter fun part => part ≠ [])) =
      isAbsolute path := by
  by_cases empty : path = []
  · subst empty
    rw [List.filter_cons_of_neg (by simp), not_absolute (List.not_mem_nil)]
    cases filtered : segments.filter fun part => part ≠ [] with
    | nil => rfl
    | cons first others =>
        have member : first ∈ segments.filter fun part => part ≠ [] :=
          filtered ▸ List.mem_cons_self
        obtain ⟨isSegment, isPart⟩ := List.mem_filter.mp member
        rw [isAbsolute_intercalate (by simpa using isPart), not_absolute (noSlash first isSegment)]
  · rw [List.filter_cons_of_pos (by simpa using empty), isAbsolute_intercalate empty]

/-- Segments that are joined to a path are followed from where it leads. -/
theorem locate_join (workingDirectory : List JsString) (path : JsString) {segments : List JsString}
    (noSlash : ∀ segment ∈ segments, slash ∉ segment) :
    locate workingDirectory (join (path :: segments)) =
      lead (locate workingDirectory (normalize path)) (courseOf segments) := by
  rw [join, locate_normalize, locate_normalize, isAbsolute_joined path noSlash,
    courseOf_intercalate, courseOf_filter, List.flatMap_cons, flatMap_split noSlash, lead_append]

/-! The text of a path in normal form. -/

theorem courseOf_names {names : List JsString} (areNames : ∀ name ∈ names, IsName name)
    (course : Course) :
    names.foldl Course.step course = { course with downs := course.downs ++ names } := by
  induction names generalizing course with
  | nil => simp
  | cons name rest ih =>
      have isName := areNames name List.mem_cons_self
      have stepped : course.step name = { course with downs := course.downs ++ [name] } := by
        simp [Course.step, isName.1, isName.2.1, isName.2.2.1]
      rw [List.foldl_cons, stepped, ih fun other member => areNames other (List.mem_cons_of_mem _ member)]
      simp

theorem courseOf_parents (count : Nat) :
    courseOf (List.replicate count parent) = { ups := count, downs := [] } := by
  have general : ∀ ups, (List.replicate count parent).foldl Course.step { ups, downs := [] } =
      { ups := ups + count, downs := [] } := by
    induction count with
    | zero => exact fun _ => rfl
    | succ count ih =>
        intro ups
        have stepped : Course.step { ups, downs := [] } parent = { ups := ups + 1, downs := [] } := by
          simp [Course.step, show parent ≠ [] by decide, show parent ≠ current by decide]
        rw [List.replicate_succ, List.foldl_cons, stepped, ih]
        simp only [Course.mk.injEq, and_true]
        omega
  rw [courseOf, general, Nat.zero_add]

theorem courseOf_parts (path : NormalPath) : courseOf path.parts = path.course := by
  have ups := courseOf_parents path.course.ups
  rw [courseOf] at ups
  rw [NormalPath.parts, courseOf, List.foldl_append, ups, courseOf_names path.names]
  rfl

theorem parts_noSlash (path : NormalPath) : ∀ part ∈ path.parts, slash ∉ part := by
  intro part member
  rcases List.mem_append.mp member with isParent | isName
  · rw [List.eq_of_mem_replicate isParent]
    decide
  · exact (path.names part isName).2.2.2

theorem parts_nonempty (path : NormalPath) : ∀ part ∈ path.parts, part ≠ [] := by
  intro part member
  rcases List.mem_append.mp member with isParent | isName
  · rw [List.eq_of_mem_replicate isParent]
    decide
  · exact (path.names part isName).1

theorem courseOf_joined (path : NormalPath) :
    courseOf (split slash ([slash].intercalate path.parts)) = path.course := by
  rw [courseOf_intercalate, flatMap_split (parts_noSlash path), courseOf_parts]

theorem locate_text (workingDirectory : List JsString) (path : NormalPath) :
    locate workingDirectory (normalize path.text) = locate workingDirectory path := by
  rw [locate_normalize, locate]
  cases absolute : path.absolute with
  | true =>
      have text : path.text = [] ++ slash :: [slash].intercalate path.parts := by
        simp [NormalPath.text, absolute]
      have joined : courseOf (split slash path.text) = path.course := by
        rw [text, split, List.splitOn_append_cons_self, List.splitOn_nil]
        exact courseOf_joined path
      rw [joined, text]
      simp [isAbsolute]
  | false =>
      cases isParts : path.parts with
      | nil =>
          have isCourse := courseOf_parts path
          rw [isParts] at isCourse
          rw [NormalPath.text, absolute, isParts, ← isCourse]
          rfl
      | cons part rest =>
          have text : path.text = [slash].intercalate path.parts := by
            simp [NormalPath.text, absolute, isParts]
          have member : part ∈ path.parts := isParts ▸ List.mem_cons_self
          have relative : isAbsolute path.text = false := by
            rw [text, isParts, isAbsolute_intercalate (parts_nonempty path part member),
              not_absolute (parts_noSlash path part member)]
          rw [relative, text, courseOf_joined]

/-! Staying below a directory. -/

/-- A course stays below the directory it starts from if it comes back along the names that it went
up. -/
def Returns (base : List JsString) (course : Course) : Prop :=
  base.drop (base.length - course.ups) <+: course.downs

instance (base : List JsString) (course : Course) : Decidable (Returns base course) :=
  inferInstanceAs (Decidable (_ <+: _))

theorem prefix_lead_iff {base : List JsString} {course : Course} :
    base <+: lead base course ↔ Returns base course := by
  have cut := @List.prefix_append_right_inj _ (base.drop (base.length - course.ups)) course.downs
    (base.take (base.length - course.ups))
  rw [List.take_append_drop] at cut
  exact cut

theorem prefix_dropLast {names longer : List JsString} (isPrefix : names <+: longer)
    (shorter : names ≠ longer) : names <+: longer.dropLast := by
  obtain ⟨rest, rfl⟩ := isPrefix
  have some : rest ≠ [] := by
    rintro rfl
    simp at shorter
  rw [List.dropLast_append_of_ne_nil some]
  exact List.prefix_append _ _

/-- The directory of a path below a directory is below it as well, unless the path leads to that
directory itself and not by `.`, `..` or `/` alone. -/
theorem prefix_dirname_iff {workingDirectory base : List JsString} {path : NormalPath}
    (isPrefix : base <+: locate workingDirectory path) :
    base <+: locate workingDirectory path.dirname ↔
      (base = locate workingDirectory path → path.course.downs = []) := by
  by_cases bare : path.course.downs = []
  · refine iff_of_true (isPrefix.trans ?_) fun _ => bare
    simp only [locate, lead, NormalPath.dirname, bare, if_true, List.append_nil]
    exact List.take_prefix_take_left (by omega)
  · have above : locate workingDirectory path.dirname =
        (locate workingDirectory path).dropLast := by
      simp only [locate, lead, NormalPath.dirname, bare, if_false]
      rw [List.dropLast_append_of_ne_nil bare]
    have some : locate workingDirectory path ≠ [] := by simp [locate, lead, bare]
    rw [above]
    constructor
    · intro stays same
      have shorter := stays.length_le
      rw [same, List.length_dropLast] at shorter
      have positive := List.length_pos_iff.mpr some
      omega
    · exact fun other => prefix_dropLast isPrefix fun same => bare (other same)

end PosixPath
