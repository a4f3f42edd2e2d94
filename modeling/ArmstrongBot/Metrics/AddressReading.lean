import ArmstrongBot.Library.AddressText
import Mathlib.Data.List.Forall2

/-! The addresses that `cidr.util.ts` reads, and the texts that it understands. -/

namespace MetricsScrape

open JsText Double AddressText

/-- `parseInt(group || '0', 16)` -/
def valueOf (group : JsString) : Quantity := parseHex (if group = [] then js "0" else group)

/-- The loop over the groups, which ends where `parseInt` finds no digit. -/
def pushBytes : List JsString → Option (List Nat)
  | [] => some []
  | group :: rest =>
      if valueOf group = .nan then none
      else (pushBytes rest).map ([byteAt 8 (valueOf group), byteAt 0 (valueOf group)] ++ ·)

def expandIPv6 (addr : JsString) : Option (List Nat) :=
  let halves := splitDouble addr
  if 2 < halves.length then none
  else
    let head := piecesOf (halves.headD [])
    let tail := if halves.length = 2 then piecesOf (halves.getD 1 []) else []
    if 8 < head.length + tail.length then none
    else
      let missing := if halves.length = 2 then 8 - (head.length + tail.length) else 0
      let groups := head ++ List.replicate missing (js "0") ++ tail
      if groups.length ≠ 8 then none else pushBytes groups

/-- `\d+\.\d+\.\d+\.\d+` -/
def isDotted (text : JsString) : Bool := (split dot text).length = 4 && (split dot text).all isNumeral

/-- The group of `/^::ffff:(\d+\.\d+\.\d+\.\d+)$/i`. -/
def mapped (text : JsString) : Option JsString :=
  if toLowerCase (text.take 7) = js "::ffff:" ∧ isDotted (text.drop 7) then some (text.drop 7) else none

def normalize (addr : JsString) : Option (List Nat) :=
  let a := (mapped (trim addr)).getD (trim addr)
  if isIPv4 a then some ((split dot a).map fun o => byteAt 0 (toNumber o))
  else if isIPv6 a then expandIPv6 a else none

/-! What the loop over the groups reads. -/

/-- The lower 16 bits of what `parseInt` reads. -/
def Reads (group : JsString) (value : Nat) : Prop :=
  valueOf group ≠ .nan ∧ toInteger (valueOf group) % 0x10000 = value

/-- The groups are what `parseInt` reads between the colons of the whole text. -/
def ReadsAs (text : JsString) (groups : List Nat) : Prop :=
  (splitDouble text = [text] ∧ List.Forall₂ Reads (piecesOf text) groups) ∨
    ∃ front back head tail, splitDouble text = [front, back] ∧
      List.Forall₂ Reads (piecesOf front) head ∧ List.Forall₂ Reads (piecesOf back) tail ∧
      head.length + tail.length ≤ 8 ∧
      head ++ List.replicate (8 - (head.length + tail.length)) 0 ++ tail = groups

/-- No zone follows `::` at once, and an IPv4 address stands only at the end of zeros. -/
def Straight (text : JsString) : Prop :=
  (zoneOf text = [] ∨ ∀ front, splitDouble (bodyOf text) ≠ [front, []]) ∧
    (dot ∉ bodyOf text ∨ ∃ front back tail, splitDouble (bodyOf text) = [front, back] ∧
      readPieces (piecesOf back) = some tail ∧ ∀ value ∈ tail, value = 0)

def PlainAddress (text : JsString) : Prop :=
  readIPv6 text = none ∨ (mapped text).isSome ∨
    ∃ groups, readIPv6 text = some groups ∧ groups.take 6 ≠ mappedFront ∧
      ((colon ∈ zoneOf text ∧ ReadsAs text groups) ∨ (colon ∉ zoneOf text ∧ Straight text))

/-- An IPv4 address, a mapped one as `::ffff:1.2.3.4`, a straight IPv6 address, or none at all. -/
def Plain (text : JsString) : Prop := PlainAddress (trim text)

/-- The bytes that a text stands for; the blanks around it do not count. -/
def meaning (text : JsString) : Option (List Nat) := address (trim text)

theorem forall₂_append {α β : Type} {related : α → β → Prop} {first second : List α} {values : List β} :
    List.Forall₂ related (first ++ second) values ↔ ∃ early late,
      List.Forall₂ related first early ∧ List.Forall₂ related second late ∧ early ++ late = values := by
  induction first generalizing values with
  | nil => simp
  | cons item first ih =>
      rw [List.cons_append, List.forall₂_cons_left_iff]
      constructor
      · rintro ⟨value, rest, here, later, rfl⟩
        obtain ⟨early, late, isEarly, isLate, rfl⟩ := ih.mp later
        exact ⟨value :: early, late, .cons here isEarly, isLate, rfl⟩
      · rintro ⟨early, late, isEarly, isLate, rfl⟩
        obtain ⟨value, rest, here, later, rfl⟩ := List.forall₂_cons_left_iff.mp isEarly
        exact ⟨value, rest ++ late, here, ih.mpr ⟨rest, late, later, isLate, rfl⟩, rfl⟩

theorem reads_iff {group : JsString} {value : Nat} (bound : value < 0x10000) : Reads group value ↔
    valueOf group ≠ .nan ∧
      [byteAt 8 (valueOf group), byteAt 0 (valueOf group)] = [value / 256, value % 256] := by
  have high := byteAt_eq 8 (valueOf group)
  have low := byteAt_eq 0 (valueOf group)
  rw [Nat.pow_zero, Int.natCast_one, Int.ediv_one] at low
  have power : ((2 ^ 8 : Nat) : Int) = 256 := rfl
  rw [power] at high
  rw [Reads, List.cons.injEq, List.cons.injEq]
  constructor
  · rintro ⟨number, same⟩
    exact ⟨number, by omega, by omega, rfl⟩
  · rintro ⟨number, isHigh, isLow, _⟩
    exact ⟨number, by omega⟩

theorem pushBytes_eq_iff {pieces : List JsString} {values : List Nat}
    (bound : ∀ value ∈ values, value < 0x10000) :
    pushBytes pieces = some (bytesOf values) ↔ List.Forall₂ Reads pieces values := by
  induction pieces generalizing values with
  | nil =>
      cases values with
      | nil => simp [pushBytes, bytesOf]
      | cons value values => simp [pushBytes, bytesOf]
  | cons group rest ih =>
      cases values with
      | nil => simp [pushBytes, bytesOf]
      | cons value values =>
          rw [List.forall₂_cons, reads_iff (bound value List.mem_cons_self),
            ← ih fun later member => bound later (List.mem_cons_of_mem value member), pushBytes]
          by_cases number : valueOf group = .nan
          · simp [number]
          · simp [number, bytesOf, and_comm, and_assoc]

theorem length_pushBytes {pieces : List JsString} {bytes : List Nat}
    (isRead : pushBytes pieces = some bytes) :
    bytes.length = pieces.length * 2 ∧ ∀ byte ∈ bytes, byte < 256 := by
  induction pieces generalizing bytes with
  | nil =>
      obtain rfl := Option.some.inj isRead
      simp
  | cons group rest ih =>
      rw [pushBytes] at isRead
      split at isRead
      · cases isRead
      · obtain ⟨later, isLater, rfl⟩ := Option.map_eq_some_iff.mp isRead
        obtain ⟨size, bound⟩ := ih isLater
        refine ⟨by simp only [List.length_append, List.length_cons, List.length_nil, size]; omega, ?_⟩
        intro byte member
        rcases List.mem_append.mp member with here | late
        · simp only [List.mem_cons, List.not_mem_nil, or_false] at here
          rcases here with rfl | rfl
          · exact byteAt_lt 8 _
          · exact byteAt_lt 0 _
        · exact bound byte late

theorem reads_zero (value : Nat) : Reads (js "0") value ↔ value = 0 := by
  have zero : valueOf (js "0") = .finite 0 := by decide +kernel
  rw [Reads, zero]
  constructor
  · rintro ⟨_, same⟩
    have nothing : toInteger (.finite 0) = 0 := rfl
    omega
  · rintro rfl
    exact ⟨Quantity.noConfusion, rfl⟩

theorem reads_zeros {count : Nat} {values : List Nat} :
    List.Forall₂ Reads (List.replicate count (js "0")) values ↔ values = List.replicate count 0 := by
  induction count generalizing values with
  | zero => simp
  | succ count ih =>
      rw [List.replicate_succ, List.forall₂_cons_left_iff, List.replicate_succ]
      simp only [reads_zero, ih]
      constructor
      · rintro ⟨_, _, rfl, rfl, same⟩
        exact same
      · exact fun same => ⟨0, _, rfl, rfl, same⟩

theorem expandIPv6_single {text : JsString} (whole : splitDouble text = [text]) :
    expandIPv6 text = if (piecesOf text).length = 8 then pushBytes (piecesOf text) else none := by
  simp only [expandIPv6, whole, List.length_singleton, show ¬ 2 < 1 by omega, if_false,
    List.headD_cons, show ¬ 1 = 2 by omega, List.length_nil, Nat.add_zero, List.replicate_zero,
    List.append_nil]
  by_cases size : (piecesOf text).length = 8
  · simp [size]
  · simp [size]

theorem expandIPv6_double {text front back : JsString} (halves : splitDouble text = [front, back]) :
    expandIPv6 text =
      if (piecesOf front).length + (piecesOf back).length ≤ 8 then
        pushBytes (piecesOf front ++
          List.replicate (8 - ((piecesOf front).length + (piecesOf back).length)) (js "0") ++
          piecesOf back)
      else none := by
  simp only [expandIPv6, halves, List.length_cons, List.length_nil, Nat.lt_irrefl, if_false, if_true,
    List.headD_cons, List.getD_cons_succ, List.getD_cons_zero]
  by_cases room : (piecesOf front).length + (piecesOf back).length ≤ 8
  · have size : (piecesOf front ++
        List.replicate (8 - ((piecesOf front).length + (piecesOf back).length)) (js "0") ++
        piecesOf back).length = 8 := by
      simp only [List.length_append, List.length_replicate]
      omega
    rw [if_neg (by omega), if_pos room, if_neg (by rw [size]; omega)]
  · rw [if_pos (by omega), if_neg room]

theorem expandIPv6_eq_iff {text : JsString} {groups : List Nat} (size : groups.length = 8)
    (bound : ∀ group ∈ groups, group < 0x10000) :
    expandIPv6 text = some (bytesOf groups) ↔ ReadsAs text groups := by
  rw [ReadsAs]
  rcases splitDouble_cases text with halves | ⟨front, back, halves⟩ | ⟨_, _, _, _, halves⟩
  · rw [expandIPv6_single halves, halves]
    constructor
    · intro isRead
      split at isRead
      · exact .inl ⟨rfl, (pushBytes_eq_iff bound).mp isRead⟩
      · cases isRead
    · rintro (⟨_, reads⟩ | ⟨_, _, _, _, two, _⟩)
      · rw [if_pos (by rw [reads.length_eq, size])]
        exact (pushBytes_eq_iff bound).mpr reads
      · simp at two
  · rw [expandIPv6_double halves, halves]
    constructor
    · intro isRead
      split at isRead
      · rename_i room
        obtain ⟨_, tail, inner, isTail, rfl⟩ := forall₂_append.mp ((pushBytes_eq_iff bound).mp isRead)
        obtain ⟨head, _, isHead, zeros, rfl⟩ := forall₂_append.mp inner
        obtain rfl := reads_zeros.mp zeros
        rw [isHead.length_eq, isTail.length_eq] at room ⊢
        exact .inr ⟨front, back, head, tail, rfl, isHead, isTail, room, rfl⟩
      · cases isRead
    · rintro (⟨single, _⟩ | ⟨_, _, head, tail, two, isHead, isTail, room, rfl⟩)
      · simp at single
      · obtain ⟨rfl, rfl⟩ : front = _ ∧ back = _ := by simpa using two
        rw [isHead.length_eq, isTail.length_eq, if_pos room]
        refine (pushBytes_eq_iff bound).mpr ?_
        exact forall₂_append.mpr ⟨_, tail, forall₂_append.mpr ⟨head, _, isHead, reads_zeros.mpr rfl, rfl⟩,
          isTail, rfl⟩
  · have many : expandIPv6 text = none := by simp [expandIPv6, halves]
    simp [many, halves]

theorem length_expandIPv6 {text : JsString} {bytes : List Nat}
    (isRead : expandIPv6 text = some bytes) : bytes.length = 16 ∧ ∀ byte ∈ bytes, byte < 256 := by
  have eight {pieces : List JsString} (size : pieces.length = 8) (isBytes : pushBytes pieces = some bytes) :
      bytes.length = 16 ∧ ∀ byte ∈ bytes, byte < 256 := by
    obtain ⟨length, bound⟩ := length_pushBytes isBytes
    exact ⟨by omega, bound⟩
  rcases splitDouble_cases text with halves | ⟨front, back, halves⟩ | ⟨_, _, _, _, halves⟩
  · rw [expandIPv6_single halves] at isRead
    split at isRead
    · rename_i size
      exact eight size isRead
    · cases isRead
  · rw [expandIPv6_double halves] at isRead
    split at isRead
    · refine eight ?_ isRead
      simp only [List.length_append, List.length_replicate]
      omega
    · cases isRead
  · simp [expandIPv6, halves] at isRead

/-! Which texts are expanded to their own groups. -/

theorem reads_digits {digits rest : JsString} (group : isGroup digits = true)
    (ends : ∀ code ∈ rest.head?, code = percent ∨ code = dot) (value : Nat) :
    Reads (digits ++ rest) value ↔ value = readDigits 16 digits := by
  have bound := isGroup_bound group
  simp only [isGroup, Bool.and_eq_true, decide_eq_true_eq] at group
  obtain ⟨⟨nonempty, _⟩, all⟩ := group
  have isRead : valueOf (digits ++ rest) = .finite (readDigits 16 digits) := by
    rw [valueOf, if_neg (by simp [nonempty])]
    refine parseHex_digits nonempty all (by omega) fun code head => ?_
    rcases ends code head with rfl | rfl
    · decide
    · decide
  rw [Reads, isRead, toInteger_natCast]
  constructor
  · rintro ⟨_, same⟩
    omega
  · rintro rfl
    exact ⟨Quantity.noConfusion, by omega⟩

theorem not_reads_zone (zone : JsString) (value : Nat) : ¬ Reads (percent :: zone) value := by
  have stripped : stripHex (percent :: zone) = percent :: zone := by
    cases zone with
    | nil => rfl
    | cons letter zone =>
        rw [stripHex, if_neg]
        rintro ⟨zero, _⟩
        exact absurd zero (by decide)
  have space : isSpace percent = false := by decide
  have digit : isDigitOf 16 percent = false := by decide
  have unsigned : signOf (percent :: zone) = (false, percent :: zone) := by
    rw [signOf, if_neg (by decide), if_neg (by decide)]
  have nothing : valueOf (percent :: zone) = .nan := by
    simp [valueOf, parseHex, space, unsigned, stripped, digit]
  exact fun reads => reads.1 nothing

theorem reads_groups {pieces : List JsString} (groups : pieces.all isGroup = true) {values : List Nat} :
    List.Forall₂ Reads pieces values ↔ values = pieces.map (readDigits 16) := by
  induction pieces generalizing values with
  | nil => simp
  | cons piece pieces ih =>
      rw [List.all_cons, Bool.and_eq_true] at groups
      have here (value : Nat) : Reads piece value ↔ value = readDigits 16 piece := by
        rw [← reads_digits groups.1 (show ∀ code ∈ ([] : JsString).head?, _ by simp), List.append_nil]
      rw [List.forall₂_cons_left_iff, List.map_cons]
      simp only [here, ih groups.2]
      constructor
      · rintro ⟨_, _, rfl, rfl, same⟩
        exact same
      · exact fun same => ⟨_, _, rfl, rfl, same⟩

section Zone

variable {zone : JsString} (marked : zone = [] ∨ ∃ name, zone = percent :: name)

include marked in
theorem zone_ends : ∀ code ∈ zone.head?, code = percent ∨ code = dot := by
  rcases marked with rfl | ⟨name, rfl⟩
  · simp
  · intro code head
    exact .inl (Option.some.inj head).symm

include marked in
/-- A zone is not seen behind a last group. -/
theorem reads_last_group {init : List JsString} {last : JsString} {values : List Nat}
    (groups : init.all isGroup = true) (group : isGroup last = true) :
    List.Forall₂ Reads (init ++ [last ++ zone]) values ↔
      values = init.map (readDigits 16) ++ [readDigits 16 last] := by
  simp only [forall₂_append, reads_groups groups, List.forall₂_cons_left_iff, List.forall₂_nil_left_iff,
    reads_digits group (zone_ends marked)]
  constructor
  · rintro ⟨_, _, rfl, ⟨_, _, rfl, rfl, rfl⟩, rfl⟩
    rfl
  · rintro rfl
    exact ⟨_, _, rfl, ⟨_, _, rfl, rfl, rfl⟩, rfl⟩

/-- An IPv4 address at the end counts as one group. -/
theorem reads_last_octets {init : List JsString} {last : JsString} {values : List Nat}
    (groups : init.all isGroup = true) :
    List.Forall₂ Reads (init ++ [last ++ zone]) values ↔
      ∃ value, Reads (last ++ zone) value ∧ values = init.map (readDigits 16) ++ [value] := by
  simp only [forall₂_append, reads_groups groups, List.forall₂_cons_left_iff, List.forall₂_nil_left_iff]
  constructor
  · rintro ⟨_, _, rfl, ⟨value, _, reads, rfl, rfl⟩, rfl⟩
    exact ⟨value, reads, rfl⟩
  · rintro ⟨value, reads, rfl⟩
    exact ⟨_, _, rfl, ⟨value, _, reads, rfl, rfl⟩, rfl⟩

end Zone

theorem reads_zero_octets {last zone : JsString} (four : isIPv4 last = true) {low : Nat}
    (isPairs : pairs (octets last) = [0, low]) (value : Nat) : Reads (last ++ zone) value ↔ value = 0 := by
  obtain ⟨first, second, third, fourth, pieces, isFirst, _⟩ := isIPv4_pieces four
  have whole : [dot].intercalate (split dot last) = last := List.intercalate_splitOn dot
  have nothing : readNat first = 0 := by
    rw [octets, pieces] at isPairs
    have high := (List.cons.inj isPairs).1
    omega
  rw [pieces, octet_zero isFirst nothing, List.intercalate_cons_cons, List.append_assoc] at whole
  rw [← whole, List.append_assoc, reads_digits (by decide) (by simp)]
  rfl

/-- The group that is missing moves the others by one place. -/
theorem moved_eq_iff {values : List Nat} {value high low : Nat} :
    0 :: (values ++ [value]) = values ++ [high, low] ↔
      (∀ value ∈ values, value = 0) ∧ high = 0 ∧ value = low := by
  induction values with
  | nil => simp [eq_comm]
  | cons first values ih =>
      rw [List.cons_append, List.cons_append, List.cons.injEq, List.forall_mem_cons, and_assoc]
      constructor
      · rintro ⟨rfl, same⟩
        exact ⟨rfl, ih.mp same⟩
      · rintro ⟨rfl, zeros⟩
        exact ⟨rfl, ih.mpr zeros⟩

/-- The groups behind `::` are moved where they end in an IPv4 address. -/
theorem fill_moved {head values : List Nat} {value high low : Nat}
    (room : head.length + (values ++ [high, low]).length ≤ 7) :
    head ++ List.replicate (8 - (head.length + (values ++ [value]).length)) 0 ++ (values ++ [value]) =
        head ++ List.replicate (8 - (head.length + (values ++ [high, low]).length)) 0 ++
          (values ++ [high, low]) ↔
      (∀ value ∈ values, value = 0) ∧ high = 0 ∧ value = low := by
  simp only [List.length_append, List.length_cons, List.length_nil] at room ⊢
  have more : 8 - (head.length + (values.length + (0 + 1))) =
      8 - (head.length + (values.length + (0 + 1 + 1))) + 1 := by
    omega
  rw [more, List.replicate_succ', List.append_assoc, List.append_assoc, List.append_assoc,
    List.append_cancel_left_eq, List.append_cancel_left_eq, List.singleton_append, moved_eq_iff]

/-- An address without `::`. -/
theorem readsAs_single {text : JsString} {groups : List Nat} (free : colon ∉ zoneOf text)
    (whole : splitDouble (bodyOf text) = [bodyOf text])
    (isRead : readPieces (split colon (bodyOf text)) = some groups) (size : groups.length = 8) :
    ReadsAs text groups ↔ Straight text := by
  obtain ⟨before, half, halves, joined⟩ := splitDouble_append free (bodyOf text)
  obtain ⟨init, last, pieces, pieces'⟩ := split_append free (bodyOf text)
  rw [body_append_zone] at joined pieces'
  have halves' : [] ++ [bodyOf text] = before ++ [half] := whole.symm.trans halves
  obtain ⟨rfl, same⟩ := List.append_inj' halves' rfl
  rw [List.nil_append, ← List.singleton_inj.mp same, body_append_zone] at joined
  rw [pieces] at isRead
  obtain ⟨isGroups, ends, isEnds, rfl⟩ := readPieces_concat.mp isRead
  have nonempty : text ≠ [] := by
    rintro rfl
    have empty : init ++ [last] = [] ++ [[]] := pieces.symm
    obtain ⟨rfl, isLast⟩ := List.append_inj' empty rfl
    obtain rfl := List.singleton_inj.mp isLast
    cases isEnds
  have single : ReadsAs text (init.map (readDigits 16) ++ ends) ↔
      List.Forall₂ Reads (init ++ [last ++ zoneOf text]) (init.map (readDigits 16) ++ ends) := by
    simp [ReadsAs, joined, piecesOf_ne_nil nonempty, pieces']
  rw [single]
  rcases readPieces_singleton.mp isEnds with ⟨group, rfl⟩ | ⟨_, four, rfl⟩
  · rw [reads_last_group (zoneOf_cases text) isGroups group]
    refine iff_of_true rfl ⟨.inr fun front two => by simp [whole] at two, .inl ?_⟩
    refine dot_not_mem_groups fun piece isPiece => ?_
    rw [pieces, List.mem_append, List.mem_singleton] at isPiece
    rcases isPiece with early | rfl
    · exact List.all_eq_true.mp isGroups piece early
    · exact group
  · obtain ⟨first, second, third, fourth, _, isPairs, _⟩ := pairs_octets four
    rw [reads_last_octets isGroups, isPairs]
    refine iff_of_false ?_ ?_
    · rintro ⟨value, _, same⟩
      cases List.append_cancel_left same
    · rintro ⟨_, free | ⟨front, back, _, two, _⟩⟩
      · exact free (mem_of_mem_split (pieces ▸ List.mem_append_right init (List.mem_singleton_self last))
          (dot_mem_of_isIPv4 four))
      · simp [whole] at two

/-- An address with `::`. -/
theorem readsAs_double {text front back : JsString} {head tail groups : List Nat}
    (free : colon ∉ zoneOf text) (two : splitDouble (bodyOf text) = [front, back])
    (isHead : readFront (piecesOf front) = some head) (isTail : readPieces (piecesOf back) = some tail)
    (filled : fill head tail = some groups) : ReadsAs text groups ↔ Straight text := by
  obtain ⟨before, half, halves, joined⟩ := splitDouble_append free (bodyOf text)
  rw [body_append_zone] at joined
  have halves' : [front] ++ [back] = before ++ [half] := two.symm.trans halves
  obtain ⟨rfl, same⟩ := List.append_inj' halves' rfl
  obtain rfl := List.singleton_inj.mp same
  have body : front ++ [colon, colon] ++ back = bodyOf text := by
    have whole := join_splitDouble (bodyOf text)
    rwa [two, List.intercalate_cons_cons, List.intercalate_singleton] at whole
  obtain ⟨isGroups, rfl⟩ := readFront_eq_some_iff.mp isHead
  obtain ⟨room, rfl⟩ := fill_eq_some_iff.mp filled
  have frontFree := dot_not_mem_pieces isGroups
  have inBody : dot ∈ bodyOf text ↔ dot ∈ back := by
    rw [← body, List.mem_append, List.mem_append]
    simp [frontFree, show dot ≠ colon by decide]
  have zeros : Straight text ↔ (zoneOf text = [] ∨ back ≠ []) ∧ (dot ∉ back ∨ ∀ value ∈ tail, value = 0) := by
    simp [Straight, two, inBody, isTail]
  have double (groups : List Nat) : ReadsAs text groups ↔ ∃ late,
      List.Forall₂ Reads (piecesOf (back ++ zoneOf text)) late ∧
      ((piecesOf front).map (readDigits 16)).length + late.length ≤ 8 ∧
      (piecesOf front).map (readDigits 16) ++ List.replicate
        (8 - (((piecesOf front).map (readDigits 16)).length + late.length)) 0 ++ late = groups := by
    rw [ReadsAs, joined]
    constructor
    · rintro (⟨single, _⟩ | ⟨_, _, head, late, halves, isHead, isLate, fits, same⟩)
      · simp at single
      · simp only [List.singleton_append, List.cons.injEq, and_true] at halves
        obtain ⟨rfl, rfl⟩ := halves
        obtain rfl := (reads_groups isGroups).mp isHead
        exact ⟨late, isLate, fits, same⟩
    · rintro ⟨late, isLate, fits, same⟩
      exact .inr ⟨front, _, _, late, rfl, (reads_groups isGroups).mpr rfl, isLate, fits, same⟩
  generalize (piecesOf front).map (readDigits 16) = head at room double ⊢
  rw [double, zeros]
  by_cases ended : back = []
  · subst ended
    obtain rfl := Option.some.inj isTail
    rcases zoneOf_cases text with zone | ⟨name, zone⟩
    · rw [zone]
      refine iff_of_true ⟨[], .nil, by omega, rfl⟩ ⟨.inl rfl, .inl List.not_mem_nil⟩
    · have marked : piecesOf ([] ++ zoneOf text) = [zoneOf text] := by
        rw [List.nil_append, piecesOf_ne_nil (by simp [zone])]
        exact List.splitOn_eq_singleton free
      rw [marked, zone]
      refine iff_of_false ?_ (by simp)
      rintro ⟨late, reads, _⟩
      obtain ⟨value, _, here, _⟩ := List.forall₂_cons_left_iff.mp reads
      exact not_reads_zone name value here
  · obtain ⟨init, last, pieces, pieces'⟩ := split_append free back
    rw [piecesOf_ne_nil (by simp [ended]), pieces']
    rw [piecesOf_ne_nil ended, pieces] at isTail
    obtain ⟨isInit, ends, isEnds, rfl⟩ := readPieces_concat.mp isTail
    rcases readPieces_singleton.mp isEnds with ⟨group, rfl⟩ | ⟨_, four, rfl⟩
    · have free : dot ∉ back := by
        refine dot_not_mem_pieces ?_
        rw [piecesOf_ne_nil ended, pieces, List.all_append, isInit]
        simp [group]
      refine iff_of_true ⟨_, (reads_last_group (zoneOf_cases text) isInit group).mpr rfl, by omega, rfl⟩
        ⟨.inr ended, .inl free⟩
    · have dotted : dot ∈ back :=
        mem_of_mem_split (pieces ▸ List.mem_append_right init (List.mem_singleton_self last))
          (dot_mem_of_isIPv4 four)
      obtain ⟨first, second, third, fourth, _, isPairs, _⟩ := pairs_octets four
      rw [isPairs] at room ⊢
      simp only [reads_last_octets isInit]
      constructor
      · rintro ⟨_, ⟨value, reads, rfl⟩, _, same⟩
        obtain ⟨zeros, high, low⟩ := (fill_moved room).mp same
        rw [high] at isPairs
        have nothing := (reads_zero_octets four isPairs value).mp reads
        refine ⟨.inr ended, .inr fun value member => ?_⟩
        rcases List.mem_append.mp member with early | late
        · exact zeros value early
        · simp only [List.mem_cons, List.not_mem_nil, or_false] at late
          omega
      · rintro ⟨_, free | zeros⟩
        · exact absurd dotted free
        · have high := zeros (first * 256 + second) (by simp)
          have low := zeros (third * 256 + fourth) (by simp)
          rw [high] at isPairs
          refine ⟨_, ⟨0, (reads_zero_octets four isPairs 0).mpr rfl, rfl⟩, ?_, (fill_moved room).mpr ?_⟩
          · simp only [List.length_append, List.length_cons, List.length_nil] at room ⊢
            omega
          · exact ⟨fun value member => zeros value (List.mem_append_left _ member), high, low.symm⟩

theorem readsAs_iff_straight {text : JsString} {groups : List Nat} (free : colon ∉ zoneOf text)
    (isRead : readIPv6 text = some groups) : ReadsAs text groups ↔ Straight text := by
  rw [readIPv6] at isRead
  split at isRead
  · rcases readBody_eq_some_iff.mp isRead with ⟨whole, pieces, size⟩ |
      ⟨front, back, head, tail, two, isHead, isTail, filled⟩
    · exact readsAs_single free whole pieces size
    · exact readsAs_double free two isHead isTail filled
  · cases isRead

theorem numeral_of_octet {text : JsString} (octet : isOctet text = true) :
    toNumber text = .finite (readNat text) := by
  have bound := octet_lt octet
  rw [isOctet, Bool.and_eq_true, Bool.and_eq_true] at octet
  exact toNumber_numeral octet.1.1 (by omega)

theorem octets_eq {text : JsString} (four : isIPv4 text = true) :
    (split dot text).map (fun o => byteAt 0 (toNumber o)) = octets text := by
  rw [octets]
  refine List.map_congr_left fun piece member => ?_
  have octet := List.all_eq_true.mp (Bool.and_eq_true_iff.mp four).2 piece member
  have small := octet_lt octet
  have low := byteAt_eq 0 (toNumber piece)
  rw [numeral_of_octet octet, toInteger_natCast, Nat.pow_zero, Int.natCast_one, Int.ediv_one] at low
  rw [numeral_of_octet octet]
  omega

/-! The form `::ffff:1.2.3.4`. -/

theorem lowerUnit_cases {code : CodeUnit} {lower : Nat} (bound : lower < 65536) (apart : lower ≠ 107)
    (same : lowerUnit code = unit lower) :
    code = unit lower ∨ (65 ≤ code.val ∧ code.val ≤ 90 ∧ code.val + 32 = lower) := by
  rw [lowerUnit] at same
  split at same
  · rename_i upper
    rw [isUpper, Bool.and_eq_true, decide_eq_true_eq, decide_eq_true_eq] at upper
    have values := congrArg Fin.val same
    rw [unit_val (by omega), unit_val bound] at values
    exact .inr ⟨upper.1, upper.2, values⟩
  · split at same
    · have values := congrArg Fin.val same
      rw [unit_val (by omega), unit_val bound] at values
      exact absurd values.symm apart
    · exact .inl same

theorem lowerUnit_colon {code : CodeUnit} (lower : lowerUnit code = unit 58) : code = colon := by
  rcases lowerUnit_cases (by omega) (by omega) lower with same | ⟨least, _, same⟩
  · exact same
  · omega

theorem hexValue_of_lower {code : CodeUnit} (lower : lowerUnit code = unit 102) :
    hexValue code = some 15 := by
  rcases lowerUnit_cases (by omega) (by omega) lower with rfl | ⟨_, _, same⟩
  · decide
  · obtain rfl : code = unit 70 := by
      apply Fin.ext
      rw [unit_val (by omega)]
      omega
    decide

theorem mapped_parts {text rest : JsString} (isMapped : mapped text = some rest) :
    isDotted rest = true ∧ ∃ front : JsString, text = colon :: colon :: (front ++ colon :: rest) ∧
      isGroup front = true ∧ readDigits 16 front = 0xffff := by
  rw [mapped] at isMapped
  split at isMapped
  · rename_i parts
    obtain ⟨lower, dotted⟩ := parts
    obtain rfl := Option.some.inj isMapped
    refine ⟨dotted, ?_⟩
    have shown : js "::ffff:" = [unit 58, unit 58, unit 102, unit 102, unit 102, unit 102, unit 58] := by
      decide +kernel
    rw [shown, toLowerCase] at lower
    simp only [List.map_eq_cons_iff, List.map_eq_nil_iff] at lower
    obtain ⟨_, _, taken, one, _, _, rfl, two, first, _, rfl, isFirst, second, _, rfl, isSecond,
      third, _, rfl, isThird, fourth, _, rfl, isFourth, _, _, rfl, last, rfl⟩ := lower
    have whole := List.take_append_drop 7 text
    rw [taken, lowerUnit_colon one, lowerUnit_colon two, lowerUnit_colon last] at whole
    have values := And.intro (And.intro (hexValue_of_lower isFirst) (hexValue_of_lower isSecond))
      (And.intro (hexValue_of_lower isThird) (hexValue_of_lower isFourth))
    refine ⟨[first, second, third, fourth], whole.symm, ?_, ?_⟩
    · simp [isGroup, isDigitOf, values]
    · simp [readDigits, values]
  · cases isMapped

theorem digits_of_isDotted {text : JsString} (dotted : isDotted text = true) :
    ∀ piece ∈ split dot text, piece.all isDigit = true := fun piece member =>
  (Bool.and_eq_true_iff.mp
    (List.all_eq_true.mp (Bool.and_eq_true_iff.mp dotted).2 piece member)).2

theorem dot_mem_of_isDotted {text : JsString} (dotted : isDotted text = true) : dot ∈ text := by
  by_contra free
  have single : split dot text = [text] := List.splitOn_eq_singleton free
  simp [isDotted, single] at dotted

theorem readIPv6_mapped {text rest : JsString} (isMapped : mapped text = some rest) :
    readIPv6 text = if isIPv4 rest then some (mappedFront ++ pairs (octets rest)) else none := by
  obtain ⟨dotted, front, rfl, group, value⟩ := mapped_parts isMapped
  have colonFree : colon ∉ front := not_mem_of_isGroup group (by decide)
  have percentFree : percent ∉ front := not_mem_of_isGroup group (by decide)
  have digits := digits_of_isDotted dotted
  have noColon : colon ∉ rest := not_mem_of_pieces digits (by decide) (by decide)
  have noPercent : percent ∉ rest := not_mem_of_pieces digits (by decide) (by decide)
  have noGroup : isGroup rest = false := by
    by_contra isGroup
    rw [Bool.not_eq_false] at isGroup
    exact not_mem_of_isGroup isGroup (by decide) (dot_mem_of_isDotted dotted)
  have free : percent ∉ colon :: colon :: (front ++ colon :: rest) := by
    simp [percentFree, noPercent, show percent ≠ colon by decide]
  have pieces : split colon (front ++ colon :: rest) = [front, rest] := by
    have whole : [colon].intercalate [front, rest] = front ++ colon :: rest := by
      rw [List.intercalate_cons_cons, List.intercalate_singleton, List.append_assoc]
      rfl
    rw [← whole]
    exact List.splitOn_intercalate colon (by simp [colonFree, noColon]) (by simp)
  have halves : splitDouble (colon :: colon :: (front ++ colon :: rest)) = [[], front ++ colon :: rest] := by
    have filled : [] ∉ (split colon (front ++ colon :: rest)).tail := by
      rw [pieces, List.tail_cons, List.mem_singleton]
      rintro rfl
      cases dotted
    rw [splitDouble, if_pos ⟨rfl, rfl⟩, splitDouble_of_filled filled]
  have parts : piecesOf (front ++ colon :: rest) = [front, rest] := by
    rw [piecesOf, if_neg (by simp), pieces]
  have nothing : readFront (piecesOf []) = some [] := rfl
  rw [readIPv6, zoneOf_of_free free, bodyOf_of_free free, if_pos (by decide), readBody]
  simp only [halves, nothing, parts, Option.bind_some, readPieces, group, noGroup, if_true,
    Bool.false_eq_true, if_false, value]
  split
  · rename_i isFour
    obtain ⟨first, second, third, fourth, _, isPairs, _⟩ := pairs_octets isFour
    rw [isPairs]
    rfl
  · rfl

theorem normalize_mapped {addr rest : JsString} (isMapped : mapped (trim addr) = some rest) :
    normalize addr = meaning addr := by
  obtain ⟨dotted, front, text, _⟩ := mapped_parts isMapped
  have notFour : isIPv4 (trim addr) = false := isIPv4_false_of_colon (by rw [text]; simp)
  rw [normalize, meaning, address, readIPv6_mapped isMapped, notFour, isMapped, Option.getD_some]
  by_cases four : isIPv4 rest = true
  · obtain ⟨first, second, third, fourth, _, isPairs, _⟩ := pairs_octets four
    have taken : (mappedFront ++ pairs (octets rest)).take 6 = mappedFront := by
      rw [isPairs]
      rfl
    have dropped : (mappedFront ++ pairs (octets rest)).drop 6 = pairs (octets rest) := rfl
    simp only [four, if_true, Bool.false_eq_true, if_false, Option.map_some, unmapped, taken, dropped,
      bytesOf_pairs four, octets_eq four]
  · have notSix : isIPv6 rest = false := by
      have free : colon ∉ rest := not_mem_of_pieces (digits_of_isDotted dotted) (by decide) (by decide)
      rw [isIPv6, readIPv6_of_free fun member => free (List.takeWhile_subset _ member)]
      rfl
    simp [four, notSix]

/-- `normalize` understands the plain texts, and no others. -/
theorem normalize_eq_iff (addr : JsString) : normalize addr = meaning addr ↔ Plain addr := by
  rw [Plain, PlainAddress]
  cases isMapped : mapped (trim addr) with
  | some rest => simp [normalize_mapped isMapped]
  | none =>
      rw [normalize, meaning, address, isMapped, Option.getD_none]
      by_cases four : isIPv4 (trim addr) = true
      · have notSix : readIPv6 (trim addr) = none := by
          by_contra six
          obtain ⟨groups, isRead⟩ := Option.ne_none_iff_exists'.mp six
          rw [not_isIPv4_of_readIPv6 isRead] at four
          cases four
        simp [four, notSix, octets_eq four]
      · cases isRead : readIPv6 (trim addr) with
        | none => simp [four, isIPv6, isRead]
        | some groups =>
            obtain ⟨size, bound⟩ := readIPv6_bound isRead
            have six : isIPv6 (trim addr) = true := by rw [isIPv6, isRead]; rfl
            simp only [four, six, if_true, if_false, Bool.false_eq_true, Option.map_some, unmapped]
            by_cases maps : groups.take 6 = mappedFront
            · have short : (bytesOf (groups.drop 6)).length = 4 := by
                rw [length_bytesOf, List.length_drop, size]
              rw [if_pos maps]
              refine iff_of_false ?_ (by simp [maps])
              intro same
              have long := (length_expandIPv6 same).1
              omega
            · rw [if_neg maps, expandIPv6_eq_iff size bound]
              by_cases spilled : colon ∈ zoneOf (trim addr)
              · simp [maps, spilled]
              · simp [maps, spilled, readsAs_iff_straight spilled isRead]

theorem normalize_bound {addr : JsString} {bytes : List Nat} (isBytes : normalize addr = some bytes) :
    bytes.length ≤ 16 ∧ ∀ byte ∈ bytes, byte < 256 := by
  rw [normalize] at isBytes
  split at isBytes
  · rename_i four
    obtain ⟨first, second, third, fourth, pieces, _⟩ := isIPv4_pieces four
    obtain rfl := Option.some.inj isBytes
    refine ⟨by simp [pieces], fun byte member => ?_⟩
    obtain ⟨piece, _, rfl⟩ := List.mem_map.mp member
    exact byteAt_lt 0 _
  · split at isBytes
    · obtain ⟨length, bound⟩ := length_expandIPv6 isBytes
      exact ⟨by omega, bound⟩
    · cases isBytes

end MetricsScrape
