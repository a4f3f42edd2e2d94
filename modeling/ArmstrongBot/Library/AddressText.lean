import ArmstrongBot.Library.Doubles
import ArmstrongBot.Library.JsonParse

/-! Internet addresses as texts: the forms that `isIPv4` and `isIPv6` accept, and the numbers that
they stand for. -/

namespace AddressText

open JsText
open Double (isNumeral isDigitOf readDigits isDigitOf_bounds readDigits_lt)
open JsJson (hexDigit hexValue_hexDigit)

def dot : CodeUnit := unit 46

def colon : CodeUnit := unit 58

def percent : CodeUnit := unit 37

/-- A number up to 255 without a leading zero. -/
def isOctet (text : JsString) : Bool :=
  isNumeral text && (text.length = 1 || text.head? ≠ some (unit 48)) && readNat text ≤ 255

def isIPv4 (text : JsString) : Bool := (split dot text).length = 4 && (split dot text).all isOctet

def octets (text : JsString) : List Nat := (split dot text).map readNat

/-- One to four hexadecimal digits. -/
def isGroup (text : JsString) : Bool := text ≠ [] && text.length ≤ 4 && text.all (isDigitOf 16)

/-- `split('::')` -/
def splitDouble : JsString → List JsString
  | [] => [[]]
  | [code] => [[code]]
  | first :: second :: rest =>
      if first = colon ∧ second = colon then [] :: splitDouble rest
      else (splitDouble (second :: rest)).modifyHead (first :: ·)

/-- `part ? part.split(':') : []` -/
def piecesOf (part : JsString) : List JsString := if part = [] then [] else split colon part

def pairs : List Nat → List Nat
  | high :: low :: rest => (high * 256 + low) :: pairs rest
  | _ => []

/-- The groups of the pieces; an IPv4 address may stand for the last two groups. -/
def readPieces : List JsString → Option (List Nat)
  | [] => some []
  | [last] =>
      if isGroup last then some [readDigits 16 last]
      else if isIPv4 last then some (pairs (octets last)) else none
  | piece :: next :: rest =>
      if isGroup piece then (readPieces (next :: rest)).map (readDigits 16 piece :: ·) else none

def readFront (pieces : List JsString) : Option (List Nat) :=
  if pieces.all isGroup then some (pieces.map (readDigits 16)) else none

/-- The zeros that `::` stands for, one at least. -/
def fill (head tail : List Nat) : Option (List Nat) :=
  if head.length + tail.length ≤ 7 then
    some (head ++ List.replicate (8 - (head.length + tail.length)) 0 ++ tail)
  else none

/-- The eight groups of an address. -/
def readBody (body : JsString) : Option (List Nat) :=
  match splitDouble body with
  | [whole] => (readPieces (split colon whole)).filter fun groups => groups.length = 8
  | [front, back] =>
      (readFront (piecesOf front)).bind fun head => (readPieces (piecesOf back)).bind (fill head)
  | _ => none

def isZoneUnit (code : CodeUnit) : Bool :=
  isDigit code || isUpper code || isLower code || code = unit 45 || code = dot || code = colon

/-- What is in front of the percent sign of a zone. -/
def bodyOf (text : JsString) : JsString := text.takeWhile (· ≠ percent)

/-- The zone with its percent sign. -/
def zoneOf (text : JsString) : JsString := text.dropWhile (· ≠ percent)

def isZone (zone : JsString) : Bool := zone ≠ [percent] && (zone.drop 1).all isZoneUnit

def readIPv6 (text : JsString) : Option (List Nat) :=
  if isZone (zoneOf text) then readBody (bodyOf text) else none

def isIPv6 (text : JsString) : Bool := (readIPv6 text).isSome

def bytesOf (groups : List Nat) : List Nat := groups.flatMap fun group => [group / 256, group % 256]

def mappedFront : List Nat := [0, 0, 0, 0, 0, 0xffff]

/-- The bytes of the groups, four where they map an IPv4 address. -/
def unmapped (groups : List Nat) : List Nat :=
  if groups.take 6 = mappedFront then bytesOf (groups.drop 6) else bytesOf groups

/-- The bytes that a text stands for. -/
def address (text : JsString) : Option (List Nat) :=
  if isIPv4 text then some (octets text) else (readIPv6 text).map unmapped

example : address (js "::ffff:7f00:1") = some [127, 0, 0, 1] ∧
    address (js "fe80::1%eth0") = some (bytesOf [0xfe80, 0, 0, 0, 0, 0, 0, 1]) ∧
    address (js "1:2:3:4:5:6:7:8:9") = none ∧ address (js "1::2::3") = none ∧
    address (js "01.2.3.4") = none := by decide +kernel

def groupText (value : Nat) : JsString :=
  [hexDigit (value / 4096), hexDigit (value / 256 % 16), hexDigit (value / 16 % 16),
    hexDigit (value % 16)]

def ipv6Text (groups : List Nat) : JsString := [colon].intercalate (groups.map groupText)

def ipv4Text (bytes : List Nat) : JsString := [dot].intercalate (bytes.map natText)

/-! Splitting. -/

theorem units_of_pieces {separator code : CodeUnit} {text : JsString} {allowed : CodeUnit → Bool}
    (pieces : ∀ piece ∈ split separator text, piece.all allowed = true) (member : code ∈ text) :
    code = separator ∨ allowed code = true := by
  rcases mem_split separator member with isSeparator | ⟨piece, isPiece, inPiece⟩
  · exact .inl isSeparator
  · exact .inr (List.all_eq_true.mp (pieces piece isPiece) code inPiece)

theorem not_mem_of_pieces {separator code : CodeUnit} {text : JsString} {allowed : CodeUnit → Bool}
    (pieces : ∀ piece ∈ split separator text, piece.all allowed = true) (apart : code ≠ separator)
    (special : allowed code = false) : code ∉ text := by
  intro member
  rcases units_of_pieces pieces member with isSeparator | isAllowed
  · exact apart isSeparator
  · rw [special] at isAllowed
    cases isAllowed

theorem splitDouble_free {text : JsString} (free : colon ∉ text) : splitDouble text = [text] := by
  fun_induction splitDouble text with
  | case1 => rfl
  | case2 code => rfl
  | case3 first second rest both ih => exact absurd (both.1 ▸ List.mem_cons_self) free
  | case4 first second rest apart ih =>
      rw [ih fun member => free (List.mem_cons_of_mem first member)]
      rfl

/-- What is joined to a text without a colon is joined to the last half. -/
theorem splitDouble_append {rest : JsString} (free : colon ∉ rest) (text : JsString) :
    ∃ init last, splitDouble text = init ++ [last] ∧
      splitDouble (text ++ rest) = init ++ [last ++ rest] := by
  fun_induction splitDouble text with
  | case1 => exact ⟨[], [], rfl, splitDouble_free free⟩
  | case2 code =>
      refine ⟨[], [code], rfl, ?_⟩
      cases rest with
      | nil => rfl
      | cons first rest =>
          have apart : ¬ (code = colon ∧ first = colon) :=
            fun both => free (both.2 ▸ List.mem_cons_self)
          rw [List.singleton_append, splitDouble, if_neg apart, splitDouble_free free]
          rfl
  | case3 first second text both ih =>
      obtain ⟨init, last, halves, joined⟩ := ih
      refine ⟨[] :: init, last, by rw [halves]; rfl, ?_⟩
      rw [List.cons_append, List.cons_append, splitDouble, if_pos both, joined]
      rfl
  | case4 first second text apart ih =>
      obtain ⟨init, last, halves, joined⟩ := ih
      rw [List.cons_append] at joined
      rw [List.cons_append, List.cons_append, splitDouble, if_neg apart, halves, joined]
      cases init with
      | nil => exact ⟨[], first :: last, rfl, rfl⟩
      | cons half init => exact ⟨(first :: half) :: init, last, rfl, rfl⟩

theorem splitDouble_ne_nil (text : JsString) : splitDouble text ≠ [] := by
  obtain ⟨init, last, halves, _⟩ := splitDouble_append List.not_mem_nil text
  rw [halves]
  simp

theorem join_splitDouble (text : JsString) : [colon, colon].intercalate (splitDouble text) = text := by
  fun_induction splitDouble text with
  | case1 => rfl
  | case2 code => rfl
  | case3 first second rest both ih =>
      obtain ⟨rfl, rfl⟩ := both
      cases halves : splitDouble rest with
      | nil => exact absurd halves (splitDouble_ne_nil rest)
      | cons half others =>
          rw [halves] at ih
          rw [List.intercalate_cons_cons, ih]
          rfl
  | case4 first second rest apart ih =>
      cases halves : splitDouble (second :: rest) with
      | nil => exact absurd halves (splitDouble_ne_nil (second :: rest))
      | cons half others =>
          rw [halves] at ih
          rw [List.modifyHead_cons]
          cases others with
          | nil =>
              rw [List.intercalate_singleton] at ih ⊢
              rw [ih]
          | cons other others =>
              rw [List.intercalate_cons_cons] at ih ⊢
              rw [List.cons_append, List.cons_append, ih]

theorem splitDouble_cases (text : JsString) : splitDouble text = [text] ∨
    (∃ front back, splitDouble text = [front, back]) ∨
      ∃ first second third rest, splitDouble text = first :: second :: third :: rest := by
  have whole := join_splitDouble text
  match halves : splitDouble text with
  | [] => exact absurd halves (splitDouble_ne_nil text)
  | [only] =>
      rw [halves, List.intercalate_singleton] at whole
      exact .inl (by rw [whole])
  | [front, back] => exact .inr (.inl ⟨front, back, rfl⟩)
  | first :: second :: third :: rest => exact .inr (.inr ⟨first, second, third, rest, rfl⟩)

/-- Two colons in a row leave an empty piece. -/
theorem splitDouble_of_filled {text : JsString} (filled : [] ∉ (split colon text).tail) :
    splitDouble text = [text] := by
  fun_induction splitDouble text with
  | case1 => rfl
  | case2 code => rfl
  | case3 first second rest both ih =>
      obtain ⟨rfl, rfl⟩ := both
      refine absurd ?_ filled
      simp [split, List.splitOn_cons_eq_if_modifyHead]
  | case4 first second rest apart ih =>
      have later : [] ∉ (split colon (second :: rest)).tail := by
        intro member
        apply filled
        rw [split, List.splitOn_cons_eq_if_modifyHead]
        split
        · exact List.mem_of_mem_tail member
        · rwa [List.tail_modifyHead]
      rw [ih later]
      rfl

theorem body_append_zone (text : JsString) : bodyOf text ++ zoneOf text = text :=
  List.takeWhile_append_dropWhile

theorem zoneOf_cases (text : JsString) : zoneOf text = [] ∨ ∃ zone, zoneOf text = percent :: zone := by
  induction text with
  | nil => exact .inl rfl
  | cons first text ih =>
      by_cases marks : first = percent
      · exact .inr ⟨text, by simp [zoneOf, marks]⟩
      · rw [zoneOf, List.dropWhile_cons_of_pos (by simpa using marks)]
        exact ih

/-! What is read. -/

theorem readPieces_cons (piece : JsString) {rest : List JsString} (more : rest ≠ []) :
    readPieces (piece :: rest) =
      if isGroup piece then (readPieces rest).map (readDigits 16 piece :: ·) else none := by
  cases rest with
  | nil => exact absurd rfl more
  | cons next rest => rw [readPieces]

theorem readPieces_concat {init : List JsString} {last : JsString} {values : List Nat} :
    readPieces (init ++ [last]) = some values ↔ init.all isGroup = true ∧
      ∃ ends, readPieces [last] = some ends ∧ values = init.map (readDigits 16) ++ ends := by
  induction init generalizing values with
  | nil => simp
  | cons piece init ih =>
      rw [List.cons_append, readPieces_cons piece (by simp)]
      by_cases group : isGroup piece = true
      · rw [if_pos group, Option.map_eq_some_iff, List.all_cons, group, Bool.true_and]
        constructor
        · rintro ⟨later, isLater, rfl⟩
          obtain ⟨groups, ends, isEnds, rfl⟩ := ih.mp isLater
          exact ⟨groups, ends, isEnds, rfl⟩
        · rintro ⟨groups, ends, isEnds, rfl⟩
          exact ⟨_, ih.mpr ⟨groups, ends, isEnds, rfl⟩, rfl⟩
      · rw [if_neg group]
        simp [group]

theorem readPieces_singleton {last : JsString} {ends : List Nat} :
    readPieces [last] = some ends ↔ isGroup last = true ∧ [readDigits 16 last] = ends ∨
      isGroup last = false ∧ isIPv4 last = true ∧ pairs (octets last) = ends := by
  rw [readPieces]
  cases group : isGroup last with
  | true => simp
  | false =>
      cases four : isIPv4 last with
      | true => simp
      | false => simp

theorem isIPv4_pieces {text : JsString} (four : isIPv4 text = true) :
    ∃ first second third fourth, split dot text = [first, second, third, fourth] ∧
      isOctet first = true ∧ isOctet second = true ∧ isOctet third = true ∧ isOctet fourth = true := by
  rw [isIPv4, Bool.and_eq_true, decide_eq_true_eq] at four
  obtain ⟨count, all⟩ := four
  match pieces : split dot text with
  | [first, second, third, fourth] =>
      rw [pieces] at all
      simp only [List.all_cons, List.all_nil, Bool.and_true, Bool.and_eq_true] at all
      exact ⟨first, second, third, fourth, rfl, all⟩
  | [] | [_] | [_, _] | [_, _, _] | _ :: _ :: _ :: _ :: _ :: _ =>
      rw [pieces] at count
      simp at count

theorem octet_lt {text : JsString} (octet : isOctet text = true) : readNat text < 256 := by
  rw [isOctet, Bool.and_eq_true, decide_eq_true_eq] at octet
  omega

/-- The two groups that an IPv4 address stands for. -/
theorem pairs_octets {text : JsString} (four : isIPv4 text = true) :
    ∃ first second third fourth, octets text = [first, second, third, fourth] ∧
      pairs (octets text) = [first * 256 + second, third * 256 + fourth] ∧
      first < 256 ∧ second < 256 ∧ third < 256 ∧ fourth < 256 := by
  obtain ⟨first, second, third, fourth, pieces, isFirst, isSecond, isThird, isFourth⟩ :=
    isIPv4_pieces four
  refine ⟨readNat first, readNat second, readNat third, readNat fourth, ?_, ?_, octet_lt isFirst,
    octet_lt isSecond, octet_lt isThird, octet_lt isFourth⟩
  · rw [octets, pieces]
    rfl
  · rw [octets, pieces]
    rfl

theorem le_foldl (digits : JsString) (start : Nat) :
    start ≤ digits.foldl (fun value code => value * 10 + (code.val - 48)) start := by
  induction digits generalizing start with
  | nil => exact Nat.le_refl start
  | cons code digits ih =>
      have later := ih (start * 10 + (code.val - 48))
      rw [List.foldl_cons]
      omega

/-- The zero that has no leading zero. -/
theorem octet_zero {text : JsString} (octet : isOctet text = true) (zero : readNat text = 0) :
    text = js "0" := by
  simp only [isOctet, isNumeral, Bool.and_eq_true, Bool.or_eq_true, decide_eq_true_eq] at octet
  obtain ⟨⟨⟨nonempty, digits⟩, leading⟩, _⟩ := octet
  obtain ⟨first, rest, rfl⟩ := List.exists_cons_of_ne_nil nonempty
  have isFirst : first = unit 48 := by
    have bounds := Double.isDigit_bounds (List.all_eq_true.mp digits first List.mem_cons_self)
    have small := le_foldl rest (0 * 10 + (first.val - 48))
    rw [readNat, List.foldl_cons] at zero
    apply Fin.ext
    rw [unit_val (by omega)]
    omega
  subst isFirst
  obtain rfl : rest = [] := by simpa using leading
  rfl

theorem isGroup_bound {piece : JsString} (group : isGroup piece = true) :
    readDigits 16 piece < 0x10000 := by
  simp only [isGroup, Bool.and_eq_true, decide_eq_true_eq] at group
  have short : 16 ^ piece.length ≤ 16 ^ 4 := Nat.pow_le_pow_right (by omega) group.1.2
  have below := readDigits_lt group.2
  omega

theorem not_mem_of_isGroup {piece : JsString} (group : isGroup piece = true) {code : CodeUnit}
    (special : isDigitOf 16 code = false) : code ∉ piece := by
  intro member
  have digit := List.all_eq_true.mp (Bool.and_eq_true_iff.mp group).2 code member
  rw [special] at digit
  cases digit

theorem piecesOf_ne_nil {part : JsString} (nonempty : part ≠ []) : piecesOf part = split colon part :=
  if_neg nonempty

theorem dot_not_mem_groups {text : JsString} (groups : ∀ piece ∈ split colon text, isGroup piece = true) :
    dot ∉ text :=
  not_mem_of_pieces (fun piece member => (Bool.and_eq_true_iff.mp (groups piece member)).2) (by decide)
    (by decide)

theorem dot_not_mem_pieces {part : JsString} (groups : (piecesOf part).all isGroup = true) : dot ∉ part := by
  by_cases empty : part = []
  · simp [empty]
  · rw [piecesOf_ne_nil empty] at groups
    exact dot_not_mem_groups (List.all_eq_true.mp groups)

/-- An address has a colon in front of its zone. -/
theorem readIPv6_of_free {text : JsString} (free : colon ∉ bodyOf text) : readIPv6 text = none := by
  rw [readIPv6]
  split
  · have pieces : split colon (bodyOf text) = [bodyOf text] := List.splitOn_eq_singleton free
    rw [readBody, splitDouble_free free]
    simp only [pieces, Option.filter_eq_none_iff, decide_eq_true_eq]
    intro groups isGroups
    rcases readPieces_singleton.mp isGroups with ⟨_, rfl⟩ | ⟨_, four, rfl⟩
    · simp
    · obtain ⟨first, second, third, fourth, _, isPairs, _⟩ := pairs_octets four
      simp [isPairs]
  · rfl

/-- Either the pieces are eight groups, or there are zeros between the two halves. -/
theorem readBody_eq_some_iff {body : JsString} {groups : List Nat} :
    readBody body = some groups ↔
      (splitDouble body = [body] ∧ readPieces (split colon body) = some groups ∧ groups.length = 8) ∨
      ∃ front back head tail, splitDouble body = [front, back] ∧
        readFront (piecesOf front) = some head ∧ readPieces (piecesOf back) = some tail ∧
        fill head tail = some groups := by
  rw [readBody]
  rcases splitDouble_cases body with halves | ⟨front, back, halves⟩ | ⟨_, _, _, _, halves⟩
  · rw [halves]
    simp [Option.filter_eq_some_iff]
  · rw [halves]
    simp only [Option.bind_eq_some_iff, List.cons.injEq, reduceCtorEq, and_false, false_and,
      false_or, and_true]
    constructor
    · rintro ⟨head, isHead, tail, isTail, filled⟩
      exact ⟨front, back, head, tail, ⟨rfl, rfl⟩, isHead, isTail, filled⟩
    · rintro ⟨_, _, head, tail, ⟨rfl, rfl⟩, isHead, isTail, filled⟩
      exact ⟨head, isHead, tail, isTail, filled⟩
  · rw [halves]
    simp

theorem readPieces_bound {pieces : List JsString} {values : List Nat}
    (isRead : readPieces pieces = some values) : ∀ value ∈ values, value < 0x10000 := by
  rcases List.eq_nil_or_concat' pieces with rfl | ⟨init, last, rfl⟩
  · obtain rfl := Option.some.inj isRead
    simp
  · obtain ⟨groups, ends, isEnds, rfl⟩ := readPieces_concat.mp isRead
    intro value member
    rcases List.mem_append.mp member with early | late
    · obtain ⟨piece, isPiece, rfl⟩ := List.mem_map.mp early
      exact isGroup_bound (List.all_eq_true.mp groups piece isPiece)
    · rcases readPieces_singleton.mp isEnds with ⟨group, rfl⟩ | ⟨_, four, rfl⟩
      · obtain rfl := List.mem_singleton.mp late
        exact isGroup_bound group
      · obtain ⟨first, second, third, fourth, _, isPairs, bounds⟩ := pairs_octets four
        rw [isPairs] at late
        simp only [List.mem_cons, List.not_mem_nil, or_false] at late
        omega

theorem readFront_eq_some_iff {pieces : List JsString} {values : List Nat} :
    readFront pieces = some values ↔
      pieces.all isGroup = true ∧ pieces.map (readDigits 16) = values := by
  rw [readFront]
  split
  · rename_i groups
    simp [groups]
  · rename_i groups
    simp [groups]

theorem fill_eq_some_iff {head tail groups : List Nat} :
    fill head tail = some groups ↔ head.length + tail.length ≤ 7 ∧
      head ++ List.replicate (8 - (head.length + tail.length)) 0 ++ tail = groups := by
  rw [fill]
  split
  · rename_i room
    simp [room]
  · rename_i full
    simp [full]

theorem readIPv6_bound {text : JsString} {groups : List Nat} (isRead : readIPv6 text = some groups) :
    groups.length = 8 ∧ ∀ group ∈ groups, group < 0x10000 := by
  rw [readIPv6] at isRead
  split at isRead
  · rcases readBody_eq_some_iff.mp isRead with ⟨_, pieces, size⟩ |
      ⟨front, back, head, tail, _, isHead, isTail, filled⟩
    · exact ⟨size, readPieces_bound pieces⟩
    · obtain ⟨room, rfl⟩ := fill_eq_some_iff.mp filled
      obtain ⟨isGroups, rfl⟩ := readFront_eq_some_iff.mp isHead
      refine ⟨by simp only [List.length_append, List.length_replicate]; omega, ?_⟩
      intro group member
      rw [List.append_assoc, List.mem_append, List.mem_append] at member
      rcases member with early | zero | late
      · obtain ⟨piece, isPiece, rfl⟩ := List.mem_map.mp early
        exact isGroup_bound (List.all_eq_true.mp isGroups piece isPiece)
      · rw [List.eq_of_mem_replicate zero]
        omega
      · exact readPieces_bound isTail group late
  · cases isRead

theorem digits_of_isIPv4 {text : JsString} (four : isIPv4 text = true) :
    ∀ piece ∈ split dot text, piece.all isDigit = true := by
  intro piece member
  have octet := List.all_eq_true.mp (Bool.and_eq_true_iff.mp four).2 piece member
  have numeral := (Bool.and_eq_true_iff.mp (Bool.and_eq_true_iff.mp octet).1).1
  exact (Bool.and_eq_true_iff.mp numeral).2

theorem isIPv4_false_of_colon {text : JsString} (member : colon ∈ text) : isIPv4 text = false := by
  by_contra four
  rw [Bool.not_eq_false] at four
  exact not_mem_of_pieces (digits_of_isIPv4 four) (by decide) (by decide) member

theorem dot_mem_of_isIPv4 {text : JsString} (four : isIPv4 text = true) : dot ∈ text := by
  by_contra free
  have single : split dot text = [text] := List.splitOn_eq_singleton free
  simp [isIPv4, single] at four

theorem not_isIPv4_of_readIPv6 {text : JsString} {groups : List Nat}
    (isRead : readIPv6 text = some groups) : isIPv4 text = false := by
  by_contra four
  rw [Bool.not_eq_false] at four
  have free : colon ∉ text := not_mem_of_pieces (digits_of_isIPv4 four) (by decide) (by decide)
  rw [readIPv6_of_free fun member => free (List.takeWhile_subset _ member)] at isRead
  cases isRead

theorem length_bytesOf (groups : List Nat) : (bytesOf groups).length = groups.length * 2 := by
  induction groups with
  | nil => rfl
  | cons group groups ih =>
      rw [bytesOf, List.flatMap_cons, List.length_append, ← bytesOf, ih, List.length_cons]
      simp only [List.length_cons, List.length_nil]
      omega

theorem bytesOf_bound {groups : List Nat} (bound : ∀ group ∈ groups, group < 0x10000) :
    ∀ byte ∈ bytesOf groups, byte < 256 := by
  intro byte member
  obtain ⟨group, isGroup, isByte⟩ := List.mem_flatMap.mp member
  have small := bound group isGroup
  simp only [List.mem_cons, List.not_mem_nil, or_false] at isByte
  omega

theorem bytesOf_pairs {text : JsString} (four : isIPv4 text = true) :
    bytesOf (pairs (octets text)) = octets text := by
  obtain ⟨first, second, third, fourth, isOctets, isPairs, bounds⟩ := pairs_octets four
  rw [isPairs, isOctets]
  simp only [bytesOf, List.flatMap_cons, List.flatMap_nil, List.append_nil, List.cons_append,
    List.nil_append, List.cons.injEq, and_true]
  omega

/-- An address has the bytes of an IPv4 address, or groups that map none. -/
theorem address_cases {text : JsString} {bytes : List Nat} (isAddress : address text = some bytes) :
    (bytes.length = 4 ∧ ∀ byte ∈ bytes, byte < 256) ∨
      ∃ groups, groups.length = 8 ∧ (∀ group ∈ groups, group < 0x10000) ∧
        groups.take 6 ≠ mappedFront ∧ bytes = bytesOf groups := by
  rw [address] at isAddress
  split at isAddress
  · rename_i four
    obtain ⟨first, second, third, fourth, isOctets, _, bounds⟩ := pairs_octets four
    obtain rfl := Option.some.inj isAddress
    rw [isOctets]
    refine .inl ⟨rfl, fun byte member => ?_⟩
    simp only [List.mem_cons, List.not_mem_nil, or_false] at member
    omega
  · obtain ⟨groups, isRead, rfl⟩ := Option.map_eq_some_iff.mp isAddress
    obtain ⟨size, bound⟩ := readIPv6_bound isRead
    rw [unmapped]
    split
    · refine .inl ⟨by rw [length_bytesOf, List.length_drop, size], ?_⟩
      exact bytesOf_bound fun group member => bound group (List.mem_of_mem_drop member)
    · rename_i apart
      exact .inr ⟨groups, size, bound, apart, rfl⟩

/-! What is written is read back. -/

theorem isDigitOf_hexDigit {value : Nat} (bound : value < 16) : isDigitOf 16 (hexDigit value) = true := by
  rw [isDigitOf, hexValue_hexDigit bound]
  exact decide_eq_true bound

theorem groupText_digits (value : Nat) (bound : value < 0x10000) :
    (groupText value).all (isDigitOf 16) = true := by
  simp only [groupText, List.all_cons, List.all_nil, Bool.and_true, Bool.and_eq_true]
  exact ⟨isDigitOf_hexDigit (by omega), isDigitOf_hexDigit (by omega), isDigitOf_hexDigit (by omega),
    isDigitOf_hexDigit (by omega)⟩

theorem isGroup_groupText {value : Nat} (bound : value < 0x10000) :
    isGroup (groupText value) = true := by
  rw [isGroup, groupText_digits value bound]
  rfl

theorem readDigits_groupText {value : Nat} (bound : value < 0x10000) :
    readDigits 16 (groupText value) = value := by
  simp only [readDigits, groupText, List.foldl_cons, List.foldl_nil,
    hexValue_hexDigit (show value / 4096 < 16 by omega),
    hexValue_hexDigit (show value / 256 % 16 < 16 by omega),
    hexValue_hexDigit (show value / 16 % 16 < 16 by omega),
    hexValue_hexDigit (show value % 16 < 16 by omega), Option.getD_some]
  omega

section Written

variable {groups : List Nat} (size : groups.length = 8) (bound : ∀ group ∈ groups, group < 0x10000)

include size in
theorem map_groupText_ne_nil : groups.map groupText ≠ [] := by
  rintro empty
  simp [List.map_eq_nil_iff.mp empty] at size

include bound in
theorem mem_map_groupText {piece : JsString} (member : piece ∈ groups.map groupText) :
    isGroup piece = true := by
  obtain ⟨group, isMember, rfl⟩ := List.mem_map.mp member
  exact isGroup_groupText (bound group isMember)

include size bound in
theorem split_ipv6Text : split colon (ipv6Text groups) = groups.map groupText := by
  refine List.splitOn_intercalate colon ?_ (map_groupText_ne_nil size)
  exact fun piece member => not_mem_of_isGroup (mem_map_groupText bound member) (by decide)

include size bound in
theorem digits_of_ipv6Text : ∀ piece ∈ split colon (ipv6Text groups), piece.all (isDigitOf 16) = true := by
  intro piece member
  rw [split_ipv6Text size bound] at member
  exact (Bool.and_eq_true_iff.mp (mem_map_groupText bound member)).2

theorem bodyOf_of_free {text : JsString} (free : percent ∉ text) : bodyOf text = text :=
  List.takeWhile_eq_self_iff.mpr fun _ member => decide_eq_true fun same => free (same ▸ member)

theorem zoneOf_of_free {text : JsString} (free : percent ∉ text) : zoneOf text = [] :=
  List.dropWhile_eq_nil_iff.mpr fun _ member => decide_eq_true fun same => free (same ▸ member)

theorem readPieces_groups {pieces : List JsString} (nonempty : pieces ≠ [])
    (groups : ∀ piece ∈ pieces, isGroup piece = true) :
    readPieces pieces = some (pieces.map (readDigits 16)) := by
  obtain ⟨init, last, rfl⟩ := (List.eq_nil_or_concat' pieces).resolve_left nonempty
  refine readPieces_concat.mpr ⟨?_, [readDigits 16 last], ?_, by simp⟩
  · exact List.all_eq_true.mpr fun piece member => groups piece (List.mem_append_left _ member)
  · exact readPieces_singleton.mpr (.inl ⟨groups last (by simp), rfl⟩)

include size bound in
theorem readIPv6_ipv6Text : readIPv6 (ipv6Text groups) = some groups := by
  have free : percent ∉ ipv6Text groups :=
    not_mem_of_pieces (digits_of_ipv6Text size bound) (by decide) (by decide)
  have pieces := split_ipv6Text size bound
  have isRead : readPieces (groups.map groupText) = some groups := by
    have values : groups.map (readDigits 16 ∘ groupText) = groups.map id :=
      List.map_congr_left fun group member => readDigits_groupText (bound group member)
    rw [readPieces_groups (map_groupText_ne_nil size) fun piece => mem_map_groupText bound,
      List.map_map, values, List.map_id]
  have filled : [] ∉ (split colon (ipv6Text groups)).tail := by
    intro member
    have group := mem_map_groupText bound (pieces ▸ List.mem_of_mem_tail member)
    cases group
  rw [readIPv6, zoneOf_of_free free, bodyOf_of_free free, if_pos (by decide), readBody_eq_some_iff]
  exact .inl ⟨splitDouble_of_filled filled, by rw [pieces, isRead], size⟩

end Written

theorem isOctet_natText {value : Nat} (bound : value < 256) : isOctet (natText value) = true := by
  have checked : ((List.range 256).all fun value => isOctet (natText value)) = true := by decide +kernel
  exact List.all_eq_true.mp checked value (List.mem_range.mpr bound)

theorem split_ipv4Text {bytes : List Nat} (size : bytes.length = 4) :
    split dot (ipv4Text bytes) = bytes.map natText := by
  refine List.splitOn_intercalate dot ?_ ?_
  · intro piece member
    obtain ⟨byte, _, rfl⟩ := List.mem_map.mp member
    intro isDot
    exact absurd (natText_isDigit byte dot isDot) (by decide)
  · intro empty
    simp [List.map_eq_nil_iff.mp empty] at size

theorem isIPv4_ipv4Text {bytes : List Nat} (size : bytes.length = 4) (bound : ∀ byte ∈ bytes, byte < 256) :
    isIPv4 (ipv4Text bytes) = true ∧ octets (ipv4Text bytes) = bytes := by
  have values : bytes.map (readNat ∘ natText) = bytes.map id :=
    List.map_congr_left fun byte _ => readNat_natText byte
  rw [isIPv4, octets, split_ipv4Text size, List.length_map, size, List.map_map, values, List.map_id]
  refine ⟨?_, rfl⟩
  rw [List.all_map, decide_eq_true rfl, Bool.true_and]
  exact List.all_eq_true.mpr fun byte member => isOctet_natText (bound byte member)

end AddressText
