import ArmstrongBot.Library.LeadingBits
import ArmstrongBot.Metrics.AddressReading

/-! `MetricsScrapeGuard` and the ranges of addresses from which it admits a scrape. -/

namespace MetricsScrape

open JsText Double AddressText LeadingBits

def slash : CodeUnit := unit 47

/-- `bitsLeft > 0` -/
def isPositive : Quantity → Bool
  | .finite value => decide (0 < value)
  | .infinite negative => !negative
  | .nan => false

/-- `Math.min(8, bitsLeft)` -/
def atMostEight : Quantity → Quantity
  | .finite value => .finite (if 8 ≤ value then 8 else value)
  | .infinite negative => if negative then .infinite true else .finite 8
  | .nan => .nan

def maskOf (take : Quantity) : Nat :=
  if take = .finite 0 then 0
  else (0xff <<< (toInteger (minus (.finite 8) take) % 32).toNat) &&& 0xff

def sameNetwork : List Nat → List Nat → Quantity → Bool
  | byte :: a, other :: b, bitsLeft =>
      if isPositive bitsLeft then
        let take := atMostEight bitsLeft
        if byte &&& maskOf take ≠ other &&& maskOf take then false
        else sameNetwork a b (minus bitsLeft take)
      else true
  | _, _, _ => true

/-- What stands in front of the first slash. -/
def rangeOf (cidr : JsString) : JsString := (split slash cidr).headD []

def bitsRaw (cidr : JsString) : Option JsString := (split slash cidr)[1]?

def ipInCidr (ip cidr : JsString) : Bool :=
  match normalize ip, normalize (rangeOf cidr) with
  | some normIp, some normRange =>
      if normIp.length ≠ normRange.length then false
      else sameNetwork normIp normRange (((bitsRaw cidr).map toNumber).getD (.finite (normIp.length * 8 : Nat)))
  | _, _ => false

def ipInAnyCidr (ip : JsString) (cidrs : List JsString) : Bool := cidrs.any (ipInCidr ip)

example : ipInCidr (js "203.0.113.7") (js "10.0.0.0/") = true ∧
    ipInCidr (js "203.0.113.7") (js "10.0.0.0/abc") = true ∧
    ipInCidr (js "::ffff:10.9.9.9") (js "10.0.0.0/8/") = true ∧
    ipInCidr (js "::ffff:a09:909") (js "10.0.0.0/8") = false ∧
    ipInCidr (js "::1") (js "::1.2.3.4") = true := by decide +kernel

/-! `MetricsScrapeGuard` -/

structure MetricsConfig where
  endpointBearerToken : Option JsString
  endpointAllowlistCidrs : List JsString

structure Request where
  authorization : Option JsString
  ip : Option JsString
  remoteAddress : Option JsString

/-- The line terminators, for which `.` does not stand. -/
def isTerminator (code : CodeUnit) : Bool :=
  code.val = 10 || code.val = 13 || code.val = 0x2028 || code.val = 0x2029

/-- `\s+(.+)$`, where the last of several blanks is the token if nothing else is left. -/
def tokenBehind (text : JsString) : Option JsString :=
  let blanks := text.takeWhile isSpace
  let token := text.dropWhile isSpace
  if token ≠ [] then if blanks ≠ [] ∧ !token.any isTerminator then some token else none
  else match blanks.reverse with
    | last :: _ :: _ => if isTerminator last then none else some [last]
    | _ => none

/-- `/^Bearer\s+(.+)$/i` -/
def bearer (req : Request) : Option JsString :=
  req.authorization.bind fun header =>
    if toLowerCase (header.take 6) = js "bearer" then tokenBehind (header.drop 6) else none

def sourceIp (req : Request) : Option JsString := req.ip.or req.remoteAddress

def timingSafeEqual (a b : JsString) : Bool :=
  if a.length ≠ b.length then false
  else (a.zip b).foldl (fun mismatch units => mismatch ||| (units.1.val ^^^ units.2.val)) 0 = 0

def tokenAccepted (cfg : MetricsConfig) (req : Request) : Bool :=
  match cfg.endpointBearerToken, bearer req with
  | some expected, some provided =>
      expected ≠ [] && provided ≠ [] && timingSafeEqual provided expected
  | _, _ => false

def canActivate (cfg : MetricsConfig) (req : Request) : Bool :=
  if tokenAccepted cfg req then true
  else match sourceIp req with
    | some ip => ip ≠ [] && ipInAnyCidr ip cfg.endpointAllowlistCidrs
    | none => false

/-- The decimal prefix length of an address of so many bytes, all its bits where there is no slash. -/
def prefixOf (cidr : JsString) (size : Nat) : Option Nat :=
  match split slash cidr with
  | [_] => some (size * 8)
  | [_, digits] => if isNumeral digits && readNat digits ≤ size * 8 then some (readNat digits) else none
  | _ => none

def InRange (ip cidr : JsString) : Prop :=
  ∃ address range count, meaning ip = some address ∧ meaning (rangeOf cidr) = some range ∧
    address.length = range.length ∧ prefixOf cidr range.length = some count ∧ Agree count address range

def Right (ip cidr : JsString) : Prop := ipInCidr ip cidr = true ↔ InRange ip cidr

/-- Behind a range that is an address stands nothing or a prefix length. -/
def SuffixSound (cidr : JsString) : Prop :=
  ∀ range ∈ meaning (rangeOf cidr), (prefixOf cidr range.length).isSome = true

/-! The comparison of the leading bits. -/

/-- Whatever the suffix is, an address is in the network of its own. -/
theorem sameNetwork_self (bytes : List Nat) (bitsLeft : Quantity) :
    sameNetwork bytes bytes bitsLeft = true := by
  induction bytes generalizing bitsLeft with
  | nil => rfl
  | cons byte bytes ih =>
      rw [sameNetwork]
      split
      · simp only [ne_eq, not_true_eq_false, if_false]
        exact ih _
      · rfl

theorem atMostEight_natCast (count : Nat) : atMostEight (.finite count) = .finite (min 8 count : Nat) := by
  rw [atMostEight]
  by_cases large : 8 ≤ count
  · rw [if_pos (by exact_mod_cast large), Nat.min_eq_left large]
    rfl
  · rw [if_neg (by exact_mod_cast large), Nat.min_eq_right (by omega)]

theorem maskOf_natCast {count : Nat} (positive : 0 < count) (bound : count ≤ 8) :
    maskOf (.finite count) = mask count := by
  have some : ¬ (Quantity.finite count = .finite 0) := by
    rw [Quantity.finite.injEq, Rat.natCast_eq_zero_iff]
    omega
  have shift : minus (.finite 8) (.finite count) = .finite (8 - count : Nat) :=
    minus_natCast bound (show 8 < 2 ^ 53 by omega)
  rw [maskOf, if_neg some, shift, toInteger_natCast, mask]
  congr 2
  omega

theorem sameNetwork_natCast {a b : List Nat} (sameLength : a.length = b.length) {count : Nat}
    (bound : count < 2 ^ 53) : sameNetwork a b (.finite count) = true ↔ Agree count a b := by
  induction a generalizing b count with
  | nil =>
      cases b with
      | nil => simp [sameNetwork, Agree]
      | cons other b => cases sameLength
  | cons byte a ih =>
      cases b with
      | nil => cases sameLength
      | cons other b =>
          by_cases nothing : count = 0
          · subst nothing
            simp [sameNetwork, isPositive, agree_zero]
          · have positive : isPositive (.finite count) = true :=
              decide_eq_true (by exact_mod_cast Nat.pos_of_ne_zero nothing)
            have taken : (bits byte).take (min 8 count) = (bits other).take (min 8 count) ↔
                (bits byte).take count = (bits other).take count := by
              have cut (bytes : List Bool) (eight : bytes.length = 8) :
                  bytes.take (min 8 count) = bytes.take count := by
                rw [← eight, List.take_eq_take_iff]
                omega
              rw [cut _ (length_bits byte), cut _ (length_bits other)]
            have left : count - min 8 count = count - 8 := by omega
            rw [sameNetwork, if_pos positive, atMostEight_natCast]
            simp only [maskOf_natCast (show 0 < min 8 count by omega) (Nat.min_le_left 8 count),
              minus_natCast (Nat.min_le_right 8 count) bound, left]
            rw [agree_cons, ← taken, ← masked_eq_iff (Nat.min_le_left 8 count),
              ← ih (Nat.succ.inj sameLength) (show count - 8 < 2 ^ 53 by omega)]
            split
            · rename_i apart
              simp [apart]
            · rename_i same
              simp [not_not.mp same]

/-! Which pairs are judged right. -/

theorem prefix_eq {cidr : JsString} {size count : Nat} (small : size ≤ 16)
    (isPrefix : prefixOf cidr size = some count) :
    ((bitsRaw cidr).map toNumber).getD (.finite (size * 8 : Nat)) = .finite count ∧ count ≤ size * 8 := by
  rw [prefixOf] at isPrefix
  rw [bitsRaw]
  match pieces : split slash cidr with
  | [] => simp [pieces] at isPrefix
  | [range] =>
      rw [pieces] at isPrefix
      obtain rfl := Option.some.inj isPrefix
      exact ⟨rfl, Nat.le_refl _⟩
  | [range, digits] =>
      rw [pieces] at isPrefix
      simp only [Option.ite_none_right_eq_some, Bool.and_eq_true, decide_eq_true_eq,
        Option.some.injEq] at isPrefix
      obtain ⟨⟨numeral, bound⟩, rfl⟩ := isPrefix
      exact ⟨toNumber_numeral numeral (by omega), bound⟩
  | _ :: _ :: _ :: _ => simp [pieces] at isPrefix

theorem ipInCidr_eq_true_iff {ip cidr : JsString} : ipInCidr ip cidr = true ↔
    ∃ normIp normRange, normalize ip = some normIp ∧ normalize (rangeOf cidr) = some normRange ∧
      normIp.length = normRange.length ∧ sameNetwork normIp normRange
        (((bitsRaw cidr).map toNumber).getD (.finite (normIp.length * 8 : Nat))) = true := by
  rw [ipInCidr]
  cases normalize ip with
  | none => simp
  | some normIp =>
      cases normalize (rangeOf cidr) with
      | none => simp
      | some normRange => simp

theorem right_of_plain {ip cidr : JsString} (plainIp : Plain ip) (plainRange : Plain (rangeOf cidr))
    (sound : SuffixSound cidr) : Right ip cidr := by
  have isIp := (normalize_eq_iff ip).mpr plainIp
  have isRange := (normalize_eq_iff (rangeOf cidr)).mpr plainRange
  rw [Right, ipInCidr_eq_true_iff, InRange, isIp, isRange]
  constructor
  · rintro ⟨address, range, isAddress, meant, sameLength, same⟩
    obtain ⟨count, isPrefix⟩ := Option.isSome_iff_exists.mp (sound range meant)
    have small := (normalize_bound (isRange.trans meant)).1
    obtain ⟨bits, bound⟩ := prefix_eq small isPrefix
    rw [sameLength, bits, sameNetwork_natCast sameLength (by omega)] at same
    exact ⟨address, range, count, isAddress, meant, sameLength, isPrefix, same⟩
  · rintro ⟨address, range, count, isAddress, meant, sameLength, isPrefix, agree⟩
    have small := (normalize_bound (isRange.trans meant)).1
    obtain ⟨bits, bound⟩ := prefix_eq small isPrefix
    refine ⟨address, range, isAddress, meant, sameLength, ?_⟩
    rw [sameLength, bits, sameNetwork_natCast sameLength (by omega)]
    exact agree

/-- Behind a malformed suffix the address of the range itself is always let in. -/
theorem suffixSound_of_right {cidr : JsString} (plainRange : Plain (rangeOf cidr))
    (right : ∀ ip, Plain ip → Right ip cidr) : SuffixSound cidr := by
  intro range meant
  have isRange := ((normalize_eq_iff (rangeOf cidr)).mpr plainRange).trans meant
  obtain ⟨_, _, count, _, same, _, isPrefix, _⟩ := (right (rangeOf cidr) plainRange).mp
    (ipInCidr_eq_true_iff.mpr ⟨range, range, isRange, isRange, rfl, sameNetwork_self range _⟩)
  obtain rfl := Option.some.inj (meant.symm.trans same)
  rw [isPrefix]
  rfl

/-- Every address can be written as a plain text. -/
theorem exists_plain {text : JsString} {bytes : List Nat} (meant : meaning text = some bytes) :
    ∃ written, slash ∉ written ∧ meaning written = some bytes ∧ Plain written := by
  rcases address_cases meant with ⟨size, bound⟩ | ⟨groups, size, bound, apart, rfl⟩
  · obtain ⟨four, isOctets⟩ := isIPv4_ipv4Text size bound
    have shown : trim (ipv4Text bytes) = ipv4Text bytes := by
      refine trim_of_shown fun code member => ?_
      rcases units_of_pieces (digits_of_isIPv4 four) member with rfl | digit
      · decide
      · exact isSpace_digit digit
    refine ⟨ipv4Text bytes, not_mem_of_pieces (digits_of_isIPv4 four) (by decide) (by decide), ?_, ?_⟩
    · rw [meaning, shown, address, if_pos four, isOctets]
    · rw [Plain, shown]
      refine .inl ?_
      by_contra six
      obtain ⟨groups, isRead⟩ := Option.ne_none_iff_exists'.mp six
      rw [not_isIPv4_of_readIPv6 isRead] at four
      cases four
  · have isRead := readIPv6_ipv6Text size bound
    have digits := digits_of_ipv6Text size bound
    have shown : trim (ipv6Text groups) = ipv6Text groups := by
      refine trim_of_shown fun code member => ?_
      rcases units_of_pieces digits member with rfl | digit
      · decide
      · exact isSpace_of_isDigitOf digit
    have free {code : CodeUnit} (apart : code ≠ colon) (special : isDigitOf 16 code = false) :
        code ∉ ipv6Text groups := not_mem_of_pieces digits apart special
    have noZone : percent ∉ ipv6Text groups := free (by decide) (by decide)
    refine ⟨ipv6Text groups, free (by decide) (by decide), ?_, ?_⟩
    · rw [meaning, shown, address, not_isIPv4_of_readIPv6 isRead, isRead]
      simp [unmapped, apart]
    · rw [Plain, shown]
      refine .inr (.inr ⟨groups, isRead, apart, .inr ⟨?_, .inl (zoneOf_of_free noZone), .inl ?_⟩⟩)
      · rw [zoneOf_of_free noZone]
        exact List.not_mem_nil
      · rw [bodyOf_of_free noZone]
        exact free (by decide) (by decide)

theorem rangeOf_of_free {text : JsString} (free : slash ∉ text) : rangeOf text = text := by
  have pieces : split slash text = [text] := List.splitOn_eq_singleton free
  rw [rangeOf, pieces]
  rfl

theorem prefixOf_of_free {text : JsString} (free : slash ∉ text) (size : Nat) :
    prefixOf text size = some (size * 8) := by
  have pieces : split slash text = [text] := List.splitOn_eq_singleton free
  rw [prefixOf, pieces]

theorem agree_refl (count : Nat) (bytes : List Nat) : Agree count bytes bytes := rfl

theorem meaning_of_not_plain {text : JsString} (misread : ¬ Plain text) :
    ∃ bytes, meaning text = some bytes ∧ normalize text ≠ some bytes := by
  cases meant : meaning text with
  | none =>
      refine absurd (.inl ?_) misread
      rw [meaning, address] at meant
      split at meant
      · cases meant
      · exact Option.map_eq_none_iff.mp meant
  | some bytes =>
      refine ⟨bytes, rfl, fun same => misread ((normalize_eq_iff text).mp ?_)⟩
      rw [same, meant]

/-- Two texts without a suffix match when they have the same bytes. -/
theorem whole_match {ip range : JsString} (free : slash ∉ range) :
    ipInCidr ip range = true ↔ ∃ bytes, normalize ip = some bytes ∧ normalize range = some bytes := by
  have noSuffix : bitsRaw range = none := by
    have pieces : split slash range = [range] := List.splitOn_eq_singleton free
    rw [bitsRaw, pieces]
    rfl
  rw [ipInCidr_eq_true_iff, rangeOf_of_free free, noSuffix]
  constructor
  · rintro ⟨address, bytes, isAddress, isRange, sameLength, same⟩
    obtain ⟨small, addressBound⟩ := normalize_bound isAddress
    rw [Option.map_none, Option.getD_none, sameNetwork_natCast sameLength (by omega)] at same
    obtain rfl := eq_of_agree sameLength addressBound (normalize_bound isRange).2 same
    exact ⟨address, isAddress, isRange⟩
  · rintro ⟨bytes, isAddress, isRange⟩
    exact ⟨bytes, bytes, isAddress, isRange, rfl, sameNetwork_self bytes _⟩

theorem whole_inRange {ip range : JsString} {bytes : List Nat} (free : slash ∉ range)
    (meantIp : meaning ip = some bytes) (meantRange : meaning range = some bytes) : InRange ip range := by
  refine ⟨bytes, bytes, bytes.length * 8, meantIp, ?_, rfl, prefixOf_of_free free _, agree_refl _ bytes⟩
  rw [rangeOf_of_free free, meantRange]

theorem suffixSound_of_free {range : JsString} (free : slash ∉ range) : SuffixSound range := by
  intro bytes _
  rw [prefixOf_of_free free]
  rfl

theorem plain_ip_of_right {ip : JsString}
    (right : ∀ cidr, Plain (rangeOf cidr) → SuffixSound cidr → Right ip cidr) : Plain ip := by
  by_contra misread
  obtain ⟨bytes, meant, wrong⟩ := meaning_of_not_plain misread
  obtain ⟨written, free, same, plain⟩ := exists_plain meant
  have here := right written (by rwa [rangeOf_of_free free]) (suffixSound_of_free free)
  obtain ⟨found, isIp, isWritten⟩ := (whole_match free).mp (here.mpr (whole_inRange free meant same))
  rw [(normalize_eq_iff written).mpr plain, same, Option.some.injEq] at isWritten
  exact wrong (isWritten ▸ isIp)

theorem plain_range_of_right {range : JsString} (free : slash ∉ range)
    (right : ∀ ip, Plain ip → Right ip range) : Plain range := by
  by_contra misread
  obtain ⟨bytes, meant, wrong⟩ := meaning_of_not_plain misread
  obtain ⟨written, _, same, plain⟩ := exists_plain meant
  have here := right written plain
  obtain ⟨found, isWritten, isRange⟩ := (whole_match free).mp (here.mpr (whole_inRange free same meant))
  rw [(normalize_eq_iff written).mpr plain, same, Option.some.injEq] at isWritten
  exact wrong (isWritten ▸ isRange)

/-- A text is judged right for every range if and only if it is plain, a plain range for every
address if and only if its suffix is sound, and a range without a suffix if and only if it is plain. -/
theorem ipInCidr_right_iff (ip cidr : JsString) :
    ((∀ cidr, Plain (rangeOf cidr) → SuffixSound cidr → Right ip cidr) ↔ Plain ip) ∧
      (Plain (rangeOf cidr) → ((∀ ip, Plain ip → Right ip cidr) ↔ SuffixSound cidr)) ∧
      (slash ∉ cidr → ((∀ ip, Plain ip → Right ip cidr) ↔ Plain cidr)) := by
  refine ⟨⟨plain_ip_of_right, ?_⟩, fun plainRange => ⟨suffixSound_of_right plainRange, ?_⟩,
    fun free => ⟨plain_range_of_right free, ?_⟩⟩
  · exact fun plainIp cidr plainRange sound => right_of_plain plainIp plainRange sound
  · exact fun sound ip plainIp => right_of_plain plainIp plainRange sound
  · intro plainRange ip plainIp
    exact right_of_plain plainIp (by rwa [rangeOf_of_free free]) (suffixSound_of_free free)

/-! What fails open. -/

/-- A suffix that is no positive number lets the whole family in. -/
theorem whole_family_admitted {ip cidr digits : JsString} {address range : List Nat}
    (suffix : bitsRaw cidr = some digits) (notPositive : isPositive (toNumber digits) = false)
    (isAddress : normalize ip = some address) (isRange : normalize (rangeOf cidr) = some range)
    (sameLength : address.length = range.length) : ipInCidr ip cidr = true := by
  refine ipInCidr_eq_true_iff.mpr ⟨address, range, isAddress, isRange, sameLength, ?_⟩
  rw [suffix, Option.map_some, Option.getD_some]
  cases address with
  | nil => rfl
  | cons byte address =>
      cases range with
      | nil => cases sameLength
      | cons other range => simp [sameNetwork, notPositive]

theorem malformed_prefix_admits :
    ipInCidr (js "203.0.113.7") (js "10.0.0.0/") = true ∧ ¬ InRange (js "203.0.113.7") (js "10.0.0.0/") := by
  refine ⟨by decide +kernel, ?_⟩
  rintro ⟨_, range, count, _, _, _, isPrefix, _⟩
  have pieces : split slash (js "10.0.0.0/") = [js "10.0.0.0", []] := by decide +kernel
  have numeral : isNumeral [] = false := rfl
  simp [prefixOf, pieces, numeral] at isPrefix

/-! The guard. -/

theorem mismatch_eq_zero {pairs : List (CodeUnit × CodeUnit)} {mismatch : Nat} :
    pairs.foldl (fun mismatch units => mismatch ||| (units.1.val ^^^ units.2.val)) mismatch = 0 ↔
      mismatch = 0 ∧ ∀ units ∈ pairs, units.1 = units.2 := by
  induction pairs generalizing mismatch with
  | nil => simp
  | cons units pairs ih =>
      rw [List.foldl_cons, ih, Nat.or_eq_zero_iff, Nat.xor_eq_zero_iff, List.forall_mem_cons, and_assoc,
        Fin.val_inj]

theorem timingSafeEqual_eq_true_iff {a b : JsString} : timingSafeEqual a b = true ↔ a = b := by
  rw [timingSafeEqual]
  split
  · rename_i lengths
    refine iff_of_false Bool.false_ne_true ?_
    rintro rfl
    exact lengths rfl
  · rename_i lengths
    rw [decide_eq_true_eq, mismatch_eq_zero]
    constructor
    · rintro ⟨_, same⟩
      exact List.ext_getElem (not_not.mp lengths) fun place small small' =>
        same (a[place], b[place]) (List.mem_iff_getElem.mpr ⟨place, by simp [small, small'], by simp⟩)
    · rintro rfl
      refine ⟨rfl, fun units member => ?_⟩
      obtain ⟨place, small, rfl⟩ := List.mem_iff_getElem.mp member
      simp

theorem tokenAccepted_eq_true_iff {cfg : MetricsConfig} {req : Request} : tokenAccepted cfg req = true ↔
    ∃ token, cfg.endpointBearerToken = some token ∧ token ≠ [] ∧ bearer req = some token := by
  rw [tokenAccepted]
  cases cfg.endpointBearerToken with
  | none => simp
  | some expected =>
      cases bearer req with
      | none => simp
      | some provided =>
          simp only [Bool.and_eq_true, decide_eq_true_eq, timingSafeEqual_eq_true_iff]
          constructor
          · rintro ⟨⟨filled, _⟩, rfl⟩
            exact ⟨provided, rfl, filled, rfl⟩
          · rintro ⟨token, same, filled, given⟩
            obtain rfl := Option.some.inj same
            obtain rfl := Option.some.inj given
            exact ⟨⟨filled, filled⟩, rfl⟩

/-- With plain ranges and sound suffixes only the token and the addresses of the ranges get in. -/
theorem canActivate_eq_true_iff {cfg : MetricsConfig} {req : Request}
    (plainIp : ∀ ip ∈ sourceIp req, Plain ip)
    (sound : ∀ cidr ∈ cfg.endpointAllowlistCidrs, Plain (rangeOf cidr) ∧ SuffixSound cidr) :
    canActivate cfg req = true ↔
      (∃ token, cfg.endpointBearerToken = some token ∧ token ≠ [] ∧ bearer req = some token) ∨
        ∃ ip ∈ sourceIp req, ∃ cidr ∈ cfg.endpointAllowlistCidrs, InRange ip cidr := by
  have listed (ip : JsString) (isIp : ip ∈ sourceIp req) :
      ipInAnyCidr ip cfg.endpointAllowlistCidrs = true ↔
        ∃ cidr ∈ cfg.endpointAllowlistCidrs, InRange ip cidr := by
    rw [ipInAnyCidr, List.any_eq_true]
    refine exists_congr fun cidr => and_congr_right fun member => ?_
    exact right_of_plain (plainIp ip isIp) (sound cidr member).1 (sound cidr member).2
  have nonempty {ip cidr : JsString} (within : InRange ip cidr) : ip ≠ [] := by
    rintro rfl
    obtain ⟨address, _, _, isAddress, _⟩ := within
    have nothing : meaning [] = none := by decide +kernel
    rw [nothing] at isAddress
    cases isAddress
  rw [canActivate, ← tokenAccepted_eq_true_iff]
  by_cases accepted : tokenAccepted cfg req = true
  · simp [accepted]
  · rw [if_neg accepted]
    cases source : sourceIp req with
    | none => simp [accepted]
    | some ip =>
        have isListed := listed ip source
        simp only [Bool.and_eq_true, decide_eq_true_eq, isListed, accepted, Bool.false_eq_true, false_or,
          Option.mem_def, Option.some.injEq, exists_eq_left']
        constructor
        · exact fun both => both.2
        · rintro ⟨cidr, member, within⟩
          exact ⟨nonempty within, cidr, member, within⟩

end MetricsScrape
