import ArmstrongBot.Library.Utf8
import ArmstrongBot.Library.JsMethods
import ArmstrongBot.Library.JsNumber
import ArmstrongBot.Webhooks.Verification

/-! The two checks of a `Stripe-Signature` header: `verifyStripe` of the API ingress, and
`StripeVerifier` of the webhook module. -/

namespace Webhooks

open JsText
open JsNumber (cut)
open JsJson (hexDigit)
open Calendar (Timestamp)

/-- What the keyed hash gives: SHA-256 digests. -/
abbrev Digest := { bytes : Bytes // bytes.length = 32 }

def stripeHeader : JsString := js "stripe-signature"

def comma : CodeUnit := unit 0x2C

def equalsSign : CodeUnit := unit 0x3D

/-! The API ingress. -/

/-- `[k.trim(), v]` of a part; where it has no `=` the value is undefined. -/
def stripeEntry (part : JsString) : JsString × Option JsString :=
  let pieces := split equalsSign part
  (trim (pieces.headD []), pieces[1]?)

def stripeParts (value : JsString) : Record (JsString × Option JsString) :=
  Record.ofList Prod.fst ((split comma value).map stripeEntry)

/-- `parts[name]`, where it counts as true. -/
def stripePart (value name : JsString) : Option JsString :=
  ((stripeParts value name).bind Prod.snd).filter fun text => text ≠ []

/-- The bytes of `${timestamp}.${rawBody.toString('utf8')}`. -/
def decodedPayload (timestamp : JsString) (rawBody : Bytes) : Bytes :=
  Utf8.encode (timestamp ++ js "." ++ Utf8.decode rawBody)

def safeEqual (first second : JsString) : Bool := decide (Utf8.encode first = Utf8.encode second)

def verifyStripe (hmac : JsString → Bytes → Digest) (secret : JsString) (rawBody : Bytes)
    (value : JsString) : Bool :=
  if value = [] ∨ secret = [] then false
  else
    match stripePart value (js "t"), stripePart value (js "v1") with
    | some timestamp, some provided =>
        safeEqual provided (toHex (hmac secret (decodedPayload timestamp rawBody)).val)
    | _, _ => false

/-! The webhook module. -/

/-- The timestamp read last, as a number and as it was received, and the v1 candidates. -/
structure StripeSignatureParts where
  timestamp : Option (Int × JsString)
  v1 : List JsString

section

variable (number : JsString → Option Int)

/-- The turn of `parseSignatureHeader` for one segment; `number` is `Number(value)` where that is
an integer. -/
def readSegment (parts : StripeSignatureParts) (segment : JsString) : StripeSignatureParts :=
  if segment.contains equalsSign then
    let key := trim (cut equalsSign segment).1
    let value := trim (cut equalsSign segment).2
    if key = js "t" then
      match number value with
      | some parsed => if 0 < parsed then { parts with timestamp := some (parsed, value) } else parts
      | none => parts
    else if key = js "v1" ∧ value ≠ [] then { parts with v1 := parts.v1 ++ [value] }
    else parts
  else parts

def readHeader (value : JsString) : StripeSignatureParts :=
  (split comma value).foldl (readSegment number) { timestamp := none, v1 := [] }

def parseSignatureHeader (value : JsString) : Except JsString ((Int × JsString) × List JsString) :=
  match (readHeader number value).timestamp, (readHeader number value).v1 with
  | some timestamp, v1 =>
      if v1 = [] then .error (signatureInvalid (js "malformed signature header"))
      else .ok (timestamp, v1)
  | none, _ => .error (signatureInvalid (js "malformed signature header"))

/-- The bytes of `${timestampRaw}.` and the raw body. -/
def rawPayload (timestampRaw : JsString) (rawBody : Bytes) : Bytes :=
  Utf8.encode (timestampRaw ++ js ".") ++ rawBody

def hexMatches (expected : Digest) (providedHex : JsString) : Bool :=
  decide (fromHex providedHex = expected.val)

def withinTolerance (tolerance : Nat) (timestamp : Int) (now : Timestamp) : Bool :=
  let nowSeconds : Int := now / 1000
  decide ((nowSeconds - timestamp).natAbs ≤ tolerance)

def stripeVerify (hmac : JsString → Bytes → Digest) (context : VerificationContext)
    (now : Timestamp) : Except JsString Unit :=
  if context.signingSecret = [] then
    .error (signatureInvalid (js "signing secret not configured"))
  else
    match (header context.headers stripeHeader).filter fun value => value ≠ [] with
    | none => .error (signatureInvalid (js "missing signature header"))
    | some value =>
        match parseSignatureHeader number value with
        | .error reason => .error reason
        | .ok ((timestamp, timestampRaw), v1) =>
            if withinTolerance context.toleranceSeconds timestamp now then
              let expected := hmac context.signingSecret (rawPayload timestampRaw context.rawBody)
              if v1.any (hexMatches expected) then .ok ()
              else .error (signatureInvalid (js "signature mismatch"))
            else .error (signatureInvalid (js "timestamp outside tolerance"))

end

/-! What each of the two asks of the keyed hash. -/

def digestOf (bytes : Bytes) : Option Digest :=
  if length : bytes.length = 32 then some ⟨bytes, length⟩ else none

/-- The digest that a text spells in lower case. -/
def spelled (text : JsString) : Option Digest :=
  (digestOf (fromHex text)).filter fun digest => toHex digest.val = text

/-- The bytes that `verifyStripe` has signed, and the digest that it wants for them. -/
def decodedRequest (secret : JsString) (rawBody : Bytes) (value : JsString) :
    Option (Bytes × Digest) :=
  if value = [] ∨ secret = [] then none
  else do
    let timestamp ← stripePart value (js "t")
    let provided ← stripePart value (js "v1")
    let digest ← spelled provided
    return (decodedPayload timestamp rawBody, digest)

/-- The digests that the candidates decode to. -/
def candidatesOf (v1 : List JsString) : List Digest :=
  v1.filterMap fun candidate => digestOf (fromHex candidate)

/-- The bytes that `StripeVerifier` has signed, and the digests any of which it takes for them;
nothing where the header is malformed or its timestamp is not fresh. -/
def rawRequest (number : JsString → Option Int) (tolerance : Nat) (secret : JsString)
    (rawBody : Bytes) (value : JsString) (now : Timestamp) : Option (Bytes × List Digest) :=
  if value = [] ∨ secret = [] then none
  else do
    let parts := readHeader number value
    let (timestamp, timestampRaw) ← parts.timestamp
    if withinTolerance tolerance timestamp now ∧ candidatesOf parts.v1 ≠ [] then
      return (rawPayload timestampRaw rawBody, candidatesOf parts.v1)
    else none

/-- Neither asks for anything, or both have the same bytes signed and want the same digest. -/
def AskAlike (number : JsString → Option Int) (tolerance : Nat) (secret : JsString)
    (rawBody : Bytes) (value : JsString) (now : Timestamp) : Prop :=
  match decodedRequest secret rawBody value, rawRequest number tolerance secret rawBody value now with
  | none, none => True
  | some (decoded, digest), some (raw, candidates) =>
      decoded = raw ∧ ∀ candidate ∈ candidates, candidate = digest
  | _, _ => False

def stripeContext (tolerance : Nat) (secret : JsString) (rawBody : Bytes) (value : JsString) :
    VerificationContext :=
  { rawBody, headers := [(stripeHeader, value)], signingSecret := secret
    toleranceSeconds := tolerance }

/-- Whatever the keyed hash is, both accept or none does. -/
def SameVerdict (number : JsString → Option Int) (tolerance : Nat) (secret : JsString)
    (rawBody : Bytes) (value : JsString) (now : Timestamp) : Prop :=
  ∀ hmac, verifyStripe hmac secret rawBody value = true ↔
    stripeVerify number hmac (stripeContext tolerance secret rawBody value) now = .ok ()

theorem hexDigit_ascii {value : Nat} (bound : value < 16) : (hexDigit value).val < 0x80 := by
  unfold hexDigit
  split
  · rw [unit_val (by omega)]
    omega
  · rw [unit_val (by omega)]
    omega

theorem toHex_ascii (bytes : Bytes) : Utf8.IsAscii (toHex bytes) := by
  intro code member
  obtain ⟨byte, _, isDigit⟩ := List.mem_flatMap.mp member
  have bound := byte.toNat_lt
  rcases List.mem_pair.mp isDigit with rfl | rfl
  · exact hexDigit_ascii (by omega)
  · exact hexDigit_ascii (by omega)

theorem digestOf_some {bytes : Bytes} {digest : Digest} :
    digestOf bytes = some digest ↔ bytes = digest.val := by
  unfold digestOf
  split
  · rename_i length
    rw [Option.some.injEq]
    exact ⟨fun same => congrArg Subtype.val same, fun same => Subtype.ext same⟩
  · rename_i length
    refine iff_of_false (by simp) ?_
    rintro rfl
    exact length digest.property

theorem spelled_some {text : JsString} {digest : Digest} :
    spelled text = some digest ↔ text = toHex digest.val := by
  rw [spelled, Option.filter_eq_some_iff, digestOf_some, decide_eq_true_eq]
  constructor
  · rintro ⟨_, same⟩
    exact same.symm
  · rintro rfl
    exact ⟨fromHex_toHex _, rfl⟩

theorem safeEqual_toHex {text : JsString} {digest : Digest} :
    safeEqual text (toHex digest.val) = true ↔ spelled text = some digest := by
  rw [safeEqual, decide_eq_true_eq, Utf8.encode_eq_ascii (toHex_ascii _), spelled_some]

section

variable {hmac : JsString → Bytes → Digest} {number : JsString → Option Int} {tolerance : Nat}
  {secret : JsString} {rawBody : Bytes} {value : JsString} {now : Timestamp}

theorem verifyStripe_iff : verifyStripe hmac secret rawBody value = true ↔
    ∃ message digest, decodedRequest secret rawBody value = some (message, digest) ∧
      hmac secret message = digest := by
  unfold verifyStripe decodedRequest
  split
  · simp
  · cases hasTimestamp : stripePart value (js "t") with
    | none => simp
    | some timestamp =>
        cases hasProvided : stripePart value (js "v1") with
        | none => simp
        | some provided =>
            simp only [safeEqual_toHex]
            cases spelling : spelled provided with
            | none => simp [spelling]
            | some digest => simp [spelling, eq_comm]

theorem any_hexMatches {v1 : List JsString} {expected : Digest} :
    v1.any (hexMatches expected) = true ↔ expected ∈ candidatesOf v1 := by
  simp [candidatesOf, hexMatches, digestOf_some]

theorem stripeVerify_iff :
    stripeVerify number hmac (stripeContext tolerance secret rawBody value) now = .ok () ↔
      ∃ message candidates, rawRequest number tolerance secret rawBody value now =
        some (message, candidates) ∧ hmac secret message ∈ candidates := by
  have sent : header [(stripeHeader, value)] stripeHeader = some value := by simp [header]
  unfold stripeVerify rawRequest
  simp only [stripeContext, sent]
  by_cases noSecret : secret = []
  · simp [noSecret]
  by_cases noValue : value = []
  · have filtered : (some value).filter (fun value => decide (value ≠ [])) = none := by
      simp [noValue]
    simp only [filtered]
    simp [noSecret, noValue]
  have filtered : (some value).filter (fun value => decide (value ≠ [])) = some value := by
    simp [noValue]
  rw [if_neg noSecret, if_neg (not_or.mpr ⟨noValue, noSecret⟩)]
  simp only [filtered, parseSignatureHeader]
  cases hasTimestamp : (readHeader number value).timestamp with
  | none => simp
  | some timestamp =>
      obtain ⟨parsed, timestampRaw⟩ := timestamp
      by_cases noCandidate : (readHeader number value).v1 = []
      · simp [noCandidate, candidatesOf]
      by_cases fresh : withinTolerance tolerance parsed now = true
      · simp only [noCandidate, fresh, any_hexMatches, if_true, if_false, Option.bind_eq_bind,
          Option.bind_some, true_and]
        by_cases asked : candidatesOf (readHeader number value).v1 = []
        · simp [asked]
        · rw [if_pos asked]
          simp [Option.pure_def]
      · simp [noCandidate, fresh]

theorem rawRequest_candidates {message : Bytes} {candidates : List Digest}
    (asks : rawRequest number tolerance secret rawBody value now = some (message, candidates)) :
    candidates ≠ [] := by
  unfold rawRequest at asks
  split at asks
  · cases asks
  · obtain ⟨⟨parsed, timestampRaw⟩, _, accepted⟩ := Option.bind_eq_some_iff.mp asks
    obtain ⟨⟨_, asked⟩, isRequest⟩ := Option.ite_none_right_eq_some.mp accepted
    rw [← (Prod.mk.inj (Option.some.inj isRequest)).2]
    exact asked

end

theorem other_digest (digest : Digest) : ∃ other : Digest, other ≠ digest := by
  by_cases zeros : digest = ⟨List.replicate 32 0, by simp⟩
  · refine ⟨⟨List.replicate 32 1, by simp⟩, ?_⟩
    rw [zeros]
    decide
  · exact ⟨_, Ne.symm zeros⟩

/-- Some keyed hash tells two requests apart that differ in their bytes or their digests. -/
theorem same_answers_iff (secret : JsString) {decoded raw : Bytes} {digest : Digest}
    {candidates : List Digest} (asked : candidates ≠ []) :
    (∀ hmac : JsString → Bytes → Digest,
      hmac secret decoded = digest ↔ hmac secret raw ∈ candidates) ↔
      decoded = raw ∧ ∀ candidate ∈ candidates, candidate = digest := by
  constructor
  · intro same
    have only : ∀ candidate ∈ candidates, candidate = digest := fun candidate member =>
      (same fun _ _ => candidate).mpr member
    refine ⟨?_, only⟩
    obtain ⟨other, isOther⟩ := other_digest digest
    have answered := (same fun _ message => if message = decoded then digest else other).mp (if_pos rfl)
    by_contra apart
    simp only [if_neg (Ne.symm apart)] at answered
    exact isOther (only other answered)
  · rintro ⟨rfl, only⟩ hmac
    constructor
    · rintro rfl
      obtain ⟨candidate, member⟩ := List.exists_mem_of_ne_nil _ asked
      rw [← only candidate member]
      exact member
    · exact only _

/-- The two accept the same requests exactly where they ask the same of the keyed hash. -/
theorem same_verdict_iff (number : JsString → Option Int) (tolerance : Nat) (secret : JsString)
    (rawBody : Bytes) (value : JsString) (now : Timestamp) :
    SameVerdict number tolerance secret rawBody value now ↔
      AskAlike number tolerance secret rawBody value now := by
  simp only [SameVerdict, verifyStripe_iff, stripeVerify_iff]
  unfold AskAlike
  cases decodes : decodedRequest secret rawBody value with
  | none =>
      cases reads : rawRequest number tolerance secret rawBody value now with
      | none => simp
      | some request =>
          obtain ⟨raw, candidates⟩ := request
          obtain ⟨candidate, member⟩ := List.exists_mem_of_ne_nil _ (rawRequest_candidates reads)
          refine iff_of_false (fun same => ?_) id
          obtain ⟨_, _, asks, _⟩ := (same fun _ _ => candidate).mpr ⟨raw, candidates, rfl, member⟩
          cases asks
  | some request =>
      obtain ⟨decoded, digest⟩ := request
      cases reads : rawRequest number tolerance secret rawBody value now with
      | none =>
          refine iff_of_false (fun same => ?_) id
          obtain ⟨_, _, asks, _⟩ := (same fun _ _ => digest).mp ⟨decoded, digest, rfl, rfl⟩
          cases asks
      | some request =>
          obtain ⟨raw, candidates⟩ := request
          simp only [Option.some.injEq, Prod.mk.injEq, ↓existsAndEq, and_true, true_and]
          rw [← same_answers_iff secret (rawRequest_candidates reads)]
          simp only [eq_comm]

/-! A request signed at second 1700000000, under a keyed hash that always gives zeros. -/

def zeroDigest : Digest := ⟨List.replicate 32 0, by decide⟩

/-- `Number` as far as it reads decimal digits. -/
def wholeNumber (text : JsString) : Option Int :=
  if text ≠ [] ∧ text.all isDigit then some (readNat text) else none

def signedValue : JsString := js "t=1700000000,v1=" ++ toHex zeroDigest.val

/-- Ten minutes later `verifyStripe` still accepts the request; and at once it refuses one that has
a second signature after the valid one. -/
theorem verdicts_differ :
    ¬ SameVerdict wholeNumber 300 (js "whsec") [] signedValue 1700000600000 ∧
      ¬ SameVerdict wholeNumber 300 (js "whsec") []
        (signedValue ++ js ",v1=00") 1700000000000 := by
  constructor
  · intro same
    have accepts := (same fun _ _ => zeroDigest).mp (by decide +kernel)
    exact absurd accepts (by decide +kernel)
  · intro same
    have accepts := (same fun _ _ => zeroDigest).mpr (by decide +kernel)
    exact absurd accepts (by decide +kernel)

end Webhooks
