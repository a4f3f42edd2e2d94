import ArmstrongBot.Webhooks.Ingress

/-! Signature verifiers over the raw bytes, for a keyed hash `hmac`. -/

namespace Webhooks

open JsText
open JsJson (hexDigit)

structure VerificationContext where
  rawBody : Bytes
  headers : Headers
  signingSecret : JsString
  toleranceSeconds : Nat

/-- What `SignatureInvalidError` says. -/
def signatureInvalid (reason : JsString) : JsString :=
  js "webhook signature verification failed: " ++ reason

def hexDigitValue (code : CodeUnit) : Option Nat :=
  if 48 ≤ code.val ∧ code.val ≤ 57 then some (code.val - 48)
  else if 97 ≤ code.val ∧ code.val ≤ 102 then some (code.val - 87)
  else if 65 ≤ code.val ∧ code.val ≤ 70 then some (code.val - 55)
  else none

/-- `Buffer.from(text, 'hex')`: it ends at the first pair that is not hexadecimal. -/
def fromHex : JsString → Bytes
  | high :: low :: rest =>
      match hexDigitValue high, hexDigitValue low with
      | some highValue, some lowValue => UInt8.ofNat (16 * highValue + lowValue) :: fromHex rest
      | _, _ => []
  | _ => []

/-- `digest('hex')` -/
def toHex (bytes : Bytes) : JsString :=
  bytes.flatMap fun byte => [hexDigit (byte.toNat / 16), hexDigit (byte.toNat % 16)]

theorem hexDigitValue_hexDigit {value : Nat} (bound : value < 16) :
    hexDigitValue (hexDigit value) = some value := by
  unfold hexDigit
  split
  · simp only [hexDigitValue, unit_val (show 48 + value < 65536 by omega)]
    rw [if_pos (by omega)]
    simp
  · simp only [hexDigitValue, unit_val (show 87 + value < 65536 by omega)]
    rw [if_neg (by omega), if_pos (by omega)]
    simp

theorem fromHex_toHex (bytes : Bytes) : fromHex (toHex bytes) = bytes := by
  induction bytes with
  | nil => rfl
  | cons byte rest ih =>
      have bound := byte.toNat_lt
      rw [toHex, List.flatMap_cons, ← toHex]
      simp only [List.cons_append, List.nil_append, fromHex,
        hexDigitValue_hexDigit (show byte.toNat / 16 < 16 by omega),
        hexDigitValue_hexDigit (show byte.toNat % 16 < 16 by omega), ih]
      rw [Nat.div_add_mod, UInt8.ofNat_toNat]

def signaturePrefix : JsString := js "sha256="

section

variable (hmac : JsString → Bytes → Bytes)

def assertHexMatches (expected : Bytes) (providedHex : JsString) : Except JsString Unit :=
  if fromHex providedHex = expected then .ok ()
  else .error (signatureInvalid (js "signature mismatch"))

def githubVerify (context : VerificationContext) : Except JsString Unit :=
  if context.signingSecret = [] then
    .error (signatureInvalid (js "signing secret not configured"))
  else
    match header context.headers (js "x-hub-signature-256") with
    | some value =>
        if signaturePrefix.isPrefixOf value then
          assertHexMatches (hmac context.signingSecret context.rawBody)
            (value.drop signaturePrefix.length)
        else .error (signatureInvalid (js "missing or malformed signature header"))
    | none => .error (signatureInvalid (js "missing or malformed signature header"))

def signatureHeaders : List JsString := [js "x-signature-256", js "x-webhook-signature"]

/-- `extractSignature`: the first of the two headers that carries a value. -/
def extractSignature (headers : Headers) : Option JsString :=
  signatureHeaders.findSome? fun name => do
    let raw ← header headers name
    let value := if signaturePrefix.isPrefixOf raw then raw.drop signaturePrefix.length else raw
    if value = [] then none else some value

/-- `HmacSharedSecretVerifier.verify`, for FiveM and custom endpoints. -/
def sharedSecretVerify (context : VerificationContext) : Except JsString Unit :=
  if context.signingSecret = [] then
    .error (signatureInvalid (js "signing secret not configured"))
  else
    match extractSignature context.headers with
    | some providedHex =>
        assertHexMatches (hmac context.signingSecret context.rawBody) providedHex
    | none => .error (signatureInvalid (js "missing or malformed signature header"))

end

end Webhooks
