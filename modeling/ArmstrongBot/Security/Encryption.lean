import ArmstrongBot.Library.Base64
import ArmstrongBot.Library.Utf8

/-! `EncryptionService`: fields at rest under AES-256-GCM, and secrets kept as scrypt hashes. The
two primitives are those of Node. -/

namespace Encryption

open JsText

abbrev Bytes := List UInt8

structure Sealed where
  ciphertext : Bytes
  tag : Bytes

/-- `scrypt` with the parameters of the service, and the cipher under a key and a nonce; a decipher
that throws says so in a text. -/
structure Crypto where
  scrypt : JsString → Bytes → Nat → Bytes
  cipheriv : Bytes → Bytes → Bytes → Sealed
  decipheriv : Bytes → Bytes → Sealed → Except JsString Bytes

def ivBytes : Nat := 12

def keyBytes : Nat := 32

def hashBytes : Nat := 64

structure Crypto.Documented (crypto : Crypto) : Prop where
  scrypt_length : ∀ secret salt length, (crypto.scrypt secret salt length).length = length
  decipheriv_cipheriv : ∀ key iv plaintext, key.length = keyBytes → iv.length = ivBytes →
    crypto.decipheriv key iv (crypto.cipheriv key iv plaintext) = .ok plaintext

/-- The master key; without one in the environment it is drawn. -/
def onModuleInit (envName : JsString) (raw : Option JsString) (drawn : Bytes) :
    Except JsString Bytes :=
  match raw.filter fun text => text ≠ [] with
  | none => .ok drawn
  | some text =>
      let key := Base64.decode text
      if key.length = keyBytes then .ok key
      else
        .error (envName ++ js " must be a base64-encoded 32-byte key (got " ++
          natText key.length ++ js " bytes).")

def colon : CodeUnit := unit 58

def dollar : CodeUnit := unit 36

section

variable (crypto : Crypto)

def encrypt (key iv : Bytes) (plaintext : JsString) : JsString :=
  let box := crypto.cipheriv key iv (Utf8.encode plaintext)
  [colon].intercalate [Base64.encode iv, Base64.encode box.tag, Base64.encode box.ciphertext]

def decrypt (key : Bytes) (payload : JsString) : Except JsString JsString :=
  match split colon payload with
  | [iv, tag, data] =>
      (crypto.decipheriv key (Base64.decode iv)
        { ciphertext := Base64.decode data, tag := Base64.decode tag }).map Utf8.decode
  | _ => .error (js "Malformed ciphertext payload.")

def hash (secret : JsString) (salt : Bytes) : JsString :=
  [dollar].intercalate
    [js "scrypt", Base64.encode salt, Base64.encode (crypto.scrypt secret salt hashBytes)]

/-- Buffers of different lengths are not compared, and differ. -/
def verify (secret stored : JsString) : Bool :=
  match split dollar stored with
  | [scheme, salt, digest] =>
      if scheme = js "scrypt" then
        let expected := Base64.decode digest
        crypto.scrypt secret (Base64.decode salt) expected.length = expected
      else false
  | _ => false

end

variable {crypto : Crypto}

theorem intercalate_three (separator : CodeUnit) (first second third : JsString) :
    [separator].intercalate [first, second, third] =
      first ++ separator :: (second ++ separator :: third) := by
  simp [List.intercalate_cons_cons, List.intercalate_singleton]

theorem onModuleInit_configured {envName raw : JsString} {drawn key : Bytes} (configured : raw ≠ [])
    (started : onModuleInit envName (some raw) drawn = .ok key) :
    key = Base64.decode raw ∧ key.length = keyBytes := by
  rw [onModuleInit, Option.filter_some, if_pos (by simpa using configured)] at started
  dsimp only at started
  split at started
  · rename_i fits
    obtain rfl := Except.ok.inj started
    exact ⟨rfl, fits⟩
  · cases started

theorem decrypt_encrypt (documented : crypto.Documented) {key iv : Bytes}
    (isKey : key.length = keyBytes) (isIv : iv.length = ivBytes) (plaintext : JsString) :
    decrypt crypto key (encrypt crypto key iv plaintext) =
      .ok (Utf8.decode (Utf8.encode plaintext)) := by
  simp only [decrypt, encrypt, intercalate_three]
  rw [Base64.split_encoded (by decide) (by decide)
    (Base64.not_mem_encode (by decide) (by decide) iv)]
  simp only [Base64.decode_encode, documented.decipheriv_cipheriv key iv _ isKey isIv]
  rfl

/-- Under a configured key what was encrypted is read back after any restart, as it was unless it
has an unpaired surrogate. -/
theorem decrypt_after_restart (documented : crypto.Documented) {envName raw : JsString}
    {drawn again key other iv : Bytes} (configured : raw ≠ [])
    (started : onModuleInit envName (some raw) drawn = .ok key)
    (restarted : onModuleInit envName (some raw) again = .ok other)
    (isIv : iv.length = ivBytes) (plaintext : JsString) :
    decrypt crypto other (encrypt crypto key iv plaintext) = .ok plaintext ↔
      Utf8.Paired plaintext := by
  obtain ⟨isKey, length⟩ := onModuleInit_configured configured started
  obtain ⟨isOther, _⟩ := onModuleInit_configured configured restarted
  rw [isOther, ← isKey, decrypt_encrypt documented length isIv, Except.ok.injEq]
  exact Utf8.decode_encode_iff

/-- A cipher that hides nothing, and knows its key by the tag. -/
def plainCrypto : Crypto :=
  { scrypt := fun _ _ length => List.replicate length 0
    cipheriv := fun key _ plaintext => { ciphertext := plaintext, tag := key.take 16 }
    decipheriv := fun key _ box =>
      if box.tag = key.take 16 then .ok box.ciphertext
      else .error (js "Unsupported state or unable to authenticate data") }

theorem plainCrypto_documented : plainCrypto.Documented where
  scrypt_length _ _ _ := List.length_replicate
  decipheriv_cipheriv _ _ _ _ _ := if_pos rfl

def sampleKey : Bytes := List.replicate keyBytes 7

theorem decrypt_after_restart_token :
    decrypt plainCrypto sampleKey
        (encrypt plainCrypto sampleKey (List.replicate ivBytes 1) (js "token")) = .ok (js "token") ↔
      Utf8.Paired (js "token") := by
  have started : onModuleInit (js "APP_ENCRYPTION_KEY") (some (Base64.encode sampleKey)) [] =
      .ok sampleKey := rfl
  exact decrypt_after_restart plainCrypto_documented (by decide +kernel) started started
    List.length_replicate (js "token")

/-- A hash verifies the secrets that scrypt does not tell from its own. -/
theorem verify_hash (documented : crypto.Documented) (secret other : JsString) (salt : Bytes) :
    verify crypto other (hash crypto secret salt) = true ↔
      crypto.scrypt other salt hashBytes = crypto.scrypt secret salt hashBytes := by
  simp only [verify, hash, intercalate_three]
  rw [Base64.split_encoded (by decide) (by decide) (by decide)]
  simp [Base64.decode_encode, documented.scrypt_length]

end Encryption
