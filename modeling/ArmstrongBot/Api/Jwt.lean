import ArmstrongBot.Library.Base64Url
import ArmstrongBot.Library.JsNumberValues
import ArmstrongBot.Library.JsonParse

/-! `JwtService`: the tokens it signs, and the tokens it accepts. -/

namespace Jwt

open JsText JsJson
open JsNumber (Number ofInt_le numberText readNumber readNumber_numberText)
open Utf8 (IsAscii encode_eq_ascii)

inductive ActorType
  | user
  | service
  deriving DecidableEq

def ActorType.text : ActorType → JsString
  | .user => js "user"
  | .service => js "service"

structure JwtSignInput where
  sub : JsString
  type : ActorType
  name : JsString
  scopes : List JsString
  guilds : List JsString

structure JwtClaims extends JwtSignInput where
  iss : JsString
  iat : Int
  exp : Int

structure JwtConfig where
  issuer : JsString
  accessTtlSeconds : Int

/-- The claims as an object, in the order of the interface. -/
def JwtClaims.fields (claims : JwtClaims) : Fields :=
  [(js "sub", .str claims.sub), (js "type", .str claims.type.text), (js "name", .str claims.name),
    (js "scopes", .arr (claims.scopes.map .str)), (js "guilds", .arr (claims.guilds.map .str)),
    (js "iss", .str claims.iss), (js "iat", .num (.ofInt claims.iat)),
    (js "exp", .num (.ofInt claims.exp))]

def JwtClaims.json (claims : JwtClaims) : Json := .obj claims.fields

def header : Json := .obj [(js "alg", .str (js "HS256")), (js "typ", .str (js "JWT"))]

def dot : CodeUnit := unit 46

def b64url (input : JsString) : JsString := Base64Url.encode (Utf8.encode input)

def payload (config : JwtConfig) (input : JwtSignInput) (nowSeconds : Int) : JwtClaims :=
  { input with iss := config.issuer, iat := nowSeconds
               exp := nowSeconds + config.accessTtlSeconds }

/-- The string `${head}.${body}` that `sign` puts the signature under. -/
def signingInput (config : JwtConfig) (input : JwtSignInput) (nowSeconds : Int) : JsString :=
  b64url (stringify header) ++ dot :: b64url (stringify (payload config input nowSeconds).json)

def constantTimeEquals (left right : JsString) : Bool := Utf8.encode left == Utf8.encode right

/-- A property that no prototype has; of a value that is no object nothing is read. -/
def property (value : Json) (key : JsString) : Option Json :=
  match value with
  | .obj fields => fields.lookup key
  | _ => none

section

-- HMAC-SHA256 under the secret, and the number that a JSON literal stands for
variable (hmac : List UInt8 → List UInt8) (number : JsString → Option Number)

def signature (data : JsString) : JsString := Base64Url.encode (hmac (Utf8.encode data))

def sign (config : JwtConfig) (input : JwtSignInput) (nowSeconds : Int) : JsString :=
  signingInput config input nowSeconds ++ dot :: signature hmac (signingInput config input nowSeconds)

/-- What is read of the body once the signature is right. -/
def readClaims (config : JwtConfig) (body : JsString) (nowSeconds : Int) : Option Json :=
  match parse number (Utf8.decode (Base64Url.decode body)) with
  | none => none
  | some claims =>
      match property claims (js "iss"), property claims (js "exp") with
      | some (.str iss), some (.num exp) =>
          if iss = config.issuer then
            if exp.le (.ofInt nowSeconds) then none else some claims
          else none
      | _, _ => none

def verify (config : JwtConfig) (token : JsString) (nowSeconds : Int) : Option Json :=
  match split dot token with
  | [head, body, tag] =>
      if constantTimeEquals tag (signature hmac (head ++ dot :: body)) then
        readClaims number config body nowSeconds
      else none
  | _ => none

end

/-! What is signed is read back. -/

theorem dot_not_mem_b64url (input : JsString) : dot ∉ b64url input := Base64Url.encode_no_dot _

theorem dot_not_mem_signature {hmac : List UInt8 → List UInt8} (data : JsString) :
    dot ∉ signature hmac data := Base64Url.encode_no_dot _

theorem constantTimeEquals_refl (text : JsString) : constantTimeEquals text text = true :=
  beq_self_eq_true (Utf8.encode text)

theorem signingInput_ascii (config : JwtConfig) (input : JwtSignInput) (now : Int) :
    IsAscii (signingInput config input now) := by
  intro code member
  rcases List.mem_append.mp member with inHead | inRest
  · exact Base64Url.encode_ascii _ code inHead
  · rcases List.mem_cons.mp inRest with rfl | inBody
    · decide
    · exact Base64Url.encode_ascii _ code inBody

theorem split_two {left right : JsString} (leftFree : dot ∉ left) :
    split dot (left ++ dot :: right) = left :: split dot right := by
  rw [split, List.splitOn_append_cons_self, List.splitOn_eq_singleton leftFree]
  rfl

theorem split_one {text : JsString} (free : dot ∉ text) : split dot text = [text] :=
  List.splitOn_eq_singleton free

theorem json_rebuild (claims : JwtClaims) : rebuild claims.json = claims.json := by
  have items (texts : List JsString) : rebuildItems (texts.map .str) = texts.map .str := by
    induction texts with
    | nil => rfl
    | cons text texts ih => simp only [List.map_cons, rebuildItems, rebuild, ih]
  have values : rebuildFields claims.fields = claims.fields := by
    simp only [JwtClaims.fields, rebuildFields, rebuild, items]
  have keysOf : keys claims.fields = [js "sub", js "type", js "name", js "scopes", js "guilds",
      js "iss", js "iat", js "exp"] := rfl
  rw [JwtClaims.json, rebuild, values, foldl_define]
  · rw [keysOf]
    decide +kernel
  · rw [keysOf]
    exact List.forall_iff_forall_mem.mp (by decide +kernel)

section

variable {hmac : List UInt8 → List UInt8} {number : JsString → Option Number}
  (reads : ∀ value, number (numberText value) = some value)
include reads

theorem readClaims_body (config signer : JwtConfig) (input : JwtSignInput) (signedAt now : Int) :
    readClaims number config (b64url (stringify (payload signer input signedAt).json)) now =
      if signer.issuer = config.issuer then
        if now < signedAt + signer.accessTtlSeconds then some (payload signer input signedAt).json
        else none
      else none := by
  have read : parse number (Utf8.decode (Base64Url.decode
      (b64url (stringify (payload signer input signedAt).json)))) =
      some (payload signer input signedAt).json := by
    rw [b64url, Base64Url.decode_encode, Utf8.decode_encode (paired_stringify _),
      parse_stringify reads, json_rebuild]
  have iss : property (payload signer input signedAt).json (js "iss") = some (.str signer.issuer) := rfl
  have exp : property (payload signer input signedAt).json (js "exp") =
      some (.num (.ofInt (signedAt + signer.accessTtlSeconds))) := rfl
  rw [readClaims, read]
  simp only [iss, exp, ofInt_le]
  split
  · by_cases unexpired : now < signedAt + signer.accessTtlSeconds
    · rw [if_pos unexpired, if_neg (by simpa using unexpired)]
    · rw [if_neg unexpired, if_pos (by simpa using unexpired)]
  · rfl

theorem verify_sign (config : JwtConfig) (input : JwtSignInput) (signedAt now : Int) :
    verify hmac number config (sign hmac config input signedAt) now =
      if now < signedAt + config.accessTtlSeconds then some (payload config input signedAt).json
      else none := by
  have parts : split dot (sign hmac config input signedAt) =
      [b64url (stringify header), b64url (stringify (payload config input signedAt).json),
        signature hmac (signingInput config input signedAt)] := by
    rw [sign, signingInput, List.append_assoc, List.cons_append, split_two (dot_not_mem_b64url _),
      split_two (dot_not_mem_b64url _), split_one (dot_not_mem_signature _)]
  rw [verify, parts]
  simp only []
  rw [← signingInput, if_pos (constantTimeEquals_refl _), readClaims_body reads config config,
    if_pos rfl]

end

/-! What is accepted was signed. -/

/-- A call of `sign` with the secret. -/
structure Issue where
  config : JwtConfig
  input : JwtSignInput
  nowSeconds : Int

def Issue.signingInput (issue : Issue) : JsString :=
  Jwt.signingInput issue.config issue.input issue.nowSeconds

/-- The tag that the token carries is the tag of no bytes but those that were signed. -/
def Unforgeable (hmac : List UInt8 → List UInt8) (issued : List Issue) (token : JsString) : Prop :=
  ∀ head body tag, split dot token = [head, body, tag] → ∀ bytes, tag = Base64Url.encode (hmac bytes) →
    ∃ issue ∈ issued, Utf8.encode issue.signingInput = bytes

section

variable {hmac : List UInt8 → List UInt8} {number : JsString → Option Number}

theorem verify_some {config : JwtConfig} {token : JsString} {now : Int} {claims : Json}
    (accepted : verify hmac number config token now = some claims) :
    ∃ head body, split dot token = [head, body, signature hmac (head ++ dot :: body)] ∧
      readClaims number config body now = some claims := by
  unfold verify at accepted
  split at accepted
  · rename_i head body tag parts
    split at accepted
    · rename_i equal
      have ascii : IsAscii (signature hmac (head ++ dot :: body)) := Base64Url.encode_ascii _
      have same := (encode_eq_ascii ascii).mp (eq_of_beq equal)
      exact ⟨head, body, by rw [parts, same], accepted⟩
    · cases accepted
  · cases accepted

theorem token_of_split {token head body tag : JsString} (parts : split dot token = [head, body, tag]) :
    token = head ++ dot :: (body ++ dot :: tag) := by
  have whole : [dot].intercalate (split dot token) = token := List.intercalate_splitOn dot
  rw [← whole, parts]
  simp [List.intercalate]

theorem verify_issued (reads : ∀ value, number (numberText value) = some value) {config : JwtConfig}
    {issued : List Issue} {token : JsString} (unforgeable : Unforgeable hmac issued token)
    {now : Int} {claims : Json} (accepted : verify hmac number config token now = some claims) :
    ∃ issue ∈ issued, issue.config.issuer = config.issuer ∧
      token = sign hmac issue.config issue.input issue.nowSeconds := by
  obtain ⟨head, body, parts, read⟩ := verify_some accepted
  obtain ⟨issue, member, signed⟩ := unforgeable head body _ parts _ rfl
  have same := (encode_eq_ascii
    (signingInput_ascii issue.config issue.input issue.nowSeconds)).mp signed.symm
  have headFree : dot ∉ head := not_mem_split (by rw [parts]; exact List.mem_cons_self)
  have bodyFree : dot ∉ body := not_mem_split (by rw [parts]; simp)
  have bodies := congrArg (split dot) same
  rw [signingInput, split_two headFree, split_one bodyFree, split_two (dot_not_mem_b64url _),
    split_one (dot_not_mem_b64url _)] at bodies
  have sameBody : body = _ := (List.cons.inj (List.cons.inj bodies).2).1
  refine ⟨issue, member, ?_, ?_⟩
  · rw [sameBody, readClaims_body reads config issue.config] at read
    by_contra other
    rw [if_neg other] at read
    cases read
  · rw [sign, ← same, token_of_split parts, List.append_assoc]
    rfl

end

theorem verify_exact (hmac : List UInt8 → List UInt8) (number : JsString → Option Number)
    (reads : ∀ value, number (numberText value) = some value) :
    (∀ (config : JwtConfig) (input : JwtSignInput) (signedAt now : Int),
      verify hmac number config (sign hmac config input signedAt) now =
        if now < signedAt + config.accessTtlSeconds then some (payload config input signedAt).json
        else none) ∧
    ∀ (config : JwtConfig) (issued : List Issue) (token : JsString),
      Unforgeable hmac issued token →
      ∀ (now : Int) (claims : Json), verify hmac number config token now = some claims →
        ∃ issue ∈ issued, issue.config.issuer = config.issuer ∧
          token = sign hmac issue.config issue.input issue.nowSeconds :=
  ⟨verify_sign reads, fun _ _ _ unforgeable _ _ accepted => verify_issued reads unforgeable accepted⟩

/-! A token of a quarter of an hour, under a keyed hash with a tag of its own for the token. -/

def ghostConfig : JwtConfig := { issuer := js "ghost-bot", accessTtlSeconds := 900 }

def ticketsInput : JwtSignInput :=
  { sub := js "user-1", type := .service, name := js "svc", scopes := [js "tickets.read"]
    guilds := [js "g1"] }

def ticketsIssue : Issue := { config := ghostConfig, input := ticketsInput, nowSeconds := 1000 }

def ticketsHmac (bytes : List UInt8) : List UInt8 :=
  if bytes = Utf8.encode ticketsIssue.signingInput then List.replicate 32 0 else List.replicate 32 1

def ticketsToken : JsString := sign ticketsHmac ghostConfig ticketsInput 1000

theorem tickets_unforgeable : Unforgeable ticketsHmac [ticketsIssue] ticketsToken := by
  have tag : signature ticketsHmac (signingInput ghostConfig ticketsInput 1000) =
      Base64Url.encode (List.replicate 32 0) := by
    exact congrArg Base64Url.encode (if_pos rfl)
  intro head body carried parts bytes isTag
  have last := congrArg List.getLast? parts
  rw [ticketsToken, sign, signingInput, List.append_assoc, List.cons_append,
    split_two (dot_not_mem_b64url _), split_two (dot_not_mem_b64url _),
    split_one (dot_not_mem_signature _), ← signingInput, tag, isTag] at last
  refine ⟨ticketsIssue, List.mem_singleton_self _, ?_⟩
  by_contra other
  rw [ticketsHmac, if_neg fun same => other same.symm] at last
  have zeros : Base64Url.encode (List.replicate 32 0) ≠ Base64Url.encode (List.replicate 32 1) := by
    decide +kernel
  exact zeros (Option.some.inj last)

theorem tickets_accepted :
    (∃ issue ∈ [ticketsIssue], issue.config.issuer = js "ghost-bot" ∧
        ticketsToken = sign ticketsHmac issue.config issue.input issue.nowSeconds) ∧
      verify ticketsHmac readNumber ghostConfig ticketsToken 2000 = none :=
  ⟨(verify_exact ticketsHmac readNumber readNumber_numberText).2 ghostConfig [ticketsIssue]
      ticketsToken tickets_unforgeable 1001 _ (verify_sign readNumber_numberText _ _ _ _),
    (verify_exact ticketsHmac readNumber readNumber_numberText).1 ghostConfig ticketsInput 1000 2000⟩

end Jwt
