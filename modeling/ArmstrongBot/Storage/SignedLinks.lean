import ArmstrongBot.Library.JsNumber
import ArmstrongBot.Storage.Controller
import ArmstrongBot.Webhooks.Verification

/-! The links of `LocalStorageDriver`: what is signed in one, and what a download is let in for. -/

namespace Storage

open JsText
open JsNumber (Number Decimal numberText)
open Calendar (Timestamp)
open Webhooks (fromHex toHex fromHex_toHex)

inductive Method
  | get
  | put
  deriving DecidableEq

def Method.text : Method → JsString
  | .get => js "GET"
  | .put => js "PUT"

structure SignaturePayload where
  key : JsString
  method : Method
  exp : Number
  deriving DecidableEq

def newline : CodeUnit := unit 10

/-- The string `method\nkey\nexp`. -/
def SignaturePayload.text (payload : SignaturePayload) : JsString :=
  payload.method.text ++ newline :: (payload.key ++ newline :: numberText payload.exp)

/-- The number as a fraction: its digits, shifted to their place. -/
def toRat : Number → Rat
  | .zero => 0
  | .decimal value =>
      let digits : Nat := value.digits.foldl (fun read digit => read * 10 + digit.val) 0
      let signed : Int := if value.negative then -digits else digits
      let shift : Int := value.exponent - value.digits.length
      if 0 ≤ shift then ((signed * 10 ^ shift.toNat : Int) : Rat)
      else (signed : Rat) / ((10 ^ (-shift).toNat : Int) : Rat)

/-- `exp * 1000 < Date.now()` -/
def expired (exp : Number) (now : Timestamp) : Bool := decide (toRat exp * 1000 < now)

structure SignOptions where
  expiresInSeconds : Int
  downloadFilename : Option JsString
  contentType : Option JsString

/-- A link, as far as its query goes. -/
structure SignedLink where
  payload : SignaturePayload
  sig : JsString
  filename : Option JsString
  contentType : Option JsString
  deriving DecidableEq

/-- The query of a download, each parameter given at most once. -/
structure SignedDownloadParams where
  key : Option JsString
  exp : Option JsString
  sig : Option JsString
  filename : Option JsString
  contentType : Option JsString
  deriving DecidableEq

def nonEmpty (text : Option JsString) : Option JsString := text.filter fun text => text ≠ []

section

variable (hmac : JsString → Webhooks.Bytes)

def signature (payload : SignaturePayload) : JsString := toHex (hmac payload.text)

def verifySignature (payload : SignaturePayload) (candidate : JsString) (now : Timestamp) : Bool :=
  if expired payload.exp now then false
  else decide (fromHex (signature hmac payload) = fromHex candidate)

/-- `sign`, at a time from 1970 on. -/
def sign (maxSignedUrlSeconds : Int) (now : Timestamp) (key : JsString) (method : Method)
    (options : SignOptions) : SignedLink :=
  let wanted := if options.expiresInSeconds ≤ maxSignedUrlSeconds then options.expiresInSeconds
    else maxSignedUrlSeconds
  let ttl := if wanted ≤ 1 then 1 else wanted
  let nowSeconds : Int := now / 1000
  let payload := { key, method, exp := .ofNat (nowSeconds + ttl).toNat }
  { payload, sig := signature hmac payload, filename := nonEmpty options.downloadFilename
    contentType := nonEmpty options.contentType }

variable (number : JsString → Option Number)

/-- `serveSignedDownload` up to the headers: the key to be served, or the refusal. The clock is
read a second time in `verifySignature`; `number` is `Number(exp)` where that is finite. -/
def admitDownload (params : SignedDownloadParams) (now later : Timestamp) :
    Except Response JsString :=
  match nonEmpty params.key, nonEmpty params.sig, params.exp.bind number with
  | some key, some sig, some exp =>
      if expired exp now then .error .linkExpired
      else if verifySignature hmac { key, method := .get, exp } sig later then .ok key
      else .error .invalidSignature
  | _, _, _ => .error .invalidSignature

def serveDownload (state : State) (params : SignedDownloadParams) (now later : Timestamp) :
    Response :=
  match admitDownload hmac number params now later with
  | .error refusal => refusal
  | .ok key =>
      match state.blobs key with
      | some body =>
          .file (params.contentType.getD (js "application/octet-stream"))
            ((nonEmpty params.filename).map fun filename =>
              js "attachment; filename=\"" ++ filename.filter (· ≠ unit 34) ++ js "\"") body
      | none => .missingFile

/-- The controller's download, where its driver is the local one. -/
theorem serveSignedDownload_local {backend : Backend} {state : State} {params : SignedDownloadParams}
    {now : Timestamp}
    (isLocal : ∀ key exp sig, backend.verifySignature key (toRat exp) sig now =
      verifySignature hmac { key, method := .get, exp } sig now) :
    serveSignedDownload backend state
        { key := params.key, expiry := (params.exp.bind number).map toRat, sig := params.sig
          filename := params.filename, contentType := params.contentType } now =
      serveDownload hmac number state params now now := by
  unfold serveSignedDownload serveDownload admitDownload
  simp only [nonEmpty]
  cases params.key.filter fun key => key ≠ [] with
  | none => rfl
  | some key =>
      cases params.sig.filter fun sig => sig ≠ [] with
      | none => rfl
      | some sig =>
          cases params.exp.bind number with
          | none => rfl
          | some exp =>
              simp only [Option.map_some, isLocal, expired, decide_eq_true_eq]
              split
              · rfl
              · split <;> rfl

end

/-! What a tag stands for. -/

theorem newline_not_mem (exp : Number) : newline ∉ numberText exp := by
  intro member
  have numeric := JsNumber.numberText_isNumeric exp newline member
  exact absurd numeric (by decide)

theorem Method.text_injective {first second : Method} (same : first.text = second.text) :
    first = second := by
  cases first <;> cases second <;> first | rfl | exact absurd same (by decide)

/-- The method ends at the first line break, and the expiry begins after the last one. -/
theorem signed_injective {first second : SignaturePayload} (same : first.text = second.text) :
    first = second := by
  have methodCut (payload : SignaturePayload) : JsNumber.cut newline payload.text =
      (payload.method.text, payload.key ++ newline :: numberText payload.exp) := by
    have absent : newline ∉ payload.method.text := by
      cases payload.method <;> decide
    exact JsNumber.cut_append _ absent
  have expCut (payload : SignaturePayload) :
      JsNumber.cut newline (payload.key ++ newline :: numberText payload.exp).reverse =
        ((numberText payload.exp).reverse, payload.key.reverse) := by
    have absent : newline ∉ (numberText payload.exp).reverse := by
      simpa using newline_not_mem payload.exp
    simpa using JsNumber.cut_append payload.key.reverse absent
  have methods := methodCut first
  rw [same, methodCut second] at methods
  obtain ⟨sameMethod, rest⟩ := Prod.mk.inj methods
  have exps := expCut first
  rw [← rest, expCut second] at exps
  obtain ⟨sameExp, sameKey⟩ := Prod.mk.inj exps
  have isMethod := Method.text_injective sameMethod
  have isExp := JsNumber.numberText_injective (List.reverse_injective sameExp)
  have isKey := List.reverse_injective sameKey
  obtain ⟨firstKey, firstMethod, firstExp⟩ := first
  obtain ⟨secondKey, secondMethod, secondExp⟩ := second
  simp_all

/-- A call of `signGetUrl` or `signPutUrl`. -/
structure SignCall where
  now : Timestamp
  key : JsString
  method : Method
  options : SignOptions

section

variable (hmac : JsString → Webhooks.Bytes)

def mint (maxSignedUrlSeconds : Int) (calls : List SignCall) : List SignedLink :=
  calls.map fun call => sign hmac maxSignedUrlSeconds call.now call.key call.method call.options

/-- Only strings that were signed have the tag that the request carries. -/
def Unforgeable (links : List SignedLink) (params : SignedDownloadParams) : Prop :=
  ∀ sig ∈ params.sig, ∀ message, hmac message = fromHex sig →
    ∃ link ∈ links, link.payload.text = message

/-- Strings that were signed have tags of their own. -/
def TagsDiffer (links : List SignedLink) : Prop :=
  ∀ first ∈ links, ∀ second ∈ links,
    hmac first.payload.text = hmac second.payload.text → first.payload.text = second.payload.text

end

/-- The request names the key and the expiry of the link. -/
def Presents (number : JsString → Option Number) (params : SignedDownloadParams) (link : SignedLink) :
    Prop :=
  params.key = some link.payload.key ∧ params.exp.bind number = some link.payload.exp

section

variable {hmac : JsString → Webhooks.Bytes} {number : JsString → Option Number}
  {params : SignedDownloadParams} {now later : Timestamp} {key : JsString}

theorem mint_sig {maxSignedUrlSeconds : Int} {calls : List SignCall} {link : SignedLink}
    (minted : link ∈ mint hmac maxSignedUrlSeconds calls) :
    fromHex link.sig = hmac link.payload.text := by
  obtain ⟨call, _, rfl⟩ := List.mem_map.mp minted
  exact fromHex_toHex _

theorem admit_ok (admitted : admitDownload hmac number params now later = .ok key) :
    ∃ sig exp, params.key = some key ∧ params.sig = some sig ∧ params.exp.bind number = some exp ∧
      expired exp now = false ∧ expired exp later = false ∧
      hmac (SignaturePayload.text { key, method := .get, exp }) = fromHex sig := by
  unfold admitDownload at admitted
  split at admitted
  · rename_i asked sig exp hasKey hasSig hasExp
    split at admitted
    · cases admitted
    rename_i unexpired
    split at admitted
    · rename_i verified
      obtain rfl := Except.ok.inj admitted
      simp only [verifySignature] at verified
      split at verified
      · cases verified
      rename_i stillUnexpired
      rw [decide_eq_true_eq, signature, fromHex_toHex] at verified
      exact ⟨sig, exp, (Option.filter_eq_some_iff.mp hasKey).1, (Option.filter_eq_some_iff.mp hasSig).1,
        hasExp, by simpa using unexpired, by simpa using stillUnexpired, verified⟩
    · cases admitted
  · cases admitted

end

/-- What is let in names the key and the expiry of a link for downloads that was minted and has not
expired; a link whose key or expiry is changed is refused. -/
theorem admitted_link (hmac : JsString → Webhooks.Bytes) (number : JsString → Option Number)
    (maxSignedUrlSeconds : Int) (calls : List SignCall) (params : SignedDownloadParams)
    (now later : Timestamp)
    (unforgeable : Unforgeable hmac (mint hmac maxSignedUrlSeconds calls) params)
    (differ : TagsDiffer hmac (mint hmac maxSignedUrlSeconds calls)) :
    (∀ key, admitDownload hmac number params now later = .ok key →
      ∃ link ∈ mint hmac maxSignedUrlSeconds calls, link.payload.method = .get ∧
        link.payload.key = key ∧ Presents number params link ∧
        expired link.payload.exp now = false ∧ expired link.payload.exp later = false) ∧
    ∀ link ∈ mint hmac maxSignedUrlSeconds calls, params.sig.map fromHex = some (fromHex link.sig) →
      ¬ Presents number params link →
      ∃ refusal, admitDownload hmac number params now later = .error refusal := by
  constructor
  · intro key admitted
    obtain ⟨sig, exp, hasKey, hasSig, hasExp, unexpired, stillUnexpired, tag⟩ := admit_ok admitted
    obtain ⟨link, minted, isSigned⟩ := unforgeable sig hasSig _ tag
    have isPayload := signed_injective isSigned
    refine ⟨link, minted, ?_⟩
    rw [Presents, isPayload]
    exact ⟨rfl, rfl, ⟨hasKey, hasExp⟩, unexpired, stillUnexpired⟩
  · intro link minted sameTag changed
    cases verdict : admitDownload hmac number params now later with
    | error refusal => exact ⟨refusal, rfl⟩
    | ok key =>
        refine absurd ?_ changed
        obtain ⟨sig, exp, hasKey, hasSig, hasExp, _, _, tag⟩ := admit_ok verdict
        obtain ⟨other, otherMinted, isSigned⟩ := unforgeable sig hasSig _ tag
        have isPayload := signed_injective isSigned
        rw [hasSig, Option.map_some, Option.some.injEq, mint_sig minted] at sameTag
        have same := signed_injective
          (differ other otherMinted link minted (by rw [isSigned, tag, sameTag]))
        rw [Presents, ← same, isPayload]
        exact ⟨hasKey, hasExp⟩

/-! A link to a text file, valid for a quarter of an hour. -/

def reportKey : JsString := js "global/reports/ab12"

def reportCall : SignCall :=
  { now := 1700000000000, key := reportKey, method := .get
    options :=
      { expiresInSeconds := 900, downloadFilename := some (js "report.txt"), contentType := none } }

def reportPayload : SignaturePayload := { key := reportKey, method := .get, exp := .ofNat 1700000900 }

/-- A keyed hash under which no other string has the tag of the link. -/
def reportHmac (message : JsString) : Webhooks.Bytes :=
  if message = reportPayload.text then List.replicate 32 0 else List.replicate 32 1

/-- `Number` as far as it reads decimal digits. -/
def digitsNumber (text : JsString) : Option Number :=
  if text ≠ [] ∧ text.all isDigit then some (.ofNat (readNat text)) else none

def reportParams (filename contentType : Option JsString) : SignedDownloadParams :=
  { key := some reportKey, exp := some (js "1700000900"), sig := some (toHex (List.replicate 32 0))
    filename, contentType }

theorem report_unforgeable (filename contentType : Option JsString) :
    Unforgeable reportHmac (mint reportHmac 900 [reportCall]) (reportParams filename contentType) := by
  intro sig hasSig message tag
  obtain rfl := Option.some.inj hasSig
  rw [fromHex_toHex, reportHmac] at tag
  split at tag
  · rename_i same
    refine ⟨_, List.mem_singleton_self _, ?_⟩
    rw [same]
    decide +kernel
  · exact absurd tag (by decide)

theorem report_differ : TagsDiffer reportHmac (mint reportHmac 900 [reportCall]) := by
  intro first firstMember second secondMember _
  rw [List.mem_singleton.mp firstMember, List.mem_singleton.mp secondMember]

theorem report_admitted :
    ∃ link ∈ mint reportHmac 900 [reportCall], link.payload.method = .get ∧
      link.payload.key = reportKey ∧
      Presents digitsNumber (reportParams (some (js "report.txt")) none) link ∧
      expired link.payload.exp 1700000000000 = false ∧
      expired link.payload.exp 1700000000001 = false :=
  (admitted_link reportHmac digitsNumber 900 [reportCall]
    (reportParams (some (js "report.txt")) none) 1700000000000 1700000000001
    (report_unforgeable _ _) report_differ).1 reportKey (by decide +kernel)

/-- The file of the link is let in under another name and with any type of content. -/
theorem content_type_swapped :
    ¬ ∀ (hmac : JsString → Webhooks.Bytes) (number : JsString → Option Number)
        (maxSignedUrlSeconds : Int) (calls : List SignCall) (params : SignedDownloadParams)
        (now later : Timestamp) (key : JsString),
        Unforgeable hmac (mint hmac maxSignedUrlSeconds calls) params →
        TagsDiffer hmac (mint hmac maxSignedUrlSeconds calls) →
        admitDownload hmac number params now later = .ok key →
        ∃ link ∈ mint hmac maxSignedUrlSeconds calls, Presents number params link ∧
          nonEmpty params.filename = link.filename ∧
          nonEmpty params.contentType = link.contentType := by
  intro all
  obtain ⟨link, member, _, _, sameType⟩ :=
    all reportHmac digitsNumber 900 [reportCall]
      (reportParams (some (js "report.html")) (some (js "text/html"))) 1700000000000 1700000000001
      reportKey (report_unforgeable _ _) report_differ (by decide +kernel)
  rw [List.mem_singleton.mp member] at sameType
  exact absurd sameType (by decide +kernel)

end Storage
