import WebLoginRelay.Crypto.Signatures
import WebLoginRelay.Protocol.Validation

/-!
# Protocol messages

`src/protocol/matrix.rs`, `registration.rs`, `metadata.rs`, `assertion.rs` and `revocation.rs`: the
objects the relay exchanges with phones and sites, their JSON forms, and the bytes their signatures
cover. `from_value` of a struct is what `serde` derives with `deny_unknown_fields`.
-/

namespace WebLoginRelay
open Text

/-- `StrictValue::deserialize`: the value of the first JSON text of the input, and the input after it. -/
def strictDeserialize (X : Crates) (text : String) : Option (Value × String) := do
  let (json, rest) ← X.jsonValue text
  return (← json.strictValue, rest)

/-- `strict::from_str`; the last step is `serde_json::from_value`. -/
def strictFromStr {α} (X : Crates) (fromValue : Value → Option α) (text : String) :
    Except RelayError α :=
  match strictDeserialize X text with
  | none => fail .invalidRequest
  | some (value, rest) =>
    if !Json.isEnd rest then fail .invalidRequest
    else
      match fromValue value with
      | some a => .ok a
      | none => fail .invalidRequest

/-- `strict::from_slice`. -/
def strictFromSlice {α} (X : Crates) (fromValue : Value → Option α) (b : Bytes) :
    Except RelayError α :=
  match fromUtf8 b with
  | none => fail .invalidRequest
  | some text => strictFromStr X fromValue text

/-- The text is read as a whole, its value passes the strict visitor and is converted. -/
lemma strictFromStr_iff {X : Crates} {α : Type} {fromValue : Value → Option α} {text : String} {a : α} :
    strictFromStr X fromValue text = .ok a ↔
      ∃ json value, X.jsonParse text = some json ∧ json.strictValue = some value ∧ fromValue value = some a := by
  unfold strictFromStr strictDeserialize Crates.jsonParse
  cases X.jsonValue text with
  | none => simp [fail]
  | some p =>
    obtain ⟨json, rest⟩ := p
    cases strict : json.strictValue with
    | none => simp [strict, fail]
    | some value =>
      cases ended : Json.isEnd rest with
      | false => simp [strict, ended, fail]
      | true => cases converted : fromValue value <;> simp [strict, ended, converted, fail]

/-- The strict parse undoes the printing of a flat object. -/
lemma strictFromSlice_jsonToVec {X : Crates} {α : Type} (json : X.JsonCorrect)
    {fields : List (String × Value)} {fromValue : Value → Option α} {a : α}
    (nd : (fields.map Prod.fst).Nodup) (sc : ∀ f ∈ fields, f.2.isScalar)
    (h : fromValue (.obj fields) = some a) :
    strictFromSlice X fromValue (X.jsonToVec (.obj fields)) = .ok a := by
  obtain ⟨text, ht, hp⟩ := Option.bind_eq_some_iff.mp (json fields nd sc)
  have strict : Json.strictValue (.obj (fields.map fun f => (f.1, Json.ofScalar f.2))) =
      some (.obj fields) := by
    simp [Json.strictValue, Json.strictMap_ofScalar nd (fun f _ => List.not_mem_nil) sc]
  rw [strictFromSlice, ht]
  exact strictFromStr_iff.mpr ⟨_, _, hp, strict, h⟩

/-! ## Matrix messages -/

/-- `MatrixMessage`. -/
inductive MatrixMessage where
  | request (sessionId nonce : String) (sentAt : Int64) (domain : String)
  | challenge (sessionId nonce : String) (sentAt : Int64) (siteName domain requestedDisplayName
      challenge : String) (expiresAt : Int64)
  | consent (sessionId nonce : String) (sentAt : Int64) (approved : Bool)
      (displayName : Option String) (challenge keyId signature : String)
  | result (sessionId nonce : String) (sentAt : Int64) (success : Bool)
      (siteAccountId reason : Option String)
  | revocation (sessionId nonce : String) (sentAt : Int64) (siteAccountId : String)
      (reason : Option String)
  deriving DecidableEq, Repr

namespace MatrixMessage

/-- The object a message is serialised to. -/
def toValue : MatrixMessage → Value
  | .request sessionId nonce sentAt domain =>
    .obj [("kind", .str "request"), ("sessionId", .str sessionId), ("nonce", .str nonce),
      ("sentAt", .int sentAt), ("domain", .str domain)]
  | .challenge sessionId nonce sentAt siteName domain requestedDisplayName token expiresAt =>
    .obj [("kind", .str "challenge"), ("sessionId", .str sessionId), ("nonce", .str nonce),
      ("sentAt", .int sentAt), ("siteName", .str siteName), ("domain", .str domain),
      ("requestedDisplayName", .str requestedDisplayName), ("challenge", .str token),
      ("expiresAt", .int expiresAt)]
  | .consent sessionId nonce sentAt approved displayName token keyId signature =>
    .obj [("kind", .str "consent"), ("sessionId", .str sessionId), ("nonce", .str nonce),
      ("sentAt", .int sentAt), ("approved", .bool approved),
      ("displayName", .ofOptStr displayName), ("challenge", .str token), ("keyId", .str keyId),
      ("signature", .str signature)]
  | .result sessionId nonce sentAt success siteAccountId reason =>
    .obj [("kind", .str "result"), ("sessionId", .str sessionId), ("nonce", .str nonce),
      ("sentAt", .int sentAt), ("success", .bool success),
      ("siteAccountId", .ofOptStr siteAccountId), ("reason", .ofOptStr reason)]
  | .revocation sessionId nonce sentAt siteAccountId reason =>
    .obj [("kind", .str "revocation"), ("sessionId", .str sessionId), ("nonce", .str nonce),
      ("sentAt", .int sentAt), ("siteAccountId", .str siteAccountId), ("reason", .ofOptStr reason)]

/-- The message a value denotes: the variant is the value of `kind`. -/
def fromValue (value : Value) : Option MatrixMessage := do
  match ← value.variant? "kind" with
  | "request" =>
    let f ← value.structFields? ["kind", "sessionId", "nonce", "sentAt", "domain"]
    return .request (← Value.strField f "sessionId") (← Value.strField f "nonce")
      (← Value.i64Field f "sentAt") (← Value.strField f "domain")
  | "challenge" =>
    let f ← value.structFields? ["kind", "sessionId", "nonce", "sentAt", "siteName", "domain",
      "requestedDisplayName", "challenge", "expiresAt"]
    return .challenge (← Value.strField f "sessionId") (← Value.strField f "nonce")
      (← Value.i64Field f "sentAt") (← Value.strField f "siteName") (← Value.strField f "domain")
      (← Value.strField f "requestedDisplayName") (← Value.strField f "challenge")
      (← Value.i64Field f "expiresAt")
  | "consent" =>
    let f ← value.structFields? ["kind", "sessionId", "nonce", "sentAt", "approved", "displayName",
      "challenge", "keyId", "signature"]
    return .consent (← Value.strField f "sessionId") (← Value.strField f "nonce")
      (← Value.i64Field f "sentAt") (← Value.boolField f "approved")
      (← Value.optStrField f "displayName") (← Value.strField f "challenge")
      (← Value.strField f "keyId") (← Value.strField f "signature")
  | "result" =>
    let f ← value.structFields? ["kind", "sessionId", "nonce", "sentAt", "success", "siteAccountId",
      "reason"]
    return .result (← Value.strField f "sessionId") (← Value.strField f "nonce")
      (← Value.i64Field f "sentAt") (← Value.boolField f "success")
      (← Value.optStrField f "siteAccountId") (← Value.optStrField f "reason")
  | "revocation" =>
    let f ← value.structFields? ["kind", "sessionId", "nonce", "sentAt", "siteAccountId", "reason"]
    return .revocation (← Value.strField f "sessionId") (← Value.strField f "nonce")
      (← Value.i64Field f "sentAt") (← Value.strField f "siteAccountId") (← Value.optStrField f "reason")
  | _ => none

/-- `validate_outbound`. -/
def validateOutbound : MatrixMessage → Except RelayError Unit
  | .challenge sessionId nonce _ siteName domain requestedDisplayName token _ => do
    validateId sessionId
    validateId nonce
    validateDomain domain
    if siteName.isEmpty ∨ len siteName > maxDisplayName then fail .invalidRequest
    else if len requestedDisplayName > maxDisplayName then fail .invalidRequest
    else validateChallengeToken token
  | .result sessionId nonce _ _ siteAccountId reason => do
    validateId sessionId
    validateId nonce
    match siteAccountId with
    | some account => validateSiteAccountId account
    | none => pure ()
    match reason with
    | some reason => validateReason reason
    | none => pure ()
  | .revocation sessionId nonce _ siteAccountId reason => do
    validateId sessionId
    validateId nonce
    validateSiteAccountId siteAccountId
    match reason with
    | some reason => validateReason reason
    | none => pure ()
  | _ => pure ()

/-- `validate_inbound`. -/
def validateInbound : MatrixMessage → Except RelayError Unit
  | .request sessionId nonce _ domain => do
    validateId sessionId
    validateId nonce
    validateDomain domain
  | .consent sessionId nonce _ approved displayName token keyId signature => do
    validateId sessionId
    validateId nonce
    validateChallengeToken token
    if !startsWith keyId "did:" ∨ len keyId > 512 then fail .invalidSignature
    validateSignatureB64 signature
    match approved, displayName with
    | true, some name =>
      if !name.isEmpty ∧ len name ≤ maxDisplayName then pure () else fail .invalidRequest
    | false, none => pure ()
    | _, _ => fail .invalidRequest
  | .revocation sessionId nonce _ siteAccountId reason => do
    validateId sessionId
    validateId nonce
    validateSiteAccountId siteAccountId
    match reason with
    | some reason => validateReason reason
    | none => pure ()
  | .challenge .. => fail .invalidRequest
  | .result .. => fail .invalidRequest

/-- `matrix::encode`. -/
def encode (X : Crates) (message : MatrixMessage) : Except RelayError String := do
  validateOutbound message
  let json := X.jsonToVec message.toValue
  if json.length > maxDecodedBody then fail .invalidRequest
  else pure (matrixPrefix ++ Base64url.encode X json)

/-- `matrix::decode`. -/
def decode (X : Crates) (body : String) : Except RelayError MatrixMessage :=
  if len body > maxDecodedBody * 2 then fail .invalidRequest
  else
    match stripPrefix body matrixPrefix with
    | none => fail .invalidRequest
    | some encoded => do
      let bytes ← Base64url.decode X encoded
      if bytes.length > maxDecodedBody then fail .invalidRequest
      let message ← strictFromSlice X fromValue bytes
      validateInbound message
      pure message

end MatrixMessage

/-- `consent_signed_bytes`. -/
def consentSignedBytes (X : Crates) (approved : Bool) (challenge : String)
    (displayName : Option String) (nonce sessionId : String) (sentAt : Int64) :
    Except RelayError Bytes := do
  let fields := [("approved", .bool approved), ("challenge", .str challenge), ("nonce", .str nonce),
    ("sessionId", .str sessionId), ("sentAt", .int sentAt)]
  let fields :=
    match displayName with
    | some name => fields ++ [("displayName", .str name)]
    | none => fields
  return asBytes (← Jcs.canonicalizeObject X fields)

/-! ## Registration -/

/-- `RegistrationRequest`. -/
structure RegistrationRequest where
  version : Int64
  domain : String
  sessionId : String
  nonce : String
  iat : Int64
  exp : Int64
  requestedDisplayName : String
  qrSignature : String
  registrationSignature : String
  deriving DecidableEq, Repr

/-- `RegistrationResponse`; the status is always `"registered"`. -/
structure RegistrationResponse where
  version : Int64
  sessionId : String
  expiresAt : Int64
  deriving DecidableEq, Repr

namespace RegistrationRequest
variable (r : RegistrationRequest)

/-- `RegistrationRequest::validate`. -/
def validate : Except RelayError Unit := do
  if r.version ≠ protocolVersion then fail .unsupportedVersion
  validateDomain r.domain
  validateId r.sessionId
  validateId r.nonce
  validateWindow r.iat r.exp
  validateDisplayName r.requestedDisplayName false
  validateSignatureB64 r.qrSignature
  validateSignatureB64 r.registrationSignature

/-- `RegistrationRequest::qr_canonical`. -/
def qrCanonical (X : Crates) : Except RelayError Bytes := do
  return asBytes (← Jcs.canonicalizeObject X
    [("domain", .str r.domain), ("exp", .int r.exp), ("iat", .int r.iat), ("nonce", .str r.nonce),
      ("session", .str r.sessionId), ("v", .int r.version)])

/-- `RegistrationRequest::registration_canonical`. -/
def registrationCanonical (X : Crates) : Except RelayError Bytes := do
  return asBytes (← Jcs.canonicalizeObject X
    [("domain", .str r.domain), ("exp", .int r.exp), ("iat", .int r.iat), ("nonce", .str r.nonce),
      ("qrSignature", .str r.qrSignature), ("requestedDisplayName", .str r.requestedDisplayName),
      ("sessionId", .str r.sessionId), ("version", .int r.version)])

/-- The object the request is serialised to. -/
def toValue : Value :=
  .obj [("version", .int r.version), ("domain", .str r.domain), ("sessionId", .str r.sessionId),
    ("nonce", .str r.nonce), ("iat", .int r.iat), ("exp", .int r.exp),
    ("requestedDisplayName", .str r.requestedDisplayName), ("qrSignature", .str r.qrSignature),
    ("registrationSignature", .str r.registrationSignature)]

end RegistrationRequest

/-! ## Site metadata -/

/-- `SiteMetadata`. -/
structure SiteMetadata where
  version : Int64
  domain : String
  displayName : String
  publicKey : String
  signature : String
  deriving DecidableEq, Repr

namespace SiteMetadata

/-- The metadata a value denotes. -/
def fromValue (value : Value) : Option SiteMetadata := do
  let f ← value.structFields? ["version", "domain", "displayName", "publicKey", "signature"]
  return {
    version := ← Value.i64Field f "version"
    domain := ← Value.strField f "domain"
    displayName := ← Value.strField f "displayName"
    publicKey := ← Value.strField f "publicKey"
    signature := ← Value.strField f "signature" }

/-- `SiteMetadata::validate_for_domain`. -/
def validateForDomain (X : Crates) (m : SiteMetadata) (expectedDomain : String) :
    Except RelayError Unit := do
  if m.version ≠ protocolVersion then fail .unsupportedVersion
  validateDomain m.domain
  if m.domain ≠ expectedDomain then fail .domainVerificationFailed
  if isBlank m.displayName ∨ len m.displayName > maxDisplayName then fail .domainVerificationFailed
  if len m.publicKey ≠ 43 then fail .domainVerificationFailed
  let canonical ← Jcs.canonicalizeObject X
    [("displayName", .str m.displayName), ("domain", .str m.domain),
      ("publicKey", .str m.publicKey), ("version", .int m.version)]
  match Ed25519.verify X m.publicKey (asBytes canonical) m.signature with
  | .ok () => pure ()
  | .error _ => fail .domainVerificationFailed

end SiteMetadata

/-! ## Signed objects of the relay -/

/-- `RelayAssertion`. -/
structure RelayAssertion where
  version : Int64
  iss : String
  aud : String
  sub : String
  sessionId : String
  nonce : String
  jti : String
  iat : Int64
  nbf : Int64
  exp : Int64
  displayName : String
  subjectKeyVersion : Int32
  kid : String
  signature : String
  deriving DecidableEq, Repr

namespace RelayAssertion
variable (X : Crates)

/-- `RelayAssertion::canonical_without_signature`. -/
def canonicalWithoutSignature (a : RelayAssertion) : Except RelayError String :=
  Jcs.canonicalizeObject X
    [("aud", .str a.aud), ("displayName", .str a.displayName), ("exp", .int a.exp),
      ("iat", .int a.iat), ("iss", .str a.iss), ("jti", .str a.jti), ("kid", .str a.kid),
      ("nbf", .int a.nbf), ("nonce", .str a.nonce), ("sessionId", .str a.sessionId),
      ("sub", .str a.sub), ("subjectKeyVersion", .int a.subjectKeyVersion.toInt64),
      ("version", .int a.version)]

/-- `RelayAssertion::sign`. -/
def sign (signingKey : Bytes) (kid aud sub sessionId nonce jti : String) (iat exp : Int64)
    (displayName : String) (subjectKeyVersion : Int32) : Except RelayError RelayAssertion := do
  validateKid kid
  validateId sessionId
  validateId nonce
  validateSiteAccountId sub
  validateDisplayName displayName true
  let assertion : RelayAssertion := {
    version := protocolVersion, iss := relayOrigin, aud, sub, sessionId, nonce, jti, iat, nbf := iat
    exp, displayName, subjectKeyVersion, kid, signature := "" }
  let canonical ← assertion.canonicalWithoutSignature X
  let signature := Ed25519.sign X signingKey (asBytes canonical)
  validateSignatureB64 signature
  return { assertion with signature }

/-- A signed assertion says what it was made from. -/
lemma sign_ok {X : Crates} {signingKey : Bytes} {kid aud sub sessionId nonce jti : String}
    {iat exp : Int64} {displayName : String} {subjectKeyVersion : Int32} {a : RelayAssertion}
    (h : sign X signingKey kid aud sub sessionId nonce jti iat exp displayName subjectKeyVersion = .ok a) :
    ∃ signature, a = {
      version := protocolVersion, iss := relayOrigin, aud, sub, sessionId, nonce, jti, iat
      nbf := iat, exp, displayName, subjectKeyVersion, kid, signature } := by
  -- five checks, the canonical form and the check of the signature
  obtain ⟨_, _, h⟩ := bind_ok h
  obtain ⟨_, _, h⟩ := bind_ok h
  obtain ⟨_, _, h⟩ := bind_ok h
  obtain ⟨_, _, h⟩ := bind_ok h
  obtain ⟨_, _, h⟩ := bind_ok h
  obtain ⟨_, _, h⟩ := bind_ok h
  obtain ⟨_, _, h⟩ := bind_ok h
  cases h
  exact ⟨_, rfl⟩

/-- The assertion carries the relay's signature over its canonical form. -/
def SignedBy (signingKey : Bytes) (a : RelayAssertion) : Prop :=
  ∃ canonical, a.canonicalWithoutSignature X = .ok canonical ∧
    a.signature = Ed25519.sign X signingKey (asBytes canonical)

/-- A signed assertion passed the checks, and carries its signature. -/
lemma sign_valid {X : Crates} {signingKey : Bytes} {kid aud sub sessionId nonce jti : String}
    {iat exp : Int64} {displayName : String} {subjectKeyVersion : Int32} {a : RelayAssertion}
    (h : sign X signingKey kid aud sub sessionId nonce jti iat exp displayName subjectKeyVersion = .ok a) :
    validateSiteAccountId sub = .ok () ∧ validateDisplayName displayName true = .ok () ∧
      a.SignedBy X signingKey := by
  obtain ⟨_, _, h⟩ := bind_ok h
  obtain ⟨_, _, h⟩ := bind_ok h
  obtain ⟨_, _, h⟩ := bind_ok h
  obtain ⟨_, account, h⟩ := bind_ok h
  obtain ⟨_, name, h⟩ := bind_ok h
  obtain ⟨canonical, e, h⟩ := bind_ok h
  obtain ⟨_, _, h⟩ := bind_ok h
  cases h
  exact ⟨account, name, canonical, e, rfl⟩

/-- The object an assertion is serialised to. -/
def toValue (a : RelayAssertion) : Value :=
  .obj [("version", .int a.version), ("iss", .str a.iss), ("aud", .str a.aud), ("sub", .str a.sub),
    ("sessionId", .str a.sessionId), ("nonce", .str a.nonce), ("jti", .str a.jti),
    ("iat", .int a.iat), ("nbf", .int a.nbf), ("exp", .int a.exp),
    ("displayName", .str a.displayName), ("subjectKeyVersion", .int a.subjectKeyVersion.toInt64),
    ("kid", .str a.kid), ("signature", .str a.signature)]

/-- The assertion a value denotes. -/
def fromValue (value : Value) : Option RelayAssertion := do
  let f ← value.structFields? ["version", "iss", "aud", "sub", "sessionId", "nonce", "jti", "iat", "nbf",
    "exp", "displayName", "subjectKeyVersion", "kid", "signature"]
  return {
    version := ← Value.i64Field f "version"
    iss := ← Value.strField f "iss"
    aud := ← Value.strField f "aud"
    sub := ← Value.strField f "sub"
    sessionId := ← Value.strField f "sessionId"
    nonce := ← Value.strField f "nonce"
    jti := ← Value.strField f "jti"
    iat := ← Value.i64Field f "iat"
    nbf := ← Value.i64Field f "nbf"
    exp := ← Value.i64Field f "exp"
    displayName := ← Value.strField f "displayName"
    subjectKeyVersion := ← Value.i32Field f "subjectKeyVersion"
    kid := ← Value.strField f "kid"
    signature := ← Value.strField f "signature" }

/-- `RelayAssertion::to_bytes`. -/
def toBytes (a : RelayAssertion) : Bytes := X.jsonToVec a.toValue

end RelayAssertion

/-- `RelayRevocation`. -/
structure RelayRevocation where
  version : Int64
  iss : String
  aud : String
  sub : String
  jti : String
  iat : Int64
  reason : String
  kid : String
  signature : String
  deriving DecidableEq, Repr

namespace RelayRevocation
variable (X : Crates)

/-- `RelayRevocation::canonical_without_signature`. -/
def canonicalWithoutSignature (r : RelayRevocation) : Except RelayError String :=
  Jcs.canonicalizeObject X
    [("aud", .str r.aud), ("iat", .int r.iat), ("iss", .str r.iss), ("jti", .str r.jti),
      ("kid", .str r.kid), ("reason", .str r.reason), ("sub", .str r.sub), ("version", .int r.version)]

/-- `RelayRevocation::sign`. -/
def sign (signingKey : Bytes) (kid aud sub jti : String) (iat : Int64) (reason : String) :
    Except RelayError RelayRevocation := do
  let revocation : RelayRevocation := {
    version := protocolVersion, iss := relayOrigin, aud, sub, jti, iat, reason, kid, signature := "" }
  let canonical ← revocation.canonicalWithoutSignature X
  return { revocation with signature := Ed25519.sign X signingKey (asBytes canonical) }

/-- A signed revocation says what it was made from. -/
lemma sign_ok {X : Crates} {signingKey : Bytes} {kid aud sub jti : String} {iat : Int64}
    {reason : String} {r : RelayRevocation} (h : sign X signingKey kid aud sub jti iat reason = .ok r) :
    ∃ signature, r = {
      version := protocolVersion, iss := relayOrigin, aud, sub, jti, iat, reason, kid, signature } := by
  obtain ⟨_, _, h⟩ := bind_ok h
  cases h
  exact ⟨_, rfl⟩

/-- The revocation carries the relay's signature over its canonical form. -/
def SignedBy (signingKey : Bytes) (r : RelayRevocation) : Prop :=
  ∃ canonical, r.canonicalWithoutSignature X = .ok canonical ∧
    r.signature = Ed25519.sign X signingKey (asBytes canonical)

/-- A signed revocation carries its signature. -/
lemma sign_valid {X : Crates} {signingKey : Bytes} {kid aud sub jti : String} {iat : Int64}
    {reason : String} {r : RelayRevocation} (h : sign X signingKey kid aud sub jti iat reason = .ok r) :
    r.SignedBy X signingKey := by
  obtain ⟨canonical, e, h⟩ := bind_ok h
  cases h
  exact ⟨canonical, e, rfl⟩

/-- The object a revocation is serialised to. -/
def toValue (r : RelayRevocation) : Value :=
  .obj [("version", .int r.version), ("iss", .str r.iss), ("aud", .str r.aud), ("sub", .str r.sub),
    ("jti", .str r.jti), ("iat", .int r.iat), ("reason", .str r.reason), ("kid", .str r.kid),
    ("signature", .str r.signature)]

/-- The revocation a value denotes. -/
def fromValue (value : Value) : Option RelayRevocation := do
  let f ← value.structFields? ["version", "iss", "aud", "sub", "jti", "iat", "reason", "kid", "signature"]
  return {
    version := ← Value.i64Field f "version"
    iss := ← Value.strField f "iss"
    aud := ← Value.strField f "aud"
    sub := ← Value.strField f "sub"
    jti := ← Value.strField f "jti"
    iat := ← Value.i64Field f "iat"
    reason := ← Value.strField f "reason"
    kid := ← Value.strField f "kid"
    signature := ← Value.strField f "signature" }

/-- `RelayRevocation::to_bytes`. -/
def toBytes (r : RelayRevocation) : Bytes := X.jsonToVec r.toValue

end RelayRevocation

end WebLoginRelay
