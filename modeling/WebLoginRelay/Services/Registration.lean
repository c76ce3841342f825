import WebLoginRelay.Db.Access
import WebLoginRelay.Outbound.SiteClient

/-!
# Registration

`src/services/registration.rs`: a site registers the session of a QR code.
-/

namespace WebLoginRelay
open Text Relay

/-- The error of `fetch_metadata` is not passed on. -/
def fetchVerifiedMetadata (st : AppState) (domain : String) : Relay SiteMetadata :=
  ExceptT.mk do
    let r ← (fetchMetadata st domain).run
    pure (orFail .domainVerificationFailed r)

/-- The `NewSession` of a request. -/
def RegistrationRequest.newSession (st : AppState) (request : RegistrationRequest)
    (metadata : SiteMetadata) (nonceCiphertext : Bytes) : NewSession where
  domain := request.domain
  sessionId := request.sessionId
  nonceHash := st.lookupHash request.nonce
  nonceCiphertext
  iat := request.iat
  exp := request.exp
  requestedDisplayName := request.requestedDisplayName
  siteDisplayName := metadata.displayName
  sitePublicKey := metadata.publicKey
  qrSignature := request.qrSignature
  registrationSignature := request.registrationSignature
  registrationHash := keyedHash st.crates st.lookupPepper (st.crates.jsonToVec request.toValue)

/-- `register_session`, once the request has been verified. -/
def storeSession (st : AppState) (request : RegistrationRequest) (metadata : SiteMetadata) :
    Relay (RegistrationResponse × Bool) := do
  let nonceCiphertext ← st.encrypt (asBytes request.nonce)
  inTx do
    let outcome ← insertRegistered st (request.newSession st metadata nonceCiphertext)
    commit
    return (⟨1, request.sessionId, request.exp⟩, outcome == .created)

/-- `register_session`. -/
def registerSession (st : AppState) (request : RegistrationRequest) :
    Relay (RegistrationResponse × Bool) := do
  request.validate
  let now ← nowMs
  if request.exp ≤ now then throw (.problem .requestExpired)
  else
    let metadata ← fetchVerifiedMetadata st request.domain
    let qr ← request.qrCanonical st.crates
    orFail .invalidSignature (Ed25519.verify st.crates metadata.publicKey qr request.qrSignature)
    let registration ← request.registrationCanonical st.crates
    orFail .invalidSignature
      (Ed25519.verify st.crates metadata.publicKey registration request.registrationSignature)
    storeSession st request metadata

end WebLoginRelay
