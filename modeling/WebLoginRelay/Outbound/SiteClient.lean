import WebLoginRelay.Protocol.Messages
import WebLoginRelay.Relay

/-!
# Requests to sites

The `SiteFetcher` of `src/outbound/site_client.rs`, over one HTTP exchange.
-/

namespace WebLoginRelay
open Text Relay

/-- `.map_err(|_| RelayError::problem(code))`. -/
def orFail {α} (code : ProblemCode) : Except RelayError α → Except RelayError α
  | .ok a => .ok a
  | .error _ => fail code

/-- `SsrfSiteClient::fetch_metadata`. -/
def fetchMetadata (st : AppState) (domain : String) : Relay SiteMetadata := do
  let response ← request ⟨domain, metadataPath, .get, [], [], maxMetadataBytes⟩
  if response.status ≠ 200 then throw (.problem .domainVerificationFailed)
  else
    let metadata ←
      orFail .domainVerificationFailed (strictFromSlice st.crates SiteMetadata.fromValue response.body)
    metadata.validateForDomain st.crates domain
    return metadata

/-- `SsrfSiteClient::post_json`. -/
def postJson (domain path : String) (body : Bytes) (idempotencyKey : Option String) :
    Relay SiteResponse :=
  let headers := idempotencyKey.toList.map fun key => ("Idempotency-Key", key)
  request ⟨domain, path, .post, headers, body, maxSiteResponseBytes⟩

end WebLoginRelay
