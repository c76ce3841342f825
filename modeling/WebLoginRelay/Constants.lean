import WebLoginRelay.Text.Utf8

/-!
# Constants

`src/constants.rs`, as far as the modelled code reads it.
-/

namespace WebLoginRelay

/-- `RELAY_ORIGIN`. -/
def relayOrigin : String := "https://relay.pseud0.org"

/-- `MATRIX_USER_ID`. -/
def matrixUserId : String := "@web-login:pseud0.org"

/-- `MATRIX_PREFIX`. -/
def matrixPrefix : String := "pseud0-web-login-v1:"

/-- `MAX_TTL_MS`. -/
def maxTtlMs : Int64 := 300000

/-- `CLOCK_SKEW_MS`. -/
def clockSkewMs : Int64 := 30000

/-- `REPLAY_GRACE_MS`. -/
def replayGraceMs : Int64 := 30000

/-- `MAX_METADATA_BYTES`. -/
def maxMetadataBytes : Nat := 16384

/-- `MAX_SITE_RESPONSE_BYTES`. -/
def maxSiteResponseBytes : Nat := 16384

/-- `MAX_DECODED_BODY`. -/
def maxDecodedBody : Nat := 32768

/-- `MAX_DISPLAY_NAME`. -/
def maxDisplayName : Nat := 100

/-- `MAX_DOMAIN`. -/
def maxDomain : Nat := 253

/-- `PROTOCOL_VERSION`. -/
def protocolVersion : Int64 := 1

/-- `SUBJECT_CONTEXT`. -/
def subjectContext : Text.Bytes := Text.asBytes "pseud0-sub-v1" ++ [0]

/-- `ASSERTION_PATH`. -/
def assertionPath : String := "/pseud0/web-login/assertions"

/-- `REVOCATION_PATH`. -/
def revocationPath : String := "/pseud0/web-login/revocations"

/-- `METADATA_PATH`. -/
def metadataPath : String := "/.well-known/pseud0-web-login"

/-- `CHALLENGE_BYTES`. -/
def challengeBytes : Nat := 16

/-- `JTI_BYTES`. -/
def jtiBytes : Nat := 16

end WebLoginRelay
