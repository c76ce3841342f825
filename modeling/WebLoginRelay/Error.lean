import Mathlib

/-!
# Problem codes

`src/error.rs`: the codes a relay operation can fail with. The text, status and title of a code only
matter to the HTTP layer.
-/

namespace WebLoginRelay

/-- `ProblemCode`. -/
inductive ProblemCode where
  | invalidRequest
  | unsupportedVersion
  | invalidSignature
  | domainVerificationFailed
  | sessionNotFound
  | sessionConflict
  | requestExpired
  | requestCancelled
  | challengeReplayed
  | consentReplayed
  | assertionReplayed
  | audienceMismatch
  | revoked
  | rateLimited
  | relayUnavailable
  | internalError
  deriving DecidableEq, Repr

/-- `RelayError`; the payload of `Internal` is only logged. -/
inductive RelayError where
  | problem (code : ProblemCode)
  | internal
  deriving DecidableEq, Repr

/-- `RelayError::code`. -/
def RelayError.code : RelayError → ProblemCode
  | .problem code => code
  | .internal => .internalError

end WebLoginRelay
