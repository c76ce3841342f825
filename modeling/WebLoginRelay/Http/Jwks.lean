import WebLoginRelay.Relay

/-!
# The published key

`src/http/jwks.rs`: the key under which sites verify what the relay posts to them.
-/

namespace WebLoginRelay
open Text

/-- `Jwk`. -/
structure Jwk where
  kty : String
  crv : String
  x : String
  use : String
  alg : String
  kid : String
  deriving DecidableEq, Repr

/-- `Jwks`. -/
structure Jwks where
  keys : List Jwk
  deriving DecidableEq, Repr

/-- `ed25519::public_key_raw`, by what `SigningKey::verifying_key` gives. -/
def Ed25519.publicKeyRaw (verifyingKey : Bytes → Bytes) (signingKey : Bytes) : Bytes := verifyingKey signingKey

/-- `jwks`. -/
def jwks (verifyingKey : Bytes → Bytes) (st : AppState) : Jwks :=
  ⟨[{ kty := "OKP", crv := "Ed25519"
      x := Base64url.encode st.crates (Ed25519.publicKeyRaw verifyingKey st.signingKey)
      use := "sig", alg := "EdDSA", kid := st.signingKid }]⟩

/-- `ed25519-dalek` verifies what it has signed, under the verifying key of the signing key. Either key has
32 bytes. -/
structure Crates.Ed25519Correct (X : Crates) (verifyingKey : Bytes → Bytes) : Prop where
  length : ∀ key : Bytes, key.length = 32 → (verifyingKey key).length = 32
  key : ∀ key : Bytes, key.length = 32 → X.ed25519Key (verifyingKey key)
  verify : ∀ key m : Bytes, key.length = 32 → X.ed25519Verify (verifyingKey key) m (X.ed25519Sign key m)

end WebLoginRelay
