import WebLoginRelay.Crypto.Primitives

/-!
# Canonical JSON and signatures

`src/crypto/jcs.rs`, `src/crypto/ed25519.rs`, `src/crypto/did_key.rs` and
`src/crypto/p256_consent.rs`. Values here have `i64` numbers only, so `write_number` cannot fail; the
one error of `canonicalize_object` is a repeated key.
-/

namespace WebLoginRelay
open Text

namespace Jcs
variable (X : Crates)

/-- `keys.sort()`: in the order of the keys' bytes. -/
def sortKeys (fields : List (String × String)) : List (String × String) :=
  fields.insertionSort fun f g => asBytes f.1 ≤ asBytes g.1

mutual

/-- `write_value`. -/
def writeValue : Value → String
  | .null => "null"
  | .bool true => "true"
  | .bool false => "false"
  | .int n => toString n.toInt
  | .str s => X.jsonString s
  | .arr items => "[" ++ ",".intercalate (writeItems items) ++ "]"
  | .obj fields => "\x7b" ++ ",".intercalate ((sortKeys (writeFields fields)).map Prod.snd) ++ "\x7d"

/-- The items of an array. -/
def writeItems : List Value → List String
  | [] => []
  | v :: vs => writeValue v :: writeItems vs

/-- The fields of an object, each with its key. -/
def writeFields : List (String × Value) → List (String × String)
  | [] => []
  | (key, v) :: rest => (key, X.jsonString key ++ ":" ++ writeValue v) :: writeFields rest

end

/-- `canonicalize_object`. -/
def canonicalizeObject (fields : List (String × Value)) : Except RelayError String :=
  if (fields.map Prod.fst).Nodup then .ok (writeValue X (.obj fields)) else fail .invalidRequest

end Jcs

namespace Ed25519
variable (X : Crates)

/-- `ed25519::parse_public_key`: raw, or the tail of a DER `SubjectPublicKeyInfo`. -/
def parsePublicKey (encoded : String) : Except RelayError Bytes := do
  let raw ← Base64url.decode X encoded
  let key ←
    if raw.length = 32 then pure raw
    else if raw.length = 44 then pure (raw.drop (raw.length - 32))
    else fail .invalidSignature
  if X.ed25519Key key then pure key else fail .invalidSignature

/-- `ed25519::sign`. -/
def sign (signingKey message : Bytes) : String := Base64url.encode X (X.ed25519Sign signingKey message)

/-- `ed25519::verify`. -/
def verify (publicKey : String) (message : Bytes) (signature : String) : Except RelayError Unit := do
  let verifying ← parsePublicKey X publicKey
  let sigBytes ← Base64url.decode X signature
  if sigBytes.length ≠ 64 then fail .invalidSignature
  else if X.ed25519Verify verifying message sigBytes then pure ()
  else fail .invalidSignature

end Ed25519

namespace P256
variable (X : Crates)

/-- `decode_p256_did_key`: the compressed point of the key. -/
def decodeDidKey (keyId : String) : Except RelayError Bytes :=
  match stripPrefix keyId "did:key:z" with
  | none => fail .invalidSignature
  | some encoded =>
    match X.bs58Decode encoded with
    | none => fail .invalidSignature
    | some decoded =>
      if decoded.length ≠ 35 ∨ decoded[0]? ≠ some 0x80 ∨ decoded[1]? ≠ some 0x24 then
        fail .invalidSignature
      else if decoded[2]? ≠ some 0x02 ∧ decoded[2]? ≠ some 0x03 then fail .invalidSignature
      else if X.p256Key (decoded.drop 2) then .ok (decoded.drop 2)
      else fail .invalidSignature

/-- `looks_like_der`. -/
def looksLikeDer (b : Bytes) : Bool := b.head? == some 0x30

/-- `verify_consent_signature`. -/
def verifyConsentSignature (keyId : String) (canonical : Bytes) (signature : String) :
    Except RelayError Unit := do
  let verifying ← decodeDidKey X keyId
  let raw ← Base64url.decode X signature
  if raw.length ≠ 64 then fail .invalidSignature
  else if looksLikeDer raw then fail .invalidSignature
  else if !X.p256Signature raw then fail .invalidSignature
  else if X.p256Verify verifying (X.sha256 canonical) raw then pure ()
  else fail .invalidSignature

end P256

end WebLoginRelay
