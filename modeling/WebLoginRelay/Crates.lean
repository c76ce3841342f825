import WebLoginRelay.Json

/-!
# The crates the relay is built on

The relay's own code calls third-party crates for cryptography, encodings and calendar time. They are
parameters of the model, collected in `Crates`; what a result relies on is stated as one of the
properties at the end of the file, each of them documented behaviour of its crate.
-/

namespace WebLoginRelay
open Text

/-- The functions of `hmac`, `sha2`, `aes-gcm`, `ed25519-dalek`, `p256`, `bs58`, `base64`,
`serde_json` and `chrono` the relay calls. -/
structure Crates where
  /-- `Hmac<Sha256>`: key, message. `new_from_slice` accepts a key of any length. -/
  hmacSha256 : Bytes → Bytes → Bytes
  /-- `Sha256::digest`. -/
  sha256 : Bytes → Bytes
  /-- `Aes256Gcm::encrypt`: key, nonce, plaintext. -/
  aesGcmEncrypt : Bytes → Bytes → Bytes → Option Bytes
  /-- `Aes256Gcm::decrypt`: key, nonce, ciphertext. -/
  aesGcmDecrypt : Bytes → Bytes → Bytes → Option Bytes
  /-- `VerifyingKey::from_bytes` succeeds. -/
  ed25519Key : Bytes → Bool
  /-- `VerifyingKey::verify`: key, message, signature. -/
  ed25519Verify : Bytes → Bytes → Bytes → Bool
  /-- `SigningKey::sign`: key, message. -/
  ed25519Sign : Bytes → Bytes → Bytes
  /-- `PublicKey::from_sec1_bytes` succeeds: the bytes are a point on P-256. -/
  p256Key : Bytes → Bool
  /-- `p256::ecdsa::Signature::from_slice` succeeds: both scalars are in range. -/
  p256Signature : Bytes → Bool
  /-- `VerifyingKey::verify_prehash`: key, digest, signature. -/
  p256Verify : Bytes → Bytes → Bytes → Bool
  /-- `bs58::decode(..).into_vec()`. -/
  bs58Decode : String → Option Bytes
  /-- `URL_SAFE_NO_PAD.encode`. -/
  base64Encode : Bytes → String
  /-- `URL_SAFE_NO_PAD.decode`. -/
  base64Decode : String → Option Bytes
  /-- `serde_json::to_string` of a string: the quoted and escaped literal. -/
  jsonString : String → String
  /-- `serde_json::to_vec` of a struct, given as the object it is serialised to. -/
  jsonToVec : Value → Bytes
  /-- What a `serde_json::Deserializer` reports of the first JSON text of the input, and the input
  after it. -/
  jsonValue : String → Option (Json × String)
  /-- `Utc.timestamp_millis_opt(ms).single()` is present. -/
  timestampMillis : Int64 → Bool

namespace Crates
variable (X : Crates)

/-- The parse of a whole text: nothing but whitespace follows what was read. -/
def jsonParse (text : String) : Option Json :=
  match X.jsonValue text with
  | some (json, rest) => if Json.isEnd rest then some json else none
  | none => none

/-- No two messages have the same HMAC under one key. -/
def HmacCollisionFree : Prop := ∀ key m m', X.hmacSha256 key m = X.hmacSha256 key m' → m = m'

/-- AES-GCM decryption undoes encryption, and a ciphertext carries its tag. -/
def AeadCorrect : Prop :=
  ∀ key nonce m c, X.aesGcmEncrypt key nonce m = some c → X.aesGcmDecrypt key nonce c = some m ∧ c ≠ []

/-- Base64 decoding undoes encoding. -/
def Base64Correct : Prop := ∀ b, X.base64Decode (X.base64Encode b) = some b

/-- A byte of the base64url alphabet. -/
def isBase64Byte (b : UInt8) : Bool :=
  ('0'.toUInt8 ≤ b && b ≤ '9'.toUInt8) || ('A'.toUInt8 ≤ b && b ≤ 'Z'.toUInt8)
    || ('a'.toUInt8 ≤ b && b ≤ 'z'.toUInt8) || b == '-'.toUInt8 || b == '_'.toUInt8

/-- Base64 text has four characters of the alphabet for three bytes. -/
def Base64Shape : Prop := ∀ b, len (X.base64Encode b) = (4 * b.length + 2) / 3 ∧
  ∀ c ∈ asBytes (X.base64Encode b), isBase64Byte c

/-- Ed25519 signatures have 64 bytes. -/
def SignatureLength : Prop := ∀ key m, (X.ed25519Sign key m).length = 64

/-- A printed object of scalars parses to the same fields. -/
def JsonCorrect : Prop :=
  ∀ fields : List (String × Value), (fields.map Prod.fst).Nodup → (∀ f ∈ fields, f.2.isScalar) →
    (fromUtf8 (X.jsonToVec (.obj fields))).bind X.jsonParse =
      some (.obj (fields.map fun f => (f.1, Json.ofScalar f.2)))

variable {X}

/-- Base64 text determines the bytes. -/
lemma Base64Correct.inj (b64 : X.Base64Correct) {b b'} (e : X.base64Encode b = X.base64Encode b') :
    b = b' := by
  have h := b64 b
  rw [e, b64 b'] at h
  exact (Option.some.inj h).symm

end Crates

end WebLoginRelay
