import WebLoginRelay.Protocol.Wire
import WebLoginRelay.Text.Base64url

/-!
# Crates that compute

An instance of `Crates` the model can be run with. The encodings and JSON are what the crates
implement; hashes, ciphers and signatures are stand-ins with the lengths of the real ones that satisfy
the laws the results rely on.
-/

namespace WebLoginRelay
open Text

namespace Stub

/-- The first `n` bytes, filled up with zeros. -/
def fit (n : Nat) (b : Bytes) : Bytes := (b ++ List.replicate n 0).take n

/-- A text that is made to fit has the length asked for. -/
lemma length_fit (n : Nat) (b : Bytes) : (fit n b).length = n := by simp [fit]

/-- A padded message: 32 bytes for every message of at most 31. -/
def pad (m : Bytes) : Bytes := m ++ 1 :: List.replicate (31 - m.length) 0

/-- The tag of a ciphertext. -/
def tag : Bytes := List.replicate 16 0

/-- A ciphertext without its tag. -/
def untag (c : Bytes) : Option Bytes :=
  if c.drop (c.length - 16) = tag then some (c.take (c.length - 16)) else none

/-- The digit of a base58 character. -/
def base58Digit (c : Char) : Option Nat :=
  let n := c.toNat
  if 49 ≤ n ∧ n ≤ 57 then some (n - 49)
  else if 65 ≤ n ∧ n ≤ 72 then some (n - 56)
  else if 74 ≤ n ∧ n ≤ 78 then some (n - 57)
  else if 80 ≤ n ∧ n ≤ 90 then some (n - 58)
  else if 97 ≤ n ∧ n ≤ 107 then some (n - 64)
  else if 109 ≤ n ∧ n ≤ 122 then some (n - 65)
  else none

/-- The bytes of a number, from the lowest one up; at most `fuel` of them. -/
def littleEndian : Nat → Nat → Bytes
  | 0, _ => []
  | fuel + 1, n => if n = 0 then [] else UInt8.ofNat n :: littleEndian fuel (n / 256)

/-- The bytes of a base58 text: leading ones are zero bytes. -/
def base58Decode (s : String) : Option Bytes := do
  let digits ← s.toList.mapM base58Digit
  let zeros := digits.takeWhile (· == 0)
  let n := digits.foldl (fun n d => 58 * n + d) 0
  return zeros.map (fun _ => 0) ++ (littleEndian digits.length n).reverse

/-- The padding can be taken off again. -/
lemma eq_of_zeros {j k : Nat} {m m' : Bytes}
    (h : List.replicate j (0 : UInt8) ++ 1 :: m = List.replicate k 0 ++ 1 :: m') : m = m' := by
  induction j generalizing k with
  | zero =>
    cases k with
    | zero => exact (List.cons.inj h).2
    | succ k => exact absurd (List.cons.inj h).1 (by decide)
  | succ j ih =>
    cases k with
    | zero => exact absurd (List.cons.inj h).1 (by decide)
    | succ k => exact ih (List.cons.inj h).2

/-- Padding loses nothing. -/
lemma pad_inj {m m' : Bytes} (h : pad m = pad m') : m = m' := by
  have r := congrArg List.reverse h
  simp only [pad, List.reverse_append, List.reverse_cons, List.reverse_replicate,
    List.append_assoc, List.singleton_append] at r
  exact List.reverse_inj.mp (eq_of_zeros r)

/-- A tag can be taken off again. -/
lemma untag_append (m : Bytes) : untag (m ++ tag) = some m := by
  have len : (m ++ tag).length - 16 = m.length := by simp [tag]
  rw [untag, len, List.drop_left, if_pos rfl, List.take_left]

end Stub

/-- Crates the model can be run with. -/
def Crates.stub : Crates where
  hmacSha256 _ m := Stub.pad m
  sha256 := Stub.fit 32
  aesGcmEncrypt _ _ m := some (m ++ Stub.tag)
  aesGcmDecrypt _ _ c := Stub.untag c
  ed25519Key key := key.length == 32
  ed25519Verify key m signature := signature == Stub.fit 64 (key ++ m)
  ed25519Sign key m := Stub.fit 64 (key ++ m)
  p256Key key := key.length == 33
  p256Signature signature := signature.length == 64
  p256Verify key digest signature := signature == Stub.fit 64 (key ++ digest)
  bs58Decode := Stub.base58Decode
  base64Encode := Text.Base64url.encode
  base64Decode := Text.Base64url.decode
  jsonString s := String.ofList (JsonText.printString s)
  jsonToVec v := (JsonText.print v).flatMap String.utf8EncodeChar
  jsonValue := JsonText.parse
  timestampMillis ms := -8334601228800000 ≤ ms && ms ≤ 8210266876799999

namespace Crates

/-- The stub of HMAC gives distinct hashes to distinct texts. -/
lemma stub_hmac : stub.HmacCollisionFree := fun _ _ _ e => Stub.pad_inj e

/-- What the stub encrypts it can decrypt. -/
lemma stub_aead : stub.AeadCorrect := by
  intro key nonce m c e
  cases e
  exact ⟨Stub.untag_append m, by simp [Stub.tag]⟩

/-- What the stub encodes it can decode. -/
lemma stub_base64 : stub.Base64Correct := Text.Base64url.decode_encode

/-- The stub encodes with the characters and the lengths of base64url. -/
lemma stub_base64Shape : stub.Base64Shape := by
  intro b
  refine ⟨?_, fun c hc => ?_⟩
  · rw [len_eq_length]
    simp only [stub, Text.Base64url.asBytes_encode, List.length_map, Text.Base64url.length_split]
  · simp only [stub, Text.Base64url.asBytes_encode, List.mem_map] at hc
    obtain ⟨n, hn, rfl⟩ := hc
    have all : ∀ n : Fin 64, isBase64Byte (Text.Base64url.char n).toUInt8 := by decide
    exact all ⟨n, Text.Base64url.lt_of_mem_split n hn⟩

/-- What the stub serialises it can parse. -/
lemma stub_json : stub.JsonCorrect := by
  intro fields _ sc
  simp only [stub, jsonParse, ← asBytes_ofList, fromUtf8_asBytes, Option.bind_some, JsonText.parse_print sc]
  rfl

/-- The stub serialises without blanks. -/
lemma stub_compact : stub.JsonCompact := fun _ _ => (asBytes_ofList _).symm

/-- Signatures of the stub have their length. -/
lemma stub_signature : stub.SignatureLength := fun _ _ => Stub.length_fit ..

end Crates

end WebLoginRelay
