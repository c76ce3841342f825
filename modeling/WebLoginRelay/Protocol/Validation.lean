import WebLoginRelay.Crypto.Primitives
import WebLoginRelay.Text.Regex

/-!
# Field checks

`src/protocol/time.rs`, `src/protocol/domain.rs` and `src/protocol/validation.rs`. Times are `i64`
milliseconds; the saturating operations are those of Rust.
-/

namespace WebLoginRelay
open Text

/-- Clamp to the range of `i64`. -/
def saturate (n : Int) : Int64 :=
  if n ≤ -9223372036854775808 then Int64.minValue
  else if 9223372036854775807 ≤ n then Int64.maxValue
  else Int64.ofInt n

/-- `i64::saturating_add`. -/
def saturatingAdd (a b : Int64) : Int64 := saturate (a.toInt + b.toInt)

/-- `i64::saturating_sub`. -/
def saturatingSub (a b : Int64) : Int64 := saturate (a.toInt - b.toInt)

/-- `validate_window`. -/
def validateWindow (iat exp : Int64) : Except RelayError Unit :=
  if exp ≤ iat ∨ maxTtlMs < saturatingSub exp iat then fail .requestExpired else .ok ()

/-- `sent_at_in_qr_window`. -/
def sentAtInQrWindow (sentAt iat exp : Int64) : Bool :=
  saturatingSub iat clockSkewMs ≤ sentAt && sentAt ≤ exp

/-- `challenge_expires_at`. -/
def challengeExpiresAt (sentAt registrationExp : Int64) : Int64 :=
  min (saturatingAdd sentAt maxTtlMs) registrationExp

/-- `[a-z]`. -/
def isLower (c : Char) : Bool := 'a' ≤ c && c ≤ 'z'

/-- `[0-9]`. -/
def isDigit (c : Char) : Bool := '0' ≤ c && c ≤ '9'

/-- `[A-Za-z0-9_-]`. -/
def isUrlSafe (c : Char) : Bool :=
  ('A' ≤ c && c ≤ 'Z') || isLower c || isDigit c || c == '_' || c == '-'

/-- `DOMAIN_RE`: `^(?:[a-z0-9](?:[a-z0-9-]{0,61}[a-z0-9])?\.)+[a-z]{2,63}$`. -/
def domainRe : Regex :=
  let alnum := Regex.cls fun c => isLower c || isDigit c
  let alnumDash := Regex.cls fun c => isLower c || isDigit c || c == '-'
  let label := Regex.seq alnum (Regex.opt (Regex.seq (alnumDash.upTo 61) alnum))
  let dot := Regex.cls (· == '.')
  Regex.seq (Regex.plus (Regex.seq label dot)) ((Regex.cls isLower).between 2 63)

/-- `Ipv4Addr::from_str` succeeds: four decimal octets without leading zeros. -/
def isIpv4 (s : String) : Bool :=
  let parts := s.toList.splitOn '.'
  parts.length == 4 && parts.all fun p =>
    !p.isEmpty && p.length ≤ 3 && p.all isDigit && (p.length == 1 || p.head? != some '0') &&
      p.foldl (fun n c => 10 * n + (c.toNat - '0'.toNat)) 0 ≤ 255

/-- `validate_domain`. An IPv6 literal has a `:` and is rejected by that check already. -/
def validateDomain (domain : String) : Except RelayError Unit :=
  if len domain > maxDomain ∨ endsWith domain "." ∨ contains domain ":" ∨ contains domain "/"
      ∨ contains domain "@" ∨ isIpv4 domain ∨ !domainRe.isMatch domain then
    fail .invalidRequest
  else .ok ()

/-- A check by an anchored pattern. -/
def validatePattern (re : Regex) (code : ProblemCode) (value : String) : Except RelayError Unit :=
  if re.isMatch value then .ok () else fail code

/-- `validate_id`. -/
def validateId : String → Except RelayError Unit :=
  validatePattern ((Regex.cls isUrlSafe).between 16 128) .invalidRequest

/-- `validate_signature_b64`. -/
def validateSignatureB64 : String → Except RelayError Unit :=
  validatePattern ((Regex.cls isUrlSafe).exactly 86) .invalidSignature

/-- `validate_site_account_id`. -/
def validateSiteAccountId : String → Except RelayError Unit :=
  validatePattern ((Regex.cls isUrlSafe).between 22 128) .invalidRequest

/-- `validate_challenge_token`. -/
def validateChallengeToken : String → Except RelayError Unit :=
  validatePattern ((Regex.cls isUrlSafe).between 16 512) .invalidRequest

/-- `validate_kid`. -/
def validateKid : String → Except RelayError Unit :=
  validatePattern ((Regex.cls fun c => isUrlSafe c || c == '.').between 1 64) .invalidRequest

/-- A text is valid if its pattern matches. -/
lemma validatePattern_ok {re : Regex} {code : ProblemCode} {value : String} :
    validatePattern re code value = .ok () ↔ re.isMatch value := by
  unfold validatePattern
  split
  · rename_i h
    exact iff_of_true rfl h
  · rename_i h
    exact iff_of_false nofun h

/-- A check by a repeated class says how long the value is and what it consists of. -/
lemma validatePattern_between {p : Char → Bool} {lo hi : Nat} {code : ProblemCode} {value : String}
    (le : lo ≤ hi) : validatePattern ((Regex.cls p).between lo hi) code value = .ok () ↔
      lo ≤ value.length ∧ value.length ≤ hi ∧ ∀ c ∈ value.toList, p c := by
  rw [← String.length_toList, ← Regex.lang_between le, ← Regex.isMatch_iff, validatePattern_ok]

/-- The valid ids. -/
lemma validateId_iff {value : String} : validateId value = .ok () ↔
    16 ≤ value.length ∧ value.length ≤ 128 ∧ ∀ c ∈ value.toList, isUrlSafe c :=
  validatePattern_between (by decide)

/-- The valid account ids. -/
lemma validateSiteAccountId_iff {value : String} : validateSiteAccountId value = .ok () ↔
    22 ≤ value.length ∧ value.length ≤ 128 ∧ ∀ c ∈ value.toList, isUrlSafe c :=
  validatePattern_between (by decide)

/-- The valid challenges. -/
lemma validateChallengeToken_iff {value : String} : validateChallengeToken value = .ok () ↔
    16 ≤ value.length ∧ value.length ≤ 512 ∧ ∀ c ∈ value.toList, isUrlSafe c :=
  validatePattern_between (by decide)

/-- The valid signatures. -/
lemma validateSignatureB64_iff {value : String} : validateSignatureB64 value = .ok () ↔
    value.length = 86 ∧ ∀ c ∈ value.toList, isUrlSafe c := by
  rw [← String.length_toList, ← Regex.lang_exactly, ← Regex.isMatch_iff]
  exact validatePattern_ok

/-- An accepted domain is short. -/
lemma len_of_validateDomain {domain : String} (h : validateDomain domain = .ok ()) :
    len domain ≤ maxDomain := by
  unfold validateDomain at h
  split at h
  · nomatch h
  · rename_i ok
    exact Nat.not_lt.mp fun long => ok (.inl long)

/-- `validate_reason`. -/
def validateReason (value : String) : Except RelayError Unit :=
  if len value ≤ 100 then .ok () else fail .invalidRequest

/-- `validate_display_name`. -/
def validateDisplayName (value : String) (required : Bool) : Except RelayError Unit :=
  if required ∧ (value.isEmpty ∨ len value > maxDisplayName) then fail .invalidRequest
  else if len value > maxDisplayName then fail .invalidRequest
  else .ok ()

end WebLoginRelay
