import WebLoginRelay.Protocol.Wire
import WebLoginRelay.Samples.Crates

/-!
# Display names

A display name is checked by the consent, by the registration and the signing of an assertion, by the
challenge and by the metadata of a site. The documents count its characters; the checks count its bytes.
-/

namespace WebLoginRelay
open Text

/-- At most 100 characters, which are Unicode code points. -/
def WithinLimit (name : String) : Prop := name.length ≤ 100

/-- At most 100 characters that take more than 100 bytes. -/
def IsLongInBytes (name : String) : Prop := name.length ≤ 100 ∧ 100 < len name

section Checks
variable {sessionId nonce token keyId signature siteName domain requestedDisplayName name : String}
  {sentAt expiresAt : Int64}

/-- A name that is not empty. -/
lemma not_isEmpty : name.isEmpty = false ↔ name ≠ "" := by
  rw [← Bool.not_eq_true, String.isEmpty_iff]

/-- An approved Consent passes the checks of a refused one, and that of its name. -/
lemma validateInbound_approved :
    (MatrixMessage.consent sessionId nonce sentAt true (some name) token keyId signature).validateInbound =
      .ok () ↔
    (MatrixMessage.consent sessionId nonce sentAt false none token keyId signature).validateInbound = .ok () ∧
      name ≠ "" ∧ len name ≤ 100 := by
  have check : (if !name.isEmpty ∧ len name ≤ maxDisplayName then .ok () else fail .invalidRequest :
      Except RelayError Unit) = .ok () ↔ name ≠ "" ∧ len name ≤ 100 := by
    rw [← not_isEmpty]
    split
    · rename_i h
      exact iff_of_true rfl ⟨by simpa using h.1, h.2⟩
    · rename_i h
      exact iff_of_false nofun fun ok => h ⟨by simpa using ok.1, ok.2⟩
  rw [← check]
  constructor
  · intro h
    obtain ⟨_, id, h⟩ := bind_ok h
    obtain ⟨_, no, h⟩ := bind_ok h
    obtain ⟨_, tok, h⟩ := bind_ok h
    obtain ⟨key, h⟩ := guard_ok h
    obtain ⟨_, sig, h⟩ := bind_ok h
    refine ⟨?_, h⟩
    simp only [MatrixMessage.validateInbound, id, no, tok, sig, ok_bind, if_neg key]
    rfl
  · rintro ⟨h, ok⟩
    obtain ⟨_, id, h⟩ := bind_ok h
    obtain ⟨_, no, h⟩ := bind_ok h
    obtain ⟨_, tok, h⟩ := bind_ok h
    obtain ⟨key, h⟩ := guard_ok h
    obtain ⟨_, sig, h⟩ := bind_ok h
    simp only [MatrixMessage.validateInbound, id, no, tok, sig, ok_bind, if_neg key]
    exact ok

/-- The names of a Challenge are checked one after the other. -/
lemma validateOutbound_challenge :
    (MatrixMessage.challenge sessionId nonce sentAt siteName domain requestedDisplayName token
      expiresAt).validateOutbound = .ok () ↔
    (validateId sessionId = .ok () ∧ validateId nonce = .ok () ∧ validateDomain domain = .ok () ∧
      validateChallengeToken token = .ok ()) ∧
      (siteName ≠ "" ∧ len siteName ≤ 100) ∧ len requestedDisplayName ≤ 100 := by
  rw [← not_isEmpty]
  constructor
  · intro h
    obtain ⟨_, id, h⟩ := bind_ok h
    obtain ⟨_, no, h⟩ := bind_ok h
    obtain ⟨_, dom, h⟩ := bind_ok h
    split at h
    · nomatch h
    rename_i site
    split at h
    · nomatch h
    rename_i requested
    rw [not_or, Bool.not_eq_true, Nat.not_lt] at site
    exact ⟨⟨id, no, dom, h⟩, site, Nat.not_lt.mp requested⟩
  · rintro ⟨⟨id, no, dom, tok⟩, ⟨site, short⟩, requested⟩
    have site' : ¬ (siteName.isEmpty ∨ len siteName > maxDisplayName) := by
      rw [not_or, Bool.not_eq_true, Nat.not_lt]
      exact ⟨site, short⟩
    have requested' : ¬ len requestedDisplayName > maxDisplayName := Nat.not_lt.mpr requested
    simp only [MatrixMessage.validateOutbound, id, no, dom, tok, ok_bind, if_neg site', if_neg requested']

/-- A name is checked for its bytes. -/
lemma validateDisplayName_iff {required : Bool} :
    validateDisplayName name required = .ok () ↔ (required = true → name ≠ "") ∧ len name ≤ 100 := by
  rw [← not_isEmpty]
  unfold validateDisplayName maxDisplayName
  constructor
  · intro h
    split at h
    · nomatch h
    rename_i empty
    split at h
    · nomatch h
    rename_i long
    refine ⟨fun r => ?_, Nat.not_lt.mp long⟩
    exact Bool.not_eq_true _ ▸ fun e => empty ⟨r, .inl e⟩
  · rintro ⟨empty, short⟩
    rw [if_neg, if_neg (Nat.not_lt.mpr short)]
    rintro ⟨r, e | long⟩
    · rw [empty r] at e
      nomatch e
    · exact absurd short (Nat.not_le.mpr long)

end Checks

/-- The metadata passes every check but that of its name. -/
structure SiteMetadata.OtherwiseValid (X : Crates) (m : SiteMetadata) (expectedDomain : String) : Prop where
  version : m.version = protocolVersion
  domain : validateDomain m.domain = .ok ()
  expected : m.domain = expectedDomain
  publicKey : len m.publicKey = 43
  signed : ∃ canonical, Jcs.canonicalizeObject X
    [("displayName", .str m.displayName), ("domain", .str m.domain), ("publicKey", .str m.publicKey),
      ("version", .int m.version)] = .ok canonical ∧
    Ed25519.verify X m.publicKey (asBytes canonical) m.signature = .ok ()

/-- Metadata is accepted if it is valid otherwise and its name passes. -/
lemma SiteMetadata.validateForDomain_iff {X : Crates} {m : SiteMetadata} {expectedDomain : String} :
    m.validateForDomain X expectedDomain = .ok () ↔
      m.OtherwiseValid X expectedDomain ∧ isBlank m.displayName = false ∧ len m.displayName ≤ 100 := by
  constructor
  · intro h
    simp only [SiteMetadata.validateForDomain] at h
    obtain ⟨version, h⟩ := guard_ok h
    obtain ⟨_, domain, h⟩ := bind_ok h
    obtain ⟨expected, h⟩ := guard_ok h
    obtain ⟨name, h⟩ := guard_ok h
    obtain ⟨key, h⟩ := guard_ok h
    obtain ⟨canonical, e, h⟩ := bind_ok h
    rw [not_or, Bool.not_eq_true, Nat.not_lt] at name
    refine ⟨⟨not_not.mp version, domain, not_not.mp expected, not_not.mp key, canonical, e, ?_⟩, name⟩
    split at h
    · assumption
    · nomatch h
  · rintro ⟨⟨version, domain, expected, key, canonical, e, verified⟩, name⟩
    have name' : ¬ (isBlank m.displayName ∨ len m.displayName > maxDisplayName) := by
      rw [not_or, Bool.not_eq_true, Nat.not_lt]
      exact name
    simp only [SiteMetadata.validateForDomain, if_neg (not_not.mpr version), domain, ok_bind,
      if_neg (not_not.mpr expected), if_neg name', if_neg (not_not.mpr key), e, verified]
    rfl

/-- Every check of a name accepts it exactly as the documents say, and a name one check accepts is not
refused by a later check of the same login. -/
structure NamesCounted (X : Crates) (name : String) : Prop where
  consent : ∀ sessionId nonce sentAt token keyId signature,
    (MatrixMessage.consent sessionId nonce sentAt false none token keyId signature).validateInbound = .ok () →
    ((MatrixMessage.consent sessionId nonce sentAt true (some name) token keyId signature).validateInbound =
      .ok () ↔ name ≠ "" ∧ WithinLimit name)
  registration : validateDisplayName name false = .ok () ↔ WithinLimit name
  assertion : validateDisplayName name true = .ok () ↔ name ≠ "" ∧ WithinLimit name
  siteName : ∀ sessionId nonce sentAt domain requested token expiresAt,
    (MatrixMessage.challenge sessionId nonce sentAt "Site" domain requested token
      expiresAt).validateOutbound = .ok () →
    ((MatrixMessage.challenge sessionId nonce sentAt name domain requested token
      expiresAt).validateOutbound = .ok () ↔ name ≠ "" ∧ WithinLimit name)
  requested : ∀ sessionId nonce sentAt site domain token expiresAt,
    (MatrixMessage.challenge sessionId nonce sentAt site domain "" token expiresAt).validateOutbound = .ok () →
    ((MatrixMessage.challenge sessionId nonce sentAt site domain name token expiresAt).validateOutbound =
      .ok () ↔ WithinLimit name)
  metadata : ∀ (m : SiteMetadata) (expectedDomain : String), m.displayName = name → m.OtherwiseValid X expectedDomain →
    (m.validateForDomain X expectedDomain = .ok () ↔ isBlank name = false ∧ WithinLimit name)
  consent_assertion : ∀ sessionId nonce sentAt token keyId signature,
    (MatrixMessage.consent sessionId nonce sentAt true (some name) token keyId signature).validateInbound =
      .ok () → validateDisplayName name true = .ok ()
  metadata_siteName : ∀ (m : SiteMetadata) (expectedDomain : String), m.displayName = name →
    m.validateForDomain X expectedDomain = .ok () →
    ∀ sessionId nonce sentAt domain requested token expiresAt,
      (MatrixMessage.challenge sessionId nonce sentAt "Site" domain requested token
        expiresAt).validateOutbound = .ok () →
      (MatrixMessage.challenge sessionId nonce sentAt name domain requested token
        expiresAt).validateOutbound = .ok ()
  registration_requested : validateDisplayName name false = .ok () →
    ∀ sessionId nonce sentAt site domain token expiresAt,
      (MatrixMessage.challenge sessionId nonce sentAt site domain "" token expiresAt).validateOutbound =
        .ok () →
      (MatrixMessage.challenge sessionId nonce sentAt site domain name token expiresAt).validateOutbound =
        .ok ()

/-- A name that is not blank is not empty. -/
lemma ne_empty_of_not_blank {name : String} (h : isBlank name = false) : name ≠ "" := by
  rintro rfl
  nomatch h

/-- A name is counted in characters everywhere if and only if it does not have few characters in many
bytes. -/
theorem names_counted_iff (X : Crates) (name : String) : NamesCounted X name ↔ ¬ IsLongInBytes name := by
  constructor
  · rintro counted ⟨within, long⟩
    have accepted := validateDisplayName_iff.mp (counted.registration.mpr within)
    exact absurd accepted.2 (Nat.not_le.mpr long)
  · intro short
    -- outside of the kind the two limits agree
    have limit : len name ≤ 100 ↔ WithinLimit name := by
      constructor
      · intro le
        exact (length_le_len name).trans le
      · intro within
        exact Nat.not_lt.mp fun long => short ⟨within, long⟩
    constructor
    · intro _ _ _ _ _ _ refused
      rw [validateInbound_approved, limit]
      exact ⟨And.right, fun ok => ⟨refused, ok⟩⟩
    · rw [validateDisplayName_iff, limit]
      exact ⟨And.right, fun within => ⟨nofun, within⟩⟩
    · rw [validateDisplayName_iff, limit]
      exact ⟨fun ok => ⟨ok.1 rfl, ok.2⟩, fun ok => ⟨fun _ => ok.1, ok.2⟩⟩
    · intro _ _ _ _ _ _ _ h
      obtain ⟨others, _, requested⟩ := validateOutbound_challenge.mp h
      rw [← limit]
      constructor
      · intro h
        exact (validateOutbound_challenge.mp h).2.1
      · intro ok
        exact validateOutbound_challenge.mpr ⟨others, ok, requested⟩
    · intro _ _ _ _ _ _ _ h
      obtain ⟨others, site, _⟩ := validateOutbound_challenge.mp h
      rw [← limit]
      constructor
      · intro h
        exact (validateOutbound_challenge.mp h).2.2
      · intro ok
        exact validateOutbound_challenge.mpr ⟨others, site, ok⟩
    · rintro m expectedDomain rfl valid
      rw [SiteMetadata.validateForDomain_iff, limit]
      exact ⟨And.right, fun ok => ⟨valid, ok⟩⟩
    · intro _ _ _ _ _ _ h
      obtain ⟨_, nonempty, le⟩ := validateInbound_approved.mp h
      exact validateDisplayName_iff.mpr ⟨fun _ => nonempty, le⟩
    · rintro m expectedDomain rfl valid _ _ _ _ _ _ _ h
      obtain ⟨_, blank, le⟩ := SiteMetadata.validateForDomain_iff.mp valid
      obtain ⟨others, _, requested⟩ := validateOutbound_challenge.mp h
      exact validateOutbound_challenge.mpr ⟨others, ⟨ne_empty_of_not_blank blank, le⟩, requested⟩
    · intro valid _ _ _ _ _ _ _ h
      obtain ⟨others, site, _⟩ := validateOutbound_challenge.mp h
      exact validateOutbound_challenge.mpr ⟨others, site, (validateDisplayName_iff.mp valid).2⟩

/-- A name of 51 characters in 102 bytes is refused. -/
theorem accents_are_too_long : ¬ ∀ X name, NamesCounted X name := by
  intro claim
  have counted := claim .stub (String.ofList (List.replicate 51 'é'))
  have within : WithinLimit (String.ofList (List.replicate 51 'é')) := by
    unfold WithinLimit
    rw [String.length_ofList, List.length_replicate]
    decide
  have refused : validateDisplayName (String.ofList (List.replicate 51 'é')) false ≠ .ok () := by
    decide +kernel
  exact refused (counted.registration.mpr within)

end WebLoginRelay
