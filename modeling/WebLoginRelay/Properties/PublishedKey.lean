import WebLoginRelay.Http.Jwks
import WebLoginRelay.Properties.Delivering

/-!
# Posts and the published key

A site that has fetched `/.well-known/jwks.json` can verify everything the relay posts to it: the message names
the published key, and its signature is accepted under it.
-/

namespace WebLoginRelay
open Text Txn

variable {st : AppState} {X : Crates} {verifyingKey : Bytes → Bytes}

/-- What is signed is accepted under the published key. -/
lemma Ed25519.verify_sign (b64 : X.Base64Correct) (shape : X.Base64Shape) (length : X.SignatureLength)
    (ed : X.Ed25519Correct verifyingKey) {key : Bytes} (size : key.length = 32) (message : Bytes) :
    Ed25519.verify X (Base64url.encode X (publicKeyRaw verifyingKey key)) message (sign X key message) = .ok () := by
  have parsed : parsePublicKey X (Base64url.encode X (publicKeyRaw verifyingKey key)) =
      .ok (publicKeyRaw verifyingKey key) := by
    rw [parsePublicKey, Base64url.decode_encode b64 shape, ok_bind]
    exact (if_pos (ed.length key size)).trans (if_pos (ed.key key size))
  have accepted := ed.verify key message size
  rw [verify, parsed, ok_bind, sign, Base64url.decode_encode b64 shape, ok_bind,
    if_neg (not_not.mpr (length key message))]
  exact if_pos accepted

/-- The assertion names the relay's key. -/
structure RelayAssertion.Keyed (st : AppState) (a : RelayAssertion) (domain : String) : Prop where
  version : a.version = protocolVersion
  iss : a.iss = relayOrigin
  aud : a.aud = domain
  kid : a.kid = st.signingKid
  signed : a.SignedBy st.crates st.signingKey

/-- The revocation names the relay's key. -/
structure RelayRevocation.Keyed (st : AppState) (v : RelayRevocation) (domain : String) : Prop where
  version : v.version = protocolVersion
  iss : v.iss = relayOrigin
  aud : v.aud = domain
  kid : v.kid = st.signingKid
  signed : v.SignedBy st.crates st.signingKey

/-- A revocation is read from its bytes. -/
lemma RelayRevocation.strictFromSlice_toBytes {X : Crates} (json : X.JsonCorrect) (v : RelayRevocation) :
    strictFromSlice X RelayRevocation.fromValue (v.toBytes X) = .ok v := by
  refine strictFromSlice_jsonToVec json (by simp) (by simp) ?_
  obtain ⟨fields, e⟩ : ∃ f, v.toValue.fields? = some f := ⟨_, rfl⟩
  cases e
  rfl

/-- The job holds the ciphertext of a message that names the relay's key. -/
def DeliveryJob.Keyed (st : AppState) (j : DeliveryJob) : Prop :=
  ∃ payload, Sealed st payload j.payloadCiphertext ∧
    ((∃ a : RelayAssertion, payload = a.toBytes st.crates ∧ a.Keyed st j.domain) ∨
      ∃ v : RelayRevocation, payload = v.toBytes st.crates ∧ v.Keyed st j.domain)

/-- What a job holds does not change. -/
lemma DeliveryJob.Keyed.congr {i j : DeliveryJob} (h : i.Keyed st) (e : j.fixed = i.fixed) : j.Keyed st := by
  have domain : j.domain = i.domain := DeliveryJob.of_fixed e (·.domain) fun _ => rfl
  have ciphertext : j.payloadCiphertext = i.payloadCiphertext :=
    DeliveryJob.of_fixed e (·.payloadCiphertext) fun _ => rfl
  rw [Keyed, domain, ciphertext]
  exact h

/-- Every job holds such a message. -/
lemma Run.keyed {ls S} (r : Run st ls S) : ∀ j ∈ S.db.jobs, j.Keyed st := by
  refine r.keep_db (P := fun db => ∀ j ∈ db.jobs, j.Keyed st) (fun j hj => absurd hj Table.not_mem_empty) ?_
  intro input past db db' ch h j' hj'
  obtain ⟨j, hj, e⟩ | ⟨event, rfl, c, hc, -⟩ | ⟨event, rfl, c, hc, -⟩ := ch.job_origin hj'
  · exact (h j hj).congr e
  · obtain ⟨id, now, rfl⟩ := c.job_eq hc
    obtain ⟨signature, e⟩ := RelayAssertion.sign_ok c.assertion_eq
    obtain ⟨-, -, signed⟩ := RelayAssertion.sign_valid c.assertion_eq
    exact ⟨_, c.assertionSealed, .inl ⟨c.assertion, rfl, by rw [e], by rw [e], by rw [e]; rfl, by rw [e], signed⟩⟩
  · obtain ⟨id, now, rfl⟩ := c.job_eq hc
    obtain ⟨signature, e⟩ := RelayRevocation.sign_ok c.revocation_eq
    exact ⟨_, c.payloadSealed, .inr ⟨c.revocation, rfl, by rw [e], by rw [e], by rw [e]; rfl, by rw [e],
      RelayRevocation.sign_valid c.revocation_eq⟩⟩

/-- The request carries a message that the site can verify under one of the keys. -/
def VerifiesUnder (X : Crates) (keys : Jwks) (req : SiteRequest) : Prop :=
  ∃ jwk ∈ keys.keys,
    (∃ (a : RelayAssertion) (canonical : String),
      strictFromSlice X RelayAssertion.fromValue req.body = .ok a ∧ a.version = protocolVersion ∧
      a.iss = relayOrigin ∧ a.aud = req.domain ∧ a.kid = jwk.kid ∧ a.canonicalWithoutSignature X = .ok canonical ∧
      Ed25519.verify X jwk.x (asBytes canonical) a.signature = .ok ()) ∨
    ∃ (v : RelayRevocation) (canonical : String),
      strictFromSlice X RelayRevocation.fromValue req.body = .ok v ∧ v.version = protocolVersion ∧
      v.iss = relayOrigin ∧ v.aud = req.domain ∧ v.kid = jwk.kid ∧ v.canonicalWithoutSignature X = .ok canonical ∧
      Ed25519.verify X jwk.x (asBytes canonical) v.signature = .ok ()

/-- In every run, whatever the relay posts to a site can be verified under the key the relay publishes. -/
theorem posts_verify_under_published_key {ls S t input l req answer es} (aead : st.crates.AeadCorrect)
    (json : st.crates.JsonCorrect) (b64 : st.crates.Base64Correct) (shape : st.crates.Base64Shape)
    (length : st.crates.SignatureLength) (ed : st.crates.Ed25519Correct verifyingKey)
    (size : st.signingKey.length = 32) (r : Run st ls S) (h : .act t input l ⟨.request req, answer, es⟩ ∈ ls)
    (post : req.method = .post) : VerifiesUnder st.crates (jwks verifyingKey st) req := by
  obtain ⟨job, claimed, payload, decrypted, rfl⟩ := r.posts h post
  obtain ⟨j, hj, e⟩ := r.claimed_stays h claimed
  obtain ⟨content, sealed, message⟩ := (r.keyed j hj).congr e.symm
  cases (sealed.decrypt aead).symm.trans decrypted
  refine ⟨_, List.mem_singleton_self _, ?_⟩
  obtain ⟨a, rfl, keyed⟩ | ⟨v, rfl, keyed⟩ := message
  · obtain ⟨canonical, canonical_eq, signature⟩ := keyed.signed
    refine .inl ⟨a, canonical, RelayAssertion.strictFromSlice_toBytes json a, keyed.version, keyed.iss, keyed.aud,
      keyed.kid, canonical_eq, ?_⟩
    rw [signature]
    exact Ed25519.verify_sign b64 shape length ed size _
  · obtain ⟨canonical, canonical_eq, signature⟩ := keyed.signed
    refine .inr ⟨v, canonical, RelayRevocation.strictFromSlice_toBytes json v, keyed.version, keyed.iss, keyed.aud,
      keyed.kid, canonical_eq, ?_⟩
    rw [signature]
    exact Ed25519.verify_sign b64 shape length ed size _

/-- The stubs verify what they have signed. -/
lemma Crates.stub_ed25519 : Crates.stub.Ed25519Correct id where
  length _ h := h
  key _ h := beq_iff_eq.mpr h
  verify _ _ _ := beq_self_eq_true _

/-- The first attempt of Alice's assertion can be verified. -/
theorem posts_verify_under_published_key_alice : ∃ ls S t l answer es, Run Sample.relay ls S ∧
    .act t .tick l ⟨.request alicePost, answer, es⟩ ∈ ls ∧
    VerifiesUnder Sample.relay.crates (jwks id Sample.relay) alicePost := by
  obtain ⟨T, hT, closed, m, mem, op⟩ := firstAttempt
  obtain ⟨S, run, q, hd, hs⟩ := Sample.reaches_plain.run
  obtain ⟨pre, S₁, S₂, s, post⟩ := q.action (C := fun _ _ => True) (Sample.env 0 10000 Sample.down)
    .tick (m := m) trivial (by rw [hd, hs, Sample.call_tick hT]; exact closed) trivial
    (fun _ _ _ _ => trivial) (by rw [hd, hs]; exact mem)
  obtain ⟨db, l, ⟨op', answer, es⟩⟩ := m
  cases op
  have r := (run.append s).run.step post
  have last := List.mem_append_right (Sample.consentedLabels ++ pre) (List.mem_singleton_self
    (Label.act 3 .tick l ⟨.request alicePost, answer, es⟩))
  exact ⟨_, S₂, 3, l, answer, es, r, last, posts_verify_under_published_key Crates.stub_aead Crates.stub_json
    Crates.stub_base64 Crates.stub_base64Shape Crates.stub_signature Crates.stub_ed25519 (by decide) r last rfl⟩

end WebLoginRelay
