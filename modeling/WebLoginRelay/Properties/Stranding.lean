import WebLoginRelay.Properties.Delivering
import WebLoginRelay.Samples.Runs

/-!
# What can strand a login

The challenge of a Request is sent after its commit, and the notice of a login after the site has
accepted the assertion. Neither is repeated, so nothing that the relay computes between the effect and the
notice may fail: the messages are encoded, the assertion is signed, its payload parses, and the session
is found with its room and its nonce. Only the database, the pool and the outbox are left.
-/

namespace WebLoginRelay
open Text Txn

variable {st : AppState} {past : List Act} {db : Db}

/-- The challenge of a Request is encoded. -/
lemma ChallengeIssue.encoded {event} (compact : st.crates.JsonCompact) (shape : st.crates.Base64Shape)
    (rep : Represented st db) (c : ChallengeIssue st event past db) :
    ∃ body, (MatrixMessage.challenge c.sessionId c.nonce c.now c.session.siteDisplayName c.domain
      c.session.requestedDisplayName c.challenge (challengeExpiresAt c.now c.session.exp)).encode
        st.crates = .ok body := by
  obtain ⟨hs, hn, hd⟩ := InboundEvent.valid_request c.message
  have row := rep.registered c.session c.mem
  obtain ⟨length, _⟩ := c.drawn
  have token := Base64url.encode_urlSafe shape c.bytes
  rw [length] at token
  exact ⟨_, MatrixMessage.encode_challenge compact hs hn hd
    ⟨isEmpty_of_not_blank row.siteDisplayName.1, row.siteDisplayName.2⟩ row.requestedDisplayName token⟩

/-- A derived subject is an account id. -/
lemma derivePairwiseSub_valid {X : Crates} (shape : X.Base64Shape) {secret : Bytes} {domain u sub : String}
    (h : derivePairwiseSub X secret domain u = .ok sub) : validateSiteAccountId sub = .ok () := by
  obtain ⟨length, safe⟩ := derivePairwiseSub_shape shape h
  exact validateSiteAccountId_iff.mpr ⟨by omega, by omega, safe⟩

/-- An assertion over valid fields is signed. -/
lemma RelayAssertion.sign_succeeds {X : Crates} (shape : X.Base64Shape) (signature : X.SignatureLength)
    {key : Bytes} {kid aud sub sessionId nonce jti : String} {iat exp : Int64} {displayName : String}
    {subjectKeyVersion : Int32} (kid_ok : validateKid kid = .ok ())
    (hs : validateId sessionId = .ok ()) (hn : validateId nonce = .ok ())
    (account : validateSiteAccountId sub = .ok ()) (name : validateDisplayName displayName true = .ok ()) :
    ∃ a, RelayAssertion.sign X key kid aud sub sessionId nonce jti iat exp displayName subjectKeyVersion =
      .ok a := by
  have valid (m : Bytes) : validateSignatureB64 (Ed25519.sign X key m) = .ok () :=
    validateSignatureB64_iff.mpr (by
      have safe := Base64url.encode_urlSafe shape (X.ed25519Sign key m)
      rwa [signature key m] at safe)
  have canonical (a : RelayAssertion) : ∃ text, a.canonicalWithoutSignature X = .ok text := by
    unfold RelayAssertion.canonicalWithoutSignature Jcs.canonicalizeObject
    exact ⟨_, if_pos (by simp)⟩
  simp only [RelayAssertion.sign, kid_ok, hs, hn, account, name, ok_bind]
  obtain ⟨text, e⟩ := canonical ⟨protocolVersion, relayOrigin, aud, sub, sessionId, nonce, jti, iat, iat,
    exp, displayName, subjectKeyVersion, kid, ""⟩
  rw [e, ok_bind, valid, ok_bind]
  exact ⟨_, rfl⟩

/-- An approved Consent that got to the mint is turned into an assertion. -/
lemma AcceptedConsent.signs {event} (shape : st.crates.Base64Shape) (signature : st.crates.SignatureLength)
    (kid : validateKid st.signingKid = .ok ()) (c : AcceptedConsent st event past db)
    (approves : c.approved = true) {sub : String}
    (derived : derivePairwiseSub st.crates st.subjectSecret c.session.domain event.sender = .ok sub) :
    ∃ display, c.displayName = some display ∧ ∀ jti exp, ∃ a, RelayAssertion.sign st.crates st.signingKey
      st.signingKid c.session.domain sub c.sessionId c.nonce jti c.now exp display st.subjectKeyVersion =
        .ok a := by
  obtain ⟨hs, hn, names⟩ := InboundEvent.valid_consent c.message
  obtain ⟨display, e, filled, short⟩ := names approves
  have name : validateDisplayName display true = .ok () := by
    have long : ¬ len display > maxDisplayName := Nat.not_lt.mpr short
    rw [validateDisplayName, if_neg (by simp [filled, long]), if_neg long]
  exact ⟨display, e, fun _ _ => RelayAssertion.sign_succeeds shape signature kid hs hn
    (derivePairwiseSub_valid shape derived) name⟩

/-- Only failures of the database, the pool and the outbox can strand a login. In every state of every run
the challenge of a Request is encoded, an approved Consent is turned into an assertion, and the payload of
an assertion job parses, its session is the only one it finds, its room and its nonce can be read, and the
notice of the login is encoded. A call on an event or on a registration that fails after a commit, and a
tick that leaves a job unmarked after the site has accepted it, does so after a failed operation. -/
theorem only_transport_strands {ls S} (aead : st.crates.AeadCorrect) (json : st.crates.JsonCorrect)
    (compact : st.crates.JsonCompact) (shape : st.crates.Base64Shape)
    (signature : st.crates.SignatureLength) (kid : validateKid st.signingKid = .ok ()) (r : Run st ls S) :
    (∀ event past (c : ChallengeIssue st event past S.db), ∃ body,
      (MatrixMessage.challenge c.sessionId c.nonce c.now c.session.siteDisplayName c.domain
        c.session.requestedDisplayName c.challenge (challengeExpiresAt c.now c.session.exp)).encode
          st.crates = .ok body) ∧
    (∀ event past (c : AcceptedConsent st event past S.db) sub, c.approved = true →
      derivePairwiseSub st.crates st.subjectSecret c.session.domain event.sender = .ok sub →
      ∃ display, c.displayName = some display ∧ ∀ jti exp, ∃ a, RelayAssertion.sign st.crates
        st.signingKey st.signingKid c.session.domain sub c.sessionId c.nonce jti c.now exp display
        st.subjectKeyVersion = .ok a) ∧
    (∀ job ∈ S.db.jobs, job.kind = .assertion → ∀ payload,
      st.decrypt job.payloadCiphertext = .ok payload → ∃ a row c roomId nonce,
        strictFromSlice st.crates RelayAssertion.fromValue payload = .ok a ∧
        S.db.sessions.rows.filter
          (SessionFilter.matching job.domain job.sessionId job.nonceHash).accepts = [row] ∧
        row.requestRoomCiphertext = some c ∧ st.decryptText c = .ok roomId ∧
        st.decryptText row.nonceCiphertext = .ok nonce ∧ ∀ sentAt, ∃ body,
          (MatrixMessage.result job.sessionId nonce sentAt true (some a.sub) none).encode st.crates =
            .ok body) ∧
    (∀ t event e l, S.tasks t = some ⟨.inbound event, some (.ret (.handled (.error e))), l⟩ →
      Blamed Act.Commits l.past) ∧
    (∀ t request e l, S.tasks t = some ⟨.register request, some (.ret (.registered (.error e))), l⟩ →
      Blamed Act.Commits l.past) ∧
    ∀ t result l job payload, S.tasks t = some ⟨.tick, some (.ret result), l⟩ → Claimed l.past job →
      st.decrypt job.payloadCiphertext = .ok payload →
      (∃ a ∈ l.past, a.op = .auto (.markDelivered job.id)) ∨
        Blamed (Act.Accepts (job.post payload)) l.past := by
  refine ⟨fun event past c => c.encoded compact shape r.represented,
    fun event past c sub approves derived => c.signs shape signature kid approves derived,
    fun job hj kind payload dj => ?_, fun t event e l h => ?_, fun t request e l h => ?_,
    fun t result l job payload h claimed dj => r.resolves aead json compact h claimed dj⟩
  · obtain ⟨a, parsed, account⟩ := (r.enclosed job hj).parsed aead json kind dj
    obtain ⟨row, ready⟩ := r.represented.ready aead kind ⟨job, hj, rfl⟩
    obtain ⟨c, roomId, hc, room⟩ := ready.room
    obtain ⟨nonce, he, hn⟩ := ready.nonce
    exact ⟨a, row, c, roomId, nonce, parsed, ready.only, hc, room, he, fun _ =>
      ⟨_, MatrixMessage.encode_success compact ready.sessionId hn account⟩⟩
  · have undone := r.within (Q := fun result l => (∃ e, result = .handled (.error e)) → Undone l.past)
      (Relay.Ends.call (f := .handled) (ends_handleInbound compact shape) (fun _ _ _ ⟨_, e⟩ => nomatch e)
        fun _ _ h _ => h) h
    exact (undone ⟨e, rfl⟩).blamed
  · have undone := r.within (Q := fun result l => (∃ e, result = .registered (.error e)) → Undone l.past)
      (Relay.Ends.call (f := .registered) ends_registerSession (fun _ _ _ ⟨_, e⟩ => nomatch e)
        fun _ _ h _ => h) h
    exact (undone ⟨e, rfl⟩).blamed

/-- The notice of Alice's login cannot fail for what is stored. -/
theorem only_transport_strands_alice : ∃ ls S job, Run Sample.relay ls S ∧ job ∈ S.db.jobs ∧
    ∃ a, strictFromSlice .stub RelayAssertion.fromValue (Sample.assertion.toBytes .stub) = .ok a ∧
      ∃ row, S.db.sessions.rows.filter
        (SessionFilter.matching job.domain job.sessionId job.nonceHash).accepts = [row] := by
  obtain ⟨S, run, _, hd, _⟩ := Sample.reaches_plain.run
  have jobs := Sample.consented_jobs
  rw [← hd] at jobs
  obtain ⟨job, hj, e⟩ := List.mem_map.mp (jobs ▸ List.mem_singleton_self _)
  obtain ⟨kind, _, dj⟩ := Sample.decrypt_of_content e
  obtain ⟨a, row, _, _, _, parsed, only, _⟩ := (only_transport_strands Crates.stub_aead Crates.stub_json
    Crates.stub_compact Crates.stub_base64Shape Crates.stub_signature (by decide +kernel) run.run).2.2.1
    job hj kind _ dj
  exact ⟨_, S, job, run.run, hj, a, parsed, row, only⟩

end WebLoginRelay
