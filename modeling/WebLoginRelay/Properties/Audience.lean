import WebLoginRelay.Properties.Representation

/-!
# What is posted to a site

The payload of a job is encrypted in the transaction that queues it, and decrypted anew for every
attempt. It is the serialisation of one signed object whose audience is the domain of the job, and no
operation rewrites it, so that every attempt posts the same bytes to the same place.
-/

namespace WebLoginRelay
open Text Txn

variable {st : AppState} {input : Input} {past : List Act} {db db' : Db}

/-- The payload is an assertion for the site and the session of the job. -/
structure IsAssertion (st : AppState) (j : DeliveryJob) (payload : Bytes) (a : RelayAssertion) : Prop where
  kind : j.kind = .assertion
  bytes : payload = a.toBytes st.crates
  signed : a.SignedBy st.crates st.signingKey
  aud : a.aud = j.domain
  jti : a.jti = j.jti
  sessionId : a.sessionId = j.sessionId
  nonce : st.lookupHash a.nonce = j.nonceHash
  account : validateSiteAccountId a.sub = .ok ()

/-- The payload is a revocation for the site of the job. -/
structure IsRevocation (st : AppState) (j : DeliveryJob) (payload : Bytes) (r : RelayRevocation) :
    Prop where
  kind : j.kind = .revocation
  bytes : payload = r.toBytes st.crates
  signed : r.SignedBy st.crates st.signingKey
  aud : r.aud = j.domain
  jti : r.jti = j.jti

/-- The payload is one signed object for the site of the job. -/
def IsSigned (st : AppState) (j : DeliveryJob) (payload : Bytes) : Prop :=
  (∃ a, IsAssertion st j payload a) ∨ ∃ r, IsRevocation st j payload r

/-- Only what no operation changes about a job matters. -/
lemma IsSigned.congr {i j : DeliveryJob} {payload : Bytes} (h : IsSigned st i payload)
    (e : j.fixed = i.fixed) : IsSigned st j payload := by
  have kind : j.kind = i.kind := DeliveryJob.of_fixed e (·.kind) fun _ => rfl
  have domain : j.domain = i.domain := DeliveryJob.of_fixed e (·.domain) fun _ => rfl
  have jti : j.jti = i.jti := DeliveryJob.of_fixed e (·.jti) fun _ => rfl
  have sessionId : j.sessionId = i.sessionId := DeliveryJob.of_fixed e (·.sessionId) fun _ => rfl
  have nonceHash : j.nonceHash = i.nonceHash := DeliveryJob.of_fixed e (·.nonceHash) fun _ => rfl
  obtain ⟨a, h⟩ | ⟨r, h⟩ := h
  · exact .inl ⟨a, kind.trans h.kind, h.bytes, h.signed, h.aud.trans domain.symm, h.jti.trans jti.symm,
      h.sessionId.trans sessionId.symm, h.nonce.trans nonceHash.symm, h.account⟩
  · exact .inr ⟨r, kind.trans h.kind, h.bytes, h.signed, h.aud.trans domain.symm, h.jti.trans jti.symm⟩

/-- The job holds the ciphertext of one signed object. -/
def Enclosed (st : AppState) (j : DeliveryJob) : Prop :=
  ∃ payload, Sealed st payload j.payloadCiphertext ∧ IsSigned st j payload

/-- What a job encloses does not change. -/
lemma Enclosed.congr {i j : DeliveryJob} (h : Enclosed st i) (e : j.fixed = i.fixed) : Enclosed st j := by
  obtain ⟨payload, sealed, signed⟩ := h
  have ciphertext : j.payloadCiphertext = i.payloadCiphertext :=
    DeliveryJob.of_fixed e (·.payloadCiphertext) fun _ => rfl
  exact ⟨payload, ciphertext ▸ sealed, signed.congr e⟩

/-- The job of an approved Consent holds the assertion. -/
lemma Mint.enclosed {event job} (c : Mint st event past db) (h : c.job = some job) : Enclosed st job := by
  obtain ⟨id, now, rfl⟩ := c.job_eq h
  obtain ⟨signature, e⟩ := RelayAssertion.sign_ok c.assertion_eq
  obtain ⟨account, _, signed⟩ := RelayAssertion.sign_valid c.assertion_eq
  have sub : c.assertion.sub = c.sub := by rw [e]
  exact ⟨_, c.assertionSealed, .inl ⟨c.assertion, rfl, rfl, signed, by rw [e]; rfl, by rw [e]; rfl,
    by rw [e]; rfl, by rw [e]; rfl, by rw [sub]; exact account⟩⟩

/-- The job of a Revocation holds the revocation. -/
lemma Unlink.enclosed {event job} (c : Unlink st event past db) (h : c.job = some job) :
    Enclosed st job := by
  obtain ⟨id, now, rfl⟩ := c.job_eq h
  obtain ⟨signature, e⟩ := RelayRevocation.sign_ok c.revocation_eq
  exact ⟨_, c.payloadSealed, .inr ⟨c.revocation, rfl, rfl, RelayRevocation.sign_valid c.revocation_eq,
    by rw [e]; rfl, by rw [e]; rfl⟩⟩

/-- Every job holds the ciphertext of one signed object. -/
lemma Run.enclosed {ls S} (r : Run st ls S) : ∀ j ∈ S.db.jobs, Enclosed st j := by
  refine r.keep_db (P := fun db => ∀ j ∈ db.jobs, Enclosed st j)
    (fun j hj => absurd hj Table.not_mem_empty) fun ch h j' hj' => ?_
  obtain ⟨j, hj, e⟩ | ⟨_, _, c, hc, _⟩ | ⟨_, _, c, hc, _⟩ := ch.job_origin hj'
  · exact (h j hj).congr e
  · exact c.enclosed hc
  · exact c.enclosed hc

/-- A call that has done this posts the job by this request. -/
def Posts (st : AppState) (past : List Act) (job : DeliveryJob) (req : SiteRequest) : Prop :=
  Claimed past job ∧ ∃ payload, st.decrypt job.payloadCiphertext = .ok payload ∧ req = job.post payload

/-- Every post of a run is the post of a job. -/
lemma Run.posts {ls S t input l req answer es} (r : Run st ls S)
    (h : .act t input l ⟨.request req, answer, es⟩ ∈ ls) (post : req.method = .post) :
    ∃ job, Posts st l.past job req := by
  obtain ⟨pre, rest, rfl⟩ := List.append_of_mem h
  obtain ⟨S₁, S₂, r₁, s₁, _⟩ := r.at rfl
  obtain ⟨_, _, task, o, _, _⟩ := s₁.act_inv
  obtain ⟨_, job, payload, claimed, e, e'⟩ := (r₁.inv.act task o).1 post
  exact ⟨job, claimed, payload, e, e'⟩

/-- A job that a call of the run has claimed is in the table at the end. -/
lemma Run.claimed_stays {ls S t input l a job} (r : Run st ls S) (h : .act t input l a ∈ ls)
    (claimed : Claimed l.past job) : ∃ j ∈ S.db.jobs, j.fixed = job.fixed := by
  obtain ⟨pre, rest, rfl⟩ := List.append_of_mem h
  obtain ⟨S₁, S₂, r₁, s₁, s₂⟩ := r.at rfl
  obtain ⟨_, _, task, _, _, _⟩ := s₁.act_inv
  exact (Steps.cons s₁ s₂).job_stays r₁.inv (r₁.claimed task job claimed)

/-- The post is a function of what no operation changes. -/
lemma DeliveryJob.post_congr {i j : DeliveryJob} {payload : Bytes} (e : i.fixed = j.fixed) :
    i.post payload = j.post payload := DeliveryJob.of_fixed e (·.post payload) fun _ => rfl

/-- The request carries an assertion for the site, the session and the nonce of its job. -/
def PostsAssertion (st : AppState) (db : Db) (job : DeliveryJob) (req : SiteRequest) : Prop :=
  req.extraHeaders = [("Idempotency-Key", job.jti)] ∧
  ∃ a : RelayAssertion, req.body = a.toBytes st.crates ∧ a.SignedBy st.crates st.signingKey ∧
    a.aud = req.domain ∧ a.jti = job.jti ∧
    ∃ row ∈ db.sessions, row.domain = job.domain ∧ row.sessionId = job.sessionId ∧
      row.nonceHash = job.nonceHash ∧ a.sessionId = row.sessionId ∧
      st.decryptText row.nonceCiphertext = .ok a.nonce

/-- The request carries a revocation for the site of its job. -/
def PostsRevocation (st : AppState) (job : DeliveryJob) (req : SiteRequest) : Prop :=
  req.extraHeaders = [] ∧
  ∃ v : RelayRevocation, req.body = v.toBytes st.crates ∧ v.SignedBy st.crates st.signingKey ∧
    v.aud = req.domain ∧ v.jti = job.jti

/-- What the post of a job carries. -/
lemma Run.post_signed {ls S t input l a req job} (aead : st.crates.AeadCorrect)
    (hmac : st.crates.HmacCollisionFree) (r : Run st ls S) (h : .act t input l a ∈ ls)
    (p : Posts st l.past job req) :
    (job.kind = .assertion ∧ PostsAssertion st S.db job req) ∨
      (job.kind = .revocation ∧ PostsRevocation st job req) := by
  obtain ⟨claimed, payload, decrypted, rfl⟩ := p
  obtain ⟨j, hj, e⟩ := r.claimed_stays h claimed
  obtain ⟨content, sealed, signed⟩ := (r.enclosed j hj).congr e.symm
  cases (sealed.decrypt aead).symm.trans decrypted
  obtain ⟨a, ha⟩ | ⟨v, hv⟩ := signed
  · have kind : j.kind = job.kind := DeliveryJob.of_fixed e (·.kind) fun _ => rfl
    have domain : j.domain = job.domain := DeliveryJob.of_fixed e (·.domain) fun _ => rfl
    have sessionId : j.sessionId = job.sessionId := DeliveryJob.of_fixed e (·.sessionId) fun _ => rfl
    have nonceHash : j.nonceHash = job.nonceHash := DeliveryJob.of_fixed e (·.nonceHash) fun _ => rfl
    obtain ⟨row, hr, hd, hs, hn, _⟩ := r.represented.job j hj (kind.trans ha.kind)
    obtain ⟨nonce, _, sealed', hash⟩ := (r.represented.registered row hr).nonce
    have same : nonce = a.nonce := AppState.lookupHash_inj hmac
      (hash.symm.trans (hn.trans (nonceHash.trans ha.nonce.symm)))
    refine .inl ⟨ha.kind, if_pos ha.kind, a, ha.bytes, ha.signed, ha.aud, ha.jti, row, hr,
      hd.trans domain, hs.trans sessionId, hn.trans nonceHash, ?_, ?_⟩
    · exact ha.sessionId.trans (hs.trans sessionId).symm
    · rw [← same]
      exact sealed'.decryptText aead
  · have other : job.kind ≠ .assertion := by
      rw [hv.kind]
      decide
    exact .inr ⟨hv.kind, if_neg other, v, hv.bytes, hv.signed, hv.aud, hv.jti⟩

/-- In every run, every post is the post of a job: to the domain of the job and the path of its kind,
with the serialisation of one signed object for that domain. All attempts of a job are the same request,
two jobs never share a `jti`, and no operation rewrites a job. -/
theorem posts_are_bound_and_identical {ls S} (aead : st.crates.AeadCorrect)
    (hmac : st.crates.HmacCollisionFree) (r : Run st ls S) :
    (∀ t input l req answer es, .act t input l ⟨.request req, answer, es⟩ ∈ ls → req.method = .post →
      ∃ job, Posts st l.past job req) ∧
    (∀ t input l req answer es job, .act t input l ⟨.request req, answer, es⟩ ∈ ls →
      Posts st l.past job req → req.domain = job.domain ∧ req.path = job.kind.path ∧
        ((job.kind = .assertion ∧ PostsAssertion st S.db job req) ∨
          (job.kind = .revocation ∧ PostsRevocation st job req))) ∧
    (∀ t input l req answer es job t' input' l' req' answer' es' job',
      .act t input l ⟨.request req, answer, es⟩ ∈ ls → Posts st l.past job req →
      .act t' input' l' ⟨.request req', answer', es'⟩ ∈ ls → Posts st l'.past job' req' →
      (job.id = job'.id → req = req') ∧ (job.jti = job'.jti → job.id = job'.id)) ∧
    (∀ i ∈ S.db.jobs, ∀ j ∈ S.db.jobs, i.jti = j.jti → i = j) ∧
    ∀ pre post S₁, ls = pre ++ post → Run st pre S₁ → Steps st S₁ post S →
      ∀ i ∈ S₁.db.jobs, ∃ j ∈ S.db.jobs, j.id = i.id ∧ j.fixed = i.fixed := by
  have jti (i : DeliveryJob) (hi : i ∈ S.db.jobs) (j : DeliveryJob) (hj : j ∈ S.db.jobs)
      (e : i.jti = j.jti) : i = j :=
    Table.eq_of_clash (fun _ _ => DeliveryJob.Clash.symm) hi hj (.inr e)
  refine ⟨fun t input l req answer es h post => r.posts h post,
    fun t input l req answer es job h p => ?_,
    fun t input l req answer es job t' input' l' req' answer' es' job' h p h' p' => ?_, jti,
    fun pre post S₁ _ r₁ s i hi => ?_⟩
  · have signed := r.post_signed aead hmac h p
    obtain ⟨_, payload, _, rfl⟩ := p
    exact ⟨rfl, rfl, signed⟩
  · obtain ⟨claimed, payload, decrypted, rfl⟩ := p
    obtain ⟨claimed', payload', decrypted', rfl⟩ := p'
    obtain ⟨i, hi, e⟩ := r.claimed_stays h claimed
    obtain ⟨j, hj, e'⟩ := r.claimed_stays h' claimed'
    have id {i j : DeliveryJob} (e : i.fixed = j.fixed) : i.id = j.id :=
      DeliveryJob.of_fixed e (·.id) fun _ => rfl
    refine ⟨fun same => ?_, fun same => ?_⟩
    · -- both claims are of one row
      obtain rfl : i = j := Table.eq_of_clash (fun _ _ => DeliveryJob.Clash.symm) hi hj
        (.inl ((id e).trans (same.trans (id e').symm)))
      have fx : job.fixed = job'.fixed := e.symm.trans e'
      have ciphertext : job.payloadCiphertext = job'.payloadCiphertext :=
        DeliveryJob.of_fixed fx (·.payloadCiphertext) fun _ => rfl
      rw [← ciphertext, decrypted] at decrypted'
      rw [← Except.ok.inj decrypted']
      exact DeliveryJob.post_congr fx
    · have ji : i.jti = job.jti := DeliveryJob.of_fixed e (·.jti) fun _ => rfl
      have jj : j.jti = job'.jti := DeliveryJob.of_fixed e' (·.jti) fun _ => rfl
      obtain rfl := jti i hi j hj (ji.trans (same.trans jj.symm))
      exact (id e).symm.trans (id e')
  · obtain ⟨j, hj, e⟩ := s.job_stays r₁.inv ⟨i, hi, rfl⟩
    exact ⟨j, hj, DeliveryJob.of_fixed e (·.id) fun _ => rfl, e⟩

/-- The post of Alice's assertion. -/
def alicePost : SiteRequest :=
  ⟨"a.io", assertionPath, .post, [("Idempotency-Key", Sample.assertion.jti)],
    Sample.assertion.toBytes .stub, maxSiteResponseBytes⟩

/-- The first attempt of Alice's assertion. -/
def firstAttempt : { T : Env.Final Result //
    Sample.ticked Sample.consented.db Sample.consented.seqs 10000 = T ∧ T.loc.log = [] ∧
    ∃ m ∈ (Sample.env 0 10000 Sample.down).trace Sample.tickProg Sample.consented.db
      Sample.consented.seqs {}, m.act.op = .request alicePost } :=
  ⟨_, rfl, by decide +kernel⟩

/-- The post of Alice's assertion is the post of a job. -/
theorem posts_are_bound_alice : ∃ ls S t l answer es, Run Sample.relay ls S ∧
    .act t .tick l ⟨.request alicePost, answer, es⟩ ∈ ls ∧
    ∃ job, Posts Sample.relay l.past job alicePost := by
  obtain ⟨T, hT, closed, m, mem, op⟩ := firstAttempt
  obtain ⟨S, run, q, hd, hs⟩ := Sample.reaches_plain.run
  obtain ⟨pre, S₁, S₂, s, post⟩ := q.action (C := fun _ _ => True) (Sample.env 0 10000 Sample.down)
    .tick (m := m) trivial (by rw [hd, hs, Sample.call_tick hT]; exact closed) trivial
    (fun _ _ _ _ => trivial) (by rw [hd, hs]; exact mem)
  obtain ⟨db, l, ⟨op', answer, es⟩⟩ := m
  cases op
  have r := (run.append s).run.step post
  have last := List.mem_append_right (Sample.consentedLabels ++ pre) (List.mem_singleton_self
    (Label.act 3 .tick l ⟨.request alicePost, answer, es⟩))
  exact ⟨_, S₂, 3, l, answer, es, r, last,
    (posts_are_bound_and_identical Crates.stub_aead Crates.stub_hmac r).1 _ _ _ _ _ _ last rfl⟩

end WebLoginRelay
