import WebLoginRelay.Properties.Binding
import WebLoginRelay.Samples.Runs

/-!
# Authentication safety

An assertion is only enqueued for a user who sent both the Request and the Consent of the session from
one room. The Consent is looked up without its domain and checked against hashes and ciphertexts only;
what ties it to the Request is that every bound row carries the data of the one Request that bound it
(`Run.boundBy`).
-/

namespace WebLoginRelay
open Text Txn

variable {st : AppState} {input : Input} {past : List Act} {db db' : Db}

/-- The row carries the data of a committed Request. -/
def BoundBy (st : AppState) (ls : List Label) (r : SessionRow) : Prop :=
  ∃ t event l a nonce sentAt bytes, .act t (.inbound event) l a ∈ ls ∧
    a.op = .commit ∧ a.log = l.log ∧
    event.message? st = some (.request r.sessionId nonce sentAt r.domain) ∧
    r.nonceHash = st.lookupHash nonce ∧
    Drawn l.past challengeBytes bytes ∧
    r.challengeHash = some (st.lookupHash (Base64url.encode st.crates bytes)) ∧
    st.storedText r.requestSenderCiphertext = some event.sender ∧
    st.storedText r.requestRoomCiphertext = some event.roomId

/-- More labels and later states of the row keep it. -/
lemma BoundBy.mono {ls ls' : List Label} {r r' : SessionRow} (b : BoundBy st ls r) (sub : ls ⊆ ls')
    (hd : r'.domain = r.domain) (hs : r'.sessionId = r.sessionId) (hn : r'.nonceHash = r.nonceHash)
    (hb : r'.binding = r.binding) : BoundBy st ls' r' := by
  obtain ⟨t, event, l, a, nonce, sentAt, bytes, mem, op, log, msg, nh, drawn, ch, snd, room⟩ := b
  have hc : r'.challengeHash = r.challengeHash := congrArg Binding.challengeHash hb
  have hsnd : r'.requestSenderCiphertext = r.requestSenderCiphertext :=
    congrArg Binding.requestSenderCiphertext hb
  have hroom : r'.requestRoomCiphertext = r.requestRoomCiphertext :=
    congrArg Binding.requestRoomCiphertext hb
  exact ⟨t, event, l, a, nonce, sentAt, bytes, sub mem, op, log, by rw [hs, hd]; exact msg, hn.trans nh,
    drawn, hc.trans ch, by rw [hsnd]; exact snd, by rw [hroom]; exact room⟩

/-- A Request binds its session to its own data. -/
lemma ChallengeIssue.boundBy {ls event t l a} (aead : st.crates.AeadCorrect)
    (c : ChallengeIssue st event l.past db) (mem : .act t (.inbound event) l a ∈ ls)
    (op : a.op = .commit) (log : a.log = l.log) : BoundBy st ls (c.set.on c.session) := by
  obtain ⟨domain, sessionId, nonce⟩ := SessionFilter.accepts_matching.mp c.found
  refine ⟨t, event, l, a, c.nonce, c.sentAt, c.bytes, mem, op, log, ?_, nonce, c.drawn, rfl, ?_, ?_⟩
  · have msg := c.message
    rw [← domain, ← sessionId] at msg
    exact msg
  · exact congrArg Except.toOption (c.senderSealed.decryptText aead)
  · exact congrArg Except.toOption (c.roomSealed.decryptText aead)

/-- Every bound row carries the data of the Request that bound it. -/
lemma Run.boundBy {ls S} (aead : st.crates.AeadCorrect) (r : Run st ls S) {row : SessionRow}
    (mem : row ∈ S.db.sessions) (b : row.challengeHash ≠ none) : BoundBy st ls row := by
  induction r generalizing row with
  | init => exact absurd mem Table.not_mem_empty
  | @step ls S lb S' r s ih =>
    have sub : ls ⊆ ls ++ [lb] := List.subset_append_left ls [lb]
    obtain e | ⟨t, input, l, a, rfl, eff, ch⟩ := r.inv.step_change s
    · rw [e] at mem
      exact (ih mem b).mono sub rfl rfl rfl rfl
    · obtain ⟨old, hold, ev⟩ | ⟨_, _, c, rfl⟩ := ch.session_origin mem
      · obtain rfl | ⟨set, w, rfl⟩ := ev
        · exact (ih hold b).mono sub rfl rfl rfl rfl
        · cases w with
          | request c =>
            obtain ⟨op, log⟩ | ⟨i, _⟩ := eff
            · exact c.boundBy aead (List.mem_append_right _ (List.mem_singleton_self _)) op log
            · nomatch i
          | refuse c h => exact (ih hold b).mono sub rfl rfl rfl rfl
          | approve c => exact (ih hold b).mono sub rfl rfl rfl rfl
          | revoke c => exact (ih hold b).mono sub rfl rfl rfl rfl
          | deliver c => exact (ih hold b).mono sub rfl rfl rfl rfl
      · exact absurd rfl b

/-- The evidence behind an assertion job that the step `lb` enqueues after the run `ls`. -/
structure Authentication (st : AppState) (ls : List Label) (S : Sys) (lb : Label)
    (job : DeliveryJob) where
  assertion : RelayAssertion
  payload : st.decrypt job.payloadCiphertext = .ok (assertion.toBytes st.crates)
  audience : job.domain = assertion.aud
  /-- The registered session. -/
  row : SessionRow
  registered : row ∈ S.db.sessions
  row_domain : row.domain = assertion.aud
  row_sessionId : row.sessionId = assertion.sessionId
  row_nonce : row.nonceHash = st.lookupHash assertion.nonce
  /-- The earlier Request, with its commit and the challenge it drew. -/
  request : InboundEvent
  requestTask : Nat
  requestLocal : Local
  requestCommit : Act
  request_mem : .act requestTask (.inbound request) requestLocal requestCommit ∈ ls
  request_op : requestCommit.op = .commit
  request_log : requestCommit.log = requestLocal.log
  requestSentAt : Int64
  request_message : request.message? st =
    some (.request assertion.sessionId assertion.nonce requestSentAt assertion.aud)
  bytes : Bytes
  drawn : Drawn requestLocal.past challengeBytes bytes
  /-- The Consent, whose commit enqueues the job. -/
  consent : InboundEvent
  consentTask : Nat
  consentLocal : Local
  consentCommit : Act
  consent_eq : lb = .act consentTask (.inbound consent) consentLocal consentCommit
  consent_op : consentCommit.op = .commit
  consentSentAt : Int64
  keyId : String
  signature : String
  consent_message : consent.message? st =
    some (.consent assertion.sessionId assertion.nonce consentSentAt true (some assertion.displayName)
      (Base64url.encode st.crates bytes) keyId signature)
  signed : Bytes
  signed_eq : consentSignedBytes st.crates true (Base64url.encode st.crates bytes)
    (some assertion.displayName) assertion.nonce assertion.sessionId consentSentAt = .ok signed
  verified : P256.verifyConsentSignature st.crates keyId signed signature = .ok ()
  sender_eq : request.sender = consent.sender
  room_eq : request.roomId = consent.roomId
  not_relay : request.sender ≠ st.relayUserId
  request_room : checkRoom request.room = .ok ()
  consent_room : checkRoom consent.room = .ok ()
  subject :
    derivePairwiseSub st.crates st.subjectSecret assertion.aud request.sender = .ok assertion.sub

/-- The evidence of a Consent that mints an assertion. -/
lemma Mint.authentication {ls S t event l a job} (hmac : st.crates.HmacCollisionFree)
    (aead : st.crates.AeadCorrect) (r : Run st ls S) (c : Mint st event l.past S.db)
    (hc : c.job = some job) (op : a.op = .commit) :
    Nonempty (Authentication st ls S (.act t (.inbound event) l a) job) := by
  have bound : c.session.challengeHash ≠ none := by
    rw [c.challenge_eq]
    exact Option.some_ne_none _
  obtain ⟨t₁, event₁, l₁, a₁, nonce₁, sentAt₁, bytes, mem₁, op₁, log₁, msg₁, nh, drawn, ch, snd, room⟩ :=
    r.boundBy aead c.mem bound
  obtain ⟨hs, hn⟩ := SessionFilter.accepts_sessionAndNonce.mp c.found
  -- the Consent repeats the nonce and the challenge of the Request, and comes from its sender
  obtain rfl : c.nonce = nonce₁ := AppState.lookupHash_inj hmac (hn.symm.trans nh)
  have challenge : c.challenge = Base64url.encode st.crates bytes :=
    AppState.lookupHash_inj hmac (Option.some.inj (c.challenge_eq.symm.trans ch))
  have sender : event₁.sender = event.sender := Option.some.inj (snd.symm.trans c.sender_eq)
  have roomId : event₁.roomId = event.roomId := Option.some.inj (room.symm.trans c.room_eq)
  obtain ⟨signature, assertion⟩ := RelayAssertion.sign_ok c.assertion_eq
  obtain ⟨id, now, rfl⟩ := c.job_eq hc
  have msg := c.message
  have signed := c.signed_eq
  rw [c.isApproved, c.display_eq, challenge] at msg signed
  rw [hs] at msg₁
  have sub := c.sub_eq
  rw [← sender] at sub
  obtain ⟨notRelay, room₁, _⟩ := InboundEvent.message?_some msg₁
  obtain ⟨_, room₂, _⟩ := InboundEvent.message?_some c.message
  exact ⟨{
    assertion := c.assertion
    payload := c.assertionSealed.decrypt aead
    audience := by rw [assertion]; rfl
    row := c.session
    registered := c.mem
    row_domain := by rw [assertion]
    row_sessionId := by rw [assertion]; exact hs
    row_nonce := by rw [assertion]; exact hn
    request := event₁
    requestTask := t₁
    requestLocal := l₁
    requestCommit := a₁
    request_mem := mem₁
    request_op := op₁
    request_log := log₁
    requestSentAt := sentAt₁
    request_message := by rw [assertion]; exact msg₁
    bytes, drawn
    consent := event
    consentTask := t
    consentLocal := l
    consentCommit := a
    consent_eq := rfl
    consent_op := op
    consentSentAt := c.sentAt
    keyId := c.keyId
    signature := c.signature
    consent_message := by rw [assertion]; exact msg
    signed := c.signed
    signed_eq := by rw [assertion]; exact signed
    verified := c.verified
    sender_eq := sender
    room_eq := roomId
    not_relay := notRelay
    request_room := room₁
    consent_room := room₂
    subject := by rw [assertion]; exact sub }⟩

/-- Every assertion job is enqueued by a Consent of the user who sent the Request. -/
theorem assertion_authenticated {ls S lb S'} {job : DeliveryJob}
    (hmac : st.crates.HmacCollisionFree) (aead : st.crates.AeadCorrect)
    (r : Run st ls S) (s : Step st S lb S') (mem : job ∈ S'.db.jobs) (kind : job.kind = .assertion)
    (isNew : ∀ i ∈ S.db.jobs, i.id ≠ job.id) : Nonempty (Authentication st ls S lb job) := by
  obtain e | ⟨t, input, l, a, rfl, eff, ch⟩ := r.inv.step_change s
  · rw [e] at mem
    exact absurd rfl (isNew job mem)
  obtain ⟨j, hj, fx⟩ | ⟨event, rfl, c, hc, -⟩ | ⟨event, rfl, c, hc, -⟩ := ch.job_origin mem
  · have e : job.fixed.id = j.fixed.id := by rw [fx]
    exact absurd e.symm (isNew j hj)
  · obtain ⟨op, log⟩ | ⟨i, _⟩ := eff
    · exact c.authentication hmac aead r hc op
    · nomatch i
  · obtain ⟨id, now, rfl⟩ := c.job_eq hc
    nomatch kind

/-- The assertion of Alice is authenticated. -/
theorem assertion_authenticated_alice : ∃ ls S lb S' job, Run Sample.relay ls S ∧
    Step Sample.relay S lb S' ∧ job ∈ S'.db.jobs ∧ job.kind = .assertion ∧
    Nonempty (Authentication Sample.relay ls S lb job) := by
  have facts : Sample.requested.db.jobs.rows = [] ∧ Sample.consented.db.jobs.rows ≠ [] ∧
      ∀ j ∈ Sample.consented.db.jobs.rows, j.kind = .assertion := by
    decide +kernel
  have r := Sample.reaches_requested (C := fun _ _ => True) (fun _ _ _ => trivial)
    (fun _ _ _ _ _ => trivial) fun _ _ _ _ => trivial
  obtain ⟨ls, S₁, l, a, S₂, ls', S, r, before, s, after, later, _, hd, _⟩ :=
    r.turn (P := fun db => db.jobs.rows = []) (F := Sample.consented)
      (Sample.alice_valid.call_consent rfl) rfl Sample.calls_closed.2.2 facts.1 facts.2.1
  obtain ⟨job, mem⟩ := List.exists_mem_of_ne_nil _ after
  have kind : job.kind = .assertion := by
    obtain ⟨j, hj, fx⟩ := later.keep_db (P := fun db => ∃ j ∈ db.jobs, j.fixed = job.fixed)
      (r.inv.step s) (fun ch ⟨j, hj, fx⟩ => by
        obtain ⟨j', hj', fx'⟩ := ch.job_stays hj
        exact ⟨j', hj', fx'.trans fx⟩) ⟨job, mem, rfl⟩
    rw [hd] at hj
    have kinds : j.fixed.kind = job.fixed.kind := by rw [fx]
    exact kinds.symm.trans (facts.2.2 j hj)
  have isNew : ∀ i ∈ S₁.db.jobs, i.id ≠ job.id := by
    intro i hi
    rw [← Table.mem_rows, before] at hi
    nomatch hi
  exact ⟨ls, S₁, _, S₂, job, r, s, mem, kind, assertion_authenticated Crates.stub_hmac
    Crates.stub_aead r s mem kind isNew⟩

end WebLoginRelay
