import WebLoginRelay.Properties.Authentication
import WebLoginRelay.Properties.Delivering

/-!
# Where an assertion comes from

A job says nothing about the messages it was queued for. They are in the run before it: the Request that bound
its session, and after it the Consent that minted its assertion, from the same user and the same room.
-/

namespace WebLoginRelay
open Text Txn

variable {st : AppState} {S S' : Sys} {ls : List Label} {lb : Label}

/-- The user has asked for the login of the assertion from this room, in a transaction that took effect. -/
def Requested (st : AppState) (ls : List Label) (a : RelayAssertion) (user roomId : String) : Prop :=
  ∃ t request l c sentAt, .act t (.inbound request) l c ∈ ls ∧ c.op = .commit ∧ c.log = l.log ∧
    request.message? st = some (.request a.sessionId a.nonce sentAt a.aud) ∧
    request.sender = user ∧ request.roomId = roomId

/-- The Consent approves the login of the assertion, with a signature of the key it names. -/
def Approves (st : AppState) (consent : InboundEvent) (a : RelayAssertion) : Prop :=
  ∃ sentAt challenge keyId signature signed,
    consent.message? st =
      some (.consent a.sessionId a.nonce sentAt true (some a.displayName) challenge keyId signature) ∧
    consentSignedBytes st.crates true challenge (some a.displayName) a.nonce a.sessionId sentAt = .ok signed ∧
    P256.verifyConsentSignature st.crates keyId signed signature = .ok ()

/-- The user has asked for the login, and has approved it since. -/
def Approved (st : AppState) (ls : List Label) (a : RelayAssertion) (user roomId : String) : Prop :=
  ∃ pre t consent l c post, ls = pre ++ .act t (.inbound consent) l c :: post ∧
    Requested st pre a user roomId ∧ c.op = .commit ∧ c.log = l.log ∧ Approves st consent a ∧
    consent.sender = user ∧ consent.roomId = roomId ∧
    derivePairwiseSub st.crates st.subjectSecret a.aud user = .ok a.sub

/-- What was approved stays so. -/
lemma Approved.append {a : RelayAssertion} {user roomId : String} (h : Approved st ls a user roomId)
    (ls' : List Label) : Approved st (ls ++ ls') a user roomId := by
  obtain ⟨pre, t, consent, l, c, post, rfl, rest⟩ := h
  refine ⟨pre, t, consent, l, c, post ++ ls', ?_, rest⟩
  rw [List.append_assoc, List.cons_append]

/-- The job holds an approved assertion, and its session the room it was approved in. -/
def FromLogin (st : AppState) (ls : List Label) (db : Db) (j : DeliveryJob) : Prop :=
  ∃ row ∈ db.sessions, row.domain = j.domain ∧ row.sessionId = j.sessionId ∧ row.challengeHash ≠ none ∧
    ∃ a user roomId, Sealed st (a.toBytes st.crates) j.payloadCiphertext ∧ a.aud = j.domain ∧
      a.sessionId = j.sessionId ∧ j.nonceHash = st.lookupHash a.nonce ∧
      st.storedText row.requestRoomCiphertext = some roomId ∧ Approved st ls a user roomId

/-- Where a job comes from does not change. -/
lemma FromLogin.congr {db : Db} {i j : DeliveryJob} (h : FromLogin st ls db i) (e : j.fixed = i.fixed) :
    FromLogin st ls db j := by
  have domain : j.domain = i.domain := DeliveryJob.of_fixed e (·.domain) fun _ => rfl
  have sessionId : j.sessionId = i.sessionId := DeliveryJob.of_fixed e (·.sessionId) fun _ => rfl
  have nonceHash : j.nonceHash = i.nonceHash := DeliveryJob.of_fixed e (·.nonceHash) fun _ => rfl
  have ciphertext : j.payloadCiphertext = i.payloadCiphertext :=
    DeliveryJob.of_fixed e (·.payloadCiphertext) fun _ => rfl
  rw [FromLogin, domain, sessionId, nonceHash, ciphertext]
  exact h

/-- The session of a job keeps its room, whatever is committed. -/
lemma FromLogin.stays {db db' : Db} {input : Input} {past : List Act} {j : DeliveryJob}
    (h : FromLogin st ls db j) (ch : Change st input past db db') (ls' : List Label) :
    FromLogin st (ls ++ ls') db' j := by
  obtain ⟨row, hr, hd, hs, bound, a, user, roomId, sealed, aud, id, nonce, room, approved⟩ := h
  obtain ⟨row', hr', ev⟩ := ch.session_stays hr
  obtain ⟨-, kd, ks, -⟩ := ev.keys
  have binding := ev.binding bound
  have hash : row'.challengeHash = row.challengeHash := congrArg Binding.challengeHash binding
  have ciphertext : row'.requestRoomCiphertext = row.requestRoomCiphertext :=
    congrArg Binding.requestRoomCiphertext binding
  refine ⟨row', hr', kd.trans hd, ks.trans hs, hash ▸ bound, a, user, roomId, sealed, aud, id, nonce, ?_,
    approved.append ls'⟩
  rw [ciphertext]
  exact room

/-- A Consent that mints an assertion approves it. -/
lemma Mint.fromLogin {t event l c job} (hmac : st.crates.HmacCollisionFree) (aead : st.crates.AeadCorrect)
    (r : Run st ls S) (m : Mint st event l.past S.db) (hm : m.job = some job) (op : c.op = .commit)
    (log : c.log = l.log) :
    FromLogin st (ls ++ [.act t (.inbound event) l c]) m.result job := by
  have bound : m.session.challengeHash ≠ none := by
    rw [m.challenge_eq]
    exact Option.some_ne_none _
  obtain ⟨u, request, l', c', nonce, sentAt, _, mem, op', log', message, hash, _, _, sender, room⟩ :=
    r.boundBy aead m.mem bound
  obtain ⟨session, nonceHash⟩ := SessionFilter.accepts_sessionAndNonce.mp m.found
  -- the Consent repeats the nonce of the Request, and comes from its sender and its room
  obtain rfl : m.nonce = nonce := AppState.lookupHash_inj hmac (nonceHash.symm.trans hash)
  have user : request.sender = event.sender := Option.some.inj (sender.symm.trans m.sender_eq)
  have roomId : request.roomId = event.roomId := Option.some.inj (room.symm.trans m.room_eq)
  obtain ⟨signature, assertion⟩ := RelayAssertion.sign_ok m.assertion_eq
  obtain ⟨id, now, rfl⟩ := m.job_eq hm
  have requested : Requested st ls m.assertion event.sender event.roomId := by
    refine ⟨u, request, l', c', sentAt, mem, op', log', ?_, user, roomId⟩
    rw [assertion, ← session]
    exact message
  have approves : Approves st event m.assertion := by
    have message := m.message
    have signed := m.signed_eq
    rw [m.isApproved, m.display_eq] at message signed
    refine ⟨m.sentAt, m.challenge, m.keyId, m.signature, m.signed, ?_, ?_, m.verified⟩
    · rw [assertion]
      exact message
    · rw [assertion]
      exact signed
  have written : m.set.on m.session ∈ m.result.sessions := by
    rw [m.result_sessions]
    exact (Db.mem_updateSession ..).mpr ⟨m.session, m.mem, if_pos rfl⟩
  refine ⟨_, written, rfl, session, bound, m.assertion, event.sender, event.roomId, m.assertionSealed, ?_, ?_, ?_,
    m.room_eq, ls, t, event, l, c, [], rfl, requested, op, log, approves, rfl, rfl, ?_⟩
  · rw [assertion]
    rfl
  · rw [assertion]
    rfl
  · rw [assertion]
    rfl
  · rw [assertion]
    exact m.sub_eq

/-- Every assertion job comes from a login. -/
lemma Run.fromLogin (hmac : st.crates.HmacCollisionFree) (aead : st.crates.AeadCorrect) (r : Run st ls S) :
    ∀ j ∈ S.db.jobs, j.kind = .assertion → FromLogin st ls S.db j := by
  induction r with
  | init => exact fun j hj => absurd hj Table.not_mem_empty
  | @step ls S lb S' r s ih =>
    intro j' hj' kind
    obtain same | ⟨t, input, l, a, rfl, eff, ch⟩ := r.inv.step_change s
    · rw [same] at hj' ⊢
      have same : Change st .tick [] S.db S.db := .keep
      exact (ih j' hj' kind).stays same [lb]
    · obtain ⟨j, hj, e⟩ | ⟨event, rfl, m, hm, db⟩ | ⟨event, rfl, v, hv, -⟩ := ch.job_origin hj'
      · have kinds : j'.kind = j.kind := DeliveryJob.of_fixed e (·.kind) fun _ => rfl
        exact ((ih j hj (kinds.symm.trans kind)).stays ch _).congr e
      · obtain ⟨op, log⟩ | ⟨i, -⟩ := eff
        · rw [db]
          exact m.fromLogin hmac aead r hm op log
        · nomatch i
      · obtain ⟨id, now, rfl⟩ := v.job_eq hv
        nomatch kind

end WebLoginRelay
