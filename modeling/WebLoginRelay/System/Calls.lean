import WebLoginRelay.System.Rules

/-!
# Every call stays within what is permitted

The symbolic run of `register_session`, of the three handlers of `handle_inbound` and of `tick`. At
each commit the journal is an explicit list of entries, and the change is read off it.
-/

namespace WebLoginRelay
open Text Txn Relay

variable {st : AppState} {p : List Act} {tx : Option DateTime} {τ : DateTime} {lg : List Entry}

/-! ## Registration -/

/-- `insert_registered` inserts the session, or finds the one there is. -/
lemma safe_insertRegistered {new : NewSession} {request : RegistrationRequest}
    {P : InsertOutcome → Local → Prop}
    (created : ∀ t a id, millisToUtc st (new.exp + replayGraceMs) = .ok t →
      P .created ⟨p ++ [a], some τ, lg ++ [.sessionInsert (new.row id)]⟩)
    (identical : ∀ a b row, P .identical ⟨p ++ [a] ++ [b], some τ, lg ++ [.sessionRead row]⟩) :
    Safe st (.register request) (insertRegistered st new) P ⟨p, some τ, lg⟩ := by
  refine safe_bind.mpr (safe_monadLift.mpr fun t ht => ?_)
  refine safe_bind.mpr (safe_execUnique (fun _ _ => ⟨request, rfl⟩) fun db seqs n vl run => ?_)
  simp only [Query.run] at run ⊢
  split at run
  · rename_i clash
    cases run
    simp only [if_pos clash, List.append_nil]
    refine safe_bind.mpr (safe_selectSessions (fun _ e => by cases e) safe_throw fun row _ => ?_)
    dsimp only
    split
    · exact safe_pure.mpr (identical _ _ row)
    · exact safe_throw
  · rename_i free
    cases run
    simp only [if_neg free]
    exact safe_pure.mpr (created t _ _ ht)

/-- Only the success of a check matters. -/
lemma orFail_ok {α} {code : ProblemCode} {r : Except RelayError α} {a : α} (h : orFail code r = .ok a) :
    r = .ok a := by
  cases r with
  | ok b => exact h
  | error e => nomatch h

/-- Fetched metadata has been validated for the domain. -/
lemma safe_fetchVerifiedMetadata {request : RegistrationRequest} {P : SiteMetadata → Local → Prop}
    (h : ∀ m a, m.validateForDomain st.crates request.domain = .ok () → P m ⟨p ++ [a], tx, lg⟩) :
    Safe st (.register request) (fetchVerifiedMetadata st request.domain) P ⟨p, tx, lg⟩ := by
  have fetched : Safe st (.register request) (fetchMetadata st request.domain) P ⟨p, tx, lg⟩ := by
    refine safe_bind.mpr (safe_request (fun _ post => nomatch post) fun response => ?_)
    split
    · exact safe_throw
    · refine safe_bind.mpr (safe_monadLift.mpr fun m _ => ?_)
      refine safe_bind.mpr (safe_monadLift.mpr fun _ valid => ?_)
      exact safe_pure.mpr (h m _ valid)
  refine (Prog.wp_bind _ _ _).mpr (Prog.wp_mono _ _ _ (fun r l w => ?_) fetched)
  cases r with
  | ok m => exact w
  | error e => trivial

/-- A registration commits a new session, or nothing. -/
lemma safe_registerSession {request : RegistrationRequest} :
    Safe st (.register request) (registerSession st request) (fun _ _ => True) ⟨p, tx, lg⟩ := by
  refine safe_bind.mpr (safe_monadLift.mpr fun _ valid => ?_)
  refine safe_bind.mpr (safe_nowMs fun now => ?_)
  split
  · exact safe_throw
  · rename_i unexpired
    refine safe_bind.mpr (safe_fetchVerifiedMetadata fun m a verified => ?_)
    refine safe_bind.mpr (safe_monadLift.mpr fun qr qr_eq => ?_)
    refine safe_bind.mpr (safe_monadLift.mpr fun _ qrSigned => ?_)
    refine safe_bind.mpr (safe_monadLift.mpr fun canonical canonical_eq => ?_)
    refine safe_bind.mpr (safe_monadLift.mpr fun _ registrationSigned => ?_)
    refine safe_bind.mpr (safe_encrypt fun nonce ct hct => ?_)
    refine safe_inTx fun τ => safe_bind.mpr (safe_insertRegistered ?_ ?_)
    · intro t b id ht
      refine safe_bind.mpr (safe_commit (fun db vl => ?_) (safe_pure.mpr trivial))
      exact .register {
        valid, now, verified, qr, qr_eq, canonical, canonical_eq, id
        expiresAt := t
        expiresAt_eq := ht
        metadata := m
        clock := by simp [ReadClock]
        unexpired := Int64.not_le.mp unexpired
        qrSigned := orFail_ok qrSigned
        registrationSigned := orFail_ok registrationSigned
        nonceCiphertext := ct
        nonceSealed := hct
        isNew := vl.1 }
    · intro b c row
      exact safe_bind.mpr (safe_commit (fun db vl => .keep) (safe_pure.mpr trivial))

/-! ## Request -/

/-- `bind_challenge` ends with the session updated. -/
lemma safe_bindChallenge {event : InboundEvent} {now : Int64} {session : SessionRow} {input : Input}
    {P : String × Int64 → Local → Prop}
    (h : ∀ t bytes roomCt senderCt p',
      millisToUtc st (session.exp + replayGraceMs) = .ok t →
      Drawn p' challengeBytes bytes →
      Sealed st (asBytes event.roomId) roomCt →
      Sealed st (asBytes event.sender) senderCt →
      p ⊆ p' →
      (∀ a ∈ p', a ∈ p ∨ ∀ r b, a.op ≠ .sendNotice r b) →
      P (Base64url.encode st.crates bytes, challengeExpiresAt now session.exp)
        ⟨p', some τ, challengeLog event session t
          (st.lookupHash (Base64url.encode st.crates bytes)) {
            state := .challengeSent
            requestEventId := some event.eventId
            requestRoomCiphertext := some roomCt
            requestSenderCiphertext := some senderCt
            challengeHash := some (st.lookupHash (Base64url.encode st.crates bytes))
            challengeExpiresAt := some (challengeExpiresAt now session.exp) }⟩) :
    Safe st input (bindChallenge st event now session) P ⟨p, some τ, [.sessionRead session]⟩ := by
  refine safe_bind.mpr (safe_monadLift.mpr fun t ht => ?_)
  refine safe_bind.mpr (safe_reserve ?_)
  refine safe_bind.mpr (safe_fillBytes fun bytes => ?_)
  refine safe_bind.mpr (safe_monadLift.mpr fun t' ht' => ?_)
  cases ht.symm.trans ht'
  refine safe_bind.mpr (safe_reserve ?_)
  refine safe_bind.mpr (safe_encrypt fun nonce roomCt hr => ?_)
  refine safe_bind.mpr (safe_encrypt fun nonce' senderCt hs => ?_)
  refine safe_bind.mpr (safe_casUpdate (by simp) (fun db vl => vl.1) ?_)
  refine safe_pure.mpr (h t bytes.val roomCt senderCt _ ht (drawn_of_mem ?_) hr hs ?_ ?_)
  · simp
  · intro a ha
    simp [ha]
  · intro a ha
    simp only [List.mem_append, List.mem_singleton] at ha
    grind

/-- A Request commits a challenge for an unbound session, or nothing. -/
lemma safe_processRequest {event : InboundEvent} {sessionId nonce : String} {sentAt : Int64}
    {domain : String} (msg : event.message? st = some (.request sessionId nonce sentAt domain)) :
    Safe st (.inbound event) (processRequest st event sessionId nonce sentAt domain)
      (fun _ _ => True) {} := by
  refine safe_bind.mpr (safe_nowMs fun now => safe_inTx fun τ => ?_)
  refine safe_bind.mpr (safe_selectSessions (fun _ e => ?_) (safe_pure.mpr trivial)
    fun session found => ?_)
  · cases e
    rw [msg]
    rfl
  dsimp only
  split
  · exact safe_pure.mpr trivial
  · rename_i window
    split
    · exact safe_bind.mpr (safe_commit (fun db vl => .keep) (safe_pure.mpr trivial))
    · rename_i unbound
      refine safe_bind.mpr (safe_bindChallenge ?_)
      intro t bytes roomCt senderCt p' ht drawn hr hs sub quiet
      refine safe_bind.mpr (safe_commit (fun db vl => ?_) ?_)
      · exact .request {
          sessionId, nonce, sentAt, domain
          message := msg
          session, found, now, bytes, drawn, roomCt, senderCt
          mem := vl.1
          clock := sub (by simp)
          unexpired := fun lt => window (.inl lt)
          window := by simpa using fun h => window (.inr h)
          unbound := by simpa using unbound
          expiresAt := t
          expiresAt_eq := ht
          roomSealed := hr
          senderSealed := hs
          newEvent := vl.2.1
          newChallenge := fun clash => vl.2.2.1 clash.insert }
      · refine safe_bind.mpr (safe_monadLift.mpr fun body hb => ?_)
        refine safe_bind.mpr (safe_sendNotice (fun answer => ?_) (safe_pure.mpr trivial))
        intro event' sessionId' nonce' sentAt' domain' e msg'
        cases e
        cases msg.symm.trans msg'
        obtain ⟨fd, fs, _⟩ := SessionFilter.accepts_matching.mp found
        refine ⟨rfl, ⟨session, _, t, now, _, _, List.mem_append_right _ (List.mem_singleton_self _),
          fd, fs, by simpa using unbound, rfl, rfl, hb, List.mem_append_left _ (sub (by simp)),
          fun lt => window (.inl lt), rfl⟩, fun a ha r b => ?_⟩
        rw [List.mem_append, List.mem_singleton] at ha
        obtain ha | rfl := ha
        · obtain ha | ha := quiet a ha
          · simp only [List.mem_append, List.mem_singleton] at ha
            grind
          · exact ha r b
        · simp

/-! ## Consent -/

/-- The event is not a Request. -/
def NotRequest (st : AppState) (event : InboundEvent) : Prop :=
  ∀ sessionId nonce sentAt domain,
    event.message? st ≠ some (.request sessionId nonce sentAt domain)

/-- A result notice is always allowed. -/
lemma safe_sendFailure {event : InboundEvent} {roomId sessionId nonce reason : String}
    (nr : NotRequest st event) :
    Safe st (.inbound event) (sendFailure st roomId sessionId nonce reason) (fun _ _ => True)
      ⟨p, tx, lg⟩ := by
  refine safe_bind.mpr (safe_nowMs fun now => ?_)
  refine safe_bind.mpr (safe_monadLift.mpr fun body _ => ?_)
  refine safe_bind.mpr (safe_sendNotice (fun answer => ?_) (safe_pure.mpr trivial))
  intro event' sessionId nonce sentAt domain e msg
  cases e
  exact absurd msg (nr _ _ _ _)

/-- The entry of `upsert_grant`. -/
def IsGrantEntry (new : NewGrant) (e : Entry) : Prop :=
  (∃ g : GrantRow, g.domain = new.domain ∧ g.subjectHash = new.subjectHash ∧
    e = .grantUpdate g (.relink new.sessionId new.nonceHash)) ∨ ∃ id, e = .grantInsert (new.row id)

/-- The grant that is linked is the one of the subject. -/
lemma putGrant_of_mem {db : Db} {new : NewGrant} {g : GrantRow} (id : Nat) (mem : g ∈ db.grants)
    (hd : g.domain = new.domain) (hs : g.subjectHash = new.subjectHash) :
    db.putGrant new id = db.updateGrant g.domain g.subjectHash (.relink new.sessionId new.nonceHash) := by
  unfold Db.putGrant
  split
  · rename_i f e
    have acc := List.find?_some e
    simp only [Bool.and_eq_true, beq_iff_eq] at acc
    rw [acc.1, acc.2, hd, hs]
  · rename_i e
    have n := List.find?_eq_none.mp e g mem
    simp [hd, hs] at n

/-- A grant that is inserted is the first of its subject. -/
lemma putGrant_of_free {db : Db} {new : NewGrant} {id : Nat} (free : ¬ db.grants.Clashes (new.row id)) :
    db.putGrant new id = { db with grants := db.grants.insert (new.row id) } := by
  unfold Db.putGrant
  split
  · rename_i f e
    have acc := List.find?_some e
    simp only [Bool.and_eq_true, beq_iff_eq] at acc
    exact absurd ⟨f, List.mem_of_find?_eq_some e, .inr acc⟩ free
  · rfl

/-- `upsert_grant` puts the grant. -/
lemma IsGrantEntry.apply_eq {db : Db} {new : NewGrant} {e : Entry} (h : IsGrantEntry new e)
    (ho : e.Holds db) : ∃ id, e.apply db = db.putGrant new id ∧
      ((∀ g ∈ db.grants, ¬ (g.domain = new.domain ∧ g.subjectHash = new.subjectHash)) →
        ∀ g ∈ db.grants, g.id ≠ id) := by
  obtain ⟨g, hd, hs, rfl⟩ | ⟨id, rfl⟩ := h
  · refine ⟨0, (putGrant_of_mem 0 ho hd hs).symm, fun none => absurd ⟨hd, hs⟩ (none g ho)⟩
  · refine ⟨id, (putGrant_of_free ho).symm, fun _ g hg e => ho ⟨g, hg, .inl e⟩⟩

/-- The outcome of `upsert_grant` is one grant entry. -/
lemma safe_putGrant {new : NewGrant} {input : Input} {P : GrantRow → Local → Prop}
    (h : ∀ row e a, IsGrantEntry new e → P row ⟨p ++ [a], some τ, lg ++ [e]⟩) :
    Safe st input (upsertGrant new) P ⟨p, some τ, lg⟩ :=
  safe_upsertGrant (fun g a hd hs => h _ _ a (.inl ⟨g, hd, hs, rfl⟩)) fun id a => h _ _ a (.inr ⟨id, rfl⟩)

/-- The entries of `enqueue`. -/
def jobLog (job : Option DeliveryJob) : List Entry := job.toList.map .jobInsert

/-- `enqueue` adds the job it has queued. -/
lemma safe_queue {new : NewJob} {input : Input} {P : Unit → Local → Prop}
    (jobs : ∀ db, (journal.replay db lg).jobs = db.jobs)
    (h : ∀ job a, a.op = .exec (.enqueue new) →
      (job = none → a = ⟨.exec (.enqueue new), Except.ok (0 : Nat), []⟩) →
      (∀ j, job = some j → ∃ id now, j = new.row id now) →
      P () ⟨p ++ [a], some τ, lg ++ jobLog job⟩) :
    Safe st input (enqueue new) P ⟨p, some τ, lg⟩ := by
  refine safe_enqueue jobs ?_ fun id => ?_
  · simpa [jobLog] using h none _ rfl (fun _ => rfl) (fun _ e => nomatch e)
  · refine h (some (new.row id τ)) _ rfl (fun e => nomatch e) fun j e => ?_
    cases e
    exact ⟨id, τ, rfl⟩

@[simp] lemma valid_jobLog {db : Db} {job : Option DeliveryJob} :
    journal.Valid db (jobLog job) ↔ ∀ j, job = some j → ¬ db.jobs.Clashes j := by
  cases job with
  | none => simp [jobLog]
  | some j => simp [jobLog, Entry.Holds]

/-- The entries of a queued job. -/
lemma queued_of_log {db : Db} {new : NewJob} {job : Option DeliveryJob} {a : Act} {past : List Act}
    (ha : a ∈ past) (taken : job = none → a = ⟨.exec (.enqueue new), Except.ok (0 : Nat), []⟩)
    (row : ∀ j, job = some j → ∃ id now, j = new.row id now)
    (free : ∀ j, job = some j → ¬ db.jobs.Clashes j) : Queued past db new job := by
  cases job with
  | none =>
    cases taken rfl
    exact ha
  | some j => exact ⟨row j rfl, free j rfl⟩

@[simp] lemma replay_jobLog (db : Db) (job : Option DeliveryJob) :
    journal.replay db (jobLog job) = db.addJob job := by
  cases job <;> rfl

/-- An approved Consent commits an assertion. -/
lemma safe_mintAssertion {event : InboundEvent} (c : ConsentCheck st event p)
    (ap : c.approved = true) :
    Safe st (.inbound event)
      (mintAssertion st event c.sessionId c.nonce c.now c.displayName c.session) (fun _ _ => True)
      ⟨p, some τ, [.sessionRead c.session,
        .replayInsert ⟨.consentEventId event.eventId, c.expiresAt⟩]⟩ := by
  unfold mintAssertion
  split
  · exact safe_throw
  · rename_i display display_eq
    refine safe_bind.mpr (safe_monadLift.mpr fun sub sub_eq => ?_)
    refine safe_bind.mpr (safe_encrypt fun n1 subjectCt hsub => ?_)
    refine safe_bind.mpr (safe_encrypt fun n2 userCt huser => ?_)
    refine safe_bind.mpr (safe_putGrant fun row e a1 ge => ?_)
    refine safe_bind.mpr (safe_fillBytes fun bytes => ?_)
    refine safe_bind.mpr (safe_monadLift.mpr fun assertion assertion_eq => ?_)
    refine safe_bind.mpr (safe_monadLift.mpr fun t ht => ?_)
    cases c.expiresAt_eq.symm.trans ht
    refine safe_bind.mpr (safe_reserve ?_)
    refine safe_bind.mpr (safe_encrypt fun n3 assertionCt hass => ?_)
    refine safe_bind.mpr (safe_encrypt fun n4 displayCt hdis => ?_)
    refine safe_bind.mpr (safe_casUpdate (by simp) (fun db vl => ?_) ?_)
    · obtain ⟨g, _, _, rfl⟩ | ⟨id, rfl⟩ := ge
      · exact vl.1
      · exact vl.1
    · refine safe_bind.mpr (safe_queue (fun db => ?_) fun job a2 _ taken row => ?_)
      · obtain ⟨g, _, _, rfl⟩ | ⟨id, rfl⟩ := ge
        · rfl
        · rfl
      refine safe_bind.mpr (safe_commit (fun db vl => ?_) (safe_pure.mpr trivial))
      simp only [Journal.valid_append, Journal.valid_cons, Journal.replay_append,
        Journal.replay_cons, Journal.replay_nil, replay_jobLog, journal_holds, journal_apply,
        apply_sessionRead, apply_replayInsert, apply_sessionUpdate] at vl ⊢
      obtain ⟨⟨⟨⟨⟨mem, newEvent, -⟩, holds, -⟩, newJti, -⟩, -⟩, vj⟩ := vl
      obtain ⟨grantId, put, isNewGrant⟩ := ge.apply_eq holds
      rw [put] at newJti vj ⊢
      refine .of_mint {
        toConsentCheck := c.mono fun x hx => by simp [hx]
        mem, newEvent, display, display_eq, sub, sub_eq, subjectCt, userCt, grantId, isNewGrant
        assertion, assertion_eq, assertionCt, displayCt, job
        isApproved := ap
        subjectSealed := hsub
        userSealed := huser
        bytes := bytes.val
        drawn := drawn_of_mem (by simp)
        newJti := fun clash => newJti ((Db.putGrant_replay ..).symm ▸ clash.insert)
        assertionSealed := hass
        displaySealed := hdis
        queued := queued_of_log (by simp) taken row (by simpa using vj) } rfl

/-- A Consent commits a refusal, an assertion, or nothing. -/
lemma safe_consentOn {event : InboundEvent} {sessionId nonce : String} {sentAt : Int64}
    {approved : Bool} {displayName : Option String} {challenge keyId signature : String}
    {now : Int64} {signed : Bytes} {session : SessionRow}
    (msg : event.message? st =
      some (.consent sessionId nonce sentAt approved displayName challenge keyId signature))
    (signed_eq :
      consentSignedBytes st.crates approved challenge displayName nonce sessionId sentAt = .ok signed)
    (verified : P256.verifyConsentSignature st.crates keyId signed signature = .ok ())
    (found : (SessionFilter.sessionAndNonce sessionId (st.lookupHash nonce)).accepts session)
    (clock : ReadClock p now) :
    Safe st (.inbound event)
      (consentOn st event sessionId nonce sentAt approved displayName challenge now session)
      (fun _ _ => True) ⟨p, some τ, [.sessionRead session]⟩ := by
  have nr : NotRequest st event := by
    intro s n t d e
    rw [msg] at e
    cases e
  unfold consentOn
  split
  · exact safe_bind.mpr (safe_rollback fun _ => safe_sendFailure nr)
  rename_i live
  split
  · exact safe_pure.mpr trivial
  rename_i challenge_eq
  split
  · exact safe_pure.mpr trivial
  rename_i bound
  simp only [not_or, ne_eq, not_not, Bool.not_eq_true', Bool.not_eq_false, Bool.not_eq_true]
    at live challenge_eq bound
  refine safe_bind.mpr (safe_monadLift.mpr fun t ht => ?_)
  let c : ConsentCheck st event p := {
    sessionId, nonce, sentAt, approved, displayName, challenge, keyId, signature
    message := msg
    signed, signed_eq, verified, session, found, now, clock, challenge_eq
    unexpired := live.1
    window := live.2.1
    challengeOpen := live.2.2
    sender_eq := bound.1
    room_eq := bound.2
    expiresAt := t
    expiresAt_eq := ht }
  refine safe_bind.mpr (safe_reserve ?_)
  split
  · rename_i ap
    exact safe_mintAssertion (c.mono fun x hx => by simp [hx]) ap
  · rename_i ap
    refine safe_bind.mpr (safe_casUpdate (by simp) (fun db vl => vl.1) ?_)
    refine safe_bind.mpr (safe_commit (fun db vl => ?_) (safe_sendFailure nr))
    refine .of_refusal {
      toConsentCheck := c.mono fun x hx => by simp [hx]
      mem := vl.1
      newEvent := vl.2.1 } (Bool.not_eq_true _ ▸ ap) rfl

/-- A Consent commits only what its checks allow. -/
lemma safe_processConsent {event : InboundEvent} {sessionId nonce : String} {sentAt : Int64}
    {approved : Bool} {displayName : Option String} {challenge keyId signature : String}
    (msg : event.message? st =
      some (.consent sessionId nonce sentAt approved displayName challenge keyId signature)) :
    Safe st (.inbound event)
      (processConsent st event sessionId nonce sentAt approved displayName challenge keyId signature)
      (fun _ _ => True) ⟨p, tx, lg⟩ := by
  refine safe_bind.mpr (safe_nowMs fun now => ?_)
  refine safe_bind.mpr (safe_monadLift.mpr fun signed signed_eq => ?_)
  refine safe_bind.mpr (safe_monadLift.mpr fun _ verified => ?_)
  refine safe_inTx fun τ => safe_bind.mpr (safe_selectSessions (fun _ e => ?_) safe_throw
    fun session found => ?_)
  · cases e
    rw [msg]
    rfl
  exact safe_consentOn msg signed_eq verified found (by simp [ReadClock])

/-! ## Revocation -/

/-- A Revocation commits the end of an active grant, or nothing. -/
lemma safe_revocationOn {event : InboundEvent} {sessionId nonce : String} {sentAt : Int64}
    {siteAccountId : String} {reason : Option String} {session : SessionRow}
    (msg : event.message? st = some (.revocation sessionId nonce sentAt siteAccountId reason))
    (found : (SessionFilter.sessionAndNonce sessionId (st.lookupHash nonce)).accepts session)
    (first : ∀ a ∈ p, ∀ d h, a.op ≠ .exec (.selectGrants d h)) :
    Safe st (.inbound event) (revocationOn st event sessionId nonce siteAccountId reason session)
      (fun _ _ => True) ⟨p, some τ, [.sessionRead session]⟩ := by
  refine safe_bind.mpr (safe_findActiveGrant (safe_pure.mpr trivial) fun grant hd hs => ?_)
  refine safe_bind.mpr (safe_monadLift.mpr fun user owner => ?_)
  split
  · exact safe_pure.mpr trivial
  rename_i same
  split
  · exact safe_bind.mpr (safe_commit (fun db vl => .keep) (safe_pure.mpr trivial))
  rename_i active
  simp only [ne_eq, not_not, Bool.not_eq_true, Option.isSome_eq_false_iff,
    Option.isNone_iff_eq_none] at same active
  subst same
  refine safe_bind.mpr (safe_markRevoked active (fun db vl => vl.2.1) ?_)
  refine safe_bind.mpr (safe_fillBytes fun bytes => ?_)
  refine safe_bind.mpr (safe_nowMs fun reservedAt => ?_)
  refine safe_bind.mpr (safe_monadLift.mpr fun t ht => ?_)
  refine safe_bind.mpr (safe_reserve ?_)
  refine safe_bind.mpr (safe_nowMs fun iat => ?_)
  refine safe_bind.mpr (safe_monadLift.mpr fun revocation revocation_eq => ?_)
  refine safe_bind.mpr (safe_encrypt fun n payloadCt hp => ?_)
  refine safe_bind.mpr (safe_queue (fun db => rfl) fun job a queue taken row => ?_)
  refine safe_bind.mpr (safe_casUpdate (by simp) (fun db vl => ?_) ?_)
  · simp only [Journal.valid_append, Journal.replay_append, replay_jobLog] at vl ⊢
    rw [Db.addJob_sessions]
    exact vl.1.1.1.1.1
  refine safe_bind.mpr (safe_commit (fun db vl => ?_) (safe_pure.mpr trivial))
  simp only [Journal.valid_append, Journal.valid_cons, Journal.replay_append, Journal.replay_cons,
    Journal.replay_nil, replay_jobLog, journal_holds, journal_apply, apply_sessionRead,
    apply_grantRead, apply_grantUpdate, apply_replayInsert, apply_sessionUpdate] at vl ⊢
  obtain ⟨⟨⟨⟨⟨⟨mem, -⟩, grant_mem, -⟩, -⟩, newJti, -⟩, vj⟩, -⟩ := vl
  refine .of_unlink {
    sessionId, nonce, sentAt, siteAccountId, reason, session, found, grant, owner, active
    revocation, revocation_eq, payloadCt, job, mem, grant_mem, reservedAt, iat
    message := msg
    grant_domain := hd
    grant_subject := hs
    revokedAt := τ
    bytes := bytes.val
    drawn := drawn_of_mem (by simp)
    reservedClock := by simp [ReadClock]
    expiresAt := t
    expiresAt_eq := ht
    newJti := newJti
    clock := by simp [ReadClock]
    payloadSealed := hp
    queued := queued_of_log (by simp) taken row (by simpa using vj)
    looked := fun d h rows es mem => by
      have old : ⟨.exec (.selectGrants d h), Except.ok rows, es⟩ ∉ p := fun m => first _ m d h rfl
      have new : ⟨.exec (.selectGrants d h), Except.ok rows, es⟩ ≠ a := fun e => by
        rw [← e] at queue
        cases queue
      simp only [List.mem_append, List.mem_singleton, Act.mk.injEq, Op.exec.injEq, reduceCtorEq,
        false_and, or_false, old, new, false_or] at mem
      obtain ⟨same, resp, -⟩ := mem
      cases same
      cases resp
      rfl } rfl

/-- A Revocation commits only what its checks allow. -/
lemma safe_processRevocation {event : InboundEvent} {sessionId nonce : String} {sentAt : Int64}
    {siteAccountId : String} {reason : Option String}
    (msg : event.message? st = some (.revocation sessionId nonce sentAt siteAccountId reason)) :
    Safe st (.inbound event) (processRevocation st event sessionId nonce siteAccountId reason)
      (fun _ _ => True) ⟨[], tx, lg⟩ := by
  refine safe_inTx fun τ => safe_bind.mpr (safe_selectSessions (fun _ e => ?_) ?_
    fun session found => ?_)
  · cases e
    rw [msg]
    rfl
  · exact safe_pure.mpr trivial
  · exact safe_revocationOn msg found (by simp)

/-- Every inbound event is handled within what is permitted. -/
lemma safe_handleInbound {event : InboundEvent} :
    Safe st (.inbound event) (handleInbound st event) (fun _ _ => True) {} := by
  unfold handleInbound
  split
  case h_1 msg => exact safe_processRequest msg
  case h_2 msg => exact safe_processConsent msg
  case h_3 msg => exact safe_processRevocation msg
  case h_4 => exact safe_pure.mpr trivial

/-! ## Delivery -/

/-- What a call has done stays done. -/
lemma mem_past_after {a b : Act} {l : Local} (h : a ∈ l.past) : a ∈ (l.after b).past :=
  List.mem_append_left _ h

/-- The success notice is the one of a delivery. -/
lemma safe_sendSuccessResult {roomId sessionId nonce sub : String} {P : Unit → Local → Prop}
    (h : ∀ p, P () ⟨p, tx, lg⟩) :
    Safe st .tick (sendSuccessResult st roomId sessionId nonce sub) P ⟨p, tx, lg⟩ := by
  refine safe_bind.mpr (safe_nowMs fun now => ?_)
  refine safe_bind.mpr (safe_monadLift.mpr fun body _ => ?_)
  exact safe_sendNotice (fun _ _ _ _ _ _ e => nomatch e) (h _)

/-- An accepted assertion commits the next state of its session. -/
lemma safe_afterAssertionAccepted {job : DeliveryJob} {payload : Bytes} {response : SiteResponse}
    (claimed : Claimed p job) (kind : job.kind = .assertion)
    (payload_eq : st.decrypt job.payloadCiphertext = .ok payload)
    (posted : ⟨.request (job.post payload), Except.ok response, []⟩ ∈ p)
    (status : response.status = 202 ∨ response.status = 200) :
    Safe st .tick (afterAssertionAccepted st job payload) (fun _ _ => True) ⟨p, tx, lg⟩ := by
  refine safe_bind.mpr (safe_monadLift.mpr fun assertion assertion_eq => ?_)
  refine safe_inTx fun τ => safe_bind.mpr (safe_selectSessions (fun _ e => nomatch e) ?_
    fun session found => ?_)
  · exact safe_pure.mpr trivial
  dsimp only
  split
  · exact safe_throw
  rename_i roomCt roomCt_eq
  refine safe_bind.mpr (safe_monadLift.mpr fun roomId roomId_eq => ?_)
  refine safe_bind.mpr (safe_monadLift.mpr fun nonce nonce_eq => ?_)
  refine safe_bind.mpr (safe_casUpdate (by simp) (fun db vl => vl.1) ?_)
  refine safe_bind.mpr (safe_commit (fun db vl => ?_) (safe_sendSuccessResult fun _ => trivial))
  obtain ⟨jobs, es, mem, hj⟩ := claimed
  refine .of_acceptance {
    job, kind, payload, payload_eq, response, status, assertion, assertion_eq, session, found
    roomCt, roomCt_eq, roomId, roomId_eq, nonce, nonce_eq
    claimed := ⟨jobs, es, by simp [mem], hj⟩
    mem := vl.1
    posted := by simp [posted] } rfl

/-- What `deliver` posts. -/
lemma postJson_job (job : DeliveryJob) (payload : Bytes) :
    postJson job.domain job.kind.path payload (if job.kind = .assertion then some job.jti else none) =
      request (job.post payload) := by
  unfold postJson DeliveryJob.post
  split <;> rfl

/-- A delivery posts its job once. -/
lemma safe_deliver {job : DeliveryJob} (claimed : Claimed p job) :
    Safe st .tick (deliver st job) (fun _ _ => True) ⟨p, tx, lg⟩ := by
  refine safe_bind.mpr (safe_monadLift.mpr fun payload payload_eq => safe_bind.mpr ?_)
  rw [postJson_job]
  refine safe_request (fun answer _ => ⟨rfl, job, payload, claimed, payload_eq, rfl⟩) fun response => ?_
  split
  · exact safe_throw
  rename_i status
  split
  · rename_i kind
    obtain ⟨jobs, es, mem, hj⟩ := claimed
    refine safe_afterAssertionAccepted ⟨jobs, es, by simp [mem], hj⟩ kind payload_eq
      (List.mem_append_right _ (List.mem_singleton_self _)) ?_
    exact (not_and_or.mp status).imp not_not.mp not_not.mp
  · exact safe_pure.mpr trivial

/-- One pass of the loop keeps what was claimed. -/
lemma safe_deliverJob {job : DeliveryJob} {batch : List DeliveryJob} {es : List Entry} {l : Local}
    (mem : ⟨.auto (.claimDue 10), Except.ok batch, es⟩ ∈ l.past) (hj : job ∈ batch) :
    Safe st .tick (deliverJob st job)
      (fun _ l => ⟨.auto (.claimDue 10), Except.ok batch, es⟩ ∈ l.past) l := by
  have keep (l : Local) (b : Act) (h : ⟨.auto (.claimDue 10), Except.ok batch, es⟩ ∈ l.past) :
      ⟨.auto (.claimDue 10), Except.ok batch, es⟩ ∈ (l.after b).past := mem_past_after h
  have close {x : Relay Unit} {l : Local} (w : Safe st .tick x (fun _ _ => True) l)
      (h : ⟨.auto (.claimDue 10), Except.ok batch, es⟩ ∈ l.past) :
      Safe st .tick x (fun _ l => ⟨.auto (.claimDue 10), Except.ok batch, es⟩ ∈ l.past) l := by
    refine Prog.wp_mono _ _ _ (fun r l hr => ?_) (Prog.wp_stable _ _ _ keep w h)
    cases r with
    | ok _ => exact hr.2
    | error _ => trivial
  have d : Safe st .tick (deliver st job) (fun _ _ => True) l := safe_deliver ⟨batch, es, mem, hj⟩
  have w := Prog.wp_stable _ _ _ keep d mem
  refine (Prog.wp_bind _ _ _).mpr (Prog.wp_mono _ _ _ (fun r l h => ?_) w)
  cases r with
  | ok _ => exact close (safe_markDelivered ⟨batch, es, h.2, hj⟩) h.2
  | error _ =>
    dsimp only
    split
    · rename_i many
      exact close (safe_markFailed ⟨batch, es, h.2, hj⟩ many) h.2
    · exact h.2

/-- The loop delivers the jobs of its batch. -/
lemma safe_deliverAll {jobs batch : List DeliveryJob} {es : List Entry} {l : Local}
    (mem : ⟨.auto (.claimDue 10), Except.ok batch, es⟩ ∈ l.past) (sub : jobs ⊆ batch) :
    Safe st .tick (deliverAll st jobs) (fun _ _ => True) l := by
  induction jobs generalizing l with
  | nil => exact safe_pure.mpr trivial
  | cons job jobs ih =>
    refine safe_bind.mpr (safe_mono (fun _ l h => ?_) (safe_deliverJob mem (sub (by simp))))
    exact ih h fun j hj => sub (by simp [hj])

/-- A tick stays within what is permitted. -/
lemma safe_tick : Safe st .tick (tick st) (fun _ _ => True) ⟨p, tx, lg⟩ :=
  safe_bind.mpr (safe_claimDue fun jobs _ =>
    safe_deliverAll (List.mem_append_right _ (List.mem_singleton_self _)) (List.Subset.refl jobs))

/-- Every call stays within what is permitted. -/
theorem wp_prog (st : AppState) (input : Input) :
    Prog.wp Local.Poss Local.after (Permits st input) (input.prog st) (fun _ _ => True) {} := by
  have lift {α} {x : Relay α} {f : Except RelayError α → Result}
      (w : Safe st input x (fun _ _ => True) {}) :
      Prog.wp Local.Poss Local.after (Permits st input) (f <$> x.run) (fun _ _ => True) {} := by
    rw [map_eq_pure_bind, Prog.wp_bind]
    exact Prog.wp_mono _ _ _ (fun _ _ _ => trivial) w
  cases input with
  | register request => exact lift safe_registerSession
  | inbound event => exact lift safe_handleInbound
  | tick => exact lift safe_tick

end WebLoginRelay
