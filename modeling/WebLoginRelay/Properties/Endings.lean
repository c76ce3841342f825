import WebLoginRelay.Properties.Audience
import WebLoginRelay.Protocol.Wire
import WebLoginRelay.System.Reached

/-!
# How calls can fail

Every call of the relay is followed to its ends. Before its commit, or before the site has accepted what
it posts, a call may fail at any of its checks; after that it fails only because an operation on the
database, the pool or the outbox failed. The messages that are built then are built from fields that
five validators have accepted, and carried through the database.
-/

namespace WebLoginRelay
open Text Txn Relay

variable {st : AppState} {input : Input} {p : List Act} {tx : Option DateTime} {τ : DateTime}
  {lg : List Entry}

/-- The databases of runs represent their sessions. -/
lemma Reached.represented {l : Local} {db : Db} (h : Reached st input l db) : Represented st db := by
  obtain ⟨ls, S, t, rest, r, task, rfl⟩ := h
  exact r.represented

/-! ## What a message was checked for -/

/-- A message that is read passed `validate_inbound`. -/
lemma InboundEvent.valid {event : InboundEvent} {m : MatrixMessage} (h : event.message? st = some m) :
    m.validateInbound = .ok () := by
  have d := (InboundEvent.message?_some h).2.2
  unfold MatrixMessage.decode at d
  split at d
  · nomatch d
  · split at d
    · nomatch d
    · obtain ⟨bytes, _, d⟩ := bind_ok d
      obtain ⟨_, d⟩ := guard_ok d
      obtain ⟨m', _, d⟩ := bind_ok d
      obtain ⟨_, valid, d⟩ := bind_ok d
      cases d
      exact valid

/-- The ids of a Request are valid. -/
lemma InboundEvent.valid_request {event : InboundEvent} {sessionId nonce : String} {sentAt : Int64}
    {domain : String} (msg : event.message? st = some (.request sessionId nonce sentAt domain)) :
    validateId sessionId = .ok () ∧ validateId nonce = .ok () ∧ validateDomain domain = .ok () := by
  obtain ⟨_, hs, h⟩ := bind_ok (InboundEvent.valid msg)
  obtain ⟨_, hn, hd⟩ := bind_ok h
  exact ⟨hs, hn, hd⟩

/-- The ids and the display name of a Consent are valid. -/
lemma InboundEvent.valid_consent {event : InboundEvent} {sessionId nonce : String} {sentAt : Int64}
    {approved : Bool} {displayName : Option String} {challenge keyId signature : String}
    (msg : event.message? st =
      some (.consent sessionId nonce sentAt approved displayName challenge keyId signature)) :
    validateId sessionId = .ok () ∧ validateId nonce = .ok () ∧
      (approved = true → ∃ name, displayName = some name ∧ name.isEmpty = false ∧ len name ≤ 100) := by
  obtain ⟨_, hs, h⟩ := bind_ok (InboundEvent.valid msg)
  obtain ⟨_, hn, h⟩ := bind_ok h
  obtain ⟨_, _, h⟩ := bind_ok h
  obtain ⟨_, h⟩ := guard_ok h
  obtain ⟨_, _, h⟩ := bind_ok h
  refine ⟨hs, hn, fun approves => ?_⟩
  subst approves
  cases displayName with
  | none => nomatch h
  | some name =>
    dsimp only at h
    split at h
    · rename_i ok
      exact ⟨name, rfl, by simpa using ok.1, ok.2⟩
    · nomatch h

/-! ## Events -/

/-- Nothing was committed but reads. -/
def Clean (past : List Act) : Prop := ∀ a ∈ past, ¬ a.Commits

/-- An action that is no commit adds none. -/
lemma Clean.snoc {a : Act} (h : Clean p) (ne : ¬ a.Commits) : Clean (p ++ [a]) := by
  intro b hb
  obtain hb | hb := List.mem_append.mp hb
  · exact h b hb
  · exact List.mem_singleton.mp hb ▸ ne

/-- Quiet actions commit nothing. -/
lemma Clean.quiet (p : List Act) (a : Act) (quiet : a.IsQuiet) (h : Clean p) : Clean (p ++ [a]) :=
  h.snoc quiet.not_commits

/-- The outbox refuses a notice after a commit, or a commit is answered by an error. -/
def Act.Strands (past : List Act) : Act → Prop
  | ⟨.sendNotice .., Except.error _, _⟩ => ¬ Clean past
  | ⟨.commit, Except.error _, es⟩ => ∃ e ∈ es, e.IsRead = false
  | _ => False

/-- Nothing was committed but reads, or the outbox or a commit failed too late. -/
def Undone (past : List Act) : Prop :=
  Clean past ∨ ∃ pre a post, past = pre ++ a :: post ∧ a.Strands pre

/-- What is undone stays so while nothing is written. -/
lemma Undone.snoc (p : List Act) (a : Act) (quiet : a.IsQuiet) (h : Undone p) : Undone (p ++ [a]) := by
  obtain h | ⟨pre, b, post, rfl, strands⟩ := h
  · exact .inl (h.snoc quiet.not_commits)
  · exact .inr ⟨pre, b, post ++ [a], by simp, strands⟩

/-- A notice is refused. -/
lemma Undone.notice {roomId body : String} (p : List Act) (e : RelayError) :
    Undone (p ++ [⟨.sendNotice roomId body, Except.error e, []⟩]) := by
  by_cases h : Clean p
  · exact .inl (h.snoc fun c => nomatch c.1)
  · exact .inr ⟨p, _, [], rfl, h⟩

/-- A commit is answered by an error. -/
lemma Undone.commit (h : Clean p) (e : DbError) (es : List Entry) :
    Undone (p ++ [⟨.commit, (Except.error e : Except DbError Unit), es⟩]) := by
  by_cases writes : ∃ e ∈ es, e.IsRead = false
  · exact .inr ⟨p, _, [], rfl, writes⟩
  · exact .inl (h.snoc fun c => writes c.2)

/-- A failure of the outbox or of a commit is to blame. -/
lemma Undone.blamed (h : Undone p) : Blamed Act.Commits p := by
  obtain h | ⟨pre, ⟨op, answer, es⟩, post, rfl, strands⟩ := h
  · exact .inl h
  refine .inr ⟨pre, _, post, rfl, ?_⟩
  cases op with
  | sendNotice roomId body =>
    cases answer with
    | ok _ => nomatch strands
    | error e =>
      have committed : ¬ ∀ a ∈ pre, ¬ a.Commits := strands
      simp only [not_forall, not_not] at committed
      obtain ⟨a, ha, commits⟩ := committed
      exact ⟨trivial, a, List.mem_append_left _ ha, commits⟩
  | commit =>
    cases answer with
    | ok _ => nomatch strands
    | error e => exact ⟨trivial, _, List.mem_append_right _ (List.mem_singleton_self _), rfl, strands⟩
  | _ => nomatch strands

/-- Quiet actions keep both. -/
lemma Clean.keep : Keeps Undone Clean where
  quiet := Clean.quiet
  failed _ _ quiet _ h := .inl (h.snoc quiet.not_commits)

/-- A call that ignores its event has committed nothing but reads. -/
def Tidy (r : HandleResult) (l : Local) : Prop := r = .ignored → Clean l.past

/-- A result stays tidy after a quiet action. -/
lemma Tidy.stable (r : HandleResult) (l : Local) (a : Act) (quiet : a.IsQuiet) (h : Tidy r l) :
    Tidy r (l.after a) := fun e => (h e).snoc quiet.not_commits

/-- A commit of reads leaves the past clean. -/
lemma Clean.commit (h : Clean p) (reads : ∀ e ∈ lg, e.IsRead) :
    Clean (p ++ [⟨.commit, (Except.ok () : Except DbError Unit), lg⟩]) := by
  refine h.snoc fun c => ?_
  obtain ⟨_, e, he, write⟩ := c
  have read := reads e he
  rw [write] at read
  nomatch read

/-- Entries put together. -/
lemma clean_append {es : List Entry} (h : ∀ e ∈ lg, e.WritesSession = false)
    (h' : ∀ e ∈ es, e.WritesSession = false) : ∀ e ∈ lg ++ es, e.WritesSession = false := by
  intro e he
  obtain he | he := List.mem_append.mp he
  · exact h e he
  · exact h' e he

/-- A name that is not blank is not empty. -/
lemma isEmpty_of_not_blank {s : String} (h : isBlank s = false) : s.isEmpty = false := by
  by_contra empty
  rw [Bool.not_eq_false, String.isEmpty_iff] at empty
  subst empty
  exact absurd h (by decide)

/-- A Request that is bound yields a challenge of 22 characters. -/
lemma ends_bindChallenge (shape : st.crates.Base64Shape) {event : InboundEvent} {now : Int64}
    {session : SessionRow} {P : String × Int64 → Local → Prop} (hp : Clean p)
    (h : ∀ challenge expiresAt p' es, Clean p' →
      challenge.length = 22 ∧ (∀ c ∈ challenge.toList, isUrlSafe c) →
      P (challenge, expiresAt) ⟨p', some τ, es⟩) :
    Ends st input Undone (bindChallenge st event now session) P
      ⟨p, some τ, [.sessionRead session]⟩ := by
  have bad (p' : List Act) (h : Clean p') : Undone p' := .inl h
  refine ends_bind.mpr (ends_liftResult (fun _ _ => bad _ hp) fun t _ => ?_)
  refine ends_bind.mpr (ends_reserve Clean.keep hp fun p es hp he => ?_)
  refine ends_bind.mpr (ends_fillBytes Clean.quiet hp fun bytes p hp => ?_)
  refine ends_bind.mpr (ends_liftResult (fun _ _ => bad _ hp) fun t' _ => ?_)
  refine ends_bind.mpr (ends_reserve Clean.keep hp fun p es' hp he' => ?_)
  refine ends_bind.mpr (ends_encrypt Clean.quiet hp bad fun roomCt p hp => ?_)
  refine ends_bind.mpr (ends_encrypt Clean.quiet hp bad fun senderCt p hp => ?_)
  refine ends_bind.mpr (ends_casUpdate Clean.keep hp (by simp) ?_ fun p hp => ?_)
  · exact clean_append (clean_append (by simp [Entry.WritesSession]) he) he'
  · refine ends_pure.mpr (h _ _ p _ hp ?_)
    have := Base64url.encode_urlSafe shape bytes.val
    rwa [bytes.property] at this

/-- A Request commits last, but for its notice. -/
lemma ends_processRequest (compact : st.crates.JsonCompact) (shape : st.crates.Base64Shape)
    {event : InboundEvent} {sessionId nonce : String} {sentAt : Int64} {domain : String}
    (msg : event.message? st = some (.request sessionId nonce sentAt domain)) :
    Ends st (.inbound event) Undone (processRequest st event sessionId nonce sentAt domain) Tidy
      {} := by
  obtain ⟨hs, hn, hd⟩ := InboundEvent.valid_request msg
  refine ends_bind.mpr (ends_nowMs Clean.quiet (fun _ h => nomatch h) fun now p hp => ?_)
  refine ends_inTx Clean.keep hp Undone.snoc Tidy.stable fun τ p hp => ?_
  refine ends_bind.mpr (ends_selectSessions Clean.keep hp (fun _ _ _ _ _ h _ _ => .inl h)
    (fun p _ hp _ _ => ends_pure.mpr fun _ => hp) fun session p db hp reached found mem => ?_)
  dsimp only
  split
  · exact ends_pure.mpr fun _ => hp
  · split
    · exact ends_bind.mpr (ends_commit (Undone.commit hp) (ends_pure.mpr fun _ => hp.commit (by simp [Entry.IsRead])))
    · refine ends_bind.mpr (ends_bindChallenge shape hp fun challenge expiresAt p lg hp token => ?_)
      refine ends_bind.mpr (ends_commit (Undone.commit hp) ?_)
      have row := reached.represented.registered session mem
      have encoded := @MatrixMessage.encode_challenge _ _ _ now compact _ _ _ _ expiresAt hs
        hn hd ⟨isEmpty_of_not_blank row.siteDisplayName.1, row.siteDisplayName.2⟩
        row.requestedDisplayName token
      refine ends_bind.mpr (ends_liftResult (fun _ e => nomatch encoded.symm.trans e) fun body _ => ?_)
      exact ends_bind.mpr (ends_sendNotice (I := fun _ => True) (fun _ _ _ _ => trivial) trivial
        (Undone.notice _) fun _ _ => ends_pure.mpr nofun)

/-- An approved Consent commits last. -/
lemma ends_mintAssertion {event : InboundEvent} {sessionId nonce : String} {now : Int64}
    {displayName : Option String} {session : SessionRow} (hp : Clean p) (read : .sessionRead session ∈ lg)
    (clean : ∀ e ∈ lg, e.WritesSession = false) :
    Ends st input Undone (mintAssertion st event sessionId nonce now displayName session) Tidy
      ⟨p, some τ, lg⟩ := by
  have bad (p' : List Act) (h : Clean p') : Undone p' := .inl h
  unfold mintAssertion
  split
  · exact bad _ hp
  · refine ends_bind.mpr (ends_liftResult (fun _ _ => bad _ hp) fun sub _ => ?_)
    refine ends_bind.mpr (ends_encrypt Clean.quiet hp bad fun subjectCt p hp => ?_)
    refine ends_bind.mpr (ends_encrypt Clean.quiet hp bad fun userCt p hp => ?_)
    refine ends_bind.mpr (ends_plain Clean.keep hp (fun _ => nofun) (fun _ _ _ => nofun)
      fun grant p es hp he => ?_)
    refine ends_bind.mpr (ends_fillBytes Clean.quiet hp fun bytes p hp => ?_)
    refine ends_bind.mpr (ends_liftResult (fun _ _ => bad _ hp) fun assertion _ => ?_)
    refine ends_bind.mpr (ends_liftResult (fun _ _ => bad _ hp) fun t _ => ?_)
    refine ends_bind.mpr (ends_reserve Clean.keep hp fun p es' hp he' => ?_)
    refine ends_bind.mpr (ends_encrypt Clean.quiet hp bad fun assertionCt p hp => ?_)
    refine ends_bind.mpr (ends_encrypt Clean.quiet hp bad fun displayCt p hp => ?_)
    refine ends_bind.mpr (ends_casUpdate Clean.keep hp (by simp [read])
      (clean_append (clean_append clean he) he') fun p hp => ?_)
    refine ends_bind.mpr (ends_bind.mpr (ends_plain Clean.keep hp (fun _ => nofun)
      (fun _ _ _ => nofun) fun n p es'' hp _ => ends_pure.mpr ?_))
    exact ends_bind.mpr (ends_commit (Undone.commit hp) (ends_pure.mpr nofun))

/-- A result notice with valid ids is sent, whatever was done before. -/
lemma ends_sendFailure (compact : st.crates.JsonCompact) {roomId sessionId nonce reason : String}
    (hs : validateId sessionId = .ok ()) (hn : validateId nonce = .ok ()) (short : len reason ≤ 100) :
    Ends st input Undone (sendFailure st roomId sessionId nonce reason) Tidy ⟨p, tx, lg⟩ := by
  have keep (p : List Act) (a : Act) (_ : a.IsQuiet) (h : True) : True := h
  refine ends_bind.mpr (ends_nowMs (I := fun _ => True) keep trivial fun sentAt p _ => ?_)
  have encoded := @MatrixMessage.encode_failure _ _ _ sentAt compact _ hs hn short
  refine ends_bind.mpr (ends_liftResult (fun _ e => nomatch encoded.symm.trans e) fun body _ => ?_)
  exact ends_bind.mpr (ends_sendNotice (I := fun _ => True) keep trivial (Undone.notice _)
    fun _ _ => ends_pure.mpr nofun)

/-- A Consent commits last, but for the notice of a refusal. -/
lemma ends_processConsent (compact : st.crates.JsonCompact) {event : InboundEvent}
    {sessionId nonce : String} {sentAt : Int64} {approved : Bool} {displayName : Option String}
    {challenge keyId signature : String} (msg : event.message? st =
      some (.consent sessionId nonce sentAt approved displayName challenge keyId signature)) :
    Ends st (.inbound event) Undone
      (processConsent st event sessionId nonce sentAt approved displayName challenge keyId signature) Tidy
      {} := by
  have bad (p' : List Act) (h : Clean p') : Undone p' := .inl h
  obtain ⟨hs, hn, _⟩ := InboundEvent.valid_consent msg
  refine ends_bind.mpr (ends_nowMs Clean.quiet (fun _ h => nomatch h) fun now p hp => ?_)
  refine ends_bind.mpr (ends_liftResult (fun _ _ => bad _ hp) fun signed _ => ?_)
  refine ends_bind.mpr (ends_liftResult (fun _ _ => bad _ hp) fun _ _ => ?_)
  refine ends_inTx Clean.keep hp Undone.snoc Tidy.stable fun τ p hp => ?_
  refine ends_bind.mpr (ends_selectSessions Clean.keep hp (fun _ _ _ _ _ h _ _ => bad _ h)
    (fun p _ hp _ _ => bad _ hp) fun session p db hp reached found mem => ?_)
  dsimp only
  unfold consentOn
  split
  · exact ends_bind.mpr (ends_rollback Clean.keep hp fun p _ =>
      ends_sendFailure compact hs hn (by decide))
  · split
    · exact ends_pure.mpr fun _ => hp
    · split
      · exact ends_pure.mpr fun _ => hp
      · refine ends_bind.mpr (ends_liftResult (fun _ _ => bad _ hp) fun t _ => ?_)
        refine ends_bind.mpr (ends_reserve Clean.keep hp fun p es hp he => ?_)
        have read : ∀ e ∈ [Entry.sessionRead session], e.WritesSession = false := by simp [Entry.WritesSession]
        have clean := clean_append read he
        split
        · exact ends_mintAssertion hp (by simp) clean
        · refine ends_bind.mpr (ends_casUpdate Clean.keep hp (by simp) clean fun p hp => ?_)
          exact ends_bind.mpr (ends_commit (Undone.commit hp) (ends_sendFailure compact hs hn (by decide)))

/-- A Revocation commits last. -/
lemma ends_processRevocation {event : InboundEvent} {sessionId nonce siteAccountId : String}
    {reason : Option String} :
    Ends st (.inbound event) Undone
      (processRevocation st event sessionId nonce siteAccountId reason) Tidy {} := by
  have bad (p' : List Act) (h : Clean p') : Undone p' := .inl h
  refine ends_inTx Clean.keep (fun _ h => nomatch h) Undone.snoc Tidy.stable
    fun τ p hp => ?_
  refine ends_bind.mpr (ends_selectSessions Clean.keep hp (fun _ _ _ _ _ h _ _ => bad _ h)
    (fun p _ hp _ _ => ends_pure.mpr fun _ => hp) fun session p db hp reached found mem => ?_)
  refine ends_bind.mpr (ends_findActiveGrant Clean.keep hp bad
    (fun p hp => ends_pure.mpr fun _ => hp) fun grant p hp => ?_)
  refine ends_bind.mpr (ends_liftResult (fun _ _ => bad _ hp) fun user _ => ?_)
  split
  · exact ends_pure.mpr fun _ => hp
  split
  · refine ends_bind.mpr (ends_commit (Undone.commit hp) (ends_pure.mpr fun _ => hp.commit ?_))
    simp [Entry.IsRead]
  have none : ∀ e ∈ [Entry.sessionRead session, .grantRead grant], e.WritesSession = false := by
    simp [Entry.WritesSession]
  refine ends_bind.mpr (ends_bind.mpr (ends_plain Clean.keep hp (fun _ => nofun) (fun _ _ _ => nofun)
    fun n p es hp he => ends_pure.mpr ?_))
  refine ends_bind.mpr (ends_fillBytes Clean.quiet hp fun bytes p hp => ?_)
  refine ends_bind.mpr (ends_nowMs Clean.quiet hp fun reservedAt p hp => ?_)
  refine ends_bind.mpr (ends_liftResult (fun _ _ => bad _ hp) fun t _ => ?_)
  refine ends_bind.mpr (ends_reserve Clean.keep hp fun p es' hp he' => ?_)
  refine ends_bind.mpr (ends_nowMs Clean.quiet hp fun iat p hp => ?_)
  refine ends_bind.mpr (ends_liftResult (fun _ _ => bad _ hp) fun revocation _ => ?_)
  refine ends_bind.mpr (ends_encrypt Clean.quiet hp bad fun payloadCt p hp => ?_)
  refine ends_bind.mpr (ends_bind.mpr (ends_plain Clean.keep hp (fun _ => nofun) (fun _ _ _ => nofun)
    fun n p es'' hp he'' => ends_pure.mpr ?_))
  refine ends_bind.mpr (ends_casUpdate Clean.keep hp (by simp)
    (clean_append (clean_append (clean_append none he) he') he'') fun p hp => ?_)
  exact ends_bind.mpr (ends_commit (Undone.commit hp) (ends_pure.mpr nofun))

/-- An event is handled to an end. -/
lemma ends_handleInbound (compact : st.crates.JsonCompact) (shape : st.crates.Base64Shape)
    {event : InboundEvent} :
    Ends st (.inbound event) Undone (handleInbound st event) Tidy {} := by
  unfold handleInbound
  split
  case h_1 msg => exact ends_processRequest compact shape msg
  case h_2 msg => exact ends_processConsent compact msg
  case h_3 msg => exact ends_processRevocation
  case h_4 => exact ends_pure.mpr fun _ _ h => nomatch h

/-! ## Registration -/

/-- Fetching metadata commits nothing. -/
lemma ends_fetchVerifiedMetadata {domain : String} {P : SiteMetadata → Local → Prop} (hp : Clean p)
    (h : ∀ m p', Clean p' → P m ⟨p', tx, lg⟩) :
    Ends st input Undone (fetchVerifiedMetadata st domain) P ⟨p, tx, lg⟩ := by
  have quiet (answer : Except RelayError SiteResponse) :
      Clean (p ++ [⟨.request ⟨domain, metadataPath, .get, [], [], maxMetadataBytes⟩, answer, []⟩]) :=
    hp.snoc fun c => nomatch c.1
  have fetched : Ends st input Undone (fetchMetadata st domain) P ⟨p, tx, lg⟩ := by
    refine ends_bind.mpr (ends_request (fun _ _ _ post => nomatch post) (fun _ => .inl (quiet _))
      fun response => ?_)
    split
    · exact .inl (quiet _)
    · refine ends_bind.mpr (ends_liftResult (fun _ _ => .inl (quiet _)) fun m _ => ?_)
      refine ends_bind.mpr (ends_liftResult (fun _ _ => .inl (quiet _)) fun _ _ => ?_)
      exact ends_pure.mpr (h m _ (quiet _))
  refine (Prog.wp_bind _ _ _).mpr (Prog.wp_mono _ _ _ (fun r l w => ?_) fetched)
  cases r with
  | ok m => exact w
  | error e => exact w

/-- A session is inserted, or the one there is is read. -/
lemma ends_insertRegistered {new : NewSession} {P : InsertOutcome → Local → Prop} (hp : Clean p)
    (h : ∀ outcome p' lg', Clean p' → P outcome ⟨p', some τ, lg'⟩) :
    Ends st input Undone (insertRegistered st new) P ⟨p, some τ, []⟩ := by
  have bad (p' : List Act) (h : Clean p') : Undone p' := .inl h
  refine ends_bind.mpr (ends_liftResult (fun _ _ => bad _ hp) fun t _ => ?_)
  refine ends_bind.mpr (ends_execUnique Clean.keep hp (fun _ _ _ h => nomatch h)
    fun db seqs n p _ _ hp => ?_)
  split
  · exact ends_pure.mpr (h _ _ _ hp)
  · refine ends_bind.mpr (ends_selectSessions Clean.keep hp (fun _ _ _ _ _ h _ _ => bad _ h)
      (fun p _ hp _ _ => bad _ hp) fun session p db hp _ _ _ => ?_)
    dsimp only
    split
    · exact ends_pure.mpr (h _ _ _ hp)
    · exact bad _ hp

/-- A registration commits last. -/
lemma ends_registerSession {request : RegistrationRequest} :
    Ends st (.register request) Undone (registerSession st request) (fun _ _ => True) {} := by
  have bad (p' : List Act) (h : Clean p') : Undone p' := .inl h
  refine ends_bind.mpr (ends_liftResult (fun _ _ => bad _ fun _ h => nomatch h) fun _ _ => ?_)
  refine ends_bind.mpr (ends_nowMs Clean.quiet (fun _ h => nomatch h) fun now p hp => ?_)
  split
  · exact bad _ hp
  refine ends_bind.mpr (ends_fetchVerifiedMetadata hp fun m p hp => ?_)
  refine ends_bind.mpr (ends_liftResult (fun _ _ => bad _ hp) fun qr _ => ?_)
  refine ends_bind.mpr (ends_liftResult (fun _ _ => bad _ hp) fun _ _ => ?_)
  refine ends_bind.mpr (ends_liftResult (fun _ _ => bad _ hp) fun canonical _ => ?_)
  refine ends_bind.mpr (ends_liftResult (fun _ _ => bad _ hp) fun _ _ => ?_)
  refine ends_bind.mpr (ends_encrypt Clean.quiet hp bad fun ct p hp => ?_)
  refine ends_inTx Clean.keep hp Undone.snoc (fun _ _ _ _ h => h)
    fun τ p hp => ends_bind.mpr (ends_insertRegistered hp fun outcome p lg hp => ?_)
  exact ends_bind.mpr (ends_commit (Undone.commit hp) (ends_pure.mpr trivial))

end WebLoginRelay
