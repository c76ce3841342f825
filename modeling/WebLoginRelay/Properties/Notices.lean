import WebLoginRelay.Properties.Provenance
import WebLoginRelay.Properties.Workers
import WebLoginRelay.System.Attempts

/-!
# Notices of success

The relay tells a room that a login has succeeded only when the site has accepted its assertion, and it tells
the room the login was asked for and approved from. The calls that handle events send challenges and notices of
failure, and registrations send nothing.
-/

namespace WebLoginRelay
open Text Txn Relay

variable {st : AppState} {S S' : Sys} {ls : List Label} {input : Input}

/-- The text of a message shows the message. -/
lemma MatrixMessage.encode_inj {X : Crates} (b64 : X.Base64Correct) (json : X.JsonCorrect) {m m' : MatrixMessage}
    {body : String} (h : m.encode X = .ok body) (h' : m'.encode X = .ok body) : m = m' := by
  have text {m : MatrixMessage} (h : m.encode X = .ok body) : m.body X = body := by
    obtain ⟨-, -, h⟩ := bind_ok h
    dsimp only at h
    split at h
    · nomatch h
    · exact Except.ok.inj h
  have parsed (m : MatrixMessage) : strictFromSlice X fromValue (X.jsonToVec m.toValue) = .ok m := by
    obtain ⟨fields, e, nodup, scalar⟩ := m.toValue_flat
    rw [e]
    exact strictFromSlice_jsonToVec json nodup scalar (e ▸ m.fromValue_toValue)
  have encoded := (String.append_right_inj matrixPrefix).mp ((text h).trans (text h').symm)
  have same := parsed m
  rw [b64.inj encoded, parsed m'] at same
  exact (Except.ok.inj same).symm

/-! ## Calls for events -/

/-- The text does not say that a login has succeeded. -/
def Unsuccessful (st : AppState) (body : String) : Prop :=
  ∃ m : MatrixMessage, m.encode st.crates = .ok body ∧
    ∀ sessionId nonce sentAt account reason, m ≠ .result sessionId nonce sentAt true account reason

/-- A notice is one of these. -/
def Op.Says (N : String → String → Prop) : Op → Prop
  | .sendNotice roomId body => N roomId body
  | _ => True

/-- A notice goes to the room of the event, and does not say that a login has succeeded. -/
def InboundEvent.Hears (st : AppState) (event : InboundEvent) (roomId body : String) : Prop :=
  roomId = event.roomId ∧ Unsuccessful st body

section Says
variable {N : String → String → Prop}

/-- Encryption says nothing. -/
lemma says_encrypt (m : Bytes) : (st.encrypt m).Only (Op.Says N) := by
  apply Only.bind (Only.ask trivial)
  intro nonce
  exact Only.lift _

/-- A reservation says nothing. -/
lemma says_reserve (conflict : ProblemCode) (key : ReplayKey) (t : DateTime) :
    (reserve conflict key t).Only (Op.Says N) := by
  apply Only.bind (Only.asked trivial)
  intro _
  exact Only.pure _

/-- An update of a session says nothing. -/
lemma says_casUpdate (id version : Nat) (set : SessionSet) : (casUpdate id version set).Only (Op.Says N) := by
  apply Only.bind (Only.asked trivial)
  intro _
  exact Only.pure _

/-- A look for a session says nothing. -/
lemma says_select (filter : SessionFilter) :
    (do liftResult (queryOpt (← exec (.selectSessions filter))) : Relay _).Only (Op.Says N) := by
  apply Only.bind (Only.asked trivial)
  intro rows
  exact Only.lift _

/-- A notice of failure goes to the room of its event. -/
lemma says_sendFailure (event : InboundEvent) (sessionId nonce reason : String) :
    (sendFailure st event.roomId sessionId nonce reason).Only (Op.Says (event.Hears st)) := by
  apply Only.bind (Only.ask trivial)
  intro sentAt
  apply Only.lift_bind
  intro body encoded
  apply Only.bind (Only.asked ⟨rfl, _, encoded, nofun⟩)
  intro _
  exact Only.pure _

/-- To bind a challenge says nothing. -/
lemma says_bindChallenge (event : InboundEvent) (now : Int64) (session : SessionRow) :
    (bindChallenge st event now session).Only (Op.Says N) := by
  apply Only.bind (Only.lift _)
  intro expiry
  apply Only.bind (says_reserve _ _ _)
  intro _
  apply Only.bind (Only.ask trivial)
  intro bytes
  apply Only.bind (Only.lift _)
  intro expiry
  apply Only.bind (says_reserve _ _ _)
  intro _
  apply Only.bind (says_encrypt _)
  intro roomCt
  apply Only.bind (says_encrypt _)
  intro senderCt
  apply Only.bind (says_casUpdate _ _ _)
  intro updated
  split
  · exact Only.pure _
  · exact Only.throw _

/-- A Request is answered in its own room. -/
lemma says_processRequest (event : InboundEvent) (sessionId nonce : String) (sentAt : Int64) (domain : String) :
    (processRequest st event sessionId nonce sentAt domain).Only (Op.Says (event.Hears st)) := by
  apply Only.bind (Only.ask trivial)
  intro now
  apply Only.inTx trivial trivial
  apply Only.bind (says_select _)
  intro found
  split
  · exact Only.pure _
  · split
    · exact Only.pure _
    · split
      · apply Only.bind (Only.asked trivial)
        intro _
        exact Only.pure _
      · apply Only.bind (says_bindChallenge event now _)
        rintro ⟨challenge, expiresAt⟩
        apply Only.bind (Only.asked trivial)
        intro _
        apply Only.lift_bind
        intro body encoded
        apply Only.bind (Only.asked ⟨rfl, _, encoded, nofun⟩)
        intro _
        exact Only.pure _

/-- To mint an assertion says nothing. -/
lemma says_mintAssertion (event : InboundEvent) (sessionId nonce : String) (now : Int64)
    (displayName : Option String) (session : SessionRow) :
    (mintAssertion st event sessionId nonce now displayName session).Only (Op.Says N) := by
  unfold mintAssertion
  split
  · exact Only.throw _
  · apply Only.bind (Only.lift _)
    intro sub
    apply Only.bind (says_encrypt _)
    intro subjectCt
    apply Only.bind (says_encrypt _)
    intro userCt
    apply Only.bind (Only.asked trivial)
    intro grant
    apply Only.bind (Only.ask trivial)
    intro bytes
    apply Only.bind (Only.lift _)
    intro assertion
    apply Only.bind (Only.lift _)
    intro expiry
    apply Only.bind (says_reserve _ _ _)
    intro _
    apply Only.bind (says_encrypt _)
    intro assertionCt
    apply Only.bind (says_encrypt _)
    intro displayCt
    apply Only.bind (says_casUpdate _ _ _)
    intro _
    apply Only.bind (Only.bind (Only.asked trivial) fun _ => Only.pure _)
    intro _
    apply Only.bind (Only.asked trivial)
    intro _
    exact Only.pure _

/-- A Consent that has found its session is answered in its own room. -/
lemma says_consentOn (event : InboundEvent) (sessionId nonce : String) (sentAt : Int64) (approved : Bool)
    (displayName : Option String) (challenge : String) (now : Int64) (session : SessionRow) :
    (consentOn st event sessionId nonce sentAt approved displayName challenge now session).Only
      (Op.Says (event.Hears st)) := by
  unfold consentOn
  split
  · apply Only.bind (Only.asked trivial)
    intro _
    exact says_sendFailure _ _ _ _
  · split
    · exact Only.pure _
    · split
      · exact Only.pure _
      · apply Only.bind (Only.lift _)
        intro expiry
        apply Only.bind (says_reserve _ _ _)
        intro _
        split
        · exact says_mintAssertion _ _ _ _ _ _
        · apply Only.bind (says_casUpdate _ _ _)
          intro _
          apply Only.bind (Only.asked trivial)
          intro _
          exact says_sendFailure _ _ _ _

/-- A Consent is answered in its own room. -/
lemma says_processConsent (event : InboundEvent) (sessionId nonce : String) (sentAt : Int64) (approved : Bool)
    (displayName : Option String) (challenge keyId signature : String) :
    (processConsent st event sessionId nonce sentAt approved displayName challenge keyId signature).Only
      (Op.Says (event.Hears st)) := by
  apply Only.bind (Only.ask trivial)
  intro now
  apply Only.bind (Only.lift _)
  intro signed
  apply Only.bind (Only.lift _)
  intro _
  apply Only.inTx trivial trivial
  apply Only.bind (says_select _)
  intro found
  split
  · exact Only.throw _
  · exact says_consentOn _ _ _ _ _ _ _ _ _

/-- A Revocation is not answered. -/
lemma says_processRevocation (event : InboundEvent) (sessionId nonce account : String) (reason : Option String) :
    (processRevocation st event sessionId nonce account reason).Only (Op.Says N) := by
  apply Only.inTx trivial trivial
  apply Only.bind (says_select _)
  intro found
  split
  · exact Only.pure _
  · apply Only.bind (Only.bind (Only.asked trivial) fun _ => Only.lift _)
    intro grant
    split
    · exact Only.pure _
    · apply Only.bind (Only.lift _)
      intro user
      split
      · exact Only.pure _
      · split
        · apply Only.bind (Only.asked trivial)
          intro _
          exact Only.pure _
        · apply Only.bind (Only.bind (Only.asked trivial) fun _ => Only.pure _)
          intro _
          apply Only.bind (Only.ask trivial)
          intro bytes
          apply Only.bind (Only.ask trivial)
          intro reservedAt
          apply Only.bind (Only.lift _)
          intro expiry
          apply Only.bind (says_reserve _ _ _)
          intro _
          apply Only.bind (Only.ask trivial)
          intro iat
          apply Only.bind (Only.lift _)
          intro revocation
          apply Only.bind (says_encrypt _)
          intro payloadCt
          apply Only.bind (Only.bind (Only.asked trivial) fun _ => Only.pure _)
          intro _
          apply Only.bind (says_casUpdate _ _ _)
          intro _
          apply Only.bind (Only.asked trivial)
          intro _
          exact Only.pure _

/-- What the room of an event hears from its call. -/
lemma says_handleInbound (event : InboundEvent) : (handleInbound st event).Only (Op.Says (event.Hears st)) := by
  unfold handleInbound
  split
  · exact says_processRequest _ _ _ _ _
  · exact says_processConsent _ _ _ _ _ _ _ _ _
  · exact says_processRevocation _ _ _ _ _
  · exact Only.pure _

/-- To fetch metadata says nothing. -/
lemma says_fetchVerifiedMetadata (domain : String) : (fetchVerifiedMetadata st domain).Only (Op.Says N) := by
  have fetched : (fetchMetadata st domain).Only (Op.Says N) := by
    apply Only.bind (Only.asked trivial)
    intro response
    split
    · exact Only.throw _
    · apply Only.bind (Only.lift _)
      intro metadata
      apply Only.bind (Only.lift _)
      intro _
      exact Only.pure _
  exact Prog.Asks.bind fetched fun _ => Prog.asks_pure _

/-- To insert a session says nothing. -/
lemma says_insertRegistered (session : NewSession) : (insertRegistered st session).Only (Op.Says N) := by
  apply Only.bind (Only.lift _)
  intro expiry
  apply Only.bind (Only.asked trivial)
  intro inserted
  split
  · exact Only.pure _
  · apply Only.bind (says_select _)
    intro existing
    split
    · split
      · exact Only.pure _
      · exact Only.throw _
    · exact Only.throw _

/-- A registration sends nothing. -/
lemma says_registerSession (request : RegistrationRequest) : (registerSession st request).Only (Op.Says N) := by
  apply Only.bind (Only.lift _)
  intro _
  apply Only.bind (Only.ask trivial)
  intro now
  split
  · exact Only.throw _
  · apply Only.bind (says_fetchVerifiedMetadata _)
    intro metadata
    apply Only.bind (Only.lift _)
    intro qr
    apply Only.bind (Only.lift _)
    intro _
    apply Only.bind (Only.lift _)
    intro registration
    apply Only.bind (Only.lift _)
    intro _
    apply Only.bind (says_encrypt _)
    intro nonceCt
    apply Only.inTx trivial trivial
    apply Only.bind (says_insertRegistered _)
    intro outcome
    apply Only.bind (Only.asked trivial)
    intro _
    exact Only.pure _

end Says

/-- The operations of a call are among those of its program. -/
lemma Run.asks {P : Op → Prop} (r : Run st ls S) {t : Nat} {o : Op} {k : o.Resp → Prog Op Op.Resp Result} {l : Local}
    (task : S.tasks t = some ⟨input, some (.req o k), l⟩) (only : (input.prog st).Asks P) : P o := by
  have rest : (Prog.feed Act.op Act.resp (input.prog st) l.past).1.Asks P := only.feed l.past
  rw [r.fed task] at rest
  exact rest.1

/-! ## Deliveries -/

/-- A call that has done this has had an assertion accepted, and tells the room of its session. -/
structure Told (st : AppState) (past : List Act) (roomId body : String) where
  before : List Act
  after : List Act
  job : DeliveryJob
  claimed : Claimed before job
  kind : job.kind = .assertion
  payload : Bytes
  payload_eq : st.decrypt job.payloadCiphertext = .ok payload
  response : SiteResponse
  posted : past = before ++ ⟨.request (job.post payload), Except.ok response, []⟩ :: after
  status : response.status = 202 ∨ response.status = 200
  assertion : RelayAssertion
  assertion_eq : strictFromSlice st.crates RelayAssertion.fromValue payload = .ok assertion
  session : SessionRow
  entries : List Entry
  committed : ⟨.commit, (Except.ok () : Except DbError Unit), .sessionRead session :: entries⟩ ∈ after
  found : (SessionFilter.matching job.domain job.sessionId job.nonceHash).accepts session
  room : Bytes
  room_eq : session.requestRoomCiphertext = some room
  roomId_eq : st.decryptText room = .ok roomId
  nonce : String
  nonce_eq : st.decryptText session.nonceCiphertext = .ok nonce
  sentAt : Int64
  body_eq : (MatrixMessage.result job.sessionId nonce sentAt true (some assertion.sub) none).encode st.crates =
    .ok body

/-- A notice of a delivery is told so. -/
def Act.Telling (st : AppState) (l : Local) (a : Act) : Prop :=
  ∀ roomId body, a.op = .sendNotice roomId body → Nonempty (Told st l.past roomId body)

namespace Relay
variable {α β : Type}

/-- From `l` every notice of the computation is told so, and `P` holds when it succeeds. -/
def Tells (st : AppState) (x : Relay α) (P : α → Local → Prop) (l : Local) : Prop :=
  Prog.wp (Local.PossIn st .tick) Local.after (Act.Telling st) x.run (onOk P) l

section Rules
variable {P : α → Local → Prop} {p : List Act} {tx : Option DateTime} {τ : DateTime} {lg : List Entry} {l : Local}

/-- The end of a call. -/
lemma tells_pure {a : α} (h : P a l) : Tells st (pure a) P l := h

/-- A call that fails tells nothing more. -/
lemma tells_throw {e : RelayError} : Tells st (throw e : Relay α) P l := trivial

/-- A sequence of calls. -/
lemma tells_bind {x : Relay α} {f : α → Relay β} {P : β → Local → Prop} :
    Tells st (x >>= f) P l ↔ Tells st x (fun a => Tells st (f a) P) l := by
  have e : (x >>= f).run = x.run >>= ExceptT.bindCont f := rfl
  rw [Tells, e, Prog.wp_bind]
  refine ⟨Prog.wp_mono _ _ _ fun r l h => ?_, Prog.wp_mono _ _ _ fun r l h => ?_⟩
  · cases r <;> exact h
  · cases r <;> exact h

/-- A result of the program itself. -/
lemma tells_liftResult {r : Except RelayError α} (h : ∀ a, r = .ok a → P a l) : Tells st (liftResult r) P l := by
  cases r with
  | ok a => exact h a rfl
  | error e => exact trivial

/-- A call whose operation may answer in these ways. -/
lemma tells_ask {o : Op} {P : o.Resp → Local → Prop} :
    Tells st (ask o) P l ↔ ∀ r a, l.PossIn st .tick o r a → a.Telling st l ∧ P r (l.after a) := by
  have e : (ask o).run = Prog.ask o >>= fun r => pure (.ok r) := rfl
  rw [Tells, e, Prog.wp_bind, Prog.wp_ask]
  exact Iff.rfl

/-- A computation without notices. -/
lemma Only.tells {x : Relay α} (h : x.Only (Op.Says fun _ _ => False)) : Tells st x (fun _ _ => True) l := by
  suffices silent : ∀ {p : Prog Op Op.Resp (Except RelayError α)} {l}, p.Asks (Op.Says fun _ _ => False) →
      Prog.wp (Local.PossIn st .tick) Local.after (Act.Telling st) p (onOk fun _ _ => True) l from silent h
  clear h
  intro p l h
  induction p generalizing l with
  | ret r => cases r <;> trivial
  | req o k ih =>
    rintro r a ⟨es, rfl, -⟩
    refine ⟨fun roomId body notice => ?_, ih r (h.2 r)⟩
    obtain rfl : o = .sendNotice roomId body := notice
    exact absurd h.1 id

/-- The clock is read. -/
lemma tells_nowMs {P : Int64 → Local → Prop} (h : ∀ t, P t ⟨p ++ [⟨.now, t, []⟩], tx, lg⟩) :
    Tells st nowMs P ⟨p, tx, lg⟩ := by
  refine tells_ask.mpr fun r a ⟨es, e, db, seqs, seqs', reached, s⟩ => ?_
  subst e
  cases s
  exact ⟨nofun, h _⟩

/-- A site is asked. -/
lemma tells_request {r : SiteRequest} {P : SiteResponse → Local → Prop}
    (h : ∀ response, P response ⟨p ++ [⟨.request r, Except.ok response, []⟩], tx, lg⟩) :
    Tells st (request r) P ⟨p, tx, lg⟩ := by
  refine tells_bind.mpr (tells_ask.mpr fun answer a ⟨es, e, db, seqs, seqs', reached, s⟩ => ?_)
  subst e
  cases s
  refine ⟨nofun, tells_liftResult fun response e => ?_⟩
  subst e
  exact h response

/-- A notice is sent when what it tells is so. -/
lemma tells_sendNotice {roomId body : String} (told : Told st p roomId body) :
    Tells st (sendNotice roomId body) (fun _ _ => True) ⟨p, tx, lg⟩ := by
  refine tells_bind.mpr (tells_ask.mpr fun answer a ⟨es, e, db, seqs, seqs', reached, s⟩ => ?_)
  subst e
  refine ⟨fun r b notice => ?_, tells_liftResult fun _ _ => trivial⟩
  cases notice
  exact ⟨told⟩

/-- A transaction is begun. -/
lemma tells_inTx {body : Relay α}
    (h : ∀ τ, Tells st body (fun _ _ => True)
      ⟨p ++ [⟨.begin, (Except.ok τ : Except DbError DateTime), []⟩], some τ, []⟩) :
    Tells st (inTx body) (fun _ _ => True) ⟨p, tx, lg⟩ := by
  refine (Prog.wp_bind _ _ _).mpr ((Prog.wp_ask _ _ _).mpr fun begun a ⟨es, e, db, seqs, seqs', reached, s⟩ => ?_)
  subst e
  cases s
  refine ⟨nofun, ?_⟩
  cases begun with
  | error e => exact trivial
  | ok τ =>
    refine (Prog.wp_bind _ _ _).mpr (Prog.wp_mono _ _ _ (fun x l hx => ?_) (h τ))
    refine (Prog.wp_bind _ _ _).mpr ((Prog.wp_ask _ _ _).mpr fun _ a ⟨es, e, db, seqs, seqs', reached, s⟩ => ?_)
    subst e
    cases s
    refine ⟨nofun, ?_⟩
    cases x <;> exact trivial

/-- A statement that is answered has run, and its entries are in the journal. -/
lemma tells_statement {q : Query} {read : Except DbError q.Resp → Except RelayError α}
    (failed : ∀ e a, read (.error e) ≠ .ok a)
    (h : ∀ db seqs r a, (q.run (journal.replay db lg) seqs τ).resp = .ok r → read (.ok r) = .ok a →
      P a ⟨p ++ [⟨.exec q, Except.ok r, (q.run (journal.replay db lg) seqs τ).log⟩], some τ,
        lg ++ (q.run (journal.replay db lg) seqs τ).log⟩) :
    Tells st (do liftResult (read (← ask (.exec q)))) P ⟨p, some τ, lg⟩ := by
  refine tells_bind.mpr (tells_ask.mpr fun answer a ⟨es, e, db, seqs, seqs', reached, s⟩ => ?_)
  subst e
  cases s with
  | exec e =>
    cases e
    refine ⟨nofun, tells_liftResult fun a e => ?_⟩
    have run := h db seqs
    generalize q.run (journal.replay db lg) seqs τ = out at e run ⊢
    obtain ⟨resp, log, seqs'⟩ := out
    cases resp with
    | error err => exact absurd e (failed err a)
    | ok r => exact run r a rfl e
  | execFault => exact ⟨nofun, tells_liftResult fun a e => absurd e (failed _ a)⟩

/-- A lookup that finds a row has read it. -/
lemma tells_select {filter : SessionFilter} {P : Option SessionRow → Local → Prop} (hn : ∀ l, P none l)
    (hs : ∀ row a, filter.accepts row → P (some row) ⟨p ++ [a], some τ, lg ++ [.sessionRead row]⟩) :
    Tells st (do liftResult (queryOpt (← exec (.selectSessions filter)))) P ⟨p, some τ, lg⟩ := by
  refine tells_bind.mpr (tells_statement (fun e a eq => by cases eq) fun db seqs rows _ run eq =>
    tells_liftResult fun found e => ?_)
  cases eq
  cases run
  simp only [Query.run]
  generalize eq : (journal.replay db lg).sessions.rows.filter filter.accepts = rows at e ⊢
  cases rows with
  | nil =>
    cases e
    exact hn _
  | cons row rows =>
    cases rows with
    | nil =>
      cases e
      have mem : row ∈ (journal.replay db lg).sessions.rows.filter filter.accepts := by simp [eq]
      exact hs row _ (List.mem_filter.mp mem).2
    | cons row' rows => cases e

/-- An update that succeeds adds to the journal. -/
lemma tells_casUpdate {id version : Nat} {set : SessionSet} {P : Bool → Local → Prop}
    (h : ∀ b a es, P b ⟨p ++ [a], some τ, lg ++ es⟩) : Tells st (casUpdate id version set) P ⟨p, some τ, lg⟩ := by
  refine tells_bind.mpr (tells_statement (fun e a eq => ?_) fun _ _ _ _ _ _ => tells_pure (h _ _ _))
  cases e <;> exact nomatch eq

/-- A transaction is committed. -/
lemma tells_commit {P : Unit → Local → Prop}
    (h : P () ⟨p ++ [⟨.commit, (Except.ok () : Except DbError Unit), lg⟩], none, []⟩) :
    Tells st commit P ⟨p, some τ, lg⟩ := by
  refine tells_bind.mpr (tells_ask.mpr fun answer a ⟨es, e, db, seqs, seqs', reached, s⟩ => ?_)
  subst e
  refine ⟨nofun, tells_liftResult fun _ answered => ?_⟩
  cases answer with
  | error e => nomatch answered
  | ok _ =>
    cases s
    exact h

end Rules

end Relay

section Delivery
variable {p : List Act} {tx : Option DateTime} {lg : List Entry} {job : DeliveryJob}

/-- After an acceptance the room of the session is told. -/
lemma tells_afterAssertionAccepted {payload : Bytes} {response : SiteResponse} (claimed : Claimed p job)
    (kind : job.kind = .assertion) (dj : st.decrypt job.payloadCiphertext = .ok payload)
    (status : response.status = 202 ∨ response.status = 200) :
    Tells st (afterAssertionAccepted st job payload) (fun _ _ => True)
      ⟨p ++ [⟨.request (job.post payload), Except.ok response, []⟩], tx, lg⟩ := by
  refine tells_bind.mpr (tells_liftResult fun assertion parsed => tells_inTx fun τ => ?_)
  refine tells_bind.mpr (tells_select (fun _ => tells_pure trivial) fun session a found => ?_)
  dsimp only
  split
  · exact tells_throw
  rename_i room room_eq
  refine tells_bind.mpr (tells_liftResult fun roomId roomId_eq => ?_)
  refine tells_bind.mpr (tells_liftResult fun nonce nonce_eq => ?_)
  refine tells_bind.mpr (tells_casUpdate fun b c es => tells_bind.mpr (tells_commit ?_))
  refine tells_bind.mpr (tells_nowMs fun sentAt => tells_bind.mpr (tells_liftResult fun body body_eq => ?_))
  apply tells_sendNotice
  exact {
    before := p
    after := [⟨.begin, (Except.ok τ : Except DbError DateTime), []⟩, a, c,
      ⟨.commit, (Except.ok () : Except DbError Unit), .sessionRead session :: es⟩, ⟨.now, sentAt, []⟩]
    job, claimed, kind, payload, payload_eq := dj, response, status
    posted := by simp
    assertion, assertion_eq := parsed
    session, found
    entries := es
    committed := by simp
    room, room_eq, roomId_eq, nonce, nonce_eq, sentAt, body_eq }

/-- A job that was claimed is delivered. -/
lemma tells_deliver (claimed : Claimed p job) : Tells st (deliver st job) (fun _ _ => True) ⟨p, tx, lg⟩ := by
  refine tells_bind.mpr (tells_liftResult fun payload dj => tells_bind.mpr ?_)
  rw [postJson_job]
  apply tells_request
  intro response
  split
  · exact tells_throw
  · rename_i accepted
    split
    · rename_i kind
      exact tells_afterAssertionAccepted claimed kind dj (by tauto)
    · exact tells_pure trivial

/-- A job that was claimed is delivered, and its outcome is marked. -/
lemma tells_deliverJob (claimed : Claimed p job) : Tells st (deliverJob st job) (fun _ _ => True) ⟨p, tx, lg⟩ := by
  refine (Prog.wp_bind _ _ _).mpr (Prog.wp_mono _ _ _ (fun r l _ => ?_) (tells_deliver claimed))
  cases r with
  | ok _ => exact Only.tells (Only.bind (Only.asked trivial) fun _ => Only.pure _)
  | error _ =>
    dsimp only
    split
    · exact Only.tells (Only.bind (Only.asked trivial) fun _ => Only.pure _)
    · exact trivial

/-- All jobs of a batch that was claimed are delivered. -/
lemma tells_deliverAll {jobs : List DeliveryJob} {l : Local} (claimed : ∀ job ∈ jobs, Claimed l.past job) :
    Tells st (deliverAll st jobs) (fun _ _ => True) l := by
  induction jobs generalizing l with
  | nil => exact tells_pure trivial
  | cons job jobs ih =>
    -- the jobs after it stay claimed
    have keep (l : Local) (a : Act) (h : ∀ job ∈ jobs, Claimed l.past job) :
        ∀ job ∈ jobs, Claimed (l.after a).past job := by
      intro job hj
      obtain ⟨batch, es, claim, mem⟩ := h job hj
      exact ⟨batch, es, List.mem_append_left _ claim, mem⟩
    have first : Tells st (deliverJob st job) (fun _ _ => True) ⟨l.past, l.tx, l.log⟩ :=
      tells_deliverJob (claimed job List.mem_cons_self)
    apply tells_bind.mpr
    refine Prog.wp_mono _ _ _ (fun r l h => ?_)
      (Prog.wp_stable _ _ _ keep first fun job hj => claimed job (List.mem_cons_of_mem _ hj))
    cases r with
    | ok _ => exact ih h.2
    | error _ => exact trivial

/-- A tick tells what has happened. -/
lemma tells_tick : Tells st (tick st) (fun _ _ => True) {} := by
  refine tells_bind.mpr (tells_bind.mpr (tells_ask.mpr fun answer a ⟨es, e, db, seqs, seqs', reached, s⟩ => ?_))
  subst e
  refine ⟨nofun, tells_liftResult fun jobs answered => tells_deliverAll fun job hj => ?_⟩
  cases answer with
  | error e => nomatch answered
  | ok batch =>
    cases answered
    exact ⟨_, es, List.mem_singleton_self _, hj⟩

end Delivery

/-- What is known of a notice of a delivery. -/
lemma Run.told (r : Run st ls S) {t : Nat} {roomId body : String} {k l}
    (task : S.tasks t = some ⟨.tick, some (.req (.sendNotice roomId body) k), l⟩) :
    Nonempty (Told st l.past roomId body) := by
  have start : Prog.wp (Local.PossIn st .tick) Local.after (Act.Telling st) (Input.prog st .tick)
      (fun _ _ => True) {} := by
    rw [Input.prog, map_eq_pure_bind, Prog.wp_bind]
    exact Prog.wp_mono _ _ _ (fun _ _ _ => trivial) tells_tick
  have within := r.within start task
  have possible : l.PossIn st .tick (.sendNotice roomId body) (Except.ok ())
      ⟨.sendNotice roomId body, Except.ok (), []⟩ :=
    ⟨[], rfl, S.db, S.seqs, S.seqs, ⟨ls, S, t, _, r, task, rfl⟩, .sendNotice _⟩
  exact (within _ _ possible).1 roomId body rfl

/-! ## Notices of success -/

/-- The site has accepted the assertion, which the user has approved before. -/
def LoggedIn (st : AppState) (ls : List Label) (t : Nat) (a : RelayAssertion) (user roomId : String) : Prop :=
  ∃ (pre : List Label) (l : Local) (job : DeliveryJob) (response : SiteResponse) (es : List Entry) (post : List Label),
    ls = pre ++ .act t .tick l ⟨.request (job.post (a.toBytes st.crates)), Except.ok response, es⟩ :: post ∧
    Approved st pre a user roomId ∧ job.kind = .assertion ∧ job.domain = a.aud ∧
    (response.status = 202 ∨ response.status = 200)

/-- A session that a transaction of the run has read is bound to the room it has been bound to since. -/
lemma Run.room_of_read (r : Run st ls S) {t : Nat} {l : Local} {session row : SessionRow} {es : List Entry}
    {room : Bytes} (read : .act t input l ⟨.commit, Except.ok (), .sessionRead session :: es⟩ ∈ ls)
    (bound : session.requestRoomCiphertext = some room) (hr : row ∈ S.db.sessions)
    (hd : row.domain = session.domain) (hs : row.sessionId = session.sessionId) :
    row.requestRoomCiphertext = some room ∧ session.Registered st := by
  obtain ⟨pre, post, e⟩ := List.append_of_mem read
  obtain ⟨S₁, S₂, r₁, s, steps⟩ := r.at e
  have mem : session ∈ S₁.db.sessions := (s.commit_inv r₁.inv).1.1
  have challenged : session.challengeHash ≠ none := by
    intro none
    have unbound : session.requestRoomCiphertext = .none :=
      congrArg Binding.requestRoomCiphertext (r₁.boundTogether session mem none)
    nomatch unbound.symm.trans bound
  obtain ⟨row', hr', -, kd, ks, binding⟩ := (Steps.cons s steps).bound_stays r₁.inv mem challenged
  obtain rfl := session_eq_of_key hr' hr (kd.trans hd.symm) (ks.trans hs.symm)
  have same : row'.requestRoomCiphertext = session.requestRoomCiphertext :=
    congrArg Binding.requestRoomCiphertext binding
  exact ⟨same.trans bound, r₁.represented.registered session mem⟩

/-- What is told of a delivery is so. -/
lemma Run.loggedIn (hmac : st.crates.HmacCollisionFree) (aead : st.crates.AeadCorrect) (json : st.crates.JsonCorrect)
    (r : Run st ls S) {t : Nat} {p l} (task : S.tasks t = some ⟨.tick, p, l⟩) {roomId body : String}
    (told : Told st l.past roomId body) : ∃ a user, LoggedIn st ls t a user roomId ∧
      a.sessionId = told.job.sessionId ∧ a.nonce = told.nonce ∧ a.sub = told.assertion.sub := by
  obtain ⟨l₁, past, posted⟩ := r.past_order task told.posted
  obtain ⟨pre, post, e⟩ := List.append_of_mem posted
  obtain ⟨S₁, S₂, r₁, s₁, steps⟩ := r.at e
  obtain ⟨_, _, task₁, -, -, -⟩ := s₁.act_inv
  -- before the post the job has come from a login
  obtain ⟨j, hj, fixed⟩ := r₁.claimed task₁ told.job (past ▸ told.claimed)
  have kind : j.kind = told.job.kind := DeliveryJob.of_fixed fixed (·.kind) fun _ => rfl
  obtain ⟨row, hr, hd, hs, bound, a, user, room, sealed, aud, sessionId, nonceHash, stored, approved⟩ :=
    (r₁.fromLogin hmac aead j hj (kind.trans told.kind)).congr fixed.symm
  have payload := Except.ok.inj ((sealed.decrypt aead).symm.trans told.payload_eq)
  have parsed := (RelayAssertion.strictFromSlice_toBytes json a).symm.trans (payload ▸ told.assertion_eq)
  have assertion := Except.ok.inj parsed
  -- the session the notice has read is the one of the login
  have since {c : Act} (h : c ∈ told.after) : c ∈ l.past :=
    told.posted ▸ List.mem_append_right _ (List.mem_cons_of_mem _ h)
  obtain ⟨l₂, mem⟩ := r.past task (since told.committed)
  obtain ⟨fd, fs, fn⟩ := SessionFilter.accepts_matching.mp told.found
  obtain ⟨row', hr', -, kd, ks, binding⟩ := (Steps.cons s₁ steps).bound_stays r₁.inv hr bound
  obtain ⟨roomCt, registered⟩ := r.room_of_read mem told.room_eq hr' (kd.trans (hd.trans fd.symm))
    (ks.trans (hs.trans fs.symm))
  have same : row'.requestRoomCiphertext = row.requestRoomCiphertext :=
    congrArg Binding.requestRoomCiphertext binding
  obtain rfl : room = roomId := by
    rw [← same, roomCt] at stored
    exact Option.some.inj (stored.symm.trans (congrArg Except.toOption told.roomId_eq))
  obtain ⟨nonce, -, nonceSealed, hash⟩ := registered.nonce
  have read := Except.ok.inj ((nonceSealed.decryptText aead).symm.trans told.nonce_eq)
  have nonces : a.nonce = told.nonce := by
    rw [← read]
    exact AppState.lookupHash_inj hmac (nonceHash.symm.trans (fn.symm.trans hash))
  refine ⟨a, user, ⟨pre, l₁, told.job, told.response, [], post, ?_, approved, told.kind, aud.symm, told.status⟩,
    sessionId, nonces, congrArg RelayAssertion.sub assertion⟩
  rw [payload]
  exact e

/-- A notice of success is sent by a delivery, after the site has accepted the assertion of the login: an
assertion for the session, the nonce and the account of the notice, for which the user has sent a Request and
then an approving Consent from the room of the notice. -/
theorem success_follows_login {pre post : List Label} {t : Nat} {l : Local} {roomId body : String} {answer es}
    {sessionId nonce : String} {sentAt : Int64} {account reason : Option String}
    (hmac : st.crates.HmacCollisionFree) (aead : st.crates.AeadCorrect) (b64 : st.crates.Base64Correct)
    (json : st.crates.JsonCorrect) (r : Run st ls S)
    (e : ls = pre ++ .act t input l ⟨.sendNotice roomId body, answer, es⟩ :: post)
    (text : (MatrixMessage.result sessionId nonce sentAt true account reason).encode st.crates = .ok body) :
    input = .tick ∧ ∃ a user, LoggedIn st pre t a user roomId ∧ a.sessionId = sessionId ∧ a.nonce = nonce ∧
      account = some a.sub := by
  obtain ⟨S₁, S₂, r₁, s₁, -⟩ := r.at e
  obtain ⟨_, _, task, -, -, -⟩ := s₁.act_inv
  have result {α : Type} {x : Relay α} {f : Except RelayError α → Result} {P : Op → Prop} (h : x.Only P) :
      (f <$> x.run).Asks P := by
    rw [map_eq_pure_bind]
    exact Prog.Asks.bind h fun _ => Prog.asks_pure _
  cases input with
  | register request =>
    have silent : (Input.prog st (.register request)).Asks (Op.Says fun _ _ => False) :=
      result (says_registerSession request)
    exact (r₁.asks task silent).elim
  | inbound event =>
    have hears : (Input.prog st (.inbound event)).Asks (Op.Says (event.Hears st)) :=
      result (says_handleInbound event)
    obtain ⟨-, m, encoded, other⟩ := r₁.asks task hears
    exact absurd (MatrixMessage.encode_inj b64 json encoded text) (other _ _ _ _ _)
  | tick =>
    obtain ⟨told⟩ := r₁.told task
    obtain ⟨a, user, login, hs, hn, sub⟩ := r₁.loggedIn hmac aead json task told
    have message := MatrixMessage.encode_inj b64 json told.body_eq text
    obtain ⟨rfl, rfl, -, -, rfl, -⟩ := MatrixMessage.result.inj message
    exact ⟨rfl, a, user, login, hs, hn, congrArg some sub.symm⟩

namespace Sample

/-- A delivery has claimed the job of Alice. -/
def upClaim : Env.Paused Result := (env 0 10000 up).pause tickProg consented.db consented.seqs {}

/-- The notice of an action. -/
def notice? (m : Moment) : Option (String × String) :=
  match m.act with
  | ⟨.sendNotice roomId body, _, _⟩ => some (roomId, body)
  | _ => none

/-- The notice Alice gets. -/
def success : MatrixMessage := .result alice.sessionId alice.nonce 10000 true (some alice.subject) none

/-- What it has claimed, and how it goes on. -/
def upJob : { job : DeliveryJob //
    ((env 0 10000 up).answer consented.db consented.seqs {} (.auto (.claimDue 10))).resp = Except.ok [job] ∧
    content job = (.assertion, "a.io", some (assertion.toBytes .stub)) ∧
    ((env 0 10000 up).run (parsedProg job assertion) upClaim.db upClaim.seqs upClaim.loc).loc.log = [] ∧
    (((env 0 10000 up).trace (parsedProg job assertion) upClaim.db upClaim.seqs upClaim.loc).filterMap notice?).map
      (fun n => some n.2) = [(success.encode .stub).toOption] } :=
  ⟨upClaim.db.jobs.rows.head (by decide +kernel), by decide +kernel⟩

end Sample

/-- Alice is told that her login has succeeded. -/
theorem success_follows_login_alice : ∃ ls S pre t l roomId body answer es post, Run Sample.relay ls S ∧
    ls = pre ++ .act t .tick l ⟨.sendNotice roomId body, answer, es⟩ :: post ∧
    Sample.success.encode .stub = .ok body ∧ ∃ a user, LoggedIn Sample.relay pre t a user roomId ∧
      a.sub = Sample.alice.subject := by
  obtain ⟨claimed, content, closed, notices⟩ := Sample.upJob.2
  obtain ⟨S₀, r, q, hd, hs⟩ := Sample.reaches_plain.run
  obtain ⟨kind, _, dj⟩ := Sample.decrypt_of_content content
  have prog : Sample.upClaim.prog = Sample.parsedProg Sample.upJob Sample.assertion :=
    Sample.tick_parsed _ claimed kind dj
  have call : (Sample.env 0 10000 Sample.up).call Sample.relay .tick S₀.db S₀.seqs =
      (Sample.env 0 10000 Sample.up).run (Sample.parsedProg Sample.upJob Sample.assertion) Sample.upClaim.db
        Sample.upClaim.seqs Sample.upClaim.loc := by
    rw [Env.call, Sample.prog_tick, hd, hs, Env.run_pause, Sample.tick_parsed _ claimed kind dj]
    rfl
  have wf : Input.WellFormed .tick := trivial
  obtain ⟨S, s, -⟩ := q.call (C := fun _ _ => True) (Sample.env 0 10000 Sample.up) wf (by rw [call, closed]) trivial
    fun _ _ _ _ => trivial
  -- the notice is among its actions
  obtain ⟨n, hn, text⟩ := List.mem_map.mp (notices ▸ List.mem_singleton_self _)
  obtain ⟨⟨db, l, op, answer, es⟩, hm, notice⟩ := List.mem_filterMap.mp hn
  obtain ⟨roomId, body⟩ := n
  obtain rfl : op = .sendNotice roomId body := by
    unfold Sample.notice? at notice
    split at notice
    · rename_i e
      cases e
      cases notice
      rfl
    · cases notice
  have mem : Label.act 3 .tick l ⟨.sendNotice roomId body, answer, es⟩ ∈
      (Sample.env 0 10000 Sample.up).labels Sample.relay 3 .tick S₀.db S₀.seqs := by
    rw [Env.labels, Sample.prog_tick, hd, hs, Env.trace_pause _ (show Sample.tickProg = .req _ _ from rfl)]
    refine List.mem_cons_of_mem _ (List.mem_cons_of_mem _ ?_)
    change _ ∈ ((Sample.env 0 10000 Sample.up).trace Sample.upClaim.prog Sample.upClaim.db Sample.upClaim.seqs
      Sample.upClaim.loc).map _
    rw [prog]
    exact List.mem_map.mpr ⟨_, hm, rfl⟩
  have run := (r.append s).run
  obtain ⟨pre, post, e⟩ := List.append_of_mem (List.mem_append_right Sample.consentedLabels mem)
  have encoded : Sample.success.encode Sample.relay.crates = .ok body := by
    cases e : Sample.success.encode Sample.relay.crates with
    | ok b =>
      change Sample.success.encode .stub = _ at e
      rw [e] at text
      cases text
      rfl
    | error x =>
      change Sample.success.encode .stub = _ at e
      rw [e] at text
      cases text
  obtain ⟨-, a, user, login, -, -, account⟩ := success_follows_login Crates.stub_hmac Crates.stub_aead
    Crates.stub_base64 Crates.stub_json run e encoded
  exact ⟨_, S, pre, 3, l, roomId, body, answer, es, post, run, e, encoded, a, user, login,
    (Option.some.inj account).symm⟩

end WebLoginRelay
