import WebLoginRelay.Ledger.Commits
import WebLoginRelay.Properties.Audience
import WebLoginRelay.Properties.Grants
import WebLoginRelay.Properties.Revocation

/-!
# The relay keeps a ledger

The relay stores hashes and ciphertexts, and serves its calls concurrently. Its database shows a ledger all the
same: every commit is one act of the user who sent the event, of the site that registered, or of the delivery, or
it changes nothing that the ledger has.
-/

namespace WebLoginRelay
open Text Txn

variable {st : AppState} {input : Input} {past : List Act} {db db' : Db}

abbrev RelayLedger := Ledger.State String String String String String

/-! ## What the database shows -/

/-- The phase of a session. -/
def SessionState.phase : SessionState → Option Ledger.Phase
  | .siteRegistered => some .registered
  | .challengeSent => some .asked
  | .consentReceived => some .approved
  | .refused => some .refused
  | .assertionDelivered => some .delivered
  | .revoked => some .unlinked
  | .expired => none
  | .cancelled => none

/-- The row is the one of the login. -/
structure ShowsLogin (st : AppState) (r : SessionRow) (l : Ledger.Login String String String) : Prop where
  hash : r.nonceHash = st.lookupHash l.nonce
  nonce : st.decryptText r.nonceCiphertext = .ok l.nonce
  phase : r.state.phase = some l.phase
  free : l.holder = none ↔ r.challengeHash = none
  holder : ∀ user room, l.holder = some (user, room) →
    st.storedText r.requestSenderCiphertext = some user ∧ st.storedText r.requestRoomCiphertext = some room

/-- The sessions are the logins. -/
def ShowsLogins (st : AppState) (db : Db) (L : RelayLedger) : Prop :=
  ∀ site session, match L.logins site session with
    | none => ∀ r ∈ db.sessions, ¬ (r.domain = site ∧ r.sessionId = session)
    | some l => ∃ r ∈ db.sessions, r.domain = site ∧ r.sessionId = session ∧ ShowsLogin st r l

/-- The grants are the links, and the ones that are not revoked the links that hold. -/
def ShowsLinks (st : AppState) (db : Db) (L : RelayLedger) : Prop :=
  ∀ site user, match L.linked site user with
    | none => ∀ g ∈ db.grants, g.domain = site → ∀ x, ¬ Owns st user x g
    | some b => ∃ g ∈ db.grants, g.domain = site ∧ (∃ x, Owns st user x g) ∧ g.revokedAt.isNone = b

/-- The job holds the message. -/
def HoldsMessage (st : AppState) (j : DeliveryJob) : Ledger.Message String String String String → Prop
  | .login site session nonce user => j.domain = site ∧ j.sessionId = session ∧
    ∃ a, st.decrypt j.payloadCiphertext = .ok (a.toBytes st.crates) ∧
      IsAssertion st j (a.toBytes st.crates) a ∧ a.nonce = nonce ∧
      derivePairwiseSub st.crates st.subjectSecret site user = .ok a.sub
  | .unlink site user => j.domain = site ∧
    ∃ v, st.decrypt j.payloadCiphertext = .ok (v.toBytes st.crates) ∧
      IsRevocation st j (v.toBytes st.crates) v ∧
      derivePairwiseSub st.crates st.subjectSecret site user = .ok v.sub

/-- The jobs hold the messages, in their order. -/
def HoldMessages (st : AppState) (db : Db) (ms : List (Ledger.Message String String String String)) : Prop :=
  List.Forall₂ (HoldsMessage st) db.jobs.rows ms

/-- The database shows the ledger. -/
structure Shows (st : AppState) (db : Db) (L : RelayLedger) : Prop where
  logins : ShowsLogins st db L
  links : ShowsLinks st db L
  messages : HoldMessages st db L.messages

/-! ## Sessions -/

namespace ShowsLogins
variable {L L' : RelayLedger}

/-- Every session is a login. -/
lemma find (h : ShowsLogins st db L) {r : SessionRow} (hr : r ∈ db.sessions) :
    ∃ l, L.logins r.domain r.sessionId = some l ∧ ShowsLogin st r l := by
  have shown := h r.domain r.sessionId
  cases e : L.logins r.domain r.sessionId with
  | none =>
    rw [e] at shown
    exact absurd ⟨rfl, rfl⟩ (shown r hr)
  | some l =>
    rw [e] at shown
    obtain ⟨r', hr', hd, hs, shows⟩ := shown
    obtain rfl := session_eq_of_key hr' hr hd hs
    exact ⟨l, rfl, shows⟩

/-- What is shown of the sessions depends on them only. -/
lemma same (h : ShowsLogins st db L) (e : db'.sessions = db.sessions) (e' : L'.logins = L.logins) :
    ShowsLogins st db' L' := by
  intro site session
  rw [e, e']
  exact h site session

/-- A session that is written is a login that is written. -/
lemma write (h : ShowsLogins st db L) {s : SessionRow} {set : SessionSet} (hs : s ∈ db.sessions)
    (e : db'.sessions = (db.updateSession s.id set).sessions) {l : Ledger.Login String String String}
    (shows : ShowsLogin st (set.on s) l) (e' : L'.logins = (L.put s.domain s.sessionId l).logins) :
    ShowsLogins st db' L' := by
  intro site session
  rw [e, e']
  by_cases key : site = s.domain ∧ session = s.sessionId
  · obtain ⟨rfl, rfl⟩ := key
    rw [Ledger.State.put_self]
    exact ⟨set.on s, (Db.mem_updateSession ..).mpr ⟨s, hs, if_pos rfl⟩, rfl, rfl, shows⟩
  · rw [Ledger.State.put_of_ne (h := key)]
    have shown := h site session
    cases f : L.logins site session with
    | none =>
      rw [f] at shown
      intro r' hr'
      obtain ⟨r, hr, rfl⟩ := (Db.mem_updateSession ..).mp hr'
      rw [SessionSet.at_domain, SessionSet.at_sessionId]
      exact shown r hr
    | some l' =>
      rw [f] at shown
      obtain ⟨r, hr, hd, hi, shows'⟩ := shown
      refine ⟨r, (Db.mem_updateSession ..).mpr ⟨r, hr, SessionSet.at_ne ?_⟩, hd, hi, shows'⟩
      intro id
      obtain rfl := session_eq_of_id hr hs id
      exact key ⟨hd.symm, hi.symm⟩

/-- A session that is inserted is a new login. -/
lemma insert (h : ShowsLogins st db L) {row : SessionRow} (new : ¬ db.sessions.Clashes row)
    (e : db'.sessions = db.sessions.insert row) {l : Ledger.Login String String String}
    (shows : ShowsLogin st row l) (e' : L'.logins = (L.put row.domain row.sessionId l).logins) :
    L.logins row.domain row.sessionId = none ∧ ShowsLogins st db' L' := by
  have free {r : SessionRow} (hr : r ∈ db.sessions) : ¬ (r.domain = row.domain ∧ r.sessionId = row.sessionId) :=
    fun key => new ⟨r, hr, .inr (.inl key)⟩
  constructor
  · cases f : L.logins row.domain row.sessionId with
    | none => rfl
    | some l' =>
      have shown := h row.domain row.sessionId
      rw [f] at shown
      obtain ⟨r, hr, hd, hs, -⟩ := shown
      exact absurd ⟨hd, hs⟩ (free hr)
  · intro site session
    rw [e, e']
    by_cases key : site = row.domain ∧ session = row.sessionId
    · obtain ⟨rfl, rfl⟩ := key
      rw [Ledger.State.put_self]
      exact ⟨row, Table.mem_insert.mpr (.inr ⟨rfl, new⟩), rfl, rfl, shows⟩
    · rw [Ledger.State.put_of_ne (h := key)]
      have shown := h site session
      cases f : L.logins site session with
      | none =>
        rw [f] at shown
        intro r hr
        obtain hr | ⟨rfl, -⟩ := Table.mem_insert.mp hr
        · exact shown r hr
        · exact fun same => key ⟨same.1.symm, same.2.symm⟩
      | some l' =>
        rw [f] at shown
        obtain ⟨r, hr, rest⟩ := shown
        exact ⟨r, Table.mem_insert.mpr (.inl hr), rest⟩

end ShowsLogins

/-! ## Grants -/

/-- A grant that is not the one that is put is as it was. -/
lemma Db.mem_putGrant_of_ne {new : NewGrant} {id : Nat} {g : GrantRow}
    (ne : ¬ (g.domain = new.domain ∧ g.subjectHash = new.subjectHash)) :
    g ∈ (db.putGrant new id).grants ↔ g ∈ db.grants := by
  constructor
  · intro h
    obtain ⟨rfl, -⟩ | ⟨f, hf, rfl | ⟨hd, hs, rfl⟩⟩ := Db.mem_putGrant h
    · exact absurd ⟨rfl, rfl⟩ ne
    · exact hf
    · exact absurd ⟨hd, hs⟩ ne
  · intro hg
    unfold Db.putGrant
    split
    · rename_i f e
      have acc := List.find?_some e
      simp only [Bool.and_eq_true, beq_iff_eq] at acc
      refine (Db.mem_updateGrant ..).mpr ⟨g, hg, GrantSet.at_ne ?_⟩
      rw [acc.1, acc.2]
      exact ne
    · exact Table.mem_insert.mpr (.inl hg)

/-- A grant that is not the one that is updated is as it was. -/
lemma Db.mem_updateGrant_of_ne {domain : String} {hash : Bytes} {set : GrantSet} {g : GrantRow}
    (ne : ¬ (g.domain = domain ∧ g.subjectHash = hash)) :
    g ∈ (db.updateGrant domain hash set).grants ↔ g ∈ db.grants := by
  rw [Db.mem_updateGrant]
  constructor
  · rintro ⟨f, hf, rfl⟩
    rw [GrantSet.at_domain, GrantSet.at_subjectHash] at ne
    rw [GrantSet.at_ne ne]
    exact hf
  · exact fun hg => ⟨g, hg, GrantSet.at_ne ne⟩

namespace ShowsLinks
variable {L L' : RelayLedger}

/-- What is shown of the grants depends on them only. -/
lemma same (h : ShowsLinks st db L) (e : db'.grants = db.grants) (e' : L'.linked = L.linked) :
    ShowsLinks st db' L' := by
  intro site user
  rw [e, e']
  exact h site user

/-- A grant is a link. -/
lemma find (h : ShowsLinks st db L) {g : GrantRow} (hg : g ∈ db.grants) {user x : String}
    (o : Owns st user x g) : L.linked g.domain user = some g.revokedAt.isNone := by
  have shown := h g.domain user
  cases e : L.linked g.domain user with
  | none =>
    rw [e] at shown
    exact absurd o (shown g hg rfl x)
  | some b =>
    rw [e] at shown
    obtain ⟨g', hg', hd, ⟨x', o'⟩, active⟩ := shown
    obtain rfl := o'.unique o hg' hg hd
    rw [active]

/-- A grant that is put, or revoked, is a link that is written. -/
lemma write (hmac : st.crates.HmacCollisionFree) (b64 : st.crates.Base64Correct) (h : ShowsLinks st db L)
    {user x : String} {b : Bool} {g' : GrantRow} (hg' : g' ∈ db'.grants) (o : Owns st user x g')
    (active : g'.revokedAt.isNone = b)
    (others : ∀ g : GrantRow, ¬ (g.domain = g'.domain ∧ g.subjectHash = g'.subjectHash) →
      (g ∈ db'.grants ↔ g ∈ db.grants))
    (e' : L'.linked = (L.link g'.domain user b).linked) : ShowsLinks st db' L' := by
  intro site user'
  rw [e']
  by_cases key : site = g'.domain ∧ user' = user
  · obtain ⟨rfl, rfl⟩ := key
    rw [Ledger.State.link_self]
    exact ⟨g', hg', rfl, ⟨x, o⟩, active⟩
  · rw [Ledger.State.link_of_ne (h := key)]
    have shown := h site user'
    cases f : L.linked site user' with
    | none =>
      rw [f] at shown
      intro g hg domain y o'
      by_cases same : g.domain = g'.domain ∧ g.subjectHash = g'.subjectHash
      · obtain rfl := grant_eq_of_key hg hg' same.1 same.2
        exact key ⟨domain.symm, Except.ok.inj (o'.user.symm.trans o.user)⟩
      · exact shown g ((others g same).mp hg) domain y o'
    | some b' =>
      rw [f] at shown
      obtain ⟨g, hg, domain, ⟨y, o'⟩, active'⟩ := shown
      refine ⟨g, (others g ?_).mpr hg, domain, ⟨y, o'⟩, active'⟩
      -- the user of a grant is determined by its subject
      rintro ⟨sd, sh⟩
      refine key ⟨domain.symm.trans sd, o'.user_eq hmac b64 (y := x) ?_ (sh.trans o.hash)⟩
      rw [sd]
      exact o.derived

/-- The grant of a Consent is a link. -/
lemma put (hmac : st.crates.HmacCollisionFree) (b64 : st.crates.Base64Correct) (aead : st.crates.AeadCorrect)
    (h : ShowsLinks st db L) (owned : ∀ g ∈ db.grants, ∃ u x, Owns st u x g) {event} (c : Mint st event past db)
    (e : db'.grants = (db.putGrant c.grant c.grantId).grants)
    (e' : L'.linked = (L.link c.session.domain event.sender true).linked) : ShowsLinks st db' L' := by
  have shown : ∃ g' ∈ db'.grants, g'.domain = c.session.domain ∧ g'.subjectHash = st.lookupHash c.sub ∧
      (∃ x, Owns st event.sender x g') ∧ g'.revokedAt.isNone = true := by
    rw [e]
    unfold Db.putGrant
    split
    · rename_i f found
      have acc := List.find?_some found
      simp only [Bool.and_eq_true, beq_iff_eq] at acc
      have hf : f ∈ db.grants := List.mem_of_find?_eq_some found
      obtain ⟨u, x, o⟩ := owned f hf
      have sub := c.sub_eq
      rw [show c.session.domain = f.domain from acc.1.symm] at sub
      obtain rfl := o.user_eq hmac b64 sub acc.2
      refine ⟨_, (Db.mem_updateGrant ..).mpr ⟨f, hf, if_pos ⟨rfl, rfl⟩⟩, acc.1, acc.2, ⟨x, ?_⟩, rfl⟩
      exact o.congr (GrantSet.on_fixed ..)
    · rename_i none
      have other (g : GrantRow) (hg : g ∈ db.grants) :
          ¬ (g.domain = c.session.domain ∧ g.subjectHash = st.lookupHash c.sub) := by
        intro key
        have n := List.find?_eq_none.mp none g hg
        simp [Mint.grant, key.1, key.2] at n
      refine ⟨c.grant.row c.grantId, Table.mem_insert.mpr (.inr ⟨rfl, ?_⟩), rfl, rfl, ⟨_, c.owns aead _⟩, rfl⟩
      rintro ⟨g, hg, id | key⟩
      · exact c.isNewGrant other g hg id
      · exact other g hg key
  obtain ⟨g', hg', hd, hs, ⟨x, o⟩, active⟩ := shown
  refine h.write hmac b64 hg' o active ?_ (hd ▸ e')
  intro g ne
  rw [e]
  apply Db.mem_putGrant_of_ne
  rw [hd, hs] at ne
  exact ne

/-- The grant that is revoked is a link that is given up. -/
lemma revoke (hmac : st.crates.HmacCollisionFree) (b64 : st.crates.Base64Correct) (h : ShowsLinks st db L)
    {event x} (c : Unlink st event past db) (o : Owns st event.sender x c.grant)
    (e : db'.grants = (db.updateGrant c.grant.domain c.grant.subjectHash (.revoke c.revokedAt)).grants)
    (e' : L'.linked = (L.link c.grant.domain event.sender false).linked) : ShowsLinks st db' L' := by
  have hg' : (GrantSet.revoke c.revokedAt).on c.grant ∈ db'.grants := by
    rw [e]
    exact (Db.mem_updateGrant ..).mpr ⟨c.grant, c.grant_mem, if_pos ⟨rfl, rfl⟩⟩
  refine h.write hmac b64 hg' (o.congr (GrantSet.on_fixed ..)) rfl ?_ e'
  intro g ne
  rw [e]
  exact Db.mem_updateGrant_of_ne ne

end ShowsLinks

/-! ## Jobs -/

/-- A job with the same fixed columns holds the same assertion. -/
lemma IsAssertion.congr {i j : DeliveryJob} {payload : Bytes} {a : RelayAssertion}
    (h : IsAssertion st i payload a) (e : j.fixed = i.fixed) : IsAssertion st j payload a := by
  have kind : j.kind = i.kind := DeliveryJob.of_fixed e (·.kind) fun _ => rfl
  have domain : j.domain = i.domain := DeliveryJob.of_fixed e (·.domain) fun _ => rfl
  have jti : j.jti = i.jti := DeliveryJob.of_fixed e (·.jti) fun _ => rfl
  have sessionId : j.sessionId = i.sessionId := DeliveryJob.of_fixed e (·.sessionId) fun _ => rfl
  have nonceHash : j.nonceHash = i.nonceHash := DeliveryJob.of_fixed e (·.nonceHash) fun _ => rfl
  exact ⟨kind.trans h.kind, h.bytes, h.signed, h.aud.trans domain.symm, h.jti.trans jti.symm,
    h.sessionId.trans sessionId.symm, h.nonce.trans nonceHash.symm, h.account⟩

/-- A job with the same fixed columns holds the same revocation. -/
lemma IsRevocation.congr {i j : DeliveryJob} {payload : Bytes} {v : RelayRevocation}
    (h : IsRevocation st i payload v) (e : j.fixed = i.fixed) : IsRevocation st j payload v := by
  have kind : j.kind = i.kind := DeliveryJob.of_fixed e (·.kind) fun _ => rfl
  have domain : j.domain = i.domain := DeliveryJob.of_fixed e (·.domain) fun _ => rfl
  have jti : j.jti = i.jti := DeliveryJob.of_fixed e (·.jti) fun _ => rfl
  exact ⟨kind.trans h.kind, h.bytes, h.signed, h.aud.trans domain.symm, h.jti.trans jti.symm⟩

/-- What the job holds no operation changes. -/
lemma HoldsMessage.congr {i j : DeliveryJob} {m : Ledger.Message String String String String}
    (h : HoldsMessage st i m) (e : j.fixed = i.fixed) : HoldsMessage st j m := by
  have domain : j.domain = i.domain := DeliveryJob.of_fixed e (·.domain) fun _ => rfl
  have sessionId : j.sessionId = i.sessionId := DeliveryJob.of_fixed e (·.sessionId) fun _ => rfl
  have ciphertext : j.payloadCiphertext = i.payloadCiphertext :=
    DeliveryJob.of_fixed e (·.payloadCiphertext) fun _ => rfl
  cases m with
  | login site session nonce user =>
    obtain ⟨hd, hs, a, decrypted, is, rest⟩ := h
    exact ⟨domain.trans hd, sessionId.trans hs, a, ciphertext ▸ decrypted, is.congr e, rest⟩
  | unlink site user =>
    obtain ⟨hd, v, decrypted, is, rest⟩ := h
    exact ⟨domain.trans hd, v, ciphertext ▸ decrypted, is.congr e, rest⟩

namespace HoldMessages
variable {ms : List (Ledger.Message String String String String)}

/-- What is shown of the jobs depends on them only. -/
lemma same (h : HoldMessages st db ms) (e : db'.jobs = db.jobs) : HoldMessages st db' ms := by
  rw [HoldMessages, e]
  exact h

/-- An update of a job leaves what it holds. -/
lemma update (h : HoldMessages st db ms) (id : Nat) (c : JobSet) : HoldMessages st (db.updateJob id c) ms := by
  have rows : (db.updateJob id c).jobs.rows = db.jobs.rows.map (c.at id) := rfl
  rw [HoldMessages, rows, List.forall₂_map_left_iff]
  exact h.imp fun j m holds => holds.congr (c.at_fixed id j)

/-- A job that is queued is a message that is owed. -/
lemma queue (h : HoldMessages st db ms) {j : DeliveryJob} {m} (new : ¬ db.jobs.Clashes j)
    (e : db'.jobs = db.jobs.insert j) (holds : HoldsMessage st j m) : HoldMessages st db' (ms ++ [m]) := by
  rw [HoldMessages, e, Table.rows_insert new]
  exact List.rel_append h (.cons holds .nil)

/-- A job holds one of the messages. -/
lemma find (h : HoldMessages st db ms) {j : DeliveryJob} (hj : j ∈ db.jobs) : ∃ m ∈ ms, HoldsMessage st j m := by
  have rows : j ∈ db.jobs.rows := hj
  unfold HoldMessages at h
  generalize db.jobs.rows = js at h rows
  induction h with
  | nil => nomatch rows
  | cons holds _ ih =>
    obtain _ | ⟨_, rows⟩ := rows
    · exact ⟨_, List.mem_cons_self, holds⟩
    · obtain ⟨m, hm, holds⟩ := ih rows
      exact ⟨m, List.mem_cons_of_mem _ hm, holds⟩

end HoldMessages

/-- The job of a Consent holds the login. -/
lemma Mint.holds {event id now} (aead : st.crates.AeadCorrect) (c : Mint st event past db) :
    HoldsMessage st (c.newJob.row id now) (.login c.session.domain c.sessionId c.nonce event.sender) := by
  obtain ⟨signature, e⟩ := RelayAssertion.sign_ok c.assertion_eq
  obtain ⟨account, _, signed⟩ := RelayAssertion.sign_valid c.assertion_eq
  have sub : c.assertion.sub = c.sub := by rw [e]
  have is : IsAssertion st (c.newJob.row id now) (c.assertion.toBytes st.crates) c.assertion :=
    ⟨rfl, rfl, signed, by rw [e]; rfl, by rw [e]; rfl, by rw [e]; rfl, by rw [e]; rfl, by rw [sub]; exact account⟩
  refine ⟨rfl, rfl, c.assertion, c.assertionSealed.decrypt aead, is, by rw [e], ?_⟩
  rw [sub]
  exact c.sub_eq

/-- The job of a Revocation holds the unlinking. -/
lemma Unlink.holds {event id now x} (hmac : st.crates.HmacCollisionFree) (aead : st.crates.AeadCorrect)
    (c : Unlink st event past db) (o : Owns st event.sender x c.grant) :
    HoldsMessage st (c.newJob.row id now) (.unlink c.grant.domain event.sender) := by
  obtain ⟨signature, e⟩ := RelayRevocation.sign_ok c.revocation_eq
  have is : IsRevocation st (c.newJob.row id now) (c.revocation.toBytes st.crates) c.revocation :=
    ⟨rfl, rfl, RelayRevocation.sign_valid c.revocation_eq, by rw [e]; rfl, by rw [e]; rfl⟩
  have sub : c.revocation.sub = c.siteAccountId := by rw [e]
  refine ⟨c.grant_domain.symm, c.revocation, c.payloadSealed.decrypt aead, is, ?_⟩
  rw [sub, ← AppState.lookupHash_inj hmac (o.hash.symm.trans c.grant_subject)]
  exact o.derived

/-! ## Steps -/

/-- Before any call nothing has been done. -/
lemma Shows.init : Shows st Db.empty Ledger.State.empty where
  logins _ _ _ h := absurd h Table.not_mem_empty
  links _ _ _ h := absurd h Table.not_mem_empty
  messages := .nil

/-- An update of a job is no act. -/
lemma Shows.updateJob {L : RelayLedger} (h : Shows st db L) (id : Nat) (c : JobSet) :
    Shows st (db.updateJob id c) L :=
  ⟨h.logins.same rfl rfl, h.links.same rfl rfl, h.messages.update id c⟩

/-- A journal of updates of jobs is no act. -/
lemma Shows.updateJobs {L : RelayLedger} {es : List Entry} (h : Shows st db L)
    (only : ∀ e ∈ es, ∃ j c, e = .jobUpdate j c) : Shows st (journal.replay db es) L := by
  induction es generalizing db with
  | nil => exact h
  | cons e es ih =>
    obtain ⟨j, c, rfl⟩ := only e List.mem_cons_self
    have rest : ∀ e ∈ es, ∃ j c, e = .jobUpdate j c := fun e he => only e (List.mem_cons_of_mem _ he)
    exact ih (h.updateJob j.id c) rest

/-- A session that moves keeps its nonce and its holder. -/
lemma ShowsLogin.move {r : SessionRow} {l : Ledger.Login String String String} (h : ShowsLogin st r l)
    {set : SessionSet} {phase : Ledger.Phase} (state : set.state.phase = some phase)
    (hash : set.challengeHash = none) (sender : set.requestSenderCiphertext = none)
    (room : set.requestRoomCiphertext = none) : ShowsLogin st (set.on r) { l with phase := phase } where
  hash := h.hash
  nonce := h.nonce
  phase := state
  free := by
    rw [SessionSet.on, hash]
    exact h.free
  holder := by
    rw [SessionSet.on, sender, room]
    exact h.holder

/-- The login of a session that was found has its nonce. -/
lemma ShowsLogin.nonce_eq (hmac : st.crates.HmacCollisionFree) {r : SessionRow}
    {l : Ledger.Login String String String} (h : ShowsLogin st r l) {nonce : String}
    (e : r.nonceHash = st.lookupHash nonce) : l.nonce = nonce :=
  AppState.lookupHash_inj hmac (h.hash.symm.trans e)

/-- The holder of the login is the sender of the Consent. -/
lemma ConsentCheck.holder {event} (c : ConsentCheck st event past) {l : Ledger.Login String String String}
    (h : ShowsLogin st c.session l) : l.holder = some (event.sender, event.roomId) := by
  cases e : l.holder with
  | none => nomatch (h.free.mp e).symm.trans c.challenge_eq
  | some holder =>
    obtain ⟨user, room⟩ := holder
    obtain ⟨sender, place⟩ := h.holder user room e
    cases sender.symm.trans c.sender_eq
    cases place.symm.trans c.room_eq
    rfl

/-- A step writes no session and changes nothing that is shown, or it is an act of the ledger. -/
def IsAct (st : AppState) (lb : Label) (L : RelayLedger) (db' : Db) : Prop :=
  (lb.WritesSession = false ∧ Shows st db' L) ∨
    ∃ act L', Explains st lb act ∧ Ledger.Step L act L' ∧ Shows st db' L'

section Commits
variable {t : Nat} {l : Local} {a : Act} {L : RelayLedger}

/-- A registration is an act. -/
lemma Registration.isAct {request} (aead : st.crates.AeadCorrect) (c : Registration st request l.past db)
    (wrote : a.Registers c.row) (h : Shows st db L) : IsAct st (.act t (.register request) l a) L c.result := by
  have shows : ShowsLogin st c.row ⟨request.nonce, none, .registered⟩ := by
    refine ⟨rfl, c.nonceSealed.decryptText aead, rfl, ?_, nofun⟩
    exact ⟨fun _ => rfl, fun _ => rfl⟩
  have inserted : c.result.sessions = db.sessions.insert c.row := rfl
  obtain ⟨free, logins⟩ := h.logins.insert c.isNew inserted shows rfl
  refine .inr ⟨.register request.domain request.sessionId request.nonce, _, .register wrote rfl rfl rfl rfl,
    .register free, ?_⟩
  exact ⟨logins, h.links.same rfl rfl, h.messages.same rfl⟩

/-- A Request is an act. -/
lemma ChallengeIssue.isAct {event} (aead : st.crates.AeadCorrect) (c : ChallengeIssue st event l.past db)
    (wrote : a.Moves c.session .challengeSent) (h : Shows st db L) :
    IsAct st (.act t (.inbound event) l a) L c.result := by
  obtain ⟨domain, sessionId, hash⟩ := SessionFilter.accepts_matching.mp c.found
  obtain ⟨login, at_, shown⟩ := h.logins.find c.mem
  have shows : ShowsLogin st (c.set.on c.session) ⟨login.nonce, some (event.sender, event.roomId), .asked⟩ := by
    refine ⟨shown.hash, shown.nonce, rfl, iff_of_false (Option.some_ne_none _) (Option.some_ne_none _), ?_⟩
    intro user room e
    cases e
    have sender := c.senderSealed.decryptText aead
    have place := c.roomSealed.decryptText aead
    constructor
    · show (st.decryptText c.senderCt).toOption = _
      rw [sender]
      rfl
    · show (st.decryptText c.roomCt).toOption = _
      rw [place]
      rfl
  have message := c.message
  rw [← domain, ← sessionId] at message
  refine .inr ⟨.ask c.session.domain c.session.sessionId event.sender event.roomId, _, .ask wrote message hash,
    .ask at_ (shown.free.mpr c.unbound), ?_⟩
  exact ⟨h.logins.write c.mem rfl shows rfl, h.links.same rfl rfl, h.messages.same rfl⟩

/-- A Consent that refuses is an act. -/
lemma AcceptedConsent.isAct {event} (c : AcceptedConsent st event l.past db) (refused : c.approved = false)
    (wrote : a.Moves c.session .refused) (h : Shows st db L) :
    IsAct st (.act t (.inbound event) l a) L c.refused := by
  obtain ⟨sessionId, hash⟩ := SessionFilter.accepts_sessionAndNonce.mp c.found
  obtain ⟨login, at_, shown⟩ := h.logins.find c.mem
  have shows : ShowsLogin st ((AcceptedConsent.refusal event).on c.session) { login with phase := .refused } :=
    shown.move rfl rfl rfl rfl
  have message := c.message
  rw [← sessionId, refused] at message
  refine .inr ⟨.refuse c.session.domain c.session.sessionId event.sender, _, .refuse wrote message hash,
    .refuse at_ (c.holder shown), ?_⟩
  exact ⟨h.logins.write c.mem rfl shows rfl, h.links.same rfl rfl, h.messages.same rfl⟩

/-- A Consent that approves is an act. -/
lemma Mint.isAct {event id now} (hmac : st.crates.HmacCollisionFree) (b64 : st.crates.Base64Correct)
    (aead : st.crates.AeadCorrect) (owned : ∀ g ∈ db.grants, ∃ u x, Owns st u x g)
    (c : Mint st event l.past db) (hj : c.job = some (c.newJob.row id now))
    (wrote : a.Moves c.session .consentReceived) (h : Shows st db L) :
    IsAct st (.act t (.inbound event) l a) L c.result := by
  obtain ⟨sessionId, hash⟩ := SessionFilter.accepts_sessionAndNonce.mp c.found
  obtain ⟨login, at_, shown⟩ := h.logins.find c.mem
  have nonce : login.nonce = c.nonce := shown.nonce_eq hmac hash
  have shows : ShowsLogin st (c.set.on c.session) { login with phase := .approved } :=
    shown.move rfl rfl rfl rfl
  have queued := c.queued
  rw [hj] at queued
  have grants : c.result.grants = (db.putGrant c.grant c.grantId).grants := by
    simp only [Mint.result, Db.addJob_grants, Db.updateSession_grants, Db.reserve_grants]
    exact putGrant_grants (Db.reserve_grants ..) _ _
  have jobs : c.result.jobs = db.jobs.insert (c.newJob.row id now) := by
    simp only [Mint.result, hj, Db.addJob, Db.updateSession_jobs, Db.reserve_jobs, Db.putGrant_jobs]
  have message := c.message
  rw [← sessionId, ← nonce, c.display_eq, c.isApproved] at message
  refine .inr ⟨.approve c.session.domain c.session.sessionId login.nonce event.sender, _,
    .approve wrote message shown.hash, .approve at_ (c.holder shown), ?_⟩
  refine ⟨h.logins.write c.mem c.result_sessions shows rfl, h.links.put hmac b64 aead owned c grants rfl, ?_⟩
  refine h.messages.queue queued.2 jobs ?_
  rw [sessionId, nonce]
  exact c.holds aead

/-- A Revocation that revokes a grant is an act. -/
lemma Unlink.isAct {event id now} (hmac : st.crates.HmacCollisionFree) (b64 : st.crates.Base64Correct)
    (aead : st.crates.AeadCorrect) (owned : ∀ g ∈ db.grants, ∃ u x, Owns st u x g)
    (c : Unlink st event l.past db) (hj : c.job = some (c.newJob.row id now)) (wrote : a.Moves c.session .revoked)
    (h : Shows st db L) : IsAct st (.act t (.inbound event) l a) L c.result := by
  obtain ⟨sessionId, hash⟩ := SessionFilter.accepts_sessionAndNonce.mp c.found
  obtain ⟨login, at_, shown⟩ := h.logins.find c.mem
  have shows : ShowsLogin st (SessionSet.on { state := .revoked } c.session) { login with phase := .unlinked } :=
    shown.move rfl rfl rfl rfl
  have queued := c.queued
  rw [hj] at queued
  obtain ⟨u, x, o⟩ := owned c.grant c.grant_mem
  obtain rfl : u = event.sender := Except.ok.inj (o.user.symm.trans c.owner)
  have subject : x = c.siteAccountId := AppState.lookupHash_inj hmac (o.hash.symm.trans c.grant_subject)
  have active : L.linked c.session.domain event.sender = some true := by
    have linked := h.links.find c.grant_mem o
    rw [c.active, c.grant_domain] at linked
    exact linked
  have grants : c.result.grants = (db.updateGrant c.grant.domain c.grant.subjectHash (.revoke c.revokedAt)).grants := by
    simp only [Unlink.result, Db.updateSession_grants, Db.addJob_grants, Db.reserve_grants]
  have jobs : c.result.jobs = db.jobs.insert (c.newJob.row id now) := by
    simp only [Unlink.result, hj, Db.addJob, Db.updateSession_jobs, Db.reserve_jobs, Db.updateGrant_jobs]
  have message := c.message
  rw [← sessionId] at message
  have derived : derivePairwiseSub st.crates st.subjectSecret c.session.domain event.sender = .ok c.siteAccountId := by
    rw [← subject, ← c.grant_domain]
    exact o.derived
  refine .inr ⟨.unlink c.session.domain c.session.sessionId event.sender, _,
    .unlink wrote message hash derived, .unlink at_ active, ?_⟩
  · refine ⟨h.logins.write c.mem c.result_sessions shows rfl, h.links.revoke hmac b64 c o grants ?_, ?_⟩
    · rw [c.grant_domain]
      rfl
    · refine h.messages.queue queued.2 jobs ?_
      rw [← c.grant_domain]
      exact c.holds hmac aead o

/-- The delivery of an assertion is an act. -/
lemma Acceptance.isAct (hmac : st.crates.HmacCollisionFree) (claims : ClaimsAreJobs l.past db)
    (c : Acceptance st l.past db) (wrote : a.Moves c.session .assertionDelivered) (h : Shows st db L) :
    IsAct st (.act t .tick l a) L c.result := by
  obtain ⟨domain, sessionId, hash⟩ := SessionFilter.accepts_matching.mp c.found
  obtain ⟨login, at_, shown⟩ := h.logins.find c.mem
  have shows : ShowsLogin st (SessionSet.on { state := .assertionDelivered } c.session) { login with phase := .delivered } :=
    shown.move rfl rfl rfl rfl
  obtain ⟨j, hj, e⟩ := claims c.job c.claimed
  obtain ⟨m, hm, holds⟩ := h.messages.find hj
  have kind : j.kind = c.job.kind := DeliveryJob.of_fixed e (·.kind) fun _ => rfl
  have sent : ∃ user, .login c.session.domain c.session.sessionId login.nonce user ∈ L.messages := by
    cases m with
    | unlink site user =>
      obtain ⟨-, v, -, is, -⟩ := holds
      cases is.kind.symm.trans (kind.trans c.kind)
    | login site session nonce user =>
      obtain ⟨hd, hs, assertion, -, is, rfl, -⟩ := holds
      have jd : j.domain = c.job.domain := DeliveryJob.of_fixed e (·.domain) fun _ => rfl
      have js : j.sessionId = c.job.sessionId := DeliveryJob.of_fixed e (·.sessionId) fun _ => rfl
      have jn : j.nonceHash = c.job.nonceHash := DeliveryJob.of_fixed e (·.nonceHash) fun _ => rfl
      have nonce : login.nonce = assertion.nonce :=
        shown.nonce_eq hmac (hash.trans (jn.symm.trans is.nonce.symm))
      refine ⟨user, ?_⟩
      rw [domain, sessionId, nonce, ← jd, ← js, hd, hs]
      exact hm
  obtain ⟨user, sent⟩ := sent
  have accepted : Accepted st l.past c.job :=
    ⟨c.claimed, _, c.posted, c.payload, c.payload_eq, c.response, [], rfl, c.status⟩
  refine .inr ⟨.confirm c.session.domain c.session.sessionId, _,
    .confirm wrote c.kind accepted domain sessionId hash, .confirm at_ sent, ?_⟩
  exact ⟨h.logins.write c.mem rfl shows rfl, h.links.same rfl rfl, h.messages.same rfl⟩

end Commits

/-- A step of the relay writes no session and changes nothing that is shown, or it is an act of the ledger. -/
theorem Step.isAct {ls S lb S'} {L : RelayLedger} (hmac : st.crates.HmacCollisionFree)
    (aead : st.crates.AeadCorrect) (b64 : st.crates.Base64Correct) (r : Run st ls S)
    (distinct : JtisDistinct st ls) (s : Step st S lb S') (h : Shows st S.db L) : IsAct st lb L S'.db := by
  have quiet (same : S'.db.sessions = S.db.sessions) (shows : Shows st S'.db L) : IsAct st lb L S'.db :=
    .inl ⟨s.not_writesSession r.inv same, shows⟩
  obtain e | ⟨t, input, l, a, rfl, eff, ch⟩ := r.inv.step_change s
  · exact quiet (congrArg Db.sessions e) (e ▸ h)
  obtain ⟨k, seqs, task, o, e', -⟩ := s.act_inv
  obtain ⟨op, log⟩ | ⟨rfl, au, op⟩ := eff
  · generalize e : S'.db = db' at ch
    have moves {row set} (w : SessionWrite st input l.past S.db row set)
        (h : db'.sessions = (S.db.updateSession row.id set).sessions) : a.Moves row set.state :=
      s.moves r.inv op log w (e ▸ h)
    cases ch with
    | keep => exact e ▸ quiet (congrArg Db.sessions e) (e ▸ h)
    | register c => exact c.isAct aead (s.registers r.inv op c e) h
    | request c => exact c.isAct aead (moves (.request c) rfl) h
    | refuse c refused => exact c.isAct refused (moves (.refuse c refused) rfl) h
    | approve c =>
      obtain ⟨id, now, hj⟩ := c.job_some r b64 distinct task
      exact c.isAct hmac b64 aead (r.owned aead) hj (moves (.approve c) c.result_sessions) h
    | revoke c =>
      obtain ⟨id, now, hj⟩ := c.job_some r b64 distinct task
      exact c.isAct hmac b64 aead (r.owned aead) hj (moves (.revoke c) c.result_sessions) h
    | deliver c => exact c.isAct hmac (r.claimed task) (moves (.deliver c) rfl) h
    | claim due =>
      refine e ▸ quiet (e ▸ (replay_jobUpdate S.db).1) (e ▸ h.updateJobs ?_)
      intro e he
      obtain ⟨j, -, rfl⟩ := List.mem_map.mp he
      exact ⟨j, _, rfl⟩
    | mark _ _ _ _ => exact e ▸ quiet (e ▸ rfl) (e ▸ h.updateJob _ _)
  · -- a statement on a pooled connection updates jobs only
    obtain ⟨op', resp, es⟩ := a
    obtain rfl : op' = .auto au := op
    have only : ∀ e ∈ es, ∃ j c, e = .jobUpdate j c := o.auto_log
    refine quiet ?_ (e' ▸ h.updateJobs only)
    rw [e']
    refine sessions_of_replay fun e he => ?_
    obtain ⟨j, c, rfl⟩ := only e he
    rfl

/-- The run without steps. -/
lemma Run.nil {S} (r : Run st [] S) : S = Sys.init := by
  generalize e : ([] : List Label) = ls at r
  cases r with
  | init => rfl
  | step _ _ => nomatch List.append_eq_nil_iff.mp e.symm

/-- A ledger is continued by the acts of the steps. -/
lemma Steps.acts {ls S₁ post S} {acts : List LedgerAct} {L₁ : RelayLedger} (hmac : st.crates.HmacCollisionFree)
    (aead : st.crates.AeadCorrect) (b64 : st.crates.Base64Correct) (s : Steps st S₁ post S) (r : Run st ls S₁)
    (distinct : JtisDistinct st (ls ++ post)) (run : Ledger.Run acts L₁) (h : Shows st S₁.db L₁) :
    ∃ acts' L, Ledger.Run (acts ++ acts') L ∧ Shows st S.db L ∧
      List.Forall₂ (Explains st) (post.filter Label.WritesSession) acts' := by
  induction s generalizing ls acts L₁ with
  | nil => exact ⟨[], L₁, by rwa [List.append_nil], h, .nil⟩
  | @cons S lb S' post S'' s _ ih =>
    have earlier : JtisDistinct st ls := distinct.of_append
    have distinct' : JtisDistinct st ((ls ++ [lb]) ++ post) := by rwa [List.append_assoc]
    obtain ⟨quiet, shown⟩ | ⟨act, L', explains, step, shown⟩ := s.isAct hmac aead b64 r earlier h
    · obtain ⟨acts', L, run', shown', all⟩ := ih (r.step s) distinct' run shown
      refine ⟨acts', L, run', shown', ?_⟩
      rw [List.filter_cons_of_neg (by simp only [quiet, Bool.false_eq_true, not_false_eq_true])]
      exact all
    · obtain ⟨acts', L, run', shown', all⟩ := ih (r.step s) distinct' (run.step step) shown
      rw [List.append_assoc] at run'
      refine ⟨act :: acts', L, run', shown', ?_⟩
      rw [List.filter_cons_of_pos explains.writesSession]
      exact .cons explains all

/-- The relay keeps a ledger: whatever the calls, however they interleave, and whatever fails or is cancelled,
the database shows the ledger of the acts that were committed, in the order of their commits. The acts are the
commits that write a session, all of them. -/
theorem relay_refines_ledger {ls S} (hmac : st.crates.HmacCollisionFree) (aead : st.crates.AeadCorrect)
    (b64 : st.crates.Base64Correct) (r : Run st ls S) (distinct : JtisDistinct st ls) :
    (∃ acts L, Ledger.Run acts L ∧ Shows st S.db L ∧
      List.Forall₂ (Explains st) (ls.filter Label.WritesSession) acts) ∧
    ∀ pre post S₁ acts L₁, ls = pre ++ post → Run st pre S₁ → Steps st S₁ post S →
      Ledger.Run acts L₁ → Shows st S₁.db L₁ →
      ∃ acts' L, Ledger.Run (acts ++ acts') L ∧ Shows st S.db L ∧
        List.Forall₂ (Explains st) (post.filter Label.WritesSession) acts' := by
  constructor
  · obtain ⟨S₁, r₁, s⟩ := r.split (List.nil_append ls).symm
    obtain rfl := r₁.nil
    exact s.acts hmac aead b64 .init distinct .empty .init
  · intro pre post S₁ acts L₁ e r₁ s run shown
    subst e
    exact s.acts hmac aead b64 r₁ distinct run shown

/-- No `jti` is drawn twice in Alice's login. -/
lemma Sample.consented_jtis : JtisDistinct Sample.relay Sample.consentedLabels := by
  refine .of_nodup ?_
  rw [Sample.consentedLabels, Sample.requestedLabels]
  simp only [List.filterMap_append, Env.labels_register_draw,
    Env.labels_inbound_draw _ _ (Input.prog_request Sample.alice_valid.request),
    Env.labels_inbound_draw _ _ Sample.alice_valid.prog_consent]
  decide +kernel

/-- Alice's login is shown by a ledger that owes one message. -/
theorem relay_refines_ledger_alice : ∃ S, Run Sample.relay Sample.consentedLabels S ∧
    ∃ acts L, Ledger.Run acts L ∧ Shows Sample.relay S.db L ∧ L.messages.length = 1 := by
  obtain ⟨S, run, _, hd, _⟩ := Sample.reaches_plain.run
  obtain ⟨acts, L, ledger, shown, -⟩ := (relay_refines_ledger Crates.stub_hmac Crates.stub_aead
    Crates.stub_base64 run.run Sample.consented_jtis).1
  refine ⟨S, run.run, acts, L, ledger, shown, ?_⟩
  have one : S.db.jobs.rows.length = 1 := by
    rw [hd]
    decide +kernel
  rw [← one]
  exact shown.messages.length_eq.symm

end WebLoginRelay
