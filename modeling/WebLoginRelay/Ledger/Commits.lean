import WebLoginRelay.Ledger.Basic
import WebLoginRelay.Properties.Registrations
import WebLoginRelay.Properties.Workers

/-!
# The commits that a ledger is of

A commit is one for the ledger if its journal inserts a session or moves one on. The journal tells which session
that is, and the call that commits tells what for: a registration, a Request, a Consent, a Revocation, or a post
that its site has accepted (`Explains`).
-/

namespace WebLoginRelay
open Text Txn

variable {st : AppState} {S S' : Sys} {lb : Label} {input : Input} {past : List Act} {db : Db} {es : List Entry}
  {row row' : SessionRow} {set : SessionSet}

abbrev LedgerAct := Ledger.Act String String String String String

/-! ## Sessions that are written -/

/-- The step writes a session of the committed database. -/
def Label.WritesSession (lb : Label) : Bool := lb.writes.any Entry.WritesSession

/-- The commit registers the session. -/
def Act.Registers (a : Act) (row : SessionRow) : Prop := a.op = .commit ∧ .sessionInsert row ∈ a.log

/-- The commit moves the session on to this state. -/
def Act.Moves (a : Act) (row : SessionRow) (state : SessionState) : Prop :=
  a.op = .commit ∧ ∃ set, .sessionUpdate row set ∈ a.log ∧ set.state = state

section Acts
variable {t : Nat} {l : Local} {a : Act}

/-- A commit writes its journal. -/
lemma Label.writes_of_commit (op : a.op = .commit) : (Label.act t input l a).writes = a.log := by
  rw [Label.writes, Act.writes, op]

/-- A commit that registers a session writes one. -/
lemma Act.Registers.writesSession (h : a.Registers row) : (Label.act t input l a).WritesSession := by
  obtain ⟨op, mem⟩ := h
  rw [Label.WritesSession, Label.writes_of_commit op]
  exact List.any_eq_true.mpr ⟨.sessionInsert row, mem, rfl⟩

/-- A commit that moves a session on writes one. -/
lemma Act.Moves.writesSession {state : SessionState} (h : a.Moves row state) :
    (Label.act t input l a).WritesSession := by
  obtain ⟨op, set, mem, _⟩ := h
  rw [Label.WritesSession, Label.writes_of_commit op]
  exact List.any_eq_true.mpr ⟨.sessionUpdate row set, mem, rfl⟩

end Acts

/-- A journal that writes a session leaves other sessions than there were. -/
lemma sessions_ne_of_replay (vl : journal.Valid db es) (h : es.any Entry.WritesSession) :
    (journal.replay db es).sessions ≠ db.sessions := by
  intro same
  obtain ⟨e, he, writes⟩ := List.any_eq_true.mp h
  cases e with
  | sessionInsert new =>
    obtain ⟨⟨row, mem, id_eq⟩, fresh⟩ := insert_of_replay vl he
    exact fresh row (same ▸ mem) id_eq
  | sessionUpdate old set =>
    have updates : es.any (Entry.Updates old.id) := List.any_eq_true.mpr ⟨_, he, beq_self_eq_true old.id⟩
    obtain ⟨row, mem, id_eq, _⟩ := updated_of_replay vl updates
    rw [same] at mem
    obtain ⟨row', mem', id', version⟩ := version_of_replay vl mem
    rw [same] at mem'
    obtain rfl := session_eq_of_id mem mem' id'.symm
    rw [id_eq] at version
    have counted : 0 < es.countP (Entry.Updates old.id) := List.countP_pos_iff.mpr (List.any_eq_true.mp updates)
    omega
  | _ => cases writes

/-- A step that leaves the sessions writes none. -/
lemma Step.not_writesSession (inv : Sys.Inv st S) (s : Step st S lb S') (same : S'.db.sessions = S.db.sessions) :
    lb.WritesSession = false := by
  obtain ⟨vl, e⟩ := s.replays inv
  rw [← Bool.not_eq_true]
  intro writes
  exact sessions_ne_of_replay vl writes (e ▸ same)

/-- A session whose version a journal does not raise stays as it is. -/
lemma stays_of_replay (vl : journal.Valid db es) (mem : row ∈ db.sessions)
    (after : row' ∈ (journal.replay db es).sessions) (id_eq : row'.id = row.id)
    (version : row'.version ≤ row.version) : row' = row := by
  obtain stays | ⟨set, update⟩ := session_of_replay vl mem
  · exact session_eq_of_id after stays id_eq
  · -- an update of the session would raise its version
    obtain ⟨row'', mem'', id'', version''⟩ := version_of_replay vl mem
    obtain rfl := session_eq_of_id after mem'' (id_eq.trans id''.symm)
    have counted : 0 < es.countP (Entry.Updates row.id) :=
      List.countP_pos_iff.mpr ⟨_, update, beq_self_eq_true row.id⟩
    omega

/-- A session that was updated once is as the update has left it. -/
lemma updated_once_of_replay (vl : journal.Valid db es) (update : .sessionUpdate row set ∈ es)
    (after : row' ∈ (journal.replay db es).sessions) (id_eq : row'.id = row.id)
    (version : row'.version = row.version + 1) : row' = set.on row := by
  obtain ⟨pre, post, rfl⟩ := List.append_of_mem update
  rw [journal.valid_append] at vl
  obtain ⟨_, holds, vl⟩ := vl
  rw [journal.replay_append] at after
  have mem : set.on row ∈ ((Entry.sessionUpdate row set).apply (journal.replay db pre)).sessions :=
    (Db.mem_updateSession ..).mpr ⟨row, holds, if_pos rfl⟩
  exact stays_of_replay vl mem after id_eq version.le

/-- A session of version 0 is as it was inserted. -/
lemma inserted_as_of_replay {new : SessionRow} (vl : journal.Valid db es) (insert : .sessionInsert new ∈ es)
    (after : row ∈ (journal.replay db es).sessions) (id_eq : row.id = new.id) (version : row.version = 0) :
    row = new := by
  obtain ⟨pre, post, rfl⟩ := List.append_of_mem insert
  rw [journal.valid_append] at vl
  obtain ⟨_, free, vl⟩ := vl
  rw [journal.replay_append] at after
  have mem : new ∈ ((Entry.sessionInsert new).apply (journal.replay db pre)).sessions :=
    Table.mem_insert.mpr (.inr ⟨rfl, free⟩)
  exact stays_of_replay vl mem after id_eq (version ▸ Nat.zero_le _)

section Commits
variable {t : Nat} {l : Local} {a : Act}

/-- The commit of a registration registers its session. -/
lemma Step.registers {request : RegistrationRequest} (inv : Sys.Inv st S)
    (s : Step st S (.act t (.register request) l a) S') (op : a.op = .commit)
    (c : Registration st request l.past S.db) (h : S'.db = c.result) : a.Registers c.row := by
  obtain ⟨vl, e⟩ := s.replays inv
  have mem : c.row ∈ S'.db.sessions := h ▸ Table.mem_insert.mpr (.inr ⟨rfl, c.isNew⟩)
  rw [Label.writes_of_commit op] at vl e
  rw [e] at mem
  obtain ⟨old, there, id_eq⟩ | ⟨new, insert, id_eq⟩ := inserted_of_replay mem
  · exact absurd ⟨old, there, .inl id_eq⟩ c.isNew
  · obtain rfl := inserted_as_of_replay vl insert mem id_eq.symm rfl
    exact ⟨op, insert⟩

/-- The commit of a call that writes a session moves it on. -/
lemma Step.moves (inv : Sys.Inv st S) (s : Step st S (.act t input l a) S') (op : a.op = .commit)
    (log : a.log = l.log) (w : SessionWrite st input past S.db row set)
    (h : S'.db.sessions = (S.db.updateSession row.id set).sessions) : a.Moves row set.state := by
  obtain ⟨set', update⟩ := s.updates inv (.inl ⟨op, log⟩) w h
  obtain ⟨vl, e⟩ := s.replays inv
  have after : set.on row ∈ S'.db.sessions := by
    rw [h]
    exact (Db.mem_updateSession ..).mpr ⟨row, w.mem, if_pos rfl⟩
  rw [Label.writes_of_commit op, log] at vl e
  rw [e] at after
  have same : set.on row = set'.on row := updated_once_of_replay vl update after rfl rfl
  exact ⟨op, set', log ▸ update, (congrArg SessionRow.state same).symm⟩

end Commits

/-! ## What a commit is for -/

/-- The commit is the act: it writes the session of the login, for the registration or the event of the user that
the act is, or once the site has accepted the assertion of the login. -/
inductive Explains (st : AppState) : Label → LedgerAct → Prop where
  | register {t request l a row} : a.Registers row → row.state = .siteRegistered → row.domain = request.domain →
    row.sessionId = request.sessionId → row.nonceHash = st.lookupHash request.nonce →
    Explains st (.act t (.register request) l a) (.register request.domain request.sessionId request.nonce)
  | ask {t event l a row nonce sentAt} : a.Moves row .challengeSent →
    event.message? st = some (.request row.sessionId nonce sentAt row.domain) →
    row.nonceHash = st.lookupHash nonce →
    Explains st (.act t (.inbound event) l a) (.ask row.domain row.sessionId event.sender event.roomId)
  | refuse {t event l a row nonce sentAt name challenge keyId signature} : a.Moves row .refused →
    event.message? st = some (.consent row.sessionId nonce sentAt false name challenge keyId signature) →
    row.nonceHash = st.lookupHash nonce →
    Explains st (.act t (.inbound event) l a) (.refuse row.domain row.sessionId event.sender)
  | approve {t event l a row nonce sentAt name challenge keyId signature} : a.Moves row .consentReceived →
    event.message? st = some (.consent row.sessionId nonce sentAt true (some name) challenge keyId signature) →
    row.nonceHash = st.lookupHash nonce →
    Explains st (.act t (.inbound event) l a) (.approve row.domain row.sessionId nonce event.sender)
  | unlink {t event l a row nonce sentAt x reason} : a.Moves row .revoked →
    event.message? st = some (.revocation row.sessionId nonce sentAt x reason) →
    row.nonceHash = st.lookupHash nonce →
    derivePairwiseSub st.crates st.subjectSecret row.domain event.sender = .ok x →
    Explains st (.act t (.inbound event) l a) (.unlink row.domain row.sessionId event.sender)
  | confirm {t l a row} {job : DeliveryJob} : a.Moves row .assertionDelivered → job.kind = .assertion →
    Accepted st l.past job → row.domain = job.domain → row.sessionId = job.sessionId →
    row.nonceHash = job.nonceHash →
    Explains st (.act t .tick l a) (.confirm row.domain row.sessionId)

/-- Every act is a commit that writes a session. -/
lemma Explains.writesSession {act : LedgerAct} (h : Explains st lb act) : lb.WritesSession := by
  cases h with
  | register wrote => exact wrote.writesSession
  | ask wrote => exact wrote.writesSession
  | refuse wrote => exact wrote.writesSession
  | approve wrote => exact wrote.writesSession
  | unlink wrote => exact wrote.writesSession
  | confirm wrote => exact wrote.writesSession

end WebLoginRelay
