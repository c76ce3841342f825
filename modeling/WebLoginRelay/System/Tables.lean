import WebLoginRelay.System.Inv

/-!
# The effect of a change on each table

A change writes at most one session, inserts at most one grant or updates one, and inserts at most one
job or updates jobs that are there; rows of the replay tables are only inserted. No row is ever
deleted.
-/

namespace WebLoginRelay
open Text Txn

variable {st : AppState} {input : Input} {past : List Act} {db db' : Db}

/-! ## Sessions -/

/-- The ways in which a session is written. -/
inductive SessionWrite (st : AppState) : Input → List Act → Db → SessionRow → SessionSet → Prop where
  | request {event : InboundEvent} {past : List Act} {db : Db} (c : ChallengeIssue st event past db) :
    SessionWrite st (.inbound event) past db c.session c.set
  | refuse {event : InboundEvent} {past : List Act} {db : Db} (c : AcceptedConsent st event past db) (h : c.approved = false) :
    SessionWrite st (.inbound event) past db c.session (AcceptedConsent.refusal event)
  | approve {event : InboundEvent} {past : List Act} {db : Db} (c : Mint st event past db) :
    SessionWrite st (.inbound event) past db c.session c.set
  | revoke {event : InboundEvent} {past : List Act} {db : Db} (c : Unlink st event past db) :
    SessionWrite st (.inbound event) past db c.session { state := .revoked }
  | deliver {past : List Act} {db : Db} (c : Acceptance st past db) :
    SessionWrite st .tick past db c.session { state := .assertionDelivered }

/-- A session that is written is there. -/
lemma SessionWrite.mem {s : SessionRow} {set : SessionSet}
    (w : SessionWrite st input past db s set) : s ∈ db.sessions := by
  cases w with
  | request c => exact c.mem
  | refuse c _ => exact c.mem
  | approve c => exact c.mem
  | revoke c => exact c.mem
  | deliver c => exact c.mem

/-- What a change does to the sessions. -/
inductive SessionEffect (st : AppState) (input : Input) (past : List Act) (db db' : Db) : Prop where
  | same (h : db'.sessions = db.sessions)
  | insert {request} (i : input = .register request) (c : Registration st request past db)
    (h : db'.sessions = db.sessions.insert c.row)
  | update {s set} (w : SessionWrite st input past db s set)
    (h : db'.sessions = (db.updateSession s.id set).sessions)

/-- Updates of jobs leave the other tables. -/
lemma replay_jobUpdate {jobs : List DeliveryJob} {set : JobSet} (db : Db) :
    (journal.replay db (jobs.map (.jobUpdate · set))).sessions = db.sessions ∧
    (journal.replay db (jobs.map (.jobUpdate · set))).replay = db.replay ∧
    (journal.replay db (jobs.map (.jobUpdate · set))).grants = db.grants := by
  induction jobs generalizing db with
  | nil => exact ⟨rfl, rfl, rfl⟩
  | cons j jobs ih => exact ih (db.updateJob j.id set)

/-- An approval writes one session. -/
lemma Mint.result_sessions {event} (c : Mint st event past db) :
    c.result.sessions = (db.updateSession c.session.id c.set).sessions := by
  simp only [Mint.result, Db.addJob_sessions, Db.updateSession, Db.reserve_sessions,
    Db.putGrant_sessions]

/-- So does a Revocation. -/
lemma Unlink.result_sessions {event} (c : Unlink st event past db) :
    c.result.sessions = (db.updateSession c.session.id { state := .revoked }).sessions := by
  simp only [Unlink.result, Db.updateSession, Db.addJob_sessions, Db.reserve_sessions,
    Db.updateGrant_sessions]

/-- A change writes at most one session. -/
theorem Change.sessions (ch : Change st input past db db') : SessionEffect st input past db db' := by
  cases ch with
  | keep => exact .same rfl
  | register c => exact .insert rfl c rfl
  | request c => exact .update (.request c) rfl
  | refuse c h => exact .update (.refuse c h) rfl
  | approve c => exact .update (.approve c) c.result_sessions
  | revoke c => exact .update (.revoke c) c.result_sessions
  | deliver c => exact .update (.deliver c) rfl
  | claim due => exact .same (replay_jobUpdate db).1
  | mark _ _ _ _ => exact .same rfl

/-- Sessions with one id are one session. -/
lemma session_eq_of_id {r s : SessionRow} (hr : r ∈ db.sessions) (hs : s ∈ db.sessions)
    (e : r.id = s.id) : r = s :=
  Table.eq_of_clash (fun _ _ => SessionRow.Clash.symm) hr hs (.inl e)

/-- Sessions with one domain and session id are one session. -/
lemma session_eq_of_key {r s : SessionRow} (hr : r ∈ db.sessions) (hs : s ∈ db.sessions)
    (hd : r.domain = s.domain) (hi : r.sessionId = s.sessionId) : r = s :=
  Table.eq_of_clash (fun _ _ => SessionRow.Clash.symm) hr hs (.inr (.inl ⟨hd, hi⟩))

/-- A session before and after a change. -/
def Evolves (st : AppState) (input : Input) (past : List Act) (db : Db) (r r' : SessionRow) : Prop :=
  r' = r ∨ ∃ set, SessionWrite st input past db r set ∧ r' = set.on r

/-- A write leaves an assertion in the row. -/
lemma SessionSet.on_assertionJti {set : SessionSet} {r : SessionRow} (h : r.assertionJti ≠ none) :
    (set.on r).assertionJti ≠ none := by
  simp only [SessionSet.on]
  cases set.assertionJti with
  | none => exact h
  | some jti => exact Option.some_ne_none jti

/-- Every session stays, possibly written once. -/
lemma Change.session_stays (ch : Change st input past db db') {r : SessionRow} (h : r ∈ db.sessions) :
    ∃ r' ∈ db'.sessions, Evolves st input past db r r' := by
  cases ch.sessions with
  | same e => exact ⟨r, e ▸ h, .inl rfl⟩
  | insert i c e => exact ⟨r, e ▸ Table.mem_insert.mpr (.inl h), .inl rfl⟩
  | @update s set w e =>
    refine ⟨set.at s.id r, e ▸ (Db.mem_updateSession ..).mpr ⟨r, h, rfl⟩, ?_⟩
    by_cases hr : r.id = s.id
    · obtain rfl := session_eq_of_id h w.mem hr
      exact .inr ⟨set, w, if_pos rfl⟩
    · exact .inl (SessionSet.at_ne hr)

/-- Every session was there, possibly before it was written, or is the one of a registration. -/
lemma Change.session_origin (ch : Change st input past db db') {r' : SessionRow}
    (h : r' ∈ db'.sessions) : (∃ r ∈ db.sessions, Evolves st input past db r r') ∨
      ∃ request, input = .register request ∧ ∃ c : Registration st request past db, r' = c.row := by
  cases ch.sessions with
  | same e => exact .inl ⟨r', e ▸ h, .inl rfl⟩
  | @insert request i c e =>
    rw [e, Table.mem_insert] at h
    obtain h | ⟨rfl, _⟩ := h
    · exact .inl ⟨r', h, .inl rfl⟩
    · exact .inr ⟨request, i, c, rfl⟩
  | @update s set w e =>
    rw [e, Db.mem_updateSession] at h
    obtain ⟨r, hr, rfl⟩ := h
    refine .inl ⟨r, hr, ?_⟩
    by_cases hi : r.id = s.id
    · obtain rfl := session_eq_of_id hr w.mem hi
      exact .inr ⟨set, w, if_pos rfl⟩
    · exact .inl (SessionSet.at_ne hi)

/-- A session that is written is not there any more. -/
lemma not_mem_updateSession {row : SessionRow} {set : SessionSet} (h : row ∈ db.sessions) :
    row ∉ (db.updateSession row.id set).sessions := by
  intro mem
  have new : set.on row ∈ (db.updateSession row.id set).sessions :=
    (Db.mem_updateSession ..).mpr ⟨row, h, if_pos rfl⟩
  have same : row.version = (set.on row).version := by rw [← session_eq_of_id mem new rfl]
  exact absurd same (Nat.ne_of_lt (Nat.lt_succ_self _))

/-- The message of a Revocation tells what its handler commits. -/
lemma Change.of_revocation {event sessionId nonce sentAt x reason}
    (ch : Change st (.inbound event) past db db')
    (msg : event.message? st = some (.revocation sessionId nonce sentAt x reason)) :
    db' = db ∨ ∃ c : Unlink st event past db, db' = c.result := by
  cases ch with
  | keep => exact .inl rfl
  | request c => nomatch c.message.symm.trans msg
  | refuse c _ => nomatch c.message.symm.trans msg
  | approve c => nomatch c.message.symm.trans msg
  | revoke c => exact .inr ⟨c, rfl⟩

/-- A valid journal leaves a session or has updated it as it was. -/
lemma session_of_replay {es : List Entry} {r : SessionRow} (vl : journal.Valid db es)
    (h : r ∈ db.sessions) :
    r ∈ (journal.replay db es).sessions ∨ ∃ set, .sessionUpdate r set ∈ es := by
  induction es generalizing db with
  | nil => exact .inl h
  | cons e es ih =>
    obtain ⟨holds, vl⟩ := vl
    have next (h : r ∈ (e.apply db).sessions) :
        r ∈ (journal.replay db (e :: es)).sessions ∨ ∃ set, .sessionUpdate r set ∈ e :: es :=
      (ih vl h).imp id fun ⟨set, hs⟩ => ⟨set, List.mem_cons_of_mem _ hs⟩
    cases e with
    | sessionUpdate row set =>
      by_cases e : r.id = row.id
      · obtain rfl := session_eq_of_id h holds e
        exact .inr ⟨set, List.mem_cons_self⟩
      · exact next ((Db.mem_updateSession ..).mpr ⟨r, h, SessionSet.at_ne e⟩)
    | sessionInsert row => exact next (Table.mem_insert.mpr (.inl h))
    | sessionRead row => exact next h
    | replayInsert row => exact next h
    | grantRead row => exact next h
    | grantInsert row => exact next h
    | grantUpdate row set => exact next h
    | jobInsert row => exact next h
    | jobUpdate row set => exact next h

/-- The transaction of a call that writes a session has updated it. -/
lemma Step.updates {S S' : Sys} {t l a r set} (inv : Sys.Inv st S)
    (s : Step st S (.act t input l a) S') (eff : a.Effective input l)
    (w : SessionWrite st input past S.db r set)
    (h : S'.db.sessions = (S.db.updateSession r.id set).sessions) :
    ∃ set, .sessionUpdate r set ∈ l.log := by
  obtain ⟨k, seqs, task, o, e, _⟩ := s.act_inv
  have gone : r ∉ S'.db.sessions := by
    rw [h]
    exact not_mem_updateSession w.mem
  rw [e] at gone
  obtain ⟨op, log⟩ | ⟨_, au, op⟩ := eff
  · have writes : a.writes = l.log := by
      rw [Act.writes, op, log]
    rw [writes] at gone
    exact (session_of_replay (inv.valid task) w.mem).resolve_left gone
  · obtain ⟨op', resp, es⟩ := a
    cases op
    have writes : Act.writes ⟨.auto au, resp, es⟩ = es := rfl
    rw [writes] at gone
    have vl : journal.Valid S.db es := by
      cases o with
      | auto _ _ => exact au.run_valid ..
      | autoLost => exact au.run_valid ..
      | autoFault => trivial
    obtain ⟨set', hs⟩ := (session_of_replay vl w.mem).resolve_left gone
    obtain ⟨j, c, e⟩ := o.auto_log _ hs
    cases e

/-! ## Replay tables -/

/-- Reserved keys stay reserved. -/
lemma Change.replay_stays (ch : Change st input past db db') {r : ReplayRow} (h : r ∈ db.replay) :
    r ∈ db'.replay := by
  cases ch with
  | keep => exact h
  | register c => exact h
  | request c => simp [ChallengeIssue.result, h]
  | refuse c _ => simp [AcceptedConsent.refused, h]
  | approve c => simp [Mint.result, h]
  | revoke c => simp [Unlink.result, h]
  | deliver c => exact h
  | claim due => rwa [(replay_jobUpdate db).2.1]
  | mark _ _ _ _ => exact h

/-! ## Grants -/

/-- What a change does to the grants. -/
inductive GrantEffect (st : AppState) (input : Input) (past : List Act) (db db' : Db) : Prop where
  | same (h : db'.grants = db.grants)
  | put {event} (i : input = .inbound event) (c : Mint st event past db)
    (h : db'.grants = (db.putGrant c.grant c.grantId).grants)
  | revoke {event} (i : input = .inbound event) (c : Unlink st event past db)
    (h : db'.grants =
      (db.updateGrant c.grant.domain c.grant.subjectHash (.revoke c.revokedAt)).grants)

/-- What `putGrant` does to the grants does not depend on the other tables. -/
lemma putGrant_grants {db db' : Db} (e : db'.grants = db.grants) (new : NewGrant) (id : Nat) :
    (db'.putGrant new id).grants = (db.putGrant new id).grants := by
  simp only [Db.putGrant, e, Db.updateGrant]
  split <;> rfl

/-- A change puts one grant, revokes one, or leaves them. -/
theorem Change.grants (ch : Change st input past db db') : GrantEffect st input past db db' := by
  cases ch with
  | keep => exact .same rfl
  | register c => exact .same rfl
  | request c => exact .same rfl
  | refuse c h => exact .same rfl
  | approve c =>
    refine .put rfl c ?_
    simp only [Mint.result, Db.addJob_grants, Db.updateSession_grants, Db.reserve_grants]
    exact putGrant_grants (db.reserve_grants _) _ _
  | revoke c =>
    refine .revoke rfl c ?_
    simp only [Unlink.result, Db.updateSession_grants, Db.addJob_grants, Db.reserve_grants]
  | deliver c => exact .same rfl
  | claim due => exact .same (replay_jobUpdate db).2.2
  | mark _ _ _ _ => exact .same rfl

/-- Grants with one id are one grant. -/
lemma grant_eq_of_id {f g : GrantRow} (hf : f ∈ db.grants) (hg : g ∈ db.grants)
    (e : f.id = g.id) : f = g :=
  Table.eq_of_clash (fun _ _ => GrantRow.Clash.symm) hf hg (.inl e)

/-- Grants with one domain and subject are one grant. -/
lemma grant_eq_of_key {f g : GrantRow} (hf : f ∈ db.grants) (hg : g ∈ db.grants)
    (hd : f.domain = g.domain) (hs : f.subjectHash = g.subjectHash) : f = g :=
  Table.eq_of_clash (fun _ _ => GrantRow.Clash.symm) hf hg (.inr ⟨hd, hs⟩)

/-- A grant before and after a change: linked again by a Consent, or revoked. -/
inductive GrantEvolves (st : AppState) (input : Input) (past : List Act) (db : Db) (g : GrantRow) :
    GrantRow → Prop where
  | same : GrantEvolves st input past db g g
  | link {event} (i : input = .inbound event) (c : Mint st event past db)
    (hd : g.domain = c.session.domain) (hs : g.subjectHash = st.lookupHash c.sub) :
    GrantEvolves st input past db g ((GrantSet.relink c.sessionId (st.lookupHash c.nonce)).on g)
  | revoke {event} (i : input = .inbound event) (c : Unlink st event past db) (e : g = c.grant) :
    GrantEvolves st input past db g ((GrantSet.revoke c.revokedAt).on g)

/-- The grants after one was put. -/
lemma Db.mem_putGrant {new : NewGrant} {id : Nat} {g' : GrantRow}
    (h : g' ∈ (db.putGrant new id).grants) :
    (g' = new.row id ∧ ∀ g ∈ db.grants, ¬ (g.domain = new.domain ∧ g.subjectHash = new.subjectHash)) ∨
    ∃ g ∈ db.grants, g' = g ∨ (g.domain = new.domain ∧ g.subjectHash = new.subjectHash ∧
      g' = (GrantSet.relink new.sessionId new.nonceHash).on g) := by
  unfold Db.putGrant at h
  split at h
  · rename_i f e
    have acc := List.find?_some e
    simp only [Bool.and_eq_true, beq_iff_eq] at acc
    rw [Db.mem_updateGrant] at h
    obtain ⟨g, hg, rfl⟩ := h
    refine .inr ⟨g, hg, ?_⟩
    by_cases key : g.domain = f.domain ∧ g.subjectHash = f.subjectHash
    · exact .inr ⟨key.1.trans acc.1, key.2.trans acc.2, if_pos key⟩
    · exact .inl (GrantSet.at_ne key)
  · rename_i e
    obtain h | ⟨rfl, _⟩ := Table.mem_insert.mp h
    · exact .inr ⟨g', h, .inl rfl⟩
    · refine .inl ⟨rfl, fun g hg key => ?_⟩
      have n := List.find?_eq_none.mp e g hg
      simp [key.1, key.2] at n

/-- Every grant was there, possibly before it was linked or revoked, or is the one of a Consent. -/
lemma Change.grant_origin (ch : Change st input past db db') {g' : GrantRow} (h : g' ∈ db'.grants) :
    (∃ g ∈ db.grants, GrantEvolves st input past db g g') ∨
      ∃ event, input = .inbound event ∧ ∃ c : Mint st event past db, g' = c.grant.row c.grantId ∧
        ∀ g ∈ db.grants, ¬ (g.domain = g'.domain ∧ g.subjectHash = g'.subjectHash) := by
  cases ch.grants with
  | same e => exact .inl ⟨g', e ▸ h, .same⟩
  | @put event i c e =>
    rw [e] at h
    obtain ⟨rfl, none⟩ | ⟨g, hg, rfl | ⟨hd, hs, rfl⟩⟩ := Db.mem_putGrant h
    · exact .inr ⟨event, i, c, rfl, none⟩
    · exact .inl ⟨g', hg, .same⟩
    · exact .inl ⟨g, hg, .link i c hd hs⟩
  | revoke i c e =>
    rw [e, Db.mem_updateGrant] at h
    obtain ⟨g, hg, rfl⟩ := h
    refine .inl ⟨g, hg, ?_⟩
    by_cases key : g.domain = c.grant.domain ∧ g.subjectHash = c.grant.subjectHash
    · rw [GrantSet.at, if_pos key]
      exact .revoke i c (grant_eq_of_key hg c.grant_mem key.1 key.2)
    · rw [GrantSet.at_ne key]
      exact .same

/-- What no change touches about a grant. -/
def GrantRow.fixed (g : GrantRow) : GrantRow :=
  { g with sessionId := "", nonceHash := [], revokedAt := none }

@[simp] lemma GrantSet.on_fixed (c : GrantSet) (g : GrantRow) : (c.on g).fixed = g.fixed := by
  cases c <;> rfl

@[simp] lemma GrantSet.at_fixed (c : GrantSet) (d : String) (h : Bytes) (g : GrantRow) :
    (c.at d h g).fixed = g.fixed := by
  unfold GrantSet.at
  split
  · exact c.on_fixed g
  · rfl

/-- A grant that is linked again or revoked stays the grant of its subject. -/
lemma GrantEvolves.fixed {g g' : GrantRow} (ev : GrantEvolves st input past db g g') :
    g'.fixed = g.fixed := by
  cases ev with
  | same => rfl
  | link _ _ _ _ => rfl
  | revoke _ _ _ => rfl

/-- Every grant stays. -/
lemma Change.grant_stays (ch : Change st input past db db') {g : GrantRow} (h : g ∈ db.grants) :
    ∃ g' ∈ db'.grants, g'.fixed = g.fixed := by
  cases ch.grants with
  | same e => exact ⟨g, e ▸ h, rfl⟩
  | @put event i c e =>
    rw [e]
    unfold Db.putGrant
    split
    · exact ⟨_, (Db.mem_updateGrant ..).mpr ⟨g, h, rfl⟩, GrantSet.at_fixed ..⟩
    · exact ⟨g, Table.mem_insert.mpr (.inl h), rfl⟩
  | revoke i c e =>
    rw [e]
    exact ⟨_, (Db.mem_updateGrant ..).mpr ⟨g, h, rfl⟩, GrantSet.at_fixed ..⟩

/-! ## Jobs -/

/-- What no operation changes about a job. -/
def DeliveryJob.fixed (j : DeliveryJob) : DeliveryJob :=
  { j with attempts := 0, nextRetryAt := none, status := .pending }

/-- Jobs that differ in what operations change only agree on the rest. -/
lemma DeliveryJob.of_fixed {α : Type} {i j : DeliveryJob} (e : i.fixed = j.fixed) (f : DeliveryJob → α)
    (hf : ∀ j, f j.fixed = f j) : f i = f j := by
  rw [← hf i, e, hf j]

@[simp] lemma JobSet.on_fixed (c : JobSet) (j : DeliveryJob) : (c.on j).fixed = j.fixed := by
  cases c <;> rfl

@[simp] lemma JobSet.at_fixed (c : JobSet) (n : Nat) (j : DeliveryJob) : (c.at n j).fixed = j.fixed := by
  unfold JobSet.at
  split
  · exact c.on_fixed j
  · rfl

/-- Jobs that are only updated are the jobs that were there. -/
lemma job_of_updateJob {c : JobSet} {id : Nat} {j' : DeliveryJob}
    (h : j' ∈ (db.updateJob id c).jobs) : ∃ j ∈ db.jobs, j'.fixed = j.fixed := by
  rw [Db.mem_updateJob] at h
  obtain ⟨j, hj, rfl⟩ := h
  exact ⟨j, hj, c.at_fixed id j⟩

/-- The same, for several updates. -/
lemma job_of_replay {c : JobSet} {jobs : List DeliveryJob} {j' : DeliveryJob}
    (h : j' ∈ (journal.replay db (jobs.map (.jobUpdate · c))).jobs) :
    ∃ j ∈ db.jobs, j'.fixed = j.fixed := by
  induction jobs generalizing db with
  | nil => exact ⟨j', h, rfl⟩
  | cons i jobs ih =>
    obtain ⟨j, hj, e⟩ := ih h
    obtain ⟨k, hk, e'⟩ := job_of_updateJob hj
    exact ⟨k, hk, e.trans e'⟩

/-- The jobs after one was added. -/
lemma Db.mem_addJob {job : Option DeliveryJob} {j : DeliveryJob} :
    j ∈ (db.addJob job).jobs ↔ j ∈ db.jobs ∨ (job = some j ∧ ¬ db.jobs.Clashes j) := by
  cases job with
  | none => simp [Db.addJob]
  | some i =>
    simp only [Db.addJob, Table.mem_insert, Option.some.injEq]
    constructor
    · rintro (h | ⟨rfl, h⟩)
      · exact .inl h
      · exact .inr ⟨rfl, h⟩
    · rintro (h | ⟨rfl, h⟩)
      · exact .inl h
      · exact .inr ⟨rfl, h⟩

/-- The jobs after an approval. -/
lemma Mint.mem_result_jobs {event} (c : Mint st event past db) {j : DeliveryJob} :
    j ∈ c.result.jobs ↔ j ∈ db.jobs ∨ (c.job = some j ∧ ¬ db.jobs.Clashes j) := by
  simp [Mint.result, Db.mem_addJob]

/-- The jobs after a Revocation. -/
lemma Unlink.mem_result_jobs {event} (c : Unlink st event past db) {j : DeliveryJob} :
    j ∈ c.result.jobs ↔ j ∈ db.jobs ∨ (c.job = some j ∧ ¬ db.jobs.Clashes j) := by
  simp [Unlink.result, Db.mem_addJob]

/-- The job a Consent has queued. -/
lemma Mint.job_eq {event job} (c : Mint st event past db) (h : c.job = some job) :
    ∃ id now, job = c.newJob.row id now := by
  have q := c.queued
  rw [h] at q
  exact q.1

/-- The job a Revocation has queued. -/
lemma Unlink.job_eq {event job} (c : Unlink st event past db) (h : c.job = some job) :
    ∃ id now, job = c.newJob.row id now := by
  have q := c.queued
  rw [h] at q
  exact q.1

/-- Every job was there, or is the one a Consent or a Revocation has queued. -/
lemma Change.job_origin (ch : Change st input past db db') {j' : DeliveryJob} (h : j' ∈ db'.jobs) :
    (∃ j ∈ db.jobs, j'.fixed = j.fixed) ∨
    (∃ event, input = .inbound event ∧ ∃ c : Mint st event past db, c.job = some j' ∧ db' = c.result) ∨
    ∃ event, input = .inbound event ∧ ∃ c : Unlink st event past db, c.job = some j' ∧ db' = c.result := by
  cases ch with
  | keep => exact .inl ⟨j', h, rfl⟩
  | register c => exact .inl ⟨j', h, rfl⟩
  | request c => exact .inl ⟨j', h, rfl⟩
  | refuse c _ => exact .inl ⟨j', h, rfl⟩
  | approve c =>
    obtain h | ⟨e, _⟩ := c.mem_result_jobs.mp h
    · exact .inl ⟨j', h, rfl⟩
    · exact .inr (.inl ⟨_, rfl, c, e, rfl⟩)
  | revoke c =>
    obtain h | ⟨e, _⟩ := c.mem_result_jobs.mp h
    · exact .inl ⟨j', h, rfl⟩
    · exact .inr (.inr ⟨_, rfl, c, e, rfl⟩)
  | deliver c => exact .inl ⟨j', h, rfl⟩
  | claim due => exact .inl (job_of_replay h)
  | mark _ _ _ _ => exact .inl (job_of_updateJob h)

/-- Every job stays. -/
lemma Change.job_stays (ch : Change st input past db db') {j : DeliveryJob} (h : j ∈ db.jobs) :
    ∃ j' ∈ db'.jobs, j'.fixed = j.fixed := by
  have updated {db : Db} {j : DeliveryJob} (h : j ∈ db.jobs) (id : Nat) (c : JobSet) :
      ∃ j' ∈ (db.updateJob id c).jobs, j'.fixed = j.fixed :=
    ⟨c.at id j, (Db.mem_updateJob ..).mpr ⟨j, h, rfl⟩, c.at_fixed id j⟩
  cases ch with
  | keep => exact ⟨j, h, rfl⟩
  | register c => exact ⟨j, h, rfl⟩
  | request c => exact ⟨j, h, rfl⟩
  | refuse c _ => exact ⟨j, h, rfl⟩
  | approve c => exact ⟨j, c.mem_result_jobs.mpr (.inl h), rfl⟩
  | revoke c => exact ⟨j, c.mem_result_jobs.mpr (.inl h), rfl⟩
  | deliver c => exact ⟨j, h, rfl⟩
  | @claim past db now jobs due =>
    clear due
    induction jobs generalizing db j with
    | nil => exact ⟨j, h, rfl⟩
    | cons i jobs ih =>
      obtain ⟨j₁, h₁, e₁⟩ := updated h i.id (.claim (now + retryInterval))
      obtain ⟨j₂, h₂, e₂⟩ := ih h₁
      exact ⟨j₂, h₂, e₂.trans e₁⟩
  | mark _ _ _ _ => exact updated h _ _

/-- Every job stays to the end. -/
lemma Steps.job_stays {ls S S'} (s : Steps st S ls S') (inv : Sys.Inv st S) {i : DeliveryJob}
    (h : ∃ j ∈ S.db.jobs, j.fixed = i.fixed) : ∃ j ∈ S'.db.jobs, j.fixed = i.fixed := by
  refine s.keep_db (P := fun db => ∃ j ∈ db.jobs, j.fixed = i.fixed) inv (fun ch ⟨j, hj, e⟩ => ?_) h
  obtain ⟨j', hj', e'⟩ := ch.job_stays hj
  exact ⟨j', hj', e'.trans e⟩

/-- A claimed job is a job, up to its attempts and its status. -/
def ClaimsAreJobs (past : List Act) (db : Db) : Prop :=
  ∀ job, Claimed past job → ∃ j ∈ db.jobs, j.fixed = job.fixed

/-- What a task has claimed is in the table. -/
lemma Run.claimed {ls S} (r : Run st ls S) {t task} (h : S.tasks t = some task) :
    ClaimsAreJobs task.loc.past S.db := by
  rintro job ⟨jobs, es, mem, hj⟩
  obtain ⟨l, label⟩ := r.past h mem
  obtain ⟨pre, post, rfl⟩ := List.append_of_mem label
  obtain ⟨S₁, S₂, r₁, s₁, s₂⟩ := r.at rfl
  obtain ⟨_, _, _, o, _, _⟩ := s₁.act_inv
  obtain ⟨now, due⟩ := o.claim_inv
  obtain ⟨i, hi, _, rfl⟩ := due job hj
  exact (Steps.cons s₁ s₂).job_stays r₁.inv ⟨i, hi, rfl⟩

/-- What holds of the empty database, and every change of a call that has claimed jobs keeps, holds in
every run. -/
lemma Run.keep_claimed {P : Db → Prop} {ls S} (r : Run st ls S) (init : P Db.empty)
    (h : ∀ {input past db db'}, Change st input past db db' → ClaimsAreJobs past db → P db → P db') :
    P S.db := by
  induction r with
  | init => exact init
  | step r s ih =>
    obtain e | ⟨t, input, l, a, rfl, _, ch⟩ := r.inv.step_change s
    · rwa [e]
    · obtain ⟨_, _, task, _, _, _⟩ := s.act_inv
      exact h ch (r.claimed task) ih

/-! ## Counting jobs -/

/-- The number of jobs with a property. -/
def Db.countJobs (db : Db) (p : DeliveryJob → Bool) : Nat := db.jobs.rows.countP p

section Count
variable {p : DeliveryJob → Bool}

/-- The count depends on the jobs only. -/
lemma countJobs_congr (e : db'.jobs = db.jobs) : db'.countJobs p = db.countJobs p := by
  rw [Db.countJobs, e, Db.countJobs]

/-- Updates do not change a count of what they leave. -/
lemma countJobs_updateJob (hp : ∀ j, p j.fixed = p j) (id : Nat) (c : JobSet) :
    (db.updateJob id c).countJobs p = db.countJobs p := by
  have same (j : DeliveryJob) : (p ∘ c.at id) j = p j := by
    rw [Function.comp_apply, ← hp, c.at_fixed, hp]
  have rows : (db.updateJob id c).jobs.rows = db.jobs.rows.map (c.at id) := rfl
  rw [Db.countJobs, rows, List.countP_map, funext same, Db.countJobs]

/-- Updates of what is not fixed do not change the count. -/
lemma countJobs_replay (hp : ∀ j, p j.fixed = p j) (c : JobSet) (jobs : List DeliveryJob) :
    (journal.replay db (jobs.map (.jobUpdate · c))).countJobs p = db.countJobs p := by
  induction jobs generalizing db with
  | nil => rfl
  | cons j jobs ih =>
    have step : (db.updateJob j.id c).countJobs p = db.countJobs p := countJobs_updateJob hp j.id c
    exact ih.trans step

/-- A job that was added is counted. -/
lemma countJobs_addJob {j : DeliveryJob} (h : ¬ db.jobs.Clashes j) :
    (db.addJob (some j)).countJobs p = db.countJobs p + if p j then 1 else 0 := by
  have rows : (db.addJob (some j)).jobs.rows = db.jobs.rows ++ [j] := Table.rows_insert h
  rw [Db.countJobs, rows, List.countP_append, List.countP_singleton, Db.countJobs]

/-- A job that was queued is counted. -/
lemma countJobs_queued {new : NewJob} {job : Option DeliveryJob} (q : Queued past db new job)
    (e : db'.jobs = db.jobs) :
    (db'.addJob job).countJobs p = db.countJobs p + job.toList.countP p := by
  cases job with
  | none => exact countJobs_congr e
  | some j =>
    rw [countJobs_addJob (e ▸ q.2), countJobs_congr e]
    exact congrArg _ List.countP_singleton.symm

/-- An approval adds its job to the count. -/
lemma Mint.countJobs {event} (c : Mint st event past db) :
    c.result.countJobs p = db.countJobs p + c.job.toList.countP p :=
  countJobs_queued c.queued (by simp)

/-- So does a Revocation. -/
lemma Unlink.countJobs {event} (c : Unlink st event past db) :
    c.result.countJobs p = db.countJobs p + c.job.toList.countP p := by
  have jobs : c.result.jobs = (db.addJob c.job).jobs := by
    rw [Unlink.result]
    cases c.job with
    | none => rfl
    | some _ => rfl
  rw [countJobs_congr jobs]
  exact countJobs_queued c.queued rfl

end Count

end WebLoginRelay
