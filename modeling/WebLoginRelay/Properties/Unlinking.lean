import WebLoginRelay.System.Alone
import WebLoginRelay.System.Tables

/-!
# What a Revocation names

A Revocation names a session by its id and nonce, and an account at the site of that session. It takes
effect if the account has an active grant that was made for the sender. A call on a Revocation that is
alone and succeeds marks the session as revoked exactly in this case, and otherwise leaves the tables as
they are.
-/

namespace WebLoginRelay
open Text Txn

variable {st : AppState} {past : List Act} {db : Db} {event : InboundEvent} {row : SessionRow}

/-- The event is a Revocation that names this session, and the sender owns an active grant of the
account it names at the site of the session. -/
def RevokesThrough (st : AppState) (db : Db) (event : InboundEvent) (row : SessionRow) : Prop :=
  ∃ sessionId nonce sentAt x reason,
    event.message? st = some (.revocation sessionId nonce sentAt x reason) ∧
    row ∈ db.sessions ∧ row.sessionId = sessionId ∧ row.nonceHash = st.lookupHash nonce ∧
    ∃ g ∈ db.grants, g.domain = row.domain ∧ g.subjectHash = st.lookupHash x ∧
      st.decryptText g.matrixUserCiphertext = .ok event.sender ∧ g.revokedAt = none

/-- Only a Revocation revokes. -/
lemma RevokesThrough.of_message {sessionId nonce sentAt x reason}
    (h : RevokesThrough st db event row)
    (msg : event.message? st = some (.revocation sessionId nonce sentAt x reason)) :
    row ∈ db.sessions ∧ (SessionFilter.sessionAndNonce sessionId (st.lookupHash nonce)).accepts row ∧
    ∃ g ∈ db.grants, (g.domain == row.domain && g.subjectHash == st.lookupHash x) ∧
      st.decryptText g.matrixUserCiphertext = .ok event.sender ∧ g.revokedAt = none := by
  obtain ⟨_, _, _, _, _, msg', mem, rfl, hn, g, hg, hd, hs, owner, active⟩ := h
  cases msg.symm.trans msg'
  exact ⟨mem, SessionFilter.accepts_sessionAndNonce.mpr ⟨rfl, hn⟩, g, hg,
    Bool.and_eq_true_iff.mpr ⟨beq_iff_eq.mpr hd, beq_iff_eq.mpr hs⟩, owner, active⟩

/-- What a Revocation commits is such a case. -/
lemma Unlink.revokesThrough (c : Unlink st event past db) : RevokesThrough st db event c.session := by
  obtain ⟨hs, hn⟩ := SessionFilter.accepts_sessionAndNonce.mp c.found
  exact ⟨c.sessionId, c.nonce, c.sentAt, c.siteAccountId, c.reason, c.message, c.mem, hs, hn, c.grant,
    c.grant_mem, c.grant_domain, c.grant_subject, c.owner, c.active⟩

/-- What a call on a Revocation that is alone and succeeds makes of the database. -/
inductive Revoked (st : AppState) (db : Db) (event : InboundEvent) (db' : Db) : Prop where
  | ignored (same : db' = db) (none : ∀ row, ¬ RevokesThrough st db event row)
  | sent {row : SessionRow} {set : SessionSet} (named : RevokesThrough st db event row)
    (only : ∀ row', RevokesThrough st db event row' → row' = row)
    (written : db'.sessions = (db.updateSession row.id set).sessions)

section Handler
variable {env : Env} {sessionId nonce x : String} {sentAt : Int64} {reason : Option String}
  {p : List Act} {τ : DateTime}
open Relay

/-- The session of an update after entries that write none. -/
lemma replay_update {es : List Entry} {set : SessionSet} (clean : ∀ e ∈ es, e.WritesSession = false) :
    (journal.replay db (es ++ [.sessionUpdate row set])).sessions = (db.updateSession row.id set).sessions := by
  have before : (journal.replay db es).sessions = db.sessions := sessions_of_replay clean
  rw [journal.replay_append]
  show ((journal.replay db es).updateSession row.id set).sessions = _
  simp only [Db.updateSession, before]

/-- The handler, once it has found the only session that is named. -/
lemma yields_revocationOn (msg : event.message? st = some (.revocation sessionId nonce sentAt x reason))
    (found : db.sessions.rows.filter
      (SessionFilter.sessionAndNonce sessionId (st.lookupHash nonce)).accepts = [row]) :
    Yields env (revocationOn st event sessionId nonce x reason row)
      (fun _ db' _ => Revoked st db event db') db ⟨p, some τ, [.sessionRead row]⟩ := by
  obtain ⟨mem, accepts⟩ := List.mem_filter.mp (found ▸ List.mem_singleton_self row)
  have only (row' : SessionRow) (h : RevokesThrough st db event row') : row' = row := by
    obtain ⟨mem', accepts', _⟩ := h.of_message msg
    have here := List.mem_filter.mpr ⟨mem', accepts'⟩
    rw [found] at here
    exact List.mem_singleton.mp here
  refine yields_bind (yields_findActiveGrant (fun p' empty => ?_) fun g p' single => ?_)
  · -- the account has no grant at the site
    refine yields_pure (.ignored rfl fun row' h => ?_)
    obtain rfl := only row' h
    obtain ⟨_, _, g, hg, key, _⟩ := h.of_message msg
    exact List.not_mem_nil (empty ▸ List.mem_filter.mpr ⟨hg, key⟩)
  obtain ⟨hg, key⟩ := List.mem_filter.mp (single ▸ List.mem_singleton_self g)
  have grant (row' : SessionRow) (h : RevokesThrough st db event row') :
      st.decryptText g.matrixUserCiphertext = .ok event.sender ∧ g.revokedAt = none := by
    obtain rfl := only row' h
    obtain ⟨_, _, g', hg', key', owner, active⟩ := h.of_message msg
    have here : g' ∈ [g] := single ▸ List.mem_filter.mpr ⟨hg', key'⟩
    exact List.mem_singleton.mp here ▸ ⟨owner, active⟩
  refine yields_bind (yields_liftResult fun storedUser stored => ?_)
  split
  · rename_i other
    refine yields_pure (.ignored rfl fun row' h => ?_)
    cases stored.symm.trans (grant row' h).1
    exact other rfl
  rename_i owner
  rw [not_not] at owner
  subst owner
  split
  · -- the commit of a transaction that has only read
    rename_i revoked
    refine yields_bind (yields_commit fun _ => yields_pure (.ignored ?_ fun row' h => ?_))
    · exact replay_of_reads (by simp [Entry.IsRead])
    · rw [(grant row' h).2] at revoked
      cases revoked
  rename_i active
  have named : RevokesThrough st db event row := by
    simp only [Bool.and_eq_true, beq_iff_eq] at key
    obtain ⟨hs, hn⟩ := SessionFilter.accepts_sessionAndNonce.mp accepts
    exact ⟨sessionId, nonce, sentAt, x, reason, msg, mem, hs, hn, g, hg, key.1, key.2, stored, by simpa using active⟩
  refine yields_bind (yields_bind (yields_plain (fun _ => nofun) (fun _ _ _ => nofun) fun _ _ es₁ c₁ => yields_pure ?_))
  refine yields_bind (yields_fillBytes fun bytes _ => ?_)
  refine yields_bind (yields_nowMs fun reservedAt _ => ?_)
  refine yields_bind (yields_liftResult fun expiresAt _ => ?_)
  refine yields_bind (yields_reserve fun _ es₂ c₂ => ?_)
  refine yields_bind (yields_nowMs fun iat _ => ?_)
  refine yields_bind (yields_liftResult fun revocation _ => ?_)
  refine yields_bind (yields_encrypt fun payloadCt _ => ?_)
  refine yields_bind (yields_bind (yields_plain (fun _ => nofun) (fun _ _ _ => nofun) fun _ _ es₃ c₃ => yields_pure ?_))
  have clean : ∀ e ∈ [.sessionRead row] ++ [.grantRead g] ++ es₁ ++ es₂ ++ es₃, e.WritesSession = false := by
    simp only [List.forall_mem_append]
    exact ⟨⟨⟨⟨by simp [Entry.WritesSession], by simp [Entry.WritesSession]⟩, c₁⟩, c₂⟩, c₃⟩
  have there : row ∈ (journal.replay db ([.sessionRead row] ++ [.grantRead g] ++ es₁ ++ es₂ ++ es₃)).sessions := by
    rw [sessions_of_replay clean]
    exact mem
  refine yields_bind (yields_casUpdate there fun _ => ?_)
  exact yields_bind (yields_commit fun _ => yields_pure (.sent named only (replay_update clean)))

/-- A call on a Revocation that is alone and succeeds. -/
lemma Env.call_revocation_revoked {seqs : Seqs} {result : HandleResult}
    (msg : event.message? st = some (.revocation sessionId nonce sentAt x reason))
    (ok : (env.call st (.inbound event) db seqs).result = .handled (.ok result)) :
    Revoked st db event (env.call st (.inbound event) db seqs).db := by
  have handler : Yields env (processRevocation st event sessionId nonce x reason)
      (fun _ db' _ => Revoked st db event db') db {} := by
    refine yields_inTx fun τ p' => yields_bind (yields_getBySessionAndNonce (fun _ empty => ?_) fun row p' single => ?_)
    · refine yields_pure (.ignored rfl fun row h => ?_)
      obtain ⟨mem, accepts, _⟩ := h.of_message msg
      exact List.not_mem_nil (empty ▸ List.mem_filter.mpr ⟨mem, accepts⟩)
    · exact yields_revocationOn msg single
  have run : env.call st (.inbound event) db seqs = env.run
      (Result.handled <$> (processRevocation st event sessionId nonce x reason).run) db seqs {} := by
    rw [Env.call, Input.prog_revocation msg]
  rw [run, map_eq_pure_bind, Env.run_bind] at ok ⊢
  exact handler seqs result (Result.handled.inj ok)

end Handler

end WebLoginRelay
