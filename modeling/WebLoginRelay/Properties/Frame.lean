import WebLoginRelay.Properties.Binding
import WebLoginRelay.Properties.Unlinking

/-!
# Sessions of other users

A Request writes sessions that are not bound to anybody, and a Consent only those bound to its sender.
A Revocation is checked against the owner of the grant it names, not against the user the session is
bound to: a sender who owns an active grant at the site marks any of its sessions as revoked.
-/

namespace WebLoginRelay
open Text Txn

variable {st : AppState} {past : List Act} {db db' : Db} {event : InboundEvent} {ls ls' : List Label}
  {S S' : Sys}

/-- The stored request sender of the session is somebody else than `v`. -/
def BoundToOther (st : AppState) (v : String) (row : SessionRow) : Prop :=
  ∃ u, st.storedText row.requestSenderCiphertext = some u ∧ u ≠ v

/-- The event is a Revocation that names a session bound to another user than its sender, who owns an
active grant of the account it names at the site of the session. -/
def RevokesForeign (st : AppState) (db : Db) (event : InboundEvent) : Prop :=
  ∃ row, RevokesThrough st db event row ∧ BoundToOther st event.sender row

/-- Every session that is bound to another user than `v` is still there. -/
def KeepsForeign (st : AppState) (v : String) (db db' : Db) : Prop :=
  ∀ row ∈ db.sessions, BoundToOther st v row → row ∈ db'.sessions

/-- A session written for an event is bound to nobody or to its sender, unless it is revoked. -/
lemma SessionWrite.not_foreign {row set} (w : SessionWrite st (.inbound event) past db row set)
    (bound : BoundTogether db) (other : BoundToOther st event.sender row) :
    RevokesForeign st db event := by
  obtain ⟨u, hu, ne⟩ := other
  cases w with
  | request c =>
    have none : c.session.requestSenderCiphertext = none :=
      congrArg Binding.requestSenderCiphertext (bound c.session c.mem c.unbound)
    rw [none] at hu
    nomatch hu
  | refuse c _ => exact absurd (Option.some.inj (hu.symm.trans c.sender_eq)) ne
  | approve c => exact absurd (Option.some.inj (hu.symm.trans c.sender_eq)) ne
  | revoke c => exact ⟨c.session, c.revokesThrough, u, hu, ne⟩

/-- A step of a call on an event that revokes no foreign session keeps them all. -/
lemma Step.keepsForeign {t l a} (r : Run st ls S) (s : Step st S (.act t (.inbound event) l a) S')
    (own : ¬ RevokesForeign st S.db event) : KeepsForeign st event.sender S.db S'.db := by
  intro row h other
  obtain e | ⟨_, _, _, _, e, _, ch⟩ := r.inv.step_change s
  · rwa [e]
  cases e
  cases ch.sessions with
  | same e => rwa [e]
  | insert i c e => nomatch i
  | @update row' set w e =>
    by_cases hi : row.id = row'.id
    · obtain rfl := session_eq_of_id h w.mem hi
      exact absurd (w.not_foreign r.boundTogether other) own
    · rw [e]
      exact (Db.mem_updateSession ..).mpr ⟨row, h, SessionSet.at_ne hi⟩

/-- A call that is alone and succeeds keeps the foreign sessions exactly if its event revokes none. -/
lemma Env.call_keepsForeign {env : Env} {n : Nat} {result : HandleResult} (r : Run st ls S) (q : S.Quiet n)
    (wf : (Input.inbound event).WellFormed)
    (ok : (env.call st (.inbound event) S.db S.seqs).result = .handled (.ok result)) :
    KeepsForeign st event.sender S.db (env.call st (.inbound event) S.db S.seqs).db ↔
      ¬ RevokesForeign st S.db event := by
  by_cases revocation : ∃ sessionId nonce sentAt x reason,
      event.message? st = some (.revocation sessionId nonce sentAt x reason)
  · obtain ⟨_, _, _, _, _, msg⟩ := revocation
    cases env.call_revocation_revoked msg ok with
    | ignored same none =>
      rw [same]
      exact iff_of_true (fun row h _ => h) fun ⟨row, named, _⟩ => none row named
    | @sent row set named only written =>
      constructor
      · rintro keeps ⟨row', named', other⟩
        obtain rfl := only row' named'
        obtain ⟨_, _, _, _, _, _, mem, _⟩ := named
        have stays := keeps row' mem other
        rw [← Table.mem_rows, written] at stays
        exact not_mem_updateSession mem stays
      · intro own row' h other
        rw [← Table.mem_rows, written]
        refine (Db.mem_updateSession ..).mpr ⟨row', h, SessionSet.at_ne fun hi => own ⟨row, named, ?_⟩⟩
        obtain ⟨_, _, _, _, _, _, mem, _⟩ := named
        exact session_eq_of_id h mem hi ▸ other
  · have never (db : Db) : ¬ RevokesForeign st db event := by
      rintro ⟨row, ⟨sessionId, nonce, sentAt, x, reason, msg, _⟩, _⟩
      exact revocation ⟨sessionId, nonce, sentAt, x, reason, msg⟩
    refine iff_of_true (env.call_keep q wf (fun row h _ => h) fun s keeps s' row h other => ?_) (never S.db)
    exact s'.keepsForeign (r.append s) (never _) row (keeps row h other) other

/-- No step of a call on an event writes a session bound to another user than its sender, unless the
event is a Revocation that names one and an active grant its sender owns. Such a Revocation, if it takes
effect and there is no other session it may mean, writes this session, and a call that is alone and
succeeds keeps the foreign sessions exactly if its event is not one. -/
theorem event_leaves_foreign_sessions (r : Run st ls S) :
    (∀ t event l a S', Step st S (.act t (.inbound event) l a) S' → ¬ RevokesForeign st S.db event →
      KeepsForeign st event.sender S.db S'.db) ∧
    (∀ t event l a S', Step st S (.act t (.inbound event) l a) S' → S'.db ≠ S.db →
      ∀ row, RevokesThrough st S.db event row → (∀ sessionId nonce sentAt x reason,
        event.message? st = some (.revocation sessionId nonce sentAt x reason) → ∀ row' ∈ S.db.sessions,
        row'.sessionId = sessionId → row'.nonceHash = st.lookupHash nonce → row' = row) →
      row ∉ S'.db.sessions) ∧
    ∀ n event, S.Quiet n → (Input.inbound event).WellFormed → ∀ (env : Env) result,
      (env.call st (.inbound event) S.db S.seqs).result = .handled (.ok result) →
      (KeepsForeign st event.sender S.db (env.call st (.inbound event) S.db S.seqs).db ↔
        ¬ RevokesForeign st S.db event) := by
  refine ⟨fun t event l a S' s own => s.keepsForeign r own, fun t event l a S' s effect row named only => ?_,
    fun n event q wf env result ok => Env.call_keepsForeign r q wf ok⟩
  obtain ⟨sessionId, nonce, sentAt, x, reason, msg, h, _⟩ := named
  obtain e | ⟨_, _, _, _, e, _, ch⟩ := r.inv.step_change s
  · exact absurd e effect
  cases e
  obtain e | ⟨c, e⟩ := ch.of_revocation msg
  · exact absurd e effect
  obtain ⟨hs, hn⟩ := SessionFilter.accepts_sessionAndNonce.mp c.found
  obtain rfl := only _ _ _ _ _ c.message c.session c.mem hs hn
  rw [e, ← Table.mem_rows, c.result_sessions]
  exact not_mem_updateSession h

namespace Sample

/-- A login of Bob at the same site. -/
def bob : Login := ⟨"a.io", "session-of-bob-1", "nonce-of-bob-001", "@b:h", 30⟩

/-- The login of Bob is valid. -/
lemma bob_valid : bob.Valid where
  domain := alice_valid.domain
  sessionId := by decide +kernel
  nonce := by decide +kernel
  user := by decide
  room := by decide +kernel

/-- The login of Bob, while Alice has her challenge. -/
def bobCalls : bob.Calls requested.db requested.seqs 32 "$consent-bob" :=
  ⟨_, _, _, rfl, rfl, rfl, by decide +kernel⟩

end Sample

/-- Bob's Request leaves the session of Alice alone. -/
theorem event_leaves_foreign_sessions_bob : ∃ ls S l a S', Run Sample.relay ls S ∧
    Step Sample.relay S (.act 3 (.inbound Sample.bob.request) l a) S' ∧ S'.db ≠ S.db ∧
    (∃ row ∈ S.db.sessions, BoundToOther Sample.relay "@b:h" row) ∧
    KeepsForeign Sample.relay "@b:h" S.db S'.db := by
  have facts : Sample.bobCalls.registered.db.replay.rows.length = 2 ∧
      Sample.bobCalls.requested.db.replay.rows.length = 4 ∧
      ∃ row ∈ Sample.bobCalls.registered.db.sessions.rows,
        Sample.relay.storedText row.requestSenderCiphertext = some "@a:h" := by
    decide +kernel
  obtain ⟨count, count', row, mem, sender⟩ := facts
  have r := Sample.bob_valid.registers (Sample.reaches_requested (C := fun _ _ => True)
    (fun _ _ _ => trivial) (fun _ _ _ _ _ => trivial) fun _ _ _ _ => trivial)
    Sample.bobCalls.register_eq Sample.bobCalls.closed.1 (fun _ => trivial) fun _ _ _ => trivial
  obtain ⟨ls, S₁, l, a, S₂, _, _, r₁, ⟨before, there⟩, s, after, _⟩ :=
    r.turn (P := fun db => db.replay.rows.length = 2 ∧ row ∈ db.sessions)
      (Sample.bob_valid.call_request Sample.bobCalls.request_eq) rfl Sample.bobCalls.closed.2.1
      ⟨count, mem⟩ fun h => by rw [count'] at h; cases h.1
  have bound : BoundToOther Sample.relay "@b:h" row := ⟨"@a:h", sender, by decide⟩
  have own : ¬ RevokesForeign Sample.relay S₁.db Sample.bob.request := by
    rintro ⟨_, ⟨_, _, _, _, _, msg, _⟩, _⟩
    rw [Sample.bob_valid.request] at msg
    cases msg
  exact ⟨ls, S₁, l, a, S₂, r₁, s, fun e => after (e ▸ ⟨before, there⟩), ⟨row, there, bound⟩,
    (event_leaves_foreign_sessions r₁).1 _ _ _ _ _ s own⟩

/-- Bob's Revocation, with the session of Alice. -/
def revokedByBob : { F : Env.Final Result // Sample.alice.revoked Sample.bobCalls.consented.db
      Sample.bobCalls.consented.seqs 33 "$bob" "@b:h" Sample.bob.subject = F ∧ F.loc.log = [] ∧
    ∃ row ∈ Sample.bobCalls.consented.db.sessions.rows,
      Sample.relay.storedText row.requestSenderCiphertext = some "@a:h" ∧
      row ∉ F.db.sessions.rows } :=
  ⟨_, rfl, by decide +kernel⟩

/-- Bob can revoke his own grant through the session of Alice, who is still logging in. -/
theorem revocation_writes_foreign_session : ¬ ∀ ls S t event l a S', Run Sample.relay ls S →
    Step Sample.relay S (.act t (.inbound event) l a) S' → ∀ row ∈ S.db.sessions,
      BoundToOther Sample.relay event.sender row → row ∈ S'.db.sessions := by
  intro claim
  obtain ⟨X, hX, closed, row, mem, sender, gone⟩ := revokedByBob
  have read : (Sample.alice.revocation "$bob" "@b:h" Sample.bob.subject).message? Sample.relay =
      some (Sample.alice.revocationMessage Sample.bob.subject) :=
    Sample.alice_valid.revocation "$bob" Sample.bob_valid.user Sample.bob_valid.room (by decide +kernel)
  obtain ⟨_, linked⟩ := Sample.bob_valid.logsIn Sample.bobCalls (Sample.reaches_requested
    (C := fun _ _ => True) (fun _ _ _ => trivial) (fun _ _ _ _ _ => trivial) fun _ _ _ _ => trivial)
  obtain ⟨ls, S₁, l, a, S₂, _, _, r, before, s, after, _⟩ :=
    linked.turn (P := fun db => row ∈ db.sessions) (F := X) (Sample.Login.call_revocation read hX) rfl
      closed mem gone
  exact after (claim ls S₁ _ _ l a S₂ r s row before ⟨"@a:h", sender, by decide⟩)

end WebLoginRelay
