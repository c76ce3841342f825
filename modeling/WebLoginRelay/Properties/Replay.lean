import WebLoginRelay.Properties.Revocation
import WebLoginRelay.Properties.Unlinking

/-!
# Replayed Matrix events

An event can be delivered again at any later time. A Request and a Consent reserve their event id in
the transaction that makes their effect, so a second one fails there. A Revocation reserves nothing:
it is harmless only while its sender owns no active grant of the account it names, and a new login makes
the grant active again.
-/

namespace WebLoginRelay
open Text Txn

variable {st : AppState} {input : Input} {past : List Act} {db db' : Db}

/-- The same Matrix event; what the relay knows about the room may be different. -/
structure InboundEvent.SameAs (event event' : InboundEvent) : Prop where
  eventId : event'.eventId = event.eventId
  sender : event'.sender = event.sender
  roomId : event'.roomId = event.roomId
  body : event'.body = event.body

/-- One event has one message. -/
lemma InboundEvent.SameAs.message_eq {event event' : InboundEvent} (same : event.SameAs event')
    {m m' : MatrixMessage} (h : event.message? st = some m) (h' : event'.message? st = some m') :
    m' = m := by
  have d := (InboundEvent.message?_some h).2.2
  have d' := (InboundEvent.message?_some h').2.2
  rw [same.body, d] at d'
  exact (Except.ok.inj d').symm

/-- The event is a Revocation, and its sender owns an active grant of the account it names. -/
def RevokesActive (st : AppState) (db : Db) (event : InboundEvent) : Prop :=
  ∃ row, RevokesThrough st db event row

/-- What the effect of an event leaves behind. -/
inductive Spent (st : AppState) (event : InboundEvent) (db : Db) : Prop where
  | request {sessionId nonce sentAt domain}
    (message : event.message? st = some (.request sessionId nonce sentAt domain))
    (reserved : ∃ row ∈ db.replay, row.key = .requestEventId event.eventId)
  | consent {sessionId nonce sentAt approved displayName challenge keyId signature}
    (message : event.message? st =
      some (.consent sessionId nonce sentAt approved displayName challenge keyId signature))
    (reserved : ∃ row ∈ db.replay, row.key = .consentEventId event.eventId)
  | revocation {sessionId nonce sentAt x reason}
    (message : event.message? st = some (.revocation sessionId nonce sentAt x reason))

/-- A key that was free is reserved by the insert of its row. -/
lemma reserved_insert {row : ReplayRow} {t : Table ReplayRow ReplayRow.Clash} (free : ¬ t.Clashes row) :
    ∃ r ∈ t.insert row, r.key = row.key := ⟨row, Table.mem_insert.mpr (.inr ⟨rfl, free⟩), rfl⟩

/-- An event with an effect is spent. -/
lemma Change.spent {event} (ch : Change st (.inbound event) past db db') (effect : db' ≠ db) :
    Spent st event db' := by
  cases ch with
  | keep => exact absurd rfl effect
  | request c =>
    obtain ⟨row, hr, hk⟩ := reserved_insert c.newEvent
    exact .request c.message ⟨row, Table.mem_insert.mpr (.inl hr), hk⟩
  | refuse c _ => exact .consent c.message (reserved_insert c.newEvent)
  | approve c =>
    obtain ⟨row, hr, hk⟩ := reserved_insert c.newEvent
    refine .consent c.message ⟨row, ?_, hk⟩
    simp only [Mint.result, Db.addJob_replay, Db.updateSession_replay, Db.reserve_replay,
      Db.putGrant_replay]
    exact Table.mem_insert.mpr (.inl hr)
  | revoke c => exact .revocation c.message

/-- A spent event stays spent. -/
lemma Spent.stays {event} (ch : Change st input past db db') (h : Spent st event db) :
    Spent st event db' := by
  cases h with
  | request message reserved =>
    obtain ⟨row, hr, hk⟩ := reserved
    exact .request message ⟨row, ch.replay_stays hr, hk⟩
  | consent message reserved =>
    obtain ⟨row, hr, hk⟩ := reserved
    exact .consent message ⟨row, ch.replay_stays hr, hk⟩
  | revocation message => exact .revocation message

/-- A spent event changes nothing, unless it revokes an active grant. -/
lemma Spent.unchanged {event event'} (h : Spent st event db) (same : event.SameAs event')
    (ch : Change st (.inbound event') past db db') (inactive : ¬ RevokesActive st db event') :
    db' = db := by
  cases ch with
  | keep => rfl
  | request c =>
    cases h with
    | request _ reserved =>
      obtain ⟨row, hr, hk⟩ := reserved
      exact absurd ⟨row, hr, hk.trans (congrArg _ same.eventId.symm)⟩ c.newEvent
    | consent message _ => nomatch same.message_eq message c.message
    | revocation message => nomatch same.message_eq message c.message
  | refuse c _ =>
    cases h with
    | request message _ => nomatch same.message_eq message c.message
    | consent _ reserved =>
      obtain ⟨row, hr, hk⟩ := reserved
      exact absurd ⟨row, hr, hk.trans (congrArg _ same.eventId.symm)⟩ c.newEvent
    | revocation message => nomatch same.message_eq message c.message
  | approve c =>
    cases h with
    | request message _ => nomatch same.message_eq message c.message
    | consent _ reserved =>
      obtain ⟨row, hr, hk⟩ := reserved
      exact absurd ⟨row, hr, hk.trans (congrArg _ same.eventId.symm)⟩ c.newEvent
    | revocation message => nomatch same.message_eq message c.message
  | revoke c => exact absurd ⟨_, c.revokesThrough⟩ inactive

/-- A step of a call on a spent event changes nothing, unless the event revokes an active grant. -/
lemma Step.harmless {S S' : Sys} {t event event' l a} (inv : Sys.Inv st S)
    (s : Step st S (.act t (.inbound event') l a) S') (h : Spent st event S.db) (same : event.SameAs event')
    (inactive : ¬ RevokesActive st S.db event') : S'.db = S.db := by
  obtain e | ⟨_, _, _, _, e, _, ch⟩ := inv.step_change s
  · exact e
  · cases e
    exact h.unchanged same ch inactive

/-- A call on a spent event that is alone and succeeds changes something exactly if the event revokes an
active grant. -/
lemma Env.call_harmless {env : Env} {ls : List Label} {S : Sys} {n : Nat} {event event' : InboundEvent}
    {result : HandleResult} (r : Run st ls S) (q : S.Quiet n) (wf : (Input.inbound event').WellFormed)
    (h : Spent st event S.db) (same : event.SameAs event')
    (ok : (env.call st (.inbound event') S.db S.seqs).result = .handled (.ok result)) :
    (env.call st (.inbound event') S.db S.seqs).db = S.db ↔ ¬ RevokesActive st S.db event' := by
  by_cases revocation : ∃ sessionId nonce sentAt x reason,
      event'.message? st = some (.revocation sessionId nonce sentAt x reason)
  · obtain ⟨_, _, _, _, _, msg⟩ := revocation
    cases env.call_revocation_revoked msg ok with
    | ignored same none => exact iff_of_true same fun ⟨row, named⟩ => none row named
    | @sent row set named only written =>
      refine iff_of_false (fun unchanged => ?_) fun inactive => inactive ⟨row, named⟩
      obtain ⟨_, _, _, _, _, _, mem, _⟩ := named
      have gone : row ∉ (S.db.updateSession row.id set).sessions := not_mem_updateSession mem
      rw [← written, unchanged] at gone
      exact gone mem
  · have never (db : Db) : ¬ RevokesActive st db event' := by
      rintro ⟨row, sessionId, nonce, sentAt, x, reason, msg, _⟩
      exact revocation ⟨sessionId, nonce, sentAt, x, reason, msg⟩
    refine iff_of_true (env.call_keep (P := fun db => db = S.db) q wf rfl fun s unchanged s' => ?_) (never S.db)
    exact (s'.harmless (r.append s).inv (unchanged ▸ h) same (never _)).trans unchanged

/-- After the effect of an event was committed, no step of any call on the same event changes the
database, except for the commit of a Revocation whose sender owns an active grant of the account it
names in the state before this step. A call on it that is alone and succeeds changes the database exactly
if the event is such a Revocation in the state before the call. -/
theorem replay_harmless_unless_active {ls ls' S₁ S₂ S₃ t event event' l a}
    (r : Run st ls S₁) (s₁ : Step st S₁ (.act t (.inbound event) l a) S₂) (effect : S₂.db ≠ S₁.db)
    (later : Steps st S₂ ls' S₃) (same : event.SameAs event') :
    (∀ t' l' a' S₄, Step st S₃ (.act t' (.inbound event') l' a') S₄ →
      ¬ RevokesActive st S₃.db event' → S₄.db = S₃.db) ∧
    ∀ n, S₃.Quiet n → (Input.inbound event').WellFormed → ∀ (env : Env) result,
      (env.call st (.inbound event') S₃.db S₃.seqs).result = .handled (.ok result) →
      ((env.call st (.inbound event') S₃.db S₃.seqs).db = S₃.db ↔ ¬ RevokesActive st S₃.db event') := by
  have inv₂ := r.inv.step s₁
  have spent : Spent st event S₂.db := by
    obtain e | ⟨_, _, _, _, e, _, ch⟩ := r.inv.step_change s₁
    · exact absurd e effect
    · cases e
      exact ch.spent effect
  have spent' : Spent st event S₃.db := later.keep_db inv₂ (fun ch h => h.stays ch) spent
  have r₃ := (r.step s₁).append later
  exact ⟨fun t' l' a' S₄ s₃ inactive => s₃.harmless r₃.inv spent' same inactive,
    fun n q wf env result ok => Env.call_harmless r₃ q wf spent' same ok⟩

/-- The Revocation of Alice, delivered twice. -/
theorem replay_harmless_alice : ∃ ls S₁ l a S₂ ls' S₃ l' a' S₄, Run Sample.relay ls S₁ ∧
    Step Sample.relay S₁
      (.act 3 (.inbound (Sample.alice.revocation "$revocation" "@a:h" Sample.alice.subject)) l a) S₂ ∧
    S₂.db ≠ S₁.db ∧ Steps Sample.relay S₂ ls' S₃ ∧ Step Sample.relay S₃
      (.act 4 (.inbound (Sample.alice.revocation "$revocation" "@a:h" Sample.alice.subject)) l' a') S₄ ∧
    S₄.db = S₃.db := by
  have read := Sample.alice_revocation "$revocation"
  have effect : Sample.consented.db.jobs.rows.length = 1 ∧ Sample.revoked.db.jobs.rows.length = 2 ∧
      Sample.revoked.db.grants.rows.all (·.revokedAt.isSome) := by
    decide +kernel
  obtain ⟨ls, S₁, l, a, S₂, ls', S, r, before, s₁, after, later, q, hd, _⟩ :=
    Sample.reaches_plain.turn (P := fun db => db.jobs.rows.length = 1) (F := Sample.revoked)
      (Sample.Login.call_revocation read rfl) rfl Sample.revoked_closed effect.1
      (by rw [effect.2.1]; decide)
  have changed : S₂.db ≠ S₁.db := fun e => after (e ▸ before)
  -- the same event once more: the call is started and performs its first action
  obtain ⟨S₃, l', a', S₄, s₂, same, s₃⟩ := q.first (Sample.env 15 Sample.loginTime Sample.alice.site)
    (by exact rfl) (Input.prog_revocation read)
  have later' := later.append s₂
  have inactive : ¬ RevokesActive Sample.relay S₃.db
      (Sample.alice.revocation "$revocation" "@a:h" Sample.alice.subject) := by
    rintro ⟨_, _, _, _, _, _, _, _, _, _, g, hg, _, _, _, active⟩
    rw [same, hd] at hg
    have revoked := List.all_eq_true.mp effect.2.2 g hg
    rw [active] at revoked
    nomatch revoked
  exact ⟨ls, S₁, l, a, S₂, _, S₃, l', a', S₄, r, s₁, changed, later', s₃,
    (replay_harmless_unless_active r s₁ changed later' ⟨rfl, rfl, rfl, rfl⟩).1 _ _ _ _ s₃ inactive⟩

namespace Sample

/-- Another login of Alice at the same site. -/
def again : Login := ⟨"a.io", "session-of-again", "nonce-of-again-1", "@a:h", 20⟩

/-- The second login of Alice is valid. -/
lemma again_valid : again.Valid where
  domain := alice_valid.domain
  sessionId := by decide +kernel
  nonce := by decide +kernel
  user := alice_valid.user
  room := alice_valid.room

/-- The other login of Alice, after that. -/
def againCalls : again.Calls revoked.db revoked.seqs 22 "$consent-again" :=
  ⟨_, _, _, rfl, rfl, rfl, by decide +kernel⟩

end Sample

/-- Alice's first Revocation, once more after her other login. -/
def revokedAgain : { F : Env.Final Result // Sample.alice.revoked Sample.againCalls.consented.db
      Sample.againCalls.consented.seqs 23 "$revocation" "@a:h" Sample.alice.subject = F ∧
    F.loc.log = [] ∧ Sample.consented.db.jobs.rows.length = 1 ∧
    Sample.revoked.db.jobs.rows.length = 2 ∧ Sample.againCalls.consented.db.jobs.rows.length = 3 ∧
    F.db.jobs.rows.length = 4 } :=
  ⟨_, rfl, by decide +kernel⟩

/-- After another login of Alice the Revocation she has sent before revokes the new grant. -/
theorem replayed_revocation_revokes_again : ¬ ∀ ls ls' S₁ S₂ S₃ S₄ t t' event event' l l' a a',
    Run Sample.relay ls S₁ → Step Sample.relay S₁ (.act t (.inbound event) l a) S₂ → S₂.db ≠ S₁.db →
    Steps Sample.relay S₂ ls' S₃ → event.SameAs event' →
    Step Sample.relay S₃ (.act t' (.inbound event') l' a') S₄ → S₄.db = S₃.db := by
  intro claim
  have read := Sample.alice_revocation "$revocation"
  obtain ⟨X, hX, closed, count₁, count₂, count₃, count₄⟩ := revokedAgain
  obtain ⟨ls, S₁, l, a, S₂, ls', S, r, before, s₁, after, later, q, hd, hs⟩ :=
    Sample.reaches_plain.turn (P := fun db => db.jobs.rows.length = 1) (F := Sample.revoked)
      (Sample.Login.call_revocation read rfl) rfl Sample.revoked_closed count₁
      (by rw [count₂]; decide)
  have here : Reaches Sample.relay (fun _ _ => True) S 4 [] Sample.revoked.db Sample.revoked.seqs :=
    ⟨S, .nil, q, hd, hs⟩
  obtain ⟨_, linked⟩ := Sample.again_valid.logsIn Sample.againCalls here
  obtain ⟨ls₂, S₃, l', a', S₄, _, _, s₂, before', s₃, after', _⟩ :=
    linked.turnFrom (P := fun db => db.jobs.rows.length = 3) (F := X)
      (Sample.Login.call_revocation read hX) rfl closed count₃ (by rw [count₄]; decide)
  have same := claim ls _ S₁ S₂ S₃ S₄ _ _ _ _ l l' a a' r s₁ (fun e => after (e ▸ before))
    (later.append s₂) ⟨rfl, rfl, rfl, rfl⟩ s₃
  exact after' (same ▸ before')

end WebLoginRelay
