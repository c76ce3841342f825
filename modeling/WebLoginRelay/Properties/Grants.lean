import WebLoginRelay.Samples.Runs
import WebLoginRelay.System.Tables

/-!
# Only the owner controls a grant

A grant is keyed by the hash of a pairwise subject and carries the Matrix user it was made for. The
user column is not refreshed when a later Consent links the grant again; that it still names the owner
is because the subject determines the user within a domain.
-/

namespace WebLoginRelay
open Text Txn

variable {st : AppState} {input : Input} {past : List Act} {db db' : Db}

/-- The grant of subject `x` belongs to user `u`. -/
structure Owns (st : AppState) (u x : String) (g : GrantRow) : Prop where
  user : st.decryptText g.matrixUserCiphertext = .ok u
  subject : st.decryptText g.subjectCiphertext = .ok x
  derived : derivePairwiseSub st.crates st.subjectSecret g.domain u = .ok x
  hash : g.subjectHash = st.lookupHash x

/-- Ownership depends on what no change touches. -/
lemma Owns.congr {u x : String} {g g' : GrantRow} (h : Owns st u x g) (e : g'.fixed = g.fixed) :
    Owns st u x g' := by
  have eu : g'.fixed.matrixUserCiphertext = g.fixed.matrixUserCiphertext := by rw [e]
  have es : g'.fixed.subjectCiphertext = g.fixed.subjectCiphertext := by rw [e]
  have ed : g'.fixed.domain = g.fixed.domain := by rw [e]
  have eh : g'.fixed.subjectHash = g.fixed.subjectHash := by rw [e]
  refine ⟨?_, ?_, ?_, ?_⟩
  · exact (congrArg st.decryptText eu).trans h.user
  · exact (congrArg st.decryptText es).trans h.subject
  · exact (congrArg (derivePairwiseSub st.crates st.subjectSecret · u) ed).trans h.derived
  · exact eh.trans h.hash

/-- The grant a Consent inserts belongs to its sender. -/
lemma Mint.owns {event} (aead : st.crates.AeadCorrect) (c : Mint st event past db) (id : Nat) :
    Owns st event.sender c.sub (c.grant.row id) :=
  ⟨c.userSealed.decryptText aead, c.subjectSealed.decryptText aead, c.sub_eq, rfl⟩

/-- Every grant belongs to somebody. -/
lemma Run.owned {ls S} (aead : st.crates.AeadCorrect) (r : Run st ls S) :
    ∀ g ∈ S.db.grants, ∃ u x, Owns st u x g := by
  refine r.keep_db (P := fun db => ∀ g ∈ db.grants, ∃ u x, Owns st u x g)
    (fun g h => absurd h Table.not_mem_empty) fun ch own g' h => ?_
  obtain ⟨g, hg, ev⟩ | ⟨event, _, c, rfl, _⟩ := ch.grant_origin h
  · obtain ⟨u, x, o⟩ := own g hg
    exact ⟨u, x, o.congr ev.fixed⟩
  · exact ⟨event.sender, c.sub, c.owns aead c.grantId⟩

/-- A grant found by its subject belongs to the user the subject was derived from. -/
lemma Owns.user_eq {u x v y : String} {g : GrantRow} (hmac : st.crates.HmacCollisionFree)
    (b64 : st.crates.Base64Correct) (h : Owns st u x g)
    (hy : derivePairwiseSub st.crates st.subjectSecret g.domain v = .ok y)
    (hh : g.subjectHash = st.lookupHash y) : u = v := by
  obtain rfl : x = y := AppState.lookupHash_inj hmac (h.hash.symm.trans hh)
  exact derivePairwiseSub_inj hmac b64 h.derived hy

/-- A user has at most one grant at a domain. -/
lemma Owns.unique {u x x' : String} {g g' : GrantRow} (h : Owns st u x g) (h' : Owns st u x' g')
    (hg : g ∈ db.grants) (hg' : g' ∈ db.grants) (hd : g.domain = g'.domain) : g = g' := by
  have d := h.derived
  rw [hd, h'.derived] at d
  cases d
  exact grant_eq_of_key hg hg' hd (h.hash.trans h'.hash.symm)

/-- A step that revokes a grant handles a Revocation of its owner for its subject. -/
lemma Step.revoker {ls S lb S'} {u x : String} {g g' : GrantRow}
    (hmac : st.crates.HmacCollisionFree) (r : Run st ls S) (s : Step st S lb S')
    (hg : g ∈ S.db.grants) (hg' : g' ∈ S'.db.grants) (hi : g'.id = g.id) (o : Owns st u x g)
    (active : g.revokedAt = none) (revoked : g'.revokedAt ≠ none) :
    ∃ t event l a, lb = .act t (.inbound event) l a ∧ event.sender = u ∧
      ∃ sessionId nonce sentAt reason,
        event.message? st = some (.revocation sessionId nonce sentAt x reason) := by
  obtain e | ⟨t, input, l, a, rfl, eff, ch⟩ := r.inv.step_change s
  · rw [e] at hg'
    obtain rfl := grant_eq_of_id hg' hg hi
    exact absurd active revoked
  obtain ⟨f, hf, ev⟩ | ⟨event, _, c, rfl, _⟩ := ch.grant_origin hg'
  · have fi : g'.fixed.id = f.fixed.id := by rw [ev.fixed]
    obtain rfl := grant_eq_of_id hf hg (fi.symm.trans hi)
    cases ev with
    | same => exact absurd active revoked
    | link i c hd hs => exact absurd rfl revoked
    | @revoke event i c e =>
      subst i
      have user : u = event.sender := by
        have owner := c.owner
        rw [← e, o.user] at owner
        exact Except.ok.inj owner
      have sub : x = c.siteAccountId := by
        have hs := c.grant_subject
        rw [← e, o.hash] at hs
        exact AppState.lookupHash_inj hmac hs
      refine ⟨t, event, l, a, rfl, user.symm, c.sessionId, c.nonce, c.sentAt, c.reason, ?_⟩
      rw [sub]
      exact c.message
  · exact absurd rfl revoked

/-- A step that makes a revoked grant active again handles an approved Consent that was accepted from
its owner for a session of its domain. -/
lemma Step.relinker {ls S lb S'} {u x : String} {g g' : GrantRow}
    (hmac : st.crates.HmacCollisionFree) (b64 : st.crates.Base64Correct) (r : Run st ls S)
    (s : Step st S lb S') (hg : g ∈ S.db.grants) (hg' : g' ∈ S'.db.grants) (hi : g'.id = g.id)
    (o : Owns st u x g) (revoked : g.revokedAt ≠ none) (active : g'.revokedAt = none) :
    ∃ t event l a, lb = .act t (.inbound event) l a ∧ event.sender = u ∧
      ∃ c : Mint st event l.past S.db, c.session.domain = g.domain := by
  obtain e | ⟨t, input, l, a, rfl, eff, ch⟩ := r.inv.step_change s
  · rw [e] at hg'
    obtain rfl := grant_eq_of_id hg' hg hi
    exact absurd active revoked
  obtain ⟨f, hf, ev⟩ | ⟨event, i, c, rfl, none⟩ := ch.grant_origin hg'
  · have fi : g'.fixed.id = f.fixed.id := by rw [ev.fixed]
    obtain rfl := grant_eq_of_id hf hg (fi.symm.trans hi)
    cases ev with
    | same => exact absurd active revoked
    | @link event i c hd hs =>
      subst i
      have sub := c.sub_eq
      rw [← hd] at sub
      exact ⟨t, event, l, a, rfl, (o.user_eq hmac b64 sub hs).symm, c, hd.symm⟩
    | revoke i c e => nomatch active
  · -- a new grant has a new id
    exact absurd hi.symm (c.isNewGrant none g hg)

/-- Each grant belongs to one user forever; only a Revocation of that user for that subject revokes it,
only an approved Consent accepted from that user at that domain makes it active again, and the user has
no other grant at the domain. -/
theorem only_owner_controls_grant {ls S} (hmac : st.crates.HmacCollisionFree)
    (aead : st.crates.AeadCorrect) (b64 : st.crates.Base64Correct) (r : Run st ls S) :
    (∀ g ∈ S.db.grants, ∃ u x, Owns st u x g) ∧
    (∀ g ∈ S.db.grants, ∀ u x, Owns st u x g → ∀ ls' S', Steps st S ls' S' →
      ∃ g' ∈ S'.db.grants, g'.id = g.id ∧ g'.domain = g.domain ∧ Owns st u x g') ∧
    (∀ lb S', Step st S lb S' → ∀ g ∈ S.db.grants, ∀ g' ∈ S'.db.grants, g'.id = g.id →
      ∀ u x, Owns st u x g →
      (g.revokedAt = none → g'.revokedAt ≠ none →
        ∃ t event l a, lb = .act t (.inbound event) l a ∧ event.sender = u ∧
          ∃ sessionId nonce sentAt reason,
            event.message? st = some (.revocation sessionId nonce sentAt x reason)) ∧
      (g.revokedAt ≠ none → g'.revokedAt = none →
        ∃ t event l a, lb = .act t (.inbound event) l a ∧ event.sender = u ∧
          ∃ c : Mint st event l.past S.db, c.session.domain = g.domain)) ∧
    (∀ g ∈ S.db.grants, ∀ g' ∈ S.db.grants, ∀ u x x', g.domain = g'.domain →
      Owns st u x g → Owns st u x' g' → g = g') := by
  refine ⟨r.owned aead, fun g hg u x o ls' S' s => ?_, fun lb S' s g hg g' hg' hi u x o => ⟨?_, ?_⟩,
    fun g hg g' hg' u x x' hd o o' => o.unique o' hg hg' hd⟩
  · have stays : ∃ g' ∈ S'.db.grants, g'.fixed = g.fixed := by
      refine s.keep_db (P := fun db => ∃ g' ∈ db.grants, g'.fixed = g.fixed) r.inv ?_ ⟨g, hg, rfl⟩
      intro input past db db' ch ⟨g₁, h₁, e₁⟩
      obtain ⟨g₂, h₂, e₂⟩ := ch.grant_stays h₁
      exact ⟨g₂, h₂, e₂.trans e₁⟩
    obtain ⟨g', hg', e⟩ := stays
    have ei : g'.fixed.id = g.fixed.id := by rw [e]
    have ed : g'.fixed.domain = g.fixed.domain := by rw [e]
    exact ⟨g', hg', ei, ed, o.congr e⟩
  · exact s.revoker hmac r hg hg' hi o
  · exact s.relinker hmac b64 r hg hg' hi o

/-- The grant of Alice has an owner. -/
theorem only_owner_controls_grant_alice : ∃ S, Run Sample.relay Sample.consentedLabels S ∧
    S.db.grants.rows.length = 1 ∧ ∀ g ∈ S.db.grants, ∃ u x, Owns Sample.relay u x g := by
  obtain ⟨S, run, _, hd, _⟩ := Sample.reaches_plain.run
  refine ⟨S, run.run, ?_, (only_owner_controls_grant Crates.stub_hmac Crates.stub_aead
    Crates.stub_base64 run.run).1⟩
  rw [hd]
  decide +kernel

end WebLoginRelay
