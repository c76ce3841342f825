import WebLoginRelay.Ledger.Refinement

/-!
# The database is a record of what users have done

The acts of a run are its commits that write a session: the registrations, the Requests, the refusals, the
approvals, the unlinkings and the confirmed deliveries. They determine what the database says about a user:
whether a user is linked to a site, what the sites are sent, and in which order. No approval is recorded without
the registration of its login and the Request of the user who approves.
-/

namespace WebLoginRelay
open Text Txn

variable {st : AppState} {db : Db}

/-- The user has a grant at the site that is not revoked. -/
def LinkedTo (st : AppState) (db : Db) (site user : String) : Prop :=
  ∃ g ∈ db.grants, g.domain = site ∧ (∃ x, Owns st user x g) ∧ g.revokedAt = none

/-- The database is the record of the acts. -/
structure Records (st : AppState) (db : Db) (acts : List LedgerAct) : Prop where
  /-- A user is linked to the sites where the last approval or unlinking of the user is an approval. -/
  links : ∀ site user, LinkedTo st db site user ↔ Ledger.lastWord site user acts = some true
  /-- The jobs are the messages of the approvals and the unlinkings, in their order. -/
  jobs : HoldMessages st db (acts.filterMap Ledger.Act.owes)
  /-- Who approves has asked for this login, which was registered with this nonce. -/
  approved : ∀ pre post site session nonce user, acts = pre ++ .approve site session nonce user :: post →
    .register site session nonce ∈ pre ∧ ∃ room, .ask site session user room ∈ pre
  /-- Who unlinks was linked. -/
  unlinked : ∀ pre post site session user, acts = pre ++ .unlink site session user :: post →
    Ledger.lastWord site user pre = some true
  /-- The Requests for a login come from one user and from one room. -/
  asked : ∀ site session user room user' room', .ask site session user room ∈ acts →
    .ask site session user' room' ∈ acts → user = user' ∧ room = room'

/-- A link that holds is a grant that is not revoked. -/
lemma ShowsLinks.linkedTo_iff {L : RelayLedger} (h : ShowsLinks st db L) {site user : String} :
    LinkedTo st db site user ↔ L.linked site user = some true := by
  constructor
  · rintro ⟨g, hg, rfl, ⟨x, o⟩, active⟩
    rw [h.find hg o, active]
    rfl
  · intro linked
    have shown := h site user
    rw [linked] at shown
    obtain ⟨g, hg, domain, owned, active⟩ := shown
    exact ⟨g, hg, domain, owned, Option.isNone_iff_eq_none.mp active⟩

/-- A database that shows the ledger of a run records its acts. -/
lemma Shows.records {acts : List LedgerAct} {L : RelayLedger} (run : Ledger.Run acts L) (h : Shows st db L) :
    Records st db acts where
  links site user := by
    rw [← run.linked_eq]
    exact h.links.linkedTo_iff
  jobs := by
    rw [← run.messages_eq]
    exact h.messages
  approved _ _ _ _ _ _ e := run.approved e
  unlinked _ _ _ _ _ e := run.unlinked e
  asked site session user room user' room' first second := by
    obtain ⟨l, at_, holder⟩ := run.holder_iff.mp first
    obtain ⟨l', at', holder'⟩ := run.holder_iff.mp second
    cases at_.symm.trans at'
    cases holder.symm.trans holder'
    exact ⟨rfl, rfl⟩

/-- In every run the database is the record of the acts that were committed, which are all the commits that write
a session. -/
theorem database_records_acts {ls S} (hmac : st.crates.HmacCollisionFree) (aead : st.crates.AeadCorrect)
    (b64 : st.crates.Base64Correct) (r : Run st ls S) (distinct : JtisDistinct st ls) :
    ∃ acts, List.Forall₂ (Explains st) (ls.filter Label.WritesSession) acts ∧ Records st S.db acts := by
  obtain ⟨S₁, r₁, s⟩ := r.split (List.nil_append ls).symm
  obtain rfl := r₁.nil
  obtain ⟨acts, L, run, shown, explained⟩ := s.acts hmac aead b64 .init distinct .empty .init
  exact ⟨acts, explained, shown.records run⟩

/-- Alice's login is the record of an approval. -/
theorem database_records_acts_alice : ∃ S, Run Sample.relay Sample.consentedLabels S ∧
    ∃ acts, Records Sample.relay S.db acts ∧ (acts.filterMap Ledger.Act.owes).length = 1 := by
  obtain ⟨S, run, _, hd, _⟩ := Sample.reaches_plain.run
  obtain ⟨acts, -, records⟩ := database_records_acts Crates.stub_hmac Crates.stub_aead Crates.stub_base64 run.run
    Sample.consented_jtis
  refine ⟨S, run.run, acts, records, ?_⟩
  have one : S.db.jobs.rows.length = 1 := by
    rw [hd]
    decide +kernel
  rw [← one]
  exact records.jobs.length_eq.symm

end WebLoginRelay
