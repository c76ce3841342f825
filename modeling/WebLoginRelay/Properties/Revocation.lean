import WebLoginRelay.Properties.Grants

/-!
# Revocations are neither lost nor duplicated

Every committed Revocation takes one grant from active to revoked and enqueues one job for it. Two
Revocations of one grant meet at the row lock of the grant, whatever sessions they name; the second one
finds it revoked. `enqueue` would drop a job whose `jti` is taken, so the result needs that the `jti`s
drawn in the run differ; that the `jti` of a job was drawn by the handler of its kind, and is reserved,
is `JtiKnown`.
-/

namespace WebLoginRelay
open Text Txn

variable {st : AppState} {input : Input} {past : List Act} {db db' : Db}

/-! ## Jtis -/

/-- The handler of the event enqueues jobs of this kind. -/
def Enqueues (st : AppState) (event : InboundEvent) : JobKind → Prop
  | .assertion => ∃ sessionId nonce sentAt approved displayName challenge keyId signature,
    event.message? st =
      some (.consent sessionId nonce sentAt approved displayName challenge keyId signature)
  | .revocation => ∃ sessionId nonce sentAt siteAccountId reason,
    event.message? st = some (.revocation sessionId nonce sentAt siteAccountId reason)

/-- An event has one kind. -/
lemma Enqueues.kind_eq {event : InboundEvent} {k k' : JobKind} (h : Enqueues st event k)
    (h' : Enqueues st event k') : k = k' := by
  cases k with
  | assertion =>
    cases k' with
    | assertion => rfl
    | revocation =>
      obtain ⟨_, _, _, _, _, _, _, _, e⟩ := h
      obtain ⟨_, _, _, _, _, e'⟩ := h'
      cases e.symm.trans e'
  | revocation =>
    cases k' with
    | revocation => rfl
    | assertion =>
      obtain ⟨_, _, _, _, _, e⟩ := h
      obtain ⟨_, _, _, _, _, _, _, _, e'⟩ := h'
      cases e.symm.trans e'

/-- The handler of a Consent or a Revocation draws the bytes of a `jti`. -/
def Label.DrawsJti (st : AppState) (b : Bytes) : Label → Prop
  | .act _ (.inbound event) _ a =>
    (∃ kind, Enqueues st event kind) ∧
      ∃ h : b.length = jtiBytes, a = ⟨.fillBytes jtiBytes, ⟨b, h⟩, []⟩
  | _ => False

/-- No two draws of a `jti` in the run yield the same bytes. -/
def JtisDistinct (st : AppState) (ls : List Label) : Prop :=
  ∀ pre lb post pre' lb' post' b, ls = pre ++ lb :: post → ls = pre' ++ lb' :: post' →
    lb.DrawsJti st b → lb'.DrawsJti st b → pre = pre'

/-- The draws of a part of a run are distinct if those of the run are. -/
lemma JtisDistinct.of_append {ls ls' : List Label} (h : JtisDistinct st (ls ++ ls')) :
    JtisDistinct st ls := by
  intro pre lb post pre' lb' post' b e e'
  refine h pre lb (post ++ ls') pre' lb' (post' ++ ls') b ?_ ?_
  · rw [e, List.append_assoc, List.cons_append]
  · rw [e', List.append_assoc, List.cons_append]

/-- Equal draws are one draw. -/
lemma JtisDistinct.eq {ls : List Label} (h : JtisDistinct st ls) {lb lb' : Label} {b : Bytes}
    (m : lb ∈ ls) (m' : lb' ∈ ls) (d : lb.DrawsJti st b) (d' : lb'.DrawsJti st b) : lb = lb' := by
  obtain ⟨pre, post, e⟩ := List.append_of_mem m
  obtain ⟨pre', post', e'⟩ := List.append_of_mem m'
  obtain rfl := h pre lb post pre' lb' post' b e e' d d'
  rw [e] at e'
  exact (List.cons.inj (List.append_cancel_left e')).1

/-- What a call on an event draws. -/
def Label.draw? : Label → Option Bytes
  | .act _ (.inbound _) _ ⟨.fillBytes _, b, _⟩ => some b.1
  | _ => none

/-- A `jti` that is drawn is a draw. -/
lemma Label.DrawsJti.draw {lb : Label} {b : Bytes} (h : lb.DrawsJti st b) : lb.draw? = some b := by
  unfold Label.DrawsJti at h
  split at h
  · obtain ⟨_, _, rfl⟩ := h
    rfl
  · exact h.elim

/-- Calls that draw no bytes twice draw no `jti` twice. -/
lemma JtisDistinct.of_nodup {ls : List Label} (h : (ls.filterMap Label.draw?).Nodup) :
    JtisDistinct st ls := by
  have once {pre mid post : List Label} {lb lb' : Label} {b : Bytes}
      (e : ls = (pre ++ lb :: mid) ++ lb' :: post) (d : lb.draw? = some b) (d' : lb'.draw? = some b) :
      False := by
    rw [e, List.filterMap_append, List.filterMap_append, List.filterMap_cons_some d,
      List.filterMap_cons_some d'] at h
    exact (List.nodup_append.mp h).2.2 b (by simp) b (by simp) rfl
  intro pre lb post pre' lb' post' b e e' d d'
  obtain ⟨rfl, _⟩ | ⟨mid, rfl⟩ | ⟨mid, rfl⟩ := places e e'
  · rfl
  · exact (once e' d.draw d'.draw).elim
  · exact (once e d'.draw d.draw).elim

/-- The replay key that reserves the `jti` of a kind of job. -/
def JobKind.key : JobKind → String → ReplayKey
  | .assertion => .assertionJti
  | .revocation => .revocationJti

/-- The `jti` of the job is reserved and was drawn by the handler of its kind. -/
def JtiKnown (st : AppState) (ls : List Label) (db : Db) (j : DeliveryJob) : Prop :=
  (∃ row ∈ db.replay, row.key = j.kind.key j.jti) ∧
  ∃ t event l b, .act t (.inbound event) l ⟨.fillBytes jtiBytes, b, []⟩ ∈ ls ∧
    Enqueues st event j.kind ∧ j.jti = Base64url.encode st.crates b.val

/-- A `jti` that is known stays known. -/
lemma JtiKnown.mono {ls ls' : List Label} {j j' : DeliveryJob} (h : JtiKnown st ls db j)
    (sub : ls ⊆ ls') (stay : ∀ row ∈ db.replay, row ∈ db'.replay) (e : j'.fixed = j.fixed) :
    JtiKnown st ls' db' j' := by
  have ek : j'.fixed.kind = j.fixed.kind := by rw [e]
  have ej : j'.fixed.jti = j.fixed.jti := by rw [e]
  have ek' : j'.kind = j.kind := ek
  have ej' : j'.jti = j.jti := ej
  obtain ⟨⟨row, hr, hk⟩, t, event, l, b, mem, enq, hb⟩ := h
  refine ⟨⟨row, stay row hr, ?_⟩, t, event, l, b, sub mem, ?_, ?_⟩
  · rw [ek', ej', hk]
  · rwa [ek']
  · rw [ej', hb]

/-- A Consent that mints enqueues an assertion. -/
lemma Mint.enqueues {event} (c : Mint st event past db) : Enqueues st event .assertion :=
  ⟨_, _, _, _, _, _, _, _, c.message⟩

/-- A Revocation that unlinks enqueues a revocation. -/
lemma Unlink.enqueues {event} (c : Unlink st event past db) : Enqueues st event .revocation :=
  ⟨_, _, _, _, _, c.message⟩

/-- The jti of every job is known. -/
lemma Run.jtiKnown {ls S} (r : Run st ls S) {j : DeliveryJob} (mem : j ∈ S.db.jobs) :
    JtiKnown st ls S.db j := by
  induction r generalizing j with
  | init => exact absurd mem Table.not_mem_empty
  | @step ls S lb S' r s ih =>
    have sub : ls ⊆ ls ++ [lb] := List.subset_append_left ls [lb]
    obtain e | ⟨t, input, l, a, rfl, eff, ch⟩ := r.inv.step_change s
    · rw [e] at mem ⊢
      exact (ih mem).mono sub (fun _ h => h) rfl
    obtain ⟨k, seqs, task, _⟩ := s.act_inv
    obtain ⟨i, hi, fx⟩ | ⟨event, rfl, c, hc, e⟩ | ⟨event, rfl, c, hc, e⟩ := ch.job_origin mem
    · exact (ih hi).mono sub (fun _ h => ch.replay_stays h) fx
    · obtain ⟨id, now, rfl⟩ := c.job_eq hc
      obtain ⟨len, drawn⟩ := c.drawn
      obtain ⟨l', mem'⟩ := r.past task drawn
      refine ⟨⟨⟨.assertionJti c.jti, c.expiresAt⟩, ?_, rfl⟩, t, event, l', ⟨c.bytes, len⟩, sub mem',
        c.enqueues, rfl⟩
      rw [e]
      simp only [Mint.result, Db.addJob_replay, Db.updateSession_replay, Db.reserve_replay,
        Db.putGrant_replay, Table.mem_insert]
      refine .inr ⟨trivial, fun clash => ?_⟩
      obtain clash | clash := clash.of_insert
      · exact c.newJti clash
      · nomatch clash
    · obtain ⟨id, now, rfl⟩ := c.job_eq hc
      obtain ⟨len, drawn⟩ := c.drawn
      obtain ⟨l', mem'⟩ := r.past task drawn
      refine ⟨⟨⟨.revocationJti c.jti, c.expiresAt⟩, ?_, rfl⟩, t, event, l', ⟨c.bytes, len⟩, sub mem',
        c.enqueues, rfl⟩
      rw [e]
      simp only [Unlink.result, Db.addJob_replay, Db.updateSession_replay, Db.reserve_replay,
        Db.updateGrant_replay, Table.mem_insert]
      exact .inr ⟨trivial, c.newJti⟩

/-- `enqueue` drops a job only when its `jti` is taken. -/
lemma Run.taken {ls S t task new} (r : Run st ls S) (h : S.tasks t = some task)
    (dropped : ⟨.exec (.enqueue new), Except.ok (0 : Nat), []⟩ ∈ task.loc.past) :
    ∃ j ∈ S.db.jobs, j.jti = new.jti := by
  obtain ⟨l, mem⟩ := r.past h dropped
  obtain ⟨pre, post, e⟩ := List.append_of_mem mem
  obtain ⟨S₁, S₂, r₁, s₁, s₂⟩ := r.at e
  obtain ⟨k, seqs, h₁, o, e₂, _⟩ := s₁.act_inv
  have jobs := (r₁.inv.act h₁ o).1 S₁.db
  have found : ∃ j ∈ S₁.db.jobs, j.jti = new.jti := by
    obtain ⟨now, _, resp, _⟩ | ⟨err, _⟩ := o.exec_inv
    · simp only [Query.run] at resp
      split at resp
      · rename_i any
        rw [jobs] at any
        obtain ⟨j, hj, ej⟩ := List.any_eq_true.mp any
        exact ⟨j, hj, by simpa using ej⟩
      · split at resp
        · cases resp
        · cases resp
    · cases err
  refine s₂.keep_db (P := fun db => ∃ j ∈ db.jobs, j.jti = new.jti) (r₁.inv.step s₁) ?_ ?_
  · rintro input past db db' ch ⟨j, hj, ej⟩
    obtain ⟨j', hj', fx⟩ := ch.job_stays hj
    have e' : j'.fixed.jti = j.fixed.jti := by rw [fx]
    exact ⟨j', hj', Eq.trans e' ej⟩
  · rw [e₂]
    exact found

/-- The `jti` a call has drawn and reserved is the `jti` of no job. -/
lemma Run.jti_fresh {ls S t event rest l kind bytes expiresAt} (r : Run st ls S)
    (b64 : st.crates.Base64Correct) (distinct : JtisDistinct st ls)
    (h : S.tasks t = some ⟨.inbound event, rest, l⟩) (enq : Enqueues st event kind)
    (drawn : Drawn l.past jtiBytes bytes)
    (free : ¬ S.db.replay.Clashes ⟨kind.key (Base64url.encode st.crates bytes), expiresAt⟩) :
    ∀ j ∈ S.db.jobs, j.jti ≠ Base64url.encode st.crates bytes := by
  intro j hj e
  obtain ⟨⟨row, hr, hk⟩, t', event', l', b', mem', enq', hb'⟩ := r.jtiKnown hj
  obtain ⟨len, drawn⟩ := drawn
  obtain ⟨l₁, mem⟩ := r.past h drawn
  have hb : b'.val = bytes := b64.inj (hb'.symm.trans e)
  have d : Label.DrawsJti st bytes (.act t (.inbound event) l₁ ⟨.fillBytes jtiBytes, ⟨bytes, len⟩, []⟩) :=
    ⟨⟨kind, enq⟩, len, rfl⟩
  have d' : Label.DrawsJti st bytes (.act t' (.inbound event') l' ⟨.fillBytes jtiBytes, b', []⟩) := by
    subst hb
    exact ⟨⟨j.kind, enq'⟩, b'.property, rfl⟩
  have same := Label.act.inj (distinct.eq mem mem' d d')
  cases same.2.1
  rw [e, enq'.kind_eq enq] at hk
  exact free ⟨row, hr, hk⟩

/-- A Consent does not lose its job. -/
lemma Mint.job_some {ls S t event rest l} (r : Run st ls S) (b64 : st.crates.Base64Correct)
    (distinct : JtisDistinct st ls) (h : S.tasks t = some ⟨.inbound event, rest, l⟩)
    (c : Mint st event l.past S.db) : ∃ id now, c.job = some (c.newJob.row id now) := by
  cases e : c.job with
  | some job =>
    obtain ⟨id, now, rfl⟩ := c.job_eq e
    exact ⟨id, now, rfl⟩
  | none =>
    have q := c.queued
    rw [e] at q
    obtain ⟨j, hj, ej⟩ := r.taken h q
    exact absurd ej (r.jti_fresh b64 distinct h c.enqueues c.drawn c.newJti j hj)

/-- A Revocation does not lose its job. -/
lemma Unlink.job_some {ls S t event rest l} (r : Run st ls S) (b64 : st.crates.Base64Correct)
    (distinct : JtisDistinct st ls) (h : S.tasks t = some ⟨.inbound event, rest, l⟩)
    (c : Unlink st event l.past S.db) : ∃ id now, c.job = some (c.newJob.row id now) := by
  cases e : c.job with
  | some job =>
    obtain ⟨id, now, rfl⟩ := c.job_eq e
    exact ⟨id, now, rfl⟩
  | none =>
    have q := c.queued
    rw [e] at q
    obtain ⟨j, hj, ej⟩ := r.taken h q
    exact absurd ej (r.jti_fresh b64 distinct h c.enqueues c.drawn c.newJti j hj)

/-! ## Jobs of a subject -/

/-- The field `sub` of an object. -/
def Value.subject (value : Value) : Option String := do
  let f ← value.fields?
  Value.strField f "sub"

/-- The subject the payload of a job names. -/
def DeliveryJob.subject (st : AppState) (j : DeliveryJob) : Option String :=
  ((st.decrypt j.payloadCiphertext).bind (strictFromSlice st.crates Value.subject)).toOption

/-- The job is of this kind, for this domain and subject. -/
def DeliveryJob.isFor (st : AppState) (kind : JobKind) (domain x : String) (j : DeliveryJob) : Bool :=
  j.kind == kind && j.domain == domain && j.subject st == some x

/-- What a job is for does not change. -/
lemma DeliveryJob.isFor_fixed {kind : JobKind} {domain x : String} (j : DeliveryJob) :
    j.fixed.isFor st kind domain x = j.isFor st kind domain x := rfl

/-- The subject can be read from the bytes of an assertion. -/
lemma RelayAssertion.subject_toBytes {X : Crates} (json : X.JsonCorrect) (a : RelayAssertion) :
    strictFromSlice X Value.subject (a.toBytes X) = .ok a.sub := by
  refine strictFromSlice_jsonToVec json ?_ ?_ rfl
  · simp
  · simp [Value.isScalar]

/-- The subject can be read from the bytes of a revocation. -/
lemma RelayRevocation.subject_toBytes {X : Crates} (json : X.JsonCorrect) (v : RelayRevocation) :
    strictFromSlice X Value.subject (v.toBytes X) = .ok v.sub := by
  refine strictFromSlice_jsonToVec json ?_ ?_ rfl
  · simp
  · simp [Value.isScalar]

/-- The subject of a job with an assertion. -/
lemma DeliveryJob.subject_of_assertion (json : st.crates.JsonCorrect) {j : DeliveryJob}
    {a : RelayAssertion} (h : st.decrypt j.payloadCiphertext = .ok (a.toBytes st.crates)) :
    j.subject st = some a.sub := by
  simp only [DeliveryJob.subject, h, Except.bind, a.subject_toBytes json]
  rfl

/-- The subject of a job with a revocation. -/
lemma DeliveryJob.subject_of_revocation (json : st.crates.JsonCorrect) {j : DeliveryJob}
    {v : RelayRevocation} (h : st.decrypt j.payloadCiphertext = .ok (v.toBytes st.crates)) :
    j.subject st = some v.sub := by
  simp only [DeliveryJob.subject, h, Except.bind, v.subject_toBytes json]
  rfl

/-- The kind, domain and subject of a new job. -/
lemma NewJob.isFor_row {new : NewJob} {id now kind domain x y}
    (subj : (new.row id now).subject st = some y) :
    (new.row id now).isFor st kind domain x ↔ kind = new.kind ∧ new.domain = domain ∧ y = x := by
  simp only [DeliveryJob.isFor, subj, Bool.and_eq_true, beq_iff_eq, Option.some.injEq, and_assoc]
  exact and_congr_left fun _ => eq_comm

/-- The job of a Consent is for the subject of its sender. -/
lemma Mint.isFor_newJob {event id now kind domain x} (aead : st.crates.AeadCorrect)
    (json : st.crates.JsonCorrect) (c : Mint st event past db) :
    (c.newJob.row id now).isFor st kind domain x ↔
      kind = .assertion ∧ c.session.domain = domain ∧ c.sub = x := by
  obtain ⟨signature, e⟩ := RelayAssertion.sign_ok c.assertion_eq
  have subj : (c.newJob.row id now).subject st = some c.sub := by
    have hs : c.assertion.sub = c.sub := by rw [e]
    rw [← hs]
    exact DeliveryJob.subject_of_assertion json (c.assertionSealed.decrypt aead)
  exact NewJob.isFor_row subj

/-- The job of a Revocation is for the subject it names. -/
lemma Unlink.isFor_newJob {event id now kind domain x} (aead : st.crates.AeadCorrect)
    (json : st.crates.JsonCorrect) (c : Unlink st event past db) :
    (c.newJob.row id now).isFor st kind domain x ↔
      kind = .revocation ∧ c.session.domain = domain ∧ c.siteAccountId = x := by
  obtain ⟨signature, e⟩ := RelayRevocation.sign_ok c.revocation_eq
  have subj : (c.newJob.row id now).subject st = some c.siteAccountId := by
    have hs : c.revocation.sub = c.siteAccountId := by rw [e]
    rw [← hs]
    exact DeliveryJob.subject_of_revocation json (c.payloadSealed.decrypt aead)
  exact NewJob.isFor_row subj

/-! ## Transitions -/

/-- The grant of a subject goes from active to revoked. -/
def Revokes (domain : String) (subjectHash : Bytes) (S S' : Sys) : Prop :=
  ∃ g ∈ S.db.grants, ∃ g' ∈ S'.db.grants, g.domain = domain ∧ g.subjectHash = subjectHash ∧
    g'.id = g.id ∧ g.revokedAt = none ∧ g'.revokedAt ≠ none

/-- A run with the number of its steps that make the transition. -/
inductive Counted (st : AppState) (T : Sys → Sys → Prop) : List Label → Sys → Nat → Prop where
  | init : Counted st T [] Sys.init 0
  | hit {ls S n lb S'} : Counted st T ls S n → Step st S lb S' → T S S' →
    Counted st T (ls ++ [lb]) S' (n + 1)
  | miss {ls S n lb S'} : Counted st T ls S n → Step st S lb S' → ¬ T S S' →
    Counted st T (ls ++ [lb]) S' n

/-- Runs that are counted are runs. -/
lemma Counted.run {T ls S n} (c : Counted st T ls S n) : Run st ls S := by
  induction c with
  | init => exact .init
  | hit _ s _ ih => exact ih.step s
  | miss _ s _ ih => exact ih.step s

/-- Every run has a number of transitions. -/
lemma Run.counted {T ls S} (r : Run st ls S) : ∃ n, Counted st T ls S n := by
  induction r with
  | init => exact ⟨0, .init⟩
  | @step ls S lb S' _ s ih =>
    obtain ⟨n, c⟩ := ih
    by_cases h : T S S'
    · exact ⟨n + 1, c.hit s h⟩
    · exact ⟨n, c.miss s h⟩

/-- The subject has an active grant. -/
def Active (db : Db) (domain : String) (subjectHash : Bytes) : Prop :=
  ∃ g ∈ db.grants, g.domain = domain ∧ g.subjectHash = subjectHash ∧ g.revokedAt = none

/-- What one step does to the jobs and the grant of a subject. -/
inductive SubjectStep (st : AppState) (domain x : String) (S S' : Sys) : Prop where
  /-- Another subject, or no effect on the subject. -/
  | other (rev : S'.db.countJobs (·.isFor st .revocation domain x) =
      S.db.countJobs (·.isFor st .revocation domain x))
    (ass : S'.db.countJobs (·.isFor st .assertion domain x) =
      S.db.countJobs (·.isFor st .assertion domain x))
    (act : Active S'.db domain (st.lookupHash x) → Active S.db domain (st.lookupHash x))
    (miss : ¬ Revokes domain (st.lookupHash x) S S')
  /-- A login. -/
  | login (rev : S'.db.countJobs (·.isFor st .revocation domain x) =
      S.db.countJobs (·.isFor st .revocation domain x))
    (ass : S'.db.countJobs (·.isFor st .assertion domain x) =
      S.db.countJobs (·.isFor st .assertion domain x) + 1)
    (miss : ¬ Revokes domain (st.lookupHash x) S S')
  /-- A revocation. -/
  | revocation (rev : S'.db.countJobs (·.isFor st .revocation domain x) =
      S.db.countJobs (·.isFor st .revocation domain x) + 1)
    (ass : S'.db.countJobs (·.isFor st .assertion domain x) =
      S.db.countJobs (·.isFor st .assertion domain x))
    (before : Active S.db domain (st.lookupHash x))
    (after : ¬ Active S'.db domain (st.lookupHash x))
    (hit : Revokes domain (st.lookupHash x) S S')

/-- Grants that stay as they are revoke nothing. -/
lemma not_revokes_of_grants {S S' : Sys} {domain : String} {h : Bytes} (e : S'.db.grants = S.db.grants) :
    ¬ Revokes domain h S S' := by
  rintro ⟨g, hg, g', hg', _, _, hi, act, rev⟩
  rw [e] at hg'
  obtain rfl := grant_eq_of_id hg' hg hi
  exact rev act

/-- Whether a grant is active depends on the grants only. -/
lemma active_congr {domain : String} {h : Bytes} (e : db'.grants = db.grants)
    (a : Active db' domain h) : Active db domain h := by
  obtain ⟨g, hg, key⟩ := a
  exact ⟨g, e ▸ hg, key⟩

/-- The jobs and the grants stay. -/
lemma SubjectStep.of_same {S S' : Sys} {domain x : String}
    (jobs : ∀ p : DeliveryJob → Bool, (∀ j, p j.fixed = p j) → S'.db.countJobs p = S.db.countJobs p)
    (grants : S'.db.grants = S.db.grants) : SubjectStep st domain x S S' :=
  .other (jobs _ DeliveryJob.isFor_fixed) (jobs _ DeliveryJob.isFor_fixed) (active_congr grants)
    (not_revokes_of_grants grants)

/-- Putting a grant revokes nothing. -/
lemma not_revokes_of_put {S S' : Sys} {domain : String} {h : Bytes} {new : NewGrant} {id : Nat}
    (e : S'.db.grants = (S.db.putGrant new id).grants) : ¬ Revokes domain h S S' := by
  rintro ⟨g, hg, g', hg', _, _, hi, act, rev⟩
  rw [e] at hg'
  obtain ⟨rfl, _⟩ | ⟨f, hf, rfl | ⟨_, _, rfl⟩⟩ := Db.mem_putGrant hg'
  · exact rev rfl
  · obtain rfl := grant_eq_of_id hf hg hi
    exact rev act
  · exact rev rfl

/-- Putting a grant makes no other subject active. -/
lemma active_of_put {domain : String} {h : Bytes} {new : NewGrant} {id : Nat}
    (e : db'.grants = (db.putGrant new id).grants)
    (ne : ¬ (new.domain = domain ∧ new.subjectHash = h)) (a : Active db' domain h) :
    Active db domain h := by
  obtain ⟨g', hg', hd, hs, act⟩ := a
  rw [e] at hg'
  obtain ⟨rfl, _⟩ | ⟨f, hf, rfl | ⟨fd, fs, rfl⟩⟩ := Db.mem_putGrant hg'
  · exact absurd ⟨hd, hs⟩ ne
  · exact ⟨g', hf, hd, hs, act⟩
  · exact absurd ⟨fd.symm.trans hd, fs.symm.trans hs⟩ ne

/-- An approved Consent is a login of its subject. -/
lemma Mint.subjectStep {S S' : Sys} {event id now domain x} (aead : st.crates.AeadCorrect)
    (json : st.crates.JsonCorrect) (hmac : st.crates.HmacCollisionFree)
    (c : Mint st event past S.db) (hj : c.job = some (c.newJob.row id now))
    (e : S'.db = c.result) : SubjectStep st domain x S S' := by
  have grants : S'.db.grants = (S.db.putGrant c.grant c.grantId).grants := by
    rw [e]
    simp only [Mint.result, Db.addJob_grants, Db.updateSession_grants, Db.reserve_grants]
    exact putGrant_grants (Db.reserve_grants ..) _ _
  have rev : ¬ (c.newJob.row id now).isFor st .revocation domain x := fun h => by
    cases ((c.isFor_newJob aead json).mp h).1
  have count {p : DeliveryJob → Bool} : c.result.countJobs p =
      S.db.countJobs p + if p (c.newJob.row id now) then 1 else 0 := by
    rw [c.countJobs, hj]
    exact congrArg _ List.countP_singleton
  by_cases same : c.session.domain = domain ∧ c.sub = x
  · have ass : (c.newJob.row id now).isFor st .assertion domain x :=
      (c.isFor_newJob aead json).mpr ⟨rfl, same⟩
    refine .login ?_ ?_ (not_revokes_of_put grants)
    · rw [e, count, if_neg rev, Nat.add_zero]
    · rw [e, count, if_pos ass]
  · have ass : ¬ (c.newJob.row id now).isFor st .assertion domain x := fun h =>
      same ((c.isFor_newJob aead json).mp h).2
    refine .other ?_ ?_ (active_of_put grants fun key => same ⟨key.1, ?_⟩) (not_revokes_of_put grants)
    · rw [e, count, if_neg rev, Nat.add_zero]
    · rw [e, count, if_neg ass, Nat.add_zero]
    · exact AppState.lookupHash_inj hmac key.2

/-- A committed Revocation revokes the grant of its subject. -/
lemma Unlink.revokes {S S' : Sys} {event} (c : Unlink st event past S.db) (e : S'.db = c.result) :
    Revokes c.session.domain (st.lookupHash c.siteAccountId) S S' := by
  refine ⟨c.grant, c.grant_mem, (GrantSet.revoke c.revokedAt).on c.grant, ?_, c.grant_domain,
    c.grant_subject, rfl, c.active, Option.some_ne_none _⟩
  rw [e]
  simp only [Unlink.result, Db.updateSession_grants, Db.addJob_grants, Db.reserve_grants,
    Db.mem_updateGrant]
  exact ⟨c.grant, c.grant_mem, if_pos ⟨rfl, rfl⟩⟩

/-- A committed Revocation is a revocation of its subject. -/
lemma Unlink.subjectStep {S S' : Sys} {event id now domain x} (aead : st.crates.AeadCorrect)
    (json : st.crates.JsonCorrect) (hmac : st.crates.HmacCollisionFree)
    (c : Unlink st event past S.db) (hj : c.job = some (c.newJob.row id now))
    (e : S'.db = c.result) : SubjectStep st domain x S S' := by
  have grants {g' : GrantRow} : g' ∈ S'.db.grants ↔ ∃ g ∈ S.db.grants,
      (GrantSet.revoke c.revokedAt).at c.grant.domain c.grant.subjectHash g = g' := by
    rw [e]
    simp only [Unlink.result, Db.updateSession_grants, Db.addJob_grants, Db.reserve_grants,
      Db.mem_updateGrant]
  have ass : ¬ (c.newJob.row id now).isFor st .assertion domain x := fun h => by
    cases ((c.isFor_newJob aead json).mp h).1
  have count {p : DeliveryJob → Bool} : c.result.countJobs p =
      S.db.countJobs p + if p (c.newJob.row id now) then 1 else 0 := by
    rw [c.countJobs, hj]
    exact congrArg _ List.countP_singleton
  by_cases same : c.session.domain = domain ∧ c.siteAccountId = x
  · obtain ⟨rfl, rfl⟩ := same
    have rev : (c.newJob.row id now).isFor st .revocation c.session.domain c.siteAccountId :=
      (c.isFor_newJob aead json).mpr ⟨rfl, rfl, rfl⟩
    refine .revocation ?_ ?_ ⟨c.grant, c.grant_mem, c.grant_domain, c.grant_subject, c.active⟩ ?_
      (c.revokes e)
    · rw [e, count, if_pos rev]
    · rw [e, count, if_neg ass, Nat.add_zero]
    · rintro ⟨g', hg', hd, hs, act⟩
      obtain ⟨g, hg, rfl⟩ := grants.mp hg'
      rw [GrantSet.at_domain] at hd
      rw [GrantSet.at_subjectHash] at hs
      rw [GrantSet.at, if_pos ⟨hd.trans c.grant_domain.symm, hs.trans c.grant_subject.symm⟩] at act
      cases act
  · have rev : ¬ (c.newJob.row id now).isFor st .revocation domain x := fun h =>
      same ((c.isFor_newJob aead json).mp h).2
    -- the grant of another subject is not touched
    have other {g : GrantRow} (hd : g.domain = domain) (hs : g.subjectHash = st.lookupHash x) :
        (GrantSet.revoke c.revokedAt).at c.grant.domain c.grant.subjectHash g = g := by
      refine GrantSet.at_ne fun key => same ⟨?_, ?_⟩
      · exact c.grant_domain.symm.trans (key.1.symm.trans hd)
      · exact AppState.lookupHash_inj hmac (c.grant_subject.symm.trans (key.2.symm.trans hs))
    refine .other ?_ ?_ ?_ ?_
    · rw [e, count, if_neg rev, Nat.add_zero]
    · rw [e, count, if_neg ass, Nat.add_zero]
    · rintro ⟨g', hg', hd, hs, act⟩
      obtain ⟨g, hg, rfl⟩ := grants.mp hg'
      rw [GrantSet.at_domain] at hd
      rw [GrantSet.at_subjectHash] at hs
      rw [other hd hs] at act
      exact ⟨g, hg, hd, hs, act⟩
    · rintro ⟨g, hg, g', hg', hd, hs, hi, act, rev⟩
      obtain ⟨f, hf, rfl⟩ := grants.mp hg'
      rw [GrantSet.at_id] at hi
      obtain rfl := grant_eq_of_id hf hg hi
      rw [other hd hs] at rev
      exact rev act

/-- What a step of a run does to a subject. -/
lemma Step.subjectStep {ls S lb S' domain x} (hmac : st.crates.HmacCollisionFree)
    (aead : st.crates.AeadCorrect) (b64 : st.crates.Base64Correct) (json : st.crates.JsonCorrect)
    (r : Run st ls S) (distinct : JtisDistinct st ls) (s : Step st S lb S') :
    SubjectStep st domain x S S' := by
  obtain e | ⟨t, input, l, a, rfl, eff, ch⟩ := r.inv.step_change s
  · exact .of_same (fun p _ => by rw [e]) (by rw [e])
  obtain ⟨k, seqs, task, _⟩ := s.act_inv
  generalize e : S'.db = db' at ch
  cases ch with
  | keep => exact .of_same (fun p _ => by rw [e]) (by rw [e])
  | register c => exact .of_same (fun p _ => countJobs_congr (by rw [e]; rfl)) (by rw [e]; rfl)
  | request c => exact .of_same (fun p _ => countJobs_congr (by rw [e]; rfl)) (by rw [e]; rfl)
  | refuse c h => exact .of_same (fun p _ => countJobs_congr (by rw [e]; rfl)) (by rw [e]; rfl)
  | approve c =>
    obtain ⟨id, now, hj⟩ := c.job_some r b64 distinct task
    exact c.subjectStep aead json hmac hj e
  | revoke c =>
    obtain ⟨id, now, hj⟩ := c.job_some r b64 distinct task
    exact c.subjectStep aead json hmac hj e
  | deliver c => exact .of_same (fun p _ => countJobs_congr (by rw [e]; rfl)) (by rw [e]; rfl)
  | claim due =>
    refine .of_same (fun p hp => ?_) ?_
    · rw [e, countJobs_replay hp]
    · rw [e, (replay_jobUpdate S.db).2.2]
  | mark _ _ _ _ =>
    refine .of_same (fun p hp => ?_) ?_
    · rw [e, countJobs_updateJob hp]
    · rw [e]
      rfl

/-- The jobs of a subject count the transitions of its grant, and every transition follows a login. -/
lemma Counted.balance {ls S n domain x} (hmac : st.crates.HmacCollisionFree)
    (aead : st.crates.AeadCorrect) (b64 : st.crates.Base64Correct) (json : st.crates.JsonCorrect)
    (c : Counted st (Revokes domain (st.lookupHash x)) ls S n) (distinct : JtisDistinct st ls) :
    S.db.countJobs (·.isFor st .revocation domain x) = n ∧
    n ≤ S.db.countJobs (·.isFor st .assertion domain x) ∧
    (Active S.db domain (st.lookupHash x) →
      n < S.db.countJobs (·.isFor st .assertion domain x)) := by
  induction c with
  | init =>
    refine ⟨rfl, Nat.zero_le _, ?_⟩
    rintro ⟨g, hg, _⟩
    exact absurd hg Table.not_mem_empty
  | @hit ls S n lb S' c s hit ih =>
    obtain ⟨rev, le, lt⟩ := ih distinct.of_append
    have step : SubjectStep st domain x S S' :=
      s.subjectStep hmac aead b64 json c.run distinct.of_append
    cases step with
    | other _ _ _ miss => exact absurd hit miss
    | login _ _ miss => exact absurd hit miss
    | revocation rev' ass' before after _ =>
      have := lt before
      exact ⟨by rw [rev', rev], by omega, fun a => absurd a after⟩
  | @miss ls S n lb S' c s miss ih =>
    obtain ⟨rev, le, lt⟩ := ih distinct.of_append
    have step : SubjectStep st domain x S S' :=
      s.subjectStep hmac aead b64 json c.run distinct.of_append
    cases step with
    | other rev' ass' act _ =>
      refine ⟨by rw [rev', rev], by omega, fun a => ?_⟩
      have := lt (act a)
      omega
    | login rev' ass' _ => exact ⟨by rw [rev', rev], by omega, fun _ => by omega⟩
    | revocation _ _ _ _ hit => exact absurd hit miss

/-- The database after one revocation: one grant, active and of this user, is revoked, and one job for
its subject is enqueued. -/
structure RevokedOnce (st : AppState) (user domain x : String) (db db' : Db) : Prop where
  grant : ∃ g ∈ db.grants, ∃ t, g.domain = domain ∧ g.subjectHash = st.lookupHash x ∧
    st.decryptText g.matrixUserCiphertext = .ok user ∧ g.revokedAt = none ∧
    db'.grants.rows = db.grants.rows.map fun f => if f = g then { g with revokedAt := some t } else f
  job : ∃ j : DeliveryJob, j.isFor st .revocation domain x ∧ db'.jobs.rows = db.jobs.rows ++ [j]

/-- Revoking the grant of a subject is revoking one row. -/
lemma revoke_at_eq {g f : GrantRow} {t : DateTime} (hg : g ∈ db.grants) (hf : f ∈ db.grants) :
    (GrantSet.revoke t).at g.domain g.subjectHash f =
      if f = g then { g with revokedAt := some t } else f := by
  by_cases e : f = g
  · subst e
    rw [if_pos rfl]
    exact if_pos ⟨rfl, rfl⟩
  · rw [if_neg e]
    exact GrantSet.at_ne fun key => e (grant_eq_of_key hf hg key.1 key.2)

/-- A committed Revocation revokes once. -/
lemma Unlink.revokedOnce {event id now} (aead : st.crates.AeadCorrect) (json : st.crates.JsonCorrect)
    (c : Unlink st event past db) (hj : c.job = some (c.newJob.row id now)) :
    RevokedOnce st event.sender c.session.domain c.siteAccountId db c.result := by
  refine ⟨⟨c.grant, c.grant_mem, c.revokedAt, c.grant_domain, c.grant_subject, c.owner, c.active, ?_⟩,
    c.newJob.row id now, (c.isFor_newJob aead json).mpr ⟨rfl, rfl, rfl⟩, ?_⟩
  · have rows : c.result.grants.rows = db.grants.rows.map
        ((GrantSet.revoke c.revokedAt).at c.grant.domain c.grant.subjectHash) := by
      simp only [Unlink.result, Db.updateSession_grants, Db.addJob_grants, Db.reserve_grants]
      rfl
    rw [rows]
    exact List.map_congr_left fun f hf => revoke_at_eq c.grant_mem hf
  · have q := c.queued
    rw [hj] at q
    have jobs : c.result.jobs = (db.addJob (some (c.newJob.row id now))).jobs := by
      rw [Unlink.result, hj]
      rfl
    rw [jobs]
    exact Table.rows_insert q.2

/-- Every step of a Revocation either changes nothing or revokes one active grant of its sender and
enqueues one job; a Revocation that did not find an active grant of its sender changes nothing; and the
revocation jobs of every subject count the revocations of its grant, which are no more than its
logins. -/
theorem revocation_neither_lost_nor_duplicated {ls S} (hmac : st.crates.HmacCollisionFree)
    (aead : st.crates.AeadCorrect) (b64 : st.crates.Base64Correct) (json : st.crates.JsonCorrect)
    (r : Run st ls S) (distinct : JtisDistinct st ls) :
    (∀ t event l a S' sessionId nonce sentAt x reason,
      Step st S (.act t (.inbound event) l a) S' →
      event.message? st = some (.revocation sessionId nonce sentAt x reason) →
      S'.db = S.db ∨ ∃ session ∈ S.db.sessions, session.sessionId = sessionId ∧
        session.nonceHash = st.lookupHash nonce ∧
        RevokedOnce st event.sender session.domain x S.db S'.db) ∧
    (∀ t event l a S' sessionId nonce sentAt x reason domain subjectHash rows es,
      Step st S (.act t (.inbound event) l a) S' →
      event.message? st = some (.revocation sessionId nonce sentAt x reason) →
      ⟨.exec (.selectGrants domain subjectHash), Except.ok rows, es⟩ ∈ l.past →
      (∀ g ∈ rows, g.revokedAt ≠ none ∨ st.decryptText g.matrixUserCiphertext ≠ .ok event.sender) →
      S'.db = S.db) ∧
    ∀ domain x, (∃ n, Counted st (Revokes domain (st.lookupHash x)) ls S n) ∧
      ∀ n, Counted st (Revokes domain (st.lookupHash x)) ls S n →
        S.db.countJobs (·.isFor st .revocation domain x) = n ∧
        n ≤ S.db.countJobs (·.isFor st .assertion domain x) := by
  refine ⟨?_, ?_, fun domain x => ⟨r.counted, fun n c => ?_⟩⟩
  · intro t event l a S' sessionId nonce sentAt x reason s msg
    obtain e | ⟨_, _, _, _, e, _, ch⟩ := r.inv.step_change s
    · exact .inl e
    cases e
    obtain ⟨k, seqs, task, _⟩ := s.act_inv
    obtain e | ⟨c, e⟩ := ch.of_revocation msg
    · exact .inl e
    obtain ⟨id, now, hj⟩ := c.job_some r b64 distinct task
    cases c.message.symm.trans msg
    have found := SessionFilter.accepts_sessionAndNonce.mp c.found
    refine .inr ⟨c.session, c.mem, found.1, found.2, ?_⟩
    rw [e]
    exact c.revokedOnce aead json hj
  · intro t event l a S' sessionId nonce sentAt x reason domain subjectHash rows es s msg mem none
    obtain e | ⟨_, _, _, _, e, _, ch⟩ := r.inv.step_change s
    · exact e
    cases e
    obtain e | ⟨c, _⟩ := ch.of_revocation msg
    · exact e
    obtain rfl := c.looked domain subjectHash rows es mem
    obtain h | h := none c.grant (List.mem_singleton_self _)
    · exact absurd c.active h
    · exact absurd c.owner h
  · obtain ⟨rev, le, _⟩ := c.balance hmac aead b64 json distinct
    exact ⟨rev, le⟩

/-- The registration draws nothing. -/
lemma Env.labels_register_draw (env : Env) (t : Nat) (request : RegistrationRequest) (db : Db)
    (seqs : Seqs) : (env.labels st t (.register request) db seqs).filterMap Label.draw? = [] := by
  refine List.filterMap_eq_nil_iff.mpr fun lb mem => ?_
  obtain rfl | ⟨m, _, rfl⟩ := Env.mem_labels mem
  · rfl
  · rfl

/-- What a call on an event draws. -/
def Moment.draw? (m : Moment) : Option Bytes :=
  match m.act with
  | ⟨.fillBytes _, b, _⟩ => some b.1
  | _ => none

/-- The draws of a call on an event are those of its program. -/
lemma Env.labels_inbound_draw (env : Env) (t : Nat) {event : InboundEvent}
    {p : Prog Op Op.Resp Result} (e : Input.prog st (.inbound event) = p) (db : Db) (seqs : Seqs) :
    (env.labels st t (.inbound event) db seqs).filterMap Label.draw? =
      (env.trace p db seqs {}).filterMap Moment.draw? := by
  subst e
  rw [Env.labels, List.filterMap_cons_none rfl, List.filterMap_map]
  refine List.filterMap_congr fun m _ => ?_
  obtain ⟨_, _, ⟨op, _, _⟩⟩ := m
  cases op with
  | fillBytes n => rfl
  | _ => rfl

namespace Sample

/-- Alice has unlinked her account. -/
def revoked : Env.Final Result :=
  alice.revoked consented.db consented.seqs 13 "$revocation" alice.user alice.subject

/-- The revocation of Alice. -/
def unlinking : RelayRevocation where
  version := 1
  iss := relayOrigin
  aud := alice.domain
  sub := alice.subject
  jti := "DQQAAAAAAAAAAAAAAAAAAA"
  iat := loginTime
  reason := "user_requested"
  kid := relay.signingKid
  signature :=
    "BAQEBAQEBAQEBAQEBAQEBAQEBAQEBAQEBAQEBAQEBAR7ImF1ZCI6ImEuaW8iLCJpYXQiOjEwMDAsImlzcyI6Ig"

/-- What it leaves in the outbox. -/
lemma revoked_jobs : revoked.db.jobs.rows.map content =
    [(.assertion, "a.io", some (assertion.toBytes .stub)),
      (.revocation, "a.io", some (unlinking.toBytes .stub))] := by
  decide +kernel

/-- The call on the Revocation leaves no transaction open. -/
lemma revoked_closed : revoked.loc.log = [] := by decide +kernel

/-- The relay reads Alice's Revocation. -/
lemma alice_revocation (eventId : String) :
    (alice.revocation eventId alice.user alice.subject).message? relay =
      some (alice.revocationMessage alice.subject) :=
  alice_valid.revocation eventId alice_valid.user alice_valid.room (by decide +kernel)

end Sample

/-- What the content of a job says about its subject. -/
lemma Sample.isFor_iff {j : DeliveryJob} {kind kind' : JobKind} {payload : Bytes}
    (h : Sample.content j = (kind, "a.io", some payload))
    (subject : j.subject Sample.relay = some Sample.alice.subject) :
    j.isFor Sample.relay kind' "a.io" Sample.alice.subject ↔ kind = kind' := by
  obtain ⟨kind, domain, _⟩ := Sample.decrypt_of_content h
  simp only [DeliveryJob.isFor, kind, domain, subject, beq_self_eq_true, Bool.and_true, beq_iff_eq]

/-- The assertion of Alice is for her subject. -/
lemma Sample.isFor_assertion {j : DeliveryJob} {k : JobKind}
    (h : Sample.content j = (.assertion, "a.io", some (Sample.assertion.toBytes .stub))) :
    j.isFor Sample.relay k "a.io" Sample.alice.subject ↔ .assertion = k :=
  Sample.isFor_iff h (@DeliveryJob.subject_of_assertion Sample.relay Crates.stub_json _ _
    (Sample.decrypt_of_content h).2.2)

/-- The revocation of Alice is for her subject. -/
lemma Sample.isFor_revocation {j : DeliveryJob} {k : JobKind}
    (h : Sample.content j = (.revocation, "a.io", some (Sample.unlinking.toBytes .stub))) :
    j.isFor Sample.relay k "a.io" Sample.alice.subject ↔ .revocation = k :=
  Sample.isFor_iff h (@DeliveryJob.subject_of_revocation Sample.relay Crates.stub_json _ _
    (Sample.decrypt_of_content h).2.2)

/-- Alice's Revocation is counted once. -/
theorem revocation_neither_lost_nor_duplicated_alice : ∃ ls S, Run Sample.relay ls S ∧
    JtisDistinct Sample.relay ls ∧
    Counted Sample.relay (Revokes "a.io" (Sample.relay.lookupHash Sample.alice.subject)) ls S 1 ∧
    1 ≤ S.db.countJobs (·.isFor Sample.relay .assertion "a.io" Sample.alice.subject) := by
  have read := Sample.alice_revocation "$revocation"
  obtain ⟨S, run, _, hd, _⟩ := (Sample.Login.revokes read (F := Sample.revoked) Sample.reaches_plain rfl
    Sample.revoked_closed (fun _ => trivial) fun _ _ _ _ _ _ => trivial).run
  have one : Sample.revoked.db.countJobs
      (·.isFor Sample.relay .revocation "a.io" Sample.alice.subject) = 1 := by
    obtain ⟨j, rows, e, hj, jobs⟩ := List.map_eq_cons_iff.mp Sample.revoked_jobs
    obtain ⟨j', rows, rfl, hj', jobs⟩ := List.map_eq_cons_iff.mp jobs
    obtain rfl := List.map_eq_nil_iff.mp jobs
    have no := mt (Sample.isFor_assertion (k := .revocation) hj).mp (by decide)
    have yes := (Sample.isFor_revocation hj').mpr rfl
    rw [Db.countJobs, e, List.countP_cons_of_neg no, List.countP_cons_of_pos yes, List.countP_nil]
  have distinct : JtisDistinct Sample.relay (Sample.consentedLabels ++
      (Sample.env 13 Sample.loginTime Sample.alice.site).labels Sample.relay 3
        (.inbound (Sample.alice.revocation "$revocation" Sample.alice.user Sample.alice.subject))
        Sample.consented.db Sample.consented.seqs) := by
    refine .of_nodup ?_
    rw [Sample.consentedLabels, Sample.requestedLabels]
    simp only [List.filterMap_append, Env.labels_register_draw,
      Env.labels_inbound_draw _ _ (Input.prog_request Sample.alice_valid.request),
      Env.labels_inbound_draw _ _ Sample.alice_valid.prog_consent,
      Env.labels_inbound_draw _ _ (Input.prog_revocation read)]
    decide +kernel
  have main := (revocation_neither_lost_nor_duplicated Crates.stub_hmac Crates.stub_aead
    Crates.stub_base64 Crates.stub_json run.run distinct).2.2 "a.io" Sample.alice.subject
  obtain ⟨⟨n, counted⟩, both⟩ := main
  obtain ⟨rev, le⟩ := both n counted
  rw [hd, one] at rev
  subst rev
  exact ⟨_, S, run.run, distinct, counted, le⟩

end WebLoginRelay
