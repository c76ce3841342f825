import WebLoginRelay.Properties.Endings

/-!
# How deliveries end

A tick claims a batch once, posts its jobs one after the other and marks each of them once. After a site
has accepted an assertion nothing that was stored can be in the way of the notice: the payload parses,
the session of the job is there, and its room and its nonce can be read.
-/

namespace WebLoginRelay
open Text Txn Relay

variable {st : AppState} {input : Input} {p : List Act} {tx : Option DateTime} {τ : DateTime}
  {lg : List Entry} {db : Db}

/-! ## Payloads -/

/-- Printed objects of scalars determine their fields. -/
lemma jsonToVec_inj {X : Crates} (json : X.JsonCorrect) {fields fields' : List (String × Value)}
    (nd : (fields.map Prod.fst).Nodup) (sc : ∀ f ∈ fields, f.2.isScalar)
    (nd' : (fields'.map Prod.fst).Nodup) (sc' : ∀ f ∈ fields', f.2.isScalar)
    (e : X.jsonToVec (.obj fields) = X.jsonToVec (.obj fields')) :
    (fields.map fun f => (f.1, Json.ofScalar f.2)) = fields'.map fun f => (f.1, Json.ofScalar f.2) := by
  have h := json fields nd sc
  rw [e, json fields' nd' sc'] at h
  exact (Json.obj.inj (Option.some.inj h)).symm

/-- The bytes of a revocation show its `jti`. -/
lemma RelayRevocation.jti_of_toBytes {X : Crates} (json : X.JsonCorrect) {r r' : RelayRevocation}
    (e : r.toBytes X = r'.toBytes X) : r.jti = r'.jti := by
  have h := jsonToVec_inj json (by simp) (by simp) (by simp) (by simp) e
  simp only [List.map_cons, List.cons.injEq, Prod.mk.injEq, true_and, Json.ofScalar, Json.str.injEq] at h
  exact h.2.2.2.2.1

/-- An `i32` is read from the `i64` it is printed as. -/
lemma i32Field_toInt64 {fields : List (String × Value)} {name : String} {n : Int32}
    (h : Value.i64Field fields name = some n.toInt64) : Value.i32Field fields name = some n := by
  have lo := Int32.le_toInt n
  have hi := Int32.toInt_lt n
  have bounds : -2147483648 ≤ n.toInt ∧ n.toInt ≤ 2147483647 := by omega
  simp [Value.i32Field, h, bounds]

/-- An assertion is read from its bytes. -/
lemma RelayAssertion.strictFromSlice_toBytes {X : Crates} (json : X.JsonCorrect) (a : RelayAssertion) :
    strictFromSlice X RelayAssertion.fromValue (a.toBytes X) = .ok a := by
  refine strictFromSlice_jsonToVec json (by simp) (by simp) ?_
  obtain ⟨fields, e⟩ : ∃ f, a.toValue.fields? = some f := ⟨_, rfl⟩
  have version : Value.i32Field fields "subjectKeyVersion" = some a.subjectKeyVersion := by
    cases e
    exact i32Field_toInt64 rfl
  cases e
  change (Value.i32Field _ "subjectKeyVersion").bind
    (fun v => some { a with subjectKeyVersion := v }) = some a
  rw [version]
  rfl

/-- Posts of jobs of one table show which job they are of. -/
lemma id_of_post {i j : DeliveryJob} {payload payload' : Bytes} (aead : st.crates.AeadCorrect)
    (json : st.crates.JsonCorrect) (hi : ∃ k ∈ db.jobs, k.fixed = i.fixed)
    (hj : ∃ k ∈ db.jobs, k.fixed = j.fixed) (enclosed : ∀ k ∈ db.jobs, Enclosed st k)
    (di : st.decrypt i.payloadCiphertext = .ok payload)
    (dj : st.decrypt j.payloadCiphertext = .ok payload')
    (e : i.post payload = j.post payload') : i.id = j.id := by
  obtain ⟨k, hk, ek⟩ := hi
  obtain ⟨k', hk', ek'⟩ := hj
  have same : i.jti = j.jti → i.id = j.id := fun same => by
    have jti : k.jti = k'.jti := (DeliveryJob.of_fixed ek (·.jti) fun _ => rfl).trans
      (same.trans (DeliveryJob.of_fixed ek' (·.jti) fun _ => rfl).symm)
    obtain rfl := Table.eq_of_clash (fun _ _ => DeliveryJob.Clash.symm) hk hk' (.inr jti)
    exact DeliveryJob.of_fixed (ek.symm.trans ek') (·.id) fun _ => rfl
  have path : i.kind.path = j.kind.path := congrArg SiteRequest.path e
  obtain ⟨content, sealed, signed⟩ := (enclosed k hk).congr ek.symm
  obtain ⟨content', sealed', signed'⟩ := (enclosed k' hk').congr ek'.symm
  cases (sealed.decrypt aead).symm.trans di
  cases (sealed'.decrypt aead).symm.trans dj
  have body : payload = payload' := congrArg SiteRequest.body e
  refine same ?_
  obtain ⟨a, ha⟩ | ⟨r, hr⟩ := signed
  · obtain ⟨a', ha'⟩ | ⟨r', hr'⟩ := signed'
    · have headers := congrArg SiteRequest.extraHeaders e
      simp only [DeliveryJob.post, ha.kind, ha'.kind, if_pos, List.cons.injEq, Prod.mk.injEq] at headers
      exact headers.1.2
    · rw [ha.kind, hr'.kind] at path
      exact absurd path (by decide)
  · obtain ⟨a', ha'⟩ | ⟨r', hr'⟩ := signed'
    · rw [hr.kind, ha'.kind] at path
      exact absurd path (by decide)
    · rw [← hr.jti, ← hr'.jti]
      exact RelayRevocation.jti_of_toBytes json (hr.bytes.symm.trans (body.trans hr'.bytes))

/-! ## Batches -/

/-- The jobs of runs hold signed objects. -/
lemma Reached.enclosed {l : Local} (h : Reached st input l db) : ∀ j ∈ db.jobs, Enclosed st j := by
  obtain ⟨ls, S, t, rest, r, task, rfl⟩ := h
  exact r.enclosed

/-- What a call has claimed is in the table. -/
lemma Reached.claimed {l : Local} (h : Reached st input l db) : ClaimsAreJobs l.past db := by
  obtain ⟨ls, S, t, rest, r, task, rfl⟩ := h
  exact r.claimed task

/-- The payload of an assertion job parses. -/
lemma Enclosed.parsed {job : DeliveryJob} {payload : Bytes} (aead : st.crates.AeadCorrect)
    (json : st.crates.JsonCorrect) (h : Enclosed st job) (kind : job.kind = .assertion)
    (dj : st.decrypt job.payloadCiphertext = .ok payload) :
    ∃ a, strictFromSlice st.crates RelayAssertion.fromValue payload = .ok a ∧
      validateSiteAccountId a.sub = .ok () := by
  obtain ⟨content, sealed, ⟨a, ha⟩ | ⟨r, hr⟩⟩ := h
  · cases (sealed.decrypt aead).symm.trans dj
    exact ⟨a, ha.bytes ▸ RelayAssertion.strictFromSlice_toBytes json a, ha.account⟩
  · rw [hr.kind] at kind
    nomatch kind

/-- What is known of the jobs of one claim. -/
structure IsBatch (st : AppState) (batch : List DeliveryJob) : Prop where
  ids : batch.Pairwise fun i j => i.id ≠ j.id
  enclosed : ∀ j ∈ batch, Enclosed st j
  posts : ∀ i ∈ batch, ∀ j ∈ batch, ∀ payload payload', st.decrypt i.payloadCiphertext = .ok payload →
    st.decrypt j.payloadCiphertext = .ok payload' → i.post payload = j.post payload' → i.id = j.id

/-- A claim yields a batch. -/
lemma OpStep.isBatch {seqs seqs' : Seqs} {l : Local} {limit : Nat} {batch : List DeliveryJob} {es}
    (aead : st.crates.AeadCorrect) (json : st.crates.JsonCorrect)
    (o : OpStep db seqs l ⟨.auto (.claimDue limit), Except.ok batch, es⟩ seqs')
    (enclosed : ∀ j ∈ db.jobs, Enclosed st j) : IsBatch st batch := by
  obtain ⟨now, claims⟩ := o.claim_inv
  have fixed : ∀ j ∈ batch, ∃ k ∈ db.jobs, k.fixed = j.fixed := fun j hj => by
    obtain ⟨k, hk, _, rfl⟩ := claims j hj
    exact ⟨k, hk, (JobSet.on_fixed _ k).symm⟩
  refine ⟨?_, fun j hj => ?_, fun i hi j hj payload payload' di dj e =>
    id_of_post aead json (fixed i hi) (fixed j hj) enclosed di dj e⟩
  · cases o with
    | @auto _ now locked r _ run perm =>
      simp only [Auto.run] at run
      split at run
      · cases run
        refine List.Perm.pairwise perm ?_ fun h => Ne.symm h
        exact List.pairwise_map.mpr (Db.dueJobs_ids.imp fun h => by simpa using h)
      · cases run
  · obtain ⟨k, hk, e⟩ := fixed j hj
    exact (enclosed k hk).congr e.symm

namespace IsBatch
variable {batch marked todo : List DeliveryJob} {job : DeliveryJob}

/-- A job is not one of those before it. -/
lemma not_before (h : IsBatch st batch) (e : batch = marked ++ job :: todo) {j : DeliveryJob}
    (hj : j ∈ marked) : j.id ≠ job.id := by
  have ids := h.ids
  rw [e] at ids
  exact (List.pairwise_append.mp ids).2.2 j hj job List.mem_cons_self

/-- Jobs of a batch with one id are one job. -/
lemma eq_of_id (h : IsBatch st batch) {i j : DeliveryJob} (hi : i ∈ batch) (hj : j ∈ batch)
    (e : i.id = j.id) : i = j := by
  by_contra ne
  have symm : Std.Symm fun i j : DeliveryJob => i.id ≠ j.id := ⟨fun _ _ h => Ne.symm h⟩
  exact h.ids.forall hi hj ne e

end IsBatch

/-! ## Passes over a batch -/

/-- The site has accepted the post of the job. -/
def Delivers (st : AppState) (job : DeliveryJob) (a : Act) : Prop :=
  ∃ payload, st.decrypt job.payloadCiphertext = .ok payload ∧ a.Accepts (job.post payload)

/-- Only posts are accepted. -/
lemma Delivers.op {job : DeliveryJob} {a : Act} (h : Delivers st job a) :
    ∃ payload, st.decrypt job.payloadCiphertext = .ok payload ∧ a.op = .request (job.post payload) := by
  obtain ⟨payload, dj, response, es, rfl, _⟩ := h
  exact ⟨payload, dj, rfl⟩

/-- Quiet actions are no acceptance. -/
lemma Act.IsQuiet.not_delivers {a : Act} {job : DeliveryJob} (q : a.IsQuiet) : ¬ Delivers st job a := by
  intro h
  obtain ⟨_, _, op⟩ := h.op
  simp only [IsQuiet, op] at q

/-- The tick has marked the job delivered, or no site has accepted it, or an operation failed since. -/
def Resolved (st : AppState) (job : DeliveryJob) (past : List Act) : Prop :=
  (∃ a ∈ past, a.op = .auto (.markDelivered job.id)) ∨ Blamed (Delivers st job) past

/-- A job that is resolved stays so while it is not accepted again. -/
lemma Resolved.snoc {job : DeliveryJob} {past : List Act} {a : Act} (h : Resolved st job past)
    (ne : ¬ Delivers st job a) : Resolved st job (past ++ [a]) := by
  obtain ⟨b, hb, op⟩ | h := h
  · exact .inl ⟨b, List.mem_append_left _ hb, op⟩
  · exact .inr (h.snoc ne)

/-- What a tick has done that has marked some jobs of its batch, and posted some. -/
structure Working (st : AppState) (batch marked posted : List DeliveryJob) (past : List Act) :
    Prop where
  claimed : ∃ es, ⟨.auto (.claimDue 10), Except.ok batch, es⟩ ∈ past
  claims : ∀ (jobs : List DeliveryJob) es, ⟨.auto (.claimDue 10), Except.ok jobs, es⟩ ∈ past →
    jobs = batch
  marks : ∀ a ∈ past, ∀ id, a.Marks id → ∃ j ∈ marked, j.id = id
  posts : ∀ a ∈ past, ∀ r, a.op = .request r →
    ∃ j ∈ posted, ∃ payload, st.decrypt j.payloadCiphertext = .ok payload ∧ r = j.post payload
  resolved : ∀ j ∈ marked, Resolved st j past

namespace Working
variable {batch marked posted : List DeliveryJob} {past : List Act} {a : Act}

/-- Actions that neither mark, nor claim, nor post. -/
lemma snoc (h : Working st batch marked posted past) (na : ∀ au, a.op ≠ .auto au)
    (nr : ∀ r, a.op ≠ .request r) : Working st batch marked posted (past ++ [a]) := by
  obtain ⟨es, mem⟩ := h.claimed
  refine ⟨⟨es, List.mem_append_left _ mem⟩, fun jobs es hc => ?_, fun b hb id m => ?_,
    fun b hb r e => ?_, fun j hj => (h.resolved j hj).snoc fun d => ?_⟩
  · obtain hc | hc := List.mem_append.mp hc
    · exact h.claims jobs es hc
    · exact absurd (congrArg Act.op (List.mem_singleton.mp hc)).symm (na _)
  · obtain hb | hb := List.mem_append.mp hb
    · exact h.marks b hb id m
    · cases List.mem_singleton.mp hb
      exact m.elim (fun m => absurd m (na _)) fun m => absurd m (na _)
  · obtain hb | hb := List.mem_append.mp hb
    · exact h.posts b hb r e
    · cases List.mem_singleton.mp hb
      exact absurd e (nr r)
  · obtain ⟨_, _, op⟩ := d.op
    exact nr _ op

/-- Quiet actions do not count. -/
lemma quiet (h : Working st batch marked posted past) (q : a.IsQuiet) :
    Working st batch marked posted (past ++ [a]) := by
  refine h.snoc (fun au e => ?_) fun r e => ?_
  · simp only [Act.IsQuiet, e] at q
  · simp only [Act.IsQuiet, e] at q

/-- A commit neither marks, nor claims, nor posts. -/
lemma commit (h : Working st batch marked posted past) (e : a.op = .commit) :
    Working st batch marked posted (past ++ [a]) := by
  refine h.snoc (fun au auto => ?_) fun r request => ?_
  · cases e.symm.trans auto
  · cases e.symm.trans request

/-- A job is posted. -/
lemma post {job : DeliveryJob} {payload : Bytes} {answer es}
    (h : Working st batch marked posted past) (e : st.decrypt job.payloadCiphertext = .ok payload)
    (other : ∀ j ∈ marked, ¬ Delivers st j ⟨.request (job.post payload), answer, es⟩) :
    Working st batch marked (posted ++ [job]) (past ++ [⟨.request (job.post payload), answer, es⟩]) := by
  obtain ⟨es', mem⟩ := h.claimed
  refine ⟨⟨es', List.mem_append_left _ mem⟩, fun jobs es hc => ?_, fun b hb id m => ?_,
    fun b hb r er => ?_, fun j hj => (h.resolved j hj).snoc (other j hj)⟩
  · obtain hc | hc := List.mem_append.mp hc
    · exact h.claims jobs es hc
    · nomatch congrArg Act.op (List.mem_singleton.mp hc)
  · obtain hb | hb := List.mem_append.mp hb
    · exact h.marks b hb id m
    · cases List.mem_singleton.mp hb
      exact m.elim (fun m => nomatch m) fun m => nomatch m
  · obtain hb | hb := List.mem_append.mp hb
    · obtain ⟨j, hj, rest⟩ := h.posts b hb r er
      exact ⟨j, List.mem_append_left _ hj, rest⟩
    · cases List.mem_singleton.mp hb
      cases er
      exact ⟨job, List.mem_append_right _ (List.mem_singleton_self job), payload, e, rfl⟩

/-- A job is marked. -/
lemma mark {job : DeliveryJob} (h : Working st batch marked posted past) (m : a.Marks job.id)
    (last : Resolved st job (past ++ [a])) :
    Working st batch (marked ++ [job]) posted (past ++ [a]) := by
  obtain ⟨es', mem⟩ := h.claimed
  refine ⟨⟨es', List.mem_append_left _ mem⟩, fun jobs es hc => ?_, fun b hb id m' => ?_,
    fun b hb r er => ?_, fun j hj => ?_⟩
  · obtain hc | hc := List.mem_append.mp hc
    · exact h.claims jobs es hc
    · cases List.mem_singleton.mp hc
      exact m.elim (fun m => nomatch m) fun m => nomatch m
  · obtain hb | hb := List.mem_append.mp hb
    · obtain ⟨j, hj, e⟩ := h.marks b hb id m'
      exact ⟨j, List.mem_append_left _ hj, e⟩
    · cases List.mem_singleton.mp hb
      refine ⟨job, List.mem_append_right _ (List.mem_singleton_self job), ?_⟩
      obtain m | m := m
      · obtain m' | m' := m'
        · exact Auto.markDelivered.inj (Op.auto.inj (m.symm.trans m'))
        · nomatch m.symm.trans m'
      · obtain m' | m' := m'
        · nomatch m.symm.trans m'
        · exact Auto.markFailed.inj (Op.auto.inj (m.symm.trans m'))
  · obtain hb | hb := List.mem_append.mp hb
    · exact h.posts b hb r er
    · cases List.mem_singleton.mp hb
      exact m.elim (fun m => nomatch m.symm.trans er) fun m => nomatch m.symm.trans er
  · obtain hj | hj := List.mem_append.mp hj
    · refine (h.resolved j hj).snoc fun d => ?_
      obtain ⟨_, _, op⟩ := d.op
      exact m.elim (fun m => nomatch m.symm.trans op) fun m => nomatch m.symm.trans op
    · exact List.mem_singleton.mp hj ▸ last

/-- A job that was skipped counts as marked. -/
lemma skip {job : DeliveryJob} (h : Working st batch marked posted past) (last : Resolved st job past) :
    Working st batch (marked ++ [job]) posted past := by
  refine ⟨h.claimed, h.claims, fun a ha id m =>
    (h.marks a ha id m).imp fun _ hj => ⟨List.mem_append_left _ hj.1, hj.2⟩, h.posts, fun j hj => ?_⟩
  obtain hj | hj := List.mem_append.mp hj
  · exact h.resolved j hj
  · exact List.mem_singleton.mp hj ▸ last

/-- A job that was not posted counts as posted. -/
lemma unposted {job : DeliveryJob} (h : Working st batch marked posted past) :
    Working st batch marked (posted ++ [job]) past :=
  ⟨h.claimed, h.claims, h.marks, fun a ha r e =>
    (h.posts a ha r e).imp fun _ hj => ⟨List.mem_append_left _ hj.1, hj.2⟩, h.resolved⟩

/-- A post of another job of the batch is another request. -/
lemma new {job : DeliveryJob} {todo : List DeliveryJob} {payload : Bytes}
    (h : Working st batch marked marked past) (known : IsBatch st batch)
    (e : batch = marked ++ job :: todo) (dj : st.decrypt job.payloadCiphertext = .ok payload) :
    ∀ a ∈ past, a.op ≠ .request (job.post payload) := by
  intro a ha op
  obtain ⟨j, hj, payload', di, same⟩ := h.posts a ha _ op
  have hi : j ∈ batch := e ▸ List.mem_append_left _ hj
  have hm : job ∈ batch := e ▸ List.mem_append_right _ List.mem_cons_self
  exact known.not_before e hj (known.posts j hi job hm payload' payload di dj same.symm)

end Working

/-! ## One delivery -/

/-- How a delivery fails. -/
def Undelivered (st : AppState) (batch marked : List DeliveryJob) (job : DeliveryJob) (past : List Act) :
    Prop :=
  Blamed (Delivers st job) past ∧ Working st batch marked (marked ++ [job]) past

section Delivery
variable {batch marked todo : List DeliveryJob} {job : DeliveryJob}

/-- An acceptance that waits for its update waits while nothing happens. -/
lemma Undelivered.snoc (p : List Act) (a : Act) (q : a.IsQuiet) (h : Undelivered st batch marked job p) :
    Undelivered st batch marked job (p ++ [a]) := ⟨h.1.snoc q.not_delivers, h.2.quiet q⟩

/-- After the post, only operations can fail. -/
lemma Undelivered.keeps :
    Keeps (Undelivered st batch marked job) (Working st batch marked (marked ++ [job])) where
  quiet _ _ q h := h.quiet q
  failed _ _ q fails h := ⟨.of_fails fails, h.quiet q⟩

/-- The notice of a login is sent. -/
lemma ends_sendSuccessResult (compact : st.crates.JsonCompact) {roomId sessionId nonce sub : String}
    (hs : validateId sessionId = .ok ()) (hn : validateId nonce = .ok ())
    (account : validateSiteAccountId sub = .ok ()) (h : Working st batch marked (marked ++ [job]) p) :
    Ends st .tick (Undelivered st batch marked job) (sendSuccessResult st roomId sessionId nonce sub)
      (fun _ l => Working st batch marked (marked ++ [job]) l.past) ⟨p, tx, lg⟩ := by
  refine ends_bind.mpr (ends_nowMs Undelivered.keeps.quiet h fun sentAt p h => ?_)
  have encoded := @MatrixMessage.encode_success _ _ _ sentAt compact _ hs hn account
  refine ends_bind.mpr (ends_liftResult (fun _ e => nomatch encoded.symm.trans e) fun body _ => ?_)
  exact ends_sendNotice Undelivered.keeps.quiet h
    (fun _ => Undelivered.keeps.failed _ _ trivial trivial h) fun p h => h

/-- The notice of a delivered job finds this session, with its room and its nonce. -/
structure Ready (st : AppState) (db : Db) (job : DeliveryJob) (row : SessionRow) : Prop where
  only : db.sessions.rows.filter (SessionFilter.matching job.domain job.sessionId job.nonceHash).accepts =
    [row]
  room : ∃ c roomId, row.requestRoomCiphertext = some c ∧ st.decryptText c = .ok roomId
  nonce : ∃ nonce, st.decryptText row.nonceCiphertext = .ok nonce ∧ validateId nonce = .ok ()
  sessionId : validateId job.sessionId = .ok ()

/-- Every assertion job is ready, however far its session has got. -/
lemma Represented.ready {db : Db} (aead : st.crates.AeadCorrect) (rep : Represented st db)
    (kind : job.kind = .assertion) (there : ∃ k ∈ db.jobs, k.fixed = job.fixed) :
    ∃ row, Ready st db job row := by
  obtain ⟨k, hk, e⟩ := there
  have same : k.kind = job.kind := DeliveryJob.of_fixed e (·.kind) fun _ => rfl
  obtain ⟨row, hr, hd, hs, hn, _, ⟨c, hc, room, sealedRoom⟩, _⟩ := (rep.job k hk (same.trans kind)).congr e.symm
  have registered := rep.registered row hr
  obtain ⟨nonce, valid, sealedNonce, _⟩ := registered.nonce
  refine ⟨row, ?_, ⟨c, room, hc, sealedRoom.decryptText aead⟩, ⟨nonce, sealedNonce.decryptText aead, valid⟩,
    hs ▸ registered.sessionId⟩
  have mem : row ∈ db.sessions.rows.filter
      (SessionFilter.matching job.domain job.sessionId job.nonceHash).accepts :=
    List.mem_filter.mpr ⟨hr, by simp [SessionFilter.accepts, hd, hs, hn]⟩
  -- the key of a session is unique
  have eq : ∀ r ∈ db.sessions.rows.filter
      (SessionFilter.matching job.domain job.sessionId job.nonceHash).accepts, r = row := fun r h => by
    obtain ⟨hm, acc⟩ := List.mem_filter.mp h
    obtain ⟨ad, as, _⟩ := SessionFilter.accepts_matching.mp acc
    exact session_eq_of_key hm hr (ad.trans hd.symm) (as.trans hs.symm)
  have apart := db.sessions.unique.filter
    (SessionFilter.matching job.domain job.sessionId job.nonceHash).accepts
  generalize db.sessions.rows.filter
    (SessionFilter.matching job.domain job.sessionId job.nonceHash).accepts = rows at mem eq apart ⊢
  obtain _ | ⟨r, _ | ⟨r', rows⟩⟩ := rows
  · cases mem
  · rw [eq r (List.mem_singleton_self r)]
  · have ne := (List.pairwise_cons.mp apart).1 r' List.mem_cons_self
    rw [eq r List.mem_cons_self, eq r' (by simp)] at ne
    exact absurd (.inl rfl) ne

/-- After an acceptance nothing that is stored is in the way of the notice. -/
lemma ends_afterAssertionAccepted (aead : st.crates.AeadCorrect) (json : st.crates.JsonCorrect)
    (compact : st.crates.JsonCompact) {payload : Bytes} (kind : job.kind = .assertion)
    (hj : job ∈ batch) (known : IsBatch st batch)
    (dj : st.decrypt job.payloadCiphertext = .ok payload)
    (h : Working st batch marked (marked ++ [job]) p) :
    Ends st .tick (Undelivered st batch marked job) (afterAssertionAccepted st job payload)
      (fun _ l => Working st batch marked (marked ++ [job]) l.past) ⟨p, tx, lg⟩ := by
  obtain ⟨a, parsed, account⟩ := (known.enclosed job hj).parsed aead json kind dj
  refine ends_bind.mpr (ends_liftResult (fun _ e => by cases parsed.symm.trans e) fun _ e => ?_)
  cases parsed.symm.trans e
  refine ends_inTx Undelivered.keeps h Undelivered.snoc (fun _ _ _ q h => h.quiet q) fun τ p h => ?_
  obtain ⟨es, claimed⟩ := h.claimed
  have ready {db : Db} (reached : Reached st .tick ⟨p, some τ, []⟩ db) : ∃ row, Ready st db job row :=
    reached.represented.ready aead kind (reached.claimed job ⟨batch, es, claimed, hj⟩)
  refine ends_bind.mpr (ends_selectSessions Undelivered.keeps h
    (fun p db row row' rows h reached two => ?_) (fun p db h reached none => ?_)
    fun session p db h reached acc mem => ?_)
  · obtain ⟨_, r⟩ := ready reached
    cases two.symm.trans r.only
  · obtain ⟨row, r⟩ := ready reached
    have found : row ∈ db.sessions.rows.filter
        (SessionFilter.matching job.domain job.sessionId job.nonceHash).accepts := by simp [r.only]
    exact absurd (List.mem_filter.mp found).2 (none row (List.mem_filter.mp found).1)
  · obtain ⟨row, r⟩ := ready reached
    have found : session ∈ db.sessions.rows.filter
        (SessionFilter.matching job.domain job.sessionId job.nonceHash).accepts :=
      List.mem_filter.mpr ⟨mem, acc⟩
    rw [r.only, List.mem_singleton] at found
    subst found
    obtain ⟨c, roomId, hc, room_ok⟩ := r.room
    obtain ⟨nonce, nonce_ok, hn⟩ := r.nonce
    dsimp only
    split
    · rename_i none
      cases none.symm.trans hc
    rename_i c' hc'
    cases hc'.symm.trans hc
    refine ends_bind.mpr (ends_liftResult (fun _ e => by cases room_ok.symm.trans e) fun _ _ => ?_)
    refine ends_bind.mpr (ends_liftResult (fun _ e => by cases nonce_ok.symm.trans e) fun _ e => ?_)
    cases nonce_ok.symm.trans e
    refine ends_bind.mpr (ends_casUpdate Undelivered.keeps h (by simp) (by simp [Entry.WritesSession])
      fun p h => ?_)
    refine ends_bind.mpr (ends_commit (fun x es => ⟨.of_fails trivial, h.commit rfl⟩) ?_)
    exact ends_sendSuccessResult compact r.sessionId hn account (h.commit rfl)

/-- One delivery: before the acceptance it fails without one, and after it only operations fail. -/
lemma ends_deliver (aead : st.crates.AeadCorrect) (json : st.crates.JsonCorrect)
    (compact : st.crates.JsonCompact) (known : IsBatch st batch) (e : batch = marked ++ job :: todo)
    (h : Working st batch marked marked p) :
    Ends st .tick (Undelivered st batch marked job) (deliver st job)
      (fun _ l => Working st batch marked (marked ++ [job]) l.past) ⟨p, tx, lg⟩ := by
  have hj : job ∈ batch := e ▸ List.mem_append_right _ List.mem_cons_self
  have early : Undelivered st batch marked job p := by
    refine ⟨.inl fun a ha d => ?_, h.unposted⟩
    obtain ⟨payload, dj, op⟩ := d.op
    exact h.new known e dj _ ha op
  refine ends_bind.mpr (ends_liftResult (fun _ _ => early) fun payload dj => ends_bind.mpr ?_)
  rw [postJson_job]
  -- the posts of the other jobs are other requests
  have other (answer es) (j : DeliveryJob) (hm : j ∈ marked) :
      ¬ Delivers st j ⟨.request (job.post payload), answer, es⟩ := fun d => by
    obtain ⟨payload', dj', op⟩ := d.op
    exact known.not_before e hm (known.posts j (e ▸ List.mem_append_left _ hm) job hj payload' payload dj' dj
      (Op.request.inj op).symm)
  refine ends_request (fun db answer reached => fun _ id post a ha marks => ?_) (fun x => ?_)
    fun response => ?_
  · obtain ⟨job', payload', ⟨jobs, es, claim, mem⟩, rfl, dj', same⟩ := post
    obtain rfl := h.claims jobs es claim
    obtain ⟨j, hm, e'⟩ := h.marks a ha _ marks
    exact known.not_before e hm (e'.trans (known.posts job hj job' mem payload payload' dj dj' same).symm)
  · refine ⟨early.1.snoc ?_, h.post dj (other _ _)⟩
    rintro ⟨_, _, _, _, eq, _⟩
    nomatch eq
  · have posted := h.post dj (other (Except.ok response) [])
    split
    · rename_i refused
      refine ⟨early.1.snoc ?_, posted⟩
      rintro ⟨_, _, response', _, eq, accepted⟩
      cases eq
      exact accepted.elim refused.1 refused.2
    · split
      · rename_i kind
        exact ends_afterAssertionAccepted aead json compact kind hj known dj posted
      · exact ends_pure.mpr posted

/-- An operation has just failed. -/
def FailsLast (past : List Act) : Prop := ∃ pre a, past = pre ++ [a] ∧ a.Fails

/-- A statement that marks a job. -/
lemma ends_mark {a : Auto} {m : DeliveryJob} (is : ∀ r es, Act.Marks ⟨.auto a, r, es⟩ m.id)
    (ok : ∀ r es, Disciplined st ⟨p, tx, lg⟩ ⟨.auto a, r, es⟩)
    (last : ∀ r es, Resolved st m (p ++ [⟨.auto a, r, es⟩]))
    (h : Working st batch marked (marked ++ [m]) p) {P : a.Resp → Local → Prop}
    (next : ∀ r p, Working st batch (marked ++ [m]) (marked ++ [m]) p → P r ⟨p, tx, lg⟩) :
    Ends st .tick FailsLast (auto a) P ⟨p, tx, lg⟩ := by
  refine ends_bind.mpr (ends_ask.mpr fun answer b ⟨es, eb, db, seqs, seqs', reached, s⟩ => ?_)
  subst eb
  refine ⟨ok answer es, ends_liftResult (fun _ e => ?_) fun r _ => ?_⟩
  · cases answer with
    | ok _ => nomatch e
    | error _ => exact ⟨p, _, rfl, trivial⟩
  · exact next r _ (h.mark (is answer es) (last answer es))

/-- The body of the loop marks its job, or leaves it. -/
lemma ends_deliverJob (aead : st.crates.AeadCorrect) (json : st.crates.JsonCorrect)
    (compact : st.crates.JsonCompact) (known : IsBatch st batch) (e : batch = marked ++ job :: todo)
    (h : Working st batch marked marked p) :
    Ends st .tick FailsLast (deliverJob st job)
      (fun _ l => Working st batch (marked ++ [job]) (marked ++ [job]) l.past) ⟨p, tx, lg⟩ := by
  have hj : job ∈ batch := e ▸ List.mem_append_right _ List.mem_cons_self
  have unmarked {p : List Act} (h : Working st batch marked (marked ++ [job]) p) :
      ∀ a ∈ p, ¬ a.Marks job.id := fun a ha marks => by
    obtain ⟨j, hm, e'⟩ := h.marks a ha _ marks
    exact known.not_before e hm e'
  refine (Prog.wp_bind _ _ _).mpr (Prog.wp_mono _ _ _ (fun r l w => ?_)
    (ends_deliver aead json compact known e h))
  obtain ⟨p, tx, lg⟩ := l
  cases r with
  | ok _ =>
    have w : Working st batch marked (marked ++ [job]) p := w
    exact ends_bind.mpr (ends_mark (fun _ _ => .inl rfl) (fun _ _ => unmarked w)
      (fun _ _ => .inl ⟨_, List.mem_append_right _ (List.mem_singleton_self _), rfl⟩) w
      fun _ _ w => ends_pure.mpr w)
  | error _ =>
    obtain ⟨blamed, w⟩ := w
    dsimp only
    split
    · refine ends_bind.mpr (ends_mark (fun _ _ => .inr rfl) (fun _ _ => ⟨unmarked w, ?_⟩)
        (fun _ _ => .inr (blamed.snoc fun d => ?_)) w fun _ _ w => ends_pure.mpr w)
      case refine_2 =>
        obtain ⟨_, _, op⟩ := d.op
        nomatch op
      rintro r ⟨job', payload, ⟨jobs, es, claim, mem⟩, same, dj, rfl⟩
      obtain rfl := w.claims jobs es claim
      obtain rfl := known.eq_of_id mem hj same
      refine blamed.congr fun a => ⟨?_, fun acc => ⟨payload, dj, acc⟩⟩
      rintro ⟨payload', dj', acc⟩
      cases dj.symm.trans dj'
      exact acc
    · exact w.skip (.inr blamed)

/-- The loop of a tick. -/
lemma ends_deliverAll (aead : st.crates.AeadCorrect) (json : st.crates.JsonCorrect)
    (compact : st.crates.JsonCompact) (known : IsBatch st batch) (e : batch = marked ++ todo)
    (h : Working st batch marked marked p) :
    Ends st .tick FailsLast (deliverAll st todo) (fun _ l => Working st batch batch batch l.past)
      ⟨p, tx, lg⟩ := by
  induction todo generalizing marked p tx lg with
  | nil =>
    rw [List.append_nil] at e
    subst e
    exact ends_pure.mpr h
  | cons job todo ih =>
    refine ends_bind.mpr (ends_mono (fun _ l w => ?_) (ends_deliverJob aead json compact known e h))
    exact ih (by rw [e, List.append_assoc, List.singleton_append]) w

/-- A tick posts each job of its claim at most once, before it marks it. -/
lemma ends_tick (aead : st.crates.AeadCorrect) (json : st.crates.JsonCorrect)
    (compact : st.crates.JsonCompact) :
    Ends st .tick FailsLast (tick st) (fun _ l => ∃ batch, Working st batch batch batch l.past) {} := by
  refine ends_bind.mpr (ends_bind.mpr (ends_ask.mpr fun answer a ⟨es, ea, db, seqs, seqs', reached, s⟩ => ?_))
  subst ea
  have first : Disciplined st {} ⟨.auto (.claimDue 10), answer, es⟩ := fun _ hb => nomatch hb
  refine ⟨first, ends_liftResult (fun _ e => ?_) fun batch ok => ?_⟩
  · cases answer with
    | ok _ => nomatch e
    | error _ => exact ⟨[], _, rfl, trivial⟩
  cases answer with
  | error _ => nomatch ok
  | ok batch =>
    cases ok
    have unmarked : batch = [] ++ batch := rfl
    refine ends_mono (fun _ _ w => ⟨batch, w⟩) <| ends_deliverAll aead json compact (s.isBatch aead json reached.enclosed) unmarked
      ⟨⟨es, List.mem_singleton_self _⟩, fun jobs es' h => ?_, fun b hb id m => ?_, fun b hb r e => ?_,
        nofun⟩
    · cases List.mem_singleton.mp h
      rfl
    · cases List.mem_singleton.mp hb
      exact m.elim (fun m => nomatch m) fun m => nomatch m
    · cases List.mem_singleton.mp hb
      nomatch e

/-- A tick that has returned has marked delivered what was accepted, or an operation has failed since. -/
lemma Run.resolves (aead : st.crates.AeadCorrect) (json : st.crates.JsonCorrect)
    (compact : st.crates.JsonCompact) {ls S} (r : Run st ls S) {t result l}
    (h : S.tasks t = some ⟨.tick, some (.ret result), l⟩) (claimed : Claimed l.past job) {payload : Bytes}
    (dj : st.decrypt job.payloadCiphertext = .ok payload) :
    (∃ a ∈ l.past, a.op = .auto (.markDelivered job.id)) ∨
      Blamed (Act.Accepts (job.post payload)) l.past := by
  have done := r.within
    (Q := fun _ l => FailsLast l.past ∨ ∃ batch, Working st batch batch batch l.past)
    (Ends.call (f := .ticked) (ends_tick aead json compact) (fun _ _ w => .inr w) fun _ _ w => .inl w) h
  obtain ⟨pre, a, past, fails⟩ | ⟨batch, w⟩ := done
  · rw [past]
    exact .inr (.of_fails fails)
  · obtain ⟨jobs, es, mem, hj⟩ := claimed
    obtain rfl := w.claims jobs es mem
    refine (w.resolved job hj).imp id fun blamed => blamed.congr fun a => ⟨?_, fun acc => ⟨payload, dj, acc⟩⟩
    rintro ⟨payload', dj', acc⟩
    cases dj.symm.trans dj'
    exact acc

end Delivery

end WebLoginRelay
