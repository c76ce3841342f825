import WebLoginRelay.System.Inv

/-!
# Calls one at a time

An executable run of a single call. `Env` fixes what the environment answers to each operation of the
call, and `Env.run` computes its result and the database after it. Such a call is one of the relay's
runs (`Quiet.call`), so that what it computes is reachable, and two calls can be compared under the
same answers.
-/

namespace WebLoginRelay
open Text Txn

/-- The answers of the environment to the operations of a call, by their number. -/
structure Env where
  now : Nat → Int64
  bytes : Nat → (n : Nat) → { b : Bytes // b.length = n }
  site : Nat → SiteRequest → Except RelayError SiteResponse
  notice : Nat → Except RelayError Unit
  begun : Nat → Except DbError DateTime
  /-- The operation fails without an effect. -/
  fault : Nat → Bool
  committed : Nat → Except DbError Unit
  rolledBack : Nat → Except DbError Unit
  /-- `NOW()` of a statement on a pooled connection. -/
  autoNow : Nat → DateTime
  /-- The jobs `SKIP LOCKED` passes over. -/
  locked : Nat → List Nat

/-- The response to an operation, its journal entries and the sequences after it. -/
structure Answer (o : Op) where
  resp : o.Resp
  log : List Entry
  seqs : Seqs

/-- The action of an answer. -/
def Answer.act {o : Op} (a : Answer o) : Act := ⟨o, a.resp, a.log⟩

/-- An action of a call, with the database and the call before it. -/
structure Moment where
  db : Db
  loc : Local
  act : Act

/-- The label of an action. -/
def Moment.label (t : Nat) (input : Input) (m : Moment) : Label := .act t input m.loc m.act

/-- Something is posted to a site. -/
def Moment.isPost (m : Moment) : Bool :=
  match m.act.op with
  | .request r => r.method == .post
  | _ => false

namespace Env
variable (env : Env)

/-- The answer to the next operation of a call. A statement on a pooled connection would wait for the
call's own open transaction, so it fails there. -/
def answer (db : Db) (seqs : Seqs) (l : Local) : (o : Op) → Answer o
  | .now => ⟨env.now l.past.length, [], seqs⟩
  | .fillBytes n => ⟨env.bytes l.past.length n, [], seqs⟩
  | .request r => ⟨env.site l.past.length r, [], seqs⟩
  | .sendNotice _ _ => ⟨env.notice l.past.length, [], seqs⟩
  | .begin => ⟨env.begun l.past.length, [], seqs⟩
  | .exec q =>
    match l.tx, env.fault l.past.length with
    | some now, false =>
      let out := q.run (journal.replay db l.log) seqs now
      ⟨out.resp, out.log, out.seqs⟩
    | _, _ => ⟨Except.error .other, [], seqs⟩
  | .commit =>
    match l.tx, env.fault l.past.length with
    | some _, false => ⟨env.committed l.past.length, l.log, seqs⟩
    | _, _ => ⟨Except.error .other, [], seqs⟩
  | .rollback => ⟨env.rolledBack l.past.length, [], seqs⟩
  | .drop => ⟨(), [], seqs⟩
  | .auto a =>
    let out := a.run db seqs (env.autoNow l.past.length) (env.locked l.past.length)
    match l.log, env.fault l.past.length, out.resp with
    | [], false, .ok r => ⟨Except.ok r, out.log, seqs⟩
    | _, _, _ => ⟨Except.error .other, [], seqs⟩

/-- The answers are among the actions a task can perform. -/
lemma answer_step (db : Db) (seqs : Seqs) (l : Local) (o : Op) :
    OpStep db seqs l (env.answer db seqs l o).act (env.answer db seqs l o).seqs := by
  cases o with
  | now => exact .now _
  | fillBytes n => exact .fillBytes _
  | request r => exact .request _
  | sendNotice roomId body => exact .sendNotice _
  | begin => exact .begin _
  | exec q =>
    simp only [answer]
    split
    · rename_i now tx _
      exact .exec tx
    · exact .execFault
  | commit =>
    simp only [answer]
    split
    · rename_i now tx _
      exact .commit _ tx
    · exact .commitFault
  | rollback => exact .rollback _
  | drop => exact .drop
  | auto a =>
    simp only [answer]
    split
    · rename_i r _ _ e
      exact .auto e (Auto.Reorders.refl r)
    · exact .autoFault

/-- A statement on a pooled connection finds no open transaction of its call. -/
lemma answer_auto (db : Db) (seqs : Seqs) (l : Local) (a : Auto) :
    (env.answer db seqs l (.auto a)).log = [] ∨ l.log = [] := by
  simp only [answer]
  split
  · rename_i e _ _
    exact .inr e
  · exact .inl rfl

/-- A call that has ended. -/
structure Final (α : Type) where
  result : α
  db : Db
  seqs : Seqs
  loc : Local

/-- Run a call to its end. -/
def run {α : Type} : Prog Op Op.Resp α → Db → Seqs → Local → Final α
  | .ret a, db, seqs, l => ⟨a, db, seqs, l⟩
  | .req o k, db, seqs, l =>
    let a := env.answer db seqs l o
    run (k a.resp) (journal.replay db a.act.writes) a.seqs (l.after a.act)

/-- Run a call from its start. -/
def call (st : AppState) (input : Input) (db : Db) (seqs : Seqs) : Final Result :=
  env.run (input.prog st) db seqs {}

/-- The actions of a call, each with the database and the call before it. -/
def trace {α : Type} : Prog Op Op.Resp α → Db → Seqs → Local → List Moment
  | .ret _, _, _, _ => []
  | .req o k, db, seqs, l =>
    let a := env.answer db seqs l o
    ⟨db, l, a.act⟩ :: trace (k a.resp) (journal.replay db a.act.writes) a.seqs (l.after a.act)

/-- A call that has not ended. -/
structure Paused (α : Type) where
  prog : Prog Op Op.Resp α
  db : Db
  seqs : Seqs
  loc : Local

/-- Run the first operation of a call. -/
def pause {α : Type} : Prog Op Op.Resp α → Db → Seqs → Local → Paused α
  | .ret a, db, seqs, l => ⟨.ret a, db, seqs, l⟩
  | .req o k, db, seqs, l =>
    let a := env.answer db seqs l o
    ⟨k a.resp, journal.replay db a.act.writes, a.seqs, l.after a.act⟩

/-- A run goes on after its first operation. -/
lemma run_pause {α : Type} (p : Prog Op Op.Resp α) (db : Db) (seqs : Seqs) (l : Local) :
    env.run p db seqs l = env.run (env.pause p db seqs l).prog (env.pause p db seqs l).db
      (env.pause p db seqs l).seqs (env.pause p db seqs l).loc := by
  cases p <;> rfl

/-- The trace of a call starts with its first operation. -/
lemma trace_pause {α : Type} {o : Op} {k : o.Resp → Prog Op Op.Resp α} {p : Prog Op Op.Resp α}
    (e : p = .req o k) (db : Db) (seqs : Seqs) (l : Local) :
    env.trace p db seqs l = ⟨db, l, (env.answer db seqs l o).act⟩ :: env.trace (env.pause p db seqs l).prog
      (env.pause p db seqs l).db (env.pause p db seqs l).seqs (env.pause p db seqs l).loc := by
  subst e
  rfl

/-- The clock of a call is the clock of its environment. -/
lemma now_of_trace {env : Env} {α : Type} {p : Prog Op Op.Resp α} {db : Db} {seqs : Seqs} {l : Local}
    {m : Moment} (h : m ∈ env.trace p db seqs l) {t : Int64} {es : List Entry} (e : m.act = ⟨.now, t, es⟩) :
    ∃ i, t = env.now i := by
  induction p generalizing db seqs l with
  | ret a => nomatch h
  | req o k ih =>
    obtain rfl | h := List.mem_cons.mp h
    · obtain ⟨rfl, resp, -⟩ := Act.mk.inj e
      exact ⟨_, (eq_of_heq resp).symm⟩
    · exact ih _ h

/-- The run of a sequence. -/
lemma run_bind {α β : Type} (x : Prog Op Op.Resp α) (f : α → Prog Op Op.Resp β) (db : Db)
    (seqs : Seqs) (l : Local) :
    env.run (x >>= f) db seqs l =
      env.run (f (env.run x db seqs l).result) (env.run x db seqs l).db (env.run x db seqs l).seqs
        (env.run x db seqs l).loc := by
  induction x generalizing db seqs l with
  | ret a => rfl
  | req o k ih => exact ih _ _ _ _

end Env

/-! ## Runs of the parts of a call -/

variable {st : AppState}

/-- A part of a call that succeeds. -/
lemma Env.run_bind_ok (env : Env) {α β : Type} {x : Relay α} {f : α → Relay β} {a : α} {db db' : Db}
    {seqs seqs' : Seqs} {l l' : Local} (h : env.run x.run db seqs l = ⟨.ok a, db', seqs', l'⟩) :
    env.run (x >>= f).run db seqs l = env.run (f a).run db' seqs' l' := by
  rw [ExceptT.run_bind, Env.run_bind, h]

/-- A computation without effects that succeeds. -/
lemma Env.run_lift_ok (env : Env) {α : Type} {r : Except RelayError α} {a : α} (db : Db) (seqs : Seqs)
    (l : Local) (h : r = .ok a) : env.run (Relay.liftResult r).run db seqs l = ⟨.ok a, db, seqs, l⟩ := by
  rw [h]
  rfl

/-- The request for the metadata of a site. -/
def metadataRequest (domain : String) : SiteRequest :=
  ⟨domain, metadataPath, .get, [], [], maxMetadataBytes⟩

/-- The metadata a site answers with. -/
lemma Env.run_fetchVerifiedMetadata (env : Env) {domain : String} {metadata : SiteMetadata} {body : Bytes}
    (db : Db) (seqs : Seqs) (l : Local)
    (site : env.site l.past.length (metadataRequest domain) = .ok ⟨200, body⟩)
    (parsed : strictFromSlice st.crates SiteMetadata.fromValue body = .ok metadata)
    (signed : metadata.validateForDomain st.crates domain = .ok ()) :
    env.run (fetchVerifiedMetadata st domain).run db seqs l =
      ⟨.ok metadata, db, seqs, l.after ⟨.request (metadataRequest domain), Except.ok ⟨200, body⟩, []⟩⟩ := by
  have asked : env.run (Relay.request (metadataRequest domain)).run db seqs l = ⟨.ok ⟨200, body⟩, db, seqs,
      l.after ⟨.request (metadataRequest domain), Except.ok ⟨200, body⟩, []⟩⟩ := by
    have e : env.run (Relay.request (metadataRequest domain)).run db seqs l =
        ⟨env.site l.past.length (metadataRequest domain), db, seqs,
          l.after ⟨.request (metadataRequest domain), env.site l.past.length (metadataRequest domain), []⟩⟩ :=
      rfl
    rw [e, site]
  have fetched : env.run (fetchMetadata st domain).run db seqs l = ⟨.ok metadata, db, seqs,
      l.after ⟨.request (metadataRequest domain), Except.ok ⟨200, body⟩, []⟩⟩ := by
    refine (env.run_bind_ok asked).trans ?_
    rw [if_neg fun h => h rfl]
    refine (env.run_bind_ok (env.run_lift_ok _ _ _ (by rw [parsed]; rfl))).trans ?_
    exact env.run_bind_ok (env.run_lift_ok _ _ _ signed)
  have mapped := env.run_bind (fetchMetadata st domain).run
    (fun r => pure (orFail .domainVerificationFailed r)) db seqs l
  rw [fetched] at mapped
  exact mapped

/-- A registration that is verified goes on to store its session. -/
lemma Env.run_registerSession (env : Env) {request : RegistrationRequest} {metadata : SiteMetadata}
    {body qr registration : Bytes} (db : Db) (seqs : Seqs)
    (valid : request.validate = .ok ()) (unexpired : ¬ request.exp ≤ env.now 0)
    (site : env.site 1 (metadataRequest request.domain) = .ok ⟨200, body⟩)
    (parsed : strictFromSlice st.crates SiteMetadata.fromValue body = .ok metadata)
    (signed : metadata.validateForDomain st.crates request.domain = .ok ())
    (qr_eq : request.qrCanonical st.crates = .ok qr)
    (qrSigned : Ed25519.verify st.crates metadata.publicKey qr request.qrSignature = .ok ())
    (registration_eq : request.registrationCanonical st.crates = .ok registration)
    (registrationSigned : Ed25519.verify st.crates metadata.publicKey registration
      request.registrationSignature = .ok ()) :
    env.run (registerSession st request).run db seqs {} =
      env.run (storeSession st request metadata).run db seqs
        { past := [⟨.now, env.now 0, []⟩,
          ⟨.request (metadataRequest request.domain), Except.ok ⟨200, body⟩, []⟩] } := by
  let l : Local := { past := [⟨.now, env.now 0, []⟩] }
  have clock : env.run Relay.nowMs.run db seqs {} = ⟨.ok (env.now 0), db, seqs, l⟩ := rfl
  refine (env.run_bind_ok (env.run_lift_ok _ _ _ valid)).trans ?_
  refine (env.run_bind_ok clock).trans ?_
  rw [if_neg unexpired]
  refine (env.run_bind_ok (env.run_fetchVerifiedMetadata db seqs l site parsed signed)).trans ?_
  refine (env.run_bind_ok (env.run_lift_ok _ _ _ qr_eq)).trans ?_
  refine (env.run_bind_ok (env.run_lift_ok _ _ _ (by rw [qrSigned]; rfl))).trans ?_
  refine (env.run_bind_ok (env.run_lift_ok _ _ _ registration_eq)).trans ?_
  exact env.run_bind_ok (env.run_lift_ok _ _ _ (by rw [registrationSigned]; rfl))

/-- The program of a call on a Request. -/
lemma Input.prog_request {event : InboundEvent} {sessionId nonce sentAt domain}
    (msg : event.message? st = some (.request sessionId nonce sentAt domain)) :
    Input.prog st (.inbound event) =
      Result.handled <$> (processRequest st event sessionId nonce sentAt domain).run := by
  simp only [Input.prog, handleInbound, msg]

/-- The program of a call on a Consent. -/
lemma Input.prog_consent {event : InboundEvent}
    {sessionId nonce sentAt approved displayName challenge keyId signature}
    (msg : event.message? st =
      some (.consent sessionId nonce sentAt approved displayName challenge keyId signature)) :
    Input.prog st (.inbound event) = Result.handled <$> (processConsent st event sessionId nonce sentAt
      approved displayName challenge keyId signature).run := by
  simp only [Input.prog, handleInbound, msg]

/-- A Consent whose signature is accepted goes on to its transaction. -/
lemma processConsent_verified {event : InboundEvent}
    {sessionId nonce sentAt approved displayName challenge keyId signature signed}
    (signed_eq : consentSignedBytes st.crates approved challenge displayName nonce sessionId sentAt =
      .ok signed)
    (verified : P256.verifyConsentSignature st.crates keyId signed signature = .ok ()) :
    processConsent st event sessionId nonce sentAt approved displayName challenge keyId signature = (do
      let now ← Relay.nowMs
      Relay.inTx do
        match ← getBySessionAndNonce sessionId (st.lookupHash nonce) with
        | none => throw (.problem .sessionNotFound)
        | some session =>
          consentOn st event sessionId nonce sentAt approved displayName challenge now session) := by
  unfold processConsent
  refine bind_congr fun now => ?_
  rw [signed_eq]
  show (Relay.liftResult (P256.verifyConsentSignature st.crates keyId signed signature) >>= _) = _
  rw [verified]
  rfl

/-- The program of a call on a Revocation. -/
lemma Input.prog_revocation {event : InboundEvent} {sessionId nonce sentAt siteAccountId reason}
    (msg : event.message? st = some (.revocation sessionId nonce sentAt siteAccountId reason)) :
    Input.prog st (.inbound event) =
      Result.handled <$> (processRevocation st event sessionId nonce siteAccountId reason).run := by
  simp only [Input.prog, handleInbound, msg]

/-! ## Single calls are runs -/

variable {C : Sys → Label → Prop}

/-- No transaction is open, no call is under way, and the names from `n` on are free. -/
structure Sys.Quiet (S : Sys) (n : Nat) : Prop where
  idle : ∀ u, S.journalOf u = []
  done : ∀ u task p, S.tasks u = some task → task.rest = some p → ∃ r, p = .ret r
  free : ∀ u, n ≤ u → S.tasks u = none

/-- A task that is alone waits for nobody. -/
lemma Env.answer_free (env : Env) {S : Sys} {t : Nat} {l : Local} {o : Op}
    (own : S.journalOf t = l.log) (alone : ∀ u, u ≠ t → S.journalOf u = []) :
    S.Free t (env.answer S.db S.seqs l o).act := by
  intro u wait
  by_cases hu : u = t
  · subst hu
    cases o with
    | auto a =>
      obtain e | e := env.answer_auto S.db S.seqs l a
      · simp [Answer.act, e]
      · simp [own, e]
    | _ => exact absurd rfl wait
  · simp [alone u hu]

/-- A call is started under a free name. -/
lemma Sys.start (st : AppState) {S : Sys} {t : Nat} (input : Input) (free : S.tasks t = none)
    (wf : input.WellFormed) :
    ∃ S', Step st S (.spawn t input) S' ∧ S'.db = S.db ∧ S'.seqs = S.seqs ∧
      S'.tasks t = some ⟨input, some (input.prog st), {}⟩ ∧ ∀ u, u ≠ t → S'.tasks u = S.tasks u :=
  ⟨_, .spawn free wf, rfl, rfl, by simp [Sys.set], fun u hu => by simp [Sys.set, hu]⟩

/-- The journal of a task depends on that task only. -/
lemma Sys.journalOf_congr {S S' : Sys} {u : Nat} (h : S'.tasks u = S.tasks u) :
    S'.journalOf u = S.journalOf u := by simp only [Sys.journalOf, h]

/-- The state in which `t` acts while the other tasks are as in `S`. -/
structure Moment.In (m : Moment) (t : Nat) (input : Input) (S S₁ : Sys) : Prop where
  db : S₁.db = m.db
  task : ∃ p, S₁.tasks t = some ⟨input, p, m.loc⟩
  others : ∀ u, u ≠ t → S₁.tasks u = S.tasks u

/-- A task that is alone performs its first operation. -/
lemma Env.pause_step (env : Env) (st : AppState) {S : Sys} {t : Nat} {input : Input} {o : Op}
    {k : o.Resp → Prog Op Op.Resp Result} {l : Local} (h : S.tasks t = some ⟨input, some (.req o k), l⟩)
    (alone : ∀ u, u ≠ t → S.journalOf u = []) :
    ∃ S', Step st S (.act t input l (env.answer S.db S.seqs l o).act) S' ∧
      S'.db = (env.pause (.req o k) S.db S.seqs l).db ∧
      S'.seqs = (env.pause (.req o k) S.db S.seqs l).seqs ∧
      S'.tasks t = some ⟨input, some (env.pause (.req o k) S.db S.seqs l).prog,
        (env.pause (.req o k) S.db S.seqs l).loc⟩ ∧
      ∀ u, u ≠ t → S'.tasks u = S.tasks u := by
  have own : S.journalOf t = l.log := by simp [Sys.journalOf, h]
  exact ⟨_, .act h (env.answer_step S.db S.seqs l o) (env.answer_free own alone), rfl, rfl,
    by simp [Sys.set, pause, Answer.act], fun u hu => by simp [Sys.set, hu]⟩

/-- A task that is alone runs to its end. -/
lemma Env.run_steps (env : Env) {S : Sys} {t : Nat} {input : Input} {p : Prog Op Op.Resp Result}
    {l : Local} (h : S.tasks t = some ⟨input, some p, l⟩)
    (alone : ∀ u, u ≠ t → S.journalOf u = [])
    (ok : ∀ m ∈ env.trace p S.db S.seqs l, ∀ S₁, m.In t input S S₁ → C S₁ (m.label t input)) :
    ∃ S', StepsWhen st C S ((env.trace p S.db S.seqs l).map (Moment.label t input)) S' ∧
      S'.db = (env.run p S.db S.seqs l).db ∧ S'.seqs = (env.run p S.db S.seqs l).seqs ∧
      S'.tasks t = some ⟨input, some (.ret (env.run p S.db S.seqs l).result),
        (env.run p S.db S.seqs l).loc⟩ ∧
      ∀ u, u ≠ t → S'.tasks u = S.tasks u := by
  induction p generalizing S l with
  | ret a => exact ⟨S, .nil, rfl, rfl, h, fun _ _ => rfl⟩
  | req o k ih =>
    have own : S.journalOf t = l.log := by simp [Sys.journalOf, h]
    have free := env.answer_free (o := o) own alone
    have step := env.answer_step S.db S.seqs l o
    have now := ok _ (List.mem_cons_self ..) S ⟨rfl, ⟨_, h⟩, fun _ _ => rfl⟩
    have rest := fun m hm => ok m (List.mem_cons_of_mem _ hm)
    simp only [Env.run, Env.trace]
    generalize env.answer S.db S.seqs l o = a at free step now rest ⊢
    obtain ⟨r, es, seqs⟩ := a
    let S₁ : Sys := ⟨journal.replay S.db (Act.writes ⟨o, r, es⟩), seqs,
      S.set t ⟨input, some (k r), l.after ⟨o, r, es⟩⟩⟩
    have s : Step st S (.act t input l ⟨o, r, es⟩) S₁ := .act h step free
    have h₁ : S₁.tasks t = some ⟨input, some (k r), l.after ⟨o, r, es⟩⟩ := by simp [S₁, Sys.set]
    have same (u : Nat) (hu : u ≠ t) : S₁.tasks u = S.tasks u := by simp [S₁, Sys.set, hu]
    have alone₁ (u : Nat) (hu : u ≠ t) : S₁.journalOf u = [] := by
      simpa [Sys.journalOf, same u hu] using alone u hu
    have ok₁ (m : Moment) (hm : m ∈ env.trace (k r) S₁.db S₁.seqs (l.after ⟨o, r, es⟩)) (S₂ : Sys)
        (i : m.In t input S₁ S₂) : C S₂ (m.label t input) :=
      rest m hm S₂ ⟨i.db, i.task, fun u hu => (i.others u hu).trans (same u hu)⟩
    obtain ⟨S', steps, hd, hs, ht, others⟩ := ih r h₁ alone₁ ok₁
    exact ⟨S', .cons now s steps, hd, hs, ht, fun u hu => (others u hu).trans (same u hu)⟩

/-- The labels of a call. -/
def Env.labels (env : Env) (st : AppState) (t : Nat) (input : Input) (db : Db) (seqs : Seqs) :
    List Label :=
  .spawn t input :: (env.trace (input.prog st) db seqs {}).map (Moment.label t input)

/-- A call that ends its transactions continues every run without open transactions. -/
theorem Sys.Quiet.call {S : Sys} {n : Nat} (q : S.Quiet n) (env : Env) {input : Input}
    (wf : input.WellFormed) (closed : (env.call st input S.db S.seqs).loc.log = [])
    (start : C S (.spawn n input))
    (ok : ∀ m ∈ env.trace (input.prog st) S.db S.seqs {}, ∀ S₁, m.In n input S S₁ →
      C S₁ (m.label n input)) :
    ∃ S', StepsWhen st C S (env.labels st n input S.db S.seqs) S' ∧
      S'.db = (env.call st input S.db S.seqs).db ∧ S'.seqs = (env.call st input S.db S.seqs).seqs ∧
      S'.tasks n = some ⟨input, some (.ret (env.call st input S.db S.seqs).result),
        (env.call st input S.db S.seqs).loc⟩ ∧ S'.Quiet (n + 1) := by
  let S₁ : Sys := { S with tasks := S.set n ⟨input, some (input.prog st), {}⟩ }
  have spawned : Step st S (.spawn n input) S₁ := .spawn (q.free n (Nat.le_refl n)) wf
  have h₁ : S₁.tasks n = some ⟨input, some (input.prog st), {}⟩ := by simp [S₁, Sys.set]
  have same (u : Nat) (hu : u ≠ n) : S₁.tasks u = S.tasks u := by simp [S₁, Sys.set, hu]
  have alone₁ (u : Nat) (hu : u ≠ n) : S₁.journalOf u = [] := by
    simpa [Sys.journalOf, same u hu] using q.idle u
  have ok₁ (m : Moment) (hm : m ∈ env.trace (input.prog st) S₁.db S₁.seqs {}) (S₂ : Sys)
      (i : m.In n input S₁ S₂) : C S₂ (m.label n input) :=
    ok m hm S₂ ⟨i.db, i.task, fun u hu => (i.others u hu).trans (same u hu)⟩
  obtain ⟨S', steps, hd, hs, ht, others⟩ := env.run_steps h₁ alone₁ ok₁
  refine ⟨S', .cons start spawned steps, hd, hs, ht, fun u => ?_, fun u task p hu hp => ?_,
    fun u hu => ?_⟩
  · by_cases hn : u = n
    · subst hn
      simp only [Sys.journalOf, ht]
      exact closed
    · have idle := alone₁ u hn
      simpa [Sys.journalOf, others u hn] using idle
  · by_cases hn : u = n
    · subst hn
      cases ht.symm.trans hu
      exact ⟨_, (Option.some.inj hp).symm⟩
    · rw [others u hn, same u hn] at hu
      exact q.done u task p hu hp
  · have hn : u ≠ n := by omega
    rw [others u hn]
    simpa [S₁, Sys.set, hn] using q.free u (by omega)

/-- Before any call nothing is open. -/
lemma Sys.Quiet.init : Sys.init.Quiet 0 :=
  ⟨fun _ => rfl, fun _ _ _ h => absurd h nofun, fun _ _ => rfl⟩

/-- The first action of a call. -/
lemma Sys.Quiet.first {S : Sys} {n : Nat} (q : S.Quiet n) (env : Env) {input : Input} {o : Op}
    {k : o.Resp → Prog Op Op.Resp Result} (wf : input.WellFormed) (e : input.prog st = .req o k) :
    ∃ S₁ l a S₂, Steps st S [.spawn n input] S₁ ∧ S₁.db = S.db ∧ Step st S₁ (.act n input l a) S₂ := by
  let S₁ : Sys := { S with tasks := S.set n ⟨input, some (input.prog st), {}⟩ }
  have spawned : Step st S (.spawn n input) S₁ := .spawn (q.free n (Nat.le_refl n)) wf
  have h₁ : S₁.tasks n = some ⟨input, some (.req o k), {}⟩ := by simp [S₁, Sys.set, e]
  have own : S₁.journalOf n = [] := by simp [Sys.journalOf, h₁]
  have alone (u : Nat) (hu : u ≠ n) : S₁.journalOf u = [] := by
    simpa [S₁, Sys.journalOf, Sys.set, hu] using q.idle u
  exact ⟨S₁, _, _, _, .cons spawned .nil, rfl, .act h₁ (env.answer_step S₁.db S₁.seqs {} o)
    (env.answer_free own alone)⟩

/-- The labels of a call are its own. -/
lemma Env.mem_labels {env : Env} {t : Nat} {input : Input} {db : Db} {seqs : Seqs} {lb : Label}
    (h : lb ∈ env.labels st t input db seqs) :
    lb = .spawn t input ∨ ∃ m ∈ env.trace (input.prog st) db seqs {}, lb = m.label t input := by
  obtain rfl | h := List.mem_cons.mp h
  · exact .inl rfl
  · obtain ⟨m, hm, rfl⟩ := List.mem_map.mp h
    exact .inr ⟨m, hm, rfl⟩

/-- Calls served one after the other lead from `S₀` to this database, by steps that meet the condition. -/
def Reaches (st : AppState) (C : Sys → Label → Prop) (S₀ : Sys) (n : Nat) (ls : List Label) (db : Db)
    (seqs : Seqs) : Prop :=
  ∃ S, StepsWhen st C S₀ ls S ∧ S.Quiet n ∧ S.db = db ∧ S.seqs = seqs

variable {S₀ : Sys} {n : Nat} {ls : List Label} {db : Db} {seqs : Seqs}

/-- No calls lead to the empty database. -/
lemma Reaches.init : Reaches st C Sys.init 0 [] Db.empty {} := ⟨_, .nil, .init, rfl, rfl⟩

/-- What the first calls reach is reached by a run. -/
lemma Reaches.run (h : Reaches st C Sys.init n ls db seqs) :
    ∃ S, RunWhen st C ls S ∧ S.Quiet n ∧ S.db = db ∧ S.seqs = seqs := by
  obtain ⟨S, s, rest⟩ := h
  exact ⟨S, RunWhen.init.append s, rest⟩

/-- One more call. -/
lemma Reaches.call {env : Env} {input : Input} {F : Env.Final Result}
    (h : Reaches st C S₀ n ls db seqs) (e : env.call st input db seqs = F)
    (wf : input.WellFormed) (closed : F.loc.log = []) (start : ∀ S, C S (.spawn n input))
    (ok : ∀ m ∈ env.trace (input.prog st) db seqs {}, ∀ S S₁, S.Quiet n → m.In n input S S₁ →
      C S₁ (m.label n input)) :
    Reaches st C S₀ (n + 1) (ls ++ env.labels st n input db seqs) F.db F.seqs := by
  obtain ⟨S, r, q, rfl, rfl⟩ := h
  subst e
  obtain ⟨S', s, hd, hs, _, q'⟩ := q.call env wf closed (start S) fun m hm S₁ => ok m hm S S₁ q
  exact ⟨S', r.append s, q', hd, hs⟩

/-- The step that makes a difference. -/
lemma StepsWhen.turn {P : Sys → Prop} {ls S S'} (s : StepsWhen st C S ls S') (h : P S) (h' : ¬ P S') :
    ∃ pre lb post S₁ S₂, ls = pre ++ lb :: post ∧ StepsWhen st C S pre S₁ ∧ P S₁ ∧ C S₁ lb ∧
      Step st S₁ lb S₂ ∧ ¬ P S₂ ∧ StepsWhen st C S₂ post S' := by
  induction s with
  | nil => exact absurd h h'
  | @cons S lb S₁ ls S' c s rest ih =>
    by_cases h₁ : P S₁
    · obtain ⟨pre, lb', post, S₂, S₃, rfl, s₂, rest⟩ := ih h₁ h'
      exact ⟨lb :: pre, lb', post, S₂, S₃, rfl, .cons c s s₂, rest⟩
    · exact ⟨[], lb, ls, S, S₁, rfl, .nil, h, c, s, h₁, rest⟩

/-- The action of a call that makes a difference to the database. -/
lemma Reaches.turnWhen {env : Env} {input : Input} {F : Env.Final Result} {P : Db → Prop}
    (h : Reaches st C S₀ n ls db seqs) (e : env.call st input db seqs = F)
    (wf : input.WellFormed) (closed : F.loc.log = []) (start : ∀ S, C S (.spawn n input))
    (ok : ∀ m ∈ env.trace (input.prog st) db seqs {}, ∀ S S₁, S.Quiet n → m.In n input S S₁ →
      C S₁ (m.label n input)) (before : P db) (after : ¬ P F.db) :
    ∃ ls₁ S₁ l a S₂ ls₂ S, StepsWhen st C S₀ ls₁ S₁ ∧ P S₁.db ∧ C S₁ (.act n input l a) ∧
      Step st S₁ (.act n input l a) S₂ ∧ ¬ P S₂.db ∧ StepsWhen st C S₂ ls₂ S ∧ S.Quiet (n + 1) ∧
      S.db = F.db ∧ S.seqs = F.seqs := by
  obtain ⟨S, r, q, rfl, rfl⟩ := h
  subst e
  obtain ⟨S', s, hd, hs, _, q'⟩ := q.call env wf closed (start S) fun m hm S₁ => ok m hm S S₁ q
  obtain ⟨pre, lb, post, S₁, S₂, e, s₁, p₁, c, s₂, p₂, s₃⟩ :=
    s.turn (P := fun S => P S.db) before (by rwa [hd])
  have label : lb ∈ env.labels st n input S.db S.seqs := by
    rw [e]
    exact List.mem_append_right _ (List.mem_cons_self ..)
  obtain rfl | ⟨m, _, rfl⟩ := Env.mem_labels label
  · cases s₂ with
    | spawn _ _ => exact absurd p₁ p₂
  · exact ⟨_, S₁, _, _, S₂, post, S', r.append s₁, p₁, c, s₂, p₂, s₃, q', hd, hs⟩

/-- The same, without a condition on the steps. -/
lemma Reaches.turnFrom {env : Env} {input : Input} {F : Env.Final Result} {P : Db → Prop}
    (h : Reaches st (fun _ _ => True) S₀ n ls db seqs) (e : env.call st input db seqs = F)
    (wf : input.WellFormed) (closed : F.loc.log = []) (before : P db) (after : ¬ P F.db) :
    ∃ ls₁ S₁ l a S₂ ls₂ S, Steps st S₀ ls₁ S₁ ∧ P S₁.db ∧ Step st S₁ (.act n input l a) S₂ ∧
      ¬ P S₂.db ∧ Steps st S₂ ls₂ S ∧ S.Quiet (n + 1) ∧ S.db = F.db ∧ S.seqs = F.seqs := by
  obtain ⟨ls₁, S₁, l, a, S₂, ls₂, S, s₁, p₁, _, s₂, p₂, s₃, rest⟩ :=
    h.turnWhen e wf closed (fun _ => trivial) (fun _ _ _ _ _ _ => trivial) before after
  exact ⟨ls₁, S₁, l, a, S₂, ls₂, S, s₁.steps, p₁, s₂, p₂, s₃.steps, rest⟩

/-- The same, from the start of a run. -/
lemma Reaches.turn {env : Env} {input : Input} {F : Env.Final Result} {P : Db → Prop}
    (h : Reaches st (fun _ _ => True) Sys.init n ls db seqs) (e : env.call st input db seqs = F)
    (wf : input.WellFormed) (closed : F.loc.log = []) (before : P db) (after : ¬ P F.db) :
    ∃ ls₁ S₁ l a S₂ ls₂ S, Run st ls₁ S₁ ∧ P S₁.db ∧ Step st S₁ (.act n input l a) S₂ ∧ ¬ P S₂.db ∧
      Steps st S₂ ls₂ S ∧ S.Quiet (n + 1) ∧ S.db = F.db ∧ S.seqs = F.seqs := by
  obtain ⟨ls₁, S₁, l, a, S₂, ls₂, S, s₁, rest⟩ := h.turnFrom e wf closed before after
  exact ⟨[] ++ ls₁, S₁, l, a, S₂, ls₂, S, Run.init.append s₁, rest⟩

/-- An action of the next call. -/
lemma Sys.Quiet.action {S : Sys} (q : S.Quiet n) (env : Env) (input : Input) {m : Moment}
    (wf : input.WellFormed) (closed : (env.call st input S.db S.seqs).loc.log = [])
    (start : C S (.spawn n input))
    (ok : ∀ m ∈ env.trace (input.prog st) S.db S.seqs {}, ∀ S₁, m.In n input S S₁ →
      C S₁ (m.label n input)) (mem : m ∈ env.trace (input.prog st) S.db S.seqs {}) :
    ∃ ls₁ S₁ S₂, StepsWhen st C S ls₁ S₁ ∧ Step st S₁ (m.label n input) S₂ := by
  obtain ⟨S', s, _⟩ := q.call env wf closed start ok
  have label : m.label n input ∈ env.labels st n input S.db S.seqs :=
    List.mem_cons_of_mem _ (List.mem_map_of_mem mem)
  obtain ⟨pre, post, e⟩ := List.append_of_mem label
  rw [e] at s
  obtain ⟨S₁, S₂, s₁, _, s₂, _⟩ := s.at
  exact ⟨pre, S₁, S₂, s₁, s₂⟩

end WebLoginRelay
