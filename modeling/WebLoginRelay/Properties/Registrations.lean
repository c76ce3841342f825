import WebLoginRelay.Properties.Delivering
import WebLoginRelay.Properties.Versions

/-!
# Registrations

A session is registered once: a registration that repeats an earlier one is answered as that one was, and one
that only shares the session id or the nonce of an earlier one is a conflict, however far the earlier session
has come. What a session was created from is told by the labels of the run (`Created`).
-/

namespace WebLoginRelay
open Text Txn Relay

variable {st : AppState} {S S' : Sys} {lb : Label} {ls : List Label} {db : Db}

/-! ## Where sessions come from -/

/-- The step commits the insertion of the session `id` for a call on this request. -/
def Label.Creates (id : Nat) (request : RegistrationRequest) : Label → Prop
  | .act _ (.register r) _ a => r = request ∧ ∃ new, .sessionInsert new ∈ a.writes ∧ new.id = id
  | _ => False

/-- The session `id` was created from this request. -/
def Created (ls : List Label) (id : Nat) (request : RegistrationRequest) : Prop :=
  ∃ lb ∈ ls, lb.Creates id request

/-- The columns of a session that its registration has set for good. -/
structure RegistrationRequest.Matches (st : AppState) (request : RegistrationRequest) (row : SessionRow) :
    Prop where
  domain : row.domain = request.domain
  sessionId : row.sessionId = request.sessionId
  nonceHash : row.nonceHash = st.lookupHash request.nonce
  qrSignature : row.qrSignature = request.qrSignature
  registrationSignature : row.registrationSignature = request.registrationSignature
  registrationHash :
    row.registrationHash = keyedHash st.crates st.lookupPepper (st.crates.jsonToVec request.toValue)

/-- An update keeps these columns. -/
lemma RegistrationRequest.Matches.on {request : RegistrationRequest} {row : SessionRow}
    (h : request.Matches st row) (set : SessionSet) : request.Matches st (set.on row) :=
  ⟨h.domain, h.sessionId, h.nonceHash, h.qrSignature, h.registrationSignature, h.registrationHash⟩

/-- A label creates a session from one request only. -/
lemma Label.Creates.unique {id id' : Nat} {request request' : RegistrationRequest}
    (h : lb.Creates id request) (h' : lb.Creates id' request') : request = request' := by
  cases lb with
  | act t input l a =>
    cases input with
    | register r => exact h.1.symm.trans h'.1
    | inbound event => exact h.elim
    | tick => exact h.elim
  | spawn => exact h.elim
  | cancel => exact h.elim

/-- The insertion behind a created session. -/
lemma Label.Creates.insertion {id : Nat} {request : RegistrationRequest} (h : lb.Creates id request) :
    ∃ new, .sessionInsert new ∈ lb.writes ∧ new.id = id := by
  cases lb with
  | act t input l a =>
    cases input with
    | register r => exact h.2
    | inbound event => exact h.elim
    | tick => exact h.elim
  | spawn => exact h.elim
  | cancel => exact h.elim

/-- A session after a journal was there before it or is inserted by it. -/
lemma inserted_of_replay {es : List Entry} {row : SessionRow} (h : row ∈ (journal.replay db es).sessions) :
    (∃ old ∈ db.sessions, old.id = row.id) ∨ ∃ new, .sessionInsert new ∈ es ∧ new.id = row.id := by
  induction es generalizing db with
  | nil => exact .inl ⟨row, h, rfl⟩
  | cons e es ih =>
    obtain ⟨old, mem, id_eq⟩ | ⟨new, mem, id_eq⟩ := ih h
    · cases e with
      | sessionInsert new =>
        obtain mem | ⟨rfl, _⟩ := Table.mem_insert.mp mem
        · exact .inl ⟨old, mem, id_eq⟩
        · exact .inr ⟨old, List.mem_cons_self, id_eq⟩
      | sessionUpdate row₁ set =>
        obtain ⟨older, there, rfl⟩ := (Db.mem_updateSession ..).mp mem
        exact .inl ⟨older, there, (SessionSet.at_id ..).symm.trans id_eq⟩
      | _ => exact .inl ⟨old, mem, id_eq⟩
    · exact .inr ⟨new, List.mem_cons_of_mem _ mem, id_eq⟩

/-- A session that a journal inserts is there after it, and was not there before. -/
lemma insert_of_replay {es : List Entry} {new : SessionRow} (vl : journal.Valid db es)
    (h : .sessionInsert new ∈ es) : (∃ row ∈ (journal.replay db es).sessions, row.id = new.id) ∧
      ∀ old ∈ db.sessions, old.id ≠ new.id := by
  obtain ⟨pre, post, rfl⟩ := List.append_of_mem h
  rw [journal.valid_append] at vl
  obtain ⟨vl₀, free, vl₁⟩ := vl
  constructor
  · have mem : new ∈ ((Entry.sessionInsert new).apply (journal.replay db pre)).sessions :=
      Table.mem_insert.mpr (.inr ⟨rfl, free⟩)
    obtain ⟨row, mem, id_eq, _⟩ := version_of_replay vl₁ mem
    rw [journal.replay_append]
    exact ⟨row, mem, id_eq⟩
  · intro old mem id_eq
    obtain ⟨row, mem, same, _⟩ := version_of_replay vl₀ mem
    exact free ⟨row, mem, .inl (same.trans id_eq)⟩

/-- A session was there before a step, with the columns of its registration, or the step creates it. -/
lemma Step.session_source (inv : Sys.Inv st S) (s : Step st S lb S') {row : SessionRow}
    (h : row ∈ S'.db.sessions) :
    (∃ old ∈ S.db.sessions, old.id = row.id ∧
      ∀ request : RegistrationRequest, request.Matches st old → request.Matches st row) ∨
      (∀ old ∈ S.db.sessions, old.id ≠ row.id) ∧
        ∃ request, lb.Creates row.id request ∧ request.Matches st row := by
  obtain same | ⟨t, input, l, a, e, eff, ch⟩ := inv.step_change s
  · rw [same] at h
    exact .inl ⟨row, h, rfl, fun _ m => m⟩
  · obtain ⟨old, mem, evolves⟩ | ⟨request, rfl, c, rfl⟩ := ch.session_origin h
    · obtain rfl | ⟨set, _, rfl⟩ := evolves
      · exact .inl ⟨row, mem, rfl, fun _ m => m⟩
      · exact .inl ⟨old, mem, rfl, fun _ m => m.on set⟩
    · have fresh : ∀ old ∈ S.db.sessions, old.id ≠ c.row.id := fun old mem id_eq =>
        c.isNew ⟨old, mem, .inl id_eq⟩
      have mem := h
      rw [(s.replays inv).2] at mem
      obtain ⟨old, mem, id_eq⟩ | inserted := inserted_of_replay mem
      · exact absurd id_eq (fresh old mem)
      · subst e
        exact .inr ⟨fresh, request, ⟨rfl, inserted⟩, ⟨rfl, rfl, rfl, rfl, rfl, rfl⟩⟩

/-- A session that a step creates is new. -/
lemma Step.creates (inv : Sys.Inv st S) (s : Step st S lb S') {id : Nat} {request : RegistrationRequest}
    (h : lb.Creates id request) :
    (∀ old ∈ S.db.sessions, old.id ≠ id) ∧ ∃ row ∈ S'.db.sessions, row.id = id ∧ request.Matches st row := by
  obtain ⟨new, mem, rfl⟩ := h.insertion
  obtain ⟨vl, e⟩ := s.replays inv
  obtain ⟨⟨row, there, id_eq⟩, fresh⟩ := insert_of_replay vl mem
  rw [← e] at there
  refine ⟨fresh, row, there, id_eq, ?_⟩
  obtain ⟨old, mem, same, _⟩ | ⟨_, request', creates, m⟩ := s.session_source inv there
  · exact absurd (same.trans id_eq) (fresh old mem)
  · exact creates.unique h ▸ m

/-- Every session was created from a request, and every request a session was created from is that of the
session. -/
structure Traced (st : AppState) (ls : List Label) (S : Sys) : Prop where
  origin : ∀ row ∈ S.db.sessions, ∃ request, Created ls row.id request
  matching : ∀ id request, Created ls id request → ∃ row ∈ S.db.sessions, row.id = id ∧ request.Matches st row

/-- A step keeps the trace. -/
lemma Traced.step (traced : Traced st ls S) (inv : Sys.Inv st S) (s : Step st S lb S') :
    Traced st (ls ++ [lb]) S' := by
  constructor
  · intro row mem
    obtain ⟨old, mem, id_eq, _⟩ | ⟨_, request, creates, _⟩ := s.session_source inv mem
    · obtain ⟨request, lb', mem', creates⟩ := traced.origin old mem
      exact ⟨request, lb', List.mem_append_left _ mem', id_eq ▸ creates⟩
    · exact ⟨request, lb, List.mem_append_right _ (List.mem_singleton_self _), creates⟩
  · intro id request ⟨lb', mem, creates⟩
    obtain mem | mem := List.mem_append.mp mem
    · obtain ⟨row, there, rfl, m⟩ := traced.matching id request ⟨lb', mem, creates⟩
      obtain ⟨row', there', id_eq, _⟩ := s.version inv there
      refine ⟨row', there', id_eq, ?_⟩
      obtain ⟨old, mem, same, keeps⟩ | ⟨fresh, _⟩ := s.session_source inv there'
      · obtain rfl := session_eq_of_id there mem (id_eq.symm.trans same.symm)
        exact keeps request m
      · exact absurd id_eq.symm (fresh row there)
    · obtain rfl := List.mem_singleton.mp mem
      exact (s.creates inv creates).2

/-- The sessions of every run are traced. -/
lemma Run.traced (r : Run st ls S) : Traced st ls S := by
  induction r with
  | init => exact ⟨fun _ h => (nomatch h), fun _ _ ⟨_, h, _⟩ => (nomatch h)⟩
  | step r s ih => exact ih.step r.inv s

/-- A session is the one of every request it was created from. -/
lemma Run.matches (r : Run st ls S) {row : SessionRow} (h : row ∈ S.db.sessions)
    {request : RegistrationRequest} (created : Created ls row.id request) : request.Matches st row := by
  obtain ⟨row', mem, id_eq, m⟩ := r.traced.matching _ _ created
  exact session_eq_of_id mem h id_eq ▸ m

/-- No session is created twice. -/
lemma Run.created_once (r : Run st ls S) (s : Step st S lb S') {id : Nat} {request request' : RegistrationRequest}
    (h : lb.Creates id request) : ¬ Created ls id request' := by
  intro created
  obtain ⟨row, mem, id_eq, _⟩ := r.traced.matching _ _ created
  exact (s.creates r.inv h).1 row mem id_eq

/-! ## Concurrent registrations -/

/-- Two requests for one session id, or with one nonce, of one domain. -/
def RegistrationRequest.Rivals (r r' : RegistrationRequest) : Prop :=
  r.domain = r'.domain ∧ (r.sessionId = r'.sessionId ∨ r.nonce = r'.nonce)

/-- Rivals register the same session. -/
lemma RegistrationRequest.Matches.clash {r r' : RegistrationRequest} {row row' : SessionRow}
    (h : r.Matches st row) (h' : r'.Matches st row') (rivals : r.Rivals r') : row.Clash row' := by
  obtain ⟨domain, sessionId | nonce⟩ := rivals
  · exact .inr (.inl ⟨by rw [h.domain, h'.domain, domain], by rw [h.sessionId, h'.sessionId, sessionId]⟩)
  · exact .inr (.inr ⟨by rw [h.domain, h'.domain, domain], by rw [h.nonceHash, h'.nonceHash, nonce]⟩)

/-- A step that creates a session has no rival before it. -/
lemma Run.no_rival (r : Run st ls S) (s : Step st S lb S') {id id' : Nat} {request request' : RegistrationRequest}
    (h : lb.Creates id request) (created : Created ls id' request') : ¬ request.Rivals request' := by
  intro rivals
  obtain ⟨row, mem, rfl, m⟩ := (s.creates r.inv h).2
  obtain ⟨lb', mem', creates'⟩ := created
  obtain ⟨row', there, rfl, m'⟩ :=
    (r.step s).traced.matching id' request' ⟨lb', List.mem_append_left _ mem', creates'⟩
  obtain rfl := Table.eq_of_clash (fun _ _ => SessionRow.Clash.symm) mem there (m.clash m' rivals)
  exact r.created_once s h ⟨lb', mem', creates'⟩

/-- The two steps do not create sessions for rivals. -/
def Label.Unrivalled (lb lb' : Label) : Prop :=
  ∀ id id' request request', lb.Creates id request → lb'.Creates id' request' → ¬ request.Rivals request'

/-- Rivals are rivals of each other. -/
lemma Label.Unrivalled.symm {lb lb' : Label} (h : lb.Unrivalled lb') : lb'.Unrivalled lb :=
  fun _ _ _ _ c c' rivals => h _ _ _ _ c' c ⟨rivals.1.symm, rivals.2.imp Eq.symm Eq.symm⟩

/-- Of the rivals of a run at most one creates a session. -/
lemma Run.unrivalled (r : Run st ls S) : ls.Pairwise Label.Unrivalled := by
  induction r with
  | init => exact List.Pairwise.nil
  | step r s ih =>
    refine List.pairwise_append.mpr ⟨ih, List.pairwise_singleton _ _, fun lb' mem lb mem' => ?_⟩
    obtain rfl := List.mem_singleton.mp mem'
    have after : lb.Unrivalled lb' := fun _ _ _ _ c c' => r.no_rival s c ⟨lb', mem, c'⟩
    exact after.symm

/-- The insertion of a session was committed. -/
def Inserts (past : List Act) : Prop := ∃ a ∈ past, ∃ new, .sessionInsert new ∈ a.writes

/-- What is asked of a failure may be less. -/
lemma ends_weaken {α : Type} {input : Input} {E E' : List Act → Prop} {x : Relay α} {P : α → Local → Prop} {l : Local}
    (h : ∀ p, E p → E' p) (w : Ends st input E x P l) : Ends st input E' x P l := by
  refine Prog.wp_mono _ _ _ (fun r l w => ?_) w
  cases r with
  | ok a => exact w
  | error e => exact h _ w

/-- What is known of any past. -/
lemma keeps_true : Keeps (fun _ => True) fun _ => True := ⟨fun _ _ _ _ => trivial, fun _ _ _ _ _ => trivial⟩

/-- A session is created by an insertion. -/
lemma ends_created {input : Input} {new : NewSession} {p : List Act} {τ : DateTime}
    {P : InsertOutcome → Local → Prop}
    (created : ∀ p' row, P .created ⟨p', some τ, [.sessionInsert row]⟩)
    (identical : ∀ p' lg, P .identical ⟨p', some τ, lg⟩) :
    Ends st input (fun _ => True) (insertRegistered st new) P ⟨p, some τ, []⟩ := by
  refine ends_bind.mpr (ends_liftResult (fun _ _ => trivial) fun t _ => ?_)
  refine ends_bind.mpr (ends_execUnique keeps_true trivial (fun _ _ _ h => nomatch h)
    fun db seqs n p _ run _ => ?_)
  simp only [Query.run] at run ⊢
  split at run
  · cases run
    rw [if_neg (by decide)]
    refine ends_bind.mpr (ends_selectSessions keeps_true trivial (fun _ _ _ _ _ _ _ _ => trivial)
      (fun _ _ _ _ _ => trivial) fun session p db _ _ _ _ => ?_)
    dsimp only
    split
    · exact ends_pure.mpr (identical _ _)
    · trivial
  · rename_i free
    cases run
    rw [if_pos rfl, if_neg free]
    exact ends_pure.mpr (created _ _)

/-- A registration that says so has created its session. -/
lemma ends_storeSession {request : RegistrationRequest} {metadata : SiteMetadata} {input : Input} {p : List Act}
    {tx : Option DateTime} {lg : List Entry} :
    Ends st input (fun _ => True) (storeSession st request metadata) (fun r l => r.2 = true → Inserts l.past)
      ⟨p, tx, lg⟩ := by
  refine ends_bind.mpr (ends_encrypt (I := fun _ => True) (fun _ _ _ _ => trivial) trivial (fun _ _ => trivial)
    fun ct p _ => ?_)
  refine ends_inTx keeps_true trivial (fun _ _ _ _ => trivial) (fun _ l a _ h e => ?_) fun τ p _ => ?_
  · obtain ⟨b, mem, inserts⟩ := h e
    exact ⟨b, mem_past_after mem, inserts⟩
  refine ends_bind.mpr (ends_created (fun p row => ?_) fun p lg => ?_)
  · refine ends_bind.mpr (ends_commit (fun _ _ => trivial) (ends_pure.mpr fun _ => ?_))
    exact ⟨_, List.mem_append_right _ (List.mem_singleton_self _), row, List.mem_singleton_self _⟩
  · exact ends_bind.mpr (ends_commit (fun _ _ => trivial) (ends_pure.mpr fun e => nomatch e))

/-- A call that has registered its session has inserted it. -/
lemma ends_registered {request : RegistrationRequest} :
    Ends st (.register request) (fun _ => True) (registerSession st request)
      (fun r l => r.2 = true → Inserts l.past) {} := by
  have clean : Clean ([] : List Act) := fun _ h => nomatch h
  refine ends_bind.mpr (ends_liftResult (fun _ _ => trivial) fun _ _ => ?_)
  refine ends_bind.mpr (ends_nowMs Clean.quiet clean fun now p clean => ?_)
  split
  · trivial
  refine ends_bind.mpr (ends_weaken (fun _ _ => trivial) (ends_fetchVerifiedMetadata clean fun m p _ => ?_))
  refine ends_bind.mpr (ends_liftResult (fun _ _ => trivial) fun qr _ => ?_)
  refine ends_bind.mpr (ends_liftResult (fun _ _ => trivial) fun _ _ => ?_)
  refine ends_bind.mpr (ends_liftResult (fun _ _ => trivial) fun canonical _ => ?_)
  refine ends_bind.mpr (ends_liftResult (fun _ _ => trivial) fun _ _ => ?_)
  exact ends_storeSession

/-- A call that has created a session has a label that does. -/
lemma Run.creates (r : Run st ls S) {t request response l}
    (h : S.tasks t = some ⟨.register request, some (.ret (.registered (.ok (response, true)))), l⟩) :
    ∃ l' a id, .act t (.register request) l' a ∈ ls ∧ Label.Creates id request (.act t (.register request) l' a) := by
  have w := r.within (A := Disciplined st) (Q := fun result l =>
    ∀ response, result = .registered (.ok (response, true)) → Inserts l.past) ?_ h
  · obtain ⟨a, mem, new, inserts⟩ := w response rfl
    obtain ⟨l', mem⟩ := r.past h mem
    exact ⟨l', a, new.id, mem, rfl, new, inserts, rfl⟩
  · refine Ends.call ends_registered (fun (response, created) l h response' e => ?_) fun _ _ _ _ e => nomatch e
    cases e
    exact h rfl

/-- Two calls that create sessions are not rivals. -/
lemma Run.calls_unrivalled (r : Run st ls S) {t t' : Nat} (ne : t ≠ t')
    {request request' response response' l l'}
    (h : S.tasks t = some ⟨.register request, some (.ret (.registered (.ok (response, true)))), l⟩)
    (h' : S.tasks t' = some ⟨.register request', some (.ret (.registered (.ok (response', true)))), l'⟩) :
    ¬ request.Rivals request' := by
  obtain ⟨l₁, a₁, id₁, mem₁, creates₁⟩ := r.creates h
  obtain ⟨l₂, a₂, id₂, mem₂, creates₂⟩ := r.creates h'
  have distinct : Label.act t (.register request) l₁ a₁ ≠ .act t' (.register request') l₂ a₂ := by
    intro e
    cases e
    exact ne rfl
  have symm : Std.Symm Label.Unrivalled := ⟨fun _ _ => Label.Unrivalled.symm⟩
  exact r.unrivalled.forall mem₁ mem₂ distinct _ _ _ _ creates₁ creates₂

end WebLoginRelay
