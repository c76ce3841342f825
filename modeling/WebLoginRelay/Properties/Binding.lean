import WebLoginRelay.Samples.Runs
import WebLoginRelay.System.Tables

/-!
# One challenge for each session

A Request binds its session to a challenge, to its event id, to its room and to its sender. The row is
bound at most once, whatever Requests race for it, and no later change touches the binding: the
request handler only writes a row it has read unbound under its lock, and the other handlers pass
`NULL` for the bound columns. The replay tables make event ids and challenge hashes unique over all
sessions.
-/

namespace WebLoginRelay
open Text Txn

variable {st : AppState} {input : Input} {past : List Act} {db db' : Db}

/-- The columns a Request binds. -/
structure Binding where
  requestEventId : Option String
  requestRoomCiphertext : Option Bytes
  requestSenderCiphertext : Option Bytes
  challengeHash : Option Bytes
  challengeExpiresAt : Option Int64
  deriving DecidableEq

/-- The binding of a row. -/
def SessionRow.binding (r : SessionRow) : Binding :=
  ⟨r.requestEventId, r.requestRoomCiphertext, r.requestSenderCiphertext, r.challengeHash,
    r.challengeExpiresAt⟩

/-- Nothing is bound. -/
def Binding.none : Binding := ⟨.none, .none, .none, .none, .none⟩

/-! ## A bound row keeps its binding -/

/-- A write keeps the binding of a bound row. -/
lemma SessionWrite.binding {s : SessionRow} {set : SessionSet}
    (w : SessionWrite st input past db s set) (b : s.challengeHash ≠ none) :
    (set.on s).binding = s.binding := by
  cases w with
  | request c => exact absurd c.unbound b
  | refuse c h => rfl
  | approve c => rfl
  | revoke c => rfl
  | deliver c => rfl

/-- A session before and after a change has the same keys. -/
lemma Evolves.keys {r r' : SessionRow} (ev : Evolves st input past db r r') :
    r'.id = r.id ∧ r'.domain = r.domain ∧ r'.sessionId = r.sessionId ∧ r'.nonceHash = r.nonceHash := by
  obtain rfl | ⟨set, _, rfl⟩ := ev
  · exact ⟨rfl, rfl, rfl, rfl⟩
  · exact ⟨rfl, rfl, rfl, rfl⟩

/-- A write does not change a binding. -/
lemma Evolves.binding {r r' : SessionRow} (ev : Evolves st input past db r r')
    (b : r.challengeHash ≠ none) : r'.binding = r.binding := by
  obtain rfl | ⟨set, w, rfl⟩ := ev
  · rfl
  · exact w.binding b

/-- A bound row is found later with the same keys and the same binding. -/
lemma Steps.bound_stays {ls S S'} (s : Steps st S ls S') (inv : Sys.Inv st S) {r : SessionRow}
    (h : r ∈ S.db.sessions) (b : r.challengeHash ≠ none) :
    ∃ r' ∈ S'.db.sessions, r'.id = r.id ∧ r'.domain = r.domain ∧ r'.sessionId = r.sessionId ∧
      r'.binding = r.binding := by
  refine s.keep_db (P := fun db => ∃ r' ∈ db.sessions, r'.id = r.id ∧ r'.domain = r.domain ∧
    r'.sessionId = r.sessionId ∧ r'.binding = r.binding) inv ?_ ⟨r, h, rfl, rfl, rfl, rfl⟩
  intro input past db db' ch ⟨r₁, m₁, hi, hd, hs, hb⟩
  obtain ⟨r₂, m₂, ev⟩ := ch.session_stays m₁
  have b₁ : r₁.challengeHash ≠ none := by
    have e : r₁.challengeHash = r.challengeHash := congrArg Binding.challengeHash hb
    rwa [e]
  obtain ⟨ki, kd, ks, _⟩ := ev.keys
  exact ⟨r₂, m₂, ki.trans hi, kd.trans hd, ks.trans hs, (ev.binding b₁).trans hb⟩

/-- The columns are bound together. -/
def BoundTogether (db : Db) : Prop := ∀ r ∈ db.sessions, r.challengeHash = none → r.binding = .none

/-- A change writes the columns of a binding together. -/
lemma Change.boundTogether (ch : Change st input past db db') (h : BoundTogether db) :
    BoundTogether db' := by
  intro r' hr' e
  obtain ⟨r, hr, rfl | ⟨set, w, rfl⟩⟩ | ⟨_, _, c, rfl⟩ := ch.session_origin hr'
  · exact h r' hr e
  · cases w with
    | request c => cases e
    | refuse c ref =>
      rw [← h _ hr e]
      rfl
    | approve c =>
      rw [← h _ hr e]
      rfl
    | revoke c =>
      rw [← h _ hr e]
      rfl
    | deliver c =>
      rw [← h _ hr e]
      rfl
  · rfl

/-- In every run the columns of a binding are there together. -/
lemma Run.boundTogether {ls S} (r : Run st ls S) : BoundTogether S.db :=
  r.keep_db (fun _ h => absurd h Table.not_mem_empty) Change.boundTogether

/-! ## Event ids and challenge hashes -/

/-- Bound event ids and challenge hashes are reserved, and no two sessions share one. -/
structure Reserved (db : Db) : Prop where
  event : ∀ r ∈ db.sessions, ∀ e, r.requestEventId = some e →
    ∃ row ∈ db.replay, row.key = .requestEventId e
  challenge : ∀ r ∈ db.sessions, ∀ h, r.challengeHash = some h →
    ∃ row ∈ db.replay, row.key = .challengeHash h
  event_inj : ∀ r ∈ db.sessions, ∀ r' ∈ db.sessions, ∀ e,
    r.requestEventId = some e → r'.requestEventId = some e → r = r'
  challenge_inj : ∀ r ∈ db.sessions, ∀ r' ∈ db.sessions, ∀ h,
    r.challengeHash = some h → r'.challengeHash = some h → r = r'

/-- A row whose binding was there before, or that is not bound. -/
def OldBinding (db : Db) (r' : SessionRow) : Prop :=
  r'.binding = .none ∨ ∃ r ∈ db.sessions, r.id = r'.id ∧ r'.binding = r.binding

/-- An update that passes `NULL` for the bound columns. -/
lemma oldBinding_update {s : SessionRow} {set : SessionSet} (hb : ∀ r, (set.on r).binding = r.binding)
    (e : db'.sessions = (db.updateSession s.id set).sessions) {r' : SessionRow}
    (h : r' ∈ db'.sessions) : OldBinding db r' := by
  rw [e, Db.mem_updateSession] at h
  obtain ⟨r, hr, rfl⟩ := h
  refine .inr ⟨r, hr, (set.at_id s.id r).symm, ?_⟩
  unfold SessionSet.at
  split
  · exact hb r
  · rfl

/-- A change is a Request that binds its session, or leaves every binding. -/
lemma Change.bindings (ch : Change st input past db db') :
    (∀ r' ∈ db'.sessions, OldBinding db r') ∨
      ∃ event, input = .inbound event ∧ ∃ c : ChallengeIssue st event past db, db' = c.result := by
  have same (e : db'.sessions = db.sessions) (r' : SessionRow) (h : r' ∈ db'.sessions) :
      OldBinding db r' := .inr ⟨r', e ▸ h, rfl, rfl⟩
  cases ch with
  | keep => exact .inl (same rfl)
  | register c =>
    refine .inl fun r' h => ?_
    obtain h | ⟨rfl, _⟩ := Table.mem_insert.mp h
    · exact .inr ⟨r', h, rfl, rfl⟩
    · exact .inl rfl
  | request c => exact .inr ⟨_, rfl, c, rfl⟩
  | refuse c _ => exact .inl fun r' => oldBinding_update (fun _ => rfl) rfl
  | approve c => exact .inl fun r' => oldBinding_update (fun _ => rfl) c.result_sessions
  | revoke c => exact .inl fun r' => oldBinding_update (fun _ => rfl) c.result_sessions
  | deliver c => exact .inl fun r' => oldBinding_update (fun _ => rfl) rfl
  | claim due => exact .inl (same (replay_jobUpdate db).1)
  | mark _ _ _ _ => exact .inl (same rfl)

/-- Bindings that were there before are reserved, and not shared. -/
lemma Reserved.of_old (res : Reserved db) (old : ∀ r' ∈ db'.sessions, OldBinding db r')
    (stay : ∀ row ∈ db.replay, row ∈ db'.replay) : Reserved db' := by
  -- a bound column of a row is the bound column of the row it was
  have back {α : Type} (f : Binding → Option α) (hf : f .none = none) {r' : SessionRow} {a : α}
      (h : r' ∈ db'.sessions) (e : f r'.binding = some a) :
      ∃ r ∈ db.sessions, r.id = r'.id ∧ f r.binding = some a := by
    obtain n | ⟨r, hr, hi, hb⟩ := old r' h
    · rw [n, hf] at e
      cases e
    · exact ⟨r, hr, hi, hb ▸ e⟩
  refine ⟨fun r' h e he => ?_, fun r' h c hc => ?_, fun r₁' h₁ r₂' h₂ e he₁ he₂ => ?_,
    fun r₁' h₁ r₂' h₂ c hc₁ hc₂ => ?_⟩
  · obtain ⟨r, hr, _, he'⟩ := back Binding.requestEventId rfl h he
    obtain ⟨row, hrow, hk⟩ := res.event r hr e he'
    exact ⟨row, stay row hrow, hk⟩
  · obtain ⟨r, hr, _, hc'⟩ := back Binding.challengeHash rfl h hc
    obtain ⟨row, hrow, hk⟩ := res.challenge r hr c hc'
    exact ⟨row, stay row hrow, hk⟩
  · obtain ⟨r₁, hr₁, hi₁, he₁'⟩ := back Binding.requestEventId rfl h₁ he₁
    obtain ⟨r₂, hr₂, hi₂, he₂'⟩ := back Binding.requestEventId rfl h₂ he₂
    obtain rfl := res.event_inj r₁ hr₁ r₂ hr₂ e he₁' he₂'
    exact session_eq_of_id h₁ h₂ (hi₁.symm.trans hi₂)
  · obtain ⟨r₁, hr₁, hi₁, hc₁'⟩ := back Binding.challengeHash rfl h₁ hc₁
    obtain ⟨r₂, hr₂, hi₂, hc₂'⟩ := back Binding.challengeHash rfl h₂ hc₂
    obtain rfl := res.challenge_inj r₁ hr₁ r₂ hr₂ c hc₁' hc₂'
    exact session_eq_of_id h₁ h₂ (hi₁.symm.trans hi₂)

/-- The rows after a Request: the bound one, and the others as they were. -/
lemma ChallengeIssue.mem_result {event} (c : ChallengeIssue st event past db) {r' : SessionRow}
    (h : r' ∈ c.result.sessions) :
    r' = c.set.on c.session ∨ (r' ∈ db.sessions ∧ r'.id ≠ c.session.id) := by
  have h' : r' ∈ (db.updateSession c.session.id c.set).sessions := h
  rw [Db.mem_updateSession] at h'
  obtain ⟨r, hr, rfl⟩ := h'
  by_cases hi : r.id = c.session.id
  · obtain rfl := session_eq_of_id hr c.mem hi
    exact .inl (if_pos rfl)
  · rw [SessionSet.at_ne hi]
    exact .inr ⟨hr, hi⟩

/-- A Request reserves what it binds. -/
lemma Reserved.of_request {event} (res : Reserved db) (c : ChallengeIssue st event past db) :
    Reserved c.result := by
  have event_free (r : SessionRow) (hr : r ∈ db.sessions) : r.requestEventId ≠ some event.eventId := by
    intro e
    obtain ⟨row, hrow, hk⟩ := res.event r hr _ e
    exact c.newEvent ⟨row, hrow, hk⟩
  have challenge_free (r : SessionRow) (hr : r ∈ db.sessions) :
      r.challengeHash ≠ some (st.lookupHash c.challenge) := by
    intro e
    obtain ⟨row, hrow, hk⟩ := res.challenge r hr _ e
    exact c.newChallenge ⟨row, hrow, hk⟩
  have stay {row : ReplayRow} (h : row ∈ db.replay) : row ∈ c.result.replay :=
    (Change.request c).replay_stays h
  refine ⟨fun r' h e he => ?_, fun r' h x hx => ?_, fun r₁ h₁ r₂ h₂ e he₁ he₂ => ?_,
    fun r₁ h₁ r₂ h₂ x hx₁ hx₂ => ?_⟩
  · obtain rfl | ⟨hr, _⟩ := c.mem_result h
    · cases he
      refine ⟨⟨.requestEventId event.eventId, c.expiresAt⟩, ?_, rfl⟩
      exact Table.mem_insert.mpr (.inl (Table.mem_insert.mpr (.inr ⟨rfl, c.newEvent⟩)))
    · obtain ⟨row, hrow, hk⟩ := res.event r' hr e he
      exact ⟨row, stay hrow, hk⟩
  · obtain rfl | ⟨hr, _⟩ := c.mem_result h
    · cases hx
      refine ⟨⟨.challengeHash (st.lookupHash c.challenge), c.expiresAt⟩, ?_, rfl⟩
      refine Table.mem_insert.mpr (.inr ⟨rfl, fun clash => ?_⟩)
      obtain clash | clash := clash.of_insert
      · exact c.newChallenge clash
      · nomatch clash
    · obtain ⟨row, hrow, hk⟩ := res.challenge r' hr x hx
      exact ⟨row, stay hrow, hk⟩
  · obtain rfl | ⟨hr₁, _⟩ := c.mem_result h₁
    · cases he₁
      obtain rfl | ⟨hr₂, _⟩ := c.mem_result h₂
      · rfl
      · exact absurd he₂ (event_free r₂ hr₂)
    · obtain rfl | ⟨hr₂, _⟩ := c.mem_result h₂
      · cases he₂
        exact absurd he₁ (event_free r₁ hr₁)
      · exact res.event_inj r₁ hr₁ r₂ hr₂ e he₁ he₂
  · obtain rfl | ⟨hr₁, _⟩ := c.mem_result h₁
    · cases hx₁
      obtain rfl | ⟨hr₂, _⟩ := c.mem_result h₂
      · rfl
      · exact absurd hx₂ (challenge_free r₂ hr₂)
    · obtain rfl | ⟨hr₂, _⟩ := c.mem_result h₂
      · cases hx₂
        exact absurd hx₁ (challenge_free r₁ hr₁)
      · exact res.challenge_inj r₁ hr₁ r₂ hr₂ x hx₁ hx₂

/-- In every run the challenges and events of all bindings are reserved. -/
lemma Run.reserved {ls S} (r : Run st ls S) : Reserved S.db := by
  refine r.keep_db ⟨?_, ?_, ?_, ?_⟩ fun ch res => ?_
  · exact fun r h => absurd h Table.not_mem_empty
  · exact fun r h => absurd h Table.not_mem_empty
  · exact fun r h => absurd h Table.not_mem_empty
  · exact fun r h => absurd h Table.not_mem_empty
  · obtain old | ⟨event, rfl, c, rfl⟩ := ch.bindings
    · exact res.of_old old fun row h => ch.replay_stays h
    · exact res.of_request c

/-! ## Notices -/

/-- A Request for the session reaches the `send_notice` of its Challenge. -/
def Label.IsChallengeNotice (st : AppState) (domain sessionId : String) : Label → Prop
  | .act _ (.inbound event) _ a =>
    (∃ nonce sentAt, event.message? st = some (.request sessionId nonce sentAt domain)) ∧
      ∃ roomId body, a.op = .sendNotice roomId body
  | _ => False

/-- The commit of a Request found its session unbound and left it bound. -/
lemma Step.binds {S S' : Sys} {t input l event session time hash set} (inv : Sys.Inv st S)
    (s : Step st S (.act t input l
      ⟨.commit, Except.ok (), challengeLog event session time hash set⟩) S') :
    session ∈ S.db.sessions ∧ set.on session ∈ S'.db.sessions := by
  obtain ⟨vl, e⟩ := s.commit_inv inv
  refine ⟨vl.1, ?_⟩
  have m : set.on session ∈ (S.db.updateSession session.id set).sessions :=
    (Db.mem_updateSession ..).mpr ⟨session, vl.1, if_pos rfl⟩
  rw [e]
  exact m

/-- A session that was bound before is not found unbound by a later commit. -/
lemma Run.not_bound_twice {ls S pre mid post t input l event session time hash set t' input' l' event'
      session' time' hash' set'} (r : Run st ls S)
    (e : ls = (pre ++ .act t input l
        ⟨.commit, Except.ok (), challengeLog event session time hash set⟩ :: mid) ++
      .act t' input' l'
        ⟨.commit, Except.ok (), challengeLog event' session' time' hash' set'⟩ :: post)
    (b : set.challengeHash ≠ none) (hd : session.domain = session'.domain)
    (hs : session.sessionId = session'.sessionId) : session'.challengeHash ≠ none := by
  obtain ⟨S₁, S₂, r₁, s₁, _⟩ := r.at e
  obtain ⟨S₃, S₄, r₃, s₃, s₄⟩ := r₁.at rfl
  have b' : (set.on session).challengeHash ≠ none := by
    obtain ⟨h, hh⟩ := Option.ne_none_iff_exists'.mp b
    simp [SessionSet.on, hh]
  obtain ⟨_, m₄⟩ := s₃.binds r₃.inv
  obtain ⟨r', m', _, kd, ks, kb⟩ := s₄.bound_stays (r₃.inv.step s₃) m₄ b'
  obtain ⟨m, _⟩ := s₁.binds r₁.inv
  obtain rfl := session_eq_of_key m' m (kd.trans hd) (ks.trans hs)
  have e : r'.challengeHash = (set.on session).challengeHash := congrArg Binding.challengeHash kb
  rwa [e]

/-- A notice has the commit of its Request before it. -/
lemma Run.commit_before_notice {ls S pre lb post domain sessionId} (r : Run st ls S)
    (e : ls = pre ++ lb :: post) (n : lb.IsChallengeNotice st domain sessionId) :
    ∃ t input l a, lb = .act t input l a ∧ (∃ room body, a.op = .sendNotice room body) ∧
      (∀ b ∈ l.past, ∀ room body, b.op ≠ .sendNotice room body) ∧
      ∃ pre₁ mid l₁ event session time hash set, pre = pre₁ ++ .act t input l₁
          ⟨.commit, Except.ok (), challengeLog event session time hash set⟩ :: mid ∧
        session.domain = domain ∧ session.sessionId = sessionId ∧ session.challengeHash = none ∧
        set.challengeHash ≠ none := by
  obtain ⟨S₁, S₂, r₁, s₁, _⟩ := r.at e
  cases lb with
  | spawn t input => nomatch n
  | cancel t => nomatch n
  | act t input l a =>
    cases input with
    | register request => nomatch n
    | tick => nomatch n
    | inbound event =>
      obtain ⟨⟨nonce, sentAt, msg⟩, roomId, body, op⟩ := n
      obtain ⟨k, seqs, h, o, _, _⟩ := s₁.act_inv
      have ok := (r₁.inv.act h o).1
      simp only [Permits, op] at ok
      obtain ⟨_, ⟨session, set, time, now, challenge, expiresAt, mem, hd, hs, hn, hc, _⟩, first⟩ :=
        ok event sessionId nonce sentAt domain rfl msg
      obtain ⟨l₁, m₁⟩ := r₁.past h mem
      obtain ⟨pre₁, mid, rfl⟩ := List.append_of_mem m₁
      exact ⟨t, _, l, a, rfl, ⟨roomId, body, op⟩, first, pre₁, mid, l₁, event, session, time, _, set,
        rfl, hd, hs, hn, by simp [hc]⟩

/-- At most one notice of a Challenge is sent for a session. -/
lemma Run.one_notice {ls S pre lb post pre' lb' post' domain sessionId} (r : Run st ls S)
    (e : ls = pre ++ lb :: post) (e' : ls = pre' ++ lb' :: post')
    (n : lb.IsChallengeNotice st domain sessionId) (n' : lb'.IsChallengeNotice st domain sessionId) :
    pre = pre' := by
  obtain ⟨t, input, l, a, rfl, ⟨room, body, op⟩, first, pre₁, mid₁, l₁, event, session, time, hash,
    set, h₁, hd, hs, hn, hc⟩ := r.commit_before_notice e n
  obtain ⟨t', input', l', a', rfl, ⟨room', body', op'⟩, first', pre₁', mid₁', l₁', event', session',
    time', hash', set', h₁', hd', hs', hn', hc'⟩ := r.commit_before_notice e' n'
  have c : ls = pre₁ ++ .act t input l₁
      ⟨.commit, Except.ok (), challengeLog event session time hash set⟩ ::
        (mid₁ ++ .act t input l a :: post) := by
    simp [e, h₁]
  have c' : ls = pre₁' ++ .act t' input' l₁'
      ⟨.commit, Except.ok (), challengeLog event' session' time' hash' set'⟩ ::
        (mid₁' ++ .act t' input' l' a' :: post') := by
    simp [e', h₁']
  -- both Requests have the same commit, or the later one found its session bound
  have same : t = t' := by
    obtain ⟨_, eq⟩ | ⟨mid, rfl⟩ | ⟨mid, rfl⟩ := places c c'
    · exact (Label.act.inj eq).1
    · exact absurd hn' (r.not_bound_twice c' hc (hd.trans hd'.symm) (hs.trans hs'.symm))
    · exact absurd hn (r.not_bound_twice c hc' (hd'.trans hd.symm) (hs'.trans hs.symm))
  subst same
  -- one task sends one notice
  obtain ⟨eq, _⟩ | ⟨mid, rfl⟩ | ⟨mid, rfl⟩ := places e e'
  · exact eq
  · exact absurd op (first' a (r.past_of_earlier e').2 room body)
  · exact absurd op' (first a' (r.past_of_earlier e).2 room' body')

/-- Each session is bound to at most one challenge: at most one Request for it reaches the notice of a
Challenge, a bound column never changes again, and no two sessions share a request event id or a
challenge hash. -/
theorem one_challenge_immutable_binding {ls S} (r : Run st ls S) :
    (∀ domain sessionId pre lb post pre' lb' post', ls = pre ++ lb :: post → ls = pre' ++ lb' :: post' →
      lb.IsChallengeNotice st domain sessionId → lb'.IsChallengeNotice st domain sessionId →
      pre = pre') ∧
    (∀ pre post S₁, ls = pre ++ post → Run st pre S₁ → Steps st S₁ post S →
      ∀ row ∈ S₁.db.sessions, row.binding ≠ .none →
        ∃ row' ∈ S.db.sessions, row'.id = row.id ∧ row'.binding = row.binding) ∧
    (∀ row ∈ S.db.sessions, ∀ row' ∈ S.db.sessions, ∀ event,
      row.requestEventId = some event → row'.requestEventId = some event → row = row') ∧
    (∀ row ∈ S.db.sessions, ∀ row' ∈ S.db.sessions, ∀ hash,
      row.challengeHash = some hash → row'.challengeHash = some hash → row = row') := by
  refine ⟨fun d i pre lb post pre' lb' post' e e' n n' => r.one_notice e e' n n',
    fun pre post S₁ _ r₁ s₁ row mem b => ?_, r.reserved.event_inj, r.reserved.challenge_inj⟩
  have bound : row.challengeHash ≠ none := fun e => b (r₁.boundTogether row mem e)
  obtain ⟨row', mem', hi, _, _, hb⟩ := s₁.bound_stays r₁.inv mem bound
  exact ⟨row', mem', hi, hb⟩

/-- The challenge of Alice is the only one of her session. -/
theorem one_challenge_for_alice : ∃ S, Run Sample.relay Sample.consentedLabels S ∧
    (∃ row ∈ S.db.sessions, row.binding ≠ .none) ∧
    ∀ pre lb post pre' lb' post', Sample.consentedLabels = pre ++ lb :: post →
      Sample.consentedLabels = pre' ++ lb' :: post' →
      lb.IsChallengeNotice Sample.relay "a.io" "session-of-alice" →
      lb'.IsChallengeNotice Sample.relay "a.io" "session-of-alice" → pre = pre' := by
  have bound : ∃ row ∈ Sample.consented.db.sessions.rows, row.binding ≠ .none := by decide +kernel
  obtain ⟨S, run, _, hd, _⟩ := Sample.reaches_plain.run
  refine ⟨S, run.run, ?_, (one_challenge_immutable_binding run.run).1 _ _⟩
  rw [hd]
  exact bound

end WebLoginRelay
