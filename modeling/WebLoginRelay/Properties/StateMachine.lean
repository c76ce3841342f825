import WebLoginRelay.Properties.Consent
import WebLoginRelay.Properties.Representation
import WebLoginRelay.Properties.Versions

/-!
# The states of a session

The documented diagram, and what the relay makes of it. A Request moves a session only if it has no
challenge yet, but a Consent, a Revocation and a delivery write the state of their session whatever it
is. The diagram is followed in the runs in which the commits for a session come in the order of the
protocol: one Consent, a Revocation only of what was approved, and nothing after it. In such a run the
history of a session tells its state.
-/

namespace WebLoginRelay
open Text Txn

variable {st : AppState} {input : Input} {past : List Act} {db db' : Db} {ls ls' : List Label}
  {lb : Label} {S S' : Sys} {row : SessionRow} {set : SessionSet} {id : Nat}

/-- The edges of the diagram; a retried delivery writes its state again. -/
inductive SessionState.Follows : SessionState → SessionState → Prop where
  | challenge : Follows .siteRegistered .challengeSent
  | refuse : Follows .challengeSent .refused
  | consent : Follows .challengeSent .consentReceived
  | deliver : Follows .consentReceived .assertionDelivered
  | revokeEarly : Follows .consentReceived .revoked
  | revoke : Follows .assertionDelivered .revoked
  | retry : Follows .assertionDelivered .assertionDelivered

/-! ## Histories -/

/-- The call handles a Consent with this answer. -/
def Input.consents (st : AppState) (answer : Bool) : Input → Bool
  | .inbound event =>
    match event.message? st with
    | some (.consent _ _ _ approved _ _ _ _) => approved == answer
    | _ => false
  | _ => false

/-- The call handles a Revocation. -/
def Input.revokes (st : AppState) : Input → Bool
  | .inbound event =>
    match event.message? st with
    | some (.revocation ..) => true
    | _ => false
  | _ => false

/-- The step commits a transition of the session in a call of this kind. -/
def Label.TransitsIn (kind : Input → Bool) (id : Nat) : Label → Bool
  | .act _ input _ a => kind input && a.writes.any (Entry.Updates id)
  | _ => false

/-- The history has such a commit for the session. -/
def Committed (kind : Input → Bool) (id : Nat) (ls : List Label) : Prop := ∃ lb ∈ ls, lb.TransitsIn kind id

/-- It is the turn of a call like this to commit something for the session: there was no Revocation, a
Consent is the first one, and a Revocation comes after an approval. -/
structure HasTurn (st : AppState) (ls : List Label) (id : Nat) (input : Input) : Prop where
  unrevoked : ¬ Committed (·.revokes st) id ls
  firstConsent : ∀ answer, input.consents st answer → ∀ earlier, ¬ Committed (·.consents st earlier) id ls
  approved : input.revokes st → Committed (·.consents st true) id ls

/-- After this history, what the step commits is in turn. -/
def InTurn (st : AppState) (ls : List Label) : Label → Prop
  | .act _ input _ a => ∀ id, a.writes.any (Entry.Updates id) → HasTurn st ls id input
  | _ => True

/-- Everything in the history was in turn. -/
def InOrder (st : AppState) (ls : List Label) : Prop :=
  ∀ pre lb post, ls = pre ++ lb :: post → InTurn st pre lb

/-- The beginning of an ordered history is ordered. -/
lemma InOrder.left (h : InOrder st (ls ++ ls')) : InOrder st ls := by
  rintro pre lb post rfl
  exact h pre lb (post ++ ls') (by simp)

/-- The next step of an ordered history is in turn. -/
lemma InOrder.next (h : InOrder st (ls ++ lb :: ls')) : InTurn st ls lb := h ls lb ls' rfl

/-- A part of a run that is in order is in order. -/
lemma InOrder.snoc (h : InOrder st (ls ++ lb :: ls')) : InOrder st (ls ++ [lb] ++ ls') := by
  rwa [List.append_assoc]

/-- What one more step adds to a history. -/
lemma committed_snoc {kind : Input → Bool} :
    Committed kind id (ls ++ [lb]) ↔ Committed kind id ls ∨ lb.TransitsIn kind id := by
  simp only [Committed, List.mem_append, List.mem_singleton, or_and_right, exists_or, exists_eq_left]

/-- A step that commits nothing for a session adds nothing to its history. -/
lemma Label.not_transitsIn {kind : Input → Bool} (h : ¬ lb.Transits id) : ¬ lb.TransitsIn kind id := by
  intro transits
  cases lb with
  | act t input l a => exact h (Bool.and_eq_true_iff.mp transits).2
  | _ => cases transits

/-- A history without transitions of a session has nothing for it. -/
lemma not_committed {kind : Input → Bool} (h : ls.countP (Label.Transits id) = 0) : ¬ Committed kind id ls := by
  rintro ⟨lb, mem, transits⟩
  exact Label.not_transitsIn (List.countP_eq_zero.mp h lb mem) transits

/-! ## What the history tells -/

/-- The session was approved. -/
def SessionState.approved : SessionState → Bool
  | .consentReceived | .assertionDelivered | .revoked => true
  | _ => false

/-- What the history tells about a session. -/
structure Stage (st : AppState) (ls : List Label) (row : SessionRow) : Prop where
  unbound : row.challengeHash = none ↔ row.state = .siteRegistered
  refused : Committed (·.consents st false) row.id ls ↔ row.state = .refused
  approved : Committed (·.consents st true) row.id ls ↔ row.state.approved
  revoked : Committed (·.revokes st) row.id ls ↔ row.state = .revoked
  minted : row.assertionJti.isSome → row.state.approved
  used : row.state ≠ .expired ∧ row.state ≠ .cancelled

/-- The kind of a call that writes a session, read off the state it writes. -/
structure Writes (st : AppState) (input : Input) (state : SessionState) : Prop where
  refuses : input.consents st false ↔ state = .refused
  approves : input.consents st true ↔ state = .consentReceived
  revokes : input.revokes st ↔ state = .revoked

/-- What a write is made for. -/
lemma SessionWrite.writes (w : SessionWrite st input past db row set) : Writes st input set.state := by
  cases w with
  | request c => constructor <;> simp [Input.consents, Input.revokes, c.message, ChallengeIssue.set]
  | refuse c h => constructor <;> simp [Input.consents, Input.revokes, c.message, h, AcceptedConsent.refusal]
  | approve c => constructor <;> simp [Input.consents, Input.revokes, c.message, c.isApproved, Mint.set]
  | revoke c => constructor <;> simp [Input.consents, Input.revokes, c.message]
  | deliver c => constructor <;> simp [Input.consents, Input.revokes]

/-- A call whose turn it is follows the diagram. -/
lemma Stage.follows (h : Stage st ls row) (w : SessionWrite st input past db row set)
    (claims : ClaimsAreJobs past db) (represented : Represented st db) (turn : HasTurn st ls row.id input) :
    row.state.Follows set.state := by
  have kind := w.writes
  have unrevoked : row.state ≠ .revoked := fun e => turn.unrevoked (h.revoked.mpr e)
  have consents (answer : Bool) (hi : input.consents st answer) (bound : row.challengeHash ≠ none) :
      row.state = .challengeSent := by
    have first := turn.firstConsent answer hi
    have unrefused : row.state ≠ .refused := fun e => first false (h.refused.mpr e)
    have unapproved : ¬ row.state.approved := fun e => first true (h.approved.mpr e)
    have moved : row.state ≠ .siteRegistered := fun e => bound (h.unbound.mpr e)
    have used := h.used
    generalize row.state = state at unrefused unapproved moved used
    cases state with
    | challengeSent => rfl
    | siteRegistered => exact absurd rfl moved
    | refused => exact absurd rfl unrefused
    | expired => exact absurd rfl used.1
    | cancelled => exact absurd rfl used.2
    | consentReceived => exact absurd rfl unapproved
    | assertionDelivered => exact absurd rfl unapproved
    | revoked => exact absurd rfl unapproved
  have live (approved : row.state.approved) :
      row.state = .consentReceived ∨ row.state = .assertionDelivered := by
    generalize row.state = state at approved unrevoked
    cases state with
    | consentReceived => exact .inl rfl
    | assertionDelivered => exact .inr rfl
    | revoked => exact absurd rfl unrevoked
    | _ => cases approved
  cases w with
  | request c =>
    rw [h.unbound.mp c.unbound]
    exact .challenge
  | refuse c _ =>
    rw [consents false (kind.refuses.mpr rfl) (by rw [c.challenge_eq]; exact Option.some_ne_none _)]
    exact .refuse
  | approve c =>
    rw [consents true (kind.approves.mpr rfl) (by rw [c.challenge_eq]; exact Option.some_ne_none _)]
    exact .consent
  | revoke c =>
    obtain e | e := live (h.approved.mp (turn.approved (kind.revokes.mpr rfl)))
    · rw [e]
      exact .revokeEarly
    · rw [e]
      exact .revoke
  | deliver c =>
    obtain e | e := live (h.minted (c.minted claims represented))
    · rw [e]
      exact .deliver
    · rw [e]
      exact .retry

/-- A call that follows the diagram has its turn. -/
lemma Stage.turn (h : Stage st ls row) (kind : Writes st input set.state)
    (f : row.state.Follows set.state) : HasTurn st ls row.id input := by
  refine ⟨fun committed => ?_, fun answer hi earlier committed => ?_, fun hi => ?_⟩
  · rw [h.revoked.mp committed] at f
    cases f
  · have first : row.state = .challengeSent := by
      have target : set.state = .refused ∨ set.state = .consentReceived := by
        cases answer with
        | false => exact .inl (kind.refuses.mp hi)
        | true => exact .inr (kind.approves.mp hi)
      generalize row.state = state at f
      obtain e | e := target
      · rw [e] at f
        cases f
        rfl
      · rw [e] at f
        cases f
        rfl
    cases earlier with
    | false => nomatch first.symm.trans (h.refused.mp committed)
    | true =>
      have approved := h.approved.mp committed
      rw [first] at approved
      cases approved
  · rw [kind.revokes.mp hi] at f
    refine h.approved.mpr ?_
    generalize row.state = state at f
    cases f <;> rfl

/-- A commit that follows the diagram moves the session to its next stage. -/
lemma Stage.next {t l a} (h : Stage st ls row) (w : SessionWrite st input past db row set)
    (f : row.state.Follows set.state) (updates : a.writes.any (Entry.Updates row.id)) :
    Stage st (ls ++ [.act t input l a]) (set.on row) := by
  have kind := w.writes
  have happens (k : Input → Bool) : (Label.act t input l a).TransitsIn k row.id = k input := by
    rw [Label.TransitsIn, updates, Bool.and_true]
  have edge : row.state.Follows (set.on row).state := f
  have writes : Writes st input (set.on row).state := kind
  have approved : (set.on row).state.approved ↔ row.state.approved ∨ (set.on row).state = .consentReceived := by
    generalize row.state = s, (set.on row).state = s' at edge
    cases edge <;> simp [SessionState.approved]
  refine ⟨?_, ?_, ?_, ?_, ?_, ?_⟩
  · refine iff_of_false ?_ ?_
    · have bound (h' : row.challengeHash ≠ none) : (set.on row).challengeHash ≠ none := by
        simp only [SessionSet.on]
        cases set.challengeHash with
        | none => exact h'
        | some hash => exact Option.some_ne_none hash
      have moved (ne : set.state ≠ .challengeSent) : row.challengeHash ≠ none := by
        intro none
        rw [h.unbound.mp none] at f
        generalize set.state = s at f ne
        cases f
        exact ne rfl
      cases w with
      | request c => exact Option.some_ne_none _
      | refuse c _ => exact bound (moved (by intro e; cases e))
      | approve c => exact bound (moved (by intro e; cases e))
      | revoke c => exact bound (moved (by intro e; cases e))
      | deliver c => exact bound (moved (by intro e; cases e))
    · generalize row.state = s, (set.on row).state = s' at edge
      cases edge <;> decide
  · show Committed _ row.id _ ↔ _
    rw [committed_snoc, happens, writes.refuses, h.refused]
    generalize row.state = s, (set.on row).state = s' at edge
    cases edge <;> simp
  · show Committed _ row.id _ ↔ _
    rw [committed_snoc, happens, writes.approves, h.approved, approved]
  · show Committed _ row.id _ ↔ _
    rw [committed_snoc, happens, writes.revokes, h.revoked]
    generalize row.state = s, (set.on row).state = s' at edge
    cases edge <;> simp
  · intro minted
    refine approved.mpr ?_
    cases w with
    | approve c => exact .inr rfl
    | request c => exact .inl (h.minted minted)
    | refuse c _ => exact .inl (h.minted minted)
    | revoke c => exact .inl (h.minted minted)
    | deliver c => exact .inl (h.minted minted)
  · generalize row.state = s, (set.on row).state = s' at edge
    cases edge <;> decide

/-- A session without a history is at the start. -/
lemma Stage.new {request} (c : Registration st request past db)
    (quiet : ls.countP (Label.Transits c.row.id) = 0) : Stage st ls c.row where
  unbound := iff_of_true rfl rfl
  refused := iff_of_false (not_committed quiet) nofun
  approved := iff_of_false (not_committed quiet) nofun
  revoked := iff_of_false (not_committed quiet) nofun
  minted := nofun
  used := ⟨nofun, nofun⟩

/-- A step that commits nothing for the session. -/
lemma Stage.same (h : Stage st ls row) (quiet : ¬ lb.Transits row.id) : Stage st (ls ++ [lb]) row := by
  have same (kind : Input → Bool) : Committed kind row.id (ls ++ [lb]) ↔ Committed kind row.id ls := by
    rw [committed_snoc, or_iff_left (Label.not_transitsIn quiet)]
  refine { h with refused := ?_, approved := ?_, revoked := ?_ }
  · exact (same _).trans h.refused
  · exact (same _).trans h.approved
  · exact (same _).trans h.revoked

/-- A commit for a session is one of the writes. -/
lemma Step.transition (inv : Sys.Inv st S) (s : Step st S lb S') (h : row ∈ S.db.sessions)
    (transits : lb.Transits row.id) : ∃ t input l a set, lb = .act t input l a ∧
      SessionWrite st input l.past S.db row set ∧ set.on row ∈ S'.db.sessions := by
  obtain ⟨next, mem, hi, version⟩ := s.version inv h
  rw [if_pos transits] at version
  have gone : row ∉ S'.db.sessions := by
    intro stays
    rw [session_eq_of_id mem stays hi] at version
    omega
  obtain e | ⟨t, input, l, a, rfl, _, ch⟩ := inv.step_change s
  · exact absurd (e ▸ h) gone
  obtain ⟨row', h', rfl | ⟨set, w, rfl⟩⟩ := ch.session_stays h
  · exact absurd h' gone
  · exact ⟨t, input, l, a, set, rfl, w, h'⟩

/-- A commit for a session is a commit for a session that is there. -/
lemma Step.transits_mem (inv : Sys.Inv st S) (s : Step st S lb S') (transits : lb.Transits id) :
    ∃ row ∈ S.db.sessions, row.id = id := by
  obtain ⟨vl, e⟩ := s.replays inv
  obtain ⟨row', mem, rfl, high⟩ := updated_of_replay vl transits
  rw [← e] at mem
  obtain ⟨row, h, hi, _⟩ | ⟨_, zero⟩ := s.session_origin inv mem
  · exact ⟨row, h, hi.symm⟩
  · omega

/-- A step is in turn exactly if every session stays as it is or follows the diagram. -/
lemma Step.inTurn_iff (r : Run st ls S) (stages : ∀ row ∈ S.db.sessions, Stage st ls row)
    (s : Step st S lb S') :
    InTurn st ls lb ↔ ∀ row ∈ S.db.sessions, ∀ row' ∈ S'.db.sessions, row'.id = row.id →
      row' = row ∨ row.state.Follows row'.state := by
  refine ⟨fun turn row h row' h' hi => ?_, fun follows => ?_⟩
  · by_cases transits : lb.Transits row.id
    · obtain ⟨t, input, l, a, set, rfl, w, mem⟩ := s.transition r.inv h transits
      obtain rfl := session_eq_of_id h' mem hi
      obtain ⟨_, _, task, _, _, _⟩ := s.act_inv
      exact .inr ((stages row h).follows w (r.claimed task) r.represented (turn _ transits))
    · obtain ⟨next, mem, hi', same⟩ := s.version r.inv h
      rw [if_neg transits] at same
      exact .inl (same ▸ session_eq_of_id h' mem (hi.trans hi'.symm))
  · cases lb with
    | act t input l a =>
      intro id transits
      obtain ⟨row, h, rfl⟩ := s.transits_mem r.inv transits
      obtain ⟨_, _, _, _, set, e, w, mem⟩ := s.transition r.inv h transits
      cases e
      obtain e | f := follows row h _ mem rfl
      · have version : row.version + 1 = row.version := congrArg SessionRow.version e
        omega
      · exact (stages row h).turn w.writes f
    | _ => trivial

/-- A step in turn takes every session to its stage. -/
lemma Step.stages (r : Run st ls S) (stages : ∀ row ∈ S.db.sessions, Stage st ls row)
    (s : Step st S lb S') (turn : InTurn st ls lb) : ∀ row ∈ S'.db.sessions, Stage st (ls ++ [lb]) row := by
  intro row' h'
  obtain ⟨row, h, hi, _⟩ | ⟨fresh, _⟩ := s.session_origin r.inv h'
  · by_cases transits : lb.Transits row.id
    · obtain ⟨t, input, l, a, set, rfl, w, mem⟩ := s.transition r.inv h transits
      obtain rfl := session_eq_of_id h' mem hi
      obtain ⟨_, _, task, _, _, _⟩ := s.act_inv
      have stage := stages row h
      exact stage.next w (stage.follows w (r.claimed task) r.represented (turn _ transits)) transits
    · obtain ⟨next, mem, hi', same⟩ := s.version r.inv h
      rw [if_neg transits] at same
      obtain rfl := session_eq_of_id h' mem (hi.trans hi'.symm)
      rw [same]
      exact (stages row h).same transits
  · obtain e | ⟨t, input, l, a, rfl, _, ch⟩ := r.inv.step_change s
    · exact absurd rfl (fresh row' (e ▸ h'))
    obtain ⟨row, h, ev⟩ | ⟨request, rfl, c, rfl⟩ := ch.session_origin h'
    · exact absurd (Evolves.keys ev).1.symm (fresh row h)
    · exact .new c (((r.step s).versionsCount _).1 c.row h' rfl).symm

/-- In an ordered run every session is at the stage its history tells. -/
lemma Run.stages (r : Run st ls S) (ordered : InOrder st ls) : ∀ row ∈ S.db.sessions, Stage st ls row := by
  induction r with
  | init => exact fun row h => absurd h Table.not_mem_empty
  | step r s ih => exact s.stages r (ih ordered.left) ordered.next

/-- A refused or revoked session stays as it is in an ordered run. -/
lemma Steps.stays (s : Steps st S ls' S') (r : Run st ls S) (ordered : InOrder st (ls ++ ls'))
    (h : row ∈ S.db.sessions) (terminal : row.isTerminal) (undelivered : row.state ≠ .assertionDelivered) :
    row ∈ S'.db.sessions := by
  induction s generalizing ls with
  | nil => exact h
  | cons s _ ih =>
    refine ih (r.step s) ordered.snoc ?_
    obtain ⟨row', h', hi, _⟩ := s.version r.inv h
    obtain rfl | f := (s.inTurn_iff r (r.stages ordered.left)).mp ordered.next row h row' h' hi
    · exact h'
    · -- no edge leads away from the state of the row
      simp only [SessionRow.isTerminal] at terminal
      generalize row.state = s, row'.state = s' at f terminal undelivered
      cases f <;> simp at terminal undelivered

/-- An assertion leaves its mark on the session, and a refused session has none. -/
lemma Stage.no_assertion (h : Stage st ls row) (represented : Represented st S.db) (mem : row ∈ S.db.sessions)
    (refused : row.state = .refused) {job : DeliveryJob} (hj : job ∈ S.db.jobs) :
    ¬ job.isAssertionOf row.domain row.sessionId := by
  intro isOf
  simp only [DeliveryJob.isAssertionOf, Bool.and_eq_true, beq_iff_eq] at isOf
  obtain ⟨⟨kind, domain⟩, sessionId⟩ := isOf
  obtain ⟨r, hr, hd, hs, _, minted, _⟩ := represented.job job hj kind
  obtain rfl := session_eq_of_key hr mem (hd.trans domain) (hs.trans sessionId)
  have approved := h.minted minted
  rw [refused] at approved
  cases approved

/-- In the runs whose commits are in order, a step is in order exactly if every session it changes
follows the diagram, a terminal session that was not delivered is never written again, and a refused
session has no assertion. -/
theorem session_follows_diagram (r : Run st ls S) (ordered : InOrder st ls) :
    (∀ lb S', Step st S lb S' → (InTurn st ls lb ↔ ∀ row ∈ S.db.sessions, ∀ row' ∈ S'.db.sessions,
      row'.id = row.id → row' = row ∨ row.state.Follows row'.state)) ∧
    (∀ row ∈ S.db.sessions, row.isTerminal → row.state ≠ .assertionDelivered →
      ∀ ls' S', Steps st S ls' S' → InOrder st (ls ++ ls') → row ∈ S'.db.sessions) ∧
    (∀ row ∈ S.db.sessions, row.state = .refused →
      ∀ job ∈ S.db.jobs, ¬ job.isAssertionOf row.domain row.sessionId) := by
  have stages := r.stages ordered
  refine ⟨fun lb S' s => s.inTurn_iff r stages, fun row h terminal undelivered ls' S' s ordered => ?_,
    fun row h refused job hj => ?_⟩
  · exact s.stays r ordered h terminal undelivered
  · exact (stages row h).no_assertion r.represented h refused hj

/-- A history without a Revocation, in which at most one commit is for a Consent, is ordered. -/
lemma InOrder.of_single {p : Label → Bool} (unrevoked : ∀ lb ∈ ls, ∀ id, ¬ lb.TransitsIn (·.revokes st) id)
    (consents : ∀ lb ∈ ls, ∀ answer id, lb.TransitsIn (·.consents st answer) id → p lb)
    (single : ls.countP p ≤ 1) : InOrder st ls := by
  rintro pre lb post rfl
  cases lb with
  | act t input l a =>
    have mem : .act t input l a ∈ pre ++ .act t input l a :: post := by simp
    refine fun id updates => ⟨?_, fun answer hi earlier => ?_, fun hi => ?_⟩
    · rintro ⟨lb, hlb, transits⟩
      exact unrevoked lb (List.mem_append_left _ hlb) id transits
    · rintro ⟨lb, hlb, transits⟩
      have here : p (.act t input l a) := consents _ mem answer id (by simp [Label.TransitsIn, hi, updates])
      have before : 0 < pre.countP p :=
        List.countP_pos_iff.mpr ⟨lb, hlb, consents lb (List.mem_append_left _ hlb) earlier id transits⟩
      rw [List.countP_append, List.countP_cons, if_pos here] at single
      omega
    · exact absurd (by simp [Label.TransitsIn, hi, updates]) (unrevoked _ mem id)
  | _ => trivial

/-- The transitions of a call are its own. -/
lemma Env.transitsIn_labels {env : Env} {n : Nat} {seqs : Seqs} {kind : Input → Bool}
    (h : lb ∈ env.labels st n input db seqs) (transits : lb.TransitsIn kind id) :
    kind input ∧ ∃ m ∈ env.trace (input.prog st) db seqs {}, lb = m.label n input ∧
      m.act.writes.any (Entry.Updates id) := by
  obtain rfl | ⟨m, hm, rfl⟩ := Env.mem_labels h
  · cases transits
  · obtain ⟨hk, updates⟩ := Bool.and_eq_true_iff.mp transits
    exact ⟨hk, m, hm, rfl, updates⟩

/-- The third call writes a session. -/
def Label.isThirdWrite : Label → Bool
  | .act t _ _ a => t == 2 && a.writes.any Entry.WritesSession
  | _ => false

/-- The commits of Alice's login are in order. -/
lemma Sample.inOrder_alice : InOrder Sample.relay Sample.consentedLabels := by
  have kinds : ∀ lb ∈ Sample.consentedLabels, ∀ id kind, lb.TransitsIn kind id →
      kind (.register Sample.alice.registration) ∨ kind (.inbound Sample.alice.request) ∨
        (kind (.inbound (Sample.alice.consent "$consent" true)) ∧ lb.isThirdWrite) := by
    intro lb mem id kind transits
    obtain mem | mem := List.mem_append.mp mem
    · obtain mem | mem := List.mem_append.mp mem
      · exact .inl (Env.transitsIn_labels mem transits).1
      · exact .inr (.inl (Env.transitsIn_labels mem transits).1)
    · obtain ⟨hk, m, _, rfl, updates⟩ := Env.transitsIn_labels mem transits
      refine .inr (.inr ⟨hk, ?_⟩)
      obtain ⟨e, he, update⟩ := List.any_eq_true.mp updates
      refine Bool.and_eq_true_iff.mpr ⟨rfl, List.any_eq_true.mpr ⟨e, he, ?_⟩⟩
      cases e with
      | sessionUpdate row set => rfl
      | _ => cases update
  have earlier {n : Nat} (ne : n ≠ 2) {env : Env} {input : Input} {db : Db} {seqs : Seqs} :
      (env.labels Sample.relay n input db seqs).countP Label.isThirdWrite = 0 := by
    rw [List.countP_eq_zero]
    intro lb mem write
    obtain rfl | ⟨m, _, rfl⟩ := Env.mem_labels mem
    · cases write
    · exact ne (beq_iff_eq.mp (Bool.and_eq_true_iff.mp write).1)
  have once : Sample.consentTrace.countP (fun m => m.act.writes.any Entry.WritesSession) = 1 := by
    decide +kernel
  refine .of_single (p := Label.isThirdWrite) (fun lb mem id transits => ?_)
    (fun lb mem answer id transits => ?_) ?_
  · obtain h | h | ⟨h, _⟩ := kinds lb mem id _ transits
    · cases h
    · rw [Input.revokes, Sample.alice_valid.request] at h
      cases h
    · rw [Input.revokes, Sample.alice_valid.consent] at h
      cases h
  · obtain h | h | ⟨_, h⟩ := kinds lb mem id _ transits
    · cases h
    · rw [Input.consents, Sample.alice_valid.request] at h
      cases h
    · exact h
  · have third : (Sample.env 12 Sample.loginTime Sample.alice.site).labels Sample.relay 2
        (.inbound (Sample.alice.consent "$consent" true)) Sample.requested.db Sample.requested.seqs =
        .spawn 2 (.inbound (Sample.alice.consent "$consent" true)) ::
          Sample.consentTrace.map (Moment.label 2 (.inbound (Sample.alice.consent "$consent" true))) := by
      rw [Env.labels, Sample.alice_valid.prog_consent]
      rfl
    rw [Sample.consentedLabels, Sample.requestedLabels, List.countP_append, List.countP_append,
      earlier (by decide), earlier (by decide), third, List.countP_cons, List.countP_map]
    show 0 + 0 + (Sample.consentTrace.countP (fun m => m.act.writes.any Entry.WritesSession) + 0) ≤ 1
    rw [once]

/-- The login of Alice is such a run. -/
theorem session_follows_diagram_alice : ∃ ls S, Run Sample.relay ls S ∧ InOrder Sample.relay ls ∧
    S.db.sessions.rows.map (·.state) = [.consentReceived] ∧
    ∀ lb S', Step Sample.relay S lb S' → (InTurn Sample.relay ls lb ↔ ∀ row ∈ S.db.sessions,
      ∀ row' ∈ S'.db.sessions, row'.id = row.id → row' = row ∨ row.state.Follows row'.state) := by
  obtain ⟨S, run, _, hd, _⟩ := Sample.reaches_plain.run
  refine ⟨_, S, run.run, Sample.inOrder_alice, ?_,
    (session_follows_diagram run.run Sample.inOrder_alice).1⟩
  rw [hd]
  decide +kernel

/-- Alice has refused the login. -/
def refused : Env.Final Result :=
  Sample.alice.consented Sample.requested.db Sample.requested.seqs 12 "$refusal" false

/-- She approves it later. -/
def approvedLate : { F : Env.Final Result //
    Sample.alice.consented refused.db refused.seqs 13 "$consent" true = F ∧ refused.loc.log = [] ∧
    F.loc.log = [] ∧ refused.db.sessions.rows.map (·.state) = [.refused] ∧
    F.db.sessions.rows.map (·.state) = [.consentReceived] } :=
  ⟨_, rfl, by decide +kernel⟩

/-- A refused session that is approved later is left for `CONSENT_RECEIVED`. -/
theorem refused_session_is_left : ¬ ∀ ls S lb S', Run Sample.relay ls S → Step Sample.relay S lb S' →
    ∀ row ∈ S.db.sessions, ∀ row' ∈ S'.db.sessions, row'.id = row.id →
      row' = row ∨ row.state.Follows row'.state := by
  intro claim
  obtain ⟨approved, ha, facts⟩ := approvedLate
  have r := Sample.alice_valid.consents (Sample.reaches_requested (C := fun _ _ => True)
    (fun _ _ _ => trivial) (fun _ _ _ _ _ => trivial) fun _ _ _ _ => trivial) (F := refused) rfl facts.1
    (fun _ => trivial) fun _ _ _ _ _ _ => trivial
  have before : ∃ row ∈ refused.db.sessions, row.state = .refused := by
    have mem : SessionState.refused ∈ refused.db.sessions.rows.map (·.state) := by simp [facts.2.2.1]
    exact List.mem_map.mp mem
  have after : ¬ ∃ row ∈ approved.db.sessions, row.state = .refused := by
    rintro ⟨row, hr, e⟩
    have mem := List.mem_map_of_mem (f := (·.state)) hr
    rw [facts.2.2.2, e] at mem
    simp at mem
  obtain ⟨ls, S₁, l, a, S₂, _, _, r₁, ⟨row, hr, e⟩, s, left, _⟩ :=
    r.turn (P := fun db => ∃ row ∈ db.sessions, row.state = .refused)
      (Sample.alice_valid.call_consent ha) rfl facts.2.1 before after
  obtain e' | ⟨_, _, _, _, _, _, ch⟩ := r₁.inv.step_change s
  · exact left ⟨row, by rwa [e'], e⟩
  obtain ⟨row', hr', ev⟩ := ch.session_stays hr
  have hi : row'.id = row.id := by
    obtain rfl | ⟨set, _, rfl⟩ := ev
    · rfl
    · rfl
  obtain rfl | f := claim ls S₁ _ S₂ r₁ s row hr row' hr' hi
  · exact left ⟨row', hr', e⟩
  · rw [e] at f
    nomatch f

end WebLoginRelay
