import WebLoginRelay.System.Change

/-!
# What a call may do

`Permits st input l a` is what the source lets a call do next, given what it has done before: every
commit is one of the changes of `System.Change`, an event looks for the session it names and for no
other, a transaction updates only a session it has read and enqueues at most one job, every post is for
a claimed job, and a Request sends its notice after its commit. That every call stays within this is
proved by running its code symbolically, once for each function of the source; `Relay.Safe` is the
weakest precondition used for it. A branch that fails needs no proof: what follows a failure is the end of the transaction.
-/

namespace WebLoginRelay
open Text Txn

/-- The entries of a Request that binds its session. -/
def challengeLog (event : InboundEvent) (session : SessionRow) (t : DateTime) (hash : Bytes)
    (set : SessionSet) : List Entry :=
  [.sessionRead session, .replayInsert ⟨.requestEventId event.eventId, t⟩,
    .replayInsert ⟨.challengeHash hash, t⟩, .sessionUpdate session set]

/-- The notice of a Request comes after the commit that bound its session, and only once. -/
structure ChallengeNotice (st : AppState) (event : InboundEvent) (l : Local) (roomId body : String)
    (sessionId nonce domain : String) : Prop where
  room : roomId = event.roomId
  committed : ∃ (session : SessionRow) (set : SessionSet) (t : DateTime) (now : Int64)
    (challenge : String) (expiresAt : Int64),
    ⟨.commit, Except.ok (), challengeLog event session t (st.lookupHash challenge) set⟩ ∈ l.past ∧
    session.domain = domain ∧ session.sessionId = sessionId ∧ session.challengeHash = none ∧
    set.challengeHash = some (st.lookupHash challenge) ∧ set.challengeExpiresAt = some expiresAt ∧
    (MatrixMessage.challenge sessionId nonce now session.siteDisplayName domain
      session.requestedDisplayName challenge expiresAt).encode st.crates = .ok body ∧
    ReadClock l.past now ∧ ¬ session.exp < now ∧ expiresAt = challengeExpiresAt now session.exp
  first : ∀ a ∈ l.past, ∀ r b, a.op ≠ .sendNotice r b

/-- The lookup a message makes. -/
def MatrixMessage.lookup? (st : AppState) : MatrixMessage → Option SessionFilter
  | .request sessionId nonce _ domain => some (.matching domain sessionId (st.lookupHash nonce))
  | .consent sessionId nonce .. => some (.sessionAndNonce sessionId (st.lookupHash nonce))
  | .revocation sessionId nonce .. => some (.sessionAndNonce sessionId (st.lookupHash nonce))
  | _ => none

/-- What a call may do next. -/
def Permits (st : AppState) (input : Input) (l : Local) (a : Act) : Prop :=
  match a.op with
  | .commit => ∀ db, journal.Valid db l.log → Change st input l.past db (journal.replay db l.log)
  | .request r => r.method = .post →
    input = .tick ∧ ∃ job payload, Claimed l.past job ∧
      st.decrypt job.payloadCiphertext = .ok payload ∧ r = job.post payload
  | .sendNotice roomId body => ∀ event sessionId nonce sentAt domain,
    input = .inbound event → event.message? st = some (.request sessionId nonce sentAt domain) →
    ChallengeNotice st event l roomId body sessionId nonce domain
  | .exec (.insertSession _) => ∃ request, input = .register request
  | .exec (.selectSessions filter) => ∀ event, input = .inbound event →
    (event.message? st).bind (·.lookup? st) = some filter
  | .exec (.casUpdate id _ _) => ∃ row, .sessionRead row ∈ l.log ∧ row.id = id
  | .exec (.enqueue _) => ∀ db, (journal.replay db l.log).jobs = db.jobs
  | .auto (.claimDue limit) => input = .tick ∧ limit = 10
  | .auto (.markDelivered id) => input = .tick ∧ ∃ j, Claimed l.past j ∧ j.id = id
  | .auto (.markFailed id) => input = .tick ∧ ∃ j, Claimed l.past j ∧ j.id = id ∧ 8 ≤ j.attempts
  | _ => True

/-- A response and its action are possible on some database the journal is valid for. -/
def Local.Poss (l : Local) (o : Op) (r : o.Resp) (a : Act) : Prop :=
  ∃ es, a = ⟨o, r, es⟩ ∧ ∃ db seqs seqs', journal.Valid db l.log ∧ OpStep db seqs l a seqs'

/-- A postcondition on success only. -/
def onOk {α} (P : α → Local → Prop) : Except RelayError α → Local → Prop
  | .ok a, l => P a l
  | .error _, _ => True

namespace Relay
variable {st : AppState} {input : Input} {α β : Type}

/-- From `l` the computation stays within `Permits`, and if it succeeds, `P` holds. -/
def Safe (st : AppState) (input : Input) (x : Relay α) (P : α → Local → Prop) (l : Local) : Prop :=
  Prog.wp Local.Poss Local.after (Permits st input) x.run (onOk P) l

section Rules
variable {P : α → Local → Prop} {l : Local}

/-- A result is safe if its postcondition holds. -/
lemma safe_pure {a : α} : Safe st input (pure a) P l ↔ P a l := Iff.rfl

/-- A failure is safe. -/
lemma safe_throw {e : RelayError} : Safe st input (throw e : Relay α) P l := trivial

/-- The second part starts where the first one has succeeded. -/
lemma safe_bind {x : Relay α} {f : α → Relay β} {P : β → Local → Prop} :
    Safe st input (x >>= f) P l ↔ Safe st input x (fun a => Safe st input (f a) P) l := by
  have post (r : Except RelayError α) (l : Local) :
      Prog.wp Local.Poss Local.after (Permits st input) (ExceptT.bindCont f r) (onOk P) l ↔
        onOk (fun a => Safe st input (f a) P) r l := by
    cases r with
    | ok a => exact Iff.rfl
    | error e => exact Iff.rfl
  have e : (x >>= f).run = x.run >>= ExceptT.bindCont f := rfl
  rw [Safe, e, Prog.wp_bind]
  exact ⟨Prog.wp_mono _ _ _ fun r l => (post r l).mp, Prog.wp_mono _ _ _ fun r l => (post r l).mpr⟩

/-- A result without effects goes on if there is one. -/
lemma safe_liftResult {r : Except RelayError α} :
    Safe st input (liftResult r) P l ↔ ∀ a, r = .ok a → P a l := by
  cases r with
  | ok a => exact ⟨fun h b e => Except.ok.inj e ▸ h, fun h => h a rfl⟩
  | error e => exact iff_of_true trivial fun a h => nomatch h

/-- The same, as `do` notation lifts it. -/
lemma safe_monadLift {r : Except RelayError α} :
    Safe st input (liftM r) P l ↔ ∀ a, r = .ok a → P a l := safe_liftResult

/-- An operation has to be permitted with every answer. -/
lemma safe_ask {o : Op} {P : o.Resp → Local → Prop} :
    Safe st input (ask o) P l ↔
      ∀ r a, l.Poss o r a → Permits st input l a ∧ P r (l.after a) := by
  have e : (ask o).run = Prog.ask o >>= fun r => pure (.ok r) := rfl
  unfold Safe
  rw [e, Prog.wp_bind, Prog.wp_ask]
  exact Iff.rfl

/-- Less may be said of the end. -/
lemma safe_mono {x : Relay α} {P' : α → Local → Prop} (h : ∀ a l, P a l → P' a l)
    (w : Safe st input x P l) : Safe st input x P' l := by
  refine Prog.wp_mono _ _ _ (fun r l => ?_) w
  cases r with
  | ok a => exact h a l
  | error e => exact id

end Rules

end Relay

end WebLoginRelay
