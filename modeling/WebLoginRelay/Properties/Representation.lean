import WebLoginRelay.Properties.Binding

/-!
# What a session row says

The columns of a session are written piecemeal by one update with `COALESCE`, from four handlers that do
not look at its state. The columns a registration writes keep what the validators promised, the others
are filled in groups, and the keys a row has reserved in the replay tables are not shared with another
row, although the table itself has no constraint on them.
-/

namespace WebLoginRelay
open Text Txn

variable {st : AppState} {input : Input} {past : List Act} {db db' : Db}

/-! ## The columns of a registration -/

/-- What the validators of a registration promise about its row. -/
structure SessionRow.Registered (st : AppState) (r : SessionRow) : Prop where
  domain : validateDomain r.domain = .ok ()
  sessionId : validateId r.sessionId = .ok ()
  nonce : ∃ nonce, validateId nonce = .ok () ∧ Sealed st (asBytes nonce) r.nonceCiphertext ∧
    r.nonceHash = st.lookupHash nonce
  window : r.iat.toInt < r.exp.toInt ∧ r.exp.toInt ≤ r.iat.toInt + 300000
  requestedDisplayName : len r.requestedDisplayName ≤ 100
  siteDisplayName : isBlank r.siteDisplayName = false ∧ len r.siteDisplayName ≤ 100

/-- No update writes these columns. -/
lemma SessionRow.Registered.on {r : SessionRow} (h : r.Registered st) (set : SessionSet) :
    (set.on r).Registered st :=
  ⟨h.domain, h.sessionId, h.nonce, h.window, h.requestedDisplayName, h.siteDisplayName⟩

/-- A valid window is at most five minutes long. -/
lemma window_of_validateWindow {iat exp : Int64} (h : validateWindow iat exp = .ok ()) :
    iat.toInt < exp.toInt ∧ exp.toInt ≤ iat.toInt + 300000 := by
  unfold validateWindow at h
  split at h
  · nomatch h
  · rename_i ok
    rw [not_or, Int64.not_le, Int64.lt_iff_toInt_lt, Int64.not_lt, Int64.le_iff_toInt_le] at ok
    obtain ⟨lt, le⟩ := ok
    refine ⟨lt, ?_⟩
    unfold saturatingSub saturate at le
    have max : maxTtlMs.toInt = 300000 := rfl
    rw [max] at le
    split at le
    · omega
    · split at le
      · exact absurd le (by decide)
      · rename_i lo hi
        rw [Int64.toInt_ofInt_of_le (by omega) (by omega)] at le
        omega

/-- A valid display name is short. -/
lemma len_of_validateDisplayName {value : String} {required : Bool}
    (h : validateDisplayName value required = .ok ()) : len value ≤ 100 := by
  unfold validateDisplayName at h
  split at h
  · nomatch h
  · split at h
    · nomatch h
    · rename_i short
      exact Nat.not_lt.mp short

/-- What a request is checked for. -/
lemma RegistrationRequest.validate_ok {r : RegistrationRequest} (h : r.validate = .ok ()) :
    validateDomain r.domain = .ok () ∧ validateId r.sessionId = .ok () ∧ validateId r.nonce = .ok () ∧
      validateWindow r.iat r.exp = .ok () ∧
      validateDisplayName r.requestedDisplayName false = .ok () := by
  simp only [RegistrationRequest.validate] at h
  obtain ⟨_, h⟩ := guard_ok h
  obtain ⟨_, domain, h⟩ := bind_ok h
  obtain ⟨_, sessionId, h⟩ := bind_ok h
  obtain ⟨_, nonce, h⟩ := bind_ok h
  obtain ⟨_, window, h⟩ := bind_ok h
  obtain ⟨_, name, _⟩ := bind_ok h
  exact ⟨domain, sessionId, nonce, window, name⟩

/-- What the metadata of a site is checked for. -/
lemma SiteMetadata.validateForDomain_ok {X : Crates} {m : SiteMetadata} {domain : String}
    (h : m.validateForDomain X domain = .ok ()) :
    isBlank m.displayName = false ∧ len m.displayName ≤ 100 := by
  simp only [SiteMetadata.validateForDomain] at h
  obtain ⟨_, h⟩ := guard_ok h
  obtain ⟨_, _, h⟩ := bind_ok h
  obtain ⟨_, h⟩ := guard_ok h
  obtain ⟨name, _⟩ := guard_ok h
  rw [not_or, Bool.not_eq_true, Nat.not_lt] at name
  exact name

/-- A registration inserts what was checked. -/
lemma Registration.registered {request} (c : Registration st request past db) :
    c.row.Registered st := by
  obtain ⟨domain, sessionId, nonce, window, name⟩ := RegistrationRequest.validate_ok c.valid
  exact {
    domain, sessionId
    nonce := ⟨request.nonce, nonce, c.nonceSealed, rfl⟩
    window := window_of_validateWindow window
    requestedDisplayName := len_of_validateDisplayName name
    siteDisplayName := SiteMetadata.validateForDomain_ok c.verified }

/-! ## The columns of the updates -/

/-- All of these columns are present, or all are absent. -/
def AllOrNone (present : List Bool) : Prop := present.all (· == true) ∨ present.all (· == false)

/-- What the columns a row has been given since its registration say together. -/
structure SessionRow.Filled (st : AppState) (r : SessionRow) : Prop where
  request : AllOrNone [r.requestEventId.isSome, r.requestRoomCiphertext.isSome,
    r.requestSenderCiphertext.isSome, r.challengeHash.isSome, r.challengeExpiresAt.isSome]
  room : ∀ c ∈ r.requestRoomCiphertext, ∃ room, Sealed st (asBytes room) c
  sender : ∀ c ∈ r.requestSenderCiphertext, ∃ sender, Sealed st (asBytes sender) c
  expires : ∀ t ∈ r.challengeExpiresAt, t ≤ r.exp
  assertion : AllOrNone [r.displayNameCiphertext.isSome, r.assertionJti.isSome,
    r.assertionCiphertext.isSome]
  display : ∀ c ∈ r.displayNameCiphertext, ∃ name, Sealed st (asBytes name) c ∧ len name ≤ 100
  consented : r.assertionJti.isSome → r.consentEventId.isSome
  challenged : r.consentEventId.isSome → r.challengeHash.isSome
  version : r.version = 0 ↔ r.state = .siteRegistered
  minted : r.state = .consentReceived ∨ r.state = .assertionDelivered → r.assertionJti.isSome
  refused : r.state = .refused → r.consentEventId.isSome

/-- A new row has nothing to say. -/
lemma Registration.filled {request} (c : Registration st request past db) : c.row.Filled st where
  request := .inr rfl
  room := nofun
  sender := nofun
  expires := nofun
  assertion := .inr rfl
  display := nofun
  consented := nofun
  challenged := nofun
  version := iff_of_true rfl rfl
  minted := by rintro (e | e) <;> nomatch e
  refused := nofun

/-- A challenge does not outlive its session. -/
lemma challengeExpiresAt_le (now exp : Int64) : challengeExpiresAt now exp ≤ exp := by
  unfold challengeExpiresAt
  exact Std.min_le_right

/-- A Request fills the first group. -/
lemma ChallengeIssue.filled {event} (c : ChallengeIssue st event past db)
    (h : c.session.Filled st) : (c.set.on c.session).Filled st where
  request := .inl rfl
  room := by
    rintro _ ⟨⟩
    exact ⟨_, c.roomSealed⟩
  sender := by
    rintro _ ⟨⟩
    exact ⟨_, c.senderSealed⟩
  expires := by
    rintro _ ⟨⟩
    exact challengeExpiresAt_le ..
  assertion := h.assertion
  display := h.display
  consented := h.consented
  challenged _ := rfl
  version := iff_of_false (Nat.succ_ne_zero _) nofun
  minted := by rintro (e | e) <;> nomatch e
  refused := nofun

/-- A refusal notes its event. -/
lemma AcceptedConsent.filled {event} (c : AcceptedConsent st event past db)
    (h : c.session.Filled st) : ((AcceptedConsent.refusal event).on c.session).Filled st where
  request := h.request
  room := h.room
  sender := h.sender
  expires := h.expires
  assertion := h.assertion
  display := h.display
  consented _ := rfl
  challenged _ := Option.isSome_iff_exists.mpr ⟨_, c.challenge_eq⟩
  version := iff_of_false (Nat.succ_ne_zero _) nofun
  minted := by rintro (e | e) <;> nomatch e
  refused _ := rfl

/-- An approved Consent fills the second group. -/
lemma Mint.filled {event} (c : Mint st event past db) (h : c.session.Filled st) :
    (c.set.on c.session).Filled st where
  request := h.request
  room := h.room
  sender := h.sender
  expires := h.expires
  assertion := .inl rfl
  display := by
    rintro _ ⟨⟩
    obtain ⟨_, name, _⟩ := RelayAssertion.sign_valid c.assertion_eq
    exact ⟨_, c.displaySealed, len_of_validateDisplayName name⟩
  consented _ := rfl
  challenged _ := Option.isSome_iff_exists.mpr ⟨_, c.challenge_eq⟩
  version := iff_of_false (Nat.succ_ne_zero _) nofun
  minted _ := rfl
  refused := nofun

/-- A change of the state alone. -/
lemma SessionRow.Filled.move {r : SessionRow} (h : r.Filled st) {state : SessionState}
    (later : state = .revoked ∨ (state = .assertionDelivered ∧ r.assertionJti.isSome)) :
    (SessionSet.on { state } r).Filled st where
  request := h.request
  room := h.room
  sender := h.sender
  expires := h.expires
  assertion := h.assertion
  display := h.display
  consented := h.consented
  challenged := h.challenged
  version := by
    refine iff_of_false (Nat.succ_ne_zero _) ?_
    obtain rfl | ⟨rfl, _⟩ := later
    · exact nofun
    · exact nofun
  minted e := by
    obtain rfl | ⟨rfl, some⟩ := later
    · obtain e | e := e <;> nomatch e
    · exact some
  refused e := by
    obtain rfl | ⟨rfl, _⟩ := later
    · nomatch e
    · nomatch e

/-! ## Keys of the replay tables -/

/-- The replay keys in the columns of a row. -/
def SessionRow.keys (r : SessionRow) : List ReplayKey :=
  (r.requestEventId.map .requestEventId).toList ++ (r.challengeHash.map .challengeHash).toList ++
    (r.consentEventId.map .consentEventId).toList ++ (r.assertionJti.map .assertionJti).toList

/-- The replay keys an update assigns. -/
def SessionSet.keys (c : SessionSet) : List ReplayKey :=
  (c.requestEventId.map .requestEventId).toList ++ (c.challengeHash.map .challengeHash).toList ++
    (c.consentEventId.map .consentEventId).toList ++ (c.assertionJti.map .assertionJti).toList

/-- The keys of an updated row were assigned, or there before. -/
lemma SessionSet.mem_keys_on {c : SessionSet} {r : SessionRow} {k : ReplayKey}
    (h : k ∈ (c.on r).keys) : k ∈ c.keys ∨ k ∈ r.keys := by
  have column {α : Type} {key : α → ReplayKey} (a b : Option α)
      (h : k ∈ ((a <|> b).map key).toList) : k ∈ (a.map key).toList ∨ k ∈ (b.map key).toList := by
    cases a with
    | none => exact .inr h
    | some _ => exact .inl h
  simp only [SessionRow.keys, SessionSet.keys, SessionSet.on, List.mem_append] at h ⊢
  obtain ((h | h) | h) | h := h
  · obtain h | h := column _ _ h <;> simp [h]
  · obtain h | h := column _ _ h <;> simp [h]
  · obtain h | h := column _ _ h <;> simp [h]
  · obtain h | h := column _ _ h <;> simp [h]

/-- A replay table has the key. -/
def Db.HasKey (db : Db) (k : ReplayKey) : Prop := ∃ row ∈ db.replay, row.key = k

/-- The keys of every row are reserved, and not shared with another row. -/
structure KeysReserved (db : Db) : Prop where
  reserved : ∀ r ∈ db.sessions, ∀ k ∈ r.keys, db.HasKey k
  unshared : ∀ r ∈ db.sessions, ∀ r' ∈ db.sessions, ∀ k ∈ r.keys, k ∈ r'.keys → r = r'

/-- After an insert the key is there, now or from before. -/
lemma Db.hasKey_reserve (db : Db) (row : ReplayRow) : (db.reserve row).HasKey row.key := by
  by_cases clash : db.replay.Clashes row
  · obtain ⟨old, mem, e⟩ := clash
    exact ⟨old, Table.mem_insert.mpr (.inl mem), e⟩
  · exact ⟨row, Table.mem_insert.mpr (.inr ⟨rfl, clash⟩), rfl⟩

/-- A row and its place after an update. -/
lemma mem_updateSession_iff {s r' : SessionRow} {set : SessionSet} (hs : s ∈ db.sessions)
    (h : r' ∈ (db.updateSession s.id set).sessions) :
    r' = set.on s ∨ (r' ∈ db.sessions ∧ r'.id ≠ s.id) := by
  rw [Db.mem_updateSession] at h
  obtain ⟨r, hr, rfl⟩ := h
  by_cases hi : r.id = s.id
  · obtain rfl := session_eq_of_id hr hs hi
    exact .inl (if_pos rfl)
  · rw [SessionSet.at_ne hi]
    exact .inr ⟨hr, hi⟩

/-- An update that assigns new keys, and reserves them. -/
lemma KeysReserved.update (h : KeysReserved db) {s : SessionRow} {set : SessionSet}
    (hs : s ∈ db.sessions) (e : db'.sessions = (db.updateSession s.id set).sessions)
    (stay : ∀ row ∈ db.replay, row ∈ db'.replay)
    (new : ∀ k ∈ set.keys, ¬ db.HasKey k ∧ db'.HasKey k) : KeysReserved db' := by
  have kept {k : ReplayKey} : db.HasKey k → db'.HasKey k := fun ⟨row, hr, hk⟩ => ⟨row, stay row hr, hk⟩
  have fresh {r : SessionRow} {k : ReplayKey} (hr : r ∈ db.sessions) (ne : r.id ≠ s.id)
      (hk : k ∈ r.keys) : k ∉ (set.on s).keys := by
    intro hk'
    obtain hk' | hk' := SessionSet.mem_keys_on hk'
    · exact (new k hk').1 (h.reserved r hr k hk)
    · exact ne (congrArg SessionRow.id (h.unshared r hr s hs k hk hk'))
  refine ⟨fun r hr k hk => ?_, fun r hr r' hr' k hk hk' => ?_⟩
  · rw [e] at hr
    obtain rfl | ⟨hr, _⟩ := mem_updateSession_iff hs hr
    · obtain hk | hk := SessionSet.mem_keys_on hk
      · exact (new k hk).2
      · exact kept (h.reserved s hs k hk)
    · exact kept (h.reserved r hr k hk)
  · rw [e] at hr hr'
    obtain rfl | ⟨hr, ne⟩ := mem_updateSession_iff hs hr
    · obtain rfl | ⟨hr', ne'⟩ := mem_updateSession_iff hs hr'
      · rfl
      · exact absurd hk (fresh hr' ne' hk')
    · obtain rfl | ⟨hr', _⟩ := mem_updateSession_iff hs hr'
      · exact absurd hk' (fresh hr ne hk)
      · exact h.unshared r hr r' hr' k hk hk'

/-- Sessions that stay as they are keep their keys. -/
lemma KeysReserved.same (h : KeysReserved db) (e : db'.sessions = db.sessions)
    (stay : ∀ row ∈ db.replay, row ∈ db'.replay) : KeysReserved db' where
  reserved r hr k hk := by
    obtain ⟨row, hrow, e'⟩ := h.reserved r (e ▸ hr) k hk
    exact ⟨row, stay row hrow, e'⟩
  unshared r hr r' hr' := h.unshared r (e ▸ hr) r' (e ▸ hr')

/-- A new row has no keys. -/
lemma KeysReserved.register {request} (h : KeysReserved db) (c : Registration st request past db) :
    KeysReserved c.result := by
  have origin {r : SessionRow} {k : ReplayKey} (hr : r ∈ c.result.sessions) (hk : k ∈ r.keys) :
      r ∈ db.sessions := by
    obtain hr | ⟨rfl, _⟩ := Table.mem_insert.mp hr
    · exact hr
    · nomatch hk
  exact ⟨fun r hr k hk => h.reserved r (origin hr hk) k hk,
    fun r hr r' hr' k hk hk' => h.unshared r (origin hr hk) r' (origin hr' hk') k hk hk'⟩

/-- Every change keeps the keys reserved. -/
lemma Change.keysReserved (ch : Change st input past db db') (h : KeysReserved db) :
    KeysReserved db' := by
  have free {row : ReplayRow} (new : ¬ db.replay.Clashes row) : ¬ db.HasKey row.key := new
  have stay (row : ReplayRow) : row ∈ db.replay → row ∈ db'.replay := ch.replay_stays
  have update {s : SessionRow} {set : SessionSet} (hs : s ∈ db.sessions)
      (e : db'.sessions = (db.updateSession s.id set).sessions) :=
    h.update hs e stay
  cases ch with
  | keep => exact h
  | register c => exact h.register c
  | request c =>
    refine update c.mem rfl fun k hk => ?_
    simp only [SessionSet.keys, ChallengeIssue.set, Option.map_some, Option.toList_some,
      Option.map_none, Option.toList_none, List.append_nil, List.singleton_append, List.mem_cons,
      List.not_mem_nil, or_false] at hk
    obtain rfl | rfl := hk
    · refine ⟨free c.newEvent, ?_⟩
      obtain ⟨row, mem, e⟩ := db.hasKey_reserve ⟨.requestEventId _, c.expiresAt⟩
      exact ⟨row, Table.mem_insert.mpr (.inl mem), e⟩
    · exact ⟨free c.newChallenge, Db.hasKey_reserve _ ⟨.challengeHash _, c.expiresAt⟩⟩
  | refuse c _ =>
    refine update c.mem rfl fun k hk => ?_
    cases List.mem_singleton.mp hk
    exact ⟨free c.newEvent, db.hasKey_reserve ⟨.consentEventId _, c.expiresAt⟩⟩
  | approve c =>
    refine update c.mem c.result_sessions fun k hk => ?_
    simp only [SessionSet.keys, Mint.set, Option.map_some, Option.toList_some,
      Option.map_none, Option.toList_none, List.nil_append, List.singleton_append, List.mem_cons,
      List.not_mem_nil, or_false] at hk
    obtain rfl | rfl := hk
    · refine ⟨free c.newEvent, ?_⟩
      obtain ⟨row, mem, e⟩ := db.hasKey_reserve ⟨.consentEventId _, c.expiresAt⟩
      refine ⟨row, ?_, e⟩
      simp only [Mint.result, Db.addJob_replay, Db.updateSession_replay]
      exact Table.mem_insert.mpr (.inl (by rwa [Db.putGrant_replay]))
    · refine ⟨free c.newJti, ?_⟩
      obtain ⟨row, mem, e⟩ := ((db.reserve ⟨.consentEventId _, c.expiresAt⟩).putGrant c.grant
        c.grantId).hasKey_reserve ⟨.assertionJti c.jti, c.expiresAt⟩
      refine ⟨row, ?_, e⟩
      simpa only [Mint.result, Db.addJob_replay, Db.updateSession_replay] using mem
  | revoke c => exact update c.mem c.result_sessions fun k hk => by cases hk
  | deliver c => exact update c.mem rfl fun k hk => by cases hk
  | claim due => exact h.same (replay_jobUpdate db).1 stay
  | mark _ _ _ _ => exact h.same rfl stay

/-! ## The invariant -/

/-- The session of an assertion job has been granted, and knows where to send the result. -/
def HasSession (st : AppState) (db : Db) (j : DeliveryJob) : Prop :=
  ∃ r ∈ db.sessions, r.domain = j.domain ∧ r.sessionId = j.sessionId ∧ r.nonceHash = j.nonceHash ∧
    r.assertionJti.isSome ∧
    (∃ c ∈ r.requestRoomCiphertext, ∃ room, Sealed st (asBytes room) c) ∧
    ∃ c ∈ r.requestSenderCiphertext, ∃ sender, Sealed st (asBytes sender) c

/-- What the sessions of a database say. -/
structure Represented (st : AppState) (db : Db) : Prop where
  registered : ∀ r ∈ db.sessions, r.Registered st
  filled : ∀ r ∈ db.sessions, r.Filled st
  keys : KeysReserved db
  job : ∀ j ∈ db.jobs, j.kind = .assertion → HasSession st db j

/-- The ciphertexts of a bound row. -/
lemma SessionRow.Filled.ciphertexts {r : SessionRow} (h : r.Filled st) (b : r.challengeHash.isSome) :
    (∃ c ∈ r.requestRoomCiphertext, ∃ room, Sealed st (asBytes room) c) ∧
      ∃ c ∈ r.requestSenderCiphertext, ∃ sender, Sealed st (asBytes sender) c := by
  obtain all | none := h.request
  · simp only [List.all_cons, List.all_nil, Bool.and_true, Bool.and_eq_true, beq_iff_eq] at all
    obtain ⟨room, hr⟩ := Option.isSome_iff_exists.mp all.2.1
    obtain ⟨sender, hs⟩ := Option.isSome_iff_exists.mp all.2.2.1
    exact ⟨⟨room, hr, h.room room hr⟩, sender, hs, h.sender sender hs⟩
  · simp [b] at none

/-- The session of a job, once its row is known to be granted. -/
lemma HasSession.of_row {j : DeliveryJob} {r : SessionRow} (hr : r ∈ db.sessions) (filled : r.Filled st)
    (hd : r.domain = j.domain) (hs : r.sessionId = j.sessionId) (hn : r.nonceHash = j.nonceHash)
    (minted : r.assertionJti.isSome) : HasSession st db j := by
  obtain ⟨room, sender⟩ := filled.ciphertexts (filled.challenged (filled.consented minted))
  exact ⟨r, hr, hd, hs, hn, minted, room, sender⟩

/-- Only what no operation changes about a job matters. -/
lemma HasSession.congr {i j : DeliveryJob} (h : HasSession st db i) (e : j.fixed = i.fixed) :
    HasSession st db j := by
  obtain ⟨r, hr, hd, hs, hn, rest⟩ := h
  have jd : j.domain = i.domain := DeliveryJob.of_fixed e (·.domain) fun _ => rfl
  have js : j.sessionId = i.sessionId := DeliveryJob.of_fixed e (·.sessionId) fun _ => rfl
  have jn : j.nonceHash = i.nonceHash := DeliveryJob.of_fixed e (·.nonceHash) fun _ => rfl
  exact ⟨r, hr, hd.trans jd.symm, hs.trans js.symm, hn.trans jn.symm, rest⟩

/-- The session of a job stays, in every database whose rows are filled. -/
lemma HasSession.stays {i j : DeliveryJob} (h : HasSession st db i) (e : j.fixed = i.fixed)
    (ch : Change st input past db db') (filled : ∀ r ∈ db'.sessions, r.Filled st) :
    HasSession st db' j := by
  obtain ⟨r, hr, hd, hs, hn, minted, _, _⟩ := h.congr e
  obtain ⟨r', hr', ev⟩ := ch.session_stays hr
  have minted' : r'.assertionJti.isSome := by
    obtain rfl | ⟨set, _, rfl⟩ := ev
    · exact minted
    · exact Option.isSome_iff_ne_none.mpr (SessionSet.on_assertionJti (Option.isSome_iff_ne_none.mp minted))
  obtain ⟨_, kd, ks, kn⟩ := ev.keys
  exact .of_row hr' (filled r' hr') (kd.trans hd) (ks.trans hs) (kn.trans hn) minted'

/-- The session an approved Consent has written is the one of its job. -/
lemma Mint.hasSession {event job} (c : Mint st event past db) (filled : (c.set.on c.session).Filled st)
    (h : c.job = some job) : HasSession st c.result job := by
  obtain ⟨id, now, rfl⟩ := c.job_eq h
  have found := SessionFilter.accepts_sessionAndNonce.mp c.found
  have mem : c.set.on c.session ∈ c.result.sessions := by
    rw [c.result_sessions]
    exact (Db.mem_updateSession ..).mpr ⟨c.session, c.mem, if_pos rfl⟩
  exact .of_row mem filled rfl found.1 found.2 rfl

/-- An accepted assertion finds a session it was minted for. -/
lemma Acceptance.minted (c : Acceptance st past db) (claims : ClaimsAreJobs past db)
    (h : Represented st db) : c.session.assertionJti.isSome := by
  obtain ⟨j, hj, e⟩ := claims c.job c.claimed
  have kind : j.kind = c.job.kind := DeliveryJob.of_fixed e (·.kind) fun _ => rfl
  obtain ⟨r, hr, hd, hs, _, minted, _⟩ := h.job j hj (kind.trans c.kind)
  have jd : j.domain = c.job.domain := DeliveryJob.of_fixed e (·.domain) fun _ => rfl
  have js : j.sessionId = c.job.sessionId := DeliveryJob.of_fixed e (·.sessionId) fun _ => rfl
  obtain ⟨fd, fs, _⟩ := SessionFilter.accepts_matching.mp c.found
  obtain rfl := session_eq_of_key hr c.mem (hd.trans (jd.trans fd.symm)) (hs.trans (js.trans fs.symm))
  exact minted

/-- Every change keeps what the sessions say. -/
lemma Change.represented (ch : Change st input past db db') (claims : ClaimsAreJobs past db)
    (h : Represented st db) : Represented st db' := by
  have registered (r' : SessionRow) (hr' : r' ∈ db'.sessions) : r'.Registered st := by
    obtain ⟨r, hr, rfl | ⟨set, _, rfl⟩⟩ | ⟨_, _, c, rfl⟩ := ch.session_origin hr'
    · exact h.registered r' hr
    · exact (h.registered r hr).on set
    · exact c.registered
  have filled (r' : SessionRow) (hr' : r' ∈ db'.sessions) : r'.Filled st := by
    obtain ⟨r, hr, rfl | ⟨set, w, rfl⟩⟩ | ⟨_, _, c, rfl⟩ := ch.session_origin hr'
    · exact h.filled r' hr
    · have old := h.filled r hr
      cases w with
      | request c => exact c.filled old
      | refuse c _ => exact c.filled old
      | approve c => exact c.filled old
      | revoke c => exact old.move (.inl rfl)
      | deliver c => exact old.move (.inr ⟨rfl, c.minted claims h⟩)
    · exact c.filled
  refine ⟨registered, filled, ch.keysReserved h.keys, fun j' hj' kind => ?_⟩
  obtain ⟨j, hj, e⟩ | ⟨_, rfl, c, hc, rfl⟩ | ⟨_, rfl, c, hc, rfl⟩ := ch.job_origin hj'
  · have k : j'.kind = j.kind := DeliveryJob.of_fixed e (·.kind) fun _ => rfl
    exact (h.job j hj (k.symm.trans kind)).stays e ch filled
  · exact c.hasSession (c.filled (h.filled c.session c.mem)) hc
  · obtain ⟨id, now, rfl⟩ := c.job_eq hc
    nomatch kind

/-- Every session of a run is represented. -/
lemma Run.represented {ls S} (r : Run st ls S) : Represented st S.db := by
  refine r.keep_claimed ?_ Change.represented
  exact {
    registered := fun r hr => absurd hr Table.not_mem_empty
    filled := fun r hr => absurd hr Table.not_mem_empty
    keys := ⟨fun r hr => absurd hr Table.not_mem_empty, fun r hr => absurd hr Table.not_mem_empty⟩
    job := fun j hj => absurd hj Table.not_mem_empty }

/-- In every reachable state every session row satisfies the representation invariant, no two rows share
a request event, a challenge, a consent event or a `jti`, and every assertion job has its session. -/
theorem session_rows_represented {ls S} (r : Run st ls S) :
    (∀ row ∈ S.db.sessions, row.Registered st ∧ row.Filled st) ∧
    (∀ row ∈ S.db.sessions, ∀ row' ∈ S.db.sessions, ∀ x,
      (row.requestEventId = some x → row'.requestEventId = some x → row = row') ∧
      (row.consentEventId = some x → row'.consentEventId = some x → row = row') ∧
      (row.assertionJti = some x → row'.assertionJti = some x → row = row')) ∧
    (∀ row ∈ S.db.sessions, ∀ row' ∈ S.db.sessions, ∀ hash,
      row.challengeHash = some hash → row'.challengeHash = some hash → row = row') ∧
    ∀ j ∈ S.db.jobs, j.kind = .assertion → HasSession st S.db j := by
  have h := r.represented
  refine ⟨fun row hr => ⟨h.registered row hr, h.filled row hr⟩, fun row hr row' hr' x => ?_,
    fun row hr row' hr' hash e e' => ?_, h.job⟩
  · refine ⟨fun e e' => ?_, fun e e' => ?_, fun e e' => ?_⟩
    · exact h.keys.unshared row hr row' hr' (.requestEventId x) (by simp [SessionRow.keys, e])
        (by simp [SessionRow.keys, e'])
    · exact h.keys.unshared row hr row' hr' (.consentEventId x) (by simp [SessionRow.keys, e])
        (by simp [SessionRow.keys, e'])
    · exact h.keys.unshared row hr row' hr' (.assertionJti x) (by simp [SessionRow.keys, e])
        (by simp [SessionRow.keys, e'])
  · exact h.keys.unshared row hr row' hr' (.challengeHash hash) (by simp [SessionRow.keys, e])
      (by simp [SessionRow.keys, e'])

/-- The session of Alice, after her Consent. -/
theorem session_rows_represented_alice : ∃ S, Run Sample.relay Sample.consentedLabels S ∧
    (∃ row ∈ S.db.sessions, row.Registered Sample.relay ∧ row.Filled Sample.relay) ∧
    ∃ j ∈ S.db.jobs, HasSession Sample.relay S.db j := by
  obtain ⟨S, run, _, hd, _⟩ := Sample.reaches_plain.run
  obtain ⟨rows, _, _, jobs⟩ := session_rows_represented run.run
  have content := Sample.consented_jobs
  rw [← hd] at content
  obtain ⟨j, hj, e⟩ := List.mem_map.mp (content ▸ List.mem_singleton_self _)
  have has := jobs j hj (congrArg Prod.fst e)
  obtain ⟨row, hr, _⟩ := has
  exact ⟨S, run.run, ⟨row, hr, rows row hr⟩, j, hj, jobs j hj (congrArg Prod.fst e)⟩

end WebLoginRelay
