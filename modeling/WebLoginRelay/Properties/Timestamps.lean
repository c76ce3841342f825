import WebLoginRelay.Properties.Expiry

/-!
# Timestamps at the end of the range

The window of a registration may end at the largest `i64`, but the grace period is added to its `exp` with
a plain `+`. The sum is exact for every request whose `exp` leaves room for it, and for every session in
the table: what wraps around is a time that `chrono` does not represent, so `insert_registered` fails.
-/

namespace WebLoginRelay
open Text Txn

variable {st : AppState} {past : List Act} {db : Db} {ls : List Label} {S : Sys}

/-- `chrono` represents the years from -262143 to 262142: times of less than `8.4 * 10 ^ 15` ms. -/
def Crates.TimestampRange (X : Crates) : Prop :=
  ∀ ms, X.timestampMillis ms → -8400000000000000 < ms.toInt ∧ ms.toInt < 8400000000000000

/-- The stubs have the range of chrono. -/
lemma Crates.stub_timestamps : Crates.stub.TimestampRange := by
  intro ms h
  simp only [stub, Bool.and_eq_true, decide_eq_true_eq, Int64.le_iff_toInt_le] at h
  have low : (-8334601228800000 : Int64).toInt = -8334601228800000 := rfl
  have high : (8210266876799999 : Int64).toInt = 8210266876799999 := rfl
  omega

/-- Adding the grace period to a time neither panics nor wraps around. -/
def AddsGrace (ms : Int64) : Prop := (ms + replayGraceMs).toInt = ms.toInt + replayGraceMs.toInt

/-- The grace can be added up to here. -/
lemma addsGrace_iff {ms : Int64} : AddsGrace ms ↔ ms.toInt ≤ 9223372036854745807 := by
  have grace : replayGraceMs.toInt = 30000 := rfl
  have := toInt_range ms
  rw [AddsGrace, Int64.toInt_add, grace]
  refine ⟨fun h => ?_, fun h => Int.bmod_eq_of_le (by omega) (by omega)⟩
  have := Int.bmod_le (x := ms.toInt + 30000) (m := 2 ^ 64) (by decide)
  omega

/-- A time that `chrono` represents with the grace period is in its range, and the sum is exact. -/
lemma millisToUtc_grace (range : st.crates.TimestampRange) {ms : Int64} {t : DateTime}
    (h : millisToUtc st (ms + replayGraceMs) = .ok t) :
    AddsGrace ms ∧ -8400000000030000 < ms.toInt ∧ ms.toInt < 8400000000000000 := by
  have grace : replayGraceMs.toInt = 30000 := rfl
  have present : st.crates.timestampMillis (ms + replayGraceMs) := by
    by_contra absent
    rw [millisToUtc, if_neg absent] at h
    nomatch h
  obtain ⟨low, high⟩ := range _ present
  have := toInt_range ms
  have exact : AddsGrace ms := by
    by_contra far
    rw [addsGrace_iff] at far
    rw [Int64.toInt_add, grace, ← Int.sub_bmod_right, Int.bmod_eq_of_le (by omega) (by omega)] at low
    omega
  have sum := exact
  rw [AddsGrace, grace] at sum
  exact ⟨exact, by omega, by omega⟩

/-- The rows of a database were stored with a time of expiry. -/
def Timed (st : AppState) (db : Db) : Prop :=
  ∀ row ∈ db.sessions, ∃ t, millisToUtc st (row.exp + replayGraceMs) = .ok t

/-- Every session of a run has such times. -/
lemma Run.timed (r : Run st ls S) : Timed st S.db := by
  refine r.keep_db (fun _ h => absurd h Table.not_mem_empty) fun ch timed row hr => ?_
  obtain ⟨old, mem, rfl | ⟨set, _, rfl⟩⟩ | ⟨request, rfl, c, rfl⟩ := ch.session_origin hr
  · exact timed _ mem
  · exact timed old mem
  · exact ⟨c.expiresAt, c.expiresAt_eq⟩

/-- The addition of a registration, and every later one on a stored session, is exact if and only if the
`exp` of the request leaves room for the grace period. -/
theorem grace_is_exact_iff (range : st.crates.TimestampRange) (request : RegistrationRequest)
    (metadata : SiteMetadata) (nonceCiphertext : Bytes) :
    (AddsGrace (request.newSession st metadata nonceCiphertext).exp ∧
      ∀ ls S, Run st ls S → ∀ row ∈ S.db.sessions, AddsGrace row.exp) ↔
    request.exp.toInt ≤ 9223372036854745807 := by
  have stored (ls : List Label) (S : Sys) (r : Run st ls S) (row : SessionRow) (hr : row ∈ S.db.sessions) :
      AddsGrace row.exp := by
    obtain ⟨t, e⟩ := r.timed row hr
    exact (millisToUtc_grace range e).1
  exact ⟨fun h => addsGrace_iff.mp h.1, fun h => ⟨addsGrace_iff.mpr h, stored⟩⟩

/-- The registration of Alice leaves room. -/
theorem grace_is_exact_alice :
    AddsGrace (Sample.alice.registration.newSession Sample.relay Sample.alice.metadata []).exp ∧
      ∀ ls S, Run Sample.relay ls S → ∀ row ∈ S.db.sessions, AddsGrace row.exp :=
  (grace_is_exact_iff Crates.stub_timestamps Sample.alice.registration Sample.alice.metadata []).mpr (by decide)

/-- A site may register a session whose window ends at the largest `i64`. -/
theorem latest_window_overflows : ¬ ∀ (request : RegistrationRequest) (now : Int64),
    request.validate = .ok () → now < request.exp → AddsGrace request.exp := by
  intro claim
  have window : validateWindow (Int64.maxValue - 300000) Int64.maxValue = .ok () := rfl
  have exact := claim (Sample.alice.windowed _ _) Sample.loginTime
    (Sample.alice_valid.validate_windowed window) (by decide)
  rw [addsGrace_iff] at exact
  exact absurd exact (by decide)

end WebLoginRelay
