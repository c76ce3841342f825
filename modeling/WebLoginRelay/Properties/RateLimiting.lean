import WebLoginRelay.Http.RateLimit

/-!
# How many registrations the limit lets through

However the requests interleave, the limit lets thirty requests through for each time the count starts again: at
first, when a request resets it, and when it overflows. A request that comes after all others are done is let
through exactly if fewer than thirty requests of its second came just before it.
-/

namespace WebLoginRelay
open Txn Shared

abbrev RateLabel := Shared.Label RateOp RateOp.Resp Bool

/-- The request is let through. -/
def admits (lb : RateLabel) : Bool :=
  match lb.rest with
  | .ret b => b
  | .req _ _ => false

/-- The count is reset. -/
def resets (lb : RateLabel) : Bool :=
  match lb.event with
  | ⟨.storeCount _, _⟩ => true
  | _ => false

/-- The count overflows. -/
def overflows (lb : RateLabel) : Bool :=
  match lb.event with
  | ⟨.fetchAddCount _, old⟩ => old = 18446744073709551615
  | _ => false

namespace RateLimit

/-- What a request may do next. -/
def Permitted (past : List (Event RateOp RateOp.Resp)) : Event RateOp RateOp.Resp → Prop
  | ⟨.storeCount n, _⟩ => n = 1 ∧ ∃ now window, window ≠ now ∧
    past = [⟨.now, now⟩, ⟨.loadWindow, window⟩, ⟨.storeWindow now, ()⟩]
  | ⟨.fetchAddCount n, _⟩ => n = 1
  | _ => True

/-- What a request has done when it returns. -/
def Returns (b : Bool) (past : List (Event RateOp RateOp.Resp)) : Prop :=
  (b = true ∧ past.getLast? = some ⟨.storeCount 1, ()⟩) ∨
    ∃ old, b = decide (old < 30) ∧ past.getLast? = some ⟨.fetchAddCount 1, old⟩

/-- What a request does. -/
lemma alone_rateLimitOk : Alone Permitted rateLimitOk Returns [] := by
  rintro now _ rfl
  refine ⟨trivial, ?_⟩
  rintro window _ rfl
  refine ⟨trivial, ?_⟩
  change Alone Permitted (if window ≠ now then (do
      Prog.ask (RateOp.storeWindow now)
      Prog.ask (RateOp.storeCount 1)
      return true)
    else (do return (← Prog.ask (RateOp.fetchAddCount 1)) < 30)) Returns [⟨.now, now⟩, ⟨.loadWindow, window⟩]
  split
  · rename_i other
    rintro ⟨⟩ _ rfl
    refine ⟨trivial, ?_⟩
    rintro ⟨⟩ _ rfl
    exact ⟨⟨rfl, now, window, other, rfl⟩, .inl ⟨rfl, rfl⟩⟩
  · rintro old _ rfl
    exact ⟨rfl, .inr ⟨old, rfl, rfl⟩⟩

/-- It is let through by its last operation: the reset, or the increment of a count below thirty. -/
lemma last {ls : List RateLabel} {C : Shared RateStatics RateOp RateOp.Resp Bool} (r : RateRun ls C) {t : Nat}
    {past : List (Event RateOp RateOp.Resp)} {e : Event RateOp RateOp.Resp}
    (h : C.threads t = some ⟨.ret true, past ++ [e]⟩) :
    e = ⟨.storeCount 1, ()⟩ ∨ ∃ old, old < 30 ∧ e = ⟨.fetchAddCount 1, old⟩ := by
  obtain ⟨-, last⟩ | ⟨old, below, last⟩ := r.returned (fun _ call => call ▸ alone_rateLimitOk) h
  · rw [List.getLast?_concat] at last
    exact .inl (Option.some.inj last)
  · rw [List.getLast?_concat] at last
    exact .inr ⟨old, of_decide_eq_true below.symm, Option.some.inj last⟩

end RateLimit

variable {ls : List RateLabel} {C : Shared RateStatics RateOp RateOp.Resp Bool}

open RateLimit

/-- What is let through is counted. -/
lemma admissions_counted (r : RateRun ls C) : ls.countP admits ≤
    30 * (ls.countP resets + ls.countP overflows) + min 30 C.memory.regCount.toNat := by
  induction r with
  | init => exact Nat.zero_le _
  | spawn r free call ih => exact ih
  | @act ls C t o k past x m r task s ih =>
    have after := r.act task s
    have permitted := after.permitted (fun _ call => call ▸ alone_rateLimitOk)
      (List.mem_append_right _ (List.mem_singleton_self _))
    have last (h : admits ⟨t, past, ⟨o, x⟩, k x⟩ = true) :
        (⟨o, x⟩ : Event RateOp RateOp.Resp) = ⟨.storeCount 1, ()⟩ ∨
          ∃ old, old < 30 ∧ (⟨o, x⟩ : Event RateOp RateOp.Resp) = ⟨.fetchAddCount 1, old⟩ := by
      suffices thread : (C.put t ⟨k x, past ++ [⟨o, x⟩]⟩) t = some ⟨.ret true, past ++ [⟨o, x⟩]⟩ from
        RateLimit.last after thread
      cases returns : k x with
      | ret b =>
        simp only [admits, returns] at h
        rw [h]
        exact Function.update_self ..
      | req _ _ =>
        simp only [admits, returns] at h
        nomatch h
    rw [List.countP_append, List.countP_append, List.countP_append, List.countP_singleton,
      List.countP_singleton, List.countP_singleton]
    -- an operation that is no reset and no increment is not the last one, and leaves the count
    have quiet (ne : ∀ n, o ≠ .storeCount n) (ne' : ∀ n, o ≠ .fetchAddCount n)
        (same : m.regCount = C.memory.regCount) : admits ⟨t, past, ⟨o, x⟩, k x⟩ = false ∧
        m.regCount = C.memory.regCount := by
      refine ⟨Bool.eq_false_iff.mpr ?_, same⟩
      intro h
      obtain e | ⟨old, -, e⟩ := last h
      · exact ne 1 (congrArg Event.op e)
      · exact ne' 1 (congrArg Event.op e)
    cases o with
    | storeCount n =>
      obtain ⟨rfl, -⟩ := permitted
      cases s
      simp only [resets, overflows]
      split <;> simp <;> omega
    | fetchAddCount n =>
      have one : n = 1 := permitted
      clear permitted
      subst one
      obtain ⟨read, rfl⟩ := s
      change x = C.memory.regCount at read
      have next : (C.memory.regCount + 1).toNat = (C.memory.regCount.toNat + 1) % 18446744073709551616 :=
        UInt64.toNat_add ..
      have size := C.memory.regCount.toNat_lt
      have full : (overflows ⟨t, past, ⟨.fetchAddCount 1, x⟩, k x⟩ = true) ↔
          C.memory.regCount.toNat = 18446744073709551615 := by
        rw [overflows, read, decide_eq_true_iff, ← UInt64.toNat_inj]
        rfl
      have below (h : admits ⟨t, past, ⟨.fetchAddCount 1, x⟩, k x⟩ = true) : C.memory.regCount.toNat < 30 := by
        obtain e | ⟨old, lt, e⟩ := last h
        · cases e
        · cases e
          rw [← read]
          exact UInt64.lt_iff_toNat_lt.mp lt
      rw [next]
      by_cases wraps : overflows ⟨t, past, ⟨.fetchAddCount 1, x⟩, k x⟩ = true
      · have count := full.mp wraps
        rw [if_pos wraps, if_neg (fun h => absurd (below h) (by omega))]
        omega
      · have count := mt full.mpr wraps
        rw [if_neg wraps]
        split
        · rename_i h
          have lt := below h
          omega
        · omega
    | now =>
      obtain ⟨no, same⟩ := quiet nofun nofun (by cases s; rfl)
      simp only [no, same, resets, overflows]
      simpa using ih
    | loadWindow =>
      obtain ⟨no, same⟩ := quiet nofun nofun (by cases s.2; rfl)
      simp only [no, same, resets, overflows]
      simpa using ih
    | storeWindow w =>
      obtain ⟨no, same⟩ := quiet nofun nofun (by cases s; rfl)
      simp only [no, same, resets, overflows]
      simpa using ih

/-! ## One request after the other -/

/-- What the clock and the statics answer to a request that runs alone. -/
def rateAnswer (seconds : UInt64) (o : RateOp) (m : RateStatics) : o.Resp × RateStatics :=
  match o with
  | .now => (seconds, m)
  | .loadWindow => (m.regWindow.getLastD 0, m)
  | .storeWindow w => ((), { m with regWindow := m.regWindow ++ [w] })
  | .storeCount n => ((), { m with regCount := n })
  | .fetchAddCount n => (m.regCount, { m with regCount := m.regCount + n })

/-- A request after those before it. -/
def rateNext (before : List Bool × RateStatics) (seconds : UInt64) : List Bool × RateStatics :=
  (before.1 ++ [(handle (rateAnswer seconds) rateLimitOk before.2).1],
    (handle (rateAnswer seconds) rateLimitOk before.2).2)

/-- The decisions for requests that come one after the other in these seconds. -/
def serially (seconds : List UInt64) : List Bool × RateStatics :=
  seconds.foldl rateNext ([], ⟨[0], 0⟩)

/-- How many requests came just before in the second. -/
def streak (before : List UInt64) (second : UInt64) : Nat :=
  (before.reverse.takeWhile (· == second)).length

/-- One more request. -/
lemma serially_snoc (before : List UInt64) (second : UInt64) :
    serially (before ++ [second]) = rateNext (serially before) second := List.foldl_concat ..

/-- Every request has a decision. -/
lemma serially_length (seconds : List UInt64) : (serially seconds).1.length = seconds.length := by
  induction seconds using List.reverseRecOn with
  | nil => rfl
  | append_singleton before second ih =>
    rw [serially_snoc, rateNext, List.length_append, List.length_append, ih]
    rfl

/-- Later requests do not change the decisions. -/
lemma serially_prefix (before later : List UInt64) :
    (serially before).1 <+: (serially (before ++ later)).1 := by
  induction later using List.reverseRecOn with
  | nil =>
    rw [List.append_nil]
  | append_singleton later second ih =>
    rw [← List.append_assoc, serially_snoc]
    exact ih.trans (List.prefix_append ..)

/-- What a request that runs alone decides and leaves. -/
lemma handle_rateLimitOk (seconds : UInt64) (m : RateStatics) :
    handle (rateAnswer seconds) rateLimitOk m = if m.regWindow.getLastD 0 ≠ seconds then
      (true, ⟨m.regWindow ++ [seconds], 1⟩) else (decide (m.regCount < 30), ⟨m.regWindow, m.regCount + 1⟩) := by
  change handle (rateAnswer seconds) (if m.regWindow.getLastD 0 ≠ seconds then (do
      Prog.ask (RateOp.storeWindow seconds)
      Prog.ask (RateOp.storeCount 1)
      return true)
    else (do return (← Prog.ask (RateOp.fetchAddCount 1)) < 30)) m = _
  split
  · rfl
  · rfl

/-- One more request in the same second, or in another one. -/
lemma streak_snoc (before : List UInt64) (second other : UInt64) :
    streak (before ++ [second]) other = if second = other then streak before other + 1 else 0 := by
  unfold streak
  rw [List.reverse_append, List.reverse_singleton, List.singleton_append, List.takeWhile_cons]
  by_cases h : second = other
  · rw [if_pos (beq_iff_eq.mpr h), if_pos h, List.length_cons]
  · rw [if_neg (mt beq_iff_eq.mp h), if_neg h, List.length_nil]

/-- After a request in another second none has come just before. -/
lemma streak_of_other {before : List UInt64} {second : UInt64} (h : before.getLastD 0 ≠ second) :
    streak before second = 0 := by
  obtain rfl | ⟨before, last, rfl⟩ := List.eq_nil_or_concat' before
  · rfl
  · rw [List.getLastD_concat] at h
    rw [streak_snoc, if_neg h]

/-- The count is the number of the last requests that came in one second, up to overflow. -/
lemma serially_count (seconds : List UInt64) :
    (serially seconds).2.regWindow.getLastD 0 = seconds.getLastD 0 ∧
      (serially seconds).2.regCount.toNat = streak seconds (seconds.getLastD 0) % 18446744073709551616 := by
  induction seconds using List.reverseRecOn with
  | nil => exact ⟨rfl, rfl⟩
  | append_singleton before second ih =>
    obtain ⟨window, count⟩ := ih
    rw [serially_snoc, rateNext, handle_rateLimitOk, window, List.getLastD_concat, streak_snoc, if_pos rfl]
    by_cases h : before.getLastD 0 ≠ second
    · rw [if_pos h, streak_of_other h]
      exact ⟨List.getLastD_concat .., rfl⟩
    · rw [if_neg h]
      have same := not_not.mp h
      subst same
      refine ⟨window, ?_⟩
      rw [UInt64.toNat_add, count, Nat.mod_add_mod]
      rfl

/-- The answers are those of a run. -/
lemma rateAnswer_answers (seconds : UInt64) (o : RateOp) (m : RateStatics) (h : m.regWindow ≠ []) :
    m.Answers ⟨o, (rateAnswer seconds o m).1⟩ (rateAnswer seconds o m).2 ∧
      (rateAnswer seconds o m).2.regWindow ≠ [] := by
  cases o with
  | now => exact ⟨rfl, h⟩
  | loadWindow =>
    refine ⟨⟨?_, rfl⟩, h⟩
    obtain window | ⟨window, last, e⟩ := List.eq_nil_or_concat' m.regWindow
    · exact absurd window h
    · change m.regWindow.getLastD 0 ∈ m.regWindow
      rw [e, List.getLastD_concat]
      exact List.mem_append_right _ (List.mem_singleton_self _)
  | storeWindow w => exact ⟨rfl, List.append_ne_nil_of_right_ne_nil _ (List.cons_ne_nil w [])⟩
  | storeCount n => exact ⟨rfl, h⟩
  | fetchAddCount n => exact ⟨⟨rfl, rfl⟩, h⟩

/-- Each request has read its second from the clock. -/
lemma handled_rateLimitOk (second : UInt64) (m : RateStatics) :
    ∃ es, handled (rateAnswer second) rateLimitOk m = ⟨.now, second⟩ :: es := ⟨_, rfl⟩

/-- Requests that come one after the other are a run. -/
lemma serially_run (seconds : List UInt64) : ∃ ls C, RateRun ls C ∧
    (∀ lb ∈ ls, lb.thread < seconds.length) ∧ ls.Pairwise (fun lb lb' => lb.thread ≤ lb'.thread) ∧
    C.memory = (serially seconds).2 ∧ C.memory.regWindow ≠ [] ∧
    (∀ i, seconds.length ≤ i → C.threads i = none) ∧
    ∀ i b, (serially seconds).1[i]? = some b → ∃ second past, seconds[i]? = some second ∧
      C.threads i = some ⟨.ret b, ⟨.now, second⟩ :: past⟩ := by
  induction seconds using List.reverseRecOn with
  | nil =>
    refine ⟨[], _, .init, ?_, .nil, rfl, List.cons_ne_nil 0 [], fun _ _ => rfl, ?_⟩
    · intro lb h
      cases h
    · intro i b h
      cases h
  | append_singleton before second ih =>
    obtain ⟨ls, C, r, earlier, ordered, memory, window, free, done⟩ := ih
    obtain ⟨fed, served, window'⟩ := handle_serves (rateAnswer_answers second) rateLimitOk (m := C.memory) window
    obtain ⟨ls', C', r', own, memory', threads⟩ := (r.spawn (free before.length (Nat.le_refl _)) rfl).serve
      (Function.update_self ..) fed served
    obtain ⟨es, clock⟩ := handled_rateLimitOk second C.memory
    rw [List.nil_append, clock] at threads
    rw [serially_snoc, rateNext, ← memory, List.length_append, List.length_singleton]
    refine ⟨_, C', r', ?_, ?_, memory', memory' ▸ window', ?_, ?_⟩
    · intro lb mem
      obtain mem | mem := List.mem_append.mp mem
      · exact Nat.lt_succ_of_lt (earlier lb mem)
      · exact own lb mem ▸ Nat.lt_succ_self _
    · refine List.pairwise_append.mpr ⟨ordered, ?_, ?_⟩
      · refine List.Pairwise.imp_of_mem (fun mem mem' _ => ?_) (List.pairwise_of_forall (R := fun _ _ => True) ?_)
        · rw [own _ mem, own _ mem']
        · exact fun _ _ => trivial
      · intro lb mem lb' mem'
        rw [own lb' mem']
        exact (earlier lb mem).le
    · intro i hi
      rw [threads, Function.update_of_ne (by omega)]
      exact (Function.update_of_ne (by omega) ..).trans (free i (by omega))
    · intro i b hb
      rw [threads]
      by_cases last : i = before.length
      · subst last
        rw [← serially_length before, List.getElem?_concat_length] at hb
        obtain rfl := Option.some.inj hb
        exact ⟨second, es, List.getElem?_concat_length, Function.update_self ..⟩
      · have earlier : i < before.length := by
          have bound := (List.getElem?_eq_some_iff.mp hb).1
          rw [List.length_append, List.length_singleton, serially_length] at bound
          omega
        rw [List.getElem?_append_left (serially_length before ▸ earlier)] at hb
        obtain ⟨second', past, at_, h⟩ := done i b hb
        refine ⟨second', past, ?_, ?_⟩
        · rw [List.getElem?_append_left earlier]
          exact at_
        · rw [Function.update_of_ne last]
          exact (Function.update_of_ne last ..).trans h

/-- Of requests that come one after the other, one is let through exactly if fewer than thirty came just before it
in its second, not counting whole overflows of the count. Such requests are a run in which each of them has read its
own second, and has ended before the next one begins. -/
theorem serial_requests (before later : List UInt64) (second : UInt64) :
    (serially (before ++ second :: later)).1[before.length]? =
      some (decide (streak before second % 18446744073709551616 < 30)) ∧
    ∃ ls C, RateRun ls C ∧ ls.Pairwise (fun lb lb' => lb.thread ≤ lb'.thread) ∧
      ∀ i b, (serially (before ++ second :: later)).1[i]? = some b →
        ∃ s past, (before ++ second :: later)[i]? = some s ∧ C.threads i = some ⟨.ret b, ⟨.now, s⟩ :: past⟩ := by
  constructor
  · have decided : (serially (before ++ [second])).1[before.length]? =
        some (decide (streak before second % 18446744073709551616 < 30)) := by
      rw [serially_snoc, rateNext, ← serially_length before, List.getElem?_concat_length, handle_rateLimitOk,
        (serially_count before).1]
      by_cases h : before.getLastD 0 ≠ second
      · rw [if_pos h, streak_of_other h]
        rfl
      · rw [if_neg h]
        have same := not_not.mp h
        subst same
        have count := (serially_count before).2
        rw [← count]
        exact congrArg some (decide_eq_decide.mpr UInt64.lt_iff_toNat_lt)
    have kept := serially_prefix (before ++ [second]) later
    rw [List.append_assoc, List.singleton_append] at kept
    obtain ⟨more, e⟩ := kept
    rw [← e, List.getElem?_append_left (List.getElem?_eq_some_iff.mp decided).1]
    exact decided
  · obtain ⟨ls, C, r, -, ordered, -, -, -, done⟩ := serially_run (before ++ second :: later)
    exact ⟨ls, C, r, ordered, done⟩

/-- However the requests interleave, at most thirty are let through for the first count and for each time it is
reset or overflows, and only a request that has read another second than its own resets it. -/
theorem admissions_are_bounded (r : RateRun ls C) :
    ls.countP admits ≤ 30 * (1 + ls.countP resets + ls.countP overflows) ∧
    ∀ lb ∈ ls, resets lb = true → ∃ now window, window ≠ now ∧
      lb.past = [⟨.now, now⟩, ⟨.loadWindow, window⟩, ⟨.storeWindow now, ()⟩] := by
  constructor
  · have counted := admissions_counted r
    omega
  · rintro ⟨t, past, ⟨o, x⟩, rest⟩ hl h
    have permitted := r.permitted (fun _ call => call ▸ alone_rateLimitOk) hl
    cases o with
    | storeCount n => exact permitted.2
    | _ => nomatch h

/-- What a request does until it increments the count. -/
def Sample.racingStart : List (Event RateOp RateOp.Resp) := [⟨.now, 7⟩, ⟨.loadWindow, 7⟩]

/-- What it has to do then. -/
def Sample.racingEnd : Prog RateOp RateOp.Resp Bool := (rateLimitOk.feed Event.op Event.resp racingStart).1

/-- What a request does that has read its second and increments the count. -/
def Sample.racingCount (old : UInt64) : List (Event RateOp RateOp.Resp) := racingStart ++ [⟨.fetchAddCount 1, old⟩]

/-- A run of thirty-one requests in one second. Twenty-nine come one after the other and two at the same time: the
second of these overtakes the first one, which is refused. -/
lemma Sample.racing : ∃ ls C, RateRun ls C ∧
    C.threads 30 = some ⟨.ret true, racingCount 29⟩ ∧ C.threads 29 = some ⟨.ret false, racingCount 30⟩ := by
  obtain ⟨ls, C, r, -, -, memory, -, free, -⟩ := serially_run (List.replicate 29 7)
  have window : C.memory.regWindow = [0, 7] := by
    rw [memory]
    decide +kernel
  have count : C.memory.regCount = 29 := by
    rw [memory]
    decide +kernel
  have statics : C.memory = ⟨[0, 7], 29⟩ := congrArg₂ RateStatics.mk window count
  obtain ⟨C₁, r₁, memory₁, threads₁⟩ := r.begins (free 29 (by decide)) rfl
  have unused : C₁.threads 30 = none := by
    rw [threads₁, Function.update_of_ne (by decide)]
    exact free 30 (by decide)
  obtain ⟨C₂, r₂, memory₂, threads₂⟩ := r₁.begins unused rfl
  -- the first one reads the window, the second one runs to its end, and the first one goes on
  have begun : C₂.threads 29 = some ⟨rateLimitOk, []⟩ := by
    rw [threads₂, Function.update_of_ne (by decide), threads₁, Function.update_self]
  have pauses : rateLimitOk.feed Event.op Event.resp racingStart = (racingEnd, []) := rfl
  have reads : Serves RateStatics.Answers C₂.memory racingStart ⟨[0, 7], 29⟩ := by
    rw [memory₂, memory₁, statics]
    exact ⟨_, rfl, _, ⟨by decide, rfl⟩, rfl⟩
  obtain ⟨ls₃, C₃, r₃, -, memory₃, threads₃⟩ := r₂.serve begun pauses reads
  have waiting : C₃.threads 30 = some ⟨rateLimitOk, []⟩ := by
    rw [threads₃, Function.update_of_ne (by decide), threads₂, Function.update_self]
  have admitted : rateLimitOk.feed Event.op Event.resp (racingCount 29) = (.ret true, []) := rfl
  have counts : Serves RateStatics.Answers C₃.memory (racingCount 29) ⟨[0, 7], 30⟩ := by
    rw [memory₃]
    exact ⟨_, rfl, _, ⟨by decide, rfl⟩, _, ⟨rfl, rfl⟩, rfl⟩
  obtain ⟨ls₄, C₄, r₄, -, memory₄, threads₄⟩ := r₃.serve waiting admitted counts
  have overtaken : C₄.threads 29 = some ⟨racingEnd, racingStart⟩ := by
    rw [threads₄, Function.update_of_ne (by decide), threads₃]
    exact Function.update_self ..
  have refused : racingEnd.feed Event.op Event.resp [⟨.fetchAddCount 1, 30⟩] = (.ret false, []) := rfl
  have counts' : Serves RateStatics.Answers C₄.memory [⟨.fetchAddCount 1, 30⟩] ⟨[0, 7], 31⟩ := by
    rw [memory₄]
    exact ⟨_, ⟨rfl, rfl⟩, rfl⟩
  obtain ⟨ls₅, C₅, r₅, -, -, threads₅⟩ := r₄.serve overtaken refused counts'
  refine ⟨_, C₅, r₅, ?_, ?_⟩
  · rw [threads₅, Function.update_of_ne (by decide), threads₄]
    exact Function.update_self ..
  · rw [threads₅]
    exact Function.update_self ..

/-- Of the thirty-one requests of that second one is refused. -/
theorem admissions_are_bounded_racing : ∃ ls C past past', RateRun ls C ∧ C.threads 30 = some ⟨.ret true, past⟩ ∧
    C.threads 29 = some ⟨.ret false, past'⟩ ∧
    ls.countP admits ≤ 30 * (1 + ls.countP resets + ls.countP overflows) := by
  obtain ⟨ls, C, r, admitted, refused⟩ := Sample.racing
  exact ⟨ls, C, _, _, r, admitted, refused, (admissions_are_bounded r).1⟩

end WebLoginRelay
