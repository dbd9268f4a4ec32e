import Mathlib.Algebra.Order.Group.Int
import Mathlib.Data.List.Induction
import Microservices.Gateway.CircuitBreaker

/-!
# What a breaker answers, from the history of its calls

The breaker keeps a flag, a counter and an optional time, and moves the flag from
`OPEN` to `HALF_OPEN` only when somebody reads it. None of that can be seen from
outside: its answers are a function of the failures recorded since the last
success and of the time of the question.

The invariant ties the three fields to that list of failures. Reads may move the
flag, and the invariant says how far: a half-open flag means that the recovery
window had elapsed at some earlier time, and time does not run backwards.
-/

namespace Microservices.Gateway

/-- The methods of `CircuitBreaker`. -/
inductive Method where
  | recordSuccess
  | recordFailure
  | state
  | isOpen
  | allowProbe
  deriving DecidableEq, Repr

/-- A call of one of them. -/
structure BreakerCall (τ : Type) where
  time : τ
  method : Method

variable {τ : Type}

/-- It records an outcome; the other calls are reads. -/
def BreakerCall.records (c : BreakerCall τ) : Bool :=
  c.method = .recordSuccess || c.method = .recordFailure

/-! ## The specification -/

/-- The calls since the last recorded success, newest first. -/
def sinceSuccess (history : List (BreakerCall τ)) : List (BreakerCall τ) :=
  history.reverse.takeWhile fun c => c.method ≠ .recordSuccess

/-- The times of the failures recorded since the last success, newest first. -/
def failures (history : List (BreakerCall τ)) : List τ :=
  ((sinceSuccess history).filter fun c => c.method = .recordFailure).map BreakerCall.time

theorem failures_success (h : List (BreakerCall τ)) (t : τ) :
    failures (h ++ [⟨t, .recordSuccess⟩]) = [] := by
  simp [failures, sinceSuccess]

theorem failures_failure (h : List (BreakerCall τ)) (t : τ) :
    failures (h ++ [⟨t, .recordFailure⟩]) = t :: failures h := by
  simp [failures, sinceSuccess]

theorem failures_read (h : List (BreakerCall τ)) {c : BreakerCall τ} (hc : c.records = false) :
    failures (h ++ [c]) = failures h := by
  obtain ⟨t, m⟩ := c
  cases m with
  | recordSuccess => cases hc
  | recordFailure => cases hc
  | state => simp [failures, sinceSuccess]
  | isOpen => simp [failures, sinceSuccess]
  | allowProbe => simp [failures, sinceSuccess]

/-- Reads leave no trace in the list of failures. -/
theorem failures_filter_records (h : List (BreakerCall τ)) :
    failures (h.filter BreakerCall.records) = failures h := by
  induction h using List.reverseRecOn with
  | nil => rfl
  | append_singleton h c ih =>
      rw [List.filter_append]
      by_cases hc : c.records = true
      · rw [List.filter_cons, if_pos hc, List.filter_nil]
        obtain ⟨t, m⟩ := c
        cases m with
        | recordSuccess => rw [failures_success, failures_success]
        | recordFailure => rw [failures_failure, failures_failure, ih]
        | state => cases hc
        | isOpen => cases hc
        | allowProbe => cases hc
      · rw [Bool.not_eq_true] at hc
        rw [List.filter_cons, hc, failures_read h hc]
        simpa using ih

variable [LinearOrder τ]

/-- Leaving out the reads of a history leaves its times in order. -/
theorem mono_filter_records {hist : List (BreakerCall τ)} {now : τ}
    (hmono : (hist.map BreakerCall.time ++ [now]).Pairwise (· ≤ ·)) :
    (((hist.filter BreakerCall.records).map BreakerCall.time) ++ [now]).Pairwise (· ≤ ·) :=
  hmono.sublist ((List.filter_sublist.map _).append (List.Sublist.refl _))

variable [AddCommGroup τ]

/-! ## The breaker -/

namespace CircuitBreaker

/-- What a call leaves of the breaker. -/
def call (b : CircuitBreaker τ) (c : BreakerCall τ) : CircuitBreaker τ :=
  match c.method with
  | .recordSuccess => b.recordSuccess
  | .recordFailure => b.recordFailure c.time
  | .state => (b.state c.time).2
  | .isOpen => (b.isOpen c.time).2
  | .allowProbe => (b.allowProbe c.time).2

/-- One call after the other. -/
def run (b : CircuitBreaker τ) (history : List (BreakerCall τ)) : CircuitBreaker τ :=
  history.foldl call b

theorem run_snoc (b : CircuitBreaker τ) (h : List (BreakerCall τ)) (c : BreakerCall τ) :
    b.run (h ++ [c]) = (b.run h).call c := by
  rw [run, List.foldl_append]; rfl

theorem call_read (b : CircuitBreaker τ) {c : BreakerCall τ} (hc : c.records = false) :
    b.call c = b.observe c.time := by
  obtain ⟨t, m⟩ := c
  cases m with
  | recordSuccess => cases hc
  | recordFailure => cases hc
  | state => rfl
  | isOpen => rfl
  | allowProbe => rfl

/-- At least `failure_threshold` failures, and there is a last one. -/
def Tripped (threshold : Nat) (fs : List τ) : Prop := threshold ≤ fs.length ∧ fs ≠ []

instance (threshold : Nat) (fs : List τ) : Decidable (Tripped threshold fs) :=
  inferInstanceAs (Decidable (_ ∧ _))

/-- The three fields, and the failures they stand for. -/
structure Agrees (threshold : Nat) (timeout : τ) (fs : List τ) (now : τ)
    (b : CircuitBreaker τ) : Prop where
  threshold_eq : b.failureThreshold = threshold
  timeout_eq : b.recoveryTimeout = timeout
  count : b.failureCount = fs.length
  last : b.lastFailureTime = fs.head?
  closed_iff : b.state_ = .closed ↔ ¬ Tripped threshold fs
  /-- The recovery window has elapsed. -/
  halfOpen : b.state_ = .halfOpen → ∀ t ∈ fs.head?, timeout ≤ now - t

variable {threshold : Nat} {timeout : τ} {fs : List τ} {now : τ} {b : CircuitBreaker τ}

theorem agrees_init (name : String) (threshold : Nat) (timeout now : τ) :
    Agrees threshold timeout [] now
      { serviceName := name, failureThreshold := threshold, recoveryTimeout := timeout } where
  threshold_eq := rfl
  timeout_eq := rfl
  count := rfl
  last := rfl
  closed_iff := iff_of_true rfl fun h => h.2 rfl
  halfOpen := by intro h; cases h

theorem agrees_recordSuccess (h : Agrees threshold timeout fs now b) (t : τ) :
    Agrees threshold timeout [] t b.recordSuccess where
  threshold_eq := h.threshold_eq
  timeout_eq := h.timeout_eq
  count := rfl
  last := rfl
  closed_iff := iff_of_true rfl fun h => h.2 rfl
  halfOpen := by intro h; cases h

/-- A failure leaves the breaker open if it has tripped it, and closed otherwise. -/
theorem recordFailure_state (h : Agrees threshold timeout fs now b) (t : τ) :
    (b.recordFailure t).state_ = if Tripped threshold (t :: fs) then .opened else .closed := by
  have htrip : Tripped threshold (t :: fs) ↔ threshold ≤ b.failureCount + 1 := by
    rw [Tripped, List.length_cons, h.count]
    simp
  unfold recordFailure
  dsimp only
  rw [h.threshold_eq]
  by_cases hh : b.state_ = .halfOpen
  · -- a half-open breaker had been tripped before this failure
    have hold : Tripped threshold fs := by
      by_contra hn
      rw [h.closed_iff.mpr hn] at hh
      cases hh
    have hnew : Tripped threshold (t :: fs) := by
      rw [htrip, h.count]
      have := hold.1
      omega
    rw [if_pos hh, if_pos hnew]
  · rw [if_neg hh]
    by_cases hc : threshold ≤ b.failureCount + 1
    · rw [if_pos hc, if_pos (htrip.mpr hc)]
    · rw [if_neg hc, if_neg fun hn => hc (htrip.mp hn)]
      refine h.closed_iff.mpr fun hold => hc ?_
      have := hold.1
      rw [h.count]
      omega

theorem agrees_recordFailure (h : Agrees threshold timeout fs now b) (t : τ) :
    Agrees threshold timeout (t :: fs) t (b.recordFailure t) where
  threshold_eq := h.threshold_eq
  timeout_eq := h.timeout_eq
  count := by
    show b.failureCount + 1 = _
    rw [h.count, List.length_cons]
  last := rfl
  closed_iff := by
    rw [recordFailure_state h t]
    split
    · rename_i ht; exact iff_of_false CircuitState.noConfusion (not_not_intro ht)
    · rename_i ht; exact iff_of_true rfl ht
  halfOpen := by
    intro hh
    exact absurd hh (recordFailure_ne_halfOpen b t)

theorem agrees_observe (h : Agrees threshold timeout fs now b) :
    Agrees threshold timeout fs now (b.observe now) := by
  rcases observe_cases b now with ⟨⟨ho, t, ht, hle⟩, he⟩ | ⟨_, he⟩
  · rw [he]
    refine ⟨h.threshold_eq, h.timeout_eq, h.count, h.last, ?_, ?_⟩
    · refine iff_of_false CircuitState.noConfusion fun hn => ?_
      rw [h.closed_iff.mpr hn] at ho
      cases ho
    · intro _ s hs
      rw [h.last] at ht
      rw [ht] at hs
      cases hs
      exact h.timeout_eq ▸ hle
  · rw [he]; exact h

/-! ## The answers -/

/-- What the two questions are answered, by the failures alone. -/
theorem Agrees.answers (h : Agrees threshold timeout fs now b) :
    ((b.isOpen now).1 = true ↔ threshold ≤ fs.length ∧ ∃ t, fs.head? = some t ∧ now - t < timeout)
      ∧ ((b.allowProbe now).1 = true
        ↔ threshold ≤ fs.length ∧ ∃ t, fs.head? = some t ∧ timeout ≤ now - t) := by
  have hobs := agrees_observe h
  have hopen : (b.isOpen now).1 = true ↔ (b.observe now).state_ = .opened := isOpen_fst b now
  have hprobe : (b.allowProbe now).1 = true ↔ (b.observe now).state_ = .halfOpen := by
    simp [allowProbe, state]
  rw [hopen, hprobe]
  by_cases htrip : Tripped threshold fs
  · obtain ⟨hle, hne⟩ := htrip
    obtain ⟨t, ht⟩ : ∃ t, fs.head? = some t := by
      cases fs with
      | nil => exact absurd rfl hne
      | cons t _ => exact ⟨t, rfl⟩
    have hclosed : (b.observe now).state_ ≠ .closed := fun hc => hobs.closed_iff.mp hc ⟨hle, hne⟩
    by_cases hrec : timeout ≤ now - t
    · -- the window has elapsed, so the read finds the breaker half-open or makes it so
      have hhalf : (b.observe now).state_ = .halfOpen := by
        rcases observe_cases b now with ⟨_, he⟩ | ⟨hn, he⟩
        · rw [he]
        · rw [he] at hclosed ⊢
          cases hs : b.state_ with
          | closed => exact absurd hs hclosed
          | halfOpen => rfl
          | opened =>
              exact absurd ⟨hs, t, h.last.trans ht, h.timeout_eq ▸ hrec⟩ hn
      rw [hhalf]
      refine ⟨iff_of_false CircuitState.noConfusion ?_, iff_of_true rfl ⟨hle, t, ht, hrec⟩⟩
      rintro ⟨_, s, hs, hlt⟩
      rw [ht] at hs
      cases hs
      exact absurd hrec (not_le_of_gt hlt)
    · -- within the window it can be neither closed nor half-open
      have hhalf : (b.observe now).state_ ≠ .halfOpen := fun hh => hrec (hobs.halfOpen hh t ht)
      have hopened : (b.observe now).state_ = .opened := by
        cases hs : (b.observe now).state_ with
        | closed => exact absurd hs hclosed
        | halfOpen => exact absurd hs hhalf
        | opened => rfl
      rw [hopened]
      refine ⟨iff_of_true rfl ⟨hle, t, ht, lt_of_not_ge hrec⟩,
        iff_of_false CircuitState.noConfusion ?_⟩
      rintro ⟨_, s, hs, hge⟩
      rw [ht] at hs
      cases hs
      exact hrec hge
  · -- too few failures: the breaker is closed, and both say so
    have hnone : ∀ p : τ → Prop, ¬ (threshold ≤ fs.length ∧ ∃ t, fs.head? = some t ∧ p t) := by
      rintro p ⟨hle, t, ht, _⟩
      refine htrip ⟨hle, ?_⟩
      rintro rfl
      cases ht
    rw [hobs.closed_iff.mpr htrip]
    exact ⟨iff_of_false CircuitState.noConfusion (hnone _),
      iff_of_false CircuitState.noConfusion (hnone _)⟩

/-- Two histories with the same failures are answered alike. -/
theorem Agrees.same_answers {b b' : CircuitBreaker τ} (h : Agrees threshold timeout fs now b)
    (h' : Agrees threshold timeout fs now b') :
    (b.isOpen now).1 = (b'.isOpen now).1 ∧ (b.allowProbe now).1 = (b'.allowProbe now).1 := by
  exact ⟨Bool.eq_iff_iff.mpr (h.answers.1.trans h'.answers.1.symm),
    Bool.eq_iff_iff.mpr (h.answers.2.trans h'.answers.2.symm)⟩

/-! ## Histories -/

variable [IsOrderedAddMonoid τ]

/-- Time passing takes nothing away. -/
theorem Agrees.later (h : Agrees threshold timeout fs now b) {t : τ} (ht : now ≤ t) :
    Agrees threshold timeout fs t b where
  threshold_eq := h.threshold_eq
  timeout_eq := h.timeout_eq
  count := h.count
  last := h.last
  closed_iff := h.closed_iff
  halfOpen := by
    intro hh s hs
    exact le_trans (h.halfOpen hh s hs) (sub_le_sub_right ht s)

theorem agrees_call (h : Agrees threshold timeout fs now b) {hist : List (BreakerCall τ)}
    (hf : failures hist = fs) {c : BreakerCall τ} (hc : now ≤ c.time) :
    Agrees threshold timeout (failures (hist ++ [c])) c.time (b.call c) := by
  by_cases hr : c.records = true
  · obtain ⟨t, m⟩ := c
    cases m with
    | recordSuccess => rw [failures_success]; exact agrees_recordSuccess h t
    | recordFailure => rw [failures_failure, hf]; exact agrees_recordFailure h t
    | state => cases hr
    | isOpen => cases hr
    | allowProbe => cases hr
  · rw [Bool.not_eq_true] at hr
    rw [failures_read hist hr, hf, call_read b hr]
    exact agrees_observe (h.later hc)

/-- **After any history the fields agree with it.** -/
theorem agrees_run (name : String) (threshold : Nat) (timeout : τ) {hist : List (BreakerCall τ)}
    {now : τ} (hmono : (hist.map BreakerCall.time ++ [now]).Pairwise (· ≤ ·)) :
    Agrees threshold timeout (failures hist) now
      (run { serviceName := name, failureThreshold := threshold, recoveryTimeout := timeout }
        hist) := by
  induction hist using List.reverseRecOn generalizing now with
  | nil => exact agrees_init name threshold timeout now
  | append_singleton hist c ih =>
      rw [List.map_append, List.map_singleton] at hmono
      obtain ⟨hbefore, _, hlast⟩ := List.pairwise_append.mp hmono
      have hc : c.time ≤ now := hlast c.time (by simp) now (by simp)
      rw [run_snoc]
      exact (agrees_call (ih hbefore) rfl (le_refl _)).later hc

/--
**The breaker answers from the history of its calls.**

For every threshold, timeout and history of calls at non-decreasing times, and a
question after it: `is_open` and `allow_probe` say whether enough failures were
recorded since the last success and whether the last one is less than the timeout
ago. So reads do not matter, and an open breaker admits a probe from some time on.
-/
theorem answers_from_history (name : String) (threshold : Nat) (timeout : τ)
    (hist : List (BreakerCall τ)) (now : τ)
    (hmono : (hist.map BreakerCall.time ++ [now]).Pairwise (· ≤ ·)) :
    let fresh : CircuitBreaker τ :=
      { serviceName := name, failureThreshold := threshold, recoveryTimeout := timeout }
    (((fresh.run hist).isOpen now).1 = true
        ↔ threshold ≤ (failures hist).length
          ∧ ∃ last, (failures hist).head? = some last ∧ now - last < timeout)
      ∧ (((fresh.run hist).allowProbe now).1 = true
        ↔ threshold ≤ (failures hist).length
          ∧ ∃ last, (failures hist).head? = some last ∧ timeout ≤ now - last)
      ∧ ((fresh.run (hist.filter BreakerCall.records)).isOpen now).1
        = ((fresh.run hist).isOpen now).1
      ∧ ((fresh.run (hist.filter BreakerCall.records)).allowProbe now).1
        = ((fresh.run hist).allowProbe now).1
      ∧ (((fresh.run hist).isOpen now).1 = true →
        ∃ last, (failures hist).head? = some last
          ∧ ∀ later, now ≤ later → last + timeout ≤ later →
            ((fresh.run hist).allowProbe later).1 = true) := by
  intro fresh
  have h := agrees_run name threshold timeout hmono
  have hrecords := agrees_run name threshold timeout (mono_filter_records hmono)
  rw [failures_filter_records] at hrecords
  obtain ⟨hopen, hprobe⟩ := h.answers
  obtain ⟨hsameOpen, hsameProbe⟩ := hrecords.same_answers h
  refine ⟨hopen, hprobe, hsameOpen, hsameProbe, fun ho => ?_⟩
  obtain ⟨hle, last, hlast, _⟩ := hopen.mp ho
  -- nothing is recorded in between, so the last failure is still the last later on
  refine ⟨last, hlast, fun later hlater hrecovered => ?_⟩
  exact (h.later hlater).answers.2.mpr ⟨hle, last, hlast, le_sub_iff_add_le'.mpr hrecovered⟩

/-- Two failures trip a breaker of threshold two; a read ten seconds later does not untrip it. -/
theorem answers_after_two_failures :
    let hist : List (BreakerCall Int) :=
      [⟨0, .recordFailure⟩, ⟨1, .recordFailure⟩, ⟨11, .state⟩]
    let fresh : CircuitBreaker Int :=
      { serviceName := "user-service", failureThreshold := 2, recoveryTimeout := 30 }
    ((fresh.run hist).isOpen 11).1 = true ∧ ((fresh.run hist).allowProbe 31).1 = true := by
  intro hist fresh
  have h := answers_from_history "user-service" 2 30 hist 11 (by decide)
  have hopen : ((fresh.run hist).isOpen 11).1 = true := h.1.mpr ⟨by decide, 1, rfl, by decide⟩
  obtain ⟨last, hlast, hstuck⟩ := h.2.2.2.2 hopen
  cases hlast
  exact ⟨hopen, hstuck 31 (by decide) (by decide)⟩

end CircuitBreaker

end Microservices.Gateway
