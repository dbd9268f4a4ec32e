import Microservices.Lib.Slots
import Microservices.Users.Lockout
import Microservices.Users.Login

/-!
# How long a lockout lasts

Any number of logins for any accounts run at once over one table and one set of
counters. A counter is started by a failure, and `EXPIRE … NX` gives it its expiry
then; what comes later counts up and leaves the expiry alone. So it holds the
latest failures of its account back to the one that started it, and it is gone
`LOCKOUT_WINDOW_SECONDS` after that one.

The ghost `recorded` is every failure recorded so far, newest first.
-/

namespace Microservices.Users.LockoutWindow

open Schedule Slots

structure Attempt where
  email : String
  password : String
  phase : LoginPhase := .received

structure World where
  now : Time
  users : List User
  redis : FailureStore := ExpiringStore.empty
  attempts : List Attempt := []
  /-- Ghost. -/
  recorded : List (String × Time) := []

inductive Event where
  | tick (t : Time)
  /-- Another request has changed the table. -/
  | write (users : List User)
  | arrive (email password : String)
  /-- `is_account_locked` is answered. -/
  | readLock (attempt : Nat)
  /-- The account's row is read and bcrypt finishes. -/
  | check (attempt : Nat)
  /-- The `INCR`/`EXPIRE` transaction runs. -/
  | record (attempt : Nat)
  /-- The `DEL` runs. -/
  | reset (attempt : Nat)

namespace World

def setAttempt (w : World) (i : Nat) (a : Attempt) (phase : LoginPhase) : World :=
  { w with attempts := w.attempts.set i { a with phase } }

/-- The failures of an account, newest first. -/
def failuresOf (w : World) (email : String) : List Time :=
  (w.recorded.filter fun f => f.1 = email).map Prod.snd

end World

/-- One step of one login, of the clock, or of the table. -/
def step (checkpw : String → String → Bool) (dummyHash : String) (w : World) :
    Event → Option World
  | .tick t => if w.now ≤ t then some { w with now := t } else none
  | .write users => some { w with users }
  | .arrive email password => some { w with attempts := w.attempts ++ [{ email, password }] }
  | .readLock i =>
      match w.attempts[i]? with
      | some ⟨email, password, .received⟩ =>
          some (w.setAttempt i ⟨email, password, .received⟩
            (.lockRead (isAccountLocked w.redis w.now email)))
      | _ => none
  | .check i =>
      match w.attempts[i]? with
      | some ⟨email, password, .lockRead locked⟩ =>
          let user := userByEmail w.users email
          let candidateHash := (user.map User.hashedPassword).getD dummyHash
          some (w.setAttempt i ⟨email, password, .lockRead locked⟩
            (evaluate locked user (checkpw password candidateHash)))
      | _ => none
  | .record i =>
      match w.attempts[i]? with
      | some ⟨email, password, .failing⟩ =>
          some { w.setAttempt i ⟨email, password, .failing⟩
              (.answered (.error invalidCredentials)) with
            redis := recordLoginFailure w.redis w.now email
            recorded := (email, w.now) :: w.recorded }
      | _ => none
  | .reset i =>
      match w.attempts[i]? with
      | some ⟨email, password, .succeeding⟩ =>
          some { w.setAttempt i ⟨email, password, .succeeding⟩ (.answered (.ok ())) with
            redis := resetLoginFailures w.redis email }
      | _ => none

def World.init (now : Time) (users : List User) : World where
  now := now
  users := users

/-! ## What is claimed -/

/--
**A counter is anchored at the failure that started it.**

It counts the latest failures of its account, back to `first`, and expires one
window after that one.
-/
def Anchored (w : World) (email : String) : Prop :=
  ∀ entry, w.redis (loginFailKey email) = some entry → ∃ later first earlier,
    w.failuresOf email = later ++ first :: earlier
      ∧ entry = ⟨later.length + 1, some (first + lockoutWindow)⟩

/-- An account is locked only by that many failures within the window that ends now. -/
def LockedByRecent (w : World) (email : String) : Prop :=
  isAccountLocked w.redis w.now email = true → lockoutThreshold
    ≤ (w.failuresOf email).countP fun t => decide (w.now - lockoutWindow < t ∧ t ≤ w.now)

/-- No step moves the expiry of a running counter: it stays, or a login of its account that got
through takes the counter away. -/
def ExpiryStays (w w' : World) : Prop :=
  ∀ email n t, w.redis.live w.now (loginFailKey email) = some ⟨n, some t⟩ →
    (∃ n', w'.redis (loginFailKey email) = some ⟨n', some t⟩)
      ∨ (w'.redis (loginFailKey email) = none
        ∧ ∃ a ∈ w.attempts, a.email = email ∧ a.phase = .succeeding)

/-! ## The invariant -/

variable {checkpw : String → String → Bool} {dummyHash : String} {w w' : World}

structure WindowInv (w : World) : Prop where
  anchored : ∀ email, Anchored w email
  /-- Failures are recorded in the order of time. -/
  sorted : w.recorded.Pairwise fun f g => g.2 ≤ f.2
  past : ∀ f ∈ w.recorded, f.2 ≤ w.now

theorem windowInv_init (now : Time) (users : List User) : WindowInv (World.init now users) where
  anchored := fun email entry h => by cases h
  sorted := List.Pairwise.nil
  past := fun f hf => by cases hf

theorem loginFailKey_inj {email email' : String} (h : loginFailKey email = loginFailKey email') :
    email = email' := (String.append_right_inj _).mp h

theorem mem_failuresOf {email : String} {t : Time} :
    t ∈ w.failuresOf email ↔ (email, t) ∈ w.recorded := by
  unfold World.failuresOf
  simp

theorem failuresOf_sorted (h : WindowInv w) (email : String) :
    (w.failuresOf email).Pairwise fun t t' => t' ≤ t :=
  List.pairwise_map.mpr (h.sorted.filter _)

/-- A counter that is running was started within the window, by the earliest failure it counts. -/
theorem counted_recent (h : WindowInv w) {email : String} {later earlier : List Time} {first : Time}
    (hf : w.failuresOf email = later ++ first :: earlier) (hnow : w.now < first + lockoutWindow) :
    later.length + 1
      ≤ (w.failuresOf email).countP fun t => decide (w.now - lockoutWindow < t ∧ t ≤ w.now) := by
  have hsorted := failuresOf_sorted h email
  have hpast : ∀ t ∈ w.failuresOf email, t ≤ w.now := fun t ht => h.past _ (mem_failuresOf.mp ht)
  rw [hf] at hsorted hpast ⊢
  -- what was recorded after the first failure is no older, and so in the window as well
  have hfirst : ∀ t ∈ later, first ≤ t := fun t ht =>
    (List.pairwise_append.mp hsorted).2.2 t ht first List.mem_cons_self
  have hlater : later.countP (fun t => decide (w.now - lockoutWindow < t ∧ t ≤ w.now))
      = later.length := by
    refine List.countP_eq_length.mpr fun t ht => decide_eq_true ?_
    exact ⟨by linarith [hfirst t ht], hpast t (List.mem_append_left _ ht)⟩
  have hthis : w.now - lockoutWindow < first ∧ first ≤ w.now :=
    ⟨by linarith, hpast first (List.mem_append_right _ List.mem_cons_self)⟩
  rw [List.countP_append, hlater, List.countP_cons_of_pos (p := fun t =>
    decide (w.now - lockoutWindow < t ∧ t ≤ w.now)) (decide_eq_true hthis)]
  omega

theorem lockedByRecent_of_inv (h : WindowInv w) (email : String) : LockedByRecent w email := by
  intro hlocked
  unfold isAccountLocked ExpiringStore.get at hlocked
  cases hl : w.redis.live w.now (loginFailKey email) with
  | none =>
      rw [hl] at hlocked
      cases hlocked
  | some entry =>
      obtain ⟨hentry, hlive⟩ := Option.filter_eq_some_iff.mp hl
      obtain ⟨later, first, earlier, hf, rfl⟩ := h.anchored email entry hentry
      rw [hl] at hlocked
      -- the counter that locks is running, so its first failure is recent
      have hcount : lockoutThreshold ≤ later.length + 1 := of_decide_eq_true hlocked
      have hnow : w.now < first + lockoutWindow := by simpa using hlive
      exact Nat.le_trans hcount (counted_recent h hf hnow)

/-! ## What a step does -/

/-- One step, as far as the counters go. -/
inductive CounterStep (w : World) : World → Prop where
  /-- The counters and the failures are left alone, and time does not go back. -/
  | leave {now : Time} (users : List User) (attempts : List Attempt) (hnow : w.now ≤ now) :
      CounterStep w { w with now, users, attempts }
  | record (email : String) (attempts : List Attempt) :
      CounterStep w { w with
        attempts
        redis := recordLoginFailure w.redis w.now email
        recorded := (email, w.now) :: w.recorded }
  | reset {a : Attempt} (attempts : List Attempt) (ha : a ∈ w.attempts)
      (hphase : a.phase = .succeeding) :
      CounterStep w { w with attempts, redis := resetLoginFailures w.redis a.email }

theorem counterStep_of_step {e : Event} (hs : step checkpw dummyHash w e = some w') :
    CounterStep w w' := by
  cases e with
  | tick t =>
      obtain ⟨ht, hw⟩ := Option.ite_none_right_eq_some.mp hs
      cases hw
      exact .leave w.users w.attempts ht
  | write users => cases hs; exact .leave users w.attempts le_rfl
  | arrive email password => cases hs; exact .leave w.users _ le_rfl
  | readLock i =>
      simp only [step] at hs
      split at hs
      · cases hs
        exact .leave w.users _ le_rfl
      · cases hs
  | check i =>
      simp only [step] at hs
      split at hs
      · cases hs
        exact .leave w.users _ le_rfl
      · cases hs
  | record i =>
      simp only [step] at hs
      split at hs
      · cases hs
        exact .record _ _
      · cases hs
  | reset i =>
      simp only [step] at hs
      split at hs
      · rename_i hi
        cases hs
        exact .reset _ (List.mem_of_getElem? hi) rfl
      · cases hs

/-! ## Recording a failure -/

theorem failuresOf_record (w : World) (attempts : List Attempt) (redis : FailureStore)
    (email : String) :
    World.failuresOf { w with attempts, redis, recorded := (email, w.now) :: w.recorded } email
      = w.now :: w.failuresOf email := by
  unfold World.failuresOf
  rw [List.filter_cons_of_pos (by simp)]
  rfl

theorem failuresOf_record_of_ne (w : World) (attempts : List Attempt) (redis : FailureStore)
    {email email' : String} (h : email' ≠ email) :
    World.failuresOf { w with attempts, redis, recorded := (email, w.now) :: w.recorded } email'
      = w.failuresOf email' := by
  unfold World.failuresOf
  rw [List.filter_cons_of_neg (by simpa using h.symm)]

/-- A failure starts a counter, or is counted by the one that runs. -/
theorem record_entry (h : WindowInv w) (email : String) :
    (w.redis.live w.now (loginFailKey email) = none
        ∧ recordLoginFailure w.redis w.now email (loginFailKey email)
          = some ⟨1, some (w.now + lockoutWindow)⟩)
      ∨ ∃ n t, w.redis (loginFailKey email) = some ⟨n, some t⟩
          ∧ w.redis.live w.now (loginFailKey email) = some ⟨n, some t⟩
          ∧ recordLoginFailure w.redis w.now email (loginFailKey email)
            = some ⟨n + 1, some t⟩ := by
  cases hl : w.redis.live w.now (loginFailKey email) with
  | none => exact Or.inl ⟨rfl, ExpiringStore.incrExpireNx_new _ hl⟩
  | some entry =>
      obtain ⟨hentry, hlive⟩ := Option.filter_eq_some_iff.mp hl
      obtain ⟨later, first, earlier, _, rfl⟩ := h.anchored email entry hentry
      exact Or.inr ⟨_, _, hentry, rfl,
        ExpiringStore.incrExpireNx_running _ hentry (by simpa using hlive)⟩

theorem recordLoginFailure_of_ne (redis : FailureStore) (now : Time) {email email' : String}
    (h : email' ≠ email) :
    recordLoginFailure redis now email (loginFailKey email') = redis (loginFailKey email') :=
  ExpiringStore.incrExpireNx_of_ne redis (fun hk => h (loginFailKey_inj hk)) now _

theorem resetLoginFailures_of_ne (redis : FailureStore) {email email' : String}
    (h : email' ≠ email) :
    resetLoginFailures redis email (loginFailKey email') = redis (loginFailKey email') :=
  Function.update_of_ne (fun hk => h (loginFailKey_inj hk)) _ _

theorem anchored_record (h : WindowInv w) (email : String) (attempts : List Attempt)
    (email' : String) :
    Anchored { w with
      attempts
      redis := recordLoginFailure w.redis w.now email
      recorded := (email, w.now) :: w.recorded } email' := by
  intro entry hentry
  change recordLoginFailure w.redis w.now email (loginFailKey email') = some entry at hentry
  by_cases he : email' = email
  · subst he
    rw [failuresOf_record]
    rcases record_entry h email' with ⟨_, hnew⟩ | ⟨n, t, hold, _, hrunning⟩
    · -- it is the first that the new counter counts
      rw [hnew] at hentry
      cases hentry
      exact ⟨[], w.now, w.failuresOf email', rfl, rfl⟩
    · rw [hrunning] at hentry
      cases hentry
      obtain ⟨later, first, earlier, hf, heq⟩ := h.anchored email' _ hold
      cases heq
      -- it joins those that the running counter counts
      exact ⟨w.now :: later, first, earlier, by rw [hf]; rfl, rfl⟩
  · rw [failuresOf_record_of_ne w attempts _ he]
    exact h.anchored email' entry ((recordLoginFailure_of_ne w.redis w.now he).symm.trans hentry)

/-- **The invariant is preserved by every step.** -/
theorem windowInv_step {e : Event} (h : WindowInv w)
    (hs : step checkpw dummyHash w e = some w') : WindowInv w' := by
  cases counterStep_of_step hs with
  | leave users attempts hnow =>
      exact ⟨h.anchored, h.sorted, fun f hf => le_trans (h.past f hf) hnow⟩
  | record email attempts =>
      refine ⟨anchored_record h email attempts, ?_, fun f hf => ?_⟩
      · exact List.pairwise_cons.mpr ⟨fun f hf => h.past f hf, h.sorted⟩
      · rcases List.mem_cons.mp hf with rfl | hf
        · exact le_refl _
        · exact h.past f hf
  | @reset a attempts ha hphase =>
      refine ⟨fun email entry hentry => ?_, h.sorted, h.past⟩
      change resetLoginFailures w.redis a.email (loginFailKey email) = some entry at hentry
      by_cases he : email = a.email
      · subst he
        have hgone : resetLoginFailures w.redis a.email (loginFailKey a.email) = none :=
          ExpiringStore.del_self ..
        rw [hgone] at hentry
        cases hentry
      · exact h.anchored email entry ((resetLoginFailures_of_ne w.redis he).symm.trans hentry)

theorem expiryStays_step {e : Event} (h : WindowInv w)
    (hs : step checkpw dummyHash w e = some w') : ExpiryStays w w' := by
  intro email n t hl
  have hstored : w.redis (loginFailKey email) = some ⟨n, some t⟩ :=
    (Option.filter_eq_some_iff.mp hl).1
  cases counterStep_of_step hs with
  | leave users attempts hnow => exact Or.inl ⟨n, hstored⟩
  | record email' attempts =>
      refine Or.inl ?_
      by_cases he : email = email'
      · subst he
        rcases record_entry h email with ⟨hnone, _⟩ | ⟨n', t', _, hlive, hrunning⟩
        · rw [hnone] at hl
          cases hl
        · rw [hlive] at hl
          cases hl
          exact ⟨n + 1, hrunning⟩
      · exact ⟨n, (recordLoginFailure_of_ne w.redis w.now he).trans hstored⟩
  | @reset a attempts ha hphase =>
      by_cases he : email = a.email
      · subst he
        exact Or.inr ⟨ExpiringStore.del_self .., a, ha, rfl, hphase⟩
      · exact Or.inl ⟨n, (resetLoginFailures_of_ne w.redis he).trans hstored⟩

/--
**Lockouts are anchored and end.**

For every bcrypt, every table and every interleaving of the steps of any number of
logins for any accounts, with the clock and the table moving in between: every
counter expires one window after the failure that started it, no step moves that
expiry, and an account that is locked has had ten failures in the window that ends
now.
-/
theorem lockout_anchored (checkpw : String → String → Bool) (dummyHash : String) (now : Time)
    (users : List User) (es : List Event) :
    Always (step checkpw dummyHash) (fun w => ∀ email, Anchored w email ∧ LockedByRecent w email)
        (World.init now users) es
      ∧ Steps (step checkpw dummyHash) ExpiryStays (World.init now users) es := by
  refine ⟨?_, ?_⟩
  · exact always_of_invariant (I := WindowInv) (fun _ _ _ h _ hs => windowInv_step h hs)
      (fun w h email => ⟨h.anchored email, lockedByRecent_of_inv h email⟩)
      (windowInv_init now users) (meets_true _ _)
  · exact (steps_iff_meets (C := fun _ _ => True) (fun _ _ _ h hs => windowInv_step h hs)
      (fun _ _ _ h hs => iff_of_true (expiryStays_step h hs) trivial)
      (windowInv_init now users)).mpr (meets_true _ _)

end Microservices.Users.LockoutWindow
