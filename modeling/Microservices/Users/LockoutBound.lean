import Microservices.Lib.Slots
import Microservices.Users.Lockout

/-!
# When the lockout bounds guessing

A login that read the counter as open may still fail. What bounds the guesses is
therefore not the counter but the counter *plus* the logins that have passed it
and not yet recorded: as long as every read that opens finds that sum below the
threshold, the sum never exceeds it, and the tenth wrong password is checked by a
login that leaves nobody open behind it.
-/

namespace Microservices.Users

open Schedule Slots

variable {checkpw : String → String → Bool} {w w' : World}

/-! ## The counter -/

/-- The counter's entry, whether or not it has expired. -/
def World.stored (w : World) : Nat := ((w.redis (loginFailKey w.email)).map Expiring.value).getD 0

/-- A counter lasts at least until the run's window is over. -/
def EntryLasts (w : World) : Prop :=
  w.redis (loginFailKey w.email) = none
    ∨ ∃ n t, w.redis (loginFailKey w.email) = some ⟨n, some t⟩ ∧ w.start + lockoutWindow ≤ t

theorem get_eq_of_lasts (h : EntryLasts w) (hnow : w.now < w.start + lockoutWindow) :
    w.redis.get w.now (loginFailKey w.email)
      = (w.redis (loginFailKey w.email)).map Expiring.value := by
  rcases h with h | ⟨n, t, h, ht⟩
  · rw [ExpiringStore.get, ExpiringStore.live_eq_none w.now h, h]
  · rw [ExpiringStore.get, ExpiringStore.live_eq_some h (lt_of_lt_of_le hnow ht), h]

theorem recorded_eq_stored (h : EntryLasts w) (hnow : w.now < w.start + lockoutWindow) :
    w.recorded = w.stored := by
  rw [World.recorded, World.stored, get_eq_of_lasts h hnow]

theorem isAccountLocked_iff (h : EntryLasts w) (hnow : w.now < w.start + lockoutWindow) :
    isAccountLocked w.redis w.now w.email = true ↔ lockoutThreshold ≤ w.stored := by
  rw [isAccountLocked, World.stored, get_eq_of_lasts h hnow]
  cases (w.redis (loginFailKey w.email)).map Expiring.value with
  | none => simp [lockoutThreshold]
  | some n => simp

/-- Recording starts a counter that lasts, or counts on in one that does. -/
theorem record_entry (h : EntryLasts w) (ho : w.start ≤ w.now) :
    ∃ n t, recordLoginFailure w.redis w.now w.email (loginFailKey w.email) = some ⟨n, some t⟩
      ∧ w.start + lockoutWindow ≤ t
      ∧ (w.now < w.start + lockoutWindow → n = w.stored + 1) := by
  have hlate : w.start + lockoutWindow ≤ w.now + lockoutWindow := Int.add_le_add_right ho _
  rcases h with h | ⟨n, t, h, ht⟩
  · refine ⟨1, w.now + lockoutWindow, ?_, hlate, fun _ => ?_⟩
    · exact ExpiringStore.incrExpireNx_new _ (ExpiringStore.live_eq_none w.now h)
    · rw [World.stored, h]; rfl
  · by_cases hn : w.now < t
    · refine ⟨n + 1, t, ExpiringStore.incrExpireNx_running _ h hn, ht, fun _ => ?_⟩
      rw [World.stored, h]; rfl
    · refine ⟨1, w.now + lockoutWindow, ?_, hlate, fun hw => absurd (lt_of_lt_of_le hw ht) hn⟩
      exact ExpiringStore.incrExpireNx_new _
        (ExpiringStore.live_eq_none_of_le h (not_lt.mp hn))

/-! ## The invariant -/

structure LockInv (w : World) : Prop where
  started : w.start ≤ w.now
  entry : EntryLasts w
  /-- Recorded failures and logins under way fit under the threshold together. -/
  room : w.Claimed → w.stored + w.inFlight ≤ lockoutThreshold
  /-- Every wrong check is recorded or about to be, until the account is locked. -/
  counted : w.Claimed →
    w.wrongChecks ≤ w.stored + w.logins.countP Login.unrecorded ∨ lockoutThreshold ≤ w.stored
  /-- A login that read the account as locked was right. -/
  locked : w.Claimed → ∀ l ∈ w.logins, l.phase = .lockRead true → lockoutThreshold ≤ w.stored
  /-- A login checked too late has had its answer. -/
  late : ∀ l ∈ w.logins, ∀ k, l.seen = some k → lockoutThreshold ≤ k →
    l.phase = .answered (.error invalidCredentials)

theorem lockInv_init (email : String) (user : Option User) (now : Time) :
    LockInv (World.init email user now) where
  started := le_refl now
  entry := Or.inl rfl
  room := fun _ => Nat.zero_le _
  counted := fun _ => Or.inl (Nat.zero_le _)
  locked := by intro _ l hl; cases hl
  late := by intro l hl; cases hl

theorem lockoutHolds_of_inv (h : LockInv w) : LockoutHolds w := by
  intro l hl k hk hT a ha
  have := h.late l hl k hk hT
  rw [this] at ha
  cases ha
  rfl

/-! ## One step -/

/-- What an event does, and where its login must be for it. -/
inductive LoginStep (checkpw : String → String → Bool) (w : World) : LoginEvent → World → Prop where
  | tick {t : Time} (ht : w.now ≤ t) : LoginStep checkpw w (.tick t) { w with now := t }
  | arrive (password : String) :
      LoginStep checkpw w (.arrive password)
        { w with logins := w.logins ++ [{ password := password }] }
  | readLock {i : Nat} {password : String} {seen : Option Nat}
      (hi : w.logins[i]? = some ⟨password, .received, seen⟩) :
      LoginStep checkpw w (.readLock i)
        (w.setLogin i ⟨password, .lockRead (isAccountLocked w.redis w.now w.email), seen⟩)
  | check {i : Nat} {password : String} {locked : Bool} {seen : Option Nat}
      (hi : w.logins[i]? = some ⟨password, .lockRead locked, seen⟩) :
      LoginStep checkpw w (.check i)
        (w.check checkpw i ⟨password, .lockRead locked, seen⟩ locked)
  | record {i : Nat} {password : String} {seen : Option Nat}
      (hi : w.logins[i]? = some ⟨password, .failing, seen⟩) :
      LoginStep checkpw w (.record i)
        { w.setLogin i ⟨password, .answered (.error invalidCredentials), seen⟩ with
          redis := recordLoginFailure w.redis w.now w.email }
  | reset {i : Nat} {password : String} {seen : Option Nat}
      (hi : w.logins[i]? = some ⟨password, .succeeding, seen⟩) :
      LoginStep checkpw w (.reset i)
        { w.setLogin i ⟨password, .answered (.ok ()), seen⟩ with
          redis := resetLoginFailures w.redis w.email }

theorem loginStep_of_step {e : LoginEvent} (hs : step checkpw w e = some w') :
    LoginStep checkpw w e w' := by
  cases e with
  | tick t =>
      rw [step] at hs
      split at hs
      · cases hs; exact .tick ‹_›
      · cases hs
  | arrive password => cases hs; exact .arrive password
  | readLock i =>
      rw [step] at hs
      split at hs
      · cases hs; exact .readLock ‹_›
      · cases hs
  | check i =>
      rw [step] at hs
      split at hs
      · cases hs; exact .check ‹_›
      · cases hs
  | record i =>
      rw [step] at hs
      split at hs
      · cases hs; exact .record ‹_›
      · cases hs
  | reset i =>
      rw [step] at hs
      split at hs
      · cases hs; exact .reset ‹_›
      · cases hs

theorem lockInv_tick (h : LockInv w) {t : Time} (ht : w.now ≤ t) :
    LockInv { w with now := t } := by
  have hc : World.Claimed { w with now := t } → w.Claimed := fun hc =>
    ⟨hc.1, lt_of_le_of_lt ht hc.2⟩
  exact
    { started := le_trans h.started ht
      entry := h.entry
      room := fun hc' => h.room (hc hc')
      counted := fun hc' => h.counted (hc hc')
      locked := fun hc' => h.locked (hc hc')
      late := h.late }

theorem lockInv_arrive (h : LockInv w) (password : String) :
    LockInv { w with logins := w.logins ++ [{ password := password }] } := by
  -- a login that has just arrived is neither waiting nor unrecorded
  have hcount : ∀ p : Login → Bool, p { password := password } = false →
      (w.logins ++ [({ password := password } : Login)]).countP p = w.logins.countP p := by
    intro p hp
    rw [List.countP_append, List.countP_singleton, hp]
    rfl
  have hw := hcount Login.waiting rfl
  have hu := hcount Login.unrecorded rfl
  refine ⟨h.started, h.entry, fun hc => ?_, fun hc => ?_, fun hc l hl hp => ?_, fun l hl => ?_⟩
  · have := h.room hc
    unfold World.inFlight at *
    dsimp only
    rw [hw, hu]
    exact this
  · dsimp only
    rw [hu]
    exact h.counted hc
  · rcases List.mem_append.mp hl with hl | hl
    · exact h.locked hc l hl hp
    · rw [List.mem_singleton.mp hl] at hp
      cases hp
  · rcases List.mem_append.mp hl with hl | hl
    · exact h.late l hl
    · intro k hk
      rw [List.mem_singleton.mp hl] at hk
      cases hk

/-- A login whose check is still to come was not checked late. -/
theorem not_late (h : LockInv w) {i : Nat} {l : Login} (hi : w.logins[i]? = some l)
    (hp : ∀ a, l.phase ≠ .answered a) {k : Nat} (hk : l.seen = some k) : k < lockoutThreshold := by
  by_contra hT
  exact hp _ (h.late l (List.mem_of_getElem? hi) k hk (not_lt.mp hT))

theorem lockInv_readLock (h : LockInv w) {i : Nat} {password : String} {seen : Option Nat}
    (hi : w.logins[i]? = some ⟨password, .received, seen⟩) (hroom : RoomForRead w (.readLock i)) :
    LockInv (w.setLogin i
      ⟨password, .lockRead (isAccountLocked w.redis w.now w.email), seen⟩) := by
  have hw := countP_set_add Login.waiting hi
    ⟨password, .lockRead (isAccountLocked w.redis w.now w.email), seen⟩
  have hu := countP_set_add Login.unrecorded hi
    ⟨password, .lockRead (isAccountLocked w.redis w.now w.email), seen⟩
  simp only [Login.unrecorded, Login.waiting, Bool.false_eq_true, if_false, Nat.add_zero] at hw hu
  refine ⟨h.started, h.entry, fun hc => ?_, fun hc => ?_, fun hc => ?_, ?_⟩
  · have hr := h.room hc
    have hrec := recorded_eq_stored h.entry hc.2
    unfold World.inFlight at *
    show w.stored + ((w.logins.set i _).countP _ + (w.logins.set i _).countP _) ≤ _
    rw [hw, hu]
    -- an open read is the one step that adds to the sum, and it found room
    cases hb : isAccountLocked w.redis w.now w.email with
    | true => simpa using hr
    | false =>
        have hopen : ¬ lockoutThreshold ≤ w.stored := by
          intro hT
          rw [(isAccountLocked_iff h.entry hc.2).mpr hT] at hb
          cases hb
        have := hroom (by omega)
        unfold World.inFlight at this
        simp only [if_true]
        omega
  · show w.wrongChecks ≤ w.stored + (w.logins.set i _).countP _ ∨ _
    rw [hu]
    exact h.counted hc
  · refine forall_mem_set (h.locked hc) i ?_
    intro hp
    refine (isAccountLocked_iff h.entry hc.2).mp ?_
    simpa using hp
  · refine forall_mem_set h.late i ?_
    intro k hk hT
    have := not_late h hi (fun a => by simp) hk
    omega

theorem lockInv_record (h : LockInv w) {i : Nat} {password : String} {seen : Option Nat}
    (hi : w.logins[i]? = some ⟨password, .failing, seen⟩) :
    LockInv { w.setLogin i ⟨password, .answered (.error invalidCredentials), seen⟩ with
      redis := recordLoginFailure w.redis w.now w.email } := by
  have hw := countP_set_add Login.waiting hi ⟨password, .answered (.error invalidCredentials), seen⟩
  have hu := countP_set_add Login.unrecorded hi
    ⟨password, .answered (.error invalidCredentials), seen⟩
  simp only [Login.unrecorded, Login.waiting, Bool.false_eq_true, if_true, if_false,
    Nat.add_zero] at hw hu
  obtain ⟨n, t, he, ht, hn⟩ := record_entry h.entry h.started
  -- the login goes from unrecorded to recorded, so the sum stays
  have hstored : w.now < w.start + lockoutWindow →
      World.stored { w.setLogin i ⟨password, .answered (.error invalidCredentials), seen⟩ with
        redis := recordLoginFailure w.redis w.now w.email } = w.stored + 1 := by
    intro hnow
    rw [← hn hnow]
    show ((recordLoginFailure w.redis w.now w.email (loginFailKey w.email)).map _).getD 0 = n
    rw [he]
    rfl
  refine ⟨h.started, Or.inr ⟨n, t, he, ht⟩, fun hc => ?_, fun hc => ?_, fun hc => ?_, ?_⟩
  · have hr := h.room hc
    rw [hstored hc.2]
    unfold World.inFlight at *
    show w.stored + 1 + ((w.logins.set i _).countP _ + (w.logins.set i _).countP _) ≤ _
    omega
  · have hr := h.counted hc
    rw [hstored hc.2]
    show w.wrongChecks ≤ w.stored + 1 + (w.logins.set i _).countP _ ∨ _
    omega
  · rw [hstored hc.2]
    refine forall_mem_set (fun l hl hp => ?_) i (by intro hp; cases hp)
    exact Nat.le_succ_of_le (h.locked hc l hl hp)
  · exact forall_mem_set h.late i fun k _ _ => rfl

/-- A check that leaves a failure behind, and one that does not. -/
theorem evaluate_cases (locked : Bool) (user : Option User) (ok : Bool) :
    (evaluate locked user ok = .failing ∧ locked = false ∧ user.isSome)
      ∨ (evaluate locked user ok = .succeeding ∧ locked = false)
      ∨ ∃ a, evaluate locked user ok = .answered a
          ∧ (locked = true → a = .error invalidCredentials)
          ∧ (locked = false → ¬ (user.isSome ∧ ok = false)) := by
  cases user with
  | none => exact Or.inr (Or.inr ⟨_, rfl, fun _ => rfl, fun _ h => absurd h.1 (by simp)⟩)
  | some u =>
      unfold evaluate
      cases locked with
      | true => exact Or.inr (Or.inr ⟨_, rfl, fun _ => rfl, nofun⟩)
      | false =>
          cases ok with
          | false => exact Or.inl ⟨rfl, rfl, rfl⟩
          | true =>
              cases ha : u.isActive with
              | true => exact Or.inr (Or.inl ⟨by simp [ha], rfl⟩)
              | false =>
                  exact Or.inr (Or.inr ⟨_, by simp [ha]; rfl, nofun, fun _ h => absurd h.2 (by simp)⟩)

/-- While the property is claimed, a login that is still open is not late. -/
theorem open_not_late (h : LockInv w) {i : Nat} {password : String} {seen : Option Nat}
    (hi : w.logins[i]? = some ⟨password, .lockRead false, seen⟩) (hc : w.Claimed) :
    w.wrongChecks < lockoutThreshold := by
  have hpos : 0 < w.logins.countP Login.waiting :=
    List.countP_pos_iff.mpr ⟨_, List.mem_of_getElem? hi, rfl⟩
  have hr := h.room hc
  have hk := h.counted hc
  unfold World.inFlight at hr
  omega

theorem lockInv_check (h : LockInv w) {i : Nat} {password : String} {locked : Bool}
    {seen : Option Nat} (hi : w.logins[i]? = some ⟨password, .lockRead locked, seen⟩) :
    LockInv (w.check checkpw i ⟨password, .lockRead locked, seen⟩ locked) := by
  unfold World.check
  dsimp only
  generalize w.user.elim false (fun u => checkpw password u.hashedPassword) = ok
  have hseen : ∀ k, (if w.Claimed then some w.wrongChecks else none) = some k →
      w.Claimed ∧ k = w.wrongChecks := by
    intro k hk
    split at hk
    · exact ⟨‹_›, (Option.some.inj hk).symm⟩
    · cases hk
  generalize (if w.Claimed then some w.wrongChecks else none) = seen' at hseen
  have hw := countP_set_add Login.waiting hi ⟨password, evaluate locked w.user ok, seen'⟩
  have hu := countP_set_add Login.unrecorded hi ⟨password, evaluate locked w.user ok, seen'⟩
  rcases evaluate_cases locked w.user ok with ⟨he, rfl, _⟩ | ⟨he, rfl⟩ | ⟨a, he, hlock, hopen⟩
  · -- wrong, on an open account: the login goes from waiting to unrecorded
    rw [he] at hw hu ⊢
    simp only [Login.unrecorded, Login.waiting, Bool.false_eq_true, if_true, if_false,
      Nat.add_zero] at hw hu
    refine ⟨h.started, h.entry, fun hc => ?_, fun hc => ?_, fun hc => ?_, ?_⟩
    · have hr := h.room hc
      unfold World.inFlight at *
      show w.stored + ((w.logins.set i _).countP _ + (w.logins.set i _).countP _) ≤ _
      omega
    · have hk := h.counted hc
      have hle : (if w.user.isSome = true ∧ ok = false then w.wrongChecks + 1 else w.wrongChecks)
          ≤ w.wrongChecks + 1 := by
        split
        · exact Nat.le_refl _
        · exact Nat.le_succ _
      show _ ≤ w.stored + (w.logins.set i _).countP _ ∨ lockoutThreshold ≤ w.stored
      rw [hu]
      exact hk.imp_left fun hk => Nat.le_trans hle (Nat.succ_le_succ hk)
    · exact forall_mem_set (h.locked hc) i (by intro hp; cases hp)
    · refine forall_mem_set h.late i fun k hk hT => ?_
      obtain ⟨hc, rfl⟩ := hseen k hk
      have := open_not_late h hi hc
      omega
  · -- through: from here on nothing is claimed
    rw [he] at hw hu ⊢
    refine ⟨h.started, h.entry, fun hc => ?_, fun hc => ?_, fun hc => ?_, ?_⟩
    · cases hc.1
    · cases hc.1
    · cases hc.1
    · refine forall_mem_set h.late i fun k hk hT => ?_
      obtain ⟨hc, rfl⟩ := hseen k hk
      have := open_not_late h hi hc
      omega
  · -- answered at once: on a locked account, or with nothing to record
    rw [he] at hw hu ⊢
    simp only [Login.unrecorded, Login.waiting, Bool.false_eq_true, if_false,
      Nat.add_zero] at hw hu
    refine ⟨h.started, h.entry, fun hc => ?_, fun hc => ?_, fun hc => ?_, ?_⟩
    · have hr := h.room hc
      unfold World.inFlight at *
      show w.stored + ((w.logins.set i _).countP _ + (w.logins.set i _).countP _) ≤ _
      omega
    · have hk := h.counted hc
      show (if _ then w.wrongChecks + 1 else w.wrongChecks)
        ≤ w.stored + (w.logins.set i _).countP _ ∨ lockoutThreshold ≤ w.stored
      cases locked with
      | true => exact Or.inr (h.locked hc _ (List.mem_of_getElem? hi) rfl)
      | false =>
          rw [if_neg (hopen rfl), hu]
          exact hk
    · exact forall_mem_set (h.locked hc) i (by intro hp; cases hp)
    · refine forall_mem_set h.late i fun k hk hT => ?_
      obtain ⟨hc, rfl⟩ := hseen k hk
      cases locked with
      | true => rw [hlock rfl]
      | false =>
          have := open_not_late h hi hc
          omega

/-- A login that is about to reset the counter has got through. -/
def Through (w : World) : Prop := ∀ l ∈ w.logins, l.phase = .succeeding → w.succeeded = true

theorem through_init (email : String) (user : Option User) (now : Time) :
    Through (World.init email user now) := by
  intro l hl; cases hl

theorem through_step {e : LoginEvent} (h : Through w) (hs : step checkpw w e = some w') :
    Through w' := by
  cases loginStep_of_step hs with
  | tick _ => exact h
  | arrive password =>
      intro l hl hp
      rcases List.mem_append.mp hl with hl | hl
      · exact h l hl hp
      · rw [List.mem_singleton.mp hl] at hp
        cases hp
  | readLock _ => exact forall_mem_set h _ (by intro hp; cases hp)
  | check _ =>
      unfold World.check
      dsimp only
      rcases evaluate_cases _ w.user _ with ⟨he, _⟩ | ⟨he, _⟩ | ⟨a, he, _⟩
      · rw [he]; exact forall_mem_set h _ (by intro hp; cases hp)
      · -- the check that lets a login through is noted at once
        rw [he]; intro l _ _; rfl
      · rw [he]; exact forall_mem_set h _ (by intro hp; cases hp)
  | record _ => exact forall_mem_set h _ (by intro hp; cases hp)
  | reset _ => exact forall_mem_set h _ (by intro hp; cases hp)

/-- A reset takes the counter away, but the claim was given up when its login got through. -/
theorem lockInv_reset (h : LockInv w) (ht : Through w) {i : Nat} {password : String}
    {seen : Option Nat} (hi : w.logins[i]? = some ⟨password, .succeeding, seen⟩) :
    LockInv { w.setLogin i ⟨password, .answered (.ok ()), seen⟩ with
      redis := resetLoginFailures w.redis w.email } := by
  have hthrough : w.succeeded = true := ht _ (List.mem_of_getElem? hi) rfl
  have hnot : ¬ w.Claimed := by
    intro hc
    rw [hc.1] at hthrough
    cases hthrough
  refine ⟨h.started, Or.inl ?_, fun hc => absurd hc hnot, fun hc => absurd hc hnot,
    fun hc => absurd hc hnot, ?_⟩
  · exact ExpiringStore.del_self ..
  · refine forall_mem_set h.late i fun k hk hT => ?_
    have := not_late h hi (fun a => by simp) hk
    omega

/-- **The invariant is preserved by every step that leaves room.** -/
theorem lockInv_step {e : LoginEvent} (h : LockInv w) (ht : Through w) (hroom : RoomForRead w e)
    (hs : step checkpw w e = some w') : LockInv w' := by
  cases loginStep_of_step hs with
  | tick hle => exact lockInv_tick h hle
  | arrive password => exact lockInv_arrive h password
  | readLock hi => exact lockInv_readLock h hi hroom
  | check hi => exact lockInv_check h hi
  | record hi => exact lockInv_record h hi
  | reset hi => exact lockInv_reset h ht hi

/--
**The lockout bounds guessing while its reads leave room.**

For every account, every bcrypt, and every schedule of logins for it that starts
with no recorded failure: as long as no lockout read opens without room for one
more failure, a login whose password is checked after ten wrong ones is answered
401, right or wrong.
-/
theorem lockout_bounds_guessing (checkpw : String → String → Bool) (email : String)
    (user : Option User) (now : Time) (es : List LoginEvent)
    (hroom : Meets (step checkpw) RoomForRead (World.init email user now) es) :
    Always (step checkpw) LockoutHolds (World.init email user now) es := by
  refine always_of_invariant (I := fun w => LockInv w ∧ Through w) ?_
    (fun w h => lockoutHolds_of_inv h.1) ⟨lockInv_init email user now, through_init email user now⟩
    hroom
  intro w e w' h hc hs
  exact ⟨lockInv_step h.1 h.2 hc hs, through_step h.2 hs⟩

/-- Ann's account, whose password is its own hash in the runs below. -/
def ann : User where
  id := ⟨1, by decide⟩
  email := "ann@example.com"
  username := "ann"
  hashedPassword := "Correct-1"

/-- `n` logins, one after the other, from the lockout read to the recorded failure. -/
def guessesInTurn (n : Nat) : List LoginEvent :=
  (List.range n).flatMap fun i => [.arrive "Wrong-1", .readLock i, .check i, .record i]

/-- Ten wrong guesses in turn, and then the right password. -/
theorem lockout_bounds_guesses_in_turn :
    Always (step fun p hash => p == hash) LockoutHolds (World.init "ann@example.com" (some ann) 0)
      (guessesInTurn 10 ++ [.arrive "Correct-1", .readLock 10, .check 10]) :=
  lockout_bounds_guessing _ "ann@example.com" (some ann) 0 _ (by decide +kernel)

/-- Eleven logins that all read the lockout before any of them records a failure. -/
def guessesAtOnce : List LoginEvent :=
  (List.range 10).flatMap (fun i => [.arrive "Wrong-1", .readLock i])
    ++ [.arrive "Correct-1", .readLock 10]
    ++ (List.range 10).flatMap (fun i => [.check i, .record i])
    ++ [.check 10, .reset 10]

/-- **The eleventh guess of a parallel batch gets in**, after ten wrong ones were checked. -/
theorem parallel_guess_gets_in :
    ∃ w, exec (step fun p hash => p == hash) (World.init "ann@example.com" (some ann) 0)
        guessesAtOnce = some w
      ∧ w.logins[10]? = some ⟨"Correct-1", .answered (.ok ()), some 10⟩
      ∧ ¬ LockoutHolds w := by
  have hrun : (exec (step fun p hash => p == hash) (World.init "ann@example.com" (some ann) 0)
      guessesAtOnce).map (fun w => w.logins[10]?)
        = some (some ⟨"Correct-1", .answered (.ok ()), some 10⟩) := by rfl
  obtain ⟨w, hw, hl⟩ := Option.map_eq_some_iff.mp hrun
  refine ⟨w, hw, hl, fun h => ?_⟩
  have := h _ (List.mem_of_getElem? hl) 10 rfl (by decide) _ rfl
  cases this

end Microservices.Users
