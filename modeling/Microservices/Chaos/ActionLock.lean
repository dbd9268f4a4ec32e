import Microservices.Lib.Schedule
import Microservices.Lib.Slots

/-!
# The lock of manual actions

`_lock` looks at `_scenario_mode` when an action gets to it. A scenario sets the flag
before its steps are created and clears it after the last of them, whoever else has set
it in between, and a click cannot be told from a step. So what the two modes promise
hangs on who gets to `_lock` while the flag stands which way.

The bodies of the actions are left out: a body is entered, and it is left at some time.
-/

namespace Microservices.Chaos

open Schedule

/-- `asyncio.Lock`: it is handed on to the first of those who wait. -/
structure AsyncLock where
  locked : Bool := false
  waiters : List Nat := []
  deriving DecidableEq, Repr

namespace AsyncLock

/-- Whoever finds it taken, or someone before him in the queue, waits. -/
def acquire (l : AsyncLock) (task : Nat) : AsyncLock × Bool :=
  if l.locked = false ∧ l.waiters = [] then ({ l with locked := true }, true)
  else ({ l with waiters := l.waiters ++ [task] }, false)

def wakeUp (l : AsyncLock) (task : Nat) : Option AsyncLock :=
  if l.locked = false ∧ l.waiters.head? = some task then
    some { locked := true, waiters := l.waiters.tail }
  else none

def release (l : AsyncLock) : AsyncLock := { l with locked := false }

variable {l l' : AsyncLock} {task : Nat}

theorem acquire_cases (l : AsyncLock) (task : Nat) :
    (l.locked = false ∧ (l.acquire task).2 = true ∧ (l.acquire task).1.locked = true)
      ∨ ((l.acquire task).2 = false ∧ (l.acquire task).1.locked = l.locked) := by
  unfold acquire
  split
  · rename_i hfree
    exact Or.inl ⟨hfree.1, rfl, rfl⟩
  · exact Or.inr ⟨rfl, rfl⟩

/-- Once someone has asked for it, it is not free for the next. -/
theorem acquire_after (l : AsyncLock) (task other : Nat) :
    ((l.acquire task).1.acquire other).2 = false := by
  have hbusy : ¬ ((l.acquire task).1.locked = false ∧ (l.acquire task).1.waiters = []) := by
    unfold acquire
    split <;> simp
  rw [acquire, if_neg hbusy]

theorem wakeUp_eq_some (h : l.wakeUp task = some l') : l.locked = false ∧ l'.locked = true := by
  unfold wakeUp at h
  split at h
  · rename_i hfree
    cases h
    exact ⟨hfree.1, rfl⟩
  · cases h

end AsyncLock

/-- Where the task of an action is. -/
inductive ActionPhase where
  /-- It has not got to `_lock`. -/
  | pending
  | waiting
  | inside (holdsLock : Bool)
  | done
  deriving DecidableEq, Repr

structure ActionTask where
  /-- The run of a scenario that it is a step of; `none` for a click. -/
  scenario : Option Nat
  phase : ActionPhase := .pending
  deriving DecidableEq, Repr

/-- Tasks and runs of scenarios are numbered as they come. -/
structure MockCluster where
  scenarioMode : Bool := false
  actionLock : AsyncLock := {}
  tasks : List ActionTask := []
  /-- Of each run of a scenario, whether it is still running. -/
  runs : List Bool := []
  deriving DecidableEq, Repr

inductive LockEvent where
  /-- A handler creates the task of an action. -/
  | click
  /-- `run_scenario` up to its `gather`. -/
  | runScenario (steps : Nat)
  /-- The action ends before `_lock`: no such service, no such action. -/
  | skip (i : Nat)
  | enter (i : Nat)
  | wakeUp (i : Nat)
  /-- The body ends, in whatever way. -/
  | leave (i : Nat)
  /-- The `finally` of `run_scenario`: `gather` has waited for all steps. -/
  | finish (k : Nat)
  deriving DecidableEq, Repr

/-- The task that the event moves. -/
def LockEvent.task? : LockEvent → Option Nat
  | .click | .runScenario _ | .finish _ => none
  | .skip i | .enter i | .wakeUp i | .leave i => some i

namespace MockCluster

def setPhase (m : MockCluster) (i : Nat) (t : ActionTask) (p : ActionPhase) : MockCluster :=
  { m with tasks := m.tasks.set i { t with phase := p } }

/-- `__aenter__` of `_lock`, up to its first wait. -/
def lock (m : MockCluster) (i : Nat) (t : ActionTask) : MockCluster :=
  if m.scenarioMode then m.setPhase i t (.inside false)
  else
    let out := m.actionLock.acquire i
    { m.setPhase i t (if out.2 then .inside true else .waiting) with actionLock := out.1 }

def step (m : MockCluster) : LockEvent → Option MockCluster
  | .click => some { m with tasks := m.tasks ++ [{ scenario := none }] }
  | .runScenario steps =>
      some { m with
        scenarioMode := true
        tasks := m.tasks ++ List.replicate steps { scenario := some m.runs.length }
        runs := m.runs ++ [true] }
  | .skip i =>
      match m.tasks[i]? with
      | some ⟨scenario, .pending⟩ => some (m.setPhase i ⟨scenario, .pending⟩ .done)
      | _ => none
  | .enter i =>
      match m.tasks[i]? with
      | some ⟨scenario, .pending⟩ => some (m.lock i ⟨scenario, .pending⟩)
      | _ => none
  | .wakeUp i =>
      match m.tasks[i]? with
      | some ⟨scenario, .waiting⟩ =>
          (m.actionLock.wakeUp i).map fun l =>
            { m.setPhase i ⟨scenario, .waiting⟩ (.inside true) with actionLock := l }
      | _ => none
  | .leave i =>
      match m.tasks[i]? with
      | some ⟨scenario, .inside holdsLock⟩ =>
          some { m.setPhase i ⟨scenario, .inside holdsLock⟩ .done with
            actionLock := if holdsLock then m.actionLock.release else m.actionLock }
      | _ => none
  | .finish k =>
      if m.runs[k]? = some true ∧ ∀ t ∈ m.tasks, t.scenario = some k → t.phase = .done then
        some { m with runs := m.runs.set k false, scenarioMode := false }
      else none

/-! ## What is promised -/

/-- No step of a scenario that runs waits for the lock. -/
def StepsPass (m : MockCluster) : Prop :=
  ∀ t ∈ m.tasks, ∀ k, t.scenario = some k → m.runs[k]? = some true → t.phase ≠ .waiting

/-- At most one click is in the body of its action. -/
def OneClick (m : MockCluster) : Prop :=
  ∀ (i j : Nat) (t u : ActionTask) (x y : Bool), m.tasks[i]? = some t → m.tasks[j]? = some u →
    t.scenario = none → u.scenario = none → t.phase = .inside x → u.phase = .inside y → i = j

/-- A click gets to `_lock` while the flag is down, and the flag goes down when every step has
got there. -/
def Steady (m : MockCluster) : LockEvent → Prop
  | .enter i => ∀ t ∈ m.tasks[i]?, t.scenario = none → m.scenarioMode = false
  | .finish _ => ∀ t ∈ m.tasks, t.scenario ≠ none → t.phase ≠ .pending
  | _ => True

instance (m : MockCluster) : ∀ e, Decidable (m.Steady e)
  | .enter i =>
      inferInstanceAs (Decidable (∀ t ∈ m.tasks[i]?, t.scenario = none → m.scenarioMode = false))
  | .finish _ => inferInstanceAs (Decidable (∀ t ∈ m.tasks, t.scenario ≠ none → t.phase ≠ .pending))
  | .click | .runScenario _ | .skip _ | .wakeUp _ | .leave _ => inferInstanceAs (Decidable True)

variable {m m' : MockCluster} {e : LockEvent} {i : Nat} {t : ActionTask} {p : ActionPhase}

/-! ## What a step does -/

theorem skip_eq_some (hs : m.step (.skip i) = some m') :
    ∃ scenario, m.tasks[i]? = some ⟨scenario, .pending⟩ ∧ m' = m.setPhase i ⟨scenario, .pending⟩ .done := by
  unfold step at hs
  dsimp only at hs
  split at hs
  · rename_i scenario hi
    cases hs
    exact ⟨scenario, hi, rfl⟩
  · cases hs

theorem enter_eq_some (hs : m.step (.enter i) = some m') :
    ∃ scenario, m.tasks[i]? = some ⟨scenario, .pending⟩ ∧ m' = m.lock i ⟨scenario, .pending⟩ := by
  unfold step at hs
  dsimp only at hs
  split at hs
  · rename_i scenario hi
    cases hs
    exact ⟨scenario, hi, rfl⟩
  · cases hs

theorem wakeUp_eq_some (hs : m.step (.wakeUp i) = some m') :
    ∃ scenario l, m.tasks[i]? = some ⟨scenario, .waiting⟩ ∧ m.actionLock.wakeUp i = some l
      ∧ m' = { m.setPhase i ⟨scenario, .waiting⟩ (.inside true) with actionLock := l } := by
  unfold step at hs
  dsimp only at hs
  split at hs
  · rename_i scenario hi
    obtain ⟨l, hl, hs⟩ := Option.map_eq_some_iff.mp hs
    cases hs
    exact ⟨scenario, l, hi, hl, rfl⟩
  · cases hs

theorem leave_eq_some (hs : m.step (.leave i) = some m') :
    ∃ scenario holdsLock, m.tasks[i]? = some ⟨scenario, .inside holdsLock⟩
      ∧ m' = { m.setPhase i ⟨scenario, .inside holdsLock⟩ .done with
          actionLock := if holdsLock then m.actionLock.release else m.actionLock } := by
  unfold step at hs
  dsimp only at hs
  split at hs
  · rename_i scenario holdsLock hi
    cases hs
    exact ⟨scenario, holdsLock, hi, rfl⟩
  · cases hs

theorem finish_eq_some {k : Nat} (hs : m.step (.finish k) = some m') :
    (∀ t ∈ m.tasks, t.scenario = some k → t.phase = .done)
      ∧ m' = { m with runs := m.runs.set k false, scenarioMode := false } := by
  unfold step at hs
  dsimp only at hs
  split at hs
  · rename_i hfinish
    cases hs
    exact ⟨hfinish.2, rfl⟩
  · cases hs

/-! ## The invariant -/

/-- Steps pass by the lock, clicks hold it while they are in the body. -/
structure LockInv (m : MockCluster) : Prop where
  flag : ∀ t ∈ m.tasks, t.scenario ≠ none → t.phase = .pending → m.scenarioMode = true
  pass : ∀ t ∈ m.tasks, t.scenario ≠ none → t.phase ≠ .waiting
  click : ∀ t ∈ m.tasks, t.scenario = none → t.phase ≠ .inside false
  holder : ∀ (i j : Nat) (t u : ActionTask), m.tasks[i]? = some t → m.tasks[j]? = some u →
    t.phase = .inside true → u.phase = .inside true → i = j
  locked : ∀ t ∈ m.tasks, t.phase = .inside true → m.actionLock.locked = true

theorem lockInv_init : LockInv {} where
  flag := by intro t ht; cases ht
  pass := by intro t ht; cases ht
  click := by intro t ht; cases ht
  holder := by intro i j t u hi; cases hi
  locked := by intro t ht; cases ht

/-- Tasks that are created. -/
theorem lockInv_create (h : LockInv m) {new : List ActionTask} (hnew : ∀ t ∈ new, t.phase = .pending)
    (htasks : m'.tasks = m.tasks ++ new) (hlock : m'.actionLock = m.actionLock)
    (hold : m.scenarioMode = true → m'.scenarioMode = true)
    (hflag : ∀ t ∈ new, t.scenario ≠ none → m'.scenarioMode = true) : LockInv m' := by
  -- a new task is pending, so whoever is further was there before
  have hfurther : ∀ {t : ActionTask} {p : ActionPhase}, t ∈ m'.tasks → t.phase = p → p ≠ .pending →
      t ∈ m.tasks := by
    intro t p ht hp hne
    rw [htasks] at ht
    rcases List.mem_append.mp ht with ht | ht
    · exact ht
    · exact absurd (hp.symm.trans (hnew t ht)) hne
  have hplace : ∀ {i : Nat} {t : ActionTask}, m'.tasks[i]? = some t → t.phase = .inside true →
      m.tasks[i]? = some t := by
    intro i t hi hp
    rw [htasks, List.getElem?_append] at hi
    split at hi
    · exact hi
    · cases hp.symm.trans (hnew t (List.mem_of_getElem? hi))
  constructor
  · intro t ht hstep hp
    rw [htasks] at ht
    rcases List.mem_append.mp ht with ht | ht
    · exact hold (h.flag t ht hstep hp)
    · exact hflag t ht hstep
  · exact fun t ht hstep hp => h.pass t (hfurther ht hp (by decide)) hstep hp
  · exact fun t ht hclick hp => h.click t (hfurther ht hp (by decide)) hclick hp
  · exact fun i j t u hi hj ht hu => h.holder i j t u (hplace hi ht) (hplace hj hu) ht hu
  · intro t ht hp
    rw [hlock]
    exact h.locked t (hfurther ht hp (by decide)) hp

/-- A task that goes on. -/
theorem lockInv_advance (h : LockInv m) (hi : m.tasks[i]? = some t)
    (htasks : m'.tasks = m.tasks.set i { t with phase := p })
    (hmode : m'.scenarioMode = m.scenarioMode) (hp : p ≠ .pending)
    (hpass : t.scenario ≠ none → p ≠ .waiting) (hclick : t.scenario = none → p ≠ .inside false)
    (hself : p = .inside true → m'.actionLock.locked = true)
    (hothers : ∀ (j : Nat) (u : ActionTask), j ≠ i → m.tasks[j]? = some u → u.phase = .inside true →
      p ≠ .inside true ∧ m'.actionLock.locked = true) : LockInv m' := by
  constructor
  · intro u hu hstep hpending
    rw [htasks] at hu
    rcases Slots.mem_set_cases hu with rfl | ⟨j, _, hj⟩
    · exact absurd hpending hp
    · rw [hmode]
      exact h.flag u (List.mem_of_getElem? hj) hstep hpending
  · rw [htasks]
    exact Slots.forall_mem_set h.pass i hpass
  · rw [htasks]
    exact Slots.forall_mem_set h.click i hclick
  · intro j k u v hj hk hu hv
    rw [htasks] at hj hk
    rcases Slots.getElem?_set_cases hj with ⟨rfl, rfl⟩ | ⟨hji, hj'⟩
    · rcases Slots.getElem?_set_cases hk with ⟨rfl, _⟩ | ⟨hki, hk'⟩
      · rfl
      · exact absurd hu (hothers k v hki hk' hv).1
    · rcases Slots.getElem?_set_cases hk with ⟨rfl, rfl⟩ | ⟨_, hk'⟩
      · exact absurd hv (hothers j u hji hj' hu).1
      · exact h.holder j k u v hj' hk' hu hv
  · intro u hu hheld
    rw [htasks] at hu
    rcases Slots.mem_set_cases hu with rfl | ⟨j, hji, hj⟩
    · exact hself hheld
    · exact (hothers j u hji hj hheld).2

/-- While the lock is not taken, nobody is inside with it. -/
theorem LockInv.none_inside (h : LockInv m) (hfree : m.actionLock.locked = false) {j : Nat}
    {u : ActionTask} (hj : m.tasks[j]? = some u) : u.phase ≠ .inside true := by
  intro hu
  have hlocked := h.locked u (List.mem_of_getElem? hj) hu
  rw [hfree] at hlocked
  cases hlocked

theorem lockInv_lock (h : LockInv m) {scenario : Option Nat}
    (hi : m.tasks[i]? = some ⟨scenario, .pending⟩)
    (hsteady : scenario = none → m.scenarioMode = false) : LockInv (m.lock i ⟨scenario, .pending⟩) := by
  unfold lock
  split
  · rename_i hmode
    refine lockInv_advance h hi rfl rfl (by decide) (fun _ => by decide) (fun hclick => ?_)
      (fun hp => by cases hp)
      fun j u _ hj hu => ⟨by decide, h.locked u (List.mem_of_getElem? hj) hu⟩
    rw [hsteady hclick] at hmode
    cases hmode
  · rename_i hmode
    -- a step would have found the flag up
    have hclick : scenario = none := by
      by_contra hstep
      exact hmode (h.flag _ (List.mem_of_getElem? hi) hstep rfl)
    rcases m.actionLock.acquire_cases i with ⟨hfree, hgot, hlocked⟩ | ⟨hwaits, hsame⟩
    · refine lockInv_advance h hi rfl rfl ?_ (fun hstep => absurd hclick hstep) (fun _ => ?_)
        (fun _ => hlocked) fun j u _ hj hu => absurd hu (h.none_inside hfree hj)
      · rw [if_pos hgot]
        decide
      · rw [if_pos hgot]
        decide
    · have hphase : (if (m.actionLock.acquire i).2 = true then ActionPhase.inside true else .waiting)
          = .waiting := by
        rw [hwaits]
        rfl
      refine lockInv_advance h hi rfl rfl ?_ (fun hstep => absurd hclick hstep) (fun _ => ?_)
        (fun hp => ?_) fun j u _ hj hu => ⟨?_, hsame.trans (h.locked u (List.mem_of_getElem? hj) hu)⟩
      all_goals rw [hphase] at *
      · decide
      · decide
      · cases hp
      · decide

theorem lockInv_step (h : LockInv m) (hsteady : m.Steady e) (hs : m.step e = some m') :
    LockInv m' := by
  cases e with
  | click =>
      cases hs
      exact lockInv_create h (by simp) rfl rfl id (by simp)
  | runScenario steps =>
      cases hs
      refine lockInv_create h (fun t ht => ?_) rfl rfl (fun _ => rfl) fun _ _ _ => rfl
      rw [List.eq_of_mem_replicate ht]
  | skip i =>
      obtain ⟨scenario, hi, rfl⟩ := skip_eq_some hs
      exact lockInv_advance h hi rfl rfl (by decide) (fun _ => by decide) (fun _ => by decide)
        (fun hp => by cases hp) fun j u _ hj hu => ⟨by decide, h.locked u (List.mem_of_getElem? hj) hu⟩
  | enter i =>
      obtain ⟨scenario, hi, rfl⟩ := enter_eq_some hs
      exact lockInv_lock h hi (hsteady _ hi)
  | wakeUp i =>
      obtain ⟨scenario, l, hi, hl, rfl⟩ := wakeUp_eq_some hs
      obtain ⟨hfree, hlocked⟩ := AsyncLock.wakeUp_eq_some hl
      exact lockInv_advance h hi rfl rfl (by decide) (fun _ => by decide) (fun _ => by decide)
        (fun _ => hlocked) fun j u _ hj hu => absurd hu (h.none_inside hfree hj)
  | leave i =>
      obtain ⟨scenario, holdsLock, hi, rfl⟩ := leave_eq_some hs
      refine lockInv_advance h hi rfl rfl (by decide) (fun _ => by decide) (fun _ => by decide)
        (fun hp => by cases hp) fun j u hji hj hu => ⟨by decide, ?_⟩
      cases holdsLock with
      | true => exact absurd (h.holder j i _ _ hj hi hu rfl) hji
      | false => exact h.locked u (List.mem_of_getElem? hj) hu
  | finish k =>
      obtain ⟨_, rfl⟩ := finish_eq_some hs
      exact { h with flag := fun t ht hstep hp => absurd hp (hsteady t ht hstep) }

theorem LockInv.stepsPass (h : LockInv m) : m.StepsPass := by
  intro t ht k hk _
  exact h.pass t ht (by rw [hk]; exact Option.some_ne_none k)

theorem LockInv.oneClick (h : LockInv m) : m.OneClick := by
  intro i j t u x y hi hj ht hu hx hy
  -- both hold the lock
  cases x with
  | false => exact absurd hx (h.click t (List.mem_of_getElem? hi) ht)
  | true =>
      cases y with
      | false => exact absurd hy (h.click u (List.mem_of_getElem? hj) hu)
      | true => exact h.holder i j t u hi hj hx hy

/-! ## When it goes wrong -/

/-- Only a scenario that runs has steps to come. -/
def StepsRun (m : MockCluster) : Prop :=
  ∀ t ∈ m.tasks, ∀ k, t.scenario = some k → t.phase ≠ .done → m.runs[k]? = some true

/-- The other events move one task, which was not done. -/
theorem advances_of_step (he : e.task? = some i) (hs : m.step e = some m') :
    ∃ t p, m.tasks[i]? = some t ∧ t.phase ≠ .done ∧ m'.tasks = m.tasks.set i { t with phase := p }
      ∧ m'.runs = m.runs := by
  cases e with
  | click | runScenario steps | finish k => cases he
  | enter j =>
      cases he
      obtain ⟨scenario, hi, rfl⟩ := enter_eq_some hs
      unfold lock
      split
      · exact ⟨_, _, hi, ActionPhase.noConfusion, rfl, rfl⟩
      · exact ⟨_, _, hi, ActionPhase.noConfusion, rfl, rfl⟩
  | wakeUp j =>
      cases he
      obtain ⟨scenario, l, hi, _, rfl⟩ := wakeUp_eq_some hs
      exact ⟨_, _, hi, ActionPhase.noConfusion, rfl, rfl⟩
  | skip j =>
      cases he
      obtain ⟨scenario, hi, rfl⟩ := skip_eq_some hs
      exact ⟨_, _, hi, ActionPhase.noConfusion, rfl, rfl⟩
  | leave j =>
      cases he
      obtain ⟨scenario, holdsLock, hi, rfl⟩ := leave_eq_some hs
      exact ⟨_, _, hi, ActionPhase.noConfusion, rfl, rfl⟩

theorem stepsRun_step (h : m.StepsRun) (hs : m.step e = some m') : m'.StepsRun := by
  cases e with
  | click =>
      cases hs
      intro t ht k hk hdone
      rcases List.mem_append.mp ht with ht | ht
      · exact h t ht k hk hdone
      · cases List.mem_singleton.mp ht
        cases hk
  | runScenario steps =>
      cases hs
      intro t ht k hk hdone
      rcases List.mem_append.mp ht with ht | ht
      · exact List.getElem?_append_left (List.getElem?_eq_some_iff.mp (h t ht k hk hdone)).1 ▸ h t ht k hk hdone
      · rw [List.eq_of_mem_replicate ht] at hk
        cases hk
        exact List.getElem?_concat_length
  | finish k =>
      obtain ⟨hfinish, rfl⟩ := finish_eq_some hs
      intro t ht j hj hdone
      show (m.runs.set k false)[j]? = some true
      rw [List.getElem?_set_ne, h t ht j hj hdone]
      rintro rfl
      exact hdone (hfinish t ht hj)
  | skip i | enter i | wakeUp i | leave i =>
      obtain ⟨t, p, hi, ht, htasks, hruns⟩ := advances_of_step rfl hs
      unfold StepsRun
      rw [htasks, hruns]
      exact Slots.forall_mem_set h i fun k hk _ => h t (List.mem_of_getElem? hi) k hk ht

/-- The state after another click, which goes as far as it can. -/
def clicked (m : MockCluster) : MockCluster :=
  lock { m with tasks := m.tasks ++ [{ scenario := none }] } m.tasks.length { scenario := none }

theorem exec_clicked (m : MockCluster) :
    exec step m [.click, .enter m.tasks.length] = some m.clicked := by
  have hclick : step m .click = some { m with tasks := m.tasks ++ [{ scenario := none }] } := rfl
  have henter : step { m with tasks := m.tasks ++ [{ scenario := none }] } (.enter m.tasks.length)
      = some m.clicked := by
    unfold step
    dsimp only
    rw [List.getElem?_concat_length]
    rfl
  rw [exec_cons _ hclick, exec_cons _ henter, exec]

/-- A click that gets to `_lock` while the flag is up is joined by the next. -/
theorem clicks_overlap (hi : m.tasks[i]? = some ⟨none, .pending⟩) (hmode : m.scenarioMode = true) :
    ∃ fs m', exec step (m.lock i ⟨none, .pending⟩) fs = some m' ∧ ¬ m'.OneClick := by
  have hlength := (List.getElem?_eq_some_iff.mp hi).1
  refine ⟨_, _, exec_clicked _, fun hone => ?_⟩
  simp only [clicked, lock, hmode, setPhase, if_true, List.length_set] at hone
  have hfirst := hone i m.tasks.length _ _ false false
    (by rw [List.getElem?_set_ne (Nat.ne_of_gt hlength),
      List.getElem?_append_left (by rw [List.length_set]; exact hlength), List.getElem?_set_self hlength])
    (List.getElem?_set_self (by simp)) rfl rfl rfl rfl
  omega

/-- A step that gets to `_lock` with the flag down waits for a click. -/
theorem step_waits {j k : Nat} (hj : m.tasks[j]? = some ⟨some k, .pending⟩)
    (hrun : m.runs[k]? = some true) (hmode : m.scenarioMode = false) :
    ∃ fs m', exec step m fs = some m' ∧ ¬ m'.StepsPass := by
  have hlength := (List.getElem?_eq_some_iff.mp hj).1
  have hj' : m.clicked.tasks[j]? = some ⟨some k, .pending⟩ := by
    simp only [clicked, lock, hmode, setPhase]
    rw [if_neg (by decide), List.getElem?_set_ne (Nat.ne_of_gt hlength),
      List.getElem?_append_left hlength]
    exact hj
  have hmode' : m.clicked.scenarioMode = false := by
    simp [clicked, lock, hmode, setPhase]
  have hlock : (m.clicked.actionLock.acquire j).2 = false := by
    simp only [clicked, lock, hmode, setPhase]
    exact AsyncLock.acquire_after _ _ _
  have henter : step m.clicked (.enter j) = some (m.clicked.lock j ⟨some k, .pending⟩) := by
    unfold step
    dsimp only
    rw [hj']
  refine ⟨[.click, .enter m.tasks.length] ++ [.enter j], _,
    (exec_append (exec_clicked m)).trans (exec_cons [] henter), fun hpass => ?_⟩
  have hlength' : j < m.clicked.tasks.length := (List.getElem?_eq_some_iff.mp hj').1
  have hruns : m.clicked.runs = m.runs := by
    simp [clicked, lock, hmode, setPhase]
  have hphase := hpass ⟨some k, .waiting⟩ (List.mem_of_getElem? (i := j) ?_) k rfl ?_
  · exact hphase rfl
  · simp only [lock, hmode', setPhase, hlock]
    exact List.getElem?_set_self hlength'
  · simp only [lock, hmode', setPhase]
    rw [if_neg (by decide)]
    exact hruns ▸ hrun

theorem broken_of_not_steady (h : m.StepsRun) (hs : m.step e = some m') (hbad : ¬ m.Steady e) :
    ∃ fs m'', exec step m' fs = some m'' ∧ ¬ (m''.StepsPass ∧ m''.OneClick) := by
  cases e with
  | click | runScenario steps | skip i | wakeUp i | leave i => exact absurd trivial hbad
  | enter i =>
      obtain ⟨scenario, hi, rfl⟩ := enter_eq_some hs
      have hbad' : scenario = none ∧ m.scenarioMode = true := by
        refine ⟨by_contra fun hne => hbad fun t ht hnone => ?_, ?_⟩
        · cases hi.symm.trans ht
          exact absurd hnone hne
        · by_contra hmode
          exact hbad fun _ _ _ => Bool.eq_false_iff.mpr hmode
      obtain ⟨rfl, hmode⟩ := hbad'
      obtain ⟨fs, m'', hrun, hover⟩ := clicks_overlap hi hmode
      exact ⟨fs, m'', hrun, fun hkept => hover hkept.2⟩
  | finish k =>
      obtain ⟨hfinish, rfl⟩ := finish_eq_some hs
      -- a step of another run has still to come
      simp only [Steady, not_forall] at hbad
      obtain ⟨⟨scenario, phase⟩, ht, hstep, hp⟩ := hbad
      obtain ⟨j, hj⟩ := Option.ne_none_iff_exists'.mp hstep
      cases hj
      cases not_not.mp hp
      obtain ⟨i, hi⟩ := List.mem_iff_getElem?.mp ht
      have hrun : (m.runs.set k false)[j]? = some true := by
        rw [List.getElem?_set_ne, h _ ht j rfl ActionPhase.noConfusion]
        rintro rfl
        cases hfinish _ ht rfl
      obtain ⟨fs, m'', hfs, hwaits⟩ :=
        step_waits (m := { m with runs := m.runs.set k false, scenarioMode := false }) hi hrun rfl
      exact ⟨fs, m'', hfs, fun hkept => hwaits hkept.1⟩

end MockCluster

open MockCluster

/-- **Both modes keep their promise as long as no click gets to `_lock` while the flag is up and the
flag does not go down before the last step has got there; at a step that breaks this, the
promise can be broken.** -/
theorem action_lock_exact (es : List LockEvent) :
    (Meets MockCluster.step Steady {} es →
      Always MockCluster.step (fun m => m.StepsPass ∧ m.OneClick) {} es)
    ∧ ∀ m e m', exec MockCluster.step {} es = some m → m.step e = some m' → ¬ m.Steady e →
        ∃ fs m'', exec MockCluster.step m' fs = some m'' ∧ ¬ (m''.StepsPass ∧ m''.OneClick) := by
  constructor
  · intro hsteady
    exact always_of_invariant (I := LockInv) (fun _ _ _ => lockInv_step)
      (fun _ h => ⟨h.stepsPass, h.oneClick⟩) lockInv_init hsteady
  · intro m e m' hrun hs hbad
    have hsteps : m.StepsRun :=
      exec_invariant (I := StepsRun) (C := fun _ _ => True) (fun _ _ _ h _ hs => stepsRun_step h hs)
        (fun t ht => by cases ht) (meets_true _ _) hrun
    exact broken_of_not_steady hsteps hs hbad

/-- Two clicks, one after the other, and a scenario of two steps at the same time. -/
def clicksAndScenario : List LockEvent :=
  [.click, .click, .enter 0, .enter 1, .leave 0, .wakeUp 1, .runScenario 2, .enter 2, .enter 3, .leave 3,
    .leave 2, .finish 0, .leave 1]

theorem clicksAndScenario_keeps : (exec MockCluster.step {} clicksAndScenario).isSome
    ∧ Always MockCluster.step (fun m => m.StepsPass ∧ m.OneClick) {} clicksAndScenario :=
  ⟨by decide, (action_lock_exact clicksAndScenario).1 (by decide)⟩

/-- The second scenario has a step to come when the first takes the flag down. -/
def overlappingScenarios : List LockEvent :=
  [.runScenario 1, .runScenario 1, .enter 0, .leave 0, .finish 0, .click, .enter 2, .enter 1]

def clicksInScenario : List LockEvent := [.runScenario 1, .click, .click, .enter 1, .enter 2]

theorem action_lock_broken : ¬ Always MockCluster.step StepsPass {} overlappingScenarios
    ∧ ¬ Always MockCluster.step OneClick {} clicksInScenario := by
  constructor
  · intro h
    exact h.last rfl ⟨some 1, .waiting⟩ (by decide) 1 rfl rfl rfl
  · intro h
    exact absurd (h.last rfl 1 2 _ _ false false rfl rfl rfl rfl rfl rfl) (by decide)

end Microservices.Chaos
