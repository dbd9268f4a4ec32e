import Microservices.Tasks.Idempotency

/-!
# When a key creates one task

For one key the whole state comes down to a *slot*: free, taken by a request under
way, holding a task whose answer is not stored yet, or holding one that is. As
long as every lookup finds no other request under way, each step of the service
leaves a key's slot alone or moves it along `free → working → written → cached`
(back to `free` from `working`), and the slot says what every request under the
key may have come to.
-/

namespace Microservices.Tasks

open Schedule Slots

variable {w w' : CreateWorld} {key : String}

/-- What one idempotency key stands for. -/
inductive Slot where
  | free
  | working
  | written (task : Task)
  | cached (task : Task)

namespace Slot

def created : Slot → List Task
  | free | working => []
  | written t | cached t => [t]

def entry : Slot → Option CachedResponse
  | cached t => some (createdResponse t)
  | _ => none

def underWay : Slot → Nat
  | working | written _ => 1
  | free | cached _ => 0

/-- What a request under the key may have come to. -/
def Allows : Slot → CreatePhase → Prop
  | _, .received => True
  | _, .refused _ late | _, .failed late => late = false
  | working, .missed | working, .checked => True
  | written t, .committed t' | written t, .responded t' | written t, .published t' => t' = t
  | cached t, .finished t' => t' = t
  | cached t, .replayed c => c = createdResponse t
  | _, _ => False

/-- The moves of a slot. -/
inductive Next : Slot → Slot → Prop where
  | claim : Next free working
  | release : Next working free
  | write (t : Task) : Next working (written t)
  | store (t : Task) : Next (written t) (cached t)

theorem Allows.faithful {s : Slot} {p : CreatePhase} (h : s.Allows p) : p.Faithful s.created := by
  cases s <;> cases p <;>
    first
      | trivial
      | exact h
      | exact absurd h id
      | exact ⟨_, rfl, h⟩
      | (cases h; rfl)

/-- A request that is not under way is allowed on after any move. -/
theorem Next.allows {s s' : Slot} (h : Next s s') {p : CreatePhase} (hp : p.underWay = false)
    (ha : s.Allows p) : s'.Allows p := by
  cases h <;> cases p <;> trivial

end Slot

/-- The slot of a key, as the state shows it. -/
structure SlotOf (w : CreateWorld) (key : String) (s : Slot) : Prop where
  created : w.createdUnder (some key) = s.created
  entry : w.redis key = s.entry
  underWay : w.underWay key = s.underWay
  allows : ∀ r ∈ w.requests, r.cacheKey = some key → s.Allows r.phase

theorem createsOnce_of_slot {s : Slot} (h : SlotOf w key s) : CreatesOnce w key where
  one := by
    rw [h.created]
    cases s <;> simp [Slot.created]
  others := by
    intro r hr hk
    rw [h.created]
    exact (h.allows r hr hk).faithful

theorem slotOf_init (projects : List Project) : SlotOf { projects := projects } key .free where
  created := rfl
  entry := rfl
  underWay := rfl
  allows := by intro r hr; cases hr

/-! ## One request moves -/

/-- A request moves to phase `p`, and nothing under `key` is touched but by it. -/
structure Moves (w w' : CreateWorld) (i : Nat) (r : CreateRequest) (p : CreatePhase) : Prop where
  here : w.requests[i]? = some r
  requests : w'.requests = w.requests.set i { r with phase := p }

theorem Moves.underWay {i : Nat} {r : CreateRequest} {p : CreatePhase} (h : Moves w w' i r p)
    (key : String) :
    w'.underWay key + (if r.cacheKey = some key && r.phase.underWay then 1 else 0)
      = w.underWay key + (if r.cacheKey = some key && p.underWay then 1 else 0) := by
  unfold CreateWorld.underWay
  rw [h.requests]
  exact countP_set_add (fun r => r.cacheKey = some key && r.phase.underWay) h.here { r with phase := p }

/-- A request under another key, or under none, leaves the slot as it is. -/
theorem SlotOf.frame {s : Slot} {i : Nat} {r : CreateRequest} {p : CreatePhase}
    (h : SlotOf w key s) (hm : Moves w w' i r p) (hk : r.cacheKey ≠ some key)
    (hrows : w'.createdUnder (some key) = w.createdUnder (some key))
    (hredis : w'.redis key = w.redis key) : SlotOf w' key s where
  created := hrows.trans h.created
  entry := hredis.trans h.entry
  underWay := by
    have := hm.underWay key
    simp only [hk, decide_false, Bool.false_and, Bool.false_eq_true, if_false] at this
    exact this.trans h.underWay
  allows := by
    rw [hm.requests]
    exact forall_mem_set h.allows i fun hk' => absurd hk' hk

/-- A request under the key moves alone: it is itself under way, or nobody is. -/
theorem SlotOf.move {s s' : Slot} {i : Nat} {r : CreateRequest} {p : CreatePhase}
    (h : SlotOf w key s) (hm : Moves w w' i r p) (hk : r.cacheKey = some key)
    (hs : s' = s ∨ s.Next s') (halone : r.phase.underWay = true ∨ s.underWay = 0)
    (hrows : w'.createdUnder (some key) = s'.created) (hredis : w'.redis key = s'.entry)
    (hway : s'.underWay + (if r.phase.underWay then 1 else 0)
      = s.underWay + (if p.underWay then 1 else 0))
    (hp : s'.Allows p) : SlotOf w' key s' where
  created := hrows
  entry := hredis
  underWay := by
    have := hm.underWay key
    simp only [hk, decide_true, Bool.true_and] at this
    have := h.underWay
    omega
  allows := by
    rw [hm.requests]
    intro x hx hxk
    rcases mem_set_cases hx with rfl | ⟨j, hji, hj⟩
    · exact hp
    · have ha := h.allows x (List.mem_of_getElem? hj) hxk
      have hcount : (w.requests.countP fun r => r.cacheKey = some key && r.phase.underWay) ≤ 1 := by
        have h1 : w.underWay key = s.underWay := h.underWay
        have h2 : s.underWay ≤ 1 := by cases s <;> simp [Slot.underWay]
        exact h1.trans_le h2
      -- nobody else is under way, so the move leaves the others allowed
      have hclosed : x.phase.underWay = false := by
        rcases halone with hopen | hnone
        · have := others_of_countP_le_one hcount hm.here (by simp [hk, hopen]) hji hj
          simpa [hxk] using this
        · have hzero : w.underWay key = 0 := h.underWay.trans hnone
          have := List.countP_eq_zero.mp hzero x (List.mem_of_getElem? hj)
          simpa [hxk] using this
      rcases hs with rfl | hs
      · exact ha
      · exact hs.allows hclosed ha

/-! ## Every step -/

/-- The slot allows a request under way only in its own phase. -/
theorem SlotOf.at {s : Slot} {i : Nat} {r : CreateRequest} (h : SlotOf w key s)
    (hi : w.requests[i]? = some r) (hk : r.cacheKey = some key) : s.Allows r.phase :=
  h.allows r (List.mem_of_getElem? hi) hk

theorem createdUnder_append {t : Task} {k : Option String} :
    CreateWorld.createdUnder { w with rows := w.rows ++ [⟨t, k⟩] } (some key)
      = w.createdUnder (some key) ++ (if k = some key then [t] else []) := by
  unfold CreateWorld.createdUnder
  rw [List.filter_append, List.map_append]
  by_cases hk : k = some key
  · simp [hk]
  · simp [hk]

theorem late_eq_false {s : Slot} {r : CreateRequest} (h : SlotOf w key s)
    (hk : r.cacheKey = some key) (hs : s.created = []) : w.late r = false := by
  unfold CreateWorld.late
  rw [hk, h.created, hs]
  rfl

/-- The two ways a keyed lookup can end. -/
theorem lookup_cases {r : CreateRequest} (hk : r.cacheKey = some key) :
    w.lookup r true = (match w.redis key with
      | none => .missed
      | some cached => .replayed cached) := by
  unfold CreateRequest.cacheKey at hk
  unfold CreateWorld.lookup getCachedResponse
  cases hr : r.key with
  | none => rw [hr] at hk; cases hk
  | some k =>
      rw [hr] at hk
      cases hk
      rfl

theorem checkProject_cases (r : CreateRequest) :
    w.checkProject r = .checked ∨ ∃ e, w.checkProject r = .refused e (w.late r) := by
  unfold CreateWorld.checkProject
  cases getOwnedProject w.projects r.payload.projectId r.callerId with
  | ok p => exact Or.inl rfl
  | error e => exact Or.inr ⟨e, rfl⟩

/-- The slots that a request in a phase before its commit can be in. -/
theorem slot_working {s : Slot} {p : CreatePhase} (h : s.Allows p)
    (hp : p = .missed ∨ p = .checked) : s = .working := by
  rcases hp with rfl | rfl <;> cases s <;> first | rfl | exact absurd h id

/-- The slot of a key whose request holds a task it has not stored. -/
theorem slot_written {s : Slot} {p : CreatePhase} {t : Task} (h : s.Allows p)
    (hp : p = .committed t ∨ p = .responded t ∨ p = .published t) : s = .written t := by
  rcases hp with rfl | rfl | rfl <;> cases s <;> first | exact absurd h id | (cases h; rfl)

/-- What a step leaves of a key's slot: the same slot, or the next one. -/
def Advances (w' : CreateWorld) (key : String) (s : Slot) : Prop :=
  ∃ s', (s' = s ∨ s.Next s') ∧ SlotOf w' key s'

theorem slot_arrive {s : Slot} (h : SlotOf w key s) (callerId : UUID) (k : Option String)
    (payload : TaskCreate) :
    SlotOf { w with requests := w.requests ++
      [{ callerId := callerId, idempotencyKey := k, payload := payload }] } key s where
  created := h.created
  entry := h.entry
  underWay := by
    rw [← h.underWay]
    unfold CreateWorld.underWay
    rw [List.countP_append, List.countP_singleton]
    simp [CreatePhase.underWay]
  allows := by
    intro r hr hk
    rcases List.mem_append.mp hr with hr | hr
    · exact h.allows r hr hk
    · rw [List.mem_singleton.mp hr]
      cases s <;> trivial

theorem slot_lookup {s : Slot} {i : Nat} {r : CreateRequest} (h : SlotOf w key s)
    (hi : w.requests[i]? = some r) (hph : r.phase = .received)
    (halone : ∀ k ∈ r.cacheKey, w.underWay k = 0) :
    Advances (w.setPhase i r (w.lookup r true)) key s := by
  have hm : Moves w (w.setPhase i r (w.lookup r true)) i r (w.lookup r true) := ⟨hi, rfl⟩
  by_cases hk : r.cacheKey = some key
  · have hnone : s.underWay = 0 := h.underWay.symm.trans (halone key hk)
    rw [lookup_cases hk, h.entry] at hm ⊢
    -- the slot is not taken, so the lookup finds what is cached or claims it
    cases s with
    | free =>
        exact ⟨.working, Or.inr .claim, h.move hm hk (Or.inr .claim) (Or.inr rfl) h.created
          h.entry (by rw [hph]; rfl) trivial⟩
    | cached t =>
        exact ⟨.cached t, Or.inl rfl, h.move hm hk (Or.inl rfl) (Or.inr rfl) h.created
          h.entry (by rw [hph]; rfl) rfl⟩
    | working => cases hnone
    | written t => cases hnone
  · exact ⟨s, Or.inl rfl, h.frame hm hk rfl rfl⟩

/-- A request that ends before its commit gives its slot back. -/
theorem slot_release {s : Slot} {i : Nat} {r : CreateRequest} {p : CreatePhase}
    (h : SlotOf w key s) (hi : w.requests[i]? = some r)
    (hph : r.phase = .missed ∨ r.phase = .checked)
    (hp : (∃ e, p = .refused e (w.late r)) ∨ p = .failed (w.late r)) :
    Advances (w.setPhase i r p) key s := by
  have hm : Moves w (w.setPhase i r p) i r p := ⟨hi, rfl⟩
  by_cases hk : r.cacheKey = some key
  · obtain rfl := slot_working (h.at hi hk) hph
    have hlate : w.late r = false := late_eq_false h hk rfl
    have hopen : r.phase.underWay = true := by rcases hph with hph | hph <;> rw [hph] <;> rfl
    refine ⟨.free, Or.inr .release, h.move hm hk (Or.inr .release) (Or.inl hopen) h.created h.entry
      ?_ ?_⟩
    · rw [hopen]
      rcases hp with ⟨e, rfl⟩ | rfl <;> rfl
    · rcases hp with ⟨e, rfl⟩ | rfl <;> exact hlate
  · exact ⟨s, Or.inl rfl, h.frame hm hk rfl rfl⟩

theorem slot_checkProject {s : Slot} {i : Nat} {r : CreateRequest} (h : SlotOf w key s)
    (hi : w.requests[i]? = some r) (hph : r.phase = .missed) :
    Advances (w.setPhase i r (w.checkProject r)) key s := by
  rcases checkProject_cases (w := w) r with hc | ⟨e, hc⟩
  · rw [hc]
    have hm : Moves w (w.setPhase i r .checked) i r .checked := ⟨hi, rfl⟩
    by_cases hk : r.cacheKey = some key
    · obtain rfl := slot_working (h.at hi hk) (Or.inl hph)
      exact ⟨.working, Or.inl rfl, h.move hm hk (Or.inl rfl) (Or.inl (by rw [hph]; rfl)) h.created
        h.entry (by rw [hph]; rfl) trivial⟩
    · exact ⟨s, Or.inl rfl, h.frame hm hk rfl rfl⟩
  · exact slot_release h hi (Or.inl hph) (Or.inl ⟨e, hc⟩)

theorem slot_commit {s : Slot} {i : Nat} {r : CreateRequest} (h : SlotOf w key s)
    (hi : w.requests[i]? = some r) (hph : r.phase = .checked) (t : Task) :
    Advances (w.commit i r t) key s := by
  have hm : Moves w (w.commit i r t) i r (.committed t) := ⟨hi, rfl⟩
  have hrows : (w.commit i r t).createdUnder (some key)
      = w.createdUnder (some key) ++ (if r.cacheKey = some key then [t] else []) :=
    createdUnder_append (w := w)
  by_cases hk : r.cacheKey = some key
  · obtain rfl := slot_working (h.at hi hk) (Or.inr hph)
    rw [if_pos hk, h.created] at hrows
    exact ⟨.written t, Or.inr (.write t), h.move hm hk (Or.inr (.write t))
      (Or.inl (by rw [hph]; rfl)) hrows h.entry (by rw [hph]; rfl) rfl⟩
  · rw [if_neg hk, List.append_nil] at hrows
    exact ⟨s, Or.inl rfl, h.frame hm hk hrows rfl⟩

/-- Responding and publishing change neither the table nor Redis. -/
theorem slot_carryOn {s : Slot} {i : Nat} {r : CreateRequest} {t : Task} {p : CreatePhase}
    (h : SlotOf w key s) (hi : w.requests[i]? = some r)
    (hph : r.phase = .committed t ∨ r.phase = .responded t)
    (hp : p = .responded t ∨ p = .published t) (events : List TaskEvent) :
    Advances { w.setPhase i r p with published := events } key s := by
  have hm : Moves w { w.setPhase i r p with published := events } i r p := ⟨hi, rfl⟩
  by_cases hk : r.cacheKey = some key
  · obtain rfl := slot_written (h.at hi hk) (hph.imp_right Or.inl)
    have hopen : r.phase.underWay = true := by rcases hph with hph | hph <;> rw [hph] <;> rfl
    refine ⟨.written t, Or.inl rfl, h.move hm hk (Or.inl rfl) (Or.inl hopen) h.created h.entry ?_ ?_⟩
    · rw [hopen]
      rcases hp with rfl | rfl <;> rfl
    · rcases hp with rfl | rfl <;> rfl
  · exact ⟨s, Or.inl rfl, h.frame hm hk rfl rfl⟩

theorem slot_cacheWrite {s : Slot} {i : Nat} {r : CreateRequest} {k : String} {t : Task}
    (h : SlotOf w key s) (hi : w.requests[i]? = some r) (hph : r.phase = .published t)
    (hkey : r.key = some k) : Advances (w.cacheWrite i r k t true) key s := by
  have hm : Moves w (w.cacheWrite i r k t true) i r (.finished t) := ⟨hi, rfl⟩
  have hck : r.cacheKey = some (makeKey r.callerId k) := by rw [CreateRequest.cacheKey, hkey]; rfl
  have hredis : (w.cacheWrite i r k t true).redis key
      = if r.cacheKey = some key then some (createdResponse t) else w.redis key := by
    rw [hck]
    show cacheResponse true w.redis r.callerId k (createdResponse t) key = _
    rw [cacheResponse, if_pos rfl]
    simp only [Option.some.injEq, eq_comm]
  by_cases hk : r.cacheKey = some key
  · obtain rfl := slot_written (h.at hi hk) (Or.inr (Or.inr hph))
    rw [if_pos hk] at hredis
    exact ⟨.cached t, Or.inr (.store t), h.move hm hk (Or.inr (.store t))
      (Or.inl (by rw [hph]; rfl)) h.created hredis (by rw [hph]; rfl) rfl⟩
  · rw [if_neg hk] at hredis
    exact ⟨s, Or.inl rfl, h.frame hm hk rfl hredis⟩

/-- **Every step in turn moves a key's slot along its edges.** -/
theorem slot_step {e : CreateEvent} {s : Slot} (h : SlotOf w key s) (hturn : w.InTurn e)
    (hs : w.step e = some w') : Advances w' key s := by
  obtain ⟨hup, halone⟩ := hturn
  cases e with
  | projectsChange projects =>
      cases hs
      exact ⟨s, Or.inl rfl, h.created, h.entry, h.underWay, h.allows⟩
  | arrive callerId k payload =>
      cases hs
      exact ⟨s, Or.inl rfl, slot_arrive h callerId k payload⟩
  | lookup i available =>
      cases hup
      rw [CreateWorld.step] at hs
      split at hs
      · rename_i r hi
        split at hs
        · cases hs; exact slot_lookup h hi ‹_› (halone r hi)
        · cases hs
      · cases hs
  | checkProject i =>
      rw [CreateWorld.step] at hs
      split at hs
      · split at hs
        · cases hs; exact slot_checkProject h ‹_› ‹_›
        · cases hs
      · cases hs
  | commit i id now =>
      rw [CreateWorld.step] at hs
      split at hs
      · split at hs
        · rename_i hph
          cases hs; exact slot_commit h ‹_› hph.1 _
        · cases hs
      · cases hs
  | respond i =>
      rw [CreateWorld.step] at hs
      split at hs
      · split at hs
        · cases hs; exact slot_carryOn h ‹_› (Or.inl ‹_›) (Or.inl rfl) w.published
        · cases hs
      · cases hs
  | publish i sent =>
      rw [CreateWorld.step] at hs
      split at hs
      · split at hs
        · cases hs; exact slot_carryOn h ‹_› (Or.inr ‹_›) (Or.inr rfl) _
        · cases hs
      · cases hs
  | cacheWrite i available =>
      cases hup
      rw [CreateWorld.step] at hs
      split at hs
      · split at hs
        · cases hs; exact slot_cacheWrite h ‹_› ‹_› ‹_›
        · cases hs
      · cases hs
  | fail i =>
      rw [CreateWorld.step] at hs
      split at hs
      · split at hs
        · cases hs; exact slot_release h ‹_› ‹_› (Or.inr rfl)
        · cases hs
      · cases hs

/--
**A key creates one task while its lookups come alone.**

For every projects table and every interleaving of any number of requests, by any
callers and under any keys: if Redis answers throughout and every lookup finds no
other request of its key between a missed lookup and the cache write, then in
every state at most one task has been created under each key, and every request
answered under it made that task, replays its answer, or was turned away before
there was one.
-/
theorem created_once_in_turn (projects : List Project) (es : List CreateEvent)
    (hturn : Meets CreateWorld.step CreateWorld.InTurn { projects := projects } es) (key : String) :
    Always CreateWorld.step (fun w => CreatesOnce w key) { projects := projects } es := by
  refine always_of_invariant (I := fun w => ∃ s, SlotOf w key s) ?_ ?_ ⟨.free, slotOf_init projects⟩
    hturn
  · rintro w e w' ⟨s, h⟩ hc hs
    obtain ⟨s', _, h'⟩ := slot_step h hc hs
    exact ⟨s', h'⟩
  · rintro w ⟨s, h⟩
    exact createsOnce_of_slot h

/-! ## Two requests under one key -/

def copyId : UUID := UUID.ofNat 11

/-- The first request of a key, from its arrival to its cache write. -/
def createAlone : List CreateEvent :=
  [.arrive ann (some "k-1") launchTask, .lookup 0 true, .checkProject 0, .commit 0 launchTaskId noon,
    .respond 0, .publish 0 true, .cacheWrite 0 true]

/-- A retry after the cache write. -/
theorem created_once_by_late_retry :
    Always CreateWorld.step (fun w => CreatesOnce w (makeKey ann "k-1"))
      { projects := [annsProject] }
      (createAlone ++ [.arrive ann (some "k-1") launchTask, .lookup 1 true]) :=
  created_once_in_turn [annsProject] _ (by decide +kernel) (makeKey ann "k-1")

/-- A retry that is looked up after the first response and before its cache write. -/
def promptRetry : List CreateEvent :=
  [.arrive ann (some "k-1") launchTask, .lookup 0 true, .checkProject 0, .commit 0 launchTaskId noon,
    .respond 0, .arrive ann (some "k-1") launchTask, .lookup 1 true, .checkProject 1,
    .commit 1 copyId noon]

/-- **A prompt retry creates the task again.** -/
theorem prompt_retry_creates_twice :
    ∃ w, exec CreateWorld.step { projects := [annsProject] } promptRetry = some w
      ∧ (w.createdUnder (some (makeKey ann "k-1"))).map Task.id = [launchTaskId, copyId]
      ∧ ¬ CreatesOnce w (makeKey ann "k-1") := by
  have hrun : (exec CreateWorld.step { projects := [annsProject] } promptRetry).map
      (fun w => (w.createdUnder (some (makeKey ann "k-1"))).map Task.id)
        = some [launchTaskId, copyId] := by decide +kernel
  obtain ⟨w, hw, hids⟩ := Option.map_eq_some_iff.mp hrun
  refine ⟨w, hw, hids, fun h => ?_⟩
  have hlen := h.one
  rw [← List.length_map (f := Task.id), hids] at hlen
  exact absurd hlen (by decide)

end Microservices.Tasks
