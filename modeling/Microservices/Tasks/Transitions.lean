import Microservices.Lib.Slots
import Microservices.Tasks.Patch

/-!
# Which commits are real transitions

A request that asks for a status other than the one it loaded sends it, so from its
flush on it holds the row lock and its version of the row has the status it asked
for. One that asks for the status it loaded sends no status: what is stored under
it is up to the others. The row lock keeps the committed row still while anybody
holds it. From these facts what a commit does to the status can be read off the
state in front of it, and so can whether its event is true.
-/

namespace Microservices.Tasks

open Schedule Slots

variable {w w' : PatchWorld} {i j : Nat}

/-! ## What a flush sends -/

theorem setRequired_asked {α : Type} [DecidableEq α] {loaded v : α} {assigned : Option (Option α)}
    {r : Option α} (h : setRequired loaded assigned = some r) (hv : assigned.join = some v) :
    r = if v = loaded then none else some v := by
  match assigned with
  | none => cases hv
  | some none => cases hv
  | some (some u) =>
      cases hv
      exact (Option.some.inj h).symm

theorem changes_status {u : TaskUpdate} {t : Task} {c : ColumnUpdate} (h : u.changes t = some c)
    {s : TaskStatus} (hs : u.asked = some s) :
    c.status = if s = t.status then none else some s := by
  unfold TaskUpdate.changes at h
  split at h
  · rename_i htitle hstatus hpriority
    cases h
    exact setRequired_asked hstatus hs
  · cases h

/-- The status of the row an `UPDATE` leaves: the one sent, or the one it found. -/
theorem apply_status {u : TaskUpdate} {t : Task} {c : ColumnUpdate} (h : u.changes t = some c)
    {s : TaskStatus} (hs : u.asked = some s) (row : Task) (now : Timestamp) :
    (c.apply row now).status = if s = t.status then row.status else s := by
  show c.status.getD row.status = _
  rw [changes_status h hs]
  by_cases hst : s = t.status
  · rw [if_pos hst, if_pos hst]; rfl
  · rw [if_neg hst, if_neg hst]; rfl

theorem asked_loaded_of_isEmpty {u : TaskUpdate} {t : Task} {c : ColumnUpdate}
    (h : u.changes t = some c) (he : c.isEmpty = true) {s : TaskStatus} (hs : u.asked = some s) :
    s = t.status := by
  have hnone : c.status = none := by
    rw [ColumnUpdate.isEmpty, beq_iff_eq] at he
    rw [he]
  have hc := changes_status h hs
  by_contra hst
  rw [hnone, if_neg hst] at hc
  cases hc

/-! ## The invariant -/

/-- Transaction `i` holds the row lock, with `v` as its version of the row. -/
structure Holds (w : PatchWorld) (i : Nat) (u : TaskUpdate) (t v : Task) : Prop where
  pending : w.pending = some (i, v)
  status : ∀ s, u.asked = some s → v.status = if s = t.status then w.row.status else s

/-- What a request knows between its flush and its commit. -/
def Patch.Sound (w : PatchWorld) (i : Nat) (p : Patch) : Prop :=
  match p.phase with
  | .flushed t true => ∃ v, Holds w i p.payload t v
  | .refreshed t true current => Holds w i p.payload t current
  | .flushed t false | .refreshed t false _ => ∀ s, p.payload.asked = some s → s = t.status
  | _ => True

def PatchInv (w : PatchWorld) : Prop :=
  ∀ (i : Nat) (p : Patch), w.patches[i]? = some p → p.Sound w i

theorem patchInv_init (row : Task) : PatchInv { row := row } := by
  intro i p h; cases h

/-- Only the lock's holder depends on the row and the lock. -/
theorem Patch.Sound.frame {p : Patch} (h : p.Sound w j)
    (hsame : ∀ v, w.pending = some (j, v) → w'.pending = some (j, v) ∧ w'.row = w.row) :
    p.Sound w' j := by
  obtain ⟨callerId, u, phase⟩ := p
  have hholds : ∀ {t v}, Holds w j u t v → Holds w' j u t v := by
    intro t v hv
    obtain ⟨hp, hrow⟩ := hsame v hv.pending
    exact ⟨hp, fun s hs => by rw [hrow]; exact hv.status s hs⟩
  cases phase with
  | flushed t wrote =>
      cases wrote with
      | true => obtain ⟨v, hv⟩ := h; exact ⟨v, hholds hv⟩
      | false => exact h
  | refreshed t wrote current =>
      cases wrote with
      | true => exact hholds h
      | false => exact h
  | received => trivial
  | loaded t => trivial
  | answered r => trivial
  | failed => trivial

/-- A step of request `i` that leaves what the other lock holders rely on. -/
theorem PatchInv.set {p : Patch} (h : PatchInv w) (hpatches : w'.patches = w.patches.set i p)
    (hsame : ∀ k v, k ≠ i → w.pending = some (k, v) → w'.pending = some (k, v) ∧ w'.row = w.row)
    (hp : p.Sound w' i) : PatchInv w' := by
  intro k q hq
  rw [hpatches] at hq
  rcases getElem?_set_cases hq with ⟨rfl, rfl⟩ | ⟨hne, hq⟩
  · exact hp
  · exact (h k q hq).frame fun v => hsame k v hne

/-- A step that touches neither the row nor the lock. -/
theorem PatchInv.setPatch {p : Patch} (h : PatchInv w) (hp : p.Sound w i) :
    PatchInv (w.setPatch i p) :=
  h.set rfl (fun _ _ _ hv => ⟨hv, rfl⟩) (hp.frame fun _ hv => ⟨hv, rfl⟩)

theorem visible_of_pending {v : Task} (h : w.pending = some (i, v)) : w.visible i = v := by
  rw [PatchWorld.visible, h]
  exact if_pos rfl

/-! ## One step -/

/-- What an event does, and where the request must be for it. -/
inductive PatchStep (w : PatchWorld) : PatchEvent → PatchWorld → Prop where
  | arrive (callerId : UUID) (u : TaskUpdate) :
      PatchStep w (.arrive callerId u) { w with patches := w.patches ++ [⟨callerId, u, .received⟩] }
  | load {i : Nat} {callerId : UUID} {u : TaskUpdate}
      (hi : w.patches[i]? = some ⟨callerId, u, .received⟩) :
      PatchStep w (.load i) (w.load i callerId u)
  | flush {i : Nat} {callerId : UUID} {u : TaskUpdate} {t : Task} {now : Timestamp}
      {w' : PatchWorld} (hi : w.patches[i]? = some ⟨callerId, u, .loaded t⟩)
      (hs : w.flush i callerId u t now = some w') : PatchStep w (.flush i now) w'
  | refresh {i : Nat} {callerId : UUID} {u : TaskUpdate} {t : Task} {wrote : Bool}
      (hi : w.patches[i]? = some ⟨callerId, u, .flushed t wrote⟩) :
      PatchStep w (.refresh i) (w.setPatch i ⟨callerId, u, .refreshed t wrote (w.visible i)⟩)
  | commit {i : Nat} {callerId : UUID} {u : TaskUpdate} {t current : Task} {wrote : Bool}
      (hi : w.patches[i]? = some ⟨callerId, u, .refreshed t wrote current⟩) :
      PatchStep w (.commit i) (w.commit i callerId u t wrote current)
  | abortLoaded {i : Nat} {callerId : UUID} {u : TaskUpdate} {t : Task}
      (hi : w.patches[i]? = some ⟨callerId, u, .loaded t⟩) :
      PatchStep w (.abort i) (w.abort i callerId u false)
  | abortFlushed {i : Nat} {callerId : UUID} {u : TaskUpdate} {t : Task} {wrote : Bool}
      (hi : w.patches[i]? = some ⟨callerId, u, .flushed t wrote⟩) :
      PatchStep w (.abort i) (w.abort i callerId u wrote)
  | abortRefreshed {i : Nat} {callerId : UUID} {u : TaskUpdate} {t current : Task} {wrote : Bool}
      (hi : w.patches[i]? = some ⟨callerId, u, .refreshed t wrote current⟩) :
      PatchStep w (.abort i) (w.abort i callerId u wrote)

theorem patchStep_of_step {e : PatchEvent} (hs : w.step e = some w') : PatchStep w e w' := by
  cases e with
  | arrive callerId u => cases hs; exact .arrive callerId u
  | load i =>
      rw [PatchWorld.step] at hs
      split at hs
      · cases hs; exact .load ‹_›
      · cases hs
  | flush i now =>
      rw [PatchWorld.step] at hs
      split at hs
      · exact .flush ‹_› hs
      · cases hs
  | refresh i =>
      rw [PatchWorld.step] at hs
      split at hs
      · cases hs; exact .refresh ‹_›
      · cases hs
  | commit i =>
      rw [PatchWorld.step] at hs
      split at hs
      · cases hs; exact .commit ‹_›
      · cases hs
  | abort i =>
      rw [PatchWorld.step] at hs
      split at hs
      · cases hs; exact .abortLoaded ‹_›
      · cases hs; exact .abortFlushed ‹_›
      · cases hs; exact .abortRefreshed ‹_›
      · cases hs

theorem patchInv_arrive (h : PatchInv w) (callerId : UUID) (u : TaskUpdate) :
    PatchInv { w with patches := w.patches ++ [⟨callerId, u, .received⟩] } := by
  intro k q hq
  rcases getElem?_concat_cases hq with rfl | hq
  · trivial
  · exact (h k q hq).frame fun v hv => ⟨hv, rfl⟩

theorem patchInv_load (h : PatchInv w) (callerId : UUID) (u : TaskUpdate) :
    PatchInv (w.load i callerId u) := by
  unfold PatchWorld.load
  split <;> exact h.setPatch trivial

theorem patchInv_flush {callerId : UUID} {u : TaskUpdate} {t : Task} {now : Timestamp}
    (h : PatchInv w) (hs : w.flush i callerId u t now = some w') : PatchInv w' := by
  unfold PatchWorld.flush at hs
  split at hs
  · cases hs
    exact h.setPatch trivial
  · rename_i c hc
    split at hs
    · rename_i he
      cases hs
      exact h.setPatch fun s hs => asked_loaded_of_isEmpty hc he hs
    · split at hs
      · rename_i hfree
        cases hs
        have hnone : w.pending = none := Option.isNone_iff_eq_none.mp hfree
        refine h.set rfl (fun k v _ hv => ?_) ⟨c.apply w.row now, rfl, fun s hs => ?_⟩
        · rw [hnone] at hv
          cases hv
        · exact apply_status hc hs w.row now
      · cases hs

theorem patchInv_refresh {callerId : UUID} {u : TaskUpdate} {t : Task} {wrote : Bool}
    (h : PatchInv w) (hi : w.patches[i]? = some ⟨callerId, u, .flushed t wrote⟩) :
    PatchInv (w.setPatch i ⟨callerId, u, .refreshed t wrote (w.visible i)⟩) := by
  refine h.setPatch ?_
  have hsound := h i _ hi
  cases wrote with
  | true =>
      obtain ⟨v, hv⟩ := hsound
      rw [visible_of_pending hv.pending]
      exact hv
  | false => exact hsound

/-- Giving the lock up: whoever else is under way held nothing. -/
theorem patchInv_release {p : Patch} (wrote : Bool) (h : PatchInv w)
    (hwrote : wrote = true → ∃ v, w.pending = some (i, v))
    (hpatches : w'.patches = w.patches.set i p)
    (hpending : w'.pending = if wrote then none else w.pending)
    (hrow : wrote = false → w'.row = w.row) (hp : p.Sound w' i) : PatchInv w' := by
  refine h.set hpatches (fun k v hne hv => ?_) hp
  cases wrote with
  | true =>
      obtain ⟨u, hu⟩ := hwrote rfl
      rw [hu] at hv
      cases hv
      exact absurd rfl hne
  | false => exact ⟨hpending.trans hv, hrow rfl⟩

theorem holder_of_flushed {callerId : UUID} {u : TaskUpdate} {t : Task} {wrote : Bool}
    (h : PatchInv w) (hi : w.patches[i]? = some ⟨callerId, u, .flushed t wrote⟩)
    (hwrote : wrote = true) : ∃ v, w.pending = some (i, v) := by
  cases hwrote
  obtain ⟨v, hv⟩ := h i _ hi
  exact ⟨v, hv.pending⟩

theorem holder_of_refreshed {callerId : UUID} {u : TaskUpdate} {t current : Task} {wrote : Bool}
    (h : PatchInv w) (hi : w.patches[i]? = some ⟨callerId, u, .refreshed t wrote current⟩)
    (hwrote : wrote = true) : ∃ v, w.pending = some (i, v) := by
  cases hwrote
  exact ⟨current, (h i _ hi).pending⟩

/-- **Every step keeps what a request knows about the lock and its own version of the row.** -/
theorem patchInv_step {e : PatchEvent} (h : PatchInv w) (hs : w.step e = some w') :
    PatchInv w' := by
  cases patchStep_of_step hs with
  | arrive callerId u => exact patchInv_arrive h callerId u
  | load hi => exact patchInv_load h _ _
  | flush hi hflush => exact patchInv_flush h hflush
  | refresh hi => exact patchInv_refresh h hi
  | commit hi =>
      refine patchInv_release _ h (holder_of_refreshed h hi) rfl rfl ?_ trivial
      intro hw
      cases hw
      rfl
  | abortLoaded hi =>
      -- it has sent no `UPDATE` yet, and holds no lock
      exact patchInv_release false h (by intro hw; cases hw) rfl rfl (fun _ => rfl) trivial
  | abortFlushed hi =>
      exact patchInv_release _ h (holder_of_flushed h hi) rfl rfl (fun _ => rfl) trivial
  | abortRefreshed hi =>
      exact patchInv_release _ h (holder_of_refreshed h hi) rfl rfl (fun _ => rfl) trivial

/-! ## One commit -/

theorem field_oldStatus (t : Task) (old : TaskStatus) (callerId : UUID) :
    (taskStatusChanged t old callerId).field "old_status" = some old.value := rfl

theorem field_newStatus (t : Task) (old : TaskStatus) (callerId : UUID) :
    (taskStatusChanged t old callerId).field "new_status" = some t.status.value := rfl

/-- The record of a commit that asked for no status has nothing to be wrong about. -/
theorem truthful_of_not_asked {u : TaskUpdate} (hu : u.asked = none) (before stored : TaskStatus)
    (callerId : UUID) (old : TaskStatus) (current : Task) :
    CommitRecord.Truthful ⟨u, before, stored, statusEvent u callerId old current⟩ := by
  have hnone : statusEvent u callerId old current = none := by
    unfold statusEvent
    rw [hu]
    rfl
  refine ⟨fun e he => ?_, fun e he => ?_, fun s hs => ?_⟩
  · rw [hnone] at he; cases he
  · rw [hnone] at he; cases he
  · rw [hu] at hs; cases hs

/-- When the record of a commit that asked for `s` is truthful. -/
theorem truthful_iff {u : TaskUpdate} {s : TaskStatus} (hu : u.asked = some s)
    (before stored old : TaskStatus) (callerId : UUID) (current : Task) :
    CommitRecord.Truthful ⟨u, before, stored, statusEvent u callerId old current⟩ ↔
      (current.status ≠ old → old = before ∧ current.status = s) ∧ stored = s := by
  have hevent : current.status ≠ old →
      statusEvent u callerId old current = some (taskStatusChanged current old callerId) := by
    intro hne
    unfold statusEvent
    rw [if_pos ⟨by rw [hu]; rfl, hne⟩]
  constructor
  · intro h
    refine ⟨fun hne => ⟨?_, ?_⟩, h.stored s hu⟩
    · have := h.oldStatus _ (hevent hne)
      rw [field_oldStatus] at this
      exact TaskStatus.value_injective (Option.some.inj this)
    · obtain ⟨s', hs', hfield⟩ := h.newStatus _ (hevent hne)
      rw [field_newStatus] at hfield
      cases hs'.symm.trans hu
      exact TaskStatus.value_injective (Option.some.inj hfield)
  · rintro ⟨hmoved, hstored⟩
    -- an event goes out only if the status differs from the old one
    have hcases : ∀ e, statusEvent u callerId old current = some e →
        current.status ≠ old ∧ e = taskStatusChanged current old callerId := by
      intro e he
      unfold statusEvent at he
      split at he
      · exact ⟨(‹_ ∧ _›).2, (Option.some.inj he).symm⟩
      · cases he
    refine ⟨fun e he => ?_, fun e he => ?_, fun s' hs' => ?_⟩
    · obtain ⟨hne, rfl⟩ := hcases e he
      rw [field_oldStatus, (hmoved hne).1]
    · obtain ⟨hne, rfl⟩ := hcases e he
      exact ⟨s, hu, by rw [field_newStatus, (hmoved hne).2]⟩
    · cases hs'.symm.trans hu
      exact hstored

/-- **A commit is a real transition exactly when the status has not moved under it.** -/
theorem commit_truthful_iff {callerId : UUID} {u : TaskUpdate} {t current : Task} {wrote : Bool}
    (h : PatchInv w) (hi : w.patches[i]? = some ⟨callerId, u, .refreshed t wrote current⟩) :
    CommitRecord.Truthful ⟨u, w.row.status, (w.commit i callerId u t wrote current).row.status,
        statusEvent u callerId t.status current⟩ ↔
      ∀ s ∈ u.asked, w.row.status = t.status ∧ (s = t.status → current.status = t.status) := by
  cases hu : u.asked with
  | none =>
      refine iff_of_true (truthful_of_not_asked hu _ _ _ _ _) ?_
      intro s hs
      cases hs
  | some s =>
      rw [truthful_iff hu]
      have hsound := h i _ hi
      -- the status in the row after the commit, and the one the request has read back
      have hstored : (w.commit i callerId u t wrote current).row.status
          = if s = t.status then w.row.status else s := by
        cases wrote with
        | true =>
            show (w.visible i).status = _
            rw [visible_of_pending hsound.pending]
            exact hsound.status s hu
        | false =>
            show w.row.status = _
            rw [if_pos (hsound s hu)]
      have hcurrent : s ≠ t.status → current.status = s := by
        intro hst
        cases wrote with
        | true =>
            have := hsound.status s hu
            rw [if_neg hst] at this
            exact this
        | false => exact absurd (hsound s hu) hst
      rw [hstored]
      simp only [Option.mem_some_iff, forall_eq']
      by_cases hst : s = t.status
      · -- nothing was written: the row is as others have left it
        subst hst
        simp only [if_true, forall_const]
        constructor
        · rintro ⟨hmoved, hrow⟩
          refine ⟨hrow, ?_⟩
          by_contra hne
          exact hne (hmoved hne).2
        · rintro ⟨hrow, hcur⟩
          exact ⟨fun hne => absurd hcur hne, hrow⟩
      · rw [if_neg hst, hcurrent hst]
        constructor
        · intro hmoved
          exact ⟨(hmoved.1 hst).1.symm, fun he => absurd he hst⟩
        · intro hrow
          exact ⟨fun _ => ⟨hrow.1.symm, rfl⟩, rfl⟩

/-! ## Every run -/

/-- Only a commit adds to the record, and it adds one entry. -/
theorem commits_step {e : PatchEvent} (hs : w.step e = some w') :
    (w'.commits = w.commits ∧ w.StatusUnmoved e)
      ∨ ∃ i callerId u t wrote current, e = .commit i
      ∧ w.patches[i]? = some ⟨callerId, u, .refreshed t wrote current⟩
      ∧ w' = w.commit i callerId u t wrote current := by
  cases patchStep_of_step hs with
  | arrive callerId u => exact Or.inl ⟨rfl, trivial⟩
  | load hi =>
      unfold PatchWorld.load
      split <;> exact Or.inl ⟨rfl, trivial⟩
  | flush hi hflush =>
      unfold PatchWorld.flush at hflush
      split at hflush
      · cases hflush; exact Or.inl ⟨rfl, trivial⟩
      · split at hflush
        · cases hflush; exact Or.inl ⟨rfl, trivial⟩
        · split at hflush
          · cases hflush; exact Or.inl ⟨rfl, trivial⟩
          · cases hflush
  | refresh hi => exact Or.inl ⟨rfl, trivial⟩
  | commit hi => exact Or.inr ⟨_, _, _, _, _, _, rfl, hi, rfl⟩
  | abortLoaded hi => exact Or.inl ⟨rfl, trivial⟩
  | abortFlushed hi => exact Or.inl ⟨rfl, trivial⟩
  | abortRefreshed hi => exact Or.inl ⟨rfl, trivial⟩

theorem statusUnmoved_commit {callerId : UUID} {u : TaskUpdate} {t current : Task} {wrote : Bool}
    (hi : w.patches[i]? = some ⟨callerId, u, .refreshed t wrote current⟩) :
    w.StatusUnmoved (.commit i) ↔
      ∀ s ∈ u.asked, w.row.status = t.status ∧ (s = t.status → current.status = t.status) := by
  simp only [PatchWorld.StatusUnmoved, hi]

/-- After one step all commits are real transitions iff they were and the step meets the condition. -/
theorem realTransitions_step_iff {e : PatchEvent} (h : PatchInv w) (hs : w.step e = some w') :
    RealTransitions w' ↔ RealTransitions w ∧ w.StatusUnmoved e := by
  rcases commits_step hs with ⟨hsame, hunmoved⟩ | ⟨i, callerId, u, t, wrote, current, rfl, hi, rfl⟩
  · unfold RealTransitions
    rw [hsame]
    exact ⟨fun hr => ⟨hr, hunmoved⟩, And.left⟩
  · rw [statusUnmoved_commit hi, ← commit_truthful_iff h hi]
    unfold RealTransitions
    show (∀ c ∈ w.commits ++ [_], c.Truthful) ↔ _
    rw [List.forall_mem_append, List.forall_mem_singleton]
    exact Iff.rfl

/--
**Status events are real transitions exactly while no status moves under a commit.**

For every task row and every interleaving of any number of `PATCH` requests for it:
all commits of the run are real transitions iff at every commit of a request that
asks for a status, the committed status is still the one the request loaded (and,
if that is the status it asks for, its refresh has found it too).
-/
theorem status_events_real_iff (row : Task) (es : List PatchEvent) :
    Always PatchWorld.step RealTransitions { row := row } es ↔
      Meets PatchWorld.step PatchWorld.StatusUnmoved { row := row } es := by
  refine always_iff_meets (I := fun w => PatchInv w ∧ RealTransitions w) (fun w h => h.2) ?_ ?_
    ⟨patchInv_init row, by intro c hc; cases hc⟩
  · intro w e w' h hc hs
    exact ⟨patchInv_step h.1 hs, (realTransitions_step_iff h.1 hs).mpr ⟨h.2, hc⟩⟩
  · intro w e w' h hs hr
    exact ((realTransitions_step_iff h.1 hs).mp hr).2

/-- Two updates that have both loaded a task to do: the first moves it on, the second asks for the
status it has seen. -/
def crossingPatches : List PatchEvent :=
  [.arrive ann { status := some (some .inProgress) }, .arrive ann { status := some (some .todo) },
    .load 0, .load 1, .flush 0 noon, .refresh 0, .commit 0, .flush 1 noon, .refresh 1, .commit 1]

/-- **The second update publishes a transition it has not made**, and its 200 stores nothing. -/
theorem crossing_patches_phantom :
    ∃ w c, exec PatchWorld.step { row := launchTask.toTask ann launchTaskId noon } crossingPatches
        = some w
      ∧ w.commits.getLast? = some c
      ∧ c.payload.asked = some .todo ∧ c.before = .inProgress ∧ c.stored = .inProgress
      ∧ c.event.map (fun e => (e.field "old_status", e.field "new_status"))
          = some (some "todo", some "in_progress")
      ∧ ¬ RealTransitions w := by
  have hrun : ((exec PatchWorld.step { row := launchTask.toTask ann launchTaskId noon }
      crossingPatches).bind fun w => w.commits.getLast?)
        = some
          { payload := { status := some (some .todo) }
            before := .inProgress
            stored := .inProgress
            event := some (taskStatusChanged
              { launchTask.toTask ann launchTaskId noon with status := .inProgress } .todo ann) } := by
    rfl
  obtain ⟨w, hw, hc⟩ := Option.bind_eq_some_iff.mp hrun
  refine ⟨w, _, hw, hc, rfl, rfl, rfl, rfl, fun h => ?_⟩
  have := (h _ (List.mem_of_getLast? hc)).stored .todo rfl
  cases this

end Microservices.Tasks
