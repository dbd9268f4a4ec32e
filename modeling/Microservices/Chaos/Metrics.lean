import Microservices.Chaos.Scenario

/-!
# One metric of one service

What effects do to a metric depends on the operations on that metric alone: it is a
register, and the local variable its value is saved in is a copy. Whether a service is
healthy depends on the last assignment.
-/

namespace Microservices.Chaos

open Register

namespace Effect

/-- The operation on the metric. -/
def opAt (v : ServiceName) (m : Metric) : Effect → Option (Op ℚ)
  | .metric v' m' op => if v' = v ∧ m' = m then some op else none
  | _ => none

/-- What `healthy` is set to. -/
def healthAt (v : ServiceName) : Effect → Option Bool
  | .healthy v' b => if v' = v then some b else none
  | _ => none

end Effect

def opsAt (v : ServiceName) (m : Metric) (es : List Effect) : List (Op ℚ) := es.filterMap (Effect.opAt v m)

def healthsAt (v : ServiceName) (es : List Effect) : List Bool := es.filterMap (Effect.healthAt v)

variable {suffix : Nat → String} {l : Locals} {c : Cluster} {v : ServiceName} {m : Metric}

/-! ## The pods are another matter -/

theorem metric_addPods {n : Nat} {v' : ServiceName} :
    (c.addPods suffix v' n).metric v m = c.metric v m :=
  Cluster.addPods_induction c v' suffix (P := fun c' => c'.metric v m = c.metric v m)
    (fun c' h => (Cluster.metric_addPod c' v' v suffix _ _ m).trans h) n rfl

theorem healthy_addPods {n : Nat} {v' : ServiceName} :
    (c.addPods suffix v' n).healthy v = c.healthy v :=
  Cluster.addPods_induction c v' suffix (P := fun c' => c'.healthy v = c.healthy v)
    (fun c' h => (Cluster.healthy_addPod c' v' v suffix _ _).trans h) n rfl

/-! ## One effect -/

/-- The saved copy and the metric. -/
def cell (v : ServiceName) (m : Metric) (l : Locals) (c : Cluster) : ℚ × ℚ := (l.old v m, c.metric v m)

theorem cell_run (e : Effect) : cell v m (e.run suffix l c).1 (e.run suffix l c).2
    = match e.opAt v m with
      | none => cell v m l c
      | some op => op.run (l.old v m) (c.metric v m) := by
  cases e with
  | metric v' m' op =>
      have hop : (Effect.metric v' m' op).opAt v m = if v' = v ∧ m' = m then some op else none := rfl
      by_cases h : v' = v ∧ m' = m
      · rw [hop, if_pos h]
        obtain ⟨rfl, rfl⟩ := h
        refine Prod.ext (if_pos ⟨rfl, rfl⟩) ?_
        exact (Cluster.metric_setMetric c v' v' m' m' _).trans (if_pos ⟨rfl, rfl⟩)
      · rw [hop, if_neg h]
        have h' : ¬ (v = v' ∧ m = m') := fun ⟨hv, hm⟩ => h ⟨hv.symm, hm.symm⟩
        refine Prod.ext (if_neg h') ?_
        exact (Cluster.metric_setMetric c v' v m' m _).trans (if_neg h')
  | healthy v' b => exact Prod.ext rfl (Cluster.metric_setHealthy c v' v m b)
  | pick v' orElse => rfl
  | terminate v' => exact Prod.ext rfl (Cluster.metric_modifyPods c v' v _ m)
  | unready v' => exact Prod.ext rfl (Cluster.metric_modifyPods c v' v _ m)
  | schedule v' => exact Prod.ext rfl (Cluster.metric_addPod c v' v suffix _ _ m)
  | create v' => exact Prod.ext rfl (Cluster.metric_modifyPods c v' v _ m)
  | ready v' => exact Prod.ext rfl (Cluster.metric_modifyPods c v' v _ m)
  | remove v' => exact Prod.ext rfl (Cluster.metric_modifyPods c v' v _ m)
  | promote v' => exact Prod.ext rfl (Cluster.metric_modifyPods c v' v _ m)
  | cut v' => exact Prod.ext rfl (Cluster.metric_modifyPods c v' v _ m)
  | failOver v' => exact Prod.ext rfl (metric_addPods.trans (Cluster.metric_modifyPods c v' v _ m))

theorem healthy_run (e : Effect) :
    (e.run suffix l c).2.healthy v = (e.healthAt v).getD (c.healthy v) := by
  cases e with
  | healthy v' b =>
      have hb : (Effect.healthy v' b).healthAt v = if v' = v then some b else none := rfl
      rw [hb]
      refine (Cluster.healthy_setHealthy c v' v b).trans ?_
      by_cases h : v' = v
      · rw [if_pos h, if_pos h.symm]
        rfl
      · rw [if_neg h, if_neg (Ne.symm h)]
        rfl
  | metric v' m' op => exact Cluster.healthy_setMetric c v' v m' _
  | pick v' orElse => rfl
  | terminate v' => exact Cluster.healthy_modifyPods c v' v _
  | unready v' => exact Cluster.healthy_modifyPods c v' v _
  | schedule v' => exact Cluster.healthy_addPod c v' v suffix _ _
  | create v' => exact Cluster.healthy_modifyPods c v' v _
  | ready v' => exact Cluster.healthy_modifyPods c v' v _
  | remove v' => exact Cluster.healthy_modifyPods c v' v _
  | promote v' => exact Cluster.healthy_modifyPods c v' v _
  | cut v' => exact Cluster.healthy_modifyPods c v' v _
  | failOver v' => exact healthy_addPods.trans (Cluster.healthy_modifyPods c v' v _)

/-! ## Effects that run to the end -/

theorem runEffects_cons {e : Effect} {es : List Effect} (h : (runEffects suffix (e :: es) l c).1 = none) :
    e.stops c = none
      ∧ runEffects suffix (e :: es) l c = runEffects suffix es (e.run suffix l c).1 (e.run suffix l c).2 := by
  rw [runEffects] at h ⊢
  cases hstops : e.stops c with
  | some stop =>
      rw [hstops] at h
      cases h
  | none => exact ⟨rfl, rfl⟩

/-- **A metric is a register.** -/
theorem cell_runEffects {es : List Effect} {l : Locals} {c : Cluster}
    (h : (runEffects suffix es l c).1 = none) :
    cell v m (runEffects suffix es l c).2.1 (runEffects suffix es l c).2.2
      = runAlone (opsAt v m es) (cell v m l c) := by
  induction es generalizing l c with
  | nil => rfl
  | cons e es ih =>
      obtain ⟨_, hrun⟩ := runEffects_cons h
      rw [hrun] at h ⊢
      rw [ih h, cell_run]
      unfold opsAt
      cases hop : e.opAt v m with
      | none => rw [List.filterMap_cons_none hop]
      | some op => rw [List.filterMap_cons_some hop]; rfl

/-- The last assignment counts. -/
theorem healthy_runEffects {es : List Effect} {l : Locals} {c : Cluster}
    (h : (runEffects suffix es l c).1 = none) :
    (runEffects suffix es l c).2.2.healthy v = (healthsAt v es).getLast?.getD (c.healthy v) := by
  induction es generalizing l c with
  | nil => rfl
  | cons e es ih =>
      obtain ⟨_, hrun⟩ := runEffects_cons h
      rw [hrun] at h ⊢
      rw [ih h, healthy_run]
      unfold healthsAt
      cases hb : e.healthAt v with
      | none => rw [List.filterMap_cons_none hb]; rfl
      | some b => rw [List.filterMap_cons_some hb, List.getLast?_cons]; rfl

end Microservices.Chaos
