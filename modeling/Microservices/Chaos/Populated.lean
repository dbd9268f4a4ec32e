import Microservices.Chaos.Queue

/-!
# A service never runs out of pods

A replacement picks the first pod of the list, later appends a new one, and last of all
takes the picked one out. Whatever overlaps, only the first pod can be taken out, and
whoever takes out the next one has picked it, and appended a pod, afterwards. An AZ outage
may drop any of the new pods, but it leaves three. From there one removal may go
uncompensated, and no more: two pods are always left.
-/

namespace Microservices.Chaos

open Schedule

/-! ## The invariant -/

/-- Once its replacement is scheduled, there are two others. -/
def Thread.Spare (t : Thread) (c : Cluster) : Prop :=
  ∀ v p, .remove v ∈ t.left → t.locals.target = some p → t.locals.made ≠ [] →
    p.key ∈ c.keys v → 3 ≤ (c.keys v).length

structure Populated (c : Cluster) (ts : List Thread) : Prop where
  queued : Queued c ts
  distinct : c.created.Nodup
  two : ∀ v, 2 ≤ (c.keys v).length
  spare : ∀ t ∈ ts, t.Spare c

/-- The name that the effect may give is a new one. -/
def NamesDiffer (suffix : Nat → String) (l : Locals) (c : Cluster) (e : Effect) : Prop :=
  (e.run suffix l c).2.created.Nodup

variable {suffix : Nat → String} {c c' : Cluster} {v v' : ServiceName} {l : Locals} {t : Thread}

theorem Thread.Spare.of_sameKeys (h : t.Spare c) (hsame : c.SameKeys c') : t.Spare c' :=
  fun v => by rw [hsame.keys]; exact h v

theorem Thread.Spare.later {e : Effect} {es : List Effect} {l' : Locals}
    (h : (⟨l, e :: es⟩ : Thread).Spare c) (htarget : l'.target = l.target)
    (hmade : l'.made = l.made) : (⟨l', es⟩ : Thread).Spare c :=
  fun v p hmem hp hne => h v p (List.mem_cons_of_mem e hmem) (htarget.symm.trans hp) (hmade ▸ hne)

theorem Thread.Spare.addPod (phase : Phase) (ready : Bool) (h : t.Spare c) (hpicked : t.Picked c) :
    t.Spare (c.addPod suffix v phase ready) := by
  intro v' p hmem hp hne hkey
  refine (h v' p hmem hp hne ?_).trans (length_keys_addPod_le _ _)
  rw [keys_addPod] at hkey
  split at hkey
  · rcases List.mem_append.mp hkey with hkey | hkey
    · exact hkey
    · -- the new pod is not the picked one
      have hid : p.id = c.created.length := congrArg Prod.fst (List.mem_singleton.mp hkey)
      have hlt := (List.getElem?_eq_some_iff.mp (hpicked.known p hp)).1
      omega
  · exact hkey

/-! ## A removal -/

/-- With distinct names, a name is that of one pod. -/
theorem Cluster.Ordered.key_of_name (h : c.Ordered) (hdistinct : c.created.Nodup)
    {k : Nat × String} (hk : k ∈ c.keys v) {p : PodState} (hp : c.created[p.id]? = some p.name)
    (hname : k.2 = p.name) : k = p.key := by
  have hknown := h.known v k hk
  rw [hname, ← hp] at hknown
  have hid : k.1 = p.id := (List.getElem?_inj (h.id_lt hk) hdistinct).mp hknown
  exact Prod.ext hid hname

/-- A picked pod that is still there is the first one. -/
theorem Cluster.Ordered.keys_of_oldest (h : c.Ordered) {p : PodState} (hp : p.key ∈ c.keys v)
    (holdest : ∀ k ∈ c.keys v, p.id ≤ k.1) :
    ∃ ks, c.keys v = p.key :: ks ∧ ∀ k ∈ ks, p.id < k.1 := by
  cases hkeys : c.keys v with
  | nil =>
      rw [hkeys] at hp
      cases hp
  | cons k ks =>
      have hids := h.ids v
      rw [hkeys, List.map_cons, List.pairwise_cons] at hids
      have hfirst : ∀ k' ∈ ks, k.1 < k'.1 := fun k' hk' => hids.1 _ (List.mem_map_of_mem hk')
      rw [hkeys] at hp
      rcases List.mem_cons.mp hp with rfl | htail
      · exact ⟨ks, rfl, hfirst⟩
      · have hlt : k.1 < p.id := hfirst _ htail
        have hle := holdest k (by rw [hkeys]; exact List.mem_cons_self)
        omega

/-- **What a removal does.** Nothing, or the first pod is taken out, and it is the target. -/
theorem remove_cases (h : c.Ordered) (hdistinct : c.created.Nodup) {es : List Effect}
    (hpicked : (⟨l, .remove v :: es⟩ : Thread).Picked c) :
    c.SameKeys ((Effect.remove v).run suffix l c).2
      ∨ ∃ p ks, l.target = some p ∧ c.keys v = p.key :: ks ∧ (∀ k ∈ ks, p.id < k.1)
        ∧ ((Effect.remove v).run suffix l c).2.keys v = ks
        ∧ ∀ v' ≠ v, ((Effect.remove v).run suffix l c).2.keys v' = c.keys v' := by
  have hkeys : ∀ v', ((Effect.remove v).run suffix l c).2.keys v'
      = if v' = v then (c.keys v').filter fun k => some k.2 ≠ l.target.map PodState.name
        else c.keys v' := fun v' => keys_modifyPods_filter (l.target.map PodState.name)
  have hsame (hall : ∀ k ∈ c.keys v, some k.2 ≠ l.target.map PodState.name) :
      c.SameKeys ((Effect.remove v).run suffix l c).2 := by
    refine ⟨rfl, fun v' => ?_, fun v' => Cluster.desired_modifyPods c v v' _⟩
    rw [hkeys]
    split
    · rename_i hv
      subst hv
      exact List.filter_eq_self.mpr fun k hk => decide_eq_true (hall k hk)
    · rfl
  cases htarget : l.target with
  | none =>
      refine Or.inl (hsame fun k _ hname => ?_)
      rw [htarget] at hname
      cases hname
  | some p =>
      have hknown := hpicked.known p htarget
      by_cases hp : p.key ∈ c.keys v
      · obtain ⟨ks, hks, hlater⟩ :=
          h.keys_of_oldest hp (hpicked.oldest v p List.mem_cons_self htarget)
        refine Or.inr ⟨p, ks, rfl, hks, hlater, ?_, fun v' hv => by rw [hkeys, if_neg hv]⟩
        rw [hkeys, if_pos rfl, htarget, hks, List.filter_cons_of_neg (by simp [PodState.key])]
        refine List.filter_eq_self.mpr fun k hk => decide_eq_true fun hname => ?_
        -- no later pod has the name of the first
        have hk' : k ∈ c.keys v := by rw [hks]; exact List.mem_cons_of_mem _ hk
        have hkey := h.key_of_name hdistinct hk' hknown (Option.some.inj hname)
        have hlt := hlater k hk
        rw [hkey] at hlt
        exact lt_irrefl _ hlt
      · refine Or.inl (hsame fun k hk hname => hp ?_)
        rw [htarget] at hname
        rwa [← h.key_of_name hdistinct hk hknown (Option.some.inj hname)]

/-! ## An AZ outage is over -/

/-- Up to three pods. -/
theorem three_le_failOver (h : c.Ordered) :
    3 ≤ (((Effect.failOver v).run suffix l c).2.keys v).length := by
  show 3 ≤ List.length (((c.modifyPods v _).addPods suffix v _).keys v)
  unfold Cluster.keys
  rw [List.length_map, Cluster.length_addPods, Cluster.desired_modifyPods, h.desired]
  omega

theorem Thread.Spare.failOver (h : t.Spare c) (hordered : c.Ordered) :
    t.Spare ((Effect.failOver v).run suffix l c).2 := by
  intro v' p hmem hp hne hkey
  by_cases hv : v' = v
  · subst hv
    exact three_le_failOver hordered
  · rw [keys_failOver_of_ne hv] at hkey ⊢
    exact h v' p hmem hp hne hkey

/-! ## Every effect keeps the invariant -/

section Keep

variable {ts : List Thread} {i : Nat} {e : Effect} {es : List Effect}

/-- What holds of every other thread, and of its own where it neither picks nor schedules. -/
theorem Thread.Spare.run (h : t.Spare c) (hpicked : t.Picked c) (hordered : c.Ordered)
    (hdistinct : c.created.Nodup) (hmine : (⟨l, e :: es⟩ : Thread).Picked c) :
    t.Spare (e.run suffix l c).2 := by
  cases hplace : e.inPlace with
  | true => exact h.of_sameKeys (sameKeys_run suffix l c hplace).2.2
  | false =>
      cases e with
      | pick v orElse => exact h
      | schedule v => exact h.addPod .pending false hpicked
      | failOver v => exact h.failOver hordered
      | remove v =>
          rcases remove_cases hordered hdistinct hmine with hsame | ⟨p, ks, hp, hks, hlt, htail, hothers⟩
          · exact h.of_sameKeys hsame
          · intro v' p' hremove hp' hne hkey
            by_cases hv : v' = v
            · subst hv
              -- whoever else takes out a pod of the service has not picked a later one
              rw [htail] at hkey
              have hle := hpicked.oldest v' p' hremove hp' p.key (by rw [hks]; exact List.mem_cons_self)
              exact absurd (hlt _ hkey) (not_lt.mpr hle)
            · rw [hothers v' hv] at hkey ⊢
              exact h v' p' hremove hp' hne hkey
      | _ => cases hplace

theorem Thread.Spare.next (h : (⟨l, e :: es⟩ : Thread).Spare c)
    (hpicked : (⟨l, e :: es⟩ : Thread).Picked c) (hplaced : (⟨l, e :: es⟩ : Thread).Placed)
    (hordered : c.Ordered) (hdistinct : c.created.Nodup) (htwo : ∀ v, 2 ≤ (c.keys v).length) :
    (⟨(e.run suffix l c).1, es⟩ : Thread).Spare (e.run suffix l c).2 := by
  cases hplace : e.inPlace with
  | true =>
      obtain ⟨htarget, hmade, hsame⟩ := sameKeys_run suffix l c hplace
      exact (h.later htarget hmade).of_sameKeys hsame
  | false =>
      cases e with
      | pick v orElse =>
          have hmade : l.made = [] := hplaced.unmade ⟨_, List.mem_cons_self, rfl⟩
          exact fun _ _ _ _ hne => absurd hmade hne
      | schedule v =>
          -- the two pods there were, and the new one
          intro v' p hremove _ _ _
          obtain ⟨hones, _⟩ := Bool.and_eq_true_iff.mp hplaced.oneService
          have hone := List.all_eq_true.mp (Bool.and_eq_true_iff.mp hones).1 _ hremove
          have hv : v' = v := of_decide_eq_true hone
          subst hv
          have hthere := htwo v'
          show 3 ≤ List.length ((c.addPod suffix v' .pending false).keys v')
          rw [keys_addPod, if_pos rfl, List.length_append, List.length_singleton]
          omega
      | failOver v => exact (h.later rfl rfl).run (hpicked.later rfl) hordered hdistinct hpicked
      | remove v => exact (h.later rfl rfl).run (hpicked.later rfl) hordered hdistinct hpicked
      | _ => cases hplace

/-- Two pods are left. -/
theorem two_run (htwo : ∀ v, 2 ≤ (c.keys v).length) (hspare : (⟨l, e :: es⟩ : Thread).Spare c)
    (hpicked : (⟨l, e :: es⟩ : Thread).Picked c) (hplaced : (⟨l, e :: es⟩ : Thread).Placed)
    (hordered : c.Ordered) (hdistinct : c.created.Nodup) (v : ServiceName) :
    2 ≤ ((e.run suffix l c).2.keys v).length := by
  cases hplace : e.inPlace with
  | true =>
      rw [(sameKeys_run suffix l c hplace).2.2.keys]
      exact htwo v
  | false =>
      cases e with
      | pick v' orElse => exact htwo v
      | schedule v' => exact (htwo v).trans (length_keys_addPod_le .pending false)
      | failOver v' =>
          by_cases hv : v = v'
          · subst hv
            have hthree : 3 ≤ (((Effect.failOver v).run suffix l c).2.keys v).length :=
              three_le_failOver hordered
            omega
          · rw [keys_failOver_of_ne hv]
            exact htwo v
      | remove v' =>
          rcases remove_cases hordered hdistinct hpicked with hsame | ⟨p, ks, hp, hks, _, htail, hothers⟩
          · rw [hsame.keys]
            exact htwo v
          · by_cases hv : v = v'
            · subst hv
              -- its replacement is scheduled, so there are two others
              have hmade : l.made ≠ [] := fun hnone => by cases hplaced.schedulesFirst hnone
              have hthree := hspare v p List.mem_cons_self hp hmade
                (by rw [hks]; exact List.mem_cons_self)
              rw [hks, List.length_cons] at hthree
              rw [htail]
              omega
            · rw [hothers v hv]
              exact htwo v
      | _ => cases hplace

theorem populated_invariant : EffectInvariant suffix (NamesDiffer suffix) Populated where
  start := by
    intro c ts a h
    refine ⟨(queued_invariant suffix).start c ts a h.queued, h.distinct, h.two, fun t ht => ?_⟩
    rcases List.mem_append.mp ht with ht | ht
    · exact h.spare t ht
    · cases List.mem_singleton.mp ht
      exact fun _ _ _ hp => by cases hp
  stop := by
    intro c ts i l e es stop hi hstops h
    exact ⟨(queued_invariant suffix).stop c ts i l e es stop hi hstops h.queued, h.distinct, h.two,
      Slots.forall_mem_set h.spare i fun _ _ hremove => absurd hremove List.not_mem_nil⟩
  effect := by
    intro c ts i l e es hi hgo hdistinct h
    have hmem := List.mem_of_getElem? hi
    have hpicked := h.queued.picked _ hmem
    have hplaced := h.queued.placed _ hmem
    have hordered := h.queued.ordered
    exact {
      queued := (queued_invariant suffix).effect c ts i l e es hi hgo trivial h.queued
      distinct := hdistinct
      two := two_run h.two (h.spare _ hmem) hpicked hplaced hordered h.distinct
      spare := Slots.forall_mem_set
        (fun t ht => (h.spare t ht).run (h.queued.picked t ht) hordered h.distinct hpicked) i
        ((h.spare _ hmem).next hpicked hplaced hordered h.distinct h.two) }

end Keep

/-! ## Before the first action -/

theorem populated_start (h : (Cluster.start suffix).created.Nodup) :
    Populated (Cluster.start suffix) [] where
  queued := queued_start
  distinct := h
  two := fun v => by rw [length_keys_start]; omega
  spare := fun _ ht => absurd ht List.not_mem_nil

/-! ## Names stay given -/

theorem created_run (e : Effect) : c.created <+: (e.run suffix l c).2.created := by
  cases e with
  | schedule v => exact List.prefix_append _ _
  | failOver v =>
      exact Cluster.addPods_induction _ v suffix (P := fun c' => c.created <+: c'.created)
        (fun c' h => h.trans (List.prefix_append _ _)) _ List.prefix_rfl
  | metric v m op => exact List.prefix_rfl
  | healthy v b => exact List.prefix_rfl
  | pick v orElse => exact List.prefix_rfl
  | terminate v => exact List.prefix_rfl
  | unready v => exact List.prefix_rfl
  | create v => exact List.prefix_rfl
  | ready v => exact List.prefix_rfl
  | remove v => exact List.prefix_rfl
  | promote v => exact List.prefix_rfl
  | cut v => exact List.prefix_rfl

theorem created_runEffects (es : List Effect) (l : Locals) (c : Cluster) :
    c.created <+: (runEffects suffix es l c).2.2.created := by
  induction es generalizing l c with
  | nil => exact List.prefix_rfl
  | cons e es ih =>
      unfold runEffects
      cases e.stops c with
      | some stop => exact List.prefix_rfl
      | none => exact (created_run e).trans (ih _ _)

/-- Names that differ in the end have differed all along. -/
theorem guarded_namesDiffer {es : List Effect} {l : Locals} {c : Cluster}
    (h : (runEffects suffix es l c).2.2.created.Nodup) : Guarded suffix (NamesDiffer suffix) es l c := by
  induction es generalizing l c with
  | nil => trivial
  | cons e es ih =>
      unfold runEffects at h
      cases hstops : e.stops c with
      | some stop =>
          refine ⟨?_, fun hgo => by rw [hstops] at hgo; cases hgo⟩
          -- only a pick ends an action, and it gives no name
          cases e with
          | pick v orElse =>
              rw [hstops] at h
              exact h
          | _ => cases hstops
      | none =>
          rw [hstops] at h
          exact ⟨h.sublist (created_runEffects es _ _).sublist, fun _ => ih h⟩

theorem step_namesDiffer {w w' : Scenario} {e : ScenarioEvent} (hs : w.step suffix e = some w')
    (h : w'.cluster.created.Nodup) :
    w.cluster.created.Nodup ∧ w.StepGuarded suffix (NamesDiffer suffix) e := by
  obtain ⟨i, call, _, hcluster, _, hguarded⟩ := Scenario.step_cases hs
  rw [hcluster] at h
  unfold Call.resume at h
  rw [hguarded]
  cases hrest : call.rest with
  | nil =>
      rw [hrest] at h
      exact ⟨h, fun _ hsegment => by cases hsegment⟩
  | cons segment rest =>
      rw [hrest] at h
      refine ⟨h.sublist (created_runEffects segment call.locals w.cluster).sublist, ?_⟩
      intro segment' hsegment
      cases hsegment
      exact guarded_namesDiffer h

/-! ## Every run -/

theorem Populated.pods_ne_nil {ts : List Thread} (h : Populated c ts) (v : ServiceName) :
    c.pods v ≠ [] := by
  intro hnil
  have htwo := h.two v
  unfold Cluster.keys at htwo
  rw [hnil] at htwo
  cases htwo

theorem Populated.goes_on {ts : List Thread} (h : Populated c ts) (e : Effect) : e.stops c = none := by
  cases e with
  | pick v orElse => exact if_neg (h.pods_ne_nil v)
  | _ => rfl

/-- **A service never runs out of pods**, whatever actions overlap and however, so none of them ends
for want of one. -/
theorem services_keep_pods {es : List ScenarioEvent} {w : Scenario}
    (h : exec (Scenario.step suffix) (Scenario.init suffix) es = some w)
    (hnames : w.cluster.created.Nodup) :
    (∀ v, w.cluster.pods v ≠ []) ∧ ∀ call ∈ w.calls, call.stopped = none := by
  obtain ⟨hstart, hmeets⟩ := meets_of_last (Q := fun w => w.cluster.created.Nodup)
    (fun _ _ _ hs h => step_namesDiffer hs h) h hnames
  have hall : Populated w.cluster w.threads ∧ ∀ call ∈ w.calls, call.stopped = none := by
    refine exec_invariant
      (I := fun w => Populated w.cluster w.threads ∧ ∀ call ∈ w.calls, call.stopped = none)
      (fun w e w' hI hG hs => ?_) ⟨populated_start hstart, fun _ hcall => absurd hcall List.not_mem_nil⟩
      hmeets h
    exact ⟨populated_invariant.step hG hI.1 hs,
      populated_invariant.step_stop (fun _ _ e h => h.goes_on e) hG hI.1 hI.2 hs⟩
  exact ⟨hall.1.pods_ne_nil, hall.2⟩

/-- A spot node is reclaimed while a pod of the same service is killed: both have picked the same pod. -/
def reclaimAndKill : List ScenarioEvent :=
  [.start .spotReclaim, .resume 0, .start (.killPod .apiGateway)] ++ List.replicate 4 (.resume 0)
    ++ List.replicate 9 (.resume 1)

theorem reclaimAndKill_keeps_pods : ∃ w : Scenario,
    exec (Scenario.step Nat.repr) (Scenario.init Nat.repr) reclaimAndKill = some w
      ∧ (∀ call ∈ w.calls, call.rest = [])
      ∧ (∀ v, w.cluster.pods v ≠ []) ∧ ∀ call ∈ w.calls, call.stopped = none := by
  have hrun : ((exec (Scenario.step Nat.repr) (Scenario.init Nat.repr) reclaimAndKill).any fun w =>
      decide (w.cluster.created.Nodup ∧ ∀ call ∈ w.calls, call.rest = [])) = true := by decide
  obtain ⟨w, hw, hboth⟩ := (Option.any_eq_true _ _).mp hrun
  obtain ⟨hnames, hrest⟩ := of_decide_eq_true hboth
  exact ⟨w, hw, hrest, services_keep_pods hw hnames⟩

end Microservices.Chaos
