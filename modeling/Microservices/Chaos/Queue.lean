import Microservices.Chaos.Scenario

/-!
# Pods queue up

A pod list is in the order of creation: pods are appended, and taken out. An action picks
the first pod of a list, so a picked pod that is still there is still the first one.
-/

namespace Microservices.Chaos

def PodState.key (p : PodState) : Nat × String := (p.id, p.name)

/-- The identities and names of the pods of a service. -/
def Cluster.keys (c : Cluster) (v : ServiceName) : List (Nat × String) :=
  (c.pods v).map PodState.key

/-! ## What is read off the text of an action -/

namespace Effect

def removes : Effect → Option ServiceName
  | .remove v => some v
  | _ => none

def picks : Effect → Bool
  | .pick .. => true
  | _ => false

/-- The effect leaves what pods there are. -/
def inPlace : Effect → Bool
  | .pick .. | .schedule _ | .remove _ | .failOver _ => false
  | _ => true

/-- The effect may append pods. -/
def appends : Effect → Bool
  | .schedule _ | .failOver _ => true
  | _ => false

end Effect

/-- What is taken out is of the service that is picked from and scheduled in, and nothing is picked
once a pod is scheduled. -/
def oneService : List Effect → Bool
  | [] => true
  | .pick v _ :: es => es.all (fun e => e.removes.all (· = v)) && oneService es
  | .schedule v :: es =>
      es.all (fun e => e.removes.all (· = v)) && es.all (fun e => !e.picks) && oneService es
  | _ :: es => oneService es

/-- Before anything is taken out a pod is scheduled. -/
def schedulesFirst : List Effect → Bool
  | [] => true
  | .schedule _ :: _ => true
  | .remove _ :: _ => false
  | _ :: es => schedulesFirst es

theorem effects_oneService (a : Action) : oneService a.effects = true := by
  cases a <;> first | rfl | (rename_i v; cases v <;> rfl)

theorem effects_schedulesFirst (a : Action) : schedulesFirst a.effects = true := by
  cases a <;> rfl

/-! ## The invariant -/

/-- The lists are in the order of creation. -/
structure Cluster.Ordered (c : Cluster) : Prop where
  ids : ∀ v, ((c.keys v).map Prod.fst).Pairwise (· < ·)
  known : ∀ v, ∀ k ∈ c.keys v, c.created[k.1]? = some k.2
  desired : ∀ v, c.desired v = 3

/-- The picked pod is a known one, and if it is to be taken out no pod is older. -/
structure Thread.Picked (t : Thread) (c : Cluster) : Prop where
  known : ∀ p, t.locals.target = some p → c.created[p.id]? = some p.name
  oldest : ∀ v p, .remove v ∈ t.left → t.locals.target = some p → ∀ k ∈ c.keys v, p.id ≤ k.1

/-- Where the thread is in the text of its action. -/
structure Thread.Placed (t : Thread) : Prop where
  oneService : oneService t.left = true
  schedulesFirst : t.locals.made = [] → schedulesFirst t.left = true
  unmade : (∃ e ∈ t.left, e.picks = true) → t.locals.made = []

structure Queued (c : Cluster) (ts : List Thread) : Prop where
  ordered : c.Ordered
  picked : ∀ t ∈ ts, t.Picked c
  placed : ∀ t ∈ ts, t.Placed

variable {suffix : Nat → String} {c c' : Cluster} {v v' : ServiceName} {l : Locals} {t : Thread}

/-! ## Effects that leave what pods there are -/

/-- The same pods, in whatever phases. -/
structure Cluster.SameKeys (c c' : Cluster) : Prop where
  created : c'.created = c.created
  keys : ∀ v, c'.keys v = c.keys v
  desired : ∀ v, c'.desired v = c.desired v

/-- Some of the same pods. -/
structure Cluster.FewerKeys (c c' : Cluster) : Prop where
  created : c'.created = c.created
  keys : ∀ v, (c'.keys v).Sublist (c.keys v)
  desired : ∀ v, c'.desired v = c.desired v

theorem Cluster.SameKeys.fewerKeys (h : c.SameKeys c') : c.FewerKeys c' where
  created := h.created
  keys := fun v => by rw [h.keys]
  desired := h.desired

theorem sameKeys_modifyPods {f : List PodState → List PodState}
    (h : ∀ pods : List PodState, (f pods).map PodState.key = pods.map PodState.key) :
    c.SameKeys (c.modifyPods v f) where
  created := rfl
  keys := by
    intro v'
    unfold Cluster.keys
    rw [Cluster.pods_modifyPods]
    split
    · exact h _
    · rfl
  desired := fun v' => Cluster.desired_modifyPods c v v' f

theorem sameKeys_modifyPod {id : Option Nat} {f : PodState → PodState}
    (h : ∀ p, (f p).key = p.key) : c.SameKeys (c.modifyPod v id f) := by
  refine sameKeys_modifyPods fun pods => ?_
  rw [List.map_map]
  refine List.map_congr_left fun p _ => ?_
  show (if some p.id = id then f p else p).key = p.key
  split
  · exact h p
  · rfl

theorem keys_promoteLast (pods : List PodState) :
    (promoteLast pods).map PodState.key = pods.map PodState.key := by
  rw [promoteLast, List.map_append, List.map_map]
  show _ ++ (pods.drop _).map PodState.key = _
  rw [← List.map_append, List.take_append_drop]

theorem keys_cutHalf (pods : List PodState) :
    (cutHalf pods).map PodState.key = pods.map PodState.key := by
  refine List.ext_getElem? fun n => ?_
  rw [cutHalf, List.getElem?_map, List.getElem?_mapIdx, List.getElem?_map, Option.map_map]
  refine congrArg (fun f => Option.map f pods[n]?) (funext fun p => ?_)
  show (if n % 2 = 0 then _ else p : PodState).key = p.key
  split <;> rfl

theorem sameKeys_run (suffix : Nat → String) (l : Locals) (c : Cluster) {e : Effect} (h : e.inPlace = true) :
    (e.run suffix l c).1.target = l.target ∧ (e.run suffix l c).1.made = l.made
      ∧ c.SameKeys (e.run suffix l c).2 := by
  cases e with
  | metric v m op =>
      refine ⟨rfl, rfl, rfl, fun v' => ?_, fun v' => ?_⟩
      · exact congrArg _ (Cluster.pods_setMetric c v v' m _)
      · exact Cluster.desired_setMetric c v v' m _
  | healthy v b =>
      refine ⟨rfl, rfl, rfl, fun v' => ?_, fun v' => ?_⟩
      · exact congrArg _ (Cluster.pods_setHealthy c v v' b)
      · exact Cluster.desired_setHealthy c v v' b
  | terminate v => exact ⟨rfl, rfl, sameKeys_modifyPod fun _ => rfl⟩
  | unready v => exact ⟨rfl, rfl, sameKeys_modifyPod fun _ => rfl⟩
  | create v => exact ⟨rfl, rfl, sameKeys_modifyPod fun _ => rfl⟩
  | ready v => exact ⟨rfl, rfl, sameKeys_modifyPod fun _ => rfl⟩
  | promote v => exact ⟨rfl, rfl, sameKeys_modifyPods keys_promoteLast⟩
  | cut v => exact ⟨rfl, rfl, sameKeys_modifyPods keys_cutHalf⟩
  | pick v orElse => cases h
  | schedule v => cases h
  | remove v => cases h
  | failOver v => cases h

theorem Cluster.Ordered.of_fewerKeys (h : c.Ordered) (hfewer : c.FewerKeys c') : c'.Ordered where
  ids := fun v => (h.ids v).sublist ((hfewer.keys v).map Prod.fst)
  known := by
    intro v k hk
    rw [hfewer.created]
    exact h.known v k ((hfewer.keys v).subset hk)
  desired := fun v => (hfewer.desired v).trans (h.desired v)

theorem Thread.Picked.of_fewerKeys (h : t.Picked c) (hfewer : c.FewerKeys c') : t.Picked c' where
  known := by rw [hfewer.created]; exact h.known
  oldest := fun v p hmem hp k hk => h.oldest v p hmem hp k ((hfewer.keys v).subset hk)

/-! ## A new pod -/

section New

variable (phase : Phase) (ready : Bool)

theorem keys_addPod : (c.addPod suffix v phase ready).keys v'
    = if v' = v then c.keys v' ++ [(c.created.length, podName v (suffix c.created.length))]
      else c.keys v' := by
  unfold Cluster.keys
  rw [Cluster.pods_addPod]
  split
  · rw [List.map_append]
    rfl
  · rfl

theorem Cluster.Ordered.id_lt (h : c.Ordered) {k : Nat × String} (hk : k ∈ c.keys v) :
    k.1 < c.created.length :=
  (List.getElem?_eq_some_iff.mp (h.known v k hk)).1

theorem Cluster.Ordered.addPod (h : c.Ordered) : (c.addPod suffix v phase ready).Ordered where
  ids := by
    intro v'
    rw [keys_addPod]
    split
    · rw [List.map_append, List.pairwise_append]
      refine ⟨h.ids v', List.pairwise_singleton _ _, ?_⟩
      intro a ha b hb
      obtain ⟨k, hk, rfl⟩ := List.mem_map.mp ha
      cases List.mem_singleton.mp hb
      exact h.id_lt hk
    · exact h.ids v'
  known := by
    intro v' k hk
    rw [Cluster.created_addPod]
    rw [keys_addPod] at hk
    have hold : k ∈ c.keys v' → (c.created ++ [podName v (suffix c.created.length)])[k.1]? = some k.2 := by
      intro hk
      rw [List.getElem?_append_left (h.id_lt hk)]
      exact h.known v' k hk
    split at hk
    · rcases List.mem_append.mp hk with hk | hk
      · exact hold hk
      · cases List.mem_singleton.mp hk
        exact List.getElem?_concat_length
    · exact hold hk
  desired := fun v' => (Cluster.desired_addPod c v v' suffix phase ready).trans (h.desired v')

theorem Thread.Picked.addPod (h : t.Picked c) : t.Picked (c.addPod suffix v phase ready) where
  known := by
    intro p hp
    have hknown := h.known p hp
    rw [Cluster.created_addPod, List.getElem?_append_left (List.getElem?_eq_some_iff.mp hknown).1]
    exact hknown
  oldest := by
    intro v' p hmem hp k hk
    rw [keys_addPod] at hk
    split at hk
    · rcases List.mem_append.mp hk with hk | hk
      · exact h.oldest v' p hmem hp k hk
      · cases List.mem_singleton.mp hk
        exact le_of_lt (List.getElem?_eq_some_iff.mp (h.known p hp)).1
    · exact h.oldest v' p hmem hp k hk

theorem length_keys_addPod_le : (c.keys v').length ≤ ((c.addPod suffix v phase ready).keys v').length := by
  rw [keys_addPod]
  split
  · rw [List.length_append]
    omega
  · exact le_rfl

end New

/-! ## A removal, and an outage that is over -/

/-- The keys without a name. -/
theorem keys_modifyPods_filter (name : Option String) :
    (c.modifyPods v fun pods => pods.filter fun p => some p.name ≠ name).keys v'
      = if v' = v then (c.keys v').filter fun k => some k.2 ≠ name else c.keys v' := by
  unfold Cluster.keys
  rw [Cluster.pods_modifyPods]
  split
  · rw [List.filter_map]
    rfl
  · rfl

theorem fewerKeys_modifyPods_filter (f : PodState → Bool) :
    c.FewerKeys (c.modifyPods v fun pods => pods.filter f) where
  created := rfl
  keys := by
    intro v'
    unfold Cluster.keys
    rw [Cluster.pods_modifyPods]
    split
    · exact List.filter_sublist.map PodState.key
    · exact List.Sublist.refl _
  desired := fun v' => Cluster.desired_modifyPods c v v' _

theorem picked_addPods {n : Nat} (h : t.Picked c) : t.Picked (c.addPods suffix v n) :=
  Cluster.addPods_induction c v suffix (P := fun c => t.Picked c)
    (fun _ h => h.addPod .running true) n h

theorem ordered_addPods {n : Nat} (h : c.Ordered) : (c.addPods suffix v n).Ordered :=
  Cluster.addPods_induction c v suffix (P := Cluster.Ordered) (fun _ h => h.addPod .running true) n h

theorem keys_addPods_of_ne {n : Nat} (hv : v' ≠ v) : (c.addPods suffix v n).keys v' = c.keys v' :=
  Cluster.addPods_induction c v suffix (P := fun c' => c'.keys v' = c.keys v')
    (fun c' h => by rw [keys_addPod, if_neg hv, h]) n rfl

theorem keys_failOver_of_ne (hv : v' ≠ v) :
    ((Effect.failOver v).run suffix l c).2.keys v' = c.keys v' := by
  refine (keys_addPods_of_ne hv).trans ?_
  unfold Cluster.keys
  rw [Cluster.pods_modifyPods, if_neg hv]

/-! ## Every effect keeps the invariant -/

section Keep

variable {e : Effect} {es : List Effect}

theorem fewerKeys_run (h : e.appends = false) : c.FewerKeys (e.run suffix l c).2 := by
  cases e with
  | schedule v => cases h
  | failOver v => cases h
  | pick v orElse => exact ⟨rfl, fun _ => List.Sublist.refl _, fun _ => rfl⟩
  | remove v => exact fewerKeys_modifyPods_filter fun p => some p.name ≠ l.target.map PodState.name
  | metric v m op => exact (sameKeys_run suffix l c rfl).2.2.fewerKeys
  | healthy v b => exact (sameKeys_run suffix l c rfl).2.2.fewerKeys
  | terminate v => exact (sameKeys_run suffix l c rfl).2.2.fewerKeys
  | unready v => exact (sameKeys_run suffix l c rfl).2.2.fewerKeys
  | create v => exact (sameKeys_run suffix l c rfl).2.2.fewerKeys
  | ready v => exact (sameKeys_run suffix l c rfl).2.2.fewerKeys
  | promote v => exact (sameKeys_run suffix l c rfl).2.2.fewerKeys
  | cut v => exact (sameKeys_run suffix l c rfl).2.2.fewerKeys

theorem Cluster.Ordered.run (h : c.Ordered) (e : Effect) : (e.run suffix l c).2.Ordered := by
  cases happends : e.appends with
  | false => exact h.of_fewerKeys (fewerKeys_run happends)
  | true =>
      cases e with
      | schedule v => exact h.addPod .pending false
      | failOver v =>
          exact ordered_addPods (h.of_fewerKeys (fewerKeys_modifyPods_filter fun p => p.phase ≠ .terminating))
      | _ => cases happends

theorem Thread.Picked.run (h : t.Picked c) (e : Effect) : t.Picked (e.run suffix l c).2 := by
  cases happends : e.appends with
  | false => exact h.of_fewerKeys (fewerKeys_run happends)
  | true =>
      cases e with
      | schedule v => exact h.addPod .pending false
      | failOver v =>
          exact picked_addPods (h.of_fewerKeys (fewerKeys_modifyPods_filter fun p => p.phase ≠ .terminating))
      | _ => cases happends

theorem target_run (h : e.picks = false) : (e.run suffix l c).1.target = l.target := by
  cases e with
  | pick v orElse => cases h
  | _ => rfl

/-- Effects go by; the target stays. -/
theorem Thread.Picked.later {l' : Locals} (h : (⟨l, e :: es⟩ : Thread).Picked c)
    (htarget : l'.target = l.target) : (⟨l', es⟩ : Thread).Picked c where
  known := fun p hp => h.known p (htarget.symm.trans hp)
  oldest := fun v p hmem hp => h.oldest v p (List.mem_cons_of_mem e hmem) (htarget.symm.trans hp)

/-- What is picked is known, and the oldest there is. -/
theorem Cluster.Ordered.picked (h : c.Ordered) {orElse : Stop}
    (hplaced : (⟨l, .pick v orElse :: es⟩ : Thread).Placed) :
    (⟨{ l with target := (c.pods v).head? }, es⟩ : Thread).Picked c := by
  have hone := (Bool.and_eq_true_iff.mp hplaced.oneService).1
  have hkey {p : PodState} (hp : (c.pods v).head? = some p) : c.keys v = p.key :: (c.keys v).tail := by
    unfold Cluster.keys
    rw [List.head?_eq_some_iff] at hp
    obtain ⟨pods, hpods⟩ := hp
    rw [hpods]
    rfl
  refine ⟨fun p hp => h.known v p.key (by rw [hkey hp]; exact List.mem_cons_self), ?_⟩
  intro v' p hremove hp k hk
  have hv : v' = v := of_decide_eq_true (List.all_eq_true.mp hone _ hremove)
  subst hv
  rw [hkey hp] at hk
  rcases List.mem_cons.mp hk with rfl | hk
  · exact le_rfl
  · have hids := h.ids v'
    rw [hkey hp, List.map_cons, List.pairwise_cons] at hids
    exact le_of_lt (hids.1 _ (List.mem_map_of_mem hk))

theorem Thread.Picked.next (h : (⟨l, e :: es⟩ : Thread).Picked c) (hordered : c.Ordered)
    (hplaced : (⟨l, e :: es⟩ : Thread).Placed) :
    (⟨(e.run suffix l c).1, es⟩ : Thread).Picked (e.run suffix l c).2 := by
  cases hpicks : e.picks with
  | false => exact (h.later (target_run hpicks)).run e
  | true =>
      cases e with
      | pick v orElse => exact hordered.picked hplaced
      | _ => cases hpicks

theorem Thread.Placed.next (h : (⟨l, e :: es⟩ : Thread).Placed) :
    (⟨(e.run suffix l c).1, es⟩ : Thread).Placed := by
  have hunmade : (∃ e' ∈ es, e'.picks = true) → l.made = [] :=
    fun ⟨e', he', hpicks⟩ => h.unmade ⟨e', List.mem_cons_of_mem e he', hpicks⟩
  cases e with
  | pick v orElse => exact ⟨(Bool.and_eq_true_iff.mp h.oneService).2, h.schedulesFirst, hunmade⟩
  | schedule v =>
      obtain ⟨hones, hrest⟩ := Bool.and_eq_true_iff.mp h.oneService
      refine ⟨hrest, fun hnone => absurd hnone (List.cons_ne_nil _ _), ?_⟩
      -- nothing is picked any more
      rintro ⟨e', he', hpicks⟩
      have hnot := List.all_eq_true.mp (Bool.and_eq_true_iff.mp hones).2 e' he'
      rw [hpicks] at hnot
      cases hnot
  | remove v => exact ⟨h.oneService, fun hnone => (by cases h.schedulesFirst hnone), hunmade⟩
  | _ => exact ⟨h.oneService, h.schedulesFirst, hunmade⟩

theorem queued_invariant (suffix : Nat → String) : EffectInvariant suffix (fun _ _ _ => True) Queued where
  start := by
    intro c ts a h
    refine ⟨h.ordered, fun t ht => ?_, fun t ht => ?_⟩
    · rcases List.mem_append.mp ht with ht | ht
      · exact h.picked t ht
      · cases List.mem_singleton.mp ht
        exact ⟨fun _ hp => (by cases hp), fun _ _ _ hp => (by cases hp)⟩
    · rcases List.mem_append.mp ht with ht | ht
      · exact h.placed t ht
      · cases List.mem_singleton.mp ht
        exact ⟨effects_oneService a, fun _ => effects_schedulesFirst a, fun _ => rfl⟩
  stop := by
    intro c ts i l e es stop hi _ h
    exact ⟨h.ordered, Slots.forall_mem_set h.picked i ⟨(h.picked _ (List.mem_of_getElem? hi)).known,
        fun _ _ hremove => absurd hremove List.not_mem_nil⟩,
      Slots.forall_mem_set h.placed i ⟨rfl, fun _ => rfl, fun ⟨_, he, _⟩ => absurd he List.not_mem_nil⟩⟩
  effect := by
    intro c ts i l e es hi _ _ h
    have hmem := List.mem_of_getElem? hi
    exact ⟨h.ordered.run e,
      Slots.forall_mem_set (fun t ht => (h.picked t ht).run e) i
        ((h.picked _ hmem).next h.ordered (h.placed _ hmem)),
      Slots.forall_mem_set h.placed i (h.placed _ hmem).next⟩

end Keep

/-! ## Before the first action -/

theorem length_keys_start (v : ServiceName) : ((Cluster.start suffix).keys v).length = 3 := by
  cases v <;> rfl

theorem ordered_start : (Cluster.start suffix).Ordered :=
  ordered_addPods (ordered_addPods (ordered_addPods (ordered_addPods
    ⟨fun _ => List.Pairwise.nil, fun _ _ hk => absurd hk List.not_mem_nil, fun _ => rfl⟩)))

theorem queued_start : Queued (Cluster.start suffix) [] where
  ordered := ordered_start
  picked := fun _ ht => absurd ht List.not_mem_nil
  placed := fun _ ht => absurd ht List.not_mem_nil

end Microservices.Chaos
