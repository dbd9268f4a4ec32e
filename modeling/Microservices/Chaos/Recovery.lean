import Microservices.Chaos.HalfStarted
import Microservices.Chaos.Metrics

/-!
# After a sequence of actions

Actions run one after the other, each to its last line, from the initial state. Every
script undoes what it does to a metric, by the saved value, by the inverse factor or by
the constant it started from, but one: `cpu_pressure` takes a share off the rps in each
of its six rounds and never gives it back. It appends two pods as well, and takes none
out, for `desired_replicas` stays as it is.

A replacement takes out the picked pod by its name, and its namesakes with it. With names
drawn at random that can be more than one; an AZ outage fills up what is missing.
-/

namespace Microservices.Chaos

open Register

/-- The actions, one after the other. -/
def performAll (suffix : Nat → String) (as : List Action) (c : Cluster) : Cluster :=
  as.foldl (fun c a => a.perform suffix c) c

/-- As in the initial state, but for which pods there are. -/
structure Recovered (suffix : Nat → String) (c : Cluster) : Prop where
  healthy : ∀ v, c.healthy v = true
  full : ∀ v, (c.pods v).length = c.desired v
  up : ∀ v, ∀ p ∈ c.pods v, p.Up
  metric : ∀ v m, c.metric v m = (Cluster.start suffix).metric v m

/-- The service that the action replaces a pod of. -/
def Action.replaces : Action → Option ServiceName
  | .killPod v | .memoryLeak v | .diskFull v => some v
  | .spotReclaim => some .apiGateway
  | _ => none

/-- The picked pod has no namesake, the new pod included. -/
def Action.SparesNamesakes (suffix : Nat → String) (a : Action) (c : Cluster) : Prop :=
  ∀ v ∈ a.replaces, ∀ p ∈ (c.pods v).head?, podName v (suffix c.created.length) ≠ p.name
    ∧ ∀ q ∈ (c.pods v).tail, q.name ≠ p.name

/-- Every replacement spares namesakes, up to the last AZ outage at least. -/
def NamesakesSpared (suffix : Nat → String) : List Action → Cluster → Prop
  | [], _ => True
  | a :: as, c => (.regionOutage ∈ as ∨ a.SparesNamesakes suffix c)
      ∧ NamesakesSpared suffix as (a.perform suffix c)

/-! ## What is read off the texts -/

def nominal : Metric → ℚ
  | .latency => 45
  | .errorRate => 0.001
  | .rps => 80

def Action.presses (a : Action) : Bool :=
  match a with
  | .cpuPressure _ => true
  | _ => false

/-- By the texts, everything is back where it was. -/
def Action.restores (a : Action) : Bool :=
  ServiceName.all.all fun v =>
    (healthsAt v a.effects).getLast?.getD true
      && [Metric.latency, .errorRate, .rps].all fun m =>
        (runAlone (opsAt v m a.effects) (0, nominal m)).2 = nominal m

theorem effects_restore {a : Action} (h : a.presses = false) : a.restores = true := by
  cases a <;> first | cases h; done | decide +kernel | (rename_i v; cases v <;> decide +kernel)

/-- What an operation multiplies its register by, if that is all it does. -/
def factor : Op ℚ → Option ℚ
  | .times k => some k
  | _ => none

/-- What the action multiplies the rps of the service by. -/
def Action.rpsFactor (a : Action) (v : ServiceName) : ℚ := ((opsAt v .rps a.effects).filterMap factor).prod

/-- By the texts, the rps is scaled, never up, and down by a `cpu_pressure`. -/
def Action.scalesRps (a : Action) : Bool :=
  ServiceName.all.all fun v =>
    (opsAt v .rps a.effects).all (fun op => (factor op).isSome)
      && decide (0 < a.rpsFactor v ∧ a.rpsFactor v ≤ 1 ∧ (a = .cpuPressure v → a.rpsFactor v < 1))

theorem effects_scaleRps (a : Action) : a.scalesRps = true := by
  cases a <;> first | decide +kernel | (rename_i v; cases v <;> decide +kernel)

/-- Only the first effect may end the action. -/
theorem effects_pickFirst (a : Action) : a.effects.tail.all (fun e => !e.picks) = true := by
  cases a <;> rfl

theorem effects_promote {a : Action} (h : a.presses = false) :
    a.effects.all (fun e => !e.promotes) = true := by
  cases a <;> first | cases h; done | rfl

/-- What a replacement does to the list of pods. -/
theorem effects_replace {a : Action} {v : ServiceName} (h : v ∈ a.replaces) :
    ∃ orElse, a.effects.filter (fun e => !e.inPlace) = [.pick v orElse, .schedule v, .remove v] := by
  cases a <;> cases h <;> exact ⟨_, rfl⟩

/-- And what the others do. -/
theorem effects_others {a : Action} (hpress : a.presses = false) (h : a.replaces = none) :
    a.effects.all (fun e => e.inPlace || e.failsOver) = true
      ∧ ∀ v, .failOver v ∈ a.effects ↔ a = .regionOutage := by
  cases a <;> first
    | (cases hpress; done)
    | (cases h; done)
    | decide +kernel
    | (rename_i v; cases v <;> decide +kernel)

variable {suffix : Nat → String} {a : Action} {as : List Action} {c c' : Cluster} {v : ServiceName}
  {l l' : Locals}

/-! ## Through, or not at all -/

theorem goes_on {e : Effect} (h : e.picks = false) (c : Cluster) : e.stops c = none := by
  cases e with
  | pick v orElse => cases h
  | _ => rfl

theorem not_picks {e : Effect} (h : (e.inPlace || e.failsOver) = true) : e.picks = false := by
  cases e with
  | pick v orElse => cases h
  | _ => rfl

theorem runEffects_none {es : List Effect} (h : es.all (fun e => !e.picks) = true) (l : Locals)
    (c : Cluster) : (runEffects suffix es l c).1 = none := by
  induction es generalizing l c with
  | nil => rfl
  | cons e es ih =>
      obtain ⟨he, hes⟩ := Bool.and_eq_true_iff.mp h
      rw [runEffects, goes_on (by simpa using he) c]
      exact ih hes _ _

/-- Without pods an action that picks one ends before it has done anything. -/
theorem perform_cases (suffix : Nat → String) (a : Action) (c : Cluster) :
    (runEffects suffix a.effects {} c).1 = none ∨ a.perform suffix c = c ∧ a.presses = false := by
  unfold Action.perform
  have hpicks := effects_pickFirst a
  cases heffects : a.effects with
  | nil => exact Or.inl rfl
  | cons e es =>
      rw [heffects] at hpicks
      cases hstops : e.stops c with
      | none =>
          rw [runEffects, hstops]
          exact Or.inl (runEffects_none hpicks _ _)
      | some stop =>
          refine Or.inr ⟨by rw [runEffects, hstops], ?_⟩
          cases a with
          | cpuPressure v =>
              cases heffects
              cases hstops
          | _ => rfl

/-! ## The metrics -/

/-- The metrics and the flags of the initial state. -/
structure Cluster.Nominal (c : Cluster) : Prop where
  metric : ∀ v m, c.metric v m = nominal m
  healthy : ∀ v, c.healthy v = true

theorem nominal_start : (Cluster.start suffix).Nominal where
  metric := fun v m => by cases v <;> cases m <;> rfl
  healthy := fun v => by cases v <;> rfl

theorem nominal_perform (hpress : a.presses = false) (h : c.Nominal) : (a.perform suffix c).Nominal := by
  rcases perform_cases suffix a c with hnone | ⟨hsame, -⟩
  · have htext : ∀ v, (healthsAt v a.effects).getLast?.getD true = true
        ∧ ∀ m, (runAlone (opsAt v m a.effects) (0, nominal m)).2 = nominal m := by
      intro v
      obtain ⟨hhealth, hmetrics⟩ :=
        Bool.and_eq_true_iff.mp (List.all_eq_true.mp (effects_restore hpress) v v.mem_all)
      refine ⟨hhealth, fun m => of_decide_eq_true (List.all_eq_true.mp hmetrics m ?_)⟩
      cases m <;> simp
    constructor
    · intro v m
      have hcell := congrArg Prod.snd (cell_runEffects (v := v) (m := m) hnone)
      have hbefore : cell v m {} c = (0, nominal m) := Prod.ext rfl (h.metric v m)
      rw [hbefore, (htext v).2 m] at hcell
      exact hcell
    · intro v
      have hlast := healthy_runEffects (v := v) hnone
      rw [h.healthy v, (htext v).1] at hlast
      exact hlast
  · rw [hsame]
    exact h

theorem runAlone_factors {ops : List (Op ℚ)} (h : ops.all (fun op => (factor op).isSome) = true)
    (s : ℚ × ℚ) : (runAlone ops s).2 = s.2 * (ops.filterMap factor).prod := by
  induction ops generalizing s with
  | nil => exact (mul_one s.2).symm
  | cons op ops ih =>
      obtain ⟨hop, hops⟩ := Bool.and_eq_true_iff.mp h
      cases op with
      | times k =>
          rw [runAlone, ih hops, List.filterMap_cons_some (by rfl), List.prod_cons, ← mul_assoc]
          rfl
      | _ => cases hop

variable (suffix) in
/-- **The rps never goes up, and a `cpu_pressure` leaves it lower.** -/
theorem rps_perform (hpos : 0 < c.metric v .rps) :
    0 < (a.perform suffix c).metric v .rps ∧ (a.perform suffix c).metric v .rps ≤ c.metric v .rps
      ∧ (a = .cpuPressure v → (a.perform suffix c).metric v .rps < c.metric v .rps) := by
  obtain ⟨htimes, hfactor⟩ :=
    Bool.and_eq_true_iff.mp (List.all_eq_true.mp (effects_scaleRps a) v v.mem_all)
  obtain ⟨hfactorPos, hle, hlt⟩ := of_decide_eq_true hfactor
  rcases perform_cases suffix a c with hnone | ⟨hsame, hpress⟩
  · have hcell := congrArg Prod.snd (cell_runEffects (v := v) (m := .rps) hnone)
    rw [runAlone_factors htimes] at hcell
    have hrps : (a.perform suffix c).metric v .rps = c.metric v .rps * a.rpsFactor v := hcell
    rw [hrps]
    exact ⟨mul_pos hpos hfactorPos, mul_le_of_le_one_right hpos.le hle,
      fun ha => mul_lt_of_lt_one_right hpos (hlt ha)⟩
  · rw [hsame]
    refine ⟨hpos, le_refl _, fun ha => ?_⟩
    rw [ha] at hpress
    cases hpress

/-- What is taken off is never given back. -/
theorem rps_performAll (hpos : 0 < c.metric v .rps) :
    (performAll suffix as c).metric v .rps ≤ c.metric v .rps
      ∧ (.cpuPressure v ∈ as → (performAll suffix as c).metric v .rps < c.metric v .rps) := by
  induction as generalizing c with
  | nil => exact ⟨le_refl _, nofun⟩
  | cons a as ih =>
      obtain ⟨hpos', hle, hlt⟩ := rps_perform suffix (a := a) hpos
      obtain ⟨hle', hlt'⟩ := ih hpos'
      refine ⟨hle'.trans hle, fun hmem => ?_⟩
      rcases List.mem_cons.mp hmem with ha | hmem
      · exact lt_of_le_of_lt hle' (hlt ha.symm)
      · exact lt_of_lt_of_le (hlt' hmem) hle

/-! ## The pods of a replacement -/

/-- Two clusters with the same pods, seen from calls that have picked pods of one name. -/
def SameView (l l' : Locals) (c c' : Cluster) : Prop :=
  l.target.map PodState.name = l'.target.map PodState.name ∧ c.SameKeys c'

theorem keys_eq_nil : c.keys v = [] ↔ c.pods v = [] := List.map_eq_nil_iff

variable (suffix) in
theorem SameView.run {e : Effect} (hplace : e.inPlace = false) (hfails : e.failsOver = false)
    (h : SameView l l' c c') :
    e.stops c = e.stops c'
      ∧ SameView (e.run suffix l c).1 (e.run suffix l' c').1 (e.run suffix l c).2
        (e.run suffix l' c').2 := by
  obtain ⟨hname, hsame⟩ := h
  cases e with
  | pick v orElse =>
      have hempty : c.pods v = [] ↔ c'.pods v = [] := by
        rw [← keys_eq_nil, ← keys_eq_nil, hsame.keys]
      refine ⟨if_congr hempty rfl rfl, ?_, hsame⟩
      have hheads := congrArg (fun ks => ks.head?.map Prod.snd) (hsame.keys v)
      unfold Cluster.keys at hheads
      simp only [List.head?_map, Option.map_map] at hheads
      exact hheads.symm
  | schedule v =>
      refine ⟨rfl, hname, ?_, fun v' => ?_, fun v' => ?_⟩
      · show c'.created ++ _ = c.created ++ _
        rw [hsame.created]
      · show (c'.addPod suffix v .pending false).keys v' = (c.addPod suffix v .pending false).keys v'
        rw [keys_addPod, keys_addPod, hsame.keys, hsame.created]
      · show (c'.addPod suffix v .pending false).desired v' = (c.addPod suffix v .pending false).desired v'
        rw [Cluster.desired_addPod, Cluster.desired_addPod, hsame.desired]
  | remove v =>
      refine ⟨rfl, hname, hsame.created, fun v' => ?_, fun v' => ?_⟩
      · show (c'.modifyPods v _).keys v' = (c.modifyPods v _).keys v'
        rw [keys_modifyPods_filter, keys_modifyPods_filter, hsame.keys, hname]
      · show (c'.modifyPods v _).desired v' = (c.modifyPods v _).desired v'
        rw [Cluster.desired_modifyPods, Cluster.desired_modifyPods, hsame.desired]
  | failOver v => cases hfails
  | _ => cases hplace

theorem Cluster.SameKeys.trans {c'' : Cluster} (h : c.SameKeys c') (h' : c'.SameKeys c'') :
    c.SameKeys c'' where
  created := h'.created.trans h.created
  keys := fun v => (h'.keys v).trans (h.keys v)
  desired := fun v => (h'.desired v).trans (h.desired v)

variable (suffix) in
/-- What leaves the pods in place can be left out. -/
theorem SameView.runEffects {es : List Effect} (hes : es.all (fun e => !e.failsOver) = true)
    (h : SameView l l' c c') :
    (Chaos.runEffects suffix (es.filter fun e => !e.inPlace) l c).2.2.SameKeys
      (Chaos.runEffects suffix es l' c').2.2 := by
  induction es generalizing l l' c c' with
  | nil => exact h.2
  | cons e es ih =>
      obtain ⟨hfails, hes⟩ := Bool.and_eq_true_iff.mp hes
      cases hplace : e.inPlace with
      | true =>
          have hgo := goes_on (not_picks (by rw [hplace, Bool.true_or])) c'
          obtain ⟨htarget, -, hkeys⟩ := sameKeys_run suffix l' c' hplace
          rw [List.filter_cons_of_neg (by simp [hplace]), Chaos.runEffects, hgo]
          exact ih hes ⟨by rw [htarget]; exact h.1, h.2.trans hkeys⟩
      | false =>
          obtain ⟨hstops, hview⟩ := h.run suffix hplace (by simpa using hfails)
          rw [List.filter_cons_of_pos (by simp [hplace]), Chaos.runEffects, Chaos.runEffects, hstops]
          cases e.stops c' with
          | some stop => exact h.2
          | none => exact ih hes hview

theorem effects_replace_stay (h : v ∈ a.replaces) : a.effects.all (fun e => !e.failsOver) = true := by
  cases a <;> cases h <;> rfl

variable (suffix) in
/-- **What a replacement leaves**: the new pod and the others, without the picked one and its
namesakes. -/
theorem keys_replace (h : v ∈ a.replaces) (c : Cluster) :
    (∀ v' ≠ v, (a.perform suffix c).keys v' = c.keys v')
      ∧ (c.pods v = [] → (a.perform suffix c).keys v = [])
      ∧ ∀ p ps, c.pods v = p :: ps → (a.perform suffix c).keys v
        = (c.keys v ++ [(c.created.length, podName v (suffix c.created.length))]).filter
          fun k => k.2 ≠ p.name := by
  obtain ⟨orElse, htext⟩ := effects_replace h
  have hview : SameView ({} : Locals) {} c c := ⟨rfl, rfl, fun _ => rfl, fun _ => rfl⟩
  have hkeys := (hview.runEffects suffix (effects_replace_stay h)).keys
  rw [htext] at hkeys
  cases hpods : c.pods v with
  | nil =>
      have hstops : (Effect.pick v orElse).stops c = some orElse := if_pos hpods
      rw [runEffects, hstops] at hkeys
      refine ⟨fun v' _ => hkeys v', fun _ => (hkeys v).trans (keys_eq_nil.mpr hpods),
        fun _ _ hcons => absurd hcons (List.cons_ne_nil _ _).symm⟩
  | cons p ps =>
      have hgo : (Effect.pick v orElse).stops c = none := if_neg (by rw [hpods]; exact List.cons_ne_nil _ _)
      rw [runEffects, hgo] at hkeys
      have hafter : ∀ v', (a.perform suffix c).keys v'
          = (((c.addPod suffix v .pending false).modifyPods v fun pods =>
              pods.filter fun q => some q.name ≠ (c.pods v).head?.map PodState.name).keys v') := hkeys
      refine ⟨fun v' hv => ?_, fun hnil => absurd hnil (List.cons_ne_nil _ _), ?_⟩
      · rw [hafter, keys_modifyPods_filter, if_neg hv, keys_addPod, if_neg hv]
      · intro p' ps' hp
        cases hp
        rw [hafter, keys_modifyPods_filter, if_pos rfl, keys_addPod, if_pos rfl, hpods]
        refine List.filter_congr fun k _ => ?_
        simp

/-! ## How many there are -/

/-- The keys behind the first one, and that of the next pod. -/
def Cluster.otherKeys (suffix : Nat → String) (c : Cluster) (v : ServiceName) : List (Nat × String) :=
  (c.keys v).tail ++ [(c.created.length, podName v (suffix c.created.length))]

variable (suffix) in
theorem sparesNamesakes_iff {p : PodState} {ps : List PodState} (h : v ∈ a.replaces)
    (hpods : c.pods v = p :: ps) :
    a.SparesNamesakes suffix c ↔ ∀ k ∈ c.otherKeys suffix v, decide (k.2 ≠ p.name) = true := by
  have htail : (c.keys v).tail = ps.map PodState.key := by
    unfold Cluster.keys
    rw [hpods]
    rfl
  unfold Action.SparesNamesakes Cluster.otherKeys
  rw [h, htail]
  constructor
  · intro hspares k hk
    obtain ⟨hnew, hothers⟩ := hspares v rfl p (by rw [hpods]; rfl)
    rw [hpods, List.tail_cons] at hothers
    rcases List.mem_append.mp hk with hk | hk
    · obtain ⟨q, hq, rfl⟩ := List.mem_map.mp hk
      exact decide_eq_true (hothers q hq)
    · rw [List.mem_singleton.mp hk]
      exact decide_eq_true hnew
  · intro hall v' hv' q hq
    cases hv'
    rw [hpods] at hq ⊢
    cases hq
    refine ⟨of_decide_eq_true (hall _ (List.mem_append_right _ (List.mem_singleton_self _))), ?_⟩
    exact fun r hr => of_decide_eq_true (hall _ (List.mem_append_left _ (List.mem_map_of_mem hr)))

variable (suffix) in
/-- A replacement keeps the number of pods exactly if it spares namesakes. -/
theorem length_replace (h : v ∈ a.replaces) (hlen : (c.keys v).length ≤ 3) :
    ((a.perform suffix c).keys v).length ≤ 3
      ∧ (((a.perform suffix c).keys v).length = 3
        ↔ (c.keys v).length = 3 ∧ a.SparesNamesakes suffix c) := by
  obtain ⟨-, hnone, hsome⟩ := keys_replace suffix h c
  cases hpods : c.pods v with
  | nil =>
      rw [hnone hpods, keys_eq_nil.mpr hpods]
      simp
  | cons p ps =>
      have hbefore : c.keys v = p.key :: (c.keys v).tail := by
        unfold Cluster.keys
        rw [hpods]
        rfl
      have hafter : (a.perform suffix c).keys v
          = (c.otherKeys suffix v).filter fun k => k.2 ≠ p.name := by
        rw [hsome p ps hpods, hbefore, List.cons_append, List.filter_cons_of_neg (by simp [PodState.key])]
        rfl
      have hcount : (c.otherKeys suffix v).length = (c.keys v).length := by
        rw [Cluster.otherKeys, List.length_append, hbefore]
        rfl
      have hle := List.length_filter_le (fun k : Nat × String => decide (k.2 ≠ p.name))
        (c.otherKeys suffix v)
      have hall := List.length_filter_eq_length_iff.trans (sparesNamesakes_iff suffix h hpods).symm
      rw [← hafter] at hle hall
      rw [← hall]
      constructor
      · omega
      · omega

theorem length_failOver (hordered : c.Ordered) (hlen : (c.keys v).length ≤ 3) :
    (((Effect.failOver v).run suffix l c).2.keys v).length = 3 := by
  have hfewer : (((c.pods v).filter fun p => p.phase ≠ .terminating)).length ≤ 3 := by
    unfold Cluster.keys at hlen
    rw [List.length_map] at hlen
    exact (List.length_filter_le _ _).trans hlen
  show List.length (((c.modifyPods v _).addPods suffix v _).keys v) = 3
  unfold Cluster.keys
  rw [List.length_map, Cluster.length_addPods, Cluster.desired_modifyPods, hordered.desired,
    Cluster.pods_modifyPods_self]
  omega

theorem ordered_runEffects {es : List Effect} (h : c.Ordered) :
    (runEffects suffix es l c).2.2.Ordered := by
  induction es generalizing l c with
  | nil => exact h
  | cons e es ih =>
      rw [runEffects]
      cases e.stops c with
      | some stop => exact h
      | none => exact ih (h.run e)

variable (suffix) in
/-- An AZ outage brings every service up to three pods, and nothing else changes how many there are. -/
theorem length_runEffects {es : List Effect} (hes : es.all (fun e => e.inPlace || e.failsOver) = true)
    (hordered : c.Ordered) (hlen : ∀ v, (c.keys v).length ≤ 3) (v : ServiceName) :
    ((runEffects suffix es l c).2.2.keys v).length
      = if .failOver v ∈ es then 3 else (c.keys v).length := by
  induction es generalizing l c with
  | nil => rfl
  | cons e es ih =>
      obtain ⟨he, hes⟩ := Bool.and_eq_true_iff.mp hes
      have hgo := goes_on (not_picks he) c
      -- the number after the effect
      have hnext : ∀ v, ((e.run suffix l c).2.keys v).length
          = if e = .failOver v then 3 else (c.keys v).length := by
        intro v
        cases hplace : e.inPlace with
        | true =>
            rw [if_neg (by rintro rfl; cases hplace), (sameKeys_run suffix l c hplace).2.2.keys]
        | false =>
            have hfails : e.failsOver = true := (Bool.or_eq_true_iff.mp he).resolve_left (by simp [hplace])
            cases e with
            | failOver v' =>
                by_cases hv : v = v'
                · subst hv
                  rw [if_pos rfl, length_failOver hordered (hlen v)]
                · rw [if_neg (by rintro ⟨⟩; exact hv rfl), keys_failOver_of_ne hv]
            | _ => cases hfails
      have hlen' : ∀ v, ((e.run suffix l c).2.keys v).length ≤ 3 := by
        intro v
        rw [hnext]
        split
        · exact le_refl 3
        · exact hlen v
      rw [runEffects, hgo]
      show ((runEffects suffix es _ _).2.2.keys v).length = _
      rw [ih hes (hordered.run e) hlen', hnext]
      simp only [List.mem_cons]
      by_cases hlater : Effect.failOver v ∈ es
      · rw [if_pos hlater, if_pos (Or.inr hlater)]
      · simp only [hlater, or_false, if_false, eq_comm]

variable (suffix) in
/-- **How an action leaves the number of pods.** -/
theorem full_perform_iff (hpress : a.presses = false) (hordered : c.Ordered)
    (hlen : ∀ v, (c.keys v).length ≤ 3) :
    (∀ v, ((a.perform suffix c).keys v).length ≤ 3)
      ∧ ((∀ v, ((a.perform suffix c).keys v).length = 3)
        ↔ ((∀ v, (c.keys v).length = 3) ∨ a = .regionOutage) ∧ a.SparesNamesakes suffix c) := by
  cases hreplaces : a.replaces with
  | none =>
      obtain ⟨htext, houtage⟩ := effects_others hpress hreplaces
      have hafter : ∀ v, ((a.perform suffix c).keys v).length
          = if a = .regionOutage then 3 else (c.keys v).length := by
        intro v
        have hrun := length_runEffects suffix (l := {}) htext hordered hlen v
        simp only [houtage] at hrun
        exact hrun
      have hspares : a.SparesNamesakes suffix c := by
        intro v hv
        rw [hreplaces] at hv
        cases hv
      rw [and_iff_left hspares]
      simp only [hafter]
      by_cases ha : a = .regionOutage
      · simp [ha]
      · simp only [ha, if_false, or_false]
        exact ⟨hlen, trivial⟩
  | some v₀ =>
      have hothers := (keys_replace suffix hreplaces c).1
      obtain ⟨hle, hthree⟩ := length_replace suffix hreplaces (hlen v₀)
      have hno : a ≠ .regionOutage := by
        rintro rfl
        cases hreplaces
      rw [or_iff_left hno]
      constructor
      · intro v
        by_cases hv : v = v₀
        · rw [hv]
          exact hle
        · rw [hothers v hv]
          exact hlen v
      · constructor
        · intro hfull
          obtain ⟨hbefore, hspares⟩ := hthree.mp (hfull v₀)
          refine ⟨fun v => ?_, hspares⟩
          by_cases hv : v = v₀
          · rw [hv]
            exact hbefore
          · rw [← hothers v hv]
            exact hfull v
        · rintro ⟨hfull, hspares⟩ v
          by_cases hv : v = v₀
          · rw [hv]
            exact hthree.mpr ⟨hfull v₀, hspares⟩
          · rw [hothers v hv]
            exact hfull v

variable (suffix) in
/-- The services have three pods in the end exactly if no replacement that counts has met namesakes. -/
theorem full_performAll_iff (hpress : ∀ a ∈ as, a.presses = false) (hordered : c.Ordered)
    (hlen : ∀ v, (c.keys v).length ≤ 3) :
    (∀ v, ((performAll suffix as c).keys v).length = 3)
      ↔ ((∀ v, (c.keys v).length = 3) ∨ .regionOutage ∈ as) ∧ NamesakesSpared suffix as c := by
  induction as generalizing c with
  | nil => simp [performAll, NamesakesSpared]
  | cons a as ih =>
      obtain ⟨hfewer, hfull⟩ := full_perform_iff suffix (hpress a List.mem_cons_self) hordered hlen
      have hordered' : (a.perform suffix c).Ordered := ordered_runEffects hordered
      have hrest := ih (fun a' ha' => hpress a' (List.mem_cons_of_mem a ha')) hordered' hfewer
      show (∀ v, ((performAll suffix as (a.perform suffix c)).keys v).length = 3) ↔ _
      rw [hrest, NamesakesSpared, List.mem_cons, ← and_assoc]
      refine and_congr_left fun _ => ?_
      rw [hfull]
      -- an outage that is still to come makes up for everything before
      by_cases hlater : Action.regionOutage ∈ as
      · simp [hlater]
      · simp only [hlater, or_false, false_or, eq_comm]

/-! ## The pods that are left -/

theorem up_perform (hpress : a.presses = false) (hordered : c.Ordered) (hup : ∀ v, ∀ p ∈ c.pods v, p.Up) :
    ∀ v, ∀ p ∈ (a.perform suffix c).pods v, p.Up := by
  have hbefore : Started c [] :=
    ⟨⟨hordered, fun _ ht => absurd ht List.not_mem_nil, fun _ ht => absurd ht List.not_mem_nil⟩,
      fun _ ht => absurd ht List.not_mem_nil, fun v p hp => Or.inl (hup v p hp)⟩
  have hguard : Guarded suffix OwnLastTwo a.effects {} c := by
    refine guarded_of_forall (fun e he l c => ?_) _ _
    have hpromotes := List.all_eq_true.mp (effects_promote hpress) e he
    cases e with
    | promote v => cases hpromotes
    | _ => trivial
  have hopened := (started_invariant : EffectInvariant suffix OwnLastTwo Started).start c [] a hbefore
  have hplace : ([] ++ [(⟨{}, a.effects⟩ : Thread)])[0]? = some ⟨{}, a.effects ++ []⟩ := by
    rw [List.append_nil]
    rfl
  have hdone := started_invariant.runEffects hplace hguard hopened
  intro v p hp
  refine (hdone.up v p hp).resolve_right ?_
  -- the action has nothing left to do
  rintro ⟨t, ht, e, he, -⟩
  rw [ite_self] at ht
  cases List.mem_singleton.mp ht
  cases he

/-- What every sequence without a `cpu_pressure` keeps. -/
structure Cluster.Sound (c : Cluster) : Prop where
  nominal : c.Nominal
  ordered : c.Ordered
  up : ∀ v, ∀ p ∈ c.pods v, p.Up

theorem sound_performAll (hpress : ∀ a ∈ as, a.presses = false) (h : c.Sound) :
    (performAll suffix as c).Sound := by
  induction as generalizing c with
  | nil => exact h
  | cons a as ih =>
      have ha := hpress a List.mem_cons_self
      exact ih (fun a' ha' => hpress a' (List.mem_cons_of_mem a ha'))
        ⟨nominal_perform ha h.nominal, ordered_runEffects h.ordered, up_perform ha h.ordered h.up⟩

/--
**When a sequence of actions is fully recovered from.**

For every sequence, with any names: exactly if no `cpu_pressure` is among the actions and
every replacement, up to the last AZ outage at least, takes out the picked pod alone.
-/
theorem recovered_iff (suffix : Nat → String) (as : List Action) :
    Recovered suffix (performAll suffix as (Cluster.start suffix))
      ↔ (∀ v, .cpuPressure v ∉ as) ∧ NamesakesSpared suffix as (Cluster.start suffix) := by
  by_cases hcpu : ∃ v, .cpuPressure v ∈ as
  · obtain ⟨v, hv⟩ := hcpu
    refine iff_of_false (fun h => ?_) fun h => h.1 v hv
    have hpos : 0 < (Cluster.start suffix).metric v .rps := by
      rw [nominal_start.metric]
      decide +kernel
    exact absurd (h.metric v .rps) (ne_of_lt ((rps_performAll hpos).2 hv))
  · have hnone : ∀ v, .cpuPressure v ∉ as := fun v hv => hcpu ⟨v, hv⟩
    have hpress : ∀ a ∈ as, a.presses = false := by
      intro a ha
      cases a with
      | cpuPressure v => exact absurd ha (hnone v)
      | _ => rfl
    have hsound : (performAll suffix as (Cluster.start suffix)).Sound :=
      sound_performAll hpress ⟨nominal_start, ordered_start, up_start⟩
    have hlen : ∀ v, ((Cluster.start suffix).keys v).length ≤ 3 := fun v => (length_keys_start v).le
    have hfull := full_performAll_iff suffix hpress ordered_start hlen
    rw [and_iff_right (Or.inl length_keys_start)] at hfull
    rw [and_iff_right hnone, ← hfull]
    constructor
    · intro h v
      rw [Cluster.keys, List.length_map, h.full, hsound.ordered.desired]
    · intro h
      refine ⟨hsound.nominal.healthy, fun v => ?_, hsound.up, fun v m => ?_⟩
      · have hthree := h v
        rw [Cluster.keys, List.length_map] at hthree
        rw [hthree, hsound.ordered.desired]
      · rw [hsound.nominal.metric, nominal_start.metric]

/-- **One `cpu_pressure`** leaves five pods where three are desired, and fewer requests. -/
theorem cpuPressure_not_recovered :
    ((performAll Nat.repr [.cpuPressure .taskService] (Cluster.start Nat.repr)).pods .taskService).length = 5
      ∧ (performAll Nat.repr [.cpuPressure .taskService] (Cluster.start Nat.repr)).metric .taskService .rps
        = 80 * 0.92 ^ 6
      ∧ ¬ Recovered Nat.repr
          (performAll Nat.repr [.cpuPressure .taskService] (Cluster.start Nat.repr)) :=
  ⟨by decide +kernel, by decide +kernel,
    fun h => absurd (h.full .taskService) (by decide +kernel)⟩

end Microservices.Chaos
