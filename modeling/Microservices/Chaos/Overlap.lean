import Microservices.Chaos.Order
import Microservices.Chaos.Recovery

/-!
# What overlapping actions leave

An action that saves the value another has left there for the time being writes it back
for good: `redis_failure` and `db_failure` do so in the scenario `cache_cascade`. On the
order of the operations depends whether a metric comes back.
-/

namespace Microservices.Chaos

open Register Schedule

/-- The same metrics, and the same flags. -/
def Cluster.SameReadings (c c' : Cluster) : Prop :=
  ∀ v, c'.healthy v = c.healthy v ∧ ∀ m, c'.metric v m = c.metric v m

/-! ## What is read off the texts -/

/-- By the texts, nothing is written back before it has been saved. -/
def Action.savesFirst (a : Action) : Bool :=
  ServiceName.all.all fun v =>
    [Metric.latency, .errorRate, .rps].all fun m => Register.savesFirst (opsAt v m a.effects)

theorem effects_saveFirst (a : Action) : a.savesFirst = true := by
  cases a <;> first | decide +kernel | (rename_i v; cases v <;> decide +kernel)

theorem effects_headPick {a : Action} {v : ServiceName} {orElse : Stop}
    (h : a.effects.head? = some (.pick v orElse)) : v ∈ a.replaces := by
  cases a <;> cases h <;> rfl

/-- A replacement brings the metrics back from wherever they are. -/
theorem effects_replaceMetrics {a : Action} (h : a.replaces.isSome = true) (v : ServiceName) (m : Metric)
    (copy x : ℚ) : (runAlone (opsAt v m a.effects) (copy, x)).2 = x := by
  have hfactor : (0.65 : ℚ) * (1.0 / 0.65) = 1 := by decide +kernel
  have hback : x * 0.65 * (1.0 / 0.65) = x := by rw [mul_assoc, hfactor, mul_one]
  cases a <;> first
    | (cases h; done)
    | (cases v <;> cases m <;> rfl)
    | (rename_i v₀; cases v₀ <;> cases v <;> cases m <;> first | rfl | exact hback)

/-- And it leaves the service healthy. -/
theorem effects_replaceHealth {a : Action} (h : a.replaces.isSome = true) :
    (ServiceName.all.all fun v =>
      (healthsAt v a.effects).getLast?.all fun b => b && decide (v ∈ a.replaces)) = true := by
  cases a <;> first
    | (cases h; done)
    | decide +kernel
    | (rename_i v; cases v <;> decide +kernel)

variable {suffix : Nat → String} {s : Cluster} {a : Action} {es : List ScenarioEvent} {w : Scenario}

theorem pods_of_stop {stop : Stop} (h : (runEffects suffix a.effects {} s).1 = some stop) :
    ∃ v ∈ a.replaces, s.pods v = [] := by
  have hpicks := effects_pickFirst a
  cases heffects : a.effects with
  | nil =>
      rw [heffects] at h
      cases h
  | cons e effects =>
      rw [heffects] at h hpicks
      cases hstops : e.stops s with
      | none =>
          rw [runEffects, hstops] at h
          exact absurd (h.symm.trans (runEffects_none hpicks _ _)) (Option.some_ne_none _)
      | some stop' =>
          cases e with
          | pick v orElse =>
              refine ⟨v, effects_headPick (by rw [heffects]; rfl), ?_⟩
              exact Decidable.byContradiction fun hpods => absurd (hstops.symm.trans (if_neg hpods))
                (Option.some_ne_none _)
          | _ => cases hstops

/-- **What the text of an action restores**, if it restores everything when it is run alone. Where it finds no
pod it does not run, but others may bring it one. -/
theorem Action.restoring (halone : s.SameReadings (a.perform suffix s))
    (hpods : ∀ v, s.pods v = [] → s.healthy v = true) (v : ServiceName) :
    (healthsAt v a.effects).getLast?.getD (s.healthy v) = s.healthy v
      ∧ ∀ m copy, (runAlone (opsAt v m a.effects) (copy, s.metric v m)).2 = s.metric v m := by
  cases hstop : (runEffects suffix a.effects {} s).1 with
  | none =>
      have hhealthy := healthy_runEffects (v := v) hstop
      have hmetric := fun m => congrArg Prod.snd (cell_runEffects (v := v) (m := m) hstop)
      obtain ⟨hsame, hsames⟩ := halone v
      rw [Action.perform, hhealthy] at hsame
      refine ⟨hsame, fun m copy => ?_⟩
      have hfirst := List.all_eq_true.mp (List.all_eq_true.mp (effects_saveFirst a) v v.mem_all) m
        (by cases m <;> simp)
      rw [runAlone_copy hfirst copy 0]
      exact (hmetric m).symm.trans (hsames m)
  | some stop =>
      obtain ⟨v₀, hreplaces, hempty⟩ := pods_of_stop hstop
      have hsome : a.replaces.isSome = true := Option.isSome_iff_exists.mpr ⟨v₀, hreplaces⟩
      refine ⟨?_, fun m copy => effects_replaceMetrics hsome v m copy _⟩
      have hhealth := List.all_eq_true.mp (effects_replaceHealth hsome) v v.mem_all
      cases hlast : (healthsAt v a.effects).getLast? with
      | none => rfl
      | some b =>
          rw [hlast] at hhealth
          obtain ⟨hb, hv⟩ := Bool.and_eq_true_iff.mp hhealth
          cases hreplaces.symm.trans (of_decide_eq_true hv)
          rw [hpods v hempty]
          exact hb

/-! ## Overlaps -/

theorem halts_init : ∀ call ∈ ({ cluster := s } : Scenario).calls, call.Halts :=
  fun _ hcall => absurd hcall List.not_mem_nil

/-- The part of a call in a schedule that lets all of them run to their last lines. -/
theorem part_eq (hrun : exec (Scenario.step suffix) { cluster := s } es = some w)
    (hdone : ∀ call ∈ w.calls, call.Completed) (i : Nat) :
    opsOf i (effectsIn [] es) = (started es)[i]?.elim [] Action.effects := by
  have htexts : w.texts = laterAll [] es :=
    Scenario.texts_exec halts_init hrun fun call hcall => (hdone call hcall).2
  have hleft : (laterAll [] es).getD i [] = [] := by
    rw [← htexts, Scenario.texts, List.getD_eq_getElem?_getD, List.getElem?_map]
    cases hcall : w.calls[i]? with
    | none => rfl
    | some call => exact (hdone call (List.mem_of_getElem? hcall)).1
  have hpart := opsOf_effectsIn i [] es
  rw [hleft, List.flatten_nil, List.append_nil, List.nil_append, List.getD_eq_getElem?_getD,
    List.getElem?_map] at hpart
  rw [hpart]
  cases (started es)[i]? with
  | none => rfl
  | some a => rfl

/--
**When overlapping actions are recovered from.**

Any number of actions that restore every metric alone, in any order of their steps, and
all of them run to their last lines. What is asked of the order is `Settled`, metric by
metric. A flag may be set in any order: the last one to set it sets it right.
-/
theorem overlap_recovers (hrun : exec (Scenario.step suffix) { cluster := s } es = some w)
    (hdone : ∀ call ∈ w.calls, call.Completed)
    (halone : ∀ a ∈ started es, s.SameReadings (a.perform suffix s))
    (hpods : ∀ v, s.pods v = [] → s.healthy v = true)
    (hsettled : ∀ v m, Settled (fun i => opsOf i (orderAt v m es)) (s.metric v m) (orderAt v m es)) :
    s.SameReadings w.cluster := by
  have hgoing : w.Going := fun call hcall => (hdone call hcall).2
  have hpart := part_eq hrun hdone
  refine fun v => ⟨?_, fun m => ?_⟩
  · have hlast : w.cluster.healthy v
        = ((partsAt (Effect.healthAt v) (effectsIn [] es)).getLast?.map Prod.snd).getD (s.healthy v) := by
      rw [← List.getLast?_map]
      exact Scenario.healthy_exec halts_init hrun hgoing v
    rw [hlast]
    cases hwrite : (partsAt (Effect.healthAt v) (effectsIn [] es)).getLast? with
    | none => rfl
    | some write =>
        have hown := getLast?_opsOf hwrite
        rw [opsOf_partsAt, hpart] at hown
        cases haction : (started es)[write.1]? with
        | none =>
            rw [haction] at hown
            cases hown
        | some a =>
            rw [haction] at hown
            have hright := (Action.restoring (halone a (List.mem_of_getElem? haction)) hpods v).1
            have hsets : (healthsAt v a.effects).getLast? = some write.2 := hown
            rw [hsets] at hright
            exact hright
  · have hregister := Scenario.register_exec halts_init hrun hgoing v m
    have hmetric := congrArg Prod.snd hregister
    refine hmetric.symm.trans ((hsettled v m).run_eq (fun i copy => ?_) _)
    rw [orderAt, opsOf_partsAt, hpart i]
    cases haction : (started es)[i]? with
    | none => rfl
    | some a => exact (Action.restoring (halone a (List.mem_of_getElem? haction)) hpods v).2 m copy

variable (suffix) in
/-- In the initial state every action restores everything alone, but `cpu_pressure`. -/
theorem sameReadings_start (h : a.presses = false) :
    (Cluster.start suffix).SameReadings (a.perform suffix (Cluster.start suffix)) := by
  have hafter : (a.perform suffix (Cluster.start suffix)).Nominal := nominal_perform h nominal_start
  refine fun v => ⟨?_, fun m => ?_⟩
  · rw [hafter.healthy, nominal_start.healthy]
  · rw [hafter.metric, nominal_start.metric]

/-- A pause of the garbage collector, next to a noisy neighbor from beginning to end. -/
def pauseInNoise : List ScenarioEvent :=
  [.start .noisyNeighbor, .start (.gcPause .taskService), .resume 1, .resume 1, .resume 1,
    .resume 0, .resume 0, .resume 0, .resume 0]

theorem pauseInNoise_recovers : ∃ w,
    exec (Scenario.step Nat.repr) (Scenario.init Nat.repr) pauseInNoise = some w
      ∧ (Cluster.start Nat.repr).SameReadings w.cluster := by
  have hrun : ((exec (Scenario.step Nat.repr) (Scenario.init Nat.repr) pauseInNoise).any fun w =>
      decide (∀ call ∈ w.calls, call.Completed)) = true := by decide +kernel
  obtain ⟨w, hw, hdone⟩ := (Option.any_eq_true _ _).mp hrun
  refine ⟨w, hw, overlap_recovers hw (of_decide_eq_true hdone) ?_ (fun v _ => nominal_start.healthy v) ?_⟩
  · intro a ha
    rcases List.mem_cons.mp ha with rfl | ha
    · exact sameReadings_start _ rfl
    · cases List.mem_singleton.mp ha
      exact sameReadings_start _ rfl
  · have hinner : ((0, Op.save) : Nat × Op ℚ)
        ∉ [(0, Op.times 2.4), (1, .save), (1, .times 6), (1, .restoreTimes 1.3), (1, .restore)] := by
      decide +kernel
    have hnone : ((0, Op.save) : Nat × Op ℚ) ∉ [(0, Op.times 2.4)] := by decide +kernel
    intro v m
    cases v with
    | taskService =>
        cases m with
        | latency => exact Settled.writeBack 0 .nil hinner
        | _ => exact .nil
    | notificationService =>
        cases m with
        | latency => exact Settled.writeBack 0 .nil hnone
        | _ => exact .nil
    | _ => cases m <;> exact .nil

/-- The first two steps of `cache_cascade`: the cache comes back before the database does. -/
def cacheThenDb : List ScenarioEvent :=
  [.start .redisFailure, .resume 0, .resume 0, .start .dbFailure, .resume 1, .resume 1,
    .resume 0, .resume 0, .resume 1, .resume 1]

/-- **The database writes back the latency of the time without a cache.** -/
theorem cacheThenDb_stays_slow :
    (∀ a ∈ started cacheThenDb,
        (Cluster.start Nat.repr).SameReadings (a.perform Nat.repr (Cluster.start Nat.repr)))
      ∧ ∃ w, exec (Scenario.step Nat.repr) (Scenario.init Nat.repr) cacheThenDb = some w
        ∧ (∀ call ∈ w.calls, call.Completed)
        ∧ w.cluster.metric .taskService .latency = 45 * 1.7
        ∧ w.cluster.metric .taskService .errorRate = 0.006
        ∧ ¬ (Cluster.start Nat.repr).SameReadings w.cluster := by
  have hrun : ((exec (Scenario.step Nat.repr) (Scenario.init Nat.repr) cacheThenDb).any fun w =>
      decide ((∀ call ∈ w.calls, call.Completed) ∧ w.cluster.metric .taskService .latency = 45 * 1.7
        ∧ w.cluster.metric .taskService .errorRate = 0.006)) = true := by decide +kernel
  obtain ⟨w, hw, hread⟩ := (Option.any_eq_true _ _).mp hrun
  obtain ⟨hdone, hlatency, herror⟩ := of_decide_eq_true hread
  refine ⟨fun a ha => ?_, w, hw, hdone, hlatency, herror, fun hsame => ?_⟩
  · rcases List.mem_cons.mp ha with rfl | ha
    · exact sameReadings_start _ rfl
    · cases List.mem_singleton.mp ha
      exact sameReadings_start _ rfl
  · have hback := (hsame .taskService).2 .latency
    rw [hlatency] at hback
    exact absurd hback (by decide +kernel)

end Microservices.Chaos
