import Microservices.Chaos.Metrics

/-!
# The order of the effects

Which assignments a schedule makes, and in what order, is read off the texts of the
actions, as long as no call ends early. For one metric it is an interleaving of their
operations on a register, in which the part of a call is its text.
-/

namespace Microservices.Chaos

open Register Schedule

/-- What the calls have left, wait by wait. -/
abbrev Texts := List (List (List Effect))

namespace ScenarioEvent

/-- The call that moves. -/
def mover (texts : Texts) : ScenarioEvent → Nat
  | .start _ => texts.length
  | .resume i => i

/-- What it does up to its next wait. -/
def segment (texts : Texts) : ScenarioEvent → List Effect
  | .start a => a.segments.headD []
  | .resume i => (texts.getD i []).headD []

def later (texts : Texts) : ScenarioEvent → Texts
  | .start a => texts ++ [a.segments.tail]
  | .resume i => texts.set i (texts.getD i []).tail

end ScenarioEvent

def laterAll : Texts → List ScenarioEvent → Texts
  | texts, [] => texts
  | texts, e :: es => laterAll (e.later texts) es

/-- The effects in the order of the schedule, each with its call. -/
def effectsIn : Texts → List ScenarioEvent → List (Nat × Effect)
  | _, [] => []
  | texts, e :: es =>
      (e.segment texts).map (fun effect => (e.mover texts, effect)) ++ effectsIn (e.later texts) es

/-- The actions that are started. -/
def started (es : List ScenarioEvent) : List Action :=
  es.filterMap fun
    | .start a => some a
    | .resume _ => none

/-- What the effects have to do with one metric, or with one flag. -/
def partsAt {β : Type} (f : Effect → Option β) (t : List (Nat × Effect)) : List (Nat × β) :=
  t.filterMap fun e => (f e.2).map fun b => (e.1, b)

/-- What happens to the metric, from the first action on. -/
def orderAt (v : ServiceName) (m : Metric) (es : List ScenarioEvent) : List (Nat × Op ℚ) :=
  partsAt (Effect.opAt v m) (effectsIn [] es)

/-! ## The part of one call -/

section Parts

variable {β : Type} {i j : Nat}

theorem opsOf_append (t u : List (Nat × β)) : opsOf i (t ++ u) = opsOf i t ++ opsOf i u := by
  unfold opsOf
  rw [List.filter_append, List.map_append]

theorem opsOf_map (bs : List β) : opsOf i (bs.map fun b => (j, b)) = if j = i then bs else [] := by
  unfold opsOf
  induction bs with
  | nil => exact (ite_self _).symm
  | cons b bs ih =>
      rw [List.map_cons]
      by_cases h : j = i
      · rw [if_pos h] at ih ⊢
        rw [List.filter_cons_of_pos (by simpa using h), List.map_cons, ih]
      · rw [if_neg h] at ih ⊢
        rw [List.filter_cons_of_neg (by simpa using h), ih]

/-- What comes last is the last that its call does. -/
theorem getLast?_opsOf {t : List (Nat × β)} {e : Nat × β} (h : t.getLast? = some e) :
    (opsOf e.1 t).getLast? = some e.2 := by
  obtain ⟨t', rfl⟩ := List.getLast?_eq_some_iff.mp h
  have hlast : opsOf e.1 [e] = [e.2] := by
    unfold opsOf
    rw [List.filter_cons_of_pos (by simp)]
    rfl
  rw [opsOf_append, hlast, List.getLast?_concat]

theorem opsOf_partsAt (f : Effect → Option β) (t : List (Nat × Effect)) :
    opsOf i (partsAt f t) = (opsOf i t).filterMap f := by
  unfold opsOf partsAt
  induction t with
  | nil => rfl
  | cons e t ih =>
      by_cases h : e.1 = i
      · cases hf : f e.2 with
        | none => simp [h, hf, ih]
        | some b => simp [h, hf, ih]
      · cases hf : f e.2 with
        | none => simp [h, hf, ih]
        | some b => simp [h, hf, ih]

theorem partsAt_map (f : Effect → Option β) (effects : List Effect) :
    partsAt f (effects.map fun e => (i, e)) = (effects.filterMap f).map fun b => (i, b) := by
  unfold partsAt
  rw [List.filterMap_map, List.map_filterMap]
  rfl

theorem partsAt_append (f : Effect → Option β) (t u : List (Nat × Effect)) :
    partsAt f (t ++ u) = partsAt f t ++ partsAt f u := List.filterMap_append

/-- A segment goes from the text of its call to the order of the effects. -/
theorem flatten_later (texts : Texts) (i j : Nat) :
    (if j = i then (texts.getD j []).headD [] else [])
        ++ ((texts.set j (texts.getD j []).tail).getD i []).flatten
      = (texts.getD i []).flatten := by
  by_cases h : j = i
  · subst h
    rw [if_pos rfl]
    by_cases hj : j < texts.length
    · have hset : (texts.set j (texts.getD j []).tail).getD j [] = (texts.getD j []).tail := by
        simp [List.getD, hj]
      rw [hset]
      cases texts.getD j [] with
      | nil => rfl
      | cons segment rest => rfl
    · rw [List.set_eq_of_length_le (Nat.le_of_not_lt hj)]
      simp [List.getD, List.getElem?_eq_none (Nat.le_of_not_lt hj)]
  · rw [if_neg h]
    simp [List.getD, h]

/-- **Its part of the schedule and what it has left are the whole text of a call.** -/
theorem opsOf_effectsIn (i : Nat) (texts : Texts) (es : List ScenarioEvent) :
    opsOf i (effectsIn texts es) ++ ((laterAll texts es).getD i []).flatten
      = ((texts ++ (started es).map Action.segments).getD i []).flatten := by
  induction es generalizing texts with
  | nil =>
      rw [started, List.filterMap_nil, List.map_nil, List.append_nil]
      rfl
  | cons e es ih =>
      rw [effectsIn, opsOf_append, opsOf_map, List.append_assoc, laterAll, ih]
      cases e with
      | start a =>
          have hpart := flatten_later (texts ++ a.segments :: (started es).map Action.segments) i texts.length
          have hnew : (texts ++ a.segments :: (started es).map Action.segments).getD texts.length []
              = a.segments := by
            simp [List.getD]
          rw [hnew, List.set_append_right _ _ le_rfl, Nat.sub_self, List.set_cons_zero] at hpart
          rw [ScenarioEvent.later, List.append_assoc]
          exact hpart
      | resume j =>
          have hstarted : started (.resume j :: es) = started es := rfl
          rw [hstarted]
          by_cases hj : j < texts.length
          · have hpart := flatten_later (texts ++ (started es).map Action.segments) i j
            have htext : (texts ++ (started es).map Action.segments).getD j [] = texts.getD j [] := by
              rw [List.getD_eq_getElem?_getD, List.getD_eq_getElem?_getD, List.getElem?_append_left hj]
            rw [htext, List.set_append_left _ _ hj] at hpart
            exact hpart
          · have hnone : texts.getD j [] = [] := by
              simp [List.getD, List.getElem?_eq_none (Nat.le_of_not_lt hj)]
            have hsame : ScenarioEvent.later texts (.resume j) = texts :=
              List.set_eq_of_length_le (Nat.le_of_not_lt hj)
            rw [hsame, ScenarioEvent.segment, hnone]
            simp

end Parts

/-! ## Runs in which no call ends early -/

variable {suffix : Nat → String} {w w' : Scenario} {e : ScenarioEvent} {es : List ScenarioEvent}
  {s : Cluster} {a : Action} {v : ServiceName} {m : Metric}

/-- A call that has ended early has nothing left. -/
def Call.Halts (call : Call) : Prop := call.stopped ≠ none → call.rest = []

namespace Scenario

def texts (w : Scenario) : Texts := w.calls.map Call.rest

def locals (w : Scenario) (i : Nat) : Locals := w.calls[i]?.elim {} Call.locals

def Going (w : Scenario) : Prop := ∀ call ∈ w.calls, call.stopped = none

end Scenario

theorem Call.Halts.resume {call : Call} (h : call.Halts) (c : Cluster) : (call.resume suffix c).1.Halts := by
  unfold Call.resume
  cases hrest : call.rest with
  | nil => exact h
  | cons segment rest =>
      intro hstopped
      exact if_pos (Option.isSome_iff_ne_none.mpr hstopped)

theorem Call.resume_through {call : Call} {c : Cluster} (h : (call.resume suffix c).1.stopped = none) :
    (runEffects suffix (call.rest.headD []) call.locals c).1 = none
      ∧ (call.resume suffix c).2 = (runEffects suffix (call.rest.headD []) call.locals c).2.2
      ∧ (call.resume suffix c).1.locals = (runEffects suffix (call.rest.headD []) call.locals c).2.1
      ∧ (call.resume suffix c).1.rest = call.rest.tail := by
  unfold Call.resume at h ⊢
  cases hrest : call.rest with
  | nil => exact ⟨rfl, rfl, rfl, hrest⟩
  | cons segment rest =>
      rw [hrest] at h
      have hnone : (runEffects suffix segment call.locals c).1 = none := h
      refine ⟨hnone, rfl, rfl, ?_⟩
      show (if (runEffects suffix segment call.locals c).1.isSome then [] else rest) = rest
      rw [hnone]
      rfl

theorem Scenario.halts_step (h : ∀ call ∈ w.calls, call.Halts) (hs : w.step suffix e = some w') :
    ∀ call ∈ w'.calls, call.Halts :=
  Scenario.forall_step (fun _ hstopped => absurd rfl hstopped) (fun _ c hcall => hcall.resume c) h hs

/-- Which call moves, and what it does, is read off the texts. -/
theorem Scenario.step_mover (hs : w.step suffix e = some w') :
    ∃ call, (w.opened e)[e.mover w.texts]? = some call ∧ call.rest.headD [] = e.segment w.texts
      ∧ ((w.opened e).map Call.rest).set (e.mover w.texts) call.rest.tail = e.later w.texts
      ∧ w'.cluster = (call.resume suffix w.cluster).2
      ∧ w'.calls = (w.opened e).set (e.mover w.texts) (call.resume suffix w.cluster).1 := by
  cases e with
  | start a =>
      cases hs
      have hmover : ScenarioEvent.mover w.texts (.start a) = w.calls.length := List.length_map ..
      rw [hmover]
      refine ⟨{ action := a, rest := a.segments }, List.getElem?_concat_length, rfl, ?_, rfl, ?_⟩
      · unfold Scenario.opened
        rw [List.map_append, List.set_append_right _ _ (List.length_map ..).le, List.length_map, Nat.sub_self]
        rfl
      · unfold Scenario.opened
        rw [List.set_append_right _ _ le_rfl, Nat.sub_self]
        rfl
  | resume i =>
      obtain ⟨call, hcall, _, hcluster, hcalls⟩ := Scenario.step_resume hs
      have htext : w.texts.getD i [] = call.rest := by
        unfold Scenario.texts
        rw [List.getD_eq_getElem?_getD, List.getElem?_map, hcall]
        rfl
      refine ⟨call, hcall, by rw [ScenarioEvent.segment, htext], ?_, hcluster, hcalls⟩
      rw [ScenarioEvent.later, htext]
      rfl

theorem Scenario.locals_opened (i : Nat) : (w.opened e)[i]?.elim {} Call.locals = w.locals i := by
  cases e with
  | start a =>
      unfold Scenario.opened Scenario.locals
      by_cases hi : i < w.calls.length
      · rw [List.getElem?_append_left hi]
      · rw [List.getElem?_append_right (Nat.le_of_not_lt hi), List.getElem?_eq_none (Nat.le_of_not_lt hi)]
        cases i - w.calls.length with
        | zero => rfl
        | succ n => rfl
  | resume j => rfl

/-- **A step in which no call ends early.** -/
theorem Scenario.step_through (hs : w.step suffix e = some w') (hgoing : w'.Going) :
    (runEffects suffix (e.segment w.texts) (w.locals (e.mover w.texts)) w.cluster).1 = none
      ∧ w'.cluster
        = (runEffects suffix (e.segment w.texts) (w.locals (e.mover w.texts)) w.cluster).2.2
      ∧ w'.locals = Function.update w.locals (e.mover w.texts)
        (runEffects suffix (e.segment w.texts) (w.locals (e.mover w.texts)) w.cluster).2.1
      ∧ w'.texts = e.later w.texts := by
  obtain ⟨call, hcall, hsegment, hlater, hcluster, hcalls⟩ := Scenario.step_mover hs
  have hlength := (List.getElem?_eq_some_iff.mp hcall).1
  have hmem : (call.resume suffix w.cluster).1 ∈ w'.calls := by
    rw [hcalls]
    exact List.mem_of_getElem? (List.getElem?_set_self hlength)
  obtain ⟨hnone, hcluster', hlocals, hrest⟩ := Call.resume_through (hgoing _ hmem)
  have hself : call.locals = w.locals (e.mover w.texts) := by
    rw [← Scenario.locals_opened (e := e), hcall]
    rfl
  rw [hsegment, hself] at hnone hcluster' hlocals
  refine ⟨hnone, hcluster.trans hcluster', funext fun i => ?_, ?_⟩
  · unfold Scenario.locals
    rw [hcalls]
    by_cases hi : i = e.mover w.texts
    · rw [hi, Function.update_self, List.getElem?_set_self hlength]
      exact hlocals
    · rw [Function.update_of_ne hi, List.getElem?_set_ne (Ne.symm hi)]
      exact Scenario.locals_opened i
  · unfold Scenario.texts at hlater ⊢
    rw [hcalls, List.map_set, hrest]
    exact hlater

/-- No call has ended early if none has in the end. -/
theorem Scenario.going_step (hhalts : ∀ call ∈ w.calls, call.Halts) (hs : w.step suffix e = some w')
    (hgoing : w'.Going) : w.Going := by
  cases e with
  | start a =>
      cases hs
      exact fun call hcall => hgoing call (List.mem_append_left _ hcall)
  | resume i =>
      obtain ⟨call, hcall, hrest, _, hcalls⟩ := Scenario.step_resume hs
      intro call' hcall'
      obtain ⟨j, hj⟩ := List.mem_iff_getElem?.mp hcall'
      by_cases hij : i = j
      · subst hij
        cases hcall.symm.trans hj
        exact Decidable.byContradiction fun hstopped => hrest (hhalts call hcall' hstopped)
      · refine hgoing call' ?_
        rw [hcalls]
        exact List.mem_of_getElem? ((List.getElem?_set_ne hij).trans hj)

/-- The rule for such runs, from the last step to the first. -/
theorem Scenario.through_induction {P : Scenario → List ScenarioEvent → Prop} (hnil : P w' [])
    (hcons : ∀ w e w₁ es, w.step suffix e = some w₁ → w₁.Going → P w₁ es → P w (e :: es))
    (hhalts : ∀ call ∈ w.calls, call.Halts) (hrun : exec (Scenario.step suffix) w es = some w')
    (hgoing : w'.Going) : w.Going ∧ P w es := by
  induction es generalizing w with
  | nil =>
      cases hrun
      exact ⟨hgoing, hnil⟩
  | cons e es ih =>
      obtain ⟨w₁, hs, hrest⟩ := exec_cons_inv hrun
      obtain ⟨hgoing₁, hP⟩ := ih (Scenario.halts_step hhalts hs) hrest
      exact ⟨Scenario.going_step hhalts hs hgoing₁, hcons w e w₁ es hs hgoing₁ hP⟩

section Runs

variable (hhalts : ∀ call ∈ w.calls, call.Halts) (hrun : exec (Scenario.step suffix) w es = some w')
  (hgoing : w'.Going)
include hhalts hrun hgoing

theorem Scenario.texts_exec : w'.texts = laterAll w.texts es :=
  (Scenario.through_induction (P := fun w es => w'.texts = laterAll w.texts es) rfl
    (fun w e w₁ es hs hgoing₁ ih => by
      rw [laterAll, ← (Scenario.step_through hs hgoing₁).2.2.2]
      exact ih) hhalts hrun hgoing).2

/-- **A run is a run of the register.** -/
theorem Scenario.register_exec (v : ServiceName) (m : Metric) :
    run (partsAt (Effect.opAt v m) (effectsIn w.texts es))
        (fun i => (w.locals i).old v m, w.cluster.metric v m)
      = (fun i => (w'.locals i).old v m, w'.cluster.metric v m) := by
  refine (Scenario.through_induction (P := fun w es =>
    run (partsAt (Effect.opAt v m) (effectsIn w.texts es))
        (fun i => (w.locals i).old v m, w.cluster.metric v m)
      = (fun i => (w'.locals i).old v m, w'.cluster.metric v m)) rfl
    (fun w e w₁ es hs hgoing₁ ih => ?_) hhalts hrun hgoing).2
  obtain ⟨hnone, hcluster, hlocals, hlater⟩ := Scenario.step_through hs hgoing₁
  have hcell := cell_runEffects (v := v) (m := m) hnone
  rw [effectsIn, partsAt_append, partsAt_map, run_append, run_map, ← hlater, ← ih]
  refine congrArg _ (Prod.ext (funext fun i => ?_) ?_)
  · show Function.update (fun i => (w.locals i).old v m) (e.mover w.texts) _ i = (w₁.locals i).old v m
    rw [hlocals]
    by_cases hi : i = e.mover w.texts
    · rw [hi, Function.update_self, Function.update_self]
      exact (congrArg Prod.fst hcell).symm
    · rw [Function.update_of_ne hi, Function.update_of_ne hi]
  · rw [hcluster]
    exact (congrArg Prod.snd hcell).symm

/-- The last assignment counts. -/
theorem Scenario.healthy_exec (v : ServiceName) :
    w'.cluster.healthy v = ((partsAt (Effect.healthAt v) (effectsIn w.texts es)).map Prod.snd).getLast?.getD
      (w.cluster.healthy v) := by
  refine (Scenario.through_induction (P := fun w es => w'.cluster.healthy v
    = ((partsAt (Effect.healthAt v) (effectsIn w.texts es)).map Prod.snd).getLast?.getD
      (w.cluster.healthy v)) rfl (fun w e w₁ es hs hgoing₁ ih => ?_) hhalts hrun hgoing).2
  obtain ⟨hnone, hcluster, _, hlater⟩ := Scenario.step_through hs hgoing₁
  have hlast := healthy_runEffects (v := v) hnone
  have hpart : (((e.segment w.texts).filterMap (Effect.healthAt v)).map fun b =>
      (e.mover w.texts, b)).map Prod.snd = healthsAt v (e.segment w.texts) := by
    rw [List.map_map]
    exact List.map_id _
  rw [effectsIn, partsAt_append, partsAt_map, List.map_append, List.getLast?_append, ← hlater, hpart,
    Option.getD_or, ← hlast, ← hcluster]
  exact ih

end Runs

end Microservices.Chaos
