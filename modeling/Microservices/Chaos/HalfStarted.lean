import Microservices.Chaos.Queue

/-!
# Pods that are left half-started

What takes a pod down, or appends it before it runs, has something later in its text
that settles the matter: the pod is taken out, or started. An effect `Settles` a pod
when it does so whatever happens in between. All of them do but one: `cpu_pressure`
starts the last two pods of the list and not the two it has made, so another pod that is
appended in between leaves one of its own pending for good.
-/

namespace Microservices.Chaos

open Schedule

namespace Effect

/-- After the effect the pod is up, or gone. -/
def Settles (l : Locals) (v : ServiceName) (p : PodState) : Effect → Prop
  | .remove v' => v' = v ∧ ∃ q, l.target = some q ∧ q.name = p.name
  | .ready v' | .promote v' => v' = v ∧ p.id ∈ l.made
  | .failOver v' => v' = v ∧ p.phase = .terminating
  | _ => False

def failsOver : Effect → Bool
  | .failOver _ => true
  | _ => false

/-- What the effect leaves open is settled later. -/
def answered (later : List Effect) : Effect → Bool
  | .terminate v | .unready v => later.contains (.remove v)
  | .create v => later.contains (.ready v)
  | .schedule v => later.contains (.ready v) || later.contains (.promote v)
  | .cut v => later.contains (.failOver v)
  | .pick .. => later.all fun e => !e.picks && !e.failsOver
  | _ => true

def schedules : Effect → Bool
  | .schedule _ => true
  | _ => false

def readies : Effect → Bool
  | .ready _ => true
  | _ => false

end Effect

def tidy : List Effect → Bool
  | [] => true
  | e :: es => e.answered es && tidy es

/-- Who starts `new_pod` makes one pod only. -/
def onePod (es : List Effect) : Bool := es.all (fun e => !e.readies) || es.countP Effect.schedules ≤ 1

theorem effects_tidy (a : Action) : tidy a.effects = true := by
  cases a <;> first | rfl | (rename_i v; cases v <;> rfl)

theorem effects_onePod (a : Action) : onePod a.effects = true := by
  cases a <;> rfl

/-! ## The invariant -/

/-- Where the thread is in the text of its action. -/
structure Thread.Tidy (t : Thread) : Prop where
  tidy : tidy t.left = true
  one : ∀ v, .ready v ∈ t.left → t.locals.made.length + t.left.countP Effect.schedules ≤ 1
  untargeted : (∃ e ∈ t.left, e.picks = true) → t.locals.target = none

/-- An effect that is still to come settles the pod. -/
def Excused (ts : List Thread) (v : ServiceName) (p : PodState) : Prop :=
  ∃ t ∈ ts, ∃ e ∈ t.left, e.Settles t.locals v p

structure Started (c : Cluster) (ts : List Thread) : Prop where
  queued : Queued c ts
  tidy : ∀ t ∈ ts, t.Tidy
  up : ∀ v, ∀ p ∈ c.pods v, p.Up ∨ Excused ts v p

/-- A promotion of the last two pods leaves none of its own pending. -/
def OwnLastTwo (l : Locals) (c : Cluster) : Effect → Prop
  | .promote v => ∀ p ∈ (c.pods v).take ((c.pods v).length - 2), p.id ∈ l.made → p.Up
  | _ => True

variable {suffix : Nat → String} {c c' : Cluster} {v : ServiceName} {l l' : Locals} {t : Thread}
  {p : PodState} {e : Effect} {es : List Effect}

/-! ## What is to be settled stays so -/

/-- No target is given up, and no pod of its own. -/
def Locals.Keeps (l l' : Locals) : Prop :=
  (∀ q, l.target = some q → l'.target = some q) ∧ ∀ n ∈ l.made, n ∈ l'.made

theorem Locals.Keeps.settles (h : l.Keeps l') (hsettles : e.Settles l v p) : e.Settles l' v p := by
  cases e with
  | remove v' =>
      obtain ⟨hv, q, hq, hname⟩ := hsettles
      exact ⟨hv, q, h.1 q hq, hname⟩
  | ready v' => exact ⟨hsettles.1, h.2 _ hsettles.2⟩
  | promote v' => exact ⟨hsettles.1, h.2 _ hsettles.2⟩
  | failOver v' => exact hsettles
  | _ => exact hsettles.elim

theorem keeps_run (h : e.picks = true → l.target = none) : l.Keeps (e.run suffix l c).1 := by
  cases e with
  | pick v orElse => exact ⟨fun q hq => (by rw [h rfl] at hq; cases hq), fun _ hn => hn⟩
  | schedule v => exact ⟨fun _ hq => hq, fun _ hn => List.mem_cons_of_mem _ hn⟩
  | _ => exact ⟨fun _ hq => hq, fun _ hn => hn⟩

/-- An excuse holds on, unless the effect is what it waits for. -/
theorem Excused.next {ts : List Thread} {i : Nat} (h : Excused ts v p)
    (hi : ts[i]? = some ⟨l, e :: es⟩) (hkeeps : l.Keeps l') :
    Excused (ts.set i ⟨l', es⟩) v p ∨ e.Settles l v p := by
  obtain ⟨t, ht, e', he', hsettles⟩ := h
  obtain ⟨j, hj⟩ := List.mem_iff_getElem?.mp ht
  by_cases hij : j = i
  · subst hij
    cases hi.symm.trans hj
    rcases List.mem_cons.mp he' with rfl | he'
    · exact Or.inr hsettles
    · have hlength := (List.getElem?_eq_some_iff.mp hi).1
      exact Or.inl ⟨_, List.mem_of_getElem? (List.getElem?_set_self hlength), e', he', hkeeps.settles hsettles⟩
  · have hj' : (ts.set i ⟨l', es⟩)[j]? = some t := by
      rw [List.getElem?_set_ne (Ne.symm hij)]
      exact hj
    exact Or.inl ⟨t, List.mem_of_getElem? hj', e', he', hsettles⟩

/-! ## What an effect does to a pod -/

/-- How a pod stands after an effect: it is up, or it was there and the effect has nothing to settle for
it, or what the effect has opened is settled later. -/
def StandsAfter (l : Locals) (c : Cluster) (e : Effect) (es : List Effect) (l' : Locals) (v : ServiceName)
    (p : PodState) : Prop :=
  p.Up ∨ (p ∈ c.pods v ∧ ¬ e.Settles l v p) ∨ ∃ e' ∈ es, e'.Settles l' v p

/-- A change of the pods of one service. -/
theorem stands_modifyPods {f : List PodState → List PodState} {v' : ServiceName}
    (he : ∀ p, e.Settles l v' p → v = v')
    (hf : ∀ p ∈ f (c.pods v), StandsAfter l c e es l' v p) (hp : p ∈ (c.modifyPods v f).pods v') :
    StandsAfter l c e es l' v' p := by
  by_cases hv : v' = v
  · subst hv
    rw [Cluster.pods_modifyPods_self] at hp
    exact hf p hp
  · rw [Cluster.pods_modifyPods, if_neg hv] at hp
    exact Or.inr (Or.inl ⟨hp, fun hsettles => hv (he p hsettles).symm⟩)

/-- A change of one pod. -/
theorem stands_modifyPod {id : Option Nat} {f : PodState → PodState} {v' : ServiceName}
    (he : ∀ p, e.Settles l v' p → v = v')
    (hself : ∀ p ∈ c.pods v, some p.id = id → StandsAfter l c e es l' v (f p))
    (hother : ∀ p ∈ c.pods v, some p.id ≠ id → ¬ e.Settles l v p)
    (hp : p ∈ (c.modifyPod v id f).pods v') : StandsAfter l c e es l' v' p := by
  refine stands_modifyPods he (fun p' hp' => ?_) hp
  obtain ⟨p₀, hp₀, rfl⟩ := List.mem_map.mp hp'
  split
  · rename_i hid
    exact hself p₀ hp₀ hid
  · rename_i hid
    exact Or.inr (Or.inl ⟨hp₀, hother p₀ hp₀ hid⟩)

theorem mem_addPods {n : Nat} {v' : ServiceName} (hp : p ∈ (c.addPods suffix v n).pods v') :
    p ∈ c.pods v' ∨ p.Up :=
  Cluster.addPods_induction c v suffix
    (P := fun c' => ∀ p ∈ c'.pods v', p ∈ c.pods v' ∨ p.Up)
    (fun c' h p hp => by
      rw [Cluster.pods_addPod] at hp
      split at hp
      · rcases List.mem_append.mp hp with hp | hp
        · exact h p hp
        · cases List.mem_singleton.mp hp
          exact Or.inr ⟨rfl, rfl⟩
      · exact h p hp) n (fun _ hp => Or.inl hp) p hp

/-- The pod with the identity of the target is the target. -/
theorem name_of_target (hordered : c.Ordered) (hpicked : t.Picked c) (hp : p ∈ c.pods v)
    (hid : some p.id = t.locals.target.map PodState.id) :
    ∃ q, t.locals.target = some q ∧ q.name = p.name := by
  obtain ⟨q, hq, hqid⟩ := Option.map_eq_some_iff.mp hid.symm
  refine ⟨q, hq, ?_⟩
  have hknown := hordered.known v p.key (List.mem_map_of_mem hp)
  have htarget := hpicked.known q hq
  rw [hqid] at htarget
  exact Option.some.inj (htarget.symm.trans hknown)

/-- **What an effect leaves behind.** -/
theorem stands_run (htidy : (⟨l, e :: es⟩ : Thread).Tidy) (hordered : c.Ordered)
    (hpicked : (⟨l, e :: es⟩ : Thread).Picked c) (hown : OwnLastTwo l c e)
    (hp : p ∈ (e.run suffix l c).2.pods v) :
    StandsAfter l c e es (e.run suffix l c).1 v p := by
  have hanswered : e.answered es = true := (Bool.and_eq_true_iff.mp htidy.tidy).1
  cases e with
  | metric v₀ m op =>
      have hpods : ((Effect.metric v₀ m op).run suffix l c).2.pods v = c.pods v :=
        Cluster.pods_setMetric c v₀ v m _
      rw [hpods] at hp
      exact Or.inr (Or.inl ⟨hp, id⟩)
  | healthy v₀ b =>
      have hpods : ((Effect.healthy v₀ b).run suffix l c).2.pods v = c.pods v :=
        Cluster.pods_setHealthy c v₀ v b
      rw [hpods] at hp
      exact Or.inr (Or.inl ⟨hp, id⟩)
  | pick v₀ orElse => exact Or.inr (Or.inl ⟨hp, id⟩)
  | terminate v₀ =>
      refine stands_modifyPod (fun _ h => h.elim) (fun p hp hid => ?_) (fun _ _ _ => id) hp
      have htarget := name_of_target hordered hpicked hp hid
      exact Or.inr (Or.inr ⟨.remove v₀, List.contains_iff_mem.mp hanswered, rfl, htarget⟩)
  | unready v₀ =>
      refine stands_modifyPod (fun _ h => h.elim) (fun p hp hid => ?_) (fun _ _ _ => id) hp
      have htarget := name_of_target hordered hpicked hp hid
      exact Or.inr (Or.inr ⟨.remove v₀, List.contains_iff_mem.mp hanswered, rfl, htarget⟩)
  | schedule v₀ =>
      have hp' : p ∈ (c.modifyPods v₀ fun pods => pods ++ [c.nextPod v₀ suffix .pending false]).pods v :=
        hp
      refine stands_modifyPods (fun _ h => h.elim) (fun p hp => ?_) hp'
      rcases List.mem_append.mp hp with hp | hp
      · exact Or.inr (Or.inl ⟨hp, id⟩)
      · cases List.mem_singleton.mp hp
        rcases Bool.or_eq_true_iff.mp hanswered with hready | hpromote
        · exact Or.inr (Or.inr ⟨.ready v₀, List.contains_iff_mem.mp hready, rfl, List.mem_cons_self⟩)
        · exact Or.inr (Or.inr ⟨.promote v₀, List.contains_iff_mem.mp hpromote, rfl, List.mem_cons_self⟩)
  | create v₀ =>
      refine stands_modifyPod (fun _ h => h.elim) (fun p hp hid => ?_) (fun _ _ _ => id) hp
      exact Or.inr (Or.inr ⟨.ready v₀, List.contains_iff_mem.mp hanswered, rfl,
        List.mem_of_head? hid.symm⟩)
  | ready v₀ =>
      refine stands_modifyPod (fun _ h => h.1) (fun p hp _ => Or.inl ⟨rfl, rfl⟩) ?_ hp
      -- the one pod it has made is `new_pod`
      rintro p hp hid ⟨_, hmade⟩
      have hone := htidy.one v₀ List.mem_cons_self
      have hshort : l.made.length ≤ 1 := Nat.le_trans (Nat.le_add_right _ _) hone
      cases hmades : l.made with
      | nil =>
          rw [hmades] at hmade
          cases hmade
      | cons n ns =>
          rw [hmades] at hmade hshort hid
          cases ns with
          | nil => exact hid (congrArg some (List.mem_singleton.mp hmade))
          | cons => simp at hshort
  | remove v₀ =>
      refine stands_modifyPods (fun _ h => h.1) (fun p hp => ?_) hp
      obtain ⟨hp, hname⟩ := List.mem_filter.mp hp
      refine Or.inr (Or.inl ⟨hp, ?_⟩)
      rintro ⟨_, q, hq, hqname⟩
      refine of_decide_eq_true hname ?_
      rw [hq, ← hqname]
      rfl
  | promote v₀ =>
      refine stands_modifyPods (fun _ h => h.1) (fun p hp => ?_) hp
      rcases List.mem_append.mp hp with hp | hp
      · by_cases hmade : p.id ∈ l.made
        · exact Or.inl (hown p hp hmade)
        · exact Or.inr (Or.inl ⟨List.mem_of_mem_take hp, fun hsettles => hmade hsettles.2⟩)
      · obtain ⟨p, _, rfl⟩ := List.mem_map.mp hp
        exact Or.inl ⟨rfl, rfl⟩
  | cut v₀ =>
      refine stands_modifyPods (fun _ h => h.elim) (fun p hp => ?_) hp
      unfold cutHalf at hp
      obtain ⟨n, hn, rfl⟩ := List.mem_mapIdx.mp hp
      split
      · exact Or.inr (Or.inr ⟨.failOver v₀, List.contains_iff_mem.mp hanswered, rfl, rfl⟩)
      · exact Or.inr (Or.inl ⟨List.getElem_mem hn, id⟩)
  | failOver v₀ =>
      rcases mem_addPods hp with hp | hup
      · refine stands_modifyPods (fun _ h => h.1) (fun p hp => ?_) hp
        obtain ⟨hp, hphase⟩ := List.mem_filter.mp hp
        exact Or.inr (Or.inl ⟨hp, fun hsettles => of_decide_eq_true hphase hsettles.2⟩)
      · exact Or.inl hup

/-! ## Every effect keeps the invariant -/

theorem Thread.Tidy.next (h : (⟨l, e :: es⟩ : Thread).Tidy) :
    (⟨(e.run suffix l c).1, es⟩ : Thread).Tidy where
  tidy := (Bool.and_eq_true_iff.mp h.tidy).2
  one := by
    intro v hready
    have hone := h.one v (List.mem_cons_of_mem e hready)
    rw [List.countP_cons] at hone
    cases e with
    | schedule v' =>
        have hmade : l.made.length + (es.countP Effect.schedules + 1) ≤ 1 := hone
        show (c.created.length :: l.made).length + es.countP Effect.schedules ≤ 1
        rw [List.length_cons]
        omega
    | _ => exact hone
  untargeted := by
    rintro ⟨e', he', hpicks⟩
    have hnone : l.target = none := h.untargeted ⟨e', List.mem_cons_of_mem e he', hpicks⟩
    cases e with
    | pick v orElse =>
        -- nothing else is picked
        have hanswered := (Bool.and_eq_true_iff.mp h.tidy).1
        have hnot := (Bool.and_eq_true_iff.mp (List.all_eq_true.mp hanswered e' he')).1
        rw [hpicks] at hnot
        cases hnot
    | _ => exact hnone

/-- An action that ends for want of a pod has nothing to settle. -/
theorem not_settles_of_stops {stop : Stop} (htidy : (⟨l, e :: es⟩ : Thread).Tidy)
    (hplaced : (⟨l, e :: es⟩ : Thread).Placed) (hstops : e.stops c = some stop) :
    ∀ e' ∈ e :: es, ¬ e'.Settles l v p := by
  cases e with
  | pick v₀ orElse =>
      intro e' he' hsettles
      have hmade : l.made = [] := hplaced.unmade ⟨_, List.mem_cons_self, rfl⟩
      have htarget : l.target = none := htidy.untargeted ⟨_, List.mem_cons_self, rfl⟩
      rcases List.mem_cons.mp he' with rfl | he'
      · exact hsettles
      · have hanswered := (Bool.and_eq_true_iff.mp htidy.tidy).1
        have hnot := (Bool.and_eq_true_iff.mp (List.all_eq_true.mp hanswered e' he')).2
        cases e' with
        | remove v' =>
            obtain ⟨_, q, hq, _⟩ := hsettles
            rw [htarget] at hq
            cases hq
        | ready v' => exact absurd hsettles.2 (hmade ▸ List.not_mem_nil)
        | promote v' => exact absurd hsettles.2 (hmade ▸ List.not_mem_nil)
        | failOver v' => cases hnot
        | _ => exact hsettles
  | _ => cases hstops

theorem started_invariant : EffectInvariant suffix OwnLastTwo Started where
  start := by
    intro c ts a h
    refine ⟨(queued_invariant suffix).start c ts a h.queued, ?_, ?_⟩
    · intro t ht
      rcases List.mem_append.mp ht with ht | ht
      · exact h.tidy t ht
      · cases List.mem_singleton.mp ht
        refine ⟨effects_tidy a, fun v hready => ?_, fun _ => rfl⟩
        rcases Bool.or_eq_true_iff.mp (effects_onePod a) with hnone | hone
        · cases List.all_eq_true.mp hnone _ hready
        · exact (Nat.zero_add _).trans_le (of_decide_eq_true hone)
    · intro v p hp
      refine (h.up v p hp).imp_right ?_
      rintro ⟨t, ht, hexcuse⟩
      exact ⟨t, List.mem_append_left _ ht, hexcuse⟩
  stop := by
    intro c ts i l e es stop hi hstops h
    have hmem := List.mem_of_getElem? hi
    refine ⟨(queued_invariant suffix).stop c ts i l e es stop hi hstops h.queued,
      Slots.forall_mem_set h.tidy i ⟨rfl, fun _ hready => absurd hready List.not_mem_nil,
        fun ⟨_, he, _⟩ => absurd he List.not_mem_nil⟩, fun v p hp => ?_⟩
    refine (h.up v p hp).imp_right ?_
    rintro ⟨t, ht, e', he', hsettles⟩
    obtain ⟨j, hj⟩ := List.mem_iff_getElem?.mp ht
    by_cases hij : j = i
    · subst hij
      cases hi.symm.trans hj
      exact absurd hsettles
        (not_settles_of_stops (h.tidy _ hmem) (h.queued.placed _ hmem) hstops e' he')
    · have hj' : (ts.set i ⟨l, []⟩)[j]? = some t := by
        rw [List.getElem?_set_ne (Ne.symm hij)]
        exact hj
      exact ⟨t, List.mem_of_getElem? hj', e', he', hsettles⟩
  effect := by
    intro c ts i l e es hi hgo hG h
    have hmem := List.mem_of_getElem? hi
    have htidy := h.tidy _ hmem
    refine ⟨(queued_invariant suffix).effect c ts i l e es hi hgo trivial h.queued,
      Slots.forall_mem_set h.tidy i htidy.next, ?_⟩
    intro v p hp
    have hkeeps : l.Keeps (e.run suffix l c).1 :=
      keeps_run fun hpicks => htidy.untargeted ⟨e, List.mem_cons_self, hpicks⟩
    rcases stands_run htidy h.queued.ordered (h.queued.picked _ hmem) hG hp
      with hup | ⟨hbefore, hsettles⟩ | ⟨e', he', hsettles⟩
    · exact Or.inl hup
    · rcases h.up v p hbefore with hup | hexcuse
      · exact Or.inl hup
      · exact Or.inr ((hexcuse.next hi hkeeps).resolve_right hsettles)
    · have hlength := (List.getElem?_eq_some_iff.mp hi).1
      exact Or.inr ⟨_, List.mem_of_getElem? (List.getElem?_set_self hlength), e', he', hsettles⟩

theorem up_start (v : ServiceName) : ∀ p ∈ (Cluster.start suffix).pods v, p.Up := by
  have hmore (c : Cluster) (v' : ServiceName) (n : Nat) (h : ∀ p ∈ c.pods v, p.Up) :
      ∀ p ∈ (c.addPods suffix v' n).pods v, p.Up :=
    fun p hp => (mem_addPods hp).elim (h p) id
  exact hmore _ _ _ (hmore _ _ _ (hmore _ _ _ (hmore _ _ _ fun _ hp => absurd hp List.not_mem_nil)))

/-! ## The condition, before the step -/

/-- When a call promotes the last two pods, each of its own pods is among them, or is up or gone. -/
def Scenario.PromotesOwn (w : Scenario) : ScenarioEvent → Prop
  | .start _ => True
  | .resume i => ∀ call ∈ w.calls[i]?, ∀ v, call.rest.head? = some [.promote v] →
      ∀ p ∈ (w.cluster.pods v).take ((w.cluster.pods v).length - 2), p.id ∈ call.locals.made → p.Up

instance (w : Scenario) : ∀ e, Decidable (w.PromotesOwn e)
  | .start _ => inferInstanceAs (Decidable True)
  | .resume i => inferInstanceAs (Decidable (∀ call ∈ w.calls[i]?, _))

def Effect.promotes : Effect → Bool
  | .promote _ => true
  | _ => false

/-- A promotion is all that is done between two waits. -/
def alone (segment : List Effect) : Bool := segment.all (fun e => !e.promotes) || segment.length = 1

theorem segments_alone (a : Action) : a.segments.all alone = true := by
  cases a <;> rfl

theorem guarded_ownLastTwo {segment : List Effect} (halone : alone segment = true)
    (h : ∀ v, segment = [.promote v] → OwnLastTwo l c (.promote v)) :
    Guarded suffix OwnLastTwo segment l c := by
  have hother : ∀ e : Effect, e.promotes = false → ∀ l c, OwnLastTwo l c e := by
    intro e he l c
    cases e with
    | promote v => cases he
    | _ => trivial
  rcases Bool.or_eq_true_iff.mp halone with hnone | hone
  · refine guarded_of_forall (fun e he => hother e ?_) l c
    exact Bool.not_eq_true' _ |>.mp (List.all_eq_true.mp hnone e he)
  · obtain ⟨e, rfl⟩ := List.length_eq_one_iff.mp (of_decide_eq_true hone)
    refine ⟨?_, fun _ => trivial⟩
    cases hpromotes : e.promotes with
    | false => exact hother e hpromotes l c
    | true =>
        cases e with
        | promote v => exact h v rfl
        | _ => cases hpromotes

theorem Scenario.PromotesOwn.stepGuarded {w : Scenario} {e : ScenarioEvent} (h : w.PromotesOwn e)
    (hrest : ∀ call ∈ w.calls, call.rest <:+ call.action.segments) :
    w.StepGuarded suffix OwnLastTwo e := by
  have halone {a : Action} {segment : List Effect} (hmem : segment ∈ a.segments) :
      alone segment = true := List.all_eq_true.mp (segments_alone a) segment hmem
  cases e with
  | start a =>
      intro segment hsegment
      refine guarded_ownLastTwo (halone (List.mem_of_head? hsegment)) fun v _ p _ hmade => ?_
      cases hmade
  | resume i =>
      intro call hcall segment hsegment
      have hmem := (hrest call (List.mem_of_getElem? hcall)).subset (List.mem_of_head? hsegment)
      refine guarded_ownLastTwo (halone hmem) fun v hv => ?_
      exact h call hcall v (hv ▸ hsegment)

/-! ## Every run -/

/-- **No pod is left half-started** where every promotion finds its own pods last. -/
theorem no_pod_half_started {events : List ScenarioEvent} {w : Scenario}
    (hown : Meets (Scenario.step suffix) Scenario.PromotesOwn (Scenario.init suffix) events)
    (h : exec (Scenario.step suffix) (Scenario.init suffix) events = some w)
    (hdone : ∀ call ∈ w.calls, call.Completed) : ∀ v, ∀ p ∈ w.cluster.pods v, p.Up := by
  have hall : Started w.cluster w.threads
      ∧ ∀ call ∈ w.calls, call.rest <:+ call.action.segments := by
    refine exec_invariant
      (I := fun w => Started w.cluster w.threads ∧ ∀ call ∈ w.calls, call.rest <:+ call.action.segments)
      (fun w e w' hI hG hs => ⟨?_, Scenario.rest_step hI.2 hs⟩)
      ⟨⟨queued_start, fun _ ht => absurd ht List.not_mem_nil,
        fun v p hp => Or.inl (up_start v p hp)⟩, fun _ hcall => absurd hcall List.not_mem_nil⟩
      hown h
    exact started_invariant.step (hG.stepGuarded hI.2) hI.1 hs
  intro v p hp
  refine (hall.1.up v p hp).resolve_right ?_
  -- nothing is still to come
  rintro ⟨t, ht, e, he, _⟩
  obtain ⟨call, hcall, rfl⟩ := List.mem_map.mp ht
  unfold Call.thread at he
  rw [(hdone call hcall).1] at he
  cases he

/-- `cpu_pressure` and `kill_pod` on one service, to the last line of both. The replacement of the killed
pod is appended before the two that `cpu_pressure` makes. -/
def killThenPressure : List ScenarioEvent :=
  [.start (.cpuPressure .taskService), .start (.killPod .taskService)] ++ List.replicate 9 (.resume 1)
    ++ List.replicate 18 (.resume 0)

theorem killThenPressure_all_up : ∃ w : Scenario,
    exec (Scenario.step Nat.repr) (Scenario.init Nat.repr) killThenPressure = some w
      ∧ w.calls.length = 2 ∧ ∀ v, ∀ p ∈ w.cluster.pods v, p.Up := by
  have hrun : ((exec (Scenario.step Nat.repr) (Scenario.init Nat.repr) killThenPressure).any fun w =>
      decide (w.calls.length = 2 ∧ ∀ call ∈ w.calls, call.Completed)) = true := by
    decide
  obtain ⟨w, hw, hall⟩ := (Option.any_eq_true _ _).mp hrun
  obtain ⟨htwo, hdone⟩ := of_decide_eq_true hall
  exact ⟨w, hw, htwo, no_pod_half_started (by decide) hw hdone⟩

/-- `kill_pod` is started 6 s after `cpu_pressure`: the replacement is appended between the two pods and
their promotion. -/
def pressureThenKill : List ScenarioEvent :=
  [.start (.cpuPressure .taskService)] ++ List.replicate 8 (.resume 0)
    ++ [.start (.killPod .taskService), .resume 1, .resume 1, .resume 0] ++ List.replicate 5 (.resume 1)
    ++ List.replicate 5 (.resume 0) ++ List.replicate 2 (.resume 1) ++ List.replicate 4 (.resume 0)

/-- The first of the two pods of `cpu_pressure` is pending for good. -/
theorem pressureThenKill_pending : ∃ w : Scenario,
    exec (Scenario.step Nat.repr) (Scenario.init Nat.repr) pressureThenKill = some w
      ∧ w.cluster.created.Nodup ∧ (∀ call ∈ w.calls, call.Completed)
      ∧ ∃ p ∈ w.cluster.pods .taskService, p.phase = .pending ∧ p.ready = false := by
  have hrun : ((exec (Scenario.step Nat.repr) (Scenario.init Nat.repr) pressureThenKill).any fun w =>
      decide (w.cluster.created.Nodup ∧ (∀ call ∈ w.calls, call.Completed)
        ∧ ∃ p ∈ w.cluster.pods .taskService, p.phase = .pending ∧ p.ready = false)) = true := by
    decide
  obtain ⟨w, hw, hall⟩ := (Option.any_eq_true _ _).mp hrun
  exact ⟨w, hw, of_decide_eq_true hall⟩

end Microservices.Chaos
