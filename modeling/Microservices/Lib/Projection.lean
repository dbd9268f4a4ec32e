import Microservices.Lib.History

/-!
# What an observer sees of a schedule

An observer sees part of a state, and some of the events. If each event it sees is a
step of the part it sees, and the others leave that part as it is, then what it sees of
a schedule is a schedule of its own, and the events it does not see might as well not
have happened.

`R` relates a state to what is seen of it, `label` says what is seen of an event, and
`C` is a condition that the steps of the schedule meet.
-/

namespace Schedule

variable {σ σ' ε ε' : Type*}

/-- The steps of `step` are seen as steps of `step'`, or not at all. -/
structure Projects (step : σ → ε → Option σ) (step' : σ' → ε' → Option σ') (C : σ → ε → Prop)
    (label : ε → Option ε') (R : σ → σ' → Prop) : Prop where
  visible : ∀ {s s' e e' t}, R s s' → C s e → label e = some e' → step s e = some t →
    ∃ t', step' s' e' = some t' ∧ R t t'
  hidden : ∀ {s s' e t}, R s s' → C s e → label e = none → step s e = some t → R t s'

variable {step : σ → ε → Option σ} {step' : σ' → ε' → Option σ'} {C : σ → ε → Prop}
  {label : ε → Option ε'} {R : σ → σ' → Prop}

/-- **What is seen of a schedule is a schedule.** -/
theorem Projects.exec (h : Projects step step' C label R) {es : List ε} {s t : σ} {s' : σ'}
    (hs : R s s') (hC : Meets step C s es) (hes : exec step s es = some t) :
    ∃ t', exec step' s' (es.filterMap label) = some t' ∧ R t t' := by
  induction es generalizing s s' with
  | nil =>
      cases hes
      exact ⟨s', rfl, hs⟩
  | cons e es ih =>
      obtain ⟨s₁, h₁, hrest⟩ := exec_cons_inv hes
      obtain ⟨hc, hmeets⟩ := hC s₁ h₁
      cases hlabel : label e with
      | none =>
          rw [List.filterMap_cons_none hlabel]
          exact ih (h.hidden hs hc hlabel h₁) hmeets hrest
      | some e' =>
          obtain ⟨s₁', h₁', hs₁⟩ := h.visible hs hc hlabel h₁
          obtain ⟨t', ht', ht⟩ := ih hs₁ hmeets hrest
          refine ⟨t', ?_, ht⟩
          rw [List.filterMap_cons_some hlabel, exec_cons _ h₁', ht']

/--
**What comes out of a schedule for its observer comes out of what it sees of it.**

`out` is what a step puts out for the observer: as much as the step it sees does, and
nothing where it sees none.
-/
theorem Projects.observed {ω : Type*} (h : Projects step step' C label R) {out : σ × ε → Option ω}
    {out' : σ' × ε' → Option ω}
    (hvisible : ∀ {s s' e e'}, R s s' → C s e → label e = some e' → out (s, e) = out' (s', e'))
    (hhidden : ∀ {s e}, label e = none → out (s, e) = none) {es : List ε} {s t : σ} {s' : σ'}
    (hs : R s s') (hC : Meets step C s es) (hes : Schedule.exec step s es = some t) :
    (trace step s es).filterMap out = (trace step' s' (es.filterMap label)).filterMap out' := by
  induction es generalizing s s' with
  | nil => rfl
  | cons e es ih =>
      obtain ⟨s₁, h₁, hrest⟩ := exec_cons_inv hes
      obtain ⟨hc, hmeets⟩ := hC s₁ h₁
      rw [trace, h₁]
      dsimp only
      cases hlabel : label e with
      | none =>
          rw [List.filterMap_cons_none (hhidden hlabel), List.filterMap_cons_none hlabel]
          exact ih (h.hidden hs hc hlabel h₁) hmeets hrest
      | some e' =>
          obtain ⟨s₁', h₁', hs₁⟩ := h.visible hs hc hlabel h₁
          have hlater := ih hs₁ hmeets hrest
          rw [List.filterMap_cons_some hlabel, trace, h₁']
          dsimp only
          rw [List.filterMap_cons, List.filterMap_cons, hvisible hs hc hlabel, hlater]

end Schedule
