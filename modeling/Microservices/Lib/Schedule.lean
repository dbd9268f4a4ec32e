import Mathlib.Logic.Function.Basic

/-!
# Schedules of an executable step function

An interleaving semantics is given here by one function, `step : σ → ε → Option σ`:
the event names which party moves and what its environment answers, and `none`
means that the event is not enabled in the state. A *schedule* is a list of
events, so a statement about every interleaving is a statement about every
schedule, and a concrete interleaving is a list that can be evaluated.

Four notions carry the proofs. `exec` is where a schedule ends. `Always` says a
property of every state a schedule visits, and `Steps` a relation between the two
states of every step it takes. `Meets` says a condition on every step, read in the
state *before* it. The last section has the rules that make a step condition
*exact* for a property of the other two kinds: under them the two say the same
about every schedule.
-/

namespace Schedule

variable {σ ε : Type*}

/-- Where a schedule ends; `none` once one of its events is not enabled. -/
def exec (step : σ → ε → Option σ) : σ → List ε → Option σ
  | s, [] => some s
  | s, e :: es => (step s e).bind fun s' => exec step s' es

/-- `P` holds in every state the schedule visits, the first and the last included. -/
def Always (step : σ → ε → Option σ) (P : σ → Prop) : σ → List ε → Prop
  | s, [] => P s
  | s, e :: es => P s ∧ ∀ s', step s e = some s' → Always step P s' es

/-- Every step the schedule takes meets `C` in the state it is taken from. -/
def Meets (step : σ → ε → Option σ) (C : σ → ε → Prop) : σ → List ε → Prop
  | _, [] => True
  | s, e :: es => ∀ s', step s e = some s' → C s e ∧ Meets step C s' es

/-- Every step the schedule takes is one of `R`. -/
def Steps (step : σ → ε → Option σ) (R : σ → σ → Prop) : σ → List ε → Prop
  | _, [] => True
  | s, e :: es => ∀ s', step s e = some s' → R s s' ∧ Steps step R s' es

variable {step : σ → ε → Option σ}

theorem exec_cons {s s' : σ} {e : ε} (es : List ε) (h : step s e = some s') :
    exec step s (e :: es) = exec step s' es := by
  rw [exec, h]; rfl

/-- A schedule that runs to its end takes its first step. -/
theorem exec_cons_inv {s t : σ} {e : ε} {es : List ε} (h : exec step s (e :: es) = some t) :
    ∃ s', step s e = some s' ∧ exec step s' es = some t :=
  Option.bind_eq_some_iff.mp h

theorem exec_append {s s' : σ} {es fs : List ε} (h : exec step s es = some s') :
    exec step s (es ++ fs) = exec step s' fs := by
  induction es generalizing s with
  | nil => cases h; rfl
  | cons e es ih =>
      obtain ⟨s₁, h₁, h₂⟩ := exec_cons_inv h
      rw [List.cons_append, exec_cons _ h₁, ih h₂]

/-- A decidable condition is decidable along a schedule, by running it. -/
instance decidableMeets {C : σ → ε → Prop} [∀ s e, Decidable (C s e)] :
    ∀ (s : σ) (es : List ε), Decidable (Meets step C s es)
  | _, [] => isTrue trivial
  | s, e :: es =>
      match h : step s e with
      | none => isTrue fun s' h' => by rw [h] at h'; cases h'
      | some s₁ =>
          have := decidableMeets (C := C) s₁ es
          decidable_of_iff (C s e ∧ Meets step C s₁ es)
            ⟨fun hc s' h' => by rw [h] at h'; cases h'; exact hc, fun hm => hm s₁ h⟩

/-! ## Putting schedules and conditions together -/

/-- Add a condition that the events of the schedule meet in whatever state. -/
theorem Meets.and_events {C : σ → ε → Prop} {D : ε → Prop} {s : σ} {es : List ε}
    (hC : Meets step C s es) (hD : ∀ e ∈ es, D e) : Meets step (fun s e => C s e ∧ D e) s es := by
  induction es generalizing s with
  | nil => trivial
  | cons e es ih =>
      intro s₁ h₁
      obtain ⟨hc, hrest⟩ := hC s₁ h₁
      exact ⟨⟨hc, hD e List.mem_cons_self⟩, ih hrest fun x hx => hD x (List.mem_cons_of_mem e hx)⟩

/-- The last step meets the condition as well. -/
theorem Meets.last {C : σ → ε → Prop} {s t t' : σ} {es : List ε} {e : ε}
    (hC : Meets step C s (es ++ [e])) (h : exec step s es = some t) (he : step t e = some t') :
    C t e := by
  induction es generalizing s with
  | nil =>
      cases h
      exact (hC t' he).1
  | cons x es ih =>
      obtain ⟨s₁, h₁, h₂⟩ := exec_cons_inv h
      exact ih (hC s₁ h₁).2 h₂

/-- What goes back from the state after a step to the state before it goes back from the last one to the
first, and a condition that it gives is met all along. -/
theorem meets_of_last {Q : σ → Prop} {C : σ → ε → Prop}
    (hback : ∀ s e s', step s e = some s' → Q s' → Q s ∧ C s e) {es : List ε} {s t : σ}
    (h : exec step s es = some t) (ht : Q t) : Q s ∧ Meets step C s es := by
  induction es generalizing s with
  | nil =>
      cases h
      exact ⟨ht, trivial⟩
  | cons e es ih =>
      obtain ⟨s₁, h₁, h₂⟩ := exec_cons_inv h
      obtain ⟨hQ, hrest⟩ := ih h₂
      obtain ⟨hQs, hC⟩ := hback s e s₁ h₁ hQ
      refine ⟨hQs, fun s' h' => ?_⟩
      cases h₁.symm.trans h'
      exact ⟨hC, hrest⟩

/-! ## The invariant rules -/

/-- **A step-preserved property holds where a schedule ends.** -/
theorem exec_invariant {I : σ → Prop} {C : σ → ε → Prop}
    (hstep : ∀ s e s', I s → C s e → step s e = some s' → I s')
    {es : List ε} {s t : σ} (hs : I s) (hC : Meets step C s es)
    (h : exec step s es = some t) : I t := by
  induction es generalizing s with
  | nil => cases h; exact hs
  | cons e es ih =>
      obtain ⟨s₁, h₁, h₂⟩ := exec_cons_inv h
      obtain ⟨hc, hrest⟩ := hC s₁ h₁
      exact ih (hstep s e s₁ hs hc h₁) hrest h₂

/-- The trivial condition is met by every schedule. -/
theorem meets_true (s : σ) (es : List ε) : Meets step (fun _ _ => True) s es := by
  induction es generalizing s with
  | nil => trivial
  | cons e es ih => exact fun s' _ => ⟨trivial, ih s'⟩

/-- What a step condition and an invariant imply is met as well. -/
theorem Meets.of_invariant {I : σ → Prop} {C D : σ → ε → Prop}
    (hstep : ∀ s e s', I s → C s e → step s e = some s' → I s') (hD : ∀ s e, I s → C s e → D s e)
    {es : List ε} {s : σ} (hs : I s) (hC : Meets step C s es) : Meets step D s es := by
  induction es generalizing s with
  | nil => trivial
  | cons e es ih =>
      intro s₁ h₁
      obtain ⟨hc, hrest⟩ := hC s₁ h₁
      exact ⟨hD s e hs hc, ih (hstep s e s₁ hs hc h₁) hrest⟩

/-- An invariant that implies `P` gives `P` in every state visited. -/
theorem always_of_invariant {I P : σ → Prop} {C : σ → ε → Prop}
    (hstep : ∀ s e s', I s → C s e → step s e = some s' → I s') (hP : ∀ s, I s → P s)
    {es : List ε} {s : σ} (hs : I s) (hC : Meets step C s es) : Always step P s es := by
  induction es generalizing s with
  | nil => exact hP s hs
  | cons e es ih =>
      refine ⟨hP s hs, fun s₁ h₁ => ?_⟩
      obtain ⟨hc, hrest⟩ := hC s₁ h₁
      exact ih (hstep s e s₁ hs hc h₁) hrest

theorem Always.head {P : σ → Prop} {es : List ε} {s : σ} (hA : Always step P s es) : P s := by
  cases es with
  | nil => exact hA
  | cons e es => exact hA.1

/-- What holds of every state visited holds where the schedule ends. -/
theorem Always.last {P : σ → Prop} {es : List ε} {s t : σ} (hA : Always step P s es)
    (h : exec step s es = some t) : P t := by
  induction es generalizing s with
  | nil => cases h; exact hA
  | cons e es ih =>
      obtain ⟨s₁, h₁, h₂⟩ := exec_cons_inv h
      exact ih (hA.2 s₁ h₁) h₂

/-- What every step does is done along every schedule. -/
theorem steps_of_step {R : σ → σ → Prop} (h : ∀ s e s', step s e = some s' → R s s')
    (s : σ) (es : List ε) : Steps step R s es := by
  induction es generalizing s with
  | nil => trivial
  | cons e es ih => exact fun s₁ h₁ => ⟨h s e s₁ h₁, ih s₁⟩

/-! ## Exact step conditions -/

/--
**When a step condition is exact.**

If `I` carries `P`, steps meeting `C` keep `I`, and a step that lands in a
`P`-state from an `I`-state must have met `C`, then a schedule visits only
`P`-states exactly when all its steps meet `C`.
-/
theorem always_iff_meets {I P : σ → Prop} {C : σ → ε → Prop}
    (hP : ∀ s, I s → P s)
    (hkeep : ∀ s e s', I s → C s e → step s e = some s' → I s')
    (hneed : ∀ s e s', I s → step s e = some s' → P s' → C s e)
    {es : List ε} {s : σ} (hs : I s) : Always step P s es ↔ Meets step C s es := by
  refine ⟨fun hA => ?_, fun hC => always_of_invariant hkeep hP hs hC⟩
  induction es generalizing s with
  | nil => trivial
  | cons e es ih =>
      intro s₁ h₁
      have hrest := hA.2 s₁ h₁
      have hc : C s e := hneed s e s₁ hs h₁ hrest.head
      exact ⟨hc, ih (hkeep s e s₁ hs hc h₁) hrest⟩

/-- Two step conditions that agree under an invariant are met by the same schedules. -/
theorem meets_congr {I : σ → Prop} {C D : σ → ε → Prop}
    (hkeep : ∀ s e s', I s → step s e = some s' → I s') (hexact : ∀ s e, I s → (C s e ↔ D s e))
    {es : List ε} {s : σ} (hs : I s) : Meets step C s es ↔ Meets step D s es := by
  induction es generalizing s with
  | nil => exact Iff.rfl
  | cons e es ih =>
      refine forall₂_congr fun s₁ h₁ => ?_
      rw [hexact s e hs, ih (hkeep s e s₁ hs h₁)]

/-- A step condition that says of each step whether it is one of `R` says it of schedules. -/
theorem steps_iff_meets {I : σ → Prop} {R : σ → σ → Prop} {C : σ → ε → Prop}
    (hkeep : ∀ s e s', I s → step s e = some s' → I s')
    (hexact : ∀ s e s', I s → step s e = some s' → (R s s' ↔ C s e))
    {es : List ε} {s : σ} (hs : I s) : Steps step R s es ↔ Meets step C s es := by
  induction es generalizing s with
  | nil => exact Iff.rfl
  | cons e es ih =>
      refine forall₂_congr fun s₁ h₁ => ?_
      rw [hexact s e s₁ hs h₁, ih (hkeep s e s₁ hs h₁)]

end Schedule
