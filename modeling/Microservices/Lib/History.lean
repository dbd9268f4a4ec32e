import Mathlib.Data.List.Induction
import Microservices.Lib.Schedule

/-!
# What a schedule has done so far

Whether a step is in order may depend on the past: a request is granted because of an
earlier one, an entry is there because somebody put it there. `trace` is that past, each
event with the state it was taken in, the oldest first.

An invariant may refer to it. It is then enough that a step keeps the invariant with
itself added to the past.
-/

namespace Schedule

variable {σ ε : Type*} {step : σ → ε → Option σ}

/-- The events a schedule takes, each with the state before it. -/
def trace (step : σ → ε → Option σ) : σ → List ε → List (σ × ε)
  | _, [] => []
  | s, e :: es =>
      (s, e) ::
        match step s e with
        | none => []
        | some s' => trace step s' es

theorem trace_append {s t : σ} {es fs : List ε} (h : exec step s es = some t) :
    trace step s (es ++ fs) = trace step s es ++ trace step t fs := by
  induction es generalizing s with
  | nil =>
      cases h
      rfl
  | cons e es ih =>
      obtain ⟨s₁, h₁, h₂⟩ := exec_cons_inv h
      rw [List.cons_append, trace, trace, h₁]
      exact congrArg (List.cons (s, e)) (ih h₂)

/-- The last step of a schedule. -/
theorem exec_snoc_inv {s t' : σ} {es : List ε} {e : ε} (h : exec step s (es ++ [e]) = some t') :
    ∃ t, exec step s es = some t ∧ step t e = some t' := by
  induction es generalizing s with
  | nil =>
      obtain ⟨s₁, h₁, h₂⟩ := exec_cons_inv h
      cases h₂
      exact ⟨s, rfl, h₁⟩
  | cons x es ih =>
      obtain ⟨s₁, h₁, h₂⟩ := exec_cons_inv h
      obtain ⟨t, ht, hlast⟩ := ih h₂
      exact ⟨t, (exec_cons es h₁).trans ht, hlast⟩

/-- A schedule takes the events it is made of. -/
theorem map_snd_trace {s t : σ} {es : List ε} (h : exec step s es = some t) :
    (trace step s es).map Prod.snd = es := by
  induction es generalizing s with
  | nil => rfl
  | cons e es ih =>
      obtain ⟨s₁, h₁, h₂⟩ := exec_cons_inv h
      rw [trace, h₁]
      exact congrArg (List.cons e) (ih h₂)

/-- **An invariant that refers to the past holds where a schedule ends.** -/
theorem exec_invariant_past {I : List (σ × ε) → σ → Prop} {s₀ : σ} (hstart : I [] s₀)
    (hstep : ∀ past s e s', I past s → step s e = some s' → I (past ++ [(s, e)]) s')
    {es : List ε} {t : σ} (h : exec step s₀ es = some t) : I (trace step s₀ es) t := by
  induction es using List.reverseRecOn generalizing t with
  | nil =>
      cases h
      exact hstart
  | append_singleton es e ih =>
      obtain ⟨s, hs, hlast⟩ := exec_snoc_inv h
      have hone : trace step s [e] = [(s, e)] := by
        rw [trace, hlast]
        rfl
      rw [trace_append hs, hone]
      exact hstep _ s e t (ih hs) hlast

/--
**What a schedule emits is a schedule of those who receive it.**

`next` is how a receiver takes one item in. If it can take in what each step emits, it
can take in what they all emit. `R` relates the two; it may depend on the events that
are still to come.
-/
theorem exec_emitted {β ω : Type*} {next : β → ω → Option β} {emit : σ × ε → List ω}
    {R : List ε → σ → β → Prop}
    (hstep : ∀ {e es s t b}, R (e :: es) s b → step s e = some t →
      ∃ b', exec next b (emit (s, e)) = some b' ∧ R es t b')
    {es : List ε} {s t : σ} {b : β} (hR : R es s b) (h : exec step s es = some t) :
    ∃ b', exec next b ((trace step s es).flatMap emit) = some b' ∧ R [] t b' := by
  induction es generalizing s b with
  | nil =>
      cases h
      exact ⟨b, rfl, hR⟩
  | cons e es ih =>
      obtain ⟨s₁, h₁, h₂⟩ := exec_cons_inv h
      obtain ⟨b₁, hemit, hR₁⟩ := hstep hR h₁
      obtain ⟨b', hlater, hend⟩ := ih hR₁ h₂
      refine ⟨b', ?_, hend⟩
      rw [trace, h₁]
      exact (exec_append hemit).trans hlater

end Schedule
