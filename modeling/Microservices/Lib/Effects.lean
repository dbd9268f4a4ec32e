import Mathlib.Logic.Basic

/-!
# Handlers whose awaits may fail

A handler is a program in `EStateM`: it changes a state, may raise, and what it
changed before it raised stays changed. `await` runs one operation under a
`Fault`, which covers the two things a caller cannot tell apart when a remote
operation raises: it was never carried out, or it was and the answer got lost.

`Ensures` is a postcondition that covers both exits, since after a failure the
state is all there is.
-/

/-- How one awaited operation fails. -/
inductive Fault where
  | none
  /-- It raises, and has had no effect. -/
  | before
  /-- It raises after its effect. -/
  | after
  deriving DecidableEq, Repr

namespace Effects

variable {ε σ α β : Type}

def await (e : ε) : Fault → EStateM ε σ α → EStateM ε σ α
  | .none, op => op
  | .before, _ => throw e
  | .after, op => do
      let _ ← op
      throw e

/-- The state a handler leaves, whichever way it ended. -/
def final : EStateM.Result ε σ α → σ
  | .ok _ s => s
  | .error _ s => s

/-- From a state with `P` the handler ends in one with `Q`, whether or not it raises. -/
def Ensures (P : σ → Prop) (h : EStateM ε σ α) (Q : σ → Prop) : Prop :=
  ∀ s, P s → Q (final (h.run s))

/-- `P` survives the handler. -/
def Keeps (P : σ → Prop) (h : EStateM ε σ α) : Prop := Ensures P h P

theorem run_bind_ok {h : EStateM ε σ α} {s s' : σ} {a : α} (hr : h.run s = .ok a s')
    (k : α → EStateM ε σ β) : (h >>= k).run s = (k a).run s' := by
  rw [EStateM.run_bind, hr]

theorem run_bind_error {h : EStateM ε σ α} {s s' : σ} {e : ε} (hr : h.run s = .error e s')
    (k : α → EStateM ε σ β) : (h >>= k).run s = .error e s' := by
  rw [EStateM.run_bind, hr]

/-- What is made of the answer leaves the state. -/
theorem final_bind_pure (h : EStateM ε σ α) (g : α → β) (s : σ) :
    final ((h >>= fun a => pure (g a) : EStateM ε σ β).run s) = final (h.run s) := by
  cases hr : h.run s with
  | ok a s' =>
      rw [run_bind_ok hr]
      rfl
  | error e s' =>
      rw [run_bind_error hr]
      rfl

variable {P Q : σ → Prop}

theorem keeps_pure (a : α) : Keeps P (pure a : EStateM ε σ α) := fun _ h => h

theorem keeps_throw (e : ε) : Keeps P (throw e : EStateM ε σ α) := fun _ h => h

theorem keeps_get : Keeps P (get : EStateM ε σ σ) := fun _ h => h

theorem ensures_modify {f : σ → σ} (hf : ∀ s, P s → Q (f s)) :
    Ensures P (modify f : EStateM ε σ PUnit) Q := hf

theorem ensures_bind {h : EStateM ε σ α} {k : α → EStateM ε σ β} (hh : Ensures P h Q)
    (hk : ∀ a, Keeps Q (k a)) : Ensures P (h >>= k) Q := by
  intro s hs
  have hmid := hh s hs
  rw [EStateM.run_bind]
  cases hr : h.run s with
  | ok a s' =>
      rw [hr] at hmid
      exact hk a s' hmid
  | error e s' =>
      rw [hr] at hmid
      exact hmid

theorem keeps_bind {h : EStateM ε σ α} {k : α → EStateM ε σ β} (hh : Keeps P h)
    (hk : ∀ a, Keeps P (k a)) : Keeps P (h >>= k) := ensures_bind hh hk

/-- A fault takes nothing away from what the operation keeps. -/
theorem keeps_await {e : ε} {op : EStateM ε σ α} (h : Keeps P op) (f : Fault) :
    Keeps P (await e f op) := by
  cases f with
  | none => exact h
  | before => exact keeps_throw e
  | after => exact keeps_bind h fun _ => keeps_throw e

/-- Unless it failed before its effect, the operation has ensured what it ensures. -/
theorem ensures_await {e : ε} {op : EStateM ε σ α} (h : Ensures P op Q) {f : Fault}
    (hf : f ≠ .before) : Ensures P (await e f op) Q := by
  cases f with
  | none => exact h
  | before => exact absurd rfl hf
  | after => exact ensures_bind h fun _ => keeps_throw e

/-- Nor does a fault before its effect matter to what holds before. -/
theorem ensures_await_weak {e : ε} {op : EStateM ε σ α} (hPQ : ∀ s, P s → Q s)
    (h : Ensures P op Q) (f : Fault) : Ensures P (await e f op) Q := by
  cases f with
  | none => exact h
  | before => exact hPQ
  | after => exact ensures_bind h fun _ => keeps_throw e

/-! ## What a handler returns -/

/-- From a state with `P` the handler returns, if it does, something with `R`. -/
def Yields (P : σ → Prop) (h : EStateM ε σ α) (R : α → Prop) : Prop :=
  ∀ s, P s → ∀ a s', h.run s = .ok a s' → R a

section

variable {R : α → Prop} {R' : β → Prop}

theorem yields_pure {a : α} (ha : R a) : Yields P (pure a : EStateM ε σ α) R := by
  intro s _ a' s' h
  cases h
  exact ha

theorem yields_throw (e : ε) : Yields P (throw e : EStateM ε σ α) R := by
  intro s _ a s' h
  cases h

theorem yields_true (h : EStateM ε σ α) : Yields P h fun _ => True := fun _ _ _ _ _ => trivial

/-- What is read is a state with `P`. -/
theorem yields_get : Yields P (get : EStateM ε σ σ) P := by
  intro s hs a s' h
  cases h
  exact hs

/-- What comes after starts from what the first handler ensures. -/
theorem yields_bind_ensures {h : EStateM ε σ α} {k : α → EStateM ε σ β} (hensures : Ensures P h Q)
    (hh : Yields P h R) (hk : ∀ a, R a → Yields Q (k a) R') : Yields P (h >>= k) R' := by
  intro s hs b s' hrun
  have hmid := hensures s hs
  rw [EStateM.run_bind] at hrun
  cases hr : h.run s with
  | ok a s₁ =>
      rw [hr] at hmid hrun
      exact hk a (hh s hs a s₁ hr) s₁ hmid b s' hrun
  | error e s₁ =>
      rw [hr] at hrun
      cases hrun

theorem yields_bind {h : EStateM ε σ α} {k : α → EStateM ε σ β} (hkeeps : Keeps P h)
    (hh : Yields P h R) (hk : ∀ a, R a → Yields P (k a) R') : Yields P (h >>= k) R' :=
  yields_bind_ensures hkeeps hh hk

/-- The last step need not know the state it starts from. -/
theorem yields_bind_last {h : EStateM ε σ α} {k : α → EStateM ε σ β} (hh : Yields P h R)
    (hk : ∀ a, R a → Yields (fun _ => True) (k a) R') : Yields P (h >>= k) R' :=
  yields_bind_ensures (fun _ _ => trivial) hh hk

/-- What comes after keeps what the first handler ensures, and may count on what it returns. -/
theorem ensures_bind_returning {h : EStateM ε σ α} {k : α → EStateM ε σ β} (hh : Ensures P h Q)
    (hr : Yields P h R) (hk : ∀ a, R a → Keeps Q (k a)) : Ensures P (h >>= k) Q := by
  intro s hs
  have hmid := hh s hs
  rw [EStateM.run_bind]
  cases hrun : h.run s with
  | ok a s₁ =>
      rw [hrun] at hmid
      exact hk a (hr s hs a s₁ hrun) s₁ hmid
  | error e s₁ =>
      rw [hrun] at hmid
      exact hmid

/-- What comes after may count on what the first handler returns. -/
theorem ensures_bind_yields {h : EStateM ε σ α} {k : α → EStateM ε σ β} (hPQ : ∀ s, P s → Q s)
    (hkeeps : Keeps P h) (hh : Yields P h R) (hk : ∀ a, R a → Ensures P (k a) Q) :
    Ensures P (h >>= k) Q := by
  intro s hs
  have hmid := hkeeps s hs
  rw [EStateM.run_bind]
  cases hr : h.run s with
  | ok a s₁ =>
      rw [hr] at hmid
      exact hk a (hh s hs a s₁ hr) s₁ hmid
  | error e s₁ =>
      rw [hr] at hmid
      exact hPQ s₁ hmid

theorem yields_await {e : ε} {op : EStateM ε σ α} (h : Yields P op R) (f : Fault) :
    Yields P (await e f op) R := by
  cases f with
  | none => exact h
  | before => exact yields_throw e
  | after => exact yields_bind_last (yields_true op) fun _ _ => yields_throw e

end

/-! ## Commits -/

/-- A handler that ends with a commit raises and leaves what its body left, or leaves what the
commit makes of that; only a commit whose answer got lost does both. -/
theorem commit_cases (body : EStateM ε σ (α × β)) (write : β → σ → σ) (e : ε) (f : Fault) (s : σ) :
    let r := (do
      let (a, w) ← body
      await e f (modify (write w))
      return a : EStateM ε σ α).run s
    (∃ e, r = .error e (final (body.run s)))
      ∨ ∃ a w s', body.run s = .ok (a, w) s' ∧ final r = write w s'
        ∧ (f = .after ∨ ∃ s'', r = .ok a s'') := by
  cases hr : body.run s with
  | error e s' => exact Or.inl ⟨e, run_bind_error hr _⟩
  | ok r s' =>
      obtain ⟨a, w⟩ := r
      dsimp only
      rw [run_bind_ok hr]
      cases f with
      | none => exact Or.inr ⟨a, w, s', rfl, rfl, Or.inr ⟨_, rfl⟩⟩
      | before => exact Or.inl ⟨e, rfl⟩
      | after => exact Or.inr ⟨a, w, s', rfl, rfl, Or.inl rfl⟩

/-! ## Checks -/

/-- From `s` the handler returns `a` if `c` and raises if not; either way it changes nothing. -/
def ReturnsIf (c : Prop) (s : σ) (h : EStateM ε σ α) (a : α) : Prop :=
  (c → h.run s = .ok a s) ∧ (¬ c → ∃ e, h.run s = .error e s)

section

variable {c c' : Prop} {s : σ} {a : α} {b : β}

theorem returnsIf_pure : ReturnsIf True s (pure a : EStateM ε σ α) a :=
  ⟨fun _ => rfl, fun h => absurd trivial h⟩

theorem returnsIf_throw_if {p : Prop} [Decidable p] (e : ε) :
    ReturnsIf (¬ p) s (if p then throw e else pure a : EStateM ε σ α) a := by
  constructor
  · intro hp
    rw [if_neg hp]
    rfl
  · intro hp
    rw [if_pos (not_not.mp hp)]
    exact ⟨e, rfl⟩

theorem ReturnsIf.get_bind {k : σ → EStateM ε σ α} (h : ReturnsIf c s (k s) a) :
    ReturnsIf c s (get >>= k) a := h

theorem ReturnsIf.congr {h : EStateM ε σ α} (hcc' : c ↔ c') (hh : ReturnsIf c s h a) :
    ReturnsIf c' s h a :=
  ⟨fun hc => hh.1 (hcc'.mpr hc), fun hn => hh.2 fun hc => hn (hcc'.mp hc)⟩

/-- The second check may count on the first. -/
theorem ReturnsIf.bind {h : EStateM ε σ α} {k : α → EStateM ε σ β} (hh : ReturnsIf c s h a)
    (hk : c → ReturnsIf c' s (k a) b) : ReturnsIf (c ∧ c') s (h >>= k) b := by
  constructor
  · rintro ⟨hc, hc'⟩
    rw [run_bind_ok (hh.1 hc)]
    exact (hk hc).1 hc'
  · intro hn
    by_cases hc : c
    · rw [run_bind_ok (hh.1 hc)]
      exact (hk hc).2 fun hc' => hn ⟨hc, hc'⟩
    · obtain ⟨e, he⟩ := hh.2 hc
      exact ⟨e, run_bind_error he k⟩

theorem returnsIf_await {op : EStateM ε σ α} (e : ε) (f : Fault) (h : ReturnsIf c s op a) :
    ReturnsIf (f = .none ∧ c) s (await e f op) a := by
  cases f with
  | none => exact ⟨fun hc => h.1 hc.2, fun hn => h.2 fun hc => hn ⟨rfl, hc⟩⟩
  | before => exact ⟨fun hc => absurd hc.1 (by simp), fun _ => ⟨e, rfl⟩⟩
  | after =>
      refine ⟨fun hc => absurd hc.1 (by simp), fun _ => ?_⟩
      by_cases hc : c
      · exact ⟨e, run_bind_ok (h.1 hc) _⟩
      · obtain ⟨e', he⟩ := h.2 hc
        exact ⟨e', run_bind_error he _⟩

theorem returnsIf_await_pure (e : ε) (f : Fault) (a : α) :
    ReturnsIf (f = .none) s (await e f (pure a)) a :=
  ReturnsIf.congr (and_iff_left trivial) (returnsIf_await e f returnsIf_pure)

end

/-! ## Parts of a state, and exceptions that are caught -/

/-- Run on one part of a larger state. -/
def onPart {τ : Type} (part : τ → σ) (put : σ → τ → τ) (h : EStateM ε σ α) : EStateM ε τ α :=
  fun t =>
    match h.run (part t) with
    | .ok a s => .ok a (put s t)
    | .error e s => .error e (put s t)

section

variable {τ : Type} {part : τ → σ} {put : σ → τ → τ} {h : EStateM ε σ α} {t : τ} {s : σ}

theorem run_onPart_ok {a : α} (hr : h.run (part t) = .ok a s) :
    (onPart part put h).run t = .ok a (put s t) := by
  show (match h.run (part t) with | .ok a s => _ | .error e s => _) = _
  rw [hr]

theorem run_onPart_error {e : ε} (hr : h.run (part t) = .error e s) :
    (onPart part put h).run t = .error e (put s t) := by
  show (match h.run (part t) with | .ok a s => _ | .error e s => _) = _
  rw [hr]

end

/-- `try: … except Exception: return d`. -/
def orReturn (h : EStateM ε σ α) (d : α) : EStateM ε σ α := tryCatch h fun _ => pure d

theorem run_orReturn_ok {h : EStateM ε σ α} {s s' : σ} {a : α} (hr : h.run s = .ok a s') (d : α) :
    (orReturn h d).run s = .ok a s' := by
  show EStateM.tryCatch h _ s = _
  unfold EStateM.tryCatch
  change h s = _ at hr
  rw [hr]

theorem run_orReturn_error {h : EStateM ε σ α} {s s' : σ} {e : ε} (hr : h.run s = .error e s')
    (d : α) : (orReturn h d).run s = .ok d s' := by
  show EStateM.tryCatch h _ s = _
  unfold EStateM.tryCatch
  change h s = _ at hr
  rw [hr]
  rfl

/-- What is caught does not get out. -/
theorem orReturn_returns (h : EStateM ε σ α) (d : α) (s : σ) :
    ∃ a, (orReturn h d).run s = .ok a (final (h.run s)) := by
  cases hr : h.run s with
  | ok a s' => exact ⟨a, run_orReturn_ok hr d⟩
  | error e s' => exact ⟨d, run_orReturn_error hr d⟩

theorem keeps_orReturn {h : EStateM ε σ α} (hh : Keeps P h) (d : α) : Keeps P (orReturn h d) := by
  intro s hs
  obtain ⟨a, ha⟩ := orReturn_returns h d s
  rw [ha]
  exact hh s hs

theorem keeps_onPart {τ : Type} {part : τ → σ} {put : σ → τ → τ} {S : τ → Prop}
    {h : EStateM ε σ α} (hh : Keeps P h) (hpart : ∀ t, S t → P (part t))
    (hput : ∀ t s, S t → P s → S (put s t)) : Keeps S (onPart part put h) := by
  intro t ht
  have hmid := hh (part t) (hpart t ht)
  cases hr : h.run (part t) with
  | ok a s =>
      rw [hr] at hmid
      rw [run_onPart_ok hr]
      exact hput t s ht hmid
  | error e s =>
      rw [hr] at hmid
      rw [run_onPart_error hr]
      exact hput t s ht hmid

theorem returnsIf_onPart {τ : Type} {part : τ → σ} {put : σ → τ → τ} {h : EStateM ε σ α} {c : Prop}
    {a : α} {t : τ} (hh : ReturnsIf c (part t) h a) (hput : put (part t) t = t) :
    ReturnsIf c t (onPart part put h) a := by
  constructor
  · intro hc
    rw [run_onPart_ok (hh.1 hc), hput]
  · intro hn
    obtain ⟨e, he⟩ := hh.2 hn
    exact ⟨e, by rw [run_onPart_error he, hput]⟩

theorem yields_onPart {τ : Type} {part : τ → σ} {put : σ → τ → τ} {S : τ → Prop} {R : α → Prop}
    {h : EStateM ε σ α} (hh : Yields P h R) (hpart : ∀ t, S t → P (part t)) :
    Yields S (onPart part put h) R := by
  intro t ht a t' hrun
  cases hr : h.run (part t) with
  | ok a' s =>
      rw [run_onPart_ok hr] at hrun
      cases hrun
      exact hh (part t) (hpart t ht) _ s hr
  | error e s =>
      rw [run_onPart_error hr] at hrun
      cases hrun

/-! ## Two runs -/

/-- What the caller sees of a run. -/
def answer : EStateM.Result ε σ α → Except ε α
  | .ok a _ => .ok a
  | .error e _ => .error e

/-- From related states the two handlers answer the same and leave related states. -/
def Twin (R : σ → σ → Prop) (h h' : EStateM ε σ α) : Prop :=
  ∀ s s', R s s' → answer (h.run s) = answer (h'.run s') ∧ R (final (h.run s)) (final (h'.run s'))

variable {R : σ → σ → Prop}

theorem twin_pure (a : α) : Twin R (pure a : EStateM ε σ α) (pure a) := fun _ _ h => ⟨rfl, h⟩

theorem twin_throw (e : ε) : Twin R (throw e : EStateM ε σ α) (throw e) := fun _ _ h => ⟨rfl, h⟩

/-- What two runs read may differ, as long as what they do with it does not. -/
theorem twin_get_bind {k k' : σ → EStateM ε σ α} (hk : ∀ s s', R s s' → Twin R (k s) (k' s')) :
    Twin R (get >>= k) (get >>= k') := fun s s' h => hk s s' h s s' h

theorem twin_modify {f f' : σ → σ} (hf : ∀ s s', R s s' → R (f s) (f' s')) :
    Twin R (modify f : EStateM ε σ PUnit) (modify f') := fun s s' h => ⟨rfl, hf s s' h⟩

/-- The runs end the same way, in related states. -/
theorem Twin.cases {h h' : EStateM ε σ α} (hh : Twin R h h') {s s' : σ} (hs : R s s') :
    (∃ a t t', h.run s = .ok a t ∧ h'.run s' = .ok a t' ∧ R t t')
      ∨ ∃ e t t', h.run s = .error e t ∧ h'.run s' = .error e t' ∧ R t t' := by
  obtain ⟨heq, hrel⟩ := hh s s' hs
  cases hr : h.run s with
  | ok a t =>
      cases hr' : h'.run s' with
      | ok a' t' =>
          rw [hr, hr'] at heq hrel
          cases heq
          exact Or.inl ⟨a, t, t', rfl, rfl, hrel⟩
      | error e' t' =>
          rw [hr, hr'] at heq
          cases heq
  | error e t =>
      cases hr' : h'.run s' with
      | ok a' t' =>
          rw [hr, hr'] at heq
          cases heq
      | error e' t' =>
          rw [hr, hr'] at heq hrel
          cases heq
          exact Or.inr ⟨e, t, t', rfl, rfl, hrel⟩

/-- What comes after may count on what the first handler returns. -/
theorem twin_bind_returning {h h' : EStateM ε σ α} {k k' : α → EStateM ε σ β} {Q : α → Prop}
    (hh : Twin R h h') (hq : ∀ s a t, h.run s = .ok a t → Q a)
    (hk : ∀ a, Q a → Twin R (k a) (k' a)) : Twin R (h >>= k) (h' >>= k') := by
  intro s s' hs
  rcases hh.cases hs with ⟨a, t, t', hr, hr', hrel⟩ | ⟨e, t, t', hr, hr', hrel⟩
  · rw [run_bind_ok hr, run_bind_ok hr']
    exact hk a (hq s a t hr) t t' hrel
  · rw [run_bind_error hr, run_bind_error hr']
    exact ⟨rfl, hrel⟩

theorem twin_bind {h h' : EStateM ε σ α} {k k' : α → EStateM ε σ β} (hh : Twin R h h')
    (hk : ∀ a, Twin R (k a) (k' a)) : Twin R (h >>= k) (h' >>= k') :=
  twin_bind_returning (Q := fun _ => True) hh (fun _ _ _ _ => trivial) fun a _ => hk a

theorem twin_orReturn {h h' : EStateM ε σ α} (hh : Twin R h h') (d : α) :
    Twin R (orReturn h d) (orReturn h' d) := by
  intro s s' hs
  rcases hh.cases hs with ⟨a, t, t', hr, hr', hrel⟩ | ⟨e, t, t', hr, hr', hrel⟩
  · rw [run_orReturn_ok hr, run_orReturn_ok hr']
    exact ⟨rfl, hrel⟩
  · rw [run_orReturn_error hr, run_orReturn_error hr']
    exact ⟨rfl, hrel⟩

/-- A run on a part is related through the part, if putting it back is. -/
theorem twin_onPart {τ : Type} {part : τ → σ} {put : σ → τ → τ} {S : τ → τ → Prop}
    {h h' : EStateM ε σ α} (hh : Twin R h h') (hpart : ∀ t t', S t t' → R (part t) (part t'))
    (hput : ∀ t t' s s', S t t' → R s s' → S (put s t) (put s' t')) :
    Twin S (onPart part put h) (onPart part put h') := by
  intro t t' ht
  rcases hh.cases (hpart t t' ht) with ⟨a, s, s', hr, hr', hrel⟩ | ⟨e, s, s', hr, hr', hrel⟩
  · rw [run_onPart_ok hr, run_onPart_ok hr']
    exact ⟨rfl, hput t t' s s' ht hrel⟩
  · rw [run_onPart_error hr, run_onPart_error hr']
    exact ⟨rfl, hput t t' s s' ht hrel⟩

end Effects
