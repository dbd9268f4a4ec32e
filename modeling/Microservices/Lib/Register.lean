import Mathlib.Algebra.Order.Field.Basic
import Mathlib.Logic.Function.Basic
import Mathlib.Tactic.Linarith

/-!
# A register that several parties degrade and restore

Each party has a program of operations on one shared register and one saved copy of
its own. It restores the register by writing its copy back, by the inverse of what it
did, or by writing a constant. Alone that may well work. Interleaved, a party can save
what another has left there for the time being, and write it back for good.

`Settled` lists the ways an interleaving of such programs comes out right.
-/

namespace Register

inductive Op (K : Type*) where
  | save
  /-- Write the saved copy back. -/
  | restore
  | restoreTimes (c : K)
  | set (c : K)
  | times (c : K)
  | plus (d : K)
  /-- Up by `d`, to `cap` at most. -/
  | raise (d cap : K)
  /-- Down by `d`, to `floor` at least. -/
  | lower (d floor : K)
  | ease (c floor : K)
  deriving DecidableEq, Repr

variable {K : Type*} [Field K] [LinearOrder K]

/-- The saved copy and the register after an operation. -/
def Op.run (saved cur : K) : Op K → K × K
  | .save => (cur, cur)
  | .restore => (saved, saved)
  | .restoreTimes c => (saved, saved * c)
  | .set c => (saved, c)
  | .times c => (saved, cur * c)
  | .plus d => (saved, cur + d)
  | .raise d cap => (saved, min cap (cur + d))
  | .lower d floor => (saved, max floor (cur - d))
  | .ease c floor => (saved, max floor (cur * c))

/-- One party alone. -/
def runAlone : List (Op K) → K × K → K × K
  | [], s => s
  | op :: ops, s => runAlone ops (op.run s.1 s.2)

variable {ι : Type*} [DecidableEq ι]

/-- The saved copies of the parties and the register after an operation of one of them. -/
def step (s : (ι → K) × K) (e : ι × Op K) : (ι → K) × K :=
  (Function.update s.1 e.1 (e.2.run (s.1 e.1) s.2).1, (e.2.run (s.1 e.1) s.2).2)

def run : List (ι × Op K) → (ι → K) × K → (ι → K) × K
  | [], s => s
  | e :: t, s => run t (step s e)

/-- What a party does, read off an interleaving. -/
def opsOf {β : Type*} (i : ι) (t : List (ι × β)) : List β := (t.filter fun e => e.1 = i).map Prod.snd

/-! ## Runs -/

theorem run_append (t u : List (ι × Op K)) (s : (ι → K) × K) : run (t ++ u) s = run u (run t s) := by
  induction t generalizing s with
  | nil => rfl
  | cons e t ih => exact ih (step s e)

theorem runAlone_append (p q : List (Op K)) (s : K × K) :
    runAlone (p ++ q) s = runAlone q (runAlone p s) := by
  induction p generalizing s with
  | nil => rfl
  | cons op p ih => exact ih (op.run s.1 s.2)

/-- A party alone, among others that have copies too. -/
theorem run_map (i : ι) (p : List (Op K)) (saved : ι → K) (cur : K) :
    run (p.map fun op => (i, op)) (saved, cur)
      = (Function.update saved i (runAlone p (saved i, cur)).1, (runAlone p (saved i, cur)).2) := by
  induction p generalizing saved cur with
  | nil => exact Prod.ext (Function.update_eq_self i saved).symm rfl
  | cons op p ih =>
      rw [List.map_cons, run, step, ih, Function.update_self, Function.update_idem]
      rfl

/-- Only `save` changes the copy. -/
theorem Op.saved_run {op : Op K} (h : op ≠ .save) (saved cur : K) : (op.run saved cur).1 = saved := by
  cases op with
  | save => exact absurd rfl h
  | _ => rfl

theorem saved_runAlone {p : List (Op K)} (h : Op.save ∉ p) (s : K × K) : (runAlone p s).1 = s.1 := by
  induction p generalizing s with
  | nil => rfl
  | cons op p ih =>
      obtain ⟨hop, hp⟩ := not_or.mp (List.mem_cons.not.mp h)
      rw [runAlone, ih hp]
      exact Op.saved_run (Ne.symm hop) s.1 s.2

/-- A copy stays as long as its party does not save. -/
theorem saved_run {i : ι} {t : List (ι × Op K)} (h : (i, Op.save) ∉ t) (s : (ι → K) × K) :
    (run t s).1 i = s.1 i := by
  induction t generalizing s with
  | nil => rfl
  | cons e t ih =>
      obtain ⟨he, ht⟩ := not_or.mp (List.mem_cons.not.mp h)
      rw [run, ih ht]
      show Function.update s.1 e.1 (e.2.run (s.1 e.1) s.2).1 i = s.1 i
      by_cases hi : i = e.1
      · subst hi
        rw [Function.update_self]
        exact Op.saved_run (fun hsave => he (Prod.ext rfl hsave.symm)) _ _
      · rw [Function.update_of_ne hi]

/-- The copy of a party that does nothing does not matter. -/
theorem run_congr {i : ι} {t : List (ι × Op K)} (h : ∀ e ∈ t, e.1 ≠ i) (saved : ι → K) (copy cur : K) :
    (run t (Function.update saved i copy, cur)).2 = (run t (saved, cur)).2 := by
  induction t generalizing saved cur with
  | nil => rfl
  | cons e t ih =>
      have hne := h e List.mem_cons_self
      have hstep : step (Function.update saved i copy, cur) e
          = (Function.update (step (saved, cur) e).1 i copy, (step (saved, cur) e).2) := by
        unfold step
        dsimp only
        rw [Function.update_of_ne hne, Function.update_comm hne]
      rw [run, hstep]
      exact ih (fun e' he' => h e' (List.mem_cons_of_mem e he')) _ _

/-- What is written back is what has been saved. -/
theorem runAlone_bracket {p : List (Op K)} (h : Op.save ∉ p) (s : K × K) :
    runAlone (.save :: p ++ [.restore]) s = (s.2, s.2) := by
  have hsaved : (runAlone p (s.2, s.2)).1 = s.2 := saved_runAlone h _
  rw [runAlone_append]
  exact Prod.ext hsaved hsaved

/-! ## Programs that read no copy before they have saved one -/

def savesFirst : List (Op K) → Bool
  | [] | .save :: _ => true
  | .restore :: _ | .restoreTimes _ :: _ => false
  | _ :: ops => savesFirst ops

theorem runAlone_copy {p : List (Op K)} (h : savesFirst p = true) (copy copy' cur : K) :
    (runAlone p (copy, cur)).2 = (runAlone p (copy', cur)).2 := by
  induction p generalizing cur with
  | nil => rfl
  | cons op p ih =>
      cases op with
      | save => rfl
      | restore => cases h
      | restoreTimes c => cases h
      | set c => exact ih h c
      | times c => exact ih h _
      | plus d => exact ih h _
      | raise d cap => exact ih h _
      | lower d floor => exact ih h _
      | ease c floor => exact ih h _

/-! ## What comes out right -/

/-- The shifts of `t` lead from `y` to `z`, and none of them is cut off. -/
def Shifts (z : K) : K → List (ι × Op K) → Prop
  | y, [] => y = z
  | y, (_, .raise d cap) :: t => y + d ≤ cap ∧ Shifts z (y + d) t
  | y, (_, .lower d floor) :: t => floor ≤ y - d ∧ Shifts z (y - d) t
  | _, _ => False

theorem Shifts.run_eq {y z : K} {t : List (ι × Op K)} (h : Shifts z y t) (saved : ι → K) :
    (run t (saved, y)).2 = z := by
  induction t generalizing y saved with
  | nil => exact h
  | cons e t ih =>
      obtain ⟨i, op⟩ := e
      cases op with
      | raise d cap =>
          have hcur : ((Op.raise d cap).run (saved i) y).2 = y + d := min_eq_right h.1
          rw [run, step, hcur]
          exact ih h.2 _
      | lower d floor =>
          have hcur : ((Op.lower d floor).run (saved i) y).2 = y - d := max_eq_right h.1
          rw [run, step, hcur]
          exact ih h.2 _
      | _ => exact h.elim

/-- The shifts of `t` come down to the floor `x` from at most `n` above it. -/
def Grounds (x : K) : K → List (ι × Op K) → Prop
  | n, [] => n = 0
  | n, (_, .raise d cap) :: t => 0 ≤ d ∧ x ≤ cap ∧ Grounds x (n + d) t
  | n, (_, .lower d floor) :: t => floor = x ∧ Grounds x (max 0 (n - d)) t
  | _, _ => False

theorem Grounds.run_eq [IsStrictOrderedRing K] {x n y : K} {t : List (ι × Op K)} (h : Grounds x n t)
    (hlow : x ≤ y) (hhigh : y ≤ x + n) (saved : ι → K) : (run t (saved, y)).2 = x := by
  induction t generalizing n y saved with
  | nil =>
      have hn : n = 0 := h
      rw [hn, add_zero] at hhigh
      exact le_antisymm hhigh hlow
  | cons e t ih =>
      obtain ⟨i, op⟩ := e
      cases op with
      | raise d cap =>
          obtain ⟨hd, hcap, hrest⟩ := h
          refine ih hrest (le_min hcap (hlow.trans (le_add_of_nonneg_right hd))) ?_ _
          exact (min_le_right _ _).trans (by linarith)
      | lower d floor =>
          obtain ⟨rfl, hrest⟩ := h
          refine ih hrest (le_max_left _ _) (max_le ?_ ?_) _
          · exact le_add_of_nonneg_right (le_max_left _ _)
          · calc y - d ≤ floor + (n - d) := by linarith
              _ ≤ floor + max 0 (n - d) := by gcongr; exact le_max_right _ _
      | _ => exact h.elim

/-- **The register comes back to `x`**, where each party does what `own` says. -/
inductive Settled (own : ι → List (Op K)) (x : K) : List (ι × Op K) → Prop where
  | nil : Settled own x []
  /-- A party has had the register for itself, from its first operation to its last. -/
  | alone (i : ι) {t : List (ι × Op K)} (ht : Settled own x t) :
      Settled own x (t ++ (own i).map fun op => (i, op))
  /-- The last operation writes the constant. -/
  | const (i : ι) (t : List (ι × Op K)) : Settled own x (t ++ [(i, .set x)])
  /-- The last operation writes back what has been saved when the register was settled. -/
  | writeBack (i : ι) {t u : List (ι × Op K)} (ht : Settled own x t) (hu : (i, .save) ∉ u) :
      Settled own x (t ++ (i, .save) :: (u ++ [(i, .restore)]))
  /-- Whatever a party does between saving and writing back, the others standing still. -/
  | bracket (i : ι) {t u : List (ι × Op K)} {p : List (Op K)} (htu : Settled own x (t ++ u))
      (hp : Op.save ∉ p) (hu : ∀ e ∈ u, e.1 ≠ i) :
      Settled own x (t ++ ((Op.save :: p ++ [Op.restore]).map (fun op => (i, op)) ++ u))
  /-- Factors commute. -/
  | swap {i j : ι} {k k' : K} {t u : List (ι × Op K)} (hij : i ≠ j)
      (h : Settled own x (t ++ (i, .times k) :: (j, .times k') :: u)) :
      Settled own x (t ++ (j, .times k') :: (i, .times k) :: u)
  /-- Shifts that are not cut off cancel out. -/
  | shift {t u : List (ι × Op K)} (ht : Settled own x t) (hu : Shifts x x u) : Settled own x (t ++ u)
  /-- Shifts cut off at the original value do no harm. -/
  | ground {t u : List (ι × Op K)} (ht : Settled own x t) (hu : Grounds x 0 u) : Settled own x (t ++ u)

/-- A factor leaves the copies alone. -/
theorem step_times (i : ι) (k : K) (s : (ι → K) × K) : step s (i, .times k) = (s.1, s.2 * k) :=
  Prod.ext (Function.update_eq_self i s.1) rfl

theorem Settled.run_eq [IsStrictOrderedRing K] {own : ι → List (Op K)} {x : K} {t : List (ι × Op K)}
    (h : Settled own x t) (hown : ∀ i copy, (runAlone (own i) (copy, x)).2 = x) (saved : ι → K) :
    (run t (saved, x)).2 = x := by
  induction h generalizing saved with
  | nil => rfl
  | alone i ht ih =>
      rw [run_append, ← Prod.mk.eta (p := run _ (saved, x)), ih, run_map]
      exact hown i _
  | const i t => rw [run_append]; rfl
  | @writeBack i t u ht hu ih =>
      rw [run_append, ← Prod.mk.eta (p := run _ (saved, x)), ih, run, run_append]
      refine (saved_run hu _).trans ?_
      show Function.update (run t (saved, x)).1 i x i = x
      rw [Function.update_self]
  | bracket i htu hp hu ih =>
      have hbefore := ih saved
      rw [run_append] at hbefore
      rw [run_append, run_append, ← Prod.mk.eta (p := run _ (saved, x)), run_map, runAlone_bracket hp,
        run_congr hu]
      exact hbefore
  | swap hij h ih =>
      have hbefore := ih saved
      rw [run_append, run, run, step_times, step_times] at hbefore
      rw [run_append, run, run, step_times, step_times, mul_right_comm]
      exact hbefore
  | shift ht hu ih =>
      rw [run_append, ← Prod.mk.eta (p := run _ (saved, x)), ih]
      exact hu.run_eq _
  | ground ht hu ih =>
      rw [run_append, ← Prod.mk.eta (p := run _ (saved, x)), ih]
      exact hu.run_eq le_rfl (add_zero x).ge _

end Register
