import Mathlib.Algebra.Ring.Nat
import Mathlib.Data.List.Basic

/-!
# Fields joined by a delimiter

When does a joined text determine its fields? Splitting it back gives the fields
if none of them contains the delimiter. Knowing only *how many* fields there are,
that condition is also necessary: as soon as one field contains the delimiter,
moving the cut gives another list of the same length with the same text.
-/

namespace Delimited

variable {α : Type*}

/-- The fields, separated by `d`. -/
def join (d : α) (fields : List (List α)) : List α := [d].intercalate fields

@[simp] theorem join_singleton (d : α) (x : List α) : join d [x] = x := by simp [join]

@[simp] theorem join_cons_cons (d : α) (x y : List α) (zs : List (List α)) :
    join d (x :: y :: zs) = x ++ d :: join d (y :: zs) := by
  simp [join, List.intercalate_cons_cons]

theorem join_append (d : α) {xs ys : List (List α)} (hx : xs ≠ []) (hy : ys ≠ []) :
    join d (xs ++ ys) = join d xs ++ d :: join d ys := by
  induction xs with
  | nil => exact absurd rfl hx
  | cons x xs ih =>
      cases xs with
      | nil =>
          obtain ⟨y, ys, rfl⟩ := List.exists_cons_of_ne_nil hy
          simp
      | cons x' xs =>
          have := ih (by simp)
          rw [List.cons_append] at this
          simp [this]

/-- A text is split at its *last* delimiter in one way only. -/
theorem append_delim_inj {d : α} {a a' b b' : List α} (hb : d ∉ b) (hb' : d ∉ b')
    (h : a ++ d :: b = a' ++ d :: b') : a = a' ∧ b = b' := by
  rcases List.append_eq_append_iff.mp h with ⟨c, ha, hc⟩ | ⟨c, ha, hc⟩
  · cases c with
    | nil => exact ⟨by simpa using ha.symm, by simpa using hc⟩
    | cons x c =>
        obtain ⟨_, rfl⟩ := List.cons_eq_cons.mp hc
        exact absurd (by simp) hb
  · cases c with
    | nil => exact ⟨by simpa using ha, by simpa using hc.symm⟩
    | cons x c =>
        obtain ⟨_, rfl⟩ := List.cons_eq_cons.mp hc
        exact absurd (by simp) hb'

/-- So it is at its *first* one. -/
theorem append_delim_inj_left {d : α} {a a' b b' : List α} (ha : d ∉ a) (ha' : d ∉ a')
    (h : a ++ d :: b = a' ++ d :: b') : a = a' ∧ b = b' := by
  have hreverse : b.reverse ++ d :: a.reverse = b'.reverse ++ d :: a'.reverse := by
    simpa using congrArg List.reverse h
  obtain ⟨hb, ha⟩ := append_delim_inj (by simpa using ha) (by simpa using ha') hreverse
  exact ⟨List.reverse_injective ha, List.reverse_injective hb⟩

section Counting

variable [DecidableEq α]

/-- How many delimiters the fields contribute beside the separating ones. -/
theorem count_join (d : α) {xs : List (List α)} (hx : xs ≠ []) :
    (join d xs).count d + 1 = (xs.map (List.count d)).sum + xs.length := by
  induction xs with
  | nil => exact absurd rfl hx
  | cons x xs ih =>
      cases xs with
      | nil => simp
      | cons y ys =>
          have := ih (by simp)
          simp only [join_cons_cons, List.count_append, List.count_cons_self, List.map_cons,
            List.sum_cons, List.length_cons] at this ⊢
          omega

/-- **Delimiter-free fields are determined by their text and their number.** -/
theorem join_unique {d : α} {xs ys : List (List α)} (hne : xs ≠ [])
    (hfree : ∀ x ∈ xs, d ∉ x) (hlen : ys.length = xs.length) (h : join d ys = join d xs) :
    ys = xs := by
  have hne' : ys ≠ [] := by
    intro h0
    rw [h0] at hlen
    exact hne (List.length_eq_zero_iff.mp hlen.symm)
  -- the text has exactly the separating delimiters, so no field of `ys` has one either
  have hzero : (xs.map (List.count d)).sum = 0 := by
    rw [List.sum_eq_zero_iff_forall_eq_nat]
    intro n hn
    obtain ⟨x, hx, rfl⟩ := List.mem_map.mp hn
    exact List.count_eq_zero.mpr (hfree x hx)
  have hcx := count_join d hne
  have hcy := count_join d hne'
  rw [h] at hcy
  have hzero' : (ys.map (List.count d)).sum = 0 := by omega
  have hfree' : ∀ y ∈ ys, d ∉ y := by
    intro y hy
    rw [List.sum_eq_zero_iff_forall_eq_nat] at hzero'
    exact List.count_eq_zero.mp (hzero' _ (List.mem_map_of_mem hy))
  rw [← List.splitOn_intercalate d hfree' hne', ← List.splitOn_intercalate d hfree hne]
  exact congrArg _ h

end Counting

/-- **A field containing the delimiter can be cut elsewhere.** -/
theorem join_recut {d : α} {xs : List (List α)} (hlen : 2 ≤ xs.length)
    (hd : ∃ x ∈ xs, d ∈ x) :
    ∃ ys, ys.length = xs.length ∧ join d ys = join d xs ∧ ys ≠ xs := by
  obtain ⟨x, hx, hdx⟩ := hd
  obtain ⟨pre, post, rfl⟩ := List.append_of_mem hx
  obtain ⟨a, b, rfl⟩ := List.append_of_mem hdx
  cases post with
  | cons y post =>
      -- give the tail of the field to the field after it
      refine ⟨pre ++ a :: (b ++ d :: y) :: post, by simp, ?_, ?_⟩
      · cases pre with
        | nil => cases post <;> simp
        | cons p pre =>
            rw [join_append d (by simp) (by simp), join_append d (by simp) (by simp)]
            cases post <;> simp
      · intro he
        have := (List.cons_eq_cons.mp (List.append_cancel_left he)).1
        simp at this
  | nil =>
      -- the field is the last one: give its head to the field before it
      have hpre : pre ≠ [] := by
        intro h0; subst h0; simp at hlen
      obtain ⟨pre, y, rfl⟩ : ∃ l z, pre = l ++ [z] :=
        ⟨_, _, (List.dropLast_append_getLast hpre).symm⟩
      refine ⟨pre ++ [y ++ d :: a, b], by simp, ?_, ?_⟩
      · cases pre with
        | nil => simp
        | cons p pre =>
            rw [List.append_assoc, join_append d (by simp) (by simp),
              join_append d (by simp) (by simp)]
            simp
      · intro he
        rw [List.append_assoc] at he
        have := (List.cons_eq_cons.mp (List.append_cancel_left he)).1
        simp at this

/-- **Exactly the delimiter-free lists are determined by their text and their number.** -/
theorem join_unique_iff [DecidableEq α] {d : α} {xs : List (List α)} (hlen : 2 ≤ xs.length) :
    (∀ ys, ys.length = xs.length → join d ys = join d xs → ys = xs) ↔ ∀ x ∈ xs, d ∉ x := by
  constructor
  · intro h x hx hd
    obtain ⟨ys, h1, h2, h3⟩ := join_recut hlen ⟨x, hx, hd⟩
    exact h3 (h ys h1 h2)
  · intro hfree ys h1 h2
    exact join_unique (List.ne_nil_of_length_pos (by omega)) hfree h1 h2

end Delimited
