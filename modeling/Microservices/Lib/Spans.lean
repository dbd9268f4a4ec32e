import Mathlib.Data.List.DropRight

/-!
# Erasing spans between two brackets

`erase o c` goes over a list once, from left to right, and drops everything from an
`o` to the next `c`; an `o` with no `c` after it stays, as `re.sub("o[^c]*c", "")`
has it. So it need not drop every bracket: a `c` outside a span stays too.

`Closed` says of a list that no bracket is left over, and `erase_free_iff` that
exactly then no bracket is left. `closedFrom` decides it by a scan of its own.
-/

namespace Spans

variable {α : Type*} [DecidableEq α]

/-- Whether the scan is inside a span, and the list from there on. -/
def eraseFrom (o c : α) : Bool → List α → List α
  | _, [] => []
  | true, x :: xs => eraseFrom o c (x ≠ c) xs
  | false, x :: xs => if x = o ∧ c ∈ xs then eraseFrom o c true xs else x :: eraseFrom o c false xs

def erase (o c : α) (l : List α) : List α := eraseFrom o c false l

/-- Every `o` has a `c` after it, and every `c` an `o` before it, with no other `c` between. -/
def Closed (o c : α) (l : List α) : Prop :=
  (∀ a b, l = a ++ o :: b → c ∈ b) ∧ ∀ a b, l = a ++ c :: b → o ∈ a.rtakeWhile (· ≠ c)

/-- The list from here on, after an `o` that waits for its `c` or not. -/
def closedFrom (o c : α) : Bool → List α → Bool
  | waiting, [] => !waiting
  | true, x :: xs => closedFrom o c (x ≠ c) xs
  | false, x :: xs => if x = c then false else closedFrom o c (x = o) xs

variable {o c : α} {l : List α}

theorem eraseFrom_sublist (o c : α) (inside : Bool) (l : List α) :
    (eraseFrom o c inside l).Sublist l := by
  induction l generalizing inside with
  | nil => cases inside <;> exact List.Sublist.refl _
  | cons x xs ih =>
      cases inside with
      | true => exact (ih _).cons x
      | false =>
          rw [eraseFrom]
          split
          · exact (ih _).cons x
          · exact (ih _).cons_cons x

theorem erase_sublist (o c : α) (l : List α) : (erase o c l).Sublist l :=
  eraseFrom_sublist o c false l

/-- A span that is open needs its end. -/
theorem mem_of_closedFrom (h : closedFrom o c true l = true) : c ∈ l := by
  induction l with
  | nil => cases h
  | cons x xs ih =>
      rw [closedFrom] at h
      by_cases hx : x = c
      · rw [hx]
        exact List.mem_cons_self
      · rw [decide_eq_true hx] at h
        exact List.mem_cons_of_mem x (ih h)

theorem eraseFrom_free_iff (hoc : o ≠ c) {inside : Bool} (hinside : inside = true → c ∈ l) :
    (∀ x ∈ eraseFrom o c inside l, x ≠ o ∧ x ≠ c) ↔ closedFrom o c inside l = true := by
  induction l generalizing inside with
  | nil =>
      have hfalse : inside = false := by
        cases inside with
        | false => rfl
        | true => cases hinside rfl
      rw [hfalse]
      exact iff_of_true (by intro x hx; cases hx) rfl
  | cons x xs ih =>
      cases inside with
      | true =>
          rw [eraseFrom, closedFrom]
          refine ih fun hx => ?_
          exact (List.mem_cons.mp (hinside rfl)).resolve_left fun h => of_decide_eq_true hx h.symm
      | false =>
          rw [eraseFrom, closedFrom]
          by_cases hx : x = c
          · -- a `c` outside every span stays
            have hxo : x ≠ o := fun h => hoc (h.symm.trans hx)
            rw [if_neg fun h => hxo h.1, if_pos hx]
            exact iff_of_false (fun h => (h x List.mem_cons_self).2 hx) Bool.false_ne_true
          · rw [if_neg hx]
            by_cases hxo : x = o
            · rw [decide_eq_true hxo]
              by_cases hmem : c ∈ xs
              · rw [if_pos ⟨hxo, hmem⟩]
                exact ih fun _ => hmem
              · -- an `o` with no `c` after it stays
                rw [if_neg fun h => hmem h.2]
                refine iff_of_false (fun h => (h x List.mem_cons_self).1 hxo) fun h => hmem ?_
                exact mem_of_closedFrom h
            · rw [if_neg fun h => hxo h.1, decide_eq_false hxo, List.forall_mem_cons,
                ih (by intro h; cases h)]
              exact and_iff_right ⟨hxo, hx⟩

omit [DecidableEq α] in
theorem forall_append_cons_iff {x y : α} {xs : List α} {P : List α → List α → Prop} :
    (∀ a b, x :: xs = a ++ y :: b → P a b) ↔
      (x = y → P [] xs) ∧ ∀ a b, xs = a ++ y :: b → P (x :: a) b := by
  constructor
  · intro h
    refine ⟨fun hxy => h [] xs (by rw [hxy, List.nil_append]), fun a b hxs => h (x :: a) b ?_⟩
    rw [hxs, List.cons_append]
  · rintro ⟨hhead, htail⟩ a b h
    cases a with
    | nil =>
        obtain ⟨hxy, hxs⟩ := List.cons_eq_cons.mp h
        exact hxs ▸ hhead hxy
    | cons z a =>
        obtain ⟨hxz, hxs⟩ := List.cons_eq_cons.mp h
        exact hxz ▸ htail a b hxs

/-- Whether an `o` waits for its `c`, one element later. -/
theorem mem_rtakeWhile_concat {x : α} {pre : List α} :
    o ∈ (pre ++ [x]).rtakeWhile (· ≠ c) ↔ x ≠ c ∧ (o ∈ pre.rtakeWhile (· ≠ c) ∨ x = o) := by
  rw [List.rtakeWhile_concat]
  by_cases hx : x = c
  · simp [hx]
  · simp [hx, eq_comm]

/-- What the scan decides, after it has gone over `pre`. -/
theorem closedFrom_iff (hoc : o ≠ c) {waiting : Bool} {pre : List α}
    (hpre : waiting = true ↔ o ∈ pre.rtakeWhile (· ≠ c)) :
    closedFrom o c waiting l = true ↔
      (∀ a b, l = a ++ o :: b → c ∈ b) ∧ (waiting = true → c ∈ l)
        ∧ ∀ a b, l = a ++ c :: b → o ∈ (pre ++ a).rtakeWhile (· ≠ c) := by
  induction l generalizing waiting pre with
  | nil =>
      cases waiting with
      | true => exact iff_of_false Bool.false_ne_true fun h => List.not_mem_nil (h.2.1 rfl)
      | false =>
          refine iff_of_true rfl ⟨?_, ?_, ?_⟩
          · intro a b h
            exact absurd (congrArg List.length h) (by simp)
          · intro h
            cases h
          · intro a b h
            exact absurd (congrArg List.length h) (by simp)
  | cons x xs ih =>
      have hlater : (∀ a b, xs = a ++ c :: b → o ∈ (pre ++ x :: a).rtakeWhile (· ≠ c)) ↔
          ∀ a b, xs = a ++ c :: b → o ∈ (pre ++ [x] ++ a).rtakeWhile (· ≠ c) := by
        simp only [List.append_assoc, List.singleton_append]
      have hstep {w : Bool} (hw : w = true ↔ x ≠ c ∧ (waiting = true ∨ x = o)) :
          w = true ↔ o ∈ (pre ++ [x]).rtakeWhile (· ≠ c) := by
        rw [hw, mem_rtakeWhile_concat, hpre]
      rw [forall_append_cons_iff, forall_append_cons_iff, hlater, List.append_nil, ← hpre,
        List.mem_cons]
      cases waiting with
      | true =>
          rw [closedFrom, ih (hstep (by simp))]
          simp only [ne_eq, decide_not, Bool.not_eq_true', decide_eq_false_iff_not]
          grind
      | false =>
          rw [closedFrom]
          by_cases hx : x = c
          · -- a `c` that no `o` waits for
            rw [if_pos hx]
            exact iff_of_false Bool.false_ne_true fun h => Bool.false_ne_true (h.2.2.1 hx)
          · rw [if_neg hx, ih (hstep (by simp [hx]))]
            simp only [decide_eq_true_eq]
            grind

theorem closedFrom_iff_closed (hoc : o ≠ c) : closedFrom o c false l = true ↔ Closed o c l := by
  have hnone : false = true ↔ o ∈ ([] : List α).rtakeWhile (· ≠ c) := by simp
  rw [closedFrom_iff hoc hnone, Closed]
  simp

/-- No bracket is left exactly where none is left over. -/
theorem erase_free_iff (hoc : o ≠ c) : (∀ x ∈ erase o c l, x ≠ o ∧ x ≠ c) ↔ Closed o c l := by
  rw [erase, eraseFrom_free_iff hoc (by intro h; cases h), closedFrom_iff_closed hoc]

/-! ## Erasing twice -/

omit [DecidableEq α] in
theorem pair_sublist_cons {x : α} {xs : List α} :
    [o, c].Sublist (x :: xs) ↔ [o, c].Sublist xs ∨ (x = o ∧ c ∈ xs) := by
  rw [List.sublist_cons_iff]
  refine or_congr_right ⟨?_, ?_⟩
  · rintro ⟨r, hr, hsub⟩
    obtain ⟨rfl, rfl⟩ := List.cons_eq_cons.mp hr
    exact ⟨rfl, List.singleton_sublist.mp hsub⟩
  · rintro ⟨rfl, hc⟩
    exact ⟨[c], rfl, List.singleton_sublist.mpr hc⟩

/-- A list without a span is left as it is. -/
theorem erase_eq_self (h : ¬ [o, c].Sublist l) : erase o c l = l := by
  unfold erase
  induction l with
  | nil => rfl
  | cons x xs ih =>
      rw [pair_sublist_cons, not_or] at h
      rw [eraseFrom, if_neg h.2, ih h.1]

/-- And no span is left: an `o` that stays has no `c` after it. -/
theorem not_sublist_eraseFrom (o c : α) (inside : Bool) (l : List α) :
    ¬ [o, c].Sublist (eraseFrom o c inside l) := by
  induction l generalizing inside with
  | nil =>
      intro h
      cases inside <;> exact absurd h.length_le (by simp [eraseFrom])
  | cons x xs ih =>
      cases inside with
      | true => exact ih _
      | false =>
          rw [eraseFrom]
          split
          · exact ih _
          · rename_i hstay
            rw [pair_sublist_cons, not_or]
            refine ⟨ih _, fun hopen => hstay ⟨hopen.1, ?_⟩⟩
            exact (eraseFrom_sublist o c false xs).subset hopen.2

theorem not_sublist_erase (o c : α) (l : List α) : ¬ [o, c].Sublist (erase o c l) :=
  not_sublist_eraseFrom o c false l

end Spans
