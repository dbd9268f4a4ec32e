import Mathlib.Data.List.Count
import Mathlib.Data.List.Nodup
import Mathlib.Logic.Function.Iterate

/-!
# Replacing one element of a list

A pool of parties is a list, and a step of one of them replaces one element. What
such a step does to a count, to a property of all elements, and to the elements
that were not moved is the same for every pool.
-/

namespace Slots

variable {α : Type} {l : List α} {i : Nat} {a : α}

/-- Writing what is there changes nothing. -/
theorem set_self (h : l[i]? = some a) : l.set i a = l := by
  obtain ⟨hlength, rfl⟩ := List.getElem?_eq_some_iff.mp h
  exact List.set_getElem_self hlength

theorem countP_set_add (p : α → Bool) (h : l[i]? = some a) (b : α) :
    (l.set i b).countP p + (if p a then 1 else 0) = l.countP p + (if p b then 1 else 0) := by
  obtain ⟨hi, ha⟩ := List.getElem?_eq_some_iff.mp h
  rw [List.countP_set hi, ha]
  by_cases hp : p a = true
  · have : 0 < l.countP p := List.countP_pos_iff.mpr ⟨a, List.mem_of_getElem? h, hp⟩
    simp only [hp, if_true]
    omega
  · simp [hp]

theorem forall_mem_set {P : α → Prop} (h : ∀ x ∈ l, P x) (i : Nat) (ha : P a) :
    ∀ x ∈ l.set i a, P x := by
  intro x hx
  rcases List.mem_or_eq_of_mem_set hx with hx | rfl
  · exact h x hx
  · exact ha

/-- What stands at a place of the new list. -/
theorem getElem?_set_cases {b x : α} {j : Nat} (hj : (l.set i b)[j]? = some x) :
    (j = i ∧ x = b) ∨ (j ≠ i ∧ l[j]? = some x) := by
  rw [List.getElem?_set] at hj
  split at hj
  · rename_i hij
    split at hj
    · exact Or.inl ⟨hij.symm, (Option.some.inj hj).symm⟩
    · cases hj
  · exact Or.inr ⟨fun h => absurd h.symm ‹_›, hj⟩

/-- An element of the new list is the new one, or stands at another place. -/
theorem mem_set_cases {b x : α} (hx : x ∈ l.set i b) : x = b ∨ ∃ j, j ≠ i ∧ l[j]? = some x := by
  obtain ⟨j, hj⟩ := List.mem_iff_getElem?.mp hx
  rcases getElem?_set_cases hj with ⟨_, h⟩ | ⟨hne, h⟩
  · exact Or.inl h
  · exact Or.inr ⟨j, hne, h⟩

/-- What stands at a place of a list with one more element, and where. -/
theorem getElem?_concat_place {b x : α} {j : Nat} (hj : (l ++ [b])[j]? = some x) :
    (j = l.length ∧ x = b) ∨ l[j]? = some x := by
  rw [List.getElem?_append] at hj
  split at hj
  · exact Or.inr hj
  · rw [List.getElem?_singleton] at hj
    split at hj
    · exact Or.inl ⟨by omega, (Option.some.inj hj).symm⟩
    · cases hj

/-- What stands at a place of a list with one more element. -/
theorem getElem?_concat_cases {b x : α} {j : Nat} (hj : (l ++ [b])[j]? = some x) :
    x = b ∨ l[j]? = some x :=
  (getElem?_concat_place hj).imp_left And.right

/-- Where at most one element has `p`, the others do not. -/
theorem others_of_countP_le_one {p : α → Bool} (h : l.countP p ≤ 1) (hi : l[i]? = some a)
    (ha : p a = true) {j : Nat} {b : α} (hne : j ≠ i) (hj : l[j]? = some b) : p b = false := by
  cases hb : p b with
  | false => rfl
  | true =>
      exfalso
      -- the first of the two places to be reached leaves no room for the other
      induction l generalizing i j with
      | nil => cases hi
      | cons c l ih =>
          rw [List.countP_cons] at h
          have hpos : ∀ {k : Nat} {x : α}, l[k]? = some x → p x = true → 0 < l.countP p :=
            fun hx hpx => List.countP_pos_iff.mpr ⟨_, List.mem_of_getElem? hx, hpx⟩
          cases i with
          | zero =>
              cases j with
              | zero => exact hne rfl
              | succ j =>
                  cases hi
                  have := hpos hj hb
                  rw [if_pos ha] at h
                  omega
          | succ i =>
              cases j with
              | zero =>
                  cases hj
                  have := hpos hi ha
                  rw [if_pos hb] at h
                  omega
              | succ j =>
                  exact ih (Nat.le_trans (Nat.le_add_right _ _) h) hi
                    (fun he => hne (congrArg _ he)) hj

/-- To change the elements at some places, one after the other. -/
theorem getElem?_foldl_modify_iterate (places : List Nat) (f : α → α) (l : List α) (j : Nat) :
    (places.foldl (fun l i => l.modify i f) l)[j]? = l[j]?.map f^[places.count j] := by
  induction places generalizing l with
  | nil => exact Option.map_id'.symm
  | cons i places ih =>
      rw [List.foldl_cons, ih, List.getElem?_modify]
      cases l[j]? with
      | none => rfl
      | some a =>
          by_cases hij : i = j
          · subst hij
            simp
          · simp [hij]

theorem getElem?_foldl_modify {places : List Nat} (h : places.Nodup) (f : α → α) (l : List α)
    (j : Nat) :
    (places.foldl (fun l i => l.modify i f) l)[j]?
      = l[j]?.map fun a => if j ∈ places then f a else a := by
  rw [getElem?_foldl_modify_iterate]
  by_cases hj : j ∈ places
  · rw [List.count_eq_one_of_mem h hj]
    simp [hj]
  · rw [List.count_eq_zero_of_not_mem hj]
    simp [hj]

/-- Changes that what is looked at does not show. -/
theorem map_foldl_modify {β : Type} {f : α → α} {g : α → β} (h : ∀ a, g (f a) = g a)
    (places : List Nat) (l : List α) : (places.foldl (fun l i => l.modify i f) l).map g = l.map g := by
  induction places generalizing l with
  | nil => rfl
  | cons i places ih =>
      rw [List.foldl_cons, ih]
      refine List.ext_getElem? fun j => ?_
      rw [List.getElem?_map, List.getElem?_map, List.getElem?_modify]
      cases l[j]? with
      | none => rfl
      | some a =>
          by_cases hij : i = j
          · simp [hij, h]
          · simp [hij]

end Slots
