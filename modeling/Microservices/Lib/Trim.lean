import Mathlib.Data.List.DropRight
import Mathlib.Data.List.TakeWhile

/-!
# Trimming both ends

`trim p` takes from both ends of a list what satisfies `p`. An element that does not
satisfy `p` is in the trimmed list just if it was in the list, so what a sanitiser
says about such elements is not touched by trimming before or after it.

`isSpace` is what `str.strip` takes for white space in any text.
-/

namespace Trim

variable {α : Type*} {p : α → Bool} {l : List α} {x : α}

def trim (p : α → Bool) (l : List α) : List α := (l.dropWhile p).rdropWhile p

/-- Neither end satisfies `p`. -/
def Trimmed (p : α → Bool) (l : List α) : Prop :=
  ∀ hne : l ≠ [], p (l.head hne) = false ∧ p (l.getLast hne) = false

instance (p : α → Bool) (l : List α) : Decidable (Trimmed p l) :=
  inferInstanceAs (Decidable (∀ hne : l ≠ [], p (l.head hne) = false ∧ p (l.getLast hne) = false))

theorem trim_sublist (p : α → Bool) (l : List α) : (trim p l).Sublist l :=
  (List.rdropWhile_prefix p _).sublist.trans (List.dropWhile_suffix p).sublist

theorem trim_eq_self (h : Trimmed p l) : trim p l = l := by
  have hhead : l.dropWhile p = l := by
    cases l with
    | nil => rfl
    | cons a l =>
        have ha : p a = false := (h (List.cons_ne_nil a l)).1
        exact List.dropWhile_cons_of_neg (by simp [ha])
  rw [trim, hhead, List.rdropWhile_eq_self_iff]
  intro hne
  simp [(h hne).2]

/-- What is trimmed is trimmed. -/
theorem trimmed_trim (p : α → Bool) (l : List α) : Trimmed p (trim p l) := by
  intro hne
  refine ⟨?_, Bool.eq_false_iff.mpr (List.rdropWhile_last_not p _ hne)⟩
  -- the head is the one of the text without its leading part
  have hbegin : trim p l <+: l.dropWhile p := List.rdropWhile_prefix p _
  have hne' : l.dropWhile p ≠ [] := fun h => hne (List.prefix_nil.mp (h ▸ hbegin))
  rw [hbegin.head hne]
  exact Bool.eq_false_iff.mpr (by simpa using List.head_dropWhile_not p hne')

theorem trim_trim (p : α → Bool) (l : List α) : trim p (trim p l) = trim p l :=
  trim_eq_self (trimmed_trim p l)

theorem mem_dropWhile_of_not (hx : p x = false) : x ∈ l.dropWhile p ↔ x ∈ l := by
  induction l with
  | nil => exact Iff.rfl
  | cons a l ih =>
      by_cases ha : p a = true
      · have hne : x ≠ a := by rintro rfl; rw [hx] at ha; cases ha
        rw [List.dropWhile_cons_of_pos ha, ih, List.mem_cons]
        simp [hne]
      · rw [List.dropWhile_cons_of_neg ha]

/-- Trimming neither adds nor takes what does not satisfy `p`. -/
theorem mem_trim_of_not (hx : p x = false) : x ∈ trim p l ↔ x ∈ l := by
  rw [trim, List.rdropWhile, List.mem_reverse, mem_dropWhile_of_not hx, List.mem_reverse,
    mem_dropWhile_of_not hx]

/-- White space, as `str.strip` sees it. -/
def isSpace (c : Char) : Bool :=
  c.toNat ∈ [9, 10, 11, 12, 13, 28, 29, 30, 31, 32, 133, 160, 0x1680, 0x2000, 0x2001, 0x2002,
    0x2003, 0x2004, 0x2005, 0x2006, 0x2007, 0x2008, 0x2009, 0x200A, 0x2028, 0x2029, 0x202F, 0x205F,
    0x3000]

/-- `str.strip`. -/
def strip (cs : List Char) : List Char := trim isSpace cs

/-- What is trimmed to nothing satisfies `p`. -/
theorem all_of_trim_eq_nil (h : trim p l = []) : ∀ x ∈ l, p x = true := by
  intro x hx
  by_contra hp
  have hmem := (mem_trim_of_not (Bool.eq_false_iff.mpr hp)).mpr hx
  rw [h] at hmem
  cases hmem

/-- A text without white space is not changed. -/
theorem trimmed_of_forall (h : ∀ x ∈ l, p x = false) : Trimmed p l :=
  fun hne => ⟨h _ (List.head_mem hne), h _ (List.getLast_mem hne)⟩

end Trim
