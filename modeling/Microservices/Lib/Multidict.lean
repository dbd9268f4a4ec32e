import Mathlib.Data.List.Basic

/-!
# Lists of fields

A multidict is the list of its entries, and a key may come back. Reading a key
finds its first entry; assigning to it overwrites the first one and drops the
others, or appends a new one.
-/

abbrev Multidict (α β : Type*) := List (α × β)

namespace Multidict

variable {α β : Type*} [DecidableEq α]

def get? (d : Multidict α β) (k : α) : Option β := (d.find? fun e => e.1 = k).map Prod.snd

/-- `d[k] = v`. -/
def set (k : α) (v : β) : Multidict α β → Multidict α β
  | [] => [(k, v)]
  | e :: rest => if e.1 = k then (k, v) :: rest.filter (fun e => e.1 ≠ k) else e :: set k v rest

/-- `del d[k]`. -/
def del (k : α) (d : Multidict α β) : Multidict α β := d.filter fun e => e.1 ≠ k

/-- `for k, v in pairs: d[k] = v`. -/
def setAll (d : Multidict α β) (pairs : List (α × β)) : Multidict α β :=
  pairs.foldl (fun d e => set e.1 e.2 d) d

theorem get?_cons_self (k : α) (v : β) (d : Multidict α β) : get? ((k, v) :: d) k = some v := by
  simp [get?]

theorem get?_cons_of_ne {e : α × β} {k : α} (h : e.1 ≠ k) (d : Multidict α β) :
    get? (e :: d) k = get? d k := by
  simp [get?, h]

theorem get?_set_self (k : α) (v : β) (d : Multidict α β) : get? (set k v d) k = some v := by
  induction d with
  | nil => exact get?_cons_self k v []
  | cons e rest ih =>
      rw [set]
      by_cases h : e.1 = k
      · rw [if_pos h]
        exact get?_cons_self k v _
      · rw [if_neg h, get?_cons_of_ne h, ih]

/-- Leaving out the entries of one key leaves what is read under the others. -/
theorem get?_del_of_ne {k k' : α} (h : k ≠ k') (d : Multidict α β) :
    get? (del k d) k' = get? d k' := by
  unfold get? del
  rw [List.find?_filter]
  congr 2
  funext e
  by_cases he : e.1 = k'
  · simp [he, Ne.symm h]
  · simp [he]

theorem get?_set_of_ne {k k' : α} (h : k ≠ k') (v : β) (d : Multidict α β) :
    get? (set k v d) k' = get? d k' := by
  induction d with
  | nil => exact get?_cons_of_ne h []
  | cons e rest ih =>
      rw [set]
      by_cases he : e.1 = k
      · have hne : e.1 ≠ k' := by rw [he]; exact h
        rw [if_pos he, get?_cons_of_ne (e := (k, v)) h, get?_cons_of_ne hne]
        exact get?_del_of_ne h rest
      · rw [if_neg he]
        by_cases hk' : e.1 = k'
        · simp [get?, hk']
        · rw [get?_cons_of_ne hk', get?_cons_of_ne hk', ih]

theorem get?_setAll_of_not_mem {pairs : List (α × β)} {k : α} (h : k ∉ pairs.map Prod.fst)
    (d : Multidict α β) : get? (setAll d pairs) k = get? d k := by
  induction pairs generalizing d with
  | nil => rfl
  | cons e pairs ih =>
      rw [List.map_cons, List.mem_cons, not_or] at h
      rw [setAll, List.foldl_cons]
      have hrest := ih h.2 (set e.1 e.2 d)
      rw [setAll] at hrest
      rw [hrest, get?_set_of_ne (Ne.symm h.1)]

/-- Of pairs with distinct keys every one is read back. -/
theorem get?_setAll_of_mem {pairs : List (α × β)} {k : α} {v : β} (h : (k, v) ∈ pairs)
    (hnodup : (pairs.map Prod.fst).Nodup) (d : Multidict α β) :
    get? (setAll d pairs) k = some v := by
  induction pairs generalizing d with
  | nil => cases h
  | cons e pairs ih =>
      rw [List.map_cons, List.nodup_cons] at hnodup
      rw [setAll, List.foldl_cons]
      have htail : get? (setAll (set e.1 e.2 d) pairs) k = some v := by
        rcases List.mem_cons.mp h with rfl | h
        · rw [get?_setAll_of_not_mem hnodup.1, get?_set_self]
        · exact ih h hnodup.2 _
      exact htail

end Multidict
