import Mathlib.Data.List.Basic

/-!
# Bounded mailboxes

A mailbox hands out what was put in, in order, and takes nothing more while it is
full. `Carries` relates it to what it has taken so far and what was read from it: the
one is the other and the unread items.
-/

structure Mailbox (α : Type) (capacity : Nat) where
  items : List α
  bounded : items.length ≤ capacity

namespace Mailbox

variable {α : Type} {capacity : Nat}

def empty : Mailbox α capacity := ⟨[], Nat.zero_le capacity⟩

/-- `put_nowait`; `none` is `QueueFull`. -/
def put? (m : Mailbox α capacity) (a : α) : Option (Mailbox α capacity) :=
  if h : m.items.length < capacity then
    some ⟨m.items ++ [a], by rw [List.length_append, List.length_singleton]; omega⟩
  else none

/-- `get`; `none` is to wait. -/
def get? (m : Mailbox α capacity) : Option (α × Mailbox α capacity) :=
  match m with
  | ⟨[], _⟩ => none
  | ⟨a :: items, h⟩ => some (a, ⟨items, by rw [List.length_cons] at h; omega⟩)

/-- What was taken is what was read and what is unread. -/
def Carries (m : Mailbox α capacity) (read taken : List α) : Prop := read ++ m.items = taken

variable {m m' : Mailbox α capacity} {read taken : List α} {a : α}

theorem carries_empty : (empty : Mailbox α capacity).Carries [] [] := rfl

theorem put?_eq_some (h : m.put? a = some m') :
    m.items.length < capacity ∧ m'.items = m.items ++ [a] := by
  unfold put? at h
  split at h
  · rename_i hroom
    cases h
    exact ⟨hroom, rfl⟩
  · cases h

theorem put?_eq_none (h : m.put? a = none) : ¬ m.items.length < capacity := by
  unfold put? at h
  split at h
  · cases h
  · assumption

theorem Carries.put (hm : m.Carries read taken) (h : m.put? a = some m') :
    m'.Carries read (taken ++ [a]) := by
  unfold Carries at *
  rw [(put?_eq_some h).2, ← hm, List.append_assoc]

theorem get?_eq_some (h : m.get? = some (a, m')) : m.items = a :: m'.items := by
  obtain ⟨items, hbounded⟩ := m
  cases items with
  | nil => cases h
  | cons x items =>
      cases h
      rfl

theorem Carries.get (hm : m.Carries read taken) (h : m.get? = some (a, m')) :
    m'.Carries (read ++ [a]) taken := by
  unfold Carries at *
  rw [← hm, get?_eq_some h, List.append_assoc]
  rfl

end Mailbox
