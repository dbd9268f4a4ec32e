import Mathlib.Data.List.Dedup
import Mathlib.Data.List.Perm.Subperm
import Microservices.Lib.Dict

/-!
# Dictionaries in order of last use

A dictionary of bounded size whose entries stand in the order of their last use:
using a key moves its entry to the end, and a new key pushes out the first entry
of a full dictionary. The entry of a key stays while the keys used since are fewer,
counted without repeats, than the dictionary has room for.
-/

theorem List.dedup_length_mono {α : Type*} [DecidableEq α] {l l' : List α} (h : l ⊆ l') :
    l.dedup.length ≤ l'.dedup.length := by
  refine (List.subperm_of_subset (List.nodup_dedup l) fun x hx => ?_).length_le
  rw [List.mem_dedup] at hx ⊢
  exact h hx

namespace Dict

variable {α β : Type*} [DecidableEq α]

/-- What is kept when `k` is used: the other entries, less the first if `k` is new and there is
no room. -/
def others (capacity : Nat) (d : Dict α β) (k : α) : Dict α β :=
  if k ∈ d.keys then d.erase k else if capacity ≤ d.entries.length then d.dropFirst else d

/-- Use `k`, and leave `v` under it. -/
def use (capacity : Nat) (d : Dict α β) (k : α) (v : β) : Dict α β := (d.others capacity k).set k v

variable {capacity : Nat} {d : Dict α β} {k k' : α} {v v' : β}

theorem not_mem_keys_others : k ∉ (d.others capacity k).keys := by
  unfold others
  split
  · intro h
    obtain ⟨e, he, hk⟩ := List.mem_map.mp h
    exact of_decide_eq_true (List.mem_filter.mp he).2 hk
  · rename_i hk
    split
    · intro h
      exact hk ((List.tail_sublist _).map Prod.fst |>.subset h)
    · exact hk

theorem use_entries (capacity : Nat) (d : Dict α β) (k : α) (v : β) :
    (d.use capacity k v).entries = (d.others capacity k).entries ++ [(k, v)] :=
  set_entries_of_not_mem not_mem_keys_others v

/-- The value left under the last used key can be changed in place. -/
theorem use_set (capacity : Nat) (d : Dict α β) (k : α) (v v' : β) :
    (d.use capacity k v).set k v' = d.use capacity k v' := by
  have hk : k ∈ (d.use capacity k v).keys := mem_keys_set.mpr (Or.inl rfl)
  have hothers : (d.others capacity k).entries.map (overwrite k v')
      = (d.others capacity k).entries := by
    refine (List.map_congr_left fun e he => ?_).trans (List.map_id _)
    have hne : e.1 ≠ k := by
      rintro rfl
      have hmem : e.1 ∈ (d.others capacity e.1).keys := List.mem_map_of_mem he
      exact not_mem_keys_others hmem
    exact if_neg hne
  ext1
  rw [set_entries_of_mem hk, use_entries, use_entries, List.map_append, hothers]
  simp [overwrite]

theorem others_entries_subset : (d.others capacity k).entries ⊆ d.entries := by
  unfold others
  split
  · exact List.filter_sublist.subset
  · split
    · exact (List.tail_sublist _).subset
    · exact List.Subset.refl _

theorem get?_use_self : (d.use capacity k v).get? k = some v := by
  refine get?_eq_some_of_mem ?_
  rw [use_entries]
  simp

/-- What is found under another key was there before. -/
theorem get?_of_get?_use (hne : k' ≠ k) {w : β} (h : (d.use capacity k v).get? k' = some w) :
    d.get? k' = some w := by
  rw [get?_eq_some_iff, use_entries] at h
  rcases List.mem_append.mp h with h | h
  · exact get?_eq_some_of_mem (others_entries_subset h)
  · cases List.mem_singleton.mp h
    exact absurd rfl hne

theorem mem_keys_use (h : k' ∈ (d.use capacity k v).keys) : k' = k ∨ k' ∈ d.keys := by
  rcases mem_keys_set.mp h with rfl | h
  · exact Or.inl rfl
  · exact Or.inr (List.map_subset _ others_entries_subset h)

/-! ## Room for every key -/

/-- With room for a new key nothing is pushed out. -/
theorem get?_use_of_ne (hroom : k ∉ d.keys → d.entries.length < capacity) (hne : k' ≠ k) :
    (d.use capacity k v).get? k' = d.get? k' := by
  ext w
  rw [get?_eq_some_iff, get?_eq_some_iff, use_entries, List.mem_append, List.mem_singleton]
  have hpair : (k', w) ≠ (k, v) := fun he => hne (congrArg Prod.fst he)
  simp only [hpair, or_false]
  unfold others
  by_cases hk : k ∈ d.keys
  · rw [if_pos hk]
    show (k', w) ∈ d.entries.filter _ ↔ _
    rw [List.mem_filter]
    exact and_iff_left (by simpa using hne)
  · rw [if_neg hk, if_neg (Nat.not_le.mpr (hroom hk))]

/-! ## How long an entry stays -/

/-- `v` is under `k`, and behind it only keys of `since`. -/
def Holds (d : Dict α β) (k : α) (v : β) (since : List α) : Prop :=
  ∃ older newer, d.entries = older ++ (k, v) :: newer ∧ ∀ e ∈ newer, e.1 ∈ since

theorem Holds.get? {since : List α} (h : d.Holds k v since) : d.get? k = some v := by
  obtain ⟨older, newer, he, _⟩ := h
  refine get?_eq_some_of_mem ?_
  rw [he]
  simp

theorem holds_use_self (capacity : Nat) (d : Dict α β) (k : α) (v : β) :
    (d.use capacity k v).Holds k v [] :=
  ⟨(d.others capacity k).entries, [], use_entries capacity d k v, by simp⟩

/-- The entries behind `k` are no more than the distinct keys used since. -/
theorem length_newer_lt {since : List α} {older newer : List (α × β)}
    (he : d.entries = older ++ (k, v) :: newer) (hnewer : ∀ e ∈ newer, e.1 ∈ since)
    (hk' : k' ∉ d.keys) : newer.length < (k' :: since).dedup.length := by
  have hkeys : (k' :: newer.map Prod.fst).Nodup := by
    refine List.nodup_cons.mpr ⟨fun h => hk' ?_, ?_⟩
    · unfold keys
      rw [he, List.map_append, List.map_cons]
      exact List.mem_append_right _ (List.mem_cons_of_mem _ h)
    · have hnodup := d.nodup
      rw [he, List.map_append, List.map_cons] at hnodup
      exact (List.nodup_cons.mp (List.nodup_append.mp hnodup).2.1).2
  have hsub : k' :: newer.map Prod.fst ⊆ k' :: since := by
    intro x hx
    rcases List.mem_cons.mp hx with rfl | hx
    · exact List.mem_cons_self
    · obtain ⟨e, he', rfl⟩ := List.mem_map.mp hx
      exact List.mem_cons_of_mem _ (hnewer e he')
  -- the keys of a dictionary are their own `dedup`
  have hlength := List.dedup_length_mono hsub
  rw [hkeys.dedup, List.length_cons, List.length_map] at hlength
  exact hlength

/-- **An entry stays while fewer distinct keys than there is room for are used.** -/
theorem Holds.use {since : List α} (h : d.Holds k v since) (hne : k' ≠ k)
    (hfew : (k' :: since).dedup.length < capacity) :
    (d.use capacity k' v').Holds k v (k' :: since) := by
  obtain ⟨older, newer, he, hnewer⟩ := h
  have hlater : ∀ e ∈ newer ++ [(k', v')], e.1 ∈ k' :: since := by
    intro e hmem
    rcases List.mem_append.mp hmem with hmem | hmem
    · exact List.mem_cons_of_mem _ (hnewer e hmem)
    · rw [List.mem_singleton.mp hmem]
      exact List.mem_cons_self
  have hkeep : ∃ older' newer', (d.others capacity k').entries = older' ++ (k, v) :: newer'
      ∧ newer' ⊆ newer := by
    unfold others
    by_cases hk' : k' ∈ d.keys
    · -- `k'` moves from wherever it stood
      rw [if_pos hk']
      refine ⟨older.filter fun e => e.1 ≠ k', newer.filter fun e => e.1 ≠ k', ?_,
        List.filter_sublist.subset⟩
      show d.entries.filter _ = _
      rw [he, List.filter_append, List.filter_cons_of_pos (by simpa using hne.symm)]
    · rw [if_neg hk']
      by_cases hfull : capacity ≤ d.entries.length
      · -- the first entry goes, and it is not that of `k`
        rw [if_pos hfull]
        cases older with
        | nil =>
            have := length_newer_lt he hnewer hk'
            rw [he, List.nil_append, List.length_cons] at hfull
            omega
        | cons e older =>
            refine ⟨older, newer, ?_, List.Subset.refl _⟩
            show d.entries.tail = _
            rw [he]
            rfl
      · rw [if_neg hfull]
        exact ⟨older, newer, he, List.Subset.refl _⟩
  obtain ⟨older', newer', he', hsub⟩ := hkeep
  refine ⟨older', newer' ++ [(k', v')], ?_, fun e hmem => hlater e ?_⟩
  · rw [use_entries, he', List.append_assoc, List.cons_append]
  · rcases List.mem_append.mp hmem with hmem | hmem
    · exact List.mem_append_left _ (hsub hmem)
    · exact List.mem_append_right _ hmem

end Dict
