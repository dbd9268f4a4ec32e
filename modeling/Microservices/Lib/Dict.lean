import Mathlib.Data.List.Nodup

/-!
# Insertion-ordered dictionaries

A dictionary is the list of its entries in insertion order, with distinct keys.
Assigning to a present key keeps its place; assigning to a new one appends.
-/

variable {α β : Type*}

@[ext] structure Dict (α β : Type*) where
  entries : List (α × β)
  nodup : (entries.map Prod.fst).Nodup

namespace Dict

def keys (d : Dict α β) : List α := d.entries.map Prod.fst

def empty : Dict α β := ⟨[], List.nodup_nil⟩

/-- `del d[next(iter(d))]`. -/
def dropFirst (d : Dict α β) : Dict α β :=
  ⟨d.entries.tail, by rw [List.map_tail]; exact d.nodup.tail⟩

/-- The entries whose key satisfies `p`, in order. -/
def select (d : Dict α β) (p : α → Bool) : List (α × β) := d.entries.filter fun e => p e.1

theorem select_eq_nil_iff {d : Dict α β} {p : α → Bool} :
    d.select p = [] ↔ ∀ k ∈ d.keys, p k = false := by
  simp [select, keys, List.filter_eq_nil_iff]

theorem nodup_append_new {l : List (α × β)} {k : α} {v : β} (hl : (l.map Prod.fst).Nodup)
    (hk : k ∉ l.map Prod.fst) : ((l ++ [(k, v)]).map Prod.fst).Nodup := by
  rw [List.map_append, List.map_cons, List.map_nil]
  refine List.nodup_append.mpr ⟨hl, List.nodup_singleton k, fun a ha b hb hab => hk ?_⟩
  have hbk : b = k := List.mem_singleton.mp hb
  rw [← hbk, ← hab]
  exact ha

variable [DecidableEq α]

/-- What assigning `v` to a present key `k` does to one entry. -/
def overwrite (k : α) (v : β) (e : α × β) : α × β := if e.1 = k then (k, v) else e

theorem overwrite_fst (k : α) (v : β) (e : α × β) : (overwrite k v e).1 = e.1 := by
  unfold overwrite
  split
  · rename_i h; exact h.symm
  · rfl

theorem map_fst_overwrite (k : α) (v : β) (l : List (α × β)) :
    (l.map (overwrite k v)).map Prod.fst = l.map Prod.fst := by
  rw [List.map_map]
  exact List.map_congr_left fun e _ => overwrite_fst k v e

/-- `d[k] = v`. -/
def set (d : Dict α β) (k : α) (v : β) : Dict α β :=
  if h : k ∈ d.keys then
    ⟨d.entries.map (overwrite k v), by rw [map_fst_overwrite]; exact d.nodup⟩
  else ⟨d.entries ++ [(k, v)], nodup_append_new d.nodup h⟩

/-- `d.get(k)`. -/
def get? (d : Dict α β) (k : α) : Option β := (d.entries.find? fun e => e.1 = k).map Prod.snd

/-- `del d[k]`. -/
def erase (d : Dict α β) (k : α) : Dict α β :=
  ⟨d.entries.filter fun e => e.1 ≠ k, (List.filter_sublist.map _).nodup d.nodup⟩

/-- `{k: v for k, v in d.items() if p(k)}`. -/
def filterKeys (d : Dict α β) (p : α → Bool) : Dict α β :=
  ⟨d.entries.filter fun e => p e.1, (List.filter_sublist.map _).nodup d.nodup⟩

/-- One assignment after the other. -/
def setAll (d : Dict α β) (pairs : List (α × β)) : Dict α β :=
  pairs.foldl (fun d e => d.set e.1 e.2) d

/-- `{k: v for k, v in pairs}`. -/
def ofPairs (pairs : List (α × β)) : Dict α β := empty.setAll pairs

theorem set_entries_of_not_mem {d : Dict α β} {k : α} (h : k ∉ d.keys) (v : β) :
    (d.set k v).entries = d.entries ++ [(k, v)] := by
  unfold set; rw [dif_neg h]

theorem set_entries_of_mem {d : Dict α β} {k : α} (h : k ∈ d.keys) (v : β) :
    (d.set k v).entries = d.entries.map (overwrite k v) := by
  unfold set; rw [dif_pos h]

theorem mem_keys_set {d : Dict α β} {k k' : α} {v : β} :
    k' ∈ (d.set k v).keys ↔ k' = k ∨ k' ∈ d.keys := by
  by_cases h : k ∈ d.keys
  · have : (d.set k v).keys = d.keys := by
      unfold keys
      rw [set_entries_of_mem h, map_fst_overwrite]
    rw [this]
    exact ⟨Or.inr, fun hk => hk.elim (fun he => he ▸ h) id⟩
  · unfold keys
    rw [set_entries_of_not_mem h]
    simp [or_comm]

theorem mem_keys_setAll {d : Dict α β} {pairs : List (α × β)} {k : α} :
    k ∈ (d.setAll pairs).keys ↔ k ∈ pairs.map Prod.fst ∨ k ∈ d.keys := by
  induction pairs generalizing d with
  | nil => simp [setAll]
  | cons e l ih =>
      have := ih (d := d.set e.1 e.2)
      rw [mem_keys_set] at this
      rw [setAll, List.foldl_cons, ← setAll, this]
      simp [or_assoc, or_left_comm]

theorem mem_keys_ofPairs {pairs : List (α × β)} {k : α} :
    k ∈ (ofPairs pairs).keys ↔ k ∈ pairs.map Prod.fst := by
  rw [ofPairs, mem_keys_setAll]
  simp [empty, keys]

/-- Assigning to distinct new keys appends the pairs as they stand. -/
theorem setAll_entries {d : Dict α β} {pairs : List (α × β)}
    (hnew : ∀ e ∈ pairs, e.1 ∉ d.keys) (hnd : (pairs.map Prod.fst).Nodup) :
    (d.setAll pairs).entries = d.entries ++ pairs := by
  induction pairs generalizing d with
  | nil => simp [setAll]
  | cons e l ih =>
      rw [List.map_cons, List.nodup_cons] at hnd
      have hrest : ∀ x ∈ l, x.1 ∉ (d.set e.1 e.2).keys := by
        intro x hx hk
        rcases mem_keys_set.mp hk with he | hd
        · exact hnd.1 (he ▸ List.mem_map_of_mem hx)
        · exact hnew x (by simp [hx]) hd
      rw [setAll, List.foldl_cons, ← setAll, ih hrest hnd.2,
        set_entries_of_not_mem (hnew e (by simp)), List.append_assoc]
      rfl

/-! ## Looking up -/

theorem get?_eq_none_iff {d : Dict α β} {k : α} : d.get? k = none ↔ k ∉ d.keys := by
  rw [get?, Option.map_eq_none_iff, List.find?_eq_none]
  constructor
  · intro h hk
    obtain ⟨e, he, hek⟩ := List.mem_map.mp hk
    exact h e he (decide_eq_true hek)
  · intro h e he hek
    exact h (of_decide_eq_true hek ▸ List.mem_map_of_mem he)

/-- The one entry under a key is what is found there. -/
theorem get?_eq_some_of_mem {d : Dict α β} {k : α} {v : β} (h : (k, v) ∈ d.entries) :
    d.get? k = some v := by
  obtain ⟨l₁, l₂, he⟩ := List.append_of_mem h
  have hnodup := d.nodup
  rw [he, List.map_append, List.map_cons] at hnodup
  have hnot : k ∉ l₁.map Prod.fst := fun hk =>
    (List.nodup_append.mp hnodup).2.2 k hk k List.mem_cons_self rfl
  have hfirst : l₁.find? (fun e => e.1 = k) = none := by
    rw [List.find?_eq_none]
    intro e he' hk
    exact hnot (of_decide_eq_true hk ▸ List.mem_map_of_mem he')
  rw [get?, he, List.find?_append, hfirst, Option.none_or, List.find?_cons_of_pos (by simp)]
  rfl

theorem mem_of_get?_eq_some {d : Dict α β} {k : α} {v : β} (h : d.get? k = some v) :
    (k, v) ∈ d.entries := by
  obtain ⟨e, he, rfl⟩ := Option.map_eq_some_iff.mp h
  have hk : decide (e.1 = k) = true := List.find?_some (p := fun e : α × β => e.1 = k) he
  rw [← of_decide_eq_true hk]
  exact List.mem_of_find?_eq_some he

theorem get?_eq_some_iff {d : Dict α β} {k : α} {v : β} : d.get? k = some v ↔ (k, v) ∈ d.entries :=
  ⟨mem_of_get?_eq_some, get?_eq_some_of_mem⟩

theorem get?_set_self (d : Dict α β) (k : α) (v : β) : (d.set k v).get? k = some v := by
  refine get?_eq_some_of_mem ?_
  by_cases h : k ∈ d.keys
  · rw [set_entries_of_mem h]
    obtain ⟨e, he, hk⟩ := List.mem_map.mp h
    refine List.mem_map.mpr ⟨e, he, ?_⟩
    unfold overwrite
    rw [if_pos hk]
  · rw [set_entries_of_not_mem h]
    exact List.mem_append_right _ (List.mem_singleton_self _)

theorem mem_entries_set_ne {d : Dict α β} {k k' : α} {v w : β} (hne : k' ≠ k) :
    (k', w) ∈ (d.set k v).entries ↔ (k', w) ∈ d.entries := by
  by_cases h : k ∈ d.keys
  · rw [set_entries_of_mem h, List.mem_map]
    constructor
    · rintro ⟨e, he, heq⟩
      unfold overwrite at heq
      split at heq
      · cases heq
        exact absurd rfl hne
      · exact heq ▸ he
    · intro he
      exact ⟨(k', w), he, if_neg hne⟩
  · rw [set_entries_of_not_mem h, List.mem_append, List.mem_singleton]
    constructor
    · rintro (he | heq)
      · exact he
      · exact absurd (congrArg Prod.fst heq) hne
    · exact Or.inl

theorem get?_set_ne {d : Dict α β} {k k' : α} {v : β} (hne : k' ≠ k) :
    (d.set k v).get? k' = d.get? k' := by
  ext w
  rw [get?_eq_some_iff, get?_eq_some_iff, mem_entries_set_ne hne]

theorem mem_entries_erase {d : Dict α β} {k k' : α} {w : β} :
    (k', w) ∈ (d.erase k).entries ↔ (k', w) ∈ d.entries ∧ k' ≠ k := by
  unfold erase
  rw [List.mem_filter, decide_eq_true_iff]

theorem get?_erase_eq_some_iff {d : Dict α β} {k k' : α} {w : β} :
    (d.erase k).get? k' = some w ↔ d.get? k' = some w ∧ k' ≠ k := by
  rw [get?_eq_some_iff, get?_eq_some_iff, mem_entries_erase]

theorem get?_filterKeys {d : Dict α β} {p : α → Bool} {k : α} (hk : p k = true) :
    (d.filterKeys p).get? k = d.get? k := by
  ext v
  rw [get?_eq_some_iff, get?_eq_some_iff, filterKeys, List.mem_filter]
  exact and_iff_left hk

/-- The values changed, each under its key. -/
def mapValues (d : Dict α β) (f : β → β) : Dict α β where
  entries := d.entries.map fun e => (e.1, f e.2)
  nodup := by
    rw [List.map_map]
    exact d.nodup

theorem get?_mapValues (d : Dict α β) (f : β → β) (k : α) :
    (d.mapValues f).get? k = (d.get? k).map f := by
  unfold get? mapValues
  rw [List.find?_map, Option.map_map, Option.map_map]
  rfl

/-- Under one key there is what is found there. -/
theorem select_key (d : Dict α β) (k : α) :
    d.select (fun k' => k' = k) = (d.get? k).toList.map fun v => (k, v) := by
  obtain ⟨entries, hnodup⟩ := d
  unfold select get?
  dsimp only
  induction entries with
  | nil => rfl
  | cons e entries ih =>
      rw [List.map_cons, List.nodup_cons] at hnodup
      by_cases he : e.1 = k
      · have hnone : entries.filter (fun e => decide (e.1 = k)) = [] := by
          rw [List.filter_eq_nil_iff]
          intro e' he' hk
          rw [decide_eq_true_iff] at hk
          exact hnodup.1 (by rw [he, ← hk]; exact List.mem_map_of_mem he')
        rw [List.filter_cons_of_pos (by simpa using he), List.find?_cons_of_pos (by simpa using he),
          hnone, ← he]
        rfl
      · rw [List.filter_cons_of_neg (by simpa using he), List.find?_cons_of_neg (by simpa using he)]
        exact ih hnodup.2

/-! ## Selecting after an assignment -/

theorem select_set_of_not {d : Dict α β} {k : α} {v : β} {p : α → Bool} (hp : p k = false) :
    (d.set k v).select p = d.select p := by
  unfold select
  by_cases h : k ∈ d.keys
  · rw [set_entries_of_mem h, List.filter_map]
    have hf : (fun e : α × β => p e.1) ∘ overwrite k v = fun e => p e.1 := by
      funext e; simp [overwrite_fst]
    rw [hf]
    -- an entry that is selected is not the overwritten one
    refine (List.map_congr_left fun e he => ?_).trans (List.map_id _)
    have hpe : p e.1 = true := (List.mem_filter.mp he).2
    have hne : e.1 ≠ k := by intro hk; rw [hk, hp] at hpe; cases hpe
    simp [overwrite, hne]
  · rw [set_entries_of_not_mem h, List.filter_append]
    simp [hp]

theorem select_setAll_of_not {pairs : List (α × β)} {p : α → Bool} (hp : ∀ e ∈ pairs, p e.1 = false)
    (d : Dict α β) : (d.setAll pairs).select p = d.select p := by
  induction pairs generalizing d with
  | nil => rfl
  | cons e pairs ih =>
      have hrest := ih (fun x hx => hp x (List.mem_cons_of_mem e hx)) (d.set e.1 e.2)
      exact hrest.trans (select_set_of_not (hp e List.mem_cons_self))

theorem select_setAll {d : Dict α β} {pairs : List (α × β)} (p : α → Bool)
    (hnew : ∀ e ∈ pairs, e.1 ∉ d.keys) (hnd : (pairs.map Prod.fst).Nodup) :
    (d.setAll pairs).select p = d.select p ++ pairs.filter fun e => p e.1 := by
  rw [select, setAll_entries hnew hnd, List.filter_append]
  rfl

end Dict
