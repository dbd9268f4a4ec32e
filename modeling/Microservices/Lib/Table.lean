import Mathlib.Data.List.Nodup
import Mathlib.Data.List.Sort

/-!
# Tables with a primary key

A table is the list of its rows, with distinct keys. What it says about a set of
rows is which of them it holds: `AgreeOn` compares two tables that far and no
further, whatever other rows they hold and in whatever order.
-/

structure Table {ρ κ : Type*} (key : ρ → κ) where
  rows : List ρ
  nodup : (rows.map key).Nodup

namespace Table

variable {ρ κ : Type*} {key : ρ → κ}

def empty : Table key := ⟨[], List.nodup_nil⟩

/-- `INSERT`, of a row whose key is new. -/
def insert (t : Table key) (r : ρ) (h : key r ∉ t.rows.map key) : Table key where
  rows := r :: t.rows
  nodup := List.nodup_cons.mpr ⟨h, t.nodup⟩

variable [DecidableEq κ]

/-- `SELECT ... WHERE key = k`. -/
def find? (t : Table key) (k : κ) : Option ρ := t.rows.find? fun r => key r = k

/-- What an `UPDATE` to `r` does to one row. -/
def overwrite (key : ρ → κ) (r x : ρ) : ρ := if key x = key r then r else x

theorem key_overwrite (r x : ρ) : key (overwrite key r x) = key x := by
  unfold overwrite
  split
  · rename_i h
    exact h.symm
  · rfl

theorem map_key_overwrite (r : ρ) (rows : List ρ) :
    (rows.map (overwrite key r)).map key = rows.map key := by
  rw [List.map_map]
  exact List.map_congr_left fun x _ => key_overwrite r x

/-- `UPDATE` of the row with the key of `r`, to `r`. -/
def update (t : Table key) (r : ρ) : Table key where
  rows := t.rows.map (overwrite key r)
  nodup := by rw [map_key_overwrite]; exact t.nodup

/-- `DELETE ... WHERE key = k`. -/
def delete (t : Table key) (k : κ) : Table key where
  rows := t.rows.filter fun r => key r ≠ k
  nodup := (List.filter_sublist.map key).nodup t.nodup

/-! ## The rows -/

variable {t t' : Table key} {r x : ρ} {k : κ}

omit [DecidableEq κ] in
/-- Two rows with one key are one row. -/
theorem eq_of_key (hr : r ∈ t.rows) (hx : x ∈ t.rows) (h : key r = key x) : r = x :=
  List.inj_on_of_nodup_map t.nodup hr hx h

theorem key_of_find? (h : t.find? k = some r) : r ∈ t.rows ∧ key r = k := by
  unfold find? at h
  have hkey := List.find?_some h
  exact ⟨List.mem_of_find?_eq_some h, of_decide_eq_true hkey⟩

theorem find?_eq_some_iff : t.find? k = some r ↔ r ∈ t.rows ∧ key r = k := by
  refine ⟨key_of_find?, ?_⟩
  rintro ⟨hr, rfl⟩
  cases hfind : t.find? (key r) with
  | none =>
      unfold find? at hfind
      have hnone := List.find?_eq_none.mp hfind r hr
      simp at hnone
  | some x =>
      obtain ⟨hx, hkey⟩ := key_of_find? hfind
      rw [eq_of_key hx hr hkey]

omit [DecidableEq κ] in
theorem mem_insert {h : key r ∉ t.rows.map key} : x ∈ (t.insert r h).rows ↔ x = r ∨ x ∈ t.rows :=
  List.mem_cons

theorem mem_delete : x ∈ (t.delete k).rows ↔ x ∈ t.rows ∧ key x ≠ k := by
  unfold delete
  rw [List.mem_filter, decide_eq_true_iff]

/-- An update leaves the other rows, and its own in the place of the one it finds. -/
theorem mem_update : x ∈ (t.update r).rows
    ↔ (x ∈ t.rows ∧ key x ≠ key r) ∨ (x = r ∧ ∃ y ∈ t.rows, key y = key r) := by
  unfold update
  rw [List.mem_map]
  constructor
  · rintro ⟨y, hy, rfl⟩
    unfold overwrite
    by_cases h : key y = key r
    · rw [if_pos h]
      exact Or.inr ⟨rfl, y, hy, h⟩
    · rw [if_neg h]
      exact Or.inl ⟨hy, h⟩
  · rintro (⟨hx, h⟩ | ⟨rfl, y, hy, h⟩)
    · exact ⟨x, hx, if_neg h⟩
    · exact ⟨y, hy, if_pos h⟩

/-- To write a row over itself changes nothing. -/
theorem update_self (hr : r ∈ t.rows) : t.update r = t := by
  have hrows : t.rows.map (overwrite key r) = t.rows.map id := by
    refine List.map_congr_left fun x hx => ?_
    unfold overwrite
    split
    · rename_i hkey
      exact eq_of_key hr hx hkey.symm
    · rfl
  cases t
  unfold update
  congr
  exact hrows.trans (List.map_id _)

/-! ## Agreement on some of the rows -/

/-- The tables hold the same of the rows that satisfy `p`. -/
def AgreeOn (p : ρ → Bool) (t t' : Table key) : Prop :=
  ∀ r, p r = true → (r ∈ t.rows ↔ r ∈ t'.rows)

namespace AgreeOn

variable {p : ρ → Bool}

omit [DecidableEq κ] in
theorem symm (h : AgreeOn p t t') : AgreeOn p t' t := fun r hr => (h r hr).symm

/-- A lookup that finds such a row finds it in either table. -/
theorem find? (h : AgreeOn p t t') (hp : p r = true) (hfind : t.find? k = some r) :
    t'.find? k = some r := by
  obtain ⟨hr, hkey⟩ := find?_eq_some_iff.mp hfind
  exact find?_eq_some_iff.mpr ⟨(h r hp).mp hr, hkey⟩

theorem filter_find? (h : AgreeOn p t t') (k : κ) :
    (t.find? k).filter p = (t'.find? k).filter p := by
  refine Option.ext fun r => ?_
  rw [Option.filter_eq_some_iff, Option.filter_eq_some_iff]
  constructor
  · rintro ⟨hfind, hp⟩
    exact ⟨h.find? hp hfind, hp⟩
  · rintro ⟨hfind, hp⟩
    exact ⟨h.symm.find? hp hfind, hp⟩

omit [DecidableEq κ] in
/-- Such rows are the same in both, up to their order. -/
theorem perm (h : AgreeOn p t t') {q : ρ → Bool} (hq : ∀ r, q r = true → p r = true) :
    (t.rows.filter q).Perm (t'.rows.filter q) := by
  have hnodup : ∀ t : Table key, (t.rows.filter q).Nodup :=
    fun t => (List.Nodup.of_map key t.nodup).filter q
  refine (List.perm_ext_iff_of_nodup (hnodup t) (hnodup t')).mpr fun r => ?_
  rw [List.mem_filter, List.mem_filter]
  constructor
  · rintro ⟨hr, hqr⟩
    exact ⟨(h r (hq r hqr)).mp hr, hqr⟩
  · rintro ⟨hr, hqr⟩
    exact ⟨(h r (hq r hqr)).mpr hr, hqr⟩

omit [DecidableEq κ] in
theorem insert (h : AgreeOn p t t') (hr : key r ∉ t.rows.map key)
    (hr' : key r ∉ t'.rows.map key) : AgreeOn p (t.insert r hr) (t'.insert r hr') := by
  intro x hx
  rw [mem_insert, mem_insert, h x hx]

theorem delete (h : AgreeOn p t t') (k : κ) : AgreeOn p (t.delete k) (t'.delete k) := by
  intro x hx
  rw [mem_delete, mem_delete, h x hx]

/-- An update of a row on which the tables agree. -/
theorem update (h : AgreeOn p t t') (hp : p x = true) (hx : x ∈ t.rows) (hkey : key x = key r) :
    AgreeOn p (t.update r) (t'.update r) := by
  intro y hy
  have hx' : x ∈ t'.rows := (h x hp).mp hx
  rw [mem_update, mem_update, h y hy]
  have hfound : ∃ y ∈ t.rows, key y = key r := ⟨x, hx, hkey⟩
  have hfound' : ∃ y ∈ t'.rows, key y = key r := ⟨x, hx', hkey⟩
  rw [and_iff_left hfound, and_iff_left hfound']

end AgreeOn

/-! ## Some of the rows -/

/-- The rows that satisfy `p`. -/
def filter (p : ρ → Bool) (t : Table key) : Table key where
  rows := t.rows.filter p
  nodup := (List.filter_sublist.map key).nodup t.nodup

section Filter

variable {p : ρ → Bool}

omit [DecidableEq κ] in
theorem ext_rows {t t' : Table key} (h : t.rows = t'.rows) : t = t' := by
  cases t
  cases t'
  cases h
  rfl

omit [DecidableEq κ] in
theorem mem_filter : x ∈ (t.filter p).rows ↔ x ∈ t.rows ∧ p x = true := List.mem_filter

omit [DecidableEq κ] in
theorem keys_filter_subset (p : ρ → Bool) (t : Table key) :
    (t.filter p).rows.map key ⊆ t.rows.map key := (List.filter_sublist.map key).subset

omit [DecidableEq κ] in
theorem filter_insert (h : key r ∉ t.rows.map key) (hp : p r = true) :
    (t.insert r h).filter p = (t.filter p).insert r fun hmem => h (keys_filter_subset p t hmem) :=
  ext_rows (List.filter_cons_of_pos hp)

omit [DecidableEq κ] in
theorem filter_insert_of_not (h : key r ∉ t.rows.map key) (hp : p r = false) :
    (t.insert r h).filter p = t.filter p :=
  ext_rows (List.filter_cons_of_neg (Bool.eq_false_iff.mp hp))

/-- An update that leaves its row among the rows, or not among them, is one of these rows. -/
theorem filter_update (hx : x ∈ t.rows) (hkey : key x = key r) (hp : p r = p x) :
    (t.update r).filter p = (t.filter p).update r := by
  refine ext_rows ?_
  show (t.rows.map (overwrite key r)).filter p = (t.rows.filter p).map (overwrite key r)
  rw [List.filter_map]
  congr 1
  refine List.filter_congr fun y hy => ?_
  show p (overwrite key r y) = p y
  unfold overwrite
  split
  · rename_i h
    rw [hp, eq_of_key hx hy (hkey.trans h.symm)]
  · rfl

theorem update_of_absent (h : ∀ y ∈ t.rows, key y ≠ key r) : t.update r = t := by
  refine ext_rows ?_
  show t.rows.map (overwrite key r) = t.rows
  refine (List.map_congr_left fun y hy => ?_).trans (List.map_id _)
  exact if_neg (h y hy)

/-- An update outside of these rows. -/
theorem filter_update_of_not (hx : x ∈ t.rows) (hkey : key x = key r) (hpx : p x = false)
    (hpr : p r = false) : (t.update r).filter p = t.filter p := by
  rw [filter_update hx hkey (hpr.trans hpx.symm)]
  refine update_of_absent fun y hy hyr => ?_
  obtain ⟨hrow, hpy⟩ := mem_filter.mp hy
  rw [eq_of_key hrow hx (hyr.trans hkey.symm), hpx] at hpy
  cases hpy

theorem filter_delete (p : ρ → Bool) (t : Table key) (k : κ) :
    (t.delete k).filter p = (t.filter p).delete k := by
  refine ext_rows ?_
  show (t.rows.filter _).filter p = (t.rows.filter p).filter _
  rw [List.filter_filter, List.filter_filter]
  exact List.filter_congr fun y _ => Bool.and_comm _ _

/-- A deletion outside of these rows. -/
theorem filter_delete_of_not (hx : x ∈ t.rows) (hpx : p x = false) :
    (t.delete (key x)).filter p = t.filter p := by
  rw [filter_delete]
  refine ext_rows (List.filter_eq_self.mpr fun y hy => decide_eq_true fun hyx => ?_)
  obtain ⟨hrow, hpy⟩ := mem_filter.mp hy
  rw [eq_of_key hrow hx hyx, hpx] at hpy
  cases hpy

omit [DecidableEq κ] in
/-- The rows that satisfy `p` hold all there is of those with `q`. -/
theorem agreeOn_filter {q : ρ → Bool} (h : ∀ y ∈ t.rows, q y = true → p y = true) :
    AgreeOn q t (t.filter p) := by
  intro y hq
  rw [mem_filter]
  exact ⟨fun hy => ⟨hy, h y hy hq⟩, And.left⟩

theorem find?_filter (hr : p r = true) (h : t.find? k = some r) : (t.filter p).find? k = some r := by
  obtain ⟨hrow, hkey⟩ := find?_eq_some_iff.mp h
  exact find?_eq_some_iff.mpr ⟨mem_filter.mpr ⟨hrow, hr⟩, hkey⟩

end Filter

end Table
