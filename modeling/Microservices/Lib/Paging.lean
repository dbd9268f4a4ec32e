import Mathlib.Data.List.Perm.Basic
import Mathlib.Logic.Equiv.Basic
import Microservices.Lib.Keyset

/-!
# Reading a table page by page, by offset

`ORDER BY key DESC` says how the keys of the rows follow each other and no more: of
rows with one key, each query may put any first. A page is a segment of such an
arrangement, and each page of a walk is cut from an arrangement of its own.

What they all have in common is the sequence of the keys. Where it falls from one
page to the next, the same rows come before the boundary in all of them; where it
does not, two queries may put two rows the other way round, and one of them is then
on both pages.
-/

namespace Paging

variable {ρ κ : Type} [LinearOrder κ] (key : ρ → κ)

/-- What `ORDER BY key DESC` may answer. -/
structure Arranged (rows listing : List ρ) : Prop where
  perm : listing.Perm rows
  sorted : listing.Pairwise fun a b => key b ≤ key a

/-- The keys, from the greatest. -/
def keys (rows : List ρ) : List κ := Keyset.descending id (rows.map key)

/-- `LIMIT limit OFFSET offset`. -/
def segment (limit offset : Nat) (listing : List ρ) : List ρ := (listing.drop offset).take limit

/-- The pages at the first multiples of `limit`, where query `i` answers from `listing i`. -/
def collect (limit pages : Nat) (listing : Nat → List ρ) : List ρ :=
  (List.range pages).flatMap fun i => segment limit (i * limit) (listing i)

/-- The row before the offset has the key of the row at it. -/
def TiedAt (offset : Nat) (rows : List ρ) : Prop :=
  ∃ c, 0 < offset ∧ (keys key rows)[offset - 1]? = some c ∧ (keys key rows)[offset]? = some c

variable {key} {rows listing listing' : List ρ} {limit offset i j : Nat} {r x y : ρ}

/-! ## The sequence of the keys -/

theorem keys_sorted (key : ρ → κ) (rows : List ρ) : (keys key rows).Pairwise fun a b => b ≤ a :=
  Keyset.descending_sorted id (rows.map key)

theorem length_keys (key : ρ → κ) (rows : List ρ) : (keys key rows).length = rows.length := by
  rw [keys, (Keyset.perm_descending id (rows.map key)).length_eq, List.length_map]

/-- The keys go down, -/
theorem key_le_of_le {a b : κ} (hij : i ≤ j) (ha : (keys key rows)[i]? = some a)
    (hb : (keys key rows)[j]? = some b) : b ≤ a := by
  obtain ⟨hi, rfl⟩ := List.getElem?_eq_some_iff.mp ha
  obtain ⟨hj, rfl⟩ := List.getElem?_eq_some_iff.mp hb
  rcases Nat.eq_or_lt_of_le hij with heq | hlt
  · subst heq
    exact le_refl _
  · exact List.pairwise_iff_getElem.mp (keys_sorted key rows) i j hi hj hlt

/-- and they are those of every arrangement. -/
theorem Arranged.map_key (h : Arranged key rows listing) : listing.map key = keys key rows := by
  refine List.Perm.eq_of_pairwise (fun a b _ _ hab hba => le_antisymm hba hab)
    (List.pairwise_map.mpr h.sorted) (keys_sorted key rows) ?_
  exact (h.perm.map key).trans (Keyset.perm_descending id (rows.map key)).symm

theorem Arranged.key_at (h : Arranged key rows listing) (hr : listing[i]? = some r) :
    (keys key rows)[i]? = some (key r) := by
  rw [← h.map_key, List.getElem?_map, hr]
  rfl

/-- Where rows before and from the offset on share a key, it is tied. -/
theorem tiedAt_of_eq {c : κ} (hi : i < offset) (hj : offset ≤ j)
    (hci : (keys key rows)[i]? = some c) (hcj : (keys key rows)[j]? = some c) :
    TiedAt key offset rows := by
  obtain ⟨hlt, -⟩ := List.getElem?_eq_some_iff.mp hcj
  have hbefore := List.getElem?_eq_getElem (l := keys key rows) (show offset - 1 < _ by omega)
  have hat := List.getElem?_eq_getElem (l := keys key rows) (show offset < _ by omega)
  -- both are between the two
  have hle := key_le_of_le (show i ≤ offset - 1 by omega) hci hbefore
  have hge := key_le_of_le hj hat hcj
  have hmid := key_le_of_le (show offset - 1 ≤ offset by omega) hbefore hat
  refine ⟨c, by omega, ?_, ?_⟩
  · rw [hbefore, le_antisymm hle (hge.trans hmid)]
  · rw [hat, le_antisymm (hmid.trans hle) hge]

/-- A tied boundary is within the rows. -/
theorem TiedAt.lt (h : TiedAt key offset rows) : 0 < offset ∧ offset < rows.length := by
  obtain ⟨c, hpos, -, hat⟩ := h
  obtain ⟨hlt, -⟩ := List.getElem?_eq_some_iff.mp hat
  rw [length_keys] at hlt
  exact ⟨hpos, hlt⟩

/-! ## A boundary that is not tied -/

/-- The rows before it are the same in every arrangement. -/
theorem mem_take_of_not_tied (hfree : ¬ TiedAt key offset rows) (h : Arranged key rows listing)
    (h' : Arranged key rows listing') (hr : r ∈ listing.take offset) :
    r ∈ listing'.take offset := by
  obtain ⟨i, hi, hri⟩ := List.mem_take_iff_getElem.mp hr
  have hmem : r ∈ listing' := h'.perm.mem_iff.mpr (h.perm.mem_iff.mp (List.mem_of_mem_take hr))
  obtain ⟨j, hj, hrj⟩ := List.getElem_of_mem hmem
  have hlt : j < offset := by
    by_contra hge
    refine hfree (tiedAt_of_eq (c := key r) (i := i) (j := j) (by omega) (by omega) ?_ ?_)
    · exact h.key_at (List.getElem?_eq_some_iff.mpr ⟨by omega, hri⟩)
    · exact h'.key_at (List.getElem?_eq_some_iff.mpr ⟨hj, hrj⟩)
  exact List.mem_take_iff_getElem.mpr ⟨j, by omega, hrj⟩

theorem mem_take_iff (hfree : ¬ TiedAt key offset rows) (h : Arranged key rows listing)
    (h' : Arranged key rows listing') : r ∈ listing.take offset ↔ r ∈ listing'.take offset :=
  ⟨mem_take_of_not_tied hfree h h', mem_take_of_not_tied hfree h' h⟩

/-- A page has the rows before its end that are not before its start. -/
theorem mem_segment_iff (hnodup : listing.Nodup) :
    r ∈ segment limit offset listing
      ↔ r ∈ listing.take (offset + limit) ∧ r ∉ listing.take offset := by
  have hsplit : (listing.take offset ++ segment limit offset listing).Nodup := by
    rw [segment, ← List.take_add]
    exact (List.take_sublist _ _).nodup hnodup
  rw [List.take_add, List.mem_append]
  constructor
  · intro hr
    exact ⟨Or.inr hr, fun hbefore => (List.nodup_append.mp hsplit).2.2 r hbefore r hr rfl⟩
  · rintro ⟨hbefore | hr, hno⟩
    · exact absurd hbefore hno
    · exact hr

theorem segment_perm (hnodup : rows.Nodup) (hstart : ¬ TiedAt key offset rows)
    (hend : ¬ TiedAt key (offset + limit) rows) (h : Arranged key rows listing)
    (h' : Arranged key rows listing') :
    (segment limit offset listing).Perm (segment limit offset listing') := by
  have hl := h.perm.nodup_iff.mpr hnodup
  have hl' := h'.perm.nodup_iff.mpr hnodup
  have hseg : ∀ {l : List ρ}, l.Nodup → (segment limit offset l).Nodup := fun hl =>
    ((List.take_sublist _ _).trans (List.drop_sublist _ _)).nodup hl
  refine (List.perm_ext_iff_of_nodup (hseg hl) (hseg hl')).mpr fun r => ?_
  rw [mem_segment_iff hl, mem_segment_iff hl', mem_take_iff hend h h', mem_take_iff hstart h h']

/-- The pages of one arrangement are the arrangement, as far as they go. -/
theorem collect_const (limit pages : Nat) (listing : List ρ) :
    collect limit pages (fun _ => listing) = listing.take (pages * limit) := by
  induction pages with
  | zero => simp [collect]
  | succ n ih =>
      have hn : collect limit (n + 1) (fun _ => listing)
          = collect limit n (fun _ => listing) ++ segment limit (n * limit) listing := by
        simp [collect, List.range_succ]
      rw [hn, ih, Nat.succ_mul, List.take_add, segment]

/-- **If no boundary is tied, the pages have each row once**, whatever the queries answer. -/
theorem collect_perm {listing : Nat → List ρ} {pages : Nat} (hnodup : rows.Nodup)
    (hfree : ∀ i, ¬ TiedAt key (i * limit) rows) (h : ∀ i, Arranged key rows (listing i))
    (hpages : rows.length ≤ pages * limit) : (collect limit pages listing).Perm rows := by
  have hsame : (collect limit pages listing).Perm (collect limit pages fun _ => listing 0) := by
    refine List.Perm.flatMap_left _ fun i _ => ?_
    refine segment_perm hnodup (hfree i) ?_ (h i) (h 0)
    rw [← Nat.succ_mul]
    exact hfree (i + 1)
  rw [collect_const, List.take_of_length_le (by rw [(h 0).perm.length_eq]; exact hpages)] at hsame
  exact hsame.trans (h 0).perm

/-! ## A boundary that is tied -/

theorem mem_segment_of_getElem? (hr : listing[i]? = some r) (hle : offset ≤ i)
    (hlt : i < offset + limit) : r ∈ segment limit offset listing := by
  refine List.mem_of_getElem? (i := i - offset) ?_
  rw [segment, List.getElem?_take_of_lt (by omega), List.getElem?_drop,
    show offset + (i - offset) = i by omega, hr]

theorem arranged_descending (key : ρ → κ) (rows : List ρ) :
    Arranged key rows (Keyset.descending key rows) :=
  ⟨Keyset.perm_descending key rows, Keyset.descending_sorted key rows⟩

variable [DecidableEq ρ]

/-- Two rows with one key may change places. -/
theorem Arranged.swap (h : Arranged key rows listing) (hnodup : rows.Nodup) (hx : x ∈ rows)
    (hy : y ∈ rows) (hkey : key x = key y) :
    Arranged key rows (listing.map (Equiv.swap x y)) := by
  have hsame : ∀ r, key (Equiv.swap x y r) = key r := by
    intro r
    rw [Equiv.swap_apply_def]
    split_ifs with hrx hry
    · rw [hrx, hkey]
    · rw [hry, hkey]
    · rfl
  have hrows : ∀ r ∈ rows, Equiv.swap x y r ∈ rows := by
    intro r hr
    rw [Equiv.swap_apply_def]
    split_ifs with hrx hry
    · exact hy
    · exact hx
    · exact hr
  constructor
  · have hl := h.perm.nodup_iff.mpr hnodup
    refine (List.perm_ext_iff_of_nodup (hl.map (Equiv.swap x y).injective) hnodup).mpr fun r => ?_
    rw [List.mem_map]
    constructor
    · rintro ⟨a, ha, rfl⟩
      exact hrows a (h.perm.mem_iff.mp ha)
    · intro hr
      exact ⟨Equiv.swap x y r, h.perm.mem_iff.mpr (hrows r hr), Equiv.swap_apply_self x y r⟩
  · refine List.pairwise_map.mpr (h.sorted.imp fun hab => ?_)
    rw [hsame, hsame]
    exact hab

/-- **If a boundary is tied, two queries may put one row on both of its pages.** -/
theorem exists_repeated {pages : Nat} (hnodup : rows.Nodup) (hlimit : 0 < limit)
    (htied : TiedAt key (i * limit) rows) (hpages : rows.length ≤ pages * limit) :
    ∃ listing : Nat → List ρ, (∀ j, Arranged key rows (listing j))
      ∧ ¬ (collect limit pages listing).Nodup := by
  obtain ⟨hpos, hlt⟩ := htied.lt
  obtain ⟨c, -, hbefore, hat⟩ := htied
  obtain ⟨n, rfl⟩ : ∃ n, i = n + 1 := Nat.exists_eq_succ_of_ne_zero fun h => by
    rw [h, Nat.zero_mul] at hpos
    exact Nat.lt_irrefl 0 hpos
  rw [Nat.succ_mul] at hlt hbefore hat
  let base := Keyset.descending key rows
  have harr : Arranged key rows base := arranged_descending key rows
  have hlength : n * limit + limit < base.length := by
    rw [harr.perm.length_eq]
    exact hlt
  -- the last row of one page and the first of the next, which share their key
  obtain ⟨x, hx⟩ : ∃ x, base[n * limit + limit - 1]? = some x :=
    ⟨_, List.getElem?_eq_getElem (by omega)⟩
  obtain ⟨y, hy⟩ : ∃ y, base[n * limit + limit]? = some y := ⟨_, List.getElem?_eq_getElem hlength⟩
  have hkey : key x = key y := by
    have hkx := (harr.key_at hx).symm.trans hbefore
    have hky := (harr.key_at hy).symm.trans hat
    exact Option.some.inj (hkx.trans hky.symm)
  have hswapped : (base.map (Equiv.swap x y))[n * limit + limit]? = some x := by
    rw [List.getElem?_map, hy, Option.map_some, Equiv.swap_apply_right]
  refine ⟨fun j => if j = n then base else base.map (Equiv.swap x y), fun j => ?_, fun h => ?_⟩
  · dsimp only
    split_ifs
    · exact harr
    · exact harr.swap hnodup (harr.perm.mem_iff.mp (List.mem_of_getElem? hx))
        (harr.perm.mem_iff.mp (List.mem_of_getElem? hy)) hkey
  · have hlast : n + 1 < pages := by
      by_contra hge
      have hmul := Nat.mul_le_mul_right limit (show pages ≤ n + 1 by omega)
      rw [Nat.succ_mul] at hmul
      omega
    have hdisjoint := List.pairwise_iff_getElem.mp (List.nodup_flatMap.mp h).2 n (n + 1)
      (by simp; omega) (by simp; omega) (by omega)
    refine hdisjoint (a := x) ?_ ?_
    · simp only [List.getElem_range, if_true]
      exact mem_segment_of_getElem? hx (by omega) (by omega)
    · simp only [List.getElem_range]
      rw [if_neg (by omega)]
      exact mem_segment_of_getElem? hswapped (by rw [Nat.succ_mul]) (by rw [Nat.succ_mul]; omega)

end Paging
