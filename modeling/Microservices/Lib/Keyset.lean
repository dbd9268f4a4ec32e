import Mathlib.Data.List.Sort

/-!
# Reading a table page by page, by key

A page is the first rows below a cursor key, in descending key order. The walk
read here goes on from the key of the first row that did *not* fit on the page, so
what decides it is where the next page starts: that row is not on the page, and it
is not below its own key.

The tables may differ from page to page. `overflows` lists the rows that did not
fit; they are exactly what a walk loses of the rows that are there throughout.
-/

namespace Keyset

variable {ρ κ : Type} [LinearOrder κ] (key : ρ → κ)

/-- `ORDER BY key DESC`. -/
def descending (rows : List ρ) : List ρ := rows.insertionSort fun a b => key b ≤ key a

/-- `WHERE key < cursor`; without a cursor, every row. -/
def below (cursor : Option κ) (rows : List ρ) : List ρ :=
  rows.filter fun r => cursor.all fun k => key r < k

def page (cursor : Option κ) (limit : Nat) (rows : List ρ) : List ρ :=
  (descending key (below key cursor rows)).take limit

/-- The first row that does not fit on the page. -/
def overflow (cursor : Option κ) (limit : Nat) (rows : List ρ) : Option ρ :=
  (descending key (below key cursor rows))[limit]?

/-- The rows that do not fit on the pages of a walk, one for each page but the last. -/
def overflows (limit : Nat) : Option κ → List (List ρ) → List ρ
  | _, [] => []
  | cursor, rows :: tables =>
      match overflow key cursor limit rows with
      | none => []
      | some e => e :: overflows limit (some (key e)) tables

/-- What a walk over these tables hands out; `none` if it does not end with the last of them. -/
def walk (limit : Nat) : Option κ → List (List ρ) → Option (List ρ)
  | _, [] => none
  | cursor, rows :: tables =>
      match overflow key cursor limit rows with
      | none => if tables.isEmpty then some (page key cursor limit rows) else none
      | some e => (walk limit (some (key e)) tables).map (page key cursor limit rows ++ ·)

variable {key} {cursor : Option κ} {limit : Nat} {rows : List ρ} {r e : ρ}

theorem mem_below : r ∈ below key cursor rows ↔ r ∈ rows ∧ ∀ k, cursor = some k → key r < k := by
  rw [below, List.mem_filter]
  cases cursor with
  | none => simp
  | some k => simp

theorem mem_descending : r ∈ descending key rows ↔ r ∈ rows := List.mem_insertionSort _

theorem below_of_mem_page {k : κ} (h : r ∈ page key (some k) limit rows) : key r < k :=
  (mem_below.mp (mem_descending.mp (List.mem_of_mem_take h))).2 k rfl

theorem below_of_overflow {k : κ} (h : overflow key (some k) limit rows = some e) : key e < k :=
  (mem_below.mp (mem_descending.mp (List.mem_of_getElem? h))).2 k rfl

theorem descending_sorted (key : ρ → κ) (rows : List ρ) :
    (descending key rows).Pairwise fun a b => key b ≤ key a :=
  have : Std.Total fun a b : ρ => key b ≤ key a := ⟨fun a b => le_total (key b) (key a)⟩
  have : IsTrans ρ fun a b => key b ≤ key a := ⟨fun _ _ _ hab hbc => le_trans hbc hab⟩
  List.pairwise_insertionSort _ _

theorem perm_descending (key : ρ → κ) (rows : List ρ) : (descending key rows).Perm rows :=
  List.perm_insertionSort _ _

/-- Rows with distinct keys come in strictly descending order. -/
theorem descending_strict (h : (rows.map key).Nodup) :
    (descending key rows).Pairwise fun a b => key b < key a := by
  have hdistinct := List.pairwise_map.mp (((perm_descending key rows).map key).nodup_iff.mpr h)
  exact ((descending_sorted key rows).and hdistinct).imp fun h =>
    lt_of_le_of_ne h.1 fun he => h.2 he.symm

/-- The order does not depend on how the rows were stored. -/
theorem descending_perm {rows' : List ρ} (hkeys : (rows.map key).Nodup) (h : rows.Perm rows') :
    descending key rows = descending key rows' := by
  have hkeys' : (rows'.map key).Nodup := (h.map key).nodup_iff.mp hkeys
  have hperm : (descending key rows).Perm (descending key rows') :=
    (perm_descending key rows).trans (h.trans (perm_descending key rows').symm)
  exact List.Perm.eq_of_pairwise (fun a b _ _ hab hba => absurd hab (lt_asymm hba))
    (descending_strict hkeys) (descending_strict hkeys') hperm

/-- If everything fits, the page holds every row below the cursor. -/
theorem mem_page_of_fits (h : overflow key cursor limit rows = none) :
    r ∈ page key cursor limit rows ↔ r ∈ below key cursor rows := by
  rw [page, List.take_of_length_le (List.getElem?_eq_none_iff.mp h), mem_descending]

/-- The rows below the cursor: the page, the row that did not fit, and the others. -/
theorem below_split (h : overflow key cursor limit rows = some e) :
    descending key (below key cursor rows)
      = page key cursor limit rows
        ++ e :: (descending key (below key cursor rows)).drop (limit + 1) := by
  obtain ⟨hlt, he⟩ := List.getElem?_eq_some_iff.mp h
  rw [page, ← he, List.getElem_cons_drop, List.take_append_drop]

/-- The page is above the row that did not fit, and the others are below it. -/
theorem page_strict (hkeys : (rows.map key).Nodup) (h : overflow key cursor limit rows = some e) :
    (∀ a ∈ page key cursor limit rows, key e < key a)
      ∧ ∀ b ∈ (descending key (below key cursor rows)).drop (limit + 1), key b < key e := by
  have hstrict : (descending key (below key cursor rows)).Pairwise fun a b => key b < key a :=
    descending_strict ((List.filter_sublist.map key).nodup hkeys)
  rw [below_split h] at hstrict
  obtain ⟨_, hrest, hpage⟩ := List.pairwise_append.mp hstrict
  exact ⟨fun a ha => hpage a ha e List.mem_cons_self, (List.pairwise_cons.mp hrest).1⟩

/-- A row below the cursor is on the page, is the one that did not fit, or is below that. -/
theorem page_cases (hkeys : (rows.map key).Nodup) (h : overflow key cursor limit rows = some e)
    (hr : r ∈ below key cursor rows) :
    (r ∈ page key cursor limit rows ∧ key e < key r) ∨ r = e ∨ key r < key e := by
  obtain ⟨hpage, hrest⟩ := page_strict hkeys h
  have hmem : r ∈ descending key (below key cursor rows) := mem_descending.mpr hr
  rw [below_split h] at hmem
  rcases List.mem_append.mp hmem with hmem | hmem
  · exact Or.inl ⟨hmem, hpage r hmem⟩
  · rcases List.mem_cons.mp hmem with rfl | hmem
    · exact Or.inr (Or.inl rfl)
    · exact Or.inr (Or.inr (hrest r hmem))

/-! ## What a walk loses -/

theorem overflows_below {k : κ} {tables : List (List ρ)}
    (h : e ∈ overflows key limit (some k) tables) : key e < k := by
  induction tables generalizing k with
  | nil => cases h
  | cons rows tables ih =>
      rw [overflows] at h
      cases ho : overflow key (some k) limit rows with
      | none => rw [ho] at h; cases h
      | some f =>
          rw [ho] at h
          rcases List.mem_cons.mp h with rfl | h
          · exact below_of_overflow ho
          · exact lt_trans (ih h) (below_of_overflow ho)

theorem walk_below {k : κ} {tables : List (List ρ)} {got : List ρ}
    (h : walk key limit (some k) tables = some got) (hr : r ∈ got) : key r < k := by
  induction tables generalizing k got with
  | nil => cases h
  | cons rows tables ih =>
      rw [walk] at h
      cases ho : overflow key (some k) limit rows with
      | none =>
          rw [ho] at h
          dsimp only at h
          split at h
          · cases h; exact below_of_mem_page hr
          · cases h
      | some f =>
          rw [ho] at h
          obtain ⟨later, hlater, rfl⟩ := Option.map_eq_some_iff.mp h
          rcases List.mem_append.mp hr with hr | hr
          · exact below_of_mem_page hr
          · exact lt_trans (ih hlater hr) (below_of_overflow ho)

/--
**A walk loses exactly the rows that did not fit on its pages.**

A row that is in every table of a finished walk, and below its first cursor, is
handed out unless it is one of them.
-/
theorem mem_walk_iff {tables : List (List ρ)} {got : List ρ}
    (hkeys : ∀ rows ∈ tables, (rows.map key).Nodup)
    (h : walk key limit cursor tables = some got)
    (hr : ∀ rows ∈ tables, r ∈ rows) (hcursor : ∀ k, cursor = some k → key r < k) :
    r ∈ got ↔ r ∉ overflows key limit cursor tables := by
  induction tables generalizing cursor got with
  | nil => cases h
  | cons rows tables ih =>
      have hbelow : r ∈ below key cursor rows :=
        mem_below.mpr ⟨hr rows List.mem_cons_self, hcursor⟩
      have hrows := hkeys rows List.mem_cons_self
      rw [walk] at h
      rw [overflows]
      cases ho : overflow key cursor limit rows with
      | none =>
          rw [ho] at h
          dsimp only at h
          split at h
          · cases h
            exact iff_of_true ((mem_page_of_fits ho).mpr hbelow) List.not_mem_nil
          · cases h
      | some e =>
          rw [ho] at h
          obtain ⟨later, hlater, rfl⟩ := Option.map_eq_some_iff.mp h
          rw [List.mem_append, List.mem_cons]
          rcases page_cases hrows ho hbelow with ⟨hpage, hgt⟩ | rfl | hlt
          · refine iff_of_true (Or.inl hpage) ?_
            rintro (rfl | hlost)
            · exact lt_irrefl _ hgt
            · exact lt_asymm hgt (overflows_below hlost)
          · -- neither this page nor a later one has the row whose key the walk goes on from
            refine iff_of_false ?_ fun hnot => hnot (Or.inl rfl)
            rintro (hpage | hlater')
            · exact lt_irrefl _ ((page_strict hrows ho).1 r hpage)
            · exact lt_irrefl _ (walk_below hlater hlater')
          · have hstep := ih (fun T hT => hkeys T (List.mem_cons_of_mem _ hT)) hlater
              (fun T hT => hr T (List.mem_cons_of_mem _ hT)) (by intro k hk; cases hk; exact hlt)
            have hne : r ≠ e := by rintro rfl; exact lt_irrefl _ hlt
            have hnot : r ∉ page key cursor limit rows := fun hpage =>
              lt_asymm hlt ((page_strict hrows ho).1 r hpage)
            simp only [hnot, false_or, hne]
            exact hstep

/-- A finished walk hands out every row that is there throughout iff it never goes on from one. -/
theorem walk_complete_iff {tables : List (List ρ)} {got : List ρ}
    (hkeys : ∀ rows ∈ tables, (rows.map key).Nodup) (h : walk key limit none tables = some got) :
    (∀ r, (∀ rows ∈ tables, r ∈ rows) → r ∈ got) ↔
      ∀ e ∈ overflows key limit none tables, ¬ ∀ rows ∈ tables, e ∈ rows := by
  have hmem : ∀ r, (∀ rows ∈ tables, r ∈ rows) → (r ∈ got ↔ r ∉ overflows key limit none tables) :=
    fun r hr => mem_walk_iff hkeys h hr (by intro k hk; cases hk)
  constructor
  · intro hall e he hthere
    exact (hmem e hthere).mp (hall e hthere) he
  · intro hnone r hthere
    exact (hmem r hthere).mpr fun hlost => hnone r hlost hthere

/-! ## A table that stays as it is -/

/-- Going on from a row that did not fit leaves fewer rows to read. -/
theorem length_below_lt (h : overflow key cursor limit rows = some e) :
    (below key (some (key e)) rows).length < (below key cursor rows).length := by
  have he : e ∈ below key cursor rows := mem_descending.mp (List.mem_of_getElem? h)
  have hnarrow : below key (some (key e)) rows
      = (below key cursor rows).filter fun r => key r < key e := by
    rw [below, below, List.filter_filter]
    refine List.filter_congr fun r _ => ?_
    rw [Bool.eq_iff_iff]
    simp only [Option.all_some, Bool.and_eq_true, decide_eq_true_eq]
    refine ⟨fun hr => ⟨hr, ?_⟩, And.left⟩
    cases cursor with
    | none => rfl
    | some k => exact decide_eq_true (lt_trans hr (below_of_overflow h))
  rw [hnarrow]
  exact List.length_filter_lt_length_iff_exists.mpr ⟨e, he, by simp⟩

/-- A walk over a table that stays as it is ends. -/
theorem exists_walk (key : ρ → κ) (limit : Nat) (rows : List ρ) (cursor : Option κ) :
    ∃ n got, walk key limit cursor (List.replicate n rows) = some got := by
  induction hn : (below key cursor rows).length using Nat.strongRecOn generalizing cursor with
  | ind n ih =>
      cases ho : overflow key cursor limit rows with
      | none =>
          refine ⟨1, page key cursor limit rows, ?_⟩
          rw [List.replicate_one, walk, ho]
          rfl
      | some e =>
          obtain ⟨m, got, hgot⟩ := ih _ (hn ▸ length_below_lt ho) (some (key e)) rfl
          refine ⟨m + 1, page key cursor limit rows ++ got, ?_⟩
          rw [List.replicate_succ, walk, ho]
          dsimp only
          rw [hgot]
          rfl

/-- A walk over a table that stays as it is hands out every row iff all fit on the first page. -/
theorem walk_unchanged_iff {n : Nat} {got : List ρ} (hkeys : (rows.map key).Nodup)
    (h : walk key limit none (List.replicate n rows) = some got) :
    (∀ r ∈ rows, r ∈ got) ↔ rows.length ≤ limit := by
  have hn : n ≠ 0 := by rintro rfl; cases h
  have hthere : ∀ r, (∀ T ∈ List.replicate n rows, r ∈ T) ↔ r ∈ rows := by
    intro r
    refine ⟨fun hr => hr rows (List.mem_replicate.mpr ⟨hn, rfl⟩), fun hr T hT => ?_⟩
    rw [List.eq_of_mem_replicate hT]
    exact hr
  have hcomplete := walk_complete_iff
    (fun T hT => by rw [List.eq_of_mem_replicate hT]; exact hkeys) h
  simp only [hthere] at hcomplete
  rw [hcomplete]
  have hall : below key none rows = rows := List.filter_eq_self.mpr fun _ _ => rfl
  have hlength : (descending key (below key none rows)).length = rows.length := by
    rw [hall]
    exact List.length_insertionSort _ _
  -- so a row is lost just if the first page has one too many
  obtain ⟨m, rfl⟩ := Nat.exists_eq_succ_of_ne_zero hn
  rw [List.replicate_succ, overflows]
  cases ho : overflow key none limit rows with
  | none =>
      have := List.getElem?_eq_none_iff.mp ho
      rw [hlength] at this
      exact iff_of_true (by intro e he; cases he) this
  | some e =>
      obtain ⟨hlt, _⟩ := List.getElem?_eq_some_iff.mp ho
      rw [hlength] at hlt
      refine iff_of_false (fun hnone => ?_) (Nat.not_le.mpr hlt)
      have he : e ∈ rows := (mem_below.mp (mem_descending.mp (List.mem_of_getElem? ho))).1
      exact hnone e List.mem_cons_self he

/-! ## Walks with a limit of its own for each page -/

variable (key) in
/-- The pages of a walk, each cut at a limit and from a table of its own. -/
def pages : Option κ → List (Nat × List ρ) → List (List ρ)
  | _, [] => []
  | cursor, (limit, rows) :: fetches =>
      page key cursor limit rows ::
        match overflow key cursor limit rows with
        | none => []
        | some e => pages (some (key e)) fetches

variable (key) in
/-- Whether the walk comes to an end with these fetches. -/
def ends : Option κ → List (Nat × List ρ) → Bool
  | _, [] => false
  | cursor, (limit, rows) :: fetches =>
      match overflow key cursor limit rows with
      | none => true
      | some e => ends (some (key e)) fetches

theorem page_pairwise (hkeys : (rows.map key).Nodup) :
    (page key cursor limit rows).Pairwise fun a b => key b < key a :=
  (descending_strict ((List.filter_sublist.map key).nodup hkeys)).sublist (List.take_sublist _ _)

theorem pages_below {k : κ} {fetches : List (Nat × List ρ)}
    (h : r ∈ (pages key (some k) fetches).flatten) : key r < k := by
  induction fetches generalizing k with
  | nil => cases h
  | cons f fetches ih =>
      rw [pages, List.flatten_cons] at h
      rcases List.mem_append.mp h with h | h
      · exact below_of_mem_page h
      · cases ho : overflow key (some k) f.1 f.2 with
        | none => rw [ho] at h; cases h
        | some e =>
            rw [ho] at h
            exact lt_trans (ih h) (below_of_overflow ho)

theorem mem_of_mem_pages {fetches : List (Nat × List ρ)}
    (h : r ∈ (pages key cursor fetches).flatten) : ∃ f ∈ fetches, r ∈ f.2 := by
  induction fetches generalizing cursor with
  | nil => cases h
  | cons f fetches ih =>
      rw [pages, List.flatten_cons] at h
      rcases List.mem_append.mp h with h | h
      · exact ⟨f, List.mem_cons_self,
          (mem_below.mp (mem_descending.mp (List.mem_of_mem_take h))).1⟩
      · cases ho : overflow key cursor f.1 f.2 with
        | none => rw [ho] at h; cases h
        | some e =>
            rw [ho] at h
            obtain ⟨g, hg, hr⟩ := ih h
            exact ⟨g, List.mem_cons_of_mem _ hg, hr⟩

/-- **The pages of a walk, one after the other, are in strictly descending order.** -/
theorem pages_pairwise {fetches : List (Nat × List ρ)}
    (hkeys : ∀ f ∈ fetches, (f.2.map key).Nodup) :
    (pages key cursor fetches).flatten.Pairwise fun a b => key b < key a := by
  induction fetches generalizing cursor with
  | nil => exact List.Pairwise.nil
  | cons f fetches ih =>
      have hrows := hkeys f List.mem_cons_self
      rw [pages, List.flatten_cons]
      refine List.pairwise_append.mpr ⟨page_pairwise hrows, ?_, ?_⟩
      · cases overflow key cursor f.1 f.2 with
        | none => exact List.Pairwise.nil
        | some e => exact ih fun g hg => hkeys g (List.mem_cons_of_mem _ hg)
      · intro a ha b hb
        cases ho : overflow key cursor f.1 f.2 with
        | none => rw [ho] at hb; cases hb
        | some e =>
            -- the row that did not fit is between the two
            rw [ho] at hb
            exact lt_trans (pages_below hb) ((page_strict hrows ho).1 a ha)

/-- A walk over a table that stays as it is ends once there are more fetches than rows to read. -/
theorem ends_of_unchanged {fetches : List (Nat × List ρ)} (hrows : ∀ f ∈ fetches, f.2 = rows)
    (h : (below key cursor rows).length < fetches.length) : ends key cursor fetches = true := by
  induction fetches generalizing cursor with
  | nil => cases h
  | cons f fetches ih =>
      have hf : f.2 = rows := hrows f List.mem_cons_self
      rw [ends, hf]
      cases ho : overflow key cursor f.1 rows with
      | none => rfl
      | some e =>
          have hfewer := length_below_lt ho
          rw [List.length_cons] at h
          exact ih (fun g hg => hrows g (List.mem_cons_of_mem _ hg)) (by omega)

end Keyset
