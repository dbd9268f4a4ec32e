import Microservices.Tasks.Traversal

/-!
# The pages a client receives

A client may ask for another number of rows on each page, and rows may be inserted,
changed and deleted between two fetches. A row keeps its id and its creation time.
Whatever happens to the others, the pages come in descending order: the cursor is the
position of a row below the whole page, and the next page is below the cursor.
-/

namespace Microservices.Tasks

/-- A fetch: the limit it asks for, and the rows that are in the table by then. -/
structure Fetch (ρ : Type) where
  limit : PageLimit
  rows : List ρ

/-- The pages a client receives that follows `next_cursor` until it is null. -/
def followPages {σ α : Type}
    (answer : σ → Option String → Except HTTPException (CursorPage α)) :
    Option String → List σ → Except HTTPException (List (CursorPage α))
  | _, [] => .ok []
  | cursor, s :: states =>
      match answer s cursor with
      | .error e => .error e
      | .ok page =>
          match page.nextCursor with
          | none => .ok [page]
          | some next => (followPages answer (some next) states).map (page :: ·)

/-- The items of the pages, in the order received. -/
def received {α : Type} (pages : List (CursorPage α)) : List α := pages.flatMap CursorPage.items

/-- The client has come to the end. -/
def Finished {α : Type} (pages : List (CursorPage α)) : Prop := ∃ p ∈ pages, p.nextCursor = none

/-- `ORDER BY created_at DESC, id DESC`, without ties. -/
def Descending {α : Type} (createdAt : α → Timestamp) (id : α → UUID) (items : List α) : Prop :=
  items.Pairwise fun a b => rowKey createdAt id b < rowKey createdAt id a

section Paging

variable {ρ α : Type} {createdAt : ρ → Timestamp} {id : ρ → UUID} {respond : ρ → α}
  {createdAt' : α → Timestamp} {id' : α → UUID} {fetches : List (Fetch ρ)}
  {pages : List (CursorPage α)}

variable (createdAt) (id) in
/-- No creation time changes from fetch to fetch. -/
def SameTimes (fetches : List (Fetch ρ)) : Prop :=
  ∀ f ∈ fetches, ∀ g ∈ fetches, ∀ r ∈ f.rows, ∀ s ∈ g.rows, id r = id s → createdAt r = createdAt s

/-- What is fetched, for the walk by key. -/
def keyed (wanted : ρ → Bool) (fetches : List (Fetch ρ)) : List (Nat × List ρ) :=
  fetches.map fun f => (f.limit.value, f.rows.filter wanted)

/-- **The pages the client receives are those of a walk by key.** -/
theorem followPages_eq {cursor : Option String} {k : Option SortKey} (h : StandsFor cursor k)
    (wanted : ρ → Bool) (fetches : List (Fetch ρ)) :
    ∃ pages, followPages (fun f cursor =>
          fetchPage createdAt id respond f.limit cursor (f.rows.filter wanted)) cursor fetches
        = .ok pages
      ∧ pages.map CursorPage.items
          = (Keyset.pages (rowKey createdAt id) k (keyed wanted fetches)).map (List.map respond)
      ∧ (Keyset.ends (rowKey createdAt id) k (keyed wanted fetches) = true → Finished pages) := by
  induction fetches generalizing cursor k with
  | nil => exact ⟨[], rfl, rfl, fun hends => by cases hends⟩
  | cons f fetches ih =>
      obtain ⟨hitems, hnext⟩ :=
        cutPage_spec createdAt id respond f.limit (f.rows.filter wanted) k
      rw [followPages, fetchPage_of_standsFor h, keyed, List.map_cons, Keyset.pages, Keyset.ends]
      generalize cutPage createdAt id respond f.limit _ = p at hitems hnext ⊢
      dsimp only
      cases ho : Keyset.overflow (rowKey createdAt id) k f.limit.value (f.rows.filter wanted) with
      | none =>
          rw [ho] at hnext
          rw [hnext]
          refine ⟨[p], rfl, ?_, fun _ => ⟨p, List.mem_singleton_self p, hnext⟩⟩
          rw [List.map_singleton, hitems]
          rfl
      | some e =>
          rw [ho] at hnext
          -- the cursor of the page stands for the key of the row that did not fit
          obtain ⟨later, hlater, hpages, hends⟩ := ih (k := some (rowKey createdAt id e))
            (Or.inr ⟨_, _, rfl, rfl⟩)
          rw [hnext]
          refine ⟨p :: later, ?_, ?_, ?_⟩
          · dsimp only [Option.map_some]
            rw [hlater]
            rfl
          · rw [List.map_cons, hitems, hpages]
            rfl
          · intro h
            obtain ⟨q, hq, hnone⟩ := hends h
            exact ⟨q, List.mem_cons_of_mem _ hq, hnone⟩

variable {wanted : ρ → Bool}

theorem received_eq
    (h : pages.map CursorPage.items
      = (Keyset.pages (rowKey createdAt id) none (keyed wanted fetches)).map (List.map respond)) :
    received pages
      = (Keyset.pages (rowKey createdAt id) none (keyed wanted fetches)).flatten.map respond := by
  rw [received, List.flatMap_def, h, List.map_flatten]

/-- The responses have the columns of their rows. -/
theorem received_descending (hcreatedAt : ∀ r, createdAt' (respond r) = createdAt r)
    (hid : ∀ r, id' (respond r) = id r) (hids : ∀ f ∈ fetches, (f.rows.map id).Nodup)
    (h : pages.map CursorPage.items
      = (Keyset.pages (rowKey createdAt id) none (keyed wanted fetches)).map (List.map respond)) :
    Descending createdAt' id' (received pages) := by
  have hkeys : ∀ f ∈ keyed wanted fetches, (f.2.map (rowKey createdAt id)).Nodup := by
    intro f hf
    obtain ⟨g, hg, rfl⟩ := List.mem_map.mp hf
    exact rowKey_filter_nodup (hids g hg)
  have hkey : ∀ r, rowKey createdAt' id' (respond r) = rowKey createdAt id r := by
    intro r
    rw [rowKey, rowKey, hcreatedAt, hid]
  rw [Descending, received_eq h, List.pairwise_map]
  refine (Keyset.pages_pairwise hkeys).imp ?_
  intro a b hlt
  rw [hkey, hkey]
  exact hlt

/-- As creation times do not change, no id comes twice. -/
theorem received_nodup (hcreatedAt : ∀ r, createdAt' (respond r) = createdAt r)
    (hid : ∀ r, id' (respond r) = id r) (hids : ∀ f ∈ fetches, (f.rows.map id).Nodup)
    (hsame : SameTimes createdAt id fetches)
    (h : pages.map CursorPage.items
      = (Keyset.pages (rowKey createdAt id) none (keyed wanted fetches)).map (List.map respond)) :
    ((received pages).map id').Nodup := by
  have hfrom : ∀ a ∈ received pages, ∃ f ∈ fetches, ∃ r ∈ f.rows, respond r = a := by
    intro a ha
    rw [received_eq h] at ha
    obtain ⟨r, hr, rfl⟩ := List.mem_map.mp ha
    obtain ⟨f, hf, hr⟩ := Keyset.mem_of_mem_pages hr
    obtain ⟨g, hg, rfl⟩ := List.mem_map.mp hf
    exact ⟨g, hg, r, (List.mem_filter.mp hr).1, rfl⟩
  refine List.pairwise_map.mpr ((received_descending hcreatedAt hid hids h).imp_of_mem ?_)
  intro a b ha hb hlt heq
  obtain ⟨f, hf, r, hr, rfl⟩ := hfrom a ha
  obtain ⟨g, hg, s, hs, rfl⟩ := hfrom b hb
  rw [hid, hid] at heq
  have htimes := hsame f hf g hg r hr s hs heq
  rw [rowKey, rowKey, hcreatedAt, hcreatedAt, hid, hid, htimes, heq] at hlt
  exact lt_irrefl _ hlt

variable (createdAt' id') in
/-- What a client receives with these fetches. -/
def Orderly (createdAt : ρ → Timestamp) (id : ρ → UUID) (fetches : List (Fetch ρ))
    (pages : List (CursorPage α)) : Prop :=
  Descending createdAt' id' (received pages)
    ∧ (SameTimes createdAt id fetches → ((received pages).map id').Nodup)
    ∧ ∀ rows, (∀ f ∈ fetches, f.rows = rows) → rows.length < fetches.length → Finished pages

/-- A client is refused no page, and what it receives is in order. -/
theorem followPages_orderly (hcreatedAt : ∀ r, createdAt' (respond r) = createdAt r)
    (hid : ∀ r, id' (respond r) = id r) (hids : ∀ f ∈ fetches, (f.rows.map id).Nodup) :
    ∃ pages, followPages (fun f cursor =>
          fetchPage createdAt id respond f.limit cursor (f.rows.filter wanted)) none fetches
        = .ok pages
      ∧ Orderly createdAt' id' createdAt id fetches pages := by
  obtain ⟨pages, hpages, hitems, hends⟩ :=
    @followPages_eq _ _ createdAt id respond _ _ (Or.inl ⟨rfl, rfl⟩) wanted fetches
  refine ⟨pages, hpages, received_descending hcreatedAt hid hids hitems,
    fun hsame => received_nodup hcreatedAt hid hids hsame hitems, ?_⟩
  intro rows hrows hlength
  have hkeyed : ∀ f ∈ keyed wanted fetches, f.2 = rows.filter wanted := by
    intro f hf
    obtain ⟨g, hg, rfl⟩ := List.mem_map.mp hf
    dsimp only
    rw [hrows g hg]
  have hbelow : (Keyset.below (rowKey createdAt id) none (rows.filter wanted)).length
      ≤ (rows.filter wanted).length := List.length_filter_le _ _
  have hwanted : (rows.filter wanted).length ≤ rows.length := List.length_filter_le _ _
  have hfetches : (keyed wanted fetches).length = fetches.length := List.length_map _
  exact hends (Keyset.ends_of_unchanged hkeyed (by omega))

end Paging

/--
**Pages never repeat and never go back.**

A client follows the cursors of `list_tasks` or `list_projects`, with any filters, any
limit for each page, and whatever is in the table at each of its fetches. No fetch is
refused. The pages, one after the other, strictly descend by creation time and id, and
if no creation time changes they hold no id twice. Over a table that stays as it is
the client comes to the end, at the latest with one fetch more than there are rows.
-/
theorem pages_orderly (callerId : UUID) :
    (∀ (projectId : Option UUID) (statusFilter : Option TaskStatus) (fetches : List (Fetch Task)),
      (∀ f ∈ fetches, (f.rows.map Task.id).Nodup) →
      ∃ pages, followPages (fun f cursor =>
          listTasks f.rows callerId projectId statusFilter f.limit cursor) none fetches = .ok pages
        ∧ Orderly TaskResponse.createdAt TaskResponse.id Task.createdAt Task.id fetches pages)
      ∧ ∀ fetches : List (Fetch Project),
        (∀ f ∈ fetches, (f.rows.map Project.id).Nodup) →
        ∃ pages, followPages (fun f cursor => listProjects f.rows callerId f.limit cursor) none fetches
            = .ok pages
          ∧ Orderly ProjectResponse.createdAt ProjectResponse.id Project.createdAt Project.id fetches
            pages := by
  constructor
  · intro projectId statusFilter fetches hids
    exact followPages_orderly (fun _ => rfl) (fun _ => rfl) hids
  · intro fetches hids
    exact followPages_orderly (fun _ => rfl) (fun _ => rfl) hids

/-- One task per page, then two; the announcement is deleted between the fetches, and the
release notes are started. -/
def changingFetches : List (Fetch Task) :=
  [⟨onePerPage, [releaseNotes, announcement]⟩,
    ⟨{ value := 2 }, [{ releaseNotes with status := .inProgress }]⟩]

theorem changing_pages_orderly :
    (∃ pages, followPages (fun f cursor => listTasks f.rows ann none none f.limit cursor) none
        changingFetches = .ok pages
      ∧ Descending TaskResponse.createdAt TaskResponse.id (received pages)
      ∧ ((received pages).map TaskResponse.id).Nodup)
      ∧ ∃ pages, followPages (fun (f : Fetch Project) cursor =>
          listProjects f.rows ann f.limit cursor) none (List.replicate 2 ⟨onePerPage, [annsProject]⟩)
            = .ok pages ∧ Finished pages := by
  obtain ⟨htasks, hprojects⟩ := pages_orderly ann
  obtain ⟨pages, hpages, hdescending, hnodup, _⟩ :=
    htasks none none changingFetches (by decide +kernel)
  obtain ⟨pages', hpages', _, _, hfinished⟩ :=
    hprojects (List.replicate 2 ⟨onePerPage, [annsProject]⟩) (by decide +kernel)
  have hsame : SameTimes Task.createdAt Task.id changingFetches := by
    unfold SameTimes changingFetches
    decide +kernel
  exact ⟨⟨pages, hpages, hdescending, hnodup hsame⟩, pages', hpages',
    hfinished [annsProject] (by decide +kernel) (by decide)⟩

end Microservices.Tasks
