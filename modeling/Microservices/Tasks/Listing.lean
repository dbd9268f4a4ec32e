import Mathlib.Data.Prod.Lex
import Mathlib.Algebra.Order.Group.Int
import Microservices.Lib.Keyset
import Microservices.Tasks.Model
import Microservices.Tasks.Pagination

/-!
# Listing tasks and projects

`list_tasks` and `list_projects` differ in the rows they list; how they page is
the same. `fetchPage` is the part they share: filter by the cursor, order, fetch
one row too many, cut the page. A client follows `next_cursor` from page to page,
and the table may be another one at each fetch.

The proof reads the walk of the client as the walk of `Keyset` over the same
tables: every cursor it follows decodes to the position it was made of, and the
two columns compare like the pair of them.
-/

namespace Microservices.Tasks

/-- `Query(50, ge=1, le=200)`. -/
structure PageLimit where
  value : Nat := 50
  valid : 1 ≤ value ∧ value ≤ 200 := by decide

def invalidCursor : HTTPException := { statusCode := 400, detail := "Invalid cursor value" }

/-- A position in the order of the lists. -/
abbrev SortKey := Int ×ₗ UUID

def sortKey (createdAt : Datetime) (id : UUID) : SortKey := toLex (createdAt.instant, id)

section Paging

variable {ρ α : Type} (createdAt : ρ → Timestamp) (id : ρ → UUID) (respond : ρ → α)

def rowKey (r : ρ) : SortKey := sortKey (createdAt r).datetime (id r)

/-- `or_(created_at < cursor_dt, (created_at == cursor_dt) & (id < cursor_id))`. -/
def beforeCursor (position : Datetime × UUID) (r : ρ) : Bool :=
  (createdAt r).instant < position.1.instant
    || ((createdAt r).instant == position.1.instant && id r < position.2)

/-- `order_by(created_at.desc(), id.desc()).limit(limit + 1)` and the page cut from it. -/
def cutPage (limit : PageLimit) (rows : List ρ) : CursorPage α :=
  let items := (Keyset.descending (rowKey createdAt id) rows).take (limit.value + 1)
  let (pageItems, nextCursor) := makeCursorPage createdAt id items limit.value
  { items := pageItems.map respond, nextCursor := nextCursor, count := pageItems.length }

/-- A page of these rows. An empty cursor counts as none. -/
def fetchPage (limit : PageLimit) (cursor : Option String) (rows : List ρ) :
    Except HTTPException (CursorPage α) :=
  match cursor.filter (· ≠ "") with
  | none => .ok (cutPage createdAt id respond limit rows)
  | some text =>
      match decodeCursor text with
      | none => .error invalidCursor
      | some position =>
          .ok (cutPage createdAt id respond limit (rows.filter (beforeCursor createdAt id position)))

end Paging

/-- The tasks a request lists. -/
def Task.listed (t : Task) (callerId : UUID) (projectId : Option UUID)
    (statusFilter : Option TaskStatus) : Bool :=
  t.visibleTo callerId && projectId.all (t.projectId == ·) && statusFilter.all (t.status == ·)

/-- `list_tasks`. -/
def listTasks (tasks : List Task) (callerId : UUID) (projectId : Option UUID)
    (statusFilter : Option TaskStatus) (limit : PageLimit) (cursor : Option String) :
    Except HTTPException (CursorPage TaskResponse) :=
  fetchPage Task.createdAt Task.id TaskResponse.modelValidate limit cursor
    (tasks.filter fun t => t.listed callerId projectId statusFilter)

/-- The projects a request lists. -/
def Project.listed (p : Project) (callerId : UUID) : Bool := p.ownerId == callerId && p.isActive

/-- `list_projects`. -/
def listProjects (projects : List Project) (callerId : UUID) (limit : PageLimit)
    (cursor : Option String) : Except HTTPException (CursorPage ProjectResponse) :=
  fetchPage Project.createdAt Project.id ProjectResponse.modelValidate limit cursor
    (projects.filter fun p => p.listed callerId)

/-- What a client receives that follows `next_cursor` until it is null, one fetch for each of the
states; `none` if it is refused, or does not end with the last of them. -/
def followCursors {σ α : Type}
    (answer : σ → Option String → Except HTTPException (CursorPage α)) :
    Option String → List σ → Option (List α)
  | _, [] => none
  | cursor, s :: states =>
      match answer s cursor with
      | .error _ => none
      | .ok page =>
          match page.nextCursor with
          | none => if states.isEmpty then some page.items else none
          | some next => (followCursors answer (some next) states).map (page.items ++ ·)

/-! ## The client's walk is a walk by key -/

section Paging

variable {ρ α : Type} {createdAt : ρ → Timestamp} {id : ρ → UUID} {respond : ρ → α}
  {limit : PageLimit}

theorem beforeCursor_iff (position : Datetime × UUID) (r : ρ) :
    beforeCursor createdAt id position r = true
      ↔ rowKey createdAt id r < sortKey position.1 position.2 := by
  rw [rowKey, sortKey, sortKey, Prod.Lex.toLex_lt_toLex, beforeCursor]
  simp only [Bool.or_eq_true, Bool.and_eq_true, decide_eq_true_eq, beq_iff_eq]
  exact Iff.rfl

theorem filter_beforeCursor (position : Datetime × UUID) (rows : List ρ) :
    rows.filter (beforeCursor createdAt id position)
      = Keyset.below (rowKey createdAt id) (some (sortKey position.1 position.2)) rows := by
  refine List.filter_congr fun r _ => ?_
  rw [Bool.eq_iff_iff, beforeCursor_iff]
  simp

/-- A cut page is the page by key, and its cursor is made of the row that did not fit. -/
theorem cutPage_spec (createdAt : ρ → Timestamp) (id : ρ → UUID) (respond : ρ → α)
    (limit : PageLimit) (rows : List ρ) (k : Option SortKey) :
    let p := cutPage createdAt id respond limit (Keyset.below (rowKey createdAt id) k rows)
    p.items = (Keyset.page (rowKey createdAt id) k limit.value rows).map respond
      ∧ p.nextCursor = (Keyset.overflow (rowKey createdAt id) k limit.value rows).map fun e =>
          encodeCursor (createdAt e).datetime (id e) := by
  intro p
  unfold Keyset.page Keyset.overflow
  show (cutPage ..).items = _ ∧ (cutPage ..).nextCursor = _
  unfold cutPage
  generalize Keyset.descending (rowKey createdAt id)
    (Keyset.below (rowKey createdAt id) k rows) = sorted
  unfold makeCursorPage
  by_cases hlt : limit.value < sorted.length
  · -- one row more than fits has been fetched, and the cursor is made of it
    have hfetch : limit.value < (sorted.take (limit.value + 1)).length := by
      rw [List.length_take]
      omega
    simp only [hfetch, dite_true, List.take_take, Nat.min_eq_left (Nat.le_succ limit.value),
      List.getElem_take]
    rw [List.getElem?_eq_getElem hlt]
    exact ⟨trivial, rfl⟩
  · have hfetch : ¬ limit.value < (sorted.take (limit.value + 1)).length := by
      rw [List.length_take]
      omega
    have hlength : sorted.length ≤ limit.value := Nat.not_lt.mp hlt
    simp only [hfetch, dite_false]
    rw [List.getElem?_eq_none_iff.mpr hlength, List.take_of_length_le hlength,
      List.take_of_length_le (Nat.le_succ_of_le hlength)]
    exact ⟨rfl, rfl⟩

/-- A cursor the client holds, and the key it stands for. -/
def StandsFor (cursor : Option String) (k : Option SortKey) : Prop :=
  (cursor = none ∧ k = none)
    ∨ ∃ (createdAt : Timestamp) (id : UUID), cursor = some (encodeCursor createdAt.datetime id)
      ∧ k = some (sortKey createdAt.datetime id)

/-- A page fetched with a cursor the client holds is cut from the rows below its key. -/
theorem fetchPage_of_standsFor {cursor : Option String} {k : Option SortKey}
    (h : StandsFor cursor k) (rows : List ρ) :
    fetchPage createdAt id respond limit cursor rows
      = .ok (cutPage createdAt id respond limit (Keyset.below (rowKey createdAt id) k rows)) := by
  rcases h with ⟨rfl, rfl⟩ | ⟨t, i, rfl, rfl⟩
  · have hall : Keyset.below (rowKey createdAt id) none rows = rows :=
      List.filter_eq_self.mpr fun _ _ => rfl
    rw [hall]
    rfl
  · have hne : (some (encodeCursor t.datetime i)).filter (· ≠ "")
        = some (encodeCursor t.datetime i) := by
      simp [Option.filter, encodeCursor_ne_empty]
    unfold fetchPage
    rw [hne]
    simp only [decodeCursor_encodeCursor, t.readBack_datetime, filter_beforeCursor]

/-- **The client receives what a walk by key hands out.** -/
theorem followCursors_eq_walk {cursor : Option String} {k : Option SortKey}
    (h : StandsFor cursor k) (tables : List (List ρ)) :
    followCursors (fun rows cursor => fetchPage createdAt id respond limit cursor rows) cursor tables
      = (Keyset.walk (rowKey createdAt id) limit.value k tables).map (List.map respond) := by
  induction tables generalizing cursor k with
  | nil => rfl
  | cons rows tables ih =>
      obtain ⟨hitems, hnext⟩ := cutPage_spec createdAt id respond limit rows k
      rw [followCursors, Keyset.walk, fetchPage_of_standsFor h]
      dsimp only
      rw [hitems, hnext]
      cases Keyset.overflow (rowKey createdAt id) k limit.value rows with
      | none =>
          dsimp only [Option.map_none]
          split <;> rfl
      | some e =>
          dsimp only [Option.map_some]
          -- the cursor the client is given stands for the key of the row that did not fit
          rw [ih (Or.inr ⟨_, _, rfl, rfl⟩)]
          show (Option.map (List.map respond) (Keyset.walk _ _ (some (rowKey createdAt id e)) tables)).map _
            = _
          cases Keyset.walk (rowKey createdAt id) limit.value (some (rowKey createdAt id e)) tables with
          | none => rfl
          | some later =>
              simp only [Option.map_some, List.map_append]

/-- Distinct ids are distinct positions. -/
theorem rowKey_nodup {rows : List ρ} (h : (rows.map id).Nodup) :
    (rows.map (rowKey createdAt id)).Nodup := by
  refine List.Nodup.of_map (fun k : SortKey => (ofLex k).2) ?_
  rw [List.map_map]
  exact h

/-- A page does not depend on how the rows were stored. -/
theorem fetchPage_perm (cursor : Option String) {rows rows' : List ρ} (hids : (rows.map id).Nodup)
    (h : rows.Perm rows') :
    fetchPage createdAt id respond limit cursor rows
      = fetchPage createdAt id respond limit cursor rows' := by
  have hcut : ∀ {rows rows' : List ρ}, (rows.map id).Nodup → rows.Perm rows' →
      cutPage createdAt id respond limit rows = cutPage createdAt id respond limit rows' := by
    intro rows rows' hids h
    unfold cutPage
    rw [Keyset.descending_perm (rowKey_nodup hids) h]
  unfold fetchPage
  split
  · rw [hcut hids h]
  · split
    · rfl
    · rw [hcut ((List.filter_sublist.map id).nodup hids) (h.filter _)]

end Paging

end Microservices.Tasks
