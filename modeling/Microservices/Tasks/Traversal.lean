import Microservices.Tasks.Listing

/-!
# What a client receives that follows the cursors

A client asks for a list without a cursor and follows `next_cursor` until it is
null. The table may be another one at each of its fetches. Of the rows that are
there throughout, it receives all but those that were, at some fetch, the first
that did not fit on the page: `make_cursor_page` makes the cursor of that row, and
the next page starts below it.
-/

namespace Microservices.Tasks

theorem TaskResponse.modelValidate_injective : Function.Injective TaskResponse.modelValidate := by
  intro s t h
  cases s
  cases t
  simp only [TaskResponse.modelValidate, TaskResponse.mk.injEq] at h
  simp only [Task.mk.injEq]
  exact h

theorem ProjectResponse.modelValidate_injective :
    Function.Injective ProjectResponse.modelValidate := by
  intro p q h
  cases p
  cases q
  simp only [ProjectResponse.modelValidate, ProjectResponse.mk.injEq] at h
  simp only [Project.mk.injEq]
  exact h

/-- At each fetch the row is in the table, and it is one that is asked for. -/
def Throughout {ρ : Type} (tables : List (List ρ)) (wanted : ρ → Bool) (r : ρ) : Prop :=
  ∀ rows ∈ tables, r ∈ rows ∧ wanted r = true

instance {ρ : Type} [DecidableEq ρ] (tables : List (List ρ)) (wanted : ρ → Bool) (r : ρ) :
    Decidable (Throughout tables wanted r) :=
  inferInstanceAs (Decidable (∀ rows ∈ tables, r ∈ rows ∧ wanted r = true))

theorem followCursors_map {σ τ α : Type}
    (answer : τ → Option String → Except HTTPException (CursorPage α)) (f : σ → τ)
    (cursor : Option String) (states : List σ) :
    followCursors (fun s c => answer (f s) c) cursor states
      = followCursors answer cursor (states.map f) := by
  induction states generalizing cursor with
  | nil => rfl
  | cons s states ih =>
      rw [List.map_cons, followCursors, followCursors]
      simp only [ih, List.isEmpty_map]

section Paging

variable {ρ α : Type} {createdAt : ρ → Timestamp} {id : ρ → UUID} {respond : ρ → α}
  {limit : PageLimit} {wanted : ρ → Bool} {tables : List (List ρ)} {got : List α} {r : ρ}

variable (createdAt id respond limit wanted) in
/-- The rows that did not fit, of those asked for. -/
def skipped (tables : List (List ρ)) : List ρ :=
  Keyset.overflows (rowKey createdAt id) limit.value none (tables.map (List.filter wanted))

theorem rowKey_filter_nodup {rows : List ρ} (h : (rows.map id).Nodup) :
    ((rows.filter wanted).map (rowKey createdAt id)).Nodup :=
  rowKey_nodup ((List.filter_sublist.map id).nodup h)

theorem throughout_iff :
    Throughout tables wanted r ↔ ∀ rows ∈ tables.map (List.filter wanted), r ∈ rows := by
  simp only [Throughout, List.forall_mem_map, List.mem_filter]

variable (createdAt id respond limit wanted) in
/-- The client walks the rows asked for by key. -/
theorem followCursors_filter (tables : List (List ρ)) :
    followCursors (fun rows cursor =>
        fetchPage createdAt id respond limit cursor (rows.filter wanted)) none tables
      = (Keyset.walk (rowKey createdAt id) limit.value none
          (tables.map (List.filter wanted))).map (List.map respond) := by
  rw [followCursors_map (fun rows cursor => fetchPage createdAt id respond limit cursor rows)]
  exact followCursors_eq_walk (Or.inl ⟨rfl, rfl⟩) _

theorem walk_of_followCursors
    (h : followCursors (fun rows cursor =>
      fetchPage createdAt id respond limit cursor (rows.filter wanted)) none tables = some got) :
    ∃ rows, Keyset.walk (rowKey createdAt id) limit.value none (tables.map (List.filter wanted))
      = some rows ∧ rows.map respond = got := by
  rw [followCursors_filter] at h
  exact Option.map_eq_some_iff.mp h

/-- **Of the rows that are there throughout, the client receives all but the skipped ones.** -/
theorem received_iff (hrespond : Function.Injective respond)
    (hids : ∀ rows ∈ tables, (rows.map id).Nodup)
    (h : followCursors (fun rows cursor =>
      fetchPage createdAt id respond limit cursor (rows.filter wanted)) none tables = some got)
    (hr : Throughout tables wanted r) :
    respond r ∈ got ↔ r ∉ skipped createdAt id limit wanted tables := by
  obtain ⟨rows, hwalk, rfl⟩ := walk_of_followCursors h
  rw [List.mem_map_of_injective hrespond]
  refine Keyset.mem_walk_iff ?_ hwalk (throughout_iff.mp hr) (by intro k hk; cases hk)
  intro T hT
  obtain ⟨rows, hrows, rfl⟩ := List.mem_map.mp hT
  exact rowKey_filter_nodup (hids rows hrows)

/-- So it receives all of them iff no skipped row is one of them. -/
theorem received_all_iff (hrespond : Function.Injective respond)
    (hids : ∀ rows ∈ tables, (rows.map id).Nodup)
    (h : followCursors (fun rows cursor =>
      fetchPage createdAt id respond limit cursor (rows.filter wanted)) none tables = some got) :
    (∀ r, Throughout tables wanted r → respond r ∈ got)
      ↔ ∀ e ∈ skipped createdAt id limit wanted tables, ¬ Throughout tables wanted e := by
  constructor
  · intro hall e he hthere
    exact (received_iff hrespond hids h hthere).mp (hall e hthere) he
  · intro hnone r hthere
    exact (received_iff hrespond hids h hthere).mpr fun hlost => hnone r hlost hthere

/-- A client of a table that stays as it is comes to the end of it. -/
theorem exists_received (rows : List ρ) :
    ∃ n got, followCursors (fun rows cursor =>
      fetchPage createdAt id respond limit cursor (rows.filter wanted)) none (List.replicate n rows)
        = some got := by
  obtain ⟨n, walked, h⟩ :=
    Keyset.exists_walk (rowKey createdAt id) limit.value (rows.filter wanted) none
  refine ⟨n, walked.map respond, ?_⟩
  rw [followCursors_filter, List.map_replicate, h]
  rfl

/-- Of a table that stays as it is, it receives every row iff they all fit on the first page. -/
theorem received_unchanged_iff (hrespond : Function.Injective respond) {rows : List ρ} {n : Nat}
    (hids : (rows.map id).Nodup)
    (h : followCursors (fun rows cursor =>
      fetchPage createdAt id respond limit cursor (rows.filter wanted)) none (List.replicate n rows)
        = some got) :
    (∀ r ∈ rows, wanted r = true → respond r ∈ got) ↔ (rows.filter wanted).length ≤ limit.value := by
  obtain ⟨walked, hwalk, rfl⟩ := walk_of_followCursors h
  rw [List.map_replicate] at hwalk
  rw [← Keyset.walk_unchanged_iff (rowKey_filter_nodup hids) hwalk]
  simp only [List.mem_map_of_injective hrespond, List.mem_filter, and_imp]

end Paging

/--
A client that follows the cursors of `list_tasks` receives every task that is there, visible to it
and matching throughout iff no skipped task is one; so does a client of `list_projects`.
-/
theorem pagination_complete_iff (callerId : UUID) (limit : PageLimit) :
    (∀ (projectId : Option UUID) (statusFilter : Option TaskStatus) (tables : List (List Task))
        (got : List TaskResponse),
      (∀ tasks ∈ tables, (tasks.map Task.id).Nodup) →
      followCursors (fun tasks cursor =>
        listTasks tasks callerId projectId statusFilter limit cursor) none tables = some got →
      ((∀ t, Throughout tables (fun t => t.listed callerId projectId statusFilter) t →
          TaskResponse.modelValidate t ∈ got)
        ↔ ∀ t ∈ skipped Task.createdAt Task.id limit
            (fun t => t.listed callerId projectId statusFilter) tables,
            ¬ Throughout tables (fun t => t.listed callerId projectId statusFilter) t))
      ∧ ∀ (tables : List (List Project)) (got : List ProjectResponse),
        (∀ projects ∈ tables, (projects.map Project.id).Nodup) →
        followCursors (fun projects cursor => listProjects projects callerId limit cursor) none tables
          = some got →
        ((∀ p, Throughout tables (fun p => p.listed callerId) p →
            ProjectResponse.modelValidate p ∈ got)
          ↔ ∀ p ∈ skipped Project.createdAt Project.id limit (fun p => p.listed callerId) tables,
              ¬ Throughout tables (fun p => p.listed callerId) p) := by
  constructor
  · intro projectId statusFilter tables got hids h
    exact received_all_iff TaskResponse.modelValidate_injective hids h
  · intro tables got hids h
    exact received_all_iff ProjectResponse.modelValidate_injective hids h

/-! ## Two tasks made at the same time, read one per page -/

def releaseNotes : Task := launchTask.toTask ann launchTaskId noon

def announcement : Task :=
  { title := "Announce", projectId := UUID.ofNat 2 : TaskCreate }.toTask ann (UUID.ofNat 11) noon

def onePerPage : PageLimit := { value := 1 }

/-- The announcement comes first. If the release notes are deleted before the second fetch, nothing
is lost that was there throughout. -/
theorem pagination_complete_once_skipped_is_deleted :
    (∀ t, Throughout [[releaseNotes, announcement], [announcement]]
        (fun t => t.listed ann none none) t →
      TaskResponse.modelValidate t ∈ [TaskResponse.modelValidate announcement])
      ∧ ∀ p, Throughout [[annsProject]] (fun p => p.listed ann) p →
        ProjectResponse.modelValidate p ∈ [ProjectResponse.modelValidate annsProject] := by
  obtain ⟨htasks, hprojects⟩ := pagination_complete_iff ann onePerPage
  have hreceived : followCursors
      (fun tasks cursor => listTasks tasks ann none none onePerPage cursor) none
      [[releaseNotes, announcement], [announcement]]
      = some [TaskResponse.modelValidate announcement] := by
    unfold listTasks
    rw [followCursors_filter]
    decide +kernel
  exact ⟨(htasks none none _ _ (by decide +kernel) hreceived).mpr (by decide +kernel),
    (hprojects _ _ (by decide +kernel) (by decide +kernel)).mpr (by decide +kernel)⟩

/-- If nothing happens between the fetches, the release notes are skipped. -/
theorem pagination_skips_second_task :
    ([releaseNotes, announcement].map Task.id).Nodup
      ∧ Throughout [[releaseNotes, announcement], [releaseNotes, announcement]]
          (fun t => t.listed ann none none) releaseNotes
      ∧ followCursors (fun tasks cursor => listTasks tasks ann none none onePerPage cursor) none
          [[releaseNotes, announcement], [releaseNotes, announcement]]
        = some [TaskResponse.modelValidate announcement]
      ∧ TaskResponse.modelValidate releaseNotes ∉ [TaskResponse.modelValidate announcement] := by
  refine ⟨by decide +kernel, by decide +kernel, ?_, by decide +kernel⟩
  unfold listTasks
  rw [followCursors_filter]
  decide +kernel

end Microservices.Tasks
