import Microservices.Tasks.Isolation

/-!
# One project request at a time

Listing, reading and deleting of `projects.py`. A project of somebody else is left
out of the list and answered like a missing one by `get_project`, but
`delete_project` says 403 for it and 404 for a missing one. That is all a caller
can learn: `delete_tells_iff`.
-/

namespace Microservices.Tasks

inductive ProjectRequest where
  | list (limit : PageLimit) (cursor : Option String)
  | get (projectId : UUID)
  | delete (projectId : UUID)

inductive ProjectAnswer where
  | project (body : ProjectResponse)
  | page (page : CursorPage ProjectResponse)
  | noContent
  | refused (e : HTTPException)

def notTheOwner : HTTPException := { statusCode := 403, detail := "Not the project owner" }

/-- `get_project`. -/
def getProject (projects : Projects) (callerId projectId : UUID) : ProjectAnswer :=
  match projects.find? projectId with
  | none => .refused projectNotFound
  | some p =>
      if p.ownerId ≠ callerId then .refused projectNotFound
      else .project (ProjectResponse.modelValidate p)

/-- `delete_project`, a soft deletion. -/
def deleteProject (projects : Projects) (callerId projectId : UUID) : ProjectAnswer × Projects :=
  match projects.find? projectId with
  | none => (.refused projectNotFound, projects)
  | some p =>
      if p.ownerId ≠ callerId then (.refused notTheOwner, projects)
      else (.noContent, projects.update { p with isActive := false })

/-- The route a request goes to. -/
def handleProject (projects : Projects) (callerId : UUID) :
    ProjectRequest → ProjectAnswer × Projects
  | .list limit cursor =>
      match listProjects projects.rows callerId limit cursor with
      | .error e => (.refused e, projects)
      | .ok page => (.page page, projects)
  | .get projectId => (getProject projects callerId projectId, projects)
  | .delete projectId => deleteProject projects callerId projectId

/-- The tables hold the same projects of `callerId`. -/
abbrev SameOwned (callerId : UUID) (projects projects' : Projects) : Prop :=
  projects.AgreeOn (fun p => p.ownerId == callerId) projects'

/-- Somebody else has a project under this id. -/
def Foreign (callerId : UUID) (projects : Projects) (projectId : UUID) : Prop :=
  ∃ p ∈ projects.rows, p.id = projectId ∧ p.ownerId ≠ callerId

/-- **The request reveals nothing**: it is answered alike over both tables, and leaves the projects
of others as they are in either. -/
structure RevealsNothing (callerId : UUID) (projects projects' : Projects)
    (request : ProjectRequest) : Prop where
  answer : (handleProject projects callerId request).1 = (handleProject projects' callerId request).1
  others : projects.AgreeOn (fun p => p.ownerId != callerId)
    (handleProject projects callerId request).2
  others' : projects'.AgreeOn (fun p => p.ownerId != callerId)
    (handleProject projects' callerId request).2

variable {callerId : UUID} {projects projects' : Projects}

theorem Foreign.find? {projectId : UUID} (h : Foreign callerId projects projectId) :
    ∃ p, projects.find? projectId = some p ∧ p.ownerId ≠ callerId := by
  obtain ⟨p, hp, hid, howner⟩ := h
  exact ⟨p, Table.find?_eq_some_iff.mpr ⟨hp, hid⟩, howner⟩

/-- Where nobody else has the project, it is the caller's or there is none. -/
theorem find?_of_not_foreign {projectId : UUID} (h : ¬ Foreign callerId projects projectId) :
    projects.find? projectId
      = (projects.find? projectId).filter fun p => p.ownerId == callerId := by
  cases hfind : projects.find? projectId with
  | none => rfl
  | some p =>
      obtain ⟨hp, hid⟩ := Table.find?_eq_some_iff.mp hfind
      have howner : p.ownerId = callerId := by
        by_contra hne
        exact h ⟨p, hp, hid, hne⟩
      simp [Option.filter, howner]

/-- `get_project` reads the caller's projects only. -/
theorem getProject_filter (projects : Projects) (callerId projectId : UUID) :
    getProject projects callerId projectId
      = match (projects.find? projectId).filter fun p => p.ownerId == callerId with
        | none => .refused projectNotFound
        | some p => .project (ProjectResponse.modelValidate p) := by
  unfold getProject
  exact match_ownedBy _ callerId _ _

theorem listProjects_eq (h : SameOwned callerId projects projects') (limit : PageLimit)
    (cursor : Option String) :
    listProjects projects.rows callerId limit cursor
      = listProjects projects'.rows callerId limit cursor := by
  have hperm : (projects.rows.filter fun p => p.listed callerId).Perm
      (projects'.rows.filter fun p => p.listed callerId) := by
    refine h.perm fun p hp => ?_
    unfold Project.listed at hp
    rw [Bool.and_eq_true] at hp
    exact hp.1
  exact fetchPage_perm cursor ((List.filter_sublist.map Project.id).nodup projects.nodup) hperm

/-! ## What `delete_project` says -/

theorem deleteProject_of_foreign {projectId : UUID} (h : Foreign callerId projects projectId) :
    (deleteProject projects callerId projectId).1 = .refused notTheOwner := by
  obtain ⟨p, hfind, howner⟩ := h.find?
  unfold deleteProject
  rw [hfind]
  dsimp only
  rw [if_pos howner]

/-- Otherwise it goes by the caller's projects. -/
theorem deleteProject_of_not_foreign {projectId : UUID}
    (h : ¬ Foreign callerId projects projectId) :
    (deleteProject projects callerId projectId).1
      = match (projects.find? projectId).filter fun p => p.ownerId == callerId with
        | none => .refused projectNotFound
        | some _ => .noContent := by
  unfold deleteProject
  rw [find?_of_not_foreign h]
  cases projects.find? projectId with
  | none => rfl
  | some p =>
      by_cases hp : p.ownerId = callerId
      · simp [Option.filter, hp]
      · simp [Option.filter, hp]

/-- It answers alike over tables that differ in other people's projects just if both or neither of
them has such a project under the id. -/
theorem delete_tells_iff (h : SameOwned callerId projects projects') (projectId : UUID) :
    (deleteProject projects callerId projectId).1 = (deleteProject projects' callerId projectId).1
      ↔ (Foreign callerId projects projectId ↔ Foreign callerId projects' projectId) := by
  -- the 403 is given for foreign projects only
  have hne : ∀ {found : Option Project}, (.refused notTheOwner : ProjectAnswer)
      ≠ match found with
        | none => .refused projectNotFound
        | some _ => .noContent := by
    intro found
    cases found with
    | none => simp [notTheOwner, projectNotFound]
    | some p => simp
  by_cases hf : Foreign callerId projects projectId
  · rw [deleteProject_of_foreign hf]
    by_cases hf' : Foreign callerId projects' projectId
    · rw [deleteProject_of_foreign hf']
      exact iff_of_true rfl (iff_of_true hf hf')
    · rw [deleteProject_of_not_foreign hf']
      exact iff_of_false hne fun hiff => hf' (hiff.mp hf)
  · rw [deleteProject_of_not_foreign hf]
    by_cases hf' : Foreign callerId projects' projectId
    · rw [deleteProject_of_foreign hf']
      exact iff_of_false hne.symm fun hiff => hf (hiff.mpr hf')
    · rw [deleteProject_of_not_foreign hf', h.filter_find?]
      exact iff_of_true rfl (iff_of_false hf hf')

/-- No request changes a project of somebody else. -/
theorem others_unchanged (projects : Projects) (callerId : UUID) (request : ProjectRequest) :
    projects.AgreeOn (fun p => p.ownerId != callerId)
      (handleProject projects callerId request).2 := by
  intro p hp
  cases request with
  | list limit cursor =>
      unfold handleProject
      dsimp only
      split <;> exact Iff.rfl
  | get projectId => exact Iff.rfl
  | delete projectId =>
      show p ∈ projects.rows ↔ p ∈ (deleteProject projects callerId projectId).2.rows
      unfold deleteProject
      cases hfind : projects.find? projectId with
      | none => exact Iff.rfl
      | some found =>
          dsimp only
          by_cases howner : found.ownerId = callerId
          · -- the row that changes is the caller's before and after
            rw [if_neg (not_not_intro howner), Table.mem_update]
            obtain ⟨hfound, hid⟩ := Table.find?_eq_some_iff.mp hfind
            have hother : p.ownerId ≠ callerId := by simpa using hp
            have hdiffers : p ∈ projects.rows → p.id ≠ found.id := by
              intro hmem heq
              rw [Table.eq_of_key hmem hfound heq] at hother
              exact hother howner
            constructor
            · intro hmem
              exact Or.inl ⟨hmem, hdiffers hmem⟩
            · rintro (⟨hmem, _⟩ | ⟨rfl, _⟩)
              · exact hmem
              · exact absurd howner hother
          · rw [if_pos howner]

/--
**A project request reveals nothing but what a deletion says of a foreign project.**

For every two tables that hold the same projects of the caller, and every request.
-/
theorem reveals_nothing_iff (callerId : UUID) (projects projects' : Projects)
    (h : SameOwned callerId projects projects') (request : ProjectRequest) :
    RevealsNothing callerId projects projects' request
      ↔ ∀ projectId, request = .delete projectId →
          (Foreign callerId projects projectId ↔ Foreign callerId projects' projectId) := by
  have hothers := others_unchanged projects callerId request
  have hothers' := others_unchanged projects' callerId request
  cases request with
  | list limit cursor =>
      refine iff_of_true ⟨?_, hothers, hothers'⟩ (by intro projectId heq; cases heq)
      show (match listProjects projects.rows callerId limit cursor with
        | .error e => (ProjectAnswer.refused e, projects)
        | .ok page => (.page page, projects)).1 = _
      unfold handleProject
      dsimp only
      rw [listProjects_eq h]
      split <;> rfl
  | get projectId =>
      refine iff_of_true ⟨?_, hothers, hothers'⟩ (by intro projectId heq; cases heq)
      show getProject projects callerId projectId = getProject projects' callerId projectId
      rw [getProject_filter, h.filter_find?, ← getProject_filter]
  | delete projectId =>
      constructor
      · rintro hreveals projectId' heq
        cases heq
        exact (delete_tells_iff h projectId).mp hreveals.answer
      · intro hforeign
        exact ⟨(delete_tells_iff h projectId).mpr (hforeign projectId rfl), hothers, hothers'⟩

/-- Ann reads Bob's project, in the table with him and in the one without. -/
theorem get_reveals_nothing :
    RevealsNothing ann withBob.projects withoutBob.projects (.get bobsProject.id) :=
  (reveals_nothing_iff ann withBob.projects withoutBob.projects agree_withoutBob.projects
    (.get bobsProject.id)).mpr (by intro projectId heq; cases heq)

/-- **Deleting it tells her whether it is there.** -/
theorem delete_reveals_project :
    SameOwned ann withBob.projects withoutBob.projects
      ∧ (handleProject withBob.projects ann (.delete bobsProject.id)).1 = .refused notTheOwner
      ∧ (handleProject withoutBob.projects ann (.delete bobsProject.id)).1
        = .refused projectNotFound
      ∧ ¬ RevealsNothing ann withBob.projects withoutBob.projects (.delete bobsProject.id) := by
  refine ⟨agree_withoutBob.projects, rfl, rfl, fun h => ?_⟩
  have hanswer : (ProjectAnswer.refused notTheOwner) = .refused projectNotFound := h.answer
  cases hanswer

end Microservices.Tasks
