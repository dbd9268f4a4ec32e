import Microservices.Tasks.Markup

/-!
# Sending a stored text back

A client that edits a task sends the texts it has been given back. Taking out what looks
like a tag leaves nothing that looks like one: a `<` that stays has no `>` after it. So
the validators take what they have let through once as it is, and the row does not change.
-/

namespace Microservices.Tasks

open Schedule

/-! ## Sanitising twice -/

/-- **Sanitising is stable.** -/
theorem stripHtml_stripHtml (text : String) : stripHtml (stripHtml text) = stripHtml text := by
  have hspans : ¬ ['<', '>'].Sublist (stripHtml text).toList := by
    rw [stripHtml, String.toList_ofList]
    exact fun h => Spans.not_sublist_erase '<' '>' text.toList (h.trans (Trim.trim_sublist _ _))
  have htrim : Trim.trim Trim.isSpace (stripHtml text).toList = (stripHtml text).toList := by
    rw [stripHtml, String.toList_ofList]
    exact Trim.trim_trim _ _
  rw [stripHtml, Spans.erase_eq_self hspans, htrim, String.ofList_toList]

theorem validateTitle_again {raw title : String} (h : validateTitle raw = .ok title) :
    validateTitle title = .ok title := by
  have hlength := length_of_validateTitle h
  obtain ⟨_, rfl, hne⟩ := validateTitle_eq_ok_iff.mp h
  exact validateTitle_eq_ok_iff.mpr ⟨hlength, (stripHtml_stripHtml raw).symm, hne⟩

/-! ## Stored texts have been sanitised -/

/-- The validators let the texts through once. -/
structure Task.Sanitised (t : Task) : Prop where
  title : ∃ raw, validateTitle raw = .ok t.title
  description : ∀ d ∈ t.description, ∃ raw, d = stripHtml raw

def Sanitised (s : TaskService) : Prop := ∀ t ∈ s.tasks.rows, t.Sanitised

variable {s : TaskService} {env : Surroundings} {callerId : UUID}

/-- The title that a creation gives. -/
theorem validateTitle_of_create {body payload : TaskCreate}
    (h : body.modelValidate = .ok payload) : validateTitle body.title = .ok payload.title := by
  unfold TaskCreate.modelValidate at h
  cases hraw : validateTitle body.title with
  | error e =>
      rw [hraw] at h
      cases h
  | ok title =>
      rw [hraw] at h
      cases h
      rfl

/-- The title an update sets, if it sets one. -/
theorem validateTitle_of_update {body payload : TaskUpdate} (h : body.modelValidate = .ok payload)
    {title : String} (htitle : payload.title = some (some title)) :
    ∃ raw, validateTitle raw = .ok title := by
  unfold TaskUpdate.modelValidate at h
  cases hassigned : validateTitleUpdate body.title with
  | error e =>
      rw [hassigned] at h
      cases h
  | ok assigned =>
      rw [hassigned] at h
      cases h
      cases htitle
      match hraw : body.title with
      | none =>
          rw [hraw] at hassigned
          cases hassigned
      | some none =>
          rw [hraw] at hassigned
          cases hassigned
      | some (some raw) =>
          rw [hraw, validateTitleUpdate] at hassigned
          cases hvalid : validateTitle raw with
          | error e =>
              rw [hvalid] at hassigned
              cases hassigned
          | ok cleaned =>
              rw [hvalid] at hassigned
              cases hassigned
              exact ⟨raw, hvalid⟩

theorem sanitised_created {body : TaskCreate} (hvalid : body.modelValidate = .ok body.stripped)
    (id : UUID) (now : Timestamp) : (body.stripped.toTask callerId id now).Sanitised := by
  refine ⟨⟨body.title, validateTitle_of_create hvalid⟩, fun d hd => ?_⟩
  obtain ⟨raw, _, rfl⟩ := Option.mem_map.mp hd
  exact ⟨raw, rfl⟩

/-- What an update does not set was sanitised before. -/
theorem sanitised_updated {body : TaskUpdate} {t task : Task} (h : t.Sanitised)
    (hvalid : body.modelValidate = .ok body.stripped)
    (htitle : task.title = body.stripped.title.join.getD t.title)
    (hdescription : task.description = body.stripped.description.getD t.description) :
    task.Sanitised := by
  constructor
  · rw [htitle]
    cases hassigned : body.stripped.title with
    | none => exact h.title
    | some given =>
        cases given with
        | none => exact h.title
        | some title => exact validateTitle_of_update hvalid hassigned
  · rw [hdescription, TaskUpdate.stripped]
    cases body.description with
    | none => exact h.description
    | some given =>
        intro d hd
        cases given with
        | none => cases hd
        | some raw =>
            cases hd
            exact ⟨raw, rfl⟩

theorem sanitised_step {s' : TaskService} {e : WriteEvent} (h : Sanitised s)
    (hstep : s.step e = some s') : Sanitised s' := by
  cases e with
  | projectsChange projects =>
      cases hstep
      exact h
  | request env callerId request =>
      cases hstep
      cases receive_effect s env callerId request with
      | none _ hrows => exact fun t ht => h t (hrows t ht)
      | create _ hvalid hrows =>
          rw [Sanitised, hrows, List.forall_mem_cons]
          exact ⟨sanitised_created hvalid env.newId env.now, h⟩
      | update _ hvalid hrow htasks _ htitle hdescription =>
          intro x hx
          rw [htasks] at hx
          rcases Table.mem_update.mp hx with ⟨hx, _⟩ | ⟨rfl, _⟩
          · exact h x hx
          · exact sanitised_updated (h _ hrow) hvalid htitle hdescription

/-! ## What is sent back -/

/-- The body with the title and the description that the client has been given. -/
def Task.sentBack (t : Task) : TaskUpdate :=
  { title := some (some t.title), description := some t.description }

theorem modelValidate_sentBack {t : Task} (h : t.Sanitised) :
    t.sentBack.modelValidate = .ok t.sentBack := by
  obtain ⟨raw, htitle⟩ := h.title
  have hdescription : t.description.map stripHtml = t.description := by
    cases hd : t.description with
    | none => rfl
    | some d =>
        obtain ⟨raw, rfl⟩ := h.description d hd
        exact congrArg some (stripHtml_stripHtml raw)
  unfold TaskUpdate.modelValidate Task.sentBack
  dsimp only [validateTitleUpdate]
  rw [validateTitle_again htitle, Option.map_some, hdescription]
  rfl

/-- There is nothing to send to the database. -/
theorem changes_sentBack (t : Task) : t.sentBack.changes t = some {} := by
  simp [TaskUpdate.changes, Task.sentBack, setRequired, setNullable, Option.filter]

/-- The creator of a task sends its texts back. -/
theorem updateTask_sentBack {t : Task} (ht : t ∈ s.tasks.rows) :
    s.updateTask env t.creatorId t.id t.sentBack
      = { answer := .task 200 (TaskResponse.modelValidate t) false, events := [], state := s } := by
  have hfind : s.tasks.find? t.id = some t := Table.find?_eq_some_iff.mpr ⟨ht, rfl⟩
  have hauth : getAuthorizedTask (s.tasks.find? t.id) t.creatorId true = .ok t := by
    rw [hfind]
    simp [getAuthorizedTask, Task.visibleTo]
  unfold TaskService.updateTask
  rw [hauth]
  dsimp only
  rw [changes_sentBack]
  have hempty : ColumnUpdate.isEmpty {} = true := rfl
  dsimp only
  rw [if_pos hempty, Table.update_self ht]
  rfl

/--
**Sanitising is stable**, and so is every stored task: its title and its description, sent
back by its creator, pass the validators as they are and leave the service as it was.
-/
theorem sent_back_changes_nothing (projects : Projects) (es : List WriteEvent)
    (h : exec TaskService.step ⟨projects, Table.empty, fun _ => none⟩ es = some s) :
    (∀ text, stripHtml (stripHtml text) = stripHtml text)
      ∧ ∀ t ∈ s.tasks.rows, t.sentBack.modelValidate = .ok t.sentBack
        ∧ ∀ env, s.updateTask env t.creatorId t.id t.sentBack
          = { answer := .task 200 (TaskResponse.modelValidate t) false, events := [], state := s } := by
  have hstored : Sanitised s :=
    exec_invariant (I := Sanitised) (fun _ _ _ hI _ hstep => sanitised_step hI hstep)
      (by intro t ht; cases ht) (meets_true _ es) h
  exact ⟨stripHtml_stripHtml,
    fun t ht => ⟨modelValidate_sentBack (hstored t ht), fun env => updateTask_sentBack ht⟩⟩

/-- A title with a tag in it and a bracket that is none. -/
def taggedTitle : TaskCreate :=
  { title := " <b>Notes</b> on a < b ", description := some "x > y", projectId := annsProject.id }

theorem taggedTitle_sent_back : ∃ s t,
    exec TaskService.step ⟨annsProjects, Table.empty, fun _ => none⟩
        [.request atNoon ann (.create none taggedTitle)] = some s
      ∧ s.tasks.rows = [t] ∧ t.title = "Notes on a < b" ∧ t.sentBack.modelValidate = .ok t.sentBack
      ∧ s.updateTask atNoon t.creatorId t.id t.sentBack
        = { answer := .task 200 (TaskResponse.modelValidate t) false, events := [], state := s } := by
  have hrows : (TaskService.receive ⟨annsProjects, Table.empty, fun _ => none⟩ atNoon ann
      (.create none taggedTitle)).tasks.rows
        = [taggedTitle.stripped.toTask ann launchTaskId noon] := by decide +kernel
  have hrun : exec TaskService.step ⟨annsProjects, Table.empty, fun _ => none⟩
      [.request atNoon ann (.create none taggedTitle)]
        = some (TaskService.receive ⟨annsProjects, Table.empty, fun _ => none⟩ atNoon ann
          (.create none taggedTitle)) := rfl
  obtain ⟨hvalid, hupdate⟩ := (sent_back_changes_nothing annsProjects _ hrun).2 _
    (by rw [hrows]; exact List.mem_singleton_self _)
  exact ⟨_, _, hrun, hrows, by decide +kernel, hvalid, hupdate atNoon⟩

end Microservices.Tasks
