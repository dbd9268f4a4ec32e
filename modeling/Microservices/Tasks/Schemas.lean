import Microservices.Lib.Spans
import Microservices.Lib.Trim
import Microservices.Tasks.Requests

/-!
# What the schemas accept

`TaskCreate` and `TaskUpdate` as Pydantic runs them once the types fit: the length
of the title first, then the validators, which take what looks like a tag out of
the title and the description. An accepted body is the payload of a route.
-/

namespace Microservices.Tasks

/-- An entry of a 422. -/
structure ValidationError where
  loc : List String
  msg : String
  deriving DecidableEq, Repr

/-- `_strip_html`, of a text. -/
def stripHtml (value : String) : String :=
  String.ofList (Trim.trim Trim.isSpace (Spans.erase '<' '>' value.toList))

def titleError (msg : String) : ValidationError := { loc := ["body", "title"], msg := msg }

/-- `Field(min_length=1, max_length=500)`. -/
def checkLength (title : String) : Except ValidationError Unit :=
  if title.length < 1 then .error (titleError "String should have at least 1 character")
  else if 500 < title.length then
    .error (titleError "String should have at most 500 characters")
  else .ok ()

/-- `sanitize_title`, of a title that is there. -/
def sanitizeTitle (v : String) : Except ValidationError String :=
  let cleaned := stripHtml v
  if cleaned = "" then
    .error (titleError "Value error, Title must not be empty after HTML is removed")
  else .ok cleaned

/-- The title of a body, as both schemas take it. -/
def validateTitle (title : String) : Except ValidationError String := do
  checkLength title
  sanitizeTitle title

/-- `TaskCreate(**body)`. -/
def TaskCreate.modelValidate (body : TaskCreate) : Except ValidationError TaskCreate := do
  let title ← validateTitle body.title
  return { body with title := title, description := body.description.map stripHtml }

/-- The title of an update. A null title is not looked at. -/
def validateTitleUpdate : Option (Option String) → Except ValidationError (Option (Option String))
  | some (some title) => (fun cleaned => some (some cleaned)) <$> validateTitle title
  | title => .ok title

/-- `TaskUpdate(**body)`. -/
def TaskUpdate.modelValidate (body : TaskUpdate) : Except ValidationError TaskUpdate := do
  let title ← validateTitleUpdate body.title
  return { body with title := title, description := body.description.map (Option.map stripHtml) }

/-- The schema of the route, over the body of the request. -/
def TaskRequest.modelValidate : TaskRequest → Except ValidationError TaskRequest
  | .create key body => .create key <$> body.modelValidate
  | .update taskId body => .update taskId <$> body.modelValidate
  | r => .ok r

/-! ## Accepted titles -/

variable {title title' : String}

theorem stripHtml_sublist (value : String) : (stripHtml value).toList.Sublist value.toList := by
  rw [stripHtml, String.toList_ofList]
  exact (Trim.trim_sublist _ _).trans (Spans.erase_sublist _ _ _)

theorem length_stripHtml_le (value : String) : (stripHtml value).length ≤ value.length := by
  rw [← String.length_toList, ← String.length_toList]
  exact (stripHtml_sublist value).length_le

theorem validateTitle_eq_ok_iff : validateTitle title = .ok title' ↔
    title.length ≤ 500 ∧ title' = stripHtml title ∧ title' ≠ "" := by
  have hempty : title.length < 1 → stripHtml title = "" := by
    intro h
    have hle := length_stripHtml_le title
    exact String.length_eq_zero_iff.mp (by omega)
  rw [validateTitle, checkLength]
  split_ifs with hshort hlong
  · refine iff_of_false (by intro h; cases h) ?_
    rintro ⟨_, rfl, hne⟩
    exact hne (hempty hshort)
  · refine iff_of_false (by intro h; cases h) ?_
    intro h
    omega
  · unfold sanitizeTitle
    dsimp only [bind, Except.bind]
    split_ifs with hcleaned
    · refine iff_of_false (by intro h; cases h) ?_
      rintro ⟨_, rfl, hne⟩
      exact hne hcleaned
    · rw [Except.ok.injEq]
      constructor
      · rintro rfl
        exact ⟨by omega, rfl, hcleaned⟩
      · exact fun h => h.2.1.symm

/-- An accepted title is of a length the column takes. -/
theorem length_of_validateTitle (h : validateTitle title = .ok title') : title'.length ≤ 500 := by
  obtain ⟨hlength, rfl, _⟩ := validateTitle_eq_ok_iff.mp h
  exact (length_stripHtml_le title).trans hlength

theorem validateTitleUpdate_eq_ok {assigned assigned' : Option (Option String)}
    (h : validateTitleUpdate assigned = .ok assigned') :
    assigned' = assigned.map (Option.map stripHtml)
      ∧ ∀ v, assigned' = some (some v) → v.length ≤ 500 := by
  match assigned with
  | none =>
      cases h
      exact ⟨rfl, nofun⟩
  | some none =>
      cases h
      exact ⟨rfl, nofun⟩
  | some (some title) =>
      rw [validateTitleUpdate] at h
      cases hvalid : validateTitle title with
      | error e =>
          rw [hvalid] at h
          cases h
      | ok title' =>
          rw [hvalid] at h
          cases h
          obtain ⟨_, rfl, _⟩ := validateTitle_eq_ok_iff.mp hvalid
          refine ⟨rfl, ?_⟩
          intro v hv
          cases hv
          exact length_of_validateTitle hvalid

/-! ## Accepted bodies -/

/-- The body without what looks like a tag. -/
def TaskCreate.stripped (body : TaskCreate) : TaskCreate :=
  { body with title := stripHtml body.title, description := body.description.map stripHtml }

/-- The body without what looks like a tag. -/
def TaskUpdate.stripped (body : TaskUpdate) : TaskUpdate :=
  { body with
    title := body.title.map (Option.map stripHtml)
    description := body.description.map (Option.map stripHtml) }

theorem create_modelValidate {body payload : TaskCreate} (h : body.modelValidate = .ok payload) :
    payload = body.stripped ∧ payload.title.length ≤ 500 := by
  unfold TaskCreate.modelValidate at h
  cases htitle : validateTitle body.title with
  | error e =>
      rw [htitle] at h
      cases h
  | ok title =>
      rw [htitle] at h
      cases h
      have hlength := length_of_validateTitle htitle
      obtain ⟨_, rfl, _⟩ := validateTitle_eq_ok_iff.mp htitle
      exact ⟨rfl, hlength⟩

theorem update_modelValidate {body payload : TaskUpdate} (h : body.modelValidate = .ok payload) :
    payload = body.stripped ∧ ∀ v, payload.title = some (some v) → v.length ≤ 500 := by
  unfold TaskUpdate.modelValidate at h
  cases htitle : validateTitleUpdate body.title with
  | error e =>
      rw [htitle] at h
      cases h
  | ok title =>
      rw [htitle] at h
      cases h
      obtain ⟨rfl, hlength⟩ := validateTitleUpdate_eq_ok htitle
      exact ⟨rfl, hlength⟩

end Microservices.Tasks
