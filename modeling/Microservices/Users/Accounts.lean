import Microservices.Users.AccessTokens
import Microservices.Users.Tokens

/-!
# The routes of `users.py`

The six requests that change an account. A route knows its caller by two headers
that the gateway writes from the verified token: `X-User-Id`, and `X-User-Roles`
for the admin routes. The row it changes it reads from the table; it never reads
the caller's own.
-/

namespace Microservices.Users

/-- What a route knows of its caller. -/
structure CallerHeaders where
  xUserId : String
  xUserRoles : String := ""

/-- `_parse_caller_id`. -/
def parseCallerId (caller : CallerHeaders) : Except HTTPException UUID :=
  match UUID.ofText? caller.xUserId with
  | none =>
      .error { statusCode := 400, detail := "Invalid X-User-Id header — expected a UUID" }
  | some uid => .ok uid

/-- `roles`, in `_require_admin`. -/
def rolesOf (xUserRoles : String) : List String :=
  ((xUserRoles.toList.splitOn ',').map fun r => String.ofList (Decimal.strip r)).filter (· ≠ "")

/-- `_require_admin`. -/
def requireAdmin (caller : CallerHeaders) : Except HTTPException Unit :=
  if "admin" ∈ rolesOf caller.xUserRoles then .ok ()
  else .error { statusCode := 403, detail := "Admin privileges required for this operation" }

/-- `_get_user_or_404`. -/
def getUserOr404 (uid : UUID) (users : List User) : Except HTTPException User :=
  match users.find? fun u => u.id = uid with
  | none => .error { statusCode := 404, detail := "User not found" }
  | some user => .ok user

structure AdminUserResponse extends UserResponse where
  isAdmin : Bool
  deriving DecidableEq, Repr

/-- `AdminUserResponse.model_validate(user)`. -/
def AdminUserResponse.ofUser (u : User) : AdminUserResponse :=
  { toUserResponse := .ofUser u, isAdmin := u.isAdmin }

inductive AccountResponse where
  /-- 204. -/
  | noContent
  | profile (user : UserResponse)
  | adminProfile (user : AdminUserResponse)
  deriving DecidableEq, Repr

/-- What a route answers, with what its session writes on the commit. -/
abbrev RouteResult := Except HTTPException (AccountResponse × Flush)

/-- `db.delete(user)`. -/
def deleteUser (uid : UUID) : Flush := fun users => users.filter fun u => u.id ≠ uid

/-! ## The caller's own account -/

/-- A `UserUpdate` that has passed validation. -/
structure UserUpdate where
  fullName : Option String := none
  password : Option String := none
  deriving DecidableEq, Repr

/-- What `update_me` sets: the fields that the payload has. -/
def UserUpdate.change (hashpw : String → String) (payload : UserUpdate) (u : User) : User :=
  { u with
    fullName := payload.fullName.or u.fullName
    hashedPassword := (payload.password.map hashpw).getD u.hashedPassword }

/-- `update_me`. -/
def updateMe (hashpw : String → String) (payload : UserUpdate) (caller : CallerHeaders)
    (users : List User) : RouteResult := do
  let callerId ← parseCallerId caller
  let user ← getUserOr404 callerId users
  let change := payload.change hashpw
  return (.profile (.ofUser (change user)), updateUser user.id change)

/-- `deactivate_me`. -/
def deactivateMe (caller : CallerHeaders) (users : List User) : RouteResult := do
  let callerId ← parseCallerId caller
  let user ← getUserOr404 callerId users
  return (.noContent, updateUser user.id fun u => { u with isActive := false })

/-- `hard_delete_me`. -/
def hardDeleteMe (caller : CallerHeaders) (users : List User) : RouteResult := do
  let callerId ← parseCallerId caller
  let user ← getUserOr404 callerId users
  return (.noContent, deleteUser user.id)

/-! ## The admin routes -/

/-- `admin_promote_user`. -/
def adminPromoteUser (userId : UUID) (caller : CallerHeaders) (users : List User) :
    RouteResult := do
  requireAdmin caller
  let _ ← parseCallerId caller
  let user ← getUserOr404 userId users
  if user.isAdmin then throw { statusCode := 409, detail := "User is already an admin" }
  else
    let change := fun u : User => { u with isAdmin := true }
    return (.adminProfile (.ofUser (change user)), updateUser user.id change)

/-- `admin_demote_user`. -/
def adminDemoteUser (userId : UUID) (caller : CallerHeaders) (users : List User) :
    RouteResult := do
  requireAdmin caller
  let callerId ← parseCallerId caller
  if userId = callerId then
    throw { statusCode := 400, detail := "Admins cannot demote themselves" }
  else
    let user ← getUserOr404 userId users
    let change := fun u : User => { u with isAdmin := false }
    return (.adminProfile (.ofUser (change user)), updateUser user.id change)

/-- `admin_delete_user`. -/
def adminDeleteUser (userId : UUID) (caller : CallerHeaders) (users : List User) :
    RouteResult := do
  requireAdmin caller
  let callerId ← parseCallerId caller
  if userId = callerId then
    throw { statusCode := 400
            detail := "Admins cannot delete their own account via admin endpoint" }
  else
    let user ← getUserOr404 userId users
    return (.noContent, deleteUser user.id)

/-! ## One request -/

inductive AccountRequest where
  | updateMe (payload : UserUpdate)
  | deactivateMe
  | hardDeleteMe
  | adminPromoteUser (userId : UUID)
  | adminDemoteUser (userId : UUID)
  | adminDeleteUser (userId : UUID)
  deriving DecidableEq, Repr

def route (hashpw : String → String) : AccountRequest → CallerHeaders → List User → RouteResult
  | .updateMe payload => updateMe hashpw payload
  | .deactivateMe => deactivateMe
  | .hardDeleteMe => hardDeleteMe
  | .adminPromoteUser userId => adminPromoteUser userId
  | .adminDemoteUser userId => adminDemoteUser userId
  | .adminDeleteUser userId => adminDeleteUser userId

/-- The table after a request: nothing is committed if the route raised. -/
def committed (result : RouteResult) (users : List User) : List User :=
  match result with
  | .ok (_, flush) => flush users
  | .error _ => users

/-! ## What the requests do to the table -/

section

variable {hashpw : String → String} {caller : CallerHeaders} {uid userId : UUID}
  {users : List User}

theorem getUserOr404_cases (uid : UUID) (users : List User) :
    (∃ user, getUserOr404 uid users = .ok user ∧ user.id = uid)
      ∨ ((∃ e, getUserOr404 uid users = .error e) ∧ ∀ u ∈ users, u.id ≠ uid) := by
  unfold getUserOr404
  cases h : users.find? fun u => u.id = uid with
  | some user => exact Or.inl ⟨user, rfl, by simpa using List.find?_some h⟩
  | none =>
      refine Or.inr ⟨⟨_, rfl⟩, fun u hu => ?_⟩
      simpa using List.find?_eq_none.mp h u hu

/-- A row after an update is one from before, changed if it is the one. -/
theorem row_of_updateUser {change : User → User} {u' : User}
    (h : u' ∈ updateUser uid change users) (hid : ∀ u, (change u).id = u.id) :
    ∃ u ∈ users, u.id = u'.id ∧ u' = if u'.id = uid then change u else u := by
  obtain ⟨u, hu, rfl⟩ := List.mem_map.mp h
  by_cases hrow : u.id = uid
  · rw [if_pos hrow, hid]
    exact ⟨u, hu, rfl, (if_pos hrow).symm⟩
  · rw [if_neg hrow]
    exact ⟨u, hu, rfl, (if_neg hrow).symm⟩

/-- A row that is not there is not changed, -/
theorem updateUser_of_absent (h : ∀ u ∈ users, u.id ≠ uid) (change : User → User) :
    updateUser uid change users = users := by
  have hid : ∀ u ∈ users, (if u.id = uid then change u else u) = u := fun u hu => if_neg (h u hu)
  exact (List.map_congr_left hid).trans (List.map_id' users)

/-- nor deleted. -/
theorem deleteUser_of_absent (h : ∀ u ∈ users, u.id ≠ uid) : deleteUser uid users = users :=
  List.filter_eq_self.mpr fun u hu => by simpa using h u hu

/-- **A route that finds its row writes `flush`**; if it finds none there is nothing to write. -/
theorem committed_row {act : User → AccountResponse × Flush} (flush : UUID → Flush)
    (hact : ∀ user, (act user).2 = flush user.id)
    (habsent : (∀ u ∈ users, u.id ≠ uid) → flush uid users = users) :
    committed (do
      let user ← getUserOr404 uid users
      return act user) users = flush uid users := by
  rcases getUserOr404_cases uid users with ⟨user, hfound, hid⟩ | ⟨⟨e, hmiss⟩, hnone⟩
  · rw [hfound, ← hid, ← hact user]
    rfl
  · rw [hmiss, habsent hnone]
    rfl

theorem committed_updateMe (hcaller : parseCallerId caller = .ok uid) (payload : UserUpdate) :
    committed (updateMe hashpw payload caller users) users
      = updateUser uid (payload.change hashpw) users := by
  unfold updateMe
  rw [hcaller]
  exact committed_row (fun uid => updateUser uid _) (fun _ => rfl) fun h => updateUser_of_absent h _

theorem committed_deactivateMe (hcaller : parseCallerId caller = .ok uid) :
    committed (deactivateMe caller users) users
      = updateUser uid (fun u => { u with isActive := false }) users := by
  unfold deactivateMe
  rw [hcaller]
  exact committed_row (fun uid => updateUser uid _) (fun _ => rfl) fun h => updateUser_of_absent h _

theorem committed_hardDeleteMe (hcaller : parseCallerId caller = .ok uid) :
    committed (hardDeleteMe caller users) users = deleteUser uid users := by
  unfold hardDeleteMe
  rw [hcaller]
  exact committed_row deleteUser (fun _ => rfl) deleteUser_of_absent

theorem committed_adminDemoteUser (hadmin : requireAdmin caller = .ok ())
    (hcaller : parseCallerId caller = .ok uid) (hother : userId ≠ uid) :
    committed (adminDemoteUser userId caller users) users
      = updateUser userId (fun u => { u with isAdmin := false }) users := by
  unfold adminDemoteUser
  rw [hadmin, hcaller]
  simp only [bind, Except.bind]
  rw [if_neg hother]
  exact committed_row (fun uid => updateUser uid _) (fun _ => rfl) fun h => updateUser_of_absent h _

theorem committed_adminDeleteUser (hadmin : requireAdmin caller = .ok ())
    (hcaller : parseCallerId caller = .ok uid) (hother : userId ≠ uid) :
    committed (adminDeleteUser userId caller users) users = deleteUser userId users := by
  unfold adminDeleteUser
  rw [hadmin, hcaller]
  simp only [bind, Except.bind]
  rw [if_neg hother]
  exact committed_row deleteUser (fun _ => rfl) deleteUser_of_absent

/-- The change a request makes to the table. -/
inductive AccountEffect (hashpw : String → String) (caller : CallerHeaders) :
    AccountRequest → Flush → Prop where
  /-- The route raised. -/
  | refused (r : AccountRequest) : AccountEffect hashpw caller r id
  | update {uid : UUID} (payload : UserUpdate) (hcaller : parseCallerId caller = .ok uid) :
      AccountEffect hashpw caller (.updateMe payload) (updateUser uid (payload.change hashpw))
  | deactivate {uid : UUID} (hcaller : parseCallerId caller = .ok uid) :
      AccountEffect hashpw caller .deactivateMe
        (updateUser uid fun u => { u with isActive := false })
  | hardDelete {uid : UUID} (hcaller : parseCallerId caller = .ok uid) :
      AccountEffect hashpw caller .hardDeleteMe (deleteUser uid)
  | promote {userId : UUID} (hadmin : requireAdmin caller = .ok ()) :
      AccountEffect hashpw caller (.adminPromoteUser userId)
        (updateUser userId fun u => { u with isAdmin := true })
  | demote {uid userId : UUID} (hadmin : requireAdmin caller = .ok ())
      (hcaller : parseCallerId caller = .ok uid) (hother : userId ≠ uid) :
      AccountEffect hashpw caller (.adminDemoteUser userId)
        (updateUser userId fun u => { u with isAdmin := false })
  | delete {uid userId : UUID} (hadmin : requireAdmin caller = .ok ())
      (hcaller : parseCallerId caller = .ok uid) (hother : userId ≠ uid) :
      AccountEffect hashpw caller (.adminDeleteUser userId) (deleteUser userId)

/-- **What a request can do**: nothing, or the change of its route to the row it may change. -/
theorem route_effect (hashpw : String → String) (r : AccountRequest) (caller : CallerHeaders)
    (users : List User) :
    ∃ flush, AccountEffect hashpw caller r flush
      ∧ committed (route hashpw r caller users) users = flush users := by
  cases hcaller : parseCallerId caller with
  | error e =>
      refine ⟨id, .refused r, ?_⟩
      cases r with
      | updateMe payload => rw [route, updateMe, hcaller]; rfl
      | deactivateMe => rw [route, deactivateMe, hcaller]; rfl
      | hardDeleteMe => rw [route, hardDeleteMe, hcaller]; rfl
      | adminPromoteUser userId =>
          rw [route, adminPromoteUser, hcaller]
          cases requireAdmin caller <;> rfl
      | adminDemoteUser userId =>
          rw [route, adminDemoteUser, hcaller]
          cases requireAdmin caller <;> rfl
      | adminDeleteUser userId =>
          rw [route, adminDeleteUser, hcaller]
          cases requireAdmin caller <;> rfl
  | ok uid =>
      cases r with
      | updateMe payload =>
          exact ⟨_, .update payload hcaller, committed_updateMe hcaller payload⟩
      | deactivateMe => exact ⟨_, .deactivate hcaller, committed_deactivateMe hcaller⟩
      | hardDeleteMe => exact ⟨_, .hardDelete hcaller, committed_hardDeleteMe hcaller⟩
      | adminPromoteUser userId =>
          cases hadmin : requireAdmin caller with
          | error e => exact ⟨id, .refused _, by rw [route, adminPromoteUser, hadmin]; rfl⟩
          | ok _ =>
              rw [route, adminPromoteUser, hadmin, hcaller]
              simp only [bind, Except.bind]
              -- promoting somebody who is an admin is refused
              rcases getUserOr404_cases userId users with ⟨user, hfound, hid⟩ | ⟨⟨e, hmiss⟩, -⟩
              · rw [hfound]
                dsimp only
                cases user.isAdmin with
                | true => exact ⟨id, .refused _, rfl⟩
                | false =>
                    rw [← hid]
                    exact ⟨_, .promote hadmin, rfl⟩
              · rw [hmiss]
                exact ⟨id, .refused _, rfl⟩
      | adminDemoteUser userId =>
          cases hadmin : requireAdmin caller with
          | error e => exact ⟨id, .refused _, by rw [route, adminDemoteUser, hadmin]; rfl⟩
          | ok _ =>
              by_cases hself : userId = uid
              · refine ⟨id, .refused _, ?_⟩
                rw [route, adminDemoteUser, hadmin, hcaller]
                simp only [bind, Except.bind]
                rw [if_pos hself]
                rfl
              · exact ⟨_, .demote hadmin hcaller hself,
                  committed_adminDemoteUser hadmin hcaller hself⟩
      | adminDeleteUser userId =>
          cases hadmin : requireAdmin caller with
          | error e => exact ⟨id, .refused _, by rw [route, adminDeleteUser, hadmin]; rfl⟩
          | ok _ =>
              by_cases hself : userId = uid
              · refine ⟨id, .refused _, ?_⟩
                rw [route, adminDeleteUser, hadmin, hcaller]
                simp only [bind, Except.bind]
                rw [if_pos hself]
                rfl
              · exact ⟨_, .delete hadmin hcaller hself,
                  committed_adminDeleteUser hadmin hcaller hself⟩

end

end Microservices.Users
