import Microservices.Lib.Schedule
import Microservices.Users.Accounts

/-!
# The last admin

An admin can be demoted or deleted by another, on the word of a token that was
right when it was issued, and can deactivate or delete the own account on no
admin's word at all. No route counts the admins that are left.

A run is a list of events: the clock, tokens issued to active accounts, and
requests under tokens that have not expired. The active admins survive a request
unless it takes the only one, and both ways of taking the only one are open: the
account's own routes, and an admin route for somebody who is no admin any more.
-/

namespace Microservices.Users

open Schedule

structure AdminWorld where
  now : Time
  users : List User
  /-- Those issued so far. -/
  tokens : List Issued

inductive AdminEvent where
  | tick (t : Time)
  /-- A login or refresh of the account. -/
  | issue (uid : UUID)
  /-- A request under the token of this index. -/
  | request (token : Nat) (r : AccountRequest)
  deriving DecidableEq, Repr

/-- The headers the gateway writes for a token. -/
def callerOf (claims : AccessClaims) : CallerHeaders where
  xUserId := claims.sub
  xUserRoles := ",".intercalate claims.roles

/-- One event; the gateway lets a token through until it expires. -/
def adminStep (hashpw : String → String) (lifetime : Time) (w : AdminWorld) :
    AdminEvent → Option AdminWorld
  | .tick t => if w.now ≤ t then some { w with now := t } else none
  | .issue uid =>
      match w.users.find? fun u => u.id = uid && u.isActive with
      | none => none
      | some user => some { w with tokens := w.tokens ++ [⟨w.now, user⟩] }
  | .request i r =>
      match w.tokens[i]? with
      | none => none
      | some token =>
          let claims := token.claims lifetime
          if w.now < claims.exp * 1000 then
            some { w with
              users := committed (route hashpw r (callerOf claims) w.users) w.users }
          else none

def User.ActiveAdmin (u : User) : Prop := u.isActive = true ∧ u.isAdmin = true

/-- There is an active admin. -/
def HasActiveAdmin (users : List User) : Prop := ∃ u ∈ users, u.ActiveAdmin

/-- The active admins are this account and no other. -/
def OnlyActiveAdmin (users : List User) (uid : UUID) : Prop :=
  ∀ u ∈ users, u.ActiveAdmin → u.id = uid

/-- The request takes the only active admin. -/
def TakesLastAdmin (users : List User) (token : Issued) : AccountRequest → Prop
  | .updateMe _ | .adminPromoteUser _ => False
  | .deactivateMe | .hardDeleteMe => OnlyActiveAdmin users token.user.id
  | .adminDemoteUser userId | .adminDeleteUser userId =>
      token.user.isAdmin = true ∧ userId ≠ token.user.id ∧ OnlyActiveAdmin users userId

/-- No request of the event takes the only active admin. -/
def SparesLastAdmin (w : AdminWorld) : AdminEvent → Prop
  | .tick _ | .issue _ => True
  | .request i r => ∀ token ∈ w.tokens[i]?, ¬ TakesLastAdmin w.users token r

instance (u : User) : Decidable u.ActiveAdmin := inferInstanceAs (Decidable (_ ∧ _))

instance (users : List User) : Decidable (HasActiveAdmin users) :=
  inferInstanceAs (Decidable (∃ u ∈ users, u.ActiveAdmin))

instance (users : List User) (uid : UUID) : Decidable (OnlyActiveAdmin users uid) :=
  inferInstanceAs (Decidable (∀ u ∈ users, u.ActiveAdmin → u.id = uid))

instance (users : List User) (token : Issued) :
    (r : AccountRequest) → Decidable (TakesLastAdmin users token r)
  | .updateMe _ | .adminPromoteUser _ => inferInstanceAs (Decidable False)
  | .deactivateMe | .hardDeleteMe => inferInstanceAs (Decidable (OnlyActiveAdmin _ _))
  | .adminDemoteUser _ | .adminDeleteUser _ => inferInstanceAs (Decidable (_ ∧ _ ∧ _))

instance (w : AdminWorld) : (e : AdminEvent) → Decidable (SparesLastAdmin w e)
  | .tick _ | .issue _ => inferInstanceAs (Decidable True)
  | .request i r =>
      inferInstanceAs (Decidable (∀ token ∈ w.tokens[i]?, ¬ TakesLastAdmin w.users token r))

/-! ## The caller of a token -/

theorem parseCallerId_callerOf (lifetime : Time) (token : Issued) :
    parseCallerId (callerOf (token.claims lifetime)) = .ok token.user.id := by
  unfold parseCallerId callerOf Issued.claims
  rw [accessClaims_sub, UUID.ofText?_text]

/-- A token passes for an admin's if its account was one when it was issued. -/
theorem requireAdmin_callerOf (lifetime : Time) (token : Issued) :
    requireAdmin (callerOf (token.claims lifetime)) = .ok () ↔ token.user.isAdmin = true := by
  unfold requireAdmin callerOf Issued.claims accessClaims
  cases token.user.isAdmin with
  | true =>
      have hroles : "admin" ∈ rolesOf (",".intercalate ["admin", "user"]) := by decide +kernel
      exact iff_of_true (if_pos hroles) rfl
  | false =>
      have hroles : "admin" ∉ rolesOf (",".intercalate ["user"]) := by decide +kernel
      refine iff_of_false (fun h => ?_) Bool.false_ne_true
      rw [if_neg Bool.false_ne_true, if_neg hroles] at h
      cases h

/-! ## What becomes of the active admins -/

section

variable {users : List User} {uid : UUID}

/-- Somebody else is left if and only if the account is not the only one. -/
theorem not_onlyActiveAdmin : ¬ OnlyActiveAdmin users uid ↔
    ∃ u ∈ users, u.ActiveAdmin ∧ u.id ≠ uid := by
  simp only [OnlyActiveAdmin, not_forall, exists_prop]

theorem hasActiveAdmin_deleteUser :
    HasActiveAdmin (deleteUser uid users) ↔ ¬ OnlyActiveAdmin users uid := by
  rw [not_onlyActiveAdmin]
  unfold HasActiveAdmin deleteUser
  refine exists_congr fun u => ?_
  rw [List.mem_filter, decide_eq_true_iff]
  exact ⟨fun ⟨⟨hu, hid⟩, hadmin⟩ => ⟨hu, hadmin, hid⟩, fun ⟨hu, hadmin, hid⟩ => ⟨⟨hu, hid⟩, hadmin⟩⟩

/-- A change that takes the rights of whoever it is applied to. -/
theorem hasActiveAdmin_updateUser {change : User → User}
    (htakes : ∀ u, ¬ (change u).ActiveAdmin) :
    HasActiveAdmin (updateUser uid change users) ↔ ¬ OnlyActiveAdmin users uid := by
  rw [not_onlyActiveAdmin]
  unfold HasActiveAdmin updateUser
  constructor
  · rintro ⟨u', hu', hadmin⟩
    obtain ⟨u, hu, rfl⟩ := List.mem_map.mp hu'
    by_cases hid : u.id = uid
    · rw [if_pos hid] at hadmin
      exact absurd hadmin (htakes u)
    · rw [if_neg hid] at hadmin
      exact ⟨u, hu, hadmin, hid⟩
  · rintro ⟨u, hu, hadmin, hid⟩
    exact ⟨u, List.mem_map.mpr ⟨u, hu, if_neg hid⟩, hadmin⟩

/-- A change that leaves everybody the rights they have. -/
theorem HasActiveAdmin.updateUser {change : User → User} (h : HasActiveAdmin users)
    (hleaves : ∀ u, u.ActiveAdmin → (change u).ActiveAdmin) (uid : UUID) :
    HasActiveAdmin (updateUser uid change users) := by
  obtain ⟨u, hu, hadmin⟩ := h
  refine ⟨_, List.mem_map.mpr ⟨u, hu, rfl⟩, ?_⟩
  split
  · exact hleaves u hadmin
  · exact hadmin

end

/-- An admin route for somebody else, under whichever of the two changes it makes. -/
theorem hasActiveAdmin_adminRoute_iff {users users' : List User} {token : Issued} {userId : UUID}
    {flush : Flush} (h : HasActiveAdmin users)
    (hrun : token.user.isAdmin = true → userId ≠ token.user.id → users' = flush users)
    (hrefused : users' = users ∨ token.user.isAdmin = true ∧ userId ≠ token.user.id)
    (hflush : HasActiveAdmin (flush users) ↔ ¬ OnlyActiveAdmin users userId) :
    HasActiveAdmin users' ↔ ¬ (token.user.isAdmin = true ∧ userId ≠ token.user.id
      ∧ OnlyActiveAdmin users userId) := by
  by_cases hpass : token.user.isAdmin = true ∧ userId ≠ token.user.id
  · rw [hrun hpass.1 hpass.2, hflush]
    exact ⟨fun hnot htakes => hnot htakes.2.2, fun hnot honly => hnot ⟨hpass.1, hpass.2, honly⟩⟩
  · rw [hrefused.resolve_right hpass]
    exact iff_of_true h fun htakes => hpass ⟨htakes.1, htakes.2.1⟩

/-- **A request leaves an active admin exactly if it does not take the only one.** -/
theorem hasActiveAdmin_request_iff (hashpw : String → String) (lifetime : Time)
    {users : List User} (h : HasActiveAdmin users) (token : Issued) (r : AccountRequest) :
    HasActiveAdmin (committed (route hashpw r (callerOf (token.claims lifetime)) users) users)
      ↔ ¬ TakesLastAdmin users token r := by
  have hcaller := parseCallerId_callerOf lifetime token
  have hadmin := requireAdmin_callerOf lifetime token
  obtain ⟨flush, heffect, heq⟩ := route_effect hashpw r (callerOf (token.claims lifetime)) users
  cases r with
  | updateMe payload =>
      refine iff_of_true ?_ (fun hf => hf)
      rw [heq]
      cases heffect with
      | refused => exact h
      | update _ _ =>
          refine h.updateUser (fun u hu => ?_) _
          exact hu
  | adminPromoteUser userId =>
      refine iff_of_true ?_ (fun hf => hf)
      rw [heq]
      cases heffect with
      | refused => exact h
      | promote _ =>
          refine h.updateUser (fun u hu => ?_) _
          exact ⟨hu.1, rfl⟩
  | deactivateMe =>
      -- the caller's own account: no role is asked for
      rw [route, committed_deactivateMe hcaller]
      exact hasActiveAdmin_updateUser fun u hu => Bool.false_ne_true hu.1
  | hardDeleteMe =>
      rw [route, committed_hardDeleteMe hcaller]
      exact hasActiveAdmin_deleteUser
  | adminDemoteUser userId =>
      refine hasActiveAdmin_adminRoute_iff h
        (fun hrole hother => committed_adminDemoteUser (hadmin.mpr hrole) hcaller hother) ?_
        (hasActiveAdmin_updateUser fun u hu => Bool.false_ne_true hu.2)
      rw [heq]
      cases heffect with
      | refused => exact Or.inl rfl
      | demote hrole hid hother =>
          rw [hcaller] at hid
          cases hid
          exact Or.inr ⟨hadmin.mp hrole, hother⟩
  | adminDeleteUser userId =>
      refine hasActiveAdmin_adminRoute_iff h
        (fun hrole hother => committed_adminDeleteUser (hadmin.mpr hrole) hcaller hother) ?_
        hasActiveAdmin_deleteUser
      rw [heq]
      cases heffect with
      | refused => exact Or.inl rfl
      | delete hrole hid hother =>
          rw [hcaller] at hid
          cases hid
          exact Or.inr ⟨hadmin.mp hrole, hother⟩

/-- What a step does to the table: nothing, or what the request under a live token does. -/
theorem adminStep_cases {hashpw : String → String} {lifetime : Time} {w w' : AdminWorld}
    {e : AdminEvent} (h : adminStep hashpw lifetime w e = some w') :
    (w'.users = w.users ∧ ∀ i r, e ≠ .request i r)
      ∨ ∃ i r token, e = .request i r ∧ w.tokens[i]? = some token
        ∧ w'.users
          = committed (route hashpw r (callerOf (token.claims lifetime)) w.users) w.users := by
  cases e with
  | tick t =>
      simp only [adminStep] at h
      split at h
      · cases h
        exact Or.inl ⟨rfl, nofun⟩
      · cases h
  | issue uid =>
      simp only [adminStep] at h
      split at h
      · cases h
      · cases h
        exact Or.inl ⟨rfl, nofun⟩
  | request i r =>
      simp only [adminStep] at h
      split at h
      · cases h
      · rename_i token htoken
        split at h
        · cases h
          exact Or.inr ⟨i, r, token, rfl, htoken, rfl⟩
        · cases h

theorem hasActiveAdmin_step_iff {hashpw : String → String} {lifetime : Time} {w w' : AdminWorld}
    {e : AdminEvent} (h : HasActiveAdmin w.users)
    (hstep : adminStep hashpw lifetime w e = some w') :
    HasActiveAdmin w'.users ↔ SparesLastAdmin w e := by
  rcases adminStep_cases hstep with ⟨heq, hnot⟩ | ⟨i, r, token, rfl, htoken, heq⟩
  · rw [heq]
    refine iff_of_true h ?_
    cases e with
    | tick t => trivial
    | issue uid => trivial
    | request i r => exact absurd rfl (hnot i r)
  · rw [heq, hasActiveAdmin_request_iff hashpw lifetime h token r]
    simp only [SparesLastAdmin, htoken, Option.mem_some_iff, forall_eq']

/--
**The last admin stays exactly as long as no request takes it.**

From every state with an active admin, under every run: each state visited has an
active admin if and only if no request of the run deactivates or deletes the own
account as the only active admin, or demotes or deletes the only active admin on a
token that another account got while it was one.
-/
theorem activeAdmin_always_iff (hashpw : String → String) (lifetime : Time) {w : AdminWorld}
    (h : HasActiveAdmin w.users) (es : List AdminEvent) :
    Always (adminStep hashpw lifetime) (fun w => HasActiveAdmin w.users) w es ↔
      Meets (adminStep hashpw lifetime) SparesLastAdmin w es :=
  always_iff_meets (I := fun w => HasActiveAdmin w.users) (fun _ h => h)
    (fun _ _ _ hs hspares hstep => (hasActiveAdmin_step_iff hs hstep).mpr hspares)
    (fun _ _ _ hs hstep hs' => (hasActiveAdmin_step_iff hs hstep).mp hs') h

/-! ## Two admins -/

def ada : User where
  id := .ofNat 2
  email := "ada@example.com"
  username := "ada"
  hashedPassword := ""
  isAdmin := true

def abe : User where
  id := .ofNat 3
  email := "abe@example.com"
  username := "abe"
  hashedPassword := ""
  isAdmin := true

def adminsWorld : AdminWorld := { now := 0, users := [ada, abe], tokens := [] }

/-- One demotes the other and goes on working. -/
theorem one_admin_stays :
    Always (adminStep id 3600000) (fun w => HasActiveAdmin w.users) adminsWorld
      [.issue ada.id, .request 0 (.adminDemoteUser abe.id), .request 0 (.updateMe {})] :=
  (activeAdmin_always_iff id 3600000 (by decide) _).mpr (by decide +kernel)

/--
**Both ways of losing the last admin.** Each demotes the other, the second on a
token that was right when it was issued; or one is demoted and the other closes
the account.
-/
theorem last_admin_lost :
    HasActiveAdmin adminsWorld.users
      ∧ (∃ w, exec (adminStep id 3600000) adminsWorld
          [.issue ada.id, .issue abe.id, .request 0 (.adminDemoteUser abe.id),
            .request 1 (.adminDemoteUser ada.id)] = some w ∧ ¬ HasActiveAdmin w.users)
      ∧ ∃ w, exec (adminStep id 3600000) adminsWorld
          [.issue ada.id, .request 0 (.adminDemoteUser abe.id), .request 0 .deactivateMe]
            = some w ∧ ¬ HasActiveAdmin w.users := by
  have hlost : ∀ es, ((exec (adminStep id 3600000) adminsWorld es).map fun w =>
      decide (HasActiveAdmin w.users)) = some false →
      ∃ w, exec (adminStep id 3600000) adminsWorld es = some w ∧ ¬ HasActiveAdmin w.users := by
    intro es hes
    obtain ⟨w, hw, hnone⟩ := Option.map_eq_some_iff.mp hes
    exact ⟨w, hw, of_decide_eq_false hnone⟩
  exact ⟨by decide, hlost _ (by decide +kernel), hlost _ (by decide +kernel)⟩

end Microservices.Users
