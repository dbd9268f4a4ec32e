import Microservices.Lib.Paging
import Microservices.Users.Accounts

/-!
# Listing the users, page by page

`admin_list_users` orders by `created_at` alone, and pages by `LIMIT` and `OFFSET`. An
admin who reads the list asks for the offsets `0`, `limit`, `2 * limit` and so on, as far
as `total`; each of the queries sees the same table, and puts the rows with one
`created_at` in an order of its own.
-/

namespace Microservices.Users

/-- A row, with the column that only its profile shows. -/
structure UserRow extends User where
  createdAt : Time
  deriving DecidableEq, Repr

/-- `AdminUserResponse`, with the field that the model of the other routes leaves out. -/
structure AdminUserProfile extends AdminUserResponse where
  createdAt : Time
  deriving DecidableEq, Repr

/-- `AdminUserResponse.model_validate(u)`. -/
def AdminUserProfile.ofRow (u : UserRow) : AdminUserProfile :=
  { toAdminUserResponse := .ofUser u.toUser, createdAt := u.createdAt }

/-- `Query(50, ge=1, le=200)`. -/
structure PageSize where
  value : Nat := 50
  valid : 1 ≤ value ∧ value ≤ 200 := by decide

structure ListUsersQuery where
  limit : PageSize := {}
  offset : Nat := 0
  activeOnly : Bool := false

/-- The answer of `admin_list_users`. -/
structure UserPage where
  total : Nat
  limit : Nat
  offset : Nat
  users : List AdminUserProfile
  deriving DecidableEq, Repr

/-- The rows of `select(User)`, with its `where` if there is one. -/
def selectUsers (activeOnly : Bool) (users : List UserRow) : List UserRow :=
  if activeOnly then users.filter fun u => u.isActive = true else users

/-- `admin_list_users`; `orderBy` is what the database makes of `order_by(User.created_at.desc())`. -/
def adminListUsers (orderBy : List UserRow → List UserRow) (query : ListUsersQuery)
    (caller : CallerHeaders) (users : List UserRow) : Except HTTPException UserPage := do
  requireAdmin caller
  let _ ← parseCallerId caller
  let stmt := selectUsers query.activeOnly users
  let result := Paging.segment query.limit.value query.offset (orderBy stmt)
  return { total := stmt.length, limit := query.limit.value, offset := query.offset
           users := result.map .ofRow }

/-- The users on a page, if it was answered with one. -/
def usersOf : Except HTTPException UserPage → List AdminUserProfile
  | .ok page => page.users
  | .error _ => []

section

variable (caller : CallerHeaders) (limit : PageSize) (activeOnly : Bool) (users : List UserRow)

/-- The users on the pages at `0`, `limit`, `2 * limit` and so on, up to `total`. -/
def listedUsers (orderBy : Nat → List UserRow → List UserRow) : List AdminUserProfile :=
  (List.range ((selectUsers activeOnly users).length / limit.value + 1)).flatMap fun i =>
    usersOf (adminListUsers (orderBy i) { limit, offset := i * limit.value, activeOnly } caller users)

/--
**The pages cover every user once**: each matching user is on one of them and there
once, whatever order the database chooses in each query.
-/
def CoversOnce : Prop :=
  ∀ orderBy : Nat → List UserRow → List UserRow,
    (∀ i rows, Paging.Arranged UserRow.createdAt rows (orderBy i rows)) →
    ∀ u ∈ selectUsers activeOnly users,
      ((listedUsers caller limit activeOnly users orderBy).map fun p => p.id).count u.id = 1

end

/-! ## The pages are those of the arrangements -/

section

variable {caller : CallerHeaders} {callerId : UUID} {limit : PageSize} {activeOnly : Bool}
  {users : List UserRow}

theorem adminListUsers_ok (hadmin : requireAdmin caller = .ok ())
    (hcaller : parseCallerId caller = .ok callerId) (orderBy : List UserRow → List UserRow)
    (query : ListUsersQuery) :
    adminListUsers orderBy query caller users = .ok
      { total := (selectUsers query.activeOnly users).length
        limit := query.limit.value
        offset := query.offset
        users := (Paging.segment query.limit.value query.offset
          (orderBy (selectUsers query.activeOnly users))).map .ofRow } := by
  rw [adminListUsers, hadmin, hcaller]
  rfl

/-- The pages up to `total` are enough for its rows. -/
theorem length_le_pages (limit : PageSize) (n : Nat) :
    n ≤ (n / limit.value + 1) * limit.value := by
  have hdiv := Nat.div_add_mod n limit.value
  have hmod := Nat.mod_lt n (show 0 < limit.value from limit.valid.1)
  rw [Nat.succ_mul, Nat.mul_comm]
  omega

theorem ids_listedUsers (hadmin : requireAdmin caller = .ok ())
    (hcaller : parseCallerId caller = .ok callerId) (orderBy : Nat → List UserRow → List UserRow) :
    (listedUsers caller limit activeOnly users orderBy).map (fun p => p.id)
      = (Paging.collect limit.value ((selectUsers activeOnly users).length / limit.value + 1)
          fun i => orderBy i (selectUsers activeOnly users)).map fun u => u.id := by
  unfold listedUsers Paging.collect
  rw [List.map_flatMap, List.map_flatMap]
  refine congrArg (fun f => List.flatMap f _) (funext fun i => ?_)
  rw [adminListUsers_ok hadmin hcaller, usersOf, List.map_map]
  rfl

theorem selectUsers_ids_nodup (hids : (users.map fun u => u.id).Nodup) (activeOnly : Bool) :
    ((selectUsers activeOnly users).map fun u => u.id).Nodup := by
  unfold selectUsers
  cases activeOnly with
  | false => exact hids
  | true => exact (List.filter_sublist.map _).nodup hids

/--
**When the pages cover every user once**: exactly if no two users are created at the same
moment of whom one ends a page and the other begins the next.
-/
theorem coversOnce_iff {caller : CallerHeaders} {callerId : UUID}
    (hadmin : requireAdmin caller = .ok ()) (hcaller : parseCallerId caller = .ok callerId)
    (limit : PageSize) (activeOnly : Bool) {users : List UserRow}
    (hids : (users.map fun u => u.id).Nodup) :
    CoversOnce caller limit activeOnly users ↔
      ∀ i, ¬ Paging.TiedAt UserRow.createdAt (i * limit.value) (selectUsers activeOnly users) := by
  have hselected := selectUsers_ids_nodup hids activeOnly
  have hrows : (selectUsers activeOnly users).Nodup := List.Nodup.of_map _ hselected
  have hpages := length_le_pages limit (selectUsers activeOnly users).length
  constructor
  · intro hcovers i htied
    obtain ⟨listing, harranged, hrepeated⟩ :=
      Paging.exists_repeated hrows (show 0 < limit.value from limit.valid.1) htied hpages
    -- the queries that answer so for these rows, and in whatever order for others
    let orderBy : Nat → List UserRow → List UserRow := fun j rows =>
      if rows = selectUsers activeOnly users then listing j
      else Keyset.descending UserRow.createdAt rows
    have horder : ∀ j rows, Paging.Arranged UserRow.createdAt rows (orderBy j rows) := by
      intro j rows
      by_cases hsame : rows = selectUsers activeOnly users
      · simp only [orderBy, if_pos hsame]
        rw [hsame]
        exact harranged j
      · simp only [orderBy, if_neg hsame]
        exact Paging.arranged_descending _ rows
    have honce := hcovers orderBy horder
    rw [ids_listedUsers hadmin hcaller] at honce
    simp only [orderBy, if_true] at honce
    refine hrepeated (List.Nodup.of_map (fun u : UserRow => u.id) ?_)
    refine List.nodup_iff_count_eq_one.mpr fun id hid => ?_
    obtain ⟨u, hu, rfl⟩ := List.mem_map.mp hid
    obtain ⟨j, -, hpage⟩ := List.mem_flatMap.mp hu
    refine honce u ((harranged j).perm.mem_iff.mp ?_)
    exact List.mem_of_mem_drop (List.mem_of_mem_take hpage)
  · intro hfree orderBy horder u hu
    have hperm := Paging.collect_perm hrows hfree (fun i => horder i _) hpages
    rw [ids_listedUsers hadmin hcaller, (hperm.map fun u => u.id).count_eq]
    exact List.count_eq_one_of_mem hselected (List.mem_map.mpr ⟨u, hu, rfl⟩)

end

def deeId : UUID := .ofNat 11

def dee : UserRow where
  id := deeId
  email := "dee@example.com"
  username := "dee"
  hashedPassword := "hash"
  createdAt := 1700000000000

/-- Registered at the moment Dee was. -/
def eli : UserRow where
  id := .ofNat 12
  email := "eli@example.com"
  username := "eli"
  hashedPassword := "hash"
  createdAt := 1700000000000

/-- Registered before them. -/
def fay : UserRow where
  id := .ofNat 13
  email := "fay@example.com"
  username := "fay"
  hashedPassword := "hash"
  createdAt := 1600000000000

def anAdmin : CallerHeaders := { xUserId := deeId.text, xUserRoles := "admin,user" }

theorem anAdmin_admitted :
    requireAdmin anAdmin = .ok () ∧ parseCallerId anAdmin = .ok deeId := by
  constructor
  · rw [requireAdmin, if_pos (by decide +kernel)]
  · rw [parseCallerId, anAdmin, UUID.ofText?_text]

/-- Two to a page, Dee and Eli are on the first. -/
theorem coversOnce_of_three : CoversOnce anAdmin { value := 2 } false [dee, eli, fay] := by
  refine (coversOnce_iff anAdmin_admitted.1 anAdmin_admitted.2 { value := 2 } false
    (by decide)).mpr fun i htied => ?_
  have hrange := htied.lt
  have hlength : (selectUsers false [dee, eli, fay]).length = 3 := rfl
  have hi : i * 2 = 2 := by
    dsimp only at hrange
    omega
  obtain ⟨c, -, hbefore, hat⟩ := htied
  rw [hi] at hbefore hat
  have hdiffer : (Paging.keys UserRow.createdAt (selectUsers false [dee, eli, fay]))[1]?
      ≠ (Paging.keys UserRow.createdAt (selectUsers false [dee, eli, fay]))[2]? := by decide
  exact hdiffer (hbefore.trans hat.symm)

/-- The first query answers rows with one `created_at` as they are stored, the others backwards. -/
def eitherWay (query : Nat) (rows : List UserRow) : List UserRow :=
  Keyset.descending UserRow.createdAt (if query = 0 then rows else rows.reverse)

theorem arranged_eitherWay (query : Nat) (rows : List UserRow) :
    Paging.Arranged UserRow.createdAt rows (eitherWay query rows) := by
  refine ⟨(Keyset.perm_descending _ _).trans ?_, Keyset.descending_sorted _ _⟩
  split_ifs
  · exact List.Perm.refl rows
  · exact List.reverse_perm rows

/-- **One user is on two pages and another on none.** -/
theorem dee_twice_eli_never :
    (listedUsers anAdmin { value := 1 } false [dee, eli] eitherWay).map (fun p => p.id)
        = [dee.id, dee.id]
      ∧ ¬ CoversOnce anAdmin { value := 1 } false [dee, eli] := by
  have hids : (listedUsers anAdmin { value := 1 } false [dee, eli] eitherWay).map (fun p => p.id)
      = [dee.id, dee.id] := by
    rw [ids_listedUsers anAdmin_admitted.1 anAdmin_admitted.2]
    decide
  refine ⟨hids, fun h => ?_⟩
  have heli := h eitherWay arranged_eitherWay eli (by decide)
  rw [hids] at heli
  exact absurd heli (by decide)

end Microservices.Users
