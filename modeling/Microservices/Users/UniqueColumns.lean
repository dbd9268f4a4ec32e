import Microservices.Lib.Schedule
import Microservices.Users.Registration

/-!
# Registrations at the same time

`register` looks for the email and the username first and inserts later, with the
hashing of the password in between. The lookup sees what is committed. The insert
waits for whoever holds a conflicting row that is not, and is refused if there is
one that is. So the unique columns are safe with any number of registrations under
way, and not every request that loses is told so: a refused insert is nowhere
translated, and the lookup itself raises when two rows match.
-/

namespace Microservices.Users

open Effects Schedule

/-- A registration, its id and the token its mail draws; the mail may fail. -/
structure Applicant where
  payload : UserCreate
  uid : UUID
  token : String
  mail : MailFaults := {}

/-- Where a registration is. -/
inductive RegisterPhase where
  | received
  /-- Nobody was found, and the password is hashed. -/
  | hashed (hashedPassword : String)
  /-- The row is in the transaction. -/
  | flushed (user : User)
  | answered (result : Except Failure UserResponse)

structure Registering where
  applicant : Applicant
  phase : RegisterPhase

/-- The service, with the committed rows, and the registrations under way or done. -/
structure Registrations where
  service : MailService
  requests : List Registering

inductive RegisterEvent where
  | lookUp (i : Nat)
  | flush (i : Nat)
  | finish (i : Nat)
  deriving DecidableEq, Repr

/-- The row has one of the unique columns of the applicant's. -/
def Applicant.Taken (a : Applicant) (u : User) : Prop :=
  u.id = a.uid ∨ u.email = a.payload.email ∨ u.username = a.payload.username

instance (a : Applicant) (u : User) : Decidable (a.Taken u) := inferInstanceAs (Decidable (_ ∨ _))

/-- Its row is inserted and not committed, and the applicant's would be a duplicate. -/
def Registering.Blocks (r : Registering) (a : Applicant) : Bool :=
  match r.phase with
  | .flushed user => decide (a.Taken user)
  | _ => false

section

variable (settings : MailSettings) (hashpw : String → String)

/-! ## The pieces of `register` between which others run -/

/-- Up to the insert. -/
def lookUp (a : Applicant) : MailAction String := do
  let existing ← await .infrastructure .none do
    let s ← get
    return holders a.payload s.users
  refuseExisting existing
  onWorker (onServer (hashPassword hashpw {} a.payload.password))

/-- `db.add`, `db.flush` and `db.refresh`. -/
def insert (a : Applicant) (hashedPassword : String) : MailAction User := do
  let user := a.payload.newUser a.uid hashedPassword
  flushNew {} user
  await .infrastructure .none (return ())
  return user

/-- The mail, the response and the commit. -/
def finish (a : Applicant) (user : User) : MailAction UserResponse := do
  orReturn (sendVerificationEmail settings a.mail a.token user) ()
  await .infrastructure .none (return ())
  await .infrastructure .none <| modify fun s => { s with users := s.users ++ [user] }
  return .ofUser user

/-- One after the other they are the request. -/
theorem handleRegister_eq (a : Applicant) :
    handleRegister settings hashpw { mail := a.mail } a.uid a.token a.payload = (do
      let hashedPassword ← lookUp hashpw a
      let user ← insert a hashedPassword
      finish settings a user) := by
  unfold handleRegister MailService.withDb register addUser lookUp insert finish
  simp only [bind_assoc, pure_bind]
  rfl

/-! ## Interleaved -/

/-- A piece returns to the next, or its exception ends the request. -/
def RegisterPhase.after {α : Type} (next : α → RegisterPhase) : Except Failure α → RegisterPhase
  | .ok x => next x
  | .error e => .answered (.error e)

def Registrations.perform {α : Type} (w : Registrations) (i : Nat) (a : Applicant)
    (piece : MailAction α) (next : α → RegisterPhase) : Registrations :=
  { service := final (piece.run w.service)
    requests := w.requests.set i ⟨a, .after next (answer (piece.run w.service))⟩ }

def Registrations.step (w : Registrations) : RegisterEvent → Option Registrations
  | .lookUp i =>
      match w.requests[i]? with
      | some ⟨a, .received⟩ => some (w.perform i a (lookUp hashpw a) .hashed)
      | _ => none
  | .flush i =>
      match w.requests[i]? with
      | some ⟨a, .hashed hashedPassword⟩ =>
          -- the insert waits until the other transaction has ended
          if w.requests.any fun r => r.Blocks a then none
          else some (w.perform i a (insert a hashedPassword) .flushed)
      | _ => none
  | .finish i =>
      match w.requests[i]? with
      | some ⟨a, .flushed user⟩ =>
          some (w.perform i a (finish settings a user) fun response => .answered (.ok response))
      | _ => none

/-- The service receives the registrations. -/
def Registrations.start (s : MailService) (applicants : List Applicant) : Registrations :=
  { service := s, requests := applicants.map fun a => ⟨a, .received⟩ }

/-- The row the applicant asks for. -/
def Applicant.row (a : Applicant) : User := a.payload.newUser a.uid (hashpw a.payload.password)

/-- **How a registration is to end**, the committed rows being `before`: with a 409 and no more rows if one
of them has its email or its username, with a 201 and its own row otherwise. -/
def EndsRight (a : Applicant) (result : Except Failure UserResponse) (before after : List User) :
    Prop :=
  if holders a.payload before = [] then
    result = .ok (.ofUser (a.row hashpw)) ∧ after = before ++ [a.row hashpw]
  else result = .error (.http alreadyRegistered) ∧ after = before

/-- What a registration has done when it gets here, given the committed rows before and after. -/
def Registering.Right (r : Registering) (before after : List User) : Prop :=
  match r.phase with
  | .answered result => EndsRight hashpw r.applicant result before after
  | _ => after = before

/-- The registration that moved ends as it is to end, or leaves the table alone. -/
def RightStep (w w' : Registrations) : Prop :=
  ∀ (i : Nat) (r : Registering), w'.requests[i]? = some r → w.requests[i]? ≠ some r →
    r.Right hashpw w.service.users w'.service.users

/-- The lookup does not find two rows, and nobody has committed a duplicate by the insert. -/
def Undisputed (w : Registrations) : RegisterEvent → Prop
  | .lookUp i => ∀ r ∈ w.requests[i]?, (holders r.applicant.payload w.service.users).length ≤ 1
  | .flush i => ∀ r ∈ w.requests[i]?, ∀ u ∈ w.service.users, ¬ r.applicant.Taken u
  | .finish _ => True

end

/-! ## What a step does -/

section

variable {settings : MailSettings} {hashpw : String → String}

/-- How a lookup goes on with the rows it finds. -/
def afterLookUp (hashedPassword : String) : List User → RegisterPhase
  | [] => .hashed hashedPassword
  | [_] => .answered (.error (.http alreadyRegistered))
  | _ => .answered (.error .infrastructure)

variable (hashpw) in
theorem lookUp_run (a : Applicant) (s : MailService) :
    final ((lookUp hashpw a).run s) = s
      ∧ RegisterPhase.after .hashed (answer ((lookUp hashpw a).run s))
        = afterLookUp (hashpw a.payload.password) (holders a.payload s.users) := by
  have hquery : (await .infrastructure .none do
      let s ← get
      return holders a.payload s.users : MailAction (List User)).run s
        = .ok (holders a.payload s.users) s := rfl
  rw [lookUp, run_bind_ok hquery]
  match holders a.payload s.users with
  | [] => exact ⟨rfl, rfl⟩
  | [_] => exact ⟨rfl, rfl⟩
  | _ :: _ :: _ => exact ⟨rfl, rfl⟩

theorem insert_run (a : Applicant) (hashedPassword : String) (s : MailService) :
    (insert a hashedPassword).run s
      = if ∃ u ∈ s.users, a.Taken u then .error .infrastructure s
        else .ok (a.payload.newUser a.uid hashedPassword) s := by
  have hflush : (flushNew {} (a.payload.newUser a.uid hashedPassword)).run s
      = if ∃ u ∈ s.users, a.Taken u then .error .infrastructure s else .ok () s := by
    show (if _ then throw _ else pure () : MailAction Unit).run s = _
    rw [apply_ite (fun piece : MailAction Unit => piece.run s)]
    rfl
  by_cases htaken : ∃ u ∈ s.users, a.Taken u
  · rw [if_pos htaken] at hflush ⊢
    exact run_bind_error hflush _
  · rw [if_neg htaken] at hflush ⊢
    exact run_bind_ok hflush _

variable (settings) in
theorem finish_run (a : Applicant) (user : User) (s : MailService) :
    ∃ s', (finish settings a user).run s = .ok (.ofUser user) s'
      ∧ s'.users = s.users ++ [user] := by
  obtain ⟨s₁, hsent, hmailed⟩ := sendToken_mailed a.mail (verifyKey a.token)
    settings.verificationTtl user _ s
  refine ⟨{ s₁ with users := s₁.users ++ [user] }, ?_, ?_⟩
  · exact run_bind_ok (run_orReturn_ok hsent ()) _
  · show s₁.users ++ [user] = _
    rw [hmailed.users]

/-- What a step does, by the piece that is run. -/
inductive Registrations.Moves (settings : MailSettings) (hashpw : String → String)
    (w : Registrations) : RegisterEvent → Registrations → Prop where
  | lookedUp {i : Nat} {a : Applicant} (hi : w.requests[i]? = some ⟨a, .received⟩) :
      Moves settings hashpw w (.lookUp i)
        { w with
          requests := w.requests.set i
            ⟨a, afterLookUp (hashpw a.payload.password) (holders a.payload w.service.users)⟩ }
  | refused {i : Nat} {a : Applicant} {hashedPassword : String}
      (hi : w.requests[i]? = some ⟨a, .hashed hashedPassword⟩)
      (htaken : ∃ u ∈ w.service.users, a.Taken u) :
      Moves settings hashpw w (.flush i)
        { w with requests := w.requests.set i ⟨a, .answered (.error .infrastructure)⟩ }
  | inserted {i : Nat} {a : Applicant} {hashedPassword : String}
      (hi : w.requests[i]? = some ⟨a, .hashed hashedPassword⟩)
      (hfree : ∀ u ∈ w.service.users, ¬ a.Taken u)
      (halone : ∀ (j : Nat) (b : Applicant) (user : User),
        w.requests[j]? = some ⟨b, .flushed user⟩ → ¬ a.Taken user) :
      Moves settings hashpw w (.flush i)
        { w with
          requests := w.requests.set i ⟨a, .flushed (a.payload.newUser a.uid hashedPassword)⟩ }
  | finished {i : Nat} {a : Applicant} {user : User} {service : MailService}
      (hi : w.requests[i]? = some ⟨a, .flushed user⟩)
      (hadded : service.users = w.service.users ++ [user]) :
      Moves settings hashpw w (.finish i)
        { service, requests := w.requests.set i ⟨a, .answered (.ok (.ofUser user))⟩ }

theorem moves_of_step {w w' : Registrations} {e : RegisterEvent}
    (h : w.step settings hashpw e = some w') : w.Moves settings hashpw e w' := by
  cases e with
  | lookUp i =>
      rw [Registrations.step] at h
      split at h
      · rename_i a hi
        cases h
        obtain ⟨hsame, hphase⟩ := lookUp_run hashpw a w.service
        unfold Registrations.perform
        rw [hsame, hphase]
        exact .lookedUp hi
      · cases h
  | flush i =>
      rw [Registrations.step] at h
      split at h
      · rename_i a hashedPassword hi
        split at h
        · cases h
        · rename_i hblocked
          cases h
          unfold Registrations.perform
          rw [insert_run]
          by_cases htaken : ∃ u ∈ w.service.users, a.Taken u
          · rw [if_pos htaken]
            exact .refused hi htaken
          · rw [if_neg htaken]
            refine .inserted hi (fun u hu ht => htaken ⟨u, hu, ht⟩) fun j b user hj ht => ?_
            refine hblocked (List.any_eq_true.mpr ⟨_, List.mem_of_getElem? hj, ?_⟩)
            exact decide_eq_true ht
      · cases h
  | finish i =>
      rw [Registrations.step] at h
      split at h
      · rename_i a user hi
        cases h
        obtain ⟨service, hrun, hadded⟩ := finish_run settings a user w.service
        unfold Registrations.perform
        rw [hrun]
        exact .finished hi hadded
      · cases h

/-! ## The unique columns -/

/-- An inserted row is the applicant's, and a duplicate of no other row. -/
structure RowsApart (hashpw : String → String) (w : Registrations) : Prop where
  hashed : ∀ (i : Nat) (a : Applicant) (hashedPassword : String),
    w.requests[i]? = some ⟨a, .hashed hashedPassword⟩ → hashedPassword = hashpw a.payload.password
  row : ∀ (i : Nat) (a : Applicant) (user : User),
    w.requests[i]? = some ⟨a, .flushed user⟩ → user = a.row hashpw
  free : ∀ (i : Nat) (a : Applicant) (user : User),
    w.requests[i]? = some ⟨a, .flushed user⟩ → ∀ u ∈ w.service.users, ¬ a.Taken u
  apart : ∀ (i j : Nat) (a b : Applicant) (user other : User), i ≠ j →
    w.requests[i]? = some ⟨a, .flushed user⟩ → w.requests[j]? = some ⟨b, .flushed other⟩ →
    ¬ a.Taken other

theorem Applicant.taken_row {a b : Applicant} : a.Taken (b.row hashpw) ↔ b.Taken (a.row hashpw) := by
  unfold Applicant.Taken Applicant.row UserCreate.newUser
  rw [eq_comm (a := b.uid), eq_comm (a := b.payload.email), eq_comm (a := b.payload.username)]

theorem rowsApart_start (s : MailService) (applicants : List Applicant) :
    RowsApart hashpw (Registrations.start s applicants) := by
  have hreceived : ∀ (i : Nat) (a : Applicant) (phase : RegisterPhase),
      (Registrations.start s applicants).requests[i]? = some ⟨a, phase⟩ → phase = .received := by
    intro i a phase hi
    obtain ⟨b, -, hb⟩ := List.mem_map.mp (List.mem_of_getElem? hi)
    cases hb
    rfl
  constructor
  · intro i a hashedPassword hi
    cases hreceived i a _ hi
  · intro i a user hi
    cases hreceived i a _ hi
  · intro i a user hi
    cases hreceived i a _ hi
  · intro i j a b user other _ hi
    cases hreceived i a _ hi

/-- What has to be seen of the one that moves, and of the rows that others have inserted. -/
theorem RowsApart.set {w : Registrations} (h : RowsApart hashpw w) {i : Nat} {a : Applicant}
    {phase : RegisterPhase} {service : MailService}
    (hhashed : ∀ x, phase = .hashed x → x = hashpw a.payload.password)
    (hinserted : ∀ user, phase = .flushed user → user = a.row hashpw
      ∧ (∀ u ∈ service.users, ¬ a.Taken u)
      ∧ ∀ (j : Nat) (b : Applicant) (other : User),
        w.requests[j]? = some ⟨b, .flushed other⟩ → ¬ a.Taken other)
    (hothers : ∀ (j : Nat) (b : Applicant) (other : User), j ≠ i →
      w.requests[j]? = some ⟨b, .flushed other⟩ → ∀ u ∈ service.users, ¬ b.Taken u) :
    RowsApart hashpw ⟨service, w.requests.set i ⟨a, phase⟩⟩ := by
  constructor
  · intro j b x hj
    rcases Slots.getElem?_set_cases hj with ⟨_, hb⟩ | ⟨_, hj⟩
    · cases hb
      exact hhashed x rfl
    · exact h.hashed j b x hj
  · intro j b user hj
    rcases Slots.getElem?_set_cases hj with ⟨_, hb⟩ | ⟨_, hj⟩
    · cases hb
      exact (hinserted user rfl).1
    · exact h.row j b user hj
  · intro j b user hj
    rcases Slots.getElem?_set_cases hj with ⟨_, hb⟩ | ⟨hne, hj⟩
    · cases hb
      exact (hinserted user rfl).2.1
    · exact hothers j b user hne hj
  · intro j k b c user other hjk hj hk
    rcases Slots.getElem?_set_cases hj with ⟨hji, hb⟩ | ⟨_, hold⟩
    · cases hb
      rcases Slots.getElem?_set_cases hk with ⟨hki, _⟩ | ⟨_, hk⟩
      · exact absurd (hji.trans hki.symm) hjk
      · exact (hinserted user rfl).2.2 k c other hk
    · rcases Slots.getElem?_set_cases hk with ⟨_, hc⟩ | ⟨_, hk⟩
      · cases hc
        obtain ⟨rfl, -, halone⟩ := hinserted other rfl
        have hapart := halone j b user hold
        rw [h.row j b user hold] at hapart
        exact fun ht => hapart (Applicant.taken_row.mp ht)
      · exact h.apart j k b c user other hjk hold hk

/-- **Every step keeps the inserted rows apart.** -/
theorem rowsApart_step {w w' : Registrations} {e : RegisterEvent} (h : RowsApart hashpw w)
    (hs : w.step settings hashpw e = some w') : RowsApart hashpw w' := by
  cases moves_of_step hs with
  | lookedUp hi =>
      refine h.set ?_ ?_ fun j b other _ hj => h.free j b other hj
      · intro x hx
        unfold afterLookUp at hx
        split at hx <;> cases hx
        rfl
      · intro user hx
        unfold afterLookUp at hx
        split at hx <;> cases hx
  | refused hi htaken => exact h.set nofun nofun fun j b other _ hj => h.free j b other hj
  | inserted hi hfree halone =>
      refine h.set nofun ?_ fun j b other _ hj => h.free j b other hj
      intro user huser
      cases huser
      rw [h.hashed _ _ _ hi]
      exact ⟨rfl, hfree, halone⟩
  | finished hi hadded =>
      refine h.set nofun nofun fun j b other hne hj u hu => ?_
      rw [hadded] at hu
      rcases List.mem_append.mp hu with hu | hu
      · exact h.free j b other hj u hu
      · -- the row that is committed now was apart from the other before
        rw [List.mem_singleton.mp hu]
        exact h.apart _ _ _ _ _ _ hne hj hi

/-- The constraints of the table. -/
structure UniqueColumns (users : List User) : Prop where
  id : (users.map User.id).Nodup
  email : (users.map User.email).Nodup
  username : (users.map User.username).Nodup

theorem UniqueColumns.append {users : List User} (h : UniqueColumns users) {a : Applicant}
    (hfree : ∀ u ∈ users, ¬ a.Taken u) : UniqueColumns (users ++ [a.row hashpw]) := by
  have hcolumn : ∀ {β : Type} (column : User → β), (users.map column).Nodup →
      (∀ u ∈ users, column u ≠ column (a.row hashpw)) →
      ((users ++ [a.row hashpw]).map column).Nodup := by
    intro β column hnodup hne
    rw [List.map_append, List.map_singleton, List.nodup_append]
    refine ⟨hnodup, List.nodup_singleton _, fun x hx y hy => ?_⟩
    obtain ⟨u, hu, rfl⟩ := List.mem_map.mp hx
    rw [List.mem_singleton.mp hy]
    exact hne u hu
  exact ⟨hcolumn User.id h.id fun u hu he => hfree u hu (Or.inl he),
    hcolumn User.email h.email fun u hu he => hfree u hu (Or.inr (Or.inl he)),
    hcolumn User.username h.username fun u hu he => hfree u hu (Or.inr (Or.inr he))⟩

theorem uniqueColumns_step {w w' : Registrations} {e : RegisterEvent} (h : RowsApart hashpw w)
    (hunique : UniqueColumns w.service.users) (hs : w.step settings hashpw e = some w') :
    UniqueColumns w'.service.users := by
  cases moves_of_step hs with
  | lookedUp hi => exact hunique
  | refused hi htaken => exact hunique
  | inserted hi hfree halone => exact hunique
  | finished hi hadded =>
      rw [hadded, h.row _ _ _ hi]
      exact hunique.append (h.free _ _ _ hi)

/-- **However registrations overlap, the table keeps its constraints.** -/
theorem uniqueColumns_run (s : MailService) (hunique : UniqueColumns s.users)
    (applicants : List Applicant) {events : List RegisterEvent} {w : Registrations}
    (hrun : exec (Registrations.step settings hashpw) (.start s applicants) events = some w) :
    UniqueColumns w.service.users := by
  have hstep : ∀ w e w', RowsApart hashpw w ∧ UniqueColumns w.service.users → True →
      w.step settings hashpw e = some w' → RowsApart hashpw w' ∧ UniqueColumns w'.service.users :=
    fun w e w' h _ hs => ⟨rowsApart_step h.1 hs, uniqueColumns_step h.1 h.2 hs⟩
  exact (exec_invariant hstep ⟨rowsApart_start s applicants, hunique⟩ (meets_true _ _) hrun).2

/-! ## How registrations end -/

/-- Only the registration that moves has to end right. -/
theorem rightStep_set {w : Registrations} {i : Nat} {r r' : Registering} {service : MailService}
    (hi : w.requests[i]? = some r) (hne : r ≠ r') :
    RightStep hashpw w ⟨service, w.requests.set i r'⟩
      ↔ r'.Right hashpw w.service.users service.users := by
  constructor
  · intro h
    refine h i r' ?_ fun hsame => hne (Option.some.inj (hi.symm.trans hsame))
    have hlength := (List.getElem?_eq_some_iff.mp hi).1
    exact List.getElem?_set_self hlength
  · intro h j x hj hmoved
    rcases Slots.getElem?_set_cases hj with ⟨_, rfl⟩ | ⟨_, hold⟩
    · exact h
    · exact absurd hold hmoved

/-- What the lookup does about no row, about one and about two. -/
theorem right_afterLookUp (a : Applicant) (hashedPassword : String) (users : List User) :
    (⟨a, afterLookUp hashedPassword (holders a.payload users)⟩ : Registering).Right hashpw users users
      ↔ (holders a.payload users).length ≤ 1 := by
  unfold Registering.Right EndsRight
  generalize holders a.payload users = found
  match found with
  | [] => exact iff_of_true rfl (Nat.zero_le 1)
  | [_] => exact iff_of_true ⟨rfl, rfl⟩ (Nat.le_refl 1)
  | _ :: _ :: rest =>
      refine iff_of_false ?_ (by simp)
      rintro ⟨hresult, -⟩
      cases hresult

/-- A refused insert is neither of the two outcomes. -/
theorem not_right_refused (a : Applicant) (users : List User) :
    ¬ (⟨a, .answered (.error .infrastructure)⟩ : Registering).Right hashpw users users := by
  show ¬ EndsRight hashpw a _ users users
  unfold EndsRight
  split
  · rintro ⟨hresult, -⟩
    cases hresult
  · rintro ⟨hresult, -⟩
    cases hresult

/-- **A step is right exactly when it is undisputed.** -/
theorem rightStep_iff {w w' : Registrations} {e : RegisterEvent} (h : RowsApart hashpw w)
    (hs : w.step settings hashpw e = some w') : RightStep hashpw w w' ↔ Undisputed w e := by
  cases moves_of_step hs with
  | lookedUp hi =>
      rw [rightStep_set hi (by unfold afterLookUp; split <;> simp), right_afterLookUp]
      simp [Undisputed, hi]
  | refused hi htaken =>
      rw [rightStep_set hi (by simp)]
      obtain ⟨u, hu, ht⟩ := htaken
      exact iff_of_false (not_right_refused _ _) fun hnone => hnone _ hi u hu ht
  | inserted hi hfree halone =>
      rw [rightStep_set hi (by simp)]
      refine iff_of_true rfl ?_
      simpa [Undisputed, hi] using hfree
  | @finished i a user service hi hadded =>
      rw [rightStep_set hi (by simp)]
      refine iff_of_true ?_ trivial
      have hnobody : holders a.payload w.service.users = [] := by
        refine List.filter_eq_nil_iff.mpr fun u hu hholds => ?_
        exact h.free i a user hi u hu (Or.inr (of_decide_eq_true hholds))
      show EndsRight hashpw a _ _ _
      rw [EndsRight, if_pos hnobody, ← h.row i a user hi]
      exact ⟨rfl, hadded⟩

end

/-! ## Two rows, and two requests -/

section

def carol : User := { id := .ofNat 1, email := "carol@example.com", username := "carol", hashedPassword := "" }

def dave : User := { id := .ofNat 2, email := "dave@example.com", username := "dave", hashedPassword := "" }

/-- A service with these accounts. -/
def serving (users : List User) : MailService :=
  { now := 0, redis := ExpiringStore.empty, users := users, client := true }

/-- The email of one account and the username of another. -/
def carolDave : Applicant :=
  { payload := { email := "carol@example.com", username := "dave", password := "Secret123" }
    uid := .ofNat 3, token := "mailed-token" }

/-- Two who ask for one username at the same time. -/
def firstZoe : Applicant := { payload := zoe, uid := .ofNat 3, token := "first-token" }

def secondZoe : Applicant :=
  { payload := { zoe with email := "zoe@example.org" }, uid := .ofNat 4, token := "second-token" }

end

end Microservices.Users
