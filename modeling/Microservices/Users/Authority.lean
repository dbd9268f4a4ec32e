import Microservices.Users.StoredTokens

/-!
# By whose authority

A row of the table is changed for somebody who gave its password, who has an access
token of its account, who got a mail at its address, or who has an access token of an
admin; or for the operator, at a start. What makes the mails hard is that a token says
nothing of an address: it stands for an id, which stands for a row, and between the mail
and its use the table goes on. Ids are drawn once, and no row changes its id or address.
-/

namespace Microservices.Users

open Effects Schedule
open OpaqueTokens (TokenKind key_inj loginFailKey_ne_key)

/-! ## Warrants -/

/-- How long a token lasts. -/
def MailSettings.ttl (settings : MailSettings) : TokenKind → Time
  | .refresh => refreshTokenTtl
  | .verify => settings.verificationTtl
  | .reset => settings.resetTtl

/-- The event asks for a mail with this token to this address, for the account of the id. -/
inductive Asks (token email : String) (uid : UUID) : TokenKind → ServiceEvent → Prop where
  | register {f : RegisterFaults} {salt : String} {payload : UserCreate}
      (hemail : payload.email = email) :
      Asks token email uid .verify (.request (.register f uid token salt payload))
  | resendVerification {f : AskFaults} :
      Asks token email uid .verify (.request (.resendVerification f token email))
  | forgotPassword {f : AskFaults} :
      Asks token email uid .reset (.request (.forgotPassword f token email))

/-- What has happened so far. -/
abbrev Past := List (ServiceWorld × ServiceEvent)

/-- The token was asked for at the address of the account, and has not expired; or it was there
when the run began. -/
def SentTo (settings : MailSettings) (past : Past) (w₀ w : ServiceWorld) (kind : TokenKind)
    (token : String) (u : User) : Prop :=
  (∃ wᵢ e, (wᵢ, e) ∈ past ∧ Asks token u.email u.id kind e ∧ w.now < wᵢ.now + settings.ttl kind)
    ∨ ∃ x, w₀.redis (kind.key token) = some x ∧ UUID.ofText? x.value = some u.id

/-- Why a row may be changed, and to what. -/
inductive Warrant (settings : MailSettings) (bcrypt : Bcrypt) (past : Past) (w₀ w : ServiceWorld)
    (u : User) : ServiceEvent → User → Prop where
  | login {f : LoginFaults} {fresh password : String}
      (hpassword : bcrypt.verifyText password u.hashedPassword = true)
      (hactive : u.isActive = true) :
      Warrant settings bcrypt past w₀ w u (.request (.login f fresh u.email password))
        { u with lastLoginAt := some w.now }
  | updateMe {f : AccountFaults} {caller : CallerHeaders} {salt : String} {payload : UserUpdate}
      (hcaller : parseCallerId caller = .ok u.id) :
      Warrant settings bcrypt past w₀ w u (.request (.account f caller salt (.updateMe payload)))
        (payload.change (bcrypt.hashText salt) u)
  | deactivateMe {f : AccountFaults} {caller : CallerHeaders} {salt : String}
      (hcaller : parseCallerId caller = .ok u.id) :
      Warrant settings bcrypt past w₀ w u (.request (.account f caller salt .deactivateMe))
        { u with isActive := false }
  | verifyEmail {f : Faults} {salt token : String}
      (hsent : SentTo settings past w₀ w .verify token u) (hunverified : u.emailVerified = false) :
      Warrant settings bcrypt past w₀ w u (.request (.token f salt (.verifyEmail token)))
        { u with emailVerified := true, emailVerifiedAt := some w.now }
  | resetPassword {f : Faults} {salt token newPassword : String}
      (hsent : SentTo settings past w₀ w .reset token u) :
      Warrant settings bcrypt past w₀ w u
        (.request (.token f salt (.resetPassword token newPassword)))
        { u with hashedPassword := bcrypt.hashText salt newPassword }
  | promote {f : AccountFaults} {caller : CallerHeaders} {salt : String}
      (hadmin : requireAdmin caller = .ok ()) :
      Warrant settings bcrypt past w₀ w u
        (.request (.account f caller salt (.adminPromoteUser u.id))) { u with isAdmin := true }
  | demote {f : AccountFaults} {caller : CallerHeaders} {callerId : UUID} {salt : String}
      (hadmin : requireAdmin caller = .ok ()) (hcaller : parseCallerId caller = .ok callerId)
      (hother : u.id ≠ callerId) :
      Warrant settings bcrypt past w₀ w u
        (.request (.account f caller salt (.adminDemoteUser u.id))) { u with isAdmin := false }
  | bootstrap {f : StartFaults} (hnot : u.isAdmin = false) :
      Warrant settings bcrypt past w₀ w u (.restart f (some u.email)) { u with isAdmin := true }

/-- Who may delete a row. -/
inductive Removes (u : User) : ServiceEvent → Prop where
  | hardDeleteMe {f : AccountFaults} {caller : CallerHeaders} {salt : String}
      (hcaller : parseCallerId caller = .ok u.id) :
      Removes u (.request (.account f caller salt .hardDeleteMe))
  | adminDeleteUser {f : AccountFaults} {caller : CallerHeaders} {callerId : UUID} {salt : String}
      (hadmin : requireAdmin caller = .ok ()) (hcaller : parseCallerId caller = .ok callerId)
      (hother : u.id ≠ callerId) :
      Removes u (.request (.account f caller salt (.adminDeleteUser u.id)))

/-- The event registers the row. -/
inductive Adds (bcrypt : Bcrypt) (u : User) : ServiceEvent → Prop where
  | register {f : RegisterFaults} {uid : UUID} {token salt : String} {payload : UserCreate}
      (hrow : u = payload.newUser uid (bcrypt.hashText salt payload.password)) :
      Adds bcrypt u (.request (.register f uid token salt payload))

/-- **Every row is accounted for**: those from before are kept, changed under a warrant or
removed, and the others are new. -/
structure Accounted (settings : MailSettings) (bcrypt : Bcrypt) (past : Past) (w₀ w : ServiceWorld)
    (e : ServiceEvent) (w' : ServiceWorld) : Prop where
  before : ∀ u ∈ w.users, u ∈ w'.users
    ∨ (∃ u' ∈ w'.users, Warrant settings bcrypt past w₀ w u e u')
    ∨ (Removes u e ∧ ∀ u' ∈ w'.users, u'.id ≠ u.id)
  after : ∀ u' ∈ w'.users, u' ∈ w.users
    ∨ (∃ u ∈ w.users, Warrant settings bcrypt past w₀ w u e u')
    ∨ (Adds bcrypt u' e ∧ ∀ u ∈ w.users, u.id ≠ u'.id)

/-! ## What a step does -/

/-- What an event writes to the table. -/
inductive EventWrite (bcrypt : Bcrypt) (w : ServiceWorld) : ServiceEvent → Flush → Prop where
  | nothing (e : ServiceEvent) : EventWrite bcrypt w e id
  | request {r : UserRequest} {flush : Flush} (h : TableWrite bcrypt w.toMailService r flush) :
      EventWrite bcrypt w (.request r) flush
  | bootstrap {f : StartFaults} {email : String} {user : User}
      (hrow : userByEmail w.users email = some user) (hnot : user.isAdmin = false) :
      EventWrite bcrypt w (.restart f (some email))
        (updateUser user.id fun u => { u with isAdmin := true })

theorem promoteInitialAdmin_cases (f : StartFaults) (email : String) (s : MailService) :
    let s' := final ((promoteInitialAdmin f email).run s)
    s' = s ∨ ∃ user, userByEmail s.users email = some user ∧ user.isAdmin = false
      ∧ s' = { s with users := updateUser user.id (fun u => { u with isAdmin := true }) s.users } := by
  cases hquery : f.query with
  | before | after =>
      rw [promoteInitialAdmin, hquery]
      exact Or.inl rfl
  | none =>
      have hfind : (await .infrastructure .none (do
          let s ← get
          return userByEmail s.users email) : MailAction (Option User)).run s
          = .ok (userByEmail s.users email) s := rfl
      rw [promoteInitialAdmin, hquery, run_bind_ok hfind]
      cases userByEmail s.users email with
      | none => exact Or.inl rfl
      | some user =>
          dsimp only
          cases hadmin : user.isAdmin with
          | true => exact Or.inl rfl
          | false =>
              cases f.commit with
              | before => exact Or.inl rfl
              | none | after => exact Or.inr ⟨user, rfl, hadmin, rfl⟩

/-- A start promotes the account of the email, or leaves the table and Redis as they are. -/
theorem startUp_cases (f : StartFaults) (initialAdminEmail : Option String) (s : MailService) :
    let s' := final ((startUp f initialAdminEmail).run s)
    s'.now = s.now ∧ s'.redis = s.redis ∧ (s'.users = s.users
      ∨ ∃ email user, initialAdminEmail = some email ∧ userByEmail s.users email = some user
        ∧ user.isAdmin = false
        ∧ s'.users = updateUser user.id (fun u => { u with isAdmin := true }) s.users) := by
  let s₁ : MailService := { s with client := false }
  obtain ⟨s₂, hboot, heq⟩ : ∃ s₂, (bootstrapInitialAdmin f initialAdminEmail).run s₁ = .ok () s₂
      ∧ (s₂ = s₁ ∨ ∃ email user, initialAdminEmail = some email
        ∧ userByEmail s.users email = some user ∧ user.isAdmin = false ∧ s₂ = { s₁ with
          users := updateUser user.id (fun u => { u with isAdmin := true }) s.users }) := by
    cases initialAdminEmail with
    | none => exact ⟨s₁, rfl, Or.inl rfl⟩
    | some email =>
        by_cases hempty : email = ""
        · refine ⟨s₁, ?_, Or.inl rfl⟩
          rw [bootstrapInitialAdmin, if_pos hempty]
          rfl
        · obtain ⟨_, hrun⟩ := orReturn_returns (promoteInitialAdmin f email) () s₁
          refine ⟨_, ?_, (promoteInitialAdmin_cases f email s₁).imp_right
            fun ⟨user, hrow, hadmin, heq⟩ => ⟨email, user, rfl, hrow, hadmin, heq⟩⟩
          rw [bootstrapInitialAdmin, if_neg hempty]
          exact hrun
  have hrun : (startUp f initialAdminEmail).run s
      = (onWorker (getRedis f.redis) >>= fun _ => pure ()).run s₂ := run_bind_ok hboot _
  rw [hrun, final_bind_pure, final_onWorker, getRedis_run]
  rcases heq with rfl | ⟨email, user, hemail, hrow, hadmin, rfl⟩
  · exact ⟨rfl, rfl, Or.inl rfl⟩
  · exact ⟨rfl, rfl, Or.inr ⟨email, user, hemail, hrow, hadmin, rfl⟩⟩

section

variable {settings : MailSettings} {classes : CharClasses} {bcrypt : Bcrypt}
  {mint : Time → User → String × Int} {dummyHash : String} {w w' : ServiceWorld} {e : ServiceEvent}

/-- What a request leaves: nothing of it if its body was refused. -/
theorem serve_cases (settings : MailSettings) (classes : CharClasses) (bcrypt : Bcrypt)
    (mint : Time → User → String × Int) (dummyHash : String) (s : MailService) (r : UserRequest) :
    (∃ error, serve settings classes bcrypt mint dummyHash s r = (.error (.unprocessable error), s))
      ∨ serve settings classes bcrypt mint dummyHash s r
        = ((answer ((perform settings bcrypt mint dummyHash r).run s)).mapError .failure,
          final ((perform settings bcrypt mint dummyHash r).run s)) := by
  unfold serve
  cases r.validate classes with
  | error error => exact Or.inl ⟨error, rfl⟩
  | ok _ => exact Or.inr rfl

/-- What a step does to the table, and what it stores. -/
structure StepDoes (settings : MailSettings) (bcrypt : Bcrypt) (w : ServiceWorld)
    (e : ServiceEvent) (w' : ServiceWorld) : Prop where
  now : w.now ≤ w'.now
  table : ∃ flush, EventWrite bcrypt w e flush ∧ w'.users = flush w.users
  tokens : ∀ kind token x, w'.redis (TokenKind.key kind token) = some x →
    w.redis (kind.key token) = some x
      ∨ ∃ r, e = .request r ∧ Stores settings bcrypt w.toMailService r kind token x

theorem serviceStep_does (h : serviceStep settings classes bcrypt mint dummyHash w e = some w') :
    StepDoes settings bcrypt w e w' := by
  cases e with
  | tick t =>
      rw [serviceStep] at h
      split at h
      · rename_i ht
        cases h
        exact ⟨ht, ⟨id, .nothing _, rfl⟩, fun _ _ _ hx => Or.inl hx⟩
      · cases h
  | restart f initialAdminEmail =>
      cases h
      obtain ⟨hnow, hredis, husers⟩ := startUp_cases f initialAdminEmail w.toMailService
      refine ⟨le_of_eq hnow.symm, ?_, fun kind token x hx => Or.inl ?_⟩
      · rcases husers with hsame | ⟨email, user, rfl, hrow, hnot, hpromoted⟩
        · exact ⟨id, .nothing _, hsame⟩
        · exact ⟨_, .bootstrap hrow hnot, hpromoted⟩
      · rw [← hredis]
        exact hx
  | request r =>
      rw [← Option.some.inj h]
      rcases serve_cases settings classes bcrypt mint dummyHash w.toMailService r with
        ⟨error, hserve⟩ | hserve
      · rw [hserve]
        exact ⟨le_refl _, ⟨id, .nothing _, rfl⟩, fun _ _ _ hx => Or.inl hx⟩
      · rw [hserve]
        obtain ⟨hnow, htokens⟩ := perform_stores settings bcrypt mint dummyHash w.toMailService r
        refine ⟨le_of_eq hnow.symm, ?_, fun kind token x hx => ?_⟩
        · rcases perform_written settings bcrypt mint dummyHash w.toMailService r with
            ⟨err, t, hrun, husers⟩ | ⟨flush, hwrite, husers, -⟩
          · refine ⟨id, .nothing _, ?_⟩
            rw [hrun]
            exact husers
          · exact ⟨flush, .request hwrite, husers⟩
        · exact (htokens kind token x hx).imp_right fun hstores => ⟨r, rfl, hstores⟩

end

/-! ## The rows after a step -/

/-- The id a registration draws. -/
def ServiceEvent.draws : ServiceEvent → Option UUID
  | .request (.register _ uid _ _ _) => some uid
  | _ => none

/-- The four things that can become of a table. -/
inductive WriteShape (bcrypt : Bcrypt) (e : ServiceEvent) (users : List User) (flush : Flush) :
    Prop where
  | same (h : flush users = users)
  | add {user : User} (hdrawn : e.draws = some user.id) (hadds : Adds bcrypt user e)
      (hnew : ∀ u ∈ users, u.id ≠ user.id) (h : flush users = users ++ [user])
  | change {uid : UUID} {change : User → User} (h : flush users = updateUser uid change users)
      (hid : ∀ u, (change u).id = u.id) (hemail : ∀ u, (change u).email = u.email)
  | delete {uid : UUID} (h : flush users = deleteUser uid users)

section

variable {bcrypt : Bcrypt} {w : ServiceWorld} {e : ServiceEvent} {flush : Flush} {users : List User}

theorem AccountEffect.shape {hashpw : String → String} {caller : CallerHeaders}
    {r : AccountRequest} (h : AccountEffect hashpw caller r flush) :
    WriteShape bcrypt e users flush := by
  cases h with
  | refused => exact .same rfl
  | update password hcaller => exact .change rfl (fun _ => rfl) (fun _ => rfl)
  | deactivate hcaller => exact .change rfl (fun _ => rfl) (fun _ => rfl)
  | promote hadmin => exact .change rfl (fun _ => rfl) (fun _ => rfl)
  | demote hadmin hcaller hother => exact .change rfl (fun _ => rfl) (fun _ => rfl)
  | hardDelete hcaller => exact .delete rfl
  | delete hadmin hcaller hother => exact .delete rfl

theorem EventWrite.shape (h : EventWrite bcrypt w e flush) :
    WriteShape bcrypt e w.users flush := by
  cases h with
  | nothing => exact .same rfl
  | bootstrap hrow hnot => exact .change rfl (fun _ => rfl) (fun _ => rfl)
  | request h =>
      cases h with
      | nothing => exact .same rfl
      | register hnew => exact .add rfl (.register rfl) hnew rfl
      | login hrow hpassword hactive => exact .change rfl (fun _ => rfl) (fun _ => rfl)
      | verifyEmail howner hrow hunverified => exact .change rfl (fun _ => rfl) (fun _ => rfl)
      | resetPassword howner => exact .change rfl (fun _ => rfl) (fun _ => rfl)
      | account heffect => exact heffect.shape

/-- No row changes its id or its email, and the others are new. -/
theorem WriteShape.rows (h : WriteShape bcrypt e users flush) {u' : User} (hu' : u' ∈ flush users) :
    (∃ u ∈ users, u.id = u'.id ∧ u.email = u'.email)
      ∨ e.draws = some u'.id ∧ Adds bcrypt u' e ∧ ∀ u ∈ users, u.id ≠ u'.id := by
  cases h with
  | same h =>
      rw [h] at hu'
      exact Or.inl ⟨u', hu', rfl, rfl⟩
  | add hdrawn hadds hnew h =>
      rw [h] at hu'
      rcases List.mem_append.mp hu' with hold | hadded
      · exact Or.inl ⟨u', hold, rfl, rfl⟩
      · cases List.mem_singleton.mp hadded
        exact Or.inr ⟨hdrawn, hadds, hnew⟩
  | change h hid hemail =>
      rw [h] at hu'
      obtain ⟨u, hu, hsame, heq⟩ := row_of_updateUser hu' hid
      refine Or.inl ⟨u, hu, hsame, ?_⟩
      rw [heq]
      split
      · exact (hemail u).symm
      · rfl
  | delete h =>
      rw [h] at hu'
      exact Or.inl ⟨u', List.mem_of_mem_filter hu', rfl, rfl⟩

theorem ids_updateUser {uid : UUID} {change : User → User} (hid : ∀ u, (change u).id = u.id)
    (users : List User) : (updateUser uid change users).map User.id = users.map User.id := by
  unfold updateUser
  rw [List.map_map]
  refine List.map_congr_left fun u _ => ?_
  dsimp only [Function.comp_apply]
  split
  · exact hid u
  · rfl

/-- The primary key stays one. -/
theorem WriteShape.ids (h : WriteShape bcrypt e users flush) (hids : (users.map User.id).Nodup) :
    ((flush users).map User.id).Nodup := by
  cases h with
  | same h =>
      rw [h]
      exact hids
  | @add user hdrawn hadds hnew h =>
      rw [h, List.map_append, List.map_singleton]
      refine List.nodup_append.mpr ⟨hids, List.nodup_singleton _, fun uid huid uid' huid' => ?_⟩
      obtain ⟨u, hu, rfl⟩ := List.mem_map.mp huid
      rw [List.mem_singleton.mp huid']
      exact hnew u hu
  | change h hid hemail =>
      rw [h, ids_updateUser hid]
      exact hids
  | delete h =>
      rw [h]
      exact hids.sublist (List.filter_sublist.map User.id)

/-- Rows with one id are one row. -/
theorem eq_of_id_eq (hids : (users.map User.id).Nodup) {u v : User} (hu : u ∈ users) (hv : v ∈ users)
    (h : u.id = v.id) : u = v :=
  List.inj_on_of_nodup_map hids hu hv h

end

/-! ## Where the tokens come from -/

/-- The ids there were, and those that registrations have drawn. -/
def knownIds (w₀ : ServiceWorld) (events : List ServiceEvent) : List UUID :=
  w₀.users.map User.id ++ events.filterMap ServiceEvent.draws

/-- Each account has its id for itself, and a token that is mailed its account and address. -/
structure Traceable (settings : MailSettings) (w₀ : ServiceWorld) (past : Past) (w : ServiceWorld) :
    Prop where
  ids : (w.users.map User.id).Nodup
  known : ∀ u ∈ w.users, u.id ∈ knownIds w₀ (past.map Prod.snd)
  tokens : ∀ kind token x, kind ≠ TokenKind.refresh → w.redis (kind.key token) = some x →
    w₀.redis (kind.key token) = some x
      ∨ ∃ wᵢ e email uid, (wᵢ, e) ∈ past ∧ Asks token email uid kind e
        ∧ x = ⟨uid.text, some (wᵢ.now + settings.ttl kind)⟩
        ∧ uid ∈ knownIds w₀ (past.map Prod.snd)
        ∧ ∀ u ∈ w.users, u.id = uid → u.email = email

section

variable {settings : MailSettings} {bcrypt : Bcrypt} {w₀ w w' : ServiceWorld} {past : Past}
  {e : ServiceEvent}

theorem knownIds_snoc (w₀ : ServiceWorld) (past : Past) (w : ServiceWorld) (e : ServiceEvent) :
    knownIds w₀ ((past ++ [(w, e)]).map Prod.snd)
      = knownIds w₀ (past.map Prod.snd) ++ e.draws.toList := by
  unfold knownIds
  rw [List.map_append, List.filterMap_append, List.append_assoc]
  cases hdraws : e.draws <;> simp [hdraws]

/-- A step keeps what is known of an address. -/
theorem Traceable.email_step (hdoes : StepDoes settings bcrypt w e w')
    (hfresh : (knownIds w₀ ((past ++ [(w, e)]).map Prod.snd)).Nodup) {uid : UUID} {email : String}
    (hknown : uid ∈ knownIds w₀ (past.map Prod.snd))
    (hemail : ∀ u ∈ w.users, u.id = uid → u.email = email) :
    ∀ u' ∈ w'.users, u'.id = uid → u'.email = email := by
  obtain ⟨flush, hwrite, husers⟩ := hdoes.table
  intro u' hu' hid
  rw [husers] at hu'
  rcases hwrite.shape.rows hu' with ⟨u, hu, hsame, hsameEmail⟩ | ⟨hdrawn, -, -⟩
  · rw [← hsameEmail]
    exact hemail u hu (hsame.trans hid)
  · -- an id that is drawn now has not been known
    rw [knownIds_snoc, hdrawn, hid] at hfresh
    exact absurd (List.mem_singleton_self uid) ((List.disjoint_of_nodup_append hfresh) hknown)

theorem Traceable.step (h : Traceable settings w₀ past w) (hdoes : StepDoes settings bcrypt w e w')
    (hfresh : (knownIds w₀ ((past ++ [(w, e)]).map Prod.snd)).Nodup) :
    Traceable settings w₀ (past ++ [(w, e)]) w' := by
  obtain ⟨flush, hwrite, husers⟩ := hdoes.table
  have hmore : ∀ uid ∈ knownIds w₀ (past.map Prod.snd),
      uid ∈ knownIds w₀ ((past ++ [(w, e)]).map Prod.snd) := by
    intro uid huid
    rw [knownIds_snoc]
    exact List.mem_append_left _ huid
  have hnow : (w, e) ∈ past ++ [(w, e)] := List.mem_append_right _ (List.mem_singleton_self _)
  -- a row that is found by its email keeps it
  have hfound : ∀ user ∈ w.users, ∀ email, user.email = email →
      user.id ∈ knownIds w₀ ((past ++ [(w, e)]).map Prod.snd)
        ∧ ∀ u' ∈ w'.users, u'.id = user.id → u'.email = email := by
    intro user huser email hemail
    refine ⟨hmore _ (h.known user huser), email_step hdoes hfresh (h.known user huser) ?_⟩
    intro u hu hid
    rw [eq_of_id_eq h.ids hu huser hid]
    exact hemail
  refine ⟨?_, fun u' hu' => ?_, fun kind token x hkind hx => ?_⟩
  · rw [husers]
    exact hwrite.shape.ids h.ids
  · rw [husers] at hu'
    rcases hwrite.shape.rows hu' with ⟨u, hu, hsame, -⟩ | ⟨hdrawn, -, -⟩
    · rw [← hsame]
      exact hmore _ (h.known u hu)
    · rw [knownIds_snoc, hdrawn]
      exact List.mem_append_right _ (List.mem_singleton_self _)
  · rcases hdoes.tokens kind token x hx with hold | ⟨r, rfl, hstores⟩
    · rcases h.tokens kind token x hkind hold with hstart | ⟨wᵢ, eᵢ, email, uid, hpast, hasks, heq, hknown, hemail⟩
      · exact Or.inl hstart
      · exact Or.inr ⟨wᵢ, eᵢ, email, uid, List.mem_append_left _ hpast, hasks, heq, hmore uid hknown,
          email_step hdoes hfresh hknown hemail⟩
    · right
      cases hstores with
      | @register f uid _ salt payload hnew =>
          refine ⟨w, _, payload.email, uid, hnow, .register rfl, rfl, ?_, fun u' hu' hid => ?_⟩
          · rw [knownIds_snoc]
            exact List.mem_append_right _ (List.mem_singleton_self _)
          · rw [husers] at hu'
            rcases hwrite.shape.rows hu' with ⟨u, hu, hsame, -⟩ | ⟨-, hadds, -⟩
            · exact absurd (hsame.trans hid) (hnew u hu)
            · cases hadds with
              | register hrow =>
                  rw [hrow]
                  rfl
      | @resendVerification f _ email user hrow =>
          obtain ⟨hrow, -⟩ := Option.filter_eq_some_iff.mp hrow
          have hemail : user.email = email := by simpa using List.find?_some hrow
          obtain ⟨hknown, hkeeps⟩ := hfound user (List.mem_of_find?_eq_some hrow) email hemail
          exact ⟨w, _, email, user.id, hnow, .resendVerification, rfl, hknown, hkeeps⟩
      | @forgotPassword f _ email user hrow =>
          obtain ⟨hrow, -⟩ := Option.filter_eq_some_iff.mp hrow
          have hemail : user.email = email := by simpa using List.find?_some hrow
          obtain ⟨hknown, hkeeps⟩ := hfound user (List.mem_of_find?_eq_some hrow) email hemail
          exact ⟨w, _, email, user.id, hnow, .forgotPassword, rfl, hknown, hkeeps⟩
      | login _ _ _ => exact absurd rfl hkind
      | refresh _ _ _ => exact absurd rfl hkind

/-- A token that stands for an account was sent to its address. -/
theorem Traceable.sentTo (h : Traceable settings w₀ past w) {kind : TokenKind}
    (hkind : kind ≠ .refresh) {token : String} {u : User} (hu : u ∈ w.users)
    (howner : (w.redis.get w.now (kind.key token)).bind UUID.ofText? = some u.id) :
    SentTo settings past w₀ w kind token u := by
  obtain ⟨value, hget, huid⟩ := Option.bind_eq_some_iff.mp howner
  obtain ⟨x, hx, rfl, hlive⟩ := ExpiringStore.exists_of_get_eq_some hget
  rcases h.tokens kind token x hkind hx with hstart | ⟨wᵢ, e, email, uid, hpast, hasks, rfl, -, hemail⟩
  · exact Or.inr ⟨x, hstart, huid⟩
  · rw [UUID.ofText?_text, Option.some.injEq] at huid
    refine Or.inl ⟨wᵢ, e, hpast, ?_, hlive _ rfl⟩
    rw [hemail u hu huid.symm, ← huid]
    exact hasks

/-! ## Accounting for the rows -/

theorem accounted_same (h : w'.users = w.users) : Accounted settings bcrypt past w₀ w e w' := by
  refine ⟨fun u hu => Or.inl ?_, fun u hu => Or.inl ?_⟩
  · rw [h]
    exact hu
  · rw [← h]
    exact hu

theorem accounted_change {uid : UUID} {change : User → User}
    (h : w'.users = updateUser uid change w.users) (hid : ∀ u, (change u).id = u.id)
    (hwarrant : ∀ u ∈ w.users, u.id = uid →
      change u = u ∨ Warrant settings bcrypt past w₀ w u e (change u)) :
    Accounted settings bcrypt past w₀ w e w' := by
  refine ⟨fun u hu => ?_, fun u' hu' => ?_⟩
  · have hmem : (if u.id = uid then change u else u) ∈ w'.users := by
      rw [h]
      exact List.mem_map_of_mem hu
    by_cases hrow : u.id = uid
    · rw [if_pos hrow] at hmem
      rcases hwarrant u hu hrow with hsame | hchange
      · rw [hsame] at hmem
        exact Or.inl hmem
      · exact Or.inr (Or.inl ⟨change u, hmem, hchange⟩)
    · rw [if_neg hrow] at hmem
      exact Or.inl hmem
  · rw [h] at hu'
    obtain ⟨u, hu, hsame, heq⟩ := row_of_updateUser hu' hid
    by_cases hrow : u'.id = uid
    · rw [if_pos hrow] at heq
      rcases hwarrant u hu (hsame.trans hrow) with hkept | hchange
      · rw [heq, hkept]
        exact Or.inl hu
      · rw [heq]
        exact Or.inr (Or.inl ⟨u, hu, hchange⟩)
    · rw [if_neg hrow] at heq
      rw [heq]
      exact Or.inl hu

theorem accounted_delete {uid : UUID} (h : w'.users = deleteUser uid w.users)
    (hremoves : ∀ u ∈ w.users, u.id = uid → Removes u e) :
    Accounted settings bcrypt past w₀ w e w' := by
  rw [deleteUser] at h
  refine ⟨fun u hu => ?_, fun u' hu' => Or.inl ?_⟩
  · by_cases hrow : u.id = uid
    · refine Or.inr (Or.inr ⟨hremoves u hu hrow, fun u' hu' hsame => ?_⟩)
      rw [h] at hu'
      have hother := (List.mem_filter.mp hu').2
      exact of_decide_eq_true hother (hsame.trans hrow)
    · rw [h]
      exact Or.inl (List.mem_filter.mpr ⟨hu, decide_eq_true hrow⟩)
  · rw [h] at hu'
    exact List.mem_of_mem_filter hu'

theorem accounted_add {user : User} (h : w'.users = w.users ++ [user])
    (hadds : Adds bcrypt user e) (hnew : ∀ u ∈ w.users, u.id ≠ user.id) :
    Accounted settings bcrypt past w₀ w e w' := by
  refine ⟨fun u hu => Or.inl ?_, fun u' hu' => ?_⟩
  · rw [h]
    exact List.mem_append_left _ hu
  · rw [h] at hu'
    rcases List.mem_append.mp hu' with hold | hadded
    · exact Or.inl hold
    · cases List.mem_singleton.mp hadded
      exact Or.inr (Or.inr ⟨hadds, hnew⟩)

/-- What the routes of accounts do is for the caller, or for an admin. -/
theorem accounted_account {f : AccountFaults} {caller : CallerHeaders} {salt : String}
    {r : AccountRequest} {flush : Flush}
    (heffect : AccountEffect (bcrypt.hashText salt) caller r flush)
    (h : w'.users = flush w.users) :
    Accounted settings bcrypt past w₀ w (.request (.account f caller salt r)) w' := by
  cases heffect with
  | refused => exact accounted_same h
  | update payload hcaller =>
      refine accounted_change h (fun _ => rfl) fun u _ hrow => Or.inr ?_
      exact .updateMe (hrow ▸ hcaller)
  | deactivate hcaller =>
      refine accounted_change h (fun _ => rfl) fun u _ hrow => Or.inr ?_
      exact .deactivateMe (hrow ▸ hcaller)
  | hardDelete hcaller =>
      refine accounted_delete h fun u _ hrow => ?_
      exact .hardDeleteMe (hrow ▸ hcaller)
  | promote hadmin =>
      refine accounted_change h (fun _ => rfl) fun u _ hrow => Or.inr ?_
      rw [← hrow]
      exact .promote hadmin
  | demote hadmin hcaller hother =>
      refine accounted_change h (fun _ => rfl) fun u _ hrow => Or.inr ?_
      rw [← hrow]
      exact .demote hadmin hcaller (hrow ▸ hother)
  | delete hadmin hcaller hother =>
      refine accounted_delete h fun u _ hrow => ?_
      rw [← hrow]
      exact .adminDeleteUser hadmin hcaller (hrow ▸ hother)

/-- **Every write has its warrant.** -/
theorem Traceable.accounted (h : Traceable settings w₀ past w) {flush : Flush}
    (hwrite : EventWrite bcrypt w e flush) (husers : w'.users = flush w.users) :
    Accounted settings bcrypt past w₀ w e w' := by
  cases hwrite with
  | nothing => exact accounted_same husers
  | @bootstrap f email user hrow hnot =>
      refine accounted_change husers (fun _ => rfl) fun u hu hid => Or.inr ?_
      obtain rfl := eq_of_id_eq h.ids hu (List.mem_of_find?_eq_some hrow) hid
      have hemail : u.email = email := by simpa using List.find?_some hrow
      rw [← hemail]
      exact .bootstrap hnot
  | request hwrite =>
      cases hwrite with
      | nothing => exact accounted_same husers
      | register hnew => exact accounted_add husers (.register rfl) hnew
      | @login f fresh email password user hrow hpassword hactive =>
          refine accounted_change husers (fun _ => rfl) fun u hu hid => Or.inr ?_
          obtain rfl := eq_of_id_eq h.ids hu (List.mem_of_find?_eq_some hrow) hid
          have hemail : u.email = email := by simpa using List.find?_some hrow
          rw [← hemail]
          exact .login hpassword hactive
      | verifyEmail howner hrow hunverified =>
          refine accounted_change husers (fun _ => rfl) fun u hu hid => Or.inr ?_
          obtain rfl := eq_of_id_eq h.ids hu hrow hid
          exact .verifyEmail (h.sentTo (by decide) hu howner) hunverified
      | resetPassword howner =>
          refine accounted_change husers (fun _ => rfl) fun u hu hid => Or.inr ?_
          exact .resetPassword (h.sentTo (by decide) hu (hid ▸ howner))
      | account heffect => exact accounted_account heffect husers

end

/-- Ann forgets her password, -/
def annForgets : ServiceEvent :=
  .request (.forgotPassword {} "anns-reset-token-01" "ann@example.com")

/-- and sets another by the mail. -/
def annResets : ServiceEvent :=
  .request (.token {} "$2b$12$salt" (.resetPassword "anns-reset-token-01" "Forgotten-2"))

end Microservices.Users
