import Microservices.Lib.Schedule
import Microservices.Lib.Slots
import Microservices.Users.OpaqueTokens

/-!
# Opaque tokens are used once

An issued token is in one of two states. It is stored under the key of its kind
and no `GETDEL` has found it, or it is gone and at most one has, which yielded its
user. Only a `SETEX` puts a key back, and it writes a string that nobody has seen.
-/

namespace Microservices.Users.OpaqueTokens

open Schedule Slots

variable {checkpw : String → String → Bool} {hashpw : String → String}
  {settings : TokenSettings} {w w' : World}

/-! ## Keys -/

theorem toList_key (kind : TokenKind) (token : String) :
    (kind.key token).toList
      = (match kind with
        | .refresh => "refresh:"
        | .verify => "verify:"
        | .reset => "reset:").toList ++ token.toList := by
  cases kind <;> exact String.toList_append

/-- **The three token spaces are apart**, whatever the tokens. -/
theorem key_inj {kind kind' : TokenKind} {token token' : String}
    (h : kind.key token = kind'.key token') : kind = kind' ∧ token = token' := by
  have hlist := congrArg String.toList h
  rw [toList_key, toList_key] at hlist
  cases kind <;> cases kind' <;> simp at hlist <;> exact ⟨rfl, String.toList_injective hlist⟩

/-- And apart from the counters, whatever the emails. -/
theorem loginFailKey_ne_key (email : String) (kind : TokenKind) (token : String) :
    loginFailKey email ≠ kind.key token := by
  intro h
  have hlist := congrArg String.toList h
  rw [toList_key, loginFailKey, String.toList_append] at hlist
  cases kind <;> simp at hlist

/-! ## What a step does -/

/-- The stores agree on every token of every kind. -/
def SameTokens (redis redis' : ExpiringStore String String Time) : Prop :=
  ∀ (kind : TokenKind) (token : String), redis' (kind.key token) = redis (kind.key token)

/-- One step, as far as tokens go. -/
inductive TokenStep (settings : TokenSettings) (w : World) : World → Prop where
  /-- The clock or the table. -/
  | outside (now : Time) (users : List User) : TokenStep settings w { w with now, users }
  | arrive (request : TokenCall) (afterLogout : Bool)
      (h : afterLogout = decide (∃ token ∈ request.presented, token ∈ w.loggedOut)) :
      TokenStep settings w { w with
        presented := request.presented.toList ++ w.presented
        calls := w.calls ++ [{ request, afterLogout }] }
  /-- A call goes on, and leaves the tokens alone. -/
  | goOn {i : Nat} {c : Call} (phase : CallPhase) (users : List User)
      (redis : ExpiringStore String String Time) (hc : w.calls[i]? = some c)
      (hopen : ∀ answer, c.phase ≠ .answered answer)
      (hother : c.phase = .received → ∀ token, c.request ≠ .refresh token)
      (hacts : c.request.takes.isSome → ∀ user, phase.actsOn = some user →
        c.phase.actsOn = some user)
      (hsame : SameTokens w.redis redis) :
      TokenStep settings w { w.setCall i { c with phase } with users, redis }
  | consume {i : Nat} {c : Call} {kind : TokenKind} {token : String} {error : HTTPException}
      (hc : w.calls[i]? = some c) (htakes : c.request.takes = some (kind, token, error)) :
      TokenStep settings w (w.consume i c kind token error)
  | logout {i : Nat} {c : Call} {token : String} (hc : w.calls[i]? = some c)
      (hrequest : c.request = .logout token) :
      TokenStep settings w { w.setCall i { c with phase := .answered (.ok ()) } with
        redis := w.redis.del (refreshKey token)
        loggedOut := token :: w.loggedOut }
  | store {i : Nat} {c : Call} {kind : TokenKind} {user : UUID} {fresh : String}
      (hc : w.calls[i]? = some c) (hphase : c.phase = .storing kind user) (hfresh : w.Fresh fresh) :
      TokenStep settings w (w.store settings i c kind user fresh)

/-- The step of a call that awaits nothing of the tokens. -/
theorem TokenStep.phase {i : Nat} {c : Call} (phase : CallPhase) (hc : w.calls[i]? = some c)
    (hopen : ∀ answer, c.phase ≠ .answered answer)
    (hother : c.phase = .received → ∀ token, c.request ≠ .refresh token)
    (hacts : c.request.takes.isSome → ∀ user, phase.actsOn = some user →
      c.phase.actsOn = some user) :
    TokenStep settings w (w.setCall i { c with phase }) :=
  .goOn phase w.users w.redis hc hopen hother hacts fun _ _ => rfl

/-- A refresh goes on for the user its token has yielded. -/
theorem actsOn_afterRefresh {users : List User} {userId : String} {user : UUID}
    (h : (afterRefresh users userId).actsOn = some user) :
    (CallPhase.consumed userId).actsOn = some user := by
  unfold afterRefresh at h
  rw [CallPhase.actsOn]
  cases hid : UUID.ofText? userId with
  | none => rw [hid] at h; cases h
  | some uid =>
      rw [hid] at h
      cases hrow : users.find? fun u => u.id = uid with
      | none => simp only [hrow] at h; cases h
      | some row =>
          simp only [hrow] at h
          cases hactive : row.isActive with
          | false => rw [hactive] at h; cases h
          | true =>
              rw [hactive] at h
              cases h
              have hid : row.id = uid := by simpa using List.find?_some hrow
              rw [hid]

theorem actsOn_afterConsume (users : List User) (userId : String) (change : User → User) :
    (afterConsume users userId change).1.actsOn = none := by
  unfold afterConsume
  cases owner users userId <;> rfl

/-- What a verification or a reset does with what its `GETDEL` has yielded. -/
theorem advance_afterConsume {i : Nat} {request : TokenCall} {userId fresh : String}
    {afterLogout : Bool} (hrefresh : ∀ token, request ≠ .refresh token)
    (hs : advance checkpw hashpw settings w i ⟨request, .consumed userId, afterLogout⟩ fresh
      = some w') :
    ∃ change : User → User, (∀ u, (change u).id = u.id)
      ∧ w' = { w.setCall i ⟨request, (afterConsume w.users userId change).1, afterLogout⟩ with
          users := (afterConsume w.users userId change).2 } := by
  cases request with
  | refresh token => exact absurd rfl (hrefresh token)
  | verifyEmail token =>
      simp only [advance] at hs
      refine ⟨_, fun u => ?_, (Option.some.inj hs).symm⟩
      split <;> rfl
  | resetPassword token newPassword =>
      simp only [advance] at hs
      refine ⟨_, fun u => ?_, (Option.some.inj hs).symm⟩
      rfl
  | _ => cases hs

theorem tokenStep_of_advance {i : Nat} {c : Call} {fresh : String} (hc : w.calls[i]? = some c)
    (hs : advance checkpw hashpw settings w i c fresh = some w') : TokenStep settings w w' := by
  obtain ⟨request, phase, afterLogout⟩ := c
  cases phase with
  | received =>
      cases request with
      | login email password => cases hs; exact .phase _ hc nofun nofun nofun
      | refresh token => cases hs; exact .consume hc rfl
      | logout token => cases hs; exact .logout hc rfl
      | verifyEmail token => cases hs; exact .consume hc rfl
      | resetPassword token newPassword => cases hs; exact .consume hc rfl
      | resendVerification email => cases hs; exact .phase _ hc nofun nofun nofun
      | forgotPassword email => cases hs; exact .phase _ hc nofun nofun nofun
  | lockRead locked =>
      cases request with
      | login email password => cases hs; exact .phase _ hc nofun nofun nofun
      | _ => cases hs
  | failing =>
      cases request with
      | login email password =>
          cases hs
          refine .goOn _ w.users _ hc nofun nofun nofun fun kind token => ?_
          exact ExpiringStore.incrExpireNxText_of_ne w.redis
            (loginFailKey_ne_key email kind token).symm w.now (w.now + lockoutWindow)
      | _ => cases hs
  | succeeding user =>
      cases request with
      | login email password =>
          cases hs
          refine .goOn _ w.users _ hc nofun nofun nofun fun kind token => ?_
          exact Function.update_of_ne (loginFailKey_ne_key email kind token).symm _ _
      | _ => cases hs
  | consumed userId =>
      cases request with
      | refresh token =>
          cases hs
          exact .phase _ hc nofun nofun fun _ user huser => actsOn_afterRefresh huser
      | _ =>
          obtain ⟨change, _, rfl⟩ := advance_afterConsume (fun token h => by cases h) hs
          refine .goOn _ _ w.redis hc nofun nofun (fun _ user huser => ?_) fun _ _ => rfl
          cases (actsOn_afterConsume w.users userId change).symm.trans huser
  | storing kind user =>
      obtain ⟨hfresh, hw⟩ := Option.ite_none_right_eq_some.mp hs
      cases hw
      exact .store hc rfl hfresh
  | answered answer => cases hs
  | raised => cases hs

/-- **What a step does.** -/
theorem tokenStep_of_step {e : TokenEvent}
    (hs : step checkpw hashpw settings w e = some w') : TokenStep settings w w' := by
  cases e with
  | tick t =>
      obtain ⟨_, hw⟩ := Option.ite_none_right_eq_some.mp hs
      cases hw
      exact .outside t w.users
  | write users => cases hs; exact .outside w.now users
  | arrive request => cases hs; exact .arrive request _ rfl
  | advance i fresh =>
      simp only [step] at hs
      cases hc : w.calls[i]? with
      | none => rw [hc] at hs; cases hs
      | some c => rw [hc] at hs; exact tokenStep_of_advance hc hs

/-! ## The invariant -/

/-- The `GETDEL`s that have found `token`. -/
def World.uses (w : World) (token : String) : List Consumption :=
  w.consumed.filter fun c => c.token = token

/--
An issued token is under no key of another kind. Under its own it is stored, and
nothing has found it; or it is gone, and at most one `GETDEL` has found it, which
was the right one.
-/
structure Kept (w : World) (e : Issue) : Prop where
  apart : ∀ kind, kind ≠ e.kind → w.redis (kind.key e.token) = none
  state : ((∃ t, w.redis (e.kind.key e.token) = some ⟨e.user.text, t⟩) ∧ w.uses e.token = [])
    ∨ (w.redis (e.kind.key e.token) = none
      ∧ (w.uses e.token = [] ∨ w.uses e.token = [⟨e.kind, e.token, e.user.text⟩]))

/-- A call acts on the row that its own `GETDEL` has yielded. -/
def Yielded (consumed : List Consumption) (c : Call) : Prop :=
  ∀ kind token error, c.request.takes = some (kind, token, error) →
    ∀ user, c.phase.actsOn = some user →
      ∃ userId, ⟨kind, token, userId⟩ ∈ consumed ∧ UUID.ofText? userId = some user

structure TokenInv (w : World) : Prop where
  kept : ∀ e ∈ w.issued, Kept w e
  used : ∀ c ∈ w.consumed, c.token ∈ w.presented
  asked : ∀ c ∈ w.calls, ∀ token ∈ c.request.presented, token ∈ w.presented
  yielded : ∀ c ∈ w.calls, Yielded w.consumed c
  /-- What has been logged out is gone for good. -/
  ended : ∀ token ∈ w.loggedOut, token ∈ w.presented ∧ w.redis (refreshKey token) = none
  barred : ∀ c ∈ w.calls, ∀ token, c.request = .refresh token → c.afterLogout = true →
    token ∈ w.loggedOut
      ∧ (c.phase = .received ∨ c.phase = .answered (.error invalidRefreshToken))

theorem tokenInv_init (now : Time) (redis : ExpiringStore String String Time) (users : List User) :
    TokenInv (World.init now redis users) where
  kept := fun e he => by cases he
  used := fun c hc => by cases hc
  asked := fun c hc => by cases hc
  yielded := fun c hc => by cases hc
  ended := fun token ht => by cases ht
  barred := fun c hc => by cases hc

/-- A state that says the same about the token keeps it as it was. -/
theorem Kept.congr {e : Issue} (h : Kept w e)
    (hredis : ∀ kind : TokenKind, w'.redis (kind.key e.token) = w.redis (kind.key e.token))
    (huses : w'.uses e.token = w.uses e.token) : Kept w' e := by
  refine ⟨fun kind hk => (hredis kind).trans (h.apart kind hk), ?_⟩
  rw [huses, hredis]
  exact h.state

/-- What a `GETDEL` or `DEL` of another token does to this one. -/
theorem del_key_of_ne (redis : ExpiringStore String String Time) {kind kind' : TokenKind}
    {token token' : String} (h : token' ≠ token) :
    redis.del (kind.key token) (kind'.key token') = redis (kind'.key token') :=
  Function.update_of_ne (fun hk => h (key_inj hk).2) _ _

/-- Where a key is gone, deleting any leaves it so. -/
theorem del_key_none {redis : ExpiringStore String String Time} {k : String} (h : redis k = none)
    (k' : String) : redis.del k' k = none := by
  unfold ExpiringStore.del
  by_cases hk : k = k'
  · rw [hk, Function.update_self]
  · rw [Function.update_of_ne hk, h]

/-- Deleting any token's key keeps every issued token, gone or not. -/
theorem Kept.del {e : Issue} (h : Kept w e) (kind : TokenKind) {token : String}
    (hredis : w'.redis = w.redis.del (kind.key token))
    (huses : w'.uses e.token = w.uses e.token) : Kept w' e := by
  refine ⟨fun kind' hk => ?_, ?_⟩
  · rw [hredis]
    exact del_key_none (h.apart kind' hk) _
  · rw [huses, hredis]
    by_cases hkey : e.kind.key e.token = kind.key token
    · refine Or.inr ⟨by rw [hkey]; exact ExpiringStore.del_self _ _, ?_⟩
      rcases h.state with ⟨_, hnone⟩ | ⟨_, hstate⟩
      · exact Or.inl hnone
      · exact hstate
    · rw [ExpiringStore.del, Function.update_of_ne hkey]
      exact h.state

/-- What a `GETDEL` leaves: the key is gone, and it is noted if the token was there. -/
theorem consume_cases (w : World) (i : Nat) (c : Call) (kind : TokenKind) (token : String)
    (error : HTTPException) :
    (∃ redis, redis = w.redis.del (kind.key token) ∧ w.consume i c kind token error
        = { w.setCall i { c with phase := .answered (.error error) } with redis })
      ∨ ∃ userId t, w.redis (kind.key token) = some ⟨userId, t⟩
          ∧ w.consume i c kind token error
            = { w.setCall i { c with phase := .consumed userId } with
                redis := w.redis.del (kind.key token)
                consumed := ⟨kind, token, userId⟩ :: w.consumed } := by
  unfold World.consume
  cases hget : w.redis.get w.now (kind.key token) with
  | none => exact Or.inl ⟨_, rfl, rfl⟩
  | some userId =>
      dsimp only
      by_cases hempty : userId = ""
      · rw [if_pos hempty]
        exact Or.inl ⟨_, rfl, rfl⟩
      · rw [if_neg hempty]
        obtain ⟨entry, hlive, rfl⟩ := Option.map_eq_some_iff.mp hget
        exact Or.inr ⟨entry.value, entry.expiresAt, ExpiringStore.live_eq_of_some hlive, rfl⟩

theorem kept_consume {e : Issue} (h : Kept w e) (i : Nat) (c : Call) (kind : TokenKind)
    (token : String) (error : HTTPException) : Kept (w.consume i c kind token error) e := by
  rcases consume_cases w i c kind token error with ⟨redis, rfl, heq⟩ | ⟨userId, t, hstored, heq⟩
  · rw [heq]
    exact h.del _ rfl rfl
  · rw [heq]
    by_cases htoken : e.token = token
    · subst htoken
      -- it is found under the key of its kind, so it was there, and is its user's
      have hkind : kind = e.kind := by
        by_contra hne
        rw [h.apart kind hne] at hstored
        cases hstored
      subst hkind
      rcases h.state with ⟨⟨t', hentry⟩, hnone⟩ | ⟨hgone, _⟩
      · rw [hentry, Option.some.injEq, Expiring.mk.injEq] at hstored
        obtain ⟨huser, _⟩ := hstored
        refine ⟨fun kind' hk => del_key_none (h.apart kind' hk) _,
          Or.inr ⟨ExpiringStore.del_self _ _, Or.inr ?_⟩⟩
        unfold World.uses at hnone ⊢
        rw [List.filter_cons_of_pos (by simp), hnone, huser]
      · rw [hgone] at hstored
        cases hstored
    · refine h.congr (fun kind' => del_key_of_ne w.redis htoken) ?_
      unfold World.uses
      exact List.filter_cons_of_neg (by simpa using Ne.symm htoken)

theorem kept_store {e : Issue} (h : Kept w e) (i : Nat) (c : Call) (kind : TokenKind) (user : UUID)
    {fresh : String} (hne : e.token ≠ fresh) : Kept (w.store settings i c kind user fresh) e :=
  h.congr (fun _ => ExpiringStore.put_of_ne w.redis (fun hk => hne (key_inj hk).2) _ _) rfl

/-- A new token is stored, and nothing has found it. -/
theorem kept_new (hused : ∀ c ∈ w.consumed, c.token ∈ w.presented) (i : Nat) (c : Call)
    (kind : TokenKind) (user : UUID) {fresh : String} (hfresh : w.Fresh fresh) :
    Kept (w.store settings i c kind user fresh) ⟨kind, fresh, user⟩ := by
  refine ⟨fun kind' hk => ?_, Or.inl ⟨⟨_, ExpiringStore.put_self ..⟩, ?_⟩⟩
  · have hnone := hfresh.2.2 kind' (by cases kind' <;> simp)
    exact (ExpiringStore.put_of_ne w.redis (fun heq => hk (key_inj heq).1) _ _).trans hnone
  · refine List.filter_eq_nil_iff.mpr fun use huse => ?_
    have hpresented := hused use huse
    intro htoken
    rw [of_decide_eq_true htoken] at hpresented
    exact hfresh.1 hpresented

theorem kept_step (h : TokenInv w) (hs : TokenStep settings w w') : ∀ e ∈ w'.issued, Kept w' e := by
  cases hs with
  | outside now users => exact fun e he => (h.kept e he).congr (fun _ => rfl) rfl
  | arrive request afterLogout _ => exact fun e he => (h.kept e he).congr (fun _ => rfl) rfl
  | goOn phase users redis hc hopen hother hacts hsame =>
      exact fun e he => (h.kept e he).congr (fun kind => hsame kind e.token) rfl
  | consume hc htakes =>
      intro e he
      refine kept_consume (h.kept e ?_) _ _ _ _ _
      rcases consume_cases w _ _ _ _ _ with ⟨redis, rfl, heq⟩ | ⟨userId, t, _, heq⟩
      · rw [heq] at he
        exact he
      · rw [heq] at he
        exact he
  | logout hc hrequest =>
      exact fun e he => (h.kept e he).del .refresh rfl rfl
  | store hc hphase hfresh =>
      intro e he
      rcases List.mem_cons.mp he with rfl | he
      · exact kept_new h.used _ _ _ _ hfresh
      · exact kept_store (h.kept e he) _ _ _ _ (hfresh.2.1 e he)

/-- The token a request takes is one it presents. -/
theorem presented_of_takes {request : TokenCall} {kind : TokenKind} {token : String}
    {error : HTTPException} (h : request.takes = some (kind, token, error)) :
    request.presented = some token := by
  cases request <;> cases h <;> rfl

theorem used_step (h : TokenInv w) (hs : TokenStep settings w w') :
    ∀ use ∈ w'.consumed, use.token ∈ w'.presented := by
  cases hs with
  | outside now users => exact h.used
  | arrive request afterLogout _ =>
      exact fun use huse => List.mem_append_right _ (h.used use huse)
  | goOn phase users redis hc hopen hother hacts hsame => exact h.used
  | consume hc htakes =>
      rcases consume_cases w _ _ _ _ _ with ⟨redis, rfl, heq⟩ | ⟨userId, t, _, heq⟩
      · rw [heq]
        exact h.used
      · rw [heq]
        intro use huse
        rcases List.mem_cons.mp huse with rfl | huse
        · exact h.asked _ (List.mem_of_getElem? hc) _ (presented_of_takes htakes)
        · exact h.used use huse
  | logout hc hrequest => exact h.used
  | store hc hphase hfresh => exact h.used

/-- A step of a call changes its phase only, so what its request says stays. -/
theorem forall_setCall {P : TokenCall → Prop} (h : ∀ c ∈ w.calls, P c.request) {i : Nat} {c : Call}
    (hc : w.calls[i]? = some c) (phase : CallPhase) :
    ∀ c' ∈ w.calls.set i { c with phase }, P c'.request :=
  forall_mem_set (P := fun c' : Call => P c'.request) h i (h c (List.mem_of_getElem? hc))

theorem consume_calls (w : World) (i : Nat) (c : Call) (kind : TokenKind) (token : String)
    (error : HTTPException) :
    ∃ phase, (w.consume i c kind token error).calls = w.calls.set i { c with phase }
      ∧ (w.consume i c kind token error).presented = w.presented
      ∧ (w.consume i c kind token error).loggedOut = w.loggedOut := by
  rcases consume_cases w i c kind token error with ⟨redis, rfl, heq⟩ | ⟨userId, t, _, heq⟩
  · exact ⟨_, by rw [heq]; rfl, by rw [heq]; rfl, by rw [heq]; rfl⟩
  · exact ⟨_, by rw [heq]; rfl, by rw [heq]; rfl, by rw [heq]; rfl⟩

theorem consume_users (w : World) (i : Nat) (c : Call) (kind : TokenKind) (token : String)
    (error : HTTPException) : (w.consume i c kind token error).users = w.users := by
  rcases consume_cases w i c kind token error with ⟨redis, _, heq⟩ | ⟨userId, t, _, heq⟩
  · rw [heq]
    rfl
  · rw [heq]
    rfl

theorem asked_step (h : TokenInv w) (hs : TokenStep settings w w') :
    ∀ c ∈ w'.calls, ∀ token ∈ c.request.presented, token ∈ w'.presented := by
  cases hs with
  | outside now users => exact h.asked
  | arrive request afterLogout _ =>
      intro c hc token htoken
      rcases List.mem_append.mp hc with hc | hc
      · exact List.mem_append_right _ (h.asked c hc token htoken)
      · rw [List.mem_singleton.mp hc] at htoken
        exact List.mem_append_left _ (Option.mem_toList.mpr htoken)
  | goOn phase users redis hc hopen hother hacts hsame =>
      exact forall_setCall (P := fun r => ∀ token ∈ r.presented, token ∈ w.presented) h.asked hc _
  | consume hc htakes =>
      obtain ⟨phase, hcalls, hpresented, _⟩ := consume_calls w _ _ _ _ _
      rw [hcalls, hpresented]
      exact forall_setCall (P := fun r => ∀ token ∈ r.presented, token ∈ w.presented) h.asked hc _
  | logout hc hrequest =>
      exact forall_setCall (P := fun r => ∀ token ∈ r.presented, token ∈ w.presented) h.asked hc _
  | store hc hphase hfresh =>
      exact forall_setCall (P := fun r => ∀ token ∈ r.presented, token ∈ w.presented) h.asked hc _

theorem Yielded.mono {consumed : List Consumption} {c : Call} (h : Yielded consumed c)
    (use : Consumption) : Yielded (use :: consumed) c := by
  intro kind token error htakes user hacts
  obtain ⟨userId, hmem, hid⟩ := h kind token error htakes user hacts
  exact ⟨userId, List.mem_cons_of_mem _ hmem, hid⟩

/-- A call that is done acts on nothing. -/
theorem yielded_of_none {consumed : List Consumption} {c : Call} (h : c.phase.actsOn = none) :
    Yielded consumed c := by
  intro kind token error _ user hacts
  rw [h] at hacts
  cases hacts

theorem yielded_step (h : TokenInv w) (hs : TokenStep settings w w') :
    ∀ c ∈ w'.calls, Yielded w'.consumed c := by
  cases hs with
  | outside now users => exact h.yielded
  | arrive request afterLogout _ =>
      intro c hc
      rcases List.mem_append.mp hc with hc | hc
      · exact h.yielded c hc
      · rw [List.mem_singleton.mp hc]
        exact yielded_of_none rfl
  | goOn phase users redis hc hopen hother hacts hsame =>
      refine forall_mem_set h.yielded _ fun kind token error htakes user huser => ?_
      refine h.yielded _ (List.mem_of_getElem? hc) kind token error htakes user ?_
      exact hacts (Option.isSome_of_eq_some htakes) user huser
  | @consume i c kind token error hc htakes =>
      rcases consume_cases w i c kind token error with ⟨redis, rfl, heq⟩ | ⟨userId, t, _, heq⟩
      · rw [heq]
        exact forall_mem_set h.yielded i (yielded_of_none rfl)
      · rw [heq]
        -- what it acts on is what has just been noted
        refine forall_mem_set (fun c' hc' => (h.yielded c' hc').mono _) i ?_
        intro kind' token' error' htakes' user huser
        obtain ⟨rfl, rfl, rfl⟩ : kind = kind' ∧ token = token' ∧ error = error' := by
          have hsame := Option.some.inj (htakes.symm.trans htakes')
          exact ⟨congrArg Prod.fst hsame, congrArg (fun t => t.2.1) hsame,
            congrArg (fun t => t.2.2) hsame⟩
        exact ⟨userId, List.mem_cons_self, huser⟩
  | logout hc hrequest => exact forall_mem_set h.yielded _ (yielded_of_none rfl)
  | store hc hphase hfresh => exact forall_mem_set h.yielded _ (yielded_of_none rfl)

theorem ended_step (h : TokenInv w) (hs : TokenStep settings w w') :
    ∀ token ∈ w'.loggedOut, token ∈ w'.presented ∧ w'.redis (refreshKey token) = none := by
  cases hs with
  | outside now users => exact h.ended
  | arrive request afterLogout _ =>
      exact fun token ht => ⟨List.mem_append_right _ (h.ended token ht).1, (h.ended token ht).2⟩
  | goOn phase users redis hc hopen hother hacts hsame =>
      exact fun token ht =>
        ⟨(h.ended token ht).1, (hsame .refresh token).trans (h.ended token ht).2⟩
  | consume hc htakes =>
      rcases consume_cases w _ _ _ _ _ with ⟨redis, rfl, heq⟩ | ⟨userId, t, _, heq⟩
      · rw [heq]
        exact fun token ht => ⟨(h.ended token ht).1, del_key_none (h.ended token ht).2 _⟩
      · rw [heq]
        exact fun token ht => ⟨(h.ended token ht).1, del_key_none (h.ended token ht).2 _⟩
  | logout hc hrequest =>
      intro token ht
      rcases List.mem_cons.mp ht with rfl | ht
      · refine ⟨h.asked _ (List.mem_of_getElem? hc) _ ?_, ExpiringStore.del_self _ _⟩
        rw [hrequest]
        rfl
      · exact ⟨(h.ended token ht).1, del_key_none (h.ended token ht).2 _⟩
  | @store i c kind user fresh hc hphase hfresh =>
      -- what is stored is a string that no logout has presented
      intro token ht
      have hne : token ≠ fresh := by
        rintro rfl
        exact hfresh.1 (h.ended token ht).1
      have hkey : TokenKind.refresh.key token ≠ kind.key fresh := fun hk => hne (key_inj hk).2
      refine ⟨(h.ended token ht).1, ?_⟩
      exact (ExpiringStore.put_of_ne w.redis hkey _ _).trans (h.ended token ht).2

/-- A refresh that a logout has barred has not got anywhere. -/
def Barred (loggedOut : List String) (c : Call) : Prop :=
  ∀ token, c.request = .refresh token → c.afterLogout = true →
    token ∈ loggedOut ∧ (c.phase = .received ∨ c.phase = .answered (.error invalidRefreshToken))

theorem Barred.mono {loggedOut : List String} {c : Call} (h : Barred loggedOut c) (token : String) :
    Barred (token :: loggedOut) c :=
  fun t hr ha => ⟨List.mem_cons_of_mem _ (h t hr ha).1, (h t hr ha).2⟩

/-- A call that goes on is not one of them. -/
theorem Barred.goOn {loggedOut : List String} {c : Call} (h : Barred loggedOut c)
    (hopen : ∀ answer, c.phase ≠ .answered answer)
    (hother : c.phase = .received → ∀ token, c.request ≠ .refresh token) (phase : CallPhase) :
    Barred loggedOut { c with phase } := by
  intro token hr ha
  rcases (h token hr ha).2 with hp | hp
  · exact absurd hr (hother hp token)
  · exact absurd hp (hopen _)

theorem barred_step (h : TokenInv w) (hs : TokenStep settings w w') :
    ∀ c ∈ w'.calls, Barred w'.loggedOut c := by
  have hbarred : ∀ c ∈ w.calls, Barred w.loggedOut c := h.barred
  cases hs with
  | outside now users => exact hbarred
  | arrive request afterLogout hafter =>
      intro c hc
      rcases List.mem_append.mp hc with hc | hc
      · exact hbarred c hc
      · rw [List.mem_singleton.mp hc]
        intro token hr ha
        refine ⟨?_, Or.inl rfl⟩
        rw [hafter, decide_eq_true_iff] at ha
        obtain ⟨t, ht, hmem⟩ := ha
        change request = _ at hr
        rw [hr] at ht
        cases ht
        exact hmem
  | goOn phase users redis hc hopen hother hacts hsame =>
      exact forall_mem_set hbarred _ ((hbarred _ (List.mem_of_getElem? hc)).goOn hopen hother phase)
  | @consume i c kind token error hc htakes =>
      have hthis := hbarred c (List.mem_of_getElem? hc)
      rcases consume_cases w i c kind token error with ⟨redis, rfl, heq⟩ | ⟨userId, _, hstored, heq⟩
      · rw [heq]
        refine forall_mem_set hbarred i fun t hr ha => ⟨(hthis t hr ha).1, Or.inr ?_⟩
        change c.request = _ at hr
        rw [hr] at htakes
        cases htakes
        rfl
      · rw [heq]
        -- the token of a barred refresh is not there to be found
        refine forall_mem_set hbarred i fun t hr ha => ?_
        change c.request = _ at hr
        have hgone : w.redis (TokenKind.refresh.key t) = none := (h.ended t (hthis t hr ha).1).2
        rw [hr] at htakes
        cases htakes
        rw [hgone] at hstored
        cases hstored
  | logout hc hrequest =>
      refine forall_mem_set (fun c' hc' => (hbarred c' hc').mono _) _ fun t hr _ => ?_
      rw [show _ = _ from hrequest] at hr
      cases hr
  | @store i c kind user fresh hc hphase hfresh =>
      refine forall_mem_set hbarred i ((hbarred c (List.mem_of_getElem? hc)).goOn ?_ ?_ _)
      · rw [hphase]
        nofun
      · rw [hphase]
        nofun

/-- **The invariant is preserved by every step.** -/
theorem tokenInv_step {e : TokenEvent} (h : TokenInv w)
    (hs : step checkpw hashpw settings w e = some w') : TokenInv w' := by
  have hstep := tokenStep_of_step hs
  exact ⟨kept_step h hstep, used_step h hstep, asked_step h hstep, yielded_step h hstep,
    ended_step h hstep, barred_step h hstep⟩

/-- What a `GETDEL` that has found an issued token yielded. -/
theorem rightly_of_inv (h : TokenInv w) {e : Issue} (he : e ∈ w.issued) {c : Consumption}
    (hc : c ∈ w.consumed) (htoken : c.token = e.token) :
    c.endpoint = e.kind ∧ UUID.ofText? c.userId = some e.user := by
  have hmem : c ∈ w.uses e.token := List.mem_filter.mpr ⟨hc, by simpa using htoken⟩
  rcases (h.kept e he).state with ⟨_, hnone⟩ | ⟨_, hnone | hone⟩
  · rw [hnone] at hmem
    cases hmem
  · rw [hnone] at hmem
    cases hmem
  · rw [hone, List.mem_singleton] at hmem
    rw [hmem]
    exact ⟨rfl, UUID.ofText?_text e.user⟩

theorem singleUse_of_inv (h : TokenInv w) : SingleUse w where
  once := by
    intro e he
    rw [List.countP_eq_length_filter]
    rcases (h.kept e he).state with ⟨_, hnone⟩ | ⟨_, hnone | hone⟩
    · exact (congrArg List.length hnone).trans_le (Nat.zero_le 1)
    · exact (congrArg List.length hnone).trans_le (Nat.zero_le 1)
    · exact (congrArg List.length hone).le
  rightly := fun e he c hc => rightly_of_inv h he hc
  actsRightly := by
    intro e he c hc kind error htakes user hacts
    obtain ⟨userId, hmem, hid⟩ := h.yielded c hc kind e.token error htakes user hacts
    exact Option.some.inj (hid.symm.trans (rightly_of_inv h he hmem rfl).2)
  revoked := by
    intro c hc token hr ha answer hanswer
    rcases (h.barred c hc token hr ha).2 with hp | hp
    · rw [hp] at hanswer
      cases hanswer
    · rw [hp] at hanswer
      cases hanswer
      rfl

/-! ## What a call writes -/

theorem find?_updateUser_of_ne {uid uid' : UUID} (hne : uid ≠ uid') {change : User → User}
    (hid : ∀ u, (change u).id = u.id) (users : List User) :
    (updateUser uid change users).find? (fun u => u.id = uid')
      = users.find? fun u => u.id = uid' := by
  induction users with
  | nil => rfl
  | cons u users ih =>
      have hsame : ∀ u : User, decide ((if u.id = uid then change u else u).id = uid')
          = decide (u.id = uid') := by
        intro u
        split
        · rw [hid]
        · rfl
      rw [updateUser, List.map_cons, List.find?_cons, List.find?_cons, hsame]
      by_cases hu : u.id = uid'
      · rw [decide_eq_true hu, if_neg fun h => hne (h.symm.trans hu)]
      · rw [decide_eq_false hu]
        exact ih

theorem find?_afterConsume {users : List User} {userId : String} {change : User → User}
    (hid : ∀ u, (change u).id = u.id) {uid : UUID}
    (hne : (CallPhase.consumed userId).actsOn ≠ some uid) :
    (afterConsume users userId change).2.find? (fun u => u.id = uid)
      = users.find? fun u => u.id = uid := by
  unfold afterConsume
  cases howner : owner users userId with
  | none => rfl
  | some user =>
      refine find?_updateUser_of_ne (fun heq => hne ?_) hid users
      obtain ⟨uid', htext, hrow⟩ := Option.bind_eq_some_iff.mp howner
      have hid : user.id = uid' := by simpa using List.find?_some hrow
      rw [CallPhase.actsOn, htext, ← heq, hid]

/-- **A step of a call writes no row but the one it acts on.** -/
theorem advance_others {i : Nat} {c : Call} {fresh : String}
    (hs : advance checkpw hashpw settings w i c fresh = some w') {uid : UUID}
    (hne : c.phase.actsOn ≠ some uid) :
    w'.users.find? (fun u => u.id = uid) = w.users.find? fun u => u.id = uid := by
  obtain ⟨request, phase, afterLogout⟩ := c
  cases phase with
  | received =>
      cases request with
      | refresh token =>
          cases hs
          rw [consume_users]
      | verifyEmail token =>
          cases hs
          rw [consume_users]
      | resetPassword token newPassword =>
          cases hs
          rw [consume_users]
      | login email password => cases hs; rfl
      | logout token => cases hs; rfl
      | resendVerification email => cases hs; rfl
      | forgotPassword email => cases hs; rfl
  | lockRead locked =>
      cases request with
      | login email password => cases hs; rfl
      | _ => cases hs
  | failing =>
      cases request with
      | login email password => cases hs; rfl
      | _ => cases hs
  | succeeding user =>
      cases request with
      | login email password => cases hs; rfl
      | _ => cases hs
  | consumed userId =>
      cases request with
      | refresh token => cases hs; rfl
      | _ =>
          obtain ⟨change, hid, rfl⟩ := advance_afterConsume (fun token h => by cases h) hs
          dsimp only
          exact find?_afterConsume hid hne
  | storing kind user =>
      obtain ⟨_, hw⟩ := Option.ite_none_right_eq_some.mp hs
      cases hw
      rfl
  | answered answer => cases hs
  | raised => cases hs

/--
**Opaque tokens are used once.**

For every Redis and table the run finds, every bcrypt, every lifetime, and every
interleaving of the steps of any number of requests, with the clock and the table
moving in between.
-/
theorem singleUse_always (checkpw : String → String → Bool) (hashpw : String → String)
    (settings : TokenSettings) (now : Time) (redis : ExpiringStore String String Time)
    (users : List User) (es : List TokenEvent) :
    Always (step checkpw hashpw settings) SingleUse (World.init now redis users) es :=
  always_of_invariant (fun _ _ _ h _ hs => tokenInv_step h hs) (fun _ => singleUse_of_inv)
    (tokenInv_init now redis users) (meets_true _ _)

end Microservices.Users.OpaqueTokens
