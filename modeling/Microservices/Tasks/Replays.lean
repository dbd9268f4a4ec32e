import Microservices.Lib.Slots
import Microservices.Tasks.ReplayStore

/-!
# Replays are faithful, and the store harmless

Every entry in Redis is the text of a 201 that has been sent, for the caller and key
of its Redis key, and for a row that has been committed. A lookup that hits reads
that text back. The invariant of a run says so of every entry, and of every request
what its phase has come from.

Without its keys a run is a run again: what the requests do in Redis is left out, and
so are those that are answered with a replay. Nothing else is different.
-/

namespace Microservices.Tasks

open Schedule Slots

variable {time : AwareDatetime → String} {w w' : PostWorld} {i : Nat} {r : Post}

/-! ## Keys -/

/-- **Redis keys are told apart by the caller and the effective key.** -/
theorem makeKey_eq_iff (c c' : UUID) (k k' : String) :
    makeKey c k = makeKey c' k' ↔ c = c' ∧ effectiveKey k = effectiveKey k' := by
  have htext : ∀ (c : UUID) (k : String), (makeKey c k).toList
      = "idempotency:".toList ++ (c.text.toList ++ ':' :: effectiveKey k) := by
    intro c k
    simp only [makeKey, String.toList_append, String.toList_ofList, List.append_assoc]
    rfl
  constructor
  · intro h
    have hlists := congrArg String.toList h
    rw [htext, htext] at hlists
    -- all UUIDs are of one length
    have hlength : c.text.toList.length = c'.text.toList.length := by
      rw [UUID.length_text, UUID.length_text]
    obtain ⟨huuid, hkey⟩ := List.append_inj (List.append_cancel_left hlists) hlength
    exact ⟨UUID.text_injective (String.toList_injective huuid), (List.cons_eq_cons.mp hkey).2⟩
  · rintro ⟨rfl, h⟩
    refine String.toList_injective ?_
    rw [htext, htext, h]

/-! ## Entries -/

theorem readable_jsonOption {α : Type} (f : α → String) (o : Option α) :
    (jsonOption f o).readable = true := by
  cases o <;> rfl

theorem readable_createdBody (time : AwareDatetime → String) (t : Task) :
    (createdBody time t).readable = true := by
  simp [createdBody, TaskResponse.modelDump, Json.readable, Json.readableMembers,
    readable_jsonOption]

/-- **A cached body reads back.** -/
theorem readEntry_entryText (time : AwareDatetime → String) (t : Task) :
    readEntry (entryText 201 (createdBody time t)) = some (.int 201, createdBody time t) := by
  have hreadable : (Json.obj [("status_code", .int 201), ("body", createdBody time t)]).readable
      = true := by
    simp only [Json.readable, Json.readableMembers, readable_createdBody]
    decide
  rw [readEntry, entryText, String.toList_ofList, Json.loadsText_dumps hreadable]
  rfl

/-! ## The invariant -/

theorem Reply.Fresh.mono {commits commits' : List (Nat × Task)} {f : Reply} {body : Json}
    (h : f.Fresh time commits body) (hsub : ∀ c ∈ commits, c ∈ commits') :
    f.Fresh time commits' body := by
  obtain ⟨hanswer, t, ht, hbody⟩ := h
  exact ⟨hanswer, t, hsub _ ht, hbody⟩

/-- A fresh 201 for this caller and key has been sent with this body. -/
def Repeats (time : AwareDatetime → String) (w : PostWorld) (callerId : UUID) (key : Option String)
    (statusCode : Int) (body : Json) : Prop :=
  statusCode = 201 ∧ ∃ f ∈ w.replies, f.Fresh time w.commits body ∧ f.For callerId key

/-- What a request must have come from to be in a phase. -/
def Owes (time : AwareDatetime → String) (w : PostWorld) (i : Nat) (r : Post) : PostPhase → Prop
  | .committed t => (i, t) ∈ w.commits
  | .responded t | .published t | .storePinging t | .storeConnected t =>
      (i, t) ∈ w.commits
        ∧ ⟨i, r.callerId, r.key, .created 201 (createdBody time t) false⟩ ∈ w.replies
  | .replaying statusCode body => Repeats time w r.callerId r.key statusCode body
  | _ => True

/-- The entry is the text of a fresh 201, under its Redis key. -/
def Stems (time : AwareDatetime → String) (w : PostWorld) (key raw : String) : Prop :=
  ∃ f ∈ w.replies, ∃ k t, f.Fresh time w.commits (createdBody time t) ∧ f.key = some k
    ∧ key = makeKey f.callerId k ∧ raw = entryText 201 (createdBody time t)

structure PostInv (time : AwareDatetime → String) (w : PostWorld) : Prop where
  stored : ∀ key raw, w.redis key = some raw → Stems time w key raw
  posts : ∀ i r, w.posts[i]? = some r → Owes time w i r r.phase
  faithful : FaithfulReplays time w

theorem postInv_init (projects : List Project) : PostInv time { projects := projects } where
  stored := nofun
  posts := by
    intro i r h
    cases h
  faithful := by
    intro before r later h
    exact absurd (congrArg List.length h) (by simp)

/-- What is recorded stays recorded. -/
structure Records (w w' : PostWorld) : Prop where
  commits : ∀ c ∈ w.commits, c ∈ w'.commits
  replies : ∀ f ∈ w.replies, f ∈ w'.replies

theorem Owes.mono {phase : PostPhase} (h : Owes time w i r phase) (hw : Records w w') :
    Owes time w' i r phase := by
  cases phase with
  | committed t => exact hw.commits _ h
  | responded t => exact ⟨hw.commits _ h.1, hw.replies _ h.2⟩
  | published t => exact ⟨hw.commits _ h.1, hw.replies _ h.2⟩
  | storePinging t => exact ⟨hw.commits _ h.1, hw.replies _ h.2⟩
  | storeConnected t => exact ⟨hw.commits _ h.1, hw.replies _ h.2⟩
  | replaying statusCode body =>
      obtain ⟨hstatus, f, hf, hfresh, hfor⟩ := h
      exact ⟨hstatus, f, hw.replies _ hf, hfresh.mono hw.commits, hfor⟩
  | _ => trivial

theorem Stems.mono {key raw : String} (h : Stems time w key raw) (hw : Records w w') :
    Stems time w' key raw := by
  obtain ⟨f, hf, k, t, hfresh, hkey⟩ := h
  exact ⟨f, hw.replies _ hf, k, t, hfresh.mono hw.commits, hkey⟩

/-- The replies stay faithful with one more that is no replay, or repeats one of them. -/
theorem FaithfulReplays.append {x : Reply} (h : FaithfulReplays time w) (hw : Records w w')
    (hreplies : w'.replies = w.replies ++ [x])
    (hx : ∀ statusCode body, x.answer = .created statusCode body true →
      Repeats time w x.callerId x.key statusCode body) : FaithfulReplays time w' := by
  intro before r later heq statusCode body hanswer
  rw [hreplies] at heq
  rcases List.eq_nil_or_concat later with rfl | ⟨later, y, rfl⟩
  · -- it is the new one
    obtain ⟨rfl, hr⟩ := List.append_inj' heq rfl
    cases hr
    obtain ⟨hstatus, f, hf, hfresh, hfor⟩ := hx statusCode body hanswer
    exact ⟨hstatus, f, hf, hfresh.mono hw.commits, hfor⟩
  · rw [List.concat_eq_append, ← List.cons_append, ← List.append_assoc] at heq
    obtain ⟨hold, _⟩ := List.append_inj' heq rfl
    obtain ⟨hstatus, f, hf, hfresh, hfor⟩ := h before r later hold statusCode body hanswer
    exact ⟨hstatus, f, hf, hfresh.mono hw.commits, hfor⟩

theorem FaithfulReplays.congr (h : FaithfulReplays time w) (hw : Records w w')
    (hreplies : w'.replies = w.replies) : FaithfulReplays time w' := by
  intro before r later heq statusCode body hanswer
  rw [hreplies] at heq
  obtain ⟨hstatus, f, hf, hfresh, hfor⟩ := h before r later heq statusCode body hanswer
  exact ⟨hstatus, f, hf, hfresh.mono hw.commits, hfor⟩

/-- Request `i` moves to the phase `p`. -/
structure Moved (time : AwareDatetime → String) (w w' : PostWorld) (i : Nat) (r : Post) (p : PostPhase) :
    Prop where
  posts : w'.posts = w.posts.set i { r with phase := p }
  commits : ∀ c ∈ w.commits, c ∈ w'.commits
  owes : Owes time w' i r p

/-- A move that sends nothing and leaves Redis alone. -/
theorem PostInv.quiet {p : PostPhase} (h : PostInv time w) (hm : Moved time w w' i r p)
    (hredis : w'.redis = w.redis) (hreplies : w'.replies = w.replies) : PostInv time w' where
  stored := by
    intro key raw hraw
    rw [hredis] at hraw
    exact (h.stored key raw hraw).mono ⟨hm.commits, by rw [hreplies]; exact fun _ hf => hf⟩
  posts := by
    intro j x hx
    rw [hm.posts] at hx
    rcases getElem?_set_cases hx with ⟨rfl, rfl⟩ | ⟨_, hx⟩
    · exact hm.owes
    · exact (h.posts j x hx).mono ⟨hm.commits, by rw [hreplies]; exact fun _ hf => hf⟩
  faithful := h.faithful.congr ⟨hm.commits, by rw [hreplies]; exact fun _ hf => hf⟩ hreplies

/-- A move that sends a response. -/
theorem PostInv.reply {p : PostPhase} {answer : PostAnswer} (h : PostInv time w)
    (hm : Moved time w w' i r p) (hredis : w'.redis = w.redis)
    (hreplies : w'.replies = w.replies ++ [⟨i, r.callerId, r.key, answer⟩])
    (hanswer : ∀ statusCode body, answer = .created statusCode body true →
      Repeats time w r.callerId r.key statusCode body) : PostInv time w' := by
  have hrecords : Records w w' :=
    ⟨hm.commits, by rw [hreplies]; exact fun _ hf => List.mem_append_left _ hf⟩
  refine ⟨?_, ?_, h.faithful.append hrecords hreplies hanswer⟩
  · intro key raw hraw
    rw [hredis] at hraw
    exact (h.stored key raw hraw).mono hrecords
  · intro j x hx
    rw [hm.posts] at hx
    rcases getElem?_set_cases hx with ⟨rfl, rfl⟩ | ⟨_, hx⟩
    · exact hm.owes
    · exact (h.posts j x hx).mono hrecords

/-- An answer that is no 201 owes nothing and repeats nothing. -/
theorem PostInv.refuse {answer : PostAnswer} (h : PostInv time w)
    (hanswer : answer.isReplay = false) : PostInv time (w.reply i r answer .ended) := by
  refine h.reply ⟨rfl, fun _ hc => hc, trivial⟩ rfl rfl ?_
  rintro statusCode body rfl
  cases hanswer

/-! ## Every step -/

theorem inv_askRedis (h : PostInv time w) (hi : w.posts[i]? = some r)
    (hs : w.askRedis i r = some w') : PostInv time w' := by
  have howes := h.posts i r hi
  unfold PostWorld.askRedis at hs
  split at hs
  · cases hs
    refine h.quiet ⟨rfl, fun _ hc => hc, ?_⟩ rfl rfl
    split <;> trivial
  · rename_i t _ hphase _
    rw [hphase] at howes
    cases hs
    refine h.quiet ⟨rfl, fun _ hc => hc, ?_⟩ rfl rfl
    split <;> exact howes
  · cases hs

theorem inv_ping {answered : Bool} (h : PostInv time w) (hi : w.posts[i]? = some r)
    (hs : w.ping i r answered = some w') : PostInv time w' := by
  have howes := h.posts i r hi
  unfold PostWorld.ping at hs
  dsimp only at hs
  split at hs
  · cases hs
    refine h.quiet ⟨rfl, fun _ hc => hc, ?_⟩ rfl rfl
    split <;> trivial
  · rename_i t hphase
    rw [hphase] at howes
    cases hs
    refine h.quiet ⟨rfl, fun _ hc => hc, ?_⟩ rfl rfl
    split
    · exact howes
    · trivial
  · cases hs

/-- What a lookup finds, it can read, and it repeats a fresh 201. -/
theorem readEntry_of_inv (h : PostInv time w) {k : String} {statusCode body : Json}
    (hkey : r.key = some k)
    (hread : (w.redis (makeKey r.callerId k)).bind readEntry = some (statusCode, body)) :
    statusCode = .int 201 ∧ Repeats time w r.callerId r.key 201 body := by
  obtain ⟨raw, hraw, hentry⟩ := Option.bind_eq_some_iff.mp hread
  obtain ⟨f, hf, k', t, hfresh, hfkey, hmake, rfl⟩ := h.stored _ _ hraw
  rw [readEntry_entryText] at hentry
  cases hentry
  obtain ⟨hcaller, heffective⟩ := (makeKey_eq_iff _ _ _ _).mp hmake
  exact ⟨rfl, rfl, f, hf, hfresh, hcaller.symm, k', k, hfkey, hkey, heffective.symm⟩

theorem inv_get {answered : Bool} (h : PostInv time w)
    (hs : w.get i r answered = some w') : PostInv time w' := by
  unfold PostWorld.get at hs
  split at hs
  · rename_i k _ hkey
    split at hs
    · split at hs
      · cases hs
        exact h.quiet ⟨rfl, fun _ hc => hc, trivial⟩ rfl rfl
      · rename_i statusCode body hread
        obtain ⟨hstatus, hrepeats⟩ := readEntry_of_inv h hkey hread
        cases hstatus
        cases hs
        exact h.quiet ⟨rfl, fun _ hc => hc, hrepeats⟩ rfl rfl
      · cases hs
        exact h.refuse rfl
    · cases hs
      exact h.quiet ⟨rfl, fun _ hc => hc, trivial⟩ rfl rfl
  · cases hs

theorem inv_replay (h : PostInv time w) (hi : w.posts[i]? = some r)
    (hs : w.replay i r = some w') : PostInv time w' := by
  have howes := h.posts i r hi
  unfold PostWorld.replay at hs
  split at hs
  · rename_i statusCode body hphase
    rw [hphase] at howes
    cases hs
    refine h.reply ⟨rfl, fun _ hc => hc, trivial⟩ rfl rfl ?_
    intro statusCode' body' heq
    cases heq
    exact howes
  · cases hs

theorem inv_checkProject (h : PostInv time w) (hs : w.checkProject i r = some w') :
    PostInv time w' := by
  unfold PostWorld.checkProject at hs
  split at hs
  · split at hs
    · cases hs
      exact h.quiet ⟨rfl, fun _ hc => hc, trivial⟩ rfl rfl
    · cases hs
      exact h.refuse rfl
  · cases hs

theorem inv_flush {id : UUID} {now : Timestamp} (h : PostInv time w)
    (hs : w.flush i r id now = some w') : PostInv time w' := by
  unfold PostWorld.flush at hs
  split at hs
  · split at hs
    · cases hs
      exact h.quiet ⟨rfl, fun _ hc => hc, trivial⟩ rfl rfl
    · cases hs
  · cases hs

theorem inv_commit {outcome : CommitOutcome} (h : PostInv time w)
    (hs : w.commit i r outcome = some w') : PostInv time w' := by
  unfold PostWorld.commit at hs
  split at hs
  · rename_i t _
    split at hs
    · cases hs
      exact h.quiet ⟨rfl, fun _ hc => List.mem_append_left _ hc,
        List.mem_append_right _ (List.mem_singleton_self _)⟩ rfl rfl
    · cases hs
      exact h.refuse rfl
    · cases hs
      exact h.reply ⟨rfl, fun _ hc => List.mem_append_left _ hc, trivial⟩ rfl rfl nofun
  · cases hs

theorem inv_respond (h : PostInv time w) (hi : w.posts[i]? = some r)
    (hs : w.respond time i r = some w') : PostInv time w' := by
  have howes := h.posts i r hi
  unfold PostWorld.respond at hs
  split at hs
  · rename_i t hphase
    rw [hphase] at howes
    cases hs
    exact h.reply ⟨rfl, fun _ hc => hc, howes, List.mem_append_right _ (List.mem_singleton_self _)⟩
      rfl rfl nofun
  · cases hs

theorem inv_publish {sent : Bool} (h : PostInv time w) (hi : w.posts[i]? = some r)
    (hs : w.publish i r sent = some w') : PostInv time w' := by
  have howes := h.posts i r hi
  unfold PostWorld.publish at hs
  split at hs
  · rename_i t hphase
    rw [hphase] at howes
    cases hs
    exact h.quiet ⟨rfl, fun _ hc => hc, howes⟩ rfl rfl
  · cases hs

theorem inv_setex {stored : Bool} (h : PostInv time w) (hi : w.posts[i]? = some r)
    (hs : w.setex time i r stored = some w') : PostInv time w' := by
  have howes := h.posts i r hi
  unfold PostWorld.setex at hs
  split at hs
  · rename_i t k hphase hkey
    rw [hphase] at howes
    cases hs
    cases stored with
    | false => exact h.quiet ⟨rfl, fun _ hc => hc, trivial⟩ rfl rfl
    | true =>
        have hquiet : PostInv time (w.setPhase i r (.finished t)) :=
          h.quiet ⟨rfl, fun _ hc => hc, trivial⟩ rfl rfl
        refine ⟨?_, hquiet.posts, hquiet.faithful⟩
        intro key raw hraw
        -- the new entry is the text of the 201 that went out
        dsimp only at hraw
        rw [if_pos rfl, Function.update_apply] at hraw
        split at hraw
        · rename_i hmake
          have hentry := (Option.some.inj hraw).symm
          exact ⟨_, howes.2, k, t, ⟨rfl, t, howes.1, rfl⟩, hkey, hmake, hentry⟩
        · exact h.stored key raw hraw
  · cases hs

theorem inv_fail (h : PostInv time w) (hs : w.fail i r = some w') : PostInv time w' := by
  unfold PostWorld.fail at hs
  split at hs
  · cases hs
    exact h.refuse rfl
  · cases hs
    exact h.refuse rfl
  · split at hs
    · cases hs
      exact h.refuse rfl
    · cases hs

/-- **Every step keeps the invariant.** -/
theorem postInv_step {e : PostEvent} (h : PostInv time w) (hs : w.step time e = some w') :
    PostInv time w' := by
  cases e with
  | arrive worker callerId key payload =>
      cases hs
      refine ⟨h.stored, fun i r hi => ?_, h.faithful⟩
      rcases getElem?_concat_cases hi with rfl | hi
      · trivial
      · exact h.posts i r hi
  | expire key =>
      cases hs
      refine ⟨fun key' raw hraw => ?_, h.posts, h.faithful⟩
      dsimp only at hraw
      rw [Function.update_apply] at hraw
      split at hraw
      · cases hraw
      · exact h.stored key' raw hraw
  | others projects tasks =>
      cases hs
      exact ⟨h.stored, h.posts, h.faithful⟩
  | askRedis i =>
      obtain ⟨r, hi, hs⟩ := Option.bind_eq_some_iff.mp hs
      exact inv_askRedis h hi hs
  | ping i answered =>
      obtain ⟨r, hi, hs⟩ := Option.bind_eq_some_iff.mp hs
      exact inv_ping h hi hs
  | get i answered =>
      obtain ⟨r, hi, hs⟩ := Option.bind_eq_some_iff.mp hs
      exact inv_get h hs
  | replay i =>
      obtain ⟨r, hi, hs⟩ := Option.bind_eq_some_iff.mp hs
      exact inv_replay h hi hs
  | checkProject i =>
      obtain ⟨r, hi, hs⟩ := Option.bind_eq_some_iff.mp hs
      exact inv_checkProject h hs
  | flush i id now =>
      obtain ⟨r, hi, hs⟩ := Option.bind_eq_some_iff.mp hs
      exact inv_flush h hs
  | commit i outcome =>
      obtain ⟨r, hi, hs⟩ := Option.bind_eq_some_iff.mp hs
      exact inv_commit h hs
  | respond i =>
      obtain ⟨r, hi, hs⟩ := Option.bind_eq_some_iff.mp hs
      exact inv_respond h hi hs
  | publish i sent =>
      obtain ⟨r, hi, hs⟩ := Option.bind_eq_some_iff.mp hs
      exact inv_publish h hi hs
  | setex i stored =>
      obtain ⟨r, hi, hs⟩ := Option.bind_eq_some_iff.mp hs
      exact inv_setex h hi hs
  | fail i =>
      obtain ⟨r, hi, hs⟩ := Option.bind_eq_some_iff.mp hs
      exact inv_fail h hs

/-! ## No collisions -/

/--
**Entries collide only under one caller and one effective key.**

The Redis keys of two callers and two header values are equal if and only if the
callers are, and the values without the white space around them agree in their first
128 characters. And in every run, with all faults, no response is replayed to another
caller or under another such key than it was sent.
-/
theorem entries_never_collide :
    (∀ c c' k k', makeKey c k = makeKey c' k' ↔ c = c' ∧ effectiveKey k = effectiveKey k')
      ∧ ∀ (time : AwareDatetime → String) (projects : List Project) (es : List PostEvent),
        Always (PostWorld.step time) (FaithfulReplays time) { projects := projects } es :=
  ⟨makeKey_eq_iff, fun _ projects es => always_of_invariant
    (fun _ _ _ h _ hs => postInv_step h hs) (fun _ h => h.faithful) (postInv_init projects)
    (meets_true _ es)⟩

/-- A key of 129 characters. -/
def longKey (last : Char) : String := String.ofList (List.replicate 128 'k' ++ [last])

/-- **Two long keys that differ in the end only are one.** -/
theorem long_keys_collide :
    Decimal.strip (longKey '1').toList ≠ Decimal.strip (longKey '2').toList
      ∧ makeKey ann (longKey '1') = makeKey ann (longKey '2') := by
  have htext : ∀ last, (longKey last).toList = List.replicate 128 'k' ++ [last] :=
    fun _ => String.toList_ofList
  have heffective : effectiveKey (longKey '1') = effectiveKey (longKey '2') := by
    unfold effectiveKey
    rw [htext, htext]
    decide +kernel
  refine ⟨?_, (makeKey_eq_iff ann ann _ _).mpr ⟨rfl, heffective⟩⟩
  rw [htext, htext]
  decide +kernel

end Microservices.Tasks
