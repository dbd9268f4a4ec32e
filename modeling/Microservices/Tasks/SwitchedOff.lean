import Microservices.Tasks.Replays

/-!
# With idempotency switched off

A run maps to one without idempotency keys: the steps in Redis and the replays are
left out, and a request that is answered with a replay never moves. Every other step
is taken again, over the same tables and with the same response.
-/

namespace Microservices.Tasks

open Schedule Slots

variable {time : AwareDatetime → String} {w w' : PostWorld} {i : Nat} {r : Post}

/-- Where the request is without its key. -/
def PostPhase.off : PostPhase → PostPhase
  | .received | .pinging | .connected | .missed | .replaying _ _ | .replayed => .received
  | .published t | .storePinging t | .storeConnected t | .finished t => .published t
  | p => p

def Post.off (r : Post) : Post := { r with idempotencyKey := none, phase := r.phase.off }

def PostWorld.off (w : PostWorld) : PostWorld :=
  { w with
    redis := fun _ => none
    clients := fun _ => false
    posts := w.posts.map Post.off
    replies := w.ownReplies }

/-- The step is one without keys, or is nothing there. -/
def Mirrored (time : AwareDatetime → String) (w w' : PostWorld) (e : PostEvent) : Prop :=
  match e.off with
  | some e' => w.off.step time e' = some w'.off
  | none => w'.off = w.off

/-! ## Moves -/

theorem off_post (hi : w.posts[i]? = some r) : w.off.posts[i]? = some r.off := by
  show (w.posts.map Post.off)[i]? = _
  rw [List.getElem?_map, hi]
  rfl

theorem off_setPhase (w : PostWorld) (i : Nat) (r : Post) (p : PostPhase) :
    (w.setPhase i r p).off = w.off.setPhase i r.off p.off := by
  unfold PostWorld.setPhase PostWorld.off
  rw [List.map_set]
  rfl

/-- A move that is none without the key. -/
theorem off_stays {p : PostPhase} (hi : w.posts[i]? = some r) (hp : p.off = r.phase.off) :
    (w.setPhase i r p).off = w.off := by
  rw [off_setPhase, hp]
  have hself : w.off.posts.set i r.off = w.off.posts := by
    obtain ⟨hlt, hget⟩ := List.getElem?_eq_some_iff.mp (off_post hi)
    rw [← hget, List.set_getElem_self]
  show { w.off with posts := w.off.posts.set i r.off } = w.off
  rw [hself]

theorem off_reply (w : PostWorld) (i : Nat) (r : Post) {answer : PostAnswer} (p : PostPhase)
    (hanswer : answer.isReplay = false) :
    (w.reply i r answer p).off = w.off.reply i r.off answer p.off := by
  have hreplies : (w.reply i r answer p).ownReplies
      = w.ownReplies ++ [⟨i, r.callerId, none, answer⟩] := by
    unfold PostWorld.ownReplies PostWorld.reply
    rw [List.filter_append, List.map_append, List.filter_singleton, hanswer]
    rfl
  unfold PostWorld.reply at hreplies ⊢
  unfold PostWorld.off
  rw [hreplies]
  show PostWorld.mk _ _ _ _ _ ((w.posts.set i _).map Post.off) _ _ = _
  rw [List.map_set]
  rfl

theorem off_replay (w : PostWorld) (i : Nat) (r : Post) {answer : PostAnswer} (p : PostPhase)
    (hanswer : answer.isReplay = true) :
    (w.reply i r answer p).off = (w.setPhase i r p).off := by
  have hreplies : (w.reply i r answer p).ownReplies = w.ownReplies := by
    unfold PostWorld.ownReplies PostWorld.reply
    rw [List.filter_append, List.filter_singleton, hanswer]
    simp
  unfold PostWorld.off
  rw [hreplies]
  rfl

theorem ready_off (h : PostWorld.ready r = true) : PostWorld.ready r.off = true := by
  unfold PostWorld.ready Post.off at *
  split at h
  · rename_i hphase
    rw [hphase]
    rfl
  · rename_i hphase
    rw [hphase]
    rfl
  · cases h

/-! ## Steps in Redis -/

theorem off_askRedis (hi : w.posts[i]? = some r) (hs : w.askRedis i r = some w') :
    w'.off = w.off := by
  unfold PostWorld.askRedis at hs
  split at hs
  · rename_i hphase _
    cases hs
    refine off_stays hi ?_
    rw [hphase]
    split <;> rfl
  · rename_i hphase _
    cases hs
    refine off_stays hi ?_
    rw [hphase]
    split <;> rfl
  · cases hs

theorem off_ping {answered : Bool} (hi : w.posts[i]? = some r)
    (hs : w.ping i r answered = some w') : w'.off = w.off := by
  unfold PostWorld.ping at hs
  dsimp only at hs
  split at hs
  · rename_i hphase
    cases hs
    refine off_stays hi ?_
    rw [hphase]
    cases answered <;> rfl
  · rename_i hphase
    cases hs
    refine off_stays hi ?_
    rw [hphase]
    cases answered <;> rfl
  · cases hs

theorem off_get {answered : Bool} (h : PostInv time w) (hi : w.posts[i]? = some r)
    (hs : w.get i r answered = some w') : w'.off = w.off := by
  unfold PostWorld.get at hs
  split at hs
  · rename_i k hphase hkey
    split at hs
    · split at hs
      · cases hs
        exact off_stays hi (by rw [hphase]; rfl)
      · cases hs
        exact off_stays hi (by rw [hphase]; rfl)
      · -- every entry has a status that is an integer
        rename_i entry hnot hread
        obtain ⟨statusCode, body⟩ := entry
        obtain ⟨hstatus, _⟩ := readEntry_of_inv h hkey hread
        exact absurd (by rw [hstatus]) (hnot 201 body)
    · cases hs
      exact off_stays hi (by rw [hphase]; rfl)
  · cases hs

theorem off_replayStep (hi : w.posts[i]? = some r) (hs : w.replay i r = some w') :
    w'.off = w.off := by
  unfold PostWorld.replay at hs
  split at hs
  · rename_i hphase
    cases hs
    rw [off_replay _ _ _ _ rfl]
    exact off_stays hi (by rw [hphase]; rfl)
  · cases hs

theorem off_setex {stored : Bool} (hi : w.posts[i]? = some r)
    (hs : w.setex time i r stored = some w') : w'.off = w.off := by
  unfold PostWorld.setex at hs
  split at hs
  · rename_i hphase _
    cases hs
    exact off_stays hi (by rw [hphase]; rfl)
  · cases hs

/-! ## The other steps -/

theorem off_checkProject (hs : w.checkProject i r = some w') :
    w.off.checkProject i r.off = some w'.off := by
  unfold PostWorld.checkProject at hs
  split at hs
  · rename_i hready
    unfold PostWorld.checkProject
    rw [if_pos (ready_off hready)]
    cases howned : getOwnedProject w.projects r.payload.projectId r.callerId with
    | ok p =>
      have howned' : getOwnedProject w.off.projects r.off.payload.projectId r.off.callerId = .ok p :=
        howned
      rw [howned] at hs
      rw [howned']
      cases hs
      exact congrArg some (off_setPhase w i r .checked).symm
    | error e =>
      have howned' : getOwnedProject w.off.projects r.off.payload.projectId r.off.callerId
          = .error e := howned
      rw [howned] at hs
      rw [howned']
      cases hs
      exact congrArg some (off_reply w i r .ended rfl).symm
  · cases hs

theorem off_flush {id : UUID} {now : Timestamp} (hs : w.flush i r id now = some w') :
    w.off.flush i r.off id now = some w'.off := by
  unfold PostWorld.flush at hs
  split at hs
  · rename_i hphase
    split at hs
    · rename_i hnew
      cases hs
      have hoff : r.off.phase = .checked := by rw [Post.off, hphase]; rfl
      have hnew' : ∀ t ∈ w.off.tasks, t.id ≠ id := hnew
      unfold PostWorld.flush
      rw [hoff, off_setPhase]
      dsimp only
      rw [if_pos hnew']
      rfl
    · cases hs
  · cases hs

theorem off_commit {outcome : CommitOutcome} (hs : w.commit i r outcome = some w') :
    w.off.commit i r.off outcome = some w'.off := by
  unfold PostWorld.commit at hs
  split at hs
  · rename_i t hphase
    have hoff : r.off.phase = .flushed t := by rw [Post.off, hphase]; rfl
    split at hs
    · cases hs
      show _ = some { (w.setPhase i r (.committed t)).off with
        tasks := w.tasks ++ [t], commits := w.commits ++ [(i, t)] }
      unfold PostWorld.commit
      rw [hoff, off_setPhase]
      rfl
    · cases hs
      unfold PostWorld.commit
      rw [hoff, off_reply _ _ _ _ rfl]
      rfl
    · cases hs
      show _ = some { (w.reply i r .failed .ended).off with
        tasks := w.tasks ++ [t], commits := w.commits ++ [(i, t)] }
      unfold PostWorld.commit
      rw [hoff, off_reply _ _ _ _ rfl]
      rfl
  · cases hs

theorem off_respond (hs : w.respond time i r = some w') :
    w.off.respond time i r.off = some w'.off := by
  unfold PostWorld.respond at hs
  split at hs
  · rename_i t hphase
    have hoff : r.off.phase = .committed t := by rw [Post.off, hphase]; rfl
    cases hs
    unfold PostWorld.respond
    rw [hoff, off_reply _ _ _ _ rfl]
    rfl
  · cases hs

theorem off_publish {sent : Bool} (hs : w.publish i r sent = some w') :
    w.off.publish i r.off sent = some w'.off := by
  unfold PostWorld.publish at hs
  split at hs
  · rename_i t hphase
    have hoff : r.off.phase = .responded t := by rw [Post.off, hphase]; rfl
    cases hs
    show _ = some { (w.setPhase i r (.published t)).off with
      published := if sent then w.published ++ [taskCreated t] else w.published }
    unfold PostWorld.publish
    rw [hoff, off_setPhase]
    rfl
  · cases hs

theorem off_fail (hs : w.fail i r = some w') : w.off.fail i r.off = some w'.off := by
  unfold PostWorld.fail at hs
  split at hs
  · rename_i hphase
    have hoff : r.off.phase = .checked := by rw [Post.off, hphase]; rfl
    cases hs
    unfold PostWorld.fail
    rw [hoff, off_reply _ _ _ _ rfl]
    rfl
  · rename_i t hphase
    have hoff : r.off.phase = .flushed t := by rw [Post.off, hphase]; rfl
    cases hs
    unfold PostWorld.fail
    rw [hoff, off_reply _ _ _ _ rfl]
    rfl
  · split at hs
    · rename_i hready
      have hoff : r.off.phase = .received := by
        unfold PostWorld.ready at hready
        split at hready
        · rename_i hphase
          rw [Post.off, hphase]
          rfl
        · rename_i hphase
          rw [Post.off, hphase]
          rfl
        · cases hready
      cases hs
      unfold PostWorld.fail
      rw [hoff, off_reply _ _ _ _ rfl]
      dsimp only
      rw [if_pos (ready_off hready)]
      rfl
    · cases hs

/-- **Every step is mirrored.** -/
theorem mirrored_step {e : PostEvent} (h : PostInv time w) (hs : w.step time e = some w') :
    Mirrored time w w' e := by
  have hthere : ∀ {i : Nat} {r : Post} (f : Post → Option PostWorld), w.posts[i]? = some r →
      (w.off.posts[i]?).bind f = f r.off := by
    intro i r f hi
    rw [off_post hi]
    rfl
  cases e with
  | arrive worker callerId key payload =>
      cases hs
      show some _ = some _
      unfold PostWorld.off
      rw [List.map_append]
      rfl
  | expire key =>
      cases hs
      rfl
  | others projects tasks =>
      cases hs
      rfl
  | askRedis i =>
      obtain ⟨r, hi, hs⟩ := Option.bind_eq_some_iff.mp hs
      exact off_askRedis hi hs
  | ping i answered =>
      obtain ⟨r, hi, hs⟩ := Option.bind_eq_some_iff.mp hs
      exact off_ping hi hs
  | get i answered =>
      obtain ⟨r, hi, hs⟩ := Option.bind_eq_some_iff.mp hs
      exact off_get h hi hs
  | replay i =>
      obtain ⟨r, hi, hs⟩ := Option.bind_eq_some_iff.mp hs
      exact off_replayStep hi hs
  | checkProject i =>
      obtain ⟨r, hi, hs⟩ := Option.bind_eq_some_iff.mp hs
      exact (hthere _ hi).trans (off_checkProject hs)
  | flush i id now =>
      obtain ⟨r, hi, hs⟩ := Option.bind_eq_some_iff.mp hs
      exact (hthere _ hi).trans (off_flush hs)
  | commit i outcome =>
      obtain ⟨r, hi, hs⟩ := Option.bind_eq_some_iff.mp hs
      exact (hthere _ hi).trans (off_commit hs)
  | respond i =>
      obtain ⟨r, hi, hs⟩ := Option.bind_eq_some_iff.mp hs
      exact (hthere _ hi).trans (off_respond hs)
  | publish i sent =>
      obtain ⟨r, hi, hs⟩ := Option.bind_eq_some_iff.mp hs
      exact (hthere _ hi).trans (off_publish hs)
  | setex i stored =>
      obtain ⟨r, hi, hs⟩ := Option.bind_eq_some_iff.mp hs
      exact off_setex hi hs
  | fail i =>
      obtain ⟨r, hi, hs⟩ := Option.bind_eq_some_iff.mp hs
      exact (hthere _ hi).trans (off_fail hs)

/-! ## Every run -/

theorem mirrored_run {es : List PostEvent} (h : PostInv time w)
    (hrun : exec (PostWorld.step time) w es = some w') :
    exec (PostWorld.step time) w.off (es.filterMap PostEvent.off) = some w'.off := by
  induction es generalizing w with
  | nil =>
      cases hrun
      rfl
  | cons e es ih =>
      obtain ⟨w₁, hs, hrest⟩ := exec_cons_inv hrun
      have hmirror := mirrored_step h hs
      have hlater := ih (postInv_step h hs) hrest
      unfold Mirrored at hmirror
      cases hoff : e.off with
      | none =>
          rw [hoff] at hmirror
          rw [List.filterMap_cons_none hoff, ← hmirror]
          exact hlater
      | some e' =>
          rw [hoff] at hmirror
          rw [List.filterMap_cons_some hoff, exec_cons _ hmirror]
          exact hlater

/--
**Replays are faithful, and faults of Redis harmless.**

For every interleaving of creations, with keys or without, and of Redis answering,
failing and forgetting, of commits that succeed, fail or are not heard of, and of
other requests: each response sent as a replay is the 201 of an earlier creation by
the same caller under the same effective key, whose row was committed. And the same
steps with idempotency switched off are a run that leaves the same rows, sends every
other response alike, and publishes the same events.
-/
theorem replays_faithful_and_harmless (time : AwareDatetime → String) (projects : List Project)
    (es : List PostEvent) {w : PostWorld}
    (hrun : exec (PostWorld.step time) { projects := projects } es = some w) :
    FaithfulReplays time w
      ∧ ∃ w', exec (PostWorld.step time) { projects := projects } (es.filterMap PostEvent.off)
          = some w'
        ∧ w'.projects = w.projects ∧ w'.tasks = w.tasks ∧ w'.replies = w.ownReplies
        ∧ w'.published = w.published := by
  have hinit : PostInv time { projects := projects } := postInv_init projects
  refine ⟨?_, w.off, mirrored_run hinit hrun, rfl, rfl, rfl, rfl⟩
  exact (exec_invariant (fun _ _ _ h _ hs => postInv_step h hs) hinit (meets_true _ es) hrun).faithful

/-! ## A retry -/

/-- A creation, and a retry with white space around the key. -/
def retried : List PostEvent :=
  [.arrive 0 ann (some "k-1") launchTask, .askRedis 0, .ping 0 true, .get 0 true, .checkProject 0,
    .flush 0 launchTaskId noon, .commit 0 .done, .respond 0, .publish 0 true, .askRedis 0,
    .setex 0 true, .arrive 0 ann (some " k-1") launchTask, .askRedis 1, .get 1 true, .replay 1]

def noonText (_ : AwareDatetime) : String := "2024-01-15T12:00:00Z"

/-- A request that finds an entry is answered from it. -/
theorem exec_replay {k raw : String} (h : PostInv time w) (hi : w.posts[i]? = some r)
    (hphase : r.phase = .connected) (hkey : r.key = some k)
    (hraw : w.redis (makeKey r.callerId k) = some raw) :
    ∃ w' body, exec (PostWorld.step time) w [.get i true, .replay i] = some w'
      ∧ w'.replies = w.replies ++ [⟨i, r.callerId, r.key, .created 201 body true⟩] := by
  obtain ⟨_, _, _, t, _, _, _, rfl⟩ := h.stored _ _ hraw
  have hread : (w.redis (makeKey r.callerId k)).bind readEntry
      = some (.int 201, createdBody time t) := by
    rw [hraw, Option.bind_some, readEntry_entryText]
  have hget : w.get i r true = some (w.setPhase i r (.replaying 201 (createdBody time t))) := by
    unfold PostWorld.get
    simp only [hphase, hkey, hread, if_true]
  have hi' : (w.setPhase i r (.replaying 201 (createdBody time t))).posts[i]?
      = some { r with phase := .replaying 201 (createdBody time t) } :=
    List.getElem?_set_self (List.getElem?_eq_some_iff.mp hi).1
  have hfirst : PostWorld.step time w (.get i true)
      = some (w.setPhase i r (.replaying 201 (createdBody time t))) :=
    Option.bind_eq_some_iff.mpr ⟨r, hi, hget⟩
  have hsecond : PostWorld.step time (w.setPhase i r (.replaying 201 (createdBody time t)))
      (.replay i) = some _ := Option.bind_eq_some_iff.mpr ⟨_, hi', rfl⟩
  exact ⟨_, createdBody time t, (exec_cons _ hfirst).trans (exec_cons _ hsecond), rfl⟩

/-- The retry is answered with a replay, and without keys only the first request is answered. -/
theorem retry_replays : ∃ w, exec (PostWorld.step noonText) { projects := [annsProject] } retried
      = some w ∧ w.replies.map (fun r => r.answer.isReplay) = [false, true]
    ∧ FaithfulReplays noonText w
    ∧ ∃ w', exec (PostWorld.step noonText) { projects := [annsProject] }
        (retried.filterMap PostEvent.off) = some w' ∧ w'.tasks = w.tasks ∧ w'.replies.length = 1 := by
  -- up to the retry's `GET`
  have hstart : (exec (PostWorld.step noonText) { projects := [annsProject] } (retried.take 13)).bind
      (fun w => w.posts[1]?.bind fun r => (w.redis (makeKey r.callerId " k-1")).map fun _ =>
        ((w.get 1 r false).isSome, r.key, w.replies.map fun r => r.answer.isReplay))
        = some (true, some " k-1", [false]) := by decide +kernel
  obtain ⟨w₁, hfirst, hpost⟩ := Option.bind_eq_some_iff.mp hstart
  obtain ⟨r, hr, hstored⟩ := Option.bind_eq_some_iff.mp hpost
  obtain ⟨raw, hraw, hfacts⟩ := Option.map_eq_some_iff.mp hstored
  simp only [Prod.mk.injEq] at hfacts
  obtain ⟨hphase, hkey, hanswers⟩ := hfacts
  have hconnected : r.phase = .connected := by
    unfold PostWorld.get at hphase
    split at hphase
    · assumption
    · cases hphase
  have hinv : PostInv noonText w₁ := exec_invariant (fun _ _ _ h _ hs => postInv_step h hs)
    (postInv_init [annsProject]) (meets_true _ _) hfirst
  obtain ⟨w, body, hlast, hreplied⟩ := exec_replay hinv hr hconnected hkey hraw
  have hrun : exec (PostWorld.step noonText) { projects := [annsProject] } retried = some w :=
    (exec_append hfirst).trans hlast
  obtain ⟨hfaithful, w', hrun', _, htasks, hreplies, _⟩ :=
    replays_faithful_and_harmless noonText [annsProject] retried hrun
  obtain ⟨first, hsent, hown⟩ := List.map_eq_singleton_iff.mp hanswers
  have hown : first.answer.isReplay = false := hown
  rw [hsent, List.singleton_append] at hreplied
  refine ⟨w, hrun, ?_, hfaithful, w', hrun', htasks, ?_⟩
  · rw [hreplied, List.map_cons, hown]
    rfl
  · rw [hreplies, PostWorld.ownReplies, hreplied, List.filter_cons_of_pos (by rw [hown]; rfl)]
    rfl

end Microservices.Tasks
