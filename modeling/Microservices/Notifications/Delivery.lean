import Mathlib.Data.List.Nodup
import Microservices.Notifications.Broadcaster

/-!
# What an SSE connection receives

A connection is filed from its start to its disconnection, under its user and a number
no other connection has. So a broadcast to distinct users puts its payload into the queue
of each of their connections once, and into no other. From there on it is a matter of
mailboxes: what a connection has read, and what is still unread, is what was put in.
-/

namespace Microservices.Notifications

open Schedule

namespace Broadcaster

variable {b b' : Broadcaster} {i j : Nat} {c c' : Connection} {userId : String} {connId : Nat}

/-- Where the connection is filed while it lives. -/
def filing (b : Broadcaster) (i : Nat) : Option (String × Nat) :=
  (b.connections[i]?.filter Connection.live).map fun c => (c.userId, c.connId)

/-- **`_queues` has the connections that live**, each where it is filed. -/
structure Registered (b : Broadcaster) : Prop where
  exact : ∀ userId connId i, (b.userConns userId).get? connId = some i ↔
    b.filing i = some (userId, connId)
  /-- Numbers have been given out up to here. -/
  fresh : ∀ i userId connId, b.filing i = some (userId, connId) → connId ≤ b.nextConnId

theorem registered_init : Registered {} where
  exact := by
    intro userId connId i
    exact iff_of_false (by intro h; cases h) (by intro h; cases h)
  fresh := by
    intro i userId connId h
    cases h

/-- Nothing that matters to the registry has changed. -/
theorem Registered.of_same (h : Registered b) (hqueues : b'.queues = b.queues)
    (hnext : b'.nextConnId = b.nextConnId) (hfiling : ∀ j, b'.filing j = b.filing j) :
    Registered b' where
  exact := by
    intro userId connId j
    rw [hfiling, ← h.exact, userConns, hqueues]
    rfl
  fresh := by
    intro j userId connId hj
    rw [hfiling] at hj
    rw [hnext]
    exact h.fresh j userId connId hj

theorem filing_eq (hi : b.connections[i]? = some c) :
    b.filing i = if c.live then some (c.userId, c.connId) else none := by
  unfold filing
  rw [hi]
  cases hlive : c.live <;> simp [Option.filter, hlive]

/-- One connection has changed. -/
theorem filing_of_set (hi : b.connections[i]? = some c)
    (hconns : b'.connections = b.connections.set i c') (j : Nat) :
    b'.filing j
      = if j = i then (if c'.live then some (c'.userId, c'.connId) else none) else b.filing j := by
  obtain ⟨hlt, _⟩ := List.getElem?_eq_some_iff.mp hi
  by_cases hj : j = i
  · subst hj
    rw [if_pos rfl]
    refine filing_eq ?_
    rw [hconns, List.getElem?_set_self hlt]
  · rw [if_neg hj]
    unfold filing
    rw [hconns, List.getElem?_set_ne (Ne.symm hj)]

/-- The connection that has changed is filed as it was. -/
theorem Registered.of_set (h : Registered b) (hi : b.connections[i]? = some c)
    (hconns : b'.connections = b.connections.set i c') (hqueues : b'.queues = b.queues)
    (hnext : b'.nextConnId = b.nextConnId) (hlive : c'.live = c.live)
    (huser : c'.userId = c.userId) (hid : c'.connId = c.connId) : Registered b' := by
  refine h.of_same hqueues hnext ?_
  intro j
  rw [filing_of_set hi hconns]
  by_cases hj : j = i
  · rw [if_pos hj, hlive, huser, hid, hj, filing_eq hi]
  · rw [if_neg hj]

theorem get?_userConns_start (b : Broadcaster) (i : Nat) (c : Connection) (userId : String)
    (k j : Nat) : ((b.start i c).userConns userId).get? k = some j ↔
      if userId = c.userId ∧ k = b.nextConnId + 1 then j = i
      else (b.userConns userId).get? k = some j := by
  by_cases hu : userId = c.userId
  · subst hu
    have hbucket : (b.start i c).userConns c.userId
        = (b.userConns c.userId).set (b.nextConnId + 1) i := by
      unfold start userConns
      rw [Dict.get?_set_self]
      rfl
    rw [hbucket]
    by_cases hk : k = b.nextConnId + 1
    · rw [hk, Dict.get?_set_self, if_pos ⟨rfl, rfl⟩, Option.some.injEq]
      exact eq_comm
    · rw [Dict.get?_set_ne hk, if_neg fun h => hk h.2]
  · have hbucket : (b.start i c).userConns userId = b.userConns userId := by
      unfold start userConns
      rw [Dict.get?_set_ne hu]
    rw [hbucket, if_neg fun h => hu h.1]

theorem registered_start (h : Registered b) (hi : b.connections[i]? = some c)
    (hphase : c.phase = .created) : Registered (b.start i c) := by
  have hnot : b.filing i = none := by
    rw [filing_eq hi]
    simp [Connection.live, hphase]
  have hconns : (b.start i c).connections
      = b.connections.set i { c with phase := .waiting, connId := b.nextConnId + 1 } := rfl
  have hfiling : ∀ j, (b.start i c).filing j
      = if j = i then some (c.userId, b.nextConnId + 1) else b.filing j := filing_of_set hi hconns
  constructor
  · intro userId k j
    rw [get?_userConns_start, hfiling, h.exact]
    by_cases hj : j = i
    · -- the connection was not filed, and is filed at the new place
      rw [if_pos hj, hj, hnot]
      by_cases hplace : userId = c.userId ∧ k = b.nextConnId + 1
      · rw [if_pos hplace, hplace.1, hplace.2]
        exact iff_of_true rfl rfl
      · rw [if_neg hplace]
        refine iff_of_false (by intro h; cases h) ?_
        intro heq
        cases heq
        exact hplace ⟨rfl, rfl⟩
    · -- the new place is not another's, as its number is new
      rw [if_neg hj]
      by_cases hplace : userId = c.userId ∧ k = b.nextConnId + 1
      · rw [if_pos hplace]
        refine iff_of_false hj ?_
        intro hfiled
        have hle := h.fresh _ _ _ hfiled
        omega
      · rw [if_neg hplace]
  · intro j userId k hj
    rw [hfiling] at hj
    show k ≤ b.nextConnId + 1
    split at hj
    · cases hj
      exact Nat.le_refl _
    · exact Nat.le_succ_of_le (h.fresh j userId k hj)

theorem get?_userConns_unregister (hb : b'.queues = b.unregister c) (userId : String) (k j : Nat) :
    (b'.userConns userId).get? k = some j ↔
      (b.userConns userId).get? k = some j ∧ ¬ (userId = c.userId ∧ k = c.connId) := by
  have herase : ∀ {k j}, ((b.userConns c.userId).erase c.connId).get? k = some j ↔
      (b.userConns c.userId).get? k = some j ∧ k ≠ c.connId := Dict.get?_erase_eq_some_iff
  unfold unregister at hb
  dsimp only at hb
  by_cases hu : userId = c.userId
  · subst hu
    have hsame : (b'.userConns c.userId).get? k = some j ↔
        ((b.userConns c.userId).erase c.connId).get? k = some j := by
      split at hb
      · -- the user's last connection
        rename_i hempty
        have hnone : b'.queues.get? c.userId = none := by
          rw [hb]
          cases hget : (b.queues.erase c.userId).get? c.userId with
          | none => rfl
          | some d => exact absurd rfl (Dict.get?_erase_eq_some_iff.mp hget).2
        have hbucket : b'.userConns c.userId = Dict.empty := by
          unfold userConns
          rw [hnone]
          rfl
        rw [hbucket, Dict.get?, Dict.get?, hempty]
        rfl
      · have hbucket : b'.userConns c.userId = (b.userConns c.userId).erase c.connId := by
          unfold userConns at *
          rw [hb, Dict.get?_set_self]
          rfl
        rw [hbucket]
    rw [hsame, herase]
    simp
  · have hsame : b'.userConns userId = b.userConns userId := by
      unfold userConns
      rw [hb]
      split
      · congr 1
        ext d
        rw [Dict.get?_erase_eq_some_iff]
        exact and_iff_left hu
      · rw [Dict.get?_set_ne hu]
    rw [hsame]
    simp [hu]

theorem registered_disconnect (h : Registered b) (hi : b.connections[i]? = some c)
    (hlive : c.live = true) (hqueues : b'.queues = b.unregister c)
    (hnext : b'.nextConnId = b.nextConnId)
    (hconns : b'.connections = b.connections.set i { c with phase := .finished }) :
    Registered b' := by
  have hfiled : b.filing i = some (c.userId, c.connId) := by
    rw [filing_eq hi, if_pos hlive]
  have hfiling : ∀ j, b'.filing j = if j = i then none else b.filing j := filing_of_set hi hconns
  constructor
  · intro userId k j
    rw [get?_userConns_unregister hqueues, hfiling, h.exact]
    by_cases hj : j = i
    · rw [if_pos hj, hj, hfiled]
      refine iff_of_false ?_ (by intro h; cases h)
      rintro ⟨heq, hne⟩
      cases heq
      exact hne ⟨rfl, rfl⟩
    · rw [if_neg hj]
      refine and_iff_left_of_imp ?_
      rintro hother ⟨rfl, rfl⟩
      -- two connections would be filed at one place
      have hsame := ((h.exact _ _ _).mpr hother).symm.trans ((h.exact _ _ _).mpr hfiled)
      exact hj (Option.some.inj hsame)
  · intro j userId k hj
    rw [hfiling] at hj
    rw [hnext]
    split at hj
    · cases hj
    · exact h.fresh j userId k hj

/-! ## A broadcast -/

end Broadcaster

/-- How often a broadcast puts its payload into the queue. -/
def Connection.copies (c : Connection) (targetUserIds : List String) : Nat :=
  if c.live then targetUserIds.count c.userId else 0

namespace Broadcaster

variable {b b' : Broadcaster} {i : Nat} {c : Connection}

/-- The connections filed under a user. -/
def places (b : Broadcaster) (userId : String) : List Nat :=
  (b.userConns userId).entries.map Prod.snd

theorem mem_places (h : Registered b) (hi : b.connections[i]? = some c) :
    i ∈ b.places userId ↔ c.live = true ∧ c.userId = userId := by
  have hplace : i ∈ b.places userId ↔ ∃ k, b.filing i = some (userId, k) := by
    unfold places
    rw [List.mem_map]
    constructor
    · rintro ⟨⟨k, _⟩, hk, rfl⟩
      exact ⟨k, (h.exact _ _ _).mp (Dict.get?_eq_some_iff.mpr hk)⟩
    · rintro ⟨k, hk⟩
      exact ⟨(k, i), Dict.get?_eq_some_iff.mp ((h.exact _ _ _).mpr hk), rfl⟩
  rw [hplace, filing_eq hi]
  by_cases hlive : c.live = true
  · rw [if_pos hlive]
    constructor
    · rintro ⟨k, hk⟩
      exact ⟨hlive, congrArg Prod.fst (Option.some.inj hk)⟩
    · rintro ⟨_, rfl⟩
      exact ⟨c.connId, rfl⟩
  · rw [if_neg hlive]
    refine iff_of_false ?_ fun hc => hlive hc.1
    rintro ⟨k, hk⟩
    cases hk

/-- No connection is filed twice. -/
theorem nodup_places (h : Registered b) (userId : String) : (b.places userId).Nodup := by
  have hfiled : ∀ {k i : Nat}, (k, i) ∈ (b.userConns userId).entries → b.filing i = some (userId, k) :=
    fun hk => (h.exact _ _ _).mp (Dict.get?_eq_some_iff.mpr hk)
  refine List.Nodup.map_on ?_ (List.Nodup.of_map Prod.fst (b.userConns userId).nodup)
  rintro ⟨k, i⟩ hk ⟨k', i'⟩ hk' heq
  cases heq
  have hsame := (hfiled hk).symm.trans (hfiled hk')
  cases hsame
  rfl

theorem foldl_deliverTo (b : Broadcaster) (text : String) (targetUserIds : List String)
    (connections : List Connection) :
    targetUserIds.foldl (b.deliverTo text) connections
      = (targetUserIds.flatMap b.places).foldl (fun connections i =>
          connections.modify i (Connection.put text)) connections := by
  induction targetUserIds generalizing connections with
  | nil => rfl
  | cons userId targetUserIds ih =>
      rw [List.foldl_cons, ih, List.flatMap_cons, List.foldl_append]
      congr 1
      unfold deliverTo places userConns
      cases b.queues.get? userId <;> rfl

theorem count_places (h : Registered b) (hi : b.connections[i]? = some c) (targetUserIds : List String) :
    (targetUserIds.flatMap b.places).count i = c.copies targetUserIds := by
  unfold Connection.copies
  induction targetUserIds with
  | nil => simp
  | cons userId targetUserIds ih =>
      rw [List.flatMap_cons, List.count_append, ih, List.count_cons]
      by_cases hplace : i ∈ b.places userId
      · obtain ⟨hlive, huser⟩ := (mem_places h hi).mp hplace
        rw [List.count_eq_one_of_mem (nodup_places h userId) hplace, if_pos hlive, if_pos hlive, huser,
          beq_self_eq_true, if_pos rfl, Nat.add_comm]
      · rw [List.count_eq_zero_of_not_mem hplace, Nat.zero_add]
        rw [mem_places h hi, not_and] at hplace
        split
        · rename_i hlive
          rw [if_neg fun h => hplace hlive (beq_iff_eq.mp h).symm, Nat.add_zero]
        · rfl

/-- **A broadcast** puts its payload into each queue of a user as often as it names the user, and into
no other. -/
theorem connections_broadcast (h : Registered b) (eventType data : Json) (targetUserIds : List String)
    (i : Nat) :
    (b.broadcast eventType data targetUserIds).connections[i]?
      = b.connections[i]?.map fun c =>
          (Connection.put (payload eventType data))^[c.copies targetUserIds] c := by
  unfold broadcast
  by_cases hempty : targetUserIds = []
  · rw [if_pos hempty]
    simp [hempty, Connection.copies]
  · rw [if_neg hempty]
    dsimp only
    rw [foldl_deliverTo, Slots.getElem?_foldl_modify_iterate]
    cases hi : b.connections[i]? with
    | none => rfl
    | some c =>
        rw [Option.map_some, Option.map_some, count_places h hi]

/-! ## One step -/

/-- What the step puts into the queue of the connection. -/
def enqueued (b : Broadcaster) (i : Nat) : StreamEvent → List String
  | .broadcast eventType data targetUserIds => b.connections[i]?.elim [] fun c =>
      List.replicate (min (c.copies targetUserIds) (queueMaxsize - c.unread.length))
        (payload eventType data)
  | _ => []

/-- The same where nobody is named twice: the payload of a broadcast to its user, while it lives and
has room. -/
def accepted (b : Broadcaster) (i : Nat) : StreamEvent → Option String
  | .broadcast eventType data targetUserIds => b.connections[i]?.bind fun c =>
      if c.live = true ∧ c.userId ∈ targetUserIds ∧ c.unread.length < queueMaxsize then
        some (payload eventType data)
      else none
  | _ => none

end Broadcaster

/-- No user is named twice. -/
def StreamEvent.Distinct : StreamEvent → Prop
  | .broadcast _ _ targetUserIds => targetUserIds.Nodup
  | _ => True

instance : DecidablePred StreamEvent.Distinct
  | .broadcast _ _ targetUserIds => inferInstanceAs (Decidable targetUserIds.Nodup)
  | .subscribe _ | .start _ | .read _ | .timeout _ | .resume _ | .disconnect _ =>
      inferInstanceAs (Decidable True)

/-- The connection later on, when `new` has been put into its queue. -/
structure Connection.Onward (c c' : Connection) (new : List String) : Prop where
  userId : c'.userId = c.userId
  carries : ∀ taken, c.queue.Carries c.reads taken → c'.queue.Carries c'.reads (taken ++ new)

namespace Connection

variable {c c' : Connection}

theorem Onward.quiet (huser : c'.userId = c.userId) (hqueue : c'.queue = c.queue)
    (hreads : c'.reads = c.reads) : c.Onward c' [] where
  userId := huser
  carries := by
    intro taken h
    rw [hqueue, hreads, List.append_nil]
    exact h

theorem Onward.refl (c : Connection) : c.Onward c [] := .quiet rfl rfl rfl

theorem onward_put (c : Connection) (text : String) :
    c.Onward (c.put text) (if c.unread.length < queueMaxsize then [text] else []) := by
  unfold put unread
  cases hput : c.queue.put? text with
  | none =>
      rw [if_neg (Mailbox.put?_eq_none hput)]
      exact Onward.refl c
  | some queue =>
      rw [if_pos (Mailbox.put?_eq_some hput).1]
      exact ⟨rfl, fun taken h => h.put hput⟩

theorem Onward.trans {c'' : Connection} {new new' : List String} (h : c.Onward c' new)
    (h' : c'.Onward c'' new') : c.Onward c'' (new ++ new') where
  userId := h'.userId.trans h.userId
  carries := by
    intro taken htaken
    rw [← List.append_assoc]
    exact h'.carries _ (h.carries taken htaken)

theorem length_put (c : Connection) (text : String) :
    (c.put text).unread.length = if c.unread.length < queueMaxsize then c.unread.length + 1
      else c.unread.length := by
  unfold put unread
  cases hput : c.queue.put? text with
  | none => rw [if_neg (Mailbox.put?_eq_none hput)]
  | some queue =>
      obtain ⟨hroom, hitems⟩ := Mailbox.put?_eq_some hput
      rw [if_pos hroom]
      dsimp only
      rw [hitems, List.length_append, List.length_singleton]

/-- As many copies as there is room for. -/
theorem onward_puts (c : Connection) (text : String) (n : Nat) :
    c.Onward ((put text)^[n] c) (List.replicate (min n (queueMaxsize - c.unread.length)) text) := by
  induction n generalizing c with
  | zero =>
      rw [Nat.zero_min]
      exact Onward.refl c
  | succ n ih =>
      have hboth := (onward_put c text).trans (ih (c.put text))
      rw [length_put] at hboth
      rw [Function.iterate_succ_apply]
      by_cases hroom : c.unread.length < queueMaxsize
      · rw [if_pos hroom, if_pos hroom] at hboth
        have hmin : min (n + 1) (queueMaxsize - c.unread.length)
            = min n (queueMaxsize - (c.unread.length + 1)) + 1 := by omega
        rw [hmin, List.replicate_succ]
        exact hboth
      · rw [if_neg hroom, if_neg hroom, List.nil_append] at hboth
        have hzero : queueMaxsize - c.unread.length = 0 := by omega
        rw [hzero, Nat.min_zero] at hboth ⊢
        exact hboth

/-- What the registry goes by. -/
def ident (c : Connection) : Bool × String × Nat := (c.live, c.userId, c.connId)

theorem ident_put (c : Connection) (text : String) : (c.put text).ident = c.ident := by
  unfold put
  cases c.queue.put? text <;> rfl

end Connection

namespace Broadcaster

variable {b b' : Broadcaster} {i j : Nat} {c c' : Connection} {e : StreamEvent}

theorem onward_of_set {d d' : Connection} (hi : b.connections[i]? = some d)
    (hconns : b'.connections = b.connections.set i d') (hd : d.Onward d' [])
    (hj : b.connections[j]? = some c) :
    ∃ c', b'.connections[j]? = some c' ∧ c.Onward c' [] := by
  obtain ⟨hlt, _⟩ := List.getElem?_eq_some_iff.mp hi
  by_cases hij : j = i
  · subst hij
    rw [hi] at hj
    cases hj
    exact ⟨d', by rw [hconns, List.getElem?_set_self hlt], hd⟩
  · exact ⟨c, by rw [hconns, List.getElem?_set_ne (Ne.symm hij), hj], Connection.Onward.refl c⟩

theorem accepted_broadcast (hj : b.connections[j]? = some c) (eventType data : Json)
    (targetUserIds : List String) :
    b.accepted j (.broadcast eventType data targetUserIds)
      = if c.live = true ∧ c.userId ∈ targetUserIds ∧ c.unread.length < queueMaxsize then
          some (payload eventType data)
        else none := by
  show b.connections[j]?.bind _ = _
  rw [hj]
  rfl

theorem accepted_of_none (hj : b.connections[j]? = none) (e : StreamEvent) :
    b.accepted j e = none := by
  cases e with
  | broadcast eventType data targetUserIds =>
      show b.connections[j]?.bind _ = none
      rw [hj]
      rfl
  | _ => rfl

theorem onward_keepalive (c : Connection) :
    c.Onward { c with phase := .yielding, frames := c.frames ++ [.keepalive] } [] := by
  refine .quiet rfl rfl ?_
  show List.filterMap _ _ = _
  rw [List.filterMap_append]
  exact List.append_nil _

theorem onward_read {text : String} {queue : Mailbox String queueMaxsize}
    (hget : c.queue.get? = some (text, queue)) :
    c.Onward { c with queue := queue, phase := .yielding, frames := c.frames ++ [.data text] } [] where
  userId := rfl
  carries := by
    intro taken h
    have hcarries := h.get hget
    rw [List.append_nil]
    show queue.Carries (List.filterMap _ _) _
    rw [List.filterMap_append]
    exact hcarries

/-- Of one connection: it has moved from `c` to `c'`, and nothing was put into a queue. -/
structure Moves (b b' : Broadcaster) (e : StreamEvent) (i : Nat) (c c' : Connection) : Prop where
  there : b.connections[i]? = some c
  connections : b'.connections = b.connections.set i c'
  onward : c.Onward c' []
  quiet : ∀ j, b.enqueued j e = []
  registered : Registered b → Registered b'

/-- **What a step can do.** One connection at most moves, is filed or is taken out. -/
theorem step_inv (hs : b.step e = some b') :
    (∃ userId, e = .subscribe userId
      ∧ b' = { b with connections := b.connections ++ [{ userId := userId }] })
    ∨ (∃ i c, e = .start i ∧ b.connections[i]? = some c ∧ c.phase = .created ∧ b' = b.start i c)
    ∨ (∃ i c c', b.connections[i]? = some c ∧ b' = { b with connections := b.connections.set i c' }
      ∧ c'.ident = c.ident ∧ c.Onward c' [] ∧ ∀ j, b.enqueued j e = [])
    ∨ (∃ i c, e = .disconnect i ∧ b.connections[i]? = some c ∧ c.live = true
      ∧ b' = { b with
          queues := b.unregister c
          connections := b.connections.set i { c with phase := .finished } })
    ∨ ∃ eventType data targetUserIds, e = .broadcast eventType data targetUserIds
      ∧ b' = b.broadcast eventType data targetUserIds := by
  cases e with
  | subscribe userId =>
      cases hs
      exact Or.inl ⟨userId, rfl, rfl⟩
  | start i =>
      obtain ⟨c, hi, hs⟩ := Option.bind_eq_some_iff.mp hs
      split at hs
      · rename_i hphase
        cases hs
        exact Or.inr (Or.inl ⟨i, c, rfl, hi, hphase, rfl⟩)
      · cases hs
  | read i =>
      obtain ⟨c, hi, hs⟩ := Option.bind_eq_some_iff.mp hs
      split at hs
      · rename_i hphase
        obtain ⟨⟨text, queue⟩, hget, hs⟩ := Option.map_eq_some_iff.mp hs
        cases hs
        exact Or.inr (Or.inr (Or.inl ⟨i, c, _, hi, rfl,
          by simp [Connection.ident, Connection.live, hphase], onward_read hget, fun _ => rfl⟩))
      · cases hs
  | timeout i =>
      obtain ⟨c, hi, hs⟩ := Option.bind_eq_some_iff.mp hs
      split at hs
      · rename_i hphase
        cases hs
        exact Or.inr (Or.inr (Or.inl ⟨i, c, _, hi, rfl,
          by simp [Connection.ident, Connection.live, hphase], onward_keepalive c, fun _ => rfl⟩))
      · cases hs
  | resume i =>
      obtain ⟨c, hi, hs⟩ := Option.bind_eq_some_iff.mp hs
      split at hs
      · rename_i hphase
        cases hs
        exact Or.inr (Or.inr (Or.inl ⟨i, c, _, hi, rfl,
          by simp [Connection.ident, Connection.live, hphase], .quiet rfl rfl rfl, fun _ => rfl⟩))
      · cases hs
  | disconnect i =>
      obtain ⟨c, hi, hs⟩ := Option.bind_eq_some_iff.mp hs
      dsimp only at hs
      split at hs
      · rename_i hphase
        cases hs
        exact Or.inr (Or.inr (Or.inl ⟨i, c, _, hi, rfl,
          by simp [Connection.ident, Connection.live, hphase], .quiet rfl rfl rfl, fun _ => rfl⟩))
      · rename_i hphase
        cases hs
        exact Or.inr (Or.inr (Or.inr (Or.inl ⟨i, c, rfl, hi, by simp [Connection.live, hphase], rfl⟩)))
      · rename_i hphase
        cases hs
        exact Or.inr (Or.inr (Or.inr (Or.inl ⟨i, c, rfl, hi, by simp [Connection.live, hphase], rfl⟩)))
      · cases hs
  | broadcast eventType data targetUserIds =>
      cases hs
      exact Or.inr (Or.inr (Or.inr (Or.inr ⟨eventType, data, targetUserIds, rfl, rfl⟩)))

theorem step_cases (hs : b.step e = some b') :
    (∃ userId, e = .subscribe userId
      ∧ b' = { b with connections := b.connections ++ [{ userId := userId }] })
    ∨ (∃ i c c', Moves b b' e i c c')
    ∨ ∃ eventType data targetUserIds, e = .broadcast eventType data targetUserIds
      ∧ b' = b.broadcast eventType data targetUserIds := by
  rcases step_inv hs with hsubscribe | ⟨i, c, rfl, hi, hphase, rfl⟩
    | ⟨i, c, c', hi, rfl, hident, honward, hquiet⟩ | ⟨i, c, rfl, hi, hlive, rfl⟩ | hbroadcast
  · exact Or.inl hsubscribe
  · exact Or.inr (Or.inl ⟨i, c, _, hi, rfl, .quiet rfl rfl rfl, fun _ => rfl,
      fun h => registered_start h hi hphase⟩)
  · exact Or.inr (Or.inl ⟨i, c, c', hi, rfl, honward, hquiet, fun h =>
      h.of_set hi rfl rfl rfl (congrArg Prod.fst hident) honward.userId (congrArg (fun d => d.2.2) hident)⟩)
  · exact Or.inr (Or.inl ⟨i, c, _, hi, rfl, .quiet rfl rfl rfl, fun _ => rfl,
      fun h => registered_disconnect h hi hlive rfl rfl rfl⟩)
  · exact Or.inr (Or.inr hbroadcast)

theorem filing_eq_ident (b : Broadcaster) (j : Nat) :
    b.filing j = ((b.connections[j]?.map Connection.ident).filter Prod.fst).map Prod.snd := by
  unfold filing
  cases b.connections[j]? with
  | none => rfl
  | some c => cases hlive : c.live <;> simp [Option.filter, Connection.ident, hlive]

/-- A broadcast changes nothing but queues. -/
theorem idents_broadcast (b : Broadcaster) (eventType data : Json) (targetUserIds : List String) :
    (b.broadcast eventType data targetUserIds).connections.map Connection.ident
      = b.connections.map Connection.ident := by
  unfold broadcast
  split
  · rfl
  · dsimp only
    rw [foldl_deliverTo]
    exact Slots.map_foldl_modify (fun c => c.ident_put _) _ _

theorem filing_broadcast (b : Broadcaster) (eventType data : Json) (targetUserIds : List String)
    (j : Nat) : (b.broadcast eventType data targetUserIds).filing j = b.filing j := by
  have hidents := congrArg (fun l => l[j]?) (b.idents_broadcast eventType data targetUserIds)
  rw [List.getElem?_map, List.getElem?_map] at hidents
  rw [filing_eq_ident, filing_eq_ident, hidents]

theorem registered_step (h : Registered b) (hs : b.step e = some b') :
    Registered b' := by
  rcases step_cases hs with ⟨userId, rfl, rfl⟩ | ⟨i, c, c', hmoves⟩ | ⟨_, _, _, rfl, rfl⟩
  · refine h.of_same rfl rfl ?_
    intro j
    unfold filing
    dsimp only
    rw [List.getElem?_append]
    split
    · rfl
    · -- the new connection does not live yet
      rename_i hlt
      rw [List.getElem?_eq_none (Nat.not_lt.mp hlt)]
      cases j - b.connections.length <;> rfl
  · exact hmoves.registered h
  · refine h.of_same ?_ ?_ (filing_broadcast _ _ _ _)
    · unfold broadcast
      split <;> rfl
    · unfold broadcast
      split <;> rfl

/-- **One step**, as one connection sees it. -/
theorem onward_step (h : Registered b) (hs : b.step e = some b') (hj : b.connections[j]? = some c) :
    ∃ c', b'.connections[j]? = some c' ∧ c.Onward c' (b.enqueued j e) := by
  rcases step_cases hs with
    ⟨userId, rfl, rfl⟩ | ⟨i, d, d', hmoves⟩ | ⟨eventType, data, targetUserIds, rfl, rfl⟩
  · refine ⟨c, ?_, Connection.Onward.refl c⟩
    rw [List.getElem?_append_left (List.getElem?_eq_some_iff.mp hj).1, hj]
  · rw [hmoves.quiet]
    exact onward_of_set hmoves.there hmoves.connections hmoves.onward hj
  · refine ⟨_, (connections_broadcast h _ _ _ j).trans (by rw [hj, Option.map_some]), ?_⟩
    show c.Onward _ (b.connections[j]?.elim [] _)
    rw [hj]
    exact c.onward_puts _ _

/-- A connection that was not there before is a new one. -/
theorem new_of_step (h : Registered b) (hs : b.step e = some b')
    (hj : b.connections[j]? = none) (hj' : b'.connections[j]? = some c') :
    ∃ userId, c' = { userId := userId } := by
  rcases step_cases hs with ⟨userId, rfl, rfl⟩ | ⟨i, d, d', hmoves⟩ | ⟨_, _, _, rfl, rfl⟩
  · rcases Slots.getElem?_concat_cases hj' with hnew | hold
    · exact ⟨userId, hnew⟩
    · rw [hj] at hold
      cases hold
  · rw [List.getElem?_eq_none_iff] at hj
    obtain ⟨hlt, _⟩ := List.getElem?_eq_some_iff.mp hj'
    rw [hmoves.connections, List.length_set] at hlt
    omega
  · rw [connections_broadcast h, hj] at hj'
    cases hj'

theorem enqueued_of_none (hj : b.connections[j]? = none) (e : StreamEvent) : b.enqueued j e = [] := by
  cases e with
  | broadcast eventType data targetUserIds =>
      show b.connections[j]?.elim [] _ = []
      rw [hj]
      rfl
  | _ => rfl

theorem enqueued_of_distinct (he : e.Distinct) (b : Broadcaster) (j : Nat) :
    b.enqueued j e = (b.accepted j e).toList := by
  cases e with
  | broadcast eventType data targetUserIds =>
      show b.connections[j]?.elim [] _ = _
      cases hj : b.connections[j]? with
      | none =>
          rw [accepted_of_none hj]
          rfl
      | some c =>
          rw [accepted_broadcast hj, Option.elim_some]
          by_cases hfor : c.live = true ∧ c.userId ∈ targetUserIds
          · have hone : c.copies targetUserIds = 1 := by
              rw [Connection.copies, if_pos hfor.1, List.count_eq_one_of_mem he hfor.2]
            rw [hone]
            simp only [hfor.1, hfor.2, true_and]
            split
            · rename_i hroom
              rw [Nat.min_eq_left (by omega)]
              rfl
            · rename_i hroom
              rw [Nat.min_eq_right (by omega), Nat.sub_eq_zero_of_le (Nat.not_lt.mp hroom)]
              rfl
          · have hnone : c.copies targetUserIds = 0 := by
              unfold Connection.copies
              split
              · exact List.count_eq_zero_of_not_mem fun hmem => hfor ⟨‹_›, hmem⟩
              · rfl
            rw [hnone, Nat.zero_min, if_neg fun hc => hfor ⟨hc.1, hc.2.1⟩]
            rfl
  | _ => rfl

/-! ## Every run -/

/-- What the run puts into the queue of the connection. -/
def enqueuedRun (i : Nat) : Broadcaster → List StreamEvent → List String
  | _, [] => []
  | b, e :: es =>
      b.enqueued i e ++
        match b.step e with
        | none => []
        | some b' => enqueuedRun i b' es

/-- The same where nobody is named twice. -/
def due (i : Nat) : Broadcaster → List StreamEvent → List String
  | _, [] => []
  | b, e :: es =>
      (b.accepted i e).toList ++
        match b.step e with
        | none => []
        | some b' => due i b' es

theorem enqueuedRun_of_distinct {es : List StreamEvent} (hdistinct : ∀ e ∈ es, e.Distinct)
    (i : Nat) (b : Broadcaster) : enqueuedRun i b es = due i b es := by
  induction es generalizing b with
  | nil => rfl
  | cons e es ih =>
      rw [enqueuedRun, due, enqueued_of_distinct (hdistinct e List.mem_cons_self)]
      cases b.step e with
      | none => rfl
      | some b' => exact congrArg _ (ih (fun e' h' => hdistinct e' (List.mem_cons_of_mem _ h')) b')

theorem carries_run {es : List StreamEvent} {taken : List String} (h : Registered b)
    (hrun : exec step b es = some b')
    (hthere : ∀ c, b.connections[i]? = some c → c.queue.Carries c.reads taken)
    (hnew : b.connections[i]? = none → taken = []) (hi : b'.connections[i]? = some c') :
    c'.queue.Carries c'.reads (taken ++ enqueuedRun i b es) := by
  induction es generalizing b taken with
  | nil =>
      cases hrun
      rw [enqueuedRun, List.append_nil]
      exact hthere c' hi
  | cons e es ih =>
      obtain ⟨b₁, hs, hlater⟩ := exec_cons_inv hrun
      rw [enqueuedRun, hs, ← List.append_assoc]
      refine ih (registered_step h hs) hlater ?_ ?_
      · intro c₁ hc₁
        cases hc : b.connections[i]? with
        | none =>
            obtain ⟨userId, rfl⟩ := new_of_step h hs hc hc₁
            rw [hnew hc, enqueued_of_none hc]
            exact Mailbox.carries_empty
        | some c =>
            obtain ⟨c₂, hc₂, honward⟩ := onward_step h hs hc
            rw [hc₁] at hc₂
            cases hc₂
            exact honward.carries _ (hthere c hc)
      · intro hc₁
        cases hc : b.connections[i]? with
        | none =>
            rw [hnew hc, enqueued_of_none hc]
            rfl
        | some c =>
            obtain ⟨c₂, hc₂, _⟩ := onward_step h hs hc
            rw [hc₁] at hc₂
            cases hc₂

/-- A connection stays its user's. -/
theorem userId_run {es : List StreamEvent} (h : Registered b)
    (hrun : exec step b es = some b') (hi : b.connections[i]? = some c)
    (hi' : b'.connections[i]? = some c') : c'.userId = c.userId := by
  induction es generalizing b c with
  | nil =>
      cases hrun
      rw [hi] at hi'
      cases hi'
      rfl
  | cons e es ih =>
      obtain ⟨b₁, hs, hlater⟩ := exec_cons_inv hrun
      obtain ⟨c₁, hc₁, honward⟩ := onward_step h hs hi
      have hsame := ih (registered_step h hs) hlater hc₁
      exact hsame.trans honward.userId

/-- What is put into the queue of a connection was for its user. -/
theorem mem_due {es : List StreamEvent} {text : String} (h : Registered b) (hrun : exec step b es = some b')
    (hi' : b'.connections[i]? = some c') (htext : text ∈ due i b es) :
    ∃ eventType data targetUserIds, .broadcast eventType data targetUserIds ∈ es
      ∧ c'.userId ∈ targetUserIds ∧ text = payload eventType data := by
  induction es generalizing b with
  | nil => cases htext
  | cons e es ih =>
      obtain ⟨b₁, hs, hlater⟩ := exec_cons_inv hrun
      rw [due, hs] at htext
      rcases List.mem_append.mp htext with hnow | hthen
      · have haccepted : b.accepted i e = some text := Option.mem_toList.mp hnow
        cases hi : b.connections[i]? with
        | none =>
            rw [accepted_of_none hi] at haccepted
            cases haccepted
        | some c =>
            have hsame := userId_run h hrun hi hi'
            cases e with
            | broadcast eventType data targetUserIds =>
                rw [accepted_broadcast hi] at haccepted
                split at haccepted
                · rename_i hfor
                  cases haccepted
                  exact ⟨eventType, data, targetUserIds, List.mem_cons_self,
                    hsame ▸ hfor.2.1, rfl⟩
                · cases haccepted
            | _ => cases haccepted
      · obtain ⟨eventType, data, targetUserIds, hmem, hfor⟩ := ih (registered_step h hs) hlater hthen
        exact ⟨eventType, data, targetUserIds, List.mem_cons_of_mem _ hmem, hfor⟩

end Broadcaster

/--
**SSE delivery is private and in order, and loses only on overflow.**

In every interleaving of connections that come, read, time out and go, and of broadcasts
to distinct users: what a connection has read, followed by what is unread in its queue, is
what was broadcast to its user while it lived and its queue had room, in that order and
once each. Everything it has read was broadcast to its user.
-/
theorem sse_delivery (es : List StreamEvent) (hdistinct : ∀ e ∈ es, e.Distinct) {b : Broadcaster}
    (hrun : exec Broadcaster.step {} es = some b) {i : Nat} {c : Connection}
    (hi : b.connections[i]? = some c) :
    c.reads ++ c.unread = Broadcaster.due i {} es
      ∧ ∀ text ∈ c.reads, ∃ eventType data targetUserIds,
        .broadcast eventType data targetUserIds ∈ es
          ∧ c.userId ∈ targetUserIds ∧ text = payload eventType data := by
  have hcarries : c.queue.Carries c.reads ([] ++ Broadcaster.enqueuedRun i {} es) :=
    Broadcaster.carries_run Broadcaster.registered_init hrun (by intro c hc; cases hc) (fun _ => rfl) hi
  rw [List.nil_append, Broadcaster.enqueuedRun_of_distinct hdistinct] at hcarries
  refine ⟨hcarries, ?_⟩
  intro text htext
  have hdue : text ∈ Broadcaster.due i {} es := by
    rw [← hcarries]
    exact List.mem_append_left _ htext
  exact Broadcaster.mem_due Broadcaster.registered_init hrun hi hdue

/-- Two tabs of one user and one of another; one tab reads, the other disconnects. -/
def threeTabs : List StreamEvent :=
  [.subscribe "ann", .start 0, .subscribe "bob", .start 1, .subscribe "ann", .start 2,
    .broadcast (.str "task.deleted") .null ["ann"], .disconnect 2, .timeout 1,
    .broadcast (.str "task.created") .null ["bob", "ann"], .read 0, .resume 0, .read 0]

/-- The first tab reads both events, and the other user's connection has one to read. -/
theorem three_tabs_delivery : ∃ b, exec Broadcaster.step {} threeTabs = some b
    ∧ ∃ ann bob, b.connections[0]? = some ann ∧ b.connections[1]? = some bob
      ∧ ann.reads.length = 2 ∧ bob.unread.length = 1
      ∧ ann.reads ++ ann.unread = Broadcaster.due 0 {} threeTabs
      ∧ bob.reads ++ bob.unread = Broadcaster.due 1 {} threeTabs := by
  have hends : (exec Broadcaster.step {} threeTabs).bind (fun b =>
      b.connections[0]?.bind fun ann => b.connections[1]?.map fun bob =>
        (ann.reads.length, bob.unread.length)) = some (2, 1) := by decide +kernel
  obtain ⟨b, hrun, hends⟩ := Option.bind_eq_some_iff.mp hends
  obtain ⟨ann, hann, hends⟩ := Option.bind_eq_some_iff.mp hends
  obtain ⟨bob, hbob, hends⟩ := Option.map_eq_some_iff.mp hends
  obtain ⟨hreads, hunread⟩ := Prod.mk.inj hends
  have hdistinct : ∀ e ∈ threeTabs, e.Distinct := by decide
  exact ⟨b, hrun, ann, bob, hann, hbob, hreads, hunread,
    (sse_delivery threeTabs hdistinct hrun hann).1, (sse_delivery threeTabs hdistinct hrun hbob).1⟩

end Microservices.Notifications
