import Mathlib.Data.List.Dedup
import Microservices.Notifications.Delivery

/-!
# The registry of connections

`_queues` is written in three places: a subscription files its queue under its user when it
starts, takes it out again when it is over, together with the bucket if that was the last
one, and a broadcast might take out queues it finds dead, which it never does. So at every
point the buckets are those of the users with a live connection, and the counts are right.
-/

namespace Microservices.Notifications

open Schedule

namespace Broadcaster

/-- `active_user_count`. -/
def activeUserCount (b : Broadcaster) : Nat := b.queues.entries.length

/-- `active_connection_count`. -/
def activeConnectionCount (b : Broadcaster) : Nat :=
  (b.queues.entries.map fun bucket => bucket.2.entries.length).sum

/-- Of each live connection, its user. -/
def liveUsers (b : Broadcaster) : List String :=
  (b.connections.filter Connection.live).map Connection.userId

/-- **What the registry is to be.** -/
structure Exact (b : Broadcaster) : Prop where
  connections : ∀ userId connId i, (b.userConns userId).get? connId = some i ↔
    ∃ c, b.connections[i]? = some c ∧ c.live = true ∧ c.userId = userId ∧ c.connId = connId
  distinct : ∀ (i j : Nat) (c d : Connection), b.connections[i]? = some c → b.connections[j]? = some d →
    c.live = true → d.live = true → c.connId = d.connId → i = j
  buckets : ∀ userId bucket, b.queues.get? userId = some bucket → bucket.entries ≠ []
  users : b.activeUserCount = b.liveUsers.dedup.length
  count : b.activeConnectionCount = b.connections.countP Connection.live

variable {b b' : Broadcaster} {i j : Nat} {c : Connection} {e : StreamEvent} {userId : String}
  {connId : Nat}

/-! ## One step -/

/-- What a step does to the registry. -/
theorem registry_step_cases (hs : b.step e = some b') :
    (b'.queues = b.queues ∧ b'.nextConnId = b.nextConnId ∧ ∀ j, b'.filing j = b.filing j)
    ∨ (∃ i c, b.connections[i]? = some c ∧ c.phase = .created ∧ b' = b.start i c)
    ∨ ∃ i c, b.connections[i]? = some c ∧ c.live = true ∧ b'.queues = b.unregister c
      ∧ b'.nextConnId = b.nextConnId
      ∧ b'.connections = b.connections.set i { c with phase := .finished } := by
  rcases step_inv hs with ⟨userId, rfl, rfl⟩ | ⟨i, c, rfl, hi, hphase, rfl⟩
    | ⟨i, c, c', hi, rfl, hident, _, _⟩ | ⟨i, c, rfl, hi, hlive, rfl⟩ | ⟨eventType, data, targets, rfl, rfl⟩
  · refine Or.inl ⟨rfl, rfl, fun j => ?_⟩
    rw [filing_eq_ident, filing_eq_ident, List.getElem?_append]
    split
    · rfl
    · rename_i hlt
      rw [List.getElem?_eq_none (Nat.not_lt.mp hlt)]
      cases j - b.connections.length <;> rfl
  · exact Or.inr (Or.inl ⟨i, c, hi, hphase, rfl⟩)
  · -- the registry goes by who the connections are
    refine Or.inl ⟨rfl, rfl, fun j => ?_⟩
    have hlt := (List.getElem?_eq_some_iff.mp hi).1
    rw [filing_eq_ident, filing_eq_ident]
    by_cases hj : j = i
    · rw [hj, List.getElem?_set_self hlt, hi, Option.map_some, Option.map_some, hident]
    · rw [List.getElem?_set_ne (Ne.symm hj)]
  · exact Or.inr (Or.inr ⟨i, c, hi, hlive, rfl, rfl, rfl⟩)
  · refine Or.inl ⟨?_, ?_, filing_broadcast _ _ _ _⟩
    · unfold broadcast
      split <;> rfl
    · unfold broadcast
      split <;> rfl

/-- Connections that are filed have numbers of their own. -/
def Numbered (b : Broadcaster) : Prop :=
  ∀ i j userId userId' connId, b.filing i = some (userId, connId) →
    b.filing j = some (userId', connId) → i = j

theorem numbered_init : Numbered {} := by
  intro i j userId userId' connId h
  cases h

theorem numbered_step (h : Registered b) (hnum : b.Numbered) (hs : b.step e = some b') :
    b'.Numbered := by
  intro i j userId userId' connId hi hj
  rcases registry_step_cases hs with ⟨_, _, hfiling⟩ | ⟨k, c, hk, _, rfl⟩ | ⟨k, c, hk, _, _, _, hconns⟩
  · rw [hfiling] at hi hj
    exact hnum i j _ _ _ hi hj
  · have hconns : (b.start k c).connections
        = b.connections.set k { c with phase := .waiting, connId := b.nextConnId + 1 } := rfl
    have hfiling : ∀ j, (b.start k c).filing j
        = if j = k then some (c.userId, b.nextConnId + 1) else b.filing j := filing_of_set hk hconns
    rw [hfiling] at hi hj
    split at hi
    · split at hj
      · rename_i hik hjk
        exact hik.trans hjk.symm
      · -- the number is new
        cases hi
        have hle := h.fresh _ _ _ hj
        omega
    · split at hj
      · cases hj
        have hle := h.fresh _ _ _ hi
        omega
      · exact hnum i j _ _ _ hi hj
  · have hfiling : ∀ j, b'.filing j = if j = k then none else b.filing j := filing_of_set hk hconns
    rw [hfiling] at hi hj
    split at hi
    · cases hi
    · split at hj
      · cases hj
      · exact hnum i j _ _ _ hi hj

/-- No bucket is empty. -/
def Filled (b : Broadcaster) : Prop :=
  ∀ userId bucket, b.queues.get? userId = some bucket → bucket.entries ≠ []

theorem filled_init : Filled {} := by
  intro userId bucket h
  cases h

theorem filled_step (h : b.Filled) (hs : b.step e = some b') : b'.Filled := by
  intro userId bucket hget
  rcases registry_step_cases hs with ⟨hqueues, _, _⟩ | ⟨i, c, _, _, rfl⟩ | ⟨i, c, _, _, hqueues, _, _⟩
  · rw [hqueues] at hget
    exact h userId bucket hget
  · by_cases hu : userId = c.userId
    · subst hu
      have hbucket : bucket = (b.userConns c.userId).set (b.nextConnId + 1) i :=
        Option.some.inj (hget.symm.trans (Dict.get?_set_self _ _ _))
      intro hempty
      have hthere := Dict.get?_eq_some_iff.mp
        (Dict.get?_set_self (b.userConns c.userId) (b.nextConnId + 1) i)
      rw [← hbucket, hempty] at hthere
      cases hthere
    · exact h userId bucket ((Dict.get?_set_ne hu).symm.trans hget)
  · rw [hqueues] at hget
    unfold unregister at hget
    dsimp only at hget
    split at hget
    · exact h userId bucket (Dict.get?_erase_eq_some_iff.mp hget).1
    · rename_i hne
      by_cases hu : userId = c.userId
      · subst hu
        rw [Dict.get?_set_self] at hget
        cases hget
        exact hne
      · exact h userId bucket ((Dict.get?_set_ne hu).symm.trans hget)

/-! ## Counting -/

/-- The live connections, by user and number. -/
def filings (b : Broadcaster) : List (String × Nat) :=
  (b.connections.filter Connection.live).map fun c => (c.userId, c.connId)

theorem filing_eq_some_iff {place : String × Nat} : b.filing i = some place ↔
    ∃ c, b.connections[i]? = some c ∧ c.live = true ∧ (c.userId, c.connId) = place := by
  unfold filing
  rw [Option.map_eq_some_iff]
  constructor
  · rintro ⟨c, hc, rfl⟩
    obtain ⟨hi, hlive⟩ := Option.filter_eq_some_iff.mp hc
    exact ⟨c, hi, hlive, rfl⟩
  · rintro ⟨c, hi, hlive, rfl⟩
    exact ⟨c, Option.filter_eq_some_iff.mpr ⟨hi, hlive⟩, rfl⟩

theorem mem_filings {place : String × Nat} : place ∈ b.filings ↔ ∃ i, b.filing i = some place := by
  unfold filings
  simp only [filing_eq_some_iff, List.mem_map, List.mem_filter]
  constructor
  · rintro ⟨c, ⟨hc, hlive⟩, hplace⟩
    obtain ⟨i, hi⟩ := List.mem_iff_getElem?.mp hc
    exact ⟨i, c, hi, hlive, hplace⟩
  · rintro ⟨i, c, hi, hlive, hplace⟩
    exact ⟨c, ⟨List.mem_of_getElem? hi, hlive⟩, hplace⟩

theorem nodup_filings (h : b.Numbered) : b.filings.Nodup := by
  unfold filings List.Nodup
  rw [List.pairwise_map, List.pairwise_filter, List.pairwise_iff_getElem]
  intro i j hi hj hlt hc hd heq
  have hfiled : b.filing i = some _ :=
    filing_eq_some_iff.mpr ⟨_, List.getElem?_eq_getElem hi, hc, rfl⟩
  have hfiled' : b.filing j = some _ :=
    filing_eq_some_iff.mpr ⟨_, List.getElem?_eq_getElem hj, hd, heq.symm⟩
  exact Nat.ne_of_lt hlt (h i j _ _ _ hfiled hfiled')

/-- The filed connections, bucket by bucket. -/
def filed (b : Broadcaster) : List (String × Nat) :=
  b.queues.entries.flatMap fun bucket => bucket.2.entries.map fun conn => (bucket.1, conn.1)

theorem length_filed (b : Broadcaster) : b.filed.length = b.activeConnectionCount := by
  unfold filed activeConnectionCount
  rw [List.length_flatMap]
  simp only [List.length_map]

theorem mem_filed : (userId, connId) ∈ b.filed ↔ ∃ i, (b.userConns userId).get? connId = some i := by
  unfold filed userConns
  simp only [List.mem_flatMap, List.mem_map]
  constructor
  · rintro ⟨⟨u, conns⟩, hbucket, ⟨k, i⟩, hconn, heq⟩
    cases heq
    rw [Dict.get?_eq_some_of_mem hbucket]
    exact ⟨i, Dict.get?_eq_some_of_mem hconn⟩
  · rintro ⟨i, hi⟩
    cases hget : b.queues.get? userId with
    | none =>
        rw [hget] at hi
        cases hi
    | some conns =>
        rw [hget] at hi
        exact ⟨(userId, conns), Dict.mem_of_get?_eq_some hget, (connId, i),
          Dict.mem_of_get?_eq_some hi, rfl⟩

theorem nodup_filed (b : Broadcaster) : b.filed.Nodup := by
  refine List.nodup_flatMap.mpr ⟨fun bucket _ => ?_, ?_⟩
  · have hnodup := bucket.2.nodup.map (Prod.mk_right_injective bucket.1)
    rwa [List.map_map] at hnodup
  · refine (List.pairwise_map.mp b.queues.nodup).imp ?_
    rintro bucket bucket' hne place hplace hplace'
    obtain ⟨_, _, rfl⟩ := List.mem_map.mp hplace
    obtain ⟨_, _, heq⟩ := List.mem_map.mp hplace'
    exact hne (congrArg Prod.fst heq).symm

theorem Registered.mem_filed (h : Registered b) {place : String × Nat} :
    place ∈ b.filed ↔ place ∈ b.filings := by
  obtain ⟨userId, connId⟩ := place
  rw [Broadcaster.mem_filed, mem_filings]
  exact exists_congr fun i => h.exact userId connId i

/-- A user has a bucket as long as a connection of his lives. -/
theorem Registered.mem_keys (h : Registered b) (hfilled : b.Filled) :
    userId ∈ b.queues.keys ↔ userId ∈ b.liveUsers := by
  have hlive : userId ∈ b.liveUsers ↔ ∃ connId, (userId, connId) ∈ b.filings := by
    unfold liveUsers filings
    simp only [List.mem_map, Prod.mk.injEq]
    constructor
    · rintro ⟨c, hc, rfl⟩
      exact ⟨c.connId, c, hc, rfl, rfl⟩
    · rintro ⟨_, c, hc, rfl, _⟩
      exact ⟨c, hc, rfl⟩
  rw [hlive]
  simp only [← h.mem_filed, Broadcaster.mem_filed]
  constructor
  · intro hkey
    obtain ⟨⟨_, bucket⟩, hbucket, rfl⟩ := List.mem_map.mp hkey
    have hget := Dict.get?_eq_some_of_mem hbucket
    obtain ⟨⟨connId, i⟩, hconn⟩ := List.exists_mem_of_ne_nil _ (hfilled _ _ hget)
    refine ⟨connId, i, ?_⟩
    unfold userConns
    rw [hget]
    exact Dict.get?_eq_some_of_mem hconn
  · rintro ⟨connId, i, hi⟩
    by_contra hkey
    unfold userConns at hi
    rw [Dict.get?_eq_none_iff.mpr hkey] at hi
    cases hi

theorem Exact.of_inv (h : Registered b) (hnum : b.Numbered) (hfilled : b.Filled) : b.Exact where
  connections := by
    intro userId connId i
    rw [h.exact, filing_eq_some_iff]
    simp only [Prod.mk.injEq]
  distinct := by
    intro i j c d hi hj hc hd heq
    exact hnum i j c.userId d.userId c.connId (filing_eq_some_iff.mpr ⟨c, hi, hc, rfl⟩)
      (filing_eq_some_iff.mpr ⟨d, hj, hd, by rw [heq]⟩)
  buckets := hfilled
  users := by
    have hperm : b.queues.keys.Perm b.liveUsers.dedup :=
      (List.perm_ext_iff_of_nodup b.queues.nodup (List.nodup_dedup _)).mpr fun userId =>
        (h.mem_keys hfilled).trans List.mem_dedup.symm
    have hlength := hperm.length_eq
    rwa [Dict.keys, List.length_map] at hlength
  count := by
    have hperm : b.filed.Perm b.filings :=
      (List.perm_ext_iff_of_nodup b.nodup_filed (nodup_filings hnum)).mpr fun _ => h.mem_filed
    rw [← length_filed, hperm.length_eq, filings, List.length_map, List.countP_eq_length_filter]

end Broadcaster

/--
**The registry is exact at every point.**

However subscriptions that start, receive, time out, are cancelled or closed are interleaved
with broadcasts: `_queues` has the live connections, each under its user and a number of its
own, there is no empty bucket, and the two counts are the numbers of the users with a live
connection and of the live connections.
-/
theorem connection_registry_exact (es : List StreamEvent) :
    Always Broadcaster.step Broadcaster.Exact {} es := by
  have hinit : Broadcaster.Registered {} ∧ Broadcaster.Numbered {} ∧ Broadcaster.Filled {} :=
    ⟨Broadcaster.registered_init, Broadcaster.numbered_init, Broadcaster.filled_init⟩
  exact always_of_invariant (I := fun b => b.Registered ∧ b.Numbered ∧ b.Filled) (C := fun _ _ => True)
    (fun _ _ _ h _ hs => ⟨Broadcaster.registered_step h.1 hs, Broadcaster.numbered_step h.1 h.2.1 hs,
      Broadcaster.filled_step h.2.2 hs⟩)
    (fun _ h => .of_inv h.1 h.2.1 h.2.2) hinit (meets_true _ _)

end Microservices.Notifications
