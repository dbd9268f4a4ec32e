import Microservices.Gateway.RateLimiter
import Microservices.Gateway.StoresAgree

/-!
# Whose requests a 429 is for

A request is charged to a bucket of its address and, with an identity, to one of its
user, and either can be over. The user's bucket holds the user's own requests. The
address's is shared: whoever fills it, everyone behind the address is refused.

The ledger records, beside the limiter, who sent each request and every call that was
made on a store for it: the clock reading of the call, and when the store ran it, which
for Redis may be later. No store counts more calls for a key than there are in the ledger.
-/

namespace Microservices.Gateway

open Schedule SlidingWindow

/-- Who sent a request, and whether to a login path. -/
structure Sender where
  isAuthPath : Bool
  clientIp : String
  userId : Option String
  deriving DecidableEq, Repr

/-- A call on a store, the request it was made for, and when the store ran it. -/
structure Charge (τ : Type) where
  request : Nat
  call : RateCall τ
  ran : τ

/-- One replica's limiter, with the senders of its requests and the calls made. -/
structure Ledger (τ : Type) where
  limiter : Limiter τ
  senders : Nat → Option Sender := fun _ => none
  /-- In the order the stores ran them. -/
  charges : List (Charge τ) := []

section

variable {τ : Type}

/-- The checks of the sender's requests. -/
def RateLimiter.checksOf (l : RateLimiter) (s : Sender) : List (String × Int) :=
  l.checks s.isAuthPath s.clientIp s.userId

/-- All checks of a request as calls at once. -/
def Limiter.callAll (w : Limiter τ) (i : Nat) (checks : List (String × Int)) : List (Charge τ) :=
  checks.map fun c => ⟨i, w.call c, w.now⟩

/-- The calls a store runs in one step. -/
def Limiter.charged (w : Limiter τ) : LimiterEvent τ → List (Charge τ)
  | .tick _ => []
  | .arrive i isAuthPath clientIp userId =>
      match w.store with
      | some .redis => []
      | some (.memory _) => w.callAll i (w.config.checks isAuthPath clientIp userId)
      | none => if w.redisUrl then [] else w.callAll i (w.config.checks isAuthPath clientIp userId)
  | .pong i ok =>
      match w.requests i with
      | .pinging checks => if ok then [] else w.callAll i checks
      | _ => []
  | .execute i =>
      match w.requests i with
      | .charging _ (check :: _) _ reading none => [⟨i, w.callAt reading check, w.now⟩]
      | _ => []
  | .charge _ _ => []
  | .late n => (w.lost[n]?).toList.map fun p => ⟨p.1, p.2, w.now⟩

namespace Ledger

def init (config : RateLimiter) (redisUrl : Bool) (now : τ) : Ledger τ :=
  { limiter := Limiter.init config redisUrl now }

/-- The senders after an event. -/
def sendersAfter (l : Ledger τ) : LimiterEvent τ → Nat → Option Sender
  | .arrive i isAuthPath clientIp userId =>
      Function.update l.senders i (some ⟨isAuthPath, clientIp, userId⟩)
  | _ => l.senders

variable [Ring τ] [LinearOrder τ]

def step (l : Ledger τ) (e : LimiterEvent τ) : Option (Ledger τ) :=
  (l.limiter.step e).map fun w =>
    { limiter := w, senders := l.sendersAfter e, charges := l.charges ++ l.limiter.charged e }

end Ledger

/-! ## What a store has counted -/

/-- The clock readings of the calls for a key. -/
def chargeTimes (k : String) (charges : List (Charge τ)) : List τ :=
  (charges.filter fun c => c.call.key = k).map fun c => c.call.time

theorem chargeTimes_append (k : String) (charges more : List (Charge τ)) :
    chargeTimes k (charges ++ more) = chargeTimes k charges ++ chargeTimes k more := by
  rw [chargeTimes, List.filter_append, List.map_append]
  rfl

theorem chargeTimes_self (c : Charge τ) : chargeTimes c.call.key [c] = [c.call.time] := by
  rw [chargeTimes, List.filter_cons_of_pos (by simp)]
  rfl

theorem sublist_chargeTimes_append {k : String} {times : List τ} {charges : List (Charge τ)}
    (h : times.Sublist (chargeTimes k charges)) (more : List (Charge τ)) :
    times.Sublist (chargeTimes k (charges ++ more)) := by
  rw [chargeTimes_append]
  exact h.trans (List.sublist_append_left _ _)

/-- The deques hold no more than what the ledger has, in order. -/
def MemoryWithin [LE τ] (charges : List (Charge τ)) (s : InMemoryStore τ) : Prop :=
  ∀ k, (s.bucket k).Sublist (chargeTimes k charges) ∧ (s.bucket k).Pairwise (· ≤ ·)

/-- Nor do the sorted sets. -/
def RedisWithin (charges : List (Charge τ)) (redis : RedisRates τ) : Prop :=
  ∀ k entry, redis k = some entry → entry.value.Sublist (chargeTimes k charges)

theorem MemoryWithin.append [LE τ] {charges : List (Charge τ)} {s : InMemoryStore τ}
    (h : MemoryWithin charges s) (more : List (Charge τ)) : MemoryWithin (charges ++ more) s :=
  fun k => ⟨sublist_chargeTimes_append (h k).1 more, (h k).2⟩

theorem RedisWithin.append {charges : List (Charge τ)} {redis : RedisRates τ}
    (h : RedisWithin charges redis) (more : List (Charge τ)) :
    RedisWithin (charges ++ more) redis :=
  fun k entry hk => sublist_chargeTimes_append (h k entry hk) more

theorem memoryWithin_empty [LE τ] (charges : List (Charge τ)) : MemoryWithin charges Dict.empty :=
  fun _ => ⟨List.nil_sublist _, List.Pairwise.nil⟩

end

section Counting

variable {τ : Type} [Ring τ] [LinearOrder τ]

/-- The calls for the key of `c` that a store may have counted with it: those run before whose
readings are no older than its window, and `c` itself. -/
def countedWith (charges : List (Charge τ)) (c : Charge τ) : List (Charge τ) :=
  charges.filter (fun d => d.call.key = c.call.key ∧ c.call.time - c.call.windowSeconds ≤ d.call.time)
    ++ [c]

/-- What is left of such times in the window is no more than the ledger has in it. -/
theorem length_from_le {charges : List (Charge τ)} {c : Charge τ} {times : List τ}
    (h : times.Sublist (chargeTimes c.call.key charges)) :
    (from_ (c.call.time - c.call.windowSeconds) times).length + 1
      ≤ (countedWith charges c).length := by
  have hle := (h.filter fun t => decide (c.call.time - c.call.windowSeconds ≤ t)).length_le
  have hsame : ((chargeTimes c.call.key charges).filter fun t =>
        decide (c.call.time - c.call.windowSeconds ≤ t)).length
      = (charges.filter fun d => d.call.key = c.call.key
        ∧ c.call.time - c.call.windowSeconds ≤ d.call.time).length := by
    rw [chargeTimes, List.filter_map, List.length_map, List.filter_filter]
    congr 1
    refine List.filter_congr fun d _ => ?_
    simp [Bool.and_comm]
  rw [countedWith, List.length_append, List.length_singleton]
  rw [hsame] at hle
  exact Nat.succ_le_succ hle

/-- A call answered limited has more than its limit behind it. -/
def Exceeds (charges : List (Charge τ)) (c : Charge τ) : Prop :=
  c.call.limit < (countedWith charges c).length

theorem memoryWithin_check {charges : List (Charge τ)} {s : InMemoryStore τ} (c : Charge τ)
    (h : MemoryWithin charges s) (hlast : ∀ d ∈ charges, d.call.time ≤ c.call.time) :
    MemoryWithin (charges ++ [c]) (s.checkAndIncrement c.call).2 := by
  intro k
  rw [checkAndIncrement_eq, InMemoryStore.bucket, chargeTimes_append]
  dsimp only
  by_cases hk : k = c.call.key
  · subst hk
    rw [Dict.get?_use_self, Option.getD_some, chargeTimes_self]
    have hold := (List.dropWhile_sublist (fun t => t < c.call.time - c.call.windowSeconds)).trans
      (h c.call.key).1
    refine ⟨hold.append (List.Sublist.refl _), ?_⟩
    -- the new time is the last, as no call was read later
    refine List.pairwise_append.mpr
      ⟨(h c.call.key).2.sublist (List.dropWhile_sublist _), List.pairwise_singleton _ _, ?_⟩
    intro t ht t' ht'
    obtain ⟨d, hd, rfl⟩ := List.mem_map.mp (hold.subset ht)
    rw [List.mem_singleton.mp ht']
    exact hlast d (List.mem_of_mem_filter hd)
  · -- another key keeps its bucket, or is evicted
    cases hget : (s.use maxTrackedIps c.call.key (s.pruned c.call)).get? k with
    | none => exact ⟨List.nil_sublist _, List.Pairwise.nil⟩
    | some times =>
        have hold : s.get? k = some times := Dict.get?_of_get?_use hk hget
        have hbucket := h k
        rw [InMemoryStore.bucket, hold] at hbucket
        exact ⟨hbucket.1.trans (List.sublist_append_left _ _), hbucket.2⟩

theorem exceeds_of_memory {charges : List (Charge τ)} {s : InMemoryStore τ} {c : Charge τ}
    (h : MemoryWithin charges s) (hlimited : (s.checkAndIncrement c.call).1.1 = true) :
    Exceeds charges c := by
  rw [checkAndIncrement_eq] at hlimited
  have hover : c.call.limit < ((s.pruned c.call).length : Int) := of_decide_eq_true hlimited
  rw [InMemoryStore.pruned, dropWhile_eq_from (h c.call.key).2, List.length_append,
    List.length_singleton] at hover
  have hle := length_from_le (h c.call.key).1
  unfold Exceeds
  omega

omit [Ring τ] in
theorem sublist_of_get {charges : List (Charge τ)} {redis : RedisRates τ} (h : RedisWithin charges redis)
    (now : τ) (k : String) : ((redis.get now k).getD []).Sublist (chargeTimes k charges) := by
  cases hget : redis.get now k with
  | none => exact List.nil_sublist _
  | some times =>
      obtain ⟨entry, hentry, rfl⟩ := Option.map_eq_some_iff.mp hget
      exact h k entry (Option.filter_eq_some_iff.mp hentry).1

theorem redisWithin_transactionAt {charges : List (Charge τ)} {redis : RedisRates τ} (c : Charge τ)
    (h : RedisWithin charges redis) :
    RedisWithin (charges ++ [c]) (redis.transactionAt c.ran c.call).2 := by
  intro k entry hentry
  unfold RedisRates.transactionAt at hentry
  dsimp only at hentry
  rw [chargeTimes_append]
  by_cases hk : k = c.call.key
  · subst hk
    rw [ExpiringStore.put_self] at hentry
    cases hentry
    rw [chargeTimes_self]
    exact (List.filter_sublist.trans (sublist_of_get h _ _)).append (List.Sublist.refl _)
  · rw [ExpiringStore.put_of_ne _ hk] at hentry
    exact (h k entry hentry).trans (List.sublist_append_left _ _)

/-- Whenever Redis runs the pipeline, what it counts is not older than the window. -/
theorem exceeds_of_redis {charges : List (Charge τ)} {redis : RedisRates τ} {c : Charge τ}
    (h : RedisWithin charges redis)
    (hlimited : (rateAnswer c.call.limit (redis.transactionAt c.ran c.call).1).1 = true) :
    Exceeds charges c := by
  have hover : c.call.limit < ((redis.transactionAt c.ran c.call).1 : Int) :=
    of_decide_eq_true hlimited
  unfold RedisRates.transactionAt at hover
  dsimp only at hover
  rw [List.length_append, List.length_singleton] at hover
  have hlater : (((redis.get c.ran c.call.key).getD []).filter
        fun t => ¬ t ≤ c.call.time - c.call.windowSeconds).length
      ≤ (from_ (c.call.time - c.call.windowSeconds)
        ((redis.get c.ran c.call.key).getD [])).length := by
    refine (List.monotone_filter_right _ fun t ht => ?_).length_le
    exact decide_eq_true (le_of_lt (not_le.mp (of_decide_eq_true ht)))
  have hle := length_from_le (c := c) (sublist_of_get h c.ran c.call.key)
  unfold Exceeds
  omega

/-- Some call for the request has exceeded its limit. -/
def OverFor (charges : List (Charge τ)) (i : Nat) : Prop :=
  ∃ before c after, charges = before ++ c :: after ∧ c.request = i ∧ Exceeds before c

theorem OverFor.append {charges : List (Charge τ)} {i : Nat} (h : OverFor charges i)
    (more : List (Charge τ)) : OverFor (charges ++ more) i := by
  obtain ⟨before, c, after, rfl, hi, hover⟩ := h
  exact ⟨before, c, after ++ more, by rw [List.append_assoc, List.cons_append], hi, hover⟩

/-- The calls have been run in this order, none before its clock reading and none after `now`. -/
def InOrder (charges : List (Charge τ)) (now : τ) : Prop :=
  (charges.map Charge.ran).Pairwise (· ≤ ·) ∧ ∀ c ∈ charges, c.call.time ≤ c.ran ∧ c.ran ≤ now

omit [Ring τ] in
theorem InOrder.append {charges more : List (Charge τ)} {now : τ} (h : InOrder charges now)
    (hmore : ∀ c ∈ more, c.ran = now ∧ c.call.time ≤ now) : InOrder (charges ++ more) now := by
  constructor
  · rw [List.map_append, List.pairwise_append]
    refine ⟨h.1, ?_, ?_⟩
    · refine List.pairwise_map.mpr (List.pairwise_of_forall_mem_list fun c hc d hd => ?_)
      exact le_of_eq ((hmore c hc).1.trans (hmore d hd).1.symm)
    · intro s hs t ht
      obtain ⟨c, hc, rfl⟩ := List.mem_map.mp hs
      obtain ⟨d, hd, rfl⟩ := List.mem_map.mp ht
      rw [(hmore d hd).1]
      exact (h.2 c hc).2
  · intro c hc
    rcases List.mem_append.mp hc with hc | hc
    · exact h.2 c hc
    · obtain ⟨hran, htime⟩ := hmore c hc
      exact ⟨hran ▸ htime, le_of_eq hran⟩

omit [Ring τ] in
theorem InOrder.later {charges : List (Charge τ)} {now now' : τ} (h : InOrder charges now)
    (hle : now ≤ now') : InOrder charges now' :=
  ⟨h.1, fun c hc => ⟨(h.2 c hc).1, le_trans (h.2 c hc).2 hle⟩⟩

omit [Ring τ] in
theorem time_of_callAll {w : Limiter τ} {i : Nat} {checks : List (String × Int)} {c : Charge τ}
    (hc : c ∈ w.callAll i checks) : c.ran = w.now ∧ c.call.time ≤ w.now := by
  obtain ⟨check, _, rfl⟩ := List.mem_map.mp hc
  exact ⟨rfl, le_refl w.now⟩

/-- All checks of a request on an in-memory store. -/
theorem answered_within {charges : List (Charge τ)} {s : InMemoryStore τ} (w : Limiter τ) (i : Nat)
    (h : MemoryWithin charges s) (horder : InOrder charges w.now) (checks : List (String × Int)) :
    MemoryWithin (charges ++ w.callAll i checks)
        (answered InMemoryStore.checkAndIncrement s (checks.map w.call)).1
      ∧ (((answered InMemoryStore.checkAndIncrement s (checks.map w.call)).2.any fun e => e.2.1) = true
        → OverFor (charges ++ w.callAll i checks) i) := by
  induction checks using List.reverseRecOn with
  | nil =>
      refine ⟨h.append _, fun hany => ?_⟩
      cases hany
  | append_singleton checks check ih =>
      obtain ⟨hwithin, hover⟩ := ih
      have hsplit : charges ++ w.callAll i (checks ++ [check])
          = (charges ++ w.callAll i checks) ++ [⟨i, w.call check, w.now⟩] := by
        rw [Limiter.callAll, List.map_append, List.append_assoc]
        rfl
      have hpast := (horder.append fun c (hc : c ∈ w.callAll i checks) => time_of_callAll hc).2
      rw [List.map_append, List.map_singleton, answered_snoc, hsplit]
      refine ⟨memoryWithin_check ⟨i, w.call check, w.now⟩ hwithin
        (fun d hd => le_trans (hpast d hd).1 (hpast d hd).2), fun hany => ?_⟩
      rw [List.any_cons, Bool.or_eq_true] at hany
      rcases hany with hlast | hearlier
      · exact ⟨_, _, [], rfl, rfl, exceeds_of_memory (c := ⟨i, w.call check, w.now⟩) hwithin hlast⟩
      · exact (hover hearlier).append _

/-! ## The ledger keeps up with the limiter -/

omit [Ring τ] [LinearOrder τ] in
/-- A request is charged to different keys. -/
theorem nodup_checksOf (config : RateLimiter) (s : Sender) :
    ((config.checksOf s).map Prod.fst).Nodup := by
  have hkeys : (config.checksOf s).map Prod.fst
      = ipKey (if s.isAuthPath then "auth" else "general") s.clientIp :: userKeys s.userId := by
    rw [RateLimiter.checksOf, RateLimiter.checks, List.map_cons, List.map_map]
    exact congrArg _ (List.map_id _)
  rw [hkeys, List.nodup_cons]
  constructor
  · refine ipKey_not_userKey ?_
    cases s.isAuthPath with
    | true => exact Or.inl rfl
    | false => exact Or.inr rfl
  · unfold userKeys
    split
    · exact List.nodup_nil
    · exact List.nodup_singleton _

/-- The checks of a request that no store has run for it: the first is taken off once its pipeline
has run. -/
def unspent (rest : List (String × Int)) : Option Nat → List (String × Int)
  | none => rest
  | some _ => rest.tail

/-- The calls that a store has run, and those that Redis may still run, by request and key. -/
def Ledger.sent (l : Ledger τ) : List (Nat × String) :=
  (l.charges.map fun c => (c.request, c.call.key)) ++ l.limiter.lost.map fun p => (p.1, p.2.key)

/-- What the ledger says of a request in this phase. -/
def PhaseAgrees (config : RateLimiter) (senders : Nat → Option Sender) (sent : List (Nat × String))
    (charges : List (Charge τ)) (now : τ) (i : Nat) : LimiterPhase τ → Prop
  | .received => ∀ p ∈ sent, p.1 ≠ i
  | .pinging checks =>
      (∃ s, senders i = some s ∧ checks = config.checksOf s) ∧ ∀ p ∈ sent, p.1 ≠ i
  | .charging _ rest limited reading count =>
      ((∃ s, senders i = some s ∧ rest ⊆ config.checksOf s) ∧ (rest.map Prod.fst).Nodup
          ∧ reading ≤ now)
        ∧ (∀ p ∈ sent, p.1 = i → p.2 ∉ (unspent rest count).map Prod.fst)
        ∧ (limited = true → OverFor charges i)
        ∧ ∀ check ∈ rest.head?, ∀ n ∈ count, (rateAnswer check.2 n).1 = true → OverFor charges i
  | .decided limited => limited = true → OverFor charges i

/-- The call is one of the checks of its request. -/
def IsCheck (config : RateLimiter) (senders : Nat → Option Sender) (i : Nat) (call : RateCall τ) :
    Prop :=
  call.windowSeconds = config.windowSeconds
    ∧ ∃ s, senders i = some s ∧ (call.key, call.limit) ∈ config.checksOf s

structure LedgerInv (config : RateLimiter) (l : Ledger τ) : Prop where
  config_eq : l.limiter.config = config
  order : InOrder l.charges l.limiter.now
  memories : ∀ s ∈ l.limiter.memories, MemoryWithin l.charges s
  redis : RedisWithin l.charges l.limiter.redis
  owned : ∀ c ∈ l.charges, IsCheck config l.senders c.request c.call
  lost : ∀ p ∈ l.limiter.lost, IsCheck config l.senders p.1 p.2 ∧ p.2.time ≤ l.limiter.now
  /-- No request is charged to a key twice. -/
  once : l.sent.Nodup
  phases : ∀ i, PhaseAgrees config l.senders l.sent l.charges l.limiter.now i (l.limiter.requests i)

variable {config : RateLimiter} {l : Ledger τ} {w : Limiter τ} {i j : Nat} {now now' : τ}

theorem ledgerInv_init (config : RateLimiter) (redisUrl : Bool) (now : τ) :
    LedgerInv config (Ledger.init config redisUrl now) where
  config_eq := rfl
  order := ⟨List.Pairwise.nil, by intro c hc; cases hc⟩
  memories := by intro s hs; cases hs
  redis := by intro k entry hk; cases hk
  owned := by intro c hc; cases hc
  lost := by intro p hp; cases hp
  once := List.nodup_nil
  phases := by intro i p hp; cases hp

omit [Ring τ] [LinearOrder τ] in
theorem mem_sent_of_charge {c : Charge τ} (hc : c ∈ l.charges) :
    (c.request, c.call.key) ∈ l.sent :=
  List.mem_append_left _ (List.mem_map_of_mem hc)

omit [Ring τ] [LinearOrder τ] in
theorem mem_sent_of_lost {p : Nat × RateCall τ} (hp : p ∈ l.limiter.lost) :
    (p.1, p.2.key) ∈ l.sent :=
  List.mem_append_right _ (List.mem_map_of_mem hp)

omit [Ring τ] [LinearOrder τ] in
theorem sent_enter_perm (l : Ledger τ) (more : List (Charge τ)) :
    ({ l with charges := l.charges ++ more } : Ledger τ).sent.Perm
      (l.sent ++ more.map fun c => (c.request, c.call.key)) := by
  unfold Ledger.sent
  rw [List.map_append, List.append_assoc, List.append_assoc]
  exact List.perm_append_comm.append_left _

omit [Ring τ] [LinearOrder τ] in
theorem mem_sent_enter {more : List (Charge τ)} {p : Nat × String}
    (hp : p ∈ ({ l with charges := l.charges ++ more } : Ledger τ).sent) :
    p ∈ l.sent ∨ ∃ c ∈ more, (c.request, c.call.key) = p := by
  have hsplit := (sent_enter_perm l more).mem_iff.mp hp
  exact (List.mem_append.mp hsplit).imp_right List.mem_map.mp

omit [Ring τ] [LinearOrder τ] in
/-- A call that is run late has been sent before. -/
theorem sent_runLate_perm {n : Nat} {p : Nat × RateCall τ} (hp : l.limiter.lost[n]? = some p)
    (hw : w.lost = l.limiter.lost.eraseIdx n) (now : τ) :
    ({ l with limiter := w, charges := l.charges ++ [⟨p.1, p.2, now⟩] } : Ledger τ).sent.Perm
      l.sent := by
  obtain ⟨hn, rfl⟩ := List.getElem?_eq_some_iff.mp hp
  unfold Ledger.sent
  rw [hw, List.map_append, List.append_assoc]
  exact ((List.getElem_cons_eraseIdx_perm hn).map fun p => (p.1, p.2.key)).append_left _

/-- What is sent for other requests does not matter to a phase. -/
theorem PhaseAgrees.append {senders : Nat → Option Sender} {sent sent' : List (Nat × String)}
    {charges : List (Charge τ)} {phase : LimiterPhase τ}
    (h : PhaseAgrees config senders sent charges now j phase)
    (hsent : ∀ p ∈ sent', p.1 = j → p ∈ sent) (more : List (Charge τ)) :
    PhaseAgrees config senders sent' (charges ++ more) now j phase := by
  cases phase with
  | received => exact fun p hp hj => h p (hsent p hp hj) hj
  | pinging checks => exact ⟨h.1, fun p hp hj => h.2 p (hsent p hp hj) hj⟩
  | charging checks rest limited reading count =>
      obtain ⟨hrest, hfresh, hlimited, hcount⟩ := h
      exact ⟨hrest, fun p hp hj => hfresh p (hsent p hp hj) hj, fun hl => (hlimited hl).append more,
        fun check hcheck n hn hover => (hcount check hcheck n hn hover).append more⟩
  | decided limited => exact fun hlimited => (h hlimited).append more

/-- Nor do other senders, -/
theorem PhaseAgrees.of_sender {senders senders' : Nat → Option Sender} {sent : List (Nat × String)}
    {charges : List (Charge τ)} {phase : LimiterPhase τ}
    (h : PhaseAgrees config senders sent charges now j phase) (hsame : senders' j = senders j) :
    PhaseAgrees config senders' sent charges now j phase := by
  cases phase with
  | received => exact h
  | pinging checks =>
      obtain ⟨⟨s, hs, hchecks⟩, hnone⟩ := h
      exact ⟨⟨s, hsame.trans hs, hchecks⟩, hnone⟩
  | charging checks rest limited reading count =>
      obtain ⟨⟨⟨s, hs, hrest⟩, hreading⟩, hagrees⟩ := h
      exact ⟨⟨⟨s, hsame.trans hs, hrest⟩, hreading⟩, hagrees⟩
  | decided limited => exact h

/-- nor time going on. -/
theorem PhaseAgrees.later {senders : Nat → Option Sender} {sent : List (Nat × String)}
    {charges : List (Charge τ)} {phase : LimiterPhase τ}
    (h : PhaseAgrees config senders sent charges now j phase) (hle : now ≤ now') :
    PhaseAgrees config senders sent charges now' j phase := by
  cases phase with
  | received => exact h
  | pinging checks => exact h
  | charging checks rest limited reading count =>
      obtain ⟨⟨hrest, hnodup, hreading⟩, hagrees⟩ := h
      exact ⟨⟨hrest, hnodup, le_trans hreading hle⟩, hagrees⟩
  | decided limited => exact h

/-- What is not about requests and time may change within bounds. -/
theorem LedgerInv.withStores (h : LedgerInv config l) (hconfig : w.config = l.limiter.config)
    (hnow : w.now = l.limiter.now) (hlost : w.lost = l.limiter.lost)
    (hrequests : w.requests = l.limiter.requests)
    (hmemories : ∀ s ∈ w.memories, MemoryWithin l.charges s)
    (hredis : RedisWithin l.charges w.redis) :
    LedgerInv config { l with limiter := w } where
  config_eq := hconfig.trans h.config_eq
  order := hnow ▸ h.order
  memories := hmemories
  redis := hredis
  owned := h.owned
  lost := by
    intro p hp
    show IsCheck config l.senders p.1 p.2 ∧ p.2.time ≤ w.now
    rw [hnow]
    exact h.lost p (hlost ▸ hp)
  once := by
    unfold Ledger.sent
    rw [hlost]
    exact h.once
  phases := by
    intro j
    unfold Ledger.sent
    rw [hlost, hnow, hrequests]
    exact h.phases j

/-- A request goes on to another phase. -/
theorem LedgerInv.setRequest (h : LedgerInv config l) (phase : LimiterPhase τ)
    (hphase : PhaseAgrees config l.senders l.sent l.charges l.limiter.now i phase) :
    LedgerInv config { l with limiter := l.limiter.setRequest i phase } where
  config_eq := h.config_eq
  order := h.order
  memories := h.memories
  redis := h.redis
  owned := h.owned
  lost := h.lost
  once := h.once
  phases := by
    intro j
    show PhaseAgrees config l.senders l.sent l.charges l.limiter.now j
      (Function.update l.limiter.requests i phase j)
    by_cases hj : j = i
    · subst hj
      rw [Function.update_self]
      exact hphase
    · rw [Function.update_of_ne hj]
      exact h.phases j

omit [Ring τ] [LinearOrder τ] in
theorem setRequest_idem (w : Limiter τ) (i : Nat) (p q : LimiterPhase τ) :
    (w.setRequest i p).setRequest i q = w.setRequest i q := by
  unfold Limiter.setRequest
  rw [Function.update_idem]

/-- While it is not known what its calls make of it, a request counts as let through. -/
theorem LedgerInv.undecided (h : LedgerInv config l) (i : Nat) :
    LedgerInv config { l with limiter := l.limiter.setRequest i (.decided false) } :=
  h.setRequest _ (by intro hlimited; cases hlimited)

/-- Calls for a request are entered, each for another of its checks. -/
theorem LedgerInv.enter (h : LedgerInv config l) (more : List (Charge τ))
    (hrequest : ∀ c ∈ more, c.request = i)
    (htime : ∀ c ∈ more, c.ran = l.limiter.now ∧ c.call.time ≤ l.limiter.now)
    (howned : ∀ c ∈ more, IsCheck config l.senders i c.call)
    (hnodup : (more.map fun c => c.call.key).Nodup)
    (hnew : ∀ p ∈ l.sent, p.1 = i → p.2 ∉ more.map fun c => c.call.key)
    (hphase : PhaseAgrees config l.senders
      ({ l with charges := l.charges ++ more } : Ledger τ).sent (l.charges ++ more) l.limiter.now i
      (l.limiter.requests i)) :
    LedgerInv config { l with charges := l.charges ++ more } where
  config_eq := h.config_eq
  order := h.order.append htime
  memories := fun s hs => (h.memories s hs).append more
  redis := h.redis.append more
  owned := by
    intro c hc
    rcases List.mem_append.mp hc with hc | hc
    · exact h.owned c hc
    · rw [hrequest c hc]
      exact howned c hc
  lost := h.lost
  once := by
    rw [(sent_enter_perm l more).nodup_iff, List.nodup_append]
    refine ⟨h.once, ?_, ?_⟩
    · refine List.Nodup.of_map Prod.snd ?_
      rw [List.map_map]
      exact hnodup
    · intro p hp q hq hpq
      obtain ⟨d, hd, rfl⟩ := List.mem_map.mp hq
      refine hnew p hp (hpq ▸ hrequest d hd) ?_
      rw [hpq]
      exact List.mem_map_of_mem hd
  phases := by
    intro j
    -- for another request nothing has been entered
    by_cases hj : j = i
    · subst hj
      exact hphase
    · refine (h.phases j).append (fun p hp hpj => ?_) more
      rcases mem_sent_enter hp with hold | ⟨c, hc, rfl⟩
      · exact hold
      · exact absurd (hpj.symm.trans (hrequest c hc)) hj

/-- Calls are entered before it is known what they make of the request. -/
theorem LedgerInv.enterUndecided (h : LedgerInv config l) (i : Nat) (more : List (Charge τ))
    (hrequest : ∀ c ∈ more, c.request = i)
    (htime : ∀ c ∈ more, c.ran = l.limiter.now ∧ c.call.time ≤ l.limiter.now)
    (howned : ∀ c ∈ more, IsCheck config l.senders i c.call)
    (hnodup : (more.map fun c => c.call.key).Nodup)
    (hnew : ∀ p ∈ l.sent, p.1 = i → p.2 ∉ more.map fun c => c.call.key) :
    LedgerInv config
      { l with
        limiter := l.limiter.setRequest i (.decided false)
        charges := l.charges ++ more } := by
  refine (h.undecided i).enter more hrequest htime howned hnodup hnew ?_
  show PhaseAgrees _ _ _ _ _ i (Function.update l.limiter.requests i (.decided false) i)
  rw [Function.update_self]
  intro hlimited
  cases hlimited

omit [Ring τ] [LinearOrder τ] in
theorem keys_callAll (w : Limiter τ) (i : Nat) (checks : List (String × Int)) :
    ((w.callAll i checks).map fun c => c.call.key) = checks.map Prod.fst := by
  rw [Limiter.callAll, List.map_map]
  rfl

/-- All checks at once, on a store that counts no more than the ledger. -/
theorem LedgerInv.chargeMemory (h : LedgerInv config l) {s : Sender} (hsender : l.senders i = some s)
    (hnone : ∀ p ∈ l.sent, p.1 ≠ i) (n : Nat) {memory : InMemoryStore τ}
    (hmemory : MemoryWithin l.charges memory) :
    LedgerInv config
      { l with
        limiter := l.limiter.chargeMemory i (config.checksOf s) n memory
        charges := l.charges ++ l.limiter.callAll i (config.checksOf s) } := by
  obtain ⟨hwithin, hover⟩ := answered_within l.limiter i hmemory h.order (config.checksOf s)
  have hentered := h.enterUndecided i (l.limiter.callAll i (config.checksOf s))
    (fun c hc => by
      obtain ⟨check, _, rfl⟩ := List.mem_map.mp hc
      rfl)
    (fun c hc => time_of_callAll hc)
    (fun c hc => by
      obtain ⟨check, hcheck, rfl⟩ := List.mem_map.mp hc
      exact ⟨congrArg RateLimiter.windowSeconds h.config_eq, s, hsender, hcheck⟩)
    (by rw [keys_callAll]; exact nodup_checksOf config s)
    (fun p hp heq => absurd heq (hnone p hp))
  have hdecided := hentered.setRequest (i := i)
    (.decided ((answered InMemoryStore.checkAndIncrement memory
      ((config.checksOf s).map l.limiter.call)).2.any fun e => e.2.1)) hover
  rw [setRequest_idem] at hdecided
  refine hdecided.withStores rfl rfl rfl rfl ?_ hdecided.redis
  intro s' hs'
  rcases List.mem_or_eq_of_mem_set hs' with hs' | rfl
  · exact hdecided.memories s' hs'
  · exact hwithin

/-- Before the first check on Redis. -/
theorem LedgerInv.startCharging (h : LedgerInv config l) {s : Sender}
    (hsender : l.senders i = some s) (hnone : ∀ p ∈ l.sent, p.1 ≠ i) :
    LedgerInv config
      { l with
        limiter := l.limiter.setRequest i
          (.charging (config.checksOf s) (config.checksOf s) false l.limiter.now none) } := by
  refine h.setRequest _
    ⟨⟨⟨s, hsender, List.Subset.refl _⟩, nodup_checksOf config s, le_refl _⟩, ?_, ?_, ?_⟩
  · exact fun p hp heq => absurd heq (hnone p hp)
  · intro hlimited
    cases hlimited
  · intro check _ n hn
    cases hn

theorem LedgerInv.newMemory (h : LedgerInv config l) :
    LedgerInv config { l with limiter := l.limiter.newMemory } := by
  refine h.withStores rfl rfl rfl rfl (fun s hs => ?_) h.redis
  rcases List.mem_append.mp hs with hs | hs
  · exact h.memories s hs
  · rw [List.mem_singleton.mp hs]
    exact memoryWithin_empty _

/-- On a store of its own that a request has just made. -/
theorem LedgerInv.chargeNewMemory (h : LedgerInv config l) {s : Sender}
    (hsender : l.senders i = some s) (hnone : ∀ p ∈ l.sent, p.1 ≠ i) :
    LedgerInv config
      { l with
        limiter := l.limiter.newMemory.proceed i (config.checksOf s)
          (.memory l.limiter.memories.length)
        charges := l.charges ++ l.limiter.callAll i (config.checksOf s) } := by
  refine h.newMemory.chargeMemory hsender hnone l.limiter.memories.length ?_
  show MemoryWithin l.charges ((l.limiter.memories ++ [Dict.empty]).getD _ Dict.empty)
  rw [List.getD_eq_getElem?_getD, List.getElem?_concat_length]
  exact memoryWithin_empty _

/-- What `proceed` charges at once. -/
def proceedCharges (w : Limiter τ) (i : Nat) (checks : List (String × Int)) :
    StoreRef → List (Charge τ)
  | .redis => []
  | .memory _ => w.callAll i checks

theorem LedgerInv.proceed (h : LedgerInv config l) {s : Sender} (hsender : l.senders i = some s)
    (hnone : ∀ p ∈ l.sent, p.1 ≠ i) (store : StoreRef) :
    LedgerInv config
      { l with
        limiter := l.limiter.proceed i (config.checksOf s) store
        charges := l.charges ++ proceedCharges l.limiter i (config.checksOf s) store } := by
  cases store with
  | redis =>
      rw [proceedCharges, List.append_nil]
      exact h.startCharging hsender hnone
  | memory n =>
      refine h.chargeMemory hsender hnone n ?_
      rw [List.getD_eq_getElem?_getD]
      cases hget : l.limiter.memories[n]? with
      | none => exact memoryWithin_empty _
      | some memory => exact h.memories memory (List.mem_of_getElem? hget)

/-- No call has been made for a request that has not come in. -/
theorem LedgerInv.notSent (h : LedgerInv config l) (hreceived : l.limiter.requests i = .received) :
    ∀ p ∈ l.sent, p.1 ≠ i := by
  have hphase := h.phases i
  rw [hreceived] at hphase
  exact hphase

/-- A request is noted with its sender. -/
theorem LedgerInv.enterSender (h : LedgerInv config l) (hreceived : l.limiter.requests i = .received)
    (s : Sender) : LedgerInv config { l with senders := Function.update l.senders i (some s) } := by
  have hnone := h.notSent hreceived
  -- what was sent is for other requests, whose senders are as before
  have hsame : ∀ {k : Nat} {call : RateCall τ}, (k, call.key) ∈ l.sent →
      IsCheck config l.senders k call →
      IsCheck config (Function.update l.senders i (some s)) k call := by
    intro k call hk hcheck
    obtain ⟨hwindow, s', hs', hcheck⟩ := hcheck
    refine ⟨hwindow, s', ?_, hcheck⟩
    rw [← hs']
    exact Function.update_of_ne (hnone _ hk) _ _
  refine { h with
    owned := fun c hc => hsame (mem_sent_of_charge hc) (h.owned c hc)
    lost := fun p hp => (h.lost p hp).imp_left (hsame (mem_sent_of_lost hp))
    phases := fun j => ?_ }
  by_cases hj : j = i
  · subst hj
    show PhaseAgrees _ _ _ _ _ _ (l.limiter.requests j)
    rw [hreceived]
    exact hnone
  · exact (h.phases j).of_sender (Function.update_of_ne hj _ _)

/-- Redis runs the pipeline of a check. -/
theorem LedgerInv.execute (h : LedgerInv config l) {checks rest : List (String × Int)}
    {check : String × Int} {limited : Bool} {reading : τ}
    (hi : l.limiter.requests i = .charging checks (check :: rest) limited reading none) :
    LedgerInv config
      { l with
        limiter := l.limiter.execute i checks check rest limited reading
        charges := l.charges ++ [⟨i, l.limiter.callAt reading check, l.limiter.now⟩] } := by
  have hphase := h.phases i
  rw [hi] at hphase
  obtain ⟨⟨⟨s, hsender, hrest⟩, hnodup, hreading⟩, hfresh, hlimited, -⟩ := hphase
  have hkeys := List.nodup_cons.mp hnodup
  have hcheck : check ∈ config.checksOf s := hrest List.mem_cons_self
  have hentered := h.enterUndecided i [⟨i, l.limiter.callAt reading check, l.limiter.now⟩]
    (fun c hc => by
      cases List.mem_singleton.mp hc
      rfl)
    (fun c hc => by
      cases List.mem_singleton.mp hc
      exact ⟨rfl, hreading⟩)
    (fun c hc => by
      cases List.mem_singleton.mp hc
      exact ⟨congrArg RateLimiter.windowSeconds h.config_eq, s, hsender, hcheck⟩)
    (List.nodup_singleton _)
    (fun p hp heq hmem => by
      rw [List.map_singleton, List.mem_singleton] at hmem
      refine hfresh p hp heq ?_
      rw [hmem]
      exact List.mem_cons_self)
  -- the request goes on waiting, now with the count of its own call among the others
  have hrun := hentered.setRequest (i := i) (.charging checks (check :: rest) limited reading
      (some (l.limiter.redis.transactionAt l.limiter.now (l.limiter.callAt reading check)).1))
    ⟨⟨⟨s, hsender, hrest⟩, hnodup, hreading⟩, ?_, fun hl => (hlimited hl).append _, ?_⟩
  · rw [setRequest_idem] at hrun
    refine hrun.withStores rfl rfl rfl rfl hrun.memories ?_
    exact redisWithin_transactionAt ⟨i, l.limiter.callAt reading check, l.limiter.now⟩ h.redis
  · intro p hp heq hmem
    rcases mem_sent_enter hp with hold | ⟨c, hc, rfl⟩
    · exact hfresh p hold heq (List.mem_cons_of_mem _ hmem)
    · cases List.mem_singleton.mp hc
      exact hkeys.1 hmem
  · intro check' hcheck' n hn hover
    cases hcheck'
    cases hn
    exact ⟨l.charges, _, [], rfl, rfl,
      exceeds_of_redis (c := ⟨i, l.limiter.callAt reading check, l.limiter.now⟩) h.redis hover⟩

omit [Ring τ] [LinearOrder τ] in
theorem giveUp_setRequest (w : Limiter τ) (i j : Nat) (p : LimiterPhase τ) (call : RateCall τ)
    (fault : Fault) :
    (w.setRequest j p).giveUp i call fault = (w.giveUp i call fault).setRequest j p := by
  cases fault <;> rfl

/-- A call that has not been run is given up. -/
theorem LedgerInv.giveUp (h : LedgerInv config l) {call : RateCall τ}
    (hi : ∃ limited, l.limiter.requests i = .decided limited)
    (hcheck : IsCheck config l.senders i call) (htime : call.time ≤ l.limiter.now)
    (hnew : (i, call.key) ∉ l.sent) :
    LedgerInv config { l with limiter := l.limiter.giveUp i call .before } := by
  have hsent : ({ l with limiter := l.limiter.giveUp i call .before } : Ledger τ).sent
      = l.sent ++ [(i, call.key)] := by
    simp only [Ledger.sent, Limiter.giveUp, List.map_append, List.map_singleton, List.append_assoc]
  refine { h with lost := fun p hp => ?_, once := ?_, phases := fun j => ?_ }
  · rcases List.mem_append.mp hp with hold | hnew
    · exact h.lost p hold
    · rw [List.mem_singleton.mp hnew]
      exact ⟨hcheck, htime⟩
  · rw [hsent, List.nodup_append]
    refine ⟨h.once, List.nodup_singleton _, fun p hp q hq hpq => hnew ?_⟩
    rw [← List.mem_singleton.mp hq, ← hpq]
    exact hp
  · rw [hsent]
    by_cases hj : j = i
    · subst hj
      -- a decided request is not concerned with what is sent
      obtain ⟨limited, hdecided⟩ := hi
      have hphase := h.phases j
      show PhaseAgrees _ _ _ _ _ _ (l.limiter.requests j)
      rw [hdecided] at hphase ⊢
      exact hphase
    · have hsame : ∀ p ∈ l.sent ++ [(i, call.key)], p.1 = j → p ∈ l.sent := by
        intro p hp hpj
        rcases List.mem_append.mp hp with hold | hnew
        · exact hold
        · rw [List.mem_singleton.mp hnew] at hpj
          exact absurd hpj.symm hj
      have hother := (h.phases j).append hsame []
      rw [List.append_nil] at hother
      exact hother

/-- A pipeline comes back. -/
theorem LedgerInv.charge (h : LedgerInv config l) {checks rest : List (String × Int)}
    {check : String × Int} {limited exceeds : Bool} {reading : τ} {count : Option Nat} {fault : Fault}
    (hi : l.limiter.requests i = .charging checks (check :: rest) limited reading count)
    (hover : Limiter.over? check fault count = some exceeds) :
    LedgerInv config
      { l with
        limiter := (l.limiter.giveUp i (l.limiter.callAt reading check) fault).charge i checks rest
          (limited || exceeds) } := by
  have hphase := h.phases i
  rw [hi] at hphase
  obtain ⟨⟨⟨s, hsender, hrest⟩, hnodup, hreading⟩, hfresh, hlimited, hcount⟩ := hphase
  have hkeys := List.nodup_cons.mp hnodup
  have hover' : (limited || exceeds) = true → OverFor l.charges i := by
    intro hany
    rcases Bool.or_eq_true_iff.mp hany with hbefore | hnow
    · exact hlimited hbefore
    · subst hnow
      -- only a pipeline that has run and comes back limits anything
      cases fault with
      | none =>
          cases count with
          | none => cases hover
          | some n => exact hcount check rfl n rfl (Option.some.inj hover)
      | before => cases count <;> cases hover
      | after => cases count <;> cases hover
  have hleft : ∀ p ∈ l.sent, p.1 = i → p.2 ∉ rest.map Prod.fst := by
    intro p hp heq hmem
    refine hfresh p hp heq ?_
    cases count with
    | none => exact List.mem_cons_of_mem _ hmem
    | some n => exact hmem
  -- the request is on its way to its next phase, and the pipeline perhaps to Redis
  obtain ⟨hgiven, hleft'⟩ : LedgerInv config
        { l with
          limiter := (l.limiter.giveUp i (l.limiter.callAt reading check) fault).setRequest i
            (.decided false) }
      ∧ ∀ p ∈ ({ l with limiter := l.limiter.giveUp i (l.limiter.callAt reading check) fault } :
          Ledger τ).sent, p.1 = i → p.2 ∉ rest.map Prod.fst := by
    rw [← giveUp_setRequest]
    cases fault with
    | none | after => exact ⟨h.undecided i, hleft⟩
    | before =>
        cases count with
        | some n => cases hover
        | none =>
            refine ⟨(h.undecided i).giveUp ⟨false, Function.update_self ..⟩
              ⟨congrArg RateLimiter.windowSeconds h.config_eq, s, hsender, hrest List.mem_cons_self⟩
              hreading fun hmem => hfresh _ hmem rfl List.mem_cons_self, fun p hp heq => ?_⟩
            simp only [Ledger.sent, Limiter.giveUp, List.map_append, List.map_singleton,
              ← List.append_assoc] at hp
            rcases List.mem_append.mp hp with hold | hnew
            · exact hleft p hold heq
            · rw [List.mem_singleton.mp hnew]
              exact hkeys.1
  unfold Limiter.charge
  split
  · have hdecided := hgiven.setRequest (i := i) (.decided (limited || exceeds)) hover'
    rw [setRequest_idem] at hdecided
    exact hdecided.withStores rfl rfl rfl rfl hdecided.memories hdecided.redis
  · have hnext := hgiven.setRequest (i := i) (.charging checks rest (limited || exceeds)
        (l.limiter.giveUp i (l.limiter.callAt reading check) fault).now none)
      ⟨⟨⟨s, hsender, fun c hc => hrest (List.mem_cons_of_mem _ hc)⟩, hkeys.2, le_refl _⟩,
        hleft', hover', by intro _ _ n hn; cases hn⟩
    rw [setRequest_idem] at hnext
    exact hnext

/-- Redis runs a pipeline that has been given up. -/
theorem LedgerInv.runLate (h : LedgerInv config l) {n : Nat} {p : Nat × RateCall τ}
    (hp : l.limiter.lost[n]? = some p) :
    LedgerInv config
      { l with
        limiter := l.limiter.runLate n p.2
        charges := l.charges ++ [⟨p.1, p.2, l.limiter.now⟩] } := by
  obtain ⟨hcheck, htime⟩ := h.lost p (List.mem_of_getElem? hp)
  have hsent := sent_runLate_perm hp (show (l.limiter.runLate n p.2).lost = _ from rfl)
    l.limiter.now
  refine
    { config_eq := h.config_eq
      order := h.order.append fun c hc => ?_
      memories := fun s hs => (h.memories s hs).append _
      redis := redisWithin_transactionAt ⟨p.1, p.2, l.limiter.now⟩ h.redis
      owned := fun c hc => ?_
      lost := fun q hq => h.lost q (List.mem_of_mem_eraseIdx hq)
      once := hsent.nodup_iff.mpr h.once
      phases := fun j => (h.phases j).append (fun q hq _ => hsent.subset hq) _ }
  · rw [List.mem_singleton.mp hc]
    exact ⟨rfl, htime⟩
  · rcases List.mem_append.mp hc with hold | hnew
    · exact h.owned c hold
    · rw [List.mem_singleton.mp hnew]
      exact hcheck

/-- A request comes in. -/
theorem LedgerInv.arrive (h : LedgerInv config l) (hreceived : l.limiter.requests i = .received)
    (isAuthPath : Bool) (clientIp : String) (userId : Option String) :
    LedgerInv config
      { l with
        limiter := l.limiter.getStore i (l.limiter.config.checks isAuthPath clientIp userId)
        senders := Function.update l.senders i (some ⟨isAuthPath, clientIp, userId⟩)
        charges := l.charges ++ l.limiter.charged (.arrive i isAuthPath clientIp userId) } := by
  have hentered := h.enterSender hreceived ⟨isAuthPath, clientIp, userId⟩
  have hsender : Function.update l.senders i (some ⟨isAuthPath, clientIp, userId⟩) i
      = some ⟨isAuthPath, clientIp, userId⟩ := Function.update_self ..
  have hnone := h.notSent hreceived
  have hchecks : l.limiter.config.checks isAuthPath clientIp userId
      = config.checksOf ⟨isAuthPath, clientIp, userId⟩ := by
    rw [h.config_eq]
    rfl
  unfold Limiter.getStore
  rw [hchecks]
  cases hstore : l.limiter.store with
  | some store =>
      have hproceed := hentered.proceed hsender hnone store
      cases store with
      | redis =>
          have hcharged : l.limiter.charged (.arrive i isAuthPath clientIp userId) = [] := by
            rw [Limiter.charged, hstore]
          rw [hcharged]
          exact hproceed
      | memory n =>
          have hcharged : l.limiter.charged (.arrive i isAuthPath clientIp userId)
              = l.limiter.callAll i (config.checksOf ⟨isAuthPath, clientIp, userId⟩) := by
            rw [Limiter.charged, hstore, ← hchecks]
          rw [hcharged]
          exact hproceed
  | none =>
      cases hurl : l.limiter.redisUrl with
      | true =>
          have hcharged : l.limiter.charged (.arrive i isAuthPath clientIp userId) = [] := by
            rw [Limiter.charged, hstore, hurl]
            rfl
          rw [hcharged, List.append_nil]
          exact hentered.setRequest _ ⟨⟨_, hsender, rfl⟩, hnone⟩
      | false =>
          have hcharged : l.limiter.charged (.arrive i isAuthPath clientIp userId)
              = l.limiter.callAll i (config.checksOf ⟨isAuthPath, clientIp, userId⟩) := by
            rw [Limiter.charged, hstore, hurl, ← hchecks]
            rfl
          rw [hcharged]
          exact hentered.chargeNewMemory hsender hnone

/-- The ping of a request comes back. -/
theorem LedgerInv.pong (h : LedgerInv config l) {checks : List (String × Int)}
    (hp : l.limiter.requests i = .pinging checks) (ok : Bool) :
    LedgerInv config
      { l with
        limiter := l.limiter.pong i checks ok
        charges := l.charges ++ l.limiter.charged (.pong i ok) } := by
  have hphase := h.phases i
  rw [hp] at hphase
  obtain ⟨⟨s, hsender, rfl⟩, hnone⟩ := hphase
  have hcharged : l.limiter.charged (.pong i ok)
      = if ok then [] else l.limiter.callAll i (config.checksOf s) := by
    rw [Limiter.charged, hp]
  rw [hcharged]
  unfold Limiter.pong
  cases ok with
  | true =>
      have hredis : LedgerInv config
          { l with limiter := { l.limiter with store := some .redis } } :=
        h.withStores rfl rfl rfl rfl h.memories h.redis
      exact hredis.proceed hsender hnone .redis
  | false => exact h.chargeNewMemory hsender hnone

/-- **Every step keeps the ledger in agreement with the limiter.** -/
theorem ledgerInv_step {l' : Ledger τ} {e : LimiterEvent τ} (h : LedgerInv config l)
    (hs : l.step e = some l') : LedgerInv config l' := by
  obtain ⟨w, hw, rfl⟩ := Option.map_eq_some_iff.mp hs
  cases e with
  | tick t =>
      rw [Limiter.step] at hw
      split at hw
      · rename_i hle
        cases hw
        show LedgerInv config { l with limiter := _, charges := l.charges ++ [] }
        rw [List.append_nil]
        exact { h with
          order := h.order.later hle
          lost := fun p hp => (h.lost p hp).imp_right fun htime => le_trans htime hle
          phases := fun i => (h.phases i).later hle }
      · cases hw
  | arrive i isAuthPath clientIp userId =>
      rw [Limiter.step] at hw
      split at hw
      · rename_i hreceived
        cases hw
        exact h.arrive hreceived isAuthPath clientIp userId
      · cases hw
  | pong i ok =>
      rw [Limiter.step] at hw
      split at hw
      · rename_i checks hp
        cases hw
        exact h.pong hp ok
      · cases hw
  | execute i =>
      rw [Limiter.step] at hw
      split at hw
      · rename_i checks check rest limited reading hi
        cases hw
        have hcharged : l.limiter.charged (.execute i)
            = [⟨i, l.limiter.callAt reading check, l.limiter.now⟩] := by
          rw [Limiter.charged, hi]
        rw [hcharged]
        exact h.execute hi
      · cases hw
  | charge i fault =>
      rw [Limiter.step] at hw
      split at hw
      · rename_i checks check rest limited reading count hi
        obtain ⟨exceeds, hover, rfl⟩ := Option.map_eq_some_iff.mp hw
        show LedgerInv config { l with limiter := _, charges := l.charges ++ [] }
        rw [List.append_nil]
        exact h.charge hi hover
      · cases hw
  | late n =>
      obtain ⟨p, hp, rfl⟩ := Option.map_eq_some_iff.mp hw
      have hcharged : l.limiter.charged (.late n) = [⟨p.1, p.2, l.limiter.now⟩] := by
        rw [Limiter.charged, hp]
        rfl
      rw [hcharged]
      exact h.runLate hp

theorem ledgerInv_run {redisUrl : Bool} {now : τ} {es : List (LimiterEvent τ)}
    (h : exec Ledger.step (Ledger.init config redisUrl now) es = some l) : LedgerInv config l :=
  exec_invariant (C := fun _ _ => True) (fun _ _ _ hl _ hs => ledgerInv_step hl hs)
    (ledgerInv_init config redisUrl now) (meets_true _ es) h

/-! ## Whose requests they are -/

/-- More than `n` requests of such senders were counted, `i` itself or from the beginning of the
window before the clock reading of `i` to the moment the store ran its check. -/
def MoreThan (l : Ledger τ) (n : Int) (of : Sender → Prop) (i : Nat) : Prop :=
  ∃ c ∈ l.charges, c.request = i ∧ ∃ ids : List Nat, ids.Nodup ∧ n < ids.length ∧ ∀ j ∈ ids,
    (∃ s, l.senders j = some s ∧ of s)
      ∧ (j = i ∨ ∃ d ∈ l.charges, d.request = j
        ∧ c.call.time - l.limiter.config.windowSeconds ≤ d.call.time
        ∧ d.call.time ≤ d.ran ∧ d.ran ≤ c.ran)

/-- The IP limit of the sender's requests. -/
def RateLimiter.ipLimit (l : RateLimiter) (s : Sender) : Int :=
  if s.isAuthPath then l.authMaxRequests else l.maxRequests

/-- The requests that are charged to the same bucket of an address. -/
def SameAddress (s s' : Sender) : Prop :=
  s'.clientIp = s.clientIp ∧ s'.isAuthPath = s.isAuthPath

omit [Ring τ] [LinearOrder τ] in
/-- A key is the bucket of one user, or of one address and kind of path. -/
theorem checksOf_cases {s : Sender} {check : String × Int} (h : check ∈ config.checksOf s) :
    (check = (ipKey (if s.isAuthPath then "auth" else "general") s.clientIp, config.ipLimit s))
      ∨ ∃ userId, s.userId = some userId ∧ userId ≠ ""
        ∧ check = ("rate:user:" ++ userId, config.userMaxRequests) := by
  rcases List.mem_cons.mp h with rfl | h
  · exact Or.inl rfl
  · obtain ⟨k, hk, rfl⟩ := List.mem_map.mp h
    unfold userKeys at hk
    split at hk
    · cases hk
    · rename_i hne
      rw [List.mem_singleton.mp hk]
      cases huser : s.userId with
      | none =>
          rw [huser] at hne
          exact absurd rfl hne
      | some userId =>
          rw [huser] at hne
          exact Or.inr ⟨userId, rfl, hne, rfl⟩

theorem ipKey_injective {a a' : Bool} {ip ip' : String}
    (h : ipKey (if a then "auth" else "general") ip = ipKey (if a' then "auth" else "general") ip') :
    a = a' ∧ ip = ip' := by
  -- the sixth character tells the scopes apart
  have hsixth : ∀ (a : Bool) (ip : String),
      (ipKey (if a then "auth" else "general") ip).toList[5]? = some (if a then 'a' else 'g') := by
    intro a ip
    cases a <;> simp [ipKey]
  have hscope := hsixth a ip
  rw [h, hsixth a' ip'] at hscope
  have ha : a = a' := by
    cases a <;> cases a' <;> first | rfl | exact absurd hscope (by decide)
  subst ha
  have hlist := congrArg String.toList h
  unfold ipKey at hlist
  rw [String.toList_append, @String.toList_append (_ ++ _) ip'] at hlist
  exact ⟨rfl, String.ext (List.append_cancel_left hlist)⟩

theorem ipKey_ne_userKey {a : Bool} {ip userId : String} :
    ipKey (if a then "auth" else "general") ip ≠ "rate:user:" ++ userId := by
  intro h
  have hsixth := congrArg (fun k => k.toList[5]?) h
  cases a <;> simp [ipKey] at hsixth

omit [Ring τ] [LinearOrder τ] in
/-- The address of a request is told by its bucket. -/
theorem sameAddress_of_key {s s' : Sender} {check : String × Int}
    (h : check ∈ config.checksOf s')
    (hkey : check.1 = ipKey (if s.isAuthPath then "auth" else "general") s.clientIp) :
    SameAddress s s' := by
  rcases checksOf_cases h with rfl | ⟨userId, _, _, rfl⟩
  · obtain ⟨hscope, hip⟩ := ipKey_injective hkey
    exact ⟨hip, hscope⟩
  · exact absurd hkey.symm ipKey_ne_userKey

omit [Ring τ] [LinearOrder τ] in
/-- So is its user. -/
theorem user_of_key {s' : Sender} {check : String × Int} {userId : String}
    (h : check ∈ config.checksOf s') (hkey : check.1 = "rate:user:" ++ userId) :
    s'.userId = some userId := by
  rcases checksOf_cases h with rfl | ⟨userId', huser, _, rfl⟩
  · exact absurd hkey ipKey_ne_userKey
  · have hlist := congrArg String.toList hkey
    rw [String.toList_append, String.toList_append] at hlist
    rw [huser, String.ext (List.append_cancel_left hlist)]

/-- The requests behind a call that exceeds its limit. -/
theorem LedgerInv.moreThan (h : LedgerInv config l) {before after : List (Charge τ)} {c : Charge τ}
    (hcharges : l.charges = before ++ c :: after) (hover : Exceeds before c)
    {of : Sender → Prop}
    (hof : ∀ s check, check ∈ config.checksOf s → check.1 = c.call.key → of s) :
    MoreThan l c.call.limit of c.request := by
  have hc : c ∈ l.charges := by
    rw [hcharges]
    exact List.mem_append_right _ List.mem_cons_self
  have hsub : (countedWith before c).Sublist l.charges := by
    rw [hcharges]
    exact List.filter_sublist.append (List.singleton_sublist.mpr List.mem_cons_self)
  have hkeys : ∀ d ∈ countedWith before c, d.call.key = c.call.key
      ∧ (d.request = c.request ∨ c.call.time - c.call.windowSeconds ≤ d.call.time
        ∧ d.call.time ≤ d.ran ∧ d.ran ≤ c.ran) := by
    intro d hd
    have hentered := hsub.subset hd
    rcases List.mem_append.mp hd with hd | hd
    · -- calls stand in the order in which the store ran them
      obtain ⟨hbefore, hcounted⟩ := List.mem_filter.mp hd
      obtain ⟨hkey, hfrom⟩ := of_decide_eq_true hcounted
      have hsorted := h.order.1
      rw [hcharges, List.map_append, List.pairwise_append] at hsorted
      exact ⟨hkey, Or.inr ⟨hfrom, (h.order.2 d hentered).1,
        hsorted.2.2 _ (List.mem_map_of_mem hbefore) _ List.mem_cons_self⟩⟩
    · rw [List.mem_singleton.mp hd]
      exact ⟨rfl, Or.inl rfl⟩
  refine ⟨c, hc, rfl, (countedWith before c).map Charge.request, ?_, ?_, ?_⟩
  · -- no request is counted twice for the key
    have hpairs := (hsub.map fun d => (d.request, d.call.key)).nodup
      (h.once.sublist (List.sublist_append_left _ _))
    have hsame : (countedWith before c).map (fun d => (d.request, d.call.key))
        = ((countedWith before c).map Charge.request).map fun j => (j, c.call.key) := by
      rw [List.map_map]
      exact List.map_congr_left fun d hd => congrArg _ (hkeys d hd).1
    rw [hsame] at hpairs
    exact hpairs.of_map _
  · rw [List.length_map]
    exact hover
  · intro j hj
    obtain ⟨d, hd, rfl⟩ := List.mem_map.mp hj
    obtain ⟨hkey, hwithin⟩ := hkeys d hd
    obtain ⟨-, s, hs, hcheck⟩ := h.owned d (hsub.subset hd)
    refine ⟨⟨s, hs, hof s _ hcheck hkey⟩, hwithin.imp_right fun hwithin => ?_⟩
    rw [h.config_eq, ← (h.owned c hc).1]
    exact ⟨d, hsub.subset hd, rfl, hwithin⟩

/-- **A request is refused for its own buckets.** Its user has made more requests than
`user_max_requests` in the window, or more than the limit of the address have come from it. -/
theorem refused_for_own_bucket {redisUrl : Bool} {now : τ} {es : List (LimiterEvent τ)} {s : Sender}
    (h : exec Ledger.step (Ledger.init config redisUrl now) es = some l)
    (hs : l.senders i = some s) (hi : l.limiter.requests i = .decided true) :
    (∃ userId, s.userId = some userId ∧ userId ≠ ""
        ∧ MoreThan l config.userMaxRequests (fun s' => s'.userId = some userId) i)
      ∨ MoreThan l (config.ipLimit s) (SameAddress s) i := by
  have hinv := ledgerInv_run h
  have hphase := hinv.phases i
  rw [hi] at hphase
  obtain ⟨before, c, after, hcharges, rfl, hover⟩ := hphase rfl
  have hc : c ∈ l.charges := by
    rw [hcharges]
    exact List.mem_append_right _ List.mem_cons_self
  obtain ⟨-, s', hs', hcheck⟩ := hinv.owned c hc
  rw [hs] at hs'
  cases hs'
  rcases checksOf_cases hcheck with hip | ⟨userId, huser, hne, hkey⟩
  · obtain ⟨hkey, hlimit⟩ := Prod.mk.inj hip
    rw [← hlimit]
    exact Or.inr (hinv.moreThan hcharges hover fun s' check hcheck' hsame =>
      sameAddress_of_key hcheck' (hsame.trans hkey))
  · obtain ⟨hkey, hlimit⟩ := Prod.mk.inj hkey
    rw [← hlimit]
    exact Or.inl ⟨userId, huser, hne, hinv.moreThan hcharges hover fun s' check hcheck' hsame =>
      user_of_key hcheck' (hsame.trans hkey)⟩

end Counting

/-- Two users behind one address, which is allowed one request. -/
def sharedNat : Ledger Int :=
  Ledger.init
    { maxRequests := 1, windowSeconds := 60, authMaxRequests := 10, userMaxRequests := 5 } false 0

/-- Alice comes first, and Bob's only request is the second from the address. -/
def bobSecond : List (LimiterEvent Int) :=
  [.arrive 0 false "203.0.113.7" (some "alice"), .arrive 1 false "203.0.113.7" (some "bob")]

theorem bobSecond_run :
    (exec Ledger.step sharedNat bobSecond).map (fun l => (l.senders 1, l.limiter.requests 1))
      = some (some ⟨false, "203.0.113.7", some "bob"⟩, .decided true) := by
  decide +kernel

theorem bobSecond_senders :
    (exec Ledger.step sharedNat bobSecond).map Ledger.senders
      = some (Function.update (Function.update (fun _ => none) 0
          (some ⟨false, "203.0.113.7", some "alice"⟩)) 1
          (some ⟨false, "203.0.113.7", some "bob"⟩)) :=
  rfl

/-- Bob's request is refused for what has come from his address. -/
theorem bob_refused_for_own_bucket : ∃ l : Ledger Int,
    exec Ledger.step sharedNat bobSecond = some l
      ∧ ((∃ userId, some "bob" = some userId ∧ userId ≠ ""
            ∧ MoreThan l 5 (fun s' => s'.userId = some userId) 1)
          ∨ MoreThan l 1 (SameAddress ⟨false, "203.0.113.7", some "bob"⟩) 1) := by
  obtain ⟨l, hl, hobserved⟩ := Option.map_eq_some_iff.mp bobSecond_run
  obtain ⟨hsender, hdecided⟩ := Prod.mk.inj hobserved
  exact ⟨l, hl, refused_for_own_bucket hl hsender hdecided⟩

/-- It is the first that Bob has made. -/
theorem bob_refused_for_alice : ∃ l : Ledger Int,
    exec Ledger.step sharedNat bobSecond = some l
      ∧ l.senders 0 = some ⟨false, "203.0.113.7", some "alice"⟩
      ∧ l.senders 1 = some ⟨false, "203.0.113.7", some "bob"⟩
      ∧ l.limiter.requests 1 = .decided true
      ∧ ¬ MoreThan l l.limiter.config.userMaxRequests (fun s => s.userId = some "bob") 1 := by
  obtain ⟨l, hl, hobserved⟩ := Option.map_eq_some_iff.mp bobSecond_run
  obtain ⟨hsender, hdecided⟩ := Prod.mk.inj hobserved
  have hsenders := bobSecond_senders
  rw [hl] at hsenders
  have hsenders : l.senders = _ := Option.some.inj hsenders
  have hconfig : l.limiter.config.userMaxRequests = 5 := by
    rw [(ledgerInv_run hl).config_eq]
  refine ⟨l, hl, ?_, hsender, hdecided, ?_⟩
  · rw [hsenders]
    rfl
  · rintro ⟨c, _, _, ids, hnodup, hmore, hall⟩
    -- one request is not more than five
    have hone : ids ⊆ [1] := by
      intro j hj
      obtain ⟨⟨s, hs, hbob⟩, _⟩ := hall j hj
      rw [hsenders] at hs
      by_cases h1 : j = 1
      · exact List.mem_singleton.mpr h1
      · rw [Function.update_of_ne h1] at hs
        by_cases h0 : j = 0
        · rw [h0, Function.update_self] at hs
          cases hs
          exact absurd hbob (by decide)
        · rw [Function.update_of_ne h0] at hs
          cases hs
    have hlength := (hnodup.subperm hone).length_le
    rw [hconfig] at hmore
    simp only [List.length_singleton] at hlength
    omega

end Microservices.Gateway
