import Mathlib.Logic.Function.Basic
import Mathlib.Order.Lattice

/-!
# Key-value stores whose values expire

A store keeps, for each key, a value and possibly the time it expires at; reading
is relative to a clock. Nothing is ever removed by time passing: an expired entry
reads as absent, and the next write replaces it.
-/

/-- A value and the time it expires at, if it does. -/
structure Expiring (ν τ : Type*) where
  value : ν
  expiresAt : Option τ
  deriving DecidableEq, Repr

/-- What is stored under each key, expired or not. -/
abbrev ExpiringStore (κ ν τ : Type*) := κ → Option (Expiring ν τ)

namespace ExpiringStore

variable {κ ν τ : Type*}

def empty : ExpiringStore κ ν τ := fun _ => none

/-! ## Reads -/

section Reads

variable [LinearOrder τ]

/-- The entry under `k`, unless it has expired. -/
def live (s : ExpiringStore κ ν τ) (now : τ) (k : κ) : Option (Expiring ν τ) :=
  (s k).filter fun e => e.expiresAt.all fun t => decide (now < t)

/-- `GET`. -/
def get (s : ExpiringStore κ ν τ) (now : τ) (k : κ) : Option ν :=
  (s.live now k).map Expiring.value

theorem live_eq_none {s : ExpiringStore κ ν τ} {k : κ} (now : τ) (h : s k = none) :
    s.live now k = none := by
  rw [live, h]; rfl

theorem live_eq_some {s : ExpiringStore κ ν τ} {k : κ} {now t : τ} {v : ν}
    (h : s k = some ⟨v, some t⟩) (ht : now < t) : s.live now k = some ⟨v, some t⟩ := by
  rw [live, h]; simp [ht]

theorem live_eq_none_of_le {s : ExpiringStore κ ν τ} {k : κ} {now t : τ} {v : ν}
    (h : s k = some ⟨v, some t⟩) (ht : t ≤ now) : s.live now k = none := by
  rw [live, h]; simp [ht]

/-- What is read is there, and has not expired. -/
theorem exists_of_get_eq_some {s : ExpiringStore κ ν τ} {k : κ} {now : τ} {v : ν}
    (h : s.get now k = some v) :
    ∃ e, s k = some e ∧ e.value = v ∧ ∀ t ∈ e.expiresAt, now < t := by
  obtain ⟨e, he, hv⟩ := Option.map_eq_some_iff.mp h
  obtain ⟨hentry, hlive⟩ := Option.filter_eq_some_iff.mp he
  refine ⟨e, hentry, hv, fun t ht => ?_⟩
  rw [Option.mem_def.mp ht] at hlive
  exact of_decide_eq_true hlive

end Reads

/-! ## Writes -/

variable [DecidableEq κ]

def put (s : ExpiringStore κ ν τ) (k : κ) (v : ν) (expiresAt : Option τ) : ExpiringStore κ ν τ :=
  Function.update s k (some ⟨v, expiresAt⟩)

/-- `DEL`. -/
def del (s : ExpiringStore κ ν τ) (k : κ) : ExpiringStore κ ν τ := Function.update s k none

@[simp] theorem put_self (s : ExpiringStore κ ν τ) (k : κ) (v : ν) (t : Option τ) :
    s.put k v t k = some ⟨v, t⟩ := Function.update_self ..

theorem put_of_ne (s : ExpiringStore κ ν τ) {k k' : κ} (h : k' ≠ k) (v : ν) (t : Option τ) :
    s.put k v t k' = s k' := Function.update_of_ne h ..

@[simp] theorem del_self (s : ExpiringStore κ ν τ) (k : κ) : s.del k k = none :=
  Function.update_self ..

variable [LinearOrder τ]

/-- `INCR`: counts from what is there, keeping its expiry, or from nothing. -/
def incr (s : ExpiringStore κ Nat τ) (now : τ) (k : κ) : ExpiringStore κ Nat τ :=
  match s.live now k with
  | some e => s.put k (e.value + 1) e.expiresAt
  | none => s.put k 1 none

/-- `EXPIRE key … NX`: set an expiry on an entry that has none. -/
def expireNx (s : ExpiringStore κ ν τ) (now : τ) (k : κ) (expiresAt : τ) : ExpiringStore κ ν τ :=
  match s.live now k with
  | some ⟨v, none⟩ => s.put k v (some expiresAt)
  | _ => s

theorem live_put_none (s : ExpiringStore κ ν τ) (k : κ) (v : ν) (now : τ) :
    (s.put k v none).live now k = some ⟨v, none⟩ := by
  rw [live, put_self]; rfl

theorem expireNx_of_ne (s : ExpiringStore κ ν τ) {k k' : κ} (h : k' ≠ k) (now t : τ) :
    s.expireNx now k t k' = s k' := by
  unfold expireNx
  cases s.live now k with
  | none => rfl
  | some e =>
      obtain ⟨v, expiry⟩ := e
      cases expiry with
      | none => exact put_of_ne s h _ _
      | some t' => rfl

/-! ## Counting with an expiry set once -/

/-- `INCR` and `EXPIRE … NX` in one transaction. -/
def incrExpireNx (s : ExpiringStore κ Nat τ) (now : τ) (k : κ) (expiresAt : τ) :
    ExpiringStore κ Nat τ :=
  (s.incr now k).expireNx now k expiresAt

/-- A count that starts is one, and lasts until `expiresAt`. -/
theorem incrExpireNx_new {s : ExpiringStore κ Nat τ} {now : τ} {k : κ} (expiresAt : τ)
    (h : s.live now k = none) : s.incrExpireNx now k expiresAt k = some ⟨1, some expiresAt⟩ := by
  have hi : s.incr now k = s.put k 1 none := by rw [incr, h]
  have hl : (s.put k 1 none).live now k = some ⟨1, none⟩ := live_put_none s k 1 now
  rw [incrExpireNx, hi, expireNx, hl]
  exact put_self ..

/-- A count that is running goes up and keeps its expiry. -/
theorem incrExpireNx_running {s : ExpiringStore κ Nat τ} {now t : τ} {k : κ} {n : Nat}
    (expiresAt : τ) (h : s k = some ⟨n, some t⟩) (ht : now < t) :
    s.incrExpireNx now k expiresAt k = some ⟨n + 1, some t⟩ := by
  have hi : s.incr now k = s.put k (n + 1) (some t) := by rw [incr, live_eq_some h ht]
  have hl : (s.put k (n + 1) (some t)).live now k = some ⟨n + 1, some t⟩ :=
    live_eq_some (put_self ..) ht
  rw [incrExpireNx, hi, expireNx, hl]
  exact put_self ..

/-- Counting leaves the other keys alone. -/
theorem incrExpireNx_of_ne (s : ExpiringStore κ Nat τ) {k k' : κ} (h : k' ≠ k)
    (now expiresAt : τ) : s.incrExpireNx now k expiresAt k' = s k' := by
  have hincr : s.incr now k k' = s k' := by
    unfold incr
    cases s.live now k with
    | none => exact put_of_ne s h _ _
    | some e => exact put_of_ne s h _ _
  exact (expireNx_of_ne _ h now expiresAt).trans hincr

end ExpiringStore
