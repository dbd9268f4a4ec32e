import Microservices.Lib.Decimal
import Microservices.Lib.Expiring

/-!
# Counters kept as text

A key-value store of strings counts in decimal numerals: `INCR` reads one, adds
one, and writes one. `counts` is what such a store says as a store of numbers.
-/

namespace ExpiringStore

variable {κ τ : Type*}

/-- The text as the number it is the numeral of. -/
def numeral? (s : String) : Option Int := (Decimal.int? s).filter fun n => toString n = s

/-- The entry as a count; `int` reads its text. -/
def countOf (e : Expiring String τ) : Option (Expiring Nat τ) :=
  (Decimal.int? e.value).map fun n => ⟨n.toNat, e.expiresAt⟩

/-- The store as one of counts. -/
def counts (s : ExpiringStore κ String τ) : ExpiringStore κ Nat τ := fun k => (s k).bind countOf

/-- The text under `k`, if there is one, is a count's. -/
def CountAt (s : ExpiringStore κ String τ) (k : κ) : Prop :=
  ∀ e, s k = some e → ∃ n : Nat, e.value = toString (n : Int)

theorem countOf_toString (n : Nat) (t : Option τ) :
    countOf ⟨toString (n : Int), t⟩ = some ⟨n, t⟩ := by
  rw [countOf, Decimal.int?_toString]
  rfl

theorem numeral?_of_count {v : String} {n : Nat} (h : v = toString (n : Int)) :
    numeral? v = some (n : Int) := by
  rw [numeral?, h, Decimal.int?_toString]
  simp

section Reads

variable [LinearOrder τ]

theorem live_counts (s : ExpiringStore κ String τ) (now : τ) (k : κ) :
    (counts s).live now k = (s.live now k).bind countOf := by
  unfold live counts
  cases hk : s k with
  | none => rfl
  | some e =>
      rw [Option.bind_some, Option.filter_some]
      cases hn : Decimal.int? e.value with
      | none =>
          have hc : countOf e = none := by rw [countOf, hn]; rfl
          rw [hc]
          split
          · exact hc.symm
          · rfl
      | some n =>
          have hc : countOf e = some ⟨n.toNat, e.expiresAt⟩ := by rw [countOf, hn]; rfl
          rw [hc, Option.filter_some]
          split
          · exact hc.symm
          · rfl

theorem live_eq_of_some {s : ExpiringStore κ String τ} {now : τ} {k : κ} {e : Expiring String τ}
    (h : s.live now k = some e) : s k = some e := (Option.filter_eq_some_iff.mp h).1

/-- A count is what `int` makes of the text. -/
theorem get_counts (s : ExpiringStore κ String τ) (now : τ) (k : κ) :
    (counts s).get now k = (s.get now k).bind fun v => (Decimal.int? v).map Int.toNat := by
  unfold get
  rw [live_counts]
  cases s.live now k with
  | none => rfl
  | some e =>
      rw [Option.bind_some, Option.map_some, Option.bind_some, countOf, Option.map_map]
      rfl

end Reads

variable [DecidableEq κ]

theorem counts_put (s : ExpiringStore κ String τ) (k : κ) (n : Nat) (t : Option τ) :
    counts (s.put k (toString (n : Int)) t) = (counts s).put k n t := by
  funext k'
  unfold counts
  by_cases h : k' = k
  · rw [h, put_self, put_self]
    exact countOf_toString n t
  · rw [put_of_ne _ h, put_of_ne _ h]

theorem counts_del (s : ExpiringStore κ String τ) (k : κ) :
    counts (s.del k) = (counts s).del k := by
  funext k'
  unfold counts del
  by_cases h : k' = k
  · rw [h, Function.update_self, Function.update_self]
    rfl
  · rw [Function.update_of_ne h, Function.update_of_ne h]

theorem countAt_put (s : ExpiringStore κ String τ) (k : κ) (n : Nat) (t : Option τ) :
    CountAt (s.put k (toString (n : Int)) t) k := by
  intro e he
  rw [put_self] at he
  cases he
  exact ⟨n, rfl⟩

variable [LinearOrder τ]

/-- `INCR` on text: the new count, unless what is there is no numeral. -/
def incrText (s : ExpiringStore κ String τ) (now : τ) (k : κ) :
    Option Int × ExpiringStore κ String τ :=
  match s.live now k with
  | none => (some 1, s.put k (toString (1 : Int)) none)
  | some e =>
      match numeral? e.value with
      | none => (none, s)
      | some n => (some (n + 1), s.put k (toString (n + 1)) e.expiresAt)

/-- **Where the text is a count's, `INCR` counts.** -/
theorem counts_incrText {s : ExpiringStore κ String τ} {k : κ} (h : CountAt s k) (now : τ) :
    counts (s.incrText now k).2 = (counts s).incr now k := by
  unfold incrText incr
  rw [live_counts]
  cases hl : s.live now k with
  | none => exact counts_put s k 1 none
  | some e =>
      obtain ⟨n, hn⟩ := h e (live_eq_of_some hl)
      have hc : countOf e = some ⟨n, e.expiresAt⟩ := by
        obtain ⟨v, t⟩ := e
        cases hn
        exact countOf_toString n t
      rw [Option.bind_some, hc]
      dsimp only
      rw [numeral?_of_count hn]
      exact counts_put s k (n + 1) e.expiresAt

theorem countAt_incrText {s : ExpiringStore κ String τ} {k : κ} (h : CountAt s k) (now : τ) :
    CountAt (s.incrText now k).2 k := by
  unfold incrText
  cases hl : s.live now k with
  | none => exact countAt_put s k 1 none
  | some e =>
      obtain ⟨n, hn⟩ := h e (live_eq_of_some hl)
      dsimp only
      rw [numeral?_of_count hn]
      exact countAt_put s k (n + 1) e.expiresAt

theorem counts_expireNx {s : ExpiringStore κ String τ} {k : κ} (h : CountAt s k) (now t : τ) :
    counts (s.expireNx now k t) = (counts s).expireNx now k t := by
  unfold expireNx
  rw [live_counts]
  cases hl : s.live now k with
  | none => rfl
  | some e =>
      obtain ⟨v, expiry⟩ := e
      obtain ⟨n, rfl⟩ := h _ (live_eq_of_some hl)
      rw [Option.bind_some, countOf_toString]
      cases expiry with
      | none => exact counts_put s k n (some t)
      | some t' => rfl

/-- `INCR` and `EXPIRE … NX` in one transaction. -/
def incrExpireNxText (s : ExpiringStore κ String τ) (now : τ) (k : κ) (expiresAt : τ) :
    Option Int × ExpiringStore κ String τ :=
  ((s.incrText now k).1, (s.incrText now k).2.expireNx now k expiresAt)

theorem counts_incrExpireNxText {s : ExpiringStore κ String τ} {k : κ} (h : CountAt s k)
    (now expiresAt : τ) :
    counts (s.incrExpireNxText now k expiresAt).2 = (counts s).incrExpireNx now k expiresAt := by
  unfold incrExpireNxText incrExpireNx
  rw [counts_expireNx (countAt_incrText h now), counts_incrText h]

theorem incrExpireNxText_count {s : ExpiringStore κ String τ} {k : κ} (h : CountAt s k)
    (now expiresAt : τ) : ∃ n, (s.incrExpireNxText now k expiresAt).1 = some n := by
  unfold incrExpireNxText incrText
  cases hl : s.live now k with
  | none => exact ⟨1, rfl⟩
  | some e =>
      obtain ⟨n, hn⟩ := h e (live_eq_of_some hl)
      dsimp only
      rw [numeral?_of_count hn]
      exact ⟨n + 1, rfl⟩

theorem incrText_of_ne (s : ExpiringStore κ String τ) {k k' : κ} (h : k' ≠ k) (now : τ) :
    (s.incrText now k).2 k' = s k' := by
  unfold incrText
  cases s.live now k with
  | none => exact put_of_ne s h _ _
  | some e =>
      dsimp only
      cases numeral? e.value with
      | none => rfl
      | some n => exact put_of_ne s h _ _

/-- Counting leaves the other keys alone. -/
theorem incrExpireNxText_of_ne (s : ExpiringStore κ String τ) {k k' : κ} (h : k' ≠ k)
    (now expiresAt : τ) : (s.incrExpireNxText now k expiresAt).2 k' = s k' :=
  (expireNx_of_ne _ h now expiresAt).trans (incrText_of_ne s h now)

/-- What counting does to a key depends on what is under it alone. -/
theorem incrExpireNxText_congr {s s' : ExpiringStore κ String τ} {k : κ} (h : s k = s' k)
    (now expiresAt : τ) :
    (s.incrExpireNxText now k expiresAt).1 = (s'.incrExpireNxText now k expiresAt).1
      ∧ (s.incrExpireNxText now k expiresAt).2 k = (s'.incrExpireNxText now k expiresAt).2 k := by
  have hlive : ∀ {t t' : ExpiringStore κ String τ}, t k = t' k → t.live now k = t'.live now k := by
    intro t t' ht
    unfold live
    rw [ht]
  have hincr : (s.incrText now k).1 = (s'.incrText now k).1
      ∧ (s.incrText now k).2 k = (s'.incrText now k).2 k := by
    unfold incrText
    rw [hlive h]
    cases s'.live now k with
    | none =>
        dsimp only
        exact ⟨rfl, by rw [put_self, put_self]⟩
    | some e =>
        dsimp only
        cases numeral? e.value with
        | none => exact ⟨rfl, h⟩
        | some n =>
            dsimp only
            exact ⟨rfl, by rw [put_self, put_self]⟩
  refine ⟨hincr.1, ?_⟩
  unfold incrExpireNxText expireNx
  dsimp only
  rw [hlive hincr.2]
  cases (s'.incrText now k).2.live now k with
  | none => exact hincr.2
  | some e =>
      obtain ⟨v, expiry⟩ := e
      cases expiry with
      | none =>
          dsimp only
          rw [put_self, put_self]
      | some t => exact hincr.2

end ExpiringStore
