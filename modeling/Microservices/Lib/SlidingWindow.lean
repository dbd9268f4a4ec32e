import Mathlib.Algebra.Order.Group.Defs
import Mathlib.Algebra.Order.Sub.Basic
import Mathlib.Data.List.Basic

/-!
# Counting in a sliding window

Uses are given by their times. A use is admitted if it and the uses in the window
before it are at most `limit`. Every use is counted, admitted or not, so each
admitted one bears witness that its whole window holds no more than `limit`, and
that is what bounds the admitted ones of any interval as long as the window.
-/

namespace SlidingWindow

variable {τ : Type*} [LinearOrder τ]

/-- The times from `start` on. -/
def from_ (start : τ) (times : List τ) : List τ := times.filter fun t => start ≤ t

/-- Of times in order, dropping the leading ones before `start` leaves those from `start` on. -/
theorem dropWhile_eq_from {times : List τ} (h : times.Pairwise (· ≤ ·)) (start : τ) :
    times.dropWhile (fun t => t < start) = from_ start times := by
  induction times with
  | nil => rfl
  | cons t times ih =>
      obtain ⟨hle, hrest⟩ := List.pairwise_cons.mp h
      by_cases ht : t < start
      · rw [List.dropWhile_cons_of_pos (by simpa using ht), ih hrest, from_, from_,
          List.filter_cons_of_neg (by simpa using ht)]
      · have hall : from_ start (t :: times) = t :: times := by
          refine List.filter_eq_self.mpr fun s hs => ?_
          rcases List.mem_cons.mp hs with rfl | hs
          · simpa using ht
          · simpa using le_trans (not_lt.mp ht) (hle s hs)
        rw [List.dropWhile_cons_of_neg (by simpa using ht), hall]

/-- Pruning again at a later time prunes as if it were the first time. -/
theorem from_from {start start' : τ} (h : start ≤ start') (times : List τ) :
    from_ start' (from_ start times) = from_ start' times := by
  rw [from_, from_, List.filter_filter]
  refine List.filter_congr fun t _ => ?_
  rw [Bool.eq_iff_iff]
  simp only [Bool.and_eq_true, decide_eq_true_eq]
  exact ⟨And.left, fun ht => ⟨ht, le_trans h ht⟩⟩

theorem length_from_le {start start' : τ} (h : start ≤ start') (times : List τ) :
    (from_ start' times).length ≤ (from_ start times).length := by
  rw [← from_from h]
  exact List.filter_sublist.length_le

variable [AddCommGroup τ]

/-- What a use at `now` counts, the uses before it being `earlier`. -/
def count (window now : τ) (earlier : List τ) : Nat := (from_ (now - window) earlier).length + 1

/-- The admitted ones of these uses, newest first. -/
def admitted (limit : Int) (window : τ) : List τ → List τ
  | [] => []
  | now :: earlier =>
      if (count window now earlier : Int) ≤ limit then now :: admitted limit window earlier
      else admitted limit window earlier

theorem admitted_sublist (limit : Int) (window : τ) (times : List τ) :
    (admitted limit window times).Sublist times := by
  induction times with
  | nil => exact List.Sublist.refl _
  | cons now earlier ih =>
      rw [admitted]
      split
      · exact ih.cons_cons now
      · exact ih.cons now

variable [IsOrderedAddMonoid τ]

/-- **In an interval as long as the window no more than `limit` are admitted.** -/
theorem length_admitted_le (limit : Int) (window : τ) (times : List τ) (a : τ) :
    ((admitted limit window times).filter fun t => a ≤ t ∧ t ≤ a + window).length
      ≤ limit.toNat := by
  induction times with
  | nil => exact Nat.zero_le _
  | cons now earlier ih =>
      rw [admitted]
      by_cases hadmit : (count window now earlier : Int) ≤ limit
      · rw [if_pos hadmit]
        by_cases hin : a ≤ now ∧ now ≤ a + window
        · -- everything admitted in the interval has been counted at `now`
          have hstart : now - window ≤ a := sub_le_iff_le_add.mpr hin.2
          have hcounted : ((admitted limit window earlier).filter
              fun t => a ≤ t ∧ t ≤ a + window).length ≤ (from_ (now - window) earlier).length := by
            refine ((List.Sublist.filter _ (admitted_sublist limit window earlier)).length_le).trans ?_
            refine (List.monotone_filter_right earlier ?_).length_le
            intro t ht
            obtain ⟨ht, _⟩ := of_decide_eq_true ht
            exact decide_eq_true (le_trans hstart ht)
          rw [List.filter_cons_of_pos (by simpa using hin), List.length_cons]
          unfold count at hadmit
          omega
        · rw [List.filter_cons_of_neg (by simpa using hin)]
          exact ih
      · rw [if_neg hadmit]
        exact ih

end SlidingWindow
