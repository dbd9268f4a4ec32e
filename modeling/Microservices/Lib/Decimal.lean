import Mathlib.Data.Nat.Digits.Defs
import Mathlib.Tactic.Linarith
import Microservices.Lib.Trim

/-!
# Decimal numerals

Reading and writing numbers in base ten, in the two shapes program text uses: a
free-length numeral (as `int(str)` accepts it, with a sign, surrounding white
space, single underscores between digits and the digits of any script) and a
zero-padded field of fixed width.
-/

namespace Decimal

/-! ## Free-length numerals -/

/-- White space below U+0100, as `str.strip` sees it. -/
def isSpace (c : Char) : Bool :=
  c.toNat ∈ [9, 10, 11, 12, 13, 28, 29, 30, 31, 32, 133, 160]

def strip (cs : List Char) : List Char :=
  ((cs.dropWhile isSpace).reverse.dropWhile isSpace).reverse

/-- The digits after the first one. -/
def digitsFrom (acc : Nat) : List Char → Option Nat
  | [] => some acc
  | '_' :: c :: cs => if c.isDigit then digitsFrom (10 * acc + (c.toNat - 48)) cs else none
  | c :: cs => if c.isDigit then digitsFrom (10 * acc + (c.toNat - 48)) cs else none

def nat? : List Char → Option Nat
  | [] => none
  | c :: cs => if c.isDigit then digitsFrom (c.toNat - 48) cs else none

/-- The zeros of the scripts that have decimal digits (Unicode 15.0); each has its other nine after it. -/
def zeros : List Nat :=
  [0x30, 0x660, 0x6F0, 0x7C0, 0x966, 0x9E6, 0xA66, 0xAE6, 0xB66, 0xBE6, 0xC66, 0xCE6, 0xD66, 0xDE6,
    0xE50, 0xED0, 0xF20, 0x1040, 0x1090, 0x17E0, 0x1810, 0x1946, 0x19D0, 0x1A80, 0x1A90, 0x1B50,
    0x1BB0, 0x1C40, 0x1C50, 0xA620, 0xA8D0, 0xA900, 0xA9D0, 0xA9F0, 0xAA50, 0xABF0, 0xFF10, 0x104A0,
    0x10D30, 0x11066, 0x110F0, 0x11136, 0x111D0, 0x112F0, 0x11450, 0x114D0, 0x11650, 0x116C0,
    0x11730, 0x118E0, 0x11950, 0x11C50, 0x11D50, 0x11DA0, 0x11F50, 0x16A60, 0x16AC0, 0x16B50,
    0x1D7CE, 0x1D7D8, 0x1D7E2, 0x1D7EC, 0x1D7F6, 0x1E140, 0x1E2F0, 0x1E4F0, 0x1E950, 0x1FBF0]

/-- The value of a decimal digit of any script. -/
def decimal? (c : Char) : Option Nat :=
  (zeros.find? fun z => z ≤ c.toNat ∧ c.toNat < z + 10).map fun z => c.toNat - z

def digit (n : Nat) : Char := "0123456789".toList.getD n '0'

/-- A decimal digit of any script as one of ASCII. -/
def toAscii (c : Char) : Char := (decimal? c).elim c digit

/-- White space around a numeral: that of `str.strip` but for U+001C to U+001F. -/
def isIntSpace (c : Char) : Bool := Trim.isSpace c && !(28 ≤ c.toNat && c.toNat ≤ 31)

/-- The text `int` parses, once white space is off and the digits are those of ASCII. -/
def numeral (cs : List Char) : List Char := (Trim.trim isIntSpace cs).map toAscii

/-- `int(s)`; `none` is `ValueError`. -/
def int? (s : String) : Option Int :=
  match numeral s.toList with
  | '-' :: cs => (nat? cs).map fun n => -(n : Int)
  | '+' :: cs => (nat? cs).map Int.ofNat
  | cs => (nat? cs).map Int.ofNat

theorem digitsFrom_eq {cs : List Char} (h : ∀ c ∈ cs, c.isDigit) (acc : Nat) :
    digitsFrom acc cs = some (Nat.ofDigitChars 10 cs acc) := by
  induction cs generalizing acc with
  | nil => simp [digitsFrom]
  | cons c cs ih =>
      have hc : c.isDigit := h c (by simp)
      have hne : c ≠ '_' := by rintro rfl; exact absurd hc (by decide)
      have hcs := ih (fun x hx => h x (by simp [hx])) (10 * acc + (c.toNat - 48))
      rw [Nat.ofDigitChars_cons]
      unfold digitsFrom
      split
      · rename_i heq; cases heq
      · rename_i heq; exact absurd (List.cons_eq_cons.mp heq).1 hne
      · rename_i heq
        obtain ⟨rfl, rfl⟩ := List.cons_eq_cons.mp heq
        rw [if_pos hc, hcs]; rfl

theorem nat?_toDigits (n : Nat) : nat? (Nat.toDigits 10 n) = some n := by
  have hd : ∀ c ∈ Nat.toDigits 10 n, c.isDigit :=
    fun c hc => Nat.isDigit_of_mem_toDigits (by decide) (by decide) hc
  have hv : Nat.ofDigitChars 10 (Nat.toDigits 10 n) 0 = n := Nat.ofDigitChars_ten_toDigits
  cases hq : Nat.toDigits 10 n with
  | nil => exact absurd hq Nat.toDigits_ne_nil
  | cons c cs =>
      rw [hq] at hd hv
      rw [nat?, if_pos (hd c (by simp)), digitsFrom_eq (fun x hx => hd x (by simp [hx])), ← hv,
        Nat.ofDigitChars_cons]
      simp

theorem toAscii_eq {c : Char} (h : c.toNat < 128) : toAscii c = c := by
  have all : ∀ n < 128, toAscii (Char.ofNat n) = Char.ofNat n := by decide +kernel
  have hc := all c.toNat h
  rwa [Char.ofNat_toNat] at hc

/-- A text of ASCII without white space is parsed as it is. -/
theorem numeral_eq {cs : List Char} (h : ∀ c ∈ cs, c.toNat < 128 ∧ isIntSpace c = false) :
    numeral cs = cs := by
  rw [numeral, Trim.trim_eq_self (Trim.trimmed_of_forall fun c hc => (h c hc).2)]
  calc cs.map toAscii
      = cs.map id := List.map_congr_left fun c hc => toAscii_eq (h c hc).1
    _ = cs := List.map_id cs

theorem numeral_char_of_isDigit {c : Char} (h : c.isDigit) : c.toNat < 128 ∧ isIntSpace c = false := by
  have hr : 48 ≤ c.toNat ∧ c.toNat ≤ 57 := Char.isDigit_iff_toNat.mp h
  have hspace : Trim.isSpace c = false := by
    simp only [Trim.isSpace, decide_eq_false_iff_not, List.mem_cons, List.not_mem_nil, or_false]
    omega
  refine ⟨by omega, ?_⟩
  rw [isIntSpace, hspace, Bool.false_and]

theorem head_digit_ne {c : Char} {cs : List Char} (h : c.isDigit) :
    (match c :: cs with
      | '-' :: cs => (nat? cs).map fun n => -(n : Int)
      | '+' :: cs => (nat? cs).map Int.ofNat
      | cs => (nat? cs).map Int.ofNat) = (nat? (c :: cs)).map Int.ofNat := by
  split
  · rename_i heq
    obtain ⟨rfl, _⟩ := List.cons_eq_cons.mp heq
    exact absurd h (by decide)
  · rename_i heq
    obtain ⟨rfl, _⟩ := List.cons_eq_cons.mp heq
    exact absurd h (by decide)
  · rfl

theorem int?_repr_nat (n : Nat) : int? n.repr = some (n : Int) := by
  have hd : ∀ c ∈ Nat.toDigits 10 n, c.isDigit :=
    fun c hc => Nat.isDigit_of_mem_toDigits (by decide) (by decide) hc
  have hn := nat?_toDigits n
  rw [int?, Nat.toList_repr, numeral_eq (fun c hc => numeral_char_of_isDigit (hd c hc))]
  cases hq : Nat.toDigits 10 n with
  | nil => exact absurd hq Nat.toDigits_ne_nil
  | cons c cs =>
      rw [hq] at hd hn
      rw [head_digit_ne (hd c (by simp)), hn]
      rfl

/-- **`int(str(n))` is `n`.** -/
theorem int?_toString (n : Int) : int? (toString n) = some n := by
  rw [Int.toString_eq_repr]
  cases n with
  | ofNat m => exact int?_repr_nat m
  | negSucc m =>
      have hd : ∀ c ∈ Nat.toDigits 10 (m + 1), c.isDigit :=
        fun c hc => Nat.isDigit_of_mem_toDigits (by decide) (by decide) hc
      have hl : (Int.negSucc m).repr.toList = '-' :: Nat.toDigits 10 (m + 1) := by
        change ("-" ++ (m + 1).repr).toList = _
        rw [String.toList_append, Nat.toList_repr]
        rfl
      have hs : ∀ c ∈ '-' :: Nat.toDigits 10 (m + 1), c.toNat < 128 ∧ isIntSpace c = false := by
        intro c hc
        rcases List.mem_cons.mp hc with rfl | hc
        · decide
        · exact numeral_char_of_isDigit (hd c hc)
      rw [int?, hl, numeral_eq hs]
      simp only [nat?_toDigits]
      rfl

/-- No numeral contains a character that is neither a digit nor the sign. -/
theorem mem_toString {n : Int} {c : Char} (h : c ∈ (toString n).toList) :
    c.isDigit ∨ c = '-' := by
  rw [Int.toString_eq_repr] at h
  cases n with
  | ofNat m =>
      have : c ∈ m.repr.toList := h
      rw [Nat.toList_repr] at this
      exact Or.inl (Nat.isDigit_of_mem_toDigits (by decide) (by decide) this)
  | negSucc m =>
      have : c ∈ ("-" ++ (m + 1).repr).toList := h
      rw [String.toList_append, Nat.toList_repr] at this
      rcases List.mem_append.mp this with h' | h'
      · exact Or.inr (by simpa using h')
      · exact Or.inl (Nat.isDigit_of_mem_toDigits (by decide) (by decide) h')

/-! ## Fields of fixed width -/

/-- The last `width` digits of `n`, zeros in front. -/
def padded : Nat → Nat → List Char
  | 0, _ => []
  | width + 1, n => padded width (n / 10) ++ [digit (n % 10)]

/-- Exactly `width` digits, counted on from `acc`, and the text after them. -/
def field? : Nat → Nat → List Char → Option (Nat × List Char)
  | 0, acc, cs => some (acc, cs)
  | _ + 1, _, [] => none
  | width + 1, acc, c :: cs =>
      if c.isDigit then field? width (10 * acc + (c.toNat - 48)) cs else none

theorem digit_spec {n : Nat} (h : n < 10) : (digit n).isDigit ∧ (digit n).toNat - 48 = n := by
  have all : ∀ m < 10, (digit m).isDigit ∧ (digit m).toNat - 48 = m := by decide
  exact all n h

theorem isDigit_of_mem_padded {width n : Nat} {c : Char} (h : c ∈ padded width n) : c.isDigit := by
  induction width generalizing n with
  | zero => cases h
  | succ w ih =>
      rcases List.mem_append.mp h with h | h
      · exact ih h
      · rw [List.mem_singleton.mp h]
        exact (digit_spec (Nat.mod_lt n (by decide))).1

theorem length_padded (width n : Nat) : (padded width n).length = width := by
  induction width generalizing n with
  | zero => rfl
  | succ w ih => rw [padded, List.length_append, ih]; rfl

theorem field?_append (a b acc : Nat) (cs : List Char) :
    field? (a + b) acc cs = (field? a acc cs).bind fun r => field? b r.1 r.2 := by
  induction a generalizing acc cs with
  | zero => rw [Nat.zero_add]; rfl
  | succ a ih =>
      cases cs with
      | nil => rw [Nat.succ_add]; rfl
      | cons c cs =>
          rw [Nat.succ_add, field?, field?]
          by_cases hc : c.isDigit
          · rw [if_pos hc, if_pos hc, ih]
          · rw [if_neg hc, if_neg hc]; rfl

/-- **A padded field reads back as its number**, and what follows it is left alone. -/
theorem field?_padded {width n : Nat} (h : n < 10 ^ width) (acc : Nat) (rest : List Char) :
    field? width acc (padded width n ++ rest) = some (10 ^ width * acc + n, rest) := by
  induction width generalizing n rest with
  | zero =>
      have : n = 0 := by simpa using h
      simp [field?, padded, this]
  | succ w ih =>
      have hd : n / 10 < 10 ^ w := by
        rw [Nat.pow_succ] at h
        exact Nat.div_lt_of_lt_mul (by rwa [Nat.mul_comm])
      obtain ⟨hdigit, hvalue⟩ := digit_spec (Nat.mod_lt n (show 0 < 10 by decide))
      rw [padded, List.append_assoc, field?_append, ih hd, Option.bind_some, List.singleton_append,
        field?, if_pos hdigit, hvalue, field?]
      have hn := Nat.div_add_mod n 10
      have hp : 10 * (10 ^ w * acc + n / 10) + n % 10 = 10 ^ (w + 1) * acc + n := by
        rw [Nat.mul_add, ← Nat.mul_assoc, ← Nat.pow_succ', Nat.add_assoc, hn]
      rw [hp]

theorem field?_padded_zero {width n : Nat} (h : n < 10 ^ width) (rest : List Char) :
    field? width 0 (padded width n ++ rest) = some (n, rest) := by
  rw [field?_padded h, Nat.mul_zero, Nat.zero_add]

end Decimal
