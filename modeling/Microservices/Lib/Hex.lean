import Microservices.Lib.Decimal

/-!
# Hexadecimal numerals

Fixed-width lower-case digits on the writing side; on the reading side what
`int(s, 16)` accepts: either case, the decimal digits of any script, a sign, a `0x`
and single underscores between digits.
-/

namespace Hex

/-- The value of a digit, of either case. -/
def value? (c : Char) : Option Nat :=
  if c.isDigit then some (c.toNat - '0'.toNat)
  else if 'a' ≤ c ∧ c ≤ 'f' then some (c.toNat - 'a'.toNat + 10)
  else if 'A' ≤ c ∧ c ≤ 'F' then some (c.toNat - 'A'.toNat + 10)
  else none

/-- The lower-case digit for a value below sixteen. -/
def digit (n : Nat) : Char := "0123456789abcdef".toList.getD n '0'

/-- The last `width` digits of `n`. -/
def digits : Nat → Nat → List Char
  | 0, _ => []
  | width + 1, n => digits width (n / 16) ++ [digit (n % 16)]

/-- The digits after the first one. -/
def digitsFrom (acc : Nat) : List Char → Option Nat
  | [] => some acc
  | '_' :: c :: cs => (value? c).bind fun d => digitsFrom (16 * acc + d) cs
  | c :: cs => (value? c).bind fun d => digitsFrom (16 * acc + d) cs

def nat? : List Char → Option Nat
  | [] => none
  | c :: cs => (value? c).bind fun d => digitsFrom d cs

/-- Drop a `0x` and one underscore after it. -/
def dropPrefix : List Char → List Char
  | '0' :: x :: '_' :: cs => if x = 'x' ∨ x = 'X' then cs else '0' :: x :: '_' :: cs
  | '0' :: x :: cs => if x = 'x' ∨ x = 'X' then cs else '0' :: x :: cs
  | cs => cs

/-- `int(s, 16)`; `none` is `ValueError`. -/
def int? (cs : List Char) : Option Int :=
  match Decimal.numeral cs with
  | '-' :: cs => (nat? (dropPrefix cs)).map fun n => -(n : Int)
  | '+' :: cs => (nat? (dropPrefix cs)).map Int.ofNat
  | cs => (nat? (dropPrefix cs)).map Int.ofNat

/-! ## Reading what was written -/

theorem value?_digit {n : Nat} (h : n < 16) : value? (digit n) = some n := by
  have all : ∀ m < 16, value? (digit m) = some m := by decide
  exact all n h

theorem length_digits (width n : Nat) : (digits width n).length = width := by
  induction width generalizing n with
  | zero => rfl
  | succ w ih => rw [digits, List.length_append, ih]; rfl

/-- The lower-case digits. -/
def alphabet : List Char := "0123456789abcdef".toList

theorem mem_digits {width n : Nat} {c : Char} (h : c ∈ digits width n) : c ∈ alphabet := by
  induction width generalizing n with
  | zero => cases h
  | succ w ih =>
      rcases List.mem_append.mp h with h' | h'
      · exact ih h'
      · have all : ∀ m < 16, digit m ∈ alphabet := by decide
        rw [List.mem_singleton.mp h']
        exact all _ (Nat.mod_lt _ (by decide))

theorem digitsFrom_cons {c : Char} {d acc : Nat} (cs : List Char) (h : value? c = some d) :
    digitsFrom acc (c :: cs) = digitsFrom (16 * acc + d) cs := by
  have hbar : value? '_' = none := by decide
  have hne : c ≠ '_' := by intro hc; rw [hc, hbar] at h; cases h
  rw [digitsFrom, h]
  · rfl
  · exact fun _ _ hc _ => hne hc

theorem digitsFrom_digits {width n : Nat} (h : n < 16 ^ width) (acc : Nat) (rest : List Char) :
    digitsFrom acc (digits width n ++ rest) = digitsFrom (16 ^ width * acc + n) rest := by
  induction width generalizing n acc rest with
  | zero =>
      have : n = 0 := by simpa using h
      simp [digits, this]
  | succ w ih =>
      have hd : n / 16 < 16 ^ w := by
        rw [Nat.pow_succ] at h
        exact Nat.div_lt_of_lt_mul (by rwa [Nat.mul_comm])
      have hv := value?_digit (Nat.mod_lt n (show 0 < 16 by decide))
      rw [digits, List.append_assoc, ih hd, List.singleton_append, digitsFrom_cons rest hv]
      have hn := Nat.div_add_mod n 16
      have hp : 16 * (16 ^ w * acc + n / 16) + n % 16 = 16 ^ (w + 1) * acc + n := by
        rw [Nat.mul_add, ← Nat.mul_assoc, ← Nat.pow_succ', Nat.add_assoc, hn]
      rw [hp]

/-- **Fixed-width digits read back as the number they write.** -/
theorem nat?_digits {width n : Nat} (h : n < 16 ^ (width + 1)) :
    nat? (digits (width + 1) n) = some n := by
  have h0 := digitsFrom_digits h 0 []
  rw [List.append_nil, Nat.mul_zero, Nat.zero_add] at h0
  cases hq : digits (width + 1) n with
  | nil =>
      have := length_digits (width + 1) n
      rw [hq] at this
      cases this
  | cons c cs =>
      have hc : c ∈ alphabet := mem_digits (by rw [hq]; exact List.mem_cons_self)
      have all : ∀ c ∈ alphabet, (value? c).isSome := List.all_eq_true.mp (by decide)
      obtain ⟨d, hd⟩ := Option.isSome_iff_exists.mp (all c hc)
      rw [hq, digitsFrom_cons cs hd, Nat.mul_zero, Nat.zero_add] at h0
      rw [nat?, hd]
      exact h0

theorem int?_digits {width n : Nat} (h : n < 16 ^ (width + 1)) :
    int? (digits (width + 1) n) = some (n : Int) := by
  have hs : Decimal.numeral (digits (width + 1) n) = digits (width + 1) n := by
    have all : alphabet.all (fun c => c.toNat < 128 ∧ Decimal.isIntSpace c = false) = true := by
      decide
    exact Decimal.numeral_eq fun c hc => of_decide_eq_true (List.all_eq_true.mp all c (mem_digits hc))
  -- no digit is a sign or an `x`, so neither a sign nor a prefix is taken off
  have hsign : ∀ c ∈ digits (width + 1) n, c ≠ '-' ∧ c ≠ '+' ∧ c ≠ 'x' ∧ c ≠ 'X' := by
    have all : alphabet.all (fun c => c ≠ '-' ∧ c ≠ '+' ∧ c ≠ 'x' ∧ c ≠ 'X') = true := by decide
    exact fun c hc => of_decide_eq_true (List.all_eq_true.mp all c (mem_digits hc))
  have hp : dropPrefix (digits (width + 1) n) = digits (width + 1) n := by
    unfold dropPrefix
    split
    · rename_i x cs hq
      have := hsign x (by rw [hq]; simp)
      rw [if_neg (by simp [this]), hq]
    · rename_i x cs _ hq
      have := hsign x (by rw [hq]; simp)
      rw [if_neg (by simp [this]), hq]
    · rfl
  rw [int?, hs]
  split
  · rename_i cs hq
    exact absurd rfl (hsign '-' (by rw [hq]; simp)).1
  · rename_i cs hq
    exact absurd rfl (hsign '+' (by rw [hq]; simp)).2.1
  · rw [hp, nat?_digits h]
    rfl

/-! ## What a numeral is made of -/

theorem mem_digitsFrom {acc n : Nat} {cs : List Char} (h : digitsFrom acc cs = some n) :
    ∀ c ∈ cs, c = '_' ∨ (value? c).isSome := by
  fun_induction digitsFrom acc cs with
  | case1 acc => simp
  | case2 acc c cs ih =>
      obtain ⟨d, hd, hcs⟩ := Option.bind_eq_some_iff.mp h
      intro x hx
      rcases List.mem_cons.mp hx with rfl | hx
      · exact Or.inl rfl
      · rcases List.mem_cons.mp hx with rfl | hx
        · exact Or.inr (Option.isSome_of_eq_some hd)
        · exact ih d hcs x hx
  | case3 acc c cs hne ih =>
      obtain ⟨d, hd, hcs⟩ := Option.bind_eq_some_iff.mp h
      intro x hx
      rcases List.mem_cons.mp hx with rfl | hx
      · exact Or.inr (Option.isSome_of_eq_some hd)
      · exact ih d hcs x hx

theorem mem_nat? {n : Nat} {cs : List Char} (h : nat? cs = some n) :
    ∀ c ∈ cs, c = '_' ∨ (value? c).isSome := by
  cases cs with
  | nil => cases h
  | cons c cs =>
      obtain ⟨d, hd, hcs⟩ := Option.bind_eq_some_iff.mp h
      intro x hx
      rcases List.mem_cons.mp hx with rfl | hx
      · exact Or.inr (Option.isSome_of_eq_some hd)
      · exact mem_digitsFrom hcs x hx

theorem mem_dropPrefix {cs : List Char} {c : Char} (h : c ∈ cs) :
    c ∈ dropPrefix cs ∨ c ∈ ['0', 'x', 'X', '_'] := by
  unfold dropPrefix
  split
  · rename_i x cs'
    split
    · rename_i hx
      simp only [List.mem_cons] at h ⊢
      rcases h with rfl | rfl | rfl | h
      · simp
      · rcases hx with rfl | rfl <;> simp
      · simp
      · exact Or.inl h
    · exact Or.inl h
  · rename_i x cs' _
    split
    · rename_i hx
      simp only [List.mem_cons] at h ⊢
      rcases h with rfl | rfl | h
      · simp
      · rcases hx with rfl | rfl <;> simp
      · exact Or.inl h
    · exact Or.inl h
  · exact Or.inl h

/-- A numeral has white space, a sign, the letters and underscores of its notation, and digits. -/
theorem mem_int? {n : Int} {cs : List Char} (h : int? cs = some n) {c : Char} (hc : c ∈ cs) :
    Decimal.isIntSpace c = true ∨ Decimal.toAscii c ∈ ['-', '+', '0', 'x', 'X', '_']
      ∨ (value? (Decimal.toAscii c)).isSome := by
  by_cases hspace : Decimal.isIntSpace c = true
  · exact Or.inl hspace
  · right
    have hnumeral : Decimal.toAscii c ∈ Decimal.numeral cs :=
      List.mem_map_of_mem ((Trim.mem_trim_of_not (Bool.eq_false_iff.mpr hspace)).mpr hc)
    have hdigits : ∀ {cs : List Char} {n : Nat}, nat? (dropPrefix cs) = some n →
        Decimal.toAscii c ∈ cs → Decimal.toAscii c ∈ ['-', '+', '0', 'x', 'X', '_']
          ∨ (value? (Decimal.toAscii c)).isSome := by
      intro cs n hn hmem
      rcases mem_dropPrefix hmem with hmem | hmem
      · rcases mem_nat? hn _ hmem with hbar | hvalue
        · exact Or.inl (by simp [hbar])
        · exact Or.inr hvalue
      · exact Or.inl (List.mem_cons_of_mem _ (List.mem_cons_of_mem _ hmem))
    unfold int? at h
    split at h
    · rename_i cs' heq
      obtain ⟨m, hm, -⟩ := Option.map_eq_some_iff.mp h
      obtain ⟨k, hk, -⟩ := Option.bind_eq_some_iff.mp hm
      rw [heq] at hnumeral
      rcases List.mem_cons.mp hnumeral with hsign | hmem
      · exact Or.inl (by simp [hsign])
      · exact hdigits hk hmem
    · rename_i cs' heq
      obtain ⟨m, hm, -⟩ := Option.map_eq_some_iff.mp h
      rw [heq] at hnumeral
      rcases List.mem_cons.mp hnumeral with hsign | hmem
      · exact Or.inl (by simp [hsign])
      · exact hdigits hm hmem
    · obtain ⟨m, hm, -⟩ := Option.map_eq_some_iff.mp h
      exact hdigits hm hnumeral

end Hex
