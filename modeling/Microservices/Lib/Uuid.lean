import Mathlib.Order.Lattice
import Microservices.Lib.Hex

/-!
# UUIDs and their text

A UUID is a number below `2^128`, ordered as one. `text` writes the canonical
form, `ofText?` reads the forms `uuid.UUID` accepts: `urn:` and `uuid:` anywhere,
braces around, hyphens wherever they stand, then 32 characters that are a
hexadecimal numeral.
-/

structure UUID where
  int : Nat
  lt : int < 2 ^ 128
  deriving DecidableEq, Repr

namespace UUID

/-- `uuid.UUID(int=n)`, for `n` in range. -/
def ofNat (n : Nat) : UUID := ⟨n % 2 ^ 128, Nat.mod_lt n (by decide)⟩

theorem int_injective : Function.Injective UUID.int := by
  intro u v h
  cases u
  cases v
  cases h
  rfl

instance : LinearOrder UUID := LinearOrder.lift' UUID.int int_injective

/-- `8-4-4-4-12`. -/
def hyphenate (hex : List Char) : List Char :=
  hex.take 8 ++ '-' :: ((hex.drop 8).take 4 ++ '-' :: ((hex.drop 12).take 4
    ++ '-' :: ((hex.drop 16).take 4 ++ '-' :: hex.drop 20)))

/-- `str(u)`. -/
def text (u : UUID) : String := String.ofList (hyphenate (Hex.digits 32 u.int))

/-- `s.replace(pattern, '')`; `skip` characters of a match are still to be dropped. -/
def eraseAll (pattern : List Char) : Nat → List Char → List Char
  | _, [] => []
  | skip + 1, _ :: cs => eraseAll pattern skip cs
  | 0, c :: cs =>
      if pattern.isPrefixOf (c :: cs) then eraseAll pattern (pattern.length - 1) cs
      else c :: eraseAll pattern 0 cs

def isBrace (c : Char) : Bool := c == '{' || c == '}'

/-- `s.strip('{}')`. -/
def stripBraces (cs : List Char) : List Char :=
  ((cs.dropWhile isBrace).reverse.dropWhile isBrace).reverse

/-- The numeral `uuid.UUID` reads, once prefixes, braces and hyphens are gone. -/
def bare (s : String) : List Char :=
  (stripBraces (eraseAll "uuid:".toList 0 (eraseAll "urn:".toList 0 s.toList))).filter (· ≠ '-')

/-- `uuid.UUID(s)`; `none` is `ValueError`. -/
def ofText? (s : String) : Option UUID :=
  if (bare s).length = 32 then
    match Hex.int? (bare s) with
    | some (.ofNat n) => if h : n < 2 ^ 128 then some ⟨n, h⟩ else none
    | _ => none
  else none

/-! ## The canonical form reads back -/

/-- The characters of the canonical form. -/
theorem mem_hyphenate {hex : List Char} {c : Char} (h : c ∈ hyphenate hex) :
    c = '-' ∨ c ∈ hex := by
  simp only [hyphenate, List.mem_append, List.mem_cons] at h
  rcases h with h | h | h | h | h | h | h | h | h
  · exact Or.inr (List.mem_of_mem_take h)
  · exact Or.inl h
  · exact Or.inr (List.mem_of_mem_drop (List.mem_of_mem_take h))
  · exact Or.inl h
  · exact Or.inr (List.mem_of_mem_drop (List.mem_of_mem_take h))
  · exact Or.inl h
  · exact Or.inr (List.mem_of_mem_drop (List.mem_of_mem_take h))
  · exact Or.inl h
  · exact Or.inr (List.mem_of_mem_drop h)

theorem filter_hyphenate {hex : List Char} (h : '-' ∉ hex) :
    (hyphenate hex).filter (· ≠ '-') = hex := by
  have hkeep : ∀ l : List Char, l ⊆ hex → l.filter (· ≠ '-') = l := by
    intro l hl
    refine List.filter_eq_self.mpr fun c hc => ?_
    have : c ≠ '-' := by rintro rfl; exact h (hl hc)
    simpa using this
  have hdrop : ∀ n, hex.drop n ⊆ hex := fun n => (List.drop_suffix n hex).subset
  have htake : ∀ n m, (hex.drop n).take m ⊆ hex := fun n m c hc =>
    hdrop n (List.mem_of_mem_take hc)
  have hcut : ∀ n m, (hex.drop n).take m ++ hex.drop (n + m) = hex.drop n := by
    intro n m
    rw [← List.drop_drop]
    exact List.take_append_drop m (hex.drop n)
  simp only [hyphenate, List.filter_append, List.filter_cons, hkeep _ (hdrop _),
    hkeep _ (htake _ _), hkeep _ (List.take_subset 8 hex)]
  simp only [ne_eq, not_true_eq_false, decide_false, Bool.false_eq_true, if_false]
  rw [hcut 16 4, hcut 12 4, hcut 8 4]
  exact List.take_append_drop 8 hex

/-- Nothing is erased from a text without the pattern's first character. -/
theorem eraseAll_eq_self {p : Char} {pattern cs : List Char} (h : p ∉ cs) :
    eraseAll (p :: pattern) 0 cs = cs := by
  induction cs with
  | nil => rfl
  | cons c cs ih =>
      obtain ⟨hc, hcs⟩ := not_or.mp (fun hm => h (List.mem_cons.mpr hm))
      have hp : (p :: pattern).isPrefixOf (c :: cs) = false := by
        rw [List.isPrefixOf_cons_cons]
        simp [hc]
      rw [eraseAll, hp, if_neg (by simp), ih hcs]

theorem stripBraces_eq_self {cs : List Char} (h : ∀ c ∈ cs, isBrace c = false) :
    stripBraces cs = cs := by
  have hdrop : ∀ l : List Char, (∀ c ∈ l, isBrace c = false) → l.dropWhile isBrace = l := by
    intro l hl
    cases l with
    | nil => rfl
    | cons c l => rw [List.dropWhile_cons_of_neg (by simp [hl c (by simp)])]
  rw [stripBraces, hdrop cs h, hdrop cs.reverse (fun c hc => h c (List.mem_reverse.mp hc)),
    List.reverse_reverse]

theorem bare_text (u : UUID) : bare u.text = Hex.digits 32 u.int := by
  have hchars : ∀ c ∈ hyphenate (Hex.digits 32 u.int), c = '-' ∨ c ∈ Hex.alphabet := fun c hc =>
    (mem_hyphenate hc).imp_right Hex.mem_digits
  have halphabet : 'u' ∉ Hex.alphabet ∧ '-' ∉ Hex.alphabet := by decide
  have hnobrace : Hex.alphabet.all (fun c => !isBrace c) = true := by decide
  have hu : 'u' ∉ hyphenate (Hex.digits 32 u.int) := by
    intro hm
    rcases hchars 'u' hm with h | h
    · exact absurd h (by decide)
    · exact halphabet.1 h
  have hbrace : ∀ c ∈ hyphenate (Hex.digits 32 u.int), isBrace c = false := by
    intro c hc
    rcases hchars c hc with rfl | h
    · decide
    · simpa using List.all_eq_true.mp hnobrace c h
  have hhyphen : '-' ∉ Hex.digits 32 u.int := fun hm => halphabet.2 (Hex.mem_digits hm)
  have hurn : ∀ cs, 'u' ∉ cs → eraseAll "urn:".toList 0 cs = cs := fun cs h => eraseAll_eq_self h
  have huuid : ∀ cs, 'u' ∉ cs → eraseAll "uuid:".toList 0 cs = cs := fun cs h =>
    eraseAll_eq_self h
  rw [bare, text, String.toList_ofList (l := hyphenate _), hurn _ hu, huuid _ hu, stripBraces_eq_self hbrace,
    filter_hyphenate hhyphen]

/-- **`uuid.UUID(str(u))` is `u`.** -/
theorem ofText?_text (u : UUID) : ofText? u.text = some u := by
  have hlt : u.int < 16 ^ (31 + 1) := by
    have : (16 : Nat) ^ (31 + 1) = 2 ^ 128 := by decide
    rw [this]
    exact u.lt
  rw [ofText?, bare_text, if_pos (Hex.length_digits 32 u.int), Hex.int?_digits hlt]
  exact dif_pos u.lt

theorem text_injective : Function.Injective text := by
  intro u v h
  have hread := ofText?_text u
  rw [h, ofText?_text] at hread
  exact (Option.some.inj hread).symm

theorem length_text (u : UUID) : u.text.toList.length = 36 := by
  have hlength := Hex.length_digits 32 u.int
  rw [text, String.toList_ofList, hyphenate]
  simp only [List.length_append, List.length_cons, List.length_take, List.length_drop, hlength]
  omega

/-! ## What a text of a UUID is made of -/

/-- Only characters of the pattern are erased. -/
theorem mem_eraseAll {p c : Char} {pattern cs : List Char} (hc : c ∉ p :: pattern) {skip : Nat}
    (hskip : cs.take skip ⊆ p :: pattern) (h : c ∈ cs) : c ∈ eraseAll (p :: pattern) skip cs := by
  fun_induction eraseAll (p :: pattern) skip cs with
  | case1 => cases h
  | case2 skip x cs ih =>
      rw [List.take_succ_cons, List.cons_subset] at hskip
      rcases List.mem_cons.mp h with rfl | h
      · exact absurd hskip.1 hc
      · exact ih hskip.2 h
  | case3 x cs hprefix ih =>
      obtain ⟨rest, hrest⟩ := List.isPrefixOf_iff_prefix.mp hprefix
      obtain ⟨rfl, rfl⟩ := List.cons_eq_cons.mp hrest
      rcases List.mem_cons.mp h with rfl | h
      · exact absurd List.mem_cons_self hc
      · refine ih ?_ h
        simp
  | case4 x cs hprefix ih =>
      rcases List.mem_cons.mp h with rfl | h
      · exact List.mem_cons_self
      · exact List.mem_cons_of_mem _ (ih (by simp) h)

/-- What is left of a text has all the characters that are not taken away. -/
theorem mem_bare {s : String} {c : Char} (hc : c ∉ "urn:uuid:{}-".toList) (h : c ∈ s.toList) :
    c ∈ bare s := by
  have hurn : c ∈ eraseAll "urn:".toList 0 s.toList :=
    mem_eraseAll (fun hm => hc (List.mem_of_mem_take (i := 4) hm)) (by simp) h
  have huuid : c ∈ eraseAll "uuid:".toList 0 (eraseAll "urn:".toList 0 s.toList) :=
    mem_eraseAll (fun hm => hc (List.mem_of_mem_drop (i := 4) (List.mem_of_mem_take (i := 5) hm)))
      (by simp) hurn
  have hbrace : isBrace c = false := by
    rw [isBrace, Bool.or_eq_false_iff, beq_eq_false_iff_ne, beq_eq_false_iff_ne]
    constructor
    · rintro rfl
      exact hc (by decide)
    · rintro rfl
      exact hc (by decide)
  have hstripped : c ∈ stripBraces (eraseAll "uuid:".toList 0 (eraseAll "urn:".toList 0 s.toList)) :=
    (Trim.mem_trim_of_not hbrace).mpr huuid
  refine List.mem_filter.mpr ⟨hstripped, decide_eq_true ?_⟩
  rintro rfl
  exact hc (by decide)

/-- There is no bar in a text that is read as a UUID. -/
theorem bar_not_mem {s : String} {u : UUID} (h : ofText? s = some u) : '|' ∉ s.toList := by
  intro hbar
  unfold ofText? at h
  split at h
  · cases hint : Hex.int? (bare s) with
    | none =>
        rw [hint] at h
        cases h
    | some n =>
        rcases Hex.mem_int? hint (mem_bare (by decide) hbar) with hspace | hnotation | hvalue
        · exact absurd hspace (by decide)
        · exact absurd hnotation (by decide)
        · exact absurd hvalue (by decide)
  · cases h

end UUID
