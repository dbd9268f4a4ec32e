import Microservices.Lib.Decimal
import Microservices.Lib.Json

/-!
# What `json.dumps` writes reads back

For every value without a float, and with no numeral longer than `int` reads:
`json.loads` of its text is the value. The proof goes over the value, with the text
that follows it left over; a numeral needs that it does not go on there.
-/

namespace Json

mutual

/-- No floats, and integers that `int` reads. -/
def readable : Json → Bool
  | float _ => false
  | int i => (Nat.toDigits 10 i.natAbs).length ≤ 4300
  | arr items => readableItems items
  | obj members => readableMembers members
  | _ => true

def readableItems : List Json → Bool
  | [] => true
  | v :: vs => v.readable && readableItems vs

def readableMembers : List (String × Json) → Bool
  | [] => true
  | (_, v) :: ms => v.readable && readableMembers ms

end

/-! ## Numerals -/

/-- No numeral goes on here. -/
def Ends (rest : List Char) : Prop :=
  ∀ c ∈ rest.head?, c.isDigit = false ∧ c ≠ '.' ∧ c ≠ 'e' ∧ c ≠ 'E'

variable {rest : List Char}

theorem toList_toString (i : Int) :
    (toString i).toList = (if i < 0 then ['-'] else []) ++ Nat.toDigits 10 i.natAbs := by
  rw [Int.toString_eq_repr]
  cases i with
  | ofNat m =>
      show m.repr.toList = _
      rw [Nat.toList_repr]
      rfl
  | negSucc m =>
      have hneg : Int.negSucc m < 0 := Int.negSucc_lt_zero m
      show ("-" ++ (m + 1).repr).toList = _
      rw [String.toList_append, Nat.toList_repr, if_pos hneg]
      rfl

theorem isDigit_toDigits {n : Nat} {c : Char} (h : c ∈ Nat.toDigits 10 n) : c.isDigit = true :=
  Nat.isDigit_of_mem_toDigits (by decide) (by decide) h

/-- Only the numeral of zero begins with a zero. -/
theorem head_toDigits {n : Nat} (h : 0 < n) : ∀ c ∈ (Nat.toDigits 10 n).head?, c ≠ '0' := by
  induction n using Nat.strong_induction_on with
  | _ n ih =>
      by_cases hn : n < 10
      · rw [Nat.toDigits_of_lt_base hn]
        have all : ∀ m < 10, 0 < m → Nat.digitChar m ≠ '0' := by decide
        intro c hc
        cases hc
        exact all n hn h
      · rw [Nat.toDigits_of_base_le (by decide) (Nat.le_of_not_lt hn)]
        have hlater := ih (n / 10) (by omega) (by omega)
        cases hd : Nat.toDigits 10 (n / 10) with
        | nil => exact absurd hd Nat.toDigits_ne_nil
        | cons c cs =>
            rw [hd] at hlater
            exact hlater

theorem digits?_toDigits (n : Nat) (h : Ends rest) :
    digits? (Nat.toDigits 10 n ++ rest) = some (Nat.toDigits 10 n, rest) := by
  have hstop : rest.takeWhile Char.isDigit = [] ∧ rest.dropWhile Char.isDigit = rest := by
    cases rest with
    | nil => exact ⟨rfl, rfl⟩
    | cons c cs =>
        have hc := (h c rfl).1
        exact ⟨List.takeWhile_cons_of_neg (by simp [hc]), List.dropWhile_cons_of_neg (by simp [hc])⟩
  unfold digits?
  rw [List.takeWhile_append_of_pos fun c => isDigit_toDigits,
    List.dropWhile_append_of_pos fun c => isDigit_toDigits, hstop.1, hstop.2, List.append_nil]
  have hne : (Nat.toDigits 10 n).isEmpty = false := by
    cases hd : Nat.toDigits 10 n with
    | nil => exact absurd hd Nat.toDigits_ne_nil
    | cons c cs => rfl
  simp [hne]

theorem integerPart?_toDigits (n : Nat) (h : Ends rest) :
    integerPart? (Nat.toDigits 10 n ++ rest) = some (Nat.toDigits 10 n, rest) := by
  rcases Nat.eq_zero_or_pos n with rfl | hn
  · rfl
  · have hhead := head_toDigits hn
    have hdigits := digits?_toDigits n h
    cases hd : Nat.toDigits 10 n with
    | nil => exact absurd hd Nat.toDigits_ne_nil
    | cons c cs =>
        rw [hd] at hhead hdigits
        rw [List.cons_append] at hdigits ⊢
        rw [integerPart?, hdigits]
        intro cs' hc
        exact absurd (List.cons_eq_cons.mp hc).1 (hhead c rfl)

theorem fractionPart_of_ends (h : Ends rest) : fractionPart rest = ([], rest) := by
  cases rest with
  | nil => rfl
  | cons c cs =>
      rw [fractionPart]
      intro cs' hc
      exact (h c rfl).2.1 (List.cons_eq_cons.mp hc).1

theorem exponentPart_of_ends (h : Ends rest) : exponentPart rest = ([], rest) := by
  cases rest with
  | nil => rfl
  | cons c cs =>
      have hc := (h c rfl).2.2
      rw [exponentPart, if_neg (by simp [hc.1, hc.2])]

theorem number?_toString {i : Int} (hi : (Nat.toDigits 10 i.natAbs).length ≤ 4300) (h : Ends rest) :
    number? ((toString i).toList ++ rest) = some (int i, rest) := by
  have hvalue : Nat.ofDigitChars 10 (Nat.toDigits 10 i.natAbs) 0 = i.natAbs :=
    Nat.ofDigitChars_ten_toDigits
  have hlong : ¬ 4300 < (Nat.toDigits 10 i.natAbs).length := by omega
  rw [toList_toString]
  by_cases hneg : i < 0
  · rw [if_pos hneg]
    simp only [number?, List.cons_append, List.nil_append, List.head?_cons, decide_true,
      if_true, List.tail_cons, integerPart?_toDigits _ h, fractionPart_of_ends h,
      exponentPart_of_ends h, List.isEmpty_nil, Bool.and_self, hvalue, if_neg hlong]
    rw [show -((i.natAbs : Nat) : Int) = i by omega]
  · have hminus : (Nat.toDigits 10 i.natAbs ++ rest).head? ≠ some '-' := by
      cases hd : Nat.toDigits 10 i.natAbs with
      | nil => exact absurd hd Nat.toDigits_ne_nil
      | cons c cs =>
          have hc : c.isDigit = true := isDigit_toDigits (hd ▸ List.mem_cons_self)
          rw [List.cons_append, List.head?_cons]
          rintro heq
          cases heq
          exact absurd hc (by decide)
    rw [if_neg hneg, List.nil_append]
    simp only [number?, decide_eq_false hminus, Bool.false_eq_true, if_false,
      integerPart?_toDigits _ h, fractionPart_of_ends h, exponentPart_of_ends h,
      List.isEmpty_nil, Bool.and_self, if_true, hvalue, if_neg hlong]
    rw [show ((i.natAbs : Nat) : Int) = i by omega]

/-- A numeral is none of the words. -/
theorem find?_words_toString (i : Int) (rest : List Char) :
    words.find? (fun w => w.1.isPrefixOf ((toString i).toList ++ rest)) = none := by
  have hnone : ∀ {cs : List Char}, (∀ c ∈ cs.head?, c.isDigit = true) →
      ∀ w ∈ words, w.1.isPrefixOf cs = false ∧ w.1.isPrefixOf ('-' :: cs) = false := by
    intro cs hcs
    have hword : ∀ w ∈ words, ∃ a b later, w.1 = a :: b :: later ∧ a.isDigit = false
        ∧ b.isDigit = false := by
      intro w hw
      simp only [words, List.mem_cons, List.not_mem_nil, or_false] at hw
      rcases hw with rfl | rfl | rfl | rfl | rfl | rfl <;>
        exact ⟨_, _, _, rfl, by decide, by decide⟩
    intro w hw
    obtain ⟨a, b, later, hw1, ha, hb⟩ := hword w hw
    rw [hw1]
    cases cs with
    | nil => simp [List.isPrefixOf]
    | cons c cs =>
        have hc : c.isDigit = true := hcs c rfl
        have hac : a ≠ c := by rintro rfl; rw [ha] at hc; cases hc
        have hbc : b ≠ c := by rintro rfl; rw [hb] at hc; cases hc
        simp [List.isPrefixOf, hac, hbc]
  rw [List.find?_eq_none]
  intro w hw
  rw [toList_toString, List.append_assoc]
  have hdigits : ∀ c ∈ (Nat.toDigits 10 i.natAbs ++ rest).head?, c.isDigit = true := by
    cases hd : Nat.toDigits 10 i.natAbs with
    | nil => exact absurd hd Nat.toDigits_ne_nil
    | cons c cs =>
        intro x hx
        cases hx
        exact isDigit_toDigits (hd ▸ List.mem_cons_self)
  obtain ⟨hplain, hneg⟩ := hnone hdigits w hw
  split
  · rw [List.singleton_append, hneg]
    exact Bool.false_ne_true
  · rw [List.nil_append, hplain]
    exact Bool.false_ne_true

/-! ## Values -/

/-- A text that begins like a value: not with white space, and no bracket closes there. -/
def Begins (cs : List Char) : Prop :=
  ∃ c later, cs = c :: later ∧ c ≠ ']' ∧ (c == ' ' || c == '\t' || c == '\n' || c == '\r') = false

theorem Begins.skipSpace {cs : List Char} (h : Begins cs) (rest : List Char) :
    skipSpace (cs ++ rest) = cs ++ rest := by
  obtain ⟨c, later, rfl, _, hspace⟩ := h
  exact skipSpace_of_not _ hspace

/-- What a numeral begins with. -/
theorem toString_begins (i : Int) : ∃ c cs, (toString i).toList = c :: cs ∧ c ∉ ['"', '[', '{', ']']
    ∧ (c == ' ' || c == '\t' || c == '\n' || c == '\r') = false := by
  cases hd : (toString i).toList with
  | nil =>
      rw [toList_toString] at hd
      exact absurd (List.append_eq_nil_iff.mp hd).2 Nat.toDigits_ne_nil
  | cons c cs =>
      have hc : c ∈ (toString i).toList := hd ▸ List.mem_cons_self
      refine ⟨c, cs, rfl, ?_⟩
      rcases Decimal.mem_toString hc with hc | rfl
      · have hrange : 48 ≤ c.toNat ∧ c.toNat ≤ 57 := Char.isDigit_iff_toNat.mp hc
        have hne : ∀ d : Char, d.toNat < 48 ∨ 57 < d.toNat → c ≠ d := by
          rintro d hd rfl
          omega
        simp [hne]
      · decide

theorem begins_dumps {v : Json} (h : v.readable = true) : Begins (dumps v) := by
  cases v with
  | null => exact ⟨'n', "ull".toList, rfl, by decide, by decide⟩
  | bool b => cases b <;> exact ⟨_, _, rfl, by decide, by decide⟩
  | str s => exact ⟨_, _, rfl, by decide, by decide⟩
  | arr items => exact ⟨_, _, rfl, by decide, by decide⟩
  | obj members => exact ⟨_, _, rfl, by decide, by decide⟩
  | float text => cases h
  | int i =>
      obtain ⟨c, cs, hcs, hc, hspace⟩ := toString_begins i
      exact ⟨c, cs, hcs, fun h => hc (by rw [h]; decide), hspace⟩

/-- A value that is neither a string nor in brackets. -/
theorem parse_other (fuel : Nat) {c : Char} {cs : List Char} (h : c ∉ ['"', '[', '{', ']']) :
    parse (fuel + 1) (c :: cs) = match words.find? fun w => w.1.isPrefixOf (c :: cs) with
      | some (word, v) => some (v, (c :: cs).drop word.length)
      | none => number? (c :: cs) := by
  simp only [List.mem_cons, List.not_mem_nil, or_false, not_or] at h
  unfold parse
  -- the three cases that come before the last one are ruled out by the first character
  split
  · rename_i cs' hcs
    exact absurd (List.cons_eq_cons.mp hcs).1 h.1
  · rename_i cs' hcs
    exact absurd (List.cons_eq_cons.mp hcs).1 h.2.1
  · rename_i cs' hcs
    exact absurd (List.cons_eq_cons.mp hcs).1 h.2.2.1
  · rfl

theorem parse_null (fuel : Nat) : parse (fuel + 1) ("null".toList ++ rest) = some (null, rest) :=
  parse_other fuel (by decide : 'n' ∉ ['"', '[', '{', ']'])

theorem parse_bool (fuel : Nat) (b : Bool) :
    parse (fuel + 1) (dumps (bool b) ++ rest) = some (bool b, rest) := by
  cases b with
  | true => exact parse_other fuel (by decide : 't' ∉ ['"', '[', '{', ']'])
  | false => exact parse_other fuel (by decide : 'f' ∉ ['"', '[', '{', ']'])

theorem parse_toString (fuel : Nat) {i : Int} (hi : (Nat.toDigits 10 i.natAbs).length ≤ 4300)
    (h : Ends rest) : parse (fuel + 1) ((toString i).toList ++ rest) = some (int i, rest) := by
  obtain ⟨c, cs, hcs, hc, _⟩ := toString_begins i
  have hword := find?_words_toString i rest
  have hnumber := number?_toString hi h
  rw [hcs, List.cons_append] at hword hnumber ⊢
  rw [parse_other fuel hc, hword]
  exact hnumber

/-! ## Brackets -/

theorem dumpsItems_cons (v : Json) (vs : List Json) (rest : List Char) :
    dumpsItems true (v :: vs) ++ rest = dumps v ++ (dumpsItems false vs ++ rest) := by
  rw [dumpsItems, if_pos rfl, List.nil_append, List.append_assoc]

theorem dumpsMembers_cons (k : String) (v : Json) (ms : List (String × Json)) (rest : List Char) :
    dumpsMembers true ((k, v) :: ms) ++ rest
      = quote k ++ ':' :: ' ' :: (dumps v ++ (dumpsMembers false ms ++ rest)) := by
  rw [dumpsMembers, if_pos rfl, List.nil_append]
  simp only [List.append_assoc, List.cons_append]

/-- After an item: the end of the list, or a comma and the next. -/
theorem dumpsItems_false (vs : List Json) : dumpsItems false vs = match vs with
    | [] => [']']
    | v :: vs => ',' :: ' ' :: dumpsItems true (v :: vs) := by
  cases vs <;> simp [dumpsItems]

theorem dumpsMembers_false (ms : List (String × Json)) : dumpsMembers false ms = match ms with
    | [] => ['}']
    | m :: ms => ',' :: ' ' :: dumpsMembers true (m :: ms) := by
  cases ms <;> simp [dumpsMembers]

theorem ends_cons {c : Char} (h : c ∈ [',', ']', '}']) (cs : List Char) : Ends (c :: cs) := by
  intro d hd
  cases hd
  simp only [List.mem_cons, List.not_mem_nil, or_false] at h
  rcases h with rfl | rfl | rfl <;> decide

theorem ends_dumpsItems (vs : List Json) (rest : List Char) : Ends (dumpsItems false vs ++ rest) := by
  rw [dumpsItems_false]
  cases vs <;> exact ends_cons (by decide) _

theorem ends_dumpsMembers (ms : List (String × Json)) (rest : List Char) :
    Ends (dumpsMembers false ms ++ rest) := by
  rw [dumpsMembers_false]
  cases ms <;> exact ends_cons (by decide) _

theorem begins_dumpsItems {v : Json} (h : v.readable = true) (vs : List Json) :
    Begins (dumpsItems true (v :: vs)) := by
  obtain ⟨c, later, hc, hclose, hspace⟩ := begins_dumps h
  rw [dumpsItems, if_pos rfl, List.nil_append, hc]
  exact ⟨c, _, rfl, hclose, hspace⟩

/-- `parseItems` over an item it can read, and those after it. -/
theorem parseItems_step {fuel : Nat} {cs : List Char} {v : Json} {vs : List Json}
    (h : parse fuel cs = some (v, dumpsItems false vs ++ rest))
    (hvs : readableItems vs = true)
    (hlater : vs ≠ [] → parseItems fuel (dumpsItems true vs ++ rest) = some (vs, rest)) :
    parseItems (fuel + 1) cs = some (v :: vs, rest) := by
  rw [parseItems, h]
  dsimp only
  rw [dumpsItems_false]
  cases vs with
  | nil => rfl
  | cons w ws =>
      rw [readableItems, Bool.and_eq_true] at hvs
      have hnext := hlater (List.cons_ne_nil w ws)
      rw [List.cons_append, List.cons_append, skipSpace_of_not _ (by decide)]
      simp only [skipSpace_space, (begins_dumpsItems hvs.1 ws).skipSpace, hnext, Option.map_some]

/-- `parseMembers` over a member whose value it can read, and those after it. -/
theorem parseMembers_step {fuel : Nat} {cs : List Char} {k : String} {v : Json}
    {ms : List (String × Json)} (hcs : skipSpace cs = cs)
    (h : parse fuel cs = some (v, dumpsMembers false ms ++ rest))
    (hlater : ms ≠ [] → parseMembers fuel (dumpsMembers true ms ++ rest) = some (ms, rest)) :
    parseMembers (fuel + 1) (quote k ++ ':' :: ' ' :: cs) = some ((k, v) :: ms, rest) := by
  rw [quote_append, parseMembers, string?_quote]
  dsimp only
  rw [skipSpace_of_not _ (by decide)]
  simp only [skipSpace_space, hcs, h]
  rw [dumpsMembers_false]
  cases ms with
  | nil => rfl
  | cons m ms =>
      have hquote : Begins (dumpsMembers true (m :: ms)) :=
        ⟨'"', _, rfl, by decide, by decide⟩
      have hnext := hlater (List.cons_ne_nil m ms)
      rw [List.cons_append, List.cons_append, skipSpace_of_not _ (by decide)]
      simp only [skipSpace_space, hquote.skipSpace, hnext, Option.map_some]

theorem parse_arr {fuel : Nat} {vs : List Json}
    (hbegins : Begins (dumpsItems true vs))
    (h : parseItems fuel (dumpsItems true vs ++ rest) = some (vs, rest)) :
    parse (fuel + 1) (dumps (arr vs) ++ rest) = some (arr vs, rest) := by
  obtain ⟨c, later, hc, hclose, hspace⟩ := hbegins
  rw [hc, List.cons_append] at h
  rw [dumps, hc, List.cons_append, List.cons_append, parse, skipSpace_of_not _ hspace]
  split
  · rename_i heq
    exact absurd (List.cons_eq_cons.mp heq).1 hclose
  · rw [h]
    rfl

theorem parse_obj {fuel : Nat} {k : String} {v : Json} {ms : List (String × Json)}
    (h : parseMembers fuel (dumpsMembers true ((k, v) :: ms) ++ rest) = some ((k, v) :: ms, rest)) :
    parse (fuel + 1) (dumps (obj ((k, v) :: ms)) ++ rest) = some (obj ((k, v) :: ms), rest) := by
  rw [dumpsMembers_cons, quote_append] at h
  rw [dumps, List.cons_append, dumpsMembers_cons, quote_append, parse,
    skipSpace_of_not _ (by decide)]
  split
  · rename_i heq
    exact absurd (List.cons_eq_cons.mp heq).1 (by decide)
  · rw [h]
    rfl

/-- Each later item takes two characters for its comma. -/
theorem length_dumpsItems_false (vs : List Json) : 0 < (dumpsItems false vs).length
    ∧ (vs ≠ [] → (dumpsItems false vs).length = (dumpsItems true vs).length + 2) := by
  rw [dumpsItems_false]
  cases vs <;> simp

theorem length_dumpsMembers_false (ms : List (String × Json)) : 0 < (dumpsMembers false ms).length
    ∧ (ms ≠ [] → (dumpsMembers false ms).length = (dumpsMembers true ms).length + 2) := by
  rw [dumpsMembers_false]
  cases ms <;> simp

/-! ## The round trip -/

mutual

/-- **A value reads back**, and what follows it is left alone. -/
theorem parse_dumps : ∀ (v : Json) {fuel : Nat} {rest : List Char}, v.readable = true →
    (dumps v).length < fuel → Ends rest → parse fuel (dumps v ++ rest) = some (v, rest)
  | _, 0, _, _, hfuel, _ => absurd hfuel (Nat.not_lt_zero _)
  | null, _ + 1, _, _, _, _ => parse_null _
  | bool b, _ + 1, _, _, _, _ => parse_bool _ b
  | int i, _ + 1, _, h, _, hends => parse_toString _ (of_decide_eq_true h) hends
  | str s, _ + 1, _, _, _, _ => parse_quote _ s _
  | arr [], _ + 1, _, _, _, _ => rfl
  | arr (v :: vs), fuel + 1, rest, h, hfuel, _ => by
      have hlength : (dumpsItems true (v :: vs)).length < fuel := by
        rw [dumps, List.length_cons] at hfuel
        omega
      have hv : v.readable = true := (Bool.and_eq_true_iff.mp h).1
      exact parse_arr (begins_dumpsItems hv vs)
        (parseItems_dumps (v :: vs) (List.cons_ne_nil v vs) h hlength)
  | obj [], _ + 1, _, _, _, _ => rfl
  | obj ((k, v) :: ms), fuel + 1, rest, h, hfuel, _ => by
      have hlength : (dumpsMembers true ((k, v) :: ms)).length < fuel := by
        rw [dumps, List.length_cons] at hfuel
        omega
      exact parse_obj (parseMembers_dumps ((k, v) :: ms) (List.cons_ne_nil _ ms) h hlength)

theorem parseItems_dumps : ∀ (vs : List Json) {fuel : Nat} {rest : List Char}, vs ≠ [] →
    readableItems vs = true → (dumpsItems true vs).length < fuel →
    parseItems fuel (dumpsItems true vs ++ rest) = some (vs, rest)
  | [], _, _, h, _, _ => absurd rfl h
  | _ :: _, 0, _, _, _, hfuel => absurd hfuel (Nat.not_lt_zero _)
  | v :: vs, fuel + 1, rest, _, h, hfuel => by
      obtain ⟨hv, hvs⟩ := Bool.and_eq_true_iff.mp h
      have hlength : (dumps v).length + (dumpsItems false vs).length < fuel + 1 := by
        rwa [dumpsItems, if_pos rfl, List.nil_append, List.length_append] at hfuel
      have hpos := length_dumpsItems_false vs
      rw [dumpsItems_cons]
      refine parseItems_step ?_ hvs fun hne => ?_
      · exact parse_dumps v hv (by omega) (ends_dumpsItems vs rest)
      · exact parseItems_dumps vs hne hvs (by have := hpos.2 hne; omega)

theorem parseMembers_dumps : ∀ (ms : List (String × Json)) {fuel : Nat} {rest : List Char}, ms ≠ [] →
    readableMembers ms = true → (dumpsMembers true ms).length < fuel →
    parseMembers fuel (dumpsMembers true ms ++ rest) = some (ms, rest)
  | [], _, _, h, _, _ => absurd rfl h
  | _ :: _, 0, _, _, _, hfuel => absurd hfuel (Nat.not_lt_zero _)
  | (k, v) :: ms, fuel + 1, rest, _, h, hfuel => by
      obtain ⟨hv, hms⟩ := Bool.and_eq_true_iff.mp h
      have hlength : (dumps v).length + (dumpsMembers false ms).length < fuel + 1 := by
        have hcons := congrArg List.length (dumpsMembers_cons k v ms [])
        simp only [List.append_nil, List.length_append, List.length_cons] at hcons
        omega
      have hpos := length_dumpsMembers_false ms
      rw [dumpsMembers_cons]
      refine parseMembers_step ((begins_dumps hv).skipSpace _) ?_ fun hne => ?_
      · exact parse_dumps v hv (by omega) (ends_dumpsMembers ms rest)
      · exact parseMembers_dumps ms hne hms (by have := hpos.2 hne; omega)

end

/-- **`json.loads(json.dumps(v))` is `v`.** -/
theorem loadsText_dumps {v : Json} (h : v.readable = true) : loadsText (dumps v) = some v := by
  have hbegins := (begins_dumps h).skipSpace []
  have hends : Ends [] := by intro c hc; cases hc
  have hparse := parse_dumps v h (Nat.lt_succ_self _) hends
  rw [List.append_nil] at hbegins hparse
  rw [loadsText, hbegins, hparse]
  rfl

/-! ## As bytes -/

mutual

/-- Its floats are written in printable characters, as `float.__repr__` writes them. -/
def writable : Json → Bool
  | float text => text.toList.all isPrintable
  | arr items => writableItems items
  | obj members => writableMembers members
  | _ => true

def writableItems : List Json → Bool
  | [] => true
  | v :: vs => v.writable && writableItems vs

def writableMembers : List (String × Json) → Bool
  | [] => true
  | (_, v) :: ms => v.writable && writableMembers ms

end

mutual

theorem writable_of_readable : ∀ v : Json, v.readable = true → v.writable = true
  | null, _ | bool _, _ | int _, _ | str _, _ => rfl
  | arr items, h => writableItems_of_readable items h
  | obj members, h => writableMembers_of_readable members h

theorem writableItems_of_readable : ∀ vs : List Json, readableItems vs = true → writableItems vs = true
  | [], _ => rfl
  | v :: vs, h => by
      obtain ⟨hv, hvs⟩ := Bool.and_eq_true_iff.mp h
      exact Bool.and_eq_true_iff.mpr ⟨writable_of_readable v hv, writableItems_of_readable vs hvs⟩

theorem writableMembers_of_readable :
    ∀ ms : List (String × Json), readableMembers ms = true → writableMembers ms = true
  | [], _ => rfl
  | (_, v) :: ms, h => by
      obtain ⟨hv, hms⟩ := Bool.and_eq_true_iff.mp h
      exact Bool.and_eq_true_iff.mpr ⟨writable_of_readable v hv, writableMembers_of_readable ms hms⟩

end

theorem printable_toString (i : Int) : ∀ c ∈ (toString i).toList, isPrintable c = true := by
  intro c hc
  rcases Decimal.mem_toString hc with hc | rfl
  · have hrange : 48 ≤ c.toNat ∧ c.toNat ≤ 57 := Char.isDigit_iff_toNat.mp hc
    rw [isPrintable, Bool.and_eq_true]
    exact ⟨decide_eq_true (show 32 ≤ c.toNat by omega), decide_eq_true (show c.toNat ≤ 126 by omega)⟩
  · decide

theorem printable_separator (first : Bool) :
    ∀ c ∈ (if first then [] else [',', ' ']), isPrintable c = true := by
  intro c hc
  cases first with
  | true => cases hc
  | false =>
      simp only [Bool.false_eq_true, if_false, List.mem_cons, List.not_mem_nil, or_false] at hc
      rcases hc with rfl | rfl <;> decide

mutual

/-- **What `dumps` writes is printable**, down to every string and name. -/
theorem dumps_printable : ∀ v : Json, v.writable = true → ∀ c ∈ dumps v, isPrintable c = true
  | null, _ => List.all_eq_true.mp (by decide)
  | bool true, _ => List.all_eq_true.mp (by decide)
  | bool false, _ => List.all_eq_true.mp (by decide)
  | int i, _ => printable_toString i
  | float _, h => List.all_eq_true.mp h
  | str s, _ => quote_printable s
  | arr items, h => by
      intro c hc
      rcases List.mem_cons.mp hc with rfl | hc
      · decide
      · exact items_printable items true h c hc
  | obj members, h => by
      intro c hc
      rcases List.mem_cons.mp hc with rfl | hc
      · decide
      · exact members_printable members true h c hc

theorem items_printable : ∀ (vs : List Json) (first : Bool), writableItems vs = true →
    ∀ c ∈ dumpsItems first vs, isPrintable c = true
  | [], _, _ => by rintro c (_ | ⟨_, ⟨⟩⟩); decide
  | v :: vs, first, h => by
      obtain ⟨hv, hvs⟩ := Bool.and_eq_true_iff.mp h
      intro c hc
      rw [dumpsItems, List.mem_append, List.mem_append] at hc
      rcases hc with hc | hc | hc
      · exact printable_separator first c hc
      · exact dumps_printable v hv c hc
      · exact items_printable vs false hvs c hc

theorem members_printable : ∀ (ms : List (String × Json)) (first : Bool),
    writableMembers ms = true → ∀ c ∈ dumpsMembers first ms, isPrintable c = true
  | [], _, _ => by rintro c (_ | ⟨_, ⟨⟩⟩); decide
  | (k, v) :: ms, first, h => by
      obtain ⟨hv, hms⟩ := Bool.and_eq_true_iff.mp h
      intro c hc
      simp only [dumpsMembers, List.mem_append, List.mem_cons] at hc
      rcases hc with hc | hc | rfl | rfl | hc | hc
      · exact printable_separator first c hc
      · exact quote_printable k c hc
      · decide
      · decide
      · exact dumps_printable v hv c hc
      · exact members_printable ms false hms c hc

end

theorem dumps_ascii (v : Json) (h : v.readable = true) : ∀ c ∈ dumps v, 0 < c.toNat ∧ c.toNat < 0x80 := by
  intro c hc
  obtain ⟨h1, h2⟩ := toNat_of_isPrintable (dumps_printable v (writable_of_readable v h) c hc)
  exact ⟨by omega, by omega⟩

/-- **`json.loads(json.dumps(v).encode())` is `v`.** -/
theorem loads_dumps {v : Json} (h : v.readable = true) :
    loads (Unicode.encodeUtf8 (dumps v)) = some v := by
  rw [loads, decodeText_ascii (dumps_ascii v h), Option.bind_some, loadsText_dumps h]

end Json
