import Microservices.Lib.Hex
import Microservices.Lib.Unicode

/-!
# JSON as Python reads and writes it

`dumps` escapes everything outside printable ASCII and separates with `", "` and
`": "`. `loads` takes bytes in UTF-8, -16 or -32, and is as lenient as
`json.loads`: it knows `NaN` and the infinities, lets lone surrogates through, and
keeps the last of two members with one name. A float is kept as the text it was
written as.

`parse` recurses on a budget, one unit for every value and member on the way down.
The number of characters is always enough.
-/

inductive Json where
  | null
  | bool (b : Bool)
  | int (i : Int)
  | float (text : String)
  | str (s : String)
  | arr (items : List Json)
  | obj (members : List (String × Json))

namespace Json

/-! ## Writing -/

/-- The escapes of one letter, with the characters they stand for. -/
def shortEscapes : List (Char × Char) :=
  [('"', '"'), ('\\', '\\'), ('n', '\n'), ('r', '\r'), ('t', '\t'), ('b', Char.ofNat 8),
    ('f', Char.ofNat 12)]

def isPrintable (c : Char) : Bool := ' ' ≤ c && c ≤ '~'

def escapeUnit (n : Nat) : List Char := '\\' :: 'u' :: Hex.digits 4 n

def escape (c : Char) : List Char :=
  match shortEscapes.find? fun e => e.2 = c with
  | some (letter, _) => ['\\', letter]
  | none => if isPrintable c then [c] else (Unicode.units c).flatMap escapeUnit

def quote (s : String) : List Char := '"' :: (s.toList.flatMap escape ++ ['"'])

mutual

def dumps : Json → List Char
  | null => "null".toList
  | bool true => "true".toList
  | bool false => "false".toList
  | int i => (toString i).toList
  | float text => text.toList
  | str s => quote s
  | arr items => '[' :: dumpsItems true items
  | obj members => '{' :: dumpsMembers true members

def dumpsItems (first : Bool) : List Json → List Char
  | [] => [']']
  | v :: vs => (if first then [] else [',', ' ']) ++ (dumps v ++ dumpsItems false vs)

def dumpsMembers (first : Bool) : List (String × Json) → List Char
  | [] => ['}']
  | (k, v) :: ms =>
      (if first then [] else [',', ' ']) ++ (quote k ++ ':' :: ' ' :: (dumps v ++ dumpsMembers false ms))

end

/-! ## Reading -/

def skipSpace (cs : List Char) : List Char :=
  cs.dropWhile fun c => c == ' ' || c == '\t' || c == '\n' || c == '\r'

def escaped? (letter : Char) : Option Char :=
  if letter = '/' then some '/' else shortEscapes.lookup letter

def unit? (a b c d : Char) : Option Nat := do
  let a ← Hex.value? a
  let b ← Hex.value? b
  let c ← Hex.value? c
  let d ← Hex.value? d
  some (((a * 16 + b) * 16 + c) * 16 + d)

/-- A string after its opening quote, and the text after its closing one. -/
def pieces? : List Char → Option (List Unicode.Piece × List Char)
  | [] => none
  | '"' :: cs => some ([], cs)
  | '\\' :: 'u' :: a :: b :: c :: d :: cs =>
      match unit? a b c d, pieces? cs with
      | some n, some (ps, rest) => some (.unit n :: ps, rest)
      | _, _ => none
  | '\\' :: letter :: cs =>
      match escaped? letter, pieces? cs with
      | some c, some (ps, rest) => some (.char c :: ps, rest)
      | _, _ => none
  | c :: cs =>
      if c.toNat < 0x20 ∨ c = '\\' then none
      else
        match pieces? cs with
        | some (ps, rest) => some (.char c :: ps, rest)
        | none => none

def string? (cs : List Char) : Option (String × List Char) :=
  (pieces? cs).map fun r => (String.ofList (Unicode.join r.1), r.2)

/-- One digit or more. -/
def digits? (cs : List Char) : Option (List Char × List Char) :=
  let ds := cs.takeWhile Char.isDigit
  if ds.isEmpty then none else some (ds, cs.dropWhile Char.isDigit)

/-- The digits before the point. -/
def integerPart? : List Char → Option (List Char × List Char)
  | '0' :: cs => some (['0'], cs)
  | cs => digits? cs

/-- The digits after the point, if there are any. -/
def fractionPart : List Char → List Char × List Char
  | '.' :: cs =>
      match digits? cs with
      | some (ds, rest) => ('.' :: ds, rest)
      | none => ([], '.' :: cs)
  | cs => ([], cs)

def exponentPart : List Char → List Char × List Char
  | e :: cs =>
      if e = 'e' ∨ e = 'E' then
        let sign := cs.takeWhile fun c => c == '+' || c == '-'
        match digits? (cs.drop sign.length) with
        | some (ds, rest) => if sign.length ≤ 1 then (e :: (sign ++ ds), rest) else ([], e :: cs)
        | none => ([], e :: cs)
      else ([], e :: cs)
  | [] => ([], [])

def number? (cs : List Char) : Option (Json × List Char) :=
  let negative : Bool := cs.head? = some '-'
  match integerPart? (if negative then cs.tail else cs) with
  | none => none
  | some (ds, rest) =>
      let (fraction, rest) := fractionPart rest
      let (exponent, rest) := exponentPart rest
      if fraction.isEmpty && exponent.isEmpty then
        let n := Nat.ofDigitChars 10 ds 0
        -- `int` refuses longer numerals
        if 4300 < ds.length then none else some (int (if negative then -(n : Int) else n), rest)
      else
        let sign := if negative then ['-'] else []
        some (float (String.ofList (sign ++ ds ++ fraction ++ exponent)), rest)

/-- The words that are values. -/
def words : List (List Char × Json) :=
  [("null".toList, null), ("true".toList, bool true), ("false".toList, bool false),
    ("NaN".toList, float "NaN"), ("Infinity".toList, float "Infinity"),
    ("-Infinity".toList, float "-Infinity")]

mutual

/-- One value, and the text after it. -/
def parse : Nat → List Char → Option (Json × List Char)
  | 0, _ => none
  | fuel + 1, cs =>
      match cs with
      | '"' :: cs => (string? cs).map fun r => (str r.1, r.2)
      | '[' :: cs =>
          match skipSpace cs with
          | ']' :: cs => some (arr [], cs)
          | cs => (parseItems fuel cs).map fun r => (arr r.1, r.2)
      | '{' :: cs =>
          match skipSpace cs with
          | '}' :: cs => some (obj [], cs)
          | cs => (parseMembers fuel cs).map fun r => (obj r.1, r.2)
      | cs =>
          match words.find? fun w => w.1.isPrefixOf cs with
          | some (word, v) => some (v, cs.drop word.length)
          | none => number? cs

/-- The items from here to the closing bracket. -/
def parseItems : Nat → List Char → Option (List Json × List Char)
  | 0, _ => none
  | fuel + 1, cs =>
      match parse fuel cs with
      | none => none
      | some (v, cs) =>
          match skipSpace cs with
          | ']' :: cs => some ([v], cs)
          | ',' :: cs => (parseItems fuel (skipSpace cs)).map fun r => (v :: r.1, r.2)
          | _ => none

/-- The members from here to the closing brace. -/
def parseMembers : Nat → List Char → Option (List (String × Json) × List Char)
  | 0, _ => none
  | fuel + 1, cs =>
      match cs with
      | '"' :: cs =>
          match string? cs with
          | none => none
          | some (k, cs) =>
              match skipSpace cs with
              | ':' :: cs =>
                  match parse fuel (skipSpace cs) with
                  | none => none
                  | some (v, cs) =>
                      match skipSpace cs with
                      | '}' :: cs => some ([(k, v)], cs)
                      | ',' :: cs => (parseMembers fuel (skipSpace cs)).map fun r => ((k, v) :: r.1, r.2)
                      | _ => none
              | _ => none
      | _ => none

end

def loadsText (cs : List Char) : Option Json :=
  match parse (cs.length + 1) (skipSpace cs) with
  | some (v, rest) => if (skipSpace rest).isEmpty then some v else none
  | none => none

/-- `detect_encoding` and `decode`. -/
def decodeText (bs : List UInt8) : Option (List Char) :=
  if [0, 0, 0xFE, 0xFF].isPrefixOf bs then Unicode.utf32? true (bs.drop 4)
  else if [0xFF, 0xFE, 0, 0].isPrefixOf bs then Unicode.utf32? false (bs.drop 4)
  else if [0xFE, 0xFF].isPrefixOf bs then Unicode.utf16? true (bs.drop 2)
  else if [0xFF, 0xFE].isPrefixOf bs then Unicode.utf16? false (bs.drop 2)
  else if [0xEF, 0xBB, 0xBF].isPrefixOf bs then Unicode.utf8? (bs.drop 3)
  else
    match bs with
    | 0 :: 0 :: _ :: _ :: _ => Unicode.utf32? true bs
    | 0 :: _ :: _ :: _ :: _ => Unicode.utf16? true bs
    | _ :: 0 :: 0 :: 0 :: _ => Unicode.utf32? false bs
    | _ :: 0 :: _ :: _ :: _ => Unicode.utf16? false bs
    | [0, _] => Unicode.utf16? true bs
    | [_, 0] => Unicode.utf16? false bs
    | _ => Unicode.utf8? bs

/-- `json.loads(bs)`; `none` is any exception. -/
def loads (bs : List UInt8) : Option Json := (decodeText bs).bind loadsText

/-- `v[name]` of an object. -/
def get? (v : Json) (name : String) : Option Json :=
  match v with
  | obj members => (members.reverse.find? fun m => m.1 = name).map Prod.snd
  | _ => none

def str? : Json → Option String
  | str s => some s
  | _ => none

/-! ## A string reads back -/

theorem digits_four (n : Nat) : Hex.digits 4 n
    = [Hex.digit (n / 4096 % 16), Hex.digit (n / 256 % 16), Hex.digit (n / 16 % 16),
        Hex.digit (n % 16)] := by
  simp [Hex.digits, Nat.div_div_eq_div_mul]

theorem unit?_digits {n : Nat} (h : n < 0x10000) :
    unit? (Hex.digit (n / 4096 % 16)) (Hex.digit (n / 256 % 16)) (Hex.digit (n / 16 % 16))
      (Hex.digit (n % 16)) = some n := by
  have hv : ∀ m, Hex.value? (Hex.digit (m % 16)) = some (m % 16) := fun m =>
    Hex.value?_digit (Nat.mod_lt m (by decide))
  unfold unit?
  simp only [hv, Option.bind_eq_bind, Option.bind_some]
  congr 1
  omega

theorem pieces?_escapeUnit {n : Nat} (h : n < 0x10000) (cs : List Char) :
    pieces? (escapeUnit n ++ cs) = (pieces? cs).map fun r => (.unit n :: r.1, r.2) := by
  rw [escapeUnit, digits_four]
  simp only [List.cons_append, List.nil_append, pieces?, unit?_digits h]
  cases pieces? cs <;> rfl

theorem pieces?_escapeUnits {ns : List Nat} (h : ∀ n ∈ ns, n < 0x10000) (cs : List Char) :
    pieces? (ns.flatMap escapeUnit ++ cs)
      = (pieces? cs).map fun r => (ns.map .unit ++ r.1, r.2) := by
  induction ns with
  | nil =>
      show pieces? cs = _
      cases pieces? cs <;> rfl
  | cons n ns ih =>
      rw [List.flatMap_cons, List.append_assoc, pieces?_escapeUnit (h n List.mem_cons_self),
        ih fun m hm => h m (List.mem_cons_of_mem n hm)]
      cases pieces? cs <;> rfl

theorem units_lt (c : Char) : ∀ n ∈ Unicode.units c, n < 0x10000 := by
  have hvalid : c.toNat < 0xD800 ∨ (0xDFFF < c.toNat ∧ c.toNat < 0x110000) := c.valid
  intro n hn
  unfold Unicode.units at hn
  split at hn
  · rw [List.mem_singleton.mp hn]
    assumption
  · simp only [List.mem_cons, List.not_mem_nil, or_false] at hn
    omega

/-- A letter escape stands for its character. -/
theorem escaped?_short {letter c : Char} (h : (letter, c) ∈ shortEscapes) :
    escaped? letter = some c ∧ letter ≠ 'u' := by
  have all : shortEscapes.all (fun e => escaped? e.1 = some e.2 ∧ e.1 ≠ 'u') = true := by decide
  exact of_decide_eq_true (List.all_eq_true.mp all _ h)

theorem pieces?_short {letter c : Char} (h : (letter, c) ∈ shortEscapes) (cs : List Char) :
    pieces? ('\\' :: letter :: cs) = (pieces? cs).map fun r => (.char c :: r.1, r.2) := by
  obtain ⟨hread, hu⟩ := escaped?_short h
  rw [pieces?]
  · rw [hread]
    cases pieces? cs <;> rfl
  · intro a b c d cs hletter _
    exact absurd hletter hu

theorem pieces?_printable {c : Char} (hc : isPrintable c = true) (hq : c ≠ '"') (hb : c ≠ '\\')
    (cs : List Char) : pieces? (c :: cs) = (pieces? cs).map fun r => (.char c :: r.1, r.2) := by
  have hspace : ¬ c.toNat < 0x20 := by
    have h : ' ' ≤ c := by
      rw [isPrintable, Bool.and_eq_true] at hc
      exact of_decide_eq_true hc.1
    exact Nat.not_lt.mpr h
  rw [pieces?]
  · rw [if_neg (by simp [hspace, hb])]
    cases pieces? cs <;> rfl
  · exact hq
  · intro a b c d cs h _
    exact absurd h hb
  · intro letter cs h _
    exact absurd h hb

/-- An escaped character reads back as pieces that join to it. -/
theorem pieces?_escape (c : Char) : ∃ qs : List Unicode.Piece,
    (∀ ps, Unicode.join (qs ++ ps) = c :: Unicode.join ps)
      ∧ ∀ cs, pieces? (escape c ++ cs) = (pieces? cs).map fun r => (qs ++ r.1, r.2) := by
  unfold escape
  cases hfind : shortEscapes.find? (fun e => e.2 = c) with
  | some e =>
      obtain ⟨letter, d⟩ := e
      have hd : d = c := by simpa using List.find?_some hfind
      subst hd
      exact ⟨[.char d], fun ps => rfl, fun cs => pieces?_short (List.mem_of_find?_eq_some hfind) cs⟩
  | none =>
      have hnot : ∀ e ∈ shortEscapes, e.2 ≠ c := by simpa using List.find?_eq_none.mp hfind
      have hq : c ≠ '"' := fun h => hnot ('"', '"') (by decide) h.symm
      have hb : c ≠ '\\' := fun h => hnot ('\\', '\\') (by decide) h.symm
      by_cases hp : isPrintable c = true
      · rw [if_pos hp]
        exact ⟨[.char c], fun ps => rfl, fun cs => pieces?_printable hp hq hb cs⟩
      · rw [if_neg hp]
        exact ⟨(Unicode.units c).map .unit, Unicode.join_units c,
          fun cs => pieces?_escapeUnits (units_lt c) cs⟩

/-- **A quoted string reads back**, and what follows it is left alone. -/
theorem string?_quote (s : String) (rest : List Char) :
    string? (s.toList.flatMap escape ++ '"' :: rest) = some (s, rest) := by
  have key : ∀ cs : List Char, ∃ ps, pieces? (cs.flatMap escape ++ '"' :: rest) = some (ps, rest)
      ∧ Unicode.join ps = cs := by
    intro cs
    induction cs with
    | nil => exact ⟨[], rfl, rfl⟩
    | cons c cs ih =>
        obtain ⟨ps, hps, hjoin⟩ := ih
        obtain ⟨qs, hqs, hread⟩ := pieces?_escape c
        refine ⟨qs ++ ps, ?_, by rw [hqs, hjoin]⟩
        rw [List.flatMap_cons, List.append_assoc, hread, hps]
        rfl
  obtain ⟨ps, hps, hjoin⟩ := key s.toList
  rw [string?, hps]
  simp only [Option.map_some, hjoin, String.ofList_toList]

/-! ## An object of strings reads back -/

def ofStrings (members : List (String × String)) : Json :=
  obj (members.map fun m => (m.1, str m.2))

theorem skipSpace_of_not {c : Char} (cs : List Char)
    (h : (c == ' ' || c == '\t' || c == '\n' || c == '\r') = false) : skipSpace (c :: cs) = c :: cs :=
  List.dropWhile_cons_of_neg (by simp [h])

theorem skipSpace_space (cs : List Char) : skipSpace (' ' :: cs) = skipSpace cs :=
  List.dropWhile_cons_of_pos rfl

theorem quote_append (s : String) (cs : List Char) :
    quote s ++ cs = '"' :: (s.toList.flatMap escape ++ '"' :: cs) := by
  rw [quote, List.cons_append, List.append_assoc, List.singleton_append]

theorem parse_quote (fuel : Nat) (s : String) (cs : List Char) :
    parse (fuel + 1) (quote s ++ cs) = some (str s, cs) := by
  rw [quote_append, parse, string?_quote]
  rfl

/-- One member of an object, up to the separator after it. -/
theorem parseMembers_quote (fuel : Nat) (k v : String) (cs : List Char) :
    parseMembers (fuel + 2) (quote k ++ ':' :: ' ' :: (quote v ++ cs))
      = match skipSpace cs with
        | '}' :: cs => some ([(k, str v)], cs)
        | ',' :: cs =>
            (parseMembers (fuel + 1) (skipSpace cs)).map fun r => ((k, str v) :: r.1, r.2)
        | _ => none := by
  have hvalue : skipSpace (' ' :: (quote v ++ cs)) = quote v ++ cs := by
    rw [skipSpace_space, quote_append]
    exact skipSpace_of_not _ (by decide)
  rw [quote_append, parseMembers, string?_quote]
  dsimp only
  rw [skipSpace_of_not _ (by decide)]
  simp only [hvalue, parse_quote]

/-- The first member starts with a quote. -/
theorem dumpsMembers_head (m : String × String) (ms : List (String × String)) :
    ∃ cs, dumpsMembers true ((m :: ms).map fun m => (m.1, str m.2)) = '"' :: cs :=
  ⟨_, rfl⟩

theorem parseMembers_strings {members : List (String × String)} (hne : members ≠ []) {fuel : Nat}
    (hfuel : members.length < fuel) (rest : List Char) :
    parseMembers fuel (dumpsMembers true (members.map fun m => (m.1, str m.2)) ++ rest)
      = some (members.map fun m => (m.1, str m.2), rest) := by
  induction members generalizing fuel with
  | nil => exact absurd rfl hne
  | cons m ms ih =>
      obtain ⟨k, v⟩ := m
      -- one unit of fuel for this member, one for what follows it
      obtain ⟨fuel, rfl⟩ : ∃ f, fuel = f + 2 := by
        rw [List.length_cons] at hfuel
        exact ⟨fuel - 2, by omega⟩
      have hlater : ms.length < fuel + 1 := Nat.lt_of_succ_lt_succ hfuel
      have hdumps : ∀ later : List Char, dumpsMembers true (((k, v) :: ms).map fun m => (m.1, str m.2))
          ++ later = quote k ++ ':' :: ' ' :: (quote v
            ++ (dumpsMembers false (ms.map fun m => (m.1, str m.2)) ++ later)) := by
        intro later
        simp only [List.map_cons, dumpsMembers, if_true, List.nil_append, dumps, List.append_assoc,
          List.cons_append]
      rw [hdumps, parseMembers_quote]
      cases ms with
      | nil => rfl
      | cons m' ms =>
          have hmore : dumpsMembers false ((m' :: ms).map fun m => (m.1, str m.2)) ++ rest
              = ',' :: ' ' :: (dumpsMembers true ((m' :: ms).map fun m => (m.1, str m.2)) ++ rest) := by
            simp only [List.map_cons, dumpsMembers, if_true, Bool.false_eq_true, if_false,
              List.nil_append, List.cons_append]
          have hquote : skipSpace (dumpsMembers true ((m' :: ms).map fun m => (m.1, str m.2)) ++ rest)
              = dumpsMembers true ((m' :: ms).map fun m => (m.1, str m.2)) ++ rest := by
            obtain ⟨cs, hcs⟩ := dumpsMembers_head m' ms
            rw [hcs]
            exact skipSpace_of_not _ (by decide)
          rw [hmore, skipSpace_of_not _ (by decide)]
          simp only [skipSpace_space, hquote, ih (List.cons_ne_nil m' ms) hlater, Option.map_some]
          rfl

/-! ### As bytes -/

theorem toNat_of_isPrintable {c : Char} (h : isPrintable c = true) : 0x20 ≤ c.toNat ∧ c.toNat < 0x7F := by
  rw [isPrintable, Bool.and_eq_true] at h
  have h1 : ' ' ≤ c := of_decide_eq_true h.1
  have h2 : c ≤ '~' := of_decide_eq_true h.2
  exact ⟨h1, Nat.lt_succ_of_le h2⟩

/-- What is written of a string is printable, whatever is in it. -/
theorem escape_printable (c : Char) : ∀ d ∈ escape c, isPrintable d = true := by
  have hhex : Hex.alphabet.all isPrintable = true := by decide
  have hunit : ∀ n, ∀ d ∈ escapeUnit n, isPrintable d = true := by
    intro n d hd
    rcases List.mem_cons.mp hd with rfl | hd
    · decide
    rcases List.mem_cons.mp hd with rfl | hd
    · decide
    exact List.all_eq_true.mp hhex d (Hex.mem_digits hd)
  have hshort : shortEscapes.all (fun e => isPrintable e.1) = true := by decide
  intro d hd
  unfold escape at hd
  split at hd
  · rename_i letter c' hfind
    simp only [List.mem_cons, List.not_mem_nil, or_false] at hd
    rcases hd with rfl | rfl
    · decide
    · exact List.all_eq_true.mp hshort _ (List.mem_of_find?_eq_some hfind)
  · split at hd
    · rename_i hp
      rw [List.mem_singleton.mp hd]
      exact hp
    · obtain ⟨n, _, hn⟩ := List.mem_flatMap.mp hd
      exact hunit n d hn

theorem quote_printable (s : String) : ∀ d ∈ quote s, isPrintable d = true := by
  intro d hd
  rcases List.mem_cons.mp hd with rfl | hd
  · decide
  rcases List.mem_append.mp hd with hd | hd
  · obtain ⟨c, _, hc⟩ := List.mem_flatMap.mp hd
    exact escape_printable c d hc
  · rw [List.mem_singleton.mp hd]
    decide

theorem quote_ascii (s : String) : ∀ d ∈ quote s, 0 < d.toNat ∧ d.toNat < 0x80 := by
  intro d hd
  obtain ⟨h1, h2⟩ := toNat_of_isPrintable (quote_printable s d hd)
  exact ⟨by omega, by omega⟩

theorem dumpsMembers_ascii (first : Bool) (members : List (String × String)) :
    ∀ d ∈ dumpsMembers first (members.map fun m => (m.1, str m.2)), 0 < d.toNat ∧ d.toNat < 0x80 := by
  induction members generalizing first with
  | nil =>
      intro d hd
      rw [List.mem_singleton.mp hd]
      decide
  | cons m ms ih =>
      intro d hd
      simp only [List.map_cons, dumpsMembers, dumps, List.mem_append, List.mem_cons] at hd
      rcases hd with hd | hd | rfl | rfl | hd | hd
      · split at hd
        · cases hd
        · simp only [List.mem_cons, List.not_mem_nil, or_false] at hd
          rcases hd with rfl | rfl <;> decide
      · exact quote_ascii m.1 d hd
      · decide
      · decide
      · exact quote_ascii m.2 d hd
      · exact ih false d hd

/-- ASCII text without a NUL is recognised as UTF-8. -/
theorem decodeText_ascii {cs : List Char} (h : ∀ c ∈ cs, 0 < c.toNat ∧ c.toNat < 0x80) :
    decodeText (Unicode.encodeUtf8 cs) = some cs := by
  have hbytes := Unicode.encodeUtf8_ascii fun c hc => (h c hc).2
  have hutf8 : Unicode.utf8? (Unicode.encodeUtf8 cs) = some cs := by
    rw [hbytes]
    exact Unicode.utf8?_ascii fun c hc => (h c hc).2
  have hbyte : ∀ b ∈ Unicode.encodeUtf8 cs, b ≠ 0 ∧ b < 0x80 := by
    rw [hbytes]
    intro b hb
    obtain ⟨c, hc, rfl⟩ := List.mem_map.mp hb
    obtain ⟨hpos, hlt⟩ := h c hc
    have hnat : (UInt8.ofNat c.toNat).toNat = c.toNat :=
      UInt8.toNat_ofNat_of_lt (Nat.lt_trans hlt (by decide))
    refine ⟨fun hz => ?_, ?_⟩
    · rw [hz] at hnat
      exact absurd hnat.symm (Nat.ne_of_gt hpos)
    · rw [UInt8.lt_iff_toNat_lt, hnat]
      exact hlt
  -- from here on only this matters: no byte is zero or above ASCII
  generalize Unicode.encodeUtf8 cs = bs at hutf8 hbyte
  have hbegin : ∀ (b : UInt8) (mark : List UInt8), b = 0 ∨ 0x80 ≤ b → (b :: mark).isPrefixOf bs = false := by
    intro b mark hb
    cases bs with
    | nil => rfl
    | cons a bs =>
        obtain ⟨h0, h1⟩ := hbyte a List.mem_cons_self
        have hne : b ≠ a := by
          rintro rfl
          rcases hb with hb | hb
          · exact h0 hb
          · exact absurd (UInt8.lt_of_lt_of_le h1 hb) (by simp)
        rw [List.isPrefixOf_cons_cons, beq_eq_false_iff_ne.mpr hne, Bool.false_and]
  unfold decodeText
  rw [hbegin 0 _ (Or.inl rfl), hbegin 0xFF _ (Or.inr (by decide)),
    hbegin 0xFE _ (Or.inr (by decide)), hbegin 0xFF _ (Or.inr (by decide)),
    hbegin 0xEF _ (Or.inr (by decide))]
  simp only [Bool.false_eq_true, if_false]
  -- and where a zero byte stands tells UTF-16 and UTF-32 apart
  have hzero : (0 : UInt8) ∉ bs := fun hz => (hbyte 0 hz).1 rfl
  split
  · exact absurd List.mem_cons_self hzero
  · exact absurd List.mem_cons_self hzero
  · exact absurd (List.mem_cons_of_mem _ List.mem_cons_self) hzero
  · exact absurd (List.mem_cons_of_mem _ List.mem_cons_self) hzero
  · exact absurd List.mem_cons_self hzero
  · exact absurd (List.mem_cons_of_mem _ List.mem_cons_self) hzero
  · exact hutf8

/-- **`json.loads(json.dumps(v).encode())` is `v`**, for an object of strings. -/
theorem loads_dumps_strings {members : List (String × String)} (hne : members ≠ []) :
    loads (Unicode.encodeUtf8 (dumps (ofStrings members))) = some (ofStrings members) := by
  have hascii : ∀ d ∈ dumps (ofStrings members), 0 < d.toNat ∧ d.toNat < 0x80 := by
    intro d hd
    rw [ofStrings, dumps] at hd
    rcases List.mem_cons.mp hd with rfl | hd
    · decide
    · exact dumpsMembers_ascii true members d hd
  -- every member takes more than one character, so the fuel lasts
  have hlength : ∀ (ms : List (String × String)) (first : Bool),
      ms.length < (dumpsMembers first (ms.map fun m => (m.1, str m.2))).length := by
    intro ms
    induction ms with
    | nil => intro first; exact Nat.zero_lt_one
    | cons m ms ih =>
        intro first
        have := ih false
        simp only [List.map_cons, dumpsMembers, List.length_append, List.length_cons, quote]
        omega
  have hparse := parseMembers_strings hne (Nat.lt_succ_of_lt (hlength members true)) []
  obtain ⟨m, ms, rfl⟩ := List.exists_cons_of_ne_nil hne
  rw [List.append_nil] at hparse
  obtain ⟨cs, hcs⟩ := dumpsMembers_head m ms
  have htext : parse ((dumps (ofStrings (m :: ms))).length + 1) (dumps (ofStrings (m :: ms)))
      = some (ofStrings (m :: ms), []) := by
    rw [ofStrings, dumps, List.length_cons, parse]
    rw [hcs] at hparse ⊢
    rw [skipSpace_of_not _ (by decide)]
    split
    · rename_i h
      exact absurd (List.cons_eq_cons.mp h).1 (by decide)
    · rw [hparse]
      rfl
  have hspace : skipSpace (dumps (ofStrings (m :: ms))) = dumps (ofStrings (m :: ms)) := by
    rw [ofStrings, dumps]
    exact skipSpace_of_not _ (by decide)
  rw [loads, decodeText_ascii hascii, Option.bind_some, loadsText, hspace, htext]
  rfl

end Json
