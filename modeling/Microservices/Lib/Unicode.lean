import Mathlib.Init

/-!
# Text from code units and from bytes

A Python string may hold lone surrogates and a Lean one may not, so a lone
surrogate is read as U+FFFD here. Pairs of surrogates are joined where the source
of the text joins them: `join` does so for adjacent code units, and leaves
characters that were written as themselves alone.
-/

namespace Unicode

/-- The character with this code point; U+FFFD for a surrogate. -/
def scalar (n : Nat) : Char := if n.isValidChar then Char.ofNat n else Char.ofNat 0xFFFD

theorem scalar_toNat (c : Char) : scalar c.toNat = c := by
  have hvalid : c.toNat.isValidChar := c.valid
  rw [scalar, if_pos hvalid, Char.ofNat_toNat]

inductive Piece where
  | char (c : Char)
  /-- A code unit of UTF-16. -/
  | unit (n : Nat)

def isHigh (n : Nat) : Bool := 0xD800 ≤ n && n < 0xDC00

def isLow (n : Nat) : Bool := 0xDC00 ≤ n && n < 0xE000

def join : List Piece → List Char
  | [] => []
  | .char c :: ps => c :: join ps
  | .unit high :: .unit low :: ps =>
      if isHigh high ∧ isLow low then
        scalar (0x10000 + (high - 0xD800) * 0x400 + (low - 0xDC00)) :: join ps
      else scalar high :: join (.unit low :: ps)
  | .unit n :: ps => scalar n :: join ps

/-- The code units of a character. -/
def units (c : Char) : List Nat :=
  if c.toNat < 0x10000 then [c.toNat]
  else [0xD800 + (c.toNat - 0x10000) / 0x400, 0xDC00 + (c.toNat - 0x10000) % 0x400]

/-- **The units of a character join to the character**, whatever follows them. -/
theorem join_units (c : Char) (ps : List Piece) :
    join ((units c).map .unit ++ ps) = c :: join ps := by
  have hvalid : c.toNat < 0xD800 ∨ (0xDFFF < c.toNat ∧ c.toNat < 0x110000) := c.valid
  unfold units
  by_cases hbmp : c.toNat < 0x10000
  · -- a single unit is no surrogate, so it joins with nothing
    have hnothigh : isHigh c.toNat = false := by
      simp only [isHigh, Bool.and_eq_false_iff, decide_eq_false_iff_not]
      omega
    rw [if_pos hbmp, List.map_singleton, List.singleton_append]
    match ps with
    | [] =>
        show scalar c.toNat :: join [] = _
        rw [scalar_toNat]
    | .char d :: ps =>
        show scalar c.toNat :: join (.char d :: ps) = _
        rw [scalar_toNat]
    | .unit n :: ps =>
        rw [join, if_neg (by simp [hnothigh]), scalar_toNat]
  · -- a pair is one, and puts the character together again
    rw [if_neg hbmp]
    have hhigh : isHigh (0xD800 + (c.toNat - 0x10000) / 0x400) = true := by
      simp only [isHigh, Bool.and_eq_true, decide_eq_true_eq]
      omega
    have hlow : isLow (0xDC00 + (c.toNat - 0x10000) % 0x400) = true := by
      simp only [isLow, Bool.and_eq_true, decide_eq_true_eq]
      omega
    have hsum : 0x10000 + (0xD800 + (c.toNat - 0x10000) / 0x400 - 0xD800) * 0x400
        + (0xDC00 + (c.toNat - 0x10000) % 0x400 - 0xDC00) = c.toNat := by omega
    show join (.unit _ :: .unit _ :: ps) = _
    rw [join, if_pos ⟨hhigh, hlow⟩, hsum, scalar_toNat]

/-! ## Decoding -/

def isContinuation (b : UInt8) : Bool := 0x80 ≤ b && b < 0xC0

/-- UTF-8, with surrogates let through. -/
def utf8? : List UInt8 → Option (List Char)
  | [] => some []
  | a :: bs =>
      if a < 0x80 then (utf8? bs).map (scalar a.toNat :: ·)
      else match bs with
        | [] => none
        | b :: bs =>
            if 0xC2 ≤ a ∧ a < 0xE0 ∧ isContinuation b then
              (utf8? bs).map (scalar ((a.toNat % 0x20) * 0x40 + b.toNat % 0x40) :: ·)
            else match bs with
              | [] => none
              | c :: bs =>
                  if 0xE0 ≤ a ∧ a < 0xF0 ∧ (a = 0xE0 → 0xA0 ≤ b) ∧ isContinuation b
                      ∧ isContinuation c then
                    (utf8? bs).map (scalar ((a.toNat % 0x10) * 0x1000 + (b.toNat % 0x40) * 0x40
                      + c.toNat % 0x40) :: ·)
                  else match bs with
                    | [] => none
                    | d :: bs =>
                        if 0xF0 ≤ a ∧ a < 0xF5 ∧ (a = 0xF0 → 0x90 ≤ b) ∧ (a = 0xF4 → b < 0x90)
                            ∧ isContinuation b ∧ isContinuation c ∧ isContinuation d then
                          (utf8? bs).map (scalar ((a.toNat % 8) * 0x40000 + (b.toNat % 0x40) * 0x1000
                            + (c.toNat % 0x40) * 0x40 + d.toNat % 0x40) :: ·)
                        else none

def units16? (bigEndian : Bool) : List UInt8 → Option (List Piece)
  | [] => some []
  | [_] => none
  | a :: b :: bs =>
      (units16? bigEndian bs).map
        (.unit (if bigEndian then a.toNat * 0x100 + b.toNat else b.toNat * 0x100 + a.toNat) :: ·)

/-- UTF-16, with lone surrogates let through. -/
def utf16? (bigEndian : Bool) (bs : List UInt8) : Option (List Char) :=
  (units16? bigEndian bs).map join

/-- UTF-32, with surrogates let through. -/
def utf32? (bigEndian : Bool) : List UInt8 → Option (List Char)
  | [] => some []
  | a :: b :: c :: d :: bs =>
      let n :=
        if bigEndian then ((a.toNat * 0x100 + b.toNat) * 0x100 + c.toNat) * 0x100 + d.toNat
        else ((d.toNat * 0x100 + c.toNat) * 0x100 + b.toNat) * 0x100 + a.toNat
      if n < 0x110000 then (utf32? bigEndian bs).map (scalar n :: ·) else none
  | _ => none

def encodeUtf8 (cs : List Char) : List UInt8 := cs.flatMap String.utf8EncodeChar

theorem encodeUtf8_ascii {cs : List Char} (h : ∀ c ∈ cs, c.toNat < 0x80) :
    encodeUtf8 cs = cs.map fun c => UInt8.ofNat c.toNat := by
  induction cs with
  | nil => rfl
  | cons c cs ih =>
      have hc : String.utf8EncodeChar c = [UInt8.ofNat c.toNat] :=
        if_pos (Nat.lt_succ_iff.mp (h c List.mem_cons_self))
      rw [encodeUtf8, List.flatMap_cons, hc, List.map_cons,
        ← ih fun d hd => h d (List.mem_cons_of_mem c hd)]
      rfl

/-- **ASCII text is its own UTF-8.** -/
theorem utf8?_ascii {cs : List Char} (h : ∀ c ∈ cs, c.toNat < 0x80) :
    utf8? (cs.map fun c => UInt8.ofNat c.toNat) = some cs := by
  induction cs with
  | nil => rfl
  | cons c cs ih =>
      have hc : c.toNat < 0x80 := h c List.mem_cons_self
      have hnat : (UInt8.ofNat c.toNat).toNat = c.toNat :=
        UInt8.toNat_ofNat_of_lt (Nat.lt_trans hc (by decide))
      have hlt : UInt8.ofNat c.toNat < 0x80 := by
        rw [UInt8.lt_iff_toNat_lt, hnat]
        exact hc
      rw [List.map_cons, utf8?.eq_def]
      simp only [if_pos hlt]
      rw [ih (fun d hd => h d (List.mem_cons_of_mem c hd)), hnat,
        scalar_toNat]
      rfl

end Unicode
