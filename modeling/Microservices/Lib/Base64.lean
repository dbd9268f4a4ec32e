import Mathlib.Data.List.Basic

/-!
# Base64

Encoding is the usual regrouping of three bytes into four six-bit digits, with
`=` padding. Decoding is a machine that eats one character at a time and is
written in two strengths: the *strict* one refuses anything but the canonical
alphabet and padding, the *lenient* one skips foreign characters and stops at the
padding. Both invert `encode`, and what the URL-safe alphabet renames is undone
by `toStandard`.
-/

namespace Base64

/-- The standard alphabet, by digit value. -/
def alphabet : List Char :=
  "ABCDEFGHIJKLMNOPQRSTUVWXYZabcdefghijklmnopqrstuvwxyz0123456789+/".toList

def digit (n : Nat) : Char := alphabet.getD n 'A'

def value? (c : Char) : Option Nat := alphabet.idxOf? c

def encode : List UInt8 → List Char
  | [] => []
  | [a] => [digit (a.toNat / 4), digit (a.toNat % 4 * 16), '=', '=']
  | [a, b] =>
      [digit (a.toNat / 4), digit (a.toNat % 4 * 16 + b.toNat / 16), digit (b.toNat % 16 * 4), '=']
  | a :: b :: c :: bs =>
      digit (a.toNat / 4) :: digit (a.toNat % 4 * 16 + b.toNat / 16)
        :: digit (b.toNat % 16 * 4 + c.toNat / 64) :: digit (c.toNat % 64) :: encode bs

/--
Decode the rest of a text. `quad` digits of the current group have been read and
`left` holds their unused bits; `pads` counts the padding read since the last
digit and `padded` says whether any was read at all.
-/
def decodeFrom (strict : Bool) (quad left pads : Nat) (padded : Bool) :
    List Char → Option (List UInt8)
  | [] => if quad = 0 then some [] else none
  | c :: cs =>
      if c = '=' then
        if strict ∧ quad = 0 then none
        else if 2 ≤ quad ∧ 4 ≤ quad + pads + 1 then
          if strict ∧ cs ≠ [] then none else some []
        else decodeFrom strict quad left (if 2 ≤ quad then pads + 1 else pads) true cs
      else match value? c with
        | none => if strict then none else decodeFrom strict quad left pads padded cs
        | some d =>
            if strict ∧ padded then none
            else match quad with
              | 0 => decodeFrom strict 1 d 0 padded cs
              | 1 => (decodeFrom strict 2 (d % 16) 0 padded cs).map
                  (UInt8.ofNat (left * 4 + d / 16) :: ·)
              | 2 => (decodeFrom strict 3 (d % 4) 0 padded cs).map
                  (UInt8.ofNat (left * 16 + d / 4) :: ·)
              | _ => (decodeFrom strict 0 0 0 padded cs).map (UInt8.ofNat (left * 64 + d) :: ·)

def decode (strict : Bool) (cs : List Char) : Option (List UInt8) :=
  decodeFrom strict 0 0 0 false cs

/-! ## Digits -/

theorem value?_digit {n : Nat} (h : n < 64) : value? (digit n) = some n := by
  have all : ∀ m : Fin 64, value? (digit m) = some m.val := by decide +kernel
  exact all ⟨n, h⟩

theorem digit_ne_pad {n : Nat} (h : n < 64) : digit n ≠ '=' := by
  have all : ∀ m : Fin 64, digit m ≠ '=' := by decide +kernel
  exact all ⟨n, h⟩

section Places

variable {strict : Bool} {left pads n : Nat} {cs : List Char}

theorem decodeFrom_first (h : n < 64) :
    decodeFrom strict 0 left pads false (digit n :: cs) = decodeFrom strict 1 n 0 false cs := by
  rw [decodeFrom, if_neg (digit_ne_pad h), value?_digit h]
  simp

theorem decodeFrom_second (h : n < 64) {a : UInt8} (ha : left * 4 + n / 16 = a.toNat) :
    decodeFrom strict 1 left pads false (digit n :: cs)
      = (decodeFrom strict 2 (n % 16) 0 false cs).map (a :: ·) := by
  rw [decodeFrom, if_neg (digit_ne_pad h), value?_digit h]
  simp [ha]

theorem decodeFrom_third (h : n < 64) {a : UInt8} (ha : left * 16 + n / 4 = a.toNat) :
    decodeFrom strict 2 left pads false (digit n :: cs)
      = (decodeFrom strict 3 (n % 4) 0 false cs).map (a :: ·) := by
  rw [decodeFrom, if_neg (digit_ne_pad h), value?_digit h]
  simp [ha]

theorem decodeFrom_fourth (h : n < 64) {a : UInt8} (ha : left * 64 + n = a.toNat) :
    decodeFrom strict 3 left pads false (digit n :: cs)
      = (decodeFrom strict 0 0 0 false cs).map (a :: ·) := by
  rw [decodeFrom, if_neg (digit_ne_pad h), value?_digit h]
  simp [ha]

end Places

/-! ## Decoding undoes encoding -/

/-- **Both decoders invert `encode`.** The induction follows its groups of three. -/
theorem decode_encode (strict : Bool) (bs : List UInt8) :
    decode strict (encode bs) = some bs := by
  unfold decode
  induction bs using encode.induct with
  | case1 => rfl
  | case2 a =>
      have ha := a.toNat_lt
      rw [encode, decodeFrom_first (by omega), decodeFrom_second (a := a) (by omega) (by omega)]
      cases strict <;> simp [decodeFrom]
  | case3 a b =>
      have ha := a.toNat_lt
      have hb := b.toNat_lt
      rw [encode, decodeFrom_first (by omega), decodeFrom_second (a := a) (by omega) (by omega),
        decodeFrom_third (a := b) (by omega) (by omega)]
      cases strict <;> simp [decodeFrom]
  | case4 a b c bs ih =>
      have ha := a.toNat_lt
      have hb := b.toNat_lt
      have hc := c.toNat_lt
      rw [encode, decodeFrom_first (by omega), decodeFrom_second (a := a) (by omega) (by omega),
        decodeFrom_third (a := b) (by omega) (by omega),
        decodeFrom_fourth (a := c) (by omega) (by omega), ih]
      rfl

/-! ## The URL-safe alphabet -/

/-- `-` and `_` stand for `+` and `/`. -/
def toUrlSafe (c : Char) : Char := if c = '+' then '-' else if c = '/' then '_' else c

def toStandard (c : Char) : Char := if c = '-' then '+' else if c = '_' then '/' else c

def urlsafeEncode (bs : List UInt8) : List Char := (encode bs).map toUrlSafe

/-- The lenient decoder: foreign characters are skipped. -/
def urlsafeDecode (cs : List Char) : Option (List UInt8) := decode false (cs.map toStandard)

theorem toStandard_toUrlSafe_digit {n : Nat} (h : n < 64) :
    toStandard (toUrlSafe (digit n)) = digit n := by
  have all : ∀ m : Fin 64, toStandard (toUrlSafe (digit m)) = digit m := by decide +kernel
  exact all ⟨n, h⟩

theorem map_encode (bs : List UInt8) :
    ((encode bs).map toUrlSafe).map toStandard = encode bs := by
  induction bs using encode.induct with
  | case1 => rfl
  | case2 a =>
      have ha := a.toNat_lt
      simp only [encode, List.map_cons, List.map_nil]
      rw [toStandard_toUrlSafe_digit (by omega), toStandard_toUrlSafe_digit (by omega)]
      rfl
  | case3 a b =>
      have ha := a.toNat_lt
      have hb := b.toNat_lt
      simp only [encode, List.map_cons, List.map_nil]
      rw [toStandard_toUrlSafe_digit (by omega), toStandard_toUrlSafe_digit (by omega),
        toStandard_toUrlSafe_digit (by omega)]
      rfl
  | case4 a b c bs ih =>
      have ha := a.toNat_lt
      have hb := b.toNat_lt
      have hc := c.toNat_lt
      simp only [encode, List.map_cons, ih]
      rw [toStandard_toUrlSafe_digit (by omega), toStandard_toUrlSafe_digit (by omega),
        toStandard_toUrlSafe_digit (by omega), toStandard_toUrlSafe_digit (by omega)]

theorem urlsafeDecode_encode (bs : List UInt8) : urlsafeDecode (urlsafeEncode bs) = some bs := by
  rw [urlsafeDecode, urlsafeEncode, map_encode, decode_encode]

end Base64
