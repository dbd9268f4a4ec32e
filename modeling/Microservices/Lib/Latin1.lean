import Microservices.Lib.Unicode

/-!
# Bytes as Latin-1 and as UTF-8

Every byte is a character of Latin-1, and text of such characters goes back to its bytes.
Text that was read as UTF-8 does so only if it is ASCII: every other character took more
than one byte.
-/

namespace Unicode

/-- `bytes.decode("latin-1")`. -/
def latin1 (bs : List UInt8) : List Char := bs.map fun b => Char.ofNat b.toNat

/-- Whether `str.encode("latin-1")` returns. -/
def isLatin1 (cs : List Char) : Bool := cs.all fun c => decide (c.toNat < 0x100)

/-- `str.encode("latin-1")`. -/
def latin1Bytes (cs : List Char) : List UInt8 := cs.map fun c => UInt8.ofNat c.toNat

/-- `bytes.decode("utf-8")`. -/
def strictUtf8? (bs : List UInt8) : Option (List Char) :=
  bs.toByteArray.utf8Decode?.map Array.toList

def isAscii (bs : List UInt8) : Bool := bs.all fun b => decide (b < 0x80)

theorem toNat_ofByte (b : UInt8) : (Char.ofNat b.toNat).toNat = b.toNat := by
  have hlt : b.toNat < 256 := b.toNat_lt
  have hvalid : b.toNat.isValidChar := Or.inl (by omega)
  rw [Char.ofNat, dif_pos hvalid]
  rfl

theorem isLatin1_latin1 (bs : List UInt8) : isLatin1 (latin1 bs) = true := by
  rw [isLatin1, latin1, List.all_eq_true]
  intro c hc
  obtain ⟨b, _, rfl⟩ := List.mem_map.mp hc
  rw [toNat_ofByte, decide_eq_true_iff]
  exact b.toNat_lt

theorem latin1Bytes_latin1 (bs : List UInt8) : latin1Bytes (latin1 bs) = bs := by
  rw [latin1Bytes, latin1, List.map_map]
  refine (List.map_congr_left fun b _ => ?_).trans (List.map_id bs)
  rw [Function.comp_apply, toNat_ofByte]
  exact UInt8.ofNat_toNat

theorem latin1_latin1Bytes {cs : List Char} (h : isLatin1 cs = true) : latin1 (latin1Bytes cs) = cs := by
  rw [latin1, latin1Bytes, List.map_map]
  refine (List.map_congr_left fun c hc => ?_).trans (List.map_id cs)
  have hlt : c.toNat < 0x100 := of_decide_eq_true (List.all_eq_true.mp h c hc)
  have hnat : (UInt8.ofNat c.toNat).toNat = c.toNat := UInt8.toNat_ofNat_of_lt hlt
  rw [Function.comp_apply, hnat]
  exact Char.ofNat_toNat c

theorem toByteArray_encodeUtf8 (cs : List Char) : (encodeUtf8 cs).toByteArray = cs.utf8Encode := rfl

/-- What is read as UTF-8 is the encoding of what is read. -/
theorem encodeUtf8_of_strictUtf8 {bs : List UInt8} {cs : List Char} (h : strictUtf8? bs = some cs) :
    encodeUtf8 cs = bs := by
  obtain ⟨read, hread, rfl⟩ := Option.map_eq_some_iff.mp h
  have hsome : bs.toByteArray.utf8Decode?.isSome := by rw [hread]; rfl
  have hencode := ByteArray.utf8Encode_get_utf8Decode? (h := hsome)
  simp only [hread, Option.get_some] at hencode
  exact List.toByteArray_inj.mp ((toByteArray_encodeUtf8 _).trans hencode)

theorem strictUtf8?_encodeUtf8 (cs : List Char) : strictUtf8? (encodeUtf8 cs) = some cs := by
  rw [strictUtf8?, toByteArray_encodeUtf8, List.utf8Decode?_utf8Encode]
  rfl

theorem ascii_latin1 {bs : List UInt8} (h : isAscii bs = true) : ∀ c ∈ latin1 bs, c.toNat < 0x80 := by
  intro c hc
  obtain ⟨b, hb, rfl⟩ := List.mem_map.mp hc
  rw [toNat_ofByte]
  exact UInt8.lt_iff_toNat_lt.mp (of_decide_eq_true (List.all_eq_true.mp h b hb))

/-- ASCII bytes are read alike. -/
theorem strictUtf8?_of_isAscii {bs : List UInt8} (h : isAscii bs = true) :
    strictUtf8? bs = some (latin1 bs) := by
  have hencode : encodeUtf8 (latin1 bs) = bs :=
    (encodeUtf8_ascii (ascii_latin1 h)).trans (latin1Bytes_latin1 bs)
  have hread := strictUtf8?_encodeUtf8 (latin1 bs)
  rwa [hencode] at hread

/-- A character takes a byte at least, and only one if it is ASCII. -/
theorem length_encodeUtf8 {cs : List Char} (h : (encodeUtf8 cs).length ≤ cs.length) :
    ∀ c ∈ cs, c.toNat < 0x80 := by
  induction cs with
  | nil => intro c hc; cases hc
  | cons c cs ih =>
      have hpos : ∀ d : Char, 1 ≤ (String.utf8EncodeChar d).length := fun d =>
        List.length_pos_iff.mpr String.utf8EncodeChar_ne_nil
      have hle : cs.length ≤ (encodeUtf8 cs).length := by
        clear ih h
        induction cs with
        | nil => exact Nat.zero_le _
        | cons d cs ih =>
            rw [encodeUtf8, List.flatMap_cons, List.length_append, List.length_cons]
            have := hpos d
            have : cs.length ≤ (List.flatMap String.utf8EncodeChar cs).length := ih
            omega
      rw [encodeUtf8, List.flatMap_cons, List.length_append, List.length_cons] at h
      change _ + (encodeUtf8 cs).length ≤ _ at h
      have hc := hpos c
      have hsingle : (String.utf8EncodeChar c).length = 1 := by omega
      intro d hd
      rcases List.mem_cons.mp hd with rfl | hd
      · rw [String.length_utf8EncodeChar, Char.utf8Size_eq_one_iff] at hsingle
        exact Nat.lt_succ_of_le hsingle
      · exact ih (by omega) d hd

/-- **Text read as UTF-8 goes back to its bytes as Latin-1 just if it is ASCII.** -/
theorem latin1Bytes_of_strictUtf8 {bs : List UInt8} {cs : List Char}
    (h : strictUtf8? bs = some cs) : latin1Bytes cs = bs ↔ isAscii bs = true := by
  constructor
  · intro hback
    have hencode := encodeUtf8_of_strictUtf8 h
    have hascii : ∀ c ∈ cs, c.toNat < 0x80 := by
      refine length_encodeUtf8 (Nat.le_of_eq ?_)
      rw [hencode, ← hback, latin1Bytes, List.length_map]
    rw [isAscii, List.all_eq_true, ← hback]
    intro b hb
    obtain ⟨c, hc, rfl⟩ := List.mem_map.mp hb
    have hlt := hascii c hc
    have hnat : (UInt8.ofNat c.toNat).toNat = c.toNat :=
      UInt8.toNat_ofNat_of_lt (Nat.lt_trans hlt (by decide))
    rw [decide_eq_true_iff, UInt8.lt_iff_toNat_lt, hnat]
    exact hlt
  · intro hascii
    cases h.symm.trans (strictUtf8?_of_isAscii hascii)
    exact latin1Bytes_latin1 bs

end Unicode
