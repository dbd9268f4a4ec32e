import Mathlib.Data.List.TakeWhile
import Microservices.Gateway.JwtAuth
import Microservices.Lib.Delimited

/-!
# What `JWT_SECRETS` says

`parse_keyring` reads the text entry by entry and stops at the first one it cannot
use. Said at once: it yields a keyring if every entry has a kid and a secret and no
kid comes twice, and then the keyring is the list of the entries; a text without
entries stands for the legacy secret.
-/

namespace Microservices.Gateway

/-- The entries of the text that are looked at: stripped, and not empty. -/
def entriesOf (cs : List Char) : List (List Char) :=
  ((cs.splitOn ',').map Trim.strip).filter (· ≠ [])

/-- What stands before the first `=`. -/
def kidOf (entry : List Char) : String :=
  String.ofList (Trim.strip (entry.takeWhile (· ≠ '=')))

/-- What stands after it. -/
def secretOf (entry : List Char) : String :=
  String.ofList (Trim.strip ((entry.dropWhile (· ≠ '=')).drop 1))

def pairOf (entry : List Char) : String × String := (kidOf entry, secretOf entry)

/-- An entry that `parse_keyring` can use. -/
def WellFormedEntry (entry : List Char) : Prop :=
  '=' ∈ entry ∧ kidOf entry ≠ "" ∧ secretOf entry ≠ ""

instance (entry : List Char) : Decidable (WellFormedEntry entry) :=
  inferInstanceAs (Decidable (_ ∧ _ ∧ _))

/-- A key that comes later in the list is not among the earlier ones. -/
theorem not_mem_keys_of_entries {d ring : Keyring} {e : String × String}
    {rest : List (String × String)} (h : ring.entries = d.entries ++ e :: rest) :
    e.1 ∉ d.keys := by
  have hnodup := ring.nodup
  rw [h, List.map_append, List.map_cons] at hnodup
  exact fun hmem => (List.nodup_append.mp hnodup).2.2 e.1 hmem e.1 List.mem_cons_self rfl

/-- An entry is added if it is well formed and its kid is new. -/
theorem addEntry_ok_iff {d d' : Keyring} {entry : List Char} (hne : entry ≠ []) :
    addEntry d entry = .ok d' ↔
      WellFormedEntry entry ∧ kidOf entry ∉ d.keys
        ∧ d' = d.set (kidOf entry) (secretOf entry) := by
  unfold addEntry
  rw [if_neg hne]
  by_cases heq : '=' ∈ entry
  · rw [if_neg (not_not_intro heq)]
    by_cases hempty : kidOf entry = "" ∨ secretOf entry = ""
    · refine iff_of_false (fun h => ?_) fun h => hempty.elim h.1.2.1 h.1.2.2
      rw [← kidOf, ← secretOf] at h
      simp only [if_pos hempty] at h
      cases h
    · have hwf : WellFormedEntry entry :=
        ⟨heq, fun h => hempty (.inl h), fun h => hempty (.inr h)⟩
      rw [← kidOf, ← secretOf]
      simp only [if_neg hempty]
      by_cases hkid : kidOf entry ∈ d.keys
      · rw [if_pos hkid]
        exact iff_of_false nofun fun h => h.2.1 hkid
      · rw [if_neg hkid, Except.ok.injEq]
        exact ⟨fun h => ⟨hwf, hkid, h.symm⟩, fun h => h.2.2.symm⟩
  · rw [if_pos heq]
    exact iff_of_false nofun fun h => heq h.1.1

/-- The loop of `parse_keyring` over the pieces of the text. -/
theorem foldlM_addEntry_ok_iff {pieces : List (List Char)} {d ring : Keyring} :
    pieces.foldlM (fun keyring entry => addEntry keyring (Trim.strip entry)) d = .ok ring ↔
      (∀ e ∈ (pieces.map Trim.strip).filter (· ≠ []), WellFormedEntry e)
        ∧ ring.entries
          = d.entries ++ ((pieces.map Trim.strip).filter (· ≠ [])).map pairOf := by
  induction pieces generalizing d with
  | nil =>
      rw [List.foldlM_nil]
      simp only [List.map_nil, List.filter_nil, List.append_nil, List.not_mem_nil, false_implies,
        implies_true, true_and, pure, Except.pure, Except.ok.injEq]
      exact ⟨fun h => h ▸ rfl, fun h => Dict.ext h.symm⟩
  | cons piece pieces ih =>
      rw [List.foldlM_cons, List.map_cons]
      by_cases hne : Trim.strip piece = []
      · -- a blank piece is passed over
        have hskip : addEntry d (Trim.strip piece) = .ok d := by
          rw [addEntry, if_pos hne]
        rw [hskip, List.filter_cons_of_neg (by simpa using hne)]
        exact ih
      · rw [List.filter_cons_of_pos (by simpa using hne), List.forall_mem_cons, List.map_cons]
        cases hadd : addEntry d (Trim.strip piece) with
        | ok d' =>
            obtain ⟨hwf, hkid, rfl⟩ := (addEntry_ok_iff hne).mp hadd
            have hrest := ih
              (d := d.set (kidOf (Trim.strip piece)) (secretOf (Trim.strip piece)))
            rw [Dict.set_entries_of_not_mem hkid, List.append_assoc] at hrest
            exact hrest.trans ⟨fun h => ⟨⟨hwf, h.1⟩, h.2⟩, fun h => ⟨h.1.2, h.2⟩⟩
        | error e =>
            refine iff_of_false nofun fun h => ?_
            -- an entry that is refused is malformed or repeats a kid, and so is the text's list
            have hok := (addEntry_ok_iff hne).mpr ⟨h.1.1, not_mem_keys_of_entries h.2, rfl⟩
            rw [hadd] at hok
            cases hok

/-! ## The keyring of a text -/

/-- A blank text has no entries. -/
theorem entriesOf_blank {cs : List Char} (h : Trim.strip cs = []) : entriesOf cs = [] := by
  have hcomma : ',' ∉ cs := fun hc => absurd (Trim.all_of_trim_eq_nil h ',' hc) (by decide)
  rw [entriesOf, List.splitOn_eq_singleton hcomma, List.map_singleton, h]
  rfl

/--
**What `parse_keyring` yields.** A keyring if all entries are well formed and their
kids distinct, with the entries in order; the legacy secret alone if there are none.
-/
theorem parseKeyring_ok_iff {jwtSecrets fallbackSecret fallbackKid : String} {ring : Keyring} :
    parseKeyring jwtSecrets fallbackSecret fallbackKid = .ok ring ↔
      (∀ e ∈ entriesOf jwtSecrets.toList, WellFormedEntry e)
        ∧ ring.entries = if entriesOf jwtSecrets.toList = [] then [(fallbackKid, fallbackSecret)]
          else (entriesOf jwtSecrets.toList).map pairOf := by
  have hfallback : (fallbackKeyring fallbackSecret fallbackKid).entries
      = [(fallbackKid, fallbackSecret)] := rfl
  have hloop : ∀ keyring : Keyring, (jwtSecrets.toList.splitOn ',').foldlM
      (fun keyring entry => addEntry keyring (Trim.strip entry)) Dict.empty = .ok keyring ↔
        (∀ e ∈ entriesOf jwtSecrets.toList, WellFormedEntry e)
          ∧ keyring.entries = (entriesOf jwtSecrets.toList).map pairOf :=
    fun _ => foldlM_addEntry_ok_iff
  unfold parseKeyring
  by_cases hblank : Trim.strip jwtSecrets.toList = []
  · rw [if_pos hblank, entriesOf_blank hblank, if_pos rfl, ← hfallback, Except.ok.injEq]
    exact ⟨fun h => ⟨nofun, h ▸ rfl⟩, fun h => Dict.ext h.2.symm⟩
  · rw [if_neg hblank]
    cases hrun : (jwtSecrets.toList.splitOn ',').foldlM
        (fun keyring entry => addEntry keyring (Trim.strip entry)) Dict.empty with
    | error e =>
        refine iff_of_false nofun fun ⟨hwf, hentries⟩ => ?_
        by_cases hnone : entriesOf jwtSecrets.toList = []
        · have hok := (hloop Dict.empty).mpr ⟨hwf, by rw [hnone]; rfl⟩
          rw [hrun] at hok
          cases hok
        · rw [if_neg hnone] at hentries
          have hok := (hloop ring).mpr ⟨hwf, hentries⟩
          rw [hrun] at hok
          cases hok
    | ok keyring =>
        obtain ⟨hwf, hentries⟩ := (hloop keyring).mp hrun
        show Except.ok (if keyring.entries = [] then _ else keyring) = _ ↔ _
        rw [hentries, Except.ok.injEq]
        by_cases hnone : entriesOf jwtSecrets.toList = []
        · rw [hnone, List.map_nil, if_pos rfl, if_pos rfl, ← hfallback]
          exact ⟨fun h => ⟨nofun, h ▸ rfl⟩, fun h => Dict.ext h.2.symm⟩
        · rw [if_neg hnone, if_neg (by simpa using hnone), ← hentries]
          exact ⟨fun h => ⟨hwf, h ▸ rfl⟩, fun h => Dict.ext h.2.symm⟩

/-- No keyring has an empty kid. -/
theorem kid_ne_empty {jwtSecrets fallbackSecret : String} {ring : Keyring}
    (h : parseKeyring jwtSecrets fallbackSecret = .ok ring) {kid secret : String}
    (hkid : ring.get? kid = some secret) : kid ≠ "" := by
  obtain ⟨hwf, hentries⟩ := parseKeyring_ok_iff.mp h
  have hmem := Dict.mem_of_get?_eq_some hkid
  rw [hentries] at hmem
  split at hmem
  · cases List.mem_singleton.mp hmem
    decide
  · obtain ⟨e, he, hpair⟩ := List.mem_map.mp hmem
    cases hpair
    exact (hwf e he).2.1

/-! ## Appending an entry to the text -/

theorem entriesOf_append (cs entry : List Char) :
    entriesOf (cs ++ ',' :: entry) = entriesOf cs ++ entriesOf entry := by
  unfold entriesOf
  rw [List.splitOn_append_cons_self, List.map_append, List.filter_append]

/-- A kid and a secret as they are to be written: no blanks, no delimiters but `=` in the secret. -/
structure CleanPair (kid secret : List Char) : Prop where
  kidNonempty : kid ≠ []
  secretNonempty : secret ≠ []
  noSpace : ∀ c ∈ kid ++ secret, Trim.isSpace c = false
  noComma : ',' ∉ kid ++ secret
  noEquals : '=' ∉ kid

/-- A kid and a secret that are read back as they are: blanks may stand inside them. -/
structure PlainPair (kid secret : List Char) : Prop where
  kidNonempty : kid ≠ []
  secretNonempty : secret ≠ []
  kidTrimmed : Trim.Trimmed Trim.isSpace kid
  secretTrimmed : Trim.Trimmed Trim.isSpace secret
  noComma : ',' ∉ kid ++ secret
  noEquals : '=' ∉ kid

instance (kid secret : List Char) : Decidable (PlainPair kid secret) :=
  decidable_of_iff (kid ≠ [] ∧ secret ≠ [] ∧ Trim.Trimmed Trim.isSpace kid
      ∧ Trim.Trimmed Trim.isSpace secret ∧ ',' ∉ kid ++ secret ∧ '=' ∉ kid)
    ⟨fun ⟨h₁, h₂, h₃, h₄, h₅, h₆⟩ => ⟨h₁, h₂, h₃, h₄, h₅, h₆⟩,
      fun h => ⟨h.1, h.2, h.3, h.4, h.5, h.6⟩⟩

variable {kid secret : List Char}

theorem CleanPair.plain (h : CleanPair kid secret) : PlainPair kid secret where
  kidNonempty := h.kidNonempty
  secretNonempty := h.secretNonempty
  kidTrimmed := Trim.trimmed_of_forall fun c hc => h.noSpace c (List.mem_append_left _ hc)
  secretTrimmed := Trim.trimmed_of_forall fun c hc => h.noSpace c (List.mem_append_right _ hc)
  noComma := h.noComma
  noEquals := h.noEquals

theorem takeWhile_pair (h : PlainPair kid secret) :
    (kid ++ '=' :: secret).takeWhile (· ≠ '=') = kid
      ∧ (kid ++ '=' :: secret).dropWhile (· ≠ '=') = '=' :: secret := by
  have hkid : ∀ c ∈ kid, decide (c ≠ '=') = true := by
    intro c hc
    rw [decide_eq_true_iff]
    rintro rfl
    exact h.noEquals hc
  rw [List.takeWhile_append_of_pos hkid, List.dropWhile_append_of_pos hkid]
  exact ⟨by simp, by simp⟩

/-- The text of a pair is one piece, and has no blanks around it. -/
theorem strip_pair (h : PlainPair kid secret) :
    Trim.strip (kid ++ '=' :: secret) = kid ++ '=' :: secret := by
  refine Trim.trim_eq_self fun hne => ⟨?_, ?_⟩
  · rw [List.head_append_of_ne_nil h.kidNonempty]
    exact (h.kidTrimmed h.kidNonempty).1
  · rw [List.getLast_append_of_ne_nil hne (List.cons_ne_nil _ _), List.getLast_cons h.secretNonempty]
    exact (h.secretTrimmed h.secretNonempty).2

theorem comma_not_mem_pair (h : PlainPair kid secret) : ',' ∉ kid ++ '=' :: secret := by
  have hcomma := h.noComma
  simp only [List.mem_append, List.mem_cons, not_or] at hcomma ⊢
  exact ⟨hcomma.1, by decide, hcomma.2⟩

/-- Such a pair is one entry, and reads back. -/
theorem entriesOf_pair (h : PlainPair kid secret) :
    entriesOf (kid ++ '=' :: secret) = [kid ++ '=' :: secret] := by
  rw [entriesOf, List.splitOn_eq_singleton (comma_not_mem_pair h), List.map_singleton, strip_pair h]
  simp

theorem pairOf_pair (h : PlainPair kid secret) :
    pairOf (kid ++ '=' :: secret) = (String.ofList kid, String.ofList secret) := by
  obtain ⟨htake, hdrop⟩ := takeWhile_pair h
  have hkid : Trim.strip kid = kid := Trim.trim_eq_self h.kidTrimmed
  have hsecret : Trim.strip secret = secret := Trim.trim_eq_self h.secretTrimmed
  unfold pairOf kidOf secretOf
  rw [htake, hdrop, List.drop_one, List.tail_cons, hkid, hsecret]

theorem wellFormedEntry_pair (h : PlainPair kid secret) :
    WellFormedEntry (kid ++ '=' :: secret) := by
  have hpair := pairOf_pair h
  rw [pairOf, Prod.mk.injEq] at hpair
  refine ⟨by simp, fun hkid => h.kidNonempty ?_, fun hsecret => h.secretNonempty ?_⟩
  · rw [hpair.1] at hkid
    simpa using congrArg String.toList hkid
  · rw [hpair.2] at hsecret
    simpa using congrArg String.toList hsecret

/-- `JWT_SECRETS` with one more entry. -/
def appendEntry (jwtSecrets : String) (kid secret : List Char) : String :=
  String.ofList (jwtSecrets.toList ++ ',' :: (kid ++ '=' :: secret))

theorem entriesOf_appendEntry (h : CleanPair kid secret) (jwtSecrets : String) :
    entriesOf (appendEntry jwtSecrets kid secret).toList
      = entriesOf jwtSecrets.toList ++ [kid ++ '=' :: secret] := by
  rw [appendEntry, String.toList_ofList, entriesOf_append, entriesOf_pair h.plain]

/-- **A text that has entries gains a key by one more entry.** -/
theorem parseKeyring_append {jwtSecrets fallbackSecret : String} {ring : Keyring}
    (hring : parseKeyring jwtSecrets fallbackSecret = .ok ring)
    (hne : entriesOf jwtSecrets.toList ≠ []) (h : CleanPair kid secret)
    (hnew : String.ofList kid ∉ ring.keys) :
    ∃ ring', parseKeyring (appendEntry jwtSecrets kid secret) fallbackSecret = .ok ring'
      ∧ ring'.entries = ring.entries ++ [(String.ofList kid, String.ofList secret)] := by
  obtain ⟨hwf, hentries⟩ := parseKeyring_ok_iff.mp hring
  rw [if_neg hne] at hentries
  refine ⟨⟨_, Dict.nodup_append_new ring.nodup hnew⟩, parseKeyring_ok_iff.mpr ?_, rfl⟩
  rw [entriesOf_appendEntry h, if_neg (by simp), List.map_append, ← hentries, List.map_singleton,
    pairOf_pair h.plain]
  refine ⟨fun e he => ?_, rfl⟩
  rcases List.mem_append.mp he with hold | hlast
  · exact hwf e hold
  · rw [List.mem_singleton.mp hlast]
    exact wellFormedEntry_pair h.plain

/--
**A text without entries loses the legacy key by its first one**: it has to list
`default` for the key to stay.
-/
theorem parseKeyring_first_entry {jwtSecrets : String} (hnone : entriesOf jwtSecrets.toList = [])
    (h : CleanPair kid secret) (fallbackSecret : String) :
    parseKeyring (appendEntry jwtSecrets kid secret) fallbackSecret
      = .ok (fallbackKeyring (String.ofList secret) (String.ofList kid)) := by
  refine parseKeyring_ok_iff.mpr ?_
  rw [entriesOf_appendEntry h, hnone, List.nil_append, if_neg (by simp), List.map_singleton,
    pairOf_pair h.plain]
  refine ⟨fun e he => ?_, rfl⟩
  rw [List.mem_singleton.mp he]
  exact wellFormedEntry_pair h.plain

/-! ## The wire format -/

/-- `k1=s1,...,kn=sn`. -/
def renderKeyring (ring : Keyring) : String :=
  String.ofList (Delimited.join ',' (ring.entries.map fun pair => pair.1.toList ++ '=' :: pair.2.toList))

/-- Texts without commas, blanks around them, or nothing in them are the entries of the joined text. -/
theorem entriesOf_join {texts : List (List Char)} (hne : texts ≠ []) (hcomma : ∀ t ∈ texts, ',' ∉ t)
    (hstrip : ∀ t ∈ texts, Trim.strip t = t) (hnil : ∀ t ∈ texts, t ≠ []) :
    entriesOf (Delimited.join ',' texts) = texts := by
  unfold entriesOf Delimited.join
  rw [List.splitOn_intercalate ',' hcomma hne, List.map_congr_left hstrip, List.map_id']
  exact List.filter_eq_self.mpr fun t ht => decide_eq_true (hnil t ht)

theorem parseKeyring_render {ring : Keyring} (hne : ring.entries ≠ [])
    (hplain : ∀ pair ∈ ring.entries, PlainPair pair.1.toList pair.2.toList)
    (fallbackSecret fallbackKid : String) :
    parseKeyring (renderKeyring ring) fallbackSecret fallbackKid = .ok ring := by
  have htexts {P : List Char → Prop}
      (h : ∀ pair ∈ ring.entries, P (pair.1.toList ++ '=' :: pair.2.toList)) :
      ∀ t ∈ ring.entries.map fun pair => pair.1.toList ++ '=' :: pair.2.toList, P t := by
    intro t ht
    obtain ⟨pair, hpair, rfl⟩ := List.mem_map.mp ht
    exact h pair hpair
  have hentries : entriesOf (renderKeyring ring).toList
      = ring.entries.map fun pair => pair.1.toList ++ '=' :: pair.2.toList := by
    rw [renderKeyring, String.toList_ofList]
    exact entriesOf_join (by simpa using hne)
      (htexts fun pair hpair => comma_not_mem_pair (hplain pair hpair))
      (htexts fun pair hpair => strip_pair (hplain pair hpair))
      (htexts fun pair _ => by simp)
  refine parseKeyring_ok_iff.mpr ?_
  rw [hentries, if_neg (by simpa using hne), List.map_map]
  refine ⟨htexts fun pair hpair => wellFormedEntry_pair (hplain pair hpair), ?_⟩
  have hread : ∀ pair ∈ ring.entries,
      (pairOf ∘ fun pair : String × String => pair.1.toList ++ '=' :: pair.2.toList) pair = pair := by
    intro pair hpair
    rw [Function.comp_apply, pairOf_pair (hplain pair hpair), String.ofList_toList, String.ofList_toList]
  rw [List.map_congr_left hread, List.map_id']

/--
**The wire format.** A text that is not blank is accepted just if its entries are well
formed and their kids distinct, and then read as their list; a keyring of plain pairs is
read back from its rendering.
-/
theorem parseKeyring_wire_format (fallbackSecret fallbackKid : String) :
    (∀ jwtSecrets : String, Trim.strip jwtSecrets.toList ≠ [] →
      ((∃ ring, parseKeyring jwtSecrets fallbackSecret fallbackKid = .ok ring)
          ↔ (∀ e ∈ entriesOf jwtSecrets.toList, WellFormedEntry e)
            ∧ ((entriesOf jwtSecrets.toList).map kidOf).Nodup)
        ∧ ∀ ring, parseKeyring jwtSecrets fallbackSecret fallbackKid = .ok ring →
          ring.entries = if entriesOf jwtSecrets.toList = [] then [(fallbackKid, fallbackSecret)]
            else (entriesOf jwtSecrets.toList).map pairOf)
    ∧ ∀ ring : Keyring, ring.entries ≠ [] →
      (∀ pair ∈ ring.entries, PlainPair pair.1.toList pair.2.toList) →
      parseKeyring (renderKeyring ring) fallbackSecret fallbackKid = .ok ring := by
  refine ⟨fun jwtSecrets _ => ⟨⟨?_, ?_⟩, fun ring h => (parseKeyring_ok_iff.mp h).2⟩,
    fun ring hne hplain => parseKeyring_render hne hplain fallbackSecret fallbackKid⟩
  · rintro ⟨ring, h⟩
    obtain ⟨hwf, hentries⟩ := parseKeyring_ok_iff.mp h
    refine ⟨hwf, ?_⟩
    by_cases hnone : entriesOf jwtSecrets.toList = []
    · rw [hnone]
      exact List.nodup_nil
    · rw [if_neg hnone] at hentries
      have hnodup := ring.nodup
      rw [hentries, List.map_map] at hnodup
      exact hnodup
  · rintro ⟨hwf, hkids⟩
    by_cases hnone : entriesOf jwtSecrets.toList = []
    · exact ⟨fallbackKeyring fallbackSecret fallbackKid,
        parseKeyring_ok_iff.mpr ⟨hwf, by rw [if_pos hnone]; rfl⟩⟩
    · refine ⟨⟨(entriesOf jwtSecrets.toList).map pairOf, by rw [List.map_map]; exact hkids⟩,
        parseKeyring_ok_iff.mpr ⟨hwf, ?_⟩⟩
      rw [if_neg hnone]

/-- Two keys, the first with padding in its secret. -/
def rotatedKeyring : Keyring := ⟨[("2026-01", "c2VjcmV0LTE="), ("2026-02", "second secret")], by decide⟩

theorem rotatedKeyring_wire_format :
    parseKeyring (renderKeyring rotatedKeyring) "legacy" "default" = .ok rotatedKeyring
      ∧ ∃ ring, parseKeyring " 2026-01 = c2VjcmV0LTE= , " "legacy" "default" = .ok ring
        ∧ ring.entries = [("2026-01", "c2VjcmV0LTE=")] := by
  obtain ⟨hread, hrender⟩ := parseKeyring_wire_format "legacy" "default"
  refine ⟨hrender rotatedKeyring (by decide) (by decide), ?_⟩
  obtain ⟨hiff, hentries⟩ := hread " 2026-01 = c2VjcmV0LTE= , " (by decide)
  obtain ⟨ring, hring⟩ := hiff.mpr ⟨by decide, by decide⟩
  exact ⟨ring, hring, (hentries ring hring).trans (by decide)⟩

end Microservices.Gateway
