import Microservices.Gateway.Headers
import Microservices.Lib.Decimal
import Microservices.Lib.Latin1
import Microservices.Lib.Trim

/-!
# What the buffered proxy path sends

The HTTP client hands the proxy a dictionary, in which the values of a field that comes
more than once are joined, and a body that it has decoded by its `Content-Encoding`. The
proxy drops the hop-by-hop fields and sends the rest with that body. What the upstream
said about the body it sent is said of another one now.
-/

namespace Microservices.Gateway

open Identity Unicode

/-- A response as it is on the wire, or as it is written to it. -/
structure WireResponse where
  statusCode : Nat
  headers : List (String × Bytes)
  body : Bytes
  deriving DecidableEq, Repr

abbrev Text := List Char

/-- The values of the field, in order; names are compared without case. -/
def WireResponse.values (r : WireResponse) (name : String) : List Bytes :=
  (r.headers.filter fun e => lower e.1 == name).map Prod.snd

/-! ## The HTTP client -/

inductive HeaderEncoding where
  | ascii
  | utf8
  | latin1
  deriving DecidableEq, Repr

/-- `Headers.encoding`: the first of them in which all values can be read. -/
def headerEncoding (headers : List (String × Bytes)) : HeaderEncoding :=
  if headers.all fun e => isAscii e.2 then .ascii
  else if headers.all fun e => (strictUtf8? e.2).isSome then .utf8
  else .latin1

def HeaderEncoding.decode (encoding : HeaderEncoding) (value : Bytes) : Text :=
  match encoding with
  | .utf8 => (strictUtf8? value).getD []
  | _ => Unicode.latin1 value

/-- One more field for `Headers.items`. -/
def addItem (encoding : HeaderEncoding) (d : Dict String Text) (e : String × Bytes) :
    Dict String Text :=
  match d.get? (lower e.1) with
  | some text => d.set (lower e.1) (text ++ (", ".toList ++ encoding.decode e.2))
  | none => d.set (lower e.1) (encoding.decode e.2)

/-- `Headers.items`. -/
def headerItems (headers : List (String × Bytes)) : Dict String Text :=
  headers.foldl (addItem (headerEncoding headers)) Dict.empty

/-- The codings of `Content-Encoding` values: split at commas, stripped and in lower case. -/
def codingNames (values : List Text) : List String :=
  values.flatMap fun value =>
    (value.splitOn ',').map fun item => lower (String.ofList (Trim.trim Trim.isSpace item))

/-- The content codings there are, and which of them the client knows. -/
structure ContentCodings where
  decode : String → Bytes → Option Bytes
  /-- `SUPPORTED_DECODERS`. -/
  supported : List String

namespace ContentCodings

/-- Decodings are applied in the reverse order of their listing. -/
def decodeAll (k : ContentCodings) (names : List String) (body : Bytes) : Option Bytes :=
  names.reverse.foldlM (fun body name => k.decode name body) body

/-- `response.content`; `none` is a `DecodingError`. -/
def content (k : ContentCodings) (u : WireResponse) : Option Bytes :=
  let values := (u.values "content-encoding").map (headerEncoding u.headers).decode
  k.decodeAll ((codingNames values).filter fun name => name ∈ k.supported) u.body

end ContentCodings

/-! ## The response the proxy makes -/

/-- `str(n).encode("latin-1")`. -/
def lengthValue (n : Nat) : Bytes := latin1Bytes (Nat.toDigits 10 n)

/-- `content_type`, with a charset for text that has none. -/
def withCharset (contentType : Text) : Text :=
  if "text/".toList.isPrefixOf contentType
      ∧ ¬ ((contentType.map Char.toLower).tails.any "charset=".toList.isPrefixOf) then
    contentType ++ "; charset=utf-8".toList
  else contentType

/-- `Response.init_headers`; `none` is a `UnicodeEncodeError`. -/
def initHeaders (headers : Dict String Text) (statusCode : Nat) (body : Bytes)
    (mediaType : Option Text) : Option (List (String × Bytes)) :=
  if headers.entries.all fun e => isLatin1 e.2 then
    let raw := headers.entries.map fun e => (lower e.1, latin1Bytes e.2)
    let keys := raw.map Prod.fst
    let length :=
      if "content-length" ∈ keys ∨ statusCode < 200 ∨ statusCode ∈ [204, 304] then []
      else [("content-length", lengthValue body.length)]
    match mediaType with
    | none => some (raw ++ length)
    | some contentType =>
        if "content-type" ∈ keys then some (raw ++ length)
        else if isLatin1 (withCharset contentType) then
          some (raw ++ length ++ [("content-type", latin1Bytes (withCharset contentType))])
        else none
  else none

/-- The end of `proxy`: from the response the upstream was retried for to the one sent. `none` is an
exception that nothing in the proxy handles. -/
def relay (k : ContentCodings) (u : WireResponse) : Option WireResponse := do
  let content ← k.content u
  let items := headerItems u.headers
  let responseHeaders := items.filterKeys fun name => lower name ∉ hopByHop
  let headers ← initHeaders responseHeaders u.statusCode content (items.get? "content-type")
  return { statusCode := u.statusCode, headers := headers, body := content }

/-! ## What it should be -/

/-- A `Content-Length`. -/
def contentLength? (value : Bytes) : Option Nat := Decimal.nat? (Unicode.latin1 value)

/-- What a response says its body is coded in. -/
def WireResponse.codings (r : WireResponse) : List String :=
  codingNames ((r.values "content-encoding").map Unicode.latin1)

/-- **The response says of its body what is true, and has the end-to-end fields it came with.** -/
structure RelayedConsistently (k : ContentCodings) (u r : WireResponse) : Prop where
  status : r.statusCode = u.statusCode
  length : ∀ value ∈ r.values "content-length", contentLength? value = some r.body.length
  /-- Decoded as it says, the body is what the upstream's is. -/
  encoded : k.decodeAll r.codings r.body = k.decodeAll u.codings u.body
  endToEnd : ∀ name, name ∉ hopByHop → u.values name ≠ [] → r.values name = u.values name

/-- What an upstream response has to be like. -/
structure Relayable (k : ContentCodings) (u : WireResponse) : Prop where
  /-- What the client's decoding leaves can be decoded as the response says, with the same result;
  and its `Content-Length`, if it has one, is the length of what is left. -/
  decoded : ∃ content, k.content u = some content
    ∧ k.decodeAll u.codings content = k.decodeAll u.codings u.body
    ∧ ∀ value ∈ u.values "content-length", contentLength? value = some content.length
  /-- No end-to-end field comes twice. -/
  single : ∀ name, name ∉ hopByHop → (u.values name).length ≤ 1
  /-- If the client reads the fields as UTF-8, the end-to-end ones are ASCII. -/
  ascii : headerEncoding u.headers = .utf8 →
    ∀ e ∈ u.headers, lower e.1 ∉ hopByHop → isAscii e.2 = true

/-! ## Fields, read and written back -/

theorem toLower_toLower (c : Char) : c.toLower.toLower = c.toLower := by
  unfold Char.toLower
  by_cases h : c.val ≥ 'A'.val ∧ c.val ≤ 'Z'.val
  · rw [dif_pos h, dif_neg]
    rintro ⟨_, hle⟩
    have hlow : 65 ≤ c.val.toNat := h.1
    have hhigh : c.val.toNat ≤ 90 := h.2
    have hsum : (c.val + ('a'.val - 'A'.val)).toNat = c.val.toNat + 32 := by
      rw [UInt32.toNat_add]
      exact Nat.mod_eq_of_lt (by show c.val.toNat + 32 < _; omega)
    have hle' : (c.val + ('a'.val - 'A'.val)).toNat ≤ 90 := hle
    omega
  · rw [dif_neg h, dif_neg h]

theorem lower_lower (s : String) : lower (lower s) = lower s := by
  unfold lower
  rw [String.toList_ofList, List.map_map]
  congr 1
  refine List.map_congr_left fun c _ => ?_
  exact toLower_toLower c

/-- What `Headers.items` makes of the values of one field. -/
def joined : List Text → Option Text
  | [] => none
  | text :: texts => some (texts.foldl (fun text t => text ++ (", ".toList ++ t)) text)

theorem get?_addItem (encoding : HeaderEncoding) (d : Dict String Text) (e : String × Bytes)
    (name : String) :
    (addItem encoding d e).get? name
      = if lower e.1 = name then joined ((d.get? name).toList ++ [encoding.decode e.2])
        else d.get? name := by
  unfold addItem
  by_cases h : lower e.1 = name
  · subst h
    rw [if_pos rfl]
    cases hget : d.get? (lower e.1) with
    | none => exact Dict.get?_set_self ..
    | some text => exact Dict.get?_set_self ..
  · rw [if_neg h]
    cases d.get? (lower e.1) with
    | none => exact Dict.get?_set_ne (Ne.symm h)
    | some text => exact Dict.get?_set_ne (Ne.symm h)

theorem joined_toList (o : Option Text) : joined o.toList = o := by
  cases o <;> rfl

/-- To join what has been joined with what follows. -/
theorem joined_append (texts texts' : List Text) :
    joined ((joined texts).toList ++ texts') = joined (texts ++ texts') := by
  cases texts with
  | nil => rfl
  | cons text texts =>
      show some (texts'.foldl _ _) = some ((texts ++ texts').foldl _ _)
      rw [List.foldl_append]

theorem get?_foldl_addItem (encoding : HeaderEncoding) (name : String)
    (headers : List (String × Bytes)) (d : Dict String Text) :
    (headers.foldl (addItem encoding) d).get? name
      = joined ((d.get? name).toList
        ++ ((headers.filter fun e => lower e.1 == name).map Prod.snd).map encoding.decode) := by
  induction headers generalizing d with
  | nil =>
      rw [List.foldl_nil, List.filter_nil, List.map_nil, List.map_nil, List.append_nil,
        joined_toList]
  | cons e headers ih =>
      rw [List.foldl_cons, ih, get?_addItem]
      by_cases h : lower e.1 = name
      · have hfilter : (e :: headers).filter (fun e => lower e.1 == name)
            = e :: headers.filter fun e => lower e.1 == name :=
          List.filter_cons_of_pos (beq_iff_eq.mpr h)
        rw [if_pos h, joined_append, hfilter, List.append_assoc]
        rfl
      · rw [if_neg h, List.filter_cons_of_neg (by simpa using h)]

/-- **A field of the dictionary is its values, joined.** -/
theorem get?_headerItems (u : WireResponse) (name : String) :
    (headerItems u.headers).get? name
      = joined ((u.values name).map (headerEncoding u.headers).decode) :=
  get?_foldl_addItem (headerEncoding u.headers) name u.headers Dict.empty

theorem mem_values {u : WireResponse} {name : String} {value : Bytes} :
    value ∈ u.values name ↔ ∃ e ∈ u.headers, lower e.1 = name ∧ e.2 = value := by
  rw [WireResponse.values, List.mem_map]
  constructor
  · rintro ⟨e, he, rfl⟩
    obtain ⟨hmem, hname⟩ := List.mem_filter.mp he
    exact ⟨e, hmem, beq_iff_eq.mp hname, rfl⟩
  · rintro ⟨e, hmem, hname, rfl⟩
    exact ⟨e, List.mem_filter.mpr ⟨hmem, beq_iff_eq.mpr hname⟩, rfl⟩

/-- A field that is there is asked for in lower case. -/
theorem lower_of_values {u : WireResponse} {name : String} (h : u.values name ≠ []) :
    lower name = name := by
  obtain ⟨value, hvalue⟩ := List.exists_mem_of_ne_nil _ h
  obtain ⟨e, _, rfl, _⟩ := mem_values.mp hvalue
  exact lower_lower e.1

/-- A value goes back to its bytes, unless it is read as UTF-8 and not ASCII. -/
theorem decode_back {headers : List (String × Bytes)} {e : String × Bytes} (he : e ∈ headers) :
    latin1Bytes ((headerEncoding headers).decode e.2) = e.2
      ↔ (headerEncoding headers = .utf8 → isAscii e.2 = true) := by
  cases hencoding : headerEncoding headers with
  | ascii => exact iff_of_true (latin1Bytes_latin1 e.2) (fun h => by cases h)
  | latin1 => exact iff_of_true (latin1Bytes_latin1 e.2) (fun h => by cases h)
  | utf8 =>
      have hreads : (strictUtf8? e.2).isSome = true := by
        unfold headerEncoding at hencoding
        split_ifs at hencoding with _ hall
        exact List.all_eq_true.mp hall e he
      obtain ⟨text, htext⟩ := Option.isSome_iff_exists.mp hreads
      have hdecode : HeaderEncoding.utf8.decode e.2 = text := by
        unfold HeaderEncoding.decode
        rw [htext]
        rfl
      rw [hdecode, latin1Bytes_of_strictUtf8 htext]
      exact ⟨fun h _ => h, fun h => h rfl⟩

theorem isLatin1_decode {encoding : HeaderEncoding} {value : Bytes}
    (h : encoding = .utf8 → isAscii value = true) : isLatin1 (encoding.decode value) = true := by
  cases encoding with
  | ascii => exact isLatin1_latin1 value
  | latin1 => exact isLatin1_latin1 value
  | utf8 =>
      unfold HeaderEncoding.decode
      dsimp only
      rw [strictUtf8?_of_isAscii (h rfl)]
      exact isLatin1_latin1 value

/-! ## The relayed response -/

section Relayed

variable {k : ContentCodings} {u : WireResponse} {content : Bytes} {name : String}

/-- The fields the proxy keeps. -/
def keptItems (u : WireResponse) : Dict String Text :=
  (headerItems u.headers).filterKeys fun name => lower name ∉ hopByHop

/-- They are written back in Latin-1. -/
def rawItems (u : WireResponse) : List (String × Bytes) :=
  (keptItems u).entries.map fun e => (lower e.1, latin1Bytes e.2)

/-- The length the framework fills in. -/
def defaultLength (u : WireResponse) (content : Bytes) : List (String × Bytes) :=
  if "content-length" ∈ (rawItems u).map Prod.fst ∨ u.statusCode < 200
      ∨ u.statusCode ∈ [204, 304] then []
  else [("content-length", lengthValue content.length)]

theorem lower_of_mem_keptItems {e : String × Text} (he : e ∈ (keptItems u).entries) :
    lower e.1 = e.1 ∧ e.1 ∉ hopByHop ∧ (headerItems u.headers).get? e.1 = some e.2 := by
  obtain ⟨hitem, hkept⟩ := List.mem_filter.mp he
  have hget := Dict.get?_eq_some_of_mem hitem
  have hne : u.values e.1 ≠ [] := by
    intro hnil
    rw [get?_headerItems, hnil] at hget
    cases hget
  have hlower := lower_of_values hne
  rw [decide_eq_true_iff, hlower] at hkept
  exact ⟨hlower, hkept, hget⟩

theorem get?_keptItems (hlower : lower name = name) (hname : name ∉ hopByHop) :
    (keptItems u).get? name = (headerItems u.headers).get? name :=
  Dict.get?_filterKeys (by rw [hlower]; exact decide_eq_true hname)

/-- Under one name, the kept fields have what the dictionary has. -/
theorem filter_rawItems (hlower : lower name = name) (hname : name ∉ hopByHop) :
    ((rawItems u).filter fun e => lower e.1 == name).map Prod.snd
      = ((headerItems u.headers).get? name).toList.map latin1Bytes := by
  have hselect : (keptItems u).entries.filter (fun e => lower (lower e.1) == name)
      = (keptItems u).select fun k' => k' = name := by
    refine List.filter_congr fun e he => ?_
    rw [lower_lower, (lower_of_mem_keptItems he).1]
    rfl
  rw [rawItems, List.filter_map, List.map_map]
  show ((keptItems u).entries.filter (fun e => lower (lower e.1) == name)).map _ = _
  rw [hselect, Dict.select_key, get?_keptItems hlower hname, List.map_map]
  rfl

theorem joined_isSome {texts : List Text} (h : texts ≠ []) : ∃ text, joined texts = some text := by
  cases texts with
  | nil => exact absurd rfl h
  | cons text texts => exact ⟨_, rfl⟩

theorem get?_headerItems_isSome (h : u.values name ≠ []) :
    ∃ text, (headerItems u.headers).get? name = some text := by
  rw [get?_headerItems]
  exact joined_isSome (mt List.map_eq_nil_iff.mp h)

theorem mem_keys_rawItems (hlower : lower name = name) (hname : name ∉ hopByHop) :
    name ∈ (rawItems u).map Prod.fst ↔ u.values name ≠ [] := by
  rw [rawItems, List.map_map]
  constructor
  · intro hmem
    obtain ⟨e, he, rfl⟩ := List.mem_map.mp hmem
    obtain ⟨hlower', _, hget⟩ := lower_of_mem_keptItems he
    intro hnil
    rw [Function.comp_apply, hlower'] at hnil
    rw [get?_headerItems, hnil] at hget
    cases hget
  · intro hne
    obtain ⟨text, htext⟩ := get?_headerItems_isSome hne
    rw [← get?_keptItems hlower hname] at htext
    exact List.mem_map.mpr ⟨(name, text), Dict.mem_of_get?_eq_some htext, hlower⟩

/-- No content type is filled in: where the client has read one, it is among the kept fields. -/
theorem relay_eq (k : ContentCodings) (u : WireResponse) :
    relay k u = (k.content u).bind fun content =>
      if (keptItems u).entries.all fun e => isLatin1 e.2 then
        some
          { statusCode := u.statusCode
            headers := rawItems u ++ defaultLength u content
            body := content }
      else none := by
  have hlower : lower "content-type" = "content-type" := by decide +kernel
  have hname : "content-type" ∉ hopByHop := by decide
  unfold relay
  cases k.content u with
  | none => rfl
  | some content =>
      show (initHeaders (keptItems u) u.statusCode content _).bind _ = if _ then some _ else none
      unfold initHeaders
      by_cases hall : ((keptItems u).entries.all fun e => isLatin1 e.2) = true
      · rw [if_pos hall, if_pos hall]
        cases htype : (headerItems u.headers).get? "content-type" with
        | none => rfl
        | some contentType =>
            have hmem : "content-type" ∈ (rawItems u).map Prod.fst := by
              refine (mem_keys_rawItems hlower hname).mpr ?_
              intro hnil
              rw [get?_headerItems, hnil] at htype
              cases htype
            show (if "content-type" ∈ (rawItems u).map Prod.fst then _ else _ : Option _).bind _ = _
            rw [if_pos hmem]
            rfl
      · rw [if_neg hall, if_neg hall]
        rfl

/-- The response sent, if one is. -/
def relayed (u : WireResponse) (content : Bytes) : WireResponse where
  statusCode := u.statusCode
  headers := rawItems u ++ defaultLength u content
  body := content

theorem relay_eq_some {r : WireResponse} :
    relay k u = some r ↔ ∃ content, k.content u = some content
      ∧ ((keptItems u).entries.all fun e => isLatin1 e.2) = true ∧ relayed u content = r := by
  rw [relay_eq, Option.bind_eq_some_iff]
  refine exists_congr fun content => and_congr_right fun _ => ?_
  rw [Option.ite_none_right_eq_some, Option.some.injEq]
  rfl

theorem defaultLength_cases (u : WireResponse) (content : Bytes) :
    (u.values "content-length" ≠ [] ∧ defaultLength u content = [])
      ∨ (u.values "content-length" = [] ∧ ∀ e ∈ defaultLength u content,
        e = ("content-length", lengthValue content.length)) := by
  have hkeys : "content-length" ∈ (rawItems u).map Prod.fst ↔ u.values "content-length" ≠ [] :=
    mem_keys_rawItems (by decide +kernel) (by decide)
  unfold defaultLength
  by_cases hpresent : "content-length" ∈ (rawItems u).map Prod.fst
  · exact Or.inl ⟨hkeys.mp hpresent, if_pos (Or.inl hpresent)⟩
  · refine Or.inr ⟨not_not.mp (mt hkeys.mpr hpresent), fun e he => ?_⟩
    split at he
    · cases he
    · exact List.mem_singleton.mp he

theorem values_relayed_eq (hlower : lower name = name) (hname : name ∉ hopByHop) :
    (relayed u content).values name
      = ((headerItems u.headers).get? name).toList.map latin1Bytes
        ++ ((defaultLength u content).filter fun e => lower e.1 == name).map Prod.snd := by
  rw [WireResponse.values, relayed, List.filter_append, List.map_append,
    filter_rawItems hlower hname]

/-- **A field that comes in goes out once**, with its values joined. -/
theorem values_relayed (content : Bytes) (hpresent : u.values name ≠ []) (hname : name ∉ hopByHop) :
    ∃ text, joined ((u.values name).map (headerEncoding u.headers).decode) = some text
      ∧ (relayed u content).values name = [latin1Bytes text] := by
  obtain ⟨text, htext⟩ := get?_headerItems_isSome hpresent
  have hno : (defaultLength u content).filter (fun e => lower e.1 == name) = [] := by
    rcases defaultLength_cases u content with ⟨_, hnil⟩ | ⟨habsent, hall⟩
    · rw [hnil]
      rfl
    · rw [List.filter_eq_nil_iff]
      intro e he heq
      have hlength : lower "content-length" = "content-length" := by decide +kernel
      rw [hall e he, hlength, beq_iff_eq] at heq
      exact hpresent (heq ▸ habsent)
  refine ⟨text, get?_headerItems u name ▸ htext, ?_⟩
  rw [values_relayed_eq (lower_of_values hpresent) hname, htext, hno]
  rfl

/-- And one that does not come in does not go out, but for the length. -/
theorem values_relayed_of_nil (hnil : u.values name = []) (hname : name ∉ hopByHop)
    (hlower : lower name = name) :
    ∀ value ∈ (relayed u content).values name,
      name = "content-length" ∧ value = lengthValue content.length := by
  intro value hvalue
  rw [values_relayed_eq hlower hname, get?_headerItems, hnil] at hvalue
  obtain ⟨e, he, rfl⟩ := List.mem_map.mp hvalue
  obtain ⟨hmem, heq⟩ := List.mem_filter.mp he
  rcases defaultLength_cases u content with ⟨_, hdefault⟩ | ⟨_, hall⟩
  · rw [hdefault] at hmem
    cases hmem
  · have hlength : lower "content-length" = "content-length" := by decide +kernel
    rw [hall e hmem, hlength, beq_iff_eq] at heq
    exact ⟨heq.symm, congrArg Prod.snd (hall e hmem)⟩

theorem contentLength?_lengthValue (n : Nat) : contentLength? (lengthValue n) = some n := by
  have hlatin1 : isLatin1 (Nat.toDigits 10 n) = true := by
    rw [isLatin1, List.all_eq_true]
    intro c hc
    have hdigit := Nat.isDigit_of_mem_toDigits (by decide) (by decide) hc
    rw [Char.isDigit, Bool.and_eq_true, decide_eq_true_iff, decide_eq_true_iff] at hdigit
    have hle : c.toNat ≤ 57 := hdigit.2
    rw [decide_eq_true_iff]
    omega
  rw [contentLength?, lengthValue, latin1_latin1Bytes hlatin1]
  exact Decimal.nat?_toDigits n

/-! ## When it is relayed as it should be -/

/-- A value that is alone goes out as it came in just if it can be written back. -/
theorem values_relayed_single {e : String × Bytes} (he : e ∈ u.headers)
    (hname : lower e.1 ∉ hopByHop) (hsingle : u.values (lower e.1) = [e.2]) :
    (relayed u content).values (lower e.1) = u.values (lower e.1)
      ↔ (headerEncoding u.headers = .utf8 → isAscii e.2 = true) := by
  obtain ⟨text, htext, hvalues⟩ := values_relayed content
    (by rw [hsingle]; exact List.cons_ne_nil _ _) hname
  rw [hsingle] at htext
  cases htext
  rw [hvalues, hsingle, ← decode_back he, List.cons.injEq, and_iff_left rfl]
  rfl

theorem single_of_le {e : String × Bytes} (he : e ∈ u.headers)
    (hlength : (u.values (lower e.1)).length ≤ 1) : u.values (lower e.1) = [e.2] := by
  have hmem : e.2 ∈ u.values (lower e.1) := mem_values.mpr ⟨e, he, rfl, rfl⟩
  cases hvalues : u.values (lower e.1) with
  | nil =>
      rw [hvalues] at hmem
      cases hmem
  | cons value values =>
      rw [hvalues, List.length_cons] at hlength
      rw [hvalues] at hmem
      cases List.length_eq_zero_iff.mp (Nat.le_zero.mp (Nat.le_of_succ_le_succ hlength))
      rw [List.mem_singleton.mp hmem]

theorem codings_relayed
    (h : u.values "content-encoding" ≠ [] →
      (relayed u content).values "content-encoding" = u.values "content-encoding") :
    (relayed u content).codings = u.codings := by
  have hsame : (relayed u content).values "content-encoding" = u.values "content-encoding" := by
    by_cases hnil : u.values "content-encoding" = []
    · rw [hnil, List.eq_nil_iff_forall_not_mem]
      intro value hvalue
      have hlength := (values_relayed_of_nil hnil (by decide) (by decide +kernel) value hvalue).1
      exact absurd hlength (by decide)
    · exact h hnil
  rw [WireResponse.codings, hsame]
  rfl

theorem relayable_of_consistent {r : WireResponse} (hr : relay k u = some r)
    (h : RelayedConsistently k u r) : Relayable k u := by
  obtain ⟨content, hcontent, _, rfl⟩ := relay_eq_some.mp hr
  have hsingle : ∀ name, name ∉ hopByHop → (u.values name).length ≤ 1 := by
    intro name hname
    by_cases hnil : u.values name = []
    · rw [hnil]
      exact Nat.zero_le 1
    · obtain ⟨text, _, hvalues⟩ := values_relayed content hnil hname
      rw [← h.endToEnd name hname hnil, hvalues, List.length_singleton]
  exact
    { decoded := by
        refine ⟨content, hcontent, ?_, fun value hvalue => ?_⟩
        · have hcodings := codings_relayed fun hne => h.endToEnd "content-encoding" (by decide) hne
          have hencoded := h.encoded
          rw [hcodings] at hencoded
          exact hencoded
        · have hne : u.values "content-length" ≠ [] := List.ne_nil_of_mem hvalue
          rw [← h.endToEnd "content-length" (by decide) hne] at hvalue
          exact h.length value hvalue
      single := hsingle
      ascii := by
        intro hutf8 e he hname
        have hone := single_of_le he (hsingle (lower e.1) hname)
        have hne : u.values (lower e.1) ≠ [] := by
          rw [hone]
          exact List.cons_ne_nil _ _
        exact (values_relayed_single he hname hone).mp (h.endToEnd (lower e.1) hname hne) hutf8 }

theorem consistent_of_relayable (h : Relayable k u) :
    ∃ r, relay k u = some r ∧ RelayedConsistently k u r := by
  obtain ⟨content, hcontent, hencoded, hlength⟩ := h.decoded
  have hsame : ∀ name, name ∉ hopByHop → u.values name ≠ [] →
      (relayed u content).values name = u.values name := by
    intro name hname hne
    obtain ⟨value, hvalue⟩ := List.exists_mem_of_ne_nil _ hne
    obtain ⟨e, he, rfl, _⟩ := mem_values.mp hvalue
    exact (values_relayed_single he hname (single_of_le he (h.single _ hname))).mpr
      fun hutf8 => h.ascii hutf8 e he hname
  have hwritten : ((keptItems u).entries.all fun e => isLatin1 e.2) = true := by
    rw [List.all_eq_true]
    intro item hitem
    obtain ⟨_, hname, hget⟩ := lower_of_mem_keptItems hitem
    have hne : u.values item.1 ≠ [] := by
      intro hnil
      rw [get?_headerItems, hnil] at hget
      cases hget
    obtain ⟨value, hvalue⟩ := List.exists_mem_of_ne_nil _ hne
    obtain ⟨e, he, hkey, _⟩ := mem_values.mp hvalue
    rw [← hkey] at hname hget
    rw [get?_headerItems, single_of_le he (h.single _ hname)] at hget
    have htext : (headerEncoding u.headers).decode e.2 = item.2 := Option.some.inj hget
    rw [← htext]
    exact isLatin1_decode fun hutf8 => h.ascii hutf8 e he hname
  refine ⟨_, relay_eq_some.mpr ⟨content, hcontent, hwritten, rfl⟩, ?_⟩
  exact
    { status := rfl
      length := by
        intro value hvalue
        by_cases hnil : u.values "content-length" = []
        · rw [(values_relayed_of_nil hnil (by decide) (by decide +kernel) value hvalue).2]
          exact contentLength?_lengthValue _
        · rw [hsame "content-length" (by decide) hnil] at hvalue
          exact hlength value hvalue
      encoded := by
        rw [codings_relayed fun hne => hsame "content-encoding" (by decide) hne]
        exact hencoded
      endToEnd := hsame }

/--
**A response is relayed as it should be just if the client neither decodes it nor joins its
fields.**

More exactly: what it decodes decodes again to the same, with the length it had, no
end-to-end field comes twice, and none is read as UTF-8 that is not ASCII.
-/
theorem relayed_consistently_iff (k : ContentCodings) (u : WireResponse) :
    (∃ r, relay k u = some r ∧ RelayedConsistently k u r) ↔ Relayable k u := by
  constructor
  · rintro ⟨r, hr, h⟩
    exact relayable_of_consistent hr h
  · exact consistent_of_relayable

end Relayed

/-! ## A compressed response -/

/-- `{}`, compressed. -/
def gzipped : Bytes :=
  [31, 139, 8, 0, 0, 0, 0, 0, 2, 3, 171, 174, 5, 0, 67, 191, 166, 163, 2, 0, 0, 0]

/-- What the codings make of the bodies here. -/
def someCodings : ContentCodings where
  decode := fun name body =>
    if name = "gzip" ∧ body = gzipped then some [123, 125]
    else if name = "identity" then some body
    else none
  supported := ["identity", "gzip", "deflate"]

def ascii (s : String) : Bytes := latin1Bytes s.toList

def compressedResponse : WireResponse where
  statusCode := 200
  headers :=
    [("Content-Type", ascii "application/json"), ("Content-Encoding", ascii "gzip"),
      ("Content-Length", ascii "22")]
  body := gzipped

/-- **Of a compressed response the body is sent decompressed**, as 22 bytes of gzip. -/
theorem compressed_not_consistent :
    relay someCodings compressedResponse = some
        { statusCode := 200
          headers :=
            [("content-type", ascii "application/json"), ("content-encoding", ascii "gzip"),
              ("content-length", ascii "22")]
          body := [123, 125] }
      ∧ ¬ ∃ r, relay someCodings compressedResponse = some r
        ∧ RelayedConsistently someCodings compressedResponse r := by
  have hrelay : relay someCodings compressedResponse = some
      { statusCode := 200
        headers :=
          [("content-type", ascii "application/json"), ("content-encoding", ascii "gzip"),
            ("content-length", ascii "22")]
        body := [123, 125] } := by decide +kernel
  refine ⟨hrelay, ?_⟩
  rintro ⟨r, hr, h⟩
  cases hrelay.symm.trans hr
  have hlength := h.length (ascii "22") (by decide +kernel)
  exact absurd hlength (by decide +kernel)

end Microservices.Gateway
