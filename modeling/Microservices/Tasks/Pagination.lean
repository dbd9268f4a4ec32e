import Microservices.Lib.Base64
import Microservices.Lib.Isoformat
import Microservices.Lib.Json
import Microservices.Lib.Uuid

/-!
# Cursors and pages

A cursor names a position in the order of the lists by the creation time and the
id of a row: a JSON object of two strings, in URL-safe base64. A page is cut from
rows fetched with one more than the limit, and its cursor is the position of that
one.
-/

namespace Microservices.Tasks

structure CursorPage (α : Type) where
  items : List α
  nextCursor : Option String
  /-- The number of items on this page. -/
  count : Nat

def encodeCursor (createdAt : Datetime) (itemId : UUID) : String :=
  let payload := Json.ofStrings [("t", createdAt.isoformat), ("i", itemId.text)]
  String.ofList (Base64.urlsafeEncode (Unicode.encodeUtf8 payload.dumps))

/-- `none` is `ValueError`. Nothing outside base64's alphabet counts, so the cursor need not be
encoded first. -/
def decodeCursor (cursor : String) : Option (Datetime × UUID) := do
  let bytes ← Base64.urlsafeDecode cursor.toList
  let payload ← Json.loads bytes
  let t ← (payload.get? "t").bind Json.str?
  let createdAt ← Datetime.fromisoformat t
  let i ← (payload.get? "i").bind Json.str?
  let itemId ← UUID.ofText? i
  some (createdAt, itemId)

/-! ## What it raises -/

/-- The exceptions inside `decode_cursor`, without their texts. -/
inductive CursorException where
  | binasciiError
  | unicodeDecodeError
  | jsonDecodeError
  | keyError (name : String)
  | typeError
  | attributeError
  | valueError
  deriving DecidableEq, Repr

def orRaise {α : Type} (e : CursorException) : Option α → Except CursorException α
  | some a => .ok a
  | none => .error e

/-- `payload[name]`. -/
def subscript (payload : Json) (name : String) : Except CursorException Json :=
  match payload with
  | .obj _ => orRaise (.keyError name) (payload.get? name)
  | _ => .error .typeError

/-- `datetime.fromisoformat(v)`. -/
def fromisoformatOf : Json → Except CursorException Datetime
  | .str s => orRaise .valueError (Datetime.fromisoformat s)
  | _ => .error .typeError

/-- `uuid.UUID(v)`. -/
def uuidOf : Json → Except CursorException UUID
  | .str s => orRaise .valueError (UUID.ofText? s)
  | .null => .error .typeError
  | _ => .error .attributeError

/-- The `try` of `decode_cursor`. -/
def decodeCursorTry (cursor : String) : Except CursorException (Datetime × UUID) := do
  let bytes ← orRaise .binasciiError (Base64.urlsafeDecode cursor.toList)
  let text ← orRaise .unicodeDecodeError (Json.decodeText bytes)
  let payload ← orRaise .jsonDecodeError (Json.loadsText text)
  let createdAt ← fromisoformatOf (← subscript payload "t")
  let itemId ← uuidOf (← subscript payload "i")
  return (createdAt, itemId)

/-- `decode_cursor` with its `except Exception`. -/
def decodeCursorRaising (cursor : String) : Except CursorException (Datetime × UUID) :=
  match decodeCursorTry cursor with
  | .ok position => .ok position
  | .error _ => .error .valueError

/-- `make_cursor_page`, for rows with these two columns. -/
def makeCursorPage {ρ : Type} (createdAt : ρ → Timestamp) (id : ρ → UUID) (items : List ρ)
    (limit : Nat) : List ρ × Option String :=
  if h : limit < items.length then
    let nextItem := items[limit]
    (items.take limit, some (encodeCursor (createdAt nextItem).datetime (id nextItem)))
  else (items, none)

/-- **A cursor decodes to the position it was made of**, but for a UTC offset of less than a
second. -/
theorem decodeCursor_encodeCursor (createdAt : Datetime) (itemId : UUID) :
    decodeCursor (encodeCursor createdAt itemId) = some (createdAt.readBack, itemId) := by
  have hloads := Json.loads_dumps_strings
    (List.cons_ne_nil ("t", createdAt.isoformat) [("i", itemId.text)])
  have ht : (Json.ofStrings [("t", createdAt.isoformat), ("i", itemId.text)]).get? "t"
      = some (.str createdAt.isoformat) := rfl
  have hi : (Json.ofStrings [("t", createdAt.isoformat), ("i", itemId.text)]).get? "i"
      = some (.str itemId.text) := rfl
  simp only [decodeCursor, encodeCursor, String.toList_ofList, Base64.urlsafeDecode_encode, hloads,
    ht, hi, Json.str?, Datetime.fromisoformat_isoformat, UUID.ofText?_text, Option.bind_eq_bind,
    Option.bind_some]

theorem toOption_bind {ε α β : Type} (x : Except ε α) (f : α → Except ε β) :
    (x >>= f).toOption = x.toOption.bind fun a => (f a).toOption := by
  cases x <;> rfl

theorem toOption_orRaise {α : Type} (e : CursorException) (o : Option α) :
    (orRaise e o).toOption = o := by
  cases o <;> rfl

theorem toOption_subscript (payload : Json) (name : String) :
    (subscript payload name).toOption = payload.get? name := by
  cases payload with
  | obj members => exact toOption_orRaise _ _
  | _ => rfl

theorem toOption_fromisoformatOf (v : Json) :
    (fromisoformatOf v).toOption = v.str?.bind Datetime.fromisoformat := by
  cases v with
  | str s => rw [fromisoformatOf, toOption_orRaise, Json.str?, Option.bind_some]
  | _ => rfl

theorem toOption_uuidOf (v : Json) : (uuidOf v).toOption = v.str?.bind UUID.ofText? := by
  cases v with
  | str s => rw [uuidOf, toOption_orRaise, Json.str?, Option.bind_some]
  | _ => rfl

/-- `decodeCursor` is `decode_cursor`, its one exception left out. -/
theorem toOption_decodeCursorRaising (cursor : String) :
    (decodeCursorRaising cursor).toOption = decodeCursor cursor := by
  have htry : (decodeCursorTry cursor).toOption = decodeCursor cursor := by
    unfold decodeCursorTry decodeCursor Json.loads
    simp only [toOption_bind, toOption_orRaise, toOption_subscript, toOption_fromisoformatOf,
      toOption_uuidOf, Option.bind_assoc, Option.bind_eq_bind]
    rfl
  rw [← htry]
  unfold decodeCursorRaising
  cases decodeCursorTry cursor <;> rfl

/-- The `try` raises nothing on an encoded position. -/
theorem decodeCursorRaising_encodeCursor (createdAt : Datetime) (itemId : UUID) :
    decodeCursorRaising (encodeCursor createdAt itemId) = .ok (createdAt.readBack, itemId) := by
  have hsome := toOption_decodeCursorRaising (encodeCursor createdAt itemId)
  rw [decodeCursor_encodeCursor] at hsome
  cases hdecode : decodeCursorRaising (encodeCursor createdAt itemId) with
  | ok position =>
      rw [hdecode] at hsome
      have hposition : position = (createdAt.readBack, itemId) := Option.some.inj hsome
      rw [hposition]
  | error e =>
      rw [hdecode] at hsome
      cases hsome

/-- **Cursors round-trip** if the UTC offset is zero or none, or at least a second in size, and
what is none raises `ValueError` and nothing else. -/
theorem cursors_round_trip : (∀ createdAt itemId,
      decodeCursorRaising (encodeCursor createdAt itemId) = .ok (createdAt, itemId)
        ↔ createdAt.OffsetKept)
    ∧ ∀ cursor, (∃ position, decodeCursorRaising cursor = .ok position)
      ∨ decodeCursorRaising cursor = .error .valueError := by
  refine ⟨fun createdAt itemId => ?_, fun cursor => ?_⟩
  · rw [decodeCursorRaising_encodeCursor, ← createdAt.readBack_eq_iff]
    constructor
    · intro h
      exact congrArg Prod.fst (Except.ok.inj h)
    · intro h
      rw [h]
  · unfold decodeCursorRaising
    cases decodeCursorTry cursor with
    | ok position => exact Or.inl ⟨position, rfl⟩
    | error e => exact Or.inr rfl

/-- Half a second east of UTC. -/
def halfSecondEast : Datetime where
  date := ⟨1999, 12, 31, by decide, by decide, by decide⟩
  time := midnight
  offset := some ⟨500000, by decide⟩

/-- Its offset is not read back. -/
theorem halfSecond_lost : halfSecondEast.offset.isSome
    ∧ decodeCursorRaising (encodeCursor halfSecondEast (UUID.ofNat 1))
      = .ok ({ halfSecondEast with offset := some UtcOffset.utc }, UUID.ofNat 1)
    ∧ decodeCursorRaising (encodeCursor halfSecondEast (UUID.ofNat 1))
      ≠ .ok (halfSecondEast, UUID.ofNat 1) := by
  rw [decodeCursorRaising_encodeCursor]
  refine ⟨rfl, rfl, fun h => ?_⟩
  have hback : halfSecondEast.readBack = halfSecondEast := congrArg Prod.fst (Except.ok.inj h)
  exact absurd hback (by decide)

/-- No cursor is empty. -/
theorem encodeCursor_ne_empty (createdAt : Datetime) (itemId : UUID) :
    encodeCursor createdAt itemId ≠ "" := by
  intro h
  have hdecode := decodeCursor_encodeCursor createdAt itemId
  rw [h] at hdecode
  have hempty : decodeCursor "" = none := by decide +kernel
  rw [hempty] at hdecode
  cases hdecode

end Microservices.Tasks
