import Microservices.Http
import Microservices.Lib.Decimal

/-!
# The body-size limit

`BodySizeLimitMiddleware` counts a body that declares no length while the handler
behind it is already reading. On the chunk that crosses the limit the wrapper
hands the reader an *empty, final* message instead. The reader cannot tell that
from the end of the body: it runs on what it has, and only then does `dispatch`
throw its answer away for the 413.

`Run.handled` keeps what the answer does not show, the body the handler ran on.
-/

namespace Microservices.Gateway

/-- An ASGI message of the request side. -/
inductive Message where
  | request (body : Bytes) (moreBody : Bool)
  | disconnect
  deriving DecidableEq, Repr

/-- What the server has yet to deliver. When it has run out the client is gone. -/
abbrev Source := List Message

/-- The nonlocal variables of `counting_receive`. -/
structure Count where
  received : Nat := 0
  oversize : Bool := false
  deriving DecidableEq, Repr

structure BodySizeLimitMiddleware where
  maxBytes : Nat
  /-- `__init__` raises `ValueError` otherwise. -/
  pos : 0 < maxBytes

/-- What became of one request. -/
structure Run (ρ : Type) where
  /-- The client's answer; `none` when the read ended in `ClientDisconnect`. -/
  answer : Option (Except HTTPException ρ)
  /-- The body the downstream handler was run to completion on. -/
  handled : Option Bytes

namespace BodySizeLimitMiddleware

/-- `_too_large_response`. -/
def tooLargeResponse (m : BodySizeLimitMiddleware) : HTTPException where
  statusCode := 413
  detail := "Request body exceeds the " ++ toString m.maxBytes ++ "-byte limit. "
    ++ "Split the payload or contact an operator if your use case "
    ++ "legitimately requires a larger body."
  headers := [("Connection", "close")]

/-- `int(declared) > self.max_bytes`; a malformed value does not reject. -/
def declaredOversize (m : BodySizeLimitMiddleware) : Option String → Bool
  | none => false
  | some declared =>
      match Decimal.int? declared with
      | none => false
      | some n => decide (n > m.maxBytes)

/-- `counting_receive`, from the message the server delivered on. -/
def countingReceive (m : BodySizeLimitMiddleware) (c : Count) : Message → Message × Count
  | .request body moreBody =>
      let received := c.received + body.length
      if received > m.maxBytes then (.request [] false, { received, oversize := true })
      else (.request body moreBody, { c with received })
  | .disconnect => (.disconnect, c)

/-- A downstream read of the whole body: messages from the wrapper until `more_body` is false. -/
def readBody (m : BodySizeLimitMiddleware) : Count → Source → Option Bytes × Count
  | c, [] => (none, c)
  | c, message :: rest =>
      match m.countingReceive c message with
      | (.disconnect, c) => (none, c)
      | (.request body false, c) => (some body, c)
      | (.request body true, c) =>
          let (more, c) := m.readBody c rest
          (more.map (body ++ ·), c)

/-- `dispatch`, around a handler that reads its whole body. -/
def dispatch {ρ : Type} (m : BodySizeLimitMiddleware) (declared : Option String) (source : Source)
    (app : Bytes → ρ) : Run ρ :=
  if m.declaredOversize declared then
    { answer := some (.error m.tooLargeResponse), handled := none }
  else
    match m.readBody {} source with
    | (none, _) => { answer := none, handled := none }
    | (some body, c) =>
        { answer := some (if c.oversize then .error m.tooLargeResponse else .ok (app body))
          handled := some body }

end BodySizeLimitMiddleware

/-- The messages of a body sent as `chunks` and then `last`. -/
def bodyMessages (chunks : List Bytes) (last : Bytes) : Source :=
  chunks.map (Message.request · true) ++ [.request last false]

/--
**All or nothing.** A body within the limit is read whole and answered by the
handler; beyond it the client gets the 413 and no handler has run on a truncated
prefix.
-/
structure AllOrNothing {ρ : Type} (m : BodySizeLimitMiddleware) (body : Bytes) (app : Bytes → ρ)
    (run : Run ρ) : Prop where
  within : body.length ≤ m.maxBytes → run.answer = some (.ok (app body)) ∧ run.handled = some body
  beyond : m.maxBytes < body.length → run.answer = some (.error m.tooLargeResponse)
    ∧ ∀ b, run.handled = some b → ¬ (b <+: body ∧ b ≠ body)

variable {m : BodySizeLimitMiddleware}

/-! ## One message -/

theorem countingReceive_within {c : Count} (body : Bytes) (moreBody : Bool)
    (h : c.received + body.length ≤ m.maxBytes) :
    m.countingReceive c (.request body moreBody)
      = (.request body moreBody, { c with received := c.received + body.length }) := by
  rw [BodySizeLimitMiddleware.countingReceive]
  exact if_neg (by omega)

theorem countingReceive_beyond {c : Count} (body : Bytes) (moreBody : Bool)
    (h : m.maxBytes < c.received + body.length) :
    m.countingReceive c (.request body moreBody)
      = (.request [] false, { received := c.received + body.length, oversize := true }) := by
  rw [BodySizeLimitMiddleware.countingReceive]
  exact if_pos h

/-! ## The whole body -/

/-- A body that fits in what is left of the limit is read as it was sent. -/
theorem readBody_within (chunks : List Bytes) (last : Bytes) {c : Count}
    (h : c.received + (chunks.flatten ++ last).length ≤ m.maxBytes) :
    m.readBody c (bodyMessages chunks last)
      = (some (chunks.flatten ++ last),
          { c with received := c.received + (chunks.flatten ++ last).length }) := by
  induction chunks generalizing c with
  | nil =>
      have hm := countingReceive_within last false h
      simp only [bodyMessages, List.map_nil, List.nil_append, List.flatten_nil] at *
      rw [BodySizeLimitMiddleware.readBody, hm]
  | cons chunk chunks ih =>
      rw [List.flatten_cons, List.append_assoc, List.length_append] at h ⊢
      have hm := countingReceive_within (m := m) (c := c) chunk true (by omega)
      have hrest := ih (c := { c with received := c.received + chunk.length }) (by
        show c.received + chunk.length + _ ≤ _
        omega)
      rw [bodyMessages, List.map_cons, List.cons_append, BodySizeLimitMiddleware.readBody, hm]
      rw [bodyMessages] at hrest
      dsimp only
      rw [hrest]
      rw [Option.map_some, Nat.add_assoc]

/-- One that does not is cut before the chunk that crosses, and the flag is up. -/
theorem readBody_beyond (chunks : List Bytes) (last : Bytes) {c : Count}
    (hc : c.received ≤ m.maxBytes)
    (h : m.maxBytes < c.received + (chunks.flatten ++ last).length) :
    ∃ b c', m.readBody c (bodyMessages chunks last) = (some b, c') ∧ c'.oversize = true
      ∧ b <+: chunks.flatten ++ last ∧ b ≠ chunks.flatten ++ last := by
  induction chunks generalizing c with
  | nil =>
      have hm := countingReceive_beyond last false h
      simp only [bodyMessages, List.map_nil, List.nil_append, List.flatten_nil] at *
      refine ⟨[], ⟨c.received + last.length, true⟩, ?_, rfl, List.nil_prefix, ?_⟩
      · rw [BodySizeLimitMiddleware.readBody, hm]
      · intro hnil
        rw [← hnil, List.length_nil] at h
        omega
  | cons chunk chunks ih =>
      rw [List.flatten_cons, List.append_assoc] at h ⊢
      rw [List.length_append] at h
      rw [bodyMessages, List.map_cons, List.cons_append, BodySizeLimitMiddleware.readBody]
      by_cases hcross : m.maxBytes < c.received + chunk.length
      · -- this chunk crosses: the reader gets an empty final message for it
        have hm := countingReceive_beyond chunk true hcross
        refine ⟨[], ⟨c.received + chunk.length, true⟩, by rw [hm], rfl, List.nil_prefix, ?_⟩
        intro hnil
        have := (List.append_eq_nil_iff.mp hnil.symm).1
        rw [this, List.length_nil] at hcross
        omega
      · have hm := countingReceive_within (m := m) (c := c) chunk true (by omega)
        have hleft : c.received + chunk.length ≤ m.maxBytes := by omega
        obtain ⟨b, c', hr, ho, hp, hne⟩ :=
          ih (c := { c with received := c.received + chunk.length }) hleft (by
            show _ < c.received + chunk.length + _
            omega)
        refine ⟨chunk ++ b, c', ?_, ho, List.prefix_append_right_inj chunk |>.mpr hp, ?_⟩
        · rw [bodyMessages] at hr
          rw [hm]
          dsimp only
          rw [hr]
          rfl
        · intro he
          exact hne (List.append_cancel_left he)

/--
**The limit is all or nothing exactly for the bodies within it.**

For every positive limit, every way of cutting a body without declared length
into chunks, and every handler.
-/
theorem bodySize_allOrNothing_iff {ρ : Type} (m : BodySizeLimitMiddleware) (chunks : List Bytes)
    (last : Bytes) (app : Bytes → ρ) :
    AllOrNothing m (chunks.flatten ++ last) app (m.dispatch none (bodyMessages chunks last) app)
      ↔ (chunks.flatten ++ last).length ≤ m.maxBytes := by
  have hnone : m.declaredOversize none = false := rfl
  refine ⟨fun h => ?_, fun hle => ⟨fun _ => ?_, fun hgt => absurd hgt (by omega)⟩⟩
  · by_contra hgt
    obtain ⟨b, c', hr, ho, hp, hne⟩ :=
      readBody_beyond (m := m) (c := {}) chunks last (Nat.zero_le _)
        (by rw [Nat.zero_add]; omega)
    refine (h.beyond (by omega)).2 b ?_ ⟨hp, hne⟩
    rw [BodySizeLimitMiddleware.dispatch, hnone, hr]
    rfl
  · have hr := readBody_within (m := m) (c := {}) chunks last
      (by rw [Nat.zero_add]; exact hle)
    rw [BodySizeLimitMiddleware.dispatch, hnone, hr]
    exact ⟨rfl, rfl⟩

/-- Six bytes in two chunks against a limit of four: the handler runs on the first three. -/
theorem bodySize_runs_on_prefix :
    let m : BodySizeLimitMiddleware := ⟨4, by decide⟩
    let run := m.dispatch none (bodyMessages [[1, 2, 3], [4, 5, 6]] []) List.length
    run.answer = some (.error m.tooLargeResponse) ∧ run.handled = some [1, 2, 3]
      ∧ ¬ AllOrNothing m [1, 2, 3, 4, 5, 6] List.length run := by
  refine ⟨rfl, rfl, fun h => ?_⟩
  exact (h.beyond (by decide)).2 [1, 2, 3] rfl (by decide)

end Microservices.Gateway
