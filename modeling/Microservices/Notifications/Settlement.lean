import Microservices.Notifications.Consumer

/-!
# Each message is settled once

A message is settled by a call of `complete_message` or `abandon_message` that returns.
The comment before `complete_message` says that a message whose broadcast fails is not
delivered again. But the broadcast is in the same `try`, and so it is abandoned.
-/

namespace Microservices.Notifications

open Effects

/-- The calls that return. -/
def Settlement.settles : Settlement → Bool
  | .completeFailed => false
  | _ => true

/-- **The message is settled once.** -/
structure SettledOnce (f : Faults) (messageBody : List (List UInt8)) (p : Processing) : Prop where
  /-- Once it is completed it is not abandoned. -/
  kept : ∀ before later, p.settlements = before ++ .completed :: later → .abandoned ∉ later
  /-- If it cannot be read, or its handler raises, it is not to be completed. -/
  failed : handled f messageBody = none →
    .completed ∉ p.settlements ∧ .completeFailed ∉ p.settlements
  once : p.settlements.countP Settlement.settles = 1

variable {f : Faults} {messageBody : List (List UInt8)} {p : Processing}

theorem settledOnce_of_single {s : Settlement} (h : p.settlements = [s])
    (hs : s.settles = true) (hfailed : handled f messageBody = none → s = .abandoned) :
    SettledOnce f messageBody p where
  kept := by
    intro before later heq
    have hlength := congrArg List.length heq
    simp only [h, List.length_append, List.length_cons, List.length_nil] at hlength
    have hlater : later = [] := List.length_eq_zero_iff.mp (by omega)
    rw [hlater]
    exact List.not_mem_nil
  failed := by
    intro hnone
    rw [h, hfailed hnone]
    decide
  once := by
    rw [h, List.countP_singleton, if_pos hs]

/--
**A message is settled once, unless it is completed and its broadcast fails.**

It is completed just if it can be read, its handler returns and `complete_message` does.
-/
theorem settled_once_iff (f : Faults) (messageBody : List (List UInt8)) :
    SettledOnce f messageBody (final ((processMessage f messageBody).run {})) ↔
      ¬ ((handled f messageBody).isSome ∧ f.complete = false ∧ f.broadcast = true) := by
  obtain ⟨p, hrun, hp⟩ := processMessage_run f messageBody
  rw [hrun]
  show SettledOnce f messageBody p ↔ _
  cases hhandled : handled f messageBody with
  | none =>
      rw [hhandled] at hp
      refine iff_of_true (settledOnce_of_single hp.1 rfl fun _ => rfl) ?_
      intro h
      cases h.1
  | some b =>
      have hsome : handled f messageBody ≠ none := by
        rw [hhandled]
        exact Option.some_ne_none b
      rw [hhandled] at hp
      dsimp only at hp
      split_ifs at hp with hcomplete hbroadcast
      · -- `complete_message` raised, and the message is abandoned
        refine iff_of_true ⟨?_, fun hnone => absurd hnone hsome, ?_⟩ (by simp [hcomplete])
        · intro before later heq
          have hmem : Settlement.completed ∈ p.settlements := by
            rw [heq]
            exact List.mem_append_right _ List.mem_cons_self
          rw [hp.1] at hmem
          exact absurd hmem (by decide)
        · rw [hp.1]
          rfl
      · refine iff_of_false ?_ (by simp [hcomplete, hbroadcast])
        intro h
        have honce := h.once
        rw [hp.1] at honce
        exact absurd honce (by decide)
      · exact iff_of_true (settledOnce_of_single hp.1 rfl fun hnone => absurd hnone hsome)
          (by simp [hbroadcast])

/-- A task of `u-1` has been deleted. -/
def deletionBody : List UInt8 :=
  Unicode.encodeUtf8 (Json.dumps (.obj [
    ("event_type", .str "task.deleted"),
    ("data", .obj [("creator_id", .str "u-1")])]))

/-- If the broadcast raises, the message is completed and then abandoned. -/
theorem completed_then_abandoned :
    (final ((processMessage { broadcast := true } [deletionBody]).run {})).settlements
        = [.completed, .abandoned]
      ∧ ¬ SettledOnce { broadcast := true } [deletionBody]
        (final ((processMessage { broadcast := true } [deletionBody]).run {})) := by
  have hcalls : (final ((processMessage { broadcast := true } [deletionBody]).run {})).settlements
      = [.completed, .abandoned] := by decide +kernel
  refine ⟨hcalls, ?_⟩
  intro h
  exact h.kept [] [.abandoned] hcalls List.mem_cons_self

end Microservices.Notifications
