import Mathlib.Data.List.Induction

namespace Trace

variable {α : Type} {ok : List α → α → Prop} {trace more : List α} {event : α}

/-- Every event of the trace is allowed after the events before it. -/
def Legal (ok : List α → α → Prop) (trace : List α) : Prop :=
  ∀ before event after, trace = before ++ event :: after → ok before event

theorem legal_nil : Legal ok [] := by
  intro before event after split
  simp at split

theorem legal_append_singleton :
    Legal ok (trace ++ [event]) ↔ Legal ok trace ∧ ok trace event := by
  constructor
  · intro legal
    refine ⟨?_, legal trace event [] rfl⟩
    intro before earlier after split
    exact legal before earlier (after ++ [event]) (by simp [split])
  · rintro ⟨legal, last⟩ before earlier after split
    rcases List.eq_nil_or_concat after with rfl | ⟨rest, final, rfl⟩
    · obtain ⟨rfl, same⟩ := List.append_inj' split rfl
      cases same
      exact last
    · have longer : trace ++ [event] = (before ++ earlier :: rest) ++ [final] := by
        rw [split, List.concat_eq_append]
        simp
      exact legal before earlier rest (List.append_inj' longer rfl).1

/-- A trace is extended by events each of which is allowed after the trace and those before it. -/
theorem Legal.append (legal : Legal ok trace)
    (allowed : ∀ before event after, more = before ++ event :: after → ok (trace ++ before) event) :
    Legal ok (trace ++ more) := by
  induction more using List.reverseRecOn with
  | nil =>
      rw [List.append_nil]
      exact legal
  | append_singleton rest last ih =>
      rw [← List.append_assoc]
      refine legal_append_singleton.mpr ⟨ih ?_, allowed rest last [] rfl⟩
      intro before event after split
      exact allowed before event (after ++ [last]) (by simp [split])

end Trace
