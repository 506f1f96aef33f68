import Mathlib.Logic.Basic

/-! Objects that answer calls. A specification is an object too, and an implementation meets it on
the sequences of calls that both answer alike. -/

namespace Refinement

variable {σ τ ι ο : Type}

def answers (step : σ → ι → σ × ο) : σ → List ι → List ο
  | _, [] => []
  | s, call :: rest => (step s call).2 :: answers step (step s call).1 rest

def Along (step : σ → ι → σ × ο) (ok : σ → ι → Prop) : σ → List ι → Prop
  | _, [] => True
  | s, call :: rest => ok s call ∧ Along step ok (step s call).1 rest

/-- Two objects give the same answers exactly along the `good` calls, where these are the legal
calls that are answered alike in related states, and each of them keeps the states related. -/
theorem answers_eq_iff {step : σ → ι → σ × ο} {spec : τ → ι → τ × ο} {related : σ → τ → Prop}
    {legal good : τ → ι → Prop}
    (agree : ∀ s t call, related s t → legal t call →
      ((step s call).2 = (spec t call).2 ↔ good t call))
    (keep : ∀ s t call, related s t → legal t call → good t call →
      related (step s call).1 (spec t call).1)
    {s : σ} {t : τ} (start : related s t) (calls : List ι) (allowed : Along spec legal t calls) :
    answers step s calls = answers spec t calls ↔ Along spec good t calls := by
  induction calls generalizing s t with
  | nil => simp only [answers, Along]
  | cons call rest ih =>
      obtain ⟨here, later⟩ := allowed
      have first := agree s t call start here
      simp only [answers, Along, List.cons.injEq, first]
      constructor
      · rintro ⟨fine, same⟩
        exact ⟨fine, (ih (keep s t call start here fine) later).mp same⟩
      · rintro ⟨fine, along⟩
        exact ⟨fine, (ih (keep s t call start here fine) later).mpr along⟩

end Refinement
