import Mathlib.Logic.Relation

/-! Executable labelled transition systems. A run is a list of labels; `Reach` collects
the states of the runs whose every step meets a condition on the state before it. -/

namespace Transition

variable {σ ℓ : Type}

/-- The states reached from `start` by steps that all meet `ok`. -/
inductive Reach (step : σ → ℓ → Option σ) (ok : σ → ℓ → Prop) (start : σ) : σ → Prop
  | refl : Reach step ok start start
  | next {s t : σ} {label : ℓ} : Reach step ok start s → ok s label →
      step s label = some t → Reach step ok start t

def Free : σ → ℓ → Prop := fun _ _ => True

instance (s : σ) (label : ℓ) : Decidable (Free s label) := instDecidableTrue

def exec (step : σ → ℓ → Option σ) : σ → List ℓ → Option σ
  | s, [] => some s
  | s, label :: rest => (step s label).bind (fun t => exec step t rest)

def guarded (step : σ → ℓ → Option σ) (ok : σ → ℓ → Prop) [∀ s label, Decidable (ok s label)] :
    σ → ℓ → Option σ :=
  fun s label => if ok s label then step s label else none

variable {step : σ → ℓ → Option σ} {ok : σ → ℓ → Prop} {start : σ}

theorem Reach.trans {s t : σ} (first : Reach step ok start s) (second : Reach step ok s t) :
    Reach step ok start t := by
  induction second with
  | refl => exact first
  | next _ meets moved ih => exact ih.next meets moved

/-- A predicate that holds at the start and is kept by every admitted step holds of
every state of the run. -/
theorem Reach.invariant {t : σ} (run : Reach step ok start t) (I : σ → Prop) (base : I start)
    (keep : ∀ s label u, ok s label → I s → step s label = some u → I u) : I t := by
  induction run with
  | refl => exact base
  | next _ meets moved ih => exact keep _ _ _ meets ih moved

/-- The same rule where the step may also use an invariant `J` established before. -/
theorem Reach.invariant_given {t : σ} (run : Reach step ok start t) (J I : σ → Prop)
    (known : ∀ s, Reach step ok start s → J s) (base : I start)
    (keep : ∀ s label u, ok s label → J s → I s → step s label = some u → I u) : I t := by
  induction run with
  | refl => exact base
  | next earlier meets moved ih => exact keep _ _ _ meets (known _ earlier) ih moved

/-- Where every step is a run of another system under a map of the states, so is every run. -/
theorem Reach.project {τ κ : Type} {step' : τ → κ → Option τ} {ok' : τ → κ → Prop} (f : σ → τ)
    {t : σ} (run : Reach step ok start t)
    (each : ∀ s label u, Reach step ok start s → ok s label → step s label = some u →
      Reach step' ok' (f s) (f u)) : Reach step' ok' (f start) (f t) := by
  induction run with
  | refl => exact .refl
  | next earlier meets moved ih => exact ih.trans (each _ _ _ earlier meets moved)

/-- `P` holds of the state and of every state that the labels lead to. A label without a step ends
the run. -/
def Throughout (step : σ → ℓ → Option σ) (P : σ → Prop) : σ → List ℓ → Prop
  | s, [] => P s
  | s, label :: rest => P s ∧ ∀ t, step s label = some t → Throughout step P t rest

def EachStep (step : σ → ℓ → Option σ) (ok : σ → ℓ → Prop) : σ → List ℓ → Prop
  | _, [] => True
  | s, label :: rest => ∀ t, step s label = some t → ok s label ∧ EachStep step ok t rest

theorem Throughout.here {P : σ → Prop} {s : σ} {labels : List ℓ}
    (throughout : Throughout step P s labels) : P s := by
  cases labels with
  | nil => exact throughout
  | cons label rest => exact throughout.1

theorem throughout_of_invariant {I P : σ → Prop} (holds : ∀ s, I s → P s)
    (keep : ∀ s label t, I s → step s label = some t → I t) {s : σ} (base : I s)
    (labels : List ℓ) : Throughout step P s labels := by
  induction labels generalizing s with
  | nil => exact holds s base
  | cons label rest ih => exact ⟨holds s base, fun t moved => ih (keep s label t base moved)⟩

/-- Where a step keeps `P` exactly if it meets `ok`, so do the runs. -/
theorem throughout_iff {I P : σ → Prop}
    (each : ∀ s label t, I s → P s → step s label = some t → I t ∧ (P t ↔ ok s label)) {s : σ}
    (base : I s) (holds : P s) (labels : List ℓ) :
    Throughout step P s labels ↔ EachStep step ok s labels := by
  induction labels generalizing s with
  | nil => exact iff_of_true holds trivial
  | cons label rest ih =>
      constructor
      · rintro ⟨_, later⟩ t moved
        obtain ⟨kept, exact_here⟩ := each s label t base holds moved
        have next := later t moved
        exact ⟨exact_here.mp next.here, (ih kept next.here).mp next⟩
      · intro steps
        refine ⟨holds, fun t moved => ?_⟩
        obtain ⟨kept, exact_here⟩ := each s label t base holds moved
        obtain ⟨meets, later⟩ := steps t moved
        exact (ih kept (exact_here.mpr meets)).mpr later

theorem reach_of_exec [∀ s label, Decidable (ok s label)] {s t : σ} (labels : List ℓ)
    (ran : exec (guarded step ok) s labels = some t) : Reach step ok s t := by
  induction labels generalizing s with
  | nil =>
      cases ran
      exact .refl
  | cons label rest ih =>
      simp only [exec, guarded] at ran
      split at ran
      · rename_i meets
        obtain ⟨u, moved, tail⟩ := Option.bind_eq_some_iff.mp ran
        exact (Reach.refl.next meets moved).trans (ih tail)
      · cases ran

theorem reach_of_observed [∀ s label, Decidable (ok s label)] {α : Type} (observe : σ → α) {a : α}
    (labels : List ℓ) (ran : (exec (guarded step ok) start labels).map observe = some a) :
    ∃ t, Reach step ok start t ∧ observe t = a := by
  obtain ⟨t, reached, observed⟩ := Option.map_eq_some_iff.mp ran
  exact ⟨t, reach_of_exec labels reached, observed⟩

/-- The run along some labels, each of whose steps meets `ok`. -/
inductive Path (step : σ → ℓ → Option σ) (ok : σ → ℓ → Prop) : σ → List ℓ → σ → Prop
  | nil {s : σ} : Path step ok s [] s
  | cons {s t u : σ} {label : ℓ} {rest : List ℓ} : ok s label → step s label = some t →
      Path step ok t rest u → Path step ok s (label :: rest) u

theorem Path.exec_eq {s t : σ} {labels : List ℓ} (path : Path step ok s labels t) :
    exec step s labels = some t := by
  induction path with
  | nil => rfl
  | cons _ moved _ ih => simp [exec, moved, ih]

theorem Path.mono {weaker : σ → ℓ → Prop} {s t : σ} {labels : List ℓ}
    (path : Path step ok s labels t) (weaken : ∀ s label, ok s label → weaker s label) :
    Path step weaker s labels t := by
  induction path with
  | nil => exact .nil
  | cons meets moved _ ih => exact .cons (weaken _ _ meets) moved ih

theorem Path.invariant {s t : σ} {labels : List ℓ} (path : Path step ok s labels t) (I : σ → Prop)
    (base : I s) (keep : ∀ s label u, ok s label → I s → step s label = some u → I u) : I t := by
  induction path with
  | nil => exact base
  | cons meets moved _ ih => exact ih (keep _ _ _ meets base moved)

theorem Path.forall_labels {s t : σ} {labels : List ℓ} (path : Path step ok s labels t)
    (P : ℓ → Prop) (admits : ∀ s label, ok s label → P label) : ∀ label ∈ labels, P label := by
  induction path with
  | nil => exact fun _ member => absurd member List.not_mem_nil
  | cons meets _ _ ih =>
      intro label member
      rcases List.mem_cons.mp member with rfl | later
      · exact admits _ _ meets
      · exact ih label later

theorem path_of_exec [∀ s label, Decidable (ok s label)] {s t : σ} (labels : List ℓ)
    (ran : exec (guarded step ok) s labels = some t) : Path step ok s labels t := by
  induction labels generalizing s with
  | nil =>
      cases ran
      exact .nil
  | cons label rest ih =>
      simp only [exec, guarded] at ran
      split at ran
      · rename_i meets
        obtain ⟨u, moved, tail⟩ := Option.bind_eq_some_iff.mp ran
        exact .cons meets moved (ih tail)
      · cases ran

def Occurred (step : σ → ℓ → Option σ) (ok : σ → ℓ → Prop) (start : σ) (P : σ → ℓ → Prop) (t : σ) :
    Prop :=
  ∃ s label u, Reach step ok start s ∧ ok s label ∧ step s label = some u ∧ P s label ∧
    Reach step ok u t

section Occurred

variable {P Q : σ → ℓ → Prop} {s t : σ} {label : ℓ}

theorem Occurred.next (occurred : Occurred step ok start P s) (meets : ok s label)
    (moved : step s label = some t) : Occurred step ok start P t := by
  obtain ⟨before, taken, after, reached, met, went, holds, later⟩ := occurred
  exact ⟨before, taken, after, reached, met, went, holds, later.next meets moved⟩

theorem Occurred.of_step (reached : Reach step ok start s) (meets : ok s label)
    (moved : step s label = some t) (holds : P s label) : Occurred step ok start P t :=
  ⟨s, label, t, reached, meets, moved, holds, .refl⟩

theorem Occurred.mono (occurred : Occurred step ok start P t)
    (weaken : ∀ s label, P s label → Q s label) : Occurred step ok start Q t := by
  obtain ⟨before, taken, after, reached, met, went, holds, later⟩ := occurred
  exact ⟨before, taken, after, reached, met, went, weaken _ _ holds, later⟩

end Occurred

end Transition
