import Mathlib.Data.List.Range

/-! A counter that numbers what is published. It is also drawn from by others, who publish
nothing, and it is reset now and then. -/

namespace Numbering

inductive Use where
  | publish
  | spend
  | reset
  deriving DecidableEq

def Use.advance (current : Nat) : Use → Nat
  | .publish => current + 1
  | .spend => current + 1
  | .reset => 0

def published : Nat → List Use → List Nat
  | _, [] => []
  | current, .publish :: rest => (current + 1) :: published (current + 1) rest
  | current, .spend :: rest => published (current + 1) rest
  | _, .reset :: rest => published 0 rest

/-- What has been published and drawn, as far as the next number depends on it. -/
structure Tally where
  /-- published since the last reset -/
  sent : Nat
  /-- drawn and not published since the last reset -/
  spent : Nat
  /-- published before the last reset -/
  lost : Nat

namespace Tally

def zero : Tally := ⟨0, 0, 0⟩

def count (t : Tally) : Use → Tally
  | .publish => { t with sent := t.sent + 1 }
  | .spend => { t with spent := t.spent + 1 }
  | .reset => ⟨0, 0, t.lost + t.sent⟩

end Tally

def tally (uses : List Use) : Tally := uses.foldl Tally.count .zero

/-- Whenever something is published, as many numbers have been drawn and not published since the
last reset as had been published before it. -/
def Balanced (uses : List Use) : Prop :=
  ∀ before after, uses = before ++ .publish :: after → (tally before).spent = (tally before).lost

theorem at_publications_cons (t : Tally) (use : Use) (rest : List Use) (P : Tally → Prop) :
    (∀ before after, use :: rest = before ++ .publish :: after → P (before.foldl Tally.count t)) ↔
      (use = .publish → P t) ∧ ∀ before after, rest = before ++ .publish :: after →
        P (before.foldl Tally.count (t.count use)) := by
  constructor
  · intro all
    constructor
    · rintro rfl
      exact all [] rest rfl
    · intro before after split
      exact all (use :: before) after (by rw [split, List.cons_append])
  · rintro ⟨first, others⟩ before after split
    cases before with
    | nil => exact first (List.cons.inj split).1
    | cons head tail =>
        rw [List.cons_append] at split
        obtain ⟨same, tail_eq⟩ := List.cons.inj split
        rw [← same]
        exact others tail after tail_eq

theorem published_from_iff (uses : List Use) (t : Tally) :
    published (t.sent + t.spent) uses = List.range' (t.lost + t.sent + 1) (uses.count .publish) ↔
      ∀ before after, uses = before ++ .publish :: after →
        (before.foldl Tally.count t).spent = (before.foldl Tally.count t).lost := by
  induction uses generalizing t with
  | nil => simp [published]
  | cons use rest ih =>
      rw [at_publications_cons t use rest (fun t => t.spent = t.lost), ← ih (t.count use)]
      cases use with
      | publish =>
          have first : t.sent + t.spent + 1 = t.lost + t.sent + 1 ↔ t.spent = t.lost := by omega
          have drawn : t.sent + 1 + t.spent = t.sent + t.spent + 1 := by omega
          have next : t.lost + (t.sent + 1) = t.lost + t.sent + 1 := by omega
          simp only [published, Tally.count, List.count_cons_self, List.range'_succ,
            List.cons.injEq, first, drawn, next, true_implies]
      | spend =>
          simp [published, Tally.count, Nat.add_assoc]
      | reset =>
          simp [published, Tally.count]

theorem published_iff (uses : List Use) :
    published 0 uses = List.range' 1 (uses.count .publish) ↔ Balanced uses :=
  published_from_iff uses .zero

instance (uses : List Use) : Decidable (Balanced uses) := decidable_of_iff _ (published_iff uses)

theorem length_published (current : Nat) (uses : List Use) :
    (published current uses).length = uses.count .publish := by
  induction uses generalizing current with
  | nil => rfl
  | cons use rest ih => cases use <;> simp [published, ih]

theorem current_le (current : Nat) (uses : List Use) (kept : .reset ∉ uses) :
    current ≤ uses.foldl Use.advance current := by
  induction uses generalizing current with
  | nil => exact Nat.le_refl _
  | cons use rest ih =>
      obtain ⟨here, later⟩ := not_or.mp (fun member => kept (List.mem_cons.mpr member))
      have first : current ≤ use.advance current := by
        cases use with
        | publish => exact Nat.le_succ _
        | spend => exact Nat.le_succ _
        | reset => exact absurd rfl here
      exact Nat.le_trans first (ih _ later)

theorem published_increasing (current : Nat) (uses : List Use) (kept : .reset ∉ uses) :
    (published current uses).Pairwise (· < ·) ∧ ∀ number ∈ published current uses,
      current < number ∧ number ≤ uses.foldl Use.advance current := by
  induction uses generalizing current with
  | nil => simp [published]
  | cons use rest ih =>
      obtain ⟨here, later⟩ := not_or.mp (fun member => kept (List.mem_cons.mpr member))
      obtain ⟨sorted, bounded⟩ := ih (current + 1) later
      cases use with
      | publish =>
          refine ⟨List.pairwise_cons.mpr ⟨fun number member => (bounded number member).1, sorted⟩, ?_⟩
          intro number member
          rcases List.mem_cons.mp member with rfl | member
          · exact ⟨Nat.lt_succ_self _, current_le _ rest later⟩
          · exact ⟨Nat.lt_of_succ_lt (bounded number member).1, (bounded number member).2⟩
      | spend =>
          refine ⟨sorted, ?_⟩
          intro number member
          exact ⟨Nat.lt_of_succ_lt (bounded number member).1, (bounded number member).2⟩
      | reset => exact absurd rfl here

end Numbering
