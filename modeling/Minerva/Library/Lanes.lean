import Mathlib.Logic.Function.Basic

namespace Lanes

variable {κ α : Type}

def empty : κ → List α := fun _ => []

def push [DecidableEq κ] (lanes : κ → List α) (key : κ) (item : α) : κ → List α :=
  Function.update lanes key (lanes key ++ [item])

def pop [DecidableEq κ] (lanes : κ → List α) (key : κ) : κ → List α :=
  Function.update lanes key (lanes key).tail

open Classical in
noncomputable def home (lanes : κ → List α) (item : α) : Option κ :=
  if held : ∃ key, item ∈ lanes key then some held.choose else none

noncomputable def withdraw [DecidableEq κ] [DecidableEq α] (lanes : κ → List α) (item : α) :
    κ → List α :=
  match home lanes item with
  | none => lanes
  | some key => Function.update lanes key ((lanes key).erase item)

noncomputable def place [DecidableEq α] (lanes : κ → List α) (item : α) : Option Nat :=
  (home lanes item).bind (fun key => (lanes key).idxOf? item)

variable {lanes : κ → List α} {item : α} {key : κ}

theorem home_eq_none (absent : ∀ key, item ∉ lanes key) : home lanes item = none :=
  dif_neg (not_exists.mpr absent)

theorem home_eq_some (member : item ∈ lanes key)
    (apart : ∀ other, item ∈ lanes other → other = key) : home lanes item = some key := by
  have held : ∃ key, item ∈ lanes key := ⟨key, member⟩
  rw [home, dif_pos held, apart held.choose held.choose_spec]

theorem isSome_place [DecidableEq α] (lanes : κ → List α) (item : α) :
    (place lanes item).isSome = (home lanes item).isSome := by
  unfold place home
  by_cases held : ∃ key, item ∈ lanes key
  · rw [dif_pos held, Option.bind_some, Option.isSome_some]
    exact List.isSome_idxOf?.mpr held.choose_spec
  · rw [dif_neg held, Option.bind_none]
    rfl

end Lanes
