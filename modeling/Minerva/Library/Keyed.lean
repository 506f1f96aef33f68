import Mathlib.Logic.Function.Basic

namespace Keyed

variable {ι α κ : Type*} {key : α → Option κ} {p p' : ι → Option α}

def Apart (key : α → Option κ) (p : ι → Option α) : Prop :=
  ∀ id id' a a' k, p id = some a → p id' = some a' → key a = some k → key a' = some k → id = id'

namespace Apart

theorem change (apart : Apart key p) (id : ι) (others : ∀ id', id' ≠ id → p' id' = p id')
    (alone : ∀ a k, p' id = some a → key a = some k →
      ∀ id' other, p id' = some other → key other = some k → id' = id) : Apart key p' := by
  intro first second a a' k found found' holds holds'
  by_cases here : first = id
  · subst here
    by_cases there : second = first
    · exact there.symm
    · rw [others second there] at found'
      exact absurd (alone a k found holds second a' found' holds') there
  · rw [others first here] at found
    by_cases there : second = id
    · subst there
      exact alone a' k found' holds' first a found holds
    · rw [others second there] at found'
      exact apart first second a a' k found found' holds holds'

variable [DecidableEq ι]

theorem update (apart : Apart key p) (id : ι) (next : Option α)
    (alone : ∀ a k, next = some a → key a = some k →
      ∀ id' other, p id' = some other → key other = some k → id' = id) :
    Apart key (Function.update p id next) := by
  apply apart.change id
  · intro id' different
    exact Function.update_of_ne different _ _
  · intro a k found
    rw [Function.update_self] at found
    exact alone a k found

theorem update_of_inherited (apart : Apart key p) {id : ι} {before : α} (found : p id = some before)
    (next : Option α) (inherited : ∀ a k, next = some a → key a = some k → key before = some k) :
    Apart key (Function.update p id next) := by
  apply apart.update
  intro a k goes holds id' other found' holds'
  exact apart id' id other before k found' found holds' (inherited a k goes holds)

end Apart

end Keyed
