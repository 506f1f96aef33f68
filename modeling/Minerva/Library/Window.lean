import Mathlib.Data.List.DropRight
import Mathlib.Data.List.Nodup

namespace Window

variable {α κ : Type}

/-- An item comes; when there are then too many, the oldest one goes. -/
def push (capacity : Nat) (window : List α) (item : α) : List α :=
  if (window ++ [item]).length > capacity then (window ++ [item]).tail else window ++ [item]

theorem rtake_suffix (capacity : Nat) (log : List α) : log.rtake capacity <:+ log :=
  List.drop_suffix _ _

theorem length_rtake (capacity : Nat) (log : List α) :
    (log.rtake capacity).length = min log.length capacity := by
  rw [List.rtake, List.length_drop]
  omega

theorem push_rtake (capacity : Nat) (log : List α) (item : α) :
    push capacity (log.rtake capacity) item = (log ++ [item]).rtake capacity := by
  unfold push
  rw [List.length_append, length_rtake, List.length_singleton]
  by_cases full : capacity ≤ log.length
  · rw [if_pos (by omega)]
    calc (log.rtake capacity ++ [item]).tail
        = ((log ++ [item]).drop (log.length - capacity)).tail := by
          rw [List.rtake, List.drop_append_of_le_length (Nat.sub_le _ _)]
      _ = (log ++ [item]).drop (log.length - capacity + 1) := List.tail_drop
      _ = (log ++ [item]).rtake capacity := by
          rw [List.rtake, List.length_append, List.length_singleton,
            Nat.sub_add_comm full]
  · rw [if_neg (by omega)]
    have short : log.length - capacity = 0 := by omega
    have short' : (log ++ [item]).length - capacity = 0 := by
      rw [List.length_append, List.length_singleton]
      omega
    rw [List.rtake, List.rtake, short, short', List.drop_zero, List.drop_zero]

theorem nodup_of_parts [DecidableEq κ] (key : α → κ) (items : List α)
    (parts : ∀ k, (items.filter (fun item => key item = k)).Nodup) : items.Nodup := by
  induction items with
  | nil => exact List.nodup_nil
  | cons item rest ih =>
      rw [List.nodup_cons]
      constructor
      · intro member
        have own := parts (key item)
        rw [List.filter_cons_of_pos (by simp), List.nodup_cons] at own
        exact own.1 (List.mem_filter.mpr ⟨member, by simp⟩)
      · apply ih
        intro k
        exact (parts k).sublist ((List.sublist_cons_self item rest).filter _)

end Window
