import Minerva.Library.EsMap
import Minerva.Library.Transition
import Mathlib.Data.List.Perm.Subperm
import Mathlib.Algebra.GroupWithZero.Nat
import Mathlib.Data.Nat.Init

/-! Potentials. A step pays its cost out of the potential of the state or out of what its label
brings in, so the costs of a run are bounded by what its labels bring in. The potential of a map
adds up over its entries. -/

namespace EsMap

variable {κ ν : Type}

def total (measure : ν → Nat) (m : EsMap κ ν) : Nat :=
  (m.entries.map (fun entry => measure entry.2)).sum

theorem size_eq_total (m : EsMap κ ν) : m.size = m.total (fun _ => 1) := by
  simp [size, total]

variable [DecidableEq κ]

theorem sum_write (measure : ν → Nat) (key : κ) (value : ν) (entries : List (κ × ν)) :
    ((write key value entries).map (fun entry => measure entry.2)).sum +
        ((find key entries).map measure).getD 0 =
      (entries.map (fun entry => measure entry.2)).sum + measure value := by
  induction entries with
  | nil => simp [write, find]
  | cons head tail ih =>
      obtain ⟨k, v⟩ := head
      by_cases same : k = key
      · simp only [write, find, if_pos same, List.map_cons, List.sum_cons, Option.map_some,
          Option.getD_some]
        omega
      · simp only [write, find, if_neg same, List.map_cons, List.sum_cons]
        omega

theorem sum_delete (measure : ν → Nat) (key : κ) (entries : List (κ × ν))
    (distinct : (entries.map Prod.fst).Nodup) :
    ((entries.filter (fun entry => entry.1 ≠ key)).map (fun entry => measure entry.2)).sum +
        ((find key entries).map measure).getD 0 =
      (entries.map (fun entry => measure entry.2)).sum := by
  induction entries with
  | nil => simp [find]
  | cons head tail ih =>
      obtain ⟨k, v⟩ := head
      simp only [List.map_cons, List.nodup_cons] at distinct
      have rest := ih distinct.2
      by_cases same : k = key
      · subst same
        have absent : find k tail = none := by
          rw [find_eq_none]
          rintro entry member rfl
          exact distinct.1 (List.mem_map_of_mem member)
        simp only [absent, Option.map_none, Option.getD_none] at rest
        simp only [find, if_pos, ne_eq, not_true, decide_false, Bool.false_eq_true, not_false_eq_true,
          List.filter_cons_of_neg, List.map_cons, List.sum_cons, Option.map_some, Option.getD_some]
        simp only [ne_eq] at rest
        omega
      · have kept : decide ((k, v).1 ≠ key) = true := by simpa using same
        simp only [find, if_neg same, List.filter_cons, kept, if_true, List.map_cons, List.sum_cons]
        omega

theorem total_set (measure : ν → Nat) (m : EsMap κ ν) (key : κ) (value : ν) :
    (m.set key value).total measure + ((m.get key).map measure).getD 0 =
      m.total measure + measure value :=
  sum_write measure key value m.entries

theorem total_delete (measure : ν → Nat) (m : EsMap κ ν) (key : κ) :
    (m.delete key).total measure + ((m.get key).map measure).getD 0 = m.total measure :=
  sum_delete measure key m.entries m.distinct

theorem measure_le_total (measure : ν → Nat) {m : EsMap κ ν} {key : κ} {value : ν}
    (found : m.get key = some value) : measure value ≤ m.total measure := by
  have parts := m.total_delete measure key
  rw [found, Option.map_some, Option.getD_some] at parts
  omega

theorem size_set_of_present {m : EsMap κ ν} {key : κ} {old : ν} (found : m.get key = some old)
    (value : ν) : (m.set key value).size = m.size := by
  have parts := m.total_set (fun _ => 1) key value
  rw [found, ← size_eq_total, ← size_eq_total] at parts
  simpa using parts

theorem size_set_of_absent {m : EsMap κ ν} {key : κ} (absent : m.get key = none) (value : ν) :
    (m.set key value).size = m.size + 1 := by
  have parts := m.total_set (fun _ => 1) key value
  rw [absent, ← size_eq_total, ← size_eq_total] at parts
  simpa using parts

theorem size_set_le (m : EsMap κ ν) (key : κ) (value : ν) :
    (m.set key value).size ≤ m.size + 1 := by
  cases found : m.get key with
  | none => exact Nat.le_of_eq (size_set_of_absent found value)
  | some old =>
      rw [size_set_of_present found]
      omega

theorem size_delete_of_present {m : EsMap κ ν} {key : κ} {old : ν} (found : m.get key = some old) :
    (m.delete key).size + 1 = m.size := by
  have parts := m.total_delete (fun _ => 1) key
  rw [found, ← size_eq_total, ← size_eq_total] at parts
  simpa using parts

theorem size_delete_le (m : EsMap κ ν) (key : κ) : (m.delete key).size ≤ m.size := by
  have parts := m.total_delete (fun _ => 1) key
  rw [← size_eq_total, ← size_eq_total] at parts
  omega

theorem length_le_size {m : EsMap κ ν} {keys : List κ} (distinct : keys.Nodup)
    (present : ∀ key ∈ keys, m.get key ≠ none) : keys.length ≤ m.size := by
  have inside : keys ⊆ m.entries.map Prod.fst := by
    intro key member
    obtain ⟨value, found⟩ := Option.ne_none_iff_exists'.mp (present key member)
    exact List.mem_map.mpr ⟨(key, value), (m.get_eq_some_iff key value).mp found, rfl⟩
  simpa [size] using (distinct.subperm inside).length_le

end EsMap

namespace Transition

variable {σ ℓ : Type} {step : σ → ℓ → Option σ} {ok : σ → ℓ → Prop}

/-- What the labels of a run bring in bounds how many of its steps are counted, where each of these
takes at least one from the potential. -/
theorem Path.potential {s t : σ} {labels : List ℓ} (path : Path step ok s labels t) (Φ : σ → Nat)
    (counted : ℓ → Bool) (gain : ℓ → Nat) (I : σ → Prop) (base : I s)
    (keep : ∀ s label u, ok s label → I s → step s label = some u → I u)
    (pays : ∀ s label u, ok s label → I s → step s label = some u →
      (if counted label then 1 else 0) + Φ u ≤ gain label + Φ s) :
    labels.countP counted + Φ t ≤ (labels.map gain).sum + Φ s := by
  induction path with
  | nil => simp
  | cons meets moved rest ih =>
      have here := pays _ _ _ meets base moved
      have later := ih (keep _ _ _ meets base moved)
      simp only [List.countP_cons, List.map_cons, List.sum_cons]
      omega

theorem Path.reach {start s t : σ} {labels : List ℓ} (path : Path step ok s labels t)
    (earlier : Reach step ok start s) : Reach step ok start t := by
  induction path with
  | nil => exact earlier
  | cons meets moved _ ih => exact ih (earlier.next meets moved)

/-- Where every state that is not at rest has a step that lowers the potential, a run leads to
rest. -/
theorem exists_path_to_rest {Rest : σ → Prop} (Φ : σ → Nat) (I : σ → Prop)
    (keep : ∀ s label u, ok s label → I s → step s label = some u → I u)
    (progress : ∀ s, I s → ¬Rest s → ∃ label u, ok s label ∧ step s label = some u ∧ Φ u < Φ s)
    (s : σ) (base : I s) : ∃ labels t, Path step ok s labels t ∧ Rest t := by
  induction bound : Φ s using Nat.strong_induction_on generalizing s with
  | h n ih =>
      by_cases rest : Rest s
      · exact ⟨[], s, .nil, rest⟩
      · obtain ⟨label, u, meets, moved, lower⟩ := progress s base rest
        obtain ⟨labels, t, path, rested⟩ :=
          ih (Φ u) (bound ▸ lower) u (keep s label u meets base moved) rfl
        exact ⟨label :: labels, t, .cons meets moved path, rested⟩

end Transition
