import Mathlib.Data.List.Nodup
import Mathlib.Data.List.Lookmap

/-! Insertion-ordered finite maps with the operations of an ECMAScript `Map`.
Writing a key that is present keeps its place; a new key goes to the end. -/

/-- The entries in insertion order; no key occurs twice. -/
structure EsMap (κ ν : Type) where
  entries : List (κ × ν)
  distinct : (entries.map Prod.fst).Nodup

namespace EsMap

variable {κ ν : Type}

def empty : EsMap κ ν := ⟨[], List.nodup_nil⟩

def size (m : EsMap κ ν) : Nat := m.entries.length

def keys (m : EsMap κ ν) : List κ := m.entries.map Prod.fst

def values (m : EsMap κ ν) : List ν := m.entries.map Prod.snd

variable [DecidableEq κ]

def find (key : κ) : List (κ × ν) → Option ν
  | [] => none
  | (k, v) :: rest => if k = key then some v else find key rest

def write (key : κ) (value : ν) : List (κ × ν) → List (κ × ν)
  | [] => [(key, value)]
  | (k, v) :: rest => if k = key then (key, value) :: rest else (k, v) :: write key value rest

theorem mem_keys_write (key k : κ) (value : ν) (entries : List (κ × ν)) :
    k ∈ (write key value entries).map Prod.fst ↔ k = key ∨ k ∈ entries.map Prod.fst := by
  induction entries with
  | nil => simp [write]
  | cons head tail ih =>
      obtain ⟨k', v'⟩ := head
      by_cases same : k' = key
      · subst same
        simp [write]
      · simp only [write, if_neg same, List.map_cons, List.mem_cons, ih]
        tauto

theorem write_nodup (key : κ) (value : ν) (entries : List (κ × ν))
    (distinct : (entries.map Prod.fst).Nodup) : ((write key value entries).map Prod.fst).Nodup := by
  induction entries with
  | nil => simp [write]
  | cons head tail ih =>
      obtain ⟨k', v'⟩ := head
      simp only [List.map_cons, List.nodup_cons] at distinct
      by_cases same : k' = key
      · subst same
        simpa [write] using distinct
      · simp only [write, if_neg same, List.map_cons, List.nodup_cons, mem_keys_write]
        refine ⟨?_, ih distinct.2⟩
        rintro (equal | member)
        · exact same equal
        · exact distinct.1 member

theorem delete_nodup (key : κ) (entries : List (κ × ν))
    (distinct : (entries.map Prod.fst).Nodup) :
    ((entries.filter (fun entry => entry.1 ≠ key)).map Prod.fst).Nodup :=
  distinct.sublist (List.filter_sublist.map Prod.fst)

def get (m : EsMap κ ν) (key : κ) : Option ν := find key m.entries

def has (m : EsMap κ ν) (key : κ) : Bool := (m.get key).isSome

def set (m : EsMap κ ν) (key : κ) (value : ν) : EsMap κ ν :=
  ⟨write key value m.entries, write_nodup key value m.entries m.distinct⟩

def delete (m : EsMap κ ν) (key : κ) : EsMap κ ν :=
  ⟨m.entries.filter (fun entry => entry.1 ≠ key), delete_nodup key m.entries m.distinct⟩

theorem find_write (key k : κ) (value : ν) (entries : List (κ × ν)) :
    find k (write key value entries) = if k = key then some value else find k entries := by
  induction entries with
  | nil => simp [write, find, eq_comm]
  | cons head tail ih =>
      obtain ⟨k', v'⟩ := head
      by_cases same : k' = key
      · subst same
        by_cases asked : k' = k
        · simp [write, find, asked]
        · simp [write, find, asked, Ne.symm asked]
      · simp only [write, if_neg same, find, ih]
        by_cases asked : k' = k
        · subst asked
          simp [same]
        · simp [asked]

theorem find_delete (key k : κ) (entries : List (κ × ν)) :
    find k (entries.filter (fun entry => entry.1 ≠ key)) =
      if k = key then none else find k entries := by
  induction entries with
  | nil => simp [find]
  | cons head tail ih =>
      obtain ⟨k', v'⟩ := head
      by_cases same : k' = key
      · subst same
        by_cases asked : k' = k
        · subst asked
          simpa using ih
        · simpa [find, asked, Ne.symm asked] using ih
      · simp only [List.filter_cons, decide_not, same, decide_false, Bool.not_false, if_true, find]
        by_cases asked : k' = k
        · subst asked
          simp [same]
        · simpa [asked] using ih

theorem write_write (key : κ) (first value : ν) (entries : List (κ × ν)) :
    write key value (write key first entries) = write key value entries := by
  induction entries with
  | nil => simp [write]
  | cons head tail ih =>
      obtain ⟨k', v'⟩ := head
      by_cases same : k' = key
      · simp [write, same]
      · simp [write, same, ih]

@[simp] theorem set_set (m : EsMap κ ν) (key : κ) (first value : ν) :
    (m.set key first).set key value = m.set key value := by
  simp only [set, write_write]

theorem find_eq_none (key : κ) (entries : List (κ × ν)) :
    find key entries = none ↔ ∀ entry ∈ entries, entry.1 ≠ key := by
  induction entries with
  | nil => simp [find]
  | cons head tail ih =>
      obtain ⟨k', v'⟩ := head
      by_cases same : k' = key <;> simp [find, same, ih]

theorem delete_of_absent (m : EsMap κ ν) (key : κ) (absent : m.get key = none) :
    m.delete key = m := by
  have kept : m.entries.filter (fun entry => entry.1 ≠ key) = m.entries := by
    apply List.filter_eq_self.mpr
    intro entry member
    simpa using (find_eq_none key m.entries).mp absent entry member
  cases m
  simp only [delete] at kept ⊢
  congr

@[grind =] theorem get_set (m : EsMap κ ν) (key k : κ) (value : ν) :
    (m.set key value).get k = if k = key then some value else m.get k :=
  find_write key k value m.entries

@[grind =] theorem get_delete (m : EsMap κ ν) (key k : κ) :
    (m.delete key).get k = if k = key then none else m.get k :=
  find_delete key k m.entries

theorem get_set_eq_update (m : EsMap κ ν) (key : κ) (value : ν) :
    (m.set key value).get = Function.update m.get key (some value) := by
  funext k
  rw [get_set, Function.update_apply]

theorem get_delete_eq_update (m : EsMap κ ν) (key : κ) :
    (m.delete key).get = Function.update m.get key none := by
  funext k
  rw [get_delete, Function.update_apply]

@[simp] theorem get_set_self (m : EsMap κ ν) (key : κ) (value : ν) :
    (m.set key value).get key = some value := by
  rw [get_set, if_pos rfl]

theorem get_set_of_ne (m : EsMap κ ν) (key k : κ) (value : ν) (other : k ≠ key) :
    (m.set key value).get k = m.get k := by
  rw [get_set, if_neg other]

theorem get_set_cases (m : EsMap κ ν) (key : κ) {k : κ} {value other : ν}
    (found : (m.set key value).get k = some other) :
    k = key ∧ other = value ∨ k ≠ key ∧ m.get k = some other := by
  by_cases same : k = key
  · rw [same, get_set_self] at found
    exact .inl ⟨same, (Option.some.inj found).symm⟩
  · rw [get_set_of_ne m key k value same] at found
    exact .inr ⟨same, found⟩

@[simp] theorem get_delete_self (m : EsMap κ ν) (key : κ) : (m.delete key).get key = none := by
  rw [get_delete, if_pos rfl]

theorem get_delete_of_ne (m : EsMap κ ν) (key k : κ) (other : k ≠ key) :
    (m.delete key).get k = m.get k := by
  rw [get_delete, if_neg other]

theorem get_of_get_delete (m : EsMap κ ν) (key : κ) {k : κ} {value : ν}
    (found : (m.delete key).get k = some value) : k ≠ key ∧ m.get k = some value := by
  by_cases same : k = key
  · rw [same, get_delete_self] at found
    cases found
  · rw [get_delete_of_ne m key k same] at found
    exact ⟨same, found⟩

theorem find_eq_some_iff (key : κ) (value : ν) (entries : List (κ × ν))
    (distinct : (entries.map Prod.fst).Nodup) :
    find key entries = some value ↔ (key, value) ∈ entries := by
  induction entries with
  | nil => simp [find]
  | cons head tail ih =>
      obtain ⟨k', v'⟩ := head
      simp only [List.map_cons, List.nodup_cons] at distinct
      by_cases same : k' = key
      · subst same
        have absent : (k', value) ∉ tail := fun member =>
          distinct.1 (List.mem_map.mpr ⟨_, member, rfl⟩)
        simp [find, absent, eq_comm]
      · simp [find, same, Ne.symm same, ih distinct.2]

theorem get_eq_some_iff (m : EsMap κ ν) (key : κ) (value : ν) :
    m.get key = some value ↔ (key, value) ∈ m.entries :=
  find_eq_some_iff key value m.entries m.distinct

theorem forall_entries_iff (m : EsMap κ ν) (P : κ → ν → Prop) :
    (∀ entry ∈ m.entries, P entry.1 entry.2) ↔ ∀ key value, m.get key = some value → P key value := by
  constructor
  · intro all key value found
    exact all (key, value) ((get_eq_some_iff m key value).mp found)
  · intro all entry member
    exact all entry.1 entry.2 ((get_eq_some_iff m entry.1 entry.2).mpr member)

theorem mem_values_iff (m : EsMap κ ν) (value : ν) :
    value ∈ m.values ↔ ∃ key, m.get key = some value := by
  simp only [values, get_eq_some_iff, List.mem_map]
  constructor
  · rintro ⟨⟨key, value⟩, member, rfl⟩
    exact ⟨key, member⟩
  · rintro ⟨key, member⟩
    exact ⟨(key, value), member, rfl⟩

/-- Among the items of all lists of a map, those that belong to a key are those that it lists, if
every list holds items of its own key only. -/
theorem filter_values_flatten {α : Type} (m : EsMap κ (List α)) (key : κ) (keyOf : α → κ)
    (filed : ∀ k, ∀ item ∈ (m.get k).getD [], keyOf item = k) :
    m.values.flatten.filter (fun item => keyOf item = key) = (m.get key).getD [] := by
  obtain ⟨entries, distinct⟩ := m
  have own : ∀ entry ∈ entries, ∀ item ∈ entry.2, keyOf item = entry.1 := by
    intro entry member item inside
    have found := (find_eq_some_iff entry.1 entry.2 entries distinct).mpr member
    apply filed entry.1 item
    rw [get, found]
    exact inside
  clear filed
  simp only [values, get]
  induction entries with
  | nil => rfl
  | cons head tail ih =>
      obtain ⟨k, items⟩ := head
      simp only [List.map_cons, List.nodup_cons] at distinct
      have rest := ih distinct.2 (fun entry member => own entry (List.mem_cons_of_mem _ member))
      have first := own (k, items) List.mem_cons_self
      simp only [List.map_cons, List.flatten_cons, List.filter_append, find]
      by_cases same : k = key
      · subst same
        have absent : find k tail = none := by
          rw [find_eq_none]
          rintro entry member rfl
          exact distinct.1 (List.mem_map_of_mem member)
        rw [rest, absent, List.filter_eq_self.mpr (fun item inside => by simpa using first item inside)]
        simp
      · rw [rest, List.filter_eq_nil_iff.mpr (fun item inside => by simpa [first item inside] using same)]
        simp [same]

theorem entries_eq_nil_iff (m : EsMap κ ν) : m.entries = [] ↔ ∀ key, m.get key = none := by
  constructor
  · intro none key
    simp [get, none, find]
  · intro absent
    cases listed : m.entries with
    | nil => rfl
    | cons head tail =>
        have found := (get_eq_some_iff m head.1 head.2).mpr (by simp [listed])
        simp [absent] at found

end EsMap
