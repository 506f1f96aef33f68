import Minerva.Library.EsMap
import Mathlib.Data.List.Induction
import Mathlib.Data.List.Sort

namespace Grouping

variable {α κ : Type} [DecidableEq κ] (key : α → κ)

def insertInto (groups : EsMap κ (List α)) (item : α) : EsMap κ (List α) :=
  groups.set (key item) ((groups.get (key item)).getD [] ++ [item])

def groupBy (items : List α) : EsMap κ (List α) := items.foldl (insertInto key) .empty

def firstKeys : List α → List κ
  | [] => []
  | item :: rest => key item :: (firstKeys rest).filter (fun k => k ≠ key item)

def ofKey (k : κ) (items : List α) : List α := items.filter (fun item => key item = k)

theorem mem_firstKeys (items : List α) (k : κ) : k ∈ firstKeys key items ↔ k ∈ items.map key := by
  induction items with
  | nil => rfl
  | cons item rest ih =>
      simp only [firstKeys, List.mem_cons, List.mem_filter, ih, List.map_cons]
      by_cases same : k = key item <;> simp [same]

theorem firstKeys_nodup (items : List α) : (firstKeys key items).Nodup := by
  induction items with
  | nil => exact List.nodup_nil
  | cons item rest ih =>
      exact List.nodup_cons.mpr ⟨by simp, ih.filter _⟩

theorem firstKeys_sublist (items : List α) : (firstKeys key items).Sublist (items.map key) := by
  induction items with
  | nil => exact List.Sublist.slnil
  | cons item rest ih => exact (List.filter_sublist.trans ih).cons_cons _

theorem firstKeys_append_singleton (items : List α) (last : α) :
    firstKeys key (items ++ [last]) =
      if key last ∈ items.map key then firstKeys key items
      else firstKeys key items ++ [key last] := by
  induction items with
  | nil => rfl
  | cons item rest ih =>
      simp only [List.cons_append, firstKeys, ih, List.map_cons, List.mem_cons]
      by_cases known : key last ∈ rest.map key
      · rw [if_pos known, if_pos (.inr known)]
      · by_cases same : key last = key item
        · rw [if_neg known, if_pos (.inl same)]
          simp [same]
        · rw [if_neg known, if_neg (not_or.mpr ⟨same, known⟩)]
          simp [same]

variable {key} {ν : Type}

theorem find_tabulated (keys : List κ) (value : κ → ν) (k : κ) :
    EsMap.find k (keys.map (fun k => (k, value k))) = if k ∈ keys then some (value k) else none := by
  induction keys with
  | nil => rfl
  | cons head rest ih =>
      by_cases same : head = k
      · subst same
        simp [EsMap.find]
      · simp [EsMap.find, same, Ne.symm same, ih]

theorem write_tabulated (keys : List κ) (distinct : keys.Nodup) (value : κ → ν) (k : κ) (v : ν) :
    EsMap.write k v (keys.map (fun k => (k, value k))) =
      (if k ∈ keys then keys else keys ++ [k]).map
        (fun other => (other, if other = k then v else value other)) := by
  induction keys with
  | nil => simp [EsMap.write]
  | cons head rest ih =>
      obtain ⟨apart, later⟩ := List.nodup_cons.mp distinct
      by_cases same : head = k
      · subst same
        simp only [List.map_cons, EsMap.write, if_true, List.mem_cons_self]
        congr 1
        apply List.map_congr_left
        intro other member
        have differs : other ≠ head := by
          rintro rfl
          exact apart member
        simp [differs]
      · simp only [List.map_cons, EsMap.write, if_neg same, ih later, List.mem_cons, Ne.symm same,
          false_or]
        by_cases member : k ∈ rest <;> simp [member, same]

theorem groupBy_append_singleton (items : List α) (last : α) :
    groupBy key (items ++ [last]) = insertInto key (groupBy key items) last := by
  simp [groupBy]

theorem get_eq_find (m : EsMap κ ν) (k : κ) : m.get k = EsMap.find k m.entries := rfl

/-- The groups come in the order of their keys' first appearance, each with the items of its key
in the order of the list. -/
theorem entries_groupBy (key : α → κ) (items : List α) :
    (groupBy key items).entries =
      (firstKeys key items).map (fun k => (k, ofKey key k items)) := by
  induction items using List.reverseRecOn with
  | nil => rfl
  | append_singleton items last ih =>
      have found : (groupBy key items).get (key last) =
          if key last ∈ firstKeys key items then some (ofKey key (key last) items) else none := by
        rw [get_eq_find, ih, find_tabulated]
      have before : ((groupBy key items).get (key last)).getD [] =
          ofKey key (key last) items := by
        rw [found]
        by_cases known : key last ∈ firstKeys key items
        · rw [if_pos known]
          rfl
        · rw [if_neg known]
          symm
          apply List.filter_eq_nil_iff.mpr
          intro item member
          have absent : key item ≠ key last := by
            intro same
            exact known ((mem_firstKeys key items _).mpr (List.mem_map.mpr ⟨item, member, same⟩))
          simpa using absent
      rw [groupBy_append_singleton, insertInto, before]
      change EsMap.write _ _ (groupBy key items).entries = _
      rw [ih, write_tabulated _ (firstKeys_nodup key items), firstKeys_append_singleton]
      simp only [mem_firstKeys]
      apply List.map_congr_left
      intro k member
      congr 1
      by_cases same : k = key last
      · subst same
        simp [ofKey]
      · simp [ofKey, same, Ne.symm same]

def regrouped (key : α → κ) (items : List α) : List α := (groupBy key items).values.flatten

theorem regrouped_eq (items : List α) :
    regrouped key items = (firstKeys key items).flatMap (fun k => ofKey key k items) := by
  simp [regrouped, EsMap.values, entries_groupBy, List.flatMap, Function.comp_def]

theorem mem_ofKey (items : List α) (k : κ) (item : α) :
    item ∈ ofKey key k items ↔ item ∈ items ∧ key item = k := by
  simp [ofKey]

theorem pair_sublist_firstKeys (items : List α) (k k' : κ) :
    [k, k'].Sublist (firstKeys key items) ↔ k ≠ k' ∧ k' ∈ items.map key ∧
      (items.filter (fun item => key item = k ∨ key item = k')).head?.map key = some k := by
  induction items with
  | nil => simp [firstKeys]
  | cons item rest ih =>
      rw [firstKeys, List.sublist_cons_iff]
      by_cases first : key item = k
      · subst first
        have absent : ¬[key item, k'].Sublist
            ((firstKeys key rest).filter (fun k => k ≠ key item)) := by
          intro listed
          simpa using listed.subset List.mem_cons_self
        simp only [absent, false_or, List.filter_cons, true_or, decide_true, if_true,
          List.head?_cons, Option.map_some, and_true, List.map_cons, List.mem_cons]
        constructor
        · rintro ⟨tail, same, listed⟩
          cases same
          have member := List.mem_filter.mp (List.singleton_sublist.mp listed)
          have differs : k' ≠ key item := by simpa using member.2
          exact ⟨Ne.symm differs, .inr ((mem_firstKeys key rest k').mp member.1)⟩
        · rintro ⟨differs, member⟩
          refine ⟨[k'], rfl, List.singleton_sublist.mpr (List.mem_filter.mpr ?_)⟩
          have later := member.resolve_left (Ne.symm differs)
          exact ⟨(mem_firstKeys key rest k').mpr later, by simpa using Ne.symm differs⟩
      · by_cases second : key item = k'
        · subst second
          constructor
          · rintro (listed | ⟨tail, same, _⟩)
            · have member := listed.subset (List.mem_cons_of_mem _ (List.mem_singleton_self _))
              simp at member
            · cases same
              exact absurd rfl first
          · rintro ⟨-, -, head⟩
            simp [first] at head
        · have skipped : [k, k'].Sublist ((firstKeys key rest).filter (fun k => k ≠ key item)) ↔
              [k, k'].Sublist (firstKeys key rest) := by
            constructor
            · intro listed
              exact listed.trans List.filter_sublist
            · intro listed
              have kept := listed.filter (fun k => decide (k ≠ key item))
              simpa [Ne.symm first, Ne.symm second] using kept
          rw [skipped, ih]
          simp [first, second, Ne.symm first, Ne.symm second]

section Sorted

variable {r : α → α → Prop} [DecidableRel r]

def least (r : α → α → Prop) [DecidableRel r] : List α → Option α
  | [] => none
  | item :: rest =>
    match least r rest with
    | none => some item
    | some other => if r item other then some item else some other

theorem least_eq_head (items : List α) : least r items = (items.insertionSort r).head? := by
  induction items with
  | nil => rfl
  | cons item rest ih =>
      rw [least, ih, List.insertionSort_cons]
      cases sorted : rest.insertionSort r with
      | nil => rfl
      | cons head tail =>
          by_cases first : r item head <;> simp [first]

/-- Of the items with one of two keys, the first least one has the first key. -/
def Leads (r : α → α → Prop) [DecidableRel r] (key : α → κ) (items : List α) (k k' : κ) : Prop :=
  (least r (items.filter (fun item => key item = k ∨ key item = k'))).map key = some k

instance (items : List α) (k k' : κ) : Decidable (Leads r key items k k') :=
  inferInstanceAs (Decidable (_ = _))

variable [Std.Total r] [IsTrans α r]

omit [Std.Total r] in
theorem filter_orderedInsert (p : α → Bool) (a : α) {items : List α} (sorted : items.Pairwise r) :
    (items.orderedInsert r a).filter p =
      if p a then (items.filter p).orderedInsert r a else items.filter p := by
  induction items with
  | nil => cases accepted : p a <;> simp [accepted]
  | cons b rest ih =>
      have ⟨below, later⟩ := List.pairwise_cons.mp sorted
      by_cases first : r a b
      · rw [List.orderedInsert_cons_of_le _ _ first]
        cases accepted : p a with
        | false => simp [accepted]
        | true =>
            simp only [List.filter_cons, accepted, if_true]
            cases kept : p b with
            | true => simp [first]
            | false =>
                simp only [Bool.false_eq_true, if_false]
                cases remaining : rest.filter p with
                | nil => rfl
                | cons c later =>
                    have member : c ∈ rest := (List.mem_filter.mp
                      (remaining ▸ List.mem_cons_self)).1
                    have before : r a c := IsTrans.trans a b c first (below c member)
                    rw [List.orderedInsert_cons_of_le _ _ before]
      · rw [List.orderedInsert_of_not_le _ _ first, List.filter_cons, ih later]
        cases accepted : p a <;> cases kept : p b <;> simp [kept, first]

theorem filter_insertionSort (p : α → Bool) (items : List α) :
    (items.insertionSort r).filter p = (items.filter p).insertionSort r := by
  induction items with
  | nil => rfl
  | cons a rest ih =>
      rw [List.insertionSort_cons, filter_orderedInsert p a (List.pairwise_insertionSort r rest), ih]
      cases accepted : p a <;> simp [accepted]

theorem leads_iff_head (items : List α) (k k' : κ) :
    Leads r key items k k' ↔ ((items.insertionSort r).filter
      (fun item => key item = k ∨ key item = k')).head?.map key = some k := by
  rw [Leads, least_eq_head, filter_insertionSort]

/-- Grouping keeps a sorted list sorted exactly when, of any two keys, no item of the leading one
is above an item of the other. -/
theorem sorted_regrouped_iff (r : α → α → Prop) [DecidableRel r] [Std.Total r] [IsTrans α r]
    (key : α → κ) (items : List α) :
    (regrouped key (items.insertionSort r)).Pairwise r ↔
      ∀ item ∈ items, ∀ other ∈ items, key item ≠ key other →
        Leads r key items (key item) (key other) → r item other := by
  have sorted := List.pairwise_insertionSort r items
  have same (item : α) : item ∈ items.insertionSort r ↔ item ∈ items := List.mem_insertionSort r
  rw [regrouped_eq, List.pairwise_flatMap, List.pairwise_iff_forall_sublist]
  constructor
  · rintro ⟨_, across⟩ item member other also differs leads
    have before := (pair_sublist_firstKeys (items.insertionSort r) (key item) (key other)).mpr
      ⟨differs, List.mem_map.mpr ⟨other, (same other).mpr also, rfl⟩,
        (leads_iff_head items _ _).mp leads⟩
    exact across before item ((mem_ofKey _ _ _).mpr ⟨(same item).mpr member, rfl⟩) other
      ((mem_ofKey _ _ _).mpr ⟨(same other).mpr also, rfl⟩)
  · intro apart
    refine ⟨?_, ?_⟩
    · intro k _
      exact sorted.filter _
    · intro k k' before item inside other also
      have ⟨differs, _, head⟩ := (pair_sublist_firstKeys _ k k').mp before
      obtain ⟨member, rfl⟩ := (mem_ofKey _ _ _).mp inside
      obtain ⟨listed, rfl⟩ := (mem_ofKey _ _ _).mp also
      exact apart item ((same item).mp member) other ((same other).mp listed) differs
        ((leads_iff_head items _ _).mpr head)

end Sorted

end Grouping
