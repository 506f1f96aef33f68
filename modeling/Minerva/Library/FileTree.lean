import Mathlib.Data.List.Forall2
import Mathlib.Data.List.Perm.Basic

/-- A file with its bytes, or a directory with its own size and its entries as they are listed. -/
inductive FileTree (ν : Type) where
  | file (bytes : List UInt8)
  | directory (size : Nat) (entries : List (ν × FileTree ν))

namespace FileTree

variable {ν : Type}

/-- A file below a directory: the names on the way to it, its own name last, and its bytes. -/
abbrev Located (ν : Type) := List ν × List UInt8

def size : FileTree ν → Nat
  | .file bytes => bytes.length
  | .directory size _ => size

def isDirectory : FileTree ν → Bool
  | .file _ => false
  | .directory _ _ => true

inductive Distinct : FileTree ν → Prop
  | file (bytes : List UInt8) : Distinct (.file bytes)
  | directory (size : Nat) {entries : List (ν × FileTree ν)} :
      (entries.map Prod.fst).Nodup → (∀ entry ∈ entries, Distinct entry.2) →
        Distinct (.directory size entries)

theorem Distinct.names {size : Nat} {entries : List (ν × FileTree ν)}
    (distinct : Distinct (.directory size entries)) : (entries.map Prod.fst).Nodup := by
  cases distinct with
  | directory _ names _ => exact names

theorem Distinct.inside {size : Nat} {entries : List (ν × FileTree ν)}
    (distinct : Distinct (.directory size entries)) {name : ν} {node : FileTree ν}
    (member : (name, node) ∈ entries) : Distinct node := by
  cases distinct with
  | directory _ _ below => exact below (name, node) member

variable [DecidableEq ν]

def entry (name : ν) : FileTree ν → Option (FileTree ν)
  | .file _ => none
  | .directory _ entries => entries.lookup name

def here (name : ν) : ν × FileTree ν → List (Located ν)
  | (own, .file bytes) => if own = name then [([own], bytes)] else []
  | (_, .directory _ _) => []

mutual

def named (name : ν) : FileTree ν → List (Located ν)
  | .file _ => []
  | .directory _ entries => namedIn name entries

def namedIn (name : ν) : List (ν × FileTree ν) → List (Located ν)
  | [] => []
  | (own, node) :: rest =>
    here name (own, node) ++ (named name node).map (fun found => (own :: found.1, found.2)) ++
      namedIn name rest

end

theorem named_directory (name : ν) (size : Nat) (entries : List (ν × FileTree ν)) :
    named name (.directory size entries) = entries.flatMap (fun entry =>
      here name entry ++ (named name entry.2).map (fun found => (entry.1 :: found.1, found.2))) := by
  show namedIn name entries = _
  induction entries with
  | nil => rfl
  | cons entry rest ih =>
      simp only [namedIn, List.flatMap_cons, ih]

theorem length_here (name : ν) (entry : ν × FileTree ν) :
    ∀ found ∈ here name entry, found.1.length = 1 := by
  intro found member
  obtain ⟨own, node⟩ := entry
  cases node with
  | file bytes =>
      simp only [here] at member
      split at member
      · rw [List.mem_singleton.mp member]
        rfl
      · cases member
  | directory size entries => cases member

theorem named_nonempty (name : ν) (tree : FileTree ν) :
    ∀ found ∈ named name tree, 0 < found.1.length := by
  intro found member
  cases tree with
  | file bytes => cases member
  | directory size entries =>
      rw [named_directory] at member
      obtain ⟨entry, _, inside⟩ := List.mem_flatMap.mp member
      rcases List.mem_append.mp inside with own | below
      · rw [length_here name entry found own]
        exact Nat.one_pos
      · obtain ⟨deeper, _, rfl⟩ := List.mem_map.mp below
        exact Nat.succ_pos _

theorem named_at_one (name : ν) (size : Nat) (entries : List (ν × FileTree ν)) :
    (named name (.directory size entries)).filter (fun found => found.1.length = 1) =
      entries.flatMap (here name) := by
  rw [named_directory, List.filter_flatMap]
  congr 1
  funext entry
  rw [List.filter_append]
  have own : (here name entry).filter (fun found => found.1.length = 1) = here name entry := by
    apply List.filter_eq_self.mpr
    intro found member
    exact decide_eq_true (length_here name entry found member)
  have below : ((named name entry.2).map (fun found => (entry.1 :: found.1, found.2))).filter
      (fun found => found.1.length = 1) = [] := by
    apply List.filter_eq_nil_iff.mpr
    intro found member
    obtain ⟨deeper, inside, rfl⟩ := List.mem_map.mp member
    have long := named_nonempty name entry.2 deeper inside
    simp only [List.length_cons, decide_eq_true_eq]
    omega
  rw [own, below, List.append_nil]

theorem named_at_succ (name : ν) (size : Nat) (entries : List (ν × FileTree ν)) (depth : Nat) :
    (named name (.directory size entries)).filter (fun found => found.1.length = depth + 2) =
      entries.flatMap (fun entry =>
        ((named name entry.2).filter (fun found => found.1.length = depth + 1)).map
          (fun found => (entry.1 :: found.1, found.2))) := by
  rw [named_directory, List.filter_flatMap]
  congr 1
  funext entry
  rw [List.filter_append, List.filter_map]
  have own : (here name entry).filter (fun found => found.1.length = depth + 2) = [] := by
    apply List.filter_eq_nil_iff.mpr
    intro found member
    have short := length_here name entry found member
    simp only [decide_eq_true_eq]
    omega
  rw [own, List.nil_append]
  congr 2
  funext found
  simp

def fileAt (name : ν) (tree : FileTree ν) : Option (List UInt8) :=
  match tree.entry name with
  | some (.file bytes) => some bytes
  | _ => none

theorem entry_of_mem (size : Nat) {entries : List (ν × FileTree ν)}
    (distinct : (entries.map Prod.fst).Nodup) {name : ν} {node : FileTree ν}
    (member : (name, node) ∈ entries) : entry name (.directory size entries) = some node := by
  show entries.lookup name = some node
  induction entries with
  | nil => cases member
  | cons first rest ih =>
      rw [List.map_cons, List.nodup_cons] at distinct
      obtain ⟨own, tree⟩ := first
      rw [List.lookup_cons]
      rcases List.mem_cons.mp member with same | later
      · cases same
        simp
      · have other : name ≠ own := by
          rintro rfl
          exact distinct.1 (List.mem_map.mpr ⟨(name, node), later, rfl⟩)
        rw [beq_eq_false_iff_ne.mpr other]
        exact ih distinct.2 later

theorem entry_of_listed (size : Nat) {entries : List (ν × FileTree ν)} {name : ν}
    (listed : name ∈ entries.map Prod.fst) :
    ∃ node, entry name (.directory size entries) = some node := by
  apply Option.isSome_iff_exists.mp
  obtain ⟨⟨own, node⟩, member, rfl⟩ := List.mem_map.mp listed
  exact List.lookup_isSome_iff.mpr ⟨(own, node), member, beq_self_eq_true own⟩

theorem here_eq_nil {name : ν} {entries : List (ν × FileTree ν)}
    (absent : name ∉ entries.map Prod.fst) : entries.flatMap (here name) = [] := by
  apply List.flatMap_eq_nil_iff.mpr
  intro entry member
  obtain ⟨own, node⟩ := entry
  cases node with
  | directory size sub => rfl
  | file bytes =>
      apply if_neg
      rintro rfl
      exact absent (List.mem_map_of_mem member)

theorem flatMap_here {size : Nat} {entries : List (ν × FileTree ν)} (name : ν)
    (distinct : (entries.map Prod.fst).Nodup) :
    entries.flatMap (here name) =
      ((fileAt name (.directory size entries)).map (fun bytes => ([name], bytes))).toList := by
  unfold fileAt
  show _ = ((match entries.lookup name with
    | some (.file bytes) => some bytes
    | _ => none).map (fun bytes => ([name], bytes))).toList
  induction entries with
  | nil => rfl
  | cons first rest ih =>
      rw [List.map_cons, List.nodup_cons] at distinct
      obtain ⟨own, node⟩ := first
      rw [List.flatMap_cons, List.lookup_cons]
      by_cases same : name = own
      · subst same
        rw [here_eq_nil distinct.1, List.append_nil, beq_self_eq_true]
        cases node with
        | file bytes => simp [here]
        | directory size sub => rfl
      · have none_here : here name (own, node) = [] := by
          cases node with
          | file bytes => exact if_neg (Ne.symm same)
          | directory size sub => rfl
        rw [none_here, List.nil_append, beq_eq_false_iff_ne.mpr same]
        exact ih distinct.2

theorem named_at_two (name : ν) {size : Nat} {entries : List (ν × FileTree ν)}
    (distinct : Distinct (.directory size entries)) :
    (named name (.directory size entries)).filter (fun found => found.1.length = 2) =
      entries.flatMap (fun entry =>
        ((fileAt name entry.2).map (fun bytes => ([entry.1, name], bytes))).toList) := by
  rw [named_at_succ name size entries 0]
  apply List.flatMap_congr
  intro entry member
  obtain ⟨own, node⟩ := entry
  cases node with
  | file bytes => rfl
  | directory size sub =>
      have inside := distinct.inside member
      rw [Nat.zero_add, named_at_one, flatMap_here name inside.names]
      cases fileAt name (.directory size sub) <;> rfl

theorem mem_of_entry {size : Nat} {entries : List (ν × FileTree ν)} {name : ν} {node : FileTree ν}
    (found : entry name (.directory size entries) = some node) : (name, node) ∈ entries := by
  obtain ⟨before, after, split, -⟩ := List.lookup_eq_some_iff.mp found
  rw [split]
  exact List.mem_append_right _ List.mem_cons_self

/-- What stands at a path below a node: a file with its bytes, or a directory. -/
def stands : List ν → FileTree ν → Option (Option (List UInt8))
  | [], .file bytes => some (some bytes)
  | [], .directory _ _ => some none
  | name :: path, tree => (tree.entry name).bind (stands path)

/-- The same stands at every path, in whatever order the directories list their entries. -/
def Alike (left right : FileTree ν) : Prop := ∀ path, stands path left = stands path right

theorem stands_nil (tree : FileTree ν) : (stands [] tree).isSome = true := by
  cases tree <;> rfl

theorem Alike.symm {left right : FileTree ν} (alike : Alike left right) : Alike right left :=
  fun path => (alike path).symm

theorem Alike.entry {left right node : FileTree ν} (alike : Alike left right) {name : ν}
    (found : left.entry name = some node) : ∃ other, right.entry name = some other ∧
      Alike node other := by
  have below (path : List ν) : stands path node = (right.entry name).bind (stands path) := by
    have same := alike (name :: path)
    simp only [stands, found, Option.bind_some] at same
    exact same
  cases there : right.entry name with
  | none =>
      have nothing := below []
      rw [there] at nothing
      have something := stands_nil node
      rw [nothing] at something
      cases something
  | some other =>
      refine ⟨other, rfl, ?_⟩
      intro path
      rw [below path, there, Option.bind_some]

theorem alike_of_entries {size own : Nat} {entries listed : List (ν × FileTree ν)}
    (same : ∀ name path, (entries.lookup name).bind (stands path) =
      (listed.lookup name).bind (stands path)) :
    Alike (.directory size entries) (.directory own listed) := by
  intro path
  cases path with
  | nil => rfl
  | cons name path => exact same name path

theorem alike_of_perm {size own : Nat} {entries listed : List (ν × FileTree ν)}
    (distinct : (entries.map Prod.fst).Nodup) (perm : entries.Perm listed) :
    Alike (.directory size entries) (.directory own listed) := by
  apply alike_of_entries
  intro name path
  have other := (perm.map Prod.fst).nodup_iff.mp distinct
  cases found : entry name (.directory size entries) with
  | some node =>
      have there := entry_of_mem own other (perm.mem_iff.mp (mem_of_entry found))
      exact congrArg (fun node => node.bind (stands path)) (found.trans there.symm)
  | none =>
      have absent : listed.lookup name = none := by
        cases there : entry name (.directory own listed) with
        | none => exact there
        | some node =>
            rw [entry_of_mem size distinct (perm.mem_iff.mpr (mem_of_entry there))] at found
            cases found
      exact congrArg (fun node => node.bind (stands path)) (found.trans absent.symm)

theorem alike_of_forall₂ {size own : Nat} {entries listed : List (ν × FileTree ν)}
    (each : List.Forall₂ (fun a b => a.1 = b.1 ∧ Alike a.2 b.2) entries listed) :
    Alike (.directory size entries) (.directory own listed) := by
  apply alike_of_entries
  intro name path
  induction each with
  | nil => rfl
  | @cons a b entries listed both _ ih =>
      obtain ⟨own, node⟩ := a
      obtain ⟨other, there⟩ := b
      obtain ⟨rfl, alike⟩ := both
      rw [List.lookup_cons, List.lookup_cons]
      cases name == own with
      | true => exact alike path
      | false => exact ih

theorem Alike.file {right : FileTree ν} {bytes : List UInt8} (alike : Alike (.file bytes) right) :
    right = .file bytes := by
  have here := alike []
  cases right with
  | file own =>
      cases here
      rfl
  | directory size entries => cases here

theorem Alike.directory {right : FileTree ν} {size : Nat} {entries : List (ν × FileTree ν)}
    (alike : Alike (.directory size entries) right) :
    ∃ own listed, right = .directory own listed := by
  have here := alike []
  cases right with
  | file bytes => cases here
  | directory own listed => exact ⟨own, listed, rfl⟩

theorem fileAt_eq (name : ν) (tree : FileTree ν) : fileAt name tree = (stands [name] tree).join := by
  simp only [fileAt, stands]
  cases tree.entry name with
  | none => rfl
  | some node => cases node <;> rfl

theorem Alike.fileAt {left right : FileTree ν} (alike : Alike left right) (name : ν) :
    FileTree.fileAt name left = FileTree.fileAt name right := by
  rw [fileAt_eq, fileAt_eq, alike]

theorem Alike.names {size own : Nat} {entries listed : List (ν × FileTree ν)}
    (alike : Alike (.directory size entries) (.directory own listed))
    (distinct : (entries.map Prod.fst).Nodup) (distinct' : (listed.map Prod.fst).Nodup) :
    (entries.map Prod.fst).Perm (listed.map Prod.fst) := by
  have along {size own : Nat} {entries listed : List (ν × FileTree ν)}
      (alike : Alike (.directory size entries) (.directory own listed)) {name : ν}
      (member : name ∈ entries.map Prod.fst) : name ∈ listed.map Prod.fst := by
    obtain ⟨node, found⟩ := entry_of_listed size member
    obtain ⟨other, there, -⟩ := alike.entry found
    exact List.mem_map_of_mem (mem_of_entry there)
  exact (List.perm_ext_iff_of_nodup distinct distinct').mpr
    (fun name => ⟨along alike, along alike.symm⟩)

end FileTree
