import Mathlib.Data.List.TakeWhile

namespace Regex

/-- The ways in which a pattern matches at a place, in the order in which backtracking tries them.
Each splits the text there into what is matched and what is left; the first argument is the
character before the place. -/
abbrev Pattern := Option Char → List Char → List (List Char × List Char)

def before (prev : Option Char) (consumed : List Char) : Option Char := consumed.getLast?.or prev

def one (accepts : Char → Bool) : Pattern
  | _, [] => []
  | _, c :: rest => if accepts c then [([c], rest)] else []

def seq (first second : Pattern) : Pattern := fun prev text =>
  (first prev text).flatMap (fun way =>
    (second (before prev way.1) way.2).map (fun next => (way.1 ++ next.1, next.2)))

def letters (same : Char → Char → Bool) : List Char → Pattern
  | [] => fun _ text => [([], text)]
  | c :: word => seq (one (same c)) (letters same word)

def greedyWays (accepts : Char → Bool) : List Char → List (List Char × List Char)
  | [] => [([], [])]
  | c :: rest =>
    if accepts c then
      (greedyWays accepts rest).map (fun way => (c :: way.1, way.2)) ++ [([], c :: rest)]
    else [([], c :: rest)]

def lazyWays (accepts : Char → Bool) : List Char → List (List Char × List Char)
  | [] => [([], [])]
  | c :: rest =>
    ([], c :: rest) ::
      if accepts c then (lazyWays accepts rest).map (fun way => (c :: way.1, way.2)) else []

/-- `x+` -/
def plus (accepts : Char → Bool) : Pattern := seq (one accepts) (fun _ => greedyWays accepts)

/-- `x+?` -/
def lazyPlus (accepts : Char → Bool) : Pattern := seq (one accepts) (fun _ => lazyWays accepts)

/-- `x*?` -/
def lazyStar (accepts : Char → Bool) : Pattern := fun _ => lazyWays accepts

def assertion (holds : Option Char → List Char → Bool) : Pattern := fun prev text =>
  if holds prev text then [([], text)] else []

def captureAt (front group back : Pattern) (prev : Option Char) (text : List Char) :
    List (List Char) :=
  (front prev text).flatMap (fun way =>
    (group (before prev way.1) way.2).flatMap (fun inside =>
      (back (before (before prev way.1) inside.1) inside.2).map (fun _ => inside.1)))

def firstPlace {β : Type} (find : Option Char → List Char → Option β) :
    Option Char → List Char → Option β
  | prev, [] => find prev []
  | prev, c :: rest => (find prev (c :: rest)).or (firstPlace find (some c) rest)

theorem firstPlace_map {β γ : Type} (find : Option Char → List Char → Option β) (f : β → γ)
    (prev : Option Char) (text : List Char) :
    (firstPlace find prev text).map f =
      firstPlace (fun prev text => (find prev text).map f) prev text := by
  induction text generalizing prev with
  | nil => rfl
  | cons c rest ih =>
      rw [firstPlace, firstPlace, ← ih]
      cases find prev (c :: rest) <;> rfl

theorem firstPlace_start {β : Type} {find : Option Char → List Char → Option β}
    (start : ∀ c text, find (some c) text = none) (text : List Char) :
    firstPlace find none text = find none text := by
  have later (c : Char) (text : List Char) : firstPlace find (some c) text = none := by
    induction text generalizing c with
    | nil => exact start c []
    | cons d rest ih => rw [firstPlace, start, ih, Option.or_none]
  cases text with
  | nil => rfl
  | cons c rest => rw [firstPlace, later, Option.or_none]

/-- The group of the first match, at the first place that has one. -/
def search (front group back : Pattern) (text : List Char) : Option (List Char) :=
  firstPlace (fun prev text => (captureAt front group back prev text).head?) none text

def lastSuffix {β : Type} (find : List Char → Option β) : List Char → Option β
  | [] => find []
  | c :: rest => (lastSuffix find rest).or (find (c :: rest))

def upTo (stop : List Char → Bool) : List Char → List Char
  | [] => []
  | c :: rest => if stop (c :: rest) then [] else c :: upTo stop rest

theorem upTo_append (stop : List Char → Bool) (text rest : List Char)
    (goes_on : ∀ part, part ≠ [] → part <:+ text → stop (part ++ rest) = false) :
    upTo stop (text ++ rest) = text ++ upTo stop rest := by
  induction text with
  | nil => rfl
  | cons c more ih =>
      have here := goes_on (c :: more) (List.cons_ne_nil _ _) List.suffix_rfl
      have later := ih (fun part filled behind =>
        goes_on part filled (behind.trans (List.suffix_cons c more)))
      rw [List.cons_append, upTo, ← List.cons_append, here, later]
      rfl

theorem lastSuffix_append {β : Type} {find : List Char → Option β} {text : List Char} {result : β}
    (found : lastSuffix find text = some result) (front : List Char) :
    lastSuffix find (front ++ text) = some result := by
  induction front with
  | nil => exact found
  | cons c front ih =>
      rw [List.cons_append, lastSuffix, ih]
      rfl

theorem lastSuffix_none {β : Type} {find : List Char → Option β} {text : List Char}
    (absent : lastSuffix find text = none) : ∀ rest, rest <:+ text → find rest = none := by
  induction text with
  | nil =>
      intro rest behind
      rw [List.suffix_nil.mp behind]
      exact absent
  | cons c more ih =>
      obtain ⟨later, here⟩ := Option.or_eq_none_iff.mp absent
      intro rest behind
      rcases List.suffix_cons_iff.mp behind with rfl | inside
      · exact here
      · exact ih later rest inside

theorem lastSuffix_eq_none {β : Type} {find : List Char → Option β} {text : List Char}
    (absent : ∀ rest, rest <:+ text → find rest = none) : lastSuffix find text = none := by
  induction text with
  | nil => exact absent [] List.suffix_rfl
  | cons c more ih =>
      rw [lastSuffix, absent _ List.suffix_rfl,
        ih (fun rest behind => absent rest (behind.trans (List.suffix_cons c more)))]
      rfl

section Ways

variable {β : Type} (accepts : Char → Bool) (find : List Char → Option β)

theorem findSome_greedy_longest (stuck : ∀ c rest, accepts c = true → find (c :: rest) = none)
    (text : List Char) : (greedyWays accepts text).findSome? (fun way => find way.2) =
      find (text.dropWhile accepts) := by
  induction text with
  | nil => simp [greedyWays]
  | cons c rest ih =>
      by_cases accepted : accepts c = true
      · rw [greedyWays, if_pos accepted, List.findSome?_append, List.findSome?_map,
          List.dropWhile_cons_of_pos accepted]
        simp only [Function.comp_def, ih, List.findSome?_singleton, stuck c rest accepted,
          Option.or_none]
      · rw [greedyWays, if_neg accepted, List.dropWhile_cons_of_neg accepted,
          List.findSome?_singleton]

theorem findSome_greedy_shortest
    (kept : ∀ c rest result, find rest = some result → find (c :: rest) = some result)
    (text : List Char) :
    (greedyWays accepts text).findSome? (fun way => find way.2) = find text := by
  induction text with
  | nil => simp [greedyWays]
  | cons c rest ih =>
      by_cases accepted : accepts c = true
      · rw [greedyWays, if_pos accepted, List.findSome?_append, List.findSome?_map]
        simp only [Function.comp_def, ih, List.findSome?_singleton]
        cases later : find rest with
        | none => simp
        | some result => simp [kept c rest result later]
      · rw [greedyWays, if_neg accepted, List.findSome?_singleton]

theorem findSome_greedy_any (text : List Char) :
    (greedyWays (fun _ => true) text).findSome? (fun way => find way.2) = lastSuffix find text := by
  induction text with
  | nil => simp [greedyWays, lastSuffix]
  | cons c rest ih =>
      rw [greedyWays, if_pos rfl, List.findSome?_append, List.findSome?_map, lastSuffix, ← ih]
      simp only [Function.comp_def, List.findSome?_singleton]

theorem findSome_lazy_any (stop : List Char → Bool) (ends : stop [] = true) (text : List Char) :
    (lazyWays (fun _ => true) text).findSome? (fun way => if stop way.2 then some way.1 else none) =
      some (upTo stop text) := by
  induction text with
  | nil => simp [lazyWays, upTo, ends]
  | cons c rest ih =>
      rw [lazyWays, List.findSome?_cons, upTo]
      by_cases here : stop (c :: rest) = true
      · simp [here]
      · have later : (fun way : List Char × List Char => if stop way.2 then some (c :: way.1) else none) =
            fun way => (if stop way.2 then some way.1 else none).map (c :: ·) := by
          funext way
          split <;> rfl
        simp only [if_neg here, if_pos, List.findSome?_map, Function.comp_def, later]
        exact List.map_findSome?.symm.trans (congrArg (Option.map (c :: ·)) ih)

theorem findSome_flatMap {γ δ : Type} (f : γ → List δ) (g : δ → Option β) (items : List γ) :
    (items.flatMap f).findSome? g = items.findSome? (fun item => (f item).findSome? g) := by
  induction items with
  | nil => rfl
  | cons item rest ih =>
      rw [List.flatMap_cons, List.findSome?_append, ih, List.findSome?_cons]
      cases (f item).findSome? g <;> rfl

theorem findSome_seq (first second : Pattern) (prev : Option Char) (text : List Char) :
    (seq first second prev text).findSome? (fun way => find way.2) =
      (first prev text).findSome? (fun way =>
        (second (before prev way.1) way.2).findSome? (fun next => find next.2)) := by
  unfold seq
  rw [findSome_flatMap]
  simp only [List.findSome?_map, Function.comp_def]

theorem findSome_seq_of {first second : Pattern} {find result : List Char → Option β}
    (later : ∀ prev text, (second prev text).findSome? (fun way => find way.2) = result text)
    (prev : Option Char) (text : List Char) :
    (seq first second prev text).findSome? (fun way => find way.2) =
      (first prev text).findSome? (fun way => result way.2) := by
  rw [findSome_seq]
  simp only [later]

theorem findSome_assertion (holds : Option Char → List Char → Bool) (prev : Option Char)
    (text : List Char) : (assertion holds prev text).findSome? (fun way => find way.2) =
      if holds prev text then find text else none := by
  by_cases here : holds prev text = true <;> simp [assertion, here]

def afterOne (accepts : Char → Bool) (find : List Char → Option β) : List Char → Option β
  | [] => none
  | c :: rest => if accepts c then find rest else none

theorem findSome_one (prev : Option Char) (text : List Char) :
    (one accepts prev text).findSome? (fun way => find way.2) = afterOne accepts find text := by
  cases text with
  | nil => rfl
  | cons c rest => by_cases accepted : accepts c = true <;> simp [one, afterOne, accepted]

def afterWord (same : Char → Char → Bool) : List Char → List Char → Option (List Char)
  | [], text => some text
  | _ :: _, [] => none
  | c :: word, d :: rest => if same c d then afterWord same word rest else none

theorem afterWord_exact_iff (same : Char → Char → Bool) (exact : ∀ c d, same c d = true ↔ c = d)
    (word text rest : List Char) : afterWord same word text = some rest ↔ text = word ++ rest := by
  induction word generalizing text with
  | nil => exact Option.some_inj
  | cons c word ih =>
      cases text with
      | nil => simp [afterWord]
      | cons d more =>
          by_cases matched : c = d
          · rw [afterWord, if_pos ((exact c d).mpr matched), ih, matched]
            simp
          · rw [afterWord, if_neg (fun found => matched ((exact c d).mp found))]
            simp [Ne.symm matched]

theorem findSome_letters (same : Char → Char → Bool) (word : List Char) (prev : Option Char)
    (text : List Char) : (letters same word prev text).findSome? (fun way => find way.2) =
      (afterWord same word text).bind find := by
  induction word generalizing prev text with
  | nil => simp [letters, afterWord]
  | cons c word ih =>
      rw [letters, findSome_seq_of ih,
        findSome_one (same c) (fun rest => (afterWord same word rest).bind find)]
      cases text with
      | nil => rfl
      | cons d rest =>
          rw [afterOne, afterWord]
          split <;> rfl

theorem findSome_plus (prev : Option Char) (text : List Char) :
    (plus accepts prev text).findSome? (fun way => find way.2) =
      afterOne accepts (fun rest => (greedyWays accepts rest).findSome? (fun way => find way.2))
        text := by
  have greedy (prev : Option Char) (text : List Char) :
      ((fun _ => greedyWays accepts : Pattern) prev text).findSome? (fun way => find way.2) =
        (greedyWays accepts text).findSome? (fun way => find way.2) := rfl
  rw [plus, findSome_seq_of greedy]
  exact findSome_one accepts
    (fun rest => (greedyWays accepts rest).findSome? (fun way => find way.2)) prev text

theorem findSome_plus_longest
    (stuck : ∀ c rest, accepts c = true → find (c :: rest) = none) (prev : Option Char)
    (text : List Char) : (plus accepts prev text).findSome? (fun way => find way.2) =
      afterOne accepts (fun rest => find (rest.dropWhile accepts)) text := by
  rw [findSome_plus]
  simp only [findSome_greedy_longest accepts find stuck]

theorem findSome_plus_shortest
    (kept : ∀ c rest result, find rest = some result → find (c :: rest) = some result)
    (prev : Option Char) (text : List Char) :
    (plus accepts prev text).findSome? (fun way => find way.2) = afterOne accepts find text := by
  rw [findSome_plus]
  simp only [findSome_greedy_shortest accepts find kept]

theorem findSome_plus_any (prev : Option Char) (text : List Char) :
    (plus (fun _ => true) prev text).findSome? (fun way => find way.2) =
      afterOne (fun _ => true) (lastSuffix find) text := by
  rw [findSome_plus]
  simp only [findSome_greedy_any find]

end Ways

section Search

variable (stop : List Char → Bool) (front : Pattern)

/-- The shortest group up to a place where the test holds, of one character at least. -/
def someUpTo : List Char → Option (List Char)
  | [] => none
  | c :: rest => some (c :: upTo stop rest)

theorem captureAt_lazyPlus (ends : stop [] = true) (prev : Option Char) (text : List Char) :
    (captureAt front (lazyPlus (fun _ => true)) (assertion (fun _ rest => stop rest)) prev text).head? =
      (front prev text).findSome? (fun way => someUpTo stop way.2) := by
  unfold captureAt
  rw [List.head?_flatMap]
  congr 1
  funext way
  rw [List.head?_flatMap]
  cases way.2 with
  | nil => rfl
  | cons c rest =>
      have tried : (lazyPlus (fun _ => true) (before prev way.1) (c :: rest)) =
          (lazyWays (fun _ => true) rest).map (fun next => (c :: next.1, next.2)) := by
        simp [lazyPlus, seq, one]
      have shifted : (fun next : List Char × List Char =>
            if stop next.2 then some (c :: next.1) else none) =
          Option.map (c :: ·) ∘ fun next => if stop next.2 then some next.1 else none := by
        funext next
        simp only [Function.comp_apply]
        split <;> rfl
      have found := congrArg (Option.map (c :: ·)) (findSome_lazy_any stop ends rest)
      rw [List.map_findSome?, ← shifted] at found
      rw [tried, List.findSome?_map, someUpTo, ← Option.map_some, ← found]
      congr 1
      funext next
      simp only [Function.comp_apply, assertion]
      split <;> rfl

theorem captureAt_lazyStar (ends : stop [] = true) (prev : Option Char) (text : List Char) :
    (captureAt front (lazyStar (fun _ => true)) (assertion (fun _ rest => stop rest)) prev text).head? =
      (front prev text).findSome? (fun way => some (upTo stop way.2)) := by
  unfold captureAt
  rw [List.head?_flatMap]
  congr 1
  funext way
  rw [List.head?_flatMap, lazyStar, ← findSome_lazy_any stop ends way.2]
  congr 1
  funext next
  simp only [assertion]
  split <;> rfl

def run (accepts : Char → Bool) : List Char → Option (List Char)
  | [] => none
  | c :: rest => if accepts c then some (c :: rest.takeWhile accepts) else none

theorem head_greedyWays (accepts : Char → Bool) (text : List Char) : ∃ others,
    greedyWays accepts text = (text.takeWhile accepts, text.dropWhile accepts) :: others := by
  induction text with
  | nil => exact ⟨[], rfl⟩
  | cons c rest ih =>
      by_cases accepted : accepts c = true
      · obtain ⟨others, listed⟩ := ih
        rw [greedyWays, if_pos accepted, listed, List.takeWhile_cons_of_pos accepted,
          List.dropWhile_cons_of_pos accepted]
        exact ⟨_, rfl⟩
      · rw [greedyWays, if_neg accepted, List.takeWhile_cons_of_neg accepted,
          List.dropWhile_cons_of_neg accepted]
        exact ⟨[], rfl⟩

theorem captureAt_plus (accepts ends : Char → Bool) (rest_ends : ∀ c, accepts c = false → ends c = true)
    (prev : Option Char) (text : List Char) :
    (captureAt front (plus accepts) (assertion (fun _ rest => rest.head?.all ends)) prev text).head? =
      (front prev text).findSome? (fun way => run accepts way.2) := by
  unfold captureAt
  rw [List.head?_flatMap]
  congr 1
  funext way
  cases way.2 with
  | nil => rfl
  | cons c rest =>
      by_cases accepted : accepts c = true
      · obtain ⟨others, listed⟩ := head_greedyWays accepts rest
        have stops : (rest.dropWhile accepts).head?.all ends = true := by
          cases left : rest.dropWhile accepts with
          | nil => rfl
          | cons d more =>
              have refused := List.head?_dropWhile_not accepts rest
              rw [left] at refused
              simpa using rest_ends d (by simpa using refused)
        simp [plus, seq, one, accepted, listed, run, assertion, stops]
      · simp [plus, seq, one, accepted, run]

end Search

end Regex
