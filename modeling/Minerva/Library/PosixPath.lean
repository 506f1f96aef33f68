import Minerva.Library.Joined

/-! Paths with the operations of `path.posix` in Node. A path is read as its list of segments. -/

namespace PosixPath

abbrev Segment := List Char

def dot : Segment := ['.']

def dotdot : Segment := ['.', '.']

def segments (path : List Char) : List Segment := path.splitOn '/'

def joined (segments : List Segment) : List Char := ['/'].intercalate segments

def isAbsolute (path : List Char) : Bool := path.head? = some '/'

/-- One segment in `normalizeString`; the result so far is a stack, the last segment first. -/
def push (allowAboveRoot : Bool) (stack : List Segment) (segment : Segment) : List Segment :=
  if segment = [] ∨ segment = dot then stack
  else if segment = dotdot then
    match stack with
    | [] => if allowAboveRoot then [dotdot] else []
    | top :: rest =>
      if top = dotdot then if allowAboveRoot then dotdot :: top :: rest else top :: rest else rest
  else segment :: stack

/-- The segments of the result of `normalizeString`, last first. -/
def stacked (allowAboveRoot : Bool) (path : List Char) : List Segment :=
  (segments path).foldl (push allowAboveRoot) []

def normalizeString (path : List Char) (allowAboveRoot : Bool) : List Char :=
  joined (stacked allowAboveRoot path).reverse

def normalize (path : List Char) : List Char :=
  if path = [] then ['.']
  else
    let trailingSeparator : Bool := path.getLast? = some '/'
    let body := normalizeString path (!isAbsolute path)
    if body = [] then
      if isAbsolute path then ['/'] else if trailingSeparator then ['.', '/'] else ['.']
    else
      (if isAbsolute path then ['/'] else []) ++ body ++ (if trailingSeparator then ['/'] else [])

def join (first second : List Char) : List Char :=
  normalize (joined ([first, second].filter (fun path => path ≠ [])))

def join3 (first second third : List Char) : List Char :=
  normalize (joined ([first, second, third].filter (fun path => path ≠ [])))

/-- `path.dirname`: what stands before the last separator that has a segment behind it. -/
def dirname (path : List Char) : List Char :=
  if path = [] then ['.']
  else
    -- the index 0 is not looked at: a separator there is the root
    let upward := (path.tail.reverse.dropWhile (fun c => c = '/')).dropWhile (fun c => c ≠ '/')
    match upward.length with
    | 0 => if isAbsolute path then ['/'] else ['.']
    | 1 => if isAbsolute path then ['/', '/'] else path.take 1
    | slash => path.take slash

def basename (path : List Char) : List Char :=
  ((path.reverse.dropWhile (fun c => c = '/')).takeWhile (fun c => c ≠ '/')).reverse

example : basename (dirname "packs/acme/.agents/skills/coding/SKILL.md".toList) =
    "coding".toList := by decide

/-- The segments of `path.resolve(path)`, first to last; `cwd` is an absolute path. -/
def resolve (cwd path : List Char) : List Segment :=
  (stacked false (if isAbsolute path then path else cwd ++ '/' :: path)).reverse

def diverge : List Segment → List Segment → List Segment × List Segment
  | a :: left, b :: right => if a = b then diverge left right else (a :: left, b :: right)
  | left, right => (left, right)

def relative (cwd origin target : List Char) : List Char :=
  let (up, down) := diverge (resolve cwd origin) (resolve cwd target)
  joined (List.replicate up.length dotdot ++ down)

def Plain (segment : Segment) : Prop := segment ≠ [] ∧ segment ≠ dot ∧ segment ≠ dotdot

/-- A stack that `push` can leave behind: `..` only at the bottom, and only where it may be. -/
def Reduced (allowAboveRoot : Bool) : List Segment → Prop
  | [] => True
  | top :: rest =>
    (Plain top ∨ (allowAboveRoot = true ∧ top = dotdot ∧ ∀ below ∈ rest, below = dotdot)) ∧
      Reduced allowAboveRoot rest

variable {allowAboveRoot : Bool} {stack : List Segment} {segment : Segment}

theorem reduced_push (reduced : Reduced allowAboveRoot stack) :
    Reduced allowAboveRoot (push allowAboveRoot stack segment) := by
  unfold push
  split
  · exact reduced
  · rename_i named
    split
    · rename_i up
      cases stack with
      | nil =>
          cases allowAboveRoot
          · trivial
          · exact ⟨.inr ⟨rfl, rfl, nofun⟩, trivial⟩
      | cons top rest =>
          simp only
          by_cases above : top = dotdot
          · rw [if_pos above]
            cases allowAboveRoot
            · exact reduced
            · rcases reduced.1 with plain | ⟨-, -, below⟩
              · exact absurd above plain.2.2
              · refine ⟨.inr ⟨rfl, rfl, ?_⟩, reduced⟩
                intro segment member
                rcases List.mem_cons.mp member with rfl | deeper
                · exact above
                · exact below segment deeper
          · rw [if_neg above]
            exact reduced.2
    · rename_i other
      have plain : Plain segment := ⟨fun empty => named (.inl empty),
        fun here => named (.inr here), other⟩
      exact ⟨.inl plain, reduced⟩

theorem reduced_foldl (segments : List Segment) (reduced : Reduced allowAboveRoot stack) :
    Reduced allowAboveRoot (segments.foldl (push allowAboveRoot) stack) := by
  induction segments generalizing stack with
  | nil => exact reduced
  | cons segment rest ih => exact ih (reduced_push reduced)

theorem reduced_stacked (path : List Char) :
    Reduced allowAboveRoot (stacked allowAboveRoot path) :=
  reduced_foldl (segments path) trivial

theorem push_plain (plain : Plain segment) : push allowAboveRoot stack segment = segment :: stack := by
  unfold push
  rw [if_neg (not_or.mpr ⟨plain.1, plain.2.1⟩), if_neg plain.2.2]

theorem rebuilt (reduced : Reduced allowAboveRoot stack) :
    stack.reverse.foldl (push allowAboveRoot) [] = stack := by
  rw [List.foldl_reverse]
  induction stack with
  | nil => rfl
  | cons top rest ih =>
      rw [List.foldr_cons, ih reduced.2]
      rcases reduced.1 with plain | ⟨allowed, rfl, below⟩
      · exact push_plain plain
      · subst allowed
        cases rest with
        | nil => rfl
        | cons next deeper =>
            have up : next = dotdot := below next List.mem_cons_self
            simp [push, up, dotdot, dot]

theorem separator_not_mem (path : List Char) : ∀ segment ∈ segments path, '/' ∉ segment := by
  induction path with
  | nil => simp [segments]
  | cons c rest ih =>
      intro segment member
      rw [segments, List.splitOn_cons_eq_if_modifyHead] at member
      by_cases separator : c = '/'
      · rw [if_pos (by simpa using separator)] at member
        rcases List.mem_cons.mp member with rfl | later
        · exact List.not_mem_nil
        · exact ih segment later
      · rw [if_neg (by simpa using separator)] at member
        cases listed : rest.splitOn '/' with
        | nil => exact absurd listed (List.splitOn_ne_nil _ _)
        | cons head tail =>
            rw [segments, listed] at ih
            rw [listed, List.modifyHead_cons] at member
            rcases List.mem_cons.mp member with rfl | later
            · intro slash
              rcases List.mem_cons.mp slash with same | inside
              · exact separator same.symm
              · exact ih head List.mem_cons_self inside
            · exact ih segment (List.mem_cons_of_mem _ later)

theorem mem_of_mem_segments {path : List Char} (member : segment ∈ segments path) {c : Char}
    (inside : c ∈ segment) : c ∈ path := by
  have whole : joined (segments path) = path := List.intercalate_splitOn '/'
  rw [← whole]
  exact (Joined.part_infix segment member).subset inside

theorem mem_push {other : Segment} (member : segment ∈ push allowAboveRoot stack other) :
    segment = other ∨ segment ∈ stack ∨ segment = dotdot := by
  unfold push at member
  split at member
  · exact .inr (.inl member)
  · split at member
    · cases stack with
      | nil =>
          cases allowAboveRoot
          · exact absurd member List.not_mem_nil
          · exact .inr (.inr (List.mem_singleton.mp member))
      | cons top rest =>
          simp only at member
          split at member
          · cases allowAboveRoot
            · exact .inr (.inl member)
            · rcases List.mem_cons.mp member with up | before
              · exact .inr (.inr up)
              · exact .inr (.inl before)
          · exact .inr (.inl (List.mem_cons_of_mem _ member))
    · rcases List.mem_cons.mp member with same | before
      · exact .inl same
      · exact .inr (.inl before)

theorem mem_foldl_push (segments : List Segment)
    (member : segment ∈ segments.foldl (push allowAboveRoot) stack) :
    segment ∈ segments ∨ segment ∈ stack ∨ segment = dotdot := by
  induction segments generalizing stack with
  | nil => exact .inr (.inl member)
  | cons head rest ih =>
      rcases ih member with later | pushed | up
      · exact .inl (List.mem_cons_of_mem _ later)
      · rcases mem_push pushed with rfl | before | up
        · exact .inl List.mem_cons_self
        · exact .inr (.inl before)
        · exact .inr (.inr up)
      · exact .inr (.inr up)

theorem mem_stacked {path : List Char} (member : segment ∈ stacked allowAboveRoot path) :
    segment ∈ segments path ∨ segment = dotdot := by
  rcases mem_foldl_push (segments path) member with listed | none | up
  · exact .inl listed
  · exact absurd none List.not_mem_nil
  · exact .inr up

def trailing (kept : Bool) : List Char := if kept then ['/'] else []

inductive Normal : List Char → Prop
  | here (kept : Bool) : Normal ('.' :: trailing kept)
  | spelled (stack : List Segment) (kept : Bool) (reduced : Reduced true stack)
      (filled : stack ≠ []) (apart : ∀ segment ∈ stack, '/' ∉ segment) :
      Normal (joined stack.reverse ++ trailing kept)

theorem ne_nil_of_reduced (reduced : Reduced allowAboveRoot stack) :
    ∀ segment ∈ stack, segment ≠ [] := by
  induction stack with
  | nil => nofun
  | cons top rest ih =>
      intro segment member
      rcases List.mem_cons.mp member with rfl | deeper
      · rcases reduced.1 with plain | ⟨-, up, -⟩
        · exact plain.1
        · rw [up]
          exact List.cons_ne_nil _ _
      · exact ih reduced.2 segment deeper

theorem joined_cons (segment : Segment) (rest : List Segment) :
    joined (segment :: rest) = segment ++ if rest = [] then [] else '/' :: joined rest := by
  cases rest with
  | nil => simp [joined]
  | cons next later => simp [joined]

theorem joined_append_singleton (init : List Segment) (last : Segment) :
    joined (init ++ [last]) = (if init = [] then [] else joined init ++ ['/']) ++ last := by
  induction init with
  | nil => simp [joined]
  | cons head rest ih =>
      rw [List.cons_append, joined_cons, ih, joined_cons]
      cases rest <;> simp

theorem apart_stacked (path : List Char) :
    ∀ segment ∈ stacked allowAboveRoot path, '/' ∉ segment := by
  intro segment member
  rcases mem_stacked member with listed | rfl
  · exact separator_not_mem path segment listed
  · decide

theorem joined_eq_nil (reduced : Reduced allowAboveRoot stack)
    (empty : joined stack.reverse = []) : stack = [] := by
  cases stack with
  | nil => rfl
  | cons top rest =>
      rw [List.reverse_cons, joined_append_singleton] at empty
      have blank := (List.append_eq_nil_iff.mp empty).2
      exact absurd blank (ne_nil_of_reduced reduced top List.mem_cons_self)

theorem normal_normalize {path : List Char} (relative : isAbsolute path = false) :
    Normal (normalize path) := by
  unfold normalize
  split
  · exact .here false
  · have reduced : Reduced true (stacked true path) := reduced_stacked path
    simp only [relative, Bool.not_false, Bool.false_eq_true, if_false, List.nil_append]
    split
    · split
      · exact .here true
      · exact .here false
    · rename_i body
      have filled : stacked true path ≠ [] := by
        intro empty
        rw [normalizeString, empty] at body
        exact body rfl
      by_cases slash : path.getLast? = some '/'
      · simpa [slash, normalizeString, trailing] using
          Normal.spelled _ true reduced filled (apart_stacked path)
      · simpa [slash, normalizeString, trailing] using
          Normal.spelled _ false reduced filled (apart_stacked path)

theorem segments_joined {listed : List Segment} (filled : listed ≠ [])
    (apart : ∀ segment ∈ listed, '/' ∉ segment) : segments (joined listed) = listed :=
  List.splitOn_intercalate '/' apart filled

theorem segments_append (first second : List Char) :
    segments (first ++ '/' :: second) = segments first ++ segments second :=
  List.splitOn_append_cons_self first second

theorem segments_spelled {listed : List Segment} (kept : Bool) (filled : listed ≠ [])
    (apart : ∀ segment ∈ listed, '/' ∉ segment) :
    segments (joined listed ++ trailing kept) = listed ++ if kept then [[]] else [] := by
  cases kept with
  | false => simpa [trailing] using segments_joined filled apart
  | true =>
      have split := segments_append (joined listed) []
      rw [segments_joined filled apart] at split
      exact split

theorem stacked_spelled (kept : Bool) (reduced : Reduced true stack) (filled : stack ≠ [])
    (apart : ∀ segment ∈ stack, '/' ∉ segment) :
    stacked true (joined stack.reverse ++ trailing kept) = stack := by
  have listed : stack.reverse ≠ [] := by simpa using filled
  have split := segments_spelled kept listed (fun segment member =>
    apart segment (List.mem_reverse.mp member))
  rw [stacked, split, List.foldl_append, rebuilt reduced]
  cases kept
  · rfl
  · simp [push]

theorem isAbsolute_normal {path : List Char} (normal : Normal path) : isAbsolute path = false := by
  cases normal with
  | here kept => cases kept <;> decide
  | spelled stack kept reduced filled apart =>
      cases listed : stack.reverse with
      | nil => exact absurd (List.reverse_eq_nil_iff.mp listed) filled
      | cons first rest =>
          have member : first ∈ stack := by
            rw [← List.mem_reverse, listed]
            exact List.mem_cons_self
          cases spelling : first with
          | nil => exact absurd spelling (ne_nil_of_reduced reduced first member)
          | cons c tail =>
              have named : c ≠ '/' := by
                rintro rfl
                exact apart first member (spelling ▸ List.mem_cons_self)
              simp [isAbsolute, joined_cons, named]

theorem getLast_joined (reduced : Reduced allowAboveRoot stack) (filled : stack ≠ [])
    (apart : ∀ segment ∈ stack, '/' ∉ segment) : (joined stack.reverse).getLast? ≠ some '/' := by
  cases stack with
  | nil => exact absurd rfl filled
  | cons top rest =>
      have named := ne_nil_of_reduced reduced top List.mem_cons_self
      rw [List.reverse_cons, joined_append_singleton, List.getLast?_append_of_ne_nil _ named]
      intro last
      exact apart top List.mem_cons_self (List.mem_of_getLast? last)

theorem normalize_of_normal {path : List Char} (normal : Normal path) : normalize path = path := by
  have relative := isAbsolute_normal normal
  cases normal with
  | here kept => cases kept <;> decide
  | spelled stack kept reduced filled apart =>
      have body : joined stack.reverse ≠ [] := fun empty => filled (joined_eq_nil reduced empty)
      have whole : joined stack.reverse ++ trailing kept ≠ [] := by simp [body]
      have last : (joined stack.reverse ++ trailing kept).getLast? = some '/' ↔ kept = true := by
        cases kept with
        | true => simp [trailing]
        | false => simpa [trailing] using getLast_joined reduced filled apart
      simp only [normalize, if_neg whole, relative, Bool.not_false, normalizeString,
        stacked_spelled kept reduced filled apart, if_neg body, last, decide_eq_true_eq,
        Bool.false_eq_true, if_false, List.nil_append]
      rfl

theorem dotdot_first (reduced : Reduced allowAboveRoot stack) (member : dotdot ∈ stack) :
    stack.getLast? = some dotdot := by
  induction stack with
  | nil => exact absurd member List.not_mem_nil
  | cons top rest ih =>
      cases rest with
      | nil =>
          rw [List.mem_singleton.mp member]
          rfl
      | cons next deeper =>
          rw [List.getLast?_cons_cons]
          apply ih reduced.2
          rcases List.mem_cons.mp member with rfl | below
          · rcases reduced.1 with plain | ⟨-, -, below⟩
            · exact absurd rfl plain.2.2
            · rw [below next List.mem_cons_self]
              exact List.mem_cons_self
          · exact below

theorem no_dotdot {path : List Char} (normal : Normal path) (inside : ¬dotdot <+: path) :
    dotdot ∉ segments path := by
  cases normal with
  | here kept => cases kept <;> decide
  | spelled stack kept reduced filled apart =>
      intro member
      have listed : stack.reverse ≠ [] := by simpa using filled
      rw [segments_spelled kept listed (fun segment member =>
        apart segment (List.mem_reverse.mp member))] at member
      have held : dotdot ∈ stack := by
        rcases List.mem_append.mp member with held | after
        · exact List.mem_reverse.mp held
        · cases kept
          · exact absurd after List.not_mem_nil
          · exact absurd (List.mem_singleton.mp after) (by decide)
      have first := dotdot_first reduced held
      rw [← List.head?_reverse] at first
      cases front : stack.reverse with
      | nil => exact absurd front listed
      | cons segment rest =>
          rw [front, List.head?_cons, Option.some.injEq] at first
          apply inside
          rw [front, joined_cons, first, List.append_assoc]
          exact List.prefix_append _ _

theorem mem_normalize {path : List Char} {c : Char} (member : c ∈ normalize path) :
    c ∈ path ∨ c = '.' ∨ c = '/' := by
  have body : c ∈ normalizeString path (!isAbsolute path) → c ∈ path ∨ c = '.' ∨ c = '/' := by
    intro inside
    rcases Joined.mem_intercalate inside with slash | ⟨segment, listed, within⟩
    · exact .inr (.inr slash)
    · rcases mem_stacked (List.mem_reverse.mp listed) with known | rfl
      · exact .inl (mem_of_mem_segments known within)
      · simp only [dotdot, List.mem_cons, List.not_mem_nil, or_false, or_self] at within
        exact .inr (.inl within)
  unfold normalize at member
  split at member
  · exact .inr (.inl (List.mem_singleton.mp member))
  · simp only at member
    split at member
    · split at member
      · exact .inr (.inr (List.mem_singleton.mp member))
      · split at member <;> simp at member <;> tauto
    · simp only [List.mem_append] at member
      rcases member with (root | inside) | slash
      · split at root
        · exact .inr (.inr (List.mem_singleton.mp root))
        · exact absurd root List.not_mem_nil
      · exact body inside
      · split at slash
        · exact .inr (.inr (List.mem_singleton.mp slash))
        · exact absurd slash List.not_mem_nil

def enter (position : List Segment) (segment : Segment) : List Segment :=
  if segment = [] ∨ segment = dot then position
  else if segment = dotdot then position.dropLast
  else position ++ [segment]

def walk (position : List Segment) (segments : List Segment) : List Segment :=
  segments.foldl enter position

theorem walk_descends (position : List Segment) {segments : List Segment}
    (down : dotdot ∉ segments) : position <+: walk position segments := by
  induction segments generalizing position with
  | nil => exact List.prefix_rfl
  | cons segment rest ih =>
      have named : segment ≠ dotdot := fun up => down (up ▸ List.mem_cons_self)
      have entered : position <+: enter position segment := by
        unfold enter
        split
        · exact List.prefix_rfl
        · exact List.prefix_append _ _
      exact entered.trans (ih _ (fun later => down (List.mem_cons_of_mem _ later)))

def Name (name : Segment) : Prop := Plain name ∧ '/' ∉ name

instance (name : Segment) : Decidable (Name name) :=
  inferInstanceAs (Decidable ((name ≠ [] ∧ name ≠ dot ∧ name ≠ dotdot) ∧ '/' ∉ name))

/-- What can stand before a name in a path: nothing, or all up to a separator. -/
def Stem (front : List Char) : Prop := front = [] ∨ ∃ upper, front = upper ++ ['/']

variable {front : List Char} {name : Segment} {names : List Segment}

theorem segments_stem (stem : Stem front) (named : ∀ name ∈ names, Name name) (filled : names ≠ []) :
    ∃ above, segments (front ++ joined names) = above ++ names := by
  have listed := segments_joined filled (fun name member => (named name member).2)
  rcases stem with rfl | ⟨upper, rfl⟩
  · exact ⟨[], listed⟩
  · refine ⟨segments upper, ?_⟩
    rw [List.append_assoc, List.singleton_append, segments_append, listed]

theorem foldl_names (named : ∀ name ∈ names, Name name) :
    names.foldl (push allowAboveRoot) stack = names.reverse ++ stack := by
  induction names generalizing stack with
  | nil => rfl
  | cons name rest ih =>
      have plain := (named name List.mem_cons_self).1
      rw [List.foldl_cons, push_plain plain,
        ih (fun name member => named name (List.mem_cons_of_mem _ member)), List.reverse_cons,
        List.append_assoc, List.singleton_append]

theorem reduced_names (named : ∀ name ∈ names, Name name) : Reduced allowAboveRoot names := by
  induction names with
  | nil => trivial
  | cons name rest ih =>
      exact ⟨.inl (named name List.mem_cons_self).1,
        ih (fun name member => named name (List.mem_cons_of_mem _ member))⟩

theorem joined_append (init : List Segment) (filled : names ≠ []) :
    joined (init ++ names) = (if init = [] then [] else joined init ++ ['/']) ++ joined names := by
  induction init with
  | nil => rfl
  | cons head rest ih =>
      have more : rest ++ names ≠ [] := fun empty => filled (List.append_eq_nil_iff.mp empty).2
      rw [List.cons_append, joined_cons, if_neg more, ih, joined_cons, if_neg (List.cons_ne_nil _ _)]
      by_cases last : rest = []
      · simp [last]
      · simp [last]

theorem normalize_names (stem : Stem front) (named : ∀ name ∈ names, Name name)
    (filled : names ≠ []) :
    ∃ front', Stem front' ∧ normalize (front ++ joined names) = front' ++ joined names := by
  have mirrored : ∀ name ∈ names.reverse, Name name := fun name member =>
    named name (List.mem_reverse.mp member)
  have some_name : names.reverse ≠ [] := by simpa using filled
  have reduced : Reduced true names.reverse := reduced_names mirrored
  have visible : joined names ≠ [] := by
    intro empty
    rw [← List.reverse_reverse names] at empty
    exact some_name (joined_eq_nil reduced empty)
  have last : (front ++ joined names).getLast? ≠ some '/' := by
    rw [List.getLast?_append_of_ne_nil _ visible]
    have own := getLast_joined reduced some_name (fun name member => (mirrored name member).2)
    rwa [List.reverse_reverse] at own
  obtain ⟨above, parts⟩ := segments_stem stem named filled
  have body (allowAboveRoot : Bool) : normalizeString (front ++ joined names) allowAboveRoot =
      (if (above.foldl (push allowAboveRoot) []).reverse = [] then []
        else joined (above.foldl (push allowAboveRoot) []).reverse ++ ['/']) ++ joined names := by
    rw [normalizeString, stacked, parts, List.foldl_append, foldl_names named, List.reverse_append,
      List.reverse_reverse, joined_append _ filled]
  unfold normalize
  rw [if_neg (fun empty => visible (List.append_eq_nil_iff.mp empty).2)]
  simp only [body]
  rw [if_neg (fun empty => visible (List.append_eq_nil_iff.mp empty).2)]
  simp only [decide_eq_true_eq, if_neg last, List.append_nil, ← List.append_assoc]
  refine ⟨_, ?_, rfl⟩
  generalize above.foldl (push (!isAbsolute (front ++ joined names))) [] = stack
  by_cases top : stack.reverse = []
  · rw [if_pos top, List.append_nil]
    by_cases absolute : isAbsolute (front ++ joined names) = true
    · rw [if_pos absolute]
      exact .inr ⟨[], rfl⟩
    · rw [if_neg absolute]
      exact .inl rfl
  · rw [if_neg top, ← List.append_assoc]
    exact .inr ⟨_, rfl⟩

theorem join_join (path : List Char) {name file : Segment} (named : Name name)
    (filed : Name file) : ∃ front, Stem front ∧
      join (join path name) file = front ++ name ++ '/' :: file := by
  have both : ∀ other ∈ [name, file], Name other := by
    intro other member
    rcases List.mem_cons.mp member with rfl | last
    · exact named
    · exact List.mem_singleton.mp last ▸ filed
  have own : ∀ other ∈ [name], Name other := fun other member =>
    List.mem_singleton.mp member ▸ named
  have first : ∃ front, Stem front ∧ join path name = front ++ joined [name] := by
    by_cases empty : path = []
    · have spelled : join path name = normalize ([] ++ joined [name]) := by
        simp [join, empty, named.1.1]
      rw [spelled]
      exact normalize_names (.inl rfl) own (List.cons_ne_nil _ _)
    · have spelled : join path name = normalize ((path ++ ['/']) ++ joined [name]) := by
        simp [join, empty, named.1.1, joined]
      rw [spelled]
      exact normalize_names (.inr ⟨path, rfl⟩) own (List.cons_ne_nil _ _)
  obtain ⟨front, stem, joined_name⟩ := first
  have spelled : join (join path name) file = normalize (front ++ joined [name, file]) := by
    rw [joined_name]
    simp [join, joined, named.1.1, filed.1.1]
  obtain ⟨front', stem', whole⟩ := normalize_names stem both (List.cons_ne_nil _ _)
  refine ⟨front', stem', ?_⟩
  rw [spelled, whole]
  simp [joined]

theorem no_separator (apart : '/' ∉ name) : ∀ c ∈ name.reverse, decide (c ≠ '/') = true := by
  intro c member
  apply decide_eq_true
  rintro rfl
  exact apart (List.mem_reverse.mp member)

theorem dropWhile_reverse (apart : '/' ∉ name) (filled : name ≠ []) (below : List Char) :
    (name.reverse ++ below).dropWhile (fun c => c = '/') = name.reverse ++ below := by
  cases spelled : name.reverse with
  | nil => exact absurd (List.reverse_eq_nil_iff.mp spelled) filled
  | cons c rest =>
      have other : c ≠ '/' := by
        rintro rfl
        apply apart
        rw [← List.mem_reverse, spelled]
        exact List.mem_cons_self
      rw [List.cons_append, List.dropWhile_cons_of_neg (by simpa using other)]

theorem basename_name (stem : Stem front) (named : Name name) : basename (front ++ name) = name := by
  unfold basename
  rw [List.reverse_append, dropWhile_reverse named.2 named.1.1,
    List.takeWhile_append_of_pos (no_separator named.2)]
  rcases stem with rfl | ⟨upper, rfl⟩
  · simp
  · simp

theorem dirname_name (named : Name name) {file : Segment} (filed : Name file) :
    dirname (front ++ name ++ '/' :: file) = front ++ name := by
  cases spelled : front ++ name with
  | nil => exact absurd (List.append_eq_nil_iff.mp spelled).2 named.1.1
  | cons c rest =>
      have upward : (((c :: rest ++ '/' :: file).tail.reverse.dropWhile (fun c => c = '/')).dropWhile
          (fun c => c ≠ '/')).length = rest.length + 1 := by
        rw [List.cons_append, List.tail_cons, List.reverse_append, List.reverse_cons,
          List.append_assoc, dropWhile_reverse filed.2 filed.1.1,
          List.dropWhile_append_of_pos (no_separator filed.2)]
        simp
      unfold dirname
      rw [if_neg (by simp)]
      simp only [upward]
      cases rest with
      | nil =>
          -- a single character is no separator
          have relative : c ≠ '/' := by
            rintro rfl
            rcases List.append_eq_singleton_iff.mp spelled with ⟨-, slash⟩ | ⟨-, empty⟩
            · exact named.2 (slash ▸ List.mem_cons_self)
            · exact named.1.1 empty
          simp [isAbsolute, relative]
      | cons d deeper => simp

end PosixPath
