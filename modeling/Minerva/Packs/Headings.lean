import Minerva.Packs.Document
import Minerva.Packs.Lines

namespace Minerva

open Regex

section Words

variable {same : Char → Char → Bool} {word text rest : Text}

theorem afterWord_suffix (found : afterWord same word text = some rest) : rest <:+ text := by
  induction word generalizing text with
  | nil =>
      cases found
      exact List.suffix_rfl
  | cons c word ih =>
      cases text with
      | nil => cases found
      | cons d more =>
          rw [afterWord] at found
          split at found
          · exact (ih found).trans (List.suffix_cons d more)
          · cases found

theorem afterWord_whole (found : afterWord same word text = some []) :
    ∀ d ∈ text, ∃ c ∈ word, same c d = true := by
  induction word generalizing text with
  | nil =>
      cases found
      exact fun d member => absurd member List.not_mem_nil
  | cons c word ih =>
      cases text with
      | nil => cases found
      | cons e more =>
          rw [afterWord] at found
          split at found
          · next matched =>
              intro d member
              rcases List.mem_cons.mp member with rfl | later
              · exact ⟨c, List.mem_cons_self, matched⟩
              · obtain ⟨letter, listed, equal⟩ := ih found d later
                exact ⟨letter, List.mem_cons_of_mem _ listed, equal⟩
          · cases found

theorem afterWord_append (lined : ∀ c ∈ word, same c '\n' = false) (text rest : Text) :
    afterWord same word (text ++ '\n' :: rest) =
      (afterWord same word text).map (· ++ '\n' :: rest) := by
  induction word generalizing text with
  | nil => rfl
  | cons c word ih =>
      obtain ⟨first, others⟩ := List.forall_mem_cons.mp lined
      cases text with
      | nil => simp [afterWord, first]
      | cons d more =>
          rw [List.cons_append, afterWord, afterWord]
          split
          · exact ih others more
          · rfl

end Words

namespace Document

structure Titled (title : Text) : Prop where
  lined : ∀ c ∈ title, sameLetter c '\n' = false
  unmarked : ∀ c ∈ title, sameLetter c '#' = false

theorem stance_titled : Titled "Stance".toList :=
  ⟨Text.none_of_any (by decide), Text.none_of_any (by decide)⟩

theorem rules_titled : Titled "Rules".toList :=
  ⟨Text.none_of_any (by decide), Text.none_of_any (by decide)⟩

theorem hash_iff (d : Char) : sameLetter '#' d = true ↔ d = '#' := sameLetter_iff (by decide) d

theorem feed_iff (d : Char) : sameLetter '\n' d = true ↔ d = '\n' := sameLetter_iff (by decide) d

theorem afterMark_cons_cons (c d : Char) (rest : Text) :
    afterWord sameLetter "##".toList (c :: d :: rest) =
      if c = '#' ∧ d = '#' then some rest else none := by
  by_cases first : c = '#'
  · by_cases second : d = '#'
    · subst first second
      rfl
    · simp [afterWord, hash_iff, second]
  · simp [afterWord, hash_iff, first]

theorem afterFeeds_cons_cons (c d : Char) (rest : Text) :
    afterWord sameLetter "\n\n".toList (c :: d :: rest) =
      if c = '\n' ∧ d = '\n' then some rest else none := by
  by_cases first : c = '\n'
  · by_cases second : d = '\n'
    · subst first second
      rfl
    · simp [afterWord, feed_iff, second]
  · simp [afterWord, feed_iff, first]

theorem afterMark_short (c : Char) : afterWord sameLetter "##".toList [c] = none := by
  simp [afterWord]

theorem afterFeeds_short (c : Char) : afterWord sameLetter "\n\n".toList [c] = none := by
  simp [afterWord]

theorem afterMark_nil_iff (text : Text) :
    afterWord sameLetter "##".toList text = some [] ↔ text = "##".toList := by
  constructor
  · intro found
    match text with
    | [] => cases found
    | [c] => rw [afterMark_short] at found; cases found
    | c :: d :: rest =>
        rw [afterMark_cons_cons] at found
        split at found
        · next marks =>
            obtain ⟨rfl, rfl⟩ := marks
            injection found with empty
            rw [empty]
            rfl
        · cases found
  · rintro rfl
    rfl

variable {title : Text}

theorem afterNamed_suffix {text rest : Text} (found : afterNamed title text = some rest) :
    rest <:+ text := by
  unfold afterNamed at found
  obtain ⟨behind, marked, found⟩ := Option.bind_eq_some_iff.mp found
  cases behind with
  | nil => cases found
  | cons w more =>
      rw [afterOne] at found
      split at found
      · exact (afterWord_suffix found).trans ((List.dropWhile_suffix _).trans
          ((List.suffix_cons w more).trans (afterWord_suffix marked)))
      · cases found

variable (titled : Titled title)

include titled

theorem afterNamed_append {text : Text} (closed : text.Closed) (rest : Text) :
    afterNamed title (text ++ '\n' :: rest) =
      if text = "##".toList then afterWord sameLetter title (rest.dropWhile jsWhitespace)
      else (afterNamed title text).map (· ++ '\n' :: rest) := by
  have lined : ∀ c ∈ "##".toList, sameLetter c '\n' = false := Text.none_of_any (by decide)
  unfold afterNamed
  rw [afterWord_append lined]
  cases marked : afterWord sameLetter "##".toList text with
  | none =>
      have other : text ≠ "##".toList := by
        rintro rfl
        cases marked
      rw [if_neg other]
      rfl
  | some behind =>
      have behind_closed := closed.suffix (afterWord_suffix marked)
      cases behind with
      | nil =>
          rw [if_pos ((afterMark_nil_iff text).mp marked)]
          rfl
      | cons w more =>
          have other : text ≠ "##".toList := by
            rintro rfl
            cases marked
          rw [if_neg other]
          simp only [Option.map_some, Option.bind_some, List.cons_append, afterOne]
          by_cases white : jsWhitespace w = true
          · have more_closed := behind_closed.suffix (List.suffix_cons w more)
            rw [if_pos white, if_pos white,
              more_closed.dropWhile_append (behind_closed.tail_ne_nil white),
              afterWord_append titled.lined]
          · rw [if_neg white, if_neg white]
            rfl

theorem afterHead_append {text rest : Text} (closed : text.Closed) (opened : rest.Opened) :
    afterHead title (text ++ "\n\n".toList ++ rest) =
      if text = "##".toList then
        (afterWord sameLetter title rest).bind (afterWord sameLetter "\n\n".toList)
      else (afterNamed title text).bind (fun behind =>
        if behind = [] then some rest
        else (afterWord sameLetter "\n\n".toList behind).map (· ++ "\n\n".toList ++ rest)) := by
  have feeds : text ++ "\n\n".toList ++ rest = text ++ '\n' :: '\n' :: rest := by simp
  have skipped : ('\n' :: rest).dropWhile jsWhitespace = rest := by
    rw [List.dropWhile_cons_of_pos (by decide), opened.dropWhile]
  unfold afterHead
  rw [feeds, afterNamed_append titled closed, skipped]
  split
  · rfl
  · rw [Option.bind_map]
    cases named : afterNamed title text with
    | none => rfl
    | some behind =>
        have behind_closed := closed.suffix (afterNamed_suffix named)
        simp only [Option.bind_some, Function.comp_apply]
        match behind, behind_closed with
        | [], _ => rfl
        | [c], last =>
            have visible : c ≠ '\n' := by
              rintro rfl
              exact absurd (last '\n' rfl) (by decide)
            rw [if_neg (List.cons_ne_nil _ _), afterFeeds_short, List.singleton_append,
              afterFeeds_cons_cons, if_neg (fun both => visible both.1)]
            rfl
        | c :: d :: more, _ =>
            rw [if_neg (List.cons_ne_nil _ _), List.cons_append, List.cons_append,
              afterFeeds_cons_cons, afterFeeds_cons_cons]
            split <;> simp

omit titled

def firstHead (title : Text) : Text → Option Text
  | [] => none
  | c :: rest => (afterHead title (c :: rest)).or (firstHead title rest)

theorem mark_of_afterNamed {text rest : Text} (found : afterNamed title text = some rest) :
    "##".toList <+: text := by
  match text with
  | [] => cases found
  | [c] =>
      rw [afterNamed, afterMark_short] at found
      cases found
  | c :: d :: more =>
      rw [afterNamed, afterMark_cons_cons] at found
      split at found
      · next marks =>
          obtain ⟨rfl, rfl⟩ := marks
          exact ⟨more, rfl⟩
      · cases found

theorem firstHead_plain {front : Text} (plain : '#' ∉ front) (rest : Text) :
    firstHead title (front ++ rest) = firstHead title rest := by
  induction front with
  | nil => rfl
  | cons c front ih =>
      rw [List.mem_cons, not_or] at plain
      have here : afterHead title (c :: (front ++ rest)) = none := by
        rw [Option.eq_none_iff_forall_ne_some]
        intro after found
        obtain ⟨behind, named, -⟩ := Option.bind_eq_some_iff.mp found
        exact plain.1 (List.cons_prefix_cons.mp (mark_of_afterNamed named)).1
      rw [List.cons_append, firstHead, here, ih plain.2]
      rfl

theorem firstHead_suffix {text rest : Text} (found : firstHead title text = some rest) :
    rest <:+ text := by
  induction text with
  | nil => cases found
  | cons c more ih =>
      rcases Option.or_eq_some_iff.mp found with here | ⟨-, later⟩
      · obtain ⟨behind, named, feeds⟩ := Option.bind_eq_some_iff.mp here
        exact (afterWord_suffix feeds).trans (afterNamed_suffix named)
      · exact (ih later).trans (List.suffix_cons c more)

/-- The text ends in a heading of this title, without the empty line after it. -/
def EndsInHead (title text : Text) : Prop := ∃ head, head <:+ text ∧ afterNamed title head = some []

theorem not_endsInHead_nil : ¬EndsInHead title [] := by
  rintro ⟨head, behind, named⟩
  rw [List.suffix_nil.mp behind] at named
  cases named

theorem not_endsInHead {text : Text} (unmarked : ¬"##".toList <:+: text) : ¬EndsInHead title text := by
  rintro ⟨head, behind, named⟩
  exact unmarked ((mark_of_afterNamed named).isInfix.trans behind.isInfix)

theorem endsInHead_cons_iff (c : Char) (rest : Text) :
    EndsInHead title (c :: rest) ↔ afterNamed title (c :: rest) = some [] ∨ EndsInHead title rest := by
  constructor
  · rintro ⟨head, behind, named⟩
    rcases List.suffix_cons_iff.mp behind with rfl | later
    · exact .inl named
    · exact .inr ⟨head, later, named⟩
  · rintro (named | ⟨head, later, named⟩)
    · exact ⟨c :: rest, List.suffix_rfl, named⟩
    · exact ⟨head, later.trans (List.suffix_cons c rest), named⟩

theorem firstHead_eq_none {text : Text} (unmarked : ¬"##".toList <:+: text) :
    firstHead title text = none := by
  induction text with
  | nil => rfl
  | cons c rest ih =>
      have here : afterHead title (c :: rest) = none := by
        unfold afterHead
        cases named : afterNamed title (c :: rest) with
        | none => rfl
        | some behind => exact absurd (mark_of_afterNamed named).isInfix unmarked
      rw [firstHead, here, ih (fun inside => unmarked (inside.trans (List.suffix_cons c rest).isInfix))]
      rfl

include titled

theorem firstHead_tail {c : Char} {rest : Text} (named : afterNamed title (c :: rest) = some []) :
    firstHead title rest = none := by
  apply firstHead_eq_none
  cases rest with
  | nil => exact fun inside => absurd inside.length_le (by decide)
  | cons d more =>
      rw [afterNamed, afterMark_cons_cons] at named
      split at named
      · next marks =>
          obtain ⟨rfl, rfl⟩ := marks
          cases more with
          | nil => exact fun inside => absurd inside.length_le (by decide)
          | cons w more =>
              simp only [Option.bind_some, afterOne] at named
              split at named
              · next white =>
                  have whitespace_marks : jsWhitespace '#' = false := by decide
                  have absent : '#' ∉ w :: more := by
                    intro inside
                    rcases List.mem_cons.mp inside with rfl | later
                    · rw [whitespace_marks] at white
                      exact absurd white (by decide)
                    · rw [← List.takeWhile_append_dropWhile (p := jsWhitespace) (l := more)] at later
                      rcases List.mem_append.mp later with spaces | letters
                      · have blank := List.mem_takeWhile_imp spaces
                        rw [whitespace_marks] at blank
                        exact absurd blank (by decide)
                      · obtain ⟨letter, listed, same⟩ := afterWord_whole named '#' letters
                        rw [titled.unmarked letter listed] at same
                        exact absurd same (by decide)
                  intro inside
                  rw [List.infix_cons_iff] at inside
                  rcases inside with front | later
                  · have second := (List.cons_prefix_cons.mp front).2
                    exact absent (second.subset List.mem_cons_self)
                  · exact absent (later.subset List.mem_cons_self)
              · cases named
      · cases named

section Behind

variable {text rest : Text} (closed : text.Closed) (opened : rest.Opened)

include closed opened

theorem afterHead_append_some {behind : Text} (found : afterHead title text = some behind) :
    afterHead title (text ++ "\n\n".toList ++ rest) = some (behind ++ "\n\n".toList ++ rest) := by
  rw [afterHead_append titled closed opened]
  obtain ⟨named, is_named, broken⟩ := Option.bind_eq_some_iff.mp found
  have bare : text ≠ "##".toList := by
    rintro rfl
    cases is_named
  have more : named ≠ [] := by
    rintro rfl
    cases broken
  rw [if_neg bare, is_named, Option.bind_some, if_neg more, broken]
  rfl

theorem afterHead_append_end (named : afterNamed title text = some []) :
    afterHead title (text ++ "\n\n".toList ++ rest) = some rest := by
  have bare : text ≠ "##".toList := by
    rintro rfl
    cases named
  rw [afterHead_append titled closed opened, if_neg bare, named]
  rfl

theorem afterHead_append_none (bare : text ≠ "##".toList) (absent : afterHead title text = none)
    (unended : afterNamed title text ≠ some []) :
    afterHead title (text ++ "\n\n".toList ++ rest) = none := by
  rw [afterHead_append titled closed opened, if_neg bare]
  cases named : afterNamed title text with
  | none => rfl
  | some behind =>
      have more : behind ≠ [] := by
        rintro rfl
        exact unended named
      rw [afterHead, named, Option.bind_some] at absent
      rw [Option.bind_some, if_neg more, absent]
      rfl

/-- The first heading in a text followed by an empty line: one of the text itself, or the one that
it ends in, or one that begins with a mark at its end, or the first one behind. -/
theorem firstHead_append :
    (∀ behind, firstHead title text = some behind →
      firstHead title (text ++ "\n\n".toList ++ rest) = some (behind ++ "\n\n".toList ++ rest)) ∧
    (firstHead title text = none → EndsInHead title text →
      firstHead title (text ++ "\n\n".toList ++ rest) = some rest) ∧
    (firstHead title text = none → ¬EndsInHead title text →
      firstHead title (text ++ "\n\n".toList ++ rest) =
        (if "##".toList <:+ text then
          (afterWord sameLetter title rest).bind (afterWord sameLetter "\n\n".toList)
        else none).or (firstHead title rest)) := by
  induction text with
  | nil =>
      refine ⟨nofun, fun _ ends => absurd ends not_endsInHead_nil, fun _ _ => ?_⟩
      rw [if_neg (by decide)]
      cases rest <;> rfl
  | cons c more ih =>
      obtain ⟨own, ended, later⟩ := ih (closed.suffix (List.suffix_cons c more))
      have split : firstHead title (c :: more ++ "\n\n".toList ++ rest) =
          (afterHead title (c :: more ++ "\n\n".toList ++ rest)).or
            (firstHead title (more ++ "\n\n".toList ++ rest)) := rfl
      rw [split, firstHead, endsInHead_cons_iff]
      refine ⟨?_, ?_, ?_⟩
      · intro behind found
        rcases Option.or_eq_some_iff.mp found with here | ⟨absent, after⟩
        · rw [afterHead_append_some titled closed opened here]
          rfl
        · have bare : c :: more ≠ "##".toList := by
            intro same
            cases same
            cases after
          have unended : afterNamed title (c :: more) ≠ some [] := by
            intro named
            rw [firstHead_tail titled named] at after
            cases after
          rw [afterHead_append_none titled closed opened bare absent unended, own behind after]
          rfl
      · intro none_found ends
        obtain ⟨absent, after⟩ := Option.or_eq_none_iff.mp none_found
        by_cases named : afterNamed title (c :: more) = some []
        · rw [afterHead_append_end titled closed opened named]
          rfl
        · have ends_later := ends.resolve_left named
          have bare : c :: more ≠ "##".toList := by
            intro same
            cases same
            obtain ⟨head, behind, named⟩ := ends_later
            have long := (mark_of_afterNamed named).length_le.trans behind.length_le
            exact absurd long (by decide)
          rw [afterHead_append_none titled closed opened bare absent named, ended after ends_later]
          rfl
      · intro none_found unended
        obtain ⟨absent, after⟩ := Option.or_eq_none_iff.mp none_found
        have unnamed := fun named => unended (.inl named)
        have following := later after (fun ends => unended (.inr ends))
        by_cases bare : c :: more = "##".toList
        · have whole := afterHead_append titled closed opened
          rw [whole, if_pos bare, following]
          cases bare
          rw [if_neg (by decide), if_pos (by decide), Option.none_or]
        · have marked : "##".toList <:+ c :: more ↔ "##".toList <:+ more := by
            rw [List.suffix_cons_iff]
            constructor
            · rintro (same | later)
              · exact absurd same.symm bare
              · exact later
            · exact .inr
          rw [afterHead_append_none titled closed opened bare absent unnamed, following,
            Option.none_or, if_congr marked rfl rfl]

end Behind

omit titled

theorem firstHead_unbroken {text : Text} (whole : ¬"\n\n".toList <:+: text) :
    firstHead title text = none := by
  induction text with
  | nil => rfl
  | cons c rest ih =>
      have here : afterHead title (c :: rest) = none := by
        rw [Option.eq_none_iff_forall_ne_some]
        intro after found
        obtain ⟨behind, named, feeds⟩ := Option.bind_eq_some_iff.mp found
        have front : "\n\n".toList <+: behind := by
          match behind with
          | [] => cases feeds
          | [d] =>
              rw [afterFeeds_short] at feeds
              cases feeds
          | d :: e :: more =>
              rw [afterFeeds_cons_cons] at feeds
              split at feeds
              · next both =>
                  obtain ⟨rfl, rfl⟩ := both
                  exact ⟨more, rfl⟩
              · cases feeds
        exact whole (front.isInfix.trans (afterNamed_suffix named).isInfix)
      rw [firstHead, here, ih (fun inside => whole (inside.trans (List.suffix_cons c rest).isInfix))]
      rfl

theorem title_unmarked (titled : Titled title) (filled : title ≠ []) (rest : Text) :
    afterWord sameLetter title ('#' :: rest) = none := by
  cases title with
  | nil => exact absurd rfl filled
  | cons c more => rw [afterWord, if_neg (by simp [titled.unmarked c List.mem_cons_self])]

theorem firstPlace_afterHead (prev : Option Char) (text : Text) :
    firstPlace (fun _ text => afterHead title text) prev text = firstHead title text := by
  induction text generalizing prev with
  | nil => rfl
  | cons c rest ih => rw [firstPlace, ih, firstHead]

theorem rules_eq_firstHead (content : Text) :
    rules content = (firstHead "Rules".toList content).map (upTo PackLoader.sectionEnds) := by
  rw [rules, ← firstPlace_map, firstPlace_afterHead]

theorem afterHead_ne_nil {text rest : Text} (closed : text.Closed)
    (found : afterHead title text = some rest) : rest ≠ [] := by
  rintro rfl
  obtain ⟨behind, named, feeds⟩ := Option.bind_eq_some_iff.mp found
  have behind_closed := closed.suffix (afterNamed_suffix named)
  match behind, behind_closed with
  | [], _ => cases feeds
  | [c], _ =>
      rw [afterFeeds_short] at feeds
      cases feeds
  | c :: d :: more, behind_closed =>
      rw [afterFeeds_cons_cons] at feeds
      split at feeds
      · next both =>
          obtain ⟨rfl, rfl⟩ := both
          cases feeds
          exact absurd (behind_closed '\n' rfl) (by decide)
      · cases feeds

theorem stance_eq_firstHead {content : Text} (closed : content.Closed) :
    stance content = (firstHead "Stance".toList content).bind (someUpTo PackLoader.sectionEnds) := by
  have place (prev : Option Char) (text : Text) (closed : text.Closed) :
      firstPlace (fun _ text => (afterHead "Stance".toList text).bind
        (someUpTo PackLoader.sectionEnds)) prev text =
        (firstHead "Stance".toList text).bind (someUpTo PackLoader.sectionEnds) := by
    induction text generalizing prev with
    | nil => rfl
    | cons c rest ih =>
        rw [firstPlace, firstHead, ih _ (closed.suffix (List.suffix_cons c rest))]
        cases found : afterHead "Stance".toList (c :: rest) with
        | none => rfl
        | some behind =>
            obtain ⟨d, more, rfl⟩ := List.exists_cons_of_ne_nil (afterHead_ne_nil closed found)
            rfl
  exact place none content closed

end Document

end Minerva
