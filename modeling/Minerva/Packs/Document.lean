import Minerva.Packs.Lines
import Minerva.Packs.Loader

namespace Minerva

open Regex

theorem sameLetter_iff {c : Char} (sign : c.toNat < 65) (d : Char) :
    sameLetter c d = true ↔ d = c := by
  have low : c.toUpper = c := by
    unfold Char.toUpper
    rw [dif_neg]
    intro inside
    have large : 97 ≤ c.toNat := inside.1
    omega
  unfold sameLetter
  rw [beq_iff_eq, low]
  constructor
  · intro same
    unfold Char.toUpper at same
    split at same
    · next inside =>
        exfalso
        have least : 97 ≤ d.toNat := inside.1
        have shifted : d.val + ('A'.val - 'a'.val) = d.val - 32 := by grind
        have value : c.toNat = d.toNat - 32 := by
          rw [same]
          change (d.val + ('A'.val - 'a'.val)).toNat = d.val.toNat - 32
          rw [shifted, UInt32.toNat_sub_of_le]
          · rfl
          · exact Nat.le_trans (by decide) least
        have most : d.toNat ≤ 122 := inside.2
        omega
    · exact same.symm
  · rintro rfl
    exact low.symm

theorem white_of_lineTerminator {c : Char} (ends : lineTerminator c = true) :
    jsWhitespace c = true := by
  simp only [lineTerminator, jsWhitespace, decide_eq_true_eq, List.mem_cons, List.not_mem_nil,
    or_false] at ends ⊢
  omega

namespace Document

/-- The title of a heading: the rest of the first line with text after `#` and white space. If
nothing but white space follows, it is blank, or there is none. -/
def title (text : Text) : Option Text :=
  match text.dropWhile jsWhitespace with
  | [] => if text.all lineTerminator then none else some []
  | title => some (Text.trim (title.takeWhile (fun c => !lineTerminator c)))

def headingAt (prev : Option Char) (text : Text) : Option Text :=
  if prev.all lineTerminator then afterOne (exactly '#') (afterOne jsWhitespace title) text else none

def heading (content : Text) : Option Text := firstPlace headingAt none content

/-- What follows an empty line, up to the end of its paragraph; at least one character. -/
def afterBreak (text : Text) : Option Text :=
  (afterWord exactly "\n\n".toList text).bind (someUpTo PackLoader.paragraphEnds)

def lastParagraph (content : Text) : Option Text :=
  afterOne (exactly '#') (afterOne jsWhitespace (afterOne (fun _ => true) (lastSuffix afterBreak)))
    content

def afterNamed (title text : Text) : Option Text :=
  (afterWord sameLetter "##".toList text).bind
    (afterOne jsWhitespace (fun rest => afterWord sameLetter title (rest.dropWhile jsWhitespace)))

def afterHead (title text : Text) : Option Text :=
  (afterNamed title text).bind (afterWord sameLetter "\n\n".toList)

def stance (content : Text) : Option Text :=
  firstPlace (fun _ text => (afterHead "Stance".toList text).bind (someUpTo PackLoader.sectionEnds))
    none content

def rules (content : Text) : Option Text :=
  firstPlace (fun _ text => (afterHead "Rules".toList text).map (upTo PackLoader.sectionEnds))
    none content

end Document

open Document

theorem title_cons (c : Char) (rest : Text) :
    title (c :: rest) = if jsWhitespace c = true then
        (title rest).or (if lineTerminator c = true then none else some [])
      else some (Text.trim (c :: rest.takeWhile (fun c => !lineTerminator c))) := by
  by_cases white : jsWhitespace c = true
  · rw [if_pos white, title, title, List.dropWhile_cons_of_pos white]
    split
    · simp only [List.all_cons, Bool.and_eq_true]
      by_cases ends : lineTerminator c = true <;> by_cases all : rest.all lineTerminator = true <;>
        simp [ends, all]
    · rfl
  · have visible : lineTerminator c = false := by
      rw [Bool.eq_false_iff]
      exact fun ends => white (white_of_lineTerminator ends)
    rw [if_neg white, title, List.dropWhile_cons_of_neg white]
    simp [visible]

theorem title_eq (text : Text) :
    (greedyWays jsWhitespace text).findSome? (fun way =>
      (run (fun c => !lineTerminator c) way.2).map Text.trim) = title text := by
  induction text with
  | nil => rfl
  | cons c rest ih =>
      rw [title_cons]
      by_cases white : jsWhitespace c = true
      · rw [greedyWays, if_pos white, if_pos white, List.findSome?_append, List.findSome?_map]
        simp only [Function.comp_def, ih, List.findSome?_singleton]
        cases found : title rest with
        | some text => rfl
        | none =>
            -- nothing but white space follows, so that the run is blank
            have blank : ∀ d ∈ c :: rest, jsWhitespace d = true := by
              unfold title at found
              split at found
              · next stripped =>
                  exact List.forall_mem_cons.mpr ⟨white, List.dropWhile_eq_nil_iff.mp stripped⟩
              · cases found
            by_cases ends : lineTerminator c = true
            · simp [run, ends]
            · have trimmed : Text.trim (c :: rest.takeWhile (fun c => !lineTerminator c)) = [] := by
                apply Text.trim_of_white
                intro d member
                rcases List.mem_cons.mp member with rfl | later
                · exact white
                · exact blank d (List.mem_cons_of_mem _ (List.takeWhile_subset _ later))
              simp [run, ends, trimmed]
      · have visible : lineTerminator c = false := by
          rw [Bool.eq_false_iff]
          exact fun ends => white (white_of_lineTerminator ends)
        rw [greedyWays, if_neg white, if_neg white]
        simp [run, visible]

theorem heading_eq (content : Text) :
    (PackLoader.nameMatch content).map Text.trim = heading content := by
  unfold PackLoader.nameMatch search heading
  rw [firstPlace_map]
  congr 1
  funext prev text
  let shown : Text → Option Text := fun text =>
    (run (fun c => !lineTerminator c) text).map Text.trim
  have spaced (prev : Option Char) (text : Text) :
      (plus jsWhitespace prev text).findSome? (fun way => shown way.2) =
        afterOne jsWhitespace title text := by
    have tried := findSome_plus jsWhitespace shown prev text
    simp only [shown, title_eq] at tried
    exact tried
  have marked (prev : Option Char) (text : Text) :
      (seq (one (exactly '#')) (plus jsWhitespace) prev text).findSome? (fun way => shown way.2) =
        afterOne (exactly '#') (afterOne jsWhitespace title) text :=
    (findSome_seq_of spaced prev text).trans (findSome_one (exactly '#') _ prev text)
  rw [captureAt_plus _ _ _ (fun c refused => by simpa using refused), List.map_findSome?]
  exact (findSome_seq_of marked prev text).trans (findSome_assertion _ _ prev text)

theorem lastSuffix_kept {β : Type} (find : Text → Option β) (c : Char) (rest : Text) (result : β)
    (found : lastSuffix find rest = some result) : lastSuffix find (c :: rest) = some result := by
  rw [lastSuffix, found]
  rfl

theorem lastParagraph_eq (content : Text) : PackLoader.descMatch content = lastParagraph content := by
  let shown : Text → Option Text := someUpTo PackLoader.paragraphEnds
  let body : Text → Option Text := afterOne (fun _ => true) (lastSuffix afterBreak)
  have kept (c : Char) (rest : Text) (result : Text) (found : body rest = some result) :
      body (c :: rest) = some result := by
    cases rest with
    | nil => cases found
    | cons d more => exact lastSuffix_kept afterBreak d more result found
  have broken (prev : Option Char) (text : Text) :
      (letters exactly "\n\n".toList prev text).findSome? (fun way => shown way.2) =
        afterBreak text := findSome_letters shown exactly _ prev text
  have lined (prev : Option Char) (text : Text) :
      (seq (plus (fun _ => true)) (letters exactly "\n\n".toList) prev text).findSome?
        (fun way => shown way.2) = body text :=
    (findSome_seq_of broken prev text).trans (findSome_plus_any afterBreak prev text)
  have spaced (prev : Option Char) (text : Text) :
      (seq (plus jsWhitespace) (seq (plus (fun _ => true)) (letters exactly "\n\n".toList)) prev
        text).findSome? (fun way => shown way.2) = afterOne jsWhitespace body text :=
    (findSome_seq_of lined prev text).trans (findSome_plus_shortest jsWhitespace body kept prev text)
  have marked (prev : Option Char) (text : Text) :
      (seq (one (exactly '#')) (seq (plus jsWhitespace) (seq (plus (fun _ => true))
        (letters exactly "\n\n".toList))) prev text).findSome? (fun way => shown way.2) =
          lastParagraph text :=
    (findSome_seq_of spaced prev text).trans (findSome_one (exactly '#') _ prev text)
  unfold PackLoader.descMatch search
  have places : (fun prev text => (captureAt
      (seq (assertion (fun prev _ => prev.isNone)) (seq (one (exactly '#')) (seq (plus jsWhitespace)
        (seq (plus (fun _ => true)) (letters exactly "\n\n".toList)))))
      (lazyPlus (fun _ => true)) (assertion (fun _ rest => PackLoader.paragraphEnds rest)) prev
        text).head?) = fun prev text => if prev.isNone then lastParagraph text else none := by
    funext prev text
    rw [captureAt_lazyPlus PackLoader.paragraphEnds _ rfl]
    exact (findSome_seq_of marked prev text).trans (findSome_assertion _ _ prev text)
  rw [places, firstPlace_start (fun c text => rfl)]
  rfl

theorem afterHead_eq {title : Text} {first : Char} (starts : title.head? = some first)
    (visible : ∀ d, sameLetter first d = true → jsWhitespace d = false) {β : Type}
    (find : Text → Option β) (prev : Option Char) (text : Text) :
    (PackLoader.sectionHead title prev text).findSome? (fun way => find way.2) =
      (afterHead title text).bind find := by
  let ended : Text → Option β := fun text => (afterWord sameLetter "\n\n".toList text).bind find
  let named : Text → Option β := fun text => (afterWord sameLetter title text).bind ended
  have stuck (c : Char) (rest : Text) (white : jsWhitespace c = true) : named (c :: rest) = none := by
    cases title with
    | nil => simp at starts
    | cons d more =>
        have different : sameLetter d c = false := by
          rw [Bool.eq_false_iff]
          intro same
          rw [List.head?_cons, Option.some_inj] at starts
          rw [visible c (starts ▸ same)] at white
          exact absurd white (by decide)
        simp [named, afterWord, different]
  have titled (prev : Option Char) (text : Text) :
      (seq (letters sameLetter title) (letters sameLetter "\n\n".toList) prev text).findSome?
        (fun way => find way.2) = named text :=
    (findSome_seq_of (findSome_letters find sameLetter _) prev text).trans
      (findSome_letters ended sameLetter title prev text)
  have spaced (prev : Option Char) (text : Text) :
      (seq (plus jsWhitespace) (seq (letters sameLetter title)
        (letters sameLetter "\n\n".toList)) prev text).findSome? (fun way => find way.2) =
          afterOne jsWhitespace (fun rest => named (rest.dropWhile jsWhitespace)) text :=
    (findSome_seq_of titled prev text).trans
      (findSome_plus_longest jsWhitespace named stuck prev text)
  have whole := (findSome_seq_of spaced prev text).trans
    (findSome_letters _ sameLetter "##".toList prev text)
  refine whole.trans ?_
  rw [afterHead, afterNamed, Option.bind_assoc, Option.bind_assoc]
  congr 1
  funext rest
  cases rest with
  | nil => rfl
  | cons w rest =>
      simp only [afterOne, named, ended]
      split <;> rfl

theorem letter_visible {c : Char} (visible : jsWhitespace c.toUpper = false) (d : Char)
    (same : sameLetter c d = true) : jsWhitespace d = false := by
  rw [Bool.eq_false_iff]
  intro white
  have small : d.toUpper = d := by
    unfold Char.toUpper
    rw [dif_neg]
    rintro ⟨least, most⟩
    have low : 97 ≤ d.toNat := least
    have high : d.toNat ≤ 122 := most
    simp only [jsWhitespace, decide_eq_true_eq, List.mem_cons, List.not_mem_nil, or_false] at white
    omega
  rw [sameLetter, beq_iff_eq, small] at same
  rw [same, white] at visible
  exact absurd visible (by decide)

theorem stance_eq (content : Text) : PackLoader.stanceMatch content = stance content := by
  unfold PackLoader.stanceMatch search stance
  congr 1
  funext prev text
  rw [captureAt_lazyPlus PackLoader.sectionEnds _ rfl]
  exact afterHead_eq rfl (letter_visible (by decide)) _ prev text

theorem rules_eq (content : Text) : PackLoader.rulesMatch content = rules content := by
  unfold PackLoader.rulesMatch search rules
  congr 1
  funext prev text
  rw [captureAt_lazyStar PackLoader.sectionEnds _ rfl]
  refine (afterHead_eq rfl (letter_visible (by decide))
    (fun rest => some (upTo PackLoader.sectionEnds rest)) prev text).trans ?_
  cases afterHead "Rules".toList text <;> rfl

end Minerva
