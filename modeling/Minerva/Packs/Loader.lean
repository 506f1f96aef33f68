import Minerva.Library.Regex
import Minerva.Packs.Types

namespace Minerva

open Regex

/-- The characters that `.` does not match, and next to which `^` and `$` hold with the flag m. -/
def lineTerminator (c : Char) : Bool := decide (c.toNat ∈ [10, 13, 0x2028, 0x2029])

/-- Letters with the flag i: characters beyond ASCII match no letter of ASCII. -/
def sameLetter (c d : Char) : Bool := c.toUpper == d.toUpper

def exactly (c d : Char) : Bool := c == d

namespace PackLoader

/-- `/^#\s+(.+)$/m` -/
def nameMatch (content : Text) : Option Text :=
  search
    (seq (assertion (fun prev _ => prev.all lineTerminator))
      (seq (one (exactly '#')) (plus jsWhitespace)))
    (plus (fun c => !lineTerminator c))
    (assertion (fun _ rest => rest.head?.all lineTerminator)) content

/-- `(?=\n\n|\n##|$)` -/
def paragraphEnds (rest : Text) : Bool :=
  "\n\n".toList.isPrefixOf rest || "\n##".toList.isPrefixOf rest || rest.isEmpty

/-- `/^#\s+.+\n\n(.+?)(?=\n\n|\n##|$)/s` -/
def descMatch (content : Text) : Option Text :=
  search
    (seq (assertion (fun prev _ => prev.isNone))
      (seq (one (exactly '#')) (seq (plus jsWhitespace)
        (seq (plus (fun _ => true)) (letters exactly "\n\n".toList)))))
    (lazyPlus (fun _ => true))
    (assertion (fun _ rest => paragraphEnds rest)) content

/-- `(?=\n##|$)` -/
def sectionEnds (rest : Text) : Bool := "\n##".toList.isPrefixOf rest || rest.isEmpty

/-- `##\s+Title\n\n` with the flag i -/
def sectionHead (title : Text) : Pattern :=
  seq (letters sameLetter "##".toList) (seq (plus jsWhitespace)
    (seq (letters sameLetter title) (letters sameLetter "\n\n".toList)))

/-- `/##\s+Stance\n\n(.+?)(?=\n##|$)/is` -/
def stanceMatch (content : Text) : Option Text :=
  search (sectionHead "Stance".toList) (lazyPlus (fun _ => true))
    (assertion (fun _ rest => sectionEnds rest)) content

/-- `/##\s+Rules\n\n([\s\S]*?)(?=\n##|$)/i` -/
def rulesMatch (content : Text) : Option Text :=
  search (sectionHead "Rules".toList) (lazyStar (fun _ => true))
    (assertion (fun _ rest => sectionEnds rest)) content

/-- `line.startsWith('- ') || line.startsWith('* ')` -/
def isBullet (line : Text) : Bool :=
  "- ".toList.isPrefixOf line || "* ".toList.isPrefixOf line

/-- `line.replace(/^[-*]\s+/, '')` -/
def withoutBullet : Text → Text
  | c :: w :: rest =>
    if (c = '-' ∨ c = '*') ∧ jsWhitespace w then rest.dropWhile jsWhitespace else c :: w :: rest
  | line => line

def bullets (content : Text) : List Text :=
  (((Text.lines content).map Text.trim).filter isBullet).map withoutBullet

def parseIdentity (content : Text) : AgentIdentity where
  name := ((nameMatch content).map Text.trim).getD "Unknown Agent".toList
  description := ((descMatch content).map Text.trim).getD []
  stance := ((stanceMatch content).map Text.trim).getD []
  rules := ((rulesMatch content).map bullets).getD []
  rawContent := content

example : parseIdentity "# Test Agent\n\nDescription here.\n\n## Stance\n\nBe helpful.".toList =
    ⟨"Test Agent".toList, "Be helpful.".toList, "Be helpful.".toList, [],
      "# Test Agent\n\nDescription here.\n\n## Stance\n\nBe helpful.".toList⟩ := by
  decide +kernel

end PackLoader

end Minerva
