import Inventory.Text.Blank
import Inventory.Text.Category
import Inventory.Text.LetterCase
import Inventory.Text.Property.Listed

/-!
The properties of characters that follow from their categories, from case folding and from the listed properties.
-/

namespace Inventory.Text.Property

open Category
open LetterCase (folded foldTargets)

def ascii : CharSet := ⟨[(0, 0x7F)]⟩

def whiteSpace : CharSet := ⟨Blank.runs⟩

def digit : CharSet := chars [.nd]

def mark : CharSet := chars [.mn, .mc, .me]

def lowercase : CharSet := chars [.ll] ∪ otherLowercase

def uppercase : CharSet := chars [.lu] ∪ otherUppercase

def cased : CharSet := lowercase ∪ uppercase ∪ chars [.lt]

def alphabetic : CharSet := cased ∪ chars [.lm, .lo, .nl] ∪ otherAlphabetic

def math : CharSet := chars [.sm] ∪ otherMath

/-- The characters of words. -/
def word : CharSet := alphabetic ∪ mark ∪ digit ∪ chars [.pc] ∪ joinControl

def idStart : CharSet :=
  (chars [.lu, .ll, .lt, .lm, .lo, .nl] ∪ otherIDStart) \ (patternSyntax ∪ patternWhiteSpace)

def idContinue : CharSet :=
  (idStart ∪ chars [.mn, .mc, .nd, .pc] ∪ otherIDContinue) \ (patternSyntax ∪ patternWhiteSpace)

/-- Characters whose compatibility forms hold one that continues no identifier. -/
def brokenForms : CharSet :=
  .ofText ["37A 309B-309C FC5E-FC63 FDFA-FDFB FE70 FE72 FE74 FE76 FE78 FE7A FE7C FE7E"]

def xidContinue : CharSet := idContinue \ brokenForms

/-- Those are left out too whose compatibility forms begin with one that starts no identifier. -/
def xidStart : CharSet := idStart \ (brokenForms ∪ .ofText ["E33 EB3 FF9E-FF9F"])

def graphemeExtend : CharSet := chars [.mn, .me] ∪ otherGraphemeExtend

def graphemeBase : CharSet := .all \ (chars [.cc, .cf, .cs, .co, .cn, .zl, .zp] ∪ graphemeExtend)

def defaultIgnorableCodePoint : CharSet :=
  (otherDefaultIgnorableCodePoint ∪ chars [.cf] ∪ variationSelector) \
    (whiteSpace ∪ prependedConcatenationMark ∪ .ofText ["FFF9-FFFB 13430-13440"])

def midLetter : CharSet := .ofText ["3A B7 387 55F 5F4 2027 FE13 FE55 FF1A"]

def midNumLet : CharSet := .ofText ["2E 2018-2019 2024 FE52 FF07 FF0E"]

def singleQuote : CharSet := .ofText ["27"]

def caseIgnorable : CharSet := chars [.mn, .me, .cf, .lm, .sk] ∪ midLetter ∪ midNumLet ∪ singleQuote

/-- Small letters whose capitals are more than one character. -/
def spelledOutCapitals : CharSet :=
  .ofText
    ["149 1F0 587 1E96-1E9A 1F50 1F52 1F54 1F56 1FB2 1FB4 1FB6-1FB7 1FC2 1FC4 1FC6-1FC7 1FD2 1FD6-1FD7 1FE2 1FE4",
     "1FE6-1FE7 1FF2 1FF4 1FF6-1FF7 FB00-FB04 FB13-FB17"]

/-- The small letters of Cherokee are folded to the capitals. -/
def changesWhenLowercased : CharSet := (folded \ lowercase) ∪ .ofText ["130 13A0-13F5"]

def changesWhenUppercased : CharSet :=
  ((folded ∪ foldTargets) ∩ (lowercase ∪ chars [.lt])) ∪ spelledOutCapitals ∪ .ofText ["131"]

/-- The letters of Georgian have capitals but are not written with one at the beginning of a word. -/
def changesWhenTitlecased : CharSet :=
  (((folded ∪ foldTargets) ∩ lowercase) \ .ofText ["10D0-10FA 10FD-10FF"]) ∪ spelledOutCapitals ∪
    .ofText ["131 1C4 1C7 1CA 1F1"]

def changesWhenCasemapped : CharSet := changesWhenLowercased ∪ changesWhenUppercased ∪ changesWhenTitlecased

/-- Full folding, which makes more than one character of some. -/
def changesWhenCasefolded : CharSet :=
  (folded \ .ofText ["1FBE 1FD3 1FE3"]) ∪
    .ofText
      ["DF 130 149 587 1E9A 1F80-1F87 1F90-1F97 1FA0-1FA7 1FB2-1FB4 1FB7 1FC2-1FC4 1FC7 1FF2-1FF4 1FF7 FB00-FB04",
       "FB06 FB13-FB17"]

end Inventory.Text.Property
