import Inventory.Text.Property.Derived
import Inventory.Text.Script

/-!
What characters are to the places where a text may be divided: into the units that readers take for one character,
into words and into sentences.
-/

namespace Inventory.Text.Property

open Category

def carriageReturn : CharSet := .ofText ["D"]

def lineFeed : CharSet := .ofText ["A"]

def joiner : CharSet := .ofText ["200D"]

/-- Format characters that stand with the number after them. -/
def numberSign : CharSet := .ofText ["600-605 6DD 890-891 8E2 110BD 110CD"]

def graphemeExtending : CharSet := (graphemeExtend ∪ emojiModifier) \ joiner

def graphemeControl : CharSet :=
  (chars [.cc, .cf, .zl, .zp] ∪ (chars [.cn] ∩ defaultIgnorableCodePoint)) \
    (carriageReturn ∪ lineFeed ∪ joiner ∪ prependedConcatenationMark ∪ graphemeExtend)

def graphemePrepend : CharSet :=
  .ofText
    ["600-605 6DD 70F 890-891 8E2 D4E 110BD 110CD 111C2-111C3 113D1 1193F 11941 11A3A 11A84-11A89 11D46 11F02"]

def graphemeSpacingMark : CharSet :=
  (chars [.mc] \
      (graphemeExtending ∪
        .ofText
          ["102B-102C 1038 1062-1064 1067-106D 1083 1087-108C 108F 109A-109C 1A61 1A63-1A64 AA7B AA7D 11720-11721"])) ∪
    .ofText ["E33 EB3"]

/-- A leading consonant, a vowel and a trailing consonant of Hangul. -/
def hangulLead : CharSet := .ofText ["1100-115F A960-A97C"]

def hangulVowel : CharSet := .ofText ["1160-11A7 D7B0-D7C6 16D63 16D67-16D6A"]

def hangulTrail : CharSet := .ofText ["11A8-11FF D7CB-D7FB"]

/-- Syllables without a trailing consonant, after each of which its syllables with one follow. -/
def hangulOpen : CharSet := .ofCodes ((List.range 399).map fun i => 0xAC00 + 28 * i)

def hangulClosed : CharSet := .ofText ["AC00-D7A3"] \ hangulOpen

def graphemeBreaks : List (List String × CharSet) :=
  [(["Control", "CN"], graphemeControl), (["CR"], carriageReturn), (["LF"], lineFeed),
   (["Extend", "EX"], graphemeExtending), (["Prepend", "PP"], graphemePrepend),
   (["SpacingMark", "SM"], graphemeSpacingMark), (["L"], hangulLead), (["V"], hangulVowel), (["T"], hangulTrail),
   (["LV"], hangulOpen), (["LVT"], hangulClosed), (["Regional_Indicator", "RI"], regionalIndicator),
   (["ZWJ"], joiner)]

def sentenceExtend : CharSet := graphemeExtend ∪ chars [.mc] ∪ joiner

def sentenceFormat : CharSet := chars [.cf] \ (sentenceExtend ∪ numberSign)

def sentenceSeparator : CharSet := .ofText ["85 2028-2029"]

def sentenceSpace : CharSet := whiteSpace \ (sentenceSeparator ∪ carriageReturn ∪ lineFeed)

/-- The letters of Georgian are of neither case, since no sentence begins with a capital one. -/
def sentenceLower : CharSet := lowercase \ (graphemeExtend ∪ .ofText ["10D0-10FA 10FD-10FF"])

def sentenceUpper : CharSet := (uppercase ∪ chars [.lt]) \ .ofText ["1C90-1CBA 1CBD-1CBF"]

def sentenceLetter : CharSet := (alphabetic \ (sentenceLower ∪ sentenceUpper ∪ sentenceExtend)) ∪ .ofText ["5F3"]

def sentenceNumeric : CharSet := digit ∪ numberSign ∪ .ofText ["66B-66C 19DA"]

def sentenceStop : CharSet := .ofText ["2E 2024 FE52 FF0E"]

def sentenceContinue : CharSet :=
  .ofText
    ["2C-2D 3A-3B 37E 55D 60C-60D 7F8 1802 1808 2013-2014 3001 FE10-FE11 FE13-FE14 FE31-FE32 FE50-FE51 FE54-FE55",
     "FE58 FE63 FF0C-FF0D FF1A-FF1B FF64"]

def sentenceClose : CharSet :=
  chars [.ps, .pe, .pi, .pf] ∪ .ofText ["22 27 275B-2760 2E00-2E01 2E06-2E08 2E0B 1F676-1F678"]

def sentenceBreaks : List (List String × CharSet) :=
  [(["CR"], carriageReturn), (["LF"], lineFeed), (["Extend", "EX"], sentenceExtend),
   (["Sep", "SE"], sentenceSeparator), (["Format", "FO"], sentenceFormat), (["Sp"], sentenceSpace),
   (["Lower", "LO"], sentenceLower), (["Upper", "UP"], sentenceUpper), (["OLetter", "LE"], sentenceLetter),
   (["Numeric", "NU"], sentenceNumeric), (["ATerm", "AT"], sentenceStop), (["SContinue", "SC"], sentenceContinue),
   (["STerm", "ST"], sentenceTerminal \ sentenceStop), (["Close", "CL"], sentenceClose)]

def doubleQuote : CharSet := .ofText ["22"]

def newline : CharSet := .ofText ["B-C"] ∪ sentenceSeparator

def wordExtend : CharSet := (sentenceExtend ∪ emojiModifier) \ joiner

def wordFormat : CharSet := chars [.cf] \ (numberSign ∪ .ofText ["70F 200B-200D E0020-E007F"])

def wordNumeric : CharSet := sentenceNumeric \ .ofText ["66C"]

def wordKatakana : CharSet := Script.charsOf ["Katakana"] ∪ .ofText ["3031-3035 309B-309C 30A0 30FC FF70"]

def wordHebrew : CharSet := Script.charsOf ["Hebrew"] ∩ chars [.lo]

/-- The scripts of which no words of letters are made, most of them without spaces between words. -/
def unspaced : CharSet :=
  Script.charsOf
    ["Hiragana", "Thai", "Lao", "Khmer", "Myanmar", "Tai_Le", "New_Tai_Lue", "Tai_Tham", "Tai_Viet", "Ahom"]

def wordLetter : CharSet :=
  (alphabetic \ (ideographic ∪ wordKatakana ∪ wordExtend ∪ wordHebrew ∪ unspaced)) ∪
    .ofText
      ["2C2-2C5 2D2-2D7 2DE-2DF 2E5-2EB 2ED 2EF-2FF 55A-55C 55E 58A 5F3 70F A708-A716 A720-A721 A789-A78A AB5B"]

def wordSpace : CharSet := chars [.zs] \ .ofText ["A0 2007 202F"]

def wordMidNumber : CharSet := .ofText ["2C 3B 37E 589 60C-60D 66C 7F8 2044 FE50 FE54 FF0C FF1B"]

def wordBreaks : List (List String × CharSet) :=
  [(["CR"], carriageReturn), (["LF"], lineFeed), (["Newline", "NL"], newline), (["Extend"], wordExtend),
   (["ZWJ"], joiner), (["Regional_Indicator", "RI"], regionalIndicator), (["Format", "FO"], wordFormat),
   (["Katakana", "KA"], wordKatakana), (["Hebrew_Letter", "HL"], wordHebrew), (["ALetter", "LE"], wordLetter),
   (["Single_Quote", "SQ"], singleQuote), (["Double_Quote", "DQ"], doubleQuote),
   (["MidNumLet", "MB"], midNumLet), (["MidLetter", "ML"], midLetter), (["MidNum", "MN"], wordMidNumber),
   (["Numeric", "NU"], wordNumeric), (["ExtendNumLet", "EX"], chars [.pc] ∪ .ofText ["202F"]),
   (["WSegSpace"], wordSpace)]

end Inventory.Text.Property
