import Inventory.Text.Age
import Inventory.Text.Property.Break

/-!
The names by which patterns ask for sets of characters. Only letters and digits of a name count, in either case, and
a leading `is` does not.
-/

namespace Inventory.Text.Property

open Category

def plainName (name : List Char) : String :=
  String.ofList ((name.filter fun c => c.toNat < 128 && c != ' ' && c != '_' && c != '-').map Char.toLower)

/-- A name as it is compared. The `is` of `isc` belongs to it. -/
def key : List Char → String
  | i :: s :: name =>
    if i.toLower = 'i' ∧ s.toLower = 's' ∧ plainName name ≠ "c" then plainName name else plainName (i :: s :: name)
  | name => plainName name

/-- Sets by each of their names, as these are compared. -/
def indexed (sets : List (List String × CharSet)) : List (String × CharSet) :=
  sets.flatMap fun e => e.1.map fun name => (plainName name.toList, e.2)

/-- No character is a surrogate. -/
def categories : List (String × CharSet) :=
  indexed
    ([(["L", "Letter"], chars [.lu, .ll, .lt, .lm, .lo]),
      (["LC", "Cased_Letter"], chars [.lu, .ll, .lt]),
      (["M", "Mark", "Combining_Mark"], mark),
      (["N", "Number"], chars [.nd, .nl, .no]),
      (["P", "Punctuation", "punct"], chars [.pc, .pd, .ps, .pe, .pi, .pf, .po]),
      (["S", "Symbol"], chars [.sm, .sc, .sk, .so]),
      (["Z", "Separator"], chars [.zs, .zl, .zp]),
      (["C", "Other"], chars [.cc, .cf, .cs, .co, .cn]),
      (["digit"], digit),
      (["cntrl"], chars [.cc]),
      (["Any"], .all),
      (["Assigned"], .all \ chars [.cn]),
      (["ASCII"], ascii)] ++
      (names.filter (·.1 != .cs)).map fun e => ([e.2.1, e.2.2], chars [e.1]))

def scripts : List (String × CharSet) := indexed (Script.list.map fun s => (s.names, s.chars))

def scriptExtensions : List (String × CharSet) := indexed (Script.list.map fun s => (s.names, s.used))

def ages : List (String × CharSet) :=
  indexed ((List.range Age.added.length).zip Age.added |>.map fun (n, version, _) => (Age.names version, Age.known n))

/-- The properties that a character has or has not. -/
def binary : List (String × CharSet) :=
  indexed
    [(["ASCII_Hex_Digit", "AHex"], asciiHexDigit),
     (["Alphabetic", "Alpha"], alphabetic),
     (["Bidi_Control", "Bidi_C"], bidiControl),
     (["Bidi_Mirrored", "Bidi_M"], bidiMirrored),
     (["Case_Ignorable", "CI"], caseIgnorable),
     (["Cased"], cased),
     (["Changes_When_Casefolded", "CWCF"], changesWhenCasefolded),
     (["Changes_When_Casemapped", "CWCM"], changesWhenCasemapped),
     (["Changes_When_Lowercased", "CWL"], changesWhenLowercased),
     (["Changes_When_Titlecased", "CWT"], changesWhenTitlecased),
     (["Changes_When_Uppercased", "CWU"], changesWhenUppercased),
     (["Dash"], dash),
     (["Default_Ignorable_Code_Point", "DI"], defaultIgnorableCodePoint),
     (["Deprecated", "Dep"], deprecated),
     (["Diacritic", "Dia"], diacritic),
     (["Emoji"], emoji),
     (["Emoji_Component", "EComp"], emojiComponent),
     (["Emoji_Modifier", "EMod"], emojiModifier),
     (["Emoji_Modifier_Base", "EBase"], emojiModifierBase),
     (["Emoji_Presentation", "EPres"], emojiPresentation),
     (["Extended_Pictographic", "ExtPict"], extendedPictographic),
     (["Extender", "Ext"], extender),
     (["Grapheme_Base", "Gr_Base"], graphemeBase),
     (["Grapheme_Extend", "Gr_Ext"], graphemeExtend),
     (["Grapheme_Link", "Gr_Link"], graphemeLink),
     (["Hex_Digit", "Hex"], hexDigit),
     (["Hyphen"], hyphen),
     (["IDS_Binary_Operator", "IDSB"], idsBinaryOperator),
     (["IDS_Trinary_Operator", "IDST"], idsTrinaryOperator),
     (["IDS_Unary_Operator", "IDSU"], idsUnaryOperator),
     (["ID_Compat_Math_Continue"], idCompatMathContinue),
     (["ID_Compat_Math_Start"], idCompatMathStart),
     (["ID_Continue", "IDC"], idContinue),
     (["ID_Start", "IDS"], idStart),
     (["Ideographic", "Ideo"], ideographic),
     (["Join_Control", "Join_C"], joinControl),
     (["Logical_Order_Exception", "LOE"], logicalOrderException),
     (["Lowercase", "Lower"], lowercase),
     (["Math"], math),
     (["Modifier_Combining_Mark", "MCM"], modifierCombiningMark),
     (["Noncharacter_Code_Point", "NChar"], noncharacterCodePoint),
     (["Other_Alphabetic", "OAlpha"], otherAlphabetic),
     (["Other_Default_Ignorable_Code_Point", "ODI"], otherDefaultIgnorableCodePoint),
     (["Other_Grapheme_Extend", "OGr_Ext"], otherGraphemeExtend),
     (["Other_ID_Continue", "OIDC"], otherIDContinue),
     (["Other_ID_Start", "OIDS"], otherIDStart),
     (["Other_Lowercase", "OLower"], otherLowercase),
     (["Other_Math", "OMath"], otherMath),
     (["Other_Uppercase", "OUpper"], otherUppercase),
     (["Pattern_Syntax", "Pat_Syn"], patternSyntax),
     (["Pattern_White_Space", "Pat_WS"], patternWhiteSpace),
     (["Prepended_Concatenation_Mark", "PCM"], prependedConcatenationMark),
     (["Quotation_Mark", "QMark"], quotationMark),
     (["Radical"], radical),
     (["Regional_Indicator", "RI"], regionalIndicator),
     (["Sentence_Terminal", "STerm"], sentenceTerminal),
     (["Soft_Dotted", "SD"], softDotted),
     (["Terminal_Punctuation", "Term"], terminalPunctuation),
     (["Unified_Ideograph", "UIdeo"], unifiedIdeograph),
     (["Uppercase", "Upper"], uppercase),
     (["Variation_Selector", "VS"], variationSelector),
     (["White_Space", "WSpace", "space"], whiteSpace),
     (["XID_Continue", "XIDC"], xidContinue),
     (["XID_Start", "XIDS"], xidStart)]

/-- The set of a name that stands alone. -/
def ofName? (name : List Char) : Option CharSet :=
  let k := key name
  binary.lookup k <|> categories.lookup k <|> scripts.lookup k

/-- The properties with values, and the sets of these. -/
def valued : List (List String × List (String × CharSet)) :=
  [(["generalcategory", "gc"], categories), (["script", "sc"], scripts),
   (["scriptextensions", "scx"], scriptExtensions), (["age"], ages),
   (["graphemeclusterbreak", "gcb"], indexed graphemeBreaks), (["wordbreak", "wb"], indexed wordBreaks),
   (["sentencebreak", "sb"], indexed sentenceBreaks)]

def ofValue? (name value : List Char) : Option CharSet :=
  (valued.find? (·.1.contains (key name))).bind fun e => e.2.lookup (key value)

/-- The set that a pattern asks for, and whether it asks for the characters outside it. -/
def ofQuery? (query : List Char) : Option (CharSet × Bool) :=
  match cut? ['!', '='] query with
  | some (name, value) => (ofValue? name value).map (·, true)
  | none =>
    match cut? [':'] query <|> cut? ['='] query with
    | some (name, value) => (ofValue? name value).map (·, false)
    | none => (ofName? query).map (·, false)

end Inventory.Text.Property
