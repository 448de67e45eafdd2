import TabFormat.Text.Blank
import TabFormat.Text.Category
import TabFormat.Text.Script

/-!
# Properties of characters

The properties by which patterns choose characters. A property is named as in the standard, without
regard to letter case, spaces, underscores and hyphens, and may begin with `is`: a general category
or a group of them, a script, or one of a few properties that a character has or lacks.
-/

namespace TabFormat.Text

/-- Whether a code point lies in one of several closed ranges. -/
def inRanges (ranges : List (Nat × Nat)) (n : Nat) : Bool :=
  ranges.any fun r => r.1 ≤ n && n ≤ r.2

/-- The alphabetic characters that are neither letters nor letter-like numbers. -/
def otherAlphabetic : List (Nat × Nat) :=
  [(0x345, 0x345), (0x363, 0x36F), (0x5B0, 0x5BD), (0x5BF, 0x5BF), (0x5C1, 0x5C2), (0x5C4, 0x5C5),
    (0x5C7, 0x5C7), (0x610, 0x61A), (0x64B, 0x657), (0x659, 0x65F), (0x670, 0x670), (0x6D6, 0x6DC),
    (0x6E1, 0x6E4), (0x6E7, 0x6E8), (0x6ED, 0x6ED), (0x711, 0x711), (0x730, 0x73F), (0x7A6, 0x7B0),
    (0x816, 0x817), (0x81B, 0x823), (0x825, 0x827), (0x829, 0x82C), (0x897, 0x897), (0x8D4, 0x8DF),
    (0x8E3, 0x8E9), (0x8F0, 0x903), (0x93A, 0x93B), (0x93E, 0x94C), (0x94E, 0x94F), (0x955, 0x957),
    (0x962, 0x963), (0x981, 0x983), (0x9BE, 0x9C4), (0x9C7, 0x9C8), (0x9CB, 0x9CC), (0x9D7, 0x9D7),
    (0x9E2, 0x9E3), (0xA01, 0xA03), (0xA3E, 0xA42), (0xA47, 0xA48), (0xA4B, 0xA4C), (0xA51, 0xA51),
    (0xA70, 0xA71), (0xA75, 0xA75), (0xA81, 0xA83), (0xABE, 0xAC5), (0xAC7, 0xAC9), (0xACB, 0xACC),
    (0xAE2, 0xAE3), (0xAFA, 0xAFC), (0xB01, 0xB03), (0xB3E, 0xB44), (0xB47, 0xB48), (0xB4B, 0xB4C),
    (0xB56, 0xB57), (0xB62, 0xB63), (0xB82, 0xB82), (0xBBE, 0xBC2), (0xBC6, 0xBC8), (0xBCA, 0xBCC),
    (0xBD7, 0xBD7), (0xC00, 0xC04), (0xC3E, 0xC44), (0xC46, 0xC48), (0xC4A, 0xC4C), (0xC55, 0xC56),
    (0xC62, 0xC63), (0xC81, 0xC83), (0xCBE, 0xCC4), (0xCC6, 0xCC8), (0xCCA, 0xCCC), (0xCD5, 0xCD6),
    (0xCE2, 0xCE3), (0xCF3, 0xCF3), (0xD00, 0xD03), (0xD3E, 0xD44), (0xD46, 0xD48), (0xD4A, 0xD4C),
    (0xD57, 0xD57), (0xD62, 0xD63), (0xD81, 0xD83), (0xDCF, 0xDD4), (0xDD6, 0xDD6), (0xDD8, 0xDDF),
    (0xDF2, 0xDF3), (0xE31, 0xE31), (0xE34, 0xE3A), (0xE4D, 0xE4D), (0xEB1, 0xEB1), (0xEB4, 0xEB9),
    (0xEBB, 0xEBC), (0xECD, 0xECD), (0xF71, 0xF83), (0xF8D, 0xF97), (0xF99, 0xFBC),
    (0x102B, 0x1036), (0x1038, 0x1038), (0x103B, 0x103E), (0x1056, 0x1059), (0x105E, 0x1060),
    (0x1062, 0x1064), (0x1067, 0x106D), (0x1071, 0x1074), (0x1082, 0x108D), (0x108F, 0x108F),
    (0x109A, 0x109D), (0x1712, 0x1713), (0x1732, 0x1733), (0x1752, 0x1753), (0x1772, 0x1773),
    (0x17B6, 0x17C8), (0x1885, 0x1886), (0x18A9, 0x18A9), (0x1920, 0x192B), (0x1930, 0x1938),
    (0x1A17, 0x1A1B), (0x1A55, 0x1A5E), (0x1A61, 0x1A74), (0x1ABF, 0x1AC0), (0x1ACC, 0x1ACE),
    (0x1B00, 0x1B04), (0x1B35, 0x1B43), (0x1B80, 0x1B82), (0x1BA1, 0x1BA9), (0x1BAC, 0x1BAD),
    (0x1BE7, 0x1BF1), (0x1C24, 0x1C36), (0x1DD3, 0x1DF4), (0x24B6, 0x24E9), (0x2DE0, 0x2DFF),
    (0xA674, 0xA67B), (0xA69E, 0xA69F), (0xA802, 0xA802), (0xA80B, 0xA80B), (0xA823, 0xA827),
    (0xA880, 0xA881), (0xA8B4, 0xA8C3), (0xA8C5, 0xA8C5), (0xA8FF, 0xA8FF), (0xA926, 0xA92A),
    (0xA947, 0xA952), (0xA980, 0xA983), (0xA9B4, 0xA9BF), (0xA9E5, 0xA9E5), (0xAA29, 0xAA36),
    (0xAA43, 0xAA43), (0xAA4C, 0xAA4D), (0xAA7B, 0xAA7D), (0xAAB0, 0xAAB0), (0xAAB2, 0xAAB4),
    (0xAAB7, 0xAAB8), (0xAABE, 0xAABE), (0xAAEB, 0xAAEF), (0xAAF5, 0xAAF5), (0xABE3, 0xABEA),
    (0xFB1E, 0xFB1E), (0x10376, 0x1037A), (0x10A01, 0x10A03), (0x10A05, 0x10A06),
    (0x10A0C, 0x10A0F), (0x10D24, 0x10D27), (0x10D69, 0x10D69), (0x10EAB, 0x10EAC),
    (0x10EFA, 0x10EFC), (0x11000, 0x11002), (0x11038, 0x11045), (0x11073, 0x11074),
    (0x11080, 0x11082), (0x110B0, 0x110B8), (0x110C2, 0x110C2), (0x11100, 0x11102),
    (0x11127, 0x11132), (0x11145, 0x11146), (0x11180, 0x11182), (0x111B3, 0x111BF),
    (0x111CE, 0x111CF), (0x1122C, 0x11234), (0x11237, 0x11237), (0x1123E, 0x1123E),
    (0x11241, 0x11241), (0x112DF, 0x112E8), (0x11300, 0x11303), (0x1133E, 0x11344),
    (0x11347, 0x11348), (0x1134B, 0x1134C), (0x11357, 0x11357), (0x11362, 0x11363),
    (0x113B8, 0x113C0), (0x113C2, 0x113C2), (0x113C5, 0x113C5), (0x113C7, 0x113CA),
    (0x113CC, 0x113CD), (0x11435, 0x11441), (0x11443, 0x11445), (0x114B0, 0x114C1),
    (0x115AF, 0x115B5), (0x115B8, 0x115BE), (0x115DC, 0x115DD), (0x11630, 0x1163E),
    (0x11640, 0x11640), (0x116AB, 0x116B5), (0x1171D, 0x1172A), (0x1182C, 0x11838),
    (0x11930, 0x11935), (0x11937, 0x11938), (0x1193B, 0x1193C), (0x11940, 0x11940),
    (0x11942, 0x11942), (0x119D1, 0x119D7), (0x119DA, 0x119DF), (0x119E4, 0x119E4),
    (0x11A01, 0x11A0A), (0x11A35, 0x11A39), (0x11A3B, 0x11A3E), (0x11A51, 0x11A5B),
    (0x11A8A, 0x11A97), (0x11B60, 0x11B67), (0x11C2F, 0x11C36), (0x11C38, 0x11C3E),
    (0x11C92, 0x11CA7), (0x11CA9, 0x11CB6), (0x11D31, 0x11D36), (0x11D3A, 0x11D3A),
    (0x11D3C, 0x11D3D), (0x11D3F, 0x11D41), (0x11D43, 0x11D43), (0x11D47, 0x11D47),
    (0x11D8A, 0x11D8E), (0x11D90, 0x11D91), (0x11D93, 0x11D96), (0x11EF3, 0x11EF6),
    (0x11F00, 0x11F01), (0x11F03, 0x11F03), (0x11F34, 0x11F3A), (0x11F3E, 0x11F40),
    (0x1611E, 0x1612E), (0x16F4F, 0x16F4F), (0x16F51, 0x16F87), (0x16F8F, 0x16F92),
    (0x16FF0, 0x16FF1), (0x1BC9E, 0x1BC9E), (0x1E000, 0x1E006), (0x1E008, 0x1E018),
    (0x1E01B, 0x1E021), (0x1E023, 0x1E024), (0x1E026, 0x1E02A), (0x1E08F, 0x1E08F),
    (0x1E6E3, 0x1E6E3), (0x1E6E6, 0x1E6E6), (0x1E6EE, 0x1E6EF), (0x1E6F5, 0x1E6F5),
    (0x1E947, 0x1E947), (0x1F130, 0x1F149), (0x1F150, 0x1F169), (0x1F170, 0x1F189)]

/-- The lowercase characters that are not lowercase letters. -/
def otherLowercase : List (Nat × Nat) :=
  [(0xAA, 0xAA), (0xBA, 0xBA), (0x2B0, 0x2B8), (0x2C0, 0x2C1), (0x2E0, 0x2E4), (0x345, 0x345),
    (0x37A, 0x37A), (0x10FC, 0x10FC), (0x1D2C, 0x1D6A), (0x1D78, 0x1D78), (0x1D9B, 0x1DBF),
    (0x2071, 0x2071), (0x207F, 0x207F), (0x2090, 0x209C), (0x2170, 0x217F), (0x24D0, 0x24E9),
    (0x2C7C, 0x2C7D), (0xA69C, 0xA69D), (0xA770, 0xA770), (0xA7F1, 0xA7F4), (0xA7F8, 0xA7F9),
    (0xAB5C, 0xAB5F), (0xAB69, 0xAB69), (0x10780, 0x10780), (0x10783, 0x10785), (0x10787, 0x107B0),
    (0x107B2, 0x107BA), (0x1E030, 0x1E06D)]

/-- The uppercase characters that are not capital letters. -/
def otherUppercase : List (Nat × Nat) :=
  [(0x2160, 0x216F), (0x24B6, 0x24CF), (0x1F130, 0x1F149), (0x1F150, 0x1F169), (0x1F170, 0x1F189)]

/-- Whether the character is alphabetic. -/
def isAlphabetic (c : Char) : Bool :=
  inCategory "L" c || inCategory "Nl" c || inRanges otherAlphabetic c.toNat

/-- Whether the character is alphabetic or a number. Among the ASCII characters these are the
letters and digits, for which the tables are not searched. -/
def isAlphanumeric (c : Char) : Bool :=
  if c.toNat < 128 then c.isAlphanum else isAlphabetic c || inCategory "N" c

/-- Whether the character belongs to words: alphabetic characters, marks, decimal digits, connector
punctuation, and the zero-width joiner and non-joiner. -/
def isWord (c : Char) : Bool :=
  isAlphabetic c || inCategory "M" c || inCategory "Nd" c || inCategory "Pc" c ||
    c == '\u200c' || c == '\u200d'

/-- A property of characters that can be asked for by name. -/
inductive Property where
  /-- Every character. -/
  | any
  /-- The ASCII characters. -/
  | ascii
  /-- The characters that are assigned. -/
  | assigned
  /-- The alphabetic characters. -/
  | alphabetic
  /-- The lowercase characters. -/
  | lowercase
  /-- The uppercase characters. -/
  | uppercase
  /-- White space. -/
  | whiteSpace
  /-- The digits of hexadecimal numbers. -/
  | hexDigit (wide : Bool)
  /-- The characters of a general category or of a group of them. -/
  | category (code : String)
  /-- The characters of a script. -/
  | script (code : String)
deriving DecidableEq, Repr

namespace Property

/-- Whether a character has the property. -/
def holds : Property → Char → Bool
  | any, _ => true
  | ascii, c => c.toNat < 128
  | assigned, c => !inCategory "Cn" c
  | alphabetic, c => isAlphabetic c
  | lowercase, c => inCategory "Ll" c || inRanges otherLowercase c.toNat
  | uppercase, c => inCategory "Lu" c || inRanges otherUppercase c.toNat
  | whiteSpace, c => isBlank c
  | hexDigit wide, c =>
    inRanges [(0x30, 0x39), (0x41, 0x46), (0x61, 0x66)] c.toNat ||
      wide && inRanges [(0xFF10, 0xFF19), (0xFF21, 0xFF26), (0xFF41, 0xFF46)] c.toNat
  | category code, c => inCategory code c
  | script code, c => Text.script c == code

/-- A name without what does not matter in it: letter case, spaces, underscores and hyphens, and an
initial `is`. Characters beyond ASCII do not occur in names and are dropped. -/
def normalize (name : Text) : Text :=
  let folded (s : Text) : Text :=
    (s.filter fun c => !(c == ' ' || c == '_' || c == '-') && c.toNat < 128).map Char.toLower
  if folded (name.take 2) == ['i', 's'] && folded (name.drop 2) != ['c'] then
    folded (name.drop 2)
  else folded name

/-- The names of the properties that a character has or lacks. -/
def plainNames : List (Property × String) :=
  [(alphabetic, "alpha"), (alphabetic, "alphabetic"), (lowercase, "lower"),
   (lowercase, "lowercase"), (uppercase, "upper"), (uppercase, "uppercase"),
   (whiteSpace, "space"), (whiteSpace, "wspace"), (whiteSpace, "whitespace"),
   (hexDigit false, "ahex"), (hexDigit false, "asciihexdigit"), (hexDigit true, "hex"),
   (hexDigit true, "hexdigit")]

/-- The code that a table of names gives to a normalized name. -/
def codeOf? (names : List (String × String)) (name : Text) : Option String :=
  (names.find? fun entry =>
    normalize entry.1.toList == name || normalize entry.2.toList == name).map Prod.fst

/-- The general category, or group of categories, of a normalized name. -/
def categoryOfName? (name : Text) : Option Property :=
  if name == "any".toList then some any
  else if name == "assigned".toList then some assigned
  else if name == "ascii".toList then some ascii
  else (codeOf? categoryNames name).map category

/-- The script of a normalized name. -/
def scriptOfName? (name : Text) : Option Property :=
  (codeOf? scriptNames name).map script

/-- The property of a name. -/
def ofName? (name : Text) : Option Property :=
  let name := normalize name
  ((plainNames.find? fun entry => entry.2.toList == name).map Prod.fst) <|>
    categoryOfName? name <|> scriptOfName? name

/-- The property of a name and a value: a general category or a script. -/
def ofNameAndValue? (name value : Text) : Option Property :=
  let name := normalize name
  if ["gc".toList, "generalcategory".toList].contains name then categoryOfName? (normalize value)
  else if ["sc".toList, "script".toList].contains name then scriptOfName? (normalize value)
  else none

end Property

end TabFormat.Text
