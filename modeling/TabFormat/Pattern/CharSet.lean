import TabFormat.Text.Folding
import TabFormat.Text.Property

/-!
# Sets of characters

The sets that patterns are made of: ranges, properties, and their combinations. A set is asked
whether it holds a character either exactly or but for letter case. Letter case is disregarded where
a set is written, inside any negation around it: `[^a]` excludes `A` as well, and `\P{Lu}`
holds nothing that has an uppercase variant.
-/

namespace TabFormat

/-- A way of combining two sets. -/
inductive SetOperation where
  /-- What is in both sets. -/
  | intersection
  /-- What is in the first set only. -/
  | difference
  /-- What is in exactly one of the sets. -/
  | symmetricDifference
deriving DecidableEq, Repr

/-- Whether something is in the combination of two sets, if it is known in which of them it is. -/
def SetOperation.holds : SetOperation → Bool → Bool → Bool
  | intersection, a, b => a && b
  | difference, a, b => a && !b
  | symmetricDifference, a, b => a != b

/-- A set of characters that has a letter for a name. It is not affected by letter case. -/
inductive Shorthand where
  /-- The decimal digits. -/
  | digit
  /-- White space. -/
  | space
  /-- The characters of words. -/
  | word
deriving DecidableEq, Repr

/-- Whether a character is in the set. -/
def Shorthand.holds : Shorthand → Char → Bool
  | digit, c => Text.inCategory "Nd" c
  | space, c => Text.isBlank c
  | word, c => Text.isWord c

/-- A set of characters. -/
inductive CharSet where
  /-- No characters. -/
  | empty
  /-- The characters from `first` to `last`. -/
  | range (first last : Char)
  /-- The characters of a shorthand, or all others. -/
  | shorthand (kind : Shorthand) (negated : Bool)
  /-- The characters with a property, or all others. -/
  | property (p : Text.Property) (negated : Bool)
  /-- The ASCII characters in several ranges of code points, or all other characters. -/
  | ascii (ranges : List (Nat × Nat)) (negated : Bool)
  /-- What is in either of two sets. -/
  | union (s t : CharSet)
  /-- A combination of two sets. -/
  | combination (operation : SetOperation) (s t : CharSet)
  /-- A set in brackets, or all characters that are not in it. -/
  | bracket (s : CharSet) (negated : Bool)
deriving DecidableEq, Repr

namespace CharSet

/-- Whether a test holds for a character or, if letter case is disregarded, for a character that
equals it but for case. -/
def folded (fold : Bool) (test : Char → Bool) (c : Char) : Bool :=
  if fold then (Text.caseVariants c).any test else test c

/-- Whether a character is in the set; with `fold`, letter case is disregarded. -/
def holds (fold : Bool) : CharSet → Char → Bool
  | empty, _ => false
  | range first last, c => first ≤ c && c ≤ last
  | shorthand kind negated, c => kind.holds c != negated
  | property p negated, c => folded fold p.holds c != negated
  | ascii ranges negated, c => folded fold (fun c => Text.inRanges ranges c.toNat) c != negated
  | union s t, c => s.holds fold c || t.holds fold c
  | combination operation s t, c =>
    operation.holds (folded fold (s.holds fold) c) (folded fold (t.holds fold) c)
  | bracket s negated, c => folded fold (s.holds fold) c != negated

/-- The set of a single character. -/
def single (c : Char) : CharSet := .range c c

/-- How much the set weighs when it is made ready for matching: the large sets have many ranges. -/
def weight : CharSet → Nat
  | empty => 0
  | range .. => 16
  | shorthand .digit _ => 4096
  | shorthand .space _ => 512
  | shorthand .word _ | property .. => 32768
  | ascii .. => 512
  | union s t | combination _ s t => s.weight + t.weight
  | bracket s negated => s.weight + if negated then 512 else 64

/-- The digits of hexadecimal numbers. -/
def hexDigit (negated : Bool) : CharSet :=
  .bracket (.union (.range '0' '9') (.union (.range 'A' 'F') (.range 'a' 'f'))) negated

/-- The ASCII sets that have a name, as ranges of code points. -/
def asciiRanges : List (String × List (Nat × Nat)) :=
  [("alnum", [(0x30, 0x39), (0x41, 0x5A), (0x61, 0x7A)]),
   ("alpha", [(0x41, 0x5A), (0x61, 0x7A)]),
   ("ascii", [(0x00, 0x7F)]),
   ("blank", [(0x09, 0x09), (0x20, 0x20)]),
   ("cntrl", [(0x00, 0x1F), (0x7F, 0x7F)]),
   ("digit", [(0x30, 0x39)]),
   ("graph", [(0x21, 0x7E)]),
   ("lower", [(0x61, 0x7A)]),
   ("print", [(0x20, 0x7E)]),
   ("punct", [(0x21, 0x2F), (0x3A, 0x40), (0x5B, 0x60), (0x7B, 0x7E)]),
   ("space", [(0x09, 0x0D), (0x20, 0x20)]),
   ("upper", [(0x41, 0x5A)]),
   ("word", [(0x30, 0x39), (0x41, 0x5A), (0x5F, 0x5F), (0x61, 0x7A)]),
   ("xdigit", [(0x30, 0x39), (0x41, 0x46), (0x61, 0x66)])]

/-- The ASCII set of a name. -/
def ofAsciiName? (name : Text) (negated : Bool) : Option CharSet :=
  (asciiRanges.find? fun entry => entry.1.toList == name).map fun entry =>
    .ascii entry.2 negated

/-- The set that a property's description between braces stands for: a name, or a name and a
value, which a sign between them may negate. -/
def ofProperty? (description : Text) (negated : Bool) : Option CharSet :=
  let name := description.takeWhile fun c => !(c == ':' || c == '=' || c == '!')
  match description.drop name.length with
  | '!' :: '=' :: value =>
    (Text.Property.ofNameAndValue? name value).map (.property · (!negated))
  | ':' :: value => (Text.Property.ofNameAndValue? name value).map (.property · negated)
  | '=' :: value => (Text.Property.ofNameAndValue? name value).map (.property · negated)
  | _ => (Text.Property.ofName? description).map (.property · negated)

end CharSet

end TabFormat
