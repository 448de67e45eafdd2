import TabFormat.Text.RunTable
import TabFormat.Text.Category.Table

/-!
# General categories

Every character has one of 29 general categories, named by two letters of which the first names the
group: `Lu` is the category of the capital letters and `L` the group of all letters.
-/

namespace TabFormat.Text

/-- The general categories of all characters. -/
def categoryTable : RunTable :=
  .ofRuns categoryRuns

/-- The code of the general category of a character. -/
def category (c : Char) : String :=
  categoryTable.code c

/-- The codes of the general categories and of their groups, with the long names. -/
def categoryNames : List (String × String) :=
  [("C", "Other"), ("Cc", "Control"), ("Cc", "Cntrl"), ("Cf", "Format"), ("Cn", "Unassigned"),
   ("Co", "Private_Use"), ("L", "Letter"), ("LC", "Cased_Letter"), ("Ll", "Lowercase_Letter"),
   ("Lm", "Modifier_Letter"), ("Lo", "Other_Letter"), ("Lt", "Titlecase_Letter"),
   ("Lu", "Uppercase_Letter"), ("M", "Mark"), ("M", "Combining_Mark"), ("Mc", "Spacing_Mark"),
   ("Me", "Enclosing_Mark"), ("Mn", "Nonspacing_Mark"), ("N", "Number"), ("Nd", "Decimal_Number"),
   ("Nd", "Digit"), ("Nl", "Letter_Number"), ("No", "Other_Number"), ("P", "Punctuation"),
   ("P", "Punct"), ("Pc", "Connector_Punctuation"), ("Pd", "Dash_Punctuation"),
   ("Pe", "Close_Punctuation"), ("Pf", "Final_Punctuation"), ("Pi", "Initial_Punctuation"),
   ("Po", "Other_Punctuation"), ("Ps", "Open_Punctuation"), ("S", "Symbol"),
   ("Sc", "Currency_Symbol"), ("Sk", "Modifier_Symbol"), ("Sm", "Math_Symbol"),
   ("So", "Other_Symbol"), ("Z", "Separator"), ("Zl", "Line_Separator"),
   ("Zp", "Paragraph_Separator"), ("Zs", "Space_Separator")]

/-- Whether the category of a character is the one of a code, or belongs to the group of a code. -/
def inCategory (code : String) (c : Char) : Bool :=
  if code == "LC" then ["Lu", "Ll", "Lt"].contains (category c)
  else code.toList.isPrefixOf (category c).toList

end TabFormat.Text
