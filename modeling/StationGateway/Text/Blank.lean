/-!
# Blank characters

The characters with the Unicode property `White_Space`, and the removal of blanks at the ends of a
text.
-/

namespace StationGateway.Text

/-- The characters with the Unicode property `White_Space`. -/
def isBlank (char : Char) : Bool :=
  let code := char.toNat
  (0x09 ≤ code && code ≤ 0x0D) || code == 0x20 || code == 0x85 || code == 0xA0 || code == 0x1680 ||
    (0x2000 ≤ code && code ≤ 0x200A) || code == 0x2028 || code == 0x2029 || code == 0x202F ||
    code == 0x205F || code == 0x3000

/-- The text without its leading blanks. -/
def dropBlanks (text : List Char) : List Char :=
  text.dropWhile isBlank

/-- The text without its trailing blanks. -/
def dropBlanksRight (text : List Char) : List Char :=
  (text.reverse.dropWhile isBlank).reverse

/-- The text without blanks at either end. -/
def trim (text : List Char) : List Char :=
  dropBlanksRight (dropBlanks text)

/-- `trim` on strings. -/
def trimmed (text : String) : String :=
  String.ofList (trim text.toList)

/-- Whether a text has nothing but blanks. -/
def isBlankText (text : List Char) : Bool :=
  text.all isBlank

end StationGateway.Text
