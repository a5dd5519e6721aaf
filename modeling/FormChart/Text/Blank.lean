/-!
# Blank characters

The characters of the Unicode property `White_Space`, and trimming a text of them.  The class
is wider than `Char.isWhitespace`, which knows ASCII alone and leaves out the line tabulation
and the form feed.
-/

namespace FormChart

/-- Whether a character has the Unicode property `White_Space`. -/
def isBlank (c : Char) : Bool :=
  (0x09 ≤ c.val && c.val ≤ 0x0D) || c.val == 0x20 || c.val == 0x85 || c.val == 0xA0 ||
    c.val == 0x1680 || (0x2000 ≤ c.val && c.val ≤ 0x200A) || c.val == 0x2028 ||
    c.val == 0x2029 || c.val == 0x202F || c.val == 0x205F || c.val == 0x3000

/-- Drops the blanks at both ends of a list of characters. -/
def trimBlanks (cs : List Char) : List Char :=
  ((cs.dropWhile isBlank).reverse.dropWhile isBlank).reverse

/-- A text without the blanks at its ends. -/
def trim (s : String) : String := String.ofList (trimBlanks s.toList)

end FormChart
