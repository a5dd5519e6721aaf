import FormChart.Json.Numeral

/-!
# The compact text of a JSON value

`Json.compact` writes a value without blanks, the fields of an object in the order in which the
value holds them.  Inside a text only the quote, the backslash and the characters below the space
are escaped, five of these by a letter and the others by four lower-case hexadecimal digits.
-/

namespace FormChart

/-- A hexadecimal digit in lower case. -/
def hexDigit (n : Nat) : Char := Nat.digitChar n

/-- A character of a text, escaped where it has to be. -/
def escapeChar (c : Char) : List Char :=
  if c = '"' then ['\\', '"']
  else if c = '\\' then ['\\', '\\']
  else if c = '\x08' then ['\\', 'b']
  else if c = '\x0c' then ['\\', 'f']
  else if c = '\n' then ['\\', 'n']
  else if c = '\r' then ['\\', 'r']
  else if c = '\t' then ['\\', 't']
  else if c.toNat < 0x20 then
    ['\\', 'u', '0', '0', hexDigit (c.toNat / 16), hexDigit (c.toNat % 16)]
  else [c]

/-- A text in quotes. -/
def quoted (s : String) : List Char := '"' :: s.toList.flatMap escapeChar ++ ['"']

namespace Json

mutual

/-- The characters of a value. -/
def chars : Json → List Char
  | .null => ['n', 'u', 'l', 'l']
  | .bool true => ['t', 'r', 'u', 'e']
  | .bool false => ['f', 'a', 'l', 's', 'e']
  | .num n => n.text
  | .str s => quoted s
  | .arr [] => ['[', ']']
  | .arr (v :: vs) => '[' :: v.chars ++ itemChars vs
  | .obj [] => ['\x7b', '\x7d']
  | .obj ((k, v) :: fs) => '\x7b' :: quoted k ++ ':' :: v.chars ++ fieldChars fs

/-- The characters of the items after the first, up to the closing bracket. -/
def itemChars : List Json → List Char
  | [] => [']']
  | v :: vs => ',' :: v.chars ++ itemChars vs

/-- The characters of the fields after the first, up to the closing bracket. -/
def fieldChars : List (String × Json) → List Char
  | [] => ['\x7d']
  | (k, v) :: fs => ',' :: quoted k ++ ':' :: v.chars ++ fieldChars fs

end

/-- The compact text of a value. -/
def compact (v : Json) : String := String.ofList v.chars

end Json

end FormChart
