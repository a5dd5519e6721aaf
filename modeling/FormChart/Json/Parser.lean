import FormChart.Json.Numeral

/-!
# Reading JSON

`Json.parse` reads a text that holds one JSON value with blanks around it, to the letter of
RFC 8259: no comments, no trailing commas, no leading zeros, no bare control character, no
unpaired surrogate.  A repeated field keeps its last value.  A number too big for binary64 is
refused, and so is a value nested deeper than `maxDepth`.

A reader takes a list of characters and returns what it read with the rest.  Nesting is counted
down in the reader of values; the readers of items and fields get the reader of the next level.
-/

namespace FormChart

/-- Reads something from the front of a text. -/
abbrev Reader (α : Type) := List Char → Option (α × List Char)

namespace Json

/-- How many arrays and objects may stand inside each other. -/
def maxDepth : Nat := 127

/-- The blanks of the format. -/
def isSpace (c : Char) : Bool := c == ' ' || c == '\n' || c == '\r' || c == '\t'

/-- Drops the blanks at the front. -/
def skipSpace (cs : List Char) : List Char := cs.dropWhile isSpace

/-- The value of a hexadecimal digit. -/
def hexValue? (c : Char) : Option Nat :=
  if '0' ≤ c ∧ c ≤ '9' then some (c.toNat - '0'.toNat)
  else if 'a' ≤ c ∧ c ≤ 'f' then some (c.toNat - 'a'.toNat + 10)
  else if 'A' ≤ c ∧ c ≤ 'F' then some (c.toNat - 'A'.toNat + 10)
  else none

/-- Four hexadecimal digits as a number. -/
def hexUnit? (a b c d : Char) : Option Nat := do
  some ((← hexValue? a) * 0x1000 + (← hexValue? b) * 0x100 + (← hexValue? c) * 0x10 +
    (← hexValue? d))

/-- The character behind a backslash. -/
def unescape? : Char → Option Char
  | '"' => some '"'
  | '\\' => some '\\'
  | '/' => some '/'
  | 'b' => some '\x08'
  | 'f' => some '\x0c'
  | 'n' => some '\n'
  | 'r' => some '\r'
  | 't' => some '\t'
  | _ => none

/-- Whether a number is the first half of a surrogate pair. -/
def isLeading (n : Nat) : Bool := 0xD800 ≤ n && n < 0xDC00

/-- Whether a number is the second half of a surrogate pair. -/
def isTrailing (n : Nat) : Bool := 0xDC00 ≤ n && n < 0xE000

/-- The character that a surrogate pair denotes. -/
def pairChar (high low : Nat) : Char :=
  Char.ofNat (0x10000 + (high - 0xD800) * 0x400 + (low - 0xDC00))

/-- The characters of a text up to its closing quote. -/
def textBody : Reader (List Char)
  | [] => none
  | '"' :: rest => some ([], rest)
  | '\\' :: 'u' :: a :: b :: c :: d :: rest =>
    match hexUnit? a b c d with
    | none => none
    | some high =>
      if isTrailing high then none
      else if isLeading high then
        match rest with
        | '\\' :: 'u' :: e :: f :: g :: h :: rest =>
          match hexUnit? e f g h with
          | none => none
          | some low =>
            if isTrailing low then
              (textBody rest).map fun (s, rest) => (pairChar high low :: s, rest)
            else none
        | _ => none
      else (textBody rest).map fun (s, rest) => (Char.ofNat high :: s, rest)
  | '\\' :: e :: rest =>
    match unescape? e with
    | none => none
    | some c => (textBody rest).map fun (s, rest) => (c :: s, rest)
  | c :: rest =>
    if c.toNat < 0x20 then none else (textBody rest).map fun (s, rest) => (c :: s, rest)

/-- A text in quotes. -/
def quotedText : Reader String
  | '"' :: rest => (textBody rest).map fun (s, rest) => (String.ofList s, rest)
  | _ => none

/-- A number. -/
def number : Reader Number := fun cs => do
  let (n, rest) ← Numeral.scan cs
  some (← n.number?, rest)

/-- A value that holds no other. -/
def scalar : Reader Json
  | 'n' :: 'u' :: 'l' :: 'l' :: rest => some (.null, rest)
  | 't' :: 'r' :: 'u' :: 'e' :: rest => some (.bool true, rest)
  | 'f' :: 'a' :: 'l' :: 's' :: 'e' :: rest => some (.bool false, rest)
  | '"' :: rest => (quotedText ('"' :: rest)).map fun (s, rest) => (.str s, rest)
  | cs => (number cs).map fun (n, rest) => (.num n, rest)

/-- The items of an array from its first item on, with their closing bracket.  The first argument
    reads one item; the second bounds their number. -/
def items (value : Reader Json) : Nat → Reader (List Json)
  | 0, _ => none
  | fuel + 1, cs =>
    match value (skipSpace cs) with
    | none => none
    | some (v, rest) =>
      match skipSpace rest with
      | ']' :: rest => some ([v], rest)
      | ',' :: rest => (items value fuel rest).map fun (vs, rest) => (v :: vs, rest)
      | _ => none

/-- The fields of an object from its first field on, with their closing bracket. -/
def fields (value : Reader Json) : Nat → Reader (List (String × Json))
  | 0, _ => none
  | fuel + 1, cs =>
    match quotedText (skipSpace cs) with
    | none => none
    | some (k, rest) =>
      match skipSpace rest with
      | ':' :: rest =>
        match value (skipSpace rest) with
        | none => none
        | some (v, rest) =>
          match skipSpace rest with
          | '\x7d' :: rest => some ([(k, v)], rest)
          | ',' :: rest => (fields value fuel rest).map fun (fs, rest) => ((k, v) :: fs, rest)
          | _ => none
      | _ => none

/-- An array without its opening bracket. -/
def arrayBody (value : Reader Json) : Reader Json := fun cs =>
  match skipSpace cs with
  | ']' :: rest => some (.arr [], rest)
  | cs => (items value cs.length cs).map fun (vs, rest) => (.arr vs, rest)

/-- An object without its opening bracket. -/
def objectBody (value : Reader Json) : Reader Json := fun cs =>
  match skipSpace cs with
  | '\x7d' :: rest => some (.obj [], rest)
  | cs => (fields value cs.length cs).map fun (fs, rest) => (.record fs, rest)

/-- A value with at most the given nesting. -/
def value : Nat → Reader Json
  | 0, cs => scalar cs
  | depth + 1, cs =>
    match cs with
    | '[' :: rest => arrayBody (value depth) rest
    | '\x7b' :: rest => objectBody (value depth) rest
    | _ => scalar cs

/-- Reads a text that holds one value of at most the given nesting. -/
def parseWithin (depth : Nat) (s : String) : Option Json :=
  match value depth (skipSpace s.toList) with
  | some (v, rest) => if (skipSpace rest).isEmpty then some v else none
  | none => none

/-- Reads a text that holds one JSON value. -/
def parse (s : String) : Option Json := parseWithin maxDepth s

end Json

end FormChart
