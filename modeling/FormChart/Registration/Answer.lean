import FormChart.Json.Numeral
import FormChart.Json.Decode
import FormChart.Text.Blank

/-!
# Answers as forms give them

Pages of a form answer yes-or-no questions, counts and short texts in many shapes: `"yes"`,
`"TRUE"`, `1`, `" 3 "`, `1000`.  The readings here never refuse a value.  What they cannot make
sense of is no answer (`none`), the count zero, or the empty text.

`flag?` and `count?` are the lenient readings `parse_flag` and `parse_count`, and `index` and `text`
those for cursors and texts.
-/

namespace FormChart.Registration.Answer

/-- A yes-or-no answer in text, blanks around it and the case of ASCII letters aside. -/
def flagOfText (s : String) : Option Bool :=
  match (trim s).toLower with
  | "yes" | "true" => some true
  | "no" | "false" => some false
  | _ => none

/-- A yes-or-no answer.  An integer of 64 bits with sign means yes unless it is zero; a number
    with a fraction is no answer. -/
def flag? : Json → Option Bool
  | .bool b => some b
  | .str s => flagOfText s
  | .num (.natural n) => if n < Nat.pow 2 63 then some (n != 0) else none
  | .num (.negative _) => some true
  | _ => none

/-- A count, as an integer or as digits in text. -/
def count? : Json → Option Nat
  | .num (.natural n) => if n < wordBound then some n else none
  | .str s => readCount (trim s)
  | _ => none

/-- A position in a list; anything that is no count is the first position. -/
def index (v : Json) : Nat := (count? v).getD 0

/-- A short text; numbers and truth values are taken as they are written. -/
def text : Json → String
  | .str s => s
  | .num n => String.ofList n.text
  | .bool b => if b then "true" else "false"
  | _ => ""

/-- A yes-or-no answer as JSON. -/
def ofFlag : Option Bool → Json := Json.ofOption .bool

/-- A count as JSON. -/
def ofCount : Option Nat → Json := Json.ofOption Json.nat

end FormChart.Registration.Answer
