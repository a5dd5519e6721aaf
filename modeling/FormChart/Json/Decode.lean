import FormChart.Json.Basic
import FormChart.Text.Digits

/-!
# Typed readings of JSON values

Each reading takes a value to a typed one, or refuses it.  Texts are read from texts only, truth
values from truth values only, and natural numbers from integers only (never from `3.0`).

A record is read from an object, by the names of its fields, or from an array, which gives the
fields in their order and may stop early (`asRecord`).  A field that is missing either takes a
default (`fieldOr`) or makes the reading fail (`field`).
-/

namespace FormChart.Json

/-- A truth value. -/
def bool? : Json → Option Bool
  | .bool b => some b
  | _ => none

/-- A text. -/
def str? : Json → Option String
  | .str s => some s
  | _ => none

/-- The items of an array. -/
def items? : Json → Option (List Json)
  | .arr vs => some vs
  | _ => none

/-- A natural number below a bound. -/
def natBelow? (bound : Nat) : Json → Option Nat
  | .num (.natural n) => if n < bound then some n else none
  | _ => none

/-- A natural number of 32 bits. -/
def nat32? : Json → Option Nat := natBelow? (Nat.pow 2 32)

/-- A natural number of 64 bits. -/
def nat64? : Json → Option Nat := natBelow? wordBound

/-- A value that may be absent, `null` standing for absence. -/
def optional? {α : Type} (read : Json → Option α) : Json → Option (Option α)
  | .null => some none
  | v => (read v).map some

/-- An array of values of one type. -/
def list? {α : Type} (read : Json → Option α) (v : Json) : Option (List α) := do
  (← v.items?).mapM read

/-- An object whose fields are values of one type. -/
def dict? {α : Type} (read : Json → Option α) (v : Json) : Option (Dict α) := do
  let entries ← (← v.object?).entries.mapM fun e => (read e.2).map (e.1, ·)
  some (Dict.ofList entries)

/-- The fields of a record, from an object or, in the order of their names, from an array that is
    not too long. -/
def asRecord (names : List String) : Json → Option Object
  | .obj fields => some (Dict.ofList fields)
  | .arr items =>
    if items.length ≤ names.length then some (Dict.ofList (names.zip items)) else none
  | _ => none

end FormChart.Json

namespace FormChart.Object

/-- A field that has to be there. -/
def field {α : Type} (fields : Object) (name : String) (read : Json → Option α) : Option α :=
  (fields.get? name).bind read

/-- A field that takes a default when it is missing. -/
def fieldOr {α : Type} (fields : Object) (name : String) (default : α)
    (read : Json → Option α) : Option α :=
  match fields.get? name with
  | some v => read v
  | none => some default

end FormChart.Object
