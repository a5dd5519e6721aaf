import FormChart.Chart.Blueprint

/-!
# A small context for trying out charts

A tally has two counters, a flag, a log and an object for everything else.  Guards and actions on
tallies are data, so charts over them can be written down without functions.  One counter, the
cursor, is for the moment only, and a tally that is not to be stored is not kept.

`Bare` is the opposite: a context that is a single number and no object, to which no patch can be
applied.
-/

namespace FormChart

/-- The greatest value of a counter. -/
def maxCounter : Nat := Nat.pow 2 32 - 1

/-- A small context. -/
structure Tally where
  count : Nat := 0
  cursor : Nat := 0
  flag : Bool := false
  /-- Whether the tally wants to be kept. -/
  store : Bool := true
  log : List String := []
  obj : Object := {}
  deriving DecidableEq, Inhabited

namespace Tally

def encode (t : Tally) : Json :=
  .record [("count", .nat t.count), ("cursor", .nat t.cursor), ("flag", .bool t.flag),
    ("store", .bool t.store), ("log", Json.texts t.log), ("obj", .ofObject t.obj)]

def decode (v : Json) : Option Tally := do
  let fields ← v.asRecord ["count", "cursor", "flag", "store", "log", "obj"]
  some {
    count := ← fields.fieldOr "count" 0 Json.nat32?
    cursor := ← fields.fieldOr "cursor" 0 Json.nat32?
    flag := ← fields.fieldOr "flag" false Json.bool?
    store := ← fields.fieldOr "store" true Json.bool?
    log := ← fields.fieldOr "log" [] (Json.list? Json.str?)
    obj := ← fields.fieldOr "obj" {} Json.object? }

instance : Model Tally where
  fresh := {}
  encode := encode
  decode := decode
  transientFields := ["cursor"]
  wantsKeeping t := t.store

/-- A condition on tallies. -/
inductive Condition where
  | countAbove (n : Nat)
  | cursorBelow (n : Nat)
  | cursorBelowCount
  | flag
  /-- Whether the object has a field. -/
  | has (name : String)
  | never
  | not (c : Condition)
  deriving DecidableEq, Repr

/-- Whether a tally meets a condition. -/
def Condition.holds : Condition → Tally → Bool
  | .countAbove n, t => n < t.count
  | .cursorBelow n, t => t.cursor < n
  | .cursorBelowCount, t => t.cursor < t.count
  | .flag, t => t.flag
  | .has name, t => (t.obj.get? name).isSome
  | .never, _ => false
  | .not c, t => !c.holds t

/-- A change of a tally. -/
inductive Change where
  /-- Writes given fields. -/
  | set (fields : Object)
  /-- Adds a line to the log. -/
  | note (line : String)
  /-- Adds the name of the event to the log. -/
  | noteEvent
  /-- Writes the fields of the event. -/
  | replace
  | add (n : Nat)
  | advance
  /-- Writes the data of the event into a field. -/
  | take (name : String)

/-- The fields that a change writes. -/
def Change.patch : Change → Tally → Event → Patch
  | .set fields, _, _ => fields
  | .note line, t, _ => Dict.ofList [("log", Json.texts (t.log ++ [line]))]
  | .noteEvent, t, e => Dict.ofList [("log", Json.texts (t.log ++ [e.name]))]
  | .replace, _, e => e.payload
  | .add n, t, _ => Dict.ofList [("count", .nat (min (t.count + n) maxCounter))]
  | .advance, t, _ => Dict.ofList [("cursor", .nat (min (t.cursor + 1) maxCounter))]
  | .take name, _, e => Dict.ofList [(name, e.data)]

/-- The action that makes a change. -/
def Change.action (c : Change) : Action Tally := .assign c.patch

/-- The task that ends with a field of a tally, as the tally was when the task was made. -/
def fieldTask {Env : Type} (name : String) (t : Tally) : Task Env :=
  Task.succeed ((t.encode.field? name).getD .null)

end Tally

/-- A context that is a single number. -/
structure Bare where
  value : Nat := 0
  deriving DecidableEq, Inhabited

instance : Model Bare where
  fresh := {}
  encode b := .nat b.value
  decode v := v.nat32?.map Bare.mk

end FormChart
