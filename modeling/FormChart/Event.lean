import FormChart.Json.Decode

/-!
# Events

An event has a name and carries a JSON value.  The event without a name is the one that drives
automatic transitions; names that begin with `done` and `error` report the end of an invocation or
the arrival at a final node.
-/

namespace FormChart

/-- Something that happened. -/
structure Event where
  /-- What happened. -/
  name : String
  /-- What came with it. -/
  data : Json := .null
  deriving DecidableEq, Inhabited

namespace Event

/-- The event that enters a chart. -/
def init : Event := { name := "init" }

/-- The event without a name. -/
def eventless : Event := { name := "" }

/-- Whether an event is the one without a name. -/
def isEventless (e : Event) : Bool := e.name == ""

/-- The fields that came with an event; none if the data is not an object. -/
def payload (e : Event) : Object := e.data.fieldsOrEmpty

/-- The name of the event that reports the result of an invocation. -/
def doneInvoke (id : String) : String := "done.invoke." ++ id

/-- The name of the event that reports the failure of an invocation. -/
def errorInvoke (id : String) : String := "error.invoke." ++ id

/-- The name of the event that reports the arrival at a final child. -/
def doneState (path : String) : String := "done.state." ++ path

/-- An event as JSON. -/
def encode (e : Event) : Json := .record [("name", .str e.name), ("data", e.data)]

/-- Reads an event; the data may be missing. -/
def decode (v : Json) : Option Event := do
  let fields ← v.asRecord ["name", "data"]
  some { name := ← fields.field "name" Json.str?, data := ← fields.fieldOr "data" .null some }

end Event

end FormChart
