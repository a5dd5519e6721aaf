import FormChart.Timestamp
import FormChart.Json.Decode

/-!
# The history of a session

One record for every transition that was taken: the leaf it left, the leaf it reached, the event
that drove it and the instant.  Records are only ever added at the end, and the leaves that were
visited are read off the records (`History.path`).
-/

namespace FormChart

/-- One transition that was taken. -/
structure Visit where
  /-- The path of the leaf before. -/
  source : String
  /-- The path of the leaf after. -/
  target : String
  /-- The name of the event. -/
  event : String
  time : Timestamp
  deriving DecidableEq, Inhabited

namespace Visit

/-- Whether the transition was automatic. -/
def isEventless (v : Visit) : Bool := v.event == ""

def encode (v : Visit) : Json :=
  .record [("from", .str v.source), ("to", .str v.target), ("event", .str v.event),
    ("timestamp", .str v.time.text)]

def decode (v : Json) : Option Visit := do
  let fields ← v.asRecord ["from", "to", "event", "timestamp"]
  some {
    source := ← fields.field "from" Json.str?
    target := ← fields.field "to" Json.str?
    event := ← fields.field "event" Json.str?
    time := ← fields.field "timestamp" fun v => v.str?.bind Timestamp.parse }

end Visit

/-- The transitions that were taken, the oldest first. -/
structure History where
  visits : List Visit := []
  deriving DecidableEq, Inhabited

namespace History

/-- Adds a transition. -/
def record (h : History) (v : Visit) : History := ⟨h.visits ++ [v]⟩

/-- The leaves in the order in which they were visited. -/
def path (h : History) : List String :=
  match h.visits with
  | [] => []
  | v :: vs => v.source :: v.target :: vs.map Visit.target

/-- The last transition. -/
def last? (h : History) : Option Visit := h.visits.getLast?

/-- The milliseconds from the first to the last transition; none if there is no transition, or if
    the last one lies before the first. -/
def millis? (h : History) : Option Nat := do
  (← h.visits.head?).time.millisUntil? (← h.visits.getLast?).time

def encode (h : History) : Json := .record [("transitions", .arr (h.visits.map Visit.encode))]

def decode (v : Json) : Option History := do
  let fields ← v.asRecord ["transitions"]
  some { visits := ← fields.field "transitions" (Json.list? Visit.decode) }

end History

end FormChart
