import FormChart.Notice
import FormChart.Text.Blank

/-!
# Settings

The slot that a session is kept in, the ceiling on automatic transitions, and the fixture that
fills an empty slot.  Settings come from named variables (`Settings.ofVariables`) or from JSON.
-/

namespace FormChart

/-- The settings of a session. -/
structure Settings where
  /-- The key under which the context is kept. -/
  storageKey : String := "dsnap-registration"
  /-- How many automatic transitions may follow one another. -/
  maxEventlessSteps : Nat := 1000
  /-- Where the fixture is that fills an empty slot. -/
  fixturePath : Option String := none
  deriving DecidableEq, Inhabited

namespace Settings

/-- The variable that names the slot. -/
def storageKeyVariable : String := "WAYPOINT_STATE_KEY"

/-- The variable that gives the ceiling. -/
def ceilingVariable : String := "WAYPOINT_MAX_EVENTLESS_STEPS"

/-- The variable that names the fixture. -/
def fixtureVariable : String := "WAYPOINT_LOAD_STATE"

/-- A text that is not empty. -/
def nonEmpty? (s : String) : Option String := if s = "" then none else some s

/-- A positive count, with or without blanks around it. -/
def ceiling? (s : String) : Option Nat := (readCount (trim s)).filter (0 < ·)

/-- The settings that variables give.  An empty text is as good as none, and a ceiling that makes
    no sense is ignored with a notice. -/
def ofVariables (lookup : String → Option String) : Settings × List Notice :=
  let defaults : Settings := {}
  let (ceiling, notices) :=
    match lookup ceilingVariable with
    | none => (defaults.maxEventlessSteps, [])
    | some raw =>
      match ceiling? raw with
      | some n => (n, [])
      | none => (defaults.maxEventlessSteps, [Notice.ceilingIgnored ceilingVariable raw])
  ({ storageKey := ((lookup storageKeyVariable).bind nonEmpty?).getD defaults.storageKey
     maxEventlessSteps := ceiling
     fixturePath := (lookup fixtureVariable).bind nonEmpty? }, notices)

def encode (s : Settings) : Json :=
  .record [("storage_key", .str s.storageKey),
    ("max_eventless_steps", Json.nat s.maxEventlessSteps),
    ("fixture_path", Json.ofOption .str s.fixturePath)]

def decode (v : Json) : Option Settings := do
  let defaults : Settings := {}
  let fields ← v.asRecord ["storage_key", "max_eventless_steps", "fixture_path"]
  some {
    storageKey := ← fields.fieldOr "storage_key" defaults.storageKey Json.str?
    maxEventlessSteps :=
      ← fields.fieldOr "max_eventless_steps" defaults.maxEventlessSteps Json.nat64?
    fixturePath := ← fields.fieldOr "fixture_path" none (Json.optional? Json.str?) }

end Settings

end FormChart
