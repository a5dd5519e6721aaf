import FormChart.Event

/-!
# Tasks

A task is work outside the chart: it runs against an environment, may change it, and ends with a
value or an error.  What is outside is a parameter, so a task is a function on states of it.
-/

namespace FormChart

/-- Why a task came to no result. -/
inductive TaskError where
  /-- The task was refused. -/
  | rejected (message : String)
  /-- The task did not reach the service it needs. -/
  | unavailable (message : String)
  deriving DecidableEq, Repr

/-- The wording of a task error. -/
def TaskError.message : TaskError → String
  | .rejected message => "Invocation rejected: " ++ message
  | .unavailable message => "Service unavailable: " ++ message

/-- What a task ended with. -/
abbrev Outcome := Except TaskError Json

/-- Work against an environment. -/
abbrev Task (Env : Type) := Env → Outcome × Env

namespace Task

variable {Env : Type}

/-- The task that ends with a value at once. -/
def succeed (v : Json) : Task Env := fun env => (.ok v, env)

/-- The task that ends with an error at once. -/
def fail (e : TaskError) : Task Env := fun env => (.error e, env)

end Task

/-- The event that reports the outcome of an invocation. -/
def Event.ofOutcome (id : String) : Outcome → Event
  | .ok v => { name := Event.doneInvoke id, data := v }
  | .error e => { name := Event.errorInvoke id, data := .str e.message }

end FormChart
