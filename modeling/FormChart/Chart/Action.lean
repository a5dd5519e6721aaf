import FormChart.Event
import FormChart.Notice
import FormChart.Patch

/-!
# Actions

What a chart does when it enters or leaves a node and when it takes a transition: it writes a
patch over the context, forwards the fields that came with the event, raises an event of its own,
or asks for an effect.  Effects are only collected; they are carried out once the session has come
to rest.

The effects `Persist` and `ClearStorage` are called `keep` and `forget` here, after what they do to
the slot; `Assign`, `Forward`, `Raise` and `Log` have kept their names.
-/

namespace FormChart

/-- Something to be done outside the chart. -/
inductive Effect where
  /-- Keep the context. -/
  | keep
  /-- Forget what was kept. -/
  | forget
  /-- Log a message. -/
  | log (message : String)
  deriving DecidableEq, Repr

/-- One step of a list of actions, for contexts of the type `C`. -/
inductive Action (C : Type) where
  /-- Replaces fields of the context by those of a patch; the second function gives what is to be
      told about the computation of the patch. -/
  | assign (patch : C → Event → Patch) (remarks : C → Event → List Notice := fun _ _ => [])
  /-- Merges the fields of the event into the context. -/
  | forward
  /-- Raises an event, which is handled after the transition. -/
  | raise (event : String)
  /-- Asks for an effect. -/
  | effect (e : Effect)

namespace Action

variable {C : Type}

/-- Replaces fields of the context by given values. -/
def set (fields : List (String × Json)) : Action C := .assign fun _ _ => Dict.ofList fields

/-- Asks for the context to be kept. -/
def keep : Action C := .effect .keep

/-- Asks for what was kept to be forgotten. -/
def forget : Action C := .effect .forget

/-- Asks for a message to be logged. -/
def log (message : String) : Action C := .effect (.log message)

end Action

end FormChart
