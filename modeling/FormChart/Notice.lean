import FormChart.Storage.Basic

/-!
# Notices

What is reported beside the results of calls.  A notice is its cause; level, wording and fields are
read off the cause.
-/

namespace FormChart

/-- How grave a notice is. -/
inductive Level where
  | info
  | warning
  | error
  deriving DecidableEq, Repr

/-- Something worth telling. -/
inductive Notice where
  /-- A chart asked for a message to be logged. -/
  | logged (leaf message : String)
  /-- A patch did not fit the context and was left out. -/
  | patchSkipped (leaf : String) (cause : PatchError)
  /-- Automatic transitions were stopped at their ceiling. -/
  | unsettled (leaf : String) (ceiling : Nat)
  /-- An event came before the session was started. -/
  | notStarted (event : String)
  /-- The context could not be kept. -/
  | notKept (key : String) (cause : StorageError)
  /-- What was kept could not be read. -/
  | discarded (key : String) (cause : StorageError)
  /-- An empty slot is filled from a fixture. -/
  | filling (key : String)
  /-- An empty slot could not be filled. -/
  | notFilled (key : String) (cause : StorageError)
  /-- What was kept could not be forgotten. -/
  | notForgotten (key : String) (cause : StorageError)
  /-- A setting made no sense. -/
  | ceilingIgnored (setting value : String)
  /-- A catalog service answered with something else. -/
  | catalogUnreadable
  deriving DecidableEq, Repr

namespace Notice

/-- How grave it is. -/
def level : Notice → Level
  | .logged .. | .filling .. => .info
  | .unsettled .. => .error
  | _ => .warning

/-- The wording. -/
def message : Notice → String
  | .logged _ message => message
  | .patchSkipped .. => "skipping patch"
  | .unsettled .. => "eventless transitions did not settle, stopping"
  | .notStarted _ => "event sent before start, ignoring"
  | .notKept .. => "failed to persist context"
  | .discarded .. => "discarding unreadable snapshot"
  | .filling _ => "seeding storage from fixture"
  | .notFilled .. => "failed to seed storage"
  | .notForgotten .. => "failed to clear storage"
  | .ceilingIgnored .. => "ignoring invalid eventless step ceiling"
  | .catalogUnreadable => "unexpected disaster catalog shape"

/-- The particulars by their names. -/
def fields : Notice → List (String × String)
  | .logged leaf _ => [("leaf", leaf)]
  | .patchSkipped leaf cause => [("leaf", leaf), ("error", cause.message)]
  | .unsettled leaf ceiling => [("leaf", leaf), ("ceiling", toString ceiling)]
  | .notStarted event => [("event", event)]
  | .notKept key cause | .discarded key cause | .notFilled key cause
  | .notForgotten key cause => [("key", key), ("error", cause.message)]
  | .filling key => [("key", key)]
  | .ceilingIgnored setting value => [("variable", setting), ("value", value)]
  | .catalogUnreadable => []

end Notice

end FormChart
