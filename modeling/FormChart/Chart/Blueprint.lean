import FormChart.Chart.Action
import FormChart.Task

/-!
# Blueprints

A blueprint is a chart as it is written down: a tree of nodes, in which initial children and the
targets of transitions are given by name.  Blueprints may be wrong; `Blueprint.build` finds out.

The target of a transition is a path of keys with points between them.  It starts at a node with a
global id (`#id.a.b`), at the owner of the transition (`.a.b`), or at the owner's parent (`a.b`).
-/

namespace FormChart

/-- What a node may hold. -/
inductive NodeKind where
  /-- Children, one of which is active whenever the node is. -/
  | compound
  /-- Nothing. -/
  | atomic
  /-- Nothing, and the arrival there is reported to the parent. -/
  | final
  deriving DecidableEq, Repr

/-- A transition as it is written down. -/
structure Arrow (C : Type) where
  /-- Where it leads, by name; none if it stays. -/
  target : Option String := none
  /-- When it may be taken; always, if there is no guard. -/
  guard : Option (C → Bool) := none
  actions : List (Action C) := []
  /-- Whether the leaf is not left when the target is active already. -/
  isInternal : Bool := false

namespace Arrow

variable {C : Type}

/-- A transition to a target. -/
def goto (target : String) : Arrow C := { target := some target }

/-- A transition to a target for the contexts that pass a test. -/
def gotoIf (target : String) (guard : C → Bool) : Arrow C :=
  { target := some target, guard := some guard }

/-- A transition to a target that forwards the fields of the event and keeps the context. -/
def forwardTo (target : String) : Arrow C :=
  { target := some target, actions := [.forward, .keep] }

/-- Adds actions after the others. -/
def doing (a : Arrow C) (actions : List (Action C)) : Arrow C :=
  { a with actions := a.actions ++ actions }

end Arrow

/-- An invocation as it is written down. -/
structure Invoke (C Env : Type) where
  id : String
  /-- The task, made from the context at the time of the entry. -/
  task : C → Task Env
  onDone : List (Arrow C) := []
  onError : List (Arrow C) := []

namespace Invoke

variable {C Env : Type}

/-- The transitions for the end of the invocation, with the events that drive them. -/
def handlers (i : Invoke C Env) : List (String × Arrow C) :=
  i.onDone.map (Event.doneInvoke i.id, ·) ++ i.onError.map (Event.errorInvoke i.id, ·)

end Invoke

/-- A tree of nodes, with names in place of references. -/
structure Blueprint (C Env : Type) where
  key : String
  kind : NodeKind
  /-- A name that is known in the whole chart. -/
  id : Option String := none
  /-- The key of the child that is entered with the node. -/
  initial : Option String := none
  entry : List (Action C) := []
  exit : List (Action C) := []
  /-- Transitions in order, each with the name of its event. -/
  on : List (String × Arrow C) := []
  invoke : Option (Invoke C Env) := none
  /-- The address of the page that belongs to the node. -/
  route : Option String := none
  children : List (Blueprint C Env) := []

namespace Blueprint

variable {C Env : Type}

/-- All transitions of a node: the declared ones, then those for the end of its invocation. -/
def arrows (b : Blueprint C Env) : List (String × Arrow C) :=
  b.on ++ (b.invoke.map Invoke.handlers).getD []

/-- A node with an automatic transition added. -/
def always (b : Blueprint C Env) (a : Arrow C) : Blueprint C Env :=
  { b with on := b.on ++ [(Event.eventless.name, a)] }

end Blueprint

end FormChart
