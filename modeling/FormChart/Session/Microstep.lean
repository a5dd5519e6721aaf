import FormChart.Chart.Basic
import FormChart.History

/-!
# Microsteps

A machine is what a running chart changes: the context, the active leaf, the live invocations and
the history.  A microstep takes one transition.  Its plan (`Chart.moves`) lists what is left, done
and entered, in this order; performing the plan (`Macrostep.take`) moves the machine.

Storage has no part in this.  What a macrostep wants to be done outside is collected in `effects`,
and the events it raises are queued in `raised`, the oldest first.

These are the inner operations of the interpreter.  Its `dispatch` selects a transition and executes
it: here the order of execution is a value (`Chart.moves`), and `handle?` selects and performs it.
The other operations and their names here:

* `execute`, the actions of a list one after the other: `performAll` and `perform`;
* `merge`, a patch written over the context or skipped with a warning: `write`;
* `enter`, entry actions, invocations and the raised `done.state` of final nodes: `arrive`;
* the part of `dispatch` that runs exit actions and cancels invocations: `leave`;
* `record`, one transition added to the history: `journal`.
-/

namespace FormChart

/-- What a running chart changes. -/
structure Machine (C Env : Type) where
  context : C
  /-- The active leaf, once the machine runs. -/
  leaf : Option NodeId := none
  invocations : Invocations Env := {}
  history : History := {}
  /-- The instant that new records of the history bear. -/
  clock : Timestamp := ⟨0, 0⟩

/-- A machine on its way from one event to rest. -/
structure Macrostep (C Env : Type) where
  machine : Machine C Env
  /-- Events still to be handled. -/
  raised : List Event := []
  /-- What was asked for so far. -/
  effects : List Effect := []
  /-- What was told so far. -/
  notices : List Notice := []
  /-- The automatic transitions since the last event was taken from the queue. -/
  streak : Nat := 0

/-- One part of a microstep. -/
inductive Move (C : Type) where
  /-- Leaves a node. -/
  | leave (node : NodeId)
  /-- Runs the actions of the transition. -/
  | act (actions : List (Action C))
  /-- Enters a node. -/
  | arrive (node : NodeId)

variable {C Env : Type}

/-- The plan of a transition from a leaf. -/
def Chart.moves (chart : Chart C Env) (leaf : NodeId) (t : Transition C) : List (Move C) :=
  match t.target with
  | none => [.act t.actions]
  | some target =>
    if t.isInternal && chart.encloses target leaf then [.act t.actions]
    else
      let domain := chart.domain leaf target
      (chart.exitSet leaf domain).map .leave ++ .act t.actions ::
        (chart.entrySet domain target).map .arrive

/-- The plan of the first entry: everything from the root down to the target and on along initial
    children. -/
def Chart.firstMoves (chart : Chart C Env) (target : NodeId) : List (Move C) :=
  ((chart.lineage target).reverse ++ chart.initialDescent target).map .arrive

/-- The path of the active leaf; empty before the first entry. -/
def Machine.leafPath (m : Machine C Env) (chart : Chart C Env) : String :=
  (m.leaf.map chart.pathOf).getD ""

namespace Macrostep

/-- Tells something. -/
def tell (m : Macrostep C Env) (notices : List Notice) : Macrostep C Env :=
  { m with notices := m.notices ++ notices }

/-- Queues an event. -/
def raise (m : Macrostep C Env) (name : String) : Macrostep C Env :=
  { m with raised := m.raised ++ [{ name }] }

/-- Changes the machine. -/
def change (m : Macrostep C Env) (f : Machine C Env → Machine C Env) : Macrostep C Env :=
  { m with machine := f m.machine }

/-- Writes a patch over the context, or tells that it does not fit. -/
def write [Model C] (m : Macrostep C Env) (chart : Chart C Env) (patch : Patch)
    (mode : MergeMode) : Macrostep C Env :=
  match apply m.machine.context patch mode with
  | .ok next => m.change ({ · with context := next })
  | .error cause => m.tell [.patchSkipped (m.machine.leafPath chart) cause]

/-- Performs an action. -/
def perform [Model C] (chart : Chart C Env) (event : Event) (m : Macrostep C Env) :
    Action C → Macrostep C Env
  | .assign patch remarks =>
    (m.tell (remarks m.machine.context event)).write chart (patch m.machine.context event) .replace
  | .forward => m.write chart event.payload .shallow
  | .raise name => m.raise name
  | .effect e => { m with effects := m.effects ++ [e] }

/-- Performs actions one after the other. -/
def performAll [Model C] (chart : Chart C Env) (event : Event) (m : Macrostep C Env)
    (actions : List (Action C)) : Macrostep C Env :=
  actions.foldl (perform chart event) m

/-- Leaves a node: its exit actions, then the end of its invocation. -/
def leave [Model C] (chart : Chart C Env) (event : Event) (m : Macrostep C Env) (i : NodeId)
    (n : Node C Env) : Macrostep C Env :=
  let m := m.performAll chart event n.exit
  match n.invoke with
  | some _ => m.change fun s => { s with invocations := s.invocations.cancel i }
  | none => m

/-- Starts the invocation of a node with the present context, if the node has one. -/
def invoke (m : Macrostep C Env) (i : NodeId) (n : Node C Env) : Macrostep C Env :=
  match n.invoke with
  | some v =>
    m.change fun s => { s with invocations := s.invocations.start i v.id (v.task s.context) }
  | none => m

/-- Reports the arrival at a final node to its parent. -/
def report (chart : Chart C Env) (m : Macrostep C Env) (n : Node C Env) : Macrostep C Env :=
  match n.kind, n.parent? with
  | .final, some parent => m.raise (Event.doneState (chart.pathOf parent))
  | _, _ => m

/-- Enters a node: its entry actions, the start of its invocation, and the report of an arrival at
    a final node.  The node is the active leaf from then on. -/
def arrive [Model C] (chart : Chart C Env) (event : Event) (m : Macrostep C Env) (i : NodeId)
    (n : Node C Env) : Macrostep C Env :=
  (((m.performAll chart event n.entry).invoke i n).report chart n).change
    ({ · with leaf := some i })

/-- Performs one part of a plan. -/
def move [Model C] (chart : Chart C Env) (event : Event) (m : Macrostep C Env) :
    Move C → Macrostep C Env
  | .leave i => (chart.node? i).elim m (m.leave chart event i)
  | .act actions => m.performAll chart event actions
  | .arrive i => (chart.node? i).elim m (m.arrive chart event i)

/-- Adds a record from a leaf to the present one. -/
def journal (chart : Chart C Env) (source : String) (event : Event) (m : Macrostep C Env) :
    Macrostep C Env :=
  m.change fun s =>
    { s with history := s.history.record ⟨source, s.leafPath chart, event.name, s.clock⟩ }

/-- Performs a plan and adds a record of it. -/
def take [Model C] (chart : Chart C Env) (event : Event) (m : Macrostep C Env)
    (plan : List (Move C)) : Macrostep C Env :=
  (plan.foldl (move chart event) m).journal chart (m.machine.leafPath chart) event

/-- Takes the transition that an event takes, if there is one. -/
def handle? [Model C] (chart : Chart C Env) (event : Event) (m : Macrostep C Env) :
    Option (Macrostep C Env) := do
  let leaf ← m.machine.leaf
  let t ← chart.choose? leaf m.machine.context event.name
  some (m.take chart event (chart.moves leaf t))

end Macrostep

end FormChart
