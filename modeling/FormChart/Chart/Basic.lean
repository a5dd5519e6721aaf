import FormChart.Chart.Blueprint
import FormChart.Chart.Skeleton

/-!
# Charts

A chart is the table of its nodes, with all references resolved.  Beside the table there is the
geometry of transitions.  Seen from the active leaf, a transition to a target

* leaves the nodes from the leaf up to the domain (`exitSet`), innermost first;
* enters the nodes from below the domain down to the target and on along initial children
  (`entrySet`), outermost first;

where **the domain is the innermost node that lies strictly above the target and contains the
leaf** (`domain`).

`lineage` lists the `ancestors` of a node, `encloses` is `is_ancestor_or_self`, and `initialDescent`
is `initial_chain`.  The choice among candidates (`choose?`) is the first half of the interpreter's
`dispatch`.
-/

namespace FormChart

/-- A transition of a chart. -/
structure Transition (C : Type) where
  /-- Where it leads; none if it stays. -/
  target : Option NodeId
  guard : Option (C → Bool)
  actions : List (Action C)
  isInternal : Bool

/-- Whether a transition may be taken in a context. -/
def Transition.isEnabled {C : Type} (t : Transition C) (context : C) : Bool :=
  t.guard.all (· context)

/-- The invocation of a node. -/
structure Invocation (C Env : Type) where
  id : String
  task : C → Task Env

/-- A node of a chart. -/
structure Node (C Env : Type) extends Place where
  kind : NodeKind
  children : List NodeId
  /-- The child that is entered with the node. -/
  initial : Option NodeId
  entry : List (Action C)
  exit : List (Action C)
  /-- Transitions in order, each with the name of its event. -/
  on : List (String × Transition C)
  invoke : Option (Invocation C Env)
  route : Option String

/-- The transitions of a node for an event, in order. -/
def Node.candidates {C Env : Type} (n : Node C Env) (event : String) : List (Transition C) :=
  (n.on.filter (·.1 == event)).map (·.2)

/-- The names of the events that a node has transitions for, in ascending order. -/
def Node.eventNames {C Env : Type} (n : Node C Env) : List String :=
  (Dict.ofList (n.on.map fun e => (e.1, ()))).keys

/-- A chart: its nodes in preorder. -/
structure Chart (C Env : Type) where
  nodes : List (Node C Env)

namespace Chart

variable {C Env : Type}

/-- The root. -/
def root : NodeId := Skeleton.root

/-- The number of nodes. -/
def size (chart : Chart C Env) : Nat := chart.nodes.length

/-- A node by its place in the table. -/
def node? (chart : Chart C Env) (i : NodeId) : Option (Node C Env) := chart.nodes[i]?

/-- The places of all nodes. -/
def skeleton (chart : Chart C Env) : Skeleton := chart.nodes.map Node.toPlace

/-- The node that a reference names. -/
def lookup? (chart : Chart C Env) (reference : String) : Option NodeId :=
  chart.skeleton.lookup? reference

/-- The path of a node. -/
def pathOf (chart : Chart C Env) (i : NodeId) : String := ((chart.node? i).map (·.path)).getD ""

/-- A node and the nodes above it, innermost first. -/
def lineage (chart : Chart C Env) (i : NodeId) : List NodeId :=
  i :: ((chart.node? i).map (·.ancestors)).getD []

/-- Whether a node is another one or lies above it. -/
def encloses (chart : Chart C Env) (ancestor i : NodeId) : Bool :=
  (chart.lineage i).contains ancestor

/-- Follows initial children, at most a number of times. -/
def initialDescentWithin (chart : Chart C Env) : Nat → NodeId → List NodeId
  | 0, _ => []
  | fuel + 1, i =>
    match (chart.node? i).bind (·.initial) with
    | some child => child :: chart.initialDescentWithin fuel child
    | none => []

/-- The nodes that are entered below a node, by following initial children. -/
def initialDescent (chart : Chart C Env) (i : NodeId) : List NodeId :=
  chart.initialDescentWithin chart.size i

/-- The innermost node that lies strictly above the target and contains the leaf. -/
def domain (chart : Chart C Env) (leaf target : NodeId) : NodeId :=
  ((chart.lineage target).tail.find? (chart.encloses · leaf)).getD root

/-- The nodes that are left, innermost first. -/
def exitSet (chart : Chart C Env) (leaf domain : NodeId) : List NodeId :=
  (chart.lineage leaf).takeWhile (· != domain)

/-- The nodes that are entered, outermost first. -/
def entrySet (chart : Chart C Env) (domain target : NodeId) : List NodeId :=
  ((chart.lineage target).takeWhile (· != domain)).reverse ++ chart.initialDescent target

/-- The names of the events that some node has transitions for, in ascending order. -/
def eventNames (chart : Chart C Env) : List String :=
  (Dict.ofList ((chart.nodes.flatMap Node.eventNames).map (·, ()))).keys

/-- The transition that an event takes from a leaf: of the innermost node that has transitions for
    the event, the first one that is enabled.  Nodes further out are not asked, even if none is. -/
def choose? (chart : Chart C Env) (leaf : NodeId) (context : C) (event : String) :
    Option (Transition C) :=
  let declared := (chart.lineage leaf).filterMap fun i =>
    match (chart.node? i).map (·.candidates event) with
    | none | some [] => none
    | some ts => some ts
  declared.head?.bind (·.find? (·.isEnabled context))

end Chart

end FormChart
