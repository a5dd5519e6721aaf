import FormChart.Session.Macrostep
import FormChart.Slot
import FormChart.Settings

/-!
# Sessions

A session is a machine with its chart, its settings and, perhaps, the slot that its context is kept
in.  It is started once, then takes events and the outcomes of invocations.

Every call runs the machine to rest first and carries out the collected effects afterwards
(`Session.carryOutAll`), against the context at rest.  **The slot is written by the effects and
read by nothing here**, so it cannot change where the machine goes.

Calls have a budget, see `Macrostep.toRest`; they answer `none` when it was not enough.

The calls are the public operations of the interpreter, some under another name:

* `start`, `start_at` and `send` are `start`, `startAt` and `send`, and the common part of the first
  two, `enter_from_root`, is `enter`;
* `resolve`, which takes the settlement of a task, is `deliver`;
* `take_pending`, which hands out the tasks started since the last time, is `handOut`;
* `flush`, which executes the collected effects after `settle`, is `carryOutAll`, with `carryOut`
  for a single effect and `coalesce` for the removal of equal neighbours.
-/

namespace FormChart

/-- A running chart and what belongs to it. -/
structure Session (C Env S : Type) where
  chart : Chart C Env
  machine : Machine C Env
  settings : Settings := {}
  slot : Option (Slot S) := none
  /-- Everything that was told, the oldest first. -/
  notices : List Notice := []

/-- Why a session could not be started. -/
inductive StartError where
  | alreadyStarted
  | unknownNode (reference : String)
  deriving DecidableEq, Repr

/-- The wording of a start error. -/
def StartError.message : StartError → String
  | .alreadyStarted => "Interpreter has already been started"
  | .unknownNode reference => "No node matches '" ++ reference ++ "'"

/-- The active nodes by their paths, the outermost first; the root is left out. -/
abbrev Configuration := List String

namespace Configuration

/-- The path of the active leaf. -/
def leaf? (c : Configuration) : Option String := c.getLast?

/-- Whether a path is that of the active leaf. -/
def isLeaf (c : Configuration) (path : String) : Bool := c.leaf? == some path

/-- Whether a path is that of an active node. -/
def isIn (c : Configuration) (path : String) : Bool := c.contains path

end Configuration

/-- Effects with immediate repetitions left out. -/
def coalesce : List Effect → List Effect
  | [] => []
  | [e] => [e]
  | e :: f :: rest => if e = f then coalesce (f :: rest) else e :: coalesce (f :: rest)

namespace Session

variable {C Env S : Type}

/-- A session that was not started yet. -/
def new (chart : Chart C Env) (context : C) : Session C Env S :=
  { chart, machine := { context } }

/-- Whether the session was started. -/
def isStarted (s : Session C Env S) : Bool := s.machine.leaf.isSome

/-- The active nodes. -/
def configuration (s : Session C Env S) : Configuration :=
  match s.machine.leaf with
  | none => []
  | some leaf =>
    (((s.chart.lineage leaf).takeWhile (· != Chart.root)).map s.chart.pathOf).reverse

/-- The address of the page of the active leaf. -/
def route? (s : Session C Env S) : Option String := do
  (← s.chart.node? (← s.machine.leaf)).route

/-- The path of the active leaf; empty before the start. -/
def leafPath (s : Session C Env S) : String := s.machine.leafPath s.chart

/-- Tells something. -/
def tell (s : Session C Env S) (notices : List Notice) : Session C Env S :=
  { s with notices := s.notices ++ notices }

/-- Does something to the slot, if there is one. -/
def withSlot (s : Session C Env S) (f : Slot S → Slot S × List Notice) : Session C Env S :=
  match s.slot with
  | none => s
  | some slot =>
    let (slot, notices) := f slot
    { s with slot := some slot }.tell notices

variable [Model C] [Storage S]

/-- Carries out one effect; the payload is that of the event that the effect goes back to. -/
def carryOut (payload : Patch) (s : Session C Env S) : Effect → Session C Env S
  | .keep => s.withSlot (·.keep s.machine.context payload)
  | .forget => s.withSlot Slot.forget
  | .log message => s.tell [.logged s.leafPath message]

/-- Carries out effects, immediate repetitions only once. -/
def carryOutAll (s : Session C Env S) (effects : List Effect) (trigger : Event) : Session C Env S :=
  (coalesce effects).foldl (carryOut trigger.payload) s

/-- Brings a macrostep to rest, takes over its machine, and carries out its effects. -/
def finish (s : Session C Env S) (budget : Nat) (m : Macrostep C Env) (trigger : Event) :
    Option (Session C Env S) := do
  let m ← m.toRest s.chart s.settings.maxEventlessSteps budget
  some (({ s with machine := m.machine }.tell m.notices).carryOutAll m.effects trigger)

/-- Enters the chart from the root down to a node. -/
def enter (s : Session C Env S) (budget : Nat) (target : NodeId) : Option (Session C Env S) :=
  let m : Macrostep C Env := { machine := s.machine }
  s.finish budget (m.take s.chart .init (s.chart.firstMoves target)) .init

/-- Starts at the node that a reference names. -/
def startAt (s : Session C Env S) (budget : Nat) (reference : String) :
    Except StartError (Option (Session C Env S)) :=
  match s.chart.lookup? reference with
  | none => .error (.unknownNode reference)
  | some target => if s.isStarted then .error .alreadyStarted else .ok (s.enter budget target)

/-- Starts at the root. -/
def start (s : Session C Env S) (budget : Nat) : Except StartError (Option (Session C Env S)) :=
  if s.isStarted then .error .alreadyStarted else .ok (s.enter budget Chart.root)

/-- Takes an event.  An event that no transition is taken for changes nothing. -/
def send (s : Session C Env S) (budget : Nat) (event : Event) : Option (Session C Env S) :=
  if !s.isStarted then some (s.tell [.notStarted event.name])
  else
    let m : Macrostep C Env := { machine := s.machine }
    match m.handle? s.chart event with
    | some m => s.finish budget m event
    | none => some s

/-- Takes the outcome of an invocation; that of an invocation which is not live changes nothing. -/
def deliver (s : Session C Env S) (budget : Nat) (settlement : Settlement) :
    Option (Session C Env S) :=
  match s.machine.invocations.claim settlement.token with
  | none => some s
  | some (id, invocations) =>
    { s with machine := { s.machine with invocations } }.send budget
      (Event.ofOutcome id settlement.outcome)

/-- Hands out the tasks that were started since the last time. -/
def handOut (s : Session C Env S) : List (PendingTask Env) × Session C Env S :=
  let (tasks, invocations) := s.machine.invocations.handOut
  (tasks, { s with machine := { s.machine with invocations } })

end Session

end FormChart
