import FormChart.Task

/-!
# Invocations

A node may invoke a task for as long as it is active.  The ledger of invocations holds, for every
node, the token of its live invocation, and the tasks that were started but not yet handed out.

* `start` hands a node a token that was never used before, in place of an earlier one;
* `cancel` ends a node's invocation, and drops its task if nobody has taken it;
* `claim` trades a live token for the id of its invocation, **once**;
* `handOut` hands out the tasks in the order in which they were started.

Tokens are numbered as they are made, so no two starts share one.

This is the manager of invocations, whose `take_pending` is called `handOut` here.  Its tokens carry
random identifiers; a serial number stands for each of them, and is used for nothing but telling
tokens apart.
-/

namespace FormChart

/-- A node by its place in the table of a chart. -/
abbrev NodeId := Nat

/-- Names one start of an invocation. -/
structure Token where
  node : NodeId
  serial : Nat
  deriving DecidableEq, Repr, Inhabited

/-- An invocation whose outcome is still of interest. -/
structure LiveInvocation where
  token : Token
  id : String
  deriving DecidableEq, Repr

/-- A task that waits to be run. -/
structure PendingTask (Env : Type) where
  token : Token
  id : String
  task : Task Env

/-- The outcome of a task, with the token under which the task was started. -/
structure Settlement where
  token : Token
  outcome : Outcome

/-- Runs a task that was handed out. -/
def PendingTask.run {Env : Type} (p : PendingTask Env) (env : Env) : Settlement × Env :=
  let (outcome, env) := p.task env
  (⟨p.token, outcome⟩, env)

/-- Which invocations are live, and which tasks were not handed out yet. -/
structure Invocations (Env : Type) where
  /-- At most one per node. -/
  live : List LiveInvocation := []
  /-- In the order in which they were started. -/
  queue : List (PendingTask Env) := []
  /-- The number of the next token. -/
  nextSerial : Nat := 0

namespace Invocations

variable {Env : Type}

instance : Inhabited (Invocations Env) := ⟨{}⟩

/-- The live invocation of a node. -/
def find? (i : Invocations Env) (node : NodeId) : Option LiveInvocation :=
  i.live.find? (·.token.node == node)

/-- The live invocations of the other nodes. -/
def others (i : Invocations Env) (node : NodeId) : List LiveInvocation :=
  i.live.filter (·.token.node != node)

/-- The token that the next start hands out. -/
def nextToken (i : Invocations Env) (node : NodeId) : Token := ⟨node, i.nextSerial⟩

/-- Starts an invocation, in place of the node's earlier one. -/
def start (i : Invocations Env) (node : NodeId) (id : String) (task : Task Env) :
    Invocations Env :=
  { live := ⟨i.nextToken node, id⟩ :: i.others node
    queue := i.queue ++ [⟨i.nextToken node, id, task⟩]
    nextSerial := i.nextSerial + 1 }

/-- Ends the invocation of a node, if it has one. -/
def cancel (i : Invocations Env) (node : NodeId) : Invocations Env :=
  match i.find? node with
  | some l => { i with live := i.others node, queue := i.queue.filter (·.token != l.token) }
  | none => i

/-- Whether a token is the live one of its node. -/
def isLive (i : Invocations Env) (token : Token) : Bool :=
  (i.find? token.node).any (·.token == token)

/-- Trades a live token for the id of its invocation, which ends. -/
def claim (i : Invocations Env) (token : Token) : Option (String × Invocations Env) :=
  match i.find? token.node with
  | some l =>
    if l.token = token then some (l.id, { i with live := i.others token.node }) else none
  | none => none

/-- Hands out the waiting tasks. -/
def handOut (i : Invocations Env) : List (PendingTask Env) × Invocations Env :=
  (i.queue, { i with queue := [] })

/-- The number of live invocations. -/
def liveCount (i : Invocations Env) : Nat := i.live.length

end Invocations

end FormChart
