import FormChart.Session.Basic

/-!
# Driving a session

A session is driven by running the tasks that it hands out, one after the other, and feeding their
outcomes back, until no task is left.  Outcomes may start further tasks, so driving has a budget
of rounds beside that of the single calls.

The driver's `start`, `start_at` and `send` are `driveStart`, `driveStartAt` and `driveSend`.  Each
ends with its `drain` (`runPending`): take the pending tasks, run each of them and resolve its
settlement (`runAll`), and begin again until none is pending.
-/

namespace FormChart.Session

variable {C Env S : Type} [Model C] [Storage S]

/-- Runs tasks one after the other and feeds each outcome back at once. -/
def runAll (budget : Nat) : List (PendingTask Env) → Session C Env S → Env →
    Option (Session C Env S × Env)
  | [], s, env => some (s, env)
  | p :: rest, s, env =>
    let (settlement, env) := p.run env
    match s.deliver budget settlement with
    | none => none
    | some s => runAll budget rest s env

/-- Runs tasks until none is left. -/
def runPending (budget : Nat) : Nat → Session C Env S → Env → Option (Session C Env S × Env)
  | 0, _, _ => none
  | rounds + 1, s, env =>
    match s.handOut with
    | ([], s) => some (s, env)
    | (tasks, s) =>
      match runAll budget tasks s env with
      | none => none
      | some (s, env) => runPending budget rounds s env

/-- Runs tasks until none is left, after a call that may have used up its budget. -/
def runPendingAfter (budget rounds : Nat) (called : Option (Session C Env S)) (env : Env) :
    Option (Session C Env S × Env) :=
  called.bind fun s => s.runPending budget rounds env

/-- Starts and runs the tasks. -/
def driveStart (s : Session C Env S) (budget rounds : Nat) (env : Env) :
    Except StartError (Option (Session C Env S × Env)) :=
  (s.start budget).map fun called => runPendingAfter budget rounds called env

/-- Starts at the node that a reference names and runs the tasks. -/
def driveStartAt (s : Session C Env S) (budget rounds : Nat) (reference : String) (env : Env) :
    Except StartError (Option (Session C Env S × Env)) :=
  (s.startAt budget reference).map fun called => runPendingAfter budget rounds called env

/-- Takes an event and runs the tasks. -/
def driveSend (s : Session C Env S) (budget rounds : Nat) (event : Event) (env : Env) :
    Option (Session C Env S × Env) :=
  runPendingAfter budget rounds (s.send budget event) env

end FormChart.Session
