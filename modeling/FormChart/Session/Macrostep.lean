import FormChart.Session.Microstep

/-!
# Macrosteps

After an event, automatic transitions are taken until none is enabled, then the oldest raised event
is handled, then automatic transitions again, and so on until neither is left: the machine is at
rest.  `Macrostep.next` is one decision of this process and `Macrostep.toRest` repeats it.

The number of automatic transitions **that follow one another** has a ceiling, which is counted
anew for every raised event.  Nothing bounds the number of raised events, so a chart may keep a
machine from coming to rest; `toRest` has a budget of decisions and says when it was not enough.

This is the operation `settle` of the interpreter, which nests two loops: the inner one dispatches
the event without a name until nothing is enabled or `max_eventless_steps` is reached, the outer one
takes the oldest raised event and begins again.  `next` is one pass through the inner loop, or the
turn of the outer one (`dequeue`), and `streak` is the counter of the inner loop.
-/

namespace FormChart

/-- What came of a decision. -/
inductive Progress (C Env : Type) where
  /-- There may be more to do. -/
  | running (m : Macrostep C Env)
  /-- The machine is at rest. -/
  | atRest (m : Macrostep C Env)

namespace Macrostep

variable {C Env : Type} [Model C]

/-- Handles the oldest raised event, whether a transition is taken for it or not. -/
def dequeue (chart : Chart C Env) (m : Macrostep C Env) : Progress C Env :=
  match m.raised with
  | [] => .atRest m
  | event :: rest =>
    let m := { m with raised := rest, streak := 0 }
    .running ((m.handle? chart event).getD m)

/-- One decision: an automatic transition below the ceiling, or else the next raised event. -/
def next (chart : Chart C Env) (ceiling : Nat) (m : Macrostep C Env) : Progress C Env :=
  if m.streak = ceiling then
    (m.tell [.unsettled (m.machine.leafPath chart) ceiling]).dequeue chart
  else
    match m.handle? chart .eventless with
    | some taken => .running { taken with streak := m.streak + 1 }
    | none => m.dequeue chart

/-- Decides until the machine is at rest; none if the budget does not suffice. -/
def toRest (chart : Chart C Env) (ceiling : Nat) :
    Nat → Macrostep C Env → Option (Macrostep C Env)
  | 0, _ => none
  | budget + 1, m =>
    match m.next chart ceiling with
    | .running m => toRest chart ceiling budget m
    | .atRest m => some m

end Macrostep

end FormChart
