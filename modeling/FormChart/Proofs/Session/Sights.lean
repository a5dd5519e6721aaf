import FormChart.Proofs.Session.Steady
import FormChart.Storage.Watched

/-!
# What can be seen of a session

A session is watched while calls are made on it (`Session.watch`).  Of each call one sees whether it
is refused, which tasks are handed out, and how the machine stands at every decision on the way and
when the call is over (`Sight`): configuration, context, journal, live invocations, waiting tasks
and the queue of raised events.  Instants are not seen.

**Nothing of this depends on the slot** (`Session.watch_eq`).  Storages are asked when a macrostep
has come to rest, and what they answer reaches their own state and the notices.  So a session is
compared with its bare form (`Session.bare`), which has no slot, no notices and no time:

* Time is copied into the journal and read by nothing, so every step of a machine commutes with
  `Machine.timeless`.
* A call leads a session and its bare form to sessions with the same bare form
  (`Session.call_bare`), and what is seen on the way is the same (`Session.scene_bare`).
-/

namespace FormChart

variable {C Env S : Type}

/-! ## Leaving time out -/

/-- The beginning of time. -/
def Timestamp.zero : Timestamp := ⟨0, 0⟩

/-- A record without its instant. -/
def Visit.timeless (v : Visit) : Visit := { v with time := .zero }

/-- A machine for which time does not pass. -/
def Machine.timeless (m : Machine C Env) : Machine C Env :=
  { m with clock := .zero, history := ⟨m.history.visits.map Visit.timeless⟩ }

/-- A call without its instant. -/
def Call.timeless : Call → Call
  | .wait _ => .wait .zero
  | c => c

@[simp] lemma Visit.timeless_timeless (v : Visit) : v.timeless.timeless = v.timeless := rfl

@[simp] lemma Machine.timeless_timeless (m : Machine C Env) : m.timeless.timeless = m.timeless := by
  simp [Machine.timeless]

/-- A macrostep for which time does not pass. -/
def Macrostep.timeless (m : Macrostep C Env) : Macrostep C Env :=
  { m with machine := m.machine.timeless }

/-- A decision for which time does not pass. -/
def Progress.timeless : Progress C Env → Progress C Env
  | .running m => .running m.timeless
  | .atRest m => .atRest m.timeless

namespace Macrostep

variable (chart : Chart C Env) (event : Event) (m : Macrostep C Env) [Model C]

lemma write_timeless (patch : Patch) (mode : MergeMode) :
    (m.write chart patch mode).timeless = m.timeless.write chart patch mode := by
  have hcontext : m.timeless.machine.context = m.machine.context := rfl
  unfold write
  rw [hcontext]
  cases apply m.machine.context patch mode <;> rfl

lemma perform_timeless (a : Action C) :
    (m.perform chart event a).timeless = m.timeless.perform chart event a := by
  cases a with
  | assign patch remarks => exact write_timeless chart (m.tell _) _ _
  | forward => exact write_timeless chart m _ _
  | raise name => rfl
  | effect e => rfl

lemma performAll_timeless (actions : List (Action C)) :
    (m.performAll chart event actions).timeless = m.timeless.performAll chart event actions := by
  unfold performAll
  induction actions generalizing m with
  | nil => rfl
  | cons a rest ih => rw [List.foldl_cons, List.foldl_cons, ih, perform_timeless]

/-- **One part of a plan** takes no notice of time. -/
lemma move_timeless (part : Move C) :
    (m.move chart event part).timeless = m.timeless.move chart event part := by
  cases part with
  | act actions => exact performAll_timeless chart event m actions
  | leave i =>
      rw [move, move]
      cases chart.node? i with
      | none => rfl
      | some n =>
          rw [Option.elim_some, Option.elim_some, leave, leave, ← performAll_timeless]
          cases n.invoke <;> rfl
  | arrive i =>
      rw [move, move]
      cases chart.node? i with
      | none => rfl
      | some n =>
          rw [Option.elim_some, Option.elim_some, arrive, arrive, ← performAll_timeless]
          unfold invoke report
          cases n.invoke <;> cases n.kind <;> cases n.parent? <;> rfl

lemma take_timeless (plan : List (Move C)) :
    (m.take chart event plan).timeless = m.timeless.take chart event plan := by
  have hmoved : (plan.foldl (move chart event) m).timeless =
      plan.foldl (move chart event) m.timeless := by
    induction plan generalizing m with
    | nil => rfl
    | cons part rest ih => rw [List.foldl_cons, List.foldl_cons, ih, move_timeless]
  rw [take, take, ← hmoved]
  simp [timeless, Machine.timeless, journal, change, History.record, Visit.timeless,
    Machine.leafPath]

lemma handle?_timeless :
    (m.handle? chart event).map timeless = m.timeless.handle? chart event := by
  rw [handle?_eq, handle?_eq, Option.map_map]
  exact Option.map_congr fun p _ => take_timeless chart event m _

lemma dequeue_timeless : (m.dequeue chart).timeless = m.timeless.dequeue chart := by
  rw [dequeue, dequeue, show m.timeless.raised = m.raised from rfl]
  cases m.raised with
  | nil => rfl
  | cons event rest =>
      set k : Macrostep C Env := { m with raised := rest, streak := 0 }
      have hk : { m.timeless with raised := rest, streak := 0 } = k.timeless := rfl
      simp only [hk, ← handle?_timeless, Progress.timeless]
      cases k.handle? chart event <;> rfl

/-- **A decision** takes no notice of time. -/
lemma next_timeless (ceiling : Nat) :
    (m.next chart ceiling).timeless = m.timeless.next chart ceiling := by
  have hstreak : m.timeless.streak = m.streak := rfl
  rw [next, next, hstreak, ← handle?_timeless]
  split
  next => exact dequeue_timeless chart (m.tell _)
  next =>
      cases m.handle? chart .eventless with
      | none => exact dequeue_timeless chart m
      | some taken => rfl

lemma toRest_timeless (ceiling budget : Nat) :
    (m.toRest chart ceiling budget).map timeless = m.timeless.toRest chart ceiling budget := by
  induction budget generalizing m with
  | zero => rfl
  | succ budget ih =>
      rw [toRest, toRest, ← next_timeless]
      cases m.next chart ceiling with
      | running m' => exact ih m'
      | atRest m' => rfl

end Macrostep

/-! ## What is seen -/

/-- How a machine stands, as far as it can be seen. -/
structure Sight (C Env : Type) where
  configuration : Configuration
  context : C
  /-- The leaves before and after every transition, with its event. -/
  journal : List (String × String × String)
  live : List LiveInvocation
  waiting : List (PendingTask Env)
  /-- The events that are still to be handled. -/
  raised : List Event

/-- What is seen of a call. -/
structure Scene (C Env : Type) where
  refusal : Option StartError
  handedOut : List (PendingTask Env)
  /-- The sight at every decision. -/
  underway : List (Sight C Env)
  /-- The sight when the call is over; none if it does not return. -/
  after : Option (Sight C Env)

namespace Macrostep

/-- The sight of a macrostep under way. -/
def sight (chart : Chart C Env) (m : Macrostep C Env) : Sight C Env where
  configuration := ({ chart, machine := m.machine } : Session C Env Memory).configuration
  context := m.machine.context
  journal := m.machine.history.visits.map fun v => (v.source, v.target, v.event)
  live := m.machine.invocations.live
  waiting := m.machine.invocations.queue
  raised := m.raised

/-- The sights of a macrostep on its way to rest. -/
def sights [Model C] (chart : Chart C Env) (ceiling : Nat) :
    Nat → Macrostep C Env → List (Sight C Env)
  | 0, _ => []
  | budget + 1, m => m.sight chart ::
    match m.next chart ceiling with
    | .running m' => sights chart ceiling budget m'
    | .atRest _ => []

variable (chart : Chart C Env) (m : Macrostep C Env)

/-- Instants are not seen. -/
lemma sight_timeless : m.timeless.sight chart = m.sight chart := by
  simp [sight, timeless, Machine.timeless, Session.configuration, Visit.timeless,
    Function.comp_def]

lemma sights_timeless [Model C] (ceiling budget : Nat) :
    m.timeless.sights chart ceiling budget = m.sights chart ceiling budget := by
  induction budget generalizing m with
  | zero => rfl
  | succ budget ih =>
      rw [sights, sights, sight_timeless, ← next_timeless]
      cases m.next chart ceiling with
      | running m' => exact congrArg _ (ih m')
      | atRest m' => rfl

end Macrostep

/-- The sights of a moment and those that follow it within the call. -/
def Moment.sights [Model C] (budget : Nat) : Moment C Env S → List (Sight C Env)
  | .quiet _ => []
  | .under s m _ => m.sights s.chart s.settings.maxEventlessSteps budget

namespace Session

/-- The sight of a session between calls. -/
def sight (s : Session C Env S) : Sight C Env :=
  ({ machine := s.machine } : Macrostep C Env).sight s.chart

variable [Model C] [Storage S]

/-- Why a call is refused, if it is. -/
def refusal? (s : Session C Env S) (budget : Nat) : Call → Option StartError
  | .start => match s.start budget with
    | .error e => some e
    | .ok _ => none
  | .startAt reference => match s.startAt budget reference with
    | .error e => some e
    | .ok _ => none
  | _ => none

/-- The tasks that a call hands out. -/
def handsOut (s : Session C Env S) : Call → List (PendingTask Env)
  | .handOut => s.handOut.1
  | _ => []

/-- What is seen of a call. -/
def scene (s : Session C Env S) (budget : Nat) (c : Call) : Scene C Env where
  refusal := s.refusal? budget c
  handedOut := s.handsOut c
  underway := (s.begin c).2.sights budget
  after := (s.call budget c).map sight

/-- What is seen of a session while calls are made on it, up to the first one that does not
return. -/
def watch (budget : Nat) : Session C Env S → List Call → List (Scene C Env)
  | _, [] => []
  | s, c :: rest => s.scene budget c :: (s.call budget c).elim [] fun s => watch budget s rest

end Session

/-! ## Bare sessions -/

/-- A session without a slot, notices and time. -/
def Session.bare (s : Session C Env S) : Session C Env Memory :=
  { chart := s.chart, machine := s.machine.timeless, settings := s.settings }

/-- A moment without slot, notices and time. -/
def Moment.bare : Moment C Env S → Moment C Env Memory
  | .quiet s => .quiet s.bare
  | .under s m trigger => .under s.bare m.timeless trigger

namespace Session

@[simp] lemma bare_bare (s : Session C Env S) : s.bare.bare = s.bare := by simp [bare]

@[simp] lemma isStarted_bare (s : Session C Env S) : s.bare.isStarted = s.isStarted := rfl

@[simp] lemma sight_bare (s : Session C Env S) : s.bare.sight = s.sight :=
  Macrostep.sight_timeless s.chart { machine := s.machine }

end Session

namespace Moment

@[simp] lemma bare_quiet (s : Session C Env S) : (quiet s).bare = quiet s.bare := rfl

@[simp] lemma bare_bare (moment : Moment C Env S) : moment.bare.bare = moment.bare := by
  cases moment <;> simp [bare, Macrostep.timeless]

@[simp] lemma sights_bare [Model C] (budget : Nat) (moment : Moment C Env S) :
    moment.bare.sights budget = moment.sights budget := by
  cases moment with
  | quiet s => rfl
  | under s m trigger => exact Macrostep.sights_timeless s.chart m _ budget

end Moment

namespace Session

variable [Model C] (s : Session C Env S) (budget : Nat) (c : Call)

lemma beginEntry_bare (target : NodeId) :
    (s.beginEntry target).2.bare = (s.bare.beginEntry target).2 := by
  rw [beginEntry, Moment.bare, Macrostep.take_timeless]
  rfl

lemma beginSend_bare (event : Event) :
    (s.beginSend event).2.bare = (s.bare.beginSend event).2.bare := by
  unfold beginSend
  rw [isStarted_bare]
  split
  next => simp [tell, bare]
  next =>
      have hhandle : Macrostep.handle? s.bare.chart event { machine := s.bare.machine } =
          (Macrostep.handle? s.chart event { machine := s.machine }).map Macrostep.timeless :=
        (Macrostep.handle?_timeless s.chart event { machine := s.machine }).symm
      dsimp only
      rw [hhandle]
      cases Macrostep.handle? s.chart event { machine := s.machine } with
      | none => simp
      | some taken => simp [Moment.bare, Macrostep.timeless]

/-- **The beginning of a call** is the same without a slot and without time. -/
lemma begin_bare : (s.begin c).2.bare = (s.bare.begin c.timeless).2.bare := by
  have hentry : ∀ target, (s.beginEntry target).2.bare = (s.bare.beginEntry target).2.bare := by
    intro target
    rw [← s.beginEntry_bare, Moment.bare_bare]
  cases c with
  | start => by_cases hstarted : s.isStarted <;> simp [Call.timeless, begin, hstarted, hentry]
  | startAt reference =>
      simp only [Call.timeless, begin, isStarted_bare, show s.bare.chart = s.chart from rfl]
      cases s.chart.lookup? reference with
      | none => simp
      | some target => by_cases hstarted : s.isStarted <;> simp [hstarted, hentry]
  | send event => exact s.beginSend_bare event
  | deliver settlement =>
      simp only [Call.timeless, begin,
        show s.bare.machine.invocations = s.machine.invocations from rfl]
      cases s.machine.invocations.claim settlement.token with
      | none => simp
      | some claimed =>
          exact beginSend_bare { s with machine := { s.machine with invocations := claimed.2 } } _
  | handOut => simp [Call.timeless, begin, bare, handOut, Machine.timeless]
  | wait clock => simp [Call.timeless, begin, bare, Machine.timeless]

variable [Storage S]

lemma rest_bare (trigger : Event) (m : Macrostep C Env) :
    (s.rest trigger m).bare = { s.bare with machine := m.machine.timeless } := by
  rw [bare, rest_chart, rest_machine, rest_settings]
  rfl

/-- **The end of a call**: effects reach the slot and the notices only. -/
lemma finish_bare (moment : Moment C Env S) :
    (moment.finish budget).map bare = (moment.bare.finish budget).map bare := by
  cases moment with
  | quiet s => simp [Moment.finish]
  | under s m trigger =>
      simp only [Moment.finish, Moment.bare, finish, Option.bind_eq_bind]
      rw [show s.bare.chart = s.chart from rfl, show s.bare.settings = s.settings from rfl,
        ← Macrostep.toRest_timeless]
      cases m.toRest s.chart s.settings.maxEventlessSteps budget with
      | none => rfl
      | some final =>
          refine congrArg some ((s.rest_bare trigger final).trans ?_)
          refine Eq.trans ?_ (s.bare.rest_bare trigger final.timeless).symm
          simp [Macrostep.timeless]

/-- **A call** leads to the same, apart from slot, notices and time. -/
lemma call_bare : (s.call budget c).map bare = (s.bare.call budget c.timeless).map bare := by
  rw [call_eq_finish, call_eq_finish, finish_bare, begin_bare, ← finish_bare]

/-- **What is seen of a call** is the same without a slot and without time. -/
lemma scene_bare : s.scene budget c = s.bare.scene budget c.timeless := by
  have hrefusal : s.refusal? budget c = s.bare.refusal? budget c.timeless := by
    cases c with
    | start => by_cases hstarted : s.isStarted <;>
        simp [Call.timeless, refusal?, start, hstarted]
    | startAt reference =>
        simp only [Call.timeless, refusal?, startAt, isStarted_bare,
          show s.bare.chart = s.chart from rfl]
        cases s.chart.lookup? reference with
        | none => rfl
        | some target => by_cases hstarted : s.isStarted <;> simp [hstarted]
    | send _ | deliver _ | handOut | wait _ => rfl
  have hhanded : s.handsOut c = s.bare.handsOut c.timeless := by cases c <;> rfl
  have hunderway : (s.begin c).2.sights budget = (s.bare.begin c.timeless).2.sights budget := by
    rw [← Moment.sights_bare, begin_bare, Moment.sights_bare]
  have hsight : ∀ {S : Type} (called : Option (Session C Env S)),
      called.map sight = (called.map bare).map sight := by
    intro S called
    cases called <;> simp
  have hafter : (s.call budget c).map sight = (s.bare.call budget c.timeless).map sight := by
    rw [hsight, call_bare, ← hsight]
  rw [scene, scene, hrefusal, hhanded, hunderway, hafter]

/-- **Sessions with the same bare form look the same.** -/
lemma watch_congr {S₁ S₂ : Type} [Storage S₁] [Storage S₂] {s₁ : Session C Env S₁}
    {s₂ : Session C Env S₂} (hbare : s₁.bare = s₂.bare) (budget : Nat) {calls₁ calls₂ : List Call}
    (hcalls : calls₁.map Call.timeless = calls₂.map Call.timeless) :
    s₁.watch budget calls₁ = s₂.watch budget calls₂ := by
  induction calls₁ generalizing s₁ s₂ calls₂ with
  | nil =>
      obtain rfl : calls₂ = [] := List.map_eq_nil_iff.1 hcalls.symm
      rfl
  | cons c₁ rest₁ ih =>
      obtain ⟨c₂, rest₂, rfl, hc, hrest⟩ := List.map_eq_cons_iff.1 hcalls.symm
      have hscene : s₁.scene budget c₁ = s₂.scene budget c₂ := by
        rw [scene_bare, hbare, ← hc, ← scene_bare]
      have hcall : (s₁.call budget c₁).map bare = (s₂.call budget c₂).map bare := by
        rw [call_bare, hbare, ← hc, ← call_bare]
      rw [watch, watch, hscene]
      cases h₁ : s₁.call budget c₁ with
      | none =>
          rw [h₁] at hcall
          rw [Option.map_eq_none_iff.1 hcall.symm]
          rfl
      | some s₁' =>
          rw [h₁] at hcall
          obtain ⟨s₂', h₂, hsame⟩ := Option.map_eq_some_iff.1 hcall.symm
          rw [h₂]
          exact congrArg _ (ih hsame.symm hrest.symm)

omit [Storage S] [Model C] in
/-- A session that was not started yet, with its settings and perhaps a slot. -/
def opened (chart : Chart C Env) (context : C) (settings : Settings) (slot : Option (Slot S)) :
    Session C Env S := { chart, machine := { context }, settings, slot }

/-- **Storage has no influence on a session.**  Whatever chart a session is on and in whatever
context it begins, whatever calls are made on it, at whatever instants: what is seen is the same for
any two slots in any two storages, whatever these answer, and the same without a slot. -/
theorem watch_eq {S₁ S₂ : Type} [Storage S₁] [Storage S₂] (chart : Chart C Env) (context : C)
    (settings : Settings) (slot₁ : Option (Slot S₁)) (slot₂ : Option (Slot S₂)) (budget : Nat)
    {calls₁ calls₂ : List Call} (hcalls : calls₁.map Call.timeless = calls₂.map Call.timeless) :
    (opened chart context settings slot₁).watch budget calls₁ =
      (opened chart context settings slot₂).watch budget calls₂ := by
  have hbare : (opened chart context settings slot₁).bare =
      (opened chart context settings slot₂).bare := rfl
  exact watch_congr hbare budget hcalls

end Session

/-! ## A diary -/

/-- A small chart: a diary is written in and read, and burnt in the end. -/
def diary : Blueprint Tally Unit :=
  { key := "diary", kind := .compound, initial := some "open"
    children := [
      { key := "open", kind := .atomic, exit := [.keep]
        on := [("write", { actions := [.set [("count", .nat 1)], .keep] }), ("burn", .goto "ashes")]
        invoke := some { id := "read", task := fun _ => Task.succeed .null,
                         onDone := [.goto "open"] } },
      { key := "ashes", kind := .final, entry := [.raise "smoke", .forget] }] }

/-- Calls on the diary that bear a certain instant. -/
def diaryCalls (clock : Timestamp) : List Call :=
  [.wait clock, .start, .handOut, .send { name := "write" }, .deliver ⟨⟨1, 0⟩, .ok .null⟩,
    .send { name := "burn" }]

namespace Session

/-- A storage that refuses everything is asked four times and leaves four notices, and nothing else
of it is seen. -/
theorem watch_eq_diary :
    diary.build = .ok diary.outline.chart ∧
    let slot : Slot (Watched Memory) := ⟨{ inner := {}, refused := [.write, .remove] }, "diary"⟩
    let s₁ : Session Tally Unit (Watched Memory) := opened diary.outline.chart {} {} (some slot)
    let s₂ : Session Tally Unit Memory := opened diary.outline.chart {} {} none
    s₁.watch 9 (diaryCalls ⟨1, 0⟩) = s₂.watch 9 (diaryCalls ⟨2, 0⟩) ∧
      (s₁.watch 9 (diaryCalls ⟨1, 0⟩)).map (fun scene => scene.after.map (·.configuration)) =
        [some [], some ["open"], some ["open"], some ["open"], some ["open"], some ["ashes"]] ∧
      ((diaryCalls ⟨1, 0⟩).foldlM (call · 9) s₁).map (·.notices) =
        some [.notKept "diary" .poisoned, .notKept "diary" .poisoned, .notKept "diary" .poisoned,
          .notForgotten "diary" .poisoned] := by
  have hbuild : diary.build = .ok diary.outline.chart :=
    Blueprint.build_of_defects_eq_nil (by decide +kernel)
  exact ⟨hbuild, watch_eq diary.outline.chart {} {} _ _ 9 rfl, by decide +kernel,
    by decide +kernel⟩

end Session

end FormChart
