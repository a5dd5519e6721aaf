import FormChart.Proofs.Session.Deeds
import FormChart.Proofs.Chart.Tree
import FormChart.Session.Basic
import FormChart.Tally

/-!
# Journeys

A journey is a run of a session, seen decision by decision: calls in any order, and between them the
decisions of the macrosteps that they set off.  `Journey permits s₀ episodes moment` says that such
a run leads from `s₀` to a moment and that the given episodes happen on the way.  What callers may
do is a parameter; what the machine does is not.

* `Session.begin` and `Session.proceed` are the calls of a session cut in two, before and after
  the macrostep.  `Journey.of_call` puts them together again: a call that returns leads from one
  quiet moment of a journey to another.  Nothing is said about a macrostep that never ends, except
  by the moments within it.
* `Sustained` says what has to be shown of one step for everything that is about the machine: the
  first entry, one transition, and what happens to the ledger of invocations between transitions.
  **What is sustained holds all along a journey** (`Journey.invariant`).
-/

namespace FormChart

/-- What a caller may do with a session. -/
inductive Call where
  | start
  | startAt (reference : String)
  | send (event : Event)
  | deliver (settlement : Settlement)
  | handOut
  /-- Lets time pass. -/
  | wait (clock : Timestamp)

/-- Where a run stands. -/
inductive Moment (C Env S : Type) where
  /-- Between calls. -/
  | quiet (s : Session C Env S)
  /-- Within the macrostep that an event has set off, at one of its decisions. -/
  | under (s : Session C Env S) (m : Macrostep C Env) (trigger : Event)

variable {C Env S : Type}

/-- The machine at a moment. -/
def Moment.machine : Moment C Env S → Machine C Env
  | .quiet s => s.machine
  | .under _ m _ => m.machine

/-- The session at a moment, as it was before the macrostep under way. -/
def Moment.session : Moment C Env S → Session C Env S
  | .quiet s => s
  | .under s _ _ => s

namespace Session

variable [Model C] [Storage S]

/-- What is done when a macrostep has come to rest. -/
def rest (s : Session C Env S) (trigger : Event) (m : Macrostep C Env) : Session C Env S :=
  ({ s with machine := m.machine }.tell m.notices).carryOutAll m.effects trigger

/-- The moment after a decision. -/
def proceed (s : Session C Env S) (trigger : Event) : Progress C Env → Moment C Env S
  | .running m => .under s m trigger
  | .atRest m => .quiet (s.rest trigger m)

omit [Storage S] in
/-- The first entry, without the macrostep after it. -/
def beginEntry (s : Session C Env S) (target : NodeId) : List (Episode C) × Moment C Env S :=
  let m : Macrostep C Env := { machine := s.machine }
  let plan := s.chart.firstMoves target
  ([.entry (m.deeds s.chart .init plan)], .under s (m.take s.chart .init plan) .init)

omit [Storage S] in
/-- An event, without the macrostep after it. -/
def beginSend (s : Session C Env S) (event : Event) : List (Episode C) × Moment C Env S :=
  if !s.isStarted then ([], .quiet (s.tell [.notStarted event.name]))
  else
    let m : Macrostep C Env := { machine := s.machine }
    match m.handle? s.chart event with
    | some taken => (m.episodes s.chart event, .under s taken event)
    | none => ([], .quiet s)

omit [Storage S] in
/-- A call, without the macrostep that it sets off: what happens, and where it leads. -/
def begin (s : Session C Env S) : Call → List (Episode C) × Moment C Env S
  | .start => if s.isStarted then ([], .quiet s) else s.beginEntry Chart.root
  | .startAt reference =>
    match s.chart.lookup? reference with
    | none => ([], .quiet s)
    | some target => if s.isStarted then ([], .quiet s) else s.beginEntry target
  | .send event => s.beginSend event
  | .deliver settlement =>
    match s.machine.invocations.claim settlement.token with
    | none => ([], .quiet s)
    | some (id, invocations) =>
      let (episodes, moment) := { s with machine := { s.machine with invocations } }.beginSend
        (Event.ofOutcome id settlement.outcome)
      (.claim settlement.token :: episodes, moment)
  | .handOut =>
    ([.handOut (s.machine.invocations.queue.map (·.token))], .quiet s.handOut.2)
  | .wait clock => ([], .quiet { s with machine := { s.machine with clock } })

/-- A call as a whole; none if its budget does not suffice.  A start that is refused changes
nothing. -/
def call (s : Session C Env S) (budget : Nat) : Call → Option (Session C Env S)
  | .start => (s.start budget).toOption.getD (some s)
  | .startAt reference => (s.startAt budget reference).toOption.getD (some s)
  | .send event => s.send budget event
  | .deliver settlement => s.deliver budget settlement
  | .handOut => some s.handOut.2
  | .wait clock => some { s with machine := { s.machine with clock } }

/-! ## What effects leave alone -/

/-- Effects reach the slot and the notices, and nothing else of a session. -/
lemma carryOut_eq (payload : Patch) (s : Session C Env S) (e : Effect) :
    ∃ slot notices, s.carryOut payload e = { s with slot, notices } := by
  have hslot : ∀ f : Slot S → Slot S × List Notice,
      ∃ slot notices, s.withSlot f = { s with slot, notices } := by
    intro f
    unfold withSlot
    split
    · exact ⟨_, _, rfl⟩
    · exact ⟨_, _, rfl⟩
  cases e with
  | keep => exact hslot _
  | forget => exact hslot _
  | log message => exact ⟨_, _, rfl⟩

lemma carryOutAll_eq (s : Session C Env S) (effects : List Effect) (trigger : Event) :
    ∃ slot notices, s.carryOutAll effects trigger = { s with slot, notices } := by
  unfold carryOutAll
  induction coalesce effects generalizing s with
  | nil => exact ⟨_, _, rfl⟩
  | cons e rest ih =>
      obtain ⟨slot, notices, he⟩ := carryOut_eq trigger.payload s e
      obtain ⟨slot', notices', hrest⟩ := ih (s.carryOut trigger.payload e)
      exact ⟨slot', notices', by rw [List.foldl_cons, hrest, he]⟩

@[simp] lemma rest_chart (s : Session C Env S) (trigger : Event) (m : Macrostep C Env) :
    (s.rest trigger m).chart = s.chart := by
  obtain ⟨slot, notices, h⟩ :=
    carryOutAll_eq ({ s with machine := m.machine }.tell m.notices) m.effects trigger
  rw [rest, h]
  rfl

@[simp] lemma rest_machine (s : Session C Env S) (trigger : Event) (m : Macrostep C Env) :
    (s.rest trigger m).machine = m.machine := by
  obtain ⟨slot, notices, h⟩ :=
    carryOutAll_eq ({ s with machine := m.machine }.tell m.notices) m.effects trigger
  rw [rest, h]
  rfl

lemma proceed_chart (s : Session C Env S) (trigger : Event) (p : Progress C Env) :
    (s.proceed trigger p).session.chart = s.chart := by
  cases p with
  | running m => rfl
  | atRest m => exact rest_chart s trigger m

lemma proceed_machine (s : Session C Env S) (trigger : Event) (p : Progress C Env) :
    (s.proceed trigger p).machine = p.machine := by
  cases p with
  | running m => rfl
  | atRest m => exact rest_machine s trigger m

end Session

/-- A run of a session under rules for its callers: what happens on the way, and where it leads. -/
inductive Journey [Model C] [Storage S] (permits : List (Episode C) → Call → Prop)
    (s₀ : Session C Env S) : List (Episode C) → Moment C Env S → Prop
  | nil : Journey permits s₀ [] (.quiet s₀)
  | call {episodes : List (Episode C)} {s : Session C Env S} (c : Call) :
      Journey permits s₀ episodes (.quiet s) → permits episodes c →
      Journey permits s₀ (episodes ++ (s.begin c).1) (s.begin c).2
  | decide {episodes : List (Episode C)} {s : Session C Env S} {m : Macrostep C Env}
      {trigger : Event} :
      Journey permits s₀ episodes (.under s m trigger) →
      Journey permits s₀
        (episodes ++ m.nextEpisodes s.chart s.settings.maxEventlessSteps)
        (s.proceed trigger (m.next s.chart s.settings.maxEventlessSteps))

namespace Journey

variable [Model C] [Storage S] {permits : List (Episode C) → Call → Prop} {s₀ : Session C Env S}

/-! ## Calls -/

/-- A macrostep that comes to rest leads to a quiet moment. -/
lemma of_toRest {s : Session C Env S} {trigger : Event} (budget : Nat) :
    ∀ {episodes : List (Episode C)} {m final : Macrostep C Env},
      Journey permits s₀ episodes (.under s m trigger) →
      m.toRest s.chart s.settings.maxEventlessSteps budget = some final →
      ∃ more, Journey permits s₀ (episodes ++ more) (.quiet (s.rest trigger final)) := by
  induction budget with
  | zero => exact fun _ hrest => nomatch hrest
  | succ budget ih =>
      intro episodes m final run hrest
      have hnext := run.decide
      rw [Macrostep.toRest] at hrest
      cases hp : m.next s.chart s.settings.maxEventlessSteps with
      | running m' =>
          rw [hp] at hrest hnext
          obtain ⟨more, hmore⟩ := ih hnext hrest
          exact ⟨_, by rwa [List.append_assoc] at hmore⟩
      | atRest m' =>
          rw [hp] at hrest hnext
          cases hrest
          exact ⟨_, hnext⟩

lemma of_finish {s s' : Session C Env S} {trigger : Event} {budget : Nat}
    {episodes : List (Episode C)} {m : Macrostep C Env}
    (run : Journey permits s₀ episodes (.under s m trigger))
    (h : s.finish budget m trigger = some s') :
    ∃ more, Journey permits s₀ (episodes ++ more) (.quiet s') := by
  simp only [Session.finish, Option.bind_eq_bind, Option.bind_eq_some_iff,
    Option.some.injEq] at h
  obtain ⟨final, hrest, rfl⟩ := h
  exact of_toRest budget run hrest

/-- An event that is taken leads on, whatever happened right before it. -/
lemma of_beginSend {s s' : Session C Env S} {event : Event} {budget : Nat}
    {episodes : List (Episode C)}
    (run : Journey permits s₀ episodes (s.beginSend event).2)
    (h : s.send budget event = some s') :
    ∃ more, Journey permits s₀ (episodes ++ more) (.quiet s') := by
  unfold Session.beginSend at run
  unfold Session.send at h
  split at run
  next hstopped =>
      rw [if_pos hstopped] at h
      cases h
      exact ⟨[], by rwa [List.append_nil]⟩
  next hrunning =>
      rw [if_neg hrunning] at h
      dsimp only at run h
      split at run
      next taken hhandle =>
          rw [hhandle] at h
          exact of_finish run h
      next hhandle =>
          rw [hhandle] at h
          cases h
          exact ⟨[], by rwa [List.append_nil]⟩

/-- So does a start, unless it is refused. -/
lemma of_beginEntry {s s' : Session C Env S} {target : NodeId} {budget : Nat}
    {episodes : List (Episode C)}
    (run : Journey permits s₀ episodes (s.beginEntry target).2)
    (h : s.enter budget target = some s') :
    ∃ more, Journey permits s₀ (episodes ++ more) (.quiet s') := of_finish run h

/-- **A call that returns leads on**: from the quiet moment before it to the one after it. -/
lemma of_call {s s' : Session C Env S} {budget : Nat} {episodes : List (Episode C)}
    (run : Journey permits s₀ episodes (.quiet s)) {c : Call} (hc : permits episodes c)
    (h : s.call budget c = some s') :
    ∃ more, Journey permits s₀ (episodes ++ more) (.quiet s') := by
  have hcall := run.call c hc
  cases c with
  | start =>
      simp only [Session.call, Session.start] at h
      rw [Session.begin] at hcall
      split at h
      next hstarted =>
          cases h
          exact ⟨[], by rwa [List.append_nil]⟩
      next hstarted =>
          rw [if_neg hstarted] at hcall
          obtain ⟨more, hmore⟩ := of_beginEntry hcall h
          exact ⟨_, by rwa [List.append_assoc] at hmore⟩
  | startAt reference =>
      simp only [Session.call, Session.startAt] at h
      rw [Session.begin] at hcall
      split at h
      next hunknown =>
          cases h
          exact ⟨[], by rwa [List.append_nil]⟩
      next target htarget =>
          simp only [htarget] at hcall
          split at h
          next hstarted =>
              cases h
              exact ⟨[], by rwa [List.append_nil]⟩
          next hstarted =>
              rw [if_neg hstarted] at hcall
              obtain ⟨more, hmore⟩ := of_beginEntry hcall h
              exact ⟨_, by rwa [List.append_assoc] at hmore⟩
  | send event =>
      obtain ⟨more, hmore⟩ := of_beginSend hcall h
      exact ⟨_, by rwa [List.append_assoc] at hmore⟩
  | deliver settlement =>
      simp only [Session.call, Session.deliver] at h
      rw [Session.begin] at hcall
      split at h
      next hstale =>
          cases h
          exact ⟨[], by rwa [List.append_nil]⟩
      next id invocations hclaim =>
          simp only [hclaim] at hcall
          obtain ⟨more, hmore⟩ := of_beginSend hcall h
          exact ⟨_, by rwa [List.append_assoc] at hmore⟩
  | handOut =>
      cases h
      exact ⟨_, hcall⟩
  | wait clock =>
      cases h
      exact ⟨_, hcall⟩

end Journey

/-! ## Invariants of the machine -/

/-- What everything that happens to a machine sustains: the first entry, every transition that is
taken from the active leaf, the outcome and the handing out of invocations, and the passing of
time. -/
structure Sustained [Model C] (permits : List (Episode C) → Call → Prop) (chart : Chart C Env)
    (P : List (Episode C) → Machine C Env → Prop) : Prop where
  entry : ∀ (episodes : List (Episode C)) (machine : Machine C Env) (target : NodeId),
    P episodes machine → machine.leaf = none →
    (target = Chart.root ∨ ∃ n, chart.node? target = some n) →
    P (episodes ++ [.entry (Macrostep.deeds chart .init { machine } (chart.firstMoves target))])
      (Macrostep.take chart .init { machine } (chart.firstMoves target)).machine
  transition : ∀ (episodes : List (Episode C)) (m : Macrostep C Env) (event : Event)
    (leaf : NodeId) (t : Transition C),
    P episodes m.machine → m.machine.leaf = some leaf →
    chart.choose? leaf m.machine.context event.name = some t →
    P (episodes ++ [.transition leaf t (m.deeds chart event (chart.moves leaf t))])
      (m.take chart event (chart.moves leaf t)).machine
  claim : ∀ (episodes : List (Episode C)) (machine : Machine C Env) (settlement : Settlement)
    (id : String) (invocations : Invocations Env),
    P episodes machine → permits episodes (.deliver settlement) →
    machine.invocations.claim settlement.token = some (id, invocations) →
    P (episodes ++ [.claim settlement.token]) { machine with invocations }
  handOut : ∀ (episodes : List (Episode C)) (machine : Machine C Env),
    P episodes machine →
    P (episodes ++ [.handOut (machine.invocations.queue.map (·.token))])
      { machine with invocations := machine.invocations.handOut.2 }
  wait : ∀ (episodes : List (Episode C)) (machine : Machine C Env) (clock : Timestamp),
    P episodes machine → P episodes { machine with clock }

namespace Sustained

variable [Model C] {permits : List (Episode C) → Call → Prop} {chart : Chart C Env}
  {P : List (Episode C) → Machine C Env → Prop} (h : Sustained permits chart P)
  {episodes : List (Episode C)} {s : Session C Env S}

include h

/-! A step is described by the episodes that it adds and the moment that it leads to. -/

lemma beginEntry (hchart : s.chart = chart) (hP : P episodes s.machine) (hstopped : ¬ s.isStarted)
    {target : NodeId} (htarget : target = Chart.root ∨ ∃ n, chart.node? target = some n) :
    P (episodes ++ (s.beginEntry target).1) (s.beginEntry target).2.machine := by
  have hleaf : s.machine.leaf = none := by simpa [Session.isStarted] using hstopped
  have hentry := h.entry episodes s.machine target hP hleaf htarget
  rw [← hchart] at hentry
  exact hentry

lemma beginSend (hchart : s.chart = chart) (hP : P episodes s.machine) (event : Event) :
    (s.beginSend event).2.session.chart = chart ∧
      P (episodes ++ (s.beginSend event).1) (s.beginSend event).2.machine := by
  unfold Session.beginSend
  split
  next => exact ⟨hchart, by rwa [List.append_nil]⟩
  next =>
      dsimp only
      cases hhandle : Macrostep.handle? s.chart event { machine := s.machine } with
      | none => exact ⟨hchart, by rwa [List.append_nil]⟩
      | some taken =>
          obtain ⟨leaf, t, hleaf, hchoose, rfl, hepisodes⟩ := Macrostep.handle?_cases hhandle
          rw [hepisodes, hchart]
          rw [hchart] at hchoose
          exact ⟨hchart, h.transition episodes _ event leaf t hP hleaf hchoose⟩

/-- **One call** sustains what is sustained. -/
lemma begin (hchart : s.chart = chart) (hP : P episodes s.machine) {c : Call}
    (hc : permits episodes c) :
    (s.begin c).2.session.chart = chart ∧
      P (episodes ++ (s.begin c).1) (s.begin c).2.machine := by
  cases c with
  | start =>
      rw [Session.begin]
      split
      next => exact ⟨hchart, by rwa [List.append_nil]⟩
      next hstopped => exact ⟨hchart, h.beginEntry hchart hP hstopped (.inl rfl)⟩
  | startAt reference =>
      rw [Session.begin]
      split
      next => exact ⟨hchart, by rwa [List.append_nil]⟩
      next target htarget =>
          split
          next => exact ⟨hchart, by rwa [List.append_nil]⟩
          next hstopped =>
              have hnode := Chart.node?_of_lookup? htarget
              exact ⟨hchart, h.beginEntry hchart hP hstopped (.inr (hchart ▸ hnode))⟩
  | send event => exact h.beginSend hchart hP event
  | deliver settlement =>
      rw [Session.begin]
      split
      next => exact ⟨hchart, by rwa [List.append_nil]⟩
      next id invocations hclaim =>
          have hclaimed := h.claim episodes s.machine settlement id invocations hP hc hclaim
          have hsend := h.beginSend
            (s := { s with machine := { s.machine with invocations } }) hchart hclaimed
            (Event.ofOutcome id settlement.outcome)
          rwa [List.append_assoc, List.singleton_append] at hsend
  | handOut => exact ⟨hchart, h.handOut episodes s.machine hP⟩
  | wait clock =>
      refine ⟨hchart, ?_⟩
      rw [Session.begin, List.append_nil]
      exact h.wait episodes s.machine clock hP

/-- **One decision** sustains what is sustained. -/
lemma next {m : Macrostep C Env} (hP : P episodes m.machine) (ceiling : Nat) :
    P (episodes ++ m.nextEpisodes chart ceiling) (m.next chart ceiling).machine := by
  rcases Macrostep.next_cases chart ceiling m with
    ⟨hmachine, hepisodes⟩ | ⟨event, k, leaf, t, hk, hleaf, hchoose, hmachine, hepisodes⟩
  · rw [hmachine, hepisodes, List.append_nil]
    exact hP
  · rw [hmachine, hepisodes]
    rw [← hk] at hleaf hchoose
    exact h.transition episodes k event leaf t (hk ▸ hP) hleaf hchoose

end Sustained

/-- **What holds of the machine all along a journey**: what holds at first and is sustained. -/
theorem Journey.invariant [Model C] [Storage S] {permits : List (Episode C) → Call → Prop}
    {s₀ : Session C Env S} {P : List (Episode C) → Machine C Env → Prop}
    (h : Sustained permits s₀.chart P) (init : P [] s₀.machine) {episodes : List (Episode C)}
    {moment : Moment C Env S} (run : Journey permits s₀ episodes moment) :
    moment.session.chart = s₀.chart ∧ P episodes moment.machine := by
  induction run with
  | nil => exact ⟨rfl, init⟩
  | call c _ hc ih => exact h.begin ih.1 ih.2 hc
  | @decide episodes s m trigger _ ih =>
      obtain ⟨hchart, hP⟩ := ih
      change s.chart = s₀.chart at hchart
      rw [Session.proceed_chart, Session.proceed_machine, hchart]
      exact ⟨rfl, h.next hP s.settings.maxEventlessSteps⟩

/-! ## An errand -/

/-- A small chart with one invocation, whose node can be entered again while it is live. -/
def errand : Blueprint Tally Unit :=
  { key := "errands", kind := .compound, initial := some "home"
    children := [
      { key := "home", kind := .atomic, on := [("go", .goto "away")] },
      { key := "away", kind := .compound, initial := some "shop"
        children := [
          { key := "shop", kind := .atomic
            on := [("again", .goto "shop"), ("stay", {})]
            invoke := some { id := "buy", task := fun _ => Task.succeed .null,
                             onDone := [.goto "back"] } },
          { key := "back", kind := .final }] }] }

/-- The errand before its start. -/
def errandSession : Session Tally Unit Memory := .new errand.outline.chart {}

lemma errand_build : errand.build = .ok errandSession.chart :=
  Blueprint.build_of_defects_eq_nil (by decide +kernel)

end FormChart
