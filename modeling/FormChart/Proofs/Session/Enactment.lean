import FormChart.Proofs.Session.Logging

/-!
# From the record to what is performed

The episodes of a journey name the nodes that are left and entered.  Here the names are tied to what
the machine performs: **a machine is where the recorded actions lead** (`Journey.enacted`).

* `Stage` is what actions can change: the context and, within a macrostep, the queue of raised
  events and the effects that were asked for.
* `Stage.play` performs an episode: it takes the exit lists of the nodes that were left, the actions
  of the transition and the entry lists of the nodes that were entered, in the recorded order, and
  neither plan nor machine.
* `Enacted` replays a whole record in this way.  Between two episodes it only takes events from the
  queue and, once the queue is empty, ends the macrostep.

`Macrostep.stage_transition` is the step: taking a transition is playing its episode.
-/

namespace FormChart

variable {C Env S : Type}

/-! ## Stages -/

/-- What actions have made of a session up to some moment. -/
inductive Stage (C : Type) where
  /-- Between calls. -/
  | quiet (context : C)
  /-- Within the macrostep that an event has set off, with the events that wait to be handled and
  the effects that wait to be carried out. -/
  | under (trigger : Event) (context : C) (raised : List Event) (effects : List Effect)
  deriving DecidableEq

/-- What actions have made of a macrostep. -/
def Macrostep.stage (trigger : Event) (m : Macrostep C Env) : Stage C :=
  .under trigger m.machine.context m.raised m.effects

/-- What actions have made of a macrostep after a decision. -/
def Progress.stage (trigger : Event) : Progress C Env → Stage C
  | .running m => m.stage trigger
  | .atRest m => .quiet m.machine.context

/-- What actions have made of a session at a moment. -/
def Moment.stage : Moment C Env S → Stage C
  | .quiet s => .quiet s.machine.context
  | .under _ m trigger => m.stage trigger

variable [Model C]

/-- The stage after an episode, whose actions are performed under a certain event. -/
def Stage.play (chart : Chart C Env) (trigger event : Event) (e : Episode C) (context : C)
    (raised : List Event) (effects : List Effect) : Stage C :=
  .under trigger (Action.outcomes event (e.actions chart) context) (raised ++ e.raises chart)
    (effects ++ effectsOf (e.actions chart))

/-- Where a record leads from a context, if the actions of its episodes are performed one after the
other and nothing else is. -/
inductive Enacted (chart : Chart C Env) (start : C) : List (Episode C) → Stage C → Prop
  | nil : Enacted chart start [] (.quiet start)
  | handOut {episodes : List (Episode C)} {context : C} (tokens : List Token) :
      Enacted chart start episodes (.quiet context) →
      Enacted chart start (episodes ++ [.handOut tokens]) (.quiet context)
  | claim {episodes : List (Episode C)} {context : C} (token : Token) :
      Enacted chart start episodes (.quiet context) →
      Enacted chart start (episodes ++ [.claim token]) (.quiet context)
  /-- An event sets off a macrostep. -/
  | begin {episodes : List (Episode C)} {context : C} (trigger : Event) (e : Episode C) :
      Enacted chart start episodes (.quiet context) →
      Enacted chart start (episodes ++ [e]) (.play chart trigger trigger e context [] [])
  | automatic {episodes : List (Episode C)} {trigger : Event} {context : C} {raised : List Event}
      {effects : List Effect} (e : Episode C) :
      Enacted chart start episodes (.under trigger context raised effects) →
      Enacted chart start (episodes ++ [e])
        (.play chart trigger .eventless e context raised effects)
  /-- The oldest raised event is handled. -/
  | handle {episodes : List (Episode C)} {trigger event : Event} {context : C}
      {raised : List Event} {effects : List Effect} (e : Episode C) :
      Enacted chart start episodes (.under trigger context (event :: raised) effects) →
      Enacted chart start (episodes ++ [e]) (.play chart trigger event e context raised effects)
  /-- No transition is taken for the oldest raised event. -/
  | ignore {episodes : List (Episode C)} {trigger event : Event} {context : C}
      {raised : List Event} {effects : List Effect} :
      Enacted chart start episodes (.under trigger context (event :: raised) effects) →
      Enacted chart start episodes (.under trigger context raised effects)
  | rest {episodes : List (Episode C)} {trigger : Event} {context : C} {effects : List Effect} :
      Enacted chart start episodes (.under trigger context [] effects) →
      Enacted chart start episodes (.quiet context)

/-! ## Plans -/

namespace Macrostep

variable {chart : Chart C Env}

/-- A plan whose actions and raised events are those of an episode plays it. -/
lemma stage_take (m : Macrostep C Env) (trigger event : Event) {plan : List (Move C)}
    {e : Episode C} (hactions : chart.actionsOf plan = e.actions chart)
    (hraised : (plan.foldl (move chart event) m).raised = m.raised ++ e.raises chart) :
    (m.take chart event plan).stage trigger =
      .play chart trigger event e m.machine.context m.raised m.effects := by
  have htaken : (m.take chart event plan).raised = m.raised ++ e.raises chart := hraised
  rw [stage, Stage.play, take_outcomes, take_effects, hactions, htaken]

/-- **The first entry** plays its episode. -/
lemma stage_entry (m : Macrostep C Env) (trigger event : Event) (target : NodeId) :
    (m.take chart event (chart.firstMoves target)).stage trigger =
      .play chart trigger event (.entry (m.deeds chart event (chart.firstMoves target)))
        m.machine.context m.raised m.effects :=
  m.stage_take trigger event (actionsOf_eq m (by simp [Chart.firstMoves]))
    (take_entry_raised chart event m target)

/-- **A transition** plays its episode. -/
lemma stage_transition (m : Macrostep C Env) (trigger event : Event) (leaf : NodeId)
    (t : Transition C) :
    (m.take chart event (chart.moves leaf t)).stage trigger =
      .play chart trigger event
        (.transition leaf t (m.deeds chart event (chart.moves leaf t)))
        m.machine.context m.raised m.effects :=
  m.stage_take trigger event (actionsOf_eq m fun _ => Chart.act_mem_moves)
    (foldl_move_raised chart event m fun _ => Chart.act_mem_moves)

end Macrostep

/-! ## Decisions -/

namespace Enacted

variable {chart : Chart C Env} {start : C} {episodes : List (Episode C)} {trigger : Event}
  {m : Macrostep C Env}

/-- The queue is turned to: it is empty, or its oldest event is handled or ignored. -/
lemma dequeue (h : Enacted chart start episodes (m.stage trigger)) :
    Enacted chart start (episodes ++ m.dequeueEpisodes chart)
      ((m.dequeue chart).stage trigger) := by
  unfold Macrostep.dequeue Macrostep.dequeueEpisodes
  rw [Macrostep.stage] at h
  cases hraised : m.raised with
  | nil =>
      rw [hraised] at h
      rw [List.append_nil]
      exact h.rest
  | cons event rest =>
      rw [hraised] at h
      set k : Macrostep C Env := { m with raised := rest, streak := 0 }
      dsimp only
      cases hhandle : k.handle? chart event with
      | none =>
          rw [Macrostep.episodes_of_handle?_eq_none hhandle, List.append_nil]
          exact h.ignore
      | some taken =>
          obtain ⟨leaf, t, -, -, rfl, hepisodes⟩ := Macrostep.handle?_cases hhandle
          rw [hepisodes, Option.getD_some, Progress.stage, Macrostep.stage_transition]
          exact h.handle _

/-- **One decision** performs what it records. -/
lemma next (h : Enacted chart start episodes (m.stage trigger)) (ceiling : Nat) :
    Enacted chart start (episodes ++ m.nextEpisodes chart ceiling)
      ((m.next chart ceiling).stage trigger) := by
  unfold Macrostep.next Macrostep.nextEpisodes
  split
  next =>
      exact dequeue (m := m.tell [.unsettled (m.machine.leafPath chart) ceiling]) h
  next =>
      cases hhandle : m.handle? chart .eventless with
      | none =>
          have htaken : m.taken? chart .eventless = none := by
            rwa [Macrostep.handle?_eq, Option.map_eq_none_iff] at hhandle
          rw [htaken]
          exact h.dequeue
      | some taken =>
          obtain ⟨leaf, t, hleaf, hchoose, rfl, hepisodes⟩ := Macrostep.handle?_cases hhandle
          rw [Macrostep.taken?_eq_some.2 ⟨hleaf, hchoose⟩, hepisodes]
          have htaken := h.automatic
            (.transition leaf t (m.deeds chart .eventless (chart.moves leaf t)))
          rwa [← Macrostep.stage_transition] at htaken

/-! ## Calls -/

variable {s : Session C Env S}

lemma beginEntry (h : Enacted s.chart start episodes (.quiet s.machine.context))
    (target : NodeId) :
    Enacted s.chart start (episodes ++ (s.beginEntry target).1) (s.beginEntry target).2.stage := by
  have hentry := h.begin .init
    (.entry (Macrostep.deeds s.chart .init { machine := s.machine } (s.chart.firstMoves target)))
  rwa [← Macrostep.stage_entry { machine := s.machine }] at hentry

lemma beginSend (h : Enacted s.chart start episodes (.quiet s.machine.context)) (event : Event) :
    Enacted s.chart start (episodes ++ (s.beginSend event).1) (s.beginSend event).2.stage := by
  unfold Session.beginSend
  split
  next => rwa [List.append_nil]
  next =>
      dsimp only
      cases hhandle : Macrostep.handle? s.chart event { machine := s.machine } with
      | none => rwa [List.append_nil]
      | some taken =>
          obtain ⟨leaf, t, -, -, rfl, hepisodes⟩ := Macrostep.handle?_cases hhandle
          rw [hepisodes, Moment.stage, Macrostep.stage_transition]
          exact h.begin event _

/-- **The beginning of a call** performs what it records. -/
lemma beginCall (h : Enacted s.chart start episodes (.quiet s.machine.context)) (c : Call) :
    Enacted s.chart start (episodes ++ (s.begin c).1) (s.begin c).2.stage := by
  have hquiet : Enacted s.chart start (episodes ++ []) (Moment.quiet s).stage := by
    rwa [List.append_nil]
  cases c with
  | start =>
      rw [Session.begin]
      split
      next => exact hquiet
      next => exact h.beginEntry Chart.root
  | startAt reference =>
      rw [Session.begin]
      split
      next => exact hquiet
      next target _ =>
          split
          next => exact hquiet
          next => exact h.beginEntry target
  | send event => exact h.beginSend event
  | deliver settlement =>
      rw [Session.begin]
      split
      next => exact hquiet
      next id invocations _ =>
          have hsend := beginSend (s := { s with machine := { s.machine with invocations } })
            (h.claim settlement.token) (Event.ofOutcome id settlement.outcome)
          rwa [List.append_assoc, List.singleton_append] at hsend
  | handOut => exact h.handOut _
  | wait clock => exact hquiet

end Enacted

/-! ## Journeys -/

/-- **A journey performs what it records.**  At every moment the context, the queue and the effects
are what the recorded exit lists, transitions and entry lists have made of the context at first. -/
lemma Journey.enacted [Storage S] {permits : List (Episode C) → Call → Prop}
    {s₀ : Session C Env S} {episodes : List (Episode C)} {moment : Moment C Env S}
    (run : Journey permits s₀ episodes moment) :
    Enacted s₀.chart s₀.machine.context episodes moment.stage := by
  suffices h : moment.session.chart = s₀.chart ∧
      Enacted s₀.chart s₀.machine.context episodes moment.stage from h.2
  induction run with
  | nil => exact ⟨rfl, .nil⟩
  | @call episodes s c _ _ ih =>
      obtain ⟨hchart, henacted⟩ := ih
      change s.chart = s₀.chart at hchart
      rw [← hchart] at henacted ⊢
      exact ⟨(s.begin_opens c).chart, henacted.beginCall c⟩
  | @decide episodes s m trigger _ ih =>
      obtain ⟨hchart, henacted⟩ := ih
      change s.chart = s₀.chart at hchart
      refine ⟨(s.proceed_chart trigger _).trans hchart, ?_⟩
      rw [← hchart] at henacted ⊢
      have hnext := henacted.next s.settings.maxEventlessSteps
      cases hp : m.next s.chart s.settings.maxEventlessSteps with
      | running m' => rwa [hp] at hnext
      | atRest m' =>
          rw [hp] at hnext
          rwa [Session.proceed, Moment.stage, Session.rest_machine]

end FormChart
