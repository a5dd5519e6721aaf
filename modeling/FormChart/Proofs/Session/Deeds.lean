import Mathlib.Data.List.Basic
import Mathlib.Tactic.Lemma
import FormChart.Session.Macrostep

/-!
# What a machine does

The record of a run is a list of **deeds**: nodes that are left and entered, invocations that are
started, handed out and resolved.  A microstep folds `Macrostep.move` over its plan, and
`Macrostep.deeds` walks along with it and writes down what happens; `Macrostep.episodes` does so for
the handling of an event, and `Macrostep.nextEpisodes` for one decision of a macrostep.

* Actions change the context and nothing else of a machine (`performAll_leaf`,
  `performAll_invocations`), so neither deeds nor leaf nor invocations depend on them.
* The handling of an event is described twice, by `Macrostep.handle?` and by the transition that is
  chosen (`Macrostep.taken?`); `handle?_eq` relates the two.
* `next_cases` says once what a decision can do: nothing but drop an event, or take one transition.
-/

namespace FormChart

/-- One thing that a run does. -/
inductive Deed where
  /-- Runs the exit actions of a node and leaves it. -/
  | left (node : NodeId)
  /-- Runs the actions of a transition. -/
  | acted
  /-- Runs the entry actions of a node and enters it. -/
  | entered (node : NodeId)
  /-- Starts the invocation of the node that the token names. -/
  | started (token : Token)
  /-- Gives a task away to be run. -/
  | handedOut (token : Token)
  /-- Takes the outcome of a live invocation. -/
  | resolved (token : Token)
  deriving DecidableEq, Repr

/-- Deeds that belong together. -/
inductive Episode (C : Type) where
  /-- The first entry. -/
  | entry (deeds : List Deed)
  /-- A transition, and the leaf that it was taken from. -/
  | transition (leaf : NodeId) (t : Transition C) (deeds : List Deed)
  /-- The waiting tasks are handed out. -/
  | handOut (tokens : List Token)
  /-- The outcome of a live invocation arrives. -/
  | claim (token : Token)

/-- The deeds of an episode. -/
def Episode.deeds {C : Type} : Episode C → List Deed
  | .entry deeds => deeds
  | .transition _ _ deeds => deeds
  | .handOut tokens => tokens.map .handedOut
  | .claim token => [.resolved token]

/-- All deeds of some episodes, in order. -/
def deedsOf {C : Type} (episodes : List (Episode C)) : List Deed := episodes.flatMap Episode.deeds

section

variable {C : Type}

@[simp] lemma deedsOf_nil : deedsOf ([] : List (Episode C)) = [] := rfl

@[simp] lemma deedsOf_append (first rest : List (Episode C)) :
    deedsOf (first ++ rest) = deedsOf first ++ deedsOf rest := List.flatMap_append

@[simp] lemma deedsOf_singleton (e : Episode C) : deedsOf [e] = e.deeds := by simp [deedsOf]

end

/-- The machine after a decision. -/
def Progress.machine {C Env : Type} : Progress C Env → Machine C Env
  | .running m => m.machine
  | .atRest m => m.machine

namespace Macrostep

variable {C Env : Type} [Model C]

/-- What happens while one part of a plan is performed. -/
def deed (chart : Chart C Env) (m : Macrostep C Env) : Move C → List Deed
  | .leave i => (chart.node? i).elim [] fun _ => [.left i]
  | .act _ => [.acted]
  | .arrive i => (chart.node? i).elim [] fun n =>
      .entered i :: n.invoke.elim [] fun _ => [.started (m.machine.invocations.nextToken i)]

/-- What happens while a plan is performed. -/
def deeds (chart : Chart C Env) (event : Event) (m : Macrostep C Env) : List (Move C) → List Deed
  | [] => []
  | part :: rest => m.deed chart part ++ (m.move chart event part).deeds chart event rest

/-- The transition that an event takes, with the leaf that it is taken from. -/
def taken? (chart : Chart C Env) (event : Event) (m : Macrostep C Env) :
    Option (NodeId × Transition C) := do
  let leaf ← m.machine.leaf
  let t ← chart.choose? leaf m.machine.context event.name
  some (leaf, t)

/-- What happens while an event is handled. -/
def episodes (chart : Chart C Env) (event : Event) (m : Macrostep C Env) : List (Episode C) :=
  match m.taken? chart event with
  | some (leaf, t) => [.transition leaf t (m.deeds chart event (chart.moves leaf t))]
  | none => []

/-- What happens while the oldest raised event is handled. -/
def dequeueEpisodes (chart : Chart C Env) (m : Macrostep C Env) : List (Episode C) :=
  match m.raised with
  | [] => []
  | event :: rest => { m with raised := rest, streak := 0 }.episodes chart event

/-- What happens in one decision. -/
def nextEpisodes (chart : Chart C Env) (ceiling : Nat) (m : Macrostep C Env) : List (Episode C) :=
  if m.streak = ceiling then
    (m.tell [.unsettled (m.machine.leafPath chart) ceiling]).dequeueEpisodes chart
  else
    match m.taken? chart .eventless with
    | some _ => m.episodes chart .eventless
    | none => m.dequeueEpisodes chart

/-! ## What actions leave alone -/

variable (chart : Chart C Env) (event : Event) (m : Macrostep C Env)

lemma write_machine (patch : Patch) (mode : MergeMode) :
    ∃ context, (m.write chart patch mode).machine = { m.machine with context } := by
  unfold write
  cases apply m.machine.context patch mode with
  | ok next => exact ⟨next, rfl⟩
  | error cause => exact ⟨m.machine.context, rfl⟩

lemma perform_machine (action : Action C) :
    ∃ context, (m.perform chart event action).machine = { m.machine with context } := by
  cases action with
  | assign patch remarks =>
      exact write_machine chart (m.tell (remarks m.machine.context event)) _ _
  | forward => exact write_machine chart m _ _
  | raise name => exact ⟨m.machine.context, rfl⟩
  | effect e => exact ⟨m.machine.context, rfl⟩

/-- **Actions change the context and nothing else of a machine.** -/
lemma performAll_machine (actions : List (Action C)) :
    ∃ context, (m.performAll chart event actions).machine = { m.machine with context } := by
  unfold performAll
  induction actions generalizing m with
  | nil => exact ⟨m.machine.context, rfl⟩
  | cons action rest ih =>
      obtain ⟨context, hcontext⟩ := perform_machine chart event m action
      obtain ⟨context', hrest⟩ := ih (m.perform chart event action)
      exact ⟨context', by rw [List.foldl_cons, hrest, hcontext]⟩

@[simp] lemma performAll_leaf (actions : List (Action C)) :
    (m.performAll chart event actions).machine.leaf = m.machine.leaf := by
  obtain ⟨context, h⟩ := performAll_machine chart event m actions
  rw [h]

@[simp] lemma performAll_invocations (actions : List (Action C)) :
    (m.performAll chart event actions).machine.invocations = m.machine.invocations := by
  obtain ⟨context, h⟩ := performAll_machine chart event m actions
  rw [h]

/-! ## The parts of a plan -/

section Parts

variable {chart m} {i : NodeId} {n : Node C Env} (hn : chart.node? i = some n)

include hn

lemma move_leave : m.move chart event (.leave i) = m.leave chart event i n := by
  rw [move, hn, Option.elim_some]

lemma move_arrive : m.move chart event (.arrive i) = m.arrive chart event i n := by
  rw [move, hn, Option.elim_some]

@[simp] lemma move_leave_leaf : (m.move chart event (.leave i)).machine.leaf = m.machine.leaf := by
  rw [move_leave event hn, leave]
  cases n.invoke <;> simp [change]

lemma move_leave_invocations :
    (m.move chart event (.leave i)).machine.invocations =
      n.invoke.elim m.machine.invocations fun _ => m.machine.invocations.cancel i := by
  rw [move_leave event hn, leave]
  cases n.invoke <;> simp [change]

@[simp] lemma move_arrive_leaf : (m.move chart event (.arrive i)).machine.leaf = some i := by
  rw [move_arrive event hn]
  rfl

/-- Entering a node starts its invocation with the context that the entry actions have left. -/
lemma move_arrive_invocations :
    (m.move chart event (.arrive i)).machine.invocations =
      n.invoke.elim m.machine.invocations fun v =>
        m.machine.invocations.start i v.id
          (v.task (m.performAll chart event n.entry).machine.context) := by
  rw [move_arrive event hn, arrive, change]
  have hreport : ∀ k : Macrostep C Env, (report chart k n).machine = k.machine := by
    intro k
    unfold report
    split <;> rfl
  rw [hreport, invoke]
  cases n.invoke <;> simp [change]

omit [Model C] in
lemma deed_leave : m.deed chart (.leave i) = [.left i] := by
  rw [deed, hn, Option.elim_some]

omit [Model C] in
lemma deed_arrive :
    m.deed chart (.arrive i) =
      .entered i :: n.invoke.elim [] fun _ => [.started (m.machine.invocations.nextToken i)] := by
  rw [deed, hn, Option.elim_some]

end Parts

@[simp] lemma move_act_leaf (actions : List (Action C)) :
    (m.move chart event (.act actions)).machine.leaf = m.machine.leaf :=
  performAll_leaf chart event m actions

@[simp] lemma move_act_invocations (actions : List (Action C)) :
    (m.move chart event (.act actions)).machine.invocations = m.machine.invocations :=
  performAll_invocations chart event m actions

lemma deeds_append (first rest : List (Move C)) :
    m.deeds chart event (first ++ rest) =
      m.deeds chart event first ++ (first.foldl (move chart event) m).deeds chart event rest := by
  induction first generalizing m with
  | nil => rfl
  | cons part first ih =>
      rw [List.cons_append, deeds, deeds, ih, List.append_assoc, List.foldl_cons]

lemma take_leaf (plan : List (Move C)) :
    (m.take chart event plan).machine.leaf = (plan.foldl (move chart event) m).machine.leaf := rfl

lemma take_invocations (plan : List (Move C)) :
    (m.take chart event plan).machine.invocations =
      (plan.foldl (move chart event) m).machine.invocations := rfl

/-! ## What the handling of an event and a decision do -/

variable {chart event m}

omit [Model C] in
lemma taken?_eq_some {leaf : NodeId} {t : Transition C} :
    m.taken? chart event = some (leaf, t) ↔
      m.machine.leaf = some leaf ∧ chart.choose? leaf m.machine.context event.name = some t := by
  simp [taken?, Option.bind_eq_some_iff]

variable (chart event m) in
/-- An event is handled by the transition that it takes. -/
lemma handle?_eq :
    m.handle? chart event =
      (m.taken? chart event).map fun p => m.take chart event (chart.moves p.1 p.2) := by
  unfold handle? taken?
  cases m.machine.leaf with
  | none => rfl
  | some leaf =>
      cases h : chart.choose? leaf m.machine.context event.name <;> simp [h]

/-- What the handling of an event comes down to, when it takes a transition. -/
lemma handle?_cases {m' : Macrostep C Env} (h : m.handle? chart event = some m') :
    ∃ leaf t, m.machine.leaf = some leaf ∧
      chart.choose? leaf m.machine.context event.name = some t ∧
      m' = m.take chart event (chart.moves leaf t) ∧
      m.episodes chart event =
        [.transition leaf t (m.deeds chart event (chart.moves leaf t))] := by
  rw [handle?_eq, Option.map_eq_some_iff] at h
  obtain ⟨⟨leaf, t⟩, htaken, rfl⟩ := h
  obtain ⟨hleaf, hchoose⟩ := taken?_eq_some.1 htaken
  exact ⟨leaf, t, hleaf, hchoose, rfl, by rw [episodes, htaken]⟩

lemma episodes_of_handle?_eq_none (h : m.handle? chart event = none) :
    m.episodes chart event = [] := by
  rw [handle?_eq, Option.map_eq_none_iff] at h
  rw [episodes, h]


/-- **What a decision can do**: leave the machine as it is, or take one transition of the active
leaf. -/
lemma next_cases (chart : Chart C Env) (ceiling : Nat) (m : Macrostep C Env) :
    ((m.next chart ceiling).machine = m.machine ∧ m.nextEpisodes chart ceiling = []) ∨
      ∃ (event : Event) (k : Macrostep C Env) (leaf : NodeId) (t : Transition C),
        k.machine = m.machine ∧ m.machine.leaf = some leaf ∧
        chart.choose? leaf m.machine.context event.name = some t ∧
        (m.next chart ceiling).machine = (k.take chart event (chart.moves leaf t)).machine ∧
        m.nextEpisodes chart ceiling =
          [.transition leaf t (k.deeds chart event (chart.moves leaf t))] := by
  have hdequeue : ∀ k : Macrostep C Env, k.machine = m.machine →
      ((k.dequeue chart).machine = m.machine ∧ k.dequeueEpisodes chart = []) ∨
      ∃ (event : Event) (k' : Macrostep C Env) (leaf : NodeId) (t : Transition C),
        k'.machine = m.machine ∧ m.machine.leaf = some leaf ∧
        chart.choose? leaf m.machine.context event.name = some t ∧
        (k.dequeue chart).machine = (k'.take chart event (chart.moves leaf t)).machine ∧
        k.dequeueEpisodes chart =
          [.transition leaf t (k'.deeds chart event (chart.moves leaf t))] := by
    intro k hk
    unfold dequeue dequeueEpisodes
    cases k.raised with
    | nil => exact .inl ⟨hk, rfl⟩
    | cons event rest =>
        cases hhandle : handle? chart event { k with raised := rest, streak := 0 } with
        | none => exact .inl ⟨by simpa [Progress.machine, hhandle] using hk,
            episodes_of_handle?_eq_none hhandle⟩
        | some taken =>
            obtain ⟨leaf, t, hleaf, hchoose, rfl, hepisodes⟩ := handle?_cases hhandle
            refine .inr ⟨event, { k with raised := rest, streak := 0 }, leaf, t, hk, hk ▸ hleaf,
              hk ▸ hchoose, ?_, hepisodes⟩
            simp [Progress.machine, hhandle]
  unfold next nextEpisodes
  split
  · exact hdequeue _ rfl
  · cases hhandle : m.handle? chart .eventless with
    | none =>
        have htaken : m.taken? chart .eventless = none := by
          rwa [handle?_eq, Option.map_eq_none_iff] at hhandle
        rw [htaken]
        exact hdequeue m rfl
    | some taken =>
        obtain ⟨leaf, t, hleaf, hchoose, rfl, hepisodes⟩ := handle?_cases hhandle
        rw [taken?_eq_some.2 ⟨hleaf, hchoose⟩]
        exact .inr ⟨.eventless, m, leaf, t, rfl, hleaf, hchoose, rfl, hepisodes⟩

end Macrostep

end FormChart
