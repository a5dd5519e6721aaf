import FormChart.Proofs.Chart.Subtrees
import FormChart.Proofs.Session.Plan

/-!
# What a plan makes of the context

Actions change the context by patches, one after the other, and everything else on the way of a plan
leaves it alone.  So the context after a plan is a fold over its actions (`Action.outcome`,
`Action.outcomes`).

A passage is described like a program, by what holds before and after its parts: the exits on the
way up keep what holds at first, the actions of the transition turn it into something else, and the
entries of the compound nodes on the way down keep that.  **The entry of the new leaf has the last
word** (`Macrostep.context_passage`).

Where it matters in which order things are written, there is the list of all the actions of a plan
(`Chart.actionsOf`), and the context after the plan is what they make of it
(`Macrostep.take_outcomes`).
-/

namespace FormChart

variable {C Env : Type} [Model C]

namespace Action

/-- The context after an action; a patch that does not fit is left out. -/
def outcome (event : Event) (context : C) : Action C → C
  | .assign patch _ => (apply context (patch context event) .replace).toOption.getD context
  | .forward => (apply context event.payload .shallow).toOption.getD context
  | .raise _ | .effect _ => context

/-- The context after some actions. -/
def outcomes (event : Event) (actions : List (Action C)) (context : C) : C :=
  actions.foldl (outcome event) context

@[simp] lemma outcomes_nil (event : Event) (context : C) : outcomes event [] context = context :=
  rfl

@[simp] lemma outcomes_cons (event : Event) (a : Action C) (rest : List (Action C)) (context : C) :
    outcomes event (a :: rest) context = outcomes event rest (a.outcome event context) := rfl

lemma outcomes_append (event : Event) (first rest : List (Action C)) (context : C) :
    outcomes event (first ++ rest) context = outcomes event rest (outcomes event first context) :=
  List.foldl_append

@[simp] lemma outcome_keep (event : Event) (context : C) :
    keep.outcome event context = context := rfl

/-- What every single action keeps, all of them keep. -/
lemma outcomes_keep {Q : C → Prop} {event : Event} {actions : List (Action C)}
    (hactions : ∀ a ∈ actions, ∀ context, Q context → Q (a.outcome event context)) {context : C}
    (h : Q context) : Q (outcomes event actions context) := by
  induction actions generalizing context with
  | nil => exact h
  | cons a rest ih =>
      exact ih (fun b hb => hactions b (List.mem_cons_of_mem _ hb))
        (hactions a List.mem_cons_self context h)

end Action

/-! ## The actions of a plan -/

/-- The actions of one part of a plan. -/
def Move.actions (chart : Chart C Env) : Move C → List (Action C)
  | .leave i => (chart.node? i).elim [] (·.exit)
  | .act actions => actions
  | .arrive i => (chart.node? i).elim [] (·.entry)

/-- The actions of a plan, in their order. -/
def Chart.actionsOf (chart : Chart C Env) (plan : List (Move C)) : List (Action C) :=
  plan.flatMap (Move.actions chart)

namespace Chart

variable (chart : Chart C Env)

omit [Model C] in
@[simp] lemma moves_withoutTasks (leaf : NodeId) (t : Transition C) :
    chart.withoutTasks.moves leaf t = chart.moves leaf t := by
  cases htarget : t.target <;> simp [moves, htarget]

omit [Model C] in
@[simp] lemma firstMoves_withoutTasks (target : NodeId) :
    chart.withoutTasks.firstMoves target = chart.firstMoves target := by
  simp [firstMoves]

omit [Model C] in
@[simp] lemma actionsOf_withoutTasks (plan : List (Move C)) :
    chart.withoutTasks.actionsOf plan = chart.actionsOf plan := by
  have hactions : Move.actions chart.withoutTasks = Move.actions chart := by
    funext part
    cases part with
    | act actions => rfl
    | leave i => cases hn : chart.node? i <;> simp [Move.actions, hn, Node.withoutTask]
    | arrive i => cases hn : chart.node? i <;> simp [Move.actions, hn, Node.withoutTask]
  rw [actionsOf, hactions, actionsOf]

omit [Model C] in
/-- The actions of a plan are its own or those of nodes. -/
lemma mem_actionsOf {plan : List (Move C)} {a : Action C} (h : a ∈ chart.actionsOf plan) :
    (∃ actions, .act actions ∈ plan ∧ a ∈ actions) ∨
      ∃ i n, chart.node? i = some n ∧ a ∈ n.actions := by
  obtain ⟨part, hpart, ha⟩ := List.mem_flatMap.1 h
  cases part with
  | act actions => exact .inl ⟨actions, hpart, ha⟩
  | leave i =>
      rw [Move.actions] at ha
      cases hn : chart.node? i with
      | none => simp [hn] at ha
      | some n =>
          rw [hn] at ha
          exact .inr ⟨i, n, hn, List.mem_append_left _ (List.mem_append_right _ ha)⟩
  | arrive i =>
      rw [Move.actions] at ha
      cases hn : chart.node? i with
      | none => simp [hn] at ha
      | some n =>
          rw [hn] at ha
          exact .inr ⟨i, n, hn, List.mem_append_left _ (List.mem_append_left _ ha)⟩

end Chart

namespace Macrostep

variable {chart : Chart C Env} {event : Event} {m : Macrostep C Env}

lemma write_context (patch : Patch) (mode : MergeMode) :
    (m.write chart patch mode).machine.context =
      (apply m.machine.context patch mode).toOption.getD m.machine.context := by
  unfold write
  split
  next next happly => rw [happly]; rfl
  next cause happly => rw [happly]; rfl

lemma perform_context (a : Action C) :
    (m.perform chart event a).machine.context = a.outcome event m.machine.context := by
  cases a with
  | assign patch remarks =>
      exact write_context (m := m.tell (remarks m.machine.context event)) _ _
  | forward => exact write_context _ _
  | raise name => rfl
  | effect e => rfl

lemma performAll_context (actions : List (Action C)) :
    (m.performAll chart event actions).machine.context =
      Action.outcomes event actions m.machine.context := by
  unfold performAll
  induction actions generalizing m with
  | nil => rfl
  | cons a rest ih => rw [List.foldl_cons, ih, perform_context, Action.outcomes_cons]

lemma move_leave_context {i : NodeId} {n : Node C Env} (hn : chart.node? i = some n) :
    (m.move chart event (.leave i)).machine.context =
      Action.outcomes event n.exit m.machine.context := by
  have hexit : (m.performAll chart event n.exit).machine.context = _ := performAll_context n.exit
  rw [move_leave event hn, leave, ← hexit]
  cases n.invoke <;> rfl

lemma move_arrive_context {i : NodeId} {n : Node C Env} (hn : chart.node? i = some n) :
    (m.move chart event (.arrive i)).machine.context =
      Action.outcomes event n.entry m.machine.context := by
  have hreport : ∀ k : Macrostep C Env, (report chart k n).machine = k.machine := by
    intro k
    unfold report
    split <;> rfl
  have hentry : (m.performAll chart event n.entry).machine.context = _ :=
    performAll_context n.entry
  rw [move_arrive event hn, arrive, change, hreport, ← hentry, invoke]
  cases n.invoke <;> rfl

lemma take_context (plan : List (Move C)) :
    (m.take chart event plan).machine.context =
      (plan.foldl (move chart event) m).machine.context := rfl

lemma move_context (part : Move C) :
    (m.move chart event part).machine.context =
      Action.outcomes event (part.actions chart) m.machine.context := by
  cases part with
  | act actions => exact performAll_context actions
  | leave i =>
      cases hn : chart.node? i with
      | none => simp [move, Move.actions, hn]
      | some n => rw [move_leave_context hn, Move.actions, hn, Option.elim_some]
  | arrive i =>
      cases hn : chart.node? i with
      | none => simp [move, Move.actions, hn]
      | some n => rw [move_arrive_context hn, Move.actions, hn, Option.elim_some]

/-- **The context after a plan** is what the actions of the plan make of it, one after the other. -/
lemma take_outcomes (plan : List (Move C)) :
    (m.take chart event plan).machine.context =
      Action.outcomes event (chart.actionsOf plan) m.machine.context := by
  rw [take_context]
  induction plan generalizing m with
  | nil => rfl
  | cons part rest ih =>
      rw [List.foldl_cons, ih, move_context, Chart.actionsOf, Chart.actionsOf, List.flatMap_cons,
        Action.outcomes_append]

/-- What each part of a plan keeps, the whole plan keeps. -/
lemma context_foldl {Q : C → Prop} {plan : List (Move C)}
    (hplan : ∀ part ∈ plan, ∀ m : Macrostep C Env, Q m.machine.context →
      Q (m.move chart event part).machine.context) (h : Q m.machine.context) :
    Q (plan.foldl (move chart event) m).machine.context := by
  induction plan generalizing m with
  | nil => exact h
  | cons part rest ih =>
      exact ih (fun q hq => hplan q (List.mem_cons_of_mem _ hq))
        (hplan part List.mem_cons_self m h)

section

variable (hchart : chart.IsTree) {leaf landing : NodeId} {up down base : List NodeId}
  {n : Node C Env} (hn : chart.node? landing = some n) {Q R : C → Prop}
  (hentry : ∀ i k context, chart.node? i = some k → k.kind = .compound → R context →
    R (Action.outcomes event k.entry context))

include hchart hn hentry

/-- **An entry**: the compound nodes on the way down keep what holds, and then the leaf is
entered. -/
lemma context_entry (hline : chart.lineage landing = landing :: (down.reverse ++ base))
    (h : R m.machine.context) :
    ∃ context, R context ∧
      (((down ++ [landing]).map .arrive).foldl (move chart event) m).machine.context =
        Action.outcomes event n.entry context := by
  have hdown : R ((down.map .arrive).foldl (move chart event) m).machine.context := by
    refine context_foldl (fun part hpart k hk => ?_) h
    obtain ⟨i, hi, rfl⟩ := List.mem_map.1 hpart
    obtain ⟨hmem, hne⟩ := mem_lineage_of_down hchart hn hline hi
    obtain ⟨q, hq, hkind⟩ := hchart.compound_of_mem_lineage hn i hmem hne
    rw [move_arrive_context hq]
    exact hentry i q _ hq hkind hk
  refine ⟨_, hdown, ?_⟩
  rw [List.map_append, List.foldl_append]
  exact move_arrive_context hn

/-- **A passage**: out, act and in. -/
lemma context_passage (hpass : chart.Passage leaf up down landing) {actions : List (Action C)}
    (hexit : ∀ i k context, chart.node? i = some k → Q context →
      Q (Action.outcomes event k.exit context))
    (hact : ∀ context, Q context → R (Action.outcomes event actions context))
    (h : Q m.machine.context) :
    ∃ context, R context ∧
      (m.take chart event ((leaf :: up).map .leave ++ .act actions ::
        (down ++ [landing]).map .arrive)).machine.context =
        Action.outcomes event n.entry context := by
  have hup : Q (((leaf :: up).map .leave).foldl (move chart event) m).machine.context := by
    refine context_foldl (fun part hpart k hk => ?_) h
    obtain ⟨i, hi, rfl⟩ := List.mem_map.1 hpart
    obtain ⟨q, hq⟩ := node_of_up hchart hpass i hi
    rw [move_leave_context hq]
    exact hexit i q _ hq hk
  obtain ⟨base, -, hline⟩ := hpass.above
  have hacted : R ((((leaf :: up).map .leave).foldl (move chart event) m).move chart event
      (.act actions)).machine.context := by
    rw [move, performAll_context]
    exact hact _ hup
  obtain ⟨context, hcontext, hfinal⟩ := context_entry hchart hn hentry hline hacted
  refine ⟨context, hcontext, ?_⟩
  rw [← hfinal, take_context, List.foldl_append, List.foldl_cons]

end

end Macrostep

end FormChart
