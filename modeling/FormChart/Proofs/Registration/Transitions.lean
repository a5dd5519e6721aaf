import FormChart.Proofs.Session.Reaching
import FormChart.Proofs.Registration.Ranges

/-!
# Transitions that can be foretold

What an event does in a leaf is often known whatever the context is: one node has a single
transition for it, no guard stands in the way, and it leads to a leaf where the machine rests.
Which nodes are left and entered on the way is computed on the layout (`Wizard.Leads`), and what is
done is read off the parts of the wizard.

So is **the session that the event comes to**, up to what is in the slot: its machine is the one
that the plan makes, and the effects are those that the plan asks for (`Wizard.Passed`).
-/

namespace FormChart.Registration.Wizard

/-- The plan of a passage from one leaf to another. -/
abbrev passing (leaf : NodeId) (up : List NodeId) (actions : List (Action Context))
    (down : List NodeId) (landing : NodeId) : List (Move Context) :=
  (leaf :: up).map .leave ++ .act actions :: (down ++ [landing]).map .arrive

/-- Whether a transition passes from one leaf to another by way of certain nodes. -/
@[mk_iff]
structure Passes (leaf : NodeId) (t : Transition Context) (up down : List NodeId)
    (landing : NodeId) : Prop where
  external : t.isInternal = false
  target : t.target.isSome = true
  lands : ∀ target ∈ t.target, layout.landing target = landing
  leaves : ∀ target ∈ t.target, layout.exitSet leaf (layout.domain leaf target) = leaf :: up
  enters : ∀ target ∈ t.target,
    layout.entrySet (layout.domain leaf target) target = down ++ [landing]

instance (leaf : NodeId) (t : Transition Context) (up down : List NodeId) (landing : NodeId) :
    Decidable (Passes leaf t up down landing) :=
  decidable_of_iff' _ (passes_iff leaf t up down landing)

/-- Whether an event in a leaf takes the only transition that a node with a certain key has for it,
whatever the context is, and passes by way of certain nodes to another leaf. -/
@[mk_iff]
structure Goes (leaf : NodeId) (event owner : String) (up down : List NodeId)
    (landing : NodeId) : Prop where
  offered : (layout.declared leaf event).any (·.guard.isNone) = true
  owned : ∀ j ∈ layout.lineage leaf, ∀ n ∈ layout.node? j, ∀ e ∈ n.on, e.1 = event →
    n.key = owner ∧ Passes leaf e.2 up down landing

instance (leaf : NodeId) (event owner : String) (up down : List NodeId) (landing : NodeId) :
    Decidable (Goes leaf event owner up down landing) :=
  decidable_of_iff' _ (goes_iff leaf event owner up down landing)

/-- Whether the machine rests where an event leads. -/
structure Leads (leaf : NodeId) (event owner : String) (up down : List NodeId)
    (landing : NodeId) : Prop extends Goes leaf event owner up down landing where
  rests : (layout.declared landing Event.eventless.name).isEmpty = true

instance (leaf : NodeId) (event owner : String) (up down : List NodeId) (landing : NodeId) :
    Decidable (Leads leaf event owner up down landing) :=
  decidable_of_iff (Goes leaf event owner up down landing ∧
    (layout.declared landing Event.eventless.name).isEmpty = true)
    ⟨fun h => ⟨h.1, h.2⟩, fun h => ⟨h.toGoes, h.rests⟩⟩

variable {Env S : Type} [Services Env]

section

variable {chart : Chart Context Env} (hchart : Wizard.chart = .ok chart)

include hchart

/-- The actions of a plan are known from the layout. -/
lemma actionsOf_eq_layout (plan : List (Move Context)) :
    chart.actionsOf plan = layout.actionsOf plan := by
  rw [← withoutTasks_eq_layout hchart, Chart.actionsOf_withoutTasks]

/-- The actions of a transition that is the only one for its event. -/
lemma actions_of_on {i : NodeId} {n : Node Context Env} (hn : chart.node? i = some n)
    {key event : String} {part : WizardNode Env}
    (hpart : (blueprint : WizardNode Env).subtrees.filter (·.key == key) = [part])
    (hkey : n.key = key) {arrow : Arrow Context}
    (harrow : part.arrows.filter (·.1 == event) = [(event, arrow)]) {t : Transition Context}
    (ht : (event, t) ∈ n.on) : t.actions = arrow.actions := by
  obtain ⟨m, rfl, rfl⟩ := node_eq_of_key hchart hpart hn hkey
  obtain ⟨e, he, heq⟩ := List.mem_map.1 ht
  cases heq
  have hfiltered : e ∈ m.blueprint.arrows.filter (·.1 == e.1) :=
    List.mem_filter.2 ⟨he, beq_self_eq_true _⟩
  rw [harrow] at hfiltered
  rw [List.mem_singleton.1 hfiltered]
  rfl

/-- A transition that passes in the layout passes in every chart of the wizard. -/
lemma Passes.passage {leaf i target landing : NodeId} {n : Node Context Env}
    {t : Transition Context} {up down : List NodeId} (h : Passes leaf t up down landing)
    (hleaf : chart.IsLeaf leaf) (hn : chart.node? i = some n) {event : String}
    (ht : (event, t) ∈ n.on) (htarget : t.target = some target) :
    chart.landing target = landing ∧ chart.Passage leaf up down landing ∧
      chart.moves leaf t = passing leaf up t.actions down landing := by
  have hlanding := h.lands target htarget
  have hup := h.leaves target htarget
  have hdown := h.enters target htarget
  simp only [← withoutTasks_eq_layout hchart, Chart.landing_withoutTasks,
    Chart.domain_withoutTasks, Chart.exitSet_withoutTasks, Chart.entrySet_withoutTasks]
    at hlanding hup hdown
  have htree := Blueprint.isTree_of_build hchart
  obtain ⟨hroot, m, hm⟩ := htree.target hn ht htarget
  refine ⟨hlanding, ⟨⟨chart.lineage (chart.domain leaf target), ?_, ?_⟩, hleaf,
    hlanding ▸ htree.isLeaf_landing hm⟩, ?_⟩
  · rw [htree.lineage_leaf hleaf hm hroot, hup, List.cons_append]
  · rw [← hlanding, htree.cut hleaf hm hroot, hdown, hlanding, List.reverse_append,
      List.reverse_singleton, List.append_assoc, List.singleton_append]
  · simp only [Chart.moves, htarget, h.external, Bool.false_and, Bool.false_eq_true, if_false, hup,
      hdown]

end

section

variable {chart : Chart Context Env} (hchart : Wizard.chart = .ok chart)

include hchart

/-- What a leaf offers is known from the layout. -/
lemma declared_eq_layout (leaf : NodeId) (event : String) :
    chart.declared leaf event = layout.declared leaf event := by
  rw [← withoutTasks_eq_layout hchart, Chart.declared_withoutTasks]

/-- So is whether a node invokes anything. -/
lemma invoke_eq_none {i : NodeId} {n : Node Context Env} (hn : chart.node? i = some n)
    (h : (layout.node? i).any (·.invoke.isNone) = true) : n.invoke = none := by
  rw [← withoutTasks_eq_layout hchart, Chart.node?_withoutTasks, hn] at h
  simpa [Node.withoutTask] using h

/-- What it invokes is read off the part of the wizard that has its key. -/
lemma invoke_of_part {key : String} {part : WizardNode Env}
    (hpart : (blueprint : WizardNode Env).subtrees.filter (·.key == key) = [part]) {i : NodeId}
    {n : Node Context Env} (hn : chart.node? i = some n) (hkey : layout.keyOf i = key) :
    n.invoke = part.invoke.map fun v => ⟨v.id, v.task⟩ := by
  rw [← withoutTasks_eq_layout hchart, Chart.keyOf_withoutTasks, Chart.keyOf_of_node hn] at hkey
  obtain ⟨m, rfl, rfl⟩ := node_eq_of_key hchart hpart hn hkey
  rfl

variable {leaf : NodeId} {event owner : String} {up down : List NodeId} {landing : NodeId}

/-- **The transition that is taken**, and its plan. -/
lemma Goes.exists_passage (h : Goes leaf event owner up down landing) (hleaf : chart.IsLeaf leaf)
    {part : WizardNode Env}
    (hpart : (blueprint : WizardNode Env).subtrees.filter (·.key == owner) = [part])
    {arrow : Arrow Context} (harrow : part.arrows.filter (·.1 == event) = [(event, arrow)])
    (context : Context) :
    ∃ t target, chart.choose? leaf context event = some t ∧ t.target = some target ∧
      t.isInternal = false ∧ chart.landing target = landing ∧
      chart.Passage leaf up down landing ∧
      chart.moves leaf t = passing leaf up arrow.actions down landing := by
  have hlayout := withoutTasks_eq_layout hchart
  obtain ⟨t', ht', hguard⟩ := List.any_eq_true.1 h.offered
  rw [← declared_eq_layout hchart] at ht'
  obtain ⟨t, ht⟩ := Chart.exists_choose? ht' (Option.isNone_iff_eq_none.1 hguard) context
  obtain ⟨j, n, k, htaken⟩ := Chart.exists_takenAt ht
  have hmem : (event, t) ∈ n.on := List.mem_of_getElem? htaken.position
  have habove : j ∈ layout.lineage leaf := by
    rw [← hlayout, Chart.lineage_withoutTasks]
    exact htaken.above
  have hnode : layout.node? j = some n.withoutTask := by
    rw [← hlayout, Chart.node?_withoutTasks, htaken.node, Option.map_some]
  obtain ⟨hkey, hpasses⟩ : n.key = owner ∧ Passes leaf t up down landing :=
    h.owned j habove _ hnode (event, t) hmem rfl
  obtain ⟨target, htarget⟩ := Option.isSome_iff_exists.1 hpasses.target
  obtain ⟨hlanding, hpass, hmoves⟩ := hpasses.passage hchart hleaf htaken.node hmem htarget
  rw [actions_of_on hchart htaken.node hpart hkey harrow hmem] at hmoves
  exact ⟨t, target, ht, htarget, hpasses.external, hlanding, hpass, hmoves⟩

end

/-- The path that is shown is known from the layout. -/
lemma leafPath_eq_layout {s : Session Context Env S} (hchart : Wizard.chart = .ok s.chart)
    {leaf : NodeId} (hleaf : s.machine.leaf = some leaf) : s.leafPath = layout.pathOf leaf := by
  rw [Session.leafPath, Machine.leafPath, hleaf, Option.map_some, Option.getD_some,
    ← withoutTasks_eq_layout hchart, Chart.pathOf_withoutTasks]

/-- So is the one that is shown once a macrostep is at rest in a leaf. -/
lemma leafPath_rest [Storage S] {s : Session Context Env S} (hchart : Wizard.chart = .ok s.chart)
    {final : Macrostep Context Env} {leaf : NodeId} (hleaf : final.machine.leaf = some leaf)
    (trigger : Event) : (s.rest trigger final).leafPath = layout.pathOf leaf := by
  have hactive : (s.rest trigger final).machine.leaf = some leaf := by
    rw [Session.rest_machine, hleaf]
  exact leafPath_eq_layout ((s.rest_chart trigger final).symm ▸ hchart) hactive

omit [Services Env] in
/-- A path that is shown is the one of the leaf. -/
lemma exists_node_of_leafPath {s : Session Context Env S} {path : String}
    (hpage : s.leafPath = path) (hne : path ≠ "") :
    ∃ leaf n, s.machine.leaf = some leaf ∧ s.chart.node? leaf = some n ∧ n.path = path := by
  rw [Session.leafPath, Machine.leafPath] at hpage
  cases hactive : s.machine.leaf with
  | none =>
      rw [hactive, Option.map_none, Option.getD_none] at hpage
      exact absurd hpage.symm hne
  | some leaf =>
      rw [hactive, Option.map_some, Option.getD_some] at hpage
      cases hn : s.chart.node? leaf with
      | none =>
          rw [Chart.pathOf, hn, Option.map_none, Option.getD_none] at hpage
          exact absurd hpage.symm hne
      | some n => exact ⟨leaf, n, rfl, hn, (Chart.pathOf_of_node hn).symm.trans hpage⟩

/-- What is known of a macrostep that has passed from the leaf of a session to another one. -/
structure Passed (s : Session Context Env S) (e : Event) (leaf : NodeId) (up : List NodeId)
    (actions : List (Action Context)) (down : List NodeId) (landing : NodeId)
    (final : Macrostep Context Env) : Prop where
  passage : s.chart.Passage leaf up down landing
  landed : final.machine.leaf = some landing
  context : final.machine.context = Action.outcomes e
    (s.chart.actionsOf (passing leaf up actions down landing)) s.machine.context
  invocations : ∀ n, s.chart.node? landing = some n → final.machine.invocations =
    n.invoke.elim (Macrostep.remaining s.chart e { machine := s.machine } (leaf :: up)) fun v =>
      (Macrostep.remaining s.chart e { machine := s.machine } (leaf :: up)).start landing v.id
        (v.task final.machine.context)
  effects : final.effects = effectsOf (s.chart.actionsOf (passing leaf up actions down landing))

/-- **The session that the event comes to.** -/
lemma Leads.exists_send [Storage S] {s : Session Context Env S} {leaf : NodeId}
    {event owner : String} {up down : List NodeId} {landing : NodeId}
    (h : Leads leaf event owner up down landing) (hchart : Wizard.chart = .ok s.chart)
    (hactive : s.machine.leaf = some leaf) (hleaf : s.chart.IsLeaf leaf) {part : WizardNode Env}
    (hpart : (blueprint : WizardNode Env).subtrees.filter (·.key == owner) = [part])
    (actions : List (Action Context))
    (harrow : ∃ arrow, part.arrows.filter (·.1 == event) = [(event, arrow)] ∧
      arrow.actions = actions) {e : Event} (he : e.name = event) :
    ∃ enough final, (∀ budget, enough ≤ budget → s.send budget e = some (s.rest e final)) ∧
      Passed s e leaf up actions down landing final := by
  subst he
  obtain ⟨arrow, harrow, rfl⟩ := harrow
  obtain ⟨t, target, ht, htarget, hinternal, hlanding, hpass, hmoves⟩ :=
    h.exists_passage hchart hleaf hpart harrow s.machine.context
  have hnone : s.chart.declared (s.chart.landing target) Event.eventless.name = [] := by
    rw [hlanding, declared_eq_layout hchart]
    exact List.isEmpty_iff.1 h.rests
  obtain ⟨enough, final, hsend, hmachine, heffects⟩ := Session.exists_send_landing
    (settlesWithin hchart) hactive hleaf ht htarget hinternal hnone
  rw [hmoves] at hmachine heffects
  refine ⟨enough, final, hsend, hpass, ?_, ?_, fun n hn => ?_, heffects⟩
  · obtain ⟨n, hn, -⟩ := hpass.target
    rw [hmachine, Macrostep.take_passage_leaf hn]
  · rw [hmachine, Macrostep.take_outcomes]
  · exact Macrostep.take_passage_invocations (Blueprint.isTree_of_build hchart) hpass hn hmachine

end FormChart.Registration.Wizard
