import FormChart.Proofs.Session.Settling
import FormChart.Proofs.Registration.Cursors
import FormChart.Registration.Wizard.Chart
import FormChart.Registration.Script

/-!
# The layout of the wizard

What has to be known of the wizard's chart comes from two sides.

* **Where transitions lead** does not depend on the services that the wizard calls, so it is
  computed once, on the chart without its tasks (`Wizard.placed_layout`), and holds of every chart
  of the wizard (`Wizard.placed`).
* **What nodes do** is read off the blueprint, where all nodes are orderly
  (`Wizard.tidy_blueprint`): nothing they do is an error or raises an event, and they leave the
  cursors alone when they are left, and when they are entered on the way to another node.
-/

namespace FormChart.Registration.Wizard

variable {Env : Type}

/-! ## What nodes do -/

/-- Whether an action tells of no error and raises no event. -/
def Quiet (a : Action Context) : Prop := ∀ unheard, a.Mild unheard

lemma quiet_assign (patch : Context → Event → Patch) : Quiet (.assign patch) :=
  fun _ _ _ => mild_nil

@[simp] lemma quiet_set (fields : List (String × Json)) : Quiet (.set fields) := quiet_assign _

@[simp] lemma quiet_setHousehold (f : Context → Household) : Quiet (setHousehold f) :=
  quiet_assign _

@[simp] lemma quiet_setResources (f : Resources → Resources) : Quiet (setResources f) :=
  quiet_assign _

@[simp] lemma quiet_startOver : Quiet startOver := quiet_assign _

@[simp] lemma quiet_forward : Quiet .forward := fun _ => trivial

@[simp] lemma quiet_keep : Quiet .keep := fun _ => trivial

@[simp] lemma quiet_forget : Quiet .forget := fun _ => trivial

@[simp] lemma quiet_log (message : String) : Quiet (.log message) := fun _ => trivial

/-- A catalog that cannot be read is worth a warning, but is no error. -/
@[simp] lemma quiet_storeCatalog : Quiet storeCatalog := by
  intro unheard context event
  dsimp only
  split <;> simp [Mild, Notice.level]

@[simp] lemma keepsCursors_keep : KeepsCursors .keep := keepsCursors_effect _

/-- Whether a node does nothing but quiet things, and leaves the cursors alone unless it is entered
as a leaf or one of its transitions is taken. -/
@[mk_iff]
structure Orderly (b : WizardNode Env) : Prop where
  entry : ∀ a ∈ b.entry, Quiet a ∧ (b.kind = .compound → KeepsCursors a)
  exit : ∀ a ∈ b.exit, Quiet a ∧ KeepsCursors a
  on : ∀ e ∈ b.on, ∀ a ∈ e.2.actions, Quiet a
  invoke : ∀ v ∈ b.invoke, ∀ arrow ∈ v.onDone ++ v.onError, ∀ a ∈ arrow.actions, Quiet a

lemma Orderly.actions {b : WizardNode Env} (h : Orderly b) : ∀ a ∈ b.actions, Quiet a :=
  Blueprint.forall_actions (fun a ha => (h.entry a ha).1) (fun a ha => (h.exit a ha).1) h.on
    h.invoke

/-- Whether all nodes of a part of the wizard are orderly. -/
def Tidy (part : WizardNode Env) : Prop := ∀ b ∈ part.subtrees, Orderly b

lemma tidy_mk {key : String} {kind : NodeKind} {id initial route : Option String}
    {entry exit : List (Action Context)} {on : List (String × Arrow Context)}
    {invoke : Option (Invoke Context Env)} {children : List (WizardNode Env)} :
    Tidy ⟨key, kind, id, initial, entry, exit, on, invoke, route, children⟩ ↔
      Orderly ⟨key, kind, id, initial, entry, exit, on, invoke, route, children⟩ ∧
        ∀ child ∈ children, Tidy child := Blueprint.everywhere_mk

/-- **All nodes of the wizard are orderly.** -/
lemma tidy_blueprint [Services Env] : Tidy (blueprint : WizardNode Env) := by
  simp [blueprint, welcome, form, preRegistration, getPrepared, basicInfo, identity, household,
    impact, resources, review, submit, nextSteps, quitting, outcome, sectionNode, compound, page,
    pageTo, decision, entering, atomic, Arrow.goto, Arrow.gotoIf, Arrow.doing, Arrow.forwardTo,
    missCatalog, setMember, setHolder, changeHolder, setJob, ensureJob, backOneJob, quiet_assign,
    keepsCursors_set, tidy_mk, orderly_iff]

/-! ## Where transitions lead -/

/-- The chart of the wizard without its tasks. -/
def layout : Chart Context Unit := (blueprint : WizardNode Script).withoutTasks.outline.chart

/-! ### Names for places -/

/-! The number of a node is its place in the table of the chart.  The nodes that statements mention
have names here, and **each name is checked against the path of its node** (`pathOf_places`). -/

abbrev welcomeSection : NodeId := 2

abbrev formSection : NodeId := 4

abbrev householdSection : NodeId := 17

abbrev resourcesSection : NodeId := 28

abbrev reviewSection : NodeId := 37

abbrev submitSection : NodeId := 40

abbrev nextStepsSection : NodeId := 43

namespace Leaf

abbrev welcome : NodeId := 3

abbrev loading : NodeId := 6

abbrev howMany : NodeId := 18

abbrev getPrepared : NodeId := 21

abbrev memberDetailsLoop : NodeId := 22

abbrev memberDetails : NodeId := 23

abbrev memberDetailsNext : NodeId := 24

abbrev foodAssistance : NodeId := 25

abbrev assets : NodeId := 29

abbrev incomeBranch : NodeId := 30

abbrev income : NodeId := 31

abbrev jobsBranch : NodeId := 32

abbrev jobs : NodeId := 33

abbrev otherJobsLoop : NodeId := 34

abbrev nextMember : NodeId := 35

abbrev checkMember : NodeId := 36

abbrev review : NodeId := 38

abbrev signAndSubmit : NodeId := 41

abbrev finalize : NodeId := 42

abbrev eligibility : NodeId := 44

abbrev eligible : NodeId := 45

abbrev ineligible : NodeId := 46

abbrev quit : NodeId := 47

end Leaf

/-- The nodes that have names, with their paths. -/
def places : List (NodeId × String) :=
  [ (welcomeSection, "welcome"), (formSection, "form"), (householdSection, "form.household")
  , (resourcesSection, "form.resources"), (reviewSection, "form.review")
  , (submitSection, "form.submit"), (nextStepsSection, "form.next-steps")
  , (Leaf.welcome, "welcome.welcome"), (Leaf.loading, "form.pre-registration.loading")
  , (Leaf.howMany, "form.household.how-many"), (Leaf.getPrepared, "form.household.get-prepared")
  , (Leaf.memberDetailsLoop, "form.household.member-details-loop")
  , (Leaf.memberDetails, "form.household.member-details")
  , (Leaf.memberDetailsNext, "form.household.member-details-next")
  , (Leaf.foodAssistance, "form.household.food-assistance")
  , (Leaf.assets, "form.resources.assets"), (Leaf.incomeBranch, "form.resources.income-branch")
  , (Leaf.income, "form.resources.income"), (Leaf.jobsBranch, "form.resources.jobs-branch")
  , (Leaf.jobs, "form.resources.jobs"), (Leaf.otherJobsLoop, "form.resources.other-jobs-loop")
  , (Leaf.nextMember, "form.resources.next-member")
  , (Leaf.checkMember, "form.resources.check-member"), (Leaf.review, "form.review.default")
  , (Leaf.signAndSubmit, "form.submit.sign-and-submit"), (Leaf.finalize, "form.submit.finalize")
  , (Leaf.eligibility, "form.next-steps.eligibility")
  , (Leaf.eligible, "form.next-steps.eligible"), (Leaf.ineligible, "form.next-steps.ineligible")
  , (Leaf.quit, "form.quit") ]

lemma pathOf_places : ∀ p ∈ places, layout.pathOf p.1 = p.2 := by
  decide +kernel

/-- The event that the application was filed, which is the success of the task of
`form.submit.finalize`. -/
def filedEvent : String := Event.doneInvoke "submitApplication"

/-- The nodes that only decide what is shown next. -/
def decisionPaths : List String :=
  ["form.basic-info.mailing-address-check", "form.household.member-info-branch",
    "form.household.member-details-loop", "form.household.member-details-next",
    "form.resources.income-branch", "form.resources.jobs-branch", "form.resources.other-jobs-loop",
    "form.resources.next-member", "form.resources.check-member", "form.next-steps.eligibility"]

/-- The nodes that are entered only with a cursor on something. -/
def guardedKeys : List String := ["member-details", "income", "jobs", "check-member"]

/-- What is known of a node by its place in the layout. -/
@[mk_iff]
structure Placed (n : Node Context Unit) (i : NodeId) : Prop where
  /-- Four automatic transitions lead to rest at most. -/
  rests : layout.comesToRest 4 i = true
  /-- Decisions have automatic transitions. -/
  decides : n.path ∈ decisionPaths →
    (layout.declared i Event.eventless.name).isEmpty = false
  /-- Every transition leads on. -/
  onward : ∀ e ∈ n.on, e.2.isInternal = false ∧ e.2.target.isSome = true
  /-- There is no transition for the arrival at a final node. -/
  unheard : n.kind = .final → ∀ p ∈ n.parent?, ∀ k ∈ layout.nodes,
    (k.candidates (Event.doneState (layout.pathOf p))).isEmpty = true
  /-- A global id does not lead straight to a guarded node. -/
  unguarded : ∀ id ∈ n.id, ∀ target ∈ layout.lookup? ("#" ++ id),
    layout.keyOf (layout.landing target) ∉ guardedKeys
  /-- Where one can rest in the resources. -/
  resources : n.kind ≠ .compound → "resources" ∈ (layout.lineage i).map layout.keyOf →
    (layout.declared i Event.eventless.name).isEmpty = true → n.key ∈ ["assets", "income", "jobs"]
  /-- The pages of the loops. -/
  pages : (n.path = "form.household.member-details" → n.key = "member-details") ∧
    (n.path = "form.resources.assets" → n.key = "assets") ∧
    (n.path = "form.resources.income" → n.key = "income") ∧
    (n.path = "form.resources.jobs" → n.key = "jobs")

instance (n : Node Context Unit) (i : NodeId) : Decidable (Placed n i) :=
  decidable_of_iff' _ (placed_iff n i)

lemma placed_layout : ∀ e ∈ layout.nodes.zipIdx, Placed e.1 e.2 := by
  decide +kernel

/-- The root lands in no guarded node, and every way to a guarded node is known. -/
lemma guarded_layout : layout.keyOf (layout.landing Chart.root) ∉ guardedKeys ∧
    layout.waysTo "member-details" = [("member-details-loop", 0)] ∧
    layout.waysTo "income" = [("income-branch", 0), ("check-member", 1)] ∧
    layout.waysTo "jobs" = [("jobs-branch", 0), ("check-member", 0)] ∧
    layout.waysTo "check-member" = [("resources", 1)] := by
  decide +kernel

lemma withoutTasks_blueprint [Services Env] :
    (blueprint : WizardNode Env).withoutTasks = (blueprint : WizardNode Script).withoutTasks := rfl

variable [Services Env]

/-- **All charts of the wizard have one layout.** -/
lemma withoutTasks_eq_layout {chart : Chart Context Env} (hchart : Wizard.chart = .ok chart) :
    chart.withoutTasks = layout := by
  rw [Blueprint.chart_of_build hchart, ← Blueprint.chart_withoutTasks, withoutTasks_blueprint,
    layout]

lemma waysTo_eq_layout {chart : Chart Context Env} (hchart : Wizard.chart = .ok chart)
    (key : String) : chart.waysTo key = layout.waysTo key := by
  rw [← withoutTasks_eq_layout hchart, Chart.waysTo_withoutTasks]

lemma keyOf_landing_root {chart : Chart Context Env} (hchart : Wizard.chart = .ok chart) :
    chart.keyOf (chart.landing Chart.root) ∉ guardedKeys := by
  have h := guarded_layout.1
  rwa [← withoutTasks_eq_layout hchart, Chart.landing_withoutTasks, Chart.keyOf_withoutTasks] at h

section

variable {chart : Chart Context Env} (hchart : Wizard.chart = .ok chart) {i : NodeId}
  {n : Node Context Env} (hn : chart.node? i = some n)

include hchart hn

/-- **What is known of the layout** is known of every node of the wizard. -/
lemma of_layout {Q : Node Context Unit → NodeId → Prop}
    (h : ∀ e ∈ layout.nodes.zipIdx, Q e.1 e.2) : Q n.withoutTask i := by
  refine h (n.withoutTask, i) (List.mk_mem_zipIdx_iff_getElem?.2 ?_)
  change layout.node? i = some n.withoutTask
  rw [← withoutTasks_eq_layout hchart, Chart.node?_withoutTasks, hn, Option.map_some]

lemma placed : Placed n.withoutTask i := of_layout hchart hn placed_layout

/-- Every node is made of a part of the wizard. -/
lemma exists_part :
    ∃ m, (blueprint : WizardNode Env).outline.node i m = n ∧
      m.blueprint ∈ (blueprint : WizardNode Env).subtrees ∧ n.key = m.blueprint.key := by
  rw [Blueprint.chart_of_build hchart] at hn
  exact Blueprint.exists_subtree hn

lemma quiet_of_node : ∀ a ∈ n.actions, Quiet a := by
  obtain ⟨m, rfl, hm, -⟩ := exists_part hchart hn
  rw [Outline.actions_node]
  exact (tidy_blueprint _ hm).actions

lemma keepsCursors_exit : ∀ a ∈ n.exit, KeepsCursors a := by
  obtain ⟨m, rfl, hm, -⟩ := exists_part hchart hn
  exact fun a ha => ((tidy_blueprint _ hm).exit a ha).2

lemma keepsCursors_entry (hkind : n.kind = .compound) : ∀ a ∈ n.entry, KeepsCursors a := by
  obtain ⟨m, rfl, hm, -⟩ := exists_part hchart hn
  exact fun a ha => ((tidy_blueprint _ hm).entry a ha).2 hkind

lemma comesToRest_chart : chart.comesToRest 4 i = true := by
  rw [← Chart.comesToRest_withoutTasks, withoutTasks_eq_layout hchart]
  exact (placed hchart hn).rests

/-- A decision is not a place to rest. -/
lemma path_notMem_decisionPaths (hrest : chart.declared i Event.eventless.name = []) :
    n.path ∉ decisionPaths := by
  intro hmem
  have h := (placed hchart hn).decides hmem
  rw [← withoutTasks_eq_layout hchart, Chart.declared_withoutTasks, hrest] at h
  cases h

lemma exists_target {event : String} {t : Transition Context} (ht : (event, t) ∈ n.on) :
    t.isInternal = false ∧ ∃ target, t.target = some target :=
  ((placed hchart hn).onward (event, t) ht).imp_right Option.isSome_iff_exists.1

lemma unheard_report (hkind : n.kind = .final) {p : NodeId} (hp : n.parent? = some p) :
    chart.Unheard (Event.doneState (chart.pathOf p)) := by
  intro j k hk
  have hmem : k.withoutTask ∈ layout.nodes := by
    rw [← withoutTasks_eq_layout hchart]
    exact List.mem_map_of_mem (List.mem_of_getElem? hk)
  have h := (placed hchart hn).unheard hkind p hp _ hmem
  rwa [← withoutTasks_eq_layout hchart, Chart.pathOf_withoutTasks, List.isEmpty_iff] at h

/-- Where one may start by a global id. -/
lemma keyOf_landing_notMem {id : String} (hid : n.id = some id) {target : NodeId}
    (htarget : chart.lookup? ("#" ++ id) = some target) :
    chart.keyOf (chart.landing target) ∉ guardedKeys := by
  have h := (placed hchart hn).unguarded id hid target
  rw [← withoutTasks_eq_layout hchart, Chart.lookup?_withoutTasks, Chart.landing_withoutTasks,
    Chart.keyOf_withoutTasks] at h
  exact h htarget

/-- Where one can rest in the resources. -/
lemma key_of_resources (hkind : n.kind ≠ .compound) {j : NodeId} (hj : j ∈ chart.lineage i)
    (hresources : chart.keyOf j = "resources")
    (hrest : chart.declared i Event.eventless.name = []) :
    n.key ∈ ["assets", "income", "jobs"] := by
  refine (placed hchart hn).resources hkind ?_ ?_
  · rw [← withoutTasks_eq_layout hchart, Chart.lineage_withoutTasks]
    exact List.mem_map.2 ⟨j, hj, by rw [Chart.keyOf_withoutTasks, hresources]⟩
  · rw [← withoutTasks_eq_layout hchart, Chart.declared_withoutTasks, hrest]
    rfl

end

end FormChart.Registration.Wizard
