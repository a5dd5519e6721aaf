import FormChart.Proofs.Session.Prompt
import FormChart.Proofs.Session.Discharge
import FormChart.Proofs.Registration.Rest
import FormChart.Proofs.Registration.Ranges

/-!
# The tasks of the wizard

Three leaves of the wizard start a task: the one before the catalog is there, the one after the
application was signed, and the way out.  Whatever the services answer, the outcome leads to a page
that starts nothing.  **So the wizard is prompt** (`Wizard.prompt`): driving it never takes more
than one task, and no page is ever shown that waits for a service.

The way out listens only for success, and its task always succeeds.
-/

namespace FormChart.Registration.Wizard

/-- The leaves that start a task. -/
def taskPaths : List String :=
  ["form.pre-registration.loading", "form.submit.finalize", "form.quit"]

/-- What is known of the tasks by the place of a node in the layout. -/
@[mk_iff]
structure Relieved (n : Node Context Unit) (i : NodeId) : Prop where
  automatic : ∀ e ∈ n.on, e.1 = Event.eventless.name → e.2.relieves layout = true
  done : ∀ v ∈ n.invoke, layout.leadsAway i (Event.doneInvoke v.id) = true
  error : ∀ v ∈ n.invoke, n.key ≠ "quit" → layout.leadsAway i (Event.errorInvoke v.id) = true
  paths : n.path ∈ taskPaths → n.invoke.isSome = true

instance (n : Node Context Unit) (i : NodeId) : Decidable (Relieved n i) :=
  decidable_of_iff' _ (relieved_iff n i)

lemma relieved_layout : ∀ e ∈ layout.nodes.zipIdx, Relieved e.1 e.2 := by
  decide +kernel

variable {Env S : Type} [Services Env]

lemma filter_quit :
    (blueprint : WizardNode Env).subtrees.filter (·.key == "quit") = [quitting] := rfl

section

variable {chart : Chart Context Env} (hchart : Wizard.chart = .ok chart) {i : NodeId}
  {n : Node Context Env} (hn : chart.node? i = some n)

include hchart hn

lemma relieved : Relieved n.withoutTask i := of_layout hchart hn relieved_layout

/-- The way out succeeds. -/
lemma task_of_quit (hkey : n.key = "quit") {v : Invocation Context Env} (hv : n.invoke = some v)
    (context : Context) (env : Env) : (v.task context env).1 = .ok .null := by
  obtain ⟨m, rfl, hm⟩ := node_eq_of_key hchart filter_quit hn hkey
  change (m.blueprint.invoke.map fun i => ⟨i.id, i.task⟩) = some v at hv
  rw [hm] at hv
  cases hv
  rfl

/-- **Whatever a task of the wizard ends with** leads on. -/
lemma leadsAway_of_task {v : Invocation Context Env} (hv : n.invoke = some v) (context : Context)
    (env : Env) :
    chart.leadsAway i (Event.ofOutcome v.id (v.task context env).1).name = true := by
  have h := relieved hchart hn
  have hmem : (⟨v.id, fun _ => Task.succeed .null⟩ : Invocation Context Unit) ∈
      n.withoutTask.invoke := by
    rw [Node.withoutTask, hv]
    rfl
  have hdone := h.done _ hmem
  have herror := h.error _ hmem
  rw [← Chart.leadsAway_withoutTasks, withoutTasks_eq_layout hchart]
  cases houtcome : (v.task context env).1 with
  | ok value => exact hdone
  | error e =>
      refine herror fun hkey => ?_
      rw [task_of_quit hchart hn hkey hv] at houtcome
      cases houtcome

end

section

variable {chart : Chart Context Env} (hchart : Wizard.chart = .ok chart)

include hchart

/-- **The wizard is prompt.** -/
lemma prompt : chart.Prompt 4 where
  toSettlesWithin := settlesWithin hchart
  automatic := by
    intro i n t hn ht
    rw [← Chart.relieves_withoutTasks, withoutTasks_eq_layout hchart]
    exact (relieved hchart hn).automatic _ ht rfl
  answered hn hv context env := leadsAway_of_task hchart hn hv context env

/-- No idle machine is in a leaf that starts a task. -/
lemma leafPath_notMem_taskPaths {machine : Machine Context Env} (h : machine.Idle chart) :
    machine.leafPath chart ∉ taskPaths := by
  intro hpath
  rw [Machine.leafPath] at hpath
  cases hactive : machine.leaf with
  | none =>
      rw [hactive, Option.map_none, Option.getD_none] at hpath
      exact absurd hpath (by decide)
  | some leaf =>
      rw [hactive, Option.map_some, Option.getD_some] at hpath
      cases hn : chart.node? leaf with
      | none =>
          rw [Chart.pathOf, hn, Option.map_none, Option.getD_none] at hpath
          exact absurd hpath (by decide)
      | some n =>
          rw [Chart.pathOf_of_node hn] at hpath
          have hinvoke := (relieved hchart hn).paths hpath
          simp [Node.withoutTask, h leaf n hactive hn] at hinvoke

end

variable [Storage S]

/-- **The wizard carries out every order**, with whatever it comes and whatever the services answer.
It takes at most one task, and leaves the wizard at no leaf that starts one. -/
lemma exists_drive {s₀ s : Session Context Env S} (hchart : Wizard.chart = .ok s₀.chart)
    (hstopped : s₀.machine.leaf = none) (hempty : s₀.machine.invocations = {})
    (hceiling : 5 ≤ s₀.settings.maxEventlessSteps) (h : Driven s₀ s) (order : Order) (env : Env) :
    ∃ enough s' env', s'.leafPath ∉ taskPaths ∧ ∀ budget rounds, enough ≤ budget → 2 ≤ rounds →
      s.drive budget rounds env order = some (s', env') ∧
        (ranIn (s.driveTrace budget rounds env order)).length ≤ 1 := by
  have hprompt := prompt hchart
  obtain ⟨enough, s', env', hready, hdone⟩ :=
    (Ready.of_driven hstopped hempty hprompt hceiling h).exists_drive hstopped hempty hprompt
      hceiling order env
  refine ⟨enough, s', env', ?_, fun budget rounds hbudget hrounds => ?_⟩
  · obtain ⟨episodes, hattended⟩ := hready.attended
    rw [Session.leafPath, hattended.chart]
    exact leafPath_notMem_taskPaths hchart hready.idle
  · obtain ⟨rounds, rfl⟩ := Nat.exists_eq_add_of_le' hrounds
    exact hdone budget rounds hbudget

/-- **Every order leaves nothing behind, and the wizard carries out every order.**

* Take any chart that is built, and any new session over it that is driven.  When an order is
  carried out, nothing waits and nothing is live, and each task that was started meanwhile was run
  once, or was dropped because its node was left before it was handed out.  The tasks that were run
  are those of their nodes: each was applied once, in the environment that the one before has left,
  and its outcome was delivered.
* The wizard, with a ceiling of five or more, carries out every order, with whatever event it comes
  and whatever the services answer.  It runs one task at most, and is then not in a leaf that starts
  one. -/
theorem orders_are_settled :
    (∀ {C Env S : Type} [Model C] [Storage S] {b : Blueprint C Env} {s₀ s s' : Session C Env S}
      {budget rounds : Nat} {order : Order} {env env' : Env},
      b.build = .ok s₀.chart → s₀.machine.leaf = none → s₀.machine.invocations = {} →
      Driven s₀ s → s.drive budget rounds env order = some (s', env') →
      s'.machine.invocations.queue = [] ∧ s'.machine.invocations.liveCount = 0 ∧
        (∀ token, .started token ∈ deedsOf (episodesIn (s.driveTrace budget rounds env order)) →
          (ranIn (s.driveTrace budget rounds env order)).count token = 1 ∨
            ((ranIn (s.driveTrace budget rounds env order)).count token = 0 ∧
              Dropped token (deedsOf (episodesIn (s.driveTrace budget rounds env order))))) ∧
        ∃ tasks : List (PendingTask Env),
          tasks.map (·.token) = ranIn (s.driveTrace budget rounds env order) ∧
            Discharges s₀.chart budget tasks s env s' env') ∧
    ∀ {Env S : Type} [Services Env] [Storage S] {s₀ s : Session Context Env S},
      Wizard.chart = .ok s₀.chart → s₀.machine.leaf = none → s₀.machine.invocations = {} →
      5 ≤ s₀.settings.maxEventlessSteps → Driven s₀ s → ∀ (order : Order) (env : Env),
      ∃ enough s' env', s'.leafPath ∉ taskPaths ∧ ∀ budget rounds, enough ≤ budget → 2 ≤ rounds →
        s.drive budget rounds env order = some (s', env') ∧
          (ranIn (s.driveTrace budget rounds env order)).length ≤ 1 ∧
          ∃ tasks : List (PendingTask Env), tasks.length ≤ 1 ∧
            tasks.map (·.token) = ranIn (s.driveTrace budget rounds env order) ∧
            Discharges s₀.chart budget tasks s env s' env' := by
  constructor
  · intro C Env S _ _ b s₀ s s' budget rounds order env env' hbuild hstopped hempty h hdrive
    obtain ⟨hqueue, hlive, hfates⟩ := h.settled hbuild hstopped hempty hdrive
    exact ⟨hqueue, hlive, hfates, h.exists_discharges hbuild hstopped hempty hdrive⟩
  · intro Env S _ _ s₀ s hchart hstopped hempty hceiling h order env
    obtain ⟨enough, s', env', hpath, hdone⟩ :=
      exists_drive hchart hstopped hempty hceiling h order env
    refine ⟨enough, s', env', hpath, fun budget rounds hbudget hrounds => ?_⟩
    obtain ⟨hdrive, hran⟩ := hdone budget rounds hbudget hrounds
    obtain ⟨tasks, htokens, hdischarges⟩ := h.exists_discharges hchart hstopped hempty hdrive
    refine ⟨hdrive, hran, tasks, ?_, htokens, hdischarges⟩
    rwa [← htokens, List.length_map] at hran

/-- A purchase takes two tasks, each of which adds its cost once, and the wizard is started where it
waits for the catalog. -/
theorem orders_are_settled_purchase :
    (purchase.build = .ok purchaseSession.chart ∧
      ∃ s s' : Session Tally Nat Memory, Driven purchaseSession s ∧
        s.drive 9 3 0 (.send { name := "go" }) = some (s', 11) ∧
        s'.machine.invocations.queue = [] ∧ s'.machine.invocations.liveCount = 0 ∧
        ∃ tasks : List (PendingTask Nat), tasks.map (·.token) = [⟨2, 0⟩, ⟨3, 1⟩] ∧
          Discharges purchaseSession.chart 9 tasks s 0 s' 11) ∧
    ∃ enough s' env', s'.leafPath ∉ taskPaths ∧
      scripted.drive enough 2 {} (.startAt "form.pre-registration.loading") = some (s', env') ∧
      ∃ tasks : List (PendingTask Script), tasks.length ≤ 1 ∧
        Discharges scripted.chart enough tasks scripted {} s' env' := by
  constructor
  · have hdriven : ((purchaseSession.drive 9 3 0 .start).bind fun started =>
        (started.1.drive 9 3 0 (.send { name := "go" })).map fun done =>
          (started.2, done.2, ranIn (started.1.driveTrace 9 3 0 (.send { name := "go" })))) =
        some (0, 11, [⟨2, 0⟩, ⟨3, 1⟩]) := by decide +kernel
    obtain ⟨⟨s, env⟩, hstart, hgo⟩ := Option.bind_eq_some_iff.1 hdriven
    obtain ⟨⟨s', env'⟩, hgo, hfacts⟩ := Option.map_eq_some_iff.1 hgo
    simp only [Prod.mk.injEq] at hfacts
    obtain ⟨-, rfl, hran⟩ := hfacts
    have run : Driven purchaseSession s := Driven.nil.order 9 3 .start hstart
    obtain ⟨hqueue, hlive, -, tasks, htokens, hdischarges⟩ :=
      orders_are_settled.1 purchase_build rfl rfl run hgo
    exact ⟨purchase_build, s, s', run, hgo, hqueue, hlive, tasks, htokens.trans hran, hdischarges⟩
  · have hceiling : 5 ≤ scripted.settings.maxEventlessSteps := by decide
    obtain ⟨enough, s', env', hpath, hdone⟩ := orders_are_settled.2 scripted_chart rfl rfl hceiling
      Driven.nil (.startAt "form.pre-registration.loading") {}
    obtain ⟨hdrive, -, tasks, hone, -, hdischarges⟩ :=
      hdone enough 2 (Nat.le_refl _) (Nat.le_refl _)
    exact ⟨enough, s', env', hpath, hdrive, tasks, hone, hdischarges⟩

end FormChart.Registration.Wizard
