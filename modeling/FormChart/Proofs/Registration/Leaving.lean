import FormChart.Proofs.Session.Outcomes
import FormChart.Proofs.Registration.Area
import FormChart.Proofs.Registration.Navigation
import FormChart.Proofs.Registration.Tasks
import FormChart.Proofs.Registration.Transitions

/-!
# Leaving the form

There are two ways out of the form: at once, and by way of a leaf whose task does nothing.  Both end
on the first page, with a new context that has kept the preferences and the catalog
(`Context.reset`), **whichever leaf one comes from**.

On the way the context is asked to be kept by the pages that are left, then what is kept is
forgotten, and then the first page asks for the new context to be kept.  All of this is done once
the machine is at rest, so the pages that are left cannot bring an answer back.
-/

namespace FormChart.Registration

/-- Whether a session has started over from a context: it shows the first page, without answers but
with the preferences and the catalog, nothing is awaited, and nothing else is kept. -/
structure Wizard.StartedOver {Env S : Type} [Storage S] [WorkingStorage S] (c : Context)
    (s : Session Context Env S) : Prop where
  leafPath : s.leafPath = "welcome.welcome"
  context : s.machine.context = c.reset
  live : s.machine.invocations.live = []
  queue : s.machine.invocations.queue = []
  kept : s.kept = if Model.wantsKeeping c then some (Slot.text c.reset {}) else none

namespace Wizard

/-! ## The ways out -/

/-- What an event in a leaf of the form leads to. -/
@[mk_iff]
structure LeadsOut (i : NodeId) : Prop where
  reset : Leads i reset "form" ((layout.lineage i).takeWhile (· != Chart.root)).tail
    [welcomeSection] Leaf.welcome
  quit : Leads i quit "form" ((layout.lineage i).takeWhile (· != formSection)).tail [] Leaf.quit

instance (i : NodeId) : Decidable (LeadsOut i) := decidable_of_iff' _ (leadsOut_iff i)

lemma leadsOut_layout : ∀ e ∈ layout.nodes.zipIdx,
    e.1.kind ≠ .compound → inForm e.1.path = true → LeadsOut e.2 := by
  decide +kernel

/-- The event that quitting is done. -/
def quitDone : String := Event.doneInvoke "clearSessionState"

lemma leads_quitDone :
    Leads Leaf.quit quitDone "quit" [formSection] [welcomeSection] Leaf.welcome := by
  decide +kernel

/-- The first page is where both ways out end. -/
lemma first_layout : layout.pathOf Leaf.welcome = "welcome.welcome" ∧
    (layout.node? Leaf.welcome).any (·.invoke.isNone) = true :=
  ⟨pathOf_places (Leaf.welcome, _) (by decide), by decide +kernel⟩

/-- The entry of the first page. -/
def arriving : List (Action Context) :=
  [.set [("currentSection", .str "welcome"), ("currentStep", .str "")], .keep]

lemma actionsOf_arriving :
    layout.actionsOf (([welcomeSection] ++ [Leaf.welcome]).map .arrive) = arriving := rfl

lemma filter_form {Env : Type} [Services Env] :
    (blueprint : WizardNode Env).subtrees.filter (·.key == "form") = [form] := rfl

variable {Env S : Type} [Services Env]

/-! ## The new context -/

/-- What all actions on the way out come to: a new context. -/
lemma outcomes_startOver {c : Context} (hc : c.Valid) (event : Event) :
    Action.outcomes event ([.forget, startOver] ++ arriving) c = c.reset := by
  have hreset : startOver.outcome event c = c.reset :=
    hc.outcome_toPatch (f := fun c _ => c.reset) hc.reset
  have harriving : (Action.set [("currentSection", .str "welcome"),
      ("currentStep", .str "")]).outcome event c.reset = c.reset := by
    refine hc.reset.outcome_set event ?_
    simp [Context.fields, Field.patched?, Field.merged, mergeValue, Dict.get?_ofList,
      List.lookup_cons, Json.str?, Context.reset]
  have hforget : (Action.forget : Action Context).outcome event c = c := rfl
  rw [Action.outcomes_append, Action.outcomes_cons, Action.outcomes_cons, hforget, hreset,
    Action.outcomes_nil, arriving, Action.outcomes_cons, Action.outcomes_cons, Action.outcome_keep,
    Action.outcomes_nil, harriving]

/-- What is left on the way keeps the preferences and the catalog. -/
lemma reset_of_walksTo {c c' : Context} (h : c.WalksTo none c') : c'.reset = c.reset := by
  rw [Context.reset, Context.reset, h.config, h.disasters]

section

variable {chart : Chart Context Env} (hchart : Wizard.chart = .ok chart)

include hchart

/-- Leaving nodes keeps the answers. -/
lemma walksTo_leave (nodes : List NodeId) {event : Event} (hpayload : event.payload = {})
    {c : Context} (hc : c.Valid) :
    let c' := Action.outcomes event (chart.actionsOf (nodes.map .leave)) c
    c'.Valid ∧ c.WalksTo none c' := by
  refine walksTo_outcomes hpayload (fun a ha => ?_) ⟨hc, .refl c⟩
  obtain ⟨part, hpart, ha⟩ := List.mem_flatMap.1 ha
  obtain ⟨i, -, rfl⟩ := List.mem_map.1 hpart
  rw [Move.actions] at ha
  cases hn : chart.node? i with
  | none => simp [hn] at ha
  | some n =>
      rw [hn] at ha
      exact walks_exit hchart hn a ha

end

omit [Services Env] in
lemma actionsOf_passing {chart : Chart Context Env} (leaf : NodeId) (up : List NodeId)
    (actions : List (Action Context)) (down : List NodeId) (landing : NodeId) :
    chart.actionsOf (passing leaf up actions down landing) =
      chart.actionsOf ((leaf :: up).map .leave) ++ (actions ++
        chart.actionsOf ((down ++ [landing]).map .arrive)) := by
  simp [Chart.actionsOf, passing, Move.actions]

/-! ## The way to the first page -/

variable [Storage S] [WorkingStorage S] {s : Session Context Env S} {leaf : NodeId}

/-- **A transition to the first page that drops the answers** makes the session start over, if
everything that is live ends when its leaf is left. -/
lemma exists_startedOver (hchart : Wizard.chart = .ok s.chart) (hslot : s.slot.isSome = true)
    (hvalid : s.machine.context.Valid) (hactive : s.machine.leaf = some leaf)
    (hleaf : s.chart.IsLeaf leaf) (event : Event) (hpayload : event.payload = {})
    {owner : String} {up : List NodeId}
    (h : Leads leaf event.name owner up [welcomeSection] Leaf.welcome) {part : WizardNode Env}
    (hpart : (blueprint : WizardNode Env).subtrees.filter (·.key == owner) = [part])
    (harrow : part.arrows.filter (·.1 == event.name) =
      [(event.name, (Arrow.goto "#welcome").doing [.forget, startOver])])
    (hends : s.chart.Passage leaf up [welcomeSection] Leaf.welcome →
      let left := Macrostep.remaining s.chart event { machine := s.machine } (leaf :: up)
      left.live = [] ∧ left.queue = []) :
    ∃ enough s', (∀ budget, enough ≤ budget → s.send budget event = some s') ∧
      StartedOver s.machine.context s' := by
  obtain ⟨enough, final, hsend, hpassed⟩ := h.exists_send hchart hactive hleaf hpart
    [.forget, startOver] ⟨_, harrow, rfl⟩ rfl
  have hplan : s.chart.actionsOf
        (passing leaf up [.forget, startOver] [welcomeSection] Leaf.welcome) =
      s.chart.actionsOf ((leaf :: up).map .leave) ++ ([.forget, startOver] ++ arriving) := by
    rw [actionsOf_passing, ← actionsOf_arriving, ← actionsOf_eq_layout hchart]
  have hcontext : final.machine.context = s.machine.context.reset := by
    obtain ⟨hvalid', hwalks⟩ := walksTo_leave hchart (leaf :: up) hpayload hvalid
    rw [hpassed.context, hplan, Action.outcomes_append, outcomes_startOver hvalid',
      reset_of_walksTo hwalks]
  obtain ⟨hpath, hidle⟩ := first_layout
  obtain ⟨n, hn, -⟩ := id hpassed.passage.target
  obtain ⟨hlive, hqueue⟩ := hends hpassed.passage
  have hinvocations := hpassed.invocations n hn
  rw [invoke_eq_none hchart hn hidle, Option.elim_none] at hinvocations
  refine ⟨enough, s.rest event final, hsend, ?_⟩
  constructor
  case leafPath => rw [leafPath_rest hchart hpassed.landed, hpath]
  case context => rw [Session.rest_machine, hcontext]
  case live => rw [Session.rest_machine, hinvocations, hlive]
  case queue => rw [Session.rest_machine, hinvocations, hqueue]
  case kept =>
    have hlast : effectsOf ([.forget, startOver] ++ arriving) = [.forget, .keep] := rfl
    rw [Session.kept_rest hslot, hpassed.effects, hplan, effectsOf_append, hlast,
      List.foldl_append, hcontext, hpayload]
    change (Slot.text? s.machine.context.reset {}).or none = _
    rw [Option.or_none]
    rfl

omit [Services Env] in
/-- It makes no difference which of the answers were there. -/
lemma StartedOver.of_walksTo {c c' : Context} (h : StartedOver c' s) (hwalks : c.WalksTo none c') :
    StartedOver c s := by
  have hwants : Model.wantsKeeping c' = Model.wantsKeeping c := by
    change (c'.config.useLocalStorage != some false) = (c.config.useLocalStorage != some false)
    rw [hwalks.config]
  obtain ⟨hpath, hcontext, hlive, hqueue, hkept⟩ := h
  rw [reset_of_walksTo hwalks] at hcontext hkept
  rw [hwants] at hkept
  exact ⟨hpath, hcontext, hlive, hqueue, hkept⟩

/-! ## Quitting -/

/-- The leaf for quitting starts a task that does nothing. -/
lemma invoke_of_quit {chart : Chart Context Env} (hchart : Wizard.chart = .ok chart)
    {n : Node Context Env} (hn : chart.node? Leaf.quit = some n) :
    n.invoke = some ⟨"clearSessionState", fun _ => Task.succeed .null⟩ :=
  invoke_of_part hchart filter_quit hn (by decide +kernel)

/-- Whether a session in the leaf for quitting still has the answers of a context: one task waits,
and nothing else is awaited. -/
structure Quitting (c : Context) (token : Token) (s : Session Context Env S) : Prop where
  valid : s.machine.context.Valid
  walks : c.WalksTo none s.machine.context
  awaits : s.machine.Awaits Leaf.quit "clearSessionState" (Task.succeed .null) token
  alone : s.machine.invocations.others Leaf.quit = []

omit [WorkingStorage S] in
/-- **Quitting leads to a leaf where one task waits.** -/
lemma exists_quitting (hchart : Wizard.chart = .ok s.chart) (hvalid : s.machine.context.Valid)
    (hactive : s.machine.leaf = some leaf) (hleaf : s.chart.IsLeaf leaf) {event : Event}
    (hname : event.name = quit) (hpayload : event.payload = {}) (hout : LeadsOut leaf)
    (hends : ∀ up down landing, s.chart.Passage leaf up down landing →
      let left := Macrostep.remaining s.chart event { machine := s.machine } (leaf :: up)
      left.live = [] ∧ left.queue = []) :
    ∃ enough s' token, (∀ budget, enough ≤ budget → s.send budget event = some s') ∧
      s'.chart = s.chart ∧ s'.slot.isSome = s.slot.isSome ∧ s.chart.IsLeaf Leaf.quit ∧
      Quitting s.machine.context token s' := by
  obtain ⟨enough, final, hsend, hpassed⟩ := hout.quit.exists_send hchart hactive hleaf filter_form
    [] ⟨_, rfl, rfl⟩ hname
  obtain ⟨n, hn, -⟩ := id hpassed.passage.target
  have hentry : s.chart.actionsOf (([] ++ [Leaf.quit]).map .arrive) = [] := by
    rw [actionsOf_eq_layout hchart]
    rfl
  obtain ⟨hvalid', hwalks⟩ := walksTo_leave hchart
    (leaf :: ((layout.lineage leaf).takeWhile (· != formSection)).tail) hpayload hvalid
  have hcontext := hpassed.context
  rw [actionsOf_passing, hentry, List.append_nil, List.append_nil] at hcontext
  rw [← hcontext] at hvalid' hwalks
  have hinvocations := hpassed.invocations n hn
  rw [invoke_of_quit hchart hn, Option.elim_some] at hinvocations
  obtain ⟨hlive, hqueue⟩ := hends _ _ _ hpassed.passage
  have halone : final.machine.invocations.others Leaf.quit = [] := by
    simp [hinvocations, Invocations.start, Invocations.others, Invocations.nextToken, hlive]
  have hawaits := Machine.awaits_of_start hpassed.landed hqueue hinvocations
  rw [← s.rest_machine event final] at hvalid' hwalks hawaits halone
  exact ⟨enough, s.rest event final, _, hsend, s.rest_chart event final,
    s.isSome_slot_rest event final, hpassed.passage.target, hvalid', hwalks, hawaits, halone⟩

omit [Services Env] in
lemma filter_quitDone :
    (quitting : WizardNode Env).arrows.filter (·.1 == quitDone) =
      [(quitDone, (Arrow.goto "#welcome").doing [.forget, startOver])] := by
  rfl

/-- **The task of quitting leads to the first page**, whatever the services are. -/
lemma Quitting.exists_startedOver {c : Context} {token : Token} (h : Quitting c token s)
    (hchart : Wizard.chart = .ok s.chart) (hslot : s.slot.isSome = true)
    (hleaf : s.chart.IsLeaf Leaf.quit) :
    ∃ p, s.handOut.1 = [p] ∧ ∀ env : Env, ∃ enough s',
      (∀ budget, enough ≤ budget → s.handOut.2.deliver budget (p.run env).1 = some s') ∧
        StartedOver c s' := by
  refine ⟨_, h.awaits.queue, fun env => ?_⟩
  obtain ⟨enough, s', hsend, hstarted⟩ := Wizard.exists_startedOver (s := s.answered Leaf.quit)
    hchart hslot h.valid h.awaits.leaf hleaf (Event.ofOutcome "clearSessionState" (.ok .null)) rfl
    leads_quitDone filter_quit filter_quitDone fun _ => by
      rw [Macrostep.remaining_of_live_eq_nil h.alone]
      exact ⟨h.alone, rfl⟩
  exact ⟨enough, s', fun budget hle =>
    (Session.deliver_of_awaits h.awaits _ budget).trans (hsend budget hle),
    hstarted.of_walksTo h.walks⟩

/-! ## Out of the form -/

omit [Services Env] [WorkingStorage S] [Storage S] in
/-- Where a node is active, a leaf is. -/
lemma exists_leaf_of_isIn {path : String} (h : s.configuration.isIn path = true) :
    ∃ leaf, s.machine.leaf = some leaf := by
  cases hactive : s.machine.leaf with
  | none =>
      rw [Session.configuration, hactive] at h
      cases h
  | some leaf => exact ⟨leaf, rfl⟩

omit [WorkingStorage S] [Storage S] in
/-- Both ways out are open in every leaf of the form. -/
lemma leadsOut_of_isIn (hchart : Wizard.chart = .ok s.chart) (hactive : s.machine.leaf = some leaf)
    (hleaf : s.chart.IsLeaf leaf) (hform : s.configuration.isIn "form" = true) : LeadsOut leaf := by
  obtain ⟨n, hn, hkind⟩ := hleaf
  have hin : inForm n.path = true := by
    rw [← Chart.pathOf_of_node hn, ← isIn_form hchart hn]
    rw [Session.configuration, hactive] at hform
    rwa [Configuration.isIn, List.contains_reverse] at hform
  have hcompound : n.kind ≠ .compound := by
    rcases hkind with hkind | hkind <;> simp [hkind]
  have hall := of_layout hchart hn (Q := fun n i => n.kind ≠ .compound → inForm n.path = true →
    LeadsOut i) leadsOut_layout
  exact hall hcompound hin

/-- **Leaving the form starts over.**  Take any session of the wizard with a working storage,
wherever it has got to in the form, and an event without fields.

* A reset leads to the first page, with a new context that has kept the preferences and the catalog,
  and with nothing else left: nothing is live or waits, and the slot has the new context, or nothing
  if the preferences say so.
* Quitting makes one task wait, and whatever the services are, its outcome leads to the same. -/
theorem leaving_starts_over {s₀ s : Session Context Env S} (hchart : Wizard.chart = .ok s₀.chart)
    (hnew : s₀.machine.leaf = none) (hempty : s₀.machine.invocations = {}) {v : Json}
    (hcontext : Context.decode v = some s₀.machine.context) {episodes : List (Episode Context)}
    (run : Journey HandedOutOnly s₀ episodes (.quiet s)) (hslot : s.slot.isSome = true)
    (hform : s.configuration.isIn "form" = true) (event : Event) (hpayload : event.payload = {}) :
    (event.name = reset →
      ∃ enough s', (∀ budget, enough ≤ budget → s.send budget event = some s') ∧
        StartedOver s.machine.context s') ∧
    (event.name = quit →
      ∃ enough s₁ p s₂, (∀ budget, enough ≤ budget → s.send budget event = some s₁) ∧
        s₁.handOut = ([p], s₂) ∧ ∀ env : Env, ∃ enough s',
          (∀ budget, enough ≤ budget → s₂.deliver budget (p.run env).1 = some s') ∧
            StartedOver s.machine.context s') := by
  have htree := Blueprint.isTree_of_build hchart
  have hnil : ∃ token?, Ledger s₀.chart (deedsOf ([] : List (Episode Context))) s₀.machine.leaf
      s₀.machine.invocations token? := by
    rw [hnew, hempty]
    exact ⟨none, Ledger.nil _⟩
  obtain ⟨hsame, token?, hledger⟩ := run.invariant (Ledger.sustained htree) hnil
  have hvalid := run.preserves Context.preserved_valid (Context.valid_of_decode hcontext)
  change s.chart = s₀.chart at hsame
  change Ledger _ _ s.machine.leaf s.machine.invocations _ at hledger
  change s.machine.context.Valid at hvalid
  rw [← hsame] at hchart htree hledger
  obtain ⟨leaf, hactive⟩ := exists_leaf_of_isIn hform
  rw [hactive] at hledger
  have hleaf := hledger.isLeaf leaf rfl
  have hout := leadsOut_of_isIn hchart hactive hleaf hform
  have hends : ∀ up down landing, s.chart.Passage leaf up down landing →
      let left := Macrostep.remaining s.chart event { machine := s.machine } (leaf :: up)
      left.live = [] ∧ left.queue = [] :=
    fun up down landing hpass => hledger.leave_invocations (m := { machine := s.machine })
      event htree hpass
  constructor
  · intro hname
    have hreset := hout.reset
    rw [← hname] at hreset
    exact exists_startedOver hchart hslot hvalid hactive hleaf event hpayload hreset filter_form
      (by rw [hname]; rfl) (hends _ _ _)
  · intro hname
    obtain ⟨enough, s₁, token, hsend, hchart₁, hslot₁, hleaf₁, hquitting⟩ :=
      exists_quitting hchart hvalid hactive hleaf hname hpayload hout hends
    rw [← hchart₁] at hchart hleaf₁
    obtain ⟨p, hp, hdelivered⟩ := hquitting.exists_startedOver hchart (hslot₁.trans hslot) hleaf₁
    exact ⟨enough, s₁, p, s₁.handOut.2, hsend, Prod.ext hp rfl, hdelivered⟩

/-- Editing with the size of the household. -/
def counting : Event :=
  { name := edit, data := .record [("household", .record [("numMembers", .nat 2)])] }

set_option maxRecDepth 100000 in
lemma counting_computed :
    ((scripted.call 8 (.startAt "#review")).bind (·.call 8 (.send counting))).any (fun s =>
      (s.slot.isSome && s.kept.isSome) && (s.configuration.isIn "form" &&
        decide (s.machine.context.household.numMembers = some 2))) = true := by
  decide +kernel

/-- The size of the household is known and kept until the form is left, either way. -/
theorem leaving_starts_over_counting : ∃ s : Session Context Script Memory,
    s.machine.context.household.numMembers = some 2 ∧ s.kept.isSome = true ∧
      (∃ enough s', s.send enough { name := reset } = some s' ∧
        StartedOver s.machine.context s') ∧
      ∃ enough s₁ p s₂, s.send enough { name := quit } = some s₁ ∧ s₁.handOut = ([p], s₂) ∧
        ∃ s', s₂.deliver enough (p.run {}).1 = some s' ∧ StartedOver s.machine.context s' := by
  obtain ⟨s, hs, hcomputed⟩ := (Option.any_eq_true _ _).1 counting_computed
  obtain ⟨hslot, hcomputed⟩ := Bool.and_eq_true_iff.1 hcomputed
  obtain ⟨hslot, hkept⟩ := Bool.and_eq_true_iff.1 hslot
  obtain ⟨hform, hanswer⟩ := Bool.and_eq_true_iff.1 hcomputed
  obtain ⟨started, hstarted, hcounted⟩ := Option.bind_eq_some_iff.1 hs
  have run : Journey HandedOutOnly scripted [] (.quiet scripted) := .nil
  obtain ⟨first, run⟩ := run.of_call (c := .startAt "#review") trivial hstarted
  obtain ⟨second, run⟩ := run.of_call (c := .send counting) trivial hcounted
  have hcontext : Context.decode (.record []) = some scripted.machine.context := by decide +kernel
  obtain ⟨enough, s', hsend, hover⟩ := (leaving_starts_over scripted_chart rfl rfl hcontext run
    hslot hform { name := reset } rfl).1 rfl
  obtain ⟨enough₁, s₁, p, s₂, hsend₁, hp, hdelivered⟩ := (leaving_starts_over scripted_chart rfl rfl
    hcontext run hslot hform { name := quit } rfl).2 rfl
  obtain ⟨enough₂, s₃, hdeliver, hover₃⟩ := hdelivered {}
  exact ⟨s, of_decide_eq_true hanswer, hkept, ⟨enough, s', hsend _ le_rfl, hover⟩,
    max enough₁ enough₂, s₁, p, s₂, hsend₁ _ (le_max_left _ _), hp, s₃,
    hdeliver _ (le_max_right _ _), hover₃⟩

end Wizard

end FormChart.Registration
