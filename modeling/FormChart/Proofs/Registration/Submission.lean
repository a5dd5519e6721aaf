import FormChart.Proofs.Registration.Locality
import FormChart.Proofs.Registration.Tasks
import FormChart.Proofs.Registration.Transitions

/-!
# Filing an application

The page `form.submit.sign-and-submit` has one event that files the application.  Its task asks the
services in turn, and an environment that records their requests (`Overheard`) shows which: first
the filing of the context as it is after the event, and **only if that succeeds** the judgement of
what was filed.

If either service fails, the page is active again, with `errors.server` set and all answers kept, so
that the next event files again.  If both answer, the page of the outcome is active, and the context
has only what was filed, the preferences and the catalog.
-/

namespace FormChart.Registration

/-! ## What the services are asked -/

/-- A request to the services. -/
inductive Question where
  | catalog
  | filing (context : Context)
  | judgement (filedData : Json)

/-- An environment, and the requests that were made to it. -/
structure Overheard (Env : Type) where
  env : Env
  asked : List Question := []

/-- The answers are those of the environment, and every request is recorded. -/
instance {Env : Type} [Services Env] : Services (Overheard Env) where
  catalog o := ((Services.catalog o.env).1, ⟨(Services.catalog o.env).2, o.asked ++ [.catalog]⟩)
  file o c := ((Services.file o.env c).1, ⟨(Services.file o.env c).2, o.asked ++ [.filing c]⟩)
  judge o data :=
    ((Services.judge o.env data).1, ⟨(Services.judge o.env data).2, o.asked ++ [.judgement data]⟩)

namespace Wizard

/-! ## The way through the section -/

/-- The page where the application is signed. -/
def signingPage : String := "form.submit.sign-and-submit"

/-- The event that one of the services has failed. -/
def failedEvent : String := Event.errorInvoke "submitApplication"

/-- The key of the page that shows an outcome. -/
def outcomeKey (eligible : Bool) : String := if eligible then "eligible" else "ineligible"

/-- Its node. -/
def outcomeNode (eligible : Bool) : NodeId := if eligible then Leaf.eligible else Leaf.ineligible

lemma signing_layout : ∀ e ∈ layout.nodes.zipIdx, e.1.path = signingPage →
    e.2 = Leaf.signAndSubmit ∧ e.1.kind = .atomic := by
  decide +kernel

lemma leads_next : Leads Leaf.signAndSubmit next "sign-and-submit" [] [] Leaf.finalize := by
  decide +kernel

lemma leads_failed : Leads Leaf.finalize failedEvent "finalize" [] [] Leaf.signAndSubmit := by
  decide +kernel

lemma goes_filed : Goes Leaf.finalize filedEvent "finalize" [submitSection] [nextStepsSection]
    Leaf.eligibility := by
  decide +kernel

lemma declared_judged : layout.declared Leaf.eligibility Event.eventless.name =
    [⟨some Leaf.eligible, some fun c => c.registration.isEligible, [], false⟩,
      ⟨some Leaf.ineligible, none, [], false⟩] := rfl

/-- The verdict decides which page is shown. -/
lemma exists_judged (c : Context) :
    ∃ t, layout.choose? Leaf.eligibility c Event.eventless.name = some t ∧ t.actions = [] ∧
      Passes Leaf.eligibility t [] [] (outcomeNode c.registration.isEligible) := by
  rw [Chart.choose?_eq, declared_judged]
  cases h : c.registration.isEligible with
  | true =>
      refine ⟨_, List.find?_cons_of_pos ?_, rfl, by decide +kernel⟩
      simp [Transition.isEnabled, h]
  | false =>
      refine ⟨⟨some Leaf.ineligible, none, [], false⟩, ?_, rfl, by decide +kernel⟩
      simp [Transition.isEnabled, h]

lemma outcome_layout (eligible : Bool) :
    layout.pathOf (outcomeNode eligible) = (if eligible then "form.next-steps.eligible"
        else "form.next-steps.ineligible") ∧
      (layout.node? (outcomeNode eligible)).any (·.invoke.isNone) = true ∧
      layout.declared (outcomeNode eligible) Event.eventless.name = [] := by
  cases eligible <;> decide +kernel

/-! ## What is done on the way -/

lemma actionsOf_next : layout.actionsOf
    (passing Leaf.signAndSubmit [] [.forward, .keep] [] Leaf.finalize) = [.forward, .keep] := rfl

lemma actionsOf_failed (a : Action Context) :
    layout.actionsOf (passing Leaf.finalize [] [a] [] Leaf.signAndSubmit) = [a] := rfl

lemma actionsOf_filed (actions : List (Action Context)) :
    layout.actionsOf
        (passing Leaf.finalize [submitSection] actions [nextStepsSection] Leaf.eligibility) =
      actions ++ [.set [("currentSection", .str "next-steps")]] := rfl

lemma actionsOf_judged (eligible : Bool) :
    layout.actionsOf (passing Leaf.eligibility [] [] [] (outcomeNode eligible)) =
      [.set [("currentStep", .str (outcomeKey eligible))]] := by
  have hboth : layout.actionsOf (passing Leaf.eligibility [] [] [] Leaf.eligible) =
        [.set [("currentStep", .str "eligible")]] ∧
      layout.actionsOf (passing Leaf.eligibility [] [] [] Leaf.ineligible) =
        [.set [("currentStep", .str "ineligible")]] :=
    ⟨rfl, rfl⟩
  cases eligible with
  | true => exact hboth.1
  | false => exact hboth.2

variable {Env S : Type} [Services Env]

lemma filter_signing :
    (blueprint : WizardNode Env).subtrees.filter (·.key == "sign-and-submit") =
      [{ atomic "sign-and-submit" with
          route := some "/form/submit/sign-and-submit"
          on := [(next, .forwardTo "finalize")] }] := rfl

variable (Env) in
/-- The part of the wizard that asks the services. -/
lemma exists_finalize : ∃ part : WizardNode Env,
    (blueprint : WizardNode Env).subtrees.filter (·.key == "finalize") = [part] ∧
      part.arrows.filter (·.1 == filedEvent) = [(filedEvent, (Arrow.goto "#next-steps").doing
        [.forget, .assign fun c e => (filed c e.data).toPatch])] ∧
      part.arrows.filter (·.1 == failedEvent) =
        [(failedEvent, (Arrow.goto "sign-and-submit").doing [.set [failureField true]])] ∧
      (part.invoke.map fun i => (⟨i.id, i.task⟩ : Invocation Context Env)) =
        some ⟨"submitApplication", fileApplication⟩ :=
  ⟨_, rfl, rfl, rfl, rfl⟩

/-- The leaf after the page asks the services. -/
lemma invoke_of_finalize {chart : Chart Context Env} (hchart : Wizard.chart = .ok chart)
    {n : Node Context Env} (hn : chart.node? Leaf.finalize = some n) :
    n.invoke = some ⟨"submitApplication", fileApplication⟩ := by
  obtain ⟨part, hpart, -, -, hinvoke⟩ := exists_finalize Env
  exact (invoke_of_part hchart hpart hn (by decide +kernel)).trans hinvoke

/-! ## What becomes of the context -/

section

variable {c : Context} (hc : c.Valid) (event : Event)

include hc

lemma outcome_failure :
    (Action.set [failureField true]).outcome event c = { c with errors := ⟨true⟩ } := by
  refine hc.outcome_set event ?_
  simp [failureField, Context.fields, Field.patched?, Field.merged, mergeValue, Dict.get?_ofList,
    List.lookup_cons, Faults.decode_encode]

lemma outcome_section (name : String) :
    (Action.set [("currentSection", .str name)]).outcome event c =
      { c with currentSection := name } := by
  refine hc.outcome_set event ?_
  simp [Context.fields, Field.patched?, Field.merged, mergeValue, Dict.get?_ofList,
    List.lookup_cons, Json.str?]

lemma outcome_step (name : String) :
    (Action.set [("currentStep", .str name)]).outcome event c = { c with currentStep := name } := by
  refine hc.outcome_set event ?_
  simp [Context.fields, Field.patched?, Field.merged, mergeValue, Dict.get?_ofList,
    List.lookup_cons, Json.str?]

end

/-- What is filed of a context, by what both services answer. -/
def filedAs (c : Context) (receipt : Receipt) (verdict : Verdict) : Filing :=
  { id := receipt.idText
    createdAt := receipt.createdDate
    updatedAt := receipt.modifiedDate
    eligible := some verdict.eligible
    applicantName := (c.household.applicant?.map (·.name.full)).getD "" }

/-- The result of the task goes into a context without answers. -/
lemma filed_ofAnswers (c : Context) (receipt : Receipt) (verdict : Verdict) :
    filed c (.record [("registration", (Filing.ofAnswers receipt verdict).encode)]) =
      { c.reset with registration := filedAs c receipt verdict } := by
  have hresult : Filing.ofResult
      (.record [("registration", (Filing.ofAnswers receipt verdict).encode)]) =
        Filing.ofAnswers receipt verdict := by
    simp [Filing.ofResult, Json.field?, Dict.get?_ofList, Filing.decode_encode]
  rw [filed, hresult, filedAs]
  cases c.household.applicant? <;> rfl

/-- The context that has only what was filed, on the page of a certain step. -/
def cleared (c : Context) (receipt : Receipt) (verdict : Verdict) (step : String) : Context :=
  { c.reset with
    registration := filedAs c receipt verdict
    currentSection := "next-steps"
    currentStep := step }

lemma isEligible_filedAs (c : Context) (receipt : Receipt) (verdict : Verdict) :
    (filedAs c receipt verdict).isEligible = verdict.eligible := by
  cases h : verdict.eligible <;> simp [filedAs, Filing.isEligible, h]

section

variable {c : Context} (hc : c.Valid) (receipt : Receipt) (verdict : Verdict)

include hc

lemma valid_cleared (step : String) : (cleared c receipt verdict step).Valid :=
  { Context.valid_fresh with disasters := hc.disasters }

lemma outcomes_filed {event : Event} (hdata : event.data =
      .record [("registration", (Filing.ofAnswers receipt verdict).encode)]) :
    Action.outcomes event ([.forget, .assign fun c e => (filed c e.data).toPatch] ++
        [.set [("currentSection", .str "next-steps")]]) c = cleared c receipt verdict "" := by
  have hfiled :
      filed c event.data = { c.reset with registration := filedAs c receipt verdict } := by
    rw [hdata, filed_ofAnswers]
  have hvalid : (filed c event.data).Valid := by
    rw [hfiled]
    exact { Context.valid_fresh with disasters := hc.disasters }
  have hforget : (Action.forget : Action Context).outcome event c = c := rfl
  have hassign : (Action.assign fun c e => (filed c e.data).toPatch).outcome event c =
      filed c event.data := hc.outcome_toPatch (f := fun c e => filed c e.data) hvalid
  simp only [Action.outcomes_append, Action.outcomes_cons, Action.outcomes_nil, hforget, hassign,
    outcome_section hvalid]
  rw [hfiled, cleared]
  rfl

end

/-! ## Sessions in the section -/

section

variable [Storage S]

/-- Whether a session shows the page where the application is signed, and can go on from there. -/
structure Signing (s : Session Context Env S) : Prop where
  page : s.leafPath = signingPage
  decoded : ∃ v, Context.decode v = some s.machine.context
  queue : s.machine.invocations.queue = []
  slot : s.slot.isSome = true
  ceiling : 5 ≤ s.settings.maxEventlessSteps

/-- The session after a failure of a service: the page is active again, with all answers and with
`errors.server` set. -/
structure Returned (s s' : Session Context Env S) : Prop where
  page : s'.leafPath = signingPage
  context : s'.machine.context = { s.machine.context with errors := ⟨true⟩ }
  slot : s'.slot = s.slot

end

/-- The session after two answers: the page of the outcome is active, and the context has only what
was filed, the preferences and the catalog. -/
structure Granted [Storage S] [WorkingStorage S] (c : Context) (receipt : Receipt)
    (verdict : Verdict) (s : Session Context Env S) : Prop where
  page : s.leafPath =
    if verdict.eligible then "form.next-steps.eligible" else "form.next-steps.ineligible"
  registration : s.machine.context.registration = filedAs c receipt verdict
  errors : s.machine.context.errors.server = false
  household : s.machine.context.household = {}
  basicInfo : s.machine.context.basicInfo = {}
  impact : s.machine.context.impact = {}
  resources : s.machine.context.resources = {}
  submit : s.machine.context.submit = {}
  config : s.machine.context.config = c.config
  disasters : s.machine.context.disasters = c.disasters
  kept : s.kept = none

section

variable [Storage S] {s : Session Context Env S} (hchart : Wizard.chart = .ok s.chart)

include hchart

omit [Storage S] in
/-- There is one page of this path. -/
lemma leaf_of_page (hpage : s.leafPath = signingPage) :
    s.machine.leaf = some Leaf.signAndSubmit ∧ s.chart.IsLeaf Leaf.signAndSubmit := by
  obtain ⟨leaf, n, hactive, hn, hpath⟩ := exists_node_of_leafPath hpage (by decide)
  have hall := of_layout hchart hn (Q := fun n i => n.path = signingPage →
    i = Leaf.signAndSubmit ∧ n.kind = .atomic) signing_layout
  obtain ⟨rfl, hkind⟩ := hall hpath
  exact ⟨hactive, n, hn, .inl hkind⟩

/-- **The event puts one task in the queue**, made from the context as it is after the event. -/
lemma Signing.exists_send (h : Signing s) {event : Event} (hevent : event.name = next) :
    ∃ enough s' token, (∀ budget, enough ≤ budget → s.send budget event = some s') ∧
      s'.chart = s.chart ∧ s'.settings = s.settings ∧ s'.slot.isSome = true ∧
      s'.chart.IsLeaf Leaf.finalize ∧ s'.machine.context.Valid ∧
      s'.machine.context = Action.forward.outcome event s.machine.context ∧
      s'.machine.Awaits Leaf.finalize "submitApplication" (fileApplication s'.machine.context)
        token := by
  obtain ⟨v, hv⟩ := h.decoded
  obtain ⟨hactive, hleaf⟩ := leaf_of_page hchart h.page
  obtain ⟨enough, final, hsend, hpassed⟩ := leads_next.exists_send hchart hactive hleaf
    filter_signing [.forward, .keep] ⟨_, rfl, rfl⟩ hevent
  obtain ⟨n, hn, -⟩ := id hpassed.passage.target
  have hcontext := hpassed.context
  rw [actionsOf_eq_layout hchart, actionsOf_next, Action.outcomes_cons, Action.outcomes_cons,
    Action.outcome_keep, Action.outcomes_nil] at hcontext
  have hinvocations := hpassed.invocations n hn
  rw [invoke_of_finalize hchart hn, Option.elim_some] at hinvocations
  have hawaits := Machine.awaits_of_start hpassed.landed (Macrostep.queue_remaining_eq_nil h.queue)
    hinvocations
  have hvalid := (Context.valid_of_decode hv).outcome event .forward
  rw [← hcontext] at hvalid
  rw [← s.rest_machine event final] at hcontext hawaits hvalid
  refine ⟨enough, s.rest event final, _, hsend, s.rest_chart event final,
    s.rest_settings event final, (s.isSome_slot_rest event final).trans h.slot, ?_, hvalid,
    hcontext, hawaits⟩
  rw [Session.rest_chart]
  exact hpassed.passage.target

/-- **A failure leads back to the page.** -/
lemma exists_returned (hactive : s.machine.leaf = some Leaf.finalize)
    (hleaf : s.chart.IsLeaf Leaf.finalize) (hvalid : s.machine.context.Valid)
    (hqueue : s.machine.invocations.queue = []) (e : TaskError) :
    ∃ enough s', (∀ budget, enough ≤ budget →
        s.send budget (Event.ofOutcome "submitApplication" (.error e)) = some s') ∧
      s'.chart = s.chart ∧ s'.settings = s.settings ∧ s'.machine.invocations.queue = [] ∧
      Returned s s' := by
  set event := Event.ofOutcome "submitApplication" (.error e)
  obtain ⟨part, hpart, -, harrow, -⟩ := exists_finalize Env
  obtain ⟨enough, final, hsend, hpassed⟩ := leads_failed.exists_send hchart hactive hleaf hpart
    [.set [failureField true]] ⟨_, harrow, rfl⟩ (e := event) rfl
  obtain ⟨n, hn, -⟩ := id hpassed.passage.target
  have hcontext := hpassed.context
  have heffects := hpassed.effects
  rw [actionsOf_eq_layout hchart, actionsOf_failed] at hcontext heffects
  rw [Action.outcomes_cons, Action.outcomes_nil, outcome_failure hvalid] at hcontext
  have hinvocations := hpassed.invocations n hn
  rw [invoke_eq_none hchart hn (by decide +kernel), Option.elim_none] at hinvocations
  refine ⟨enough, s.rest event final, hsend, s.rest_chart event final, s.rest_settings event final,
    ?_, ?_⟩
  · rw [Session.rest_machine, hinvocations, Macrostep.queue_remaining_eq_nil hqueue]
  constructor
  case page =>
    rw [leafPath_rest hchart hpassed.landed]
    decide +kernel
  case context => rw [Session.rest_machine, hcontext]
  case slot =>
    rw [Session.rest, heffects]
    rfl

omit [Storage S] in
/-- What two answers do at first: everything is dropped but what was filed, and what was kept is
forgotten. -/
lemma exists_take_filed (hleaf : s.chart.IsLeaf Leaf.finalize) (hvalid : s.machine.context.Valid)
    (hqueue : s.machine.invocations.queue = []) (receipt : Receipt) (verdict : Verdict)
    {event : Event} (hevent : event = Event.ofOutcome "submitApplication"
      (.ok (.record [("registration", (Filing.ofAnswers receipt verdict).encode)]))) :
    ∃ t target, s.chart.choose? Leaf.finalize s.machine.context event.name = some t ∧
      t.target = some target ∧ t.isInternal = false ∧ s.chart.landing target = Leaf.eligibility ∧
      s.chart.IsLeaf Leaf.eligibility ∧ ∃ between : Macrostep Context Env,
        between = Macrostep.take s.chart event { machine := s.machine }
            (s.chart.moves Leaf.finalize t) ∧
          between.machine.context = cleared s.machine.context receipt verdict "" ∧
          between.machine.invocations.queue = [] ∧ between.effects = [.forget] := by
  subst hevent
  obtain ⟨part, hpart, harrow, -, -⟩ := exists_finalize Env
  obtain ⟨t, target, ht, htarget, hinternal, hlanding, hpass, hmoves⟩ :=
    goes_filed.exists_passage hchart hleaf hpart harrow s.machine.context
  have hactions : ((Arrow.goto "#next-steps").doing
      [.forget, .assign fun c e => (filed c e.data).toPatch] : Arrow Context).actions =
        [.forget, .assign fun c e => (filed c e.data).toPatch] := rfl
  rw [hactions] at hmoves
  obtain ⟨n, hn, -⟩ := id hpass.target
  refine ⟨t, target, ht, htarget, hinternal, hlanding, hpass.target, _, rfl, ?_, ?_, ?_⟩
  · rw [Macrostep.take_outcomes, hmoves, actionsOf_eq_layout hchart, actionsOf_filed,
      outcomes_filed hvalid receipt verdict rfl]
  · rw [hmoves, Macrostep.take_passage_invocations (Blueprint.isTree_of_build hchart) hpass hn rfl,
      invoke_eq_none hchart hn (by decide +kernel), Option.elim_none,
      Macrostep.queue_remaining_eq_nil hqueue]
  · rw [Macrostep.take_effects, hmoves, actionsOf_eq_layout hchart, actionsOf_filed]
    rfl

omit [Storage S] in
/-- What happens at the decision after that: the verdict alone decides. -/
lemma exists_take_judged (hleaf : s.chart.IsLeaf Leaf.eligibility) {m : Macrostep Context Env}
    (hvalid : m.machine.context.Valid) (hqueue : m.machine.invocations.queue = []) :
    ∃ t target, s.chart.choose? Leaf.eligibility m.machine.context Event.eventless.name = some t ∧
      t.target = some target ∧ t.isInternal = false ∧
      s.chart.landing target = outcomeNode m.machine.context.registration.isEligible ∧
      ∃ final : Macrostep Context Env,
        final = m.take s.chart .eventless (s.chart.moves Leaf.eligibility t) ∧
          final.machine.leaf = some (outcomeNode m.machine.context.registration.isEligible) ∧
          final.machine.context = { m.machine.context with
            currentStep := outcomeKey m.machine.context.registration.isEligible } ∧
          final.machine.invocations.queue = [] ∧ final.effects = m.effects := by
  obtain ⟨t, ht, hnothing, hpasses⟩ := exists_judged m.machine.context
  obtain ⟨-, hidle, -⟩ := outcome_layout m.machine.context.registration.isEligible
  rw [Chart.choose?_eq, ← declared_eq_layout hchart, ← Chart.choose?_eq] at ht
  obtain ⟨i, k, hk, hmem⟩ := Chart.mem_on_of_choose? ht
  obtain ⟨target, htarget⟩ := Option.isSome_iff_exists.1 hpasses.target
  obtain ⟨hlanding, hpass, hmoves⟩ := hpasses.passage hchart hleaf hk hmem htarget
  rw [hnothing] at hmoves
  obtain ⟨n, hn, -⟩ := id hpass.target
  refine ⟨t, target, ht, htarget, hpasses.external, hlanding, _, rfl, ?_, ?_, ?_, ?_⟩
  · rw [hmoves, Macrostep.take_passage_leaf hn]
  · rw [Macrostep.take_outcomes, hmoves, actionsOf_eq_layout hchart, actionsOf_judged,
      Action.outcomes_cons, Action.outcomes_nil, outcome_step hvalid]
  · rw [hmoves, Macrostep.take_passage_invocations (Blueprint.isTree_of_build hchart) hpass hn rfl,
      invoke_eq_none hchart hn hidle, Option.elim_none, Macrostep.queue_remaining_eq_nil hqueue]
  · rw [Macrostep.take_effects, hmoves, actionsOf_eq_layout hchart, actionsOf_judged]
    exact List.append_nil _

/-- **Two answers lead to the page of the outcome.** -/
lemma exists_granted [WorkingStorage S] (hactive : s.machine.leaf = some Leaf.finalize)
    (hleaf : s.chart.IsLeaf Leaf.finalize) (hvalid : s.machine.context.Valid)
    (hqueue : s.machine.invocations.queue = []) (hslot : s.slot.isSome = true)
    (hceiling : 5 ≤ s.settings.maxEventlessSteps) (receipt : Receipt) (verdict : Verdict) :
    ∃ enough s', (∀ budget, enough ≤ budget →
        s.send budget (Event.ofOutcome "submitApplication" (.ok
          (.record [("registration", (Filing.ofAnswers receipt verdict).encode)]))) = some s') ∧
      s'.machine.invocations.queue = [] ∧ Granted s.machine.context receipt verdict s' := by
  set event := Event.ofOutcome "submitApplication"
    (.ok (.record [("registration", (Filing.ofAnswers receipt verdict).encode)])) with hevent
  obtain ⟨t, target, ht, htarget, hinternal, hlanding, hleaf', between, hbetween, hcleared, hqueue',
    hforgotten⟩ := exists_take_filed hchart hleaf hvalid hqueue receipt verdict hevent
  have hvalid' : between.machine.context.Valid := by
    rw [hcleared]
    exact valid_cleared hvalid receipt verdict ""
  have heligible : between.machine.context.registration.isEligible = verdict.eligible := by
    rw [hcleared]
    exact isEligible_filedAs _ receipt verdict
  obtain ⟨t', target', ht', htarget', hinternal', hlanding', last, hlast, hshown, hcontext,
    hqueue'', hsame⟩ := exists_take_judged hchart hleaf' hvalid' hqueue'
  rw [heligible] at hlanding' hshown hcontext
  obtain ⟨hpath, -, hrests⟩ := outcome_layout verdict.eligible
  rw [← hlanding] at ht' hlast
  obtain ⟨enough, final, hsend, hmachine, heffects⟩ := Session.exists_send_through
    (settlesWithin hchart) hactive hleaf (by omega) ht htarget hinternal hbetween ht' htarget'
    hinternal' hlast (by rw [hlanding', declared_eq_layout hchart, hrests])
  rw [← hmachine] at hshown hcontext hqueue''
  have hkept : (s.rest event final).kept = none := by
    rw [Session.kept_rest hslot, heffects, hsame, hforgotten]
    rfl
  have hpage := leafPath_rest hchart hshown event
  rw [hpath] at hpage
  rw [hcleared, ← s.rest_machine event final] at hcontext
  refine ⟨enough, s.rest event final, hsend, by rw [Session.rest_machine, hqueue''], ?_⟩
  constructor
  case page => exact hpage
  case kept => exact hkept
  all_goals rw [hcontext]; rfl

end

/-! ## What the services decide -/

section

variable [Storage S] [WorkingStorage S]

/-- What an application comes to, by the answers of the services, from the session that waits for
them: what they were asked, and the session in the end. -/
def Decided (o : Overheard Env) (s s' : Session Context (Overheard Env) S) (o' : Overheard Env) :
    Prop :=
  match Services.file o.env s.machine.context with
  | (.error _, env) => o' = ⟨env, o.asked ++ [.filing s.machine.context]⟩ ∧ Returned s s'
  | (.ok receipt, env) =>
    match Services.judge env receipt.filedData with
    | (.error _, env) =>
      o' = ⟨env, o.asked ++ [.filing s.machine.context, .judgement receipt.filedData]⟩ ∧
        Returned s s'
    | (.ok verdict, env) =>
      o' = ⟨env, o.asked ++ [.filing s.machine.context, .judgement receipt.filedData]⟩ ∧
        Granted s.machine.context receipt verdict s'

lemma file_overheard (o : Overheard Env) (c : Context) : Services.file o c =
    ((Services.file o.env c).1, ⟨(Services.file o.env c).2, o.asked ++ [.filing c]⟩) := rfl

lemma judge_overheard (o : Overheard Env) (data : Json) : Services.judge o data =
    ((Services.judge o.env data).1,
      ⟨(Services.judge o.env data).2, o.asked ++ [.judgement data]⟩) := rfl

variable {s s' : Session Context (Overheard Env) S} {o o' : Overheard Env}

/-- What is decided if the filing fails: it is the only request. -/
lemma Decided.of_error (h : Decided o s s' o') {e : ServiceError}
    (hfile : (Services.file o.env s.machine.context).1 = .error e) :
    o'.asked = o.asked ++ [.filing s.machine.context] ∧ Returned s s' := by
  rcases hanswer : Services.file o.env s.machine.context with ⟨answer, env⟩
  rw [hanswer] at hfile
  cases hfile
  simp only [Decided, hanswer] at h
  exact ⟨by rw [h.1], h.2⟩

/-- What is decided if both services answer: both requests are made. -/
lemma Decided.of_ok (h : Decided o s s' o') {receipt : Receipt} {verdict : Verdict}
    (hfile : (Services.file o.env s.machine.context).1 = .ok receipt)
    (hjudge : (Services.judge (Services.file o.env s.machine.context).2 receipt.filedData).1 =
      .ok verdict) :
    o'.asked = o.asked ++ [.filing s.machine.context, .judgement receipt.filedData] ∧
      Granted s.machine.context receipt verdict s' := by
  rcases hanswer : Services.file o.env s.machine.context with ⟨answer, env⟩
  rw [hanswer] at hfile hjudge
  cases hfile
  rcases hanswer' : Services.judge env receipt.filedData with ⟨answer, env'⟩
  rw [hanswer'] at hjudge
  cases hjudge
  simp only [Decided, hanswer, hanswer'] at h
  exact ⟨by rw [h.1], h.2⟩

/-- The first request is always the filing. -/
lemma Decided.exists_asked (h : Decided o s s' o') :
    ∃ more, o'.asked = o.asked ++ .filing s.machine.context :: more := by
  unfold Decided at h
  split at h
  next => exact ⟨[], by rw [h.1]⟩
  next receipt env _ =>
      split at h
      next => exact ⟨[.judgement receipt.filedData], by rw [h.1]⟩
      next => exact ⟨[.judgement receipt.filedData], by rw [h.1]⟩

section

variable (hchart : Wizard.chart = .ok s.chart) {token : Token}
  (h : s.machine.Awaits Leaf.finalize "submitApplication" (fileApplication s.machine.context) token)
  (hleaf : s.chart.IsLeaf Leaf.finalize) (hvalid : s.machine.context.Valid)
  (hslot : s.slot.isSome = true) (hceiling : 5 ≤ s.settings.maxEventlessSteps)

include hchart h hleaf hvalid hslot hceiling

omit [WorkingStorage S] in
/-- A task that fails leads back to the page, from which one can go on. -/
lemma exists_drive_failed {e : TaskError}
    (htask : fileApplication s.machine.context o = (.error e, o')) :
    ∃ enough s', (∀ budget rounds, enough ≤ budget → 2 ≤ rounds →
        s.runPending budget rounds o = some (s', o')) ∧
      Returned s s' ∧ s'.chart = s.chart ∧ Signing s' := by
  obtain ⟨enough, s', hsend, hchart', hsettings, hqueue, hpage, hcontext, hslot'⟩ :=
    exists_returned (s := s.answered Leaf.finalize) hchart h.leaf hleaf hvalid rfl e
  have hvalid' : s'.machine.context.Valid := by
    rw [hcontext]
    exact { hvalid with }
  refine ⟨enough, s', fun budget rounds hbudget hrounds =>
    Session.runPending_of_awaits h htask (hsend budget hbudget) hqueue hrounds,
    ⟨hpage, hcontext, hslot'⟩, hchart', hpage, ⟨_, Context.decode_encode hvalid'⟩, hqueue, ?_, ?_⟩
  · rw [hslot']
    exact hslot
  · rw [hsettings]
    exact hceiling

/-- **The task in the queue asks the services in turn**, and the session after it is decided by
their answers. -/
lemma exists_decided (o : Overheard Env) :
    ∃ enough s' o', (∀ budget rounds, enough ≤ budget → 2 ≤ rounds →
        s.runPending budget rounds o = some (s', o')) ∧
      Decided o s s' o' ∧ (s'.leafPath = signingPage → s'.chart = s.chart ∧ Signing s') := by
  unfold Decided
  have hasked : ∀ data, o.asked ++ [.filing s.machine.context] ++ [Question.judgement data] =
      o.asked ++ [.filing s.machine.context, .judgement data] := fun _ => List.append_assoc _ _ _
  rcases hfile : Services.file o.env s.machine.context with ⟨e | receipt, env⟩
  · have htask : fileApplication s.machine.context o =
        (.error e.toTaskError, ⟨env, o.asked ++ [.filing s.machine.context]⟩) := by
      simp only [fileApplication, file_overheard, hfile]
    obtain ⟨enough, s', hrun, hreturned, hready⟩ :=
      exists_drive_failed hchart h hleaf hvalid hslot hceiling htask
    exact ⟨enough, s', _, hrun, ⟨rfl, hreturned⟩, fun _ => hready⟩
  rcases hjudge : Services.judge env receipt.filedData with ⟨e | verdict, env'⟩
  · have htask : fileApplication s.machine.context o = (.error e.toTaskError,
        ⟨env', o.asked ++ [.filing s.machine.context, .judgement receipt.filedData]⟩) := by
      simp only [fileApplication, file_overheard, hfile, judge_overheard, hjudge, hasked]
    obtain ⟨enough, s', hrun, hreturned, hready⟩ :=
      exists_drive_failed hchart h hleaf hvalid hslot hceiling htask
    refine ⟨enough, s', _, hrun, ?_, fun _ => hready⟩
    simp only [hjudge]
    exact ⟨trivial, hreturned⟩
  · have htask : fileApplication s.machine.context o =
        (.ok (.record [("registration", (Filing.ofAnswers receipt verdict).encode)]),
          ⟨env', o.asked ++ [.filing s.machine.context, .judgement receipt.filedData]⟩) := by
      simp only [fileApplication, file_overheard, hfile, judge_overheard, hjudge, hasked]
    obtain ⟨enough, s', hsend, hqueue, hgranted⟩ := exists_granted
      (s := s.answered Leaf.finalize) hchart h.leaf hleaf hvalid rfl hslot hceiling receipt verdict
    refine ⟨enough, s', _, fun budget rounds hbudget hrounds =>
      Session.runPending_of_awaits h htask (hsend budget hbudget) hqueue hrounds, ?_,
      fun hpage => ?_⟩
    · simp only [hjudge]
      exact ⟨trivial, hgranted⟩
    · rw [hgranted.page] at hpage
      cases hverdict : verdict.eligible <;> rw [hverdict] at hpage <;>
        exact absurd hpage (by decide)

end

/-- An event that is driven is sent first, and then the task in the queue is run. -/
lemma Signing.exists_driveSend (hchart : Wizard.chart = .ok s.chart) (h : Signing s) {event : Event}
    (hevent : event.name = next) (o : Overheard Env) :
    ∃ enough s₁ s' o',
      (∀ budget, enough ≤ budget → s.send budget event = some s₁) ∧
      (∀ budget rounds, enough ≤ budget → 2 ≤ rounds →
        s.driveSend budget rounds event o = some (s', o')) ∧
      s₁.machine.context = Action.forward.outcome event s.machine.context ∧
      Decided o s₁ s' o' ∧ (s'.leafPath = signingPage → s'.chart = s.chart ∧ Signing s') := by
  obtain ⟨enough, s₁, token, hsend, hchart₁, hsettings, hslot, hleaf, hvalid, hcontext, hawaits⟩ :=
    h.exists_send hchart hevent
  have hceiling : 5 ≤ s₁.settings.maxEventlessSteps := by
    rw [hsettings]
    exact h.ceiling
  rw [← hchart₁] at hchart
  obtain ⟨enough', s', o', hrun, hdecided, hready⟩ :=
    exists_decided hchart hawaits hleaf hvalid hslot hceiling o
  rw [hchart₁] at hready
  refine ⟨max enough enough', s₁, s', o', fun budget hbudget =>
    hsend budget (le_trans (le_max_left _ _) hbudget), fun budget rounds hbudget hrounds => ?_,
    hcontext, hdecided, hready⟩
  rw [Session.driveSend, hsend budget (le_trans (le_max_left _ _) hbudget)]
  exact hrun budget rounds (le_trans (le_max_right _ _) hbudget) hrounds

/-- **Applications are decided by the services.**  Take a session that shows the page where the
application is signed, and an event that goes on.

* The services are asked in turn, first to file the context as it is after the event.  Eligibility
  is asked about only if that succeeds, with the data that the filing was answered with.
* If either fails, the page is active again.  Since the event nothing but `errors.server` has
  changed, and the slot holds what the event has left there.  Another event asks for the filing
  again, with the context as it is then.
* If both answer, the page of the outcome is active.  The context has only what was filed, the
  preferences and the catalog, and the slot is empty. -/
theorem applications_are_decided {s : Session Context (Overheard Env) S}
    (hchart : Wizard.chart = .ok s.chart) (h : Signing s) (event : Event)
    (hevent : event.name = next) (o : Overheard Env) :
    ∃ enough s₁ s' o',
      (∀ budget, enough ≤ budget → s.send budget event = some s₁) ∧
      (∀ budget rounds, enough ≤ budget → 2 ≤ rounds →
        s.driveSend budget rounds event o = some (s', o')) ∧
      s₁.machine.context = Action.forward.outcome event s.machine.context ∧
      Decided o s₁ s' o' ∧
      (s'.leafPath = signingPage → ∀ (event' : Event) (o₁ : Overheard Env), event'.name = next →
        ∃ enough s'' o'' more, (∀ budget rounds, enough ≤ budget → 2 ≤ rounds →
            s'.driveSend budget rounds event' o₁ = some (s'', o'')) ∧
          o''.asked =
            o₁.asked ++ .filing (Action.forward.outcome event' s'.machine.context) :: more) := by
  obtain ⟨enough, s₁, s', o', hsend, hdrive, hcontext, hdecided, hready⟩ :=
    h.exists_driveSend hchart hevent o
  refine ⟨enough, s₁, s', o', hsend, hdrive, hcontext, hdecided, ?_⟩
  intro hpage event' o₁ hevent'
  obtain ⟨hchart', h'⟩ := hready hpage
  rw [← hchart'] at hchart
  obtain ⟨enough', s₂, s'', o'', -, hdrive', hcontext', hdecided', -⟩ :=
    h'.exists_driveSend hchart hevent' o₁
  obtain ⟨more, hasked⟩ := hdecided'.exists_asked
  rw [hcontext'] at hasked
  exact ⟨enough', s'', o'', more, hdrive', hasked⟩

end

/-! ## Two answers and a failure -/

/-- A session at `form.submit.sign-and-submit` with one member, over services whose requests are
recorded. -/
def signing : Session Context (Overheard Script) Memory :=
  { session blueprint.outline.chart {} {} fun _ => none with
    machine := {
      context := { household := {
        members := [{ name := { first := "Ada", last := "Lovelace" } }] } }
      leaf := some Leaf.signAndSubmit } }

lemma signing_chart :
    (chart : Except (List Defect) (Chart Context (Overheard Script))) = .ok signing.chart :=
  Blueprint.build_of_defects_eq_nil (by decide +kernel)

/-- Services of which the first fails. -/
def failing : Script := { create := [.error (.http 500 "boom")] }

/-- Services that both answer. -/
def answering : Script :=
  { create := [.ok (.record [("id", .nat 42), ("created_date", .str "2019-03-08"),
      ("modified_date", .str "2019-03-09"), ("original_data", .null)])]
    eligibility := [.ok (.record [("eligible", .bool true)])] }

lemma file_failing (c : Context) : (Services.file failing c).1 = .error (.http 500 "boom") := rfl

lemma file_answering (c : Context) :
    (Services.file answering c).1 = .ok ⟨.nat 42, "2019-03-08", "2019-03-09", .null⟩ := rfl

lemma judge_answering (c : Context) :
    (Services.judge (Services.file answering c).2 .null).1 = .ok ⟨true⟩ := rfl

lemma signing_ready : Signing signing where
  page := by decide +kernel
  decoded := ⟨signing.machine.context.encode, by decide +kernel⟩
  queue := rfl
  slot := rfl
  ceiling := by decide

/-- The first service fails, or both answer. -/
theorem applications_are_decided_signing :
    (∃ enough s₁ s' o', signing.driveSend enough 2 { name := next } ⟨failing, []⟩ = some (s', o') ∧
      o'.asked = [.filing signing.machine.context] ∧ Returned s₁ s') ∧
    ∃ enough s' o', signing.driveSend enough 2 { name := next } ⟨answering, []⟩ = some (s', o') ∧
      o'.asked = [.filing signing.machine.context, .judgement .null] ∧
      s'.leafPath = "form.next-steps.eligible" ∧ s'.machine.context.registration =
        { id := "42", createdAt := "2019-03-08", updatedAt := "2019-03-09", eligible := some true
          applicantName := "Ada Lovelace" } := by
  have hforward : Action.forward.outcome { name := next } signing.machine.context =
      signing.machine.context := by
    decide +kernel
  constructor
  · obtain ⟨enough, s₁, s', o', -, hdrive, hcontext, hdecided, -⟩ := applications_are_decided
      signing_chart signing_ready { name := next } rfl ⟨failing, []⟩
    obtain ⟨hasked, hreturned⟩ := hdecided.of_error (file_failing _)
    rw [hcontext, hforward] at hasked
    exact ⟨enough, s₁, s', o', hdrive _ _ le_rfl le_rfl, hasked, hreturned⟩
  · obtain ⟨enough, s₁, s', o', -, hdrive, hcontext, hdecided, -⟩ := applications_are_decided
      signing_chart signing_ready { name := next } rfl ⟨answering, []⟩
    obtain ⟨hasked, hgranted⟩ := hdecided.of_ok (file_answering _) (judge_answering _)
    rw [hcontext, hforward] at hasked hgranted
    exact ⟨enough, s', o', hdrive _ _ le_rfl le_rfl, hasked, hgranted.page,
      hgranted.registration.trans (by decide +kernel)⟩

end Wizard

end FormChart.Registration
