import FormChart.Proofs.Session.Ceiling
import FormChart.Proofs.Registration.Routes

/-!
# The area of the page that is shown

A field of the context says whether the page that is shown belongs to the form (`Context.area`).
The form fills it when it is entered and empties it when it is left, and no page touches it in
between.  But there are three transitions in the form that write a whole new context on their way,
in which the field is empty.  Two of them leave the form anyway.  The third one takes the report
that the application was filed, and **stays in the form**: from there on the field is empty, until
the form is entered again (`Wizard.area_of_run`).

What a plan leaves in the field is what the last of its actions writes that writes it at all
(`Wizard.lastStamp?`).  So the field is settled by one computation over the plans of the layout
(`Wizard.bordered_layout`), and the rest is about one record of the history after the other.
-/

namespace FormChart.Registration

/-! ## The field -/

namespace Context

variable {c : Context}

lemma shown_area : c.shown "prefix" = some (.str c.area) := by
  simp [shown, toPatch, encode, Dict.get?_ofList, List.lookup_cons]

/-- The area after a patch that fits. -/
lemma Valid.area_of_apply (h : c.Valid) {c' : Context} {patch : Patch} {mode : MergeMode}
    (happly : FormChart.apply c patch mode = .ok c') :
    Json.str c'.area = (patch.get? "prefix").getD (.str c.area) := by
  have hread := (h.apply_eq_ok_iff.1 happly).area
  have hshown : c.toPatch.get? "prefix" = some (.str c.area) := shown_area
  rw [Object.fieldOr, get?_merge, hshown] at hread
  cases hnew : patch.get? "prefix" with
  | none =>
      rw [hnew] at hread
      exact congrArg Json.str (Option.some.inj hread).symm
  | some v =>
      -- a text is replaced in either mode
      have hmerge : mergeValue mode (some (.str c.area)) v = v := by cases mode <;> rfl
      simp only [hnew, hmerge] at hread
      exact (Json.eq_str_of_str? hread).symm

lemma Valid.reset (h : c.Valid) : c.reset.Valid := { valid_fresh with disasters := h.disasters }

end Context

namespace Wizard

/-- What an action writes into the area, if it writes it at all. -/
def stamp? (a : Action Context) : Option Json := (probe a).get? "prefix"

/-- What the last one of some actions writes into the area, of those that write it. -/
def lastStamp? (actions : List (Action Context)) : Option Json := actions.reverse.findSome? stamp?

lemma lastStamp?_cons (a : Action Context) (rest : List (Action Context)) :
    lastStamp? (a :: rest) = (lastStamp? rest).or (stamp? a) := by
  simp [lastStamp?]

/-- Whether an event brings no area. -/
def Placeless (event : Event) : Prop := Object.Avoids event.payload ["prefix"]

/-- Whether an action writes what is seen of it into the area, and nothing else.  If it forwards an
event, that may bring no area. -/
def Stamps (a : Action Context) : Prop :=
  ∀ (event : Event) (c : Context), c.Valid → (forwards a = true → Placeless event) →
    Json.str (a.outcome event c).area = (stamp? a).getD (.str c.area)

/-- What a patch with a fixed area writes there. -/
lemma stamps_assign {patch : Context → Event → Patch} {remarks : Context → Event → List Notice}
    {stamp : Option Json} (hstamp : ∀ c event, (patch c event).get? "prefix" = stamp)
    (hfits : stamp = none ∨ ∀ c event, c.Valid → Context.Fits (patch c event)) :
    Stamps (.assign patch remarks) := by
  intro event c hc _
  have hprobe : stamp? (.assign patch remarks) = stamp := hstamp {} .init
  rw [hprobe, Action.outcome]
  cases happly : apply c (patch c event) .replace with
  | ok next =>
      rw [← hstamp c event]
      exact hc.area_of_apply happly
  | error cause =>
      rcases hfits with rfl | hfits
      · rfl
      · obtain ⟨next, hnext⟩ := hc.exists_apply_replace (hfits c event hc)
        rw [happly] at hnext
        cases hnext

/-- Fields of other names. -/
lemma stamps_fields {fields : Context → Event → List (String × Json)}
    {remarks : Context → Event → List Notice}
    (h : ∀ c event, ∀ e ∈ fields c event, e.1 ≠ "prefix") :
    Stamps (.assign (fun c event => Dict.ofList (fields c event)) remarks) := by
  refine stamps_assign (fun c event => ?_) (.inl rfl)
  rw [Dict.get?_ofList, List.lookup_eq_none_iff]
  intro e he
  simpa using (h c event e (List.mem_reverse.1 he)).symm

/-- A whole new context without an area. -/
lemma stamps_whole {f : Context → Event → Context} (harea : ∀ c event, (f c event).area = "")
    (hvalid : ∀ c event, c.Valid → (f c event).Valid) :
    Stamps (.assign fun c event => (f c event).toPatch) := by
  have hstamp : ∀ c event, (f c event).toPatch.get? "prefix" = some (.str "") := fun c event =>
    Context.shown_area.trans (by rw [harea])
  refine stamps_assign hstamp (.inr fun c event hc => ?_)
  rw [Context.Fits, Context.ofObject_toPatch, Context.decode_encode (hvalid c event hc)]
  rfl

@[simp] lemma stamps_set {fields : List (String × Json)} (h : ∀ e ∈ fields, e.1 ≠ "prefix") :
    Stamps (.set fields) := stamps_fields fun _ _ => h

@[simp] lemma stamps_fill : Stamps (.set [("prefix", .str "form")]) :=
  stamps_assign (fun _ _ => rfl) (.inr fun _ _ _ => by decide +kernel)

@[simp] lemma stamps_empty : Stamps (.set [("prefix", .str "")]) :=
  stamps_assign (fun _ _ => rfl) (.inr fun _ _ _ => by decide +kernel)

@[simp] lemma stamps_setHousehold (f : Context → Household) : Stamps (setHousehold f) :=
  stamps_fields (by simp)

@[simp] lemma stamps_setResources (f : Resources → Resources) : Stamps (setResources f) :=
  stamps_fields (by simp)

@[simp] lemma stamps_storeCatalog : Stamps storeCatalog :=
  stamps_fields (by simp [loadingField, failureField])

@[simp] lemma stamps_startOver : Stamps startOver :=
  stamps_whole (fun _ _ => rfl) fun _ _ hc => hc.reset

@[simp] lemma stamps_filed : Stamps (.assign fun c e => (filed c e.data).toPatch) :=
  stamps_whole (fun _ _ => rfl) fun _ _ hc =>
    { Context.valid_fresh with disasters := hc.disasters }

@[simp] lemma stamps_forward : Stamps .forward := by
  intro event c hc hclear
  rw [Action.outcome]
  cases happly : apply c event.payload .shallow with
  | ok next =>
      have harea := hc.area_of_apply happly
      rw [hclear rfl "prefix" (List.mem_singleton_self _)] at harea
      exact harea
  | error cause => rfl

@[simp] lemma stamps_effect (e : Effect) : Stamps (.effect e) := fun _ _ _ _ => rfl

@[simp] lemma stamps_keep : Stamps .keep := stamps_effect _

@[simp] lemma stamps_forget : Stamps .forget := stamps_effect _

@[simp] lemma stamps_log (message : String) : Stamps (.log message) := stamps_effect _

/-- **What several actions leave in the area** is the last thing they write there. -/
lemma area_outcomes {actions : List (Action Context)} {event : Event} {c : Context}
    (hactions : ∀ a ∈ actions, Stamps a ∧ (forwards a = true → Placeless event)) (hc : c.Valid) :
    Json.str (Action.outcomes event actions c).area =
      (lastStamp? actions).getD (.str c.area) := by
  induction actions generalizing c with
  | nil => rfl
  | cons a rest ih =>
      obtain ⟨⟨hstamps, hclear⟩, hrest⟩ := List.forall_mem_cons.1 hactions
      rw [Action.outcomes_cons, ih hrest (hc.outcome event a), hstamps event c hc hclear,
        lastStamp?_cons, Option.getD_or]

/-- **Every action of the wizard** writes what is seen of it. -/
lemma stamps_blueprint {Env : Type} [Services Env] :
    (blueprint : WizardNode Env).Everywhere fun b => ∀ a ∈ b.actions, Stamps a := by
  simp [blueprint, welcome, form, preRegistration, getPrepared, basicInfo, identity, household,
    impact, resources, review, submit, nextSteps, quitting, outcome, sectionNode, compound, page,
    pageTo, decision, entering, atomic, Arrow.goto, Arrow.gotoIf, Arrow.doing, Arrow.forwardTo,
    missCatalog, setMember, setHolder, changeHolder, setJob, ensureJob, backOneJob, loadingField,
    failureField, Blueprint.everywhere_mk, Blueprint.forall_actions_iff, -Prod.forall]

/-! ## The border of the form -/

/-- Whether a path leads into the form. -/
def inForm (path : String) : Bool := (segments path.toList).head? == some "form"

/-- Whether the application was filed since the form was entered. -/
def isFiled (visits : List Visit) : Bool :=
  visits.foldl (fun filed v => inForm v.target && (filed || v.event == filedEvent)) false

/-- The area at a path, by whether the application was filed. -/
def areaAt (path : String) (filed : Bool) : String := if inForm path && !filed then "form" else ""

/-- What is written into the area on the way from one path to another.  Filing the application
empties it; otherwise it changes at the border of the form only. -/
def stampBetween (event source target : String) : Option Json :=
  if event = filedEvent then some (.str "")
  else if inForm source = inForm target then none
  else some (.str (areaAt target false))

/-- So the area stays right. -/
lemma stampBetween_getD {event source target : String} {filed : Bool}
    (hfiled : filed = true → inForm source = true) :
    (stampBetween event source target).getD (.str (areaAt source filed)) =
      .str (areaAt target (inForm target && (filed || event == filedEvent))) := by
  unfold stampBetween areaAt
  by_cases hfiling : event = filedEvent
  · cases inForm target <;> simp [hfiling]
  · cases hsource : inForm source <;> cases htarget : inForm target <;> cases filed <;>
      simp_all

/-- What is known of the area on the way of a transition from a leaf. -/
@[mk_iff]
structure Crosses (leaf : NodeId) (event : String) (t : Transition Context) : Prop where
  stamp : ∀ target ∈ t.target, lastStamp? (layout.actionsOf (layout.moves leaf t)) =
    stampBetween event (layout.pathOf leaf) (layout.pathOf (layout.landing target))
  answers : ∀ a ∈ layout.actionsOf (layout.moves leaf t), forwards a = true → event ∈ answerNames

instance (leaf : NodeId) (event : String) (t : Transition Context) :
    Decidable (Crosses leaf event t) := decidable_of_iff' _ (crosses_iff leaf event t)

/-- What is known of the area by the place of a node in the layout. -/
@[mk_iff]
structure Bordered (n : Node Context Unit) (i : NodeId) : Prop where
  /-- The first entry comes from outside of the form. -/
  first : lastStamp? (layout.actionsOf (layout.firstMoves i)) =
    stampBetween Event.init.name "" (layout.pathOf (layout.landing i))
  on : n.kind = .atomic ∨ n.kind = .final → ∀ j ∈ layout.lineage i, ∀ k ∈ layout.node? j,
    ∀ e ∈ k.on, Crosses i e.1 e.2
  /-- The form is active in the leaves that it lies above. -/
  active : (((layout.lineage i).takeWhile (· != Chart.root)).map layout.pathOf).contains "form" =
    inForm (layout.pathOf i)

instance (n : Node Context Unit) (i : NodeId) : Decidable (Bordered n i) :=
  decidable_of_iff' _ (bordered_iff n i)

lemma bordered_layout : ∀ e ∈ layout.nodes.zipIdx, Bordered e.1 e.2 := by
  decide +kernel

section

variable {Env S : Type} [Services Env] {chart : Chart Context Env}
  (hchart : Wizard.chart = .ok chart) {i : NodeId} {n : Node Context Env}
  (hn : chart.node? i = some n)

include hchart hn

lemma bordered : Bordered n.withoutTask i := of_layout hchart hn bordered_layout

lemma stamps_of_node : ∀ a ∈ n.actions, Stamps a := by
  obtain ⟨m, rfl, hm, -⟩ := exists_part hchart hn
  rw [Outline.actions_node]
  exact stamps_blueprint _ hm

lemma lastStamp?_firstMoves : lastStamp? (chart.actionsOf (chart.firstMoves i)) =
    stampBetween Event.init.name "" (chart.pathOf (chart.landing i)) := by
  have h := (bordered hchart hn).first
  rwa [← withoutTasks_eq_layout hchart, Chart.firstMoves_withoutTasks,
    Chart.actionsOf_withoutTasks, Chart.landing_withoutTasks, Chart.pathOf_withoutTasks] at h

/-- A transition that is chosen in a leaf. -/
lemma crosses (hkind : n.kind = .atomic ∨ n.kind = .final) {context : Context} {event : String}
    {t : Transition Context} (ht : chart.choose? i context event = some t) :
    (∀ target, t.target = some target → lastStamp? (chart.actionsOf (chart.moves i t)) =
      stampBetween event (chart.pathOf i) (chart.pathOf (chart.landing target))) ∧
    ∀ a ∈ chart.actionsOf (chart.moves i t), forwards a = true → event ∈ answerNames := by
  obtain ⟨j, k, place, htaken⟩ := Chart.exists_takenAt ht
  have hlayout := withoutTasks_eq_layout hchart
  have hmem : j ∈ layout.lineage i := by
    rw [← hlayout, Chart.lineage_withoutTasks]
    exact htaken.above
  have hnode : layout.node? j = some k.withoutTask := by
    rw [← hlayout, Chart.node?_withoutTasks, htaken.node, Option.map_some]
  obtain ⟨hstamp, hanswers⟩ := (bordered hchart hn).on hkind j hmem _ hnode (event, t)
    (List.mem_of_getElem? htaken.position)
  simp only [← hlayout, Chart.moves_withoutTasks, Chart.actionsOf_withoutTasks,
    Chart.landing_withoutTasks, Chart.pathOf_withoutTasks] at hstamp hanswers
  exact ⟨hstamp, hanswers⟩

/-- The form is active in the leaves whose paths lead into it. -/
lemma isIn_form :
    (((chart.lineage i).takeWhile (· != Chart.root)).map chart.pathOf).contains "form" =
      inForm (chart.pathOf i) := by
  have h := (bordered hchart hn).active
  have hpath : layout.pathOf = chart.pathOf := by
    funext j
    rw [← withoutTasks_eq_layout hchart, Chart.pathOf_withoutTasks]
  rwa [hpath, ← withoutTasks_eq_layout hchart, Chart.lineage_withoutTasks] at h

end

/-! ## One step -/

variable {Env S : Type}

/-- Whether the area is right for the active leaf and the history. -/
structure InArea (chart : Chart Context Env) (machine : Machine Context Env) : Prop where
  valid : machine.context.Valid
  leaf : ∀ leaf, machine.leaf = some leaf → chart.IsLeaf leaf
  filed : isFiled machine.history.visits = true → inForm (machine.leafPath chart) = true
  area : machine.context.area = areaAt (machine.leafPath chart) (isFiled machine.history.visits)

section

variable {chart : Chart Context Env}

/-- **A plan keeps the area right** if it writes what has to be written on its way. -/
lemma inArea_take {m : Macrostep Context Env} {event : Event} {plan : List (Move Context)}
    {landing : NodeId} (h : InArea chart m.machine)
    (hplan : ∀ a ∈ chart.actionsOf plan, Stamps a ∧ (forwards a = true → Placeless event))
    (hlanding : (m.take chart event plan).machine.leaf = some landing)
    (hleaf : chart.IsLeaf landing)
    (hstamp : lastStamp? (chart.actionsOf plan) =
      stampBetween event.name (m.machine.leafPath chart) (chart.pathOf landing)) :
    InArea chart (m.take chart event plan).machine := by
  have hpath : (m.take chart event plan).machine.leafPath chart = chart.pathOf landing := by
    rw [Machine.leafPath, hlanding]
    rfl
  have hfiled : isFiled (m.take chart event plan).machine.history.visits =
      (inForm (chart.pathOf landing) &&
        (isFiled m.machine.history.visits || event.name == filedEvent)) := by
    rw [Macrostep.take_visits, isFiled, List.foldl_concat, hpath]
    rfl
  constructor
  case valid =>
    rw [Macrostep.take_outcomes]
    exact h.valid.outcomes event _
  case leaf =>
    intro leaf hactive
    rw [hlanding] at hactive
    cases hactive
    exact hleaf
  case filed =>
    rw [hfiled, hpath]
    exact fun hboth => (Bool.and_eq_true_iff.1 hboth).1
  case area =>
    have harea : Json.str (m.take chart event plan).machine.context.area =
        (stampBetween event.name (m.machine.leafPath chart) (chart.pathOf landing)).getD
          (.str m.machine.context.area) := by
      rw [Macrostep.take_outcomes, area_outcomes hplan h.valid, hstamp]
    rw [h.area, stampBetween_getD h.filed, ← hfiled, ← hpath] at harea
    exact Json.str.inj harea

/-- Whether an event is no answer or brings no area. -/
def HearsNoArea (event : Event) : Prop := Placeless event ∨ event.name ∉ answerNames

/-- **The area is kept right** by every step. -/
lemma maintains_inArea [Services Env] (hchart : Wizard.chart = .ok chart) :
    chart.Maintains HearsNoArea (InArea chart) := by
  have htree := Blueprint.isTree_of_build hchart
  constructor
  case entry =>
    intro machine target n h hnew hn
    obtain ⟨l, hl, hkind⟩ := htree.isLeaf_landing hn
    obtain ⟨down, -, hfirst⟩ := htree.firstMoves_eq hn
    have hpath : machine.leafPath chart = "" := by
      rw [Machine.leafPath, hnew]
      rfl
    refine inArea_take (m := { machine }) h (fun a ha => ⟨?_, fun _ => Object.avoids_empty _⟩) ?_
      ⟨l, hl, hkind⟩ ?_
    · rcases chart.mem_actionsOf ha with ⟨actions, hmem, -⟩ | ⟨i, q, hq, ha⟩
      · simp [Chart.firstMoves] at hmem
      · exact stamps_of_node hchart hq a ha
    · rw [hfirst, Macrostep.take_leaf, Macrostep.foldl_entry_leaf hl]
    · rw [hpath]
      exact lastStamp?_firstMoves hchart hn
  case transition =>
    intro m event leaf t hevent h hactive ht
    obtain ⟨n, hn, hkind⟩ := h.leaf leaf hactive
    obtain ⟨j, k, hk, hmem⟩ := Chart.mem_on_of_choose? ht
    obtain ⟨hinternal, target, htarget⟩ := exists_target hchart hk hmem
    obtain ⟨hlanding, hleaf⟩ := Macrostep.take_landing htree ⟨n, hn, hkind⟩ ht htarget hinternal
    obtain ⟨hstamp, hanswers⟩ := crosses hchart hn hkind ht
    have hpath : m.machine.leafPath chart = chart.pathOf leaf := by
      rw [Machine.leafPath, hactive]
      rfl
    refine inArea_take h (fun a ha => ⟨?_, fun hforward => ?_⟩) hlanding hleaf ?_
    · rcases chart.mem_actionsOf ha with ⟨actions, hact, ha⟩ | ⟨i, q, hq, ha⟩
      · rw [Chart.act_mem_moves hact] at ha
        exact stamps_of_node hchart hk a
          (List.mem_append_right _ (List.mem_flatMap.2 ⟨_, hmem, ha⟩))
      · exact stamps_of_node hchart hq a ha
    · exact hevent.resolve_right (not_not_intro (hanswers a ha hforward))
    · rw [hpath]
      exact hstamp target htarget
  case idle =>
    intro machine invocations clock h
    exact ⟨h.valid, h.leaf, h.filed, h.area⟩

end

/-! ## All along a run -/

variable [Services Env] [Storage S]

/-- **The area all along a run** that brings no area from outside: it is the form as long as the
form is active, **unless the application was filed** since the form was entered, and empty
otherwise.  Services may answer whatever they like. -/
theorem area_of_run {s₀ s : Session Context Env S} {calls : List Call}
    (hchart : Wizard.chart = .ok s₀.chart) (hnew : s₀.machine.leaf = none)
    (hvisits : s₀.machine.history.visits = []) {v : Json}
    (hcontext : Context.decode v = some s₀.machine.context)
    (harea : s₀.machine.context.area = "")
    (hcalls : ∀ event, .send event ∈ calls → event.payload.Avoids ["prefix"])
    (run : Run s₀ calls s) :
    s.machine.context.area =
      if s.configuration.isIn "form" && !isFiled s.machine.history.visits then "form" else "" := by
  have hpath : s₀.machine.leafPath s₀.chart = "" := by
    rw [Machine.leafPath, hnew]
    rfl
  have hfirst : InArea s₀.chart s₀.machine := by
    refine ⟨Context.valid_of_decode hcontext, fun leaf hleaf => ?_, fun hfiled => ?_, ?_⟩
    · rw [hnew] at hleaf
      cases hleaf
    · rw [hvisits] at hfiled
      cases hfiled
    · rw [harea, hpath]
      rfl
  have hheard : ∀ c ∈ calls, ∀ event, c.Brings event → HearsNoArea event := by
    rintro c hc event (rfl | ⟨settlement, id, rfl, rfl⟩)
    · exact .inl (hcalls event hc)
    · exact .inr (name_ofOutcome_notMem id settlement.outcome)
  have hsilence : HearsSilence HearsNoArea := fun _ => .inl (Object.avoids_empty _)
  obtain ⟨hsame, hlast⟩ := Run.maintains (Blueprint.isTree_of_build hchart)
    (maintains_inArea hchart) hsilence hfirst hheard run
  rw [← hsame] at hchart hlast
  have hactive : s.configuration.isIn "form" = inForm (s.machine.leafPath s.chart) := by
    rw [Session.configuration, Machine.leafPath]
    cases hleaf : s.machine.leaf with
    | none => rfl
    | some leaf =>
        obtain ⟨n, hn, -⟩ := hlast.leaf leaf hleaf
        rw [Configuration.isIn, List.contains_reverse]
        exact isIn_form hchart hn
  rw [hactive]
  exact hlast.area

/-! ## An application -/

/-- Calls that lead from the first page through the form, by the shortcut, to the point where the
application is being filed. -/
def applying : List Call :=
  [.startAt "#welcome", .send { name := next }, .deliver ⟨⟨Leaf.loading, 0⟩, .ok (.arr [])⟩,
    .send { name := next }, .send { name := next }, .send { name := next }, .send { name := next },
    .send { name := exit }, .send { name := next }]

/-- The report that the application was filed. -/
def report : Call := .deliver ⟨⟨Leaf.finalize, 1⟩, .ok .null⟩

lemma placeless_applying : ∀ event, .send event ∈ applying ++ [report] → Placeless event := by
  have hnothing : ∀ name, Placeless { name } := fun _ => Object.avoids_empty _
  intro event hevent
  simp only [applying, report, List.cons_append, List.nil_append, List.mem_cons, List.not_mem_nil,
    or_false, reduceCtorEq, false_or, Call.send.injEq] at hevent
  rcases hevent with rfl | rfl | rfl | rfl | rfl | rfl | rfl <;> exact hnothing _

set_option maxRecDepth 100000 in
lemma applying_computed :
    let s₀ : Session Context Script Memory := Session.new scripted.chart {}
    ((applying.foldlM (Session.call · 8 ·) s₀).any fun s =>
      (s.configuration.isIn "form" && !isFiled s.machine.history.visits) &&
        (s.call 8 report).any fun s' =>
          (s'.configuration.isIn "form" && isFiled s'.machine.history.visits) &&
            decide (s'.machine.context.area = "")) = true := by
  decide +kernel

/-- What is computed of the application. -/
lemma applying_leads : ∃ s s' : Session Context Script Memory,
    Run (Session.new scripted.chart {}) applying s ∧
      Run (Session.new scripted.chart {}) (applying ++ [report]) s' ∧
      (s.configuration.isIn "form" = true ∧ isFiled s.machine.history.visits = false) ∧
      s'.configuration.isIn "form" = true ∧ isFiled s'.machine.history.visits = true ∧
      s'.machine.context.area = "" := by
  obtain ⟨s, hs, h⟩ := (Option.any_eq_true _ _).1 applying_computed
  obtain ⟨hbefore, h⟩ := Bool.and_eq_true_iff.1 h
  obtain ⟨s', hs', h⟩ := (Option.any_eq_true _ _).1 h
  obtain ⟨hafter, harea⟩ := Bool.and_eq_true_iff.1 h
  obtain ⟨hin, hunfiled⟩ := Bool.and_eq_true_iff.1 hbefore
  obtain ⟨hin', hfiled⟩ := Bool.and_eq_true_iff.1 hafter
  have run : Run (Session.new scripted.chart {}) applying s := .of_foldlM hs
  exact ⟨s, s', run, run.snoc 8 report hs', ⟨hin, by simpa using hunfiled⟩, hin', hfiled,
    of_decide_eq_true harea⟩

/-- The form is active before and after the report, but only before it the area says so. -/
theorem area_of_run_applying : ∃ s s' : Session Context Script Memory,
    Run (Session.new scripted.chart {}) applying s ∧
      Run (Session.new scripted.chart {}) (applying ++ [report]) s' ∧
      s.configuration.isIn "form" = true ∧ s.machine.context.area = "form" ∧
      s'.configuration.isIn "form" = true ∧ s'.machine.context.area = "" := by
  obtain ⟨s, s', run, run', ⟨hin, hunfiled⟩, hin', hfiled, -⟩ := applying_leads
  have hchart : Wizard.chart =
      .ok (Session.new scripted.chart {} : Session Context Script Memory).chart := scripted_chart
  have hcontext : Context.decode (.record []) = some {} := by decide +kernel
  have hbefore := area_of_run hchart rfl rfl hcontext rfl
    (fun event hevent => placeless_applying event (List.mem_append_left _ hevent)) run
  have hafter := area_of_run hchart rfl rfl hcontext rfl placeless_applying run'
  rw [hin, hunfiled] at hbefore
  rw [hin', hfiled] at hafter
  exact ⟨s, s', run, run', hin, hbefore, hin', hafter⟩

/-- **The active nodes alone do not settle the area**: after the report the form is active, but the
area is empty. -/
theorem area_not_of_configuration :
    ¬ ∀ (calls : List Call) (s : Session Context Script Memory),
      (∀ event, .send event ∈ calls → event.payload.Avoids ["prefix"]) →
      Run (Session.new scripted.chart {}) (.startAt "#welcome" :: calls) s →
      s.machine.context.area = if s.configuration.isIn "form" then "form" else "" := by
  obtain ⟨-, s', -, run', -, hin', -, harea⟩ := applying_leads
  intro hclaimed
  have hform := hclaimed (applying.tail ++ [report]) s'
    (fun event hevent => placeless_applying event (List.mem_cons_of_mem _ hevent)) run'
  rw [hin', harea] at hform
  exact absurd hform (by decide)

end Wizard

end FormChart.Registration
