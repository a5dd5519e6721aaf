import FormChart.Proofs.Session.Hearing
import FormChart.Proofs.Registration.Ranges
import FormChart.Proofs.Registration.Screen

/-!
# The page that is shown

The address of a page names a section of the form and a page of it, and so does the context.  They
agree because **what is shown is what the entries of the active nodes have set**
(`Wizard.OnScreen`): nodes further in add to it and never replace it, and nothing is set on the way
out.

A transition keeps what the nodes show that it does not leave.  Three transitions replace the whole
context on their way.  What they do not leave shows nothing.

Service outcomes may bring whatever they like, since only the events `NEXT` and `EDIT` are ever
forwarded (`Wizard.Hears`).
-/

namespace FormChart.Registration

/-- Whether a context agrees with the address of a page. -/
def Context.At (c : Context) (route : String) : Prop :=
  match (route.toList.splitOn '/').map String.ofList with
  | ["", "welcome"] => c.currentSection = "welcome" ∧ c.currentStep = ""
  | ["", "form", part] => c.currentSection = part
  | ["", "form", part, page] => c.currentSection = part ∧ c.currentStep = page
  | _ => False

namespace Wizard

/-- What a context has to show at the address of a page; none if there is no such page. -/
def demands? (route : String) : Option (List (String × Json)) :=
  match (route.toList.splitOn '/').map String.ofList with
  | ["", "welcome"] => some [("currentSection", .str "welcome"), ("currentStep", .str "")]
  | ["", "form", part] => some [("currentSection", .str part)]
  | ["", "form", part, page] => some [("currentSection", .str part), ("currentStep", .str page)]
  | _ => none

lemma at_of_demands {c : Context} {route : String} {fields : List (String × Json)}
    (hfields : demands? route = some fields) (h : c.Shows fields) : c.At route := by
  have hsection : ∀ {part : String}, ("currentSection", .str part) ∈ fields →
      c.currentSection = part := by
    intro part hmem
    simpa [Context.shown_currentSection] using (h _ hmem).2
  have hstep : ∀ {page : String}, ("currentStep", .str page) ∈ fields → c.currentStep = page := by
    intro page hmem
    simpa [Context.shown_currentStep] using (h _ hmem).2
  unfold demands? at hfields
  unfold Context.At
  split at hfields <;> cases hfields
  · exact ⟨hsection (by simp), hstep (by simp)⟩
  · exact hsection (by simp)
  · exact ⟨hsection (by simp), hstep (by simp)⟩

/-- What the entries of some nodes show. -/
def screen {Env : Type} (chart : Chart Context Env) (nodes : List NodeId) : List (String × Json) :=
  nodes.flatMap fun i => marks (((chart.node? i).map (·.entry)).getD [])

variable {Env S : Type}

section

variable {chart : Chart Context Env}

@[simp] lemma screen_withoutTasks (nodes : List NodeId) :
    screen chart.withoutTasks nodes = screen chart nodes := by
  simp [screen, Function.comp_def, Node.withoutTask]

lemma screen_cons {i : NodeId} {n : Node Context Env} (hn : chart.node? i = some n)
    (nodes : List NodeId) : screen chart (i :: nodes) = marks n.entry ++ screen chart nodes := by
  rw [screen, List.flatMap_cons, hn, Option.map_some, Option.getD_some]
  rfl

lemma screen_append (first rest : List NodeId) :
    screen chart (first ++ rest) = screen chart first ++ screen chart rest := List.flatMap_append

end

/-! ## What the nodes of the wizard show -/

/-- Whether a node shows nothing but what is seen of its entry. -/
@[mk_iff]
structure Overt (b : WizardNode Env) : Prop where
  entry : ∀ a ∈ b.entry, Posts a
  exit : ∀ a ∈ b.exit, Honest a
  on : ∀ e ∈ b.on, ∀ a ∈ e.2.actions, Honest a
  invoke : ∀ v ∈ b.invoke, ∀ arrow ∈ v.onDone ++ v.onError, ∀ a ∈ arrow.actions, Honest a

lemma Overt.actions {b : WizardNode Env} (h : Overt b) : ∀ a ∈ b.actions, Honest a :=
  Blueprint.forall_actions (fun a ha => (h.entry a ha).honest) h.exit h.on h.invoke

/-- **No node of the wizard shows anything in secret.** -/
lemma overt_blueprint [Services Env] : (blueprint : WizardNode Env).Everywhere Overt := by
  simp [blueprint, welcome, form, preRegistration, getPrepared, basicInfo, identity, household,
    impact, resources, review, submit, nextSteps, quitting, outcome, sectionNode, compound, page,
    pageTo, decision, entering, atomic, Arrow.goto, Arrow.gotoIf, Arrow.doing, Arrow.forwardTo,
    missCatalog, setMember, setHolder, changeHolder, setJob, ensureJob, backOneJob,
    Blueprint.everywhere_mk, overt_iff]

/-- The events whose fields are forwarded. -/
def answerNames : List String := [next, edit]

/-- Whether an event is no answer or brings no field that says what is shown. -/
def Hears (event : Event) : Prop := Silent event ∨ event.name ∉ answerNames

/-- What is known of the screen by the place of a node in the layout. -/
@[mk_iff]
structure Presented (n : Node Context Unit) (i : NodeId) : Prop where
  fits : ∀ a ∈ n.entry, Context.Fits (probe a)
  /-- Nodes further in do not replace what nodes further out show. -/
  distinct : ((screen layout (layout.lineage i)).map (·.1)).Nodup
  exit : marks n.exit = [] ∧ ∀ a ∈ n.exit, forwards a = false
  /-- Where the whole context is replaced, nothing is shown that stays. -/
  replaced : ∀ e ∈ n.on, marks e.2.actions = [] ∨
    ∀ target ∈ e.2.target, screen layout (layout.lineage target).tail = []
  /-- Other events than answers are not forwarded. -/
  answers : ∀ e ∈ n.on, e.1 ∈ answerNames ∨ (∀ a ∈ e.2.actions, forwards a = false) ∧
    ∀ target ∈ e.2.target, ∀ j ∈ layout.lineage (layout.landing target),
      ∀ k ∈ layout.node? j, ∀ a ∈ k.entry, forwards a = false
  /-- The nodes show what the address of the page demands. -/
  route : ∀ r ∈ n.route, ∃ fields ∈ demands? r, fields ⊆ screen layout (layout.lineage i)

instance (n : Node Context Unit) (i : NodeId) : Decidable (Presented n i) :=
  decidable_of_iff' _ (presented_iff n i)

lemma presented_layout : ∀ e ∈ layout.nodes.zipIdx, Presented e.1 e.2 := by
  decide +kernel

section

variable [Services Env] {chart : Chart Context Env} (hchart : Wizard.chart = .ok chart)
  {i : NodeId} {n : Node Context Env} (hn : chart.node? i = some n)

include hchart hn

lemma presented : Presented n.withoutTask i := of_layout hchart hn presented_layout

lemma posts_entry : ∀ a ∈ n.entry, Posts a := by
  obtain ⟨m, rfl, hm, -⟩ := exists_part hchart hn
  exact (overt_blueprint _ hm).entry

lemma honest_of_node : ∀ a ∈ n.actions, Honest a := by
  obtain ⟨m, rfl, hm, -⟩ := exists_part hchart hn
  rw [Outline.actions_node]
  exact (overt_blueprint _ hm).actions

lemma distinct_screen : ((screen chart (chart.lineage i)).map (·.1)).Nodup := by
  have h := (presented hchart hn).distinct
  rwa [← withoutTasks_eq_layout hchart, screen_withoutTasks, Chart.lineage_withoutTasks] at h

/-- **Where a transition replaces the context**, nothing is shown that stays. -/
lemma screen_above_target {event : String} {t : Transition Context} (ht : (event, t) ∈ n.on)
    {target : NodeId} (htarget : t.target = some target) (hmarks : marks t.actions ≠ []) :
    screen chart (chart.lineage target).tail = [] := by
  have h := ((presented hchart hn).replaced (event, t) ht).resolve_left hmarks target htarget
  rwa [← withoutTasks_eq_layout hchart, screen_withoutTasks, Chart.lineage_withoutTasks] at h

/-- **What a transition forwards brings nothing** that says what is shown: events that are no
answers are not forwarded. -/
lemma silent_of_forwards {event : Event} {t : Transition Context} (ht : (event.name, t) ∈ n.on)
    (hevent : Hears event) :
    (∀ a ∈ t.actions, forwards a = true → Silent event) ∧ ∀ target, t.target = some target →
      ∀ j ∈ chart.lineage (chart.landing target), ∀ k, chart.node? j = some k →
        ∀ a ∈ k.entry, forwards a = true → Silent event := by
  rcases hevent with hsilent | hanswer
  · exact ⟨fun _ _ _ => hsilent, fun _ _ _ _ _ _ _ _ _ => hsilent⟩
  · obtain ⟨hactions, hentries⟩ :=
      ((presented hchart hn).answers (event.name, t) ht).resolve_left hanswer
    refine ⟨fun a ha hforward => ?_, fun target htarget j hj k hk a ha hforward => ?_⟩
    · rw [hactions a ha] at hforward
      cases hforward
    · have hnode : layout.node? j = some k.withoutTask := by
        rw [← withoutTasks_eq_layout hchart, Chart.node?_withoutTasks, hk, Option.map_some]
      rw [← Chart.landing_withoutTasks, ← Chart.lineage_withoutTasks,
        withoutTasks_eq_layout hchart] at hj
      rw [hentries target htarget j hj _ hnode a ha] at hforward
      cases hforward

lemma exists_demands {route : String} (hroute : n.route = some route) :
    ∃ fields, demands? route = some fields ∧ fields ⊆ screen chart (chart.lineage i) := by
  obtain ⟨fields, hfields, h⟩ := (presented hchart hn).route route hroute
  rw [← withoutTasks_eq_layout hchart, screen_withoutTasks, Chart.lineage_withoutTasks] at h
  exact ⟨fields, hfields, h⟩

end

/-! ## One step -/

/-- Whether the context is valid and shows what the active nodes show. -/
structure OnScreen (chart : Chart Context Env) (machine : Machine Context Env) : Prop where
  valid : machine.context.Valid
  shows : ∀ leaf, machine.leaf = some leaf →
    chart.IsLeaf leaf ∧ machine.context.Shows (screen chart (chart.lineage leaf))

/-- The record that is kept of a plan does not matter. -/
lemma OnScreen.take {chart : Chart Context Env} {event : Event} {plan : List (Move Context)}
    {m : Macrostep Context Env}
    (h : OnScreen chart (plan.foldl (Macrostep.move chart event) m).machine) :
    OnScreen chart (m.take chart event plan).machine := ⟨h.valid, h.shows⟩

section

variable [Services Env] {chart : Chart Context Env} (hchart : Wizard.chart = .ok chart)
  {event : Event}

include hchart

variable (event) in
/-- Nodes that are left show nothing new. -/
lemma shows_left {nodes : List NodeId} {shown : List (String × Json)} {m : Macrostep Context Env}
    (hnodes : ∀ i ∈ nodes, ∃ n, chart.node? i = some n)
    (h : m.machine.context.Valid ∧ m.machine.context.Shows shown) :
    ((nodes.map .leave).foldl (Macrostep.move chart event) m).machine.context.Valid ∧
      ((nodes.map .leave).foldl (Macrostep.move chart event) m).machine.context.Shows shown := by
  refine Macrostep.context_foldl (Q := fun c : Context => c.Valid ∧ c.Shows shown) ?_ h
  intro part hpart k hk
  obtain ⟨i, hi, rfl⟩ := List.mem_map.1 hpart
  obtain ⟨n, hn⟩ := hnodes i hi
  obtain ⟨hmarks, hforwards⟩ := (presented hchart hn).exit
  rw [Macrostep.move_leave_context hn]
  refine shows_keep (fun a ha => honest_of_node hchart hn a ?_) hmarks (fun a ha hforward => ?_) hk
  · exact List.mem_append_left _ (List.mem_append_right _ ha)
  · rw [hforwards a ha] at hforward
    cases hforward

/-- **Nodes that are entered show what is seen of them**, beside what was shown before. -/
lemma shows_entered {nodes base : List NodeId} {m : Macrostep Context Env}
    (hnodes : ∀ i ∈ nodes, ∃ n, chart.node? i = some n ∧
      ∀ a ∈ n.entry, forwards a = true → Silent event)
    (hdistinct : ((screen chart (nodes.reverse ++ base)).map (·.1)).Nodup)
    (h : m.machine.context.Valid ∧ m.machine.context.Shows (screen chart base)) :
    ((nodes.map .arrive).foldl (Macrostep.move chart event) m).machine.context.Valid ∧
      ((nodes.map .arrive).foldl (Macrostep.move chart event) m).machine.context.Shows
        (screen chart (nodes.reverse ++ base)) := by
  induction nodes generalizing base m with
  | nil => exact h
  | cons i rest ih =>
      obtain ⟨⟨n, hn, hclear⟩, hrest⟩ := List.forall_mem_cons.1 hnodes
      have hpresented := presented hchart hn
      rw [List.reverse_cons, List.append_assoc, List.singleton_append] at hdistinct ⊢
      refine ih hrest hdistinct ?_
      rw [Macrostep.move_arrive_context hn, screen_cons hn]
      refine ⟨h.1.outcomes event n.entry, shows_outcomes (fun a ha => ?_) h.1 ?_ h.2⟩
      · exact ⟨posts_entry hchart hn a ha, hpresented.fits a ha, hclear a ha⟩
      · rw [screen_append, List.map_append, screen_cons hn] at hdistinct
        exact (List.nodup_append.1 hdistinct).2.1

/-- The way down to a leaf. -/
lemma onScreen_entry {landing : NodeId} {down base : List NodeId} {l : Node Context Env}
    (hl : chart.node? landing = some l) (hleaf : chart.IsLeaf landing)
    (hline : chart.lineage landing = landing :: (down.reverse ++ base))
    (hclear : ∀ j ∈ chart.lineage landing, ∀ k, chart.node? j = some k → ∀ a ∈ k.entry,
      forwards a = true → Silent event) {m : Macrostep Context Env}
    (h : m.machine.context.Valid ∧ m.machine.context.Shows (screen chart base)) :
    OnScreen chart
      (((down ++ [landing]).map .arrive).foldl (Macrostep.move chart event) m).machine := by
  have htree := Blueprint.isTree_of_build hchart
  have hentered : (down ++ [landing]).reverse ++ base = chart.lineage landing := by
    rw [hline, List.reverse_append, List.reverse_singleton, List.append_assoc,
      List.singleton_append]
  have hnodes : ∀ i ∈ down ++ [landing], ∃ n, chart.node? i = some n ∧
      ∀ a ∈ n.entry, forwards a = true → Silent event := by
    intro i hi
    have hmem : i ∈ chart.lineage landing := by
      rw [← hentered]
      exact List.mem_append_left _ (List.mem_reverse.2 hi)
    obtain ⟨n, hn⟩ := htree.node_of_mem_lineage hl hmem
    exact ⟨n, hn, hclear i hmem n hn⟩
  have hshows := shows_entered hchart hnodes (by rw [hentered]; exact distinct_screen hchart hl) h
  rw [hentered] at hshows
  refine ⟨hshows.1, fun leaf hactive => ?_⟩
  rw [Macrostep.foldl_entry_leaf hl] at hactive
  cases hactive
  exact ⟨hleaf, hshows.2⟩

/-- What a transition does on its way shows nothing new, or nothing is shown that stays. -/
lemma shows_acted {i : NodeId} {n : Node Context Env} (hn : chart.node? i = some n) {name : String}
    {t : Transition Context} (ht : (name, t) ∈ n.on) {target : NodeId}
    (htarget : t.target = some target) (hclear : ∀ a ∈ t.actions, forwards a = true → Silent event)
    {base : List NodeId} (hbase : base <:+ (chart.lineage target).tail) {c : Context}
    (h : c.Valid ∧ c.Shows (screen chart base)) :
    (Action.outcomes event t.actions c).Valid ∧
      (Action.outcomes event t.actions c).Shows (screen chart base) := by
  by_cases hmarks : marks t.actions = []
  · refine shows_keep (fun a ha => honest_of_node hchart hn a ?_) hmarks hclear h
    exact List.mem_append_right _ (List.mem_flatMap.2 ⟨_, ht, ha⟩)
  · obtain ⟨above, habove⟩ := hbase
    have hempty := screen_above_target hchart hn ht htarget hmarks
    rw [← habove, screen_append, List.append_eq_nil_iff] at hempty
    rw [hempty.2]
    exact ⟨h.1.outcomes event t.actions, List.forall_mem_nil _⟩

/-- **A transition shows what the nodes show that are active after it.** -/
lemma onScreen_take {m : Macrostep Context Env} {leaf : NodeId} {t : Transition Context}
    (hevent : Hears event) (h : OnScreen chart m.machine) (hactive : m.machine.leaf = some leaf)
    (ht : chart.choose? leaf m.machine.context event.name = some t) :
    OnScreen chart (m.take chart event (chart.moves leaf t)).machine := by
  have htree := Blueprint.isTree_of_build hchart
  obtain ⟨hleaf, hshows⟩ := h.shows leaf hactive
  obtain ⟨i, n, hn, hmem⟩ := Chart.mem_on_of_choose? ht
  obtain ⟨hinternal, target, htarget⟩ := exists_target hchart hn hmem
  have hgoes : t.stays chart leaf = false := by simp [Transition.stays, htarget, hinternal]
  have hlanding : chart.IsLeaf (chart.landing target) := by
    obtain ⟨-, k, hk⟩ := htree.target hn hmem htarget
    exact htree.isLeaf_landing hk
  obtain ⟨l, hl, -⟩ := id hlanding
  obtain ⟨up, down, hup, hdown, habove, hmoves⟩ := htree.moves_cut hleaf hn hmem htarget hgoes
  obtain ⟨hactions, hentries⟩ := silent_of_forwards hchart hn hmem hevent
  -- what stays is shown before, and by every part of the plan
  have hbase : m.machine.context.Shows
      (screen chart (chart.lineage (chart.domain leaf target))) := by
    refine hshows.mono ?_
    rw [hup, ← List.cons_append, screen_append]
    exact List.subset_append_right _ _
  have hleft := shows_left hchart event
    (Macrostep.node_of_up htree ⟨⟨_, hup, hdown⟩, hleaf, hlanding⟩) ⟨h.valid, hbase⟩
  have hacted := shows_acted hchart hn hmem htarget hactions habove hleft
  rw [hmoves]
  refine OnScreen.take ?_
  rw [List.foldl_append, List.foldl_cons]
  refine onScreen_entry hchart hl hlanding hdown (hentries target htarget) ?_
  rwa [Macrostep.move, Macrostep.performAll_context]

/-- **What is shown is kept up** by every step, whatever comes with events that are no answers. -/
lemma maintains_onScreen : chart.Maintains Hears (OnScreen chart) := by
  constructor
  case entry =>
    intro machine target n h _ hn
    have htree := Blueprint.isTree_of_build hchart
    obtain ⟨down, hline, hplan⟩ := htree.firstMoves_eq hn
    have hlanding := htree.isLeaf_landing hn
    obtain ⟨l, hl, -⟩ := id hlanding
    rw [← List.append_nil down.reverse] at hline
    have hsilent : Silent .init := Object.avoids_empty _
    rw [hplan]
    exact (onScreen_entry hchart hl hlanding hline (fun _ _ _ _ _ _ _ => hsilent)
      ⟨h.valid, List.forall_mem_nil _⟩).take
  case transition =>
    intro m event leaf t hevent h hactive ht
    exact onScreen_take hchart hevent h hactive ht
  case idle =>
    intro machine invocations clock h
    exact ⟨h.valid, h.shows⟩

end

/-! ## All along a run -/

/-- The outcome of a service is no answer. -/
lemma name_ofOutcome_notMem (id : String) (outcome : Outcome) :
    (Event.ofOutcome id outcome).name ∉ answerNames := by
  have hne : ∀ first name : String, ¬ first.toList <+: name.toList → first ++ id ≠ name := by
    rintro first _ hprefix rfl
    exact hprefix ⟨id.toList, String.toList_append.symm⟩
  simp only [answerNames, List.mem_cons, List.not_mem_nil, or_false, not_or]
  cases outcome with
  | ok v => exact ⟨hne _ _ (by decide), hne _ _ (by decide)⟩
  | error e => exact ⟨hne _ _ (by decide), hne _ _ (by decide)⟩

/-- Whether a node is a numbered section. -/
def IsSection (n : Node Context Env) (number : Nat) : Prop :=
  ∃ key initial pages, n.entry = (sectionNode key number initial pages : WizardNode Env).entry

lemma IsSection.step_mem {n : Node Context Env} {number : Nat} (h : IsSection n number) :
    ("step", Json.nat number) ∈ marks n.entry := by
  obtain ⟨key, initial, pages, hentry⟩ := h
  have hset : ("step", Json.nat number) ∈
      marks [.set [("currentSection", .str key), ("step", Json.nat number)]] :=
    mem_marks_set.2 ⟨by simp [screenNames], by simp [Dict.get?_ofList]⟩
  rw [hentry]
  change _ ∈ marks (.set [("currentSection", .str key), ("step", Json.nat number)] :: [.keep])
  rw [marks_cons]
  exact List.mem_append_left _ hset

/-- The numbered sections. -/
def numbers : List (String × Nat) :=
  [("basic-info", 1), ("identity", 2), ("household", 3), ("impact", 4), ("resources", 5)]

variable [Services Env]

lemma isSection_of_mem {chart : Chart Context Env} (hchart : Wizard.chart = .ok chart) {i : NodeId}
    {n : Node Context Env} (hn : chart.node? i = some n) {number : Nat}
    (h : (n.key, number) ∈ numbers) : IsSection n number := by
  have hfilter : ∀ e ∈ numbers, ∃ initial pages,
      ((blueprint : WizardNode Env).subtrees.filter (·.key == e.1)).map (·.entry) =
        [(sectionNode e.1 e.2 initial pages : WizardNode Env).entry] := by
    simp only [numbers, List.forall_mem_cons]
    exact ⟨⟨"", [], rfl⟩, ⟨"", [], rfl⟩, ⟨"", [], rfl⟩, ⟨"", [], rfl⟩, ⟨"", [], rfl⟩,
      List.forall_mem_nil _⟩
  obtain ⟨initial, pages, hentry⟩ := hfilter _ h
  obtain ⟨m, rfl, hm, hkey⟩ := exists_part hchart hn
  refine ⟨_, initial, pages, List.mem_singleton.1 (hentry ▸ List.mem_map.2 ⟨m.blueprint, ?_, rfl⟩)⟩
  exact List.mem_filter.2 ⟨hm, beq_iff_eq.2 hkey.symm⟩

variable [Storage S]

/-- **The page that is shown agrees with the context**, in whatever context and wherever the wizard
is started, if no event brings fields that say what is shown.  Services may answer whatever they
like.  In a numbered section, the context has its number. -/
theorem at_route_of_run {s₀ s : Session Context Env S} {calls : List Call}
    (hchart : Wizard.chart = .ok s₀.chart) (hnew : s₀.machine.leaf = none) {v : Json}
    (hcontext : Context.decode v = some s₀.machine.context)
    (hcalls : ∀ event, .send event ∈ calls → event.payload.Avoids screenNames)
    (run : Run s₀ calls s) :
    (∀ route, s.route? = some route → s.machine.context.At route) ∧
      ∀ leaf part n number, s.machine.leaf = some leaf → part ∈ s₀.chart.lineage leaf →
        s₀.chart.node? part = some n → IsSection n number → s.machine.context.step = number := by
  have hnew : OnScreen s₀.chart s₀.machine := by
    refine ⟨Context.valid_of_decode hcontext, fun leaf hleaf => ?_⟩
    rw [hnew] at hleaf
    cases hleaf
  have hheard : ∀ c ∈ calls, ∀ event, c.Brings event → Hears event := by
    rintro c hc event (rfl | ⟨settlement, id, rfl, rfl⟩)
    · exact .inl (hcalls event hc)
    · exact .inr (name_ofOutcome_notMem id settlement.outcome)
  have hsilence : HearsSilence Hears := fun _ => .inl (Object.avoids_empty _)
  obtain ⟨hsame, hscreen⟩ := Run.maintains (Blueprint.isTree_of_build hchart)
    (maintains_onScreen hchart) hsilence hnew hheard run
  constructor
  · intro route hroute
    obtain ⟨leaf, hactive, n, hn, hroute⟩ : ∃ leaf, s.machine.leaf = some leaf ∧
        ∃ n, s₀.chart.node? leaf = some n ∧ n.route = some route := by
      simpa [Session.route?, Option.bind_eq_some_iff, hsame] using hroute
    obtain ⟨fields, hfields, hsub⟩ := exists_demands hchart hn hroute
    exact at_of_demands hfields ((hscreen.shows leaf hactive).2.mono hsub)
  · intro leaf part n number hactive hpart hn hsection
    have hmem : ("step", Json.nat number) ∈ screen s₀.chart (s₀.chart.lineage leaf) := by
      refine List.mem_flatMap.2 ⟨part, hpart, ?_⟩
      rw [hn]
      exact hsection.step_mem
    have hshown := ((hscreen.shows leaf hactive).2 _ hmem).2
    rw [Context.shown_step] at hshown
    simpa [Json.nat] using hshown

/-- Answers that name a place that does not exist. -/
def misplaced : Json :=
  .record
    [("currentSection", .str "nowhere"), ("currentStep", .str "nowhere"), ("step", Json.nat 9)]

set_option maxRecDepth 100000 in
lemma misplaced_computed :
    ((Context.decode misplaced).any fun c => decide (c.step = 9) &&
      let s₀ : Session Context Script Memory := Session.new scripted.chart c
      ((s₀.call 8 (.startAt "#household")).bind (·.call 8 (.send { name := next }))).any fun s =>
        decide (s.route? = some "/form/household/food-assistance") &&
          (s.machine.leaf.any fun leaf => (s₀.chart.lineage leaf).any fun part =>
            (s₀.chart.node? part).any fun n => n.key == "household")) = true := by
  decide +kernel

/-- The wizard is started in the section about the household, and goes on from its first page. -/
theorem at_route_of_run_misplaced : ∃ (c : Context) (s : Session Context Script Memory),
    Context.decode misplaced = some c ∧ c.step = 9 ∧
      Run (Session.new scripted.chart c) [.startAt "#household", .send { name := next }] s ∧
      s.route? = some "/form/household/food-assistance" ∧
      s.machine.context.At "/form/household/food-assistance" ∧ s.machine.context.step = 3 := by
  obtain ⟨c, hc, h⟩ := (Option.any_eq_true _ _).1 misplaced_computed
  obtain ⟨hstep, h⟩ := Bool.and_eq_true_iff.1 h
  obtain ⟨s, hcalls, h⟩ := (Option.any_eq_true _ _).1 h
  obtain ⟨hroute, h⟩ := Bool.and_eq_true_iff.1 h
  obtain ⟨leaf, hleaf, h⟩ := (Option.any_eq_true _ _).1 h
  obtain ⟨part, hpart, h⟩ := List.any_eq_true.1 h
  obtain ⟨n, hn, hkey⟩ := (Option.any_eq_true _ _).1 h
  obtain ⟨s₁, hstart, hsend⟩ := Option.bind_eq_some_iff.1 hcalls
  have run : Run (Session.new scripted.chart c) [.startAt "#household", .send { name := next }] s :=
    (Run.nil.snoc 8 (.startAt "#household") hstart).snoc 8 (.send { name := next }) hsend
  have hsilent : ∀ event, Call.send event ∈ [.startAt "#household", .send { name := next }] →
      event.payload.Avoids screenNames := by
    intro event hevent
    obtain rfl : event = { name := next } := by simpa using hevent
    exact Object.avoids_empty _
  have hroute : s.route? = some "/form/household/food-assistance" := of_decide_eq_true hroute
  have hchart : Wizard.chart =
      .ok (Session.new scripted.chart c : Session Context Script Memory).chart := scripted_chart
  obtain ⟨hat, hnumber⟩ := at_route_of_run hchart rfl hc hsilent run
  have hkey : n.key = "household" := beq_iff_eq.1 hkey
  have hmem : (n.key, 3) ∈ numbers := by
    rw [hkey]
    simp [numbers]
  have hsection : IsSection n 3 := isSection_of_mem hchart hn hmem
  exact ⟨c, s, hc, of_decide_eq_true hstep, run, hroute,
    hat "/form/household/food-assistance" hroute,
    hnumber leaf part n 3 hleaf hpart hn hsection⟩

end Wizard

end FormChart.Registration
