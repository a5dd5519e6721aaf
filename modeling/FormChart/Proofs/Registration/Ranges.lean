import FormChart.Proofs.Session.Contexts
import FormChart.Proofs.Registration.Rest

/-!
# Cursors on the pages of loops

Pages overwrite the context with whatever comes with an event, cursors included, so nothing keeps a
cursor in range while the machine is on its way.  What keeps it in range where it matters is that
**the pages of loops are guarded**: all ways to such a page lead through a decision that has just
looked at the cursor (`Wizard.mayEnter_of_taken`), and what its entry adds to that is enough
(`Wizard.onPage_of_entry`).

One decision takes a page without a look at the cursor, from `check-member` to `income`.  There the
cursor is in range because of where one comes from: only from a page of the resources, stepping back
from a cursor that was not at the first member, which puts it on a member.  So the decision is part
of the invariant (`Context.OnPage.checkMember`).
-/

namespace FormChart.Registration

/-! ## What holds on a page -/

namespace Context

/-- Whether the cursors are in range for the page with a path. -/
structure InRange (c : Context) (page : String) : Prop where
  memberDetails : page = "form.household.member-details" → c.household.hasMemberAtCursor = true
  assets : page = "form.resources.assets" → c.resources.currentMember = 0
  income : page = "form.resources.income" →
    c.resources.currentMember < c.resources.membersWithIncome.length
  jobs : page = "form.resources.jobs" →
    ∃ m, c.holder? = some m ∧ m.hasJob = true ∧ m.income.currentJob < m.income.jobs.length

/-- What holds in a leaf with a key. -/
structure OnPage (c : Context) (key : String) : Prop where
  memberDetails : key = "member-details" → c.household.hasMemberAtCursor = true
  assets : key = "assets" → c.resources.currentMember = 0
  income : key = "income" → c.resources.isOnMember = true
  jobs : key = "jobs" → c.IsOnJob
  checkMember : key = "check-member" → c.resources.isOnMember = true

/-- What has to hold before a leaf with a key is entered. -/
structure MayEnter (c : Context) (key : String) : Prop where
  memberDetails : key = "member-details" → c.household.hasMemberAtCursor = true
  income : key = "income" → c.resources.isOnMember = true
  jobs : key = "jobs" → Wizard.holderHasJob c = true
  checkMember : key = "check-member" → c.resources.isOnMember = true

/-- Most leaves may be entered with any cursor. -/
lemma mayEnter_of_notMem {key : String} (h : key ∉ Wizard.guardedKeys) (c : Context) :
    c.MayEnter key := by
  simp only [Wizard.guardedKeys, List.mem_cons, List.not_mem_nil, or_false, not_or] at h
  obtain ⟨hmemberDetails, hincome, hjobs, hcheckMember⟩ := h
  exact ⟨fun hkey => absurd hkey hmemberDetails, fun hkey => absurd hkey hincome,
    fun hkey => absurd hkey hjobs, fun hkey => absurd hkey hcheckMember⟩

lemma AgreesWith.holderHasJob {c₀ c : Context} (h : AgreesWith c₀ c) :
    Wizard.holderHasJob c = Wizard.holderHasJob c₀ := by
  rw [Wizard.holderHasJob, h.holder?, Wizard.holderHasJob]

lemma AgreesWith.mayEnter {c₀ c : Context} (h : AgreesWith c₀ c) {key : String}
    (h₀ : c₀.MayEnter key) : c.MayEnter key where
  memberDetails hkey := by rw [h.household, h₀.memberDetails hkey]
  income hkey := by rw [h.resources, h₀.income hkey]
  jobs hkey := by rw [h.holderHasJob, h₀.jobs hkey]
  checkMember hkey := by rw [h.resources, h₀.checkMember hkey]

/-- Whose income is asked about is known only if the cursor is on a member. -/
lemma IsOnJob.isOnMember {c : Context} (h : c.IsOnJob) : c.resources.isOnMember = true := by
  obtain ⟨m, hm, -⟩ := h
  obtain ⟨i, hi, -⟩ := Option.bind_eq_some_iff.1 hm
  exact decide_eq_true (List.getElem?_eq_some_iff.1 hi).1

/-- Stepping back from a member puts the cursor on a member. -/
lemma isOnMember_previousMember {c : Context} (h : c.Valid)
    (hmember : c.resources.isOnMember = true) (event : Event) :
    ((Wizard.setHolder Resources.previousMember).outcome event c).resources.isOnMember = true := by
  have hlt : c.resources.currentMember < c.resources.membersWithIncome.length :=
    of_decide_eq_true hmember
  have hback : c.resources.previousMember < c.resources.membersWithIncome.length := by
    rw [Resources.previousMember]
    omega
  rw [resources_setHolder h]
  exact decide_eq_true (Nat.lt_of_le_of_lt (Answer.index_nat_le _) hback)

end Context

namespace Wizard

variable {Env S : Type} [Services Env]

/-! ## The parts of the loops -/

section

variable {chart : Chart Context Env} (hchart : Wizard.chart = .ok chart) {i : NodeId}
  {n : Node Context Env} {key : String} {part : WizardNode Env}
  (hpart : (blueprint : WizardNode Env).subtrees.filter (·.key == key) = [part])

include hchart hpart

/-- A node with a key that occurs once is made of the part with that key. -/
lemma node_eq_of_key (hn : chart.node? i = some n) (hkey : n.key = key) :
    ∃ m, (blueprint : WizardNode Env).outline.node i m = n ∧ m.blueprint = part := by
  obtain ⟨m, hm, hmem, hsame⟩ := exists_part hchart hn
  have hfiltered : m.blueprint ∈ (blueprint : WizardNode Env).subtrees.filter (·.key == key) :=
    List.mem_filter.2 ⟨hmem, by rw [← hsame, hkey, beq_self_eq_true]⟩
  rw [hpart] at hfiltered
  exact ⟨m, hm, List.mem_singleton.1 hfiltered⟩

lemma entry_eq_of_key (hn : chart.node? i = some n) (hkey : n.key = key) :
    n.entry = part.entry := by
  obtain ⟨m, rfl, rfl⟩ := node_eq_of_key hchart hpart hn hkey
  rfl

lemma kind_eq_of_key (hn : chart.node? i = some n) (hkey : n.key = key) : n.kind = part.kind := by
  obtain ⟨m, rfl, rfl⟩ := node_eq_of_key hchart hpart hn hkey
  rfl

/-- What is known when a transition of a part is taken, in terms of the part. -/
lemma arrow_of_takenAt {leaf : NodeId} {c : Context} {event name : String}
    {t : Transition Context} {k : Nat} (h : chart.TakenAt leaf c event t i n k) (hkey : n.key = key)
    {arrow : Arrow Context} (harrow : part.arrows[k]? = some (name, arrow)) :
    event = name ∧ t.actions = arrow.actions ∧ arrow.guard.all (· c) = true ∧
      ∀ j < k, ∀ earlier, part.arrows[j]? = some (event, earlier) →
        earlier.guard.all (· c) = false := by
  obtain ⟨m, rfl, rfl⟩ := node_eq_of_key hchart hpart h.node hkey
  have hposition := h.position
  rw [Outline.getElem?_on_node, harrow] at hposition
  cases hposition
  refine ⟨rfl, rfl, h.enabled, fun j hj earlier hearlier => ?_⟩
  exact h.first j hj _ (by rw [Outline.getElem?_on_node, hearlier, Option.map_some])

end

-- Each of the keys that matter occurs once.

lemma filter_member_details_loop :
    (blueprint : WizardNode Env).subtrees.filter (·.key == "member-details-loop") =
      [decision "member-details-loop"
        [.gotoIf "member-details" fun c => c.household.hasMemberAtCursor,
          .goto "food-assistance"]] := rfl

lemma filter_member_details :
    (blueprint : WizardNode Env).subtrees.filter (·.key == "member-details") =
      [pageTo "household" "member-details" "member-details-next"] := rfl

lemma filter_assets :
    (blueprint : WizardNode Env).subtrees.filter (·.key == "assets") =
      [entering (pageTo "resources" "assets" "income-branch") [setHolder fun _ => 0]] := rfl

lemma filter_income_branch :
    (blueprint : WizardNode Env).subtrees.filter (·.key == "income-branch") =
      [decision "income-branch"
        [.gotoIf "income" fun c => c.resources.isOnMember,
          (Arrow.goto "#review").doing [.keep]]] := rfl

lemma filter_income :
    (blueprint : WizardNode Env).subtrees.filter (·.key == "income") =
      [entering (pageTo "resources" "income" "jobs-branch") [setJob fun _ => 0]] := rfl

lemma filter_jobs_branch :
    (blueprint : WizardNode Env).subtrees.filter (·.key == "jobs-branch") =
      [decision "jobs-branch" [.gotoIf "jobs" holderHasJob, .goto "next-member"]] := rfl

lemma filter_jobs :
    (blueprint : WizardNode Env).subtrees.filter (·.key == "jobs") =
      [entering (pageTo "resources" "jobs" "other-jobs-loop") [ensureJob]] := rfl

lemma filter_check_member :
    (blueprint : WizardNode Env).subtrees.filter (·.key == "check-member") =
      [decision "check-member"
        [(Arrow.gotoIf "jobs" holderHasJob).doing [setJob fun i => i.jobs.length - 1],
          .goto "income"]] := rfl

lemma filter_resources :
    (blueprint : WizardNode Env).subtrees.filter (·.key == "resources") = [resources] := rfl

/-! ## Before a page is entered -/

section

variable {chart : Chart Context Env} (hchart : Wizard.chart = .ok chart) {leaf i : NodeId}
  {n : Node Context Env} {k : Nat} {c₀ c : Context} {event : Event} {t : Transition Context}
  (htaken : chart.TakenAt leaf c₀ event.name t i n k) (hc : c₀.AgreesWith c)

include hchart htaken hc

lemma hasMemberAtCursor_of_taken (hway : (n.key, k) ∈ layout.waysTo "member-details") :
    (Action.outcomes event t.actions c).household.hasMemberAtCursor = true := by
  obtain ⟨-, hways, -⟩ := guarded_layout
  rw [hways] at hway
  obtain ⟨hkey, rfl⟩ : n.key = "member-details-loop" ∧ k = 0 := by simpa using hway
  obtain ⟨-, hactions, hguard, -⟩ :=
    arrow_of_takenAt hchart filter_member_details_loop htaken hkey rfl
  have hnothing : t.actions = [] := hactions
  rw [hnothing, Action.outcomes_nil, hc.household]
  exact hguard

lemma holderHasJob_of_taken (hway : (n.key, k) ∈ layout.waysTo "jobs") :
    holderHasJob (Action.outcomes event t.actions c) = true := by
  obtain ⟨-, -, -, hways, -⟩ := guarded_layout
  rw [hways] at hway
  obtain ⟨hkey, rfl⟩ | ⟨hkey, rfl⟩ :
      (n.key = "jobs-branch" ∧ k = 0) ∨ (n.key = "check-member" ∧ k = 0) := by simpa using hway
  · obtain ⟨-, hactions, hguard, -⟩ :=
      arrow_of_takenAt hchart filter_jobs_branch htaken hkey rfl
    have hnothing : t.actions = [] := hactions
    rw [hnothing, Action.outcomes_nil, hc.holderHasJob]
    exact hguard
  · obtain ⟨-, hactions, hguard, -⟩ :=
      arrow_of_takenAt hchart filter_check_member htaken hkey rfl
    have hlast : t.actions = [setJob fun i => i.jobs.length - 1] := hactions
    have hjob : holderHasJob c = true := hc.holderHasJob.trans hguard
    rw [hlast, Action.outcomes_cons, Action.outcomes_nil]
    exact Context.holderHasJob_setJob hc.valid hjob _ event

variable (hleaf : chart.IsLeaf leaf) (hpage : c₀.OnPage (chart.keyOf leaf))

include hleaf hpage

/-- From `income-branch` the cursor has been looked at, and in `check-member` it is on a member. -/
lemma isOnMember_of_taken_income (hway : (n.key, k) ∈ layout.waysTo "income") :
    (Action.outcomes event t.actions c).resources.isOnMember = true := by
  obtain ⟨-, -, hways, -⟩ := guarded_layout
  rw [hways] at hway
  obtain ⟨hkey, rfl⟩ | ⟨hkey, rfl⟩ :
      (n.key = "income-branch" ∧ k = 0) ∨ (n.key = "check-member" ∧ k = 1) := by simpa using hway
  · obtain ⟨-, hactions, hguard, -⟩ :=
      arrow_of_takenAt hchart filter_income_branch htaken hkey rfl
    have hnothing : t.actions = [] := hactions
    rw [hnothing, Action.outcomes_nil, hc.resources]
    exact hguard
  · obtain ⟨-, hactions, -, -⟩ := arrow_of_takenAt hchart filter_check_member htaken hkey rfl
    have hnothing : t.actions = [] := hactions
    -- the decision has nothing below it, so it is the leaf itself
    have hself : i = leaf := by
      by_contra hne
      obtain ⟨l, hl, -⟩ := hleaf
      obtain ⟨m, hm, hcompound⟩ := (Blueprint.isTree_of_build hchart).compound_of_mem_lineage hl i
        htaken.above hne
      rw [htaken.node] at hm
      cases hm
      rw [kind_eq_of_key hchart filter_check_member htaken.node hkey] at hcompound
      cases hcompound
    have hdecision : chart.keyOf leaf = "check-member" := by
      rw [← hself, Chart.keyOf_of_node htaken.node, hkey]
    rw [hnothing, Action.outcomes_nil, hc.resources]
    exact hpage.checkMember hdecision

omit htaken hc in
/-- On a page of the resources the cursor is on a member, unless it is at the first position. -/
lemma isOnMember_of_rest {j : NodeId} (hj : j ∈ chart.lineage leaf)
    (hresources : chart.keyOf j = "resources")
    (hrest : chart.declared leaf Event.eventless.name = [])
    (hnotFirst : c₀.resources.currentMember ≠ 0) : c₀.resources.isOnMember = true := by
  obtain ⟨l, hl, hkind⟩ := hleaf
  have hnotCompound : l.kind ≠ .compound := by
    rcases hkind with hkind | hkind <;> rw [hkind] <;> nofun
  have hpages := key_of_resources hchart hl hnotCompound hj hresources hrest
  simp only [List.mem_cons, List.not_mem_nil, or_false, ← Chart.keyOf_of_node hl] at hpages
  rcases hpages with hassets | hincome | hjobs
  · exact absurd (hpage.assets hassets) hnotFirst
  · exact hpage.income hincome
  · exact (hpage.jobs hjobs).isOnMember

/-- One comes to `check-member` from a page of the resources, with a cursor that is not at the first
position. -/
lemma isOnMember_of_taken_checkMember
    (hrest : event.name = Event.eventless.name ∨ chart.declared leaf Event.eventless.name = [])
    (hway : (n.key, k) ∈ layout.waysTo "check-member") :
    (Action.outcomes event t.actions c).resources.isOnMember = true := by
  obtain ⟨-, -, -, -, hways⟩ := guarded_layout
  rw [hways] at hway
  obtain ⟨hkey, rfl⟩ : n.key = "resources" ∧ k = 1 := by simpa using hway
  obtain ⟨hevent, hactions, -, hfirst⟩ := arrow_of_takenAt hchart filter_resources htaken hkey rfl
  have hback : t.actions = [setHolder Resources.previousMember, .keep] := hactions
  have hnotFirst : (c₀.resources.currentMember == 0) = false :=
    hfirst 0 Nat.one_pos (.gotoIf ".assets" fun c => c.resources.currentMember == 0)
      (by rw [hevent]; rfl)
  have hnone : chart.declared leaf Event.eventless.name = [] :=
    hrest.resolve_left (by rw [hevent]; decide)
  have hresources : chart.keyOf i = "resources" := by rw [Chart.keyOf_of_node htaken.node, hkey]
  have hmember := isOnMember_of_rest hchart hleaf hpage htaken.above hresources hnone
    (beq_eq_false_iff_ne.1 hnotFirst)
  rw [hback, Action.outcomes_cons, Action.outcomes_cons, Action.outcomes_nil, Action.outcome_keep]
  exact Context.isOnMember_previousMember hc.valid (by rw [hc.resources, hmember]) event

/-- **The way to a guarded leaf** has looked at the cursor, or comes from where it is in range. -/
theorem mayEnter_of_taken
    (hrest : event.name = Event.eventless.name ∨ chart.declared leaf Event.eventless.name = [])
    {target : NodeId} (htarget : t.target = some target) :
    (Action.outcomes event t.actions c).MayEnter (chart.keyOf (chart.landing target)) := by
  have hway : (n.key, k) ∈ layout.waysTo (chart.keyOf (chart.landing target)) :=
    waysTo_eq_layout hchart _ ▸ htaken.mem_waysTo htarget
  constructor
  case memberDetails => exact fun hkey => hasMemberAtCursor_of_taken hchart htaken hc (hkey ▸ hway)
  case income =>
    exact fun hkey => isOnMember_of_taken_income hchart htaken hc hleaf hpage (hkey ▸ hway)
  case jobs => exact fun hkey => holderHasJob_of_taken hchart htaken hc (hkey ▸ hway)
  case checkMember =>
    exact fun hkey =>
      isOnMember_of_taken_checkMember hchart htaken hc hleaf hpage hrest (hkey ▸ hway)

end

/-! ## After a page is entered -/

section

variable {chart : Chart Context Env} (hchart : Wizard.chart = .ok chart) {i : NodeId}
  {n : Node Context Env} (hn : chart.node? i = some n) {c : Context} (hc : c.Valid)

omit [Services Env] in
variable (Env) in
/-- Entering a page changes no cursor before what the page adds to it. -/
lemma agreesWith_outcomes_page (hc : c.Valid) (sectionKey key : String) (event : Event) :
    c.AgreesWith (Action.outcomes event (page sectionKey key : WizardNode Env).entry c) := by
  refine hc.agreesWith.outcomes ?_ event
  simp [page, atomic, keepsCursors_set]

include hchart hn hc

/-- **The entry of a leaf** makes of what has to hold before what holds there. -/
theorem onPage_of_entry (hmay : c.MayEnter n.key) (event : Event) :
    (Action.outcomes event n.entry c).OnPage n.key := by
  constructor
  case memberDetails =>
    intro hkey
    have hentry := entry_eq_of_key hchart filter_member_details hn hkey
    have hpage : c.AgreesWith (Action.outcomes event n.entry c) :=
      hentry ▸ agreesWith_outcomes_page Env hc "household" "member-details" event
    rw [hpage.household]
    exact hmay.memberDetails hkey
  case assets =>
    intro hkey
    have hentry : n.entry =
        (page "resources" "assets" : WizardNode Env).entry ++ [setHolder fun _ => 0] :=
      entry_eq_of_key hchart filter_assets hn hkey
    have hpage := agreesWith_outcomes_page Env hc "resources" "assets" event
    rw [hentry, Action.outcomes_append, Action.outcomes_cons, Action.outcomes_nil,
      Context.resources_setHolder hpage.valid]
    exact Nat.le_zero.1 (Answer.index_nat_le 0)
  case income =>
    intro hkey
    have hentry : n.entry =
        (page "resources" "income" : WizardNode Env).entry ++ [setJob fun _ => 0] :=
      entry_eq_of_key hchart filter_income hn hkey
    have hpage := agreesWith_outcomes_page Env hc "resources" "income" event
    rw [hentry, Action.outcomes_append, Action.outcomes_cons, Action.outcomes_nil,
      Context.resources_setJob hpage.valid, hpage.resources]
    exact hmay.income hkey
  case jobs =>
    intro hkey
    have hentry : n.entry = (page "resources" "jobs" : WizardNode Env).entry ++ [ensureJob] :=
      entry_eq_of_key hchart filter_jobs hn hkey
    have hpage := agreesWith_outcomes_page Env hc "resources" "jobs" event
    rw [hentry, Action.outcomes_append, Action.outcomes_cons, Action.outcomes_nil]
    exact Context.isOnJob_ensureJob hpage.valid (hpage.holderHasJob.trans (hmay.jobs hkey)) event
  case checkMember =>
    intro hkey
    have hentry : n.entry = [] := entry_eq_of_key hchart filter_check_member hn hkey
    rw [hentry, Action.outcomes_nil]
    exact hmay.checkMember hkey

end

/-! ## All along a run -/

/-- Whether the context is valid and holds what the active leaf asks of it. -/
structure OnCourse (chart : Chart Context Env) (machine : Machine Context Env) : Prop where
  valid : machine.context.Valid
  onPage : ∀ leaf, machine.leaf = some leaf → machine.context.OnPage (chart.keyOf leaf)

/-- Whether one may start at a node, whatever the context is. -/
def permits (chart : Chart Context Env) (target : NodeId) : Prop :=
  chart.keyOf (chart.landing target) ∉ guardedKeys ∧
    (target = Chart.root ∨ ∃ n, chart.node? target = some n)

section

variable {chart : Chart Context Env} (hchart : Wizard.chart = .ok chart)

include hchart

/-- Compound nodes on the way down leave the cursors alone. -/
lemma mayEnter_compound {key : String} {event : Event} (i : NodeId) (n : Node Context Env)
    (c : Context) (hn : chart.node? i = some n) (hkind : n.kind = .compound)
    (hc : c.Valid ∧ c.MayEnter key) :
    (Action.outcomes event n.entry c).Valid ∧ (Action.outcomes event n.entry c).MayEnter key := by
  have hagrees := hc.1.agreesWith.outcomes (keepsCursors_entry hchart hn hkind) event
  exact ⟨hagrees.valid, hagrees.mayEnter hc.2⟩

lemma onCourse_of_entry {m : Macrostep Context Env} {landing : NodeId} {n : Node Context Env}
    (hn : chart.node? landing = some n) (hactive : m.machine.leaf = some landing) {c : Context}
    (hc : c.Valid ∧ c.MayEnter (chart.keyOf landing)) {event : Event}
    (hcontext : m.machine.context = Action.outcomes event n.entry c) :
    OnCourse chart m.machine := by
  have hkey := Chart.keyOf_of_node hn
  constructor
  case valid =>
    rw [hcontext]
    exact hc.1.outcomes event n.entry
  case onPage =>
    intro leaf hleaf
    obtain rfl := Option.some.inj (hactive.symm.trans hleaf)
    rw [hcontext, hkey]
    exact onPage_of_entry hchart hn hc.1 (hkey ▸ hc.2) event

/-- **A transition keeps the course.** -/
lemma onCourse_take {m : Macrostep Context Env} {event : Event} {leaf : NodeId}
    {t : Transition Context} (h : OnCourse chart m.machine) (hactive : m.machine.leaf = some leaf)
    (hleaf : chart.IsLeaf leaf)
    (hrest : event.name = Event.eventless.name ∨ chart.declared leaf Event.eventless.name = [])
    (ht : chart.choose? leaf m.machine.context event.name = some t) :
    OnCourse chart (m.take chart event (chart.moves leaf t)).machine := by
  have htree := Blueprint.isTree_of_build hchart
  obtain ⟨i, n, k, htaken⟩ := Chart.exists_takenAt ht
  have hmem := List.mem_of_getElem? htaken.position
  obtain ⟨hinternal, target, htarget⟩ := exists_target hchart htaken.node hmem
  have hgoes : t.stays chart leaf = false := by simp [Transition.stays, htarget, hinternal]
  obtain ⟨up, down, hpass, hmoves⟩ := htree.moves_passage hleaf htaken.node hmem htarget hgoes
  obtain ⟨l, hl, -⟩ := id hpass.target
  obtain ⟨c, hc, hcontext⟩ := Macrostep.context_passage htree hl (mayEnter_compound hchart) hpass
    (fun j q c hq hc => hc.outcomes (keepsCursors_exit hchart hq) event)
    (fun c hc => ⟨hc.valid.outcomes event t.actions,
      mayEnter_of_taken hchart htaken hc hleaf (h.onPage leaf hactive) hrest htarget⟩)
    h.valid.agreesWith
  rw [hmoves]
  exact onCourse_of_entry hchart hl (Macrostep.take_passage_leaf hl t.actions m) hc hcontext

/-- **The course is kept** from the first entry on. -/
lemma steady_onCourse : chart.Steady (permits chart) (OnCourse chart) := by
  constructor
  case entry =>
    intro machine target h hpermits
    have htree := Blueprint.isTree_of_build hchart
    obtain ⟨n, hn⟩ := htree.exists_of_entry hpermits.2
    obtain ⟨down, hline, hplan⟩ := htree.firstMoves_eq hn
    obtain ⟨l, hl, -⟩ := htree.isLeaf_landing hn
    obtain ⟨c, hc, hcontext⟩ := Macrostep.context_entry (m := { machine }) htree hl
      (mayEnter_compound hchart) (by rw [hline, List.append_nil])
      ⟨h.valid, Context.mayEnter_of_notMem hpermits.1 _⟩
    rw [hplan]
    refine onCourse_of_entry hchart hl ?_ hc hcontext
    rw [Macrostep.take_leaf, Macrostep.foldl_entry_leaf hl]
  case event =>
    intro m event leaf t h hactive hleaf hrest ht
    exact onCourse_take hchart h hactive hleaf (.inr hrest) ht
  case eventless =>
    intro m leaf t h hactive hleaf ht
    exact onCourse_take hchart h hactive hleaf (.inl rfl) ht
  case idle =>
    intro machine invocations clock h
    exact ⟨h.valid, h.onPage⟩

end

/-- On course, the cursors are in range for the page that is shown. -/
lemma OnCourse.inRange {s : Session Context Env S} (h : OnCourse s.chart s.machine)
    (hchart : Wizard.chart = .ok s.chart) : s.machine.context.InRange s.leafPath := by
  have hpath : s.leafPath = ((s.machine.leaf.bind s.chart.node?).map (·.path)).getD "" := by
    rw [Session.leafPath, Machine.leafPath]
    cases s.machine.leaf <;> rfl
  cases hnode : s.machine.leaf.bind s.chart.node? with
  | none =>
      rw [hpath, hnode, Option.map_none, Option.getD_none]
      constructor <;> exact fun hp => absurd hp (by decide)
  | some n =>
      obtain ⟨leaf, hactive, hn⟩ := Option.bind_eq_some_iff.1 hnode
      obtain ⟨hmemberDetails, hassets, hincome, hjobs⟩ := (placed hchart hn).pages
      have hpage := h.onPage leaf hactive
      rw [Chart.keyOf_of_node hn] at hpage
      rw [hpath, hnode]
      exact ⟨fun hp => hpage.memberDetails (hmemberDetails hp),
        fun hp => hpage.assets (hassets hp),
        fun hp => of_decide_eq_true (hpage.income (hincome hp)),
        fun hp => hpage.jobs (hjobs hp)⟩

variable [Storage S]

/-- **No page of a loop is shown with a cursor out of range**, in whatever context the wizard is
started, if it is started at the root or at a global id. -/
theorem inRange_of_run {s₀ s : Session Context Env S} {calls : List Call}
    (hchart : Wizard.chart = .ok s₀.chart) (hceiling : 5 ≤ s₀.settings.maxEventlessSteps)
    (hnew : s₀.machine.leaf = none) {v : Json}
    (hcontext : Context.decode v = some s₀.machine.context)
    (hcalls : ∀ reference, .startAt reference ∈ calls →
      ∃ i n id, s₀.chart.node? i = some n ∧ n.id = some id ∧ reference = "#" ++ id)
    (run : Run s₀ calls s) : s.machine.context.InRange s.leafPath := by
  have hrest : s₀.machine.AtRest s₀.chart := Machine.atRest_of_not_started hnew
  have hcourse : OnCourse s₀.chart s₀.machine := by
    refine ⟨Context.valid_of_decode hcontext, fun leaf hleaf => ?_⟩
    rw [hnew] at hleaf
    cases hleaf
  have hpermits : ∀ c ∈ calls, ∀ target, c.Enters s₀.chart target → permits s₀.chart target := by
    rintro c hc target (⟨rfl, rfl⟩ | ⟨reference, rfl, hfound⟩)
    · exact ⟨keyOf_landing_root hchart, .inl rfl⟩
    · obtain ⟨i, n, id, hn, hid, rfl⟩ := hcalls reference hc
      exact ⟨keyOf_landing_notMem hchart hn hid hfound, .inr (Chart.node?_of_lookup? hfound)⟩
  obtain ⟨hsame, -, -, hfinal⟩ :=
    run.settled (settlesWithin hchart) hceiling (steady_onCourse hchart) hrest hcourse hpermits
  rw [← hsame] at hchart hfinal
  exact hfinal.inRange hchart

/-- Answers with a cursor beyond all members. -/
def strayed : Json := .record [("resources", .record [("currentMemberIndex", Json.nat 7)])]

set_option maxRecDepth 100000 in
lemma strayed_computed :
    ((Context.decode strayed).any fun c => decide (c.resources.currentMember = 7) &&
      let s : Session Context Script Memory := Session.new scripted.chart c
      (s.call 8 (.startAt "#resources")).any fun s =>
        decide (s.leafPath = "form.resources.assets")) = true := by
  decide +kernel

/-- The resources are entered with the cursor beyond all members. -/
theorem inRange_of_run_strayed : ∃ (c : Context) (s : Session Context Script Memory),
    Context.decode strayed = some c ∧ c.resources.currentMember = 7 ∧
      Run (Session.new scripted.chart c) [.startAt "#resources"] s ∧
      s.leafPath = "form.resources.assets" ∧ s.machine.context.resources.currentMember = 0 := by
  obtain ⟨c, hc, h⟩ := (Option.any_eq_true _ _).1 strayed_computed
  obtain ⟨hcursor, h⟩ := Bool.and_eq_true_iff.1 h
  obtain ⟨s, hcall, hpath⟩ := (Option.any_eq_true _ _).1 h
  have run : Run (Session.new scripted.chart c) [.startAt "#resources"] s :=
    Run.nil.snoc 8 _ hcall
  have hknown : (scripted.chart.nodes.zipIdx.any fun e => e.1.id == some "resources") = true := by
    decide +kernel
  have hcalls : ∀ reference, .startAt reference ∈ [Call.startAt "#resources"] →
      ∃ i n id, scripted.chart.node? i = some n ∧ n.id = some id ∧ reference = "#" ++ id := by
    intro reference hreference
    obtain rfl : reference = "#resources" := by simpa using hreference
    obtain ⟨e, he, hid⟩ := List.any_eq_true.1 hknown
    exact ⟨e.2, e.1, "resources", List.mk_mem_zipIdx_iff_getElem?.1 he, beq_iff_eq.1 hid, rfl⟩
  have hchart : Wizard.chart =
      .ok (Session.new scripted.chart c : Session Context Script Memory).chart := scripted_chart
  have hceiling : 5 ≤ ({} : Settings).maxEventlessSteps := by decide
  have hrange : s.machine.context.InRange s.leafPath :=
    inRange_of_run hchart hceiling rfl hc hcalls run
  have hpath : s.leafPath = "form.resources.assets" := of_decide_eq_true hpath
  exact ⟨c, s, hc, of_decide_eq_true hcursor, run, hpath, hrange.assets hpath⟩

end Wizard

end FormChart.Registration
