import FormChart.Proofs.Session.Reaching
import FormChart.Proofs.Registration.Locality
import FormChart.Proofs.Registration.Ranges

/-!
# Walking through the wizard keeps the answers

The events with which a user walks through the wizard, forwards and backwards, bring no answers if
they bring nothing.  But on the way cursors are moved, and a cursor is part of a record that is
written as a whole: the household with all its members and their jobs, or the resources.  So every
step writes answers back that it only means to look at.

Nothing is lost by that (`Context.WalksTo`).  One step adds something: the page of a job behind the
last one adds a blank job.  **It rests on that page**, so at most one job is added by an event
(`Wizard.walking_keeps_answers`).
-/

namespace FormChart.Registration

/-! ## What is kept of the records -/

/-- Whether a member is another one with some jobs added at the end, apart from the cursor over the
jobs and the answer whether there are other jobs. -/
structure Member.WalksTo (added : List Job) (m m' : Member) : Prop where
  settled : m' = { m with
    hasOtherJobs := m'.hasOtherJobs
    income := { m.income with currentJob := m'.income.currentJob, jobs := m'.income.jobs } }
  jobs : m'.income.jobs = m.income.jobs ++ added

/-- The jobs that are added to a member if the one who grows is known: a blank one, or none. -/
def blankJob (grown : Option Nat) (i : Nat) : List Job := if grown = some i then [{}] else []

/-- Whether a household has the members of another one, of whom one at most has grown by a blank
job, apart from the cursors and the answers whether there are other jobs. -/
structure Household.WalksTo (grown : Option Nat) (h h' : Household) : Prop where
  numMembers : h'.numMembers = h.numMembers
  length : h'.members.length = h.members.length
  members : ∀ (i : Nat) (m : Member), h.members[i]? = some m →
    ∃ m', h'.members[i]? = some m' ∧ m.WalksTo (blankJob grown i) m'

/-- Whether a context has the answers of another one, but for a blank job that one member at most
has got. -/
structure Context.WalksTo (grown : Option Nat) (c c' : Context) : Prop where
  basicInfo : c'.basicInfo = c.basicInfo
  impact : c'.impact = c.impact
  submit : c'.submit = c.submit
  disasters : c'.disasters = c.disasters
  registration : c'.registration = c.registration
  config : c'.config = c.config
  household : c.household.WalksTo grown c'.household
  membersWithIncome : c'.resources.membersWithIncome = c.resources.membersWithIncome

@[simp] lemma blankJob_none (i : Nat) : blankJob none i = [] := rfl

namespace Member

variable {m m' m'' : Member}

lemma WalksTo.refl (m : Member) : m.WalksTo [] m := ⟨rfl, (List.append_nil _).symm⟩

lemma WalksTo.trans {first rest : List Job} (h : m.WalksTo first m') (h' : m'.WalksTo rest m'') :
    m.WalksTo (first ++ rest) m'' := by
  constructor
  case settled =>
    have hsettled := h'.settled
    rw [h.settled] at hsettled
    exact hsettled
  case jobs => rw [h'.jobs, h.jobs, List.append_assoc]

/-- Reading a member back moves the cursor at most. -/
lemma walksTo_reread (m : Member) : m.WalksTo [] m.reread := ⟨rfl, (List.append_nil _).symm⟩

lemma walksTo_withJob (index : Income → Nat) (m : Member) :
    m.WalksTo [] (Wizard.withJob index m) := ⟨rfl, (List.append_nil _).symm⟩

lemma walksTo_withPreviousJob (m : Member) : m.WalksTo [] (Wizard.withPreviousJob m) :=
  ⟨rfl, (List.append_nil _).symm⟩

/-- Opening a page of a job adds a blank one at most. -/
lemma walksTo_withCurrentJob (m : Member) :
    m.WalksTo (if m.income.currentJob < m.income.jobs.length then [] else [{}])
      (Wizard.withCurrentJob m) := by
  unfold Wizard.withCurrentJob
  split
  next => exact .refl m
  next => exact ⟨rfl, rfl⟩

end Member

namespace Household

variable {grown : Option Nat} {h h' h'' : Household}

lemma WalksTo.refl (h : Household) : h.WalksTo none h :=
  ⟨rfl, rfl, fun _ m hm => ⟨m, hm, .refl m⟩⟩

lemma WalksTo.trans (first : h.WalksTo none h') (rest : h'.WalksTo grown h'') :
    h.WalksTo grown h'' := by
  refine ⟨rest.numMembers.trans first.numMembers, rest.length.trans first.length,
    fun i m hm => ?_⟩
  obtain ⟨m', hm', hwalks⟩ := first.members i m hm
  obtain ⟨m'', hm'', hwalks'⟩ := rest.members i m' hm'
  exact ⟨m'', hm'', hwalks.trans hwalks'⟩

/-- Reading a household back moves the cursors at most. -/
lemma WalksTo.reread (hwalks : h.WalksTo grown h') : h.WalksTo grown h'.reread := by
  refine ⟨hwalks.numMembers, by simpa [Household.reread] using hwalks.length, fun i m hm => ?_⟩
  obtain ⟨m', hm', hmember⟩ := hwalks.members i m hm
  refine ⟨m'.reread, by simp [Household.reread, hm'], ?_⟩
  simpa using hmember.trans m'.walksTo_reread

/-- It is read back, since the fields that the members carry along are the old ones. -/
lemma WalksTo.decode_encode (hwalks : h.WalksTo grown h') (hvalid : h.Valid) :
    decode h'.encode = some h'.reread := by
  refine decode_encode_eq (hwalks.numMembers ▸ hvalid.numMembers) fun m' hm' => ?_
  obtain ⟨i, hi⟩ := List.mem_iff_getElem?.1 hm'
  obtain ⟨m, hm⟩ : ∃ m, h.members[i]? = some m := by
    have hlt := (List.getElem?_eq_some_iff.1 hi).1
    exact ⟨_, List.getElem?_eq_getElem (hwalks.length ▸ hlt)⟩
  obtain ⟨k, hk, hmember⟩ := hwalks.members i m hm
  obtain rfl : k = m' := Option.some.inj (hk.symm.trans hi)
  have hold := hvalid.members m (List.mem_of_getElem? hm)
  have hextra : k.extra = m.extra := by rw [hmember.settled]
  have hincome : k.income.extra = m.income.extra := by rw [hmember.settled]
  exact ⟨hextra ▸ hold.extra, hincome ▸ hold.income.extra⟩

/-- A household with one member changed. -/
lemma walksTo_modifyMember {i : Nat} {f : Member → Member}
    (hf : ∀ m, h.members[i]? = some m → m.WalksTo (blankJob grown i) (f m))
    (hgrown : ∀ j, grown = some j → j = i) : h.WalksTo grown (h.modifyMember i f) := by
  refine ⟨rfl, by simp [modifyMember], fun j m hm => ?_⟩
  rw [modifyMember, List.getElem?_modify, hm]
  by_cases hij : i = j
  · subst hij
    exact ⟨f m, by simp, hf m hm⟩
  · have hnone : blankJob grown j = [] := if_neg fun hj => hij (hgrown j hj).symm
    exact ⟨m, by simp [hij], hnone ▸ .refl m⟩

end Household

namespace Context

variable {grown : Option Nat} {c c' c'' : Context}

lemma WalksTo.refl (c : Context) : c.WalksTo none c :=
  ⟨rfl, rfl, rfl, rfl, rfl, rfl, .refl c.household, rfl⟩

lemma WalksTo.trans (first : c.WalksTo none c') (rest : c'.WalksTo grown c'') :
    c.WalksTo grown c'' where
  basicInfo := rest.basicInfo.trans first.basicInfo
  impact := rest.impact.trans first.impact
  submit := rest.submit.trans first.submit
  disasters := rest.disasters.trans first.disasters
  registration := rest.registration.trans first.registration
  config := rest.config.trans first.config
  household := first.household.trans rest.household
  membersWithIncome := rest.membersWithIncome.trans first.membersWithIncome

/-- The household in which the member is changed whose income is asked about. -/
lemma walksTo_withHolderChanged {f : Member → Member} (hf : ∀ m : Member, m.WalksTo [] (f m)) :
    c.household.WalksTo none (c.withHolderChanged f) := by
  unfold withHolderChanged
  split
  next i _ => exact Household.walksTo_modifyMember (fun m _ => hf m) nofun
  next => exact .refl _

/-- The household in which a page of a job is opened. -/
lemma exists_walksTo_withCurrentJob (c : Context) :
    ∃ grown, c.household.WalksTo grown (c.withHolderChanged Wizard.withCurrentJob) := by
  unfold withHolderChanged
  split
  next i _ =>
      cases hm : c.household.members[i]? with
      | none => exact ⟨none, Household.walksTo_modifyMember (by simp [hm]) nofun⟩
      | some m =>
          refine ⟨if m.income.currentJob < m.income.jobs.length then none else some i,
            Household.walksTo_modifyMember (fun m' hm' => ?_) (fun j hj => ?_)⟩
          · obtain rfl : m = m' := Option.some.inj (hm.symm.trans hm')
            convert m.walksTo_withCurrentJob using 1
            split <;> simp [blankJob]
          · split at hj
            · cases hj
            · exact (Option.some.inj hj).symm
  next => exact ⟨none, .refl _⟩

end Context

/-! ## What actions keep -/

/-- Whether an action keeps the answers if nothing comes with the event. -/
def Walks (a : Action Context) : Prop :=
  ∀ (event : Event) (c : Context), event.payload = {} → c.Valid → c.WalksTo none (a.outcome event c)

namespace Context

variable {c : Context} {event : Event}

/-- A field that a patch does not name stays as it is, whether the patch fits or not. -/
lemma Valid.get_outcome_assign (h : c.Valid) {patch : Context → Event → Patch}
    {remarks : Context → Event → List Notice} {f : Field} (hf : f ∈ fields)
    (hpatch : (patch c event).get? f.name = none) :
    f.get ((Action.assign patch remarks).outcome event c) = f.get c := by
  rw [Action.outcome]
  cases happly : FormChart.apply c (patch c event) .replace with
  | error cause => rfl
  | ok next =>
      have hpatched := h.apply_eq_ok_iff_patched.1 happly f hf
      simp only [Field.patched?, hpatch, Option.some.injEq] at hpatched
      exact hpatched.symm

/-- A household that keeps the answers is taken over. -/
lemma Valid.walksTo_setHousehold (h : c.Valid) {f : Context → Household} {grown : Option Nat}
    (hwalks : c.household.WalksTo grown (f c)) :
    c.WalksTo grown ((Wizard.setHousehold f).outcome event c) := by
  rw [outcome_setHousehold h (hwalks.decode_encode h.household)]
  exact ⟨rfl, rfl, rfl, rfl, rfl, rfl, hwalks.reread, rfl⟩

end Context

namespace Wizard

/-- The names of the fields that hold answers. -/
def answerFields : List String :=
  ["basicInfo", "household", "impact", "resources", "submit", "disasters", "registration", "config"]

/-- Setting other fields. -/
@[simp] lemma walks_set {fields : List (String × Json)} (h : ∀ e ∈ fields, e.1 ∉ answerFields) :
    Walks (.set fields) := by
  intro event c _ hc
  have hkept : ∀ f ∈ Context.fields, f.name ∈ answerFields →
      f.get ((Action.set fields).outcome event c) = f.get c := by
    intro f hf hname
    refine hc.get_outcome_assign hf ?_
    rw [Dict.get?_ofList, List.lookup_eq_none_iff]
    intro e he
    have hne : e.1 ≠ f.name := fun heq => h e (List.mem_reverse.1 he) (heq ▸ hname)
    exact bne_iff_ne.2 hne.symm
  simp only [Context.fields, List.forall_mem_cons] at hkept
  obtain ⟨hbasicInfo, hhousehold, himpact, hresources, hsubmit, hdisasters, hregistration, hconfig,
    -⟩ := hkept
  constructor
  case basicInfo => exact hbasicInfo (by decide)
  case impact => exact himpact (by decide)
  case submit => exact hsubmit (by decide)
  case disasters => exact hdisasters (by decide)
  case registration => exact hregistration (by decide)
  case config => exact hconfig (by decide)
  case household => exact (hhousehold (by decide)).symm ▸ .refl c.household
  case membersWithIncome => exact congrArg Resources.membersWithIncome (hresources (by decide))

@[simp] lemma walks_setMember (index : Household → Nat) : Walks (setMember index) :=
  fun _ _ _ hc => hc.walksTo_setHousehold ⟨rfl, rfl, fun _ m hm => ⟨m, hm, .refl m⟩⟩

@[simp] lemma walks_setJob (index : Income → Nat) : Walks (setJob index) :=
  fun _ _ _ hc => hc.walksTo_setHousehold
    (Context.walksTo_withHolderChanged (Member.walksTo_withJob index))

@[simp] lemma walks_backOneJob : Walks backOneJob :=
  fun _ _ _ hc => hc.walksTo_setHousehold
    (Context.walksTo_withHolderChanged Member.walksTo_withPreviousJob)

@[simp] lemma walks_setHolder (index : Resources → Nat) : Walks (setHolder index) := by
  intro event c _ hc
  have hread := Resources.decode_encode_eq (r := c.resources.movedTo (index c.resources))
    hc.resources.membersWithIncome
  rw [setHolder, Context.outcome_setResources hc (f := fun r => r.movedTo (index r)) hread]
  exact ⟨rfl, rfl, rfl, rfl, rfl, rfl, .refl c.household, rfl⟩

/-- There is nothing to forward. -/
@[simp] lemma walks_forward : Walks .forward := by
  intro event c hpayload _
  rw [Action.outcome, hpayload]
  exact .refl c

@[simp] lemma walks_effect (e : Effect) : Walks (.effect e) := fun _ c _ _ => .refl c

@[simp] lemma walks_keep : Walks .keep := walks_effect _

@[simp] lemma walks_log (message : String) : Walks (.log message) := walks_effect _

/-- The events with which one walks through the wizard. -/
def walkNames : List String := [next, edit, exit, previousMember, previousJob, firstMember]

/-- Whether a node keeps the answers when it is left, when one walks on from it, and when it is
entered, unless it is the page of a job. -/
@[mk_iff]
structure Careful {Env : Type} (b : WizardNode Env) : Prop where
  entry : b.key ≠ "jobs" → ∀ a ∈ b.entry, Walks a
  exit : ∀ a ∈ b.exit, Walks a
  on : ∀ e ∈ b.arrows, e.1 ∈ Event.eventless.name :: walkNames → ∀ a ∈ e.2.actions, Walks a

/-- **All nodes of the wizard are careful.** -/
lemma careful_blueprint {Env : Type} [Services Env] :
    (blueprint : WizardNode Env).Everywhere Careful := by
  simp [blueprint, welcome, form, preRegistration, getPrepared, basicInfo, identity, household,
    impact, resources, review, submit, nextSteps, quitting, outcome, sectionNode, compound, page,
    pageTo, decision, entering, atomic, Arrow.goto, Arrow.gotoIf, Arrow.doing, Arrow.forwardTo,
    Blueprint.everywhere_mk, careful_iff, Blueprint.arrows, Invoke.handlers, walkNames, next, edit,
    exit, quit, reset, previousMember, previousJob, firstMember, Event.doneInvoke,
    Event.errorInvoke, Event.eventless, answerFields, loadingField]

/-- On the page of a job one can rest. -/
lemma jobs_layout : ∀ e ∈ layout.nodes.zipIdx, e.1.key = "jobs" →
    (layout.declared e.2 Event.eventless.name).isEmpty = true := by
  decide +kernel

section

variable {Env S : Type} [Services Env] {chart : Chart Context Env}
  (hchart : Wizard.chart = .ok chart) {i : NodeId} {n : Node Context Env}
  (hn : chart.node? i = some n)

include hchart hn

lemma careful : ∃ m, (blueprint : WizardNode Env).outline.node i m = n ∧ Careful m.blueprint ∧
    n.key = m.blueprint.key := by
  obtain ⟨m, hm, hmem, hkey⟩ := exists_part hchart hn
  exact ⟨m, hm, careful_blueprint _ hmem, hkey⟩

lemma walks_entry (hkey : n.key ≠ "jobs") : ∀ a ∈ n.entry, Walks a := by
  obtain ⟨m, rfl, hm, hsame⟩ := careful hchart hn
  exact hm.entry (hsame ▸ hkey)

lemma walks_exit : ∀ a ∈ n.exit, Walks a := by
  obtain ⟨m, rfl, hm, -⟩ := careful hchart hn
  exact hm.exit

lemma walks_on {event : String} {t : Transition Context} (ht : (event, t) ∈ n.on)
    (hevent : event ∈ Event.eventless.name :: walkNames) : ∀ a ∈ t.actions, Walks a := by
  obtain ⟨m, rfl, hm, -⟩ := careful hchart hn
  obtain ⟨arrow, harrow, heq⟩ := List.mem_map.1 ht
  cases heq
  exact hm.on arrow harrow hevent

lemma declared_jobs (hkey : n.key = "jobs") : chart.declared i Event.eventless.name = [] := by
  have h := of_layout hchart hn (Q := fun n i => n.key = "jobs" →
    (layout.declared i Event.eventless.name).isEmpty = true) jobs_layout hkey
  rwa [← withoutTasks_eq_layout hchart, Chart.declared_withoutTasks, List.isEmpty_iff] at h

end

/-! ## One step -/

variable {Env S : Type}

/-- Whether a machine has the answers of a context, but for a blank job that was added where it
rests. -/
structure Walked (chart : Chart Context Env) (c₀ : Context) (machine : Machine Context Env) :
    Prop where
  valid : machine.context.Valid
  walks : ∃ grown, c₀.WalksTo grown machine.context
  moving : ∀ leaf, machine.leaf = some leaf → chart.declared leaf Event.eventless.name ≠ [] →
    c₀.WalksTo none machine.context

/-- What several actions keep. -/
lemma walksTo_outcomes {c₀ c : Context} {event : Event} (hpayload : event.payload = {})
    {actions : List (Action Context)} (hactions : ∀ a ∈ actions, Walks a)
    (hc : c.Valid ∧ c₀.WalksTo none c) :
    (Action.outcomes event actions c).Valid ∧
      c₀.WalksTo none (Action.outcomes event actions c) :=
  Action.outcomes_keep (Q := fun c => c.Valid ∧ c₀.WalksTo none c)
    (fun a ha c hc => ⟨hc.1.outcome event a, hc.2.trans (hactions a ha event c hpayload hc.1)⟩) hc

/-- Making sure of the current job adds a blank one at most. -/
lemma exists_walksTo_ensureJob {c : Context} (hc : c.Valid) (event : Event) :
    ∃ grown, c.WalksTo grown (ensureJob.outcome event c) := by
  obtain ⟨grown, hgrown⟩ := c.exists_walksTo_withCurrentJob
  exact ⟨grown, hc.walksTo_setHousehold hgrown⟩

/-- The entry of a leaf adds a blank job at most, and only where one can rest. -/
lemma exists_walksTo_entry [Services Env] {chart : Chart Context Env}
    (hchart : Wizard.chart = .ok chart) {i : NodeId} {n : Node Context Env}
    (hn : chart.node? i = some n) {c₀ c : Context} {event : Event} (hpayload : event.payload = {})
    (hc : c.Valid ∧ c₀.WalksTo none c) :
    ∃ grown, c₀.WalksTo grown (Action.outcomes event n.entry c) ∧
      (chart.declared i Event.eventless.name ≠ [] → grown = none) := by
  by_cases hkey : n.key = "jobs"
  · have hentry : n.entry = [.set [("currentStep", .str "jobs")], .keep, ensureJob] :=
      entry_eq_of_key hchart filter_jobs hn hkey
    have hfirst : ∀ a ∈ [Action.set [("currentStep", Json.str "jobs")], .keep], Walks a := by
      simp [answerFields]
    obtain ⟨hvalid, hwalks⟩ := walksTo_outcomes hpayload hfirst hc
    obtain ⟨grown, hgrown⟩ := exists_walksTo_ensureJob hvalid event
    refine ⟨grown, ?_, fun hne => absurd (declared_jobs hchart hn hkey) hne⟩
    have hall := hwalks.trans hgrown
    rw [hentry]
    simp only [Action.outcomes_cons, Action.outcomes_nil] at hall ⊢
    exact hall
  · exact ⟨none, (walksTo_outcomes hpayload (walks_entry hchart hn hkey) hc).2, fun _ => rfl⟩

/-- **One step** keeps the answers, but for a blank job where the machine can rest. -/
lemma walked_take [Services Env] {chart : Chart Context Env} (hchart : Wizard.chart = .ok chart)
    {m : Macrostep Context Env} {event : Event} {leaf : NodeId} {t : Transition Context}
    (hevent : event.name ∈ Event.eventless.name :: walkNames) (hpayload : event.payload = {})
    {c₀ : Context} (hm : m.machine.context.Valid ∧ c₀.WalksTo none m.machine.context)
    (hleaf : chart.IsLeaf leaf)
    (ht : chart.choose? leaf m.machine.context event.name = some t) :
    Walked chart c₀ (m.take chart event (chart.moves leaf t)).machine := by
  have htree := Blueprint.isTree_of_build hchart
  obtain ⟨j, k, hk, hmem⟩ := Chart.mem_on_of_choose? ht
  obtain ⟨hinternal, target, htarget⟩ := exists_target hchart hk hmem
  have hgoes : t.stays chart leaf = false := by simp [Transition.stays, htarget, hinternal]
  obtain ⟨up, down, hpass, hmoves⟩ := htree.moves_passage hleaf hk hmem htarget hgoes
  obtain ⟨n, hn, -⟩ := id hpass.target
  obtain ⟨c, hc, hcontext⟩ : ∃ c, (c.Valid ∧ c₀.WalksTo none c) ∧
      (m.take chart event (chart.moves leaf t)).machine.context =
        Action.outcomes event n.entry c := by
    rw [hmoves]
    exact Macrostep.context_passage (Q := fun c => c.Valid ∧ c₀.WalksTo none c) htree hn
      (fun i q c hq hkind hc => walksTo_outcomes hpayload (walks_entry hchart hq fun hkey => by
        have := kind_eq_of_key hchart filter_jobs hq hkey
        rw [hkind] at this
        cases this) hc) hpass
      (fun i q c hq hc => walksTo_outcomes hpayload (walks_exit hchart hq) hc)
      (fun c hc => walksTo_outcomes hpayload (walks_on hchart hk hmem hevent) hc) hm
  have hlanding : (m.take chart event (chart.moves leaf t)).machine.leaf =
      some (chart.landing target) := by
    rw [hmoves, Macrostep.take_passage_leaf hn]
  obtain ⟨grown, hwalks, hnone⟩ := exists_walksTo_entry hchart hn hpayload hc
  rw [← hcontext] at hwalks
  constructor
  case valid =>
    rw [hcontext]
    exact hc.1.outcomes event _
  case walks => exact ⟨grown, hwalks⟩
  case moving =>
    intro leaf' hactive hne
    rw [hlanding] at hactive
    cases hactive
    rw [hnone hne] at hwalks
    exact hwalks

/-! ## A whole event -/

variable [Services Env] [Storage S]

/-- **Walking through the wizard keeps the answers.**  From any leaf and with any context, an event
with which one walks on and that brings nothing comes to a context with the same answers: nothing is
changed but the cursors, what is known of where one is, and the answer whether there are other jobs,
and one member at most gets one blank job at the end. -/
theorem walking_keeps_answers {s : Session Context Env S} (hchart : Wizard.chart = .ok s.chart)
    {leaf : NodeId} (hactive : s.machine.leaf = some leaf) (hleaf : s.chart.IsLeaf leaf) {v : Json}
    (hcontext : Context.decode v = some s.machine.context) (event : Event)
    (hevent : event.name ∈ walkNames) (hpayload : event.payload = {}) :
    ∃ enough s' grown, (∀ budget, enough ≤ budget → s.send budget event = some s') ∧
      s.machine.context.WalksTo grown s'.machine.context := by
  have hvalid := Context.valid_of_decode hcontext
  have hstay := Context.WalksTo.refl s.machine.context
  obtain ⟨enough, s', hsend, hwalked⟩ := Session.exists_send event (settlesWithin hchart) hactive
    hleaf (P := Walked s.chart s.machine.context)
    ⟨hvalid, ⟨none, hstay⟩, fun _ _ _ => hstay⟩
    (fun t ht => walked_take hchart (List.mem_cons_of_mem _ hevent) hpayload ⟨hvalid, hstay⟩ hleaf
      ht)
    (fun m leaf t hm hactive hleaf ht => by
      have hmem := Chart.mem_declared_of_choose? ht
      exact walked_take hchart List.mem_cons_self rfl
        ⟨hm.valid, hm.moving leaf hactive (List.ne_nil_of_mem hmem)⟩ hleaf ht)
  obtain ⟨grown, hwalks⟩ := hwalked.walks
  exact ⟨enough, s', grown, hsend, hwalks⟩

/-- A session on the page about the income of a member who has a job that was not described yet. -/
def earning : Session Context Script Memory :=
  { Session.new scripted.chart {} with
    machine := {
      context := {
        household := { members := [{ name := { first := "Ann" }, hasJobs := some true }] }
        resources := { membersWithIncome := [0] } }
      leaf := some Leaf.income } }

set_option maxRecDepth 100000 in
lemma earning_computed : (earning.send 9 { name := next }).any (fun s =>
    s.leafPath == "form.resources.jobs" &&
      decide (s.machine.context.household.members.map (·.income.jobs) = [[{}]])) = true := by
  decide +kernel

/-- The page of the job adds a blank one to the member and keeps the rest. -/
theorem walking_keeps_answers_earning : ∃ enough s' grown,
    earning.send enough { name := next } = some s' ∧ s'.leafPath = "form.resources.jobs" ∧
      s'.machine.context.household.members.map (·.income.jobs) = [[{}]] ∧
      earning.machine.context.WalksTo grown s'.machine.context := by
  have hchart : Wizard.chart = .ok earning.chart := scripted_chart
  have hleaf : earning.chart.IsLeaf Leaf.income := by
    have hatomic : (earning.chart.node? Leaf.income).any (fun n => n.kind = .atomic) = true := by
      decide +kernel
    obtain ⟨n, hn, hkind⟩ := (Option.any_eq_true _ _).1 hatomic
    exact ⟨n, hn, .inl (of_decide_eq_true hkind)⟩
  have hcontext : Context.decode earning.machine.context.encode = some earning.machine.context := by
    decide +kernel
  obtain ⟨enough, s', grown, hsend, hwalks⟩ := walking_keeps_answers hchart rfl hleaf hcontext
    { name := next } (by decide) rfl
  obtain ⟨s, hs, hcomputed⟩ := (Option.any_eq_true _ _).1 earning_computed
  obtain ⟨hpath, hjobs⟩ := Bool.and_eq_true_iff.1 hcomputed
  -- both budgets are enough, so they give the same result
  have hlarger : earning.send (max 9 enough) { name := next } = some s :=
    Session.call_mono (c := .send { name := next }) hs (Nat.le_max_left 9 enough)
  have hsend := hsend _ (Nat.le_max_right 9 enough)
  obtain rfl : s = s' := Option.some.inj (hlarger.symm.trans hsend)
  exact ⟨max 9 enough, s, grown, hlarger, beq_iff_eq.1 hpath, of_decide_eq_true hjobs, hwalks⟩

end Wizard

end FormChart.Registration
