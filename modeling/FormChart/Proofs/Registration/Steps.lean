import FormChart.Proofs.Session.Drifting
import FormChart.Proofs.Registration.Transitions

/-!
# Steps through the loops

The loops of the wizard over members and jobs are steered by the household and the resources alone,
and nothing else in a context matters to them.  So a step is described by two contexts, which stand
for all that agree with them on the cursors (`Context.AgreesWith`):

* `Wizard.Turns` — what actions make of the one is the other;
* `Wizard.Takes` — so does a transition from one leaf to another;
* `Wizard.Settles` and `Wizard.Reaches` — so do the automatic transitions from a leaf to rest, and
  an event with the automatic transitions after it.

Each of them is put together from those before.  **An event that reaches a page this way leads a
session there** (`Wizard.Stands.exists_comesTo`).
-/

namespace FormChart.Registration

/-! ## Contexts with a cursor moved -/

namespace Member

variable {m : Member}

lemma Valid.withJob (h : m.Valid) {index : Income → Nat} (hindex : index m.income < wordBound) :
    (Wizard.withJob index m).Valid :=
  ⟨⟨hindex, h.income.extra⟩, h.extra⟩

lemma Valid.withPreviousJob (h : m.Valid) : (Wizard.withPreviousJob m).Valid :=
  ⟨⟨Nat.lt_of_le_of_lt (Nat.sub_le _ 1) h.income.currentJob, h.income.extra⟩, h.extra⟩

lemma Valid.withCurrentJob (h : m.Valid) : (Wizard.withCurrentJob m).Valid := by
  unfold Wizard.withCurrentJob
  split
  next => exact h
  next hbehind =>
      exact ⟨⟨Nat.lt_of_le_of_lt (Nat.le_of_not_lt hbehind) h.income.currentJob, h.income.extra⟩,
        h.extra⟩

end Member

namespace Context

/-- Whether the lists that the cursors walk over are no longer than 64 bits can count, as it is with
lists that are held in memory. -/
structure Bounded (c : Context) : Prop where
  members : c.household.members.length < wordBound
  jobs : ∀ m ∈ c.household.members, m.income.jobs.length < wordBound
  membersWithIncome : c.resources.membersWithIncome.length < wordBound

/-- The size of a household fits as well, whether it was answered or counted. -/
lemma Bounded.count_lt {c : Context} (h : c.Bounded) (hvalid : c.household.Valid) :
    c.household.count < wordBound := by
  unfold Household.count
  cases hnum : c.household.numMembers with
  | none => exact h.members
  | some n => exact hvalid.numMembers n hnum

/-- The context with the cursor at another member of the household. -/
def atMember (c : Context) (index : Nat) : Context :=
  { c with household := c.household.movedTo index }

/-- The context with the cursor at another member with an income. -/
def atHolder (c : Context) (index : Nat) : Context :=
  { c with resources := c.resources.movedTo index }

/-- The context with the member changed whose income is asked about. -/
def withHolder (c : Context) (f : Member → Member) : Context :=
  { c with household := c.withHolderChanged f }

variable {c₀ c : Context}

@[simp] lemma household_atMember (index : Nat) :
    (c.atMember index).household = c.household.movedTo index := rfl

@[simp] lemma resources_atMember (index : Nat) :
    (c.atMember index).resources = c.resources := rfl

@[simp] lemma household_atHolder (index : Nat) :
    (c.atHolder index).household = c.household := rfl

@[simp] lemma resources_atHolder (index : Nat) :
    (c.atHolder index).resources = c.resources.movedTo index := rfl

@[simp] lemma resources_withHolder (f : Member → Member) :
    (c.withHolder f).resources = c.resources := rfl

/-- **The member whose income is asked about** is the one that was changed. -/
@[simp] lemma holder?_withHolder (f : Member → Member) :
    (c.withHolder f).holder? = c.holder?.map f := by
  unfold holder? withHolder withHolderChanged
  cases c.resources.holderIndex? with
  | none => simp
  | some i => simp [Household.modifyMember]

/-- Other members are not changed. -/
lemma mem_members_withHolder {f : Member → Member} {m : Member}
    (h : m ∈ (c.withHolder f).household.members) :
    m ∈ c.household.members ∨ ∃ k, c.holder? = some k ∧ m = f k := by
  change m ∈ (c.withHolderChanged f).members at h
  unfold withHolderChanged at h
  split at h
  next i hi =>
      obtain ⟨j, hj⟩ := List.mem_iff_getElem?.1 h
      rw [Household.modifyMember, List.getElem?_modify] at hj
      obtain ⟨k, hk, rfl⟩ := Option.map_eq_some_iff.1 hj
      split
      next heq =>
          subst heq
          exact .inr ⟨k, by rw [holder?, hi, Option.bind_some, hk], rfl⟩
      next => exact .inl (List.mem_of_getElem? hk)
  next => exact .inl h

lemma mem_members_of_holder? {m : Member} (h : c.holder? = some m) : m ∈ c.household.members := by
  obtain ⟨i, -, hi⟩ := Option.bind_eq_some_iff.1 h
  exact List.mem_of_getElem? hi

/-- Changing a member leaves a valid household, if it leaves a valid member. -/
lemma valid_household_withHolder (h : c.household.Valid) {f : Member → Member}
    (hf : ∀ m, c.holder? = some m → m.Valid → (f m).Valid) :
    (c.withHolder f).household.Valid := by
  have hshape : (c.withHolder f).household.numMembers = c.household.numMembers ∧
      (c.withHolder f).household.currentMember = c.household.currentMember := by
    unfold withHolder withHolderChanged
    split <;> exact ⟨rfl, rfl⟩
  refine ⟨hshape.1 ▸ h.numMembers, hshape.2 ▸ h.currentMember, fun m hm => ?_⟩
  rcases mem_members_withHolder hm with hm | ⟨k, hk, rfl⟩
  · exact h.members m hm
  · exact hf k hk (h.members k (mem_members_of_holder? hk))

lemma AgreesWith.withHolderChanged (h : AgreesWith c₀ c) (f : Member → Member) :
    c.withHolderChanged f = c₀.withHolderChanged f := by
  unfold Context.withHolderChanged
  rw [h.household, h.resources]

end Context

namespace Wizard

/-! ## What actions turn a context into -/

/-- Whether some actions turn a context into another one, as far as the cursors are concerned. -/
def Turns (event : Event) (actions : List (Action Context)) (c₀ c₁ : Context) : Prop :=
  ∀ c, c₀.AgreesWith c → c₁.AgreesWith (Action.outcomes event actions c)

section Turns

variable {event : Event} {first rest : List (Action Context)} {c₀ c₁ c₂ : Context}

lemma turns_of_keepsCursors (h : ∀ a ∈ first, KeepsCursors a) : Turns event first c₀ c₀ :=
  fun _ hc => hc.outcomes h event

lemma turns_nil (c₀ : Context) : Turns event [] c₀ c₀ := fun _ hc => hc

lemma Turns.append (hfirst : Turns event first c₀ c₁) (hrest : Turns event rest c₁ c₂) :
    Turns event (first ++ rest) c₀ c₂ := by
  intro c hc
  rw [Action.outcomes_append]
  exact hrest _ (hfirst c hc)

lemma Turns.keep (h : Turns event first c₀ c₁) : Turns event (first ++ [.keep]) c₀ c₁ :=
  h.append (turns_of_keepsCursors (by simp))

/-- There is nothing to forward. -/
lemma turns_forward (h : event.payload = {}) : Turns event [.forward, .keep] c₀ c₀ := by
  intro c hc
  rw [Action.outcomes_cons, Action.outcome, h]
  exact hc

/-- One action that takes the household and the resources over from a context. -/
lemma turns_singleton {a : Action Context}
    (h : ∀ c, c₀.AgreesWith c → a.outcome event c =
      { c with household := c₁.household, resources := c₁.resources }) :
    Turns event [a] c₀ c₁ := by
  intro c hc
  have hvalid := hc.valid.outcome event a
  rw [Action.outcomes_cons, Action.outcomes_nil]
  rw [h c hc] at hvalid ⊢
  exact ⟨hvalid, rfl, rfl⟩

lemma turns_setHolder {index : Resources → Nat} (h : index c₀.resources < wordBound) :
    Turns event [setHolder index] c₀ (c₀.atHolder (index c₀.resources)) := by
  refine turns_singleton fun c hc => ?_
  have hvalid : (c₀.resources.movedTo (index c₀.resources)).Valid :=
    ⟨(hc.resources ▸ hc.valid.resources).membersWithIncome, h⟩
  have hread := Resources.decode_encode hvalid
  rw [← hc.resources] at hread
  rw [setHolder, Context.outcome_setResources hc.valid (f := fun r => r.movedTo (index r)) hread,
    hc.resources, Context.household_atHolder, ← hc.household, Context.resources_atHolder]

lemma turns_setMember {index : Household → Nat} (h : index c₀.household < wordBound) :
    Turns event [setMember index] c₀ (c₀.atMember (index c₀.household)) := by
  refine turns_singleton fun c hc => ?_
  have hvalid := hc.household ▸ hc.valid.household
  have hread : Household.decode (c₀.household.movedTo (index c₀.household)).encode = _ :=
    Household.decode_encode ⟨hvalid.numMembers, h, hvalid.members⟩
  rw [← hc.household] at hread
  rw [setMember, Context.outcome_setHousehold hc.valid
    (f := fun c => c.household.movedTo (index c.household)) hread, hc.household,
    Context.household_atMember, Context.resources_atMember, hc.resources]

/-- The member whose income is asked about is changed. -/
lemma turns_changeHolder {f : Member → Member}
    (hf : ∀ m, c₀.holder? = some m → m.Valid → (f m).Valid) :
    Turns event [changeHolder f] c₀ (c₀.withHolder f) := by
  refine turns_singleton fun c hc => ?_
  have hread := Household.decode_encode
    (Context.valid_household_withHolder (hc.household ▸ hc.valid.household) hf)
  change Household.decode (c₀.withHolderChanged f).encode = _ at hread
  rw [← hc.withHolderChanged] at hread
  rw [changeHolder, Context.outcome_setHousehold hc.valid (f := (·.withHolderChanged f)) hread,
    Context.resources_withHolder, hc.resources]

end Turns

/-! ## What the parts say of the layout -/

/-- The nodes of the layout are those of a chart. -/
lemma exists_node_of_layout {i : NodeId} {n : Node Context Unit} (hn : layout.node? i = some n) :
    ∃ k, scripted.chart.node? i = some k ∧ n = k.withoutTask := by
  rw [← withoutTasks_eq_layout scripted_chart, Chart.node?_withoutTasks] at hn
  obtain ⟨k, hk, rfl⟩ := Option.map_eq_some_iff.1 hn
  exact ⟨k, hk, rfl⟩

/-- Where the arrows of a node in the layout lead. -/
def targetOf (owner : NodeId) (arrow : Arrow Context) : Option NodeId :=
  arrow.target.bind ((blueprint : WizardNode Script).outline.skeleton.resolve? owner)

/-- The transition of an arrow, given where it leads. -/
def transitionTo (arrow : Arrow Context) (target : Option NodeId) : Transition Context :=
  ⟨target, arrow.guard, arrow.actions, arrow.isInternal⟩

section Parts

variable (i : NodeId) {part : WizardNode Script}
  (hpart : (blueprint : WizardNode Script).subtrees[i]? = some part)

include hpart

/-- A node of the layout is made of the part in its place. -/
lemma exists_node_of_part : ∃ m, layout.node? i =
    some ((blueprint : WizardNode Script).outline.node i m).withoutTask ∧ m.blueprint = part := by
  rw [← Blueprint.map_blueprint_outline, List.getElem?_map] at hpart
  obtain ⟨m, hm, rfl⟩ := Option.map_eq_some_iff.1 hpart
  exact ⟨m, by rw [layout, Blueprint.chart_withoutTasks, Chart.node?_withoutTasks,
    Outline.node?_chart, hm, Option.map_some, Option.map_some], rfl⟩

/-- Entering a node does what its part says. -/
lemma actionsOf_arrive_eq_of_part : layout.actionsOf [.arrive i] = part.entry := by
  obtain ⟨m, hm, rfl⟩ := exists_node_of_part i hpart
  rw [Chart.actionsOf, List.flatMap_singleton, Move.actions, hm]
  rfl

end Parts

/-- The transitions for an event in a leaf: which node has them, and where they lead. -/
structure Offer where
  leaf : NodeId
  event : String
  owner : NodeId
  targets : List (Option NodeId)
  deriving DecidableEq

/-- Whether it is so in the layout: the owner is the innermost node that has anything to say about
the event, and its arrows have these targets. -/
@[mk_iff]
structure Offer.Holds (o : Offer) : Prop where
  owned : (layout.lineage o.leaf).find? (fun j => (layout.offered? o.event j).isSome) =
    some o.owner
  leads : (blueprint : WizardNode Script).subtrees[o.owner]?.map (fun part =>
    (part.arrows.filter (·.1 == o.event)).map (targetOf o.owner ·.2)) = some o.targets

instance (o : Offer) : Decidable o.Holds := decidable_of_iff' _ (Offer.holds_iff o)

/-- **What a leaf offers for an event** is what the part of the owner says about it. -/
lemma Offer.Holds.declared_eq {o : Offer} (h : o.Holds) {part : WizardNode Script}
    (hpart : (blueprint : WizardNode Script).subtrees[o.owner]? = some part)
    {arrows : List (String × Arrow Context)}
    (harrows : part.arrows.filter (·.1 == o.event) = arrows) :
    layout.declared o.leaf o.event = List.zipWith (transitionTo ·.2) arrows o.targets := by
  have htargets : arrows.map (targetOf o.owner ·.2) = o.targets := by
    have hleads := h.leads
    rw [hpart, Option.map_some, harrows] at hleads
    exact Option.some.inj hleads
  obtain ⟨m, hm, rfl⟩ := exists_node_of_part o.owner hpart
  obtain ⟨hsome, inner, outer, hlineage, hinner⟩ := List.find?_eq_some_iff_append.1 h.owned
  have hnone : inner.filterMap (layout.offered? o.event) = [] :=
    List.filterMap_eq_nil_iff.2 fun j hj => by simpa using hinner j hj
  obtain ⟨ts, hts⟩ := Option.isSome_iff_exists.1 hsome
  obtain ⟨n, hn, hcandidates, -⟩ := Chart.offered?_eq_some.1 hts
  obtain rfl := Option.some.inj (hm.symm.trans hn)
  rw [Chart.declared, hlineage, List.filterMap_append, hnone, List.filterMap_cons_some hts,
    List.nil_append, List.head?_cons, Option.getD_some, ← hcandidates, ← htargets, ← harrows,
    List.zipWith_map_right, List.zipWith_self]
  change ((m.blueprint.arrows.map _).filter _).map _ = _
  rw [List.filter_map, List.map_map]
  rfl

/-! ## The loops -/

/-- What is offered in the loops. -/
def offers : List Offer :=
  [ ⟨Leaf.getPrepared, next, Leaf.getPrepared, [some Leaf.memberDetailsLoop]⟩
  , ⟨Leaf.memberDetailsLoop, Event.eventless.name, Leaf.memberDetailsLoop,
      [some Leaf.memberDetails, some Leaf.foodAssistance]⟩
  , ⟨Leaf.memberDetails, next, Leaf.memberDetails, [some Leaf.memberDetailsNext]⟩
  , ⟨Leaf.memberDetailsNext, Event.eventless.name, Leaf.memberDetailsNext,
      [some Leaf.memberDetailsLoop]⟩
  , ⟨Leaf.memberDetails, previousMember, householdSection,
      [some Leaf.howMany, some Leaf.getPrepared, some Leaf.memberDetailsLoop]⟩
  , ⟨Leaf.foodAssistance, previousMember, householdSection,
      [some Leaf.howMany, some Leaf.getPrepared, some Leaf.memberDetailsLoop]⟩
  , ⟨Leaf.assets, next, Leaf.assets, [some Leaf.incomeBranch]⟩
  , ⟨Leaf.incomeBranch, Event.eventless.name, Leaf.incomeBranch,
      [some Leaf.income, some reviewSection]⟩
  , ⟨Leaf.income, next, Leaf.income, [some Leaf.jobsBranch]⟩
  , ⟨Leaf.jobsBranch, Event.eventless.name, Leaf.jobsBranch,
      [some Leaf.jobs, some Leaf.nextMember]⟩
  , ⟨Leaf.jobs, next, Leaf.jobs, [some Leaf.otherJobsLoop]⟩
  , ⟨Leaf.otherJobsLoop, Event.eventless.name, Leaf.otherJobsLoop,
      [some Leaf.jobsBranch, some Leaf.nextMember]⟩
  , ⟨Leaf.nextMember, Event.eventless.name, Leaf.nextMember, [some Leaf.incomeBranch]⟩
  , ⟨Leaf.checkMember, Event.eventless.name, Leaf.checkMember,
      [some Leaf.jobs, some Leaf.income]⟩
  , ⟨Leaf.income, previousMember, resourcesSection, [some Leaf.assets, some Leaf.checkMember]⟩
  , ⟨Leaf.jobs, previousMember, resourcesSection, [some Leaf.assets, some Leaf.checkMember]⟩
  , ⟨Leaf.jobs, previousJob, resourcesSection,
      [some Leaf.incomeBranch, some Leaf.jobsBranch]⟩ ]

lemma offers_hold : ∀ o ∈ offers, o.Holds := by
  decide +kernel

/-- The transitions that are offered, read off the part of the owner. -/
lemma declared_of_mem {leaf : NodeId} {event : String} (owner : NodeId)
    (targets : List (Option NodeId)) (h : ⟨leaf, event, owner, targets⟩ ∈ offers)
    {part : WizardNode Script}
    (hpart : (blueprint : WizardNode Script).subtrees[owner]? = some part)
    {arrows : List (String × Arrow Context)}
    (harrows : part.arrows.filter (·.1 == event) = arrows) :
    layout.declared leaf event = List.zipWith (transitionTo ·.2) arrows targets :=
  (offers_hold _ h).declared_eq hpart harrows

/-! ## Steps on the layout -/

/-- Whether a transition leads from one leaf to another and turns a context into another one, as far
as the cursors are concerned. -/
def Takes (event : Event) (leaf : NodeId) (c₀ : Context) (leaf' : NodeId) (c₁ : Context) : Prop :=
  ∀ c, c₀.AgreesWith c → ∃ c', layout.Hops event leaf c leaf' c' ∧ c₁.AgreesWith c'

/-- Whether automatic transitions lead from one leaf to another and turn a context into another one,
as far as the cursors are concerned. -/
def Settles (leaf : NodeId) (c₀ : Context) (leaf' : NodeId) (c₁ : Context) : Prop :=
  ∀ c, c₀.AgreesWith c → ∃ c', layout.Drifts leaf c leaf' c' ∧ c₁.AgreesWith c'

/-- Whether an event leads from one leaf to another and turns a context into another one, as far as
the cursors are concerned. -/
def Reaches (event : Event) (leaf : NodeId) (c₀ : Context) (leaf' : NodeId) (c₁ : Context) : Prop :=
  ∀ c, c₀.AgreesWith c → ∃ c', layout.Answers event leaf c leaf' c' ∧ c₁.AgreesWith c'

/-- Whether a target is entered from a leaf by way of compound nodes, down to another leaf. -/
@[mk_iff]
structure Way (leaf target leaf' : NodeId) : Prop where
  lands : layout.landing target = leaf'
  enters : layout.entrySet (layout.domain leaf target) target =
    (layout.entrySet (layout.domain leaf target) target).dropLast ++ [leaf']
  through : ∀ i ∈ (layout.entrySet (layout.domain leaf target) target).dropLast,
    (layout.node? i).all (·.kind = .compound) = true

instance (leaf target leaf' : NodeId) : Decidable (Way leaf target leaf') :=
  decidable_of_iff' _ (way_iff leaf target leaf')

/-- The ways of the loops that end at the leaf that is named. -/
def directWays : List (NodeId × NodeId) :=
  [ (Leaf.getPrepared, Leaf.memberDetailsLoop), (Leaf.memberDetails, Leaf.memberDetailsNext)
  , (Leaf.memberDetails, Leaf.memberDetailsLoop), (Leaf.memberDetails, Leaf.getPrepared)
  , (Leaf.memberDetails, Leaf.howMany), (Leaf.foodAssistance, Leaf.memberDetailsLoop)
  , (Leaf.foodAssistance, Leaf.getPrepared), (Leaf.foodAssistance, Leaf.howMany)
  , (Leaf.memberDetailsLoop, Leaf.memberDetails), (Leaf.memberDetailsLoop, Leaf.foodAssistance)
  , (Leaf.memberDetailsNext, Leaf.memberDetailsLoop)
  , (Leaf.assets, Leaf.incomeBranch), (Leaf.income, Leaf.jobsBranch), (Leaf.income, Leaf.assets)
  , (Leaf.income, Leaf.checkMember), (Leaf.jobs, Leaf.otherJobsLoop), (Leaf.jobs, Leaf.assets)
  , (Leaf.jobs, Leaf.checkMember), (Leaf.jobs, Leaf.incomeBranch), (Leaf.jobs, Leaf.jobsBranch)
  , (Leaf.incomeBranch, Leaf.income), (Leaf.jobsBranch, Leaf.jobs)
  , (Leaf.jobsBranch, Leaf.nextMember), (Leaf.otherJobsLoop, Leaf.jobsBranch)
  , (Leaf.otherJobsLoop, Leaf.nextMember), (Leaf.nextMember, Leaf.incomeBranch)
  , (Leaf.checkMember, Leaf.jobs), (Leaf.checkMember, Leaf.income) ]

lemma way_of_mem : ∀ w ∈ directWays, Way w.1 w.2 w.2 := by
  decide +kernel

section Steps

variable {event : Event} {leaf between leaf' : NodeId} {c₀ c₁ c₂ : Context}

/-- Nothing happens in a leaf without automatic transitions. -/
lemma settles_refl (h : (layout.declared leaf Event.eventless.name).isEmpty = true) (c₀ : Context) :
    Settles leaf c₀ leaf c₀ :=
  fun c hc => ⟨c, .rest (List.isEmpty_iff.1 h), hc⟩

lemma Takes.settles (first : Takes .eventless leaf c₀ between c₁)
    (more : Settles between c₁ leaf' c₂) : Settles leaf c₀ leaf' c₂ := by
  intro c hc
  obtain ⟨c', hhops, hc'⟩ := first c hc
  obtain ⟨c'', hdrifts, hc''⟩ := more c' hc'
  exact ⟨c'', .hop hhops hdrifts, hc''⟩

lemma Takes.reaches (first : Takes event leaf c₀ between c₁)
    (more : Settles between c₁ leaf' c₂) : Reaches event leaf c₀ leaf' c₂ := by
  intro c hc
  obtain ⟨c', hhops, hc'⟩ := first c hc
  obtain ⟨c'', hdrifts, hc''⟩ := more c' hc'
  exact ⟨c'', ⟨between, c', hhops, hdrifts⟩, hc''⟩

/-- Leaving nodes moves no cursor. -/
lemma turns_leave (nodes : List NodeId) :
    Turns event (layout.actionsOf (nodes.map .leave)) c₀ c₀ := by
  refine turns_of_keepsCursors fun a ha => ?_
  obtain ⟨part, hpart, ha⟩ := List.mem_flatMap.1 ha
  obtain ⟨i, -, rfl⟩ := List.mem_map.1 hpart
  rw [Move.actions] at ha
  cases hn : layout.node? i with
  | none => simp [hn] at ha
  | some n =>
      obtain ⟨k, hk, rfl⟩ := exists_node_of_layout hn
      rw [hn, Option.elim_some] at ha
      exact keepsCursors_exit scripted_chart hk a ha

/-- Nor does entering compound nodes. -/
lemma turns_arrive {nodes : List NodeId}
    (h : ∀ i ∈ nodes, (layout.node? i).all (·.kind = .compound) = true) :
    Turns event (layout.actionsOf (nodes.map .arrive)) c₀ c₀ := by
  refine turns_of_keepsCursors fun a ha => ?_
  obtain ⟨part, hpart, ha⟩ := List.mem_flatMap.1 ha
  obtain ⟨i, hi, rfl⟩ := List.mem_map.1 hpart
  rw [Move.actions] at ha
  cases hn : layout.node? i with
  | none => simp [hn] at ha
  | some n =>
      have hkind := h i hi
      rw [hn, Option.all_some, decide_eq_true_eq] at hkind
      obtain ⟨k, hk, rfl⟩ := exists_node_of_layout hn
      rw [hn, Option.elim_some] at ha
      exact keepsCursors_entry scripted_chart hk hkind a ha

/-- **What a transition does to the cursors** is what its actions and the entry of the new leaf do.
It is taken if it is enabled and the ones before it are not. -/
lemma takes_of_declared (before : List (Transition Context)) {after : List (Transition Context)}
    {target : NodeId} {guard : Option (Context → Bool)} {actions : List (Action Context)}
    (hdeclared : layout.declared leaf event.name =
      before ++ ⟨some target, guard, actions, false⟩ :: after)
    (hbefore : ∀ c, c₀.AgreesWith c → ∀ t ∈ before, t.isEnabled c = false)
    (hguard : ∀ c, c₀.AgreesWith c → guard.all (· c) = true) (hway : Way leaf target leaf')
    (hact : Turns event actions c₀ c₁)
    (hentry : Turns event (layout.actionsOf [.arrive leaf']) c₁ c₂) :
    Takes event leaf c₀ leaf' c₂ := by
  intro c hc
  set t : Transition Context := ⟨some target, guard, actions, false⟩
  have henabled : t.isEnabled c = true := hguard c hc
  have hchoose : layout.choose? leaf c event.name = some t := by
    rw [Chart.choose?_eq, hdeclared, List.find?_append,
      List.find?_eq_none.2 fun t ht => Bool.eq_false_iff.1 (hbefore c hc t ht), Option.none_or]
    exact List.find?_cons_of_pos henabled
  refine ⟨_, ⟨t, target, hchoose, rfl, rfl, hway.lands, rfl⟩, ?_⟩
  have hmoves : layout.moves leaf t =
      (layout.exitSet leaf (layout.domain leaf target)).map .leave ++ .act actions ::
        (layout.entrySet (layout.domain leaf target) target).map .arrive := by
    simp [Chart.moves, t]
  have hplan : layout.actionsOf (layout.moves leaf t) =
      layout.actionsOf ((layout.exitSet leaf (layout.domain leaf target)).map .leave) ++ (actions ++
        (layout.actionsOf ((layout.entrySet (layout.domain leaf target) target).dropLast.map
          .arrive) ++ layout.actionsOf [.arrive leaf'])) := by
    conv_lhs => rw [hmoves, hway.enters, List.map_append, Chart.actionsOf, List.flatMap_append,
      List.flatMap_cons, List.flatMap_append]
    rfl
  rw [hplan]
  exact (turns_leave _).append (hact.append ((turns_arrive hway.through).append hentry)) c hc

/-- The entry of a page sets the step, and then does what is its own. -/
lemma turns_page (page : NodeId) {part : WizardNode Script}
    (hpart : (blueprint : WizardNode Script).subtrees[page]? = some part) {key : String}
    {own : List (Action Context)}
    (hentry : part.entry = .set [("currentStep", .str key)] :: .keep :: own)
    (hown : Turns event own c₀ c₁) : Turns event (layout.actionsOf [.arrive page]) c₀ c₁ := by
  have hset : ∀ a ∈ [Action.set [("currentStep", Json.str key)], .keep], KeepsCursors a := by
    simp [keepsCursors_set]
  rw [actionsOf_arrive_eq_of_part page hpart, hentry]
  exact (turns_of_keepsCursors hset).append hown

/-- Entering a node that has nothing to do then, like a decision. -/
lemma turns_of_entry_nil (i : NodeId) {part : WizardNode Script}
    (hpart : (blueprint : WizardNode Script).subtrees[i]? = some part) (hentry : part.entry = [])
    (c₀ : Context) : Turns event (layout.actionsOf [.arrive i]) c₀ c₀ := by
  rw [actionsOf_arrive_eq_of_part i hpart, hentry]
  exact turns_nil c₀

/-- The pages of the loops, with the decisions after them. -/
def onwardWays : List (NodeId × NodeId) :=
  [ (Leaf.getPrepared, Leaf.memberDetailsLoop), (Leaf.memberDetails, Leaf.memberDetailsNext)
  , (Leaf.assets, Leaf.incomeBranch), (Leaf.income, Leaf.jobsBranch)
  , (Leaf.jobs, Leaf.otherJobsLoop) ]

/-- Each of these pages forwards its answers to the decision. -/
lemma declared_onward : ∀ w ∈ onwardWays,
    layout.declared w.1 next = [⟨some w.2, none, [.forward, .keep], false⟩] := by
  intro w hw
  have hoffers : ∀ w ∈ onwardWays, ⟨w.1, next, w.1, [some w.2]⟩ ∈ offers := by decide
  have hoffer := hoffers w hw
  simp only [onwardWays, List.mem_cons, List.not_mem_nil, or_false] at hw
  rcases hw with rfl | rfl | rfl | rfl | rfl <;> exact declared_of_mem _ _ hoffer rfl rfl

/-- **On from a page to the decision after it**, which does nothing when it is entered. -/
lemma takes_onward {page decision : NodeId} (h : (page, decision) ∈ onwardWays)
    (hevent : event.name = next) (hpayload : event.payload = {}) (c₀ : Context) :
    Takes event page c₀ decision c₀ := by
  have hways : ∀ w ∈ onwardWays, w ∈ directWays := by decide
  have hidle : ∀ w ∈ onwardWays, (layout.actionsOf [.arrive w.2]).isEmpty = true := by
    decide +kernel
  have hentry : Turns event (layout.actionsOf [.arrive decision]) c₀ c₀ := by
    rw [List.isEmpty_iff.1 (hidle _ h)]
    exact turns_nil c₀
  have hdeclared := declared_onward _ h
  rw [← hevent] at hdeclared
  exact takes_of_declared [] hdeclared (by simp) (fun _ _ => rfl) (way_of_mem _ (hways _ h))
    (turns_forward hpayload) hentry

end Steps

/-! ## Steps of sessions -/

/-- Whether a leaf of the layout is a page, where nothing happens by itself. -/
@[mk_iff]
structure IsPage (leaf : NodeId) : Prop where
  atomic : (layout.node? leaf).any (·.kind = .atomic) = true
  rests : (layout.declared leaf Event.eventless.name).isEmpty = true

instance (leaf : NodeId) : Decidable (IsPage leaf) := decidable_of_iff' _ (isPage_iff leaf)

/-- The pages of the loops and around them, with their paths. -/
def loopPages : List (NodeId × String) :=
  [ (Leaf.howMany, "form.household.how-many")
  , (Leaf.getPrepared, "form.household.get-prepared")
  , (Leaf.memberDetails, "form.household.member-details")
  , (Leaf.foodAssistance, "form.household.food-assistance")
  , (Leaf.assets, "form.resources.assets"), (Leaf.income, "form.resources.income")
  , (Leaf.jobs, "form.resources.jobs"), (Leaf.review, "form.review.default") ]

/-- Each of them is known by its path. -/
lemma loopPages_spec : ∀ p ∈ loopPages, IsPage p.1 ∧ layout.pathOf p.1 = p.2 ∧ p.2 ≠ "" ∧
    ∀ e ∈ layout.nodes.zipIdx, e.1.path = p.2 → e.2 = p.1 := by
  decide +kernel

lemma isPage_of_mem {page : NodeId} (h : page ∈ loopPages.map Prod.fst) : IsPage page := by
  obtain ⟨p, hp, rfl⟩ := List.mem_map.1 h
  exact (loopPages_spec p hp).1

lemma pathOf_of_mem {page : NodeId} {path : String} (h : (page, path) ∈ loopPages) :
    layout.pathOf page = path := (loopPages_spec _ h).2.1

/-- Pages are where one rests. -/
lemma settles_page {page : NodeId} (h : page ∈ loopPages.map Prod.fst) (c : Context) :
    Settles page c page c := settles_refl (isPage_of_mem h).rests c

variable {Env S : Type} [Services Env] [Storage S]

/-- Whether a session of the wizard is on a page, with a context that agrees with a given one on the
cursors, and comes to rest below its ceiling. -/
structure Stands (page : NodeId) (c₀ : Context) (s : Session Context Env S) : Prop where
  chart : Wizard.chart = .ok s.chart
  ceiling : 5 ≤ s.settings.maxEventlessSteps
  isPage : IsPage page
  leaf : s.machine.leaf = some page
  agrees : c₀.AgreesWith s.machine.context

section Sessions

variable {s : Session Context Env S} {page page' : NodeId} {c₀ c₁ : Context} {event : Event}

omit [Storage S] in
lemma IsPage.isLeaf (h : IsPage page) (hchart : Wizard.chart = .ok s.chart) :
    s.chart.IsLeaf page := by
  have hatomic := h.atomic
  rw [← withoutTasks_eq_layout hchart, Chart.node?_withoutTasks] at hatomic
  obtain ⟨n, hn, hkind⟩ := (Option.any_eq_true _ _).1 hatomic
  obtain ⟨k, hk, rfl⟩ := Option.map_eq_some_iff.1 hn
  exact ⟨k, hk, .inl (of_decide_eq_true hkind)⟩

omit [Storage S] in
lemma Stands.leafPath (h : Stands page c₀ s) : s.leafPath = layout.pathOf page :=
  leafPath_eq_layout h.chart h.leaf

omit [Storage S] in
lemma Stands.leafPath_of_mem {path : String} (h : Stands page c₀ s)
    (hpage : (page, path) ∈ loopPages) : s.leafPath = path :=
  h.leafPath.trans (pathOf_of_mem hpage)

/-- **An event that reaches a page leads a session there.** -/
theorem Stands.exists_comesTo (h : Stands page c₀ s) (hpage' : IsPage page')
    (hreaches : Reaches event page c₀ page' c₁) :
    ∃ s', s.ComesTo event s' ∧ Stands page' c₁ s' := by
  obtain ⟨c', hanswers, hc'⟩ := hreaches _ h.agrees
  rw [← withoutTasks_eq_layout h.chart] at hanswers
  have hrest : s.machine.AtRest s.chart := by
    intro leaf hleaf
    obtain rfl : page = leaf := Option.some.inj (h.leaf.symm.trans hleaf)
    refine ⟨h.isPage.isLeaf h.chart, ?_⟩
    rw [declared_eq_layout h.chart]
    exact List.isEmpty_iff.1 h.isPage.rests
  obtain ⟨s', hcomes, hchart, hsettings, hleaf, rfl⟩ := Session.exists_comesTo
    (settlesWithin h.chart) h.ceiling hrest h.leaf hanswers.of_withoutTasks
  exact ⟨s', hcomes, hchart ▸ h.chart, hsettings ▸ h.ceiling, hpage', hleaf, hc'⟩

omit [Storage S] in
/-- A session stands on the page whose path it shows. -/
lemma stands_of_leafPath {path : String} (h : (page, path) ∈ loopPages)
    (hchart : Wizard.chart = .ok s.chart) (hceiling : 5 ≤ s.settings.maxEventlessSteps)
    (hvalid : s.machine.context.Valid) (hpage : s.leafPath = path) :
    Stands page s.machine.context s := by
  obtain ⟨hisPage, -, hne, hunique⟩ := loopPages_spec _ h
  obtain ⟨leaf, n, hactive, hn, hpath⟩ := exists_node_of_leafPath hpage hne
  have hleaf := of_layout hchart hn (Q := fun n i => n.path = path → i = page) hunique hpath
  exact ⟨hchart, hceiling, hisPage, hactive.trans (congrArg some hleaf), hvalid.agreesWith⟩

end Sessions

end Wizard

end FormChart.Registration
