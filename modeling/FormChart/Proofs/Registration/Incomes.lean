import FormChart.Proofs.Registration.Steps

/-!
# The loops over incomes and jobs

After the page about assets there is a page about income for every member with an income, and a page
for every job of such a member.  Two cursors steer the way: one over the members, in the resources,
and one over the jobs, in the member whose income is asked about.

Here every transition of the two loops is described by what it makes of the cursors, and then
**every way from page to page**: on to the next job (`Wizard.reaches_nextJob`) or the next member
(`Wizard.movesOn_jobs`), and back to the job before (`Wizard.reaches_previousJob`).
-/

namespace FormChart.Registration

lemma Resources.isOnMember_iff {r : Resources} :
    r.isOnMember = true ↔ r.currentMember < r.membersWithIncome.length := decide_eq_true_iff

/-- In the list, stepping back is subtracting one. -/
lemma Resources.previousMember_of_isOnMember {r : Resources} (h : r.isOnMember = true) :
    r.previousMember = r.currentMember - 1 := by
  rw [Resources.previousMember, Nat.min_eq_left (isOnMember_iff.1 h).le]

namespace Context

variable {c₀ c : Context}

/-- Changing a member twice. -/
@[simp] lemma withHolder_withHolder (f g : Member → Member) :
    (c.withHolder f).withHolder g = c.withHolder fun m => g (f m) := by
  unfold withHolder withHolderChanged
  cases c.resources.holderIndex? with
  | none => rfl
  | some i => simp [Household.modifyMember, List.modify_modify_eq, Function.comp_def]

/-- The cursor over the jobs of the member whose income is asked about. -/
def currentJob? (c : Context) : Option Nat := c.holder?.map (·.income.currentJob)

/-- What a change keeps of the member is kept of all. -/
lemma map_members_withHolder {α : Type} {f : Member → Member} (g : Member → α)
    (h : ∀ m, c.holder? = some m → g (f m) = g m) :
    (c.withHolder f).household.members.map g = c.household.members.map g := by
  change (c.withHolderChanged f).members.map g = _
  unfold withHolderChanged
  split
  next i hi =>
      refine List.ext_getElem? fun j => ?_
      rw [List.getElem?_map, Household.modifyMember, List.getElem?_modify, List.getElem?_map,
        Option.map_eq_map, Option.map_map]
      refine Option.map_congr fun m hm => ?_
      by_cases hij : i = j
      · subst hij
        simpa using h m (by rw [holder?, hi, Option.bind_some, hm])
      · simp [hij]
  next => rfl

/-- There is nobody to be changed behind the last member. -/
lemma withHolder_of_isOnMember_eq_false (h : c.resources.isOnMember = false)
    (f : Member → Member) : c.withHolder f = c := by
  have hnone : c.resources.holderIndex? = none := by
    rw [Resources.holderIndex?, List.getElem?_eq_none_iff]
    exact Nat.le_of_not_lt (decide_eq_false_iff_not.1 h)
  rw [withHolder, withHolderChanged, hnone]

/-- Whoever has a job still has it after other changes. -/
lemma holderHasJob_withHolder (h : Wizard.holderHasJob c = true) {f : Member → Member}
    (hf : ∀ m, (f m).hasJobs = m.hasJobs) : Wizard.holderHasJob (c.withHolder f) = true := by
  obtain ⟨m, hm, hhas⟩ := holderHasJob_iff.1 h
  refine holderHasJob_iff.2 ⟨f m, by rw [holder?_withHolder, hm, Option.map_some], ?_⟩
  rwa [Member.hasJob, hf]

lemma AgreesWith.noEarlierJob (h : AgreesWith c₀ c) :
    Wizard.noEarlierJob c = Wizard.noEarlierJob c₀ := by
  rw [Wizard.noEarlierJob, h.holder?, Wizard.noEarlierJob]

lemma AgreesWith.holderHasOtherJob (h : AgreesWith c₀ c) :
    Wizard.holderHasOtherJob c = Wizard.holderHasOtherJob c₀ := by
  rw [Wizard.holderHasOtherJob, h.holder?, Wizard.holderHasOtherJob]

end Context

namespace Wizard

/-- A member with the cursor on the next job; a blank one is added if there is none. -/
def withNextJob (m : Member) : Member := withCurrentJob (withJob (fun i => i.currentJob + 1) m)

lemma withCurrentJob_of_lt {m : Member} (h : m.income.currentJob < m.income.jobs.length) :
    withCurrentJob m = m := if_pos h

/-! ## The steps of the loops -/

section Steps

variable {c : Context} {event : Event}

/-! What the decisions and the section offer. -/

lemma declared_incomeBranch : layout.declared Leaf.incomeBranch Event.eventless.name =
    [⟨some Leaf.income, some fun c => c.resources.isOnMember, [], false⟩,
      ⟨some reviewSection, none, [.keep], false⟩] :=
  declared_of_mem Leaf.incomeBranch [some Leaf.income, some reviewSection] (by decide) rfl rfl

lemma declared_jobsBranch : layout.declared Leaf.jobsBranch Event.eventless.name =
    [⟨some Leaf.jobs, some holderHasJob, [], false⟩,
      ⟨some Leaf.nextMember, none, [], false⟩] :=
  declared_of_mem Leaf.jobsBranch [some Leaf.jobs, some Leaf.nextMember] (by decide) rfl rfl

lemma declared_otherJobsLoop : layout.declared Leaf.otherJobsLoop Event.eventless.name =
    [⟨some Leaf.jobsBranch, some holderHasOtherJob, [setJob fun i => i.currentJob + 1], false⟩,
      ⟨some Leaf.nextMember, none, [], false⟩] :=
  declared_of_mem Leaf.otherJobsLoop [some Leaf.jobsBranch, some Leaf.nextMember] (by decide) rfl
    rfl

lemma declared_nextMember : layout.declared Leaf.nextMember Event.eventless.name =
    [⟨some Leaf.incomeBranch, none, [setHolder fun r => r.currentMember + 1, .keep], false⟩] :=
  declared_of_mem Leaf.nextMember [some Leaf.incomeBranch] (by decide) rfl rfl

lemma declared_checkMember : layout.declared Leaf.checkMember Event.eventless.name =
    [⟨some Leaf.jobs, some holderHasJob, [setJob fun i => i.jobs.length - 1], false⟩,
      ⟨some Leaf.income, none, [], false⟩] :=
  declared_of_mem Leaf.checkMember [some Leaf.jobs, some Leaf.income] (by decide) rfl rfl

lemma declared_previousMember_resources {page : NodeId} (hpage : page ∈ [Leaf.income, Leaf.jobs]) :
    layout.declared page previousMember =
      [⟨some Leaf.assets, some fun c => c.resources.currentMember == 0, [], false⟩,
        ⟨some Leaf.checkMember, none, [setHolder Resources.previousMember, .keep], false⟩] := by
  have hoffer : ⟨page, previousMember, resourcesSection,
      [some Leaf.assets, some Leaf.checkMember]⟩ ∈ offers := by
    revert page
    decide
  exact declared_of_mem resourcesSection _ hoffer rfl rfl

lemma declared_previousJob : layout.declared Leaf.jobs previousJob =
    [⟨some Leaf.incomeBranch, some noEarlierJob, [backOneJob, .keep], false⟩,
      ⟨some Leaf.jobsBranch, none, [backOneJob, .keep], false⟩] :=
  declared_of_mem resourcesSection [some Leaf.incomeBranch, some Leaf.jobsBranch] (by decide) rfl
    rfl

/-! The pages are entered with the cursors in their places. -/

lemma turns_assets : Turns event (layout.actionsOf [.arrive Leaf.assets]) c (c.atHolder 0) :=
  turns_page Leaf.assets rfl rfl (turns_setHolder (Nat.two_pow_pos 64))

lemma turns_income : Turns event (layout.actionsOf [.arrive Leaf.income]) c
    (c.withHolder (withJob fun _ => 0)) :=
  turns_page Leaf.income rfl rfl (turns_changeHolder fun _ _ hm => hm.withJob (Nat.two_pow_pos 64))

lemma turns_jobs : Turns event (layout.actionsOf [.arrive Leaf.jobs]) c
    (c.withHolder withCurrentJob) :=
  turns_page Leaf.jobs rfl rfl (turns_changeHolder fun _ _ hm => hm.withCurrentJob)

/-! The decisions. -/

/-- The income of a member that is left. -/
lemma takes_income (h : c.resources.isOnMember = true) :
    Takes .eventless Leaf.incomeBranch c Leaf.income (c.withHolder (withJob fun _ => 0)) :=
  takes_of_declared [] declared_incomeBranch (by simp) (fun c' hc' => by simp [hc'.resources, h])
    (way_of_mem (_, _) (by decide)) (turns_nil c) turns_income

/-- The review if no member is left. -/
lemma takes_review (h : c.resources.isOnMember = false) :
    Takes .eventless Leaf.incomeBranch c Leaf.review c :=
  takes_of_declared [_] declared_incomeBranch
    (fun c' hc' => by simp [Transition.isEnabled, hc'.resources, h]) (fun _ _ => rfl)
    (by decide +kernel) (turns_of_keepsCursors (by simp)) (turns_of_entry_nil Leaf.review rfl rfl c)

/-- The jobs of a member who has one. -/
lemma takes_jobs (h : holderHasJob c = true) :
    Takes .eventless Leaf.jobsBranch c Leaf.jobs (c.withHolder withCurrentJob) :=
  takes_of_declared [] declared_jobsBranch (by simp)
    (fun c' hc' => by simp [hc'.holderHasJob, h]) (way_of_mem (_, _) (by decide)) (turns_nil c)
    turns_jobs

/-- The next member if this one has no job. -/
lemma takes_nextMember_of_jobsBranch (h : holderHasJob c = false) :
    Takes .eventless Leaf.jobsBranch c Leaf.nextMember c :=
  takes_of_declared [_] declared_jobsBranch
    (fun c' hc' => by simp [Transition.isEnabled, hc'.holderHasJob, h]) (fun _ _ => rfl)
    (way_of_mem (_, _) (by decide)) (turns_nil c) (turns_of_entry_nil Leaf.nextMember rfl rfl _)

/-- The next job of a member who has another one. -/
lemma takes_jobsBranch (h : holderHasOtherJob c = true)
    (hbound : ∀ m, c.holder? = some m → m.income.currentJob + 1 < wordBound) :
    Takes .eventless Leaf.otherJobsLoop c Leaf.jobsBranch
      (c.withHolder (withJob fun i => i.currentJob + 1)) :=
  takes_of_declared [] declared_otherJobsLoop (by simp)
    (fun c' hc' => by simp [hc'.holderHasOtherJob, h]) (way_of_mem (_, _) (by decide))
    (turns_changeHolder fun m hm hvalid => hvalid.withJob (hbound m hm))
    (turns_of_entry_nil Leaf.jobsBranch rfl rfl _)

/-- The next member if this one has no other job. -/
lemma takes_nextMember_of_otherJobsLoop (h : holderHasOtherJob c = false) :
    Takes .eventless Leaf.otherJobsLoop c Leaf.nextMember c :=
  takes_of_declared [_] declared_otherJobsLoop
    (fun c' hc' => by simp [Transition.isEnabled, hc'.holderHasOtherJob, h]) (fun _ _ => rfl)
    (way_of_mem (_, _) (by decide)) (turns_nil c) (turns_of_entry_nil Leaf.nextMember rfl rfl _)

/-- One member is done. -/
lemma takes_incomeBranch (h : c.resources.currentMember + 1 < wordBound) :
    Takes .eventless Leaf.nextMember c Leaf.incomeBranch
      (c.atHolder (c.resources.currentMember + 1)) :=
  takes_of_declared [] declared_nextMember (by simp) (fun _ _ => rfl)
    (way_of_mem (_, _) (by decide)) (turns_setHolder h).keep
    (turns_of_entry_nil Leaf.incomeBranch rfl rfl _)

/-- The last job of a member that is stepped back to. -/
lemma takes_lastJob (h : holderHasJob c = true)
    (hbound : ∀ m, c.holder? = some m → m.income.jobs.length - 1 < wordBound) :
    Takes .eventless Leaf.checkMember c Leaf.jobs
      (c.withHolder fun m => withCurrentJob (withJob (fun i => i.jobs.length - 1) m)) := by
  rw [← Context.withHolder_withHolder]
  exact takes_of_declared [] declared_checkMember (by simp)
    (fun c' hc' => by simp [hc'.holderHasJob, h]) (way_of_mem (_, _) (by decide))
    (turns_changeHolder fun m hm hvalid => hvalid.withJob (hbound m hm)) turns_jobs

/-- The income of a member that is stepped back to and has no job. -/
lemma takes_income_of_checkMember (h : holderHasJob c = false) :
    Takes .eventless Leaf.checkMember c Leaf.income (c.withHolder (withJob fun _ => 0)) :=
  takes_of_declared [_] declared_checkMember
    (fun c' hc' => by simp [Transition.isEnabled, hc'.holderHasJob, h]) (fun _ _ => rfl)
    (way_of_mem (_, _) (by decide)) (turns_nil c) turns_income

/-! Stepping back. -/

/-- Back from the first member. -/
lemma takes_assets {page : NodeId} (hname : event.name = previousMember)
    (hpage : page ∈ [Leaf.income, Leaf.jobs]) (hfirst : c.resources.currentMember = 0) :
    Takes event page c Leaf.assets (c.atHolder 0) := by
  have hway : (page, Leaf.assets) ∈ directWays := by revert page; decide
  have hdeclared := declared_previousMember_resources hpage
  rw [← hname] at hdeclared
  exact takes_of_declared [] hdeclared (by simp) (fun c' hc' => by simp [hc'.resources, hfirst])
    (way_of_mem _ hway) (turns_nil c) turns_assets

/-- Back to the member before. -/
lemma takes_checkMember {page : NodeId} (hname : event.name = previousMember)
    (hpage : page ∈ [Leaf.income, Leaf.jobs]) (hmember : c.resources.isOnMember = true)
    (hnotFirst : c.resources.currentMember ≠ 0) (hbound : c.resources.currentMember < wordBound) :
    Takes event page c Leaf.checkMember (c.atHolder (c.resources.currentMember - 1)) := by
  have hway : (page, Leaf.checkMember) ∈ directWays := by revert page; decide
  have hdeclared := declared_previousMember_resources hpage
  have hprevious := Resources.previousMember_of_isOnMember hmember
  have hlt : c.resources.previousMember < wordBound := by omega
  rw [← hname] at hdeclared
  rw [← hprevious]
  exact takes_of_declared [_] hdeclared
    (fun c' hc' => by simp [Transition.isEnabled, hc'.resources, hnotFirst]) (fun _ _ => rfl)
    (way_of_mem _ hway) (turns_setHolder hlt).keep (turns_of_entry_nil Leaf.checkMember rfl rfl _)

lemma turns_backOneJob : Turns event [backOneJob, .keep] c (c.withHolder withPreviousJob) :=
  (turns_changeHolder fun _ _ hm => hm.withPreviousJob).keep

/-- Back from the first job. -/
lemma takes_back_incomeBranch (hname : event.name = previousJob) (h : noEarlierJob c = true) :
    Takes event Leaf.jobs c Leaf.incomeBranch (c.withHolder withPreviousJob) := by
  have hdeclared := declared_previousJob
  rw [← hname] at hdeclared
  exact takes_of_declared [] hdeclared (by simp) (fun c' hc' => by simp [hc'.noEarlierJob, h])
    (way_of_mem (_, _) (by decide)) turns_backOneJob
    (turns_of_entry_nil Leaf.incomeBranch rfl rfl _)

/-- Back to the job before. -/
lemma takes_back_jobsBranch (hname : event.name = previousJob) (h : noEarlierJob c = false) :
    Takes event Leaf.jobs c Leaf.jobsBranch (c.withHolder withPreviousJob) := by
  have hdeclared := declared_previousJob
  rw [← hname] at hdeclared
  exact takes_of_declared [_] hdeclared
    (fun c' hc' => by simp [Transition.isEnabled, hc'.noEarlierJob, h]) (fun _ _ => rfl)
    (way_of_mem (_, _) (by decide)) turns_backOneJob (turns_of_entry_nil Leaf.jobsBranch rfl rfl _)

end Steps

/-! ## From page to page -/

section

variable {c : Context} {event : Event}

/-- The page that is shown when the cursor is on a member, or behind the last one. -/
def memberPage (r : Resources) : NodeId := if r.isOnMember then Leaf.income else Leaf.review

lemma isPage_memberPage (r : Resources) : IsPage (memberPage r) := by
  unfold memberPage
  split <;> exact isPage_of_mem (by decide)

lemma settles_memberPage (c : Context) : Settles Leaf.incomeBranch c (memberPage c.resources)
    (c.withHolder (withJob fun _ => 0)) := by
  unfold memberPage
  split
  next hmember => exact (takes_income hmember).settles (settles_page (by decide) _)
  next hbehind =>
      rw [Bool.not_eq_true] at hbehind
      rw [Context.withHolder_of_isOnMember_eq_false hbehind]
      exact (takes_review hbehind).settles (settles_page (by decide) _)

/-- Whether an event leads from a page to the income of the member at the cursor of another context,
or to the review if there is none. -/
def MovesOn (event : Event) (page : NodeId) (c c' : Context) : Prop :=
  Reaches event page c (memberPage c'.resources) (c'.withHolder (withJob fun _ => 0))

lemma settles_nextMember (hbound : c.resources.currentMember + 1 < wordBound) :
    Settles Leaf.nextMember c
      (memberPage (c.resources.movedTo (c.resources.currentMember + 1)))
      ((c.atHolder (c.resources.currentMember + 1)).withHolder (withJob fun _ => 0)) :=
  (takes_incomeBranch hbound).settles (settles_memberPage _)

/-- On from the page about assets. -/
lemma movesOn_assets (hname : event.name = next) (hpayload : event.payload = {}) (c : Context) :
    MovesOn event Leaf.assets c c :=
  (takes_onward (by decide) hname hpayload c).reaches (settles_memberPage c)

/-- On from a member who has no job. -/
lemma movesOn_income (hname : event.name = next) (hpayload : event.payload = {})
    (h : holderHasJob c = false) (hbound : c.resources.currentMember + 1 < wordBound) :
    MovesOn event Leaf.income c (c.atHolder (c.resources.currentMember + 1)) :=
  (takes_onward (by decide) hname hpayload c).reaches
    ((takes_nextMember_of_jobsBranch h).settles (settles_nextMember hbound))

/-- On from a member who has no other job. -/
lemma movesOn_jobs (hname : event.name = next) (hpayload : event.payload = {})
    (h : holderHasOtherJob c = false) (hbound : c.resources.currentMember + 1 < wordBound) :
    MovesOn event Leaf.jobs c (c.atHolder (c.resources.currentMember + 1)) :=
  (takes_onward (by decide) hname hpayload c).reaches
    ((takes_nextMember_of_otherJobsLoop h).settles (settles_nextMember hbound))

/-- To the jobs of a member who has one. -/
lemma settles_jobs (h : holderHasJob c = true) :
    Settles Leaf.jobsBranch c Leaf.jobs (c.withHolder withCurrentJob) :=
  (takes_jobs h).settles (settles_page (by decide) _)

lemma reaches_jobs_of_income (hname : event.name = next) (hpayload : event.payload = {})
    (h : holderHasJob c = true) :
    Reaches event Leaf.income c Leaf.jobs (c.withHolder withCurrentJob) :=
  (takes_onward (by decide) hname hpayload c).reaches (settles_jobs h)

/-- On to the next job. -/
lemma reaches_nextJob (hname : event.name = next) (hpayload : event.payload = {})
    (h : holderHasJob c = true) (hother : holderHasOtherJob c = true)
    (hbound : ∀ m, c.holder? = some m → m.income.currentJob + 1 < wordBound) :
    Reaches event Leaf.jobs c Leaf.jobs (c.withHolder withNextJob) := by
  have hsettles := settles_jobs (Context.holderHasJob_withHolder h
    (f := withJob fun i => i.currentJob + 1) fun _ => rfl)
  rw [Context.withHolder_withHolder] at hsettles
  exact (takes_onward (by decide) hname hpayload c).reaches
    ((takes_jobsBranch hother hbound).settles hsettles)

/-- Back to the job before. -/
lemma reaches_previousJob (hname : event.name = previousJob) (h : holderHasJob c = true)
    (hlater : noEarlierJob c = false) :
    Reaches event Leaf.jobs c Leaf.jobs
      (c.withHolder fun m => withCurrentJob (withPreviousJob m)) := by
  have hsettles := settles_jobs (Context.holderHasJob_withHolder h (f := withPreviousJob)
    fun _ => rfl)
  rw [Context.withHolder_withHolder] at hsettles
  exact (takes_back_jobsBranch hname hlater).reaches hsettles

end

end Wizard

end FormChart.Registration
