import FormChart.Proofs.Registration.Incomes

/-!
# Stepping back through incomes and jobs

From the page about the income of a member, and from the page about a job, two events step back: to
the member before, or to the job before.  **Neither leaves the lists** (`Wizard.stepping_back`):
from the first member one gets back to the page before the loops, and from the first job to the
income.
-/

namespace FormChart.Registration.Wizard

variable {Env S : Type} [Services Env] [Storage S]

/-- A member whose last job is the current one; a blank one is added if there is none. -/
def withLastJob (m : Member) : Member := withCurrentJob (withJob (fun i => i.jobs.length - 1) m)

lemma jobs_withLastJob (m : Member) : (withLastJob m).income.jobs =
    if m.income.jobs = [] then [{}] else m.income.jobs := by
  unfold withLastJob withCurrentJob
  rcases hjobs : m.income.jobs with - | ⟨j, js⟩ <;> simp [withJob, hjobs]

lemma currentJob_withLastJob (m : Member) :
    (withLastJob m).income.currentJob + 1 = (withLastJob m).income.jobs.length := by
  unfold withLastJob withCurrentJob
  rcases hjobs : m.income.jobs with - | ⟨j, js⟩ <;> simp [withJob, hjobs]

/-- What stepping back from a member comes to: the page about assets from the first one; the last
job of the member before, with a blank one if there is none, or the income of that member if there
is no job. -/
structure MemberSteppedBack (c : Context) (s' : Session Context Env S) : Prop where
  first : c.resources.currentMember = 0 →
    s'.leafPath = "form.resources.assets" ∧ s'.machine.context.resources.currentMember = 0
  toJob : ∀ k m, c.resources.currentMember = k + 1 → (c.atHolder k).holder? = some m →
    m.hasJob = true → s'.leafPath = "form.resources.jobs" ∧
      s'.machine.context.resources = c.resources.movedTo k ∧
      ∃ m', s'.machine.context.holder? = some m' ∧
        m'.income.jobs = (if m.income.jobs = [] then [{}] else m.income.jobs) ∧
        m'.income.currentJob + 1 = m'.income.jobs.length
  toIncome : ∀ k, c.resources.currentMember = k + 1 →
    (∀ m, (c.atHolder k).holder? = some m → m.hasJob = false) →
    s'.leafPath = "form.resources.income" ∧ s'.machine.context.resources = c.resources.movedTo k

/-- What stepping back from a job comes to: the job before, or the income from the first job.  The
cursor over the members stays where it is, and so do all jobs. -/
structure JobSteppedBack (c : Context) (s' : Session Context Env S) : Prop where
  resources : s'.machine.context.resources = c.resources
  jobs : s'.machine.context.household.members.map (·.income.jobs) =
    c.household.members.map (·.income.jobs)
  first : c.currentJob? = some 0 →
    s'.leafPath = "form.resources.income" ∧ s'.machine.context.currentJob? = some 0
  later : ∀ k, c.currentJob? = some (k + 1) →
    s'.leafPath = "form.resources.jobs" ∧ s'.machine.context.currentJob? = some k

section

variable {s : Session Context Env S} {page : NodeId} {c : Context} {event : Event}

/-- Back from a member. -/
lemma Stands.exists_memberSteppedBack (hs : Stands page c s)
    (hpage : page ∈ [Leaf.income, Leaf.jobs]) (hbounded : c.Bounded)
    (hmember : c.resources.isOnMember = true) (hname : event.name = previousMember) :
    ∃ s', s.ComesTo event s' ∧ MemberSteppedBack c s' := by
  have hlt := Resources.isOnMember_iff.1 hmember
  rcases hcursor : c.resources.currentMember with - | k
  · obtain ⟨s', hcomes, hs'⟩ := hs.exists_comesTo (isPage_of_mem (by decide))
      ((takes_assets hname hpage hcursor).reaches (settles_page (by decide) _))
    exact ⟨s', hcomes, fun _ => ⟨hs'.leafPath_of_mem (by decide),
      congrArg Resources.currentMember hs'.agrees.resources⟩, by simp [hcursor], by simp [hcursor]⟩
  -- the page is decided with the cursor on the member before
  have hback : Takes event page c Leaf.checkMember (c.atHolder k) := by
    have hbound := hlt.trans hbounded.membersWithIncome
    simpa [hcursor] using takes_checkMember hname hpage hmember (by simp [hcursor]) hbound
  by_cases hjob : holderHasJob (c.atHolder k) = true
  · obtain ⟨m, hm, hhas⟩ := Context.holderHasJob_iff.1 hjob
    have hlast : m.income.jobs.length - 1 < wordBound :=
      Nat.lt_of_le_of_lt (Nat.sub_le _ 1)
        (hbounded.jobs m (Context.mem_members_of_holder? (c := c.atHolder k) hm))
    obtain ⟨s', hcomes, hs'⟩ := hs.exists_comesTo (isPage_of_mem (by decide))
      (hback.reaches ((takes_lastJob hjob fun m' hm' => by
        obtain rfl : m = m' := Option.some.inj (hm.symm.trans hm')
        exact hlast).settles (settles_page (by decide) _)))
    refine ⟨s', hcomes, by simp [hcursor], fun k' m' hk' hm' _ => ?_, fun k' hk' hnone => ?_⟩
    · obtain rfl : k = k' := by omega
      obtain rfl : m = m' := Option.some.inj (hm.symm.trans hm')
      refine ⟨hs'.leafPath_of_mem (by decide), hs'.agrees.resources, withLastJob m, ?_,
        jobs_withLastJob m, currentJob_withLastJob m⟩
      rw [hs'.agrees.holder?, Context.holder?_withHolder, hm]
      rfl
    · obtain rfl : k = k' := by omega
      rw [hnone m hm] at hhas
      cases hhas
  · obtain ⟨s', hcomes, hs'⟩ := hs.exists_comesTo (isPage_of_mem (by decide))
      (hback.reaches ((takes_income_of_checkMember (Bool.eq_false_iff.2 hjob)).settles
        (settles_page (by decide) _)))
    refine ⟨s', hcomes, by simp [hcursor], fun k' m' hk' hm' hhas => ?_, fun k' hk' _ => ?_⟩
    · obtain rfl : k = k' := by omega
      exact absurd (Context.holderHasJob_iff.2 ⟨m', hm', hhas⟩) hjob
    · obtain rfl : k = k' := by omega
      exact ⟨hs'.leafPath_of_mem (by decide), hs'.agrees.resources⟩

/-- Back from a job. -/
lemma Stands.exists_jobSteppedBack (hs : Stands Leaf.jobs c s) (hjob : c.IsOnJob)
    (hname : event.name = previousJob) :
    ∃ s', s.ComesTo event s' ∧ JobSteppedBack c s' := by
  obtain ⟨m, hm, hhas, hlt⟩ := id hjob
  have hcursor : c.currentJob? = some m.income.currentJob := by rw [Context.currentJob?, hm]; rfl
  rcases hindex : m.income.currentJob with - | k
  · have hfirst : noEarlierJob c = true := by simp [noEarlierJob, hm, hindex]
    obtain ⟨s', hcomes, hs'⟩ := hs.exists_comesTo (isPage_of_mem (by decide))
      ((takes_back_incomeBranch hname hfirst).reaches
        ((takes_income (c := c.withHolder withPreviousJob) hjob.isOnMember).settles
          (settles_page (by decide) _)))
    refine ⟨s', hcomes, hs'.agrees.resources, ?_, fun _ => ⟨hs'.leafPath_of_mem (by decide), ?_⟩,
      by simp [hcursor, hindex]⟩
    · rw [hs'.agrees.household, Context.withHolder_withHolder]
      exact Context.map_members_withHolder (·.income.jobs) fun _ _ => rfl
    · rw [Context.currentJob?, hs'.agrees.holder?]
      simp [hm, withJob]
  · have hlater : noEarlierJob c = false := by simp [noEarlierJob, hm, hindex]
    obtain ⟨s', hcomes, hs'⟩ := hs.exists_comesTo hs.isPage
      (reaches_previousJob hname (Context.holderHasJob_iff.2 ⟨m, hm, hhas⟩) hlater)
    have hstays : withCurrentJob (withPreviousJob m) = withPreviousJob m := by
      refine withCurrentJob_of_lt ?_
      simp only [withPreviousJob]
      omega
    refine ⟨s', hcomes, hs'.agrees.resources, ?_, by simp [hcursor, hindex], fun k' hk' => ?_⟩
    · rw [hs'.agrees.household]
      refine Context.map_members_withHolder (·.income.jobs) fun m' hm' => ?_
      obtain rfl : m = m' := Option.some.inj (hm.symm.trans hm')
      rw [hstays]
      rfl
    · obtain rfl : k = k' := by simpa [hcursor, hindex] using hk'
      refine ⟨hs'.leafPath_of_mem (by decide), ?_⟩
      have hholder : s'.machine.context.holder? = some (withPreviousJob m) := by
        simp [hs'.agrees.holder?, hm, hstays]
      rw [Context.currentJob?, hholder, Option.map_some, withPreviousJob, hindex]
      rfl

end

/-- **Stepping back.**  Take a session that shows the page about the income of a member, or about a
job of a member who has one.

* The event that steps back from a member leads to the page about assets if the member is the first
  one.  Otherwise the cursor moves to the member before, and what is shown is the last job of that
  member, with a blank one if there is none; or the page about income if there is no such member or
  no job.
* The event that steps back from a job leads to the job before, or to the page about income from the
  first job.  It does not move the cursor over the members and changes no jobs. -/
theorem stepping_back {s : Session Context Env S} (hchart : Wizard.chart = .ok s.chart)
    (hceiling : 5 ≤ s.settings.maxEventlessSteps) {v : Json}
    (hcontext : Context.decode v = some s.machine.context) (hbounded : s.machine.context.Bounded)
    (hpage : s.leafPath = "form.resources.income" ∨
      s.leafPath = "form.resources.jobs" ∧ s.machine.context.IsOnJob)
    (hmember : s.machine.context.resources.isOnMember = true) (memberBack jobBack : Event)
    (hmemberBack : memberBack.name = previousMember) (hjobBack : jobBack.name = previousJob) :
    (∃ s', s.ComesTo memberBack s' ∧ MemberSteppedBack s.machine.context s') ∧
      (s.leafPath = "form.resources.jobs" →
        ∃ s', s.ComesTo jobBack s' ∧ JobSteppedBack s.machine.context s') := by
  have hvalid := Context.valid_of_decode hcontext
  rcases hpage with hpage | ⟨hpage, hjob⟩
  · have hs : Stands Leaf.income s.machine.context s :=
      stands_of_leafPath (by decide) hchart hceiling hvalid hpage
    exact ⟨hs.exists_memberSteppedBack (by decide) hbounded hmember hmemberBack,
      fun hpage' => absurd (hpage.symm.trans hpage') (by decide)⟩
  · have hs : Stands Leaf.jobs s.machine.context s :=
      stands_of_leafPath (by decide) hchart hceiling hvalid hpage
    exact ⟨hs.exists_memberSteppedBack (by decide) hbounded hmember hmemberBack,
      fun _ => hs.exists_jobSteppedBack hjob hjobBack⟩

/-- A session on the second job of the second member with an income.  The first one has a job as
well, but has described none. -/
def describing : Session Context Script Memory :=
  { Session.new scripted.chart {} with
    machine := {
      context := {
        household := {
          numMembers := some 2
          members := [{ name := { first := "Ann" }, hasJobs := some true },
            { name := { first := "Bea" }, hasJobs := some true, hasOtherJobs := some false,
              income := { jobs := [{}, {}], currentJob := 1 } }] }
        resources := { membersWithIncome := [0, 1], currentMember := 1 } }
      leaf := some Leaf.jobs } }

/-- From a job to the one before, and from the member to a blank job of the one before. -/
theorem stepping_back_describing :
    (∃ s', describing.ComesTo { name := previousMember } s' ∧
      s'.leafPath = "form.resources.jobs" ∧
      s'.machine.context.resources = describing.machine.context.resources.movedTo 0 ∧
      ∃ m', s'.machine.context.holder? = some m' ∧ m'.income.jobs = [{}] ∧
        m'.income.currentJob + 1 = m'.income.jobs.length) ∧
    ∃ s', describing.ComesTo { name := previousJob } s' ∧
      s'.leafPath = "form.resources.jobs" ∧ s'.machine.context.currentJob? = some 0 ∧
      s'.machine.context.resources = describing.machine.context.resources ∧
      s'.machine.context.household.members.map (·.income.jobs) = [[], [{}, {}]] := by
  have hchart : Wizard.chart = .ok describing.chart := scripted_chart
  have hceiling : 5 ≤ describing.settings.maxEventlessSteps := by decide
  have hcontext : Context.decode describing.machine.context.encode =
      some describing.machine.context := by decide +kernel
  have hbounded : describing.machine.context.Bounded :=
    ⟨by decide +kernel, by decide +kernel, by decide +kernel⟩
  have hpage : describing.leafPath = "form.resources.jobs" :=
    (leafPath_eq_layout hchart rfl).trans (pathOf_of_mem (by decide))
  obtain ⟨⟨s', hs', hback⟩, hjobs⟩ := stepping_back hchart hceiling hcontext hbounded
    (.inr ⟨hpage, _, rfl, rfl, by decide⟩) rfl { name := previousMember } { name := previousJob }
    rfl rfl
  obtain ⟨s'', hs'', hjob⟩ := hjobs hpage
  exact ⟨⟨s', hs', hback.toJob 0 _ rfl rfl rfl⟩, s'', hs'', (hjob.later 0 rfl).1,
    (hjob.later 0 rfl).2, hjob.resources, hjob.jobs⟩

end FormChart.Registration.Wizard
