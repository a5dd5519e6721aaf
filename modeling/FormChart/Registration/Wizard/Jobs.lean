import FormChart.Registration.Wizard.Parts

/-!
# The section about resources

After the page about assets there is a page about income for every member with an income, and a
page for every job of such a member.  The cursor of the resources walks over the members, and the
cursor of a member's income over the jobs.  `income-branch`, `jobs-branch`, `other-jobs-loop`,
`next-member` and `check-member` decide what is shown next.

Opening the page of a job behind the last one adds a blank job (`ensureJob`).  Stepping back from a
job answers that there are other jobs, so that the jobs after it are shown again (`backOneJob`).

The section's own names: `set_member_cursor` is `setHolder`, `set_job_cursor` is `setJob`,
`open_job` is `ensureJob` and `step_back_job` is `backOneJob`; the guards `member_has_job`,
`member_has_other_jobs` and `at_first_job` are `holderHasJob`, `holderHasOtherJob` and
`noEarlierJob`.
-/

namespace FormChart.Registration.Wizard

variable {Env : Type}

/-- Moves the cursor over the members with an income. -/
def setHolder (index : Resources → Nat) : Action Context :=
  setResources fun r => r.movedTo (index r)

/-- A member with the cursor at another job. -/
def withJob (index : Income → Nat) (m : Member) : Member :=
  { m with income := { m.income with currentJob := index m.income } }

/-- A member whose current job exists: if the cursor is behind the last job, a blank one is added
    there, and there are no other jobs for now. -/
def withCurrentJob (m : Member) : Member :=
  if m.income.currentJob < m.income.jobs.length then m
  else
    { m with
      hasOtherJobs := if m.income.jobs.isEmpty then none else some false
      income := { m.income with
        currentJob := m.income.jobs.length
        jobs := m.income.jobs ++ [{}] } }

/-- A member with the cursor one job back and, if there are jobs, the answer that there are
    others. -/
def withPreviousJob (m : Member) : Member :=
  { m with
    hasOtherJobs := some (!m.income.jobs.isEmpty)
    income := { m.income with currentJob := m.income.currentJob - 1 } }

/-- Changes the member whose income is asked about. -/
def changeHolder (f : Member → Member) : Action Context :=
  setHousehold fun c => c.withHolderChanged f

/-- Moves the cursor over the jobs. -/
def setJob (index : Income → Nat) : Action Context := changeHolder (withJob index)

/-- Makes sure that the current job exists. -/
def ensureJob : Action Context := changeHolder withCurrentJob

/-- Steps back one job. -/
def backOneJob : Action Context := changeHolder withPreviousJob

/-- Whether the member whose income is asked about has a job. -/
def holderHasJob (c : Context) : Bool := c.holder?.any Member.hasJob

/-- Whether that member has a job besides those already described. -/
def holderHasOtherJob (c : Context) : Bool := c.holder?.any Member.hasOtherJob

/-- Whether there is no job before the current one. -/
def noEarlierJob (c : Context) : Bool := c.holder?.all fun m => m.income.currentJob == 0

/-- The section about resources. -/
def resources : WizardNode Env :=
  { sectionNode "resources" 5 "assets"
      [ entering (pageTo "resources" "assets" "income-branch") [setHolder fun _ => 0]
      , decision "income-branch"
          [.gotoIf "income" fun c => c.resources.isOnMember,
            (Arrow.goto "#review").doing [.keep]]
      , entering (pageTo "resources" "income" "jobs-branch") [setJob fun _ => 0]
      , decision "jobs-branch" [.gotoIf "jobs" holderHasJob, .goto "next-member"]
      , entering (pageTo "resources" "jobs" "other-jobs-loop") [ensureJob]
      , decision "other-jobs-loop"
          [(Arrow.gotoIf "jobs-branch" holderHasOtherJob).doing [setJob fun i => i.currentJob + 1],
            .goto "next-member"]
      , decision "next-member"
          [(Arrow.goto "income-branch").doing [setHolder fun r => r.currentMember + 1, .keep]]
      , decision "check-member"
          [(Arrow.gotoIf "jobs" holderHasJob).doing [setJob fun i => i.jobs.length - 1],
            .goto "income"] ] with
    on :=
      [ (previousMember, .gotoIf ".assets" fun c => c.resources.currentMember == 0)
      , (previousMember,
          (Arrow.goto ".check-member").doing [setHolder Resources.previousMember, .keep])
      , (previousJob, (Arrow.gotoIf ".income-branch" noEarlierJob).doing [backOneJob, .keep])
      , (previousJob, (Arrow.goto ".jobs-branch").doing [backOneJob, .keep]) ] }

end FormChart.Registration.Wizard
