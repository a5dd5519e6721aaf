import FormChart.Proofs.Registration.Incomes
import FormChart.Proofs.Registration.Navigation

/-!
# There and back through the jobs of a member

Whoever steps back from the last job of a member, and then goes on again, sees the jobs again that
are described already.  Stepping back answers that there are other jobs, and this is what shows them
again.  But nobody takes that answer back: behind the last job, where there was no other one before,
**a blank job is added**, and only the step after it leads to the next member
(`Wizard.jobs_are_retraced`).
-/

namespace FormChart.Registration

namespace Member

/-- A member at a job, who answered whether there are other ones. -/
def onJob (m : Member) (index : Nat) (other : Bool) : Member :=
  { m with hasOtherJobs := some other, income := { m.income with currentJob := index } }

/-- A member at a blank job behind the others. -/
def withBlankJob (m : Member) : Member :=
  { m with
    hasOtherJobs := some false
    income := { m.income with
      currentJob := m.income.jobs.length
      jobs := m.income.jobs ++ [{}] } }

variable {m m' : Member} {index : Nat}

lemma onJob_self (hother : m.hasOtherJobs = some false) (hindex : m.income.currentJob = index) :
    m.onJob index false = m := by
  subst hindex
  rw [onJob, ← hother]

/-- One job back. -/
lemma withPreviousJob_onJob (hlt : index < m.income.jobs.length) (other : Bool) :
    Wizard.withCurrentJob (Wizard.withPreviousJob (m.onJob (index + 1) other)) =
      m.onJob index true := by
  have hjobs : m.income.jobs.isEmpty = false := by
    cases hjobs : m.income.jobs with
    | nil => simp [hjobs] at hlt
    | cons => rfl
  have hback : Wizard.withPreviousJob (m.onJob (index + 1) other) = m.onJob index true := by
    simp [Wizard.withPreviousJob, onJob, hjobs]
  rw [hback]
  exact Wizard.withCurrentJob_of_lt hlt

/-- One job on. -/
lemma withNextJob_onJob (hlt : index + 1 < m.income.jobs.length) :
    Wizard.withNextJob (m.onJob index true) = m.onJob (index + 1) true :=
  Wizard.withCurrentJob_of_lt (m := m.onJob (index + 1) true) hlt

/-- Behind the last job a blank one is added. -/
lemma withNextJob_onJob_last (hlast : index + 1 = m.income.jobs.length) :
    Wizard.withNextJob (m.onJob index true) = m.withBlankJob := by
  have hjobs : m.income.jobs.isEmpty = false := by
    cases hjobs : m.income.jobs with
    | nil => simp [hjobs] at hlast
    | cons => rfl
  have hbehind : ¬ index + 1 < m.income.jobs.length := by omega
  simp only [Wizard.withNextJob, Wizard.withCurrentJob, Wizard.withJob, onJob, if_neg hbehind,
    hjobs]
  rfl

/-- Both members get back to the first job. -/
lemma WalksTo.withFirstJob {added : List Job} (h : m.WalksTo added m') :
    (Wizard.withJob (fun _ => 0) m).WalksTo added (Wizard.withJob (fun _ => 0) m') :=
  ⟨congrArg (Wizard.withJob fun _ => 0) h.settled, h.jobs⟩

lemma walksTo_withBlankJob (m : Member) : m.WalksTo [{}] m.withBlankJob := ⟨rfl, rfl⟩

end Member

/-- Somebody gets back to the first job in both households. -/
lemma Household.WalksTo.withFirstJob {grown : Option Nat} {h h' : Household}
    (hwalks : h.WalksTo grown h') (j : Nat) :
    (h.modifyMember j (Wizard.withJob fun _ => 0)).WalksTo grown
      (h'.modifyMember j (Wizard.withJob fun _ => 0)) := by
  refine ⟨hwalks.numMembers, by simpa [modifyMember] using hwalks.length, fun i m hm => ?_⟩
  rw [modifyMember, List.getElem?_modify] at hm
  obtain ⟨k, hk, rfl⟩ := Option.map_eq_some_iff.1 hm
  obtain ⟨k', hk', hmember⟩ := hwalks.members i k hk
  rw [modifyMember, List.getElem?_modify, hk']
  by_cases hij : j = i
  · exact ⟨_, rfl, by simpa [hij] using hmember.withFirstJob⟩
  · exact ⟨_, rfl, by simpa [hij] using hmember⟩

namespace Context

variable {c : Context} {m : Member}

/-- Nothing is changed by putting a member where it is. -/
lemma withHolder_self (hm : c.holder? = some m) : c.withHolder (fun _ => m) = c := by
  obtain ⟨i, hi, hmember⟩ := Option.bind_eq_some_iff.1 hm
  have hsame : c.household.members.modify i (fun _ => m) = c.household.members := by
    refine List.ext_getElem? fun j => ?_
    rw [List.getElem?_modify]
    by_cases hij : i = j
    · subst hij
      simp [hmember]
    · simp [hij]
  rw [withHolder, withHolderChanged, hi]
  dsimp only
  rw [Household.modifyMember, hsame]

/-- Adding a blank job to a member keeps the answers but for that job. -/
lemma walksTo_withBlankJob (hm : c.holder? = some m) :
    c.household.WalksTo c.resources.holderIndex?
      (c.withHolder fun _ => m.withBlankJob).household := by
  obtain ⟨i, hi, hmember⟩ := Option.bind_eq_some_iff.1 hm
  rw [withHolder, withHolderChanged, hi]
  refine Household.walksTo_modifyMember (fun m' hm' => ?_) (by simp)
  obtain rfl : m = m' := Option.some.inj (hmember.symm.trans hm')
  simpa [blankJob] using m.walksTo_withBlankJob

/-- They are kept as well if somebody gets back to the first job in both. -/
lemma walksTo_withFirstJob {grown : Option Nat} {c' : Context}
    (hwalks : c.household.WalksTo grown c'.household) (hresources : c'.resources = c.resources) :
    (c.withHolder (Wizard.withJob fun _ => 0)).household.WalksTo grown
      (c'.withHolder (Wizard.withJob fun _ => 0)).household := by
  unfold withHolder withHolderChanged
  rw [hresources]
  cases c.resources.holderIndex? with
  | none => exact hwalks
  | some j => exact hwalks.withFirstJob j

end Context

namespace Wizard

variable {Env S : Type} [Services Env] [Storage S]

/-- Whether a session shows a page about a job of the member whose income is asked about in a
context, who has certain jobs. -/
structure ShowsJob (c : Context) (jobs : List Job) (index : Nat) (s : Session Context Env S) :
    Prop where
  page : s.leafPath = "form.resources.jobs"
  resources : s.machine.context.resources = c.resources
  jobs : s.machine.context.holder?.map (·.income.jobs) = some jobs
  cursor : s.machine.context.currentJob? = some index

section

variable {s : Session Context Env S} {c : Context} {m : Member} {event : Event} {index b : Nat}

omit [Storage S] in
lemma Stands.showsJob {m' : Member} (hs : Stands Leaf.jobs (c.withHolder fun _ => m') s)
    (hm : c.holder? = some m) : ShowsJob c m'.income.jobs m'.income.currentJob s := by
  have hholder : s.machine.context.holder? = some m' := by
    rw [hs.agrees.holder?, Context.holder?_withHolder, hm, Option.map_some]
  refine ⟨hs.leafPath_of_mem (by decide), hs.agrees.resources, ?_, ?_⟩
  · rw [hholder, Option.map_some]
  · rw [Context.currentJob?, hholder, Option.map_some]

/-! ## The steps -/

/-- To the job before. -/
lemma Stands.exists_previousJob {other : Bool}
    (hs : Stands Leaf.jobs (c.withHolder fun _ => m.onJob (index + 1) other) s)
    (hm : c.holder? = some m) (hjob : m.hasJob = true) (hlt : index < m.income.jobs.length)
    (hname : event.name = previousJob) :
    ∃ s', s.ComesTo event s' ∧ Stands Leaf.jobs (c.withHolder fun _ => m.onJob index true) s' := by
  have hholder : (c.withHolder fun _ => m.onJob (index + 1) other).holder? =
      some (m.onJob (index + 1) other) := by
    rw [Context.holder?_withHolder, hm, Option.map_some]
  have hback := reaches_previousJob hname (Context.holderHasJob_iff.2 ⟨_, hholder, hjob⟩)
    (by rw [noEarlierJob, hholder]; rfl)
  rw [Context.withHolder_withHolder, Member.withPreviousJob_onJob hlt] at hback
  exact hs.exists_comesTo hs.isPage hback

/-- To the next job, or to a blank one. -/
lemma Stands.exists_nextJob (hs : Stands Leaf.jobs (c.withHolder fun _ => m.onJob index true) s)
    (hm : c.holder? = some m) (hjob : m.hasJob = true) (hbound : index + 1 < wordBound)
    (hname : event.name = next) (hpayload : event.payload = {}) :
    ∃ s', s.ComesTo event s' ∧
      Stands Leaf.jobs (c.withHolder fun _ => withNextJob (m.onJob index true)) s' := by
  have hholder : (c.withHolder fun _ => m.onJob index true).holder? =
      some (m.onJob index true) := by
    rw [Context.holder?_withHolder, hm, Option.map_some]
  have hnext := reaches_nextJob hname hpayload (Context.holderHasJob_iff.2 ⟨_, hholder, hjob⟩)
    (by rw [holderHasOtherJob, hholder]; rfl) fun m' hm' => by
      obtain rfl := Option.some.inj (hholder.symm.trans hm')
      exact hbound
  rw [Context.withHolder_withHolder] at hnext
  exact hs.exists_comesTo hs.isPage hnext

/-- To the next member. -/
lemma Stands.exists_nextMember (hs : Stands Leaf.jobs c s) (hm : c.holder? = some m)
    (hother : m.hasOtherJobs = some false) (hbound : c.resources.currentMember + 1 < wordBound)
    (hname : event.name = next) (hpayload : event.payload = {}) :
    ∃ s', s.ComesTo event s' ∧
      Stands (memberPage (c.resources.movedTo (c.resources.currentMember + 1)))
        ((c.atHolder (c.resources.currentMember + 1)).withHolder (withJob fun _ => 0)) s' := by
  have hnone : holderHasOtherJob c = false := by
    rw [holderHasOtherJob, hm, Option.any_some, Member.hasOtherJob, hother]
    rfl
  exact hs.exists_comesTo (isPage_memberPage _) (movesOn_jobs hname hpayload hnone hbound)

/-! ## Back and forth -/

/-- **Back over the jobs**, of which none is changed. -/
lemma Stands.exists_backs (hs : Stands Leaf.jobs c s) (hm : c.holder? = some m)
    (hjob : m.hasJob = true) (hother : m.hasOtherJobs = some false)
    (hcurrent : m.income.currentJob < m.income.jobs.length) (hb : b ≤ m.income.currentJob)
    (hname : event.name = previousJob) :
    ∃ backs : Nat → Session Context Env S, backs 0 = s ∧
      (∀ k < b, (backs k).ComesTo event (backs (k + 1))) ∧ ∀ k ≤ b, Stands Leaf.jobs
        (c.withHolder fun _ => m.onJob (m.income.currentJob - k) (decide (0 < k))) (backs k) := by
  refine Session.exists_walk (P := fun k => Stands Leaf.jobs
    (c.withHolder fun _ => m.onJob (m.income.currentJob - k) (decide (0 < k)))) ?_ ?_
  · intro k hk t ht
    have hback : m.income.currentJob - k = m.income.currentJob - (k + 1) + 1 := by omega
    rw [hback] at ht
    rw [decide_eq_true (Nat.succ_pos k)]
    exact ht.exists_previousJob hm hjob (by omega) hname
  · have hself : m.onJob m.income.currentJob false = m := Member.onJob_self hother rfl
    simpa [hself, Context.withHolder_self hm] using hs

/-- **Forth over the jobs again.** -/
lemma Stands.exists_forths (hs : Stands Leaf.jobs (c.withHolder fun _ => m.onJob index true) s)
    (hm : c.holder? = some m) (hjob : m.hasJob = true) (hb : index + b < m.income.jobs.length)
    (hbound : m.income.jobs.length < wordBound) (hname : event.name = next)
    (hpayload : event.payload = {}) :
    ∃ forths : Nat → Session Context Env S, forths 0 = s ∧
      (∀ k < b, (forths k).ComesTo event (forths (k + 1))) ∧ ∀ k ≤ b,
        Stands Leaf.jobs (c.withHolder fun _ => m.onJob (index + k) true) (forths k) := by
  refine Session.exists_walk
    (P := fun k => Stands Leaf.jobs (c.withHolder fun _ => m.onJob (index + k) true)) ?_ hs
  intro k hk t ht
  obtain ⟨t', hcomes, ht'⟩ := ht.exists_nextJob hm hjob (by omega) hname hpayload
  rw [Member.withNextJob_onJob (by omega)] at ht'
  exact ⟨t', hcomes, ht'⟩

end

/-- **The jobs are retraced, and one more.**  Take a session on the last of some jobs of a member
who answered that there are no other ones.  After some events that step back, but not beyond the
first job, as many that go on show the jobs again that were stepped over, with no job changed.

The next one shows a blank job that was added, although there is nothing to describe.  Only the one
after that leads on to the next member: to the page with which one could have gone on at once, and
with the same answers but for the blank job. -/
theorem jobs_are_retraced {s : Session Context Env S} (hchart : Wizard.chart = .ok s.chart)
    (hceiling : 5 ≤ s.settings.maxEventlessSteps) {v : Json}
    (hcontext : Context.decode v = some s.machine.context) (hbounded : s.machine.context.Bounded)
    (hpage : s.leafPath = "form.resources.jobs") {m : Member}
    (hm : s.machine.context.holder? = some m) (hjob : m.hasJob = true)
    (hother : m.hasOtherJobs = some false) {n b : Nat} (hn : m.income.jobs.length = n)
    (hlast : m.income.currentJob + 1 = n) (hpos : 1 ≤ b) (hb : b ≤ n - 1)
    (backward forward : Event) (hbackward : backward.name = previousJob)
    (hforward : forward.name = next) (hpayload : forward.payload = {}) :
    ∃ (backs forths : Nat → Session Context Env S) (blank left straight : Session Context Env S),
      backs 0 = s ∧ forths 0 = backs b ∧
      (∀ k < b, (backs k).ComesTo backward (backs (k + 1)) ∧
        (forths k).ComesTo forward (forths (k + 1))) ∧
      (∀ k ≤ b, ShowsJob s.machine.context m.income.jobs (n - 1 - k) (backs k) ∧
        ShowsJob s.machine.context m.income.jobs (n - 1 - b + k) (forths k)) ∧
      (forths b).ComesTo forward blank ∧
      ShowsJob s.machine.context (m.income.jobs ++ [({} : Job)]) n blank ∧
      blank.ComesTo forward left ∧ s.ComesTo forward straight ∧
      left.leafPath = straight.leafPath ∧
      left.machine.context.resources = straight.machine.context.resources ∧
      straight.machine.context.household.WalksTo s.machine.context.resources.holderIndex?
        left.machine.context.household := by
  have hs : Stands Leaf.jobs s.machine.context s :=
    stands_of_leafPath (by decide) hchart hceiling (Context.valid_of_decode hcontext) hpage
  have hcurrent : m.income.currentJob < m.income.jobs.length := by omega
  have hmember : s.machine.context.resources.isOnMember = true :=
    Context.IsOnJob.isOnMember ⟨m, hm, hjob, hcurrent⟩
  have hbound := hbounded.jobs m (Context.mem_members_of_holder? hm)
  have hnext : s.machine.context.resources.currentMember + 1 < wordBound :=
    Nat.lt_of_le_of_lt (Resources.isOnMember_iff.1 hmember) hbounded.membersWithIncome
  obtain ⟨backs, hstart, hbacks, hback⟩ :=
    hs.exists_backs hm hjob hother hcurrent (by omega : b ≤ m.income.currentJob) hbackward
  have hturn := hback b le_rfl
  rw [decide_eq_true (show 0 < b from hpos)] at hturn
  obtain ⟨forths, hturned, hforths, hforth⟩ := hturn.exists_forths hm hjob
    (by omega : m.income.currentJob - b + b < m.income.jobs.length) hbound hforward hpayload
  obtain ⟨blank, hblank, hblank'⟩ := (hforth b le_rfl).exists_nextJob hm hjob (by omega) hforward
    hpayload
  rw [Member.withNextJob_onJob_last (by omega)] at hblank'
  have hholder : (s.machine.context.withHolder fun _ => m.withBlankJob).holder? =
      some m.withBlankJob := by rw [Context.holder?_withHolder, hm, Option.map_some]
  obtain ⟨left, hleft, hleft'⟩ :=
    hblank'.exists_nextMember hholder rfl hnext hforward hpayload
  obtain ⟨straight, hstraight, hstraight'⟩ :=
    hs.exists_nextMember hm hother hnext hforward hpayload
  refine ⟨backs, forths, blank, left, straight, hstart, hturned,
    fun k hk => ⟨hbacks k hk, hforths k hk⟩, fun k hk => ⟨?_, ?_⟩, hblank, ?_, hleft, hstraight,
    hleft'.leafPath.trans hstraight'.leafPath.symm,
    hleft'.agrees.resources.trans hstraight'.agrees.resources.symm, ?_⟩
  · have hshows := (hback k hk).showsJob hm
    rwa [show n - 1 - k = m.income.currentJob - k by omega]
  · have hshows := (hforth k hk).showsJob hm
    rwa [show n - 1 - b + k = m.income.currentJob - b + k by omega]
  · have hshows := hblank'.showsJob hm
    rwa [← hn]
  · rw [hstraight'.agrees.household, hleft'.agrees.household]
    exact Context.walksTo_withFirstJob (c := s.machine.context.atHolder _)
      (Context.walksTo_withBlankJob hm) rfl

/-- A member on the second of two jobs, who has no other ones. -/
def employed : Member :=
  { name := { first := "Ann" }
    hasJobs := some true
    hasOtherJobs := some false
    income := { jobs := [{}, {}], currentJob := 1 } }

/-- A session on the page about that job. -/
def rehearsing : Session Context Script Memory :=
  { Session.new scripted.chart {} with
    machine := {
      context := {
        household := { numMembers := some 1, members := [employed] }
        resources := { membersWithIncome := [0] } }
      leaf := some Leaf.jobs } }

lemma rehearsing_decoded : Context.decode rehearsing.machine.context.encode =
    some rehearsing.machine.context := by
  decide +kernel

/-- Both jobs are shown again, and then a third one. -/
theorem jobs_are_retraced_rehearsing :
    ∃ (backs forths : Nat → Session Context Script Memory)
      (blank left straight : Session Context Script Memory),
      backs 0 = rehearsing ∧ forths 0 = backs 1 ∧
      (backs 0).ComesTo { name := previousJob } (backs 1) ∧
      ShowsJob rehearsing.machine.context [{}, {}] 0 (backs 1) ∧
      (forths 0).ComesTo { name := next } (forths 1) ∧
      ShowsJob rehearsing.machine.context [{}, {}] 1 (forths 1) ∧
      (forths 1).ComesTo { name := next } blank ∧
      ShowsJob rehearsing.machine.context [{}, {}, {}] 2 blank ∧
      blank.ComesTo { name := next } left ∧ rehearsing.ComesTo { name := next } straight ∧
      left.leafPath = straight.leafPath := by
  have hchart : Wizard.chart = .ok rehearsing.chart := scripted_chart
  have hceiling : 5 ≤ rehearsing.settings.maxEventlessSteps := by decide
  have hbounded : rehearsing.machine.context.Bounded :=
    ⟨by decide +kernel, by decide +kernel, by decide +kernel⟩
  have hpage : rehearsing.leafPath = "form.resources.jobs" :=
    (leafPath_eq_layout hchart rfl).trans (pathOf_of_mem (by decide))
  obtain ⟨backs, forths, blank, left, straight, hstart, hturned, hsteps, hshows, hblank, hshown,
    hleft, hstraight, hsame, -⟩ := jobs_are_retraced (n := 2) (b := 1) hchart hceiling
      rehearsing_decoded hbounded hpage rfl rfl rfl rfl rfl le_rfl le_rfl { name := previousJob }
      { name := next } rfl rfl rfl
  exact ⟨backs, forths, blank, left, straight, hstart, hturned, (hsteps 0 Nat.one_pos).1,
    (hshows 1 le_rfl).1, (hsteps 0 Nat.one_pos).2, (hshows 1 le_rfl).2, hblank, hshown, hleft,
    hstraight, hsame⟩

/-- **Going back is not made good by going forth**: without it, the event leads on to the review,
and with it, to a third job. -/
theorem retracing_adds_a_job :
    ∃ back forth blank straight : Session Context Script Memory,
      rehearsing.ComesTo { name := previousJob } back ∧ back.ComesTo { name := next } forth ∧
      forth.ComesTo { name := next } blank ∧ blank.leafPath = "form.resources.jobs" ∧
      blank.machine.context.holder?.map (·.income.jobs) = some [{}, {}, {}] ∧
      rehearsing.ComesTo { name := next } straight ∧ straight.leafPath = "form.review.default" ∧
      straight.machine.context.household.members.map (·.income.jobs) = [[{}, {}]] := by
  have hs : Stands Leaf.jobs rehearsing.machine.context rehearsing :=
    ⟨scripted_chart, by decide, isPage_of_mem (by decide), rfl,
      (Context.valid_of_decode rehearsing_decoded).agreesWith⟩
  have hm : rehearsing.machine.context.holder? = some employed := rfl
  have hlast : Stands Leaf.jobs
      (rehearsing.machine.context.withHolder fun _ => employed.onJob (0 + 1) false) rehearsing := by
    rwa [show employed.onJob (0 + 1) false = employed from rfl, Context.withHolder_self hm]
  have hname : ({ name := next } : Event).name = next := rfl
  obtain ⟨back, hback, hback'⟩ := hlast.exists_previousJob hm rfl (by decide)
    (rfl : ({ name := previousJob } : Event).name = previousJob)
  obtain ⟨forth, hforth, hforth'⟩ := hback'.exists_nextJob hm rfl (by decide) hname rfl
  rw [Member.withNextJob_onJob (by decide)] at hforth'
  obtain ⟨blank, hblank, hblank'⟩ := hforth'.exists_nextJob hm rfl (by decide) hname rfl
  rw [Member.withNextJob_onJob_last (by decide)] at hblank'
  obtain ⟨straight, hstraight, hstraight'⟩ :=
    hs.exists_nextMember hm rfl (by decide) hname rfl
  have hshown := hblank'.showsJob hm
  refine ⟨back, forth, blank, straight, hback, hforth, hblank, hshown.page, hshown.jobs,
    hstraight, hstraight'.leafPath_of_mem (by decide), ?_⟩
  rw [hstraight'.agrees.household]
  rfl

end Wizard

end FormChart.Registration
