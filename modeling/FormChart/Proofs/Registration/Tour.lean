import FormChart.Proofs.Registration.Incomes

/-!
# The whole way through incomes and jobs

Whoever only goes on from the page about assets sees the income of every member with an income, each
once, and gets to the review in the end (`Wizard.incomes_are_toured`).  The indices of the members
may repeat or lead nowhere, and the jobs may be as many as there are.

There are two loops, so the induction is twofold.  The outer one is on the members that are left
(`Wizard.toursFrom`).  The inner one is on the jobs of one member that are left to be shown
(`Member.jobsLeft`): a blank job is only added behind the last one, and then there are no others.
-/

namespace FormChart.Registration

/-! ## Jobs left -/

namespace Member

/-- How many jobs are still shown from the current one on, before the next member. -/
def jobsLeft (m : Member) : Nat :=
  if m.hasOtherJob then m.income.jobs.length - m.income.currentJob else 0

lemma hasJob_withCurrentJob (m : Member) : (Wizard.withCurrentJob m).hasJob = m.hasJob := by
  unfold Wizard.withCurrentJob
  split <;> rfl

/-- Once a blank job was added there are no others. -/
lemma hasOtherJob_withCurrentJob {m : Member} (h : m.income.jobs.length ≤ m.income.currentJob) :
    (Wizard.withCurrentJob m).hasOtherJob = false := by
  rw [Wizard.withCurrentJob, if_neg (Nat.not_lt.2 h), hasOtherJob]
  dsimp only
  split <;> rfl

/-- **Every job that is shown is one less.** -/
lemma jobsLeft_withNextJob {m : Member} (hother : m.hasOtherJob = true)
    (hjob : m.income.currentJob < m.income.jobs.length) :
    (Wizard.withNextJob m).jobsLeft < m.jobsLeft := by
  have hleft : m.jobsLeft = m.income.jobs.length - m.income.currentJob := if_pos hother
  by_cases hlast : m.income.currentJob + 1 < m.income.jobs.length
  · have hnext : Wizard.withNextJob m = Wizard.withJob (fun i => i.currentJob + 1) m :=
      Wizard.withCurrentJob_of_lt hlast
    have hleft' : (Wizard.withNextJob m).jobsLeft =
        m.income.jobs.length - (m.income.currentJob + 1) := by
      rw [hnext]
      exact if_pos hother
    omega
  · -- a blank job is added, and it is the last one
    have hnone : (Wizard.withNextJob m).hasOtherJob = false :=
      hasOtherJob_withCurrentJob (Nat.le_of_not_lt hlast)
    have hleft' : (Wizard.withNextJob m).jobsLeft = 0 := if_neg (by simp [hnone])
    omega

lemma currentJob_withCurrentJob_lt (m : Member) :
    (Wizard.withCurrentJob m).income.currentJob < (Wizard.withCurrentJob m).income.jobs.length := by
  unfold Wizard.withCurrentJob
  split
  next hlt => exact hlt
  next => simp

/-- Whether the jobs of a member can be counted as long as others are shown. -/
def CountsJobs (m : Member) : Prop := m.hasOtherJob = true → m.income.jobs.length < wordBound

lemma CountsJobs.withJob {m : Member} (h : m.CountsJobs) (index : Income → Nat) :
    (Wizard.withJob index m).CountsJobs := h

/-- They are no longer counted when there is one more. -/
lemma CountsJobs.withCurrentJob {m : Member} (h : m.CountsJobs) :
    (Wizard.withCurrentJob m).CountsJobs := by
  by_cases hlt : m.income.currentJob < m.income.jobs.length
  · rwa [Wizard.withCurrentJob_of_lt hlt]
  · intro hother
    rw [hasOtherJob_withCurrentJob (Nat.le_of_not_lt hlt)] at hother
    cases hother

end Member

/-! ## What holds on the way -/

/-- Whether the cursor is at one of so many members with an income, or behind them. -/
structure Context.Touring (total index : Nat) (c : Context) : Prop where
  cursor : c.resources.currentMember = index
  length : c.resources.membersWithIncome.length = total
  fits : total < wordBound
  counts : ∀ m ∈ c.household.members, m.CountsJobs

namespace Context

variable {total index : Nat} {c : Context}

lemma Touring.atHolder (h : c.Touring total index) (index' : Nat) :
    (c.atHolder index').Touring total index' := ⟨rfl, h.length, h.fits, h.counts⟩

lemma Touring.withHolder (h : c.Touring total index) {f : Member → Member}
    (hf : ∀ m : Member, m.CountsJobs → (f m).CountsJobs) :
    (c.withHolder f).Touring total index := by
  refine ⟨h.cursor, h.length, h.fits, fun m hm => ?_⟩
  rcases mem_members_withHolder hm with hm | ⟨k, hk, rfl⟩
  · exact h.counts m hm
  · exact hf k (h.counts k (mem_members_of_holder? hk))

lemma Touring.isOnMember_iff (h : c.Touring total index) :
    c.resources.isOnMember = true ↔ index < total := by
  rw [Resources.isOnMember_iff, h.cursor, h.length]

/-- The next index fits as well. -/
lemma Touring.next_lt (h : c.Touring total index) (hlt : index < total) :
    c.resources.currentMember + 1 < wordBound := by
  have hfits := h.fits
  rw [h.cursor]
  omega

end Context

namespace Wizard

/-! ## Tours -/

variable {Env S : Type} [Services Env] [Storage S]

/-- Whether an event that is sent again and again leads through the pages about income and jobs to
the review, by the income of each member once, from a certain one on. -/
structure Tour (event : Event) (total index : Nat) (s : Session Context Env S)
    (shown : List (Session Context Env S)) (last : Session Context Env S) : Prop where
  chain : (s :: (shown ++ [last])).IsChain (Session.ComesTo event)
  pages : ∀ t ∈ shown, t.leafPath = "form.resources.income" ∨ t.leafPath = "form.resources.jobs"
  incomes : (shown.filter (·.leafPath = "form.resources.income")).map
    (·.machine.context.resources.currentMember) = List.range' index (total - index)
  review : last.leafPath = "form.review.default"
  cursor : last.machine.context.resources.currentMember = total

/-- Whether there is such a way. -/
def ToursFrom (event : Event) (total index : Nat) (s : Session Context Env S) : Prop :=
  ∃ shown last, Tour event total index s shown last

section

variable {event : Event} {total index : Nat} {s t : Session Context Env S} {c c' : Context}
  {page : NodeId}

omit [Services Env] in
/-- Behind the last member there is nothing left but the review. -/
lemma toursFrom_of_review (h : s.ComesTo event t) (hpage : t.leafPath = "form.review.default")
    (hcursor : t.machine.context.resources.currentMember = total) :
    ToursFrom event total total s :=
  ⟨[], t, by simpa using h, by simp, by simp, hpage, hcursor⟩

omit [Services Env] in
/-- The income of a member, and then that of the others. -/
lemma ToursFrom.of_income (h : s.ComesTo event t) (hpage : t.leafPath = "form.resources.income")
    (hcursor : t.machine.context.resources.currentMember = index) (hlt : index < total)
    (hmore : ToursFrom event total (index + 1) t) : ToursFrom event total index s := by
  obtain ⟨shown, last, htour⟩ := hmore
  refine ⟨t :: shown, last, List.isChain_cons_cons.2 ⟨h, htour.chain⟩,
    List.forall_mem_cons.2 ⟨.inl hpage, htour.pages⟩, ?_, htour.review, htour.cursor⟩
  have hcount : total - index = total - (index + 1) + 1 := by omega
  rw [List.filter_cons_of_pos (by simp [hpage]), List.map_cons, htour.incomes, hcursor, hcount,
    List.range'_succ]

omit [Services Env] in
/-- A job, and then the rest. -/
lemma ToursFrom.of_jobs (h : s.ComesTo event t) (hpage : t.leafPath = "form.resources.jobs")
    (hmore : ToursFrom event total index t) : ToursFrom event total index s := by
  obtain ⟨shown, last, htour⟩ := hmore
  refine ⟨t :: shown, last, List.isChain_cons_cons.2 ⟨h, htour.chain⟩,
    List.forall_mem_cons.2 ⟨.inr hpage, htour.pages⟩, ?_, htour.review, htour.cursor⟩
  rw [List.filter_cons_of_neg (by simp [hpage]), htour.incomes]

/-- **The jobs of one member** are shown, if the way goes on from there. -/
lemma toursFrom_jobs (hname : event.name = next) (hpayload : event.payload = {})
    (hlt : index < total)
    (hon : ∀ (s : Session Context Env S) (c c' : Context) (page : NodeId), Stands page c s →
      MovesOn event page c c' → c'.Touring total (index + 1) → ToursFrom event total (index + 1) s)
    (hs : Stands Leaf.jobs c s) (hc : c.Touring total index) (hjob : c.IsOnJob) :
    ToursFrom event total (index + 1) s := by
  obtain ⟨m, hm, hhas, hcurrent⟩ := hjob
  induction hleft : m.jobsLeft using Nat.strong_induction_on generalizing s c m with
  | h left ih =>
      by_cases hother : m.hasOtherJob = true
      · have hholder : (c.withHolder withNextJob).holder? = some (withNextJob m) := by
          rw [Context.holder?_withHolder, hm, Option.map_some]
        have hcounts := hc.counts m (Context.mem_members_of_holder? hm) hother
        obtain ⟨t, hcomes, ht⟩ := hs.exists_comesTo hs.isPage (reaches_nextJob hname hpayload
          (Context.holderHasJob_iff.2 ⟨m, hm, hhas⟩) (by simp [holderHasOtherJob, hm, hother])
          fun m' hm' => by
            obtain rfl : m = m' := Option.some.inj (hm.symm.trans hm')
            exact Nat.lt_of_le_of_lt hcurrent hcounts)
        refine .of_jobs hcomes (ht.leafPath_of_mem (by decide)) ?_
        exact ih _ (hleft ▸ Member.jobsLeft_withNextJob hother hcurrent) ht
          (hc.withHolder fun m hm => (hm.withJob _).withCurrentJob) _ hholder
          ((Member.hasJob_withCurrentJob _).trans hhas) (Member.currentJob_withCurrentJob_lt _) rfl
      · have hnone : holderHasOtherJob c = false := by simpa [holderHasOtherJob, hm] using hother
        refine hon s c _ Leaf.jobs hs (movesOn_jobs hname hpayload hnone (hc.next_lt hlt)) ?_
        rw [hc.cursor]
        exact hc.atHolder _

/-- **All members from one on** are toured, if an event leads to the decision about that one. -/
lemma toursFrom (hname : event.name = next) (hpayload : event.payload = {}) (hs : Stands page c s)
    (hmoves : MovesOn event page c c') (hc : c'.Touring total index) (hle : index ≤ total) :
    ToursFrom event total index s := by
  induction hleft : total - index generalizing index s page c c' with
  | zero =>
      obtain rfl : index = total := by omega
      rw [MovesOn, memberPage, if_neg (by simp [hc.isOnMember_iff])] at hmoves
      obtain ⟨t, hcomes, ht⟩ := hs.exists_comesTo (isPage_of_mem (by decide)) hmoves
      refine toursFrom_of_review hcomes (ht.leafPath_of_mem (by decide)) ?_
      rw [ht.agrees.resources]
      exact hc.cursor
  | succ left ih =>
      have hlt : index < total := by omega
      rw [MovesOn, memberPage, if_pos (hc.isOnMember_iff.2 hlt)] at hmoves
      obtain ⟨t, hcomes, ht⟩ := hs.exists_comesTo (isPage_of_mem (by decide)) hmoves
      have hcursor : t.machine.context.resources.currentMember = index := by
        rw [ht.agrees.resources]
        exact hc.cursor
      refine .of_income hcomes (ht.leafPath_of_mem (by decide)) hcursor hlt ?_
      have hct := hc.withHolder (f := withJob fun _ => 0) fun m hm => hm.withJob _
      by_cases hjob : holderHasJob (c'.withHolder (withJob fun _ => 0)) = true
      · obtain ⟨u, hcomes', hu⟩ := ht.exists_comesTo (isPage_of_mem (by decide))
          (reaches_jobs_of_income hname hpayload hjob)
        obtain ⟨m, hm, hhas⟩ := Context.holderHasJob_iff.1 hjob
        refine .of_jobs hcomes' (hu.leafPath_of_mem (by decide)) (toursFrom_jobs hname hpayload hlt
          (fun s c c' page hs hmoves hc => ih hs hmoves hc hlt (by omega)) hu
          (hct.withHolder fun m hm => hm.withCurrentJob) ⟨withCurrentJob m, ?_, ?_, ?_⟩)
        · rw [Context.holder?_withHolder, hm, Option.map_some]
        · rwa [Member.hasJob_withCurrentJob]
        · exact m.currentJob_withCurrentJob_lt
      · refine ih ht (movesOn_income hname hpayload (Bool.eq_false_iff.2 hjob) (hct.next_lt hlt)) ?_
          hlt (by omega)
        rw [hct.cursor]
        exact hct.atHolder _

end

/-- **All incomes are shown, and then the review.**  Take a session on the page about assets, with
the cursor at the first of so many members with an income.  An event that goes on, sent again and
again, leads to the review.  Before that only pages about income and jobs are shown, and the pages
about income are those of each member, once and in their order.  In the end the cursor is behind the
last one. -/
theorem incomes_are_toured {s : Session Context Env S} (hchart : Wizard.chart = .ok s.chart)
    (hceiling : 5 ≤ s.settings.maxEventlessSteps) {v : Json}
    (hcontext : Context.decode v = some s.machine.context) (hbounded : s.machine.context.Bounded)
    (hpage : s.leafPath = "form.resources.assets")
    (hcursor : s.machine.context.resources.currentMember = 0) {n : Nat}
    (hn : s.machine.context.resources.membersWithIncome.length = n) (event : Event)
    (hname : event.name = next) (hpayload : event.payload = {}) :
    ∃ (shown : List (Session Context Env S)) (last : Session Context Env S),
      (s :: (shown ++ [last])).IsChain (Session.ComesTo event) ∧
      (∀ t ∈ shown, t.leafPath = "form.resources.income" ∨ t.leafPath = "form.resources.jobs") ∧
      (shown.filter (·.leafPath = "form.resources.income")).map
        (·.machine.context.resources.currentMember) = List.range n ∧
      last.leafPath = "form.review.default" ∧
      last.machine.context.resources.currentMember = n := by
  have hs : Stands Leaf.assets s.machine.context s :=
    stands_of_leafPath (by decide) hchart hceiling (Context.valid_of_decode hcontext) hpage
  have htouring : s.machine.context.Touring n 0 :=
    ⟨hcursor, hn, hn ▸ hbounded.membersWithIncome, fun m hm _ => hbounded.jobs m hm⟩
  obtain ⟨shown, last, htour⟩ :=
    toursFrom hname hpayload hs (movesOn_assets hname hpayload _) htouring (Nat.zero_le n)
  refine ⟨shown, last, htour.chain, htour.pages, ?_, htour.review, htour.cursor⟩
  rw [htour.incomes, List.range_eq_range', Nat.sub_zero]

/-- A session before the pages about the incomes of a member with a job, of nobody, and of the same
member again. -/
def asking : Session Context Script Memory :=
  { Session.new scripted.chart {} with
    machine := {
      context := {
        household := {
          members := [
            { name := { first := "Ann" }, hasJobs := some true, hasOtherJobs := some true }] }
        resources := { membersWithIncome := [0, 7, 0] } }
      leaf := some Leaf.assets } }

/-- Three members with an income are listed, of which one is in the household: there are three pages
about income. -/
theorem incomes_are_toured_asking : ∃ (shown : List (Session Context Script Memory))
    (last : Session Context Script Memory),
    (asking :: (shown ++ [last])).IsChain (Session.ComesTo { name := next }) ∧
    (shown.filter (·.leafPath = "form.resources.income")).map
      (·.machine.context.resources.currentMember) = [0, 1, 2] ∧
    last.leafPath = "form.review.default" ∧
    last.machine.context.resources.currentMember = 3 := by
  have hchart : Wizard.chart = .ok asking.chart := scripted_chart
  have hceiling : 5 ≤ asking.settings.maxEventlessSteps := by decide
  have hcontext : Context.decode asking.machine.context.encode = some asking.machine.context := by
    decide +kernel
  have hbounded : asking.machine.context.Bounded :=
    ⟨by decide +kernel, by decide +kernel, by decide +kernel⟩
  have hpage : asking.leafPath = "form.resources.assets" :=
    (leafPath_eq_layout hchart rfl).trans (pathOf_of_mem (by decide))
  obtain ⟨shown, last, hchain, -, hincomes, hreview, hcursor⟩ := incomes_are_toured (n := 3) hchart
    hceiling hcontext hbounded hpage rfl rfl { name := next } rfl rfl
  exact ⟨shown, last, hchain, hincomes, hreview, hcursor⟩

end Wizard

end FormChart.Registration
