import FormChart.Proofs.Session.Steady
import FormChart.Proofs.Registration.Layout
import FormChart.Proofs.Registration.Resuming

/-!
# The wizard comes to rest

The decisions of the wizard form cycles: `other-jobs-loop`, `jobs-branch`, `next-member` and
`income-branch` lead to each other and are steered by cursors that the actions on the way move.  Yet
every cycle is cut by a page, and every decision has a way out that needs no guard, so **four
automatic transitions lead from everywhere to rest, in every context**.

A ceiling of five is therefore never reached, and no decision is ever shown
(`Wizard.call_comes_to_rest`).
-/

namespace FormChart.Registration.Wizard

variable {Env S : Type} [Services Env]

/-- **The wizard settles within four automatic transitions.** -/
lemma settlesWithin {chart : Chart Context Env} (hchart : Wizard.chart = .ok chart) :
    chart.SettlesWithin 4 := by
  constructor
  case isTree => exact Blueprint.isTree_of_build hchart
  case comesToRest => exact comesToRest_chart hchart
  case mild => exact fun hn a ha => quiet_of_node hchart hn a ha _
  case reports => exact fun hn hkind hp => unheard_report hchart hn hkind hp

variable [Storage S]

/-- **The wizard always comes to rest.**  Wherever a new session has got to, every call returns,
after four automatic transitions at most and without an error, and leaves a started session in a
leaf without automatic transitions, so never in a decision. -/
theorem call_comes_to_rest {s₀ s : Session Context Env S} {calls : List Call}
    (hchart : Wizard.chart = .ok s₀.chart) (hceiling : 5 ≤ s₀.settings.maxEventlessSteps)
    (hnew : s₀.machine.leaf = none) (run : Run s₀ calls s) (c : Call) :
    ∃ enough s', (∀ budget, enough ≤ budget → s.call budget c = some s') ∧
      (∃ visits, s'.machine.history.visits = s.machine.history.visits ++ visits ∧
        visits.countP Visit.isEventless ≤ 4) ∧
      (∃ notices, s'.notices = s.notices ++ notices ∧
        ∀ notice ∈ notices, notice.level ≠ .error ∧
          ∀ leaf ceiling, notice ≠ .unsettled leaf ceiling) ∧
      (s.isStarted = true ∨ (∃ target, c.Enters s.chart target) →
        ∃ leaf n, s'.machine.leaf = some leaf ∧ s₀.chart.node? leaf = some n ∧
          n.candidates Event.eventless.name = [] ∧ s'.leafPath ∉ decisionPaths) := by
  have hsettles := settlesWithin hchart
  have hsteady := s₀.chart.steady_true
  have hrest : s₀.machine.AtRest s₀.chart := Machine.atRest_of_not_started hnew
  obtain ⟨hsame, hsettings, hatRest, -⟩ :=
    run.settled hsettles hceiling hsteady hrest trivial fun _ _ _ _ => trivial
  rw [← hsame] at hsettles hsteady hatRest hchart
  rw [← hsettings] at hceiling
  obtain ⟨enough, s', hcall, hto, -, hstarted⟩ :=
    Session.exists_settled hsettles hceiling hsteady hatRest trivial (c := c) fun _ _ => trivial
  refine ⟨enough, s', fun budget hle => Session.call_mono hcall hle, hto.visits, ?_, fun h => ?_⟩
  · obtain ⟨notices, hnotices, hmild⟩ := hto.notices
    refine ⟨notices, hnotices, fun notice hnotice => ⟨hmild notice hnotice, ?_⟩⟩
    rintro leaf ceiling rfl
    exact hmild _ hnotice rfl
  · obtain ⟨leaf, hleaf⟩ := Option.isSome_iff_exists.1 (hstarted h)
    obtain ⟨⟨n, hn, -⟩, hnone⟩ := hto.atRest leaf hleaf
    refine ⟨leaf, n, hleaf, hsame ▸ hn, Chart.candidates_of_declared_eq_nil hn hnone, ?_⟩
    have hpath : s'.leafPath = n.path := by
      rw [Session.leafPath, Machine.leafPath, hleaf, hto.chart, Option.map_some, Option.getD_some,
        Chart.pathOf_of_node hn]
    rw [hpath]
    exact path_notMem_decisionPaths hchart hn hnone

/-- The wizard is started at the decision about other jobs, which leads on to the review. -/
theorem call_comes_to_rest_deciding : ∃ enough s',
    (∀ budget, enough ≤ budget →
      scripted.call budget (.startAt "form.resources.other-jobs-loop") = some s') ∧
    (∃ visits, s'.machine.history.visits = scripted.machine.history.visits ++ visits ∧
      visits.countP Visit.isEventless ≤ 4) ∧
    s'.leafPath ∉ decisionPaths := by
  have hnew : scripted.machine.leaf = none := rfl
  have hceiling : 5 ≤ scripted.settings.maxEventlessSteps := by decide
  obtain ⟨enough, s', hcall, hvisits, -, hstarted⟩ := call_comes_to_rest scripted_chart hceiling
    hnew Run.nil (.startAt "form.resources.other-jobs-loop")
  have hknown : (scripted.chart.lookup? "form.resources.other-jobs-loop").isSome = true := by
    decide +kernel
  obtain ⟨target, htarget⟩ := Option.isSome_iff_exists.1 hknown
  obtain ⟨leaf, n, -, -, -, hpath⟩ := hstarted (.inr ⟨target, .inr ⟨_, rfl, htarget⟩⟩)
  exact ⟨enough, s', hcall, hvisits, hpath⟩

end FormChart.Registration.Wizard
