import FormChart.Proofs.Session.Contexts
import FormChart.Proofs.Session.Steady

/-!
# Where an event leads

Which transitions are taken depends on the leaf and the context alone.  So where an event leads,
with the automatic transitions after it, can be followed on the chart, from leaf to leaf and without
a machine: a transition for the event (`Chart.Hops`), and then automatic ones until a leaf has none
(`Chart.Drifts`).

**What is followed this way is what happens** (`Session.exists_comesTo`), to a session at rest whose
chart settles below the ceiling.
-/

namespace FormChart

variable {C Env S : Type} [Model C]

namespace Chart

/-- Whether an event takes a transition from a leaf to another one, and what that makes of the
context. -/
def Hops (chart : Chart C Env) (event : Event) (leaf : NodeId) (c : C) (leaf' : NodeId) (c' : C) :
    Prop :=
  ∃ t target, chart.choose? leaf c event.name = some t ∧ t.isInternal = false ∧
    t.target = some target ∧ chart.landing target = leaf' ∧
    Action.outcomes event (chart.actionsOf (chart.moves leaf t)) c = c'

/-- Whether automatic transitions lead from a leaf to another one that has none, and what that makes
of the context. -/
inductive Drifts (chart : Chart C Env) : NodeId → C → NodeId → C → Prop
  | rest {leaf : NodeId} {c : C} (hnone : chart.declared leaf Event.eventless.name = []) :
      Drifts chart leaf c leaf c
  | hop {leaf between leaf' : NodeId} {c c₁ c' : C}
      (first : chart.Hops .eventless leaf c between c₁) (more : Drifts chart between c₁ leaf' c') :
      Drifts chart leaf c leaf' c'

/-- Whether an event leads from a leaf to another one where nothing more happens by itself, and what
that makes of the context. -/
def Answers (chart : Chart C Env) (event : Event) (leaf : NodeId) (c : C) (leaf' : NodeId)
    (c' : C) : Prop :=
  ∃ between c₁, chart.Hops event leaf c between c₁ ∧ chart.Drifts between c₁ leaf' c'

variable {chart : Chart C Env} {event : Event} {leaf leaf' : NodeId} {c c' : C}

omit [Model C] in
/-- A leaf that lets something be chosen is not at rest. -/
lemma declared_ne_nil_of_choose? {name : String} {t : Transition C}
    (h : chart.choose? leaf c name = some t) : chart.declared leaf name ≠ [] :=
  List.ne_nil_of_mem (mem_declared_of_choose? h)

/-- Tasks play no part in it. -/
lemma hops_withoutTasks : chart.withoutTasks.Hops event leaf c leaf' c' ↔
    chart.Hops event leaf c leaf' c' := by
  simp only [Hops, choose?_eq, declared_withoutTasks, landing_withoutTasks, moves_withoutTasks,
    actionsOf_withoutTasks]

lemma Drifts.of_withoutTasks (h : chart.withoutTasks.Drifts leaf c leaf' c') :
    chart.Drifts leaf c leaf' c' := by
  induction h with
  | rest hnone => exact .rest (by rwa [declared_withoutTasks] at hnone)
  | hop first _ ih => exact .hop (hops_withoutTasks.1 first) ih

lemma Answers.of_withoutTasks (h : chart.withoutTasks.Answers event leaf c leaf' c') :
    chart.Answers event leaf c leaf' c' := by
  obtain ⟨between, c₁, hhops, hdrifts⟩ := h
  exact ⟨between, c₁, hops_withoutTasks.1 hhops, hdrifts.of_withoutTasks⟩

end Chart

namespace Macrostep

variable {chart : Chart C Env} {event : Event} {m : Macrostep C Env} {leaf leaf' : NodeId}
  {t : Transition C} {c' : C}

/-- A transition that is chosen is the one that was followed. -/
lemma take_of_hops (hchart : chart.IsTree) (hleaf : chart.IsLeaf leaf)
    (ht : chart.choose? leaf m.machine.context event.name = some t)
    (h : chart.Hops event leaf m.machine.context leaf' c') :
    (m.take chart event (chart.moves leaf t)).machine.leaf = some leaf' ∧
      (m.take chart event (chart.moves leaf t)).machine.context = c' := by
  obtain ⟨t', target, ht', hinternal, htarget, rfl, rfl⟩ := h
  obtain rfl : t = t' := Option.some.inj (ht.symm.trans ht')
  exact ⟨(take_landing hchart hleaf ht htarget hinternal).1, take_outcomes _⟩

end Macrostep

/-- Whether automatic transitions lead a machine to a leaf and a context. -/
def Machine.DriftsTo (chart : Chart C Env) (leaf' : NodeId) (c' : C) (machine : Machine C Env) :
    Prop :=
  ∃ leaf, machine.leaf = some leaf ∧ chart.Drifts leaf machine.context leaf' c'

namespace Machine.DriftsTo

variable {chart : Chart C Env} {leaf leaf' : NodeId} {c' : C}

/-- An automatic transition does not lead astray. -/
lemma take_eventless {m : Macrostep C Env} {t : Transition C} (hchart : chart.IsTree)
    (hm : m.machine.DriftsTo chart leaf' c') (hactive : m.machine.leaf = some leaf)
    (hleaf : chart.IsLeaf leaf)
    (ht : chart.choose? leaf m.machine.context Event.eventless.name = some t) :
    (m.take chart .eventless (chart.moves leaf t)).machine.DriftsTo chart leaf' c' := by
  obtain ⟨l, hl, hdrifts⟩ := hm
  obtain rfl : l = leaf := Option.some.inj (hl.symm.trans hactive)
  cases hdrifts with
  | rest hnone => exact absurd hnone (Chart.declared_ne_nil_of_choose? ht)
  | hop first more =>
      obtain ⟨hland, hcontext⟩ := Macrostep.take_of_hops hchart hleaf ht first
      exact ⟨_, hland, hcontext ▸ more⟩

/-- At rest it has got there. -/
lemma arrived {machine : Machine C Env} (h : machine.DriftsTo chart leaf' c')
    (hrest : machine.AtRest chart) : machine.leaf = some leaf' ∧ machine.context = c' := by
  obtain ⟨leaf, hactive, hdrifts⟩ := h
  generalize machine.context = c at hdrifts ⊢
  cases hdrifts with
  | rest => exact ⟨hactive, rfl⟩
  | hop first =>
      obtain ⟨t, -, ht, -⟩ := first
      exact absurd (hrest leaf hactive).2 (Chart.declared_ne_nil_of_choose? ht)

end Machine.DriftsTo

namespace Session

variable [Storage S] {s s' : Session C Env S} {event : Event}

/-- Whether an event turns a session into another one, given that the budget is large enough. -/
def ComesTo (event : Event) (s s' : Session C Env S) : Prop :=
  ∃ enough, ∀ budget, enough ≤ budget → s.send budget event = some s'

/-- **A session goes where the chart leads it.** -/
theorem exists_comesTo {bound : Nat} (hchart : s.chart.SettlesWithin bound)
    (hceiling : bound < s.settings.maxEventlessSteps) (hrest : s.machine.AtRest s.chart)
    {leaf leaf' : NodeId} {c' : C} (hactive : s.machine.leaf = some leaf)
    (h : s.chart.Answers event leaf s.machine.context leaf' c') :
    ∃ s', s.ComesTo event s' ∧ s'.chart = s.chart ∧ s'.settings = s.settings ∧
      s'.machine.leaf = some leaf' ∧ s'.machine.context = c' := by
  obtain ⟨between, c₁, hhops, hdrifts⟩ := h
  obtain ⟨t, -, ht, -⟩ := id hhops
  obtain ⟨hland, hcontext⟩ := Macrostep.take_of_hops (m := { machine := s.machine })
    hchart.isTree (hrest leaf hactive).1 ht hhops
  obtain ⟨enough, s', hfinish, hsettles, hdrifted, -⟩ :=
    exists_finish_underway (P := Machine.DriftsTo s.chart leaf' c') hchart hceiling
      (fun _ _ _ hm hactive hleaf ht => hm.take_eventless hchart.isTree hactive hleaf ht)
      hrest hactive ht s.machine.invocations ⟨between, hland, hcontext ▸ hdrifts⟩
  have hsend : s.send enough event = some s' := by
    have hstarted : s.isStarted = true := by rw [isStarted, hactive, Option.isSome_some]
    have hhandle : ({ machine := s.machine } : Macrostep C Env).handle? s.chart event =
        some (Macrostep.take s.chart event { machine := s.machine } (s.chart.moves leaf t)) := by
      simp [Macrostep.handle?, hactive, ht]
    rw [← hfinish, send, hstarted]
    dsimp only
    rw [hhandle]
    rfl
  obtain ⟨harrived, hcontext'⟩ := hdrifted.arrived hsettles.atRest
  exact ⟨s', ⟨enough, fun _ hle => call_mono (c := .send event) hsend hle⟩, hsettles.chart,
    hsettles.settings, harrived, hcontext'⟩

/-- **An event that is sent again and again** makes a walk, with what holds at each step of it. -/
lemma exists_walk {P : Nat → Session C Env S → Prop} {n : Nat}
    (hstep : ∀ k < n, ∀ s, P k s → ∃ s', s.ComesTo event s' ∧ P (k + 1) s') (hs : P 0 s) :
    ∃ walk : Nat → Session C Env S, walk 0 = s ∧
      (∀ k < n, (walk k).ComesTo event (walk (k + 1))) ∧ ∀ k ≤ n, P k (walk k) := by
  have hnext : ∀ k s, ∃ s', k < n → P k s → s.ComesTo event s' ∧ P (k + 1) s' := by
    intro k s
    by_cases hk : k < n ∧ P k s
    · obtain ⟨s', hs'⟩ := hstep k hk.1 s hk.2
      exact ⟨s', fun _ _ => hs'⟩
    · exact ⟨s, fun hlt hP => absurd ⟨hlt, hP⟩ hk⟩
  choose next hnext using hnext
  let walk : Nat → Session C Env S := fun k => Nat.rec s next k
  have hwalk : ∀ k ≤ n, P k (walk k) := by
    intro k
    induction k with
    | zero => exact fun _ => hs
    | succ k ih => exact fun hle => (hnext k (walk k) hle (ih (Nat.le_of_lt hle))).2
  exact ⟨walk, rfl, fun k hk => (hnext k (walk k) hk (hwalk k (Nat.le_of_lt hk))).1, hwalk⟩

end Session

end FormChart
