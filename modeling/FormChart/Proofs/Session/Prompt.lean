import FormChart.Proofs.Session.Fates

/-!
# Driving that ends after one task

Driving a session may never end, since the outcome of a task may start the next one.  A chart is
**prompt** (`Chart.Prompt`) if it settles, and whatever a task ends with leads to a leaf that starts
no other task, and so do automatic transitions.

If a chart is prompt, **every order is carried out with at most one task**
(`Ready.exists_drive`), and leaves the session in a leaf without a task.  `Ready` is what is known
of a session between the orders.
-/

namespace FormChart

variable {C Env S : Type}

/-- Whether a transition leads to a leaf that invokes nothing. -/
def Transition.relieves (t : Transition C) (chart : Chart C Env) : Bool :=
  !t.isInternal && t.target.any fun target =>
    ((chart.node? (chart.landing target)).bind (·.invoke)).isNone

namespace Chart

/-- Whether an event leads from a leaf to one that invokes nothing, whatever the context is. -/
def leadsAway (chart : Chart C Env) (leaf : NodeId) (event : String) : Bool :=
  (chart.declared leaf event).any (·.guard.isNone) &&
    (chart.declared leaf event).all (·.relieves chart)

/-- Whether a chart settles, and no task leads to another one, whatever it ends with. -/
structure Prompt (chart : Chart C Env) (bound : Nat) : Prop extends chart.SettlesWithin bound where
  automatic : ∀ {i n t}, chart.node? i = some n → (Event.eventless.name, t) ∈ n.on →
    t.relieves chart = true
  answered : ∀ {i n v}, chart.node? i = some n → n.invoke = some v → ∀ (context : C) (env : Env),
    chart.leadsAway i (Event.ofOutcome v.id (v.task context env).1).name = true

variable (chart : Chart C Env)

@[simp] lemma relieves_withoutTasks (t : Transition C) :
    t.relieves chart.withoutTasks = t.relieves chart := by
  have hnone : ∀ target, ((chart.withoutTasks.node? (chart.withoutTasks.landing target)).bind
      (·.invoke)).isNone = ((chart.node? (chart.landing target)).bind (·.invoke)).isNone := by
    intro target
    rw [landing_withoutTasks, node?_withoutTasks]
    cases hn : chart.node? (chart.landing target) with
    | none => rfl
    | some n => simp [Node.withoutTask]
  simp only [Transition.relieves, hnone]

@[simp] lemma leadsAway_withoutTasks (leaf : NodeId) (event : String) :
    chart.withoutTasks.leadsAway leaf event = chart.leadsAway leaf event := by
  simp [leadsAway]

end Chart

/-- Whether a machine is in no leaf that invokes anything. -/
def Machine.Idle (chart : Chart C Env) (machine : Machine C Env) : Prop :=
  ∀ leaf n, machine.leaf = some leaf → chart.node? leaf = some n → n.invoke = none

/-! ## Outcomes that are delivered -/

/-- What is live can be claimed. -/
lemma Invocations.exists_claim_of_isLive {i : Invocations Env} {token : Token}
    (h : i.isLive token = true) : ∃ id rest, i.claim token = some (id, rest) := by
  obtain ⟨l, hl, htoken⟩ := (Option.any_eq_true _ _).1 h
  exact ⟨l.id, _, by rw [claim, hl]; exact if_pos (beq_iff_eq.1 htoken)⟩

variable [Model C]

section

variable {chart : Chart C Env} {m : Macrostep C Env} {event : Event} {leaf : NodeId}
  {t : Transition C}

/-- A transition that relieves a chart makes its machine idle. -/
lemma Macrostep.idle_take (h : t.relieves chart = true) (htree : chart.IsTree)
    (hleaf : chart.IsLeaf leaf)
    (ht : chart.choose? leaf m.machine.context event.name = some t) :
    (m.take chart event (chart.moves leaf t)).machine.Idle chart := by
  obtain ⟨hinternal, htarget⟩ := Bool.and_eq_true_iff.1 h
  obtain ⟨target, htarget, hidle⟩ := (Option.any_eq_true _ _).1 htarget
  obtain ⟨hlanding, -⟩ :=
    Macrostep.take_landing htree hleaf ht htarget (by simpa using hinternal)
  intro leaf' n hleaf' hn
  rw [hlanding, Option.some.injEq] at hleaf'
  simpa [hleaf', hn] using hidle

end

namespace Session

variable {s : Session C Env S} {bound : Nat}

/-- The delivery of an outcome that is claimed begins with the transition that its event takes. -/
lemma begin_deliver (settlement : Settlement) {id : String} {invocations : Invocations Env}
    (hclaim : s.machine.invocations.claim settlement.token = some (id, invocations))
    {leaf : NodeId} (hactive : s.machine.leaf = some leaf) {t : Transition C}
    (hchoose : s.chart.choose? leaf s.machine.context
      (Event.ofOutcome id settlement.outcome).name = some t) :
    (s.begin (.deliver settlement)).2 =
      s.underway invocations (Event.ofOutcome id settlement.outcome) leaf t := by
  rw [begin, hclaim]
  simp [beginSend, isStarted, hactive, Macrostep.handle?, hchoose, underway]

variable [Storage S]

/-- **An outcome leads away from the leaf that asked for it**, to one that asks for nothing. -/
lemma exists_answered (hprompt : s.chart.Prompt bound)
    (hceiling : bound < s.settings.maxEventlessSteps) (hrest : s.machine.AtRest s.chart)
    {token : Token} (hactive : s.machine.leaf = some token.node) {n : Node C Env}
    (hn : s.chart.node? token.node = some n) {v : Invocation C Env} (hv : n.invoke = some v)
    {invocations : Invocations Env}
    (hclaim : s.machine.invocations.claim token = some (v.id, invocations)) (context : C)
    (env : Env) :
    ∃ enough s', s.deliver enough ⟨token, (v.task context env).1⟩ = some s' ∧
      s.SettlesTo bound s' ∧ s'.machine.Idle s.chart := by
  have htree := hprompt.isTree
  obtain ⟨hany, hall⟩ := Bool.and_eq_true_iff.1 (hprompt.answered hn hv context env)
  obtain ⟨free, hfree, hguard⟩ := List.any_eq_true.1 hany
  obtain ⟨t, ht⟩ := Chart.exists_choose? hfree (Option.isNone_iff_eq_none.1 hguard)
    s.machine.context
  have htaken := Macrostep.idle_take (m := { machine := { s.machine with invocations } })
    (List.all_eq_true.1 hall t (Chart.mem_declared_of_choose? ht)) htree (hrest _ hactive).1 ht
  have hautomatic : ∀ (m : Macrostep C Env) (leaf : NodeId) (t : Transition C),
      m.machine.Idle s.chart → m.machine.leaf = some leaf → s.chart.IsLeaf leaf →
      s.chart.choose? leaf m.machine.context Event.eventless.name = some t →
      (m.take s.chart .eventless (s.chart.moves leaf t)).machine.Idle s.chart := by
    intro m leaf t _ _ hleaf ht
    obtain ⟨i, k, hk, hmem⟩ := Chart.mem_on_of_choose? ht
    exact Macrostep.idle_take (hprompt.automatic hk hmem) htree hleaf ht
  obtain ⟨enough, s', hfinish, hsettles, hidle, -⟩ := exists_finish_underway
    hprompt.toSettlesWithin hceiling hautomatic hrest hactive ht invocations htaken
  refine ⟨enough, s', ?_, hsettles, hidle⟩
  change s.call enough (.deliver ⟨token, (v.task context env).1⟩) = some s'
  rwa [call_eq_finish, begin_deliver ⟨token, (v.task context env).1⟩ hclaim hactive ht]

/-! ## Rounds that end -/

variable {s' : Session C Env S} {budget rounds : Nat} {env : Env}

variable (budget rounds env) in
/-- Where nothing waits, nothing is run. -/
lemma runPending_of_queue_eq_nil (hqueue : s.machine.invocations.queue = []) :
    s.runPending budget (rounds + 1) env = some (s, env) ∧
      ranIn (s.pendingTrace budget (rounds + 1) env) = [] := by
  have hsame : s.handOut.2 = s := by
    change { s with machine := { s.machine with
      invocations := { s.machine.invocations with queue := [] } } } = s
    rw [← hqueue]
  rw [runPending_succ, pendingTrace, hqueue, hsame]
  simp

variable (rounds) in
/-- Where one task waits, and nothing waits after its outcome, one task is run. -/
lemma runPending_of_queue_eq_singleton {p : PendingTask Env}
    (hqueue : s.machine.invocations.queue = [p])
    (hdeliver : s.handOut.2.deliver budget (p.run env).1 = some s')
    (hqueue' : s'.machine.invocations.queue = []) :
    s.runPending budget (rounds + 2) env = some (s', (p.run env).2) ∧
      ranIn (s.pendingTrace budget (rounds + 2) env) = [p.token] := by
  have hall : runAll budget [p] s.handOut.2 env = some (s', (p.run env).2) := by
    rw [runAll_cons, hdeliver]
    rfl
  obtain ⟨hdone, hnothing⟩ :=
    runPending_of_queue_eq_nil budget rounds (p.run env).2 hqueue'
  rw [runPending_succ, pendingTrace, hqueue]
  simp [hall, hdone, runTrace, hdeliver, hnothing]

end Session

/-! ## Orders that end -/

/-- What is known of a session of a prompt chart between the orders. -/
structure Ready [Storage S] (s₀ s : Session C Env S) : Prop where
  attended : ∃ episodes, Attended s₀ episodes [] s
  queue : s.machine.invocations.queue = []
  settings : s.settings = s₀.settings
  atRest : s.machine.AtRest s₀.chart
  idle : s.machine.Idle s₀.chart

namespace Attended

variable [Storage S] {s₀ s : Session C Env S} {episodes more : List (Episode C)}
  {waiting : List Token}

/-- Nothing waits in an idle leaf. -/
lemma queue_eq_nil (h : Attended s₀ episodes waiting s) (hidle : s.machine.Idle s₀.chart) :
    s.machine.invocations.queue = [] := by
  obtain ⟨token?, hledger⟩ := h.accounted.ledger
  refine hledger.queue_of_live (List.eq_nil_iff_forall_not_mem.2 fun l hl => ?_)
  obtain ⟨-, htoken, -⟩ := hledger.live_eq hl
  obtain ⟨n, v, hn, hv, -⟩ := hledger.named l hl
  rw [hidle _ n (hledger.node _ htoken) hn] at hv
  cases hv

/-- A task waits where one has come to since, if one was idle before. -/
lemma queue_eq_singleton {s' : Session C Env S} (hbefore : Attended s₀ episodes [] s)
    (hidle : s.machine.Idle s₀.chart) (h : Attended s₀ (episodes ++ more) [] s')
    (hmore : ∀ token, .handedOut token ∉ deedsOf more) {leaf : NodeId} {n : Node C Env}
    (hactive : s'.machine.leaf = some leaf) (hn : s₀.chart.node? leaf = some n)
    (hinvoke : n.invoke.isSome) :
    ∃ p, s'.machine.invocations.queue = [p] := by
  obtain ⟨token?, hledger⟩ := h.accounted.ledger
  obtain ⟨token, hcurrent⟩ := h.accounted.current leaf n hactive hn hinvoke
  have htoken := (hledger.current token).1 hcurrent
  obtain rfl : leaf = token.node := Option.some.inj (hactive.symm.trans (hledger.node _ htoken))
  have hwaits : .handedOut token ∉ deedsOf (episodes ++ more) := by
    intro hhanded
    rw [deedsOf_append, List.mem_append, or_iff_left (hmore token)] at hhanded
    -- else the stay would have begun before, where one was idle
    have hstayed := h.accounted.current_of_current
      (hbefore.accounted.started_of_handedOut hhanded) hcurrent
    obtain ⟨token', hledger'⟩ := hbefore.accounted.ledger
    have hnode := hledger'.node _ ((hledger'.current token).1 hstayed)
    rw [hidle _ n hnode hn] at hinvoke
    cases hinvoke
  have hqueue := hledger.queue
  rw [htoken, Option.filter_some_pos (by simpa using hwaits), Option.toList_some,
    List.map_eq_singleton_iff] at hqueue
  obtain ⟨p, hp, -⟩ := hqueue
  exact ⟨p, hp⟩

variable (htree : s₀.chart.IsTree) (hstopped : s₀.machine.leaf = none)
  (hempty : s₀.machine.invocations = {})

include htree hstopped hempty

/-- **Whatever waits after a call is run in one round.** -/
lemma exists_runPending {bound : Nat} (hprompt : s₀.chart.Prompt bound)
    (hceiling : bound < s₀.settings.maxEventlessSteps) (h : Attended s₀ episodes [] s)
    (hsettings : s.settings = s₀.settings) (hrest : s.machine.AtRest s₀.chart)
    (hwaits : s.machine.Idle s₀.chart ∨ ∃ p, s.machine.invocations.queue = [p]) (env : Env) :
    ∃ enough s' env', Ready s₀ s' ∧ ∀ budget rounds, enough ≤ budget →
      s.runPending budget (rounds + 2) env = some (s', env') ∧
        (ranIn (s.pendingTrace budget (rounds + 2) env)).length ≤ 1 := by
  rcases hwaits with hidle | ⟨p, hqueue⟩
  · have hqueue := h.queue_eq_nil hidle
    refine ⟨0, s, env, ⟨⟨_, h⟩, hqueue, hsettings, hrest, hidle⟩, fun budget rounds _ => ?_⟩
    obtain ⟨hdone, hnothing⟩ :=
      Session.runPending_of_queue_eq_nil budget (rounds + 1) env hqueue
    exact ⟨hdone, by simp [hnothing]⟩
  · have htaken := h.handOut htree hstopped hempty 0
    rw [hqueue, List.map_singleton] at htaken
    obtain ⟨n, v, context, hn, hv, htask⟩ := h.accounted.task p (by simp [hqueue])
    have hrun : (p.run env).1 = ⟨p.token, (v.task context env).1⟩ := by
      rw [PendingTask.run, htask]
    -- the task is live, so its outcome can be claimed
    obtain ⟨id, rest, hclaim⟩ : ∃ id rest,
        s.handOut.2.machine.invocations.claim p.token = some (id, rest) := by
      obtain ⟨token?, hledger⟩ := h.accounted.ledger
      exact Invocations.exists_claim_of_isLive (hledger.isLive_of_queue (p := p) (by simp [hqueue]))
    obtain ⟨token?, hledger⟩ := htaken.accounted.ledger
    obtain ⟨htoken, -, -, ⟨n', v', hn', hv', rfl⟩, -⟩ :=
      hledger.claim (htaken.handedOut p.token List.mem_cons_self) hclaim
    obtain rfl := Option.some.inj (hn.symm.trans hn')
    obtain rfl := Option.some.inj (hv.symm.trans hv')
    have hactive := hledger.node _ htoken
    have hchart : s.handOut.2.chart = s₀.chart := h.chart
    have hrest : s.handOut.2.machine.AtRest s₀.chart := hrest
    rw [← hsettings] at hceiling
    rw [← hchart] at hn hprompt hrest
    obtain ⟨enough, s', hdeliver, hsettles, hidle⟩ :=
      Session.exists_answered hprompt hceiling hrest hactive hn hv hclaim context env
    rw [← hrun] at hdeliver
    have hafter := htaken.deliver htree hstopped hempty (p.run env).1 hdeliver
    rw [hchart] at hidle
    have hqueue' := hafter.queue_eq_nil hidle
    refine ⟨enough, s', (p.run env).2, ⟨⟨_, hafter⟩, hqueue', hsettles.settings.trans hsettings,
      hchart ▸ hsettles.atRest, hidle⟩, fun budget rounds hle => ?_⟩
    obtain ⟨hdone, hran⟩ := Session.runPending_of_queue_eq_singleton rounds hqueue
      (Session.call_mono (c := .deliver (p.run env).1) hdeliver hle) hqueue'
    exact ⟨hdone, by simp [hran]⟩

end Attended

namespace Ready

variable [Storage S] {s₀ s s' : Session C Env S}
  (hstopped : s₀.machine.leaf = none) (hempty : s₀.machine.invocations = {})

include hstopped hempty

/-- A new session is ready. -/
lemma nil : Ready s₀ s₀ where
  attended := ⟨[], .nil hstopped hempty⟩
  queue := by rw [hempty]
  settings := rfl
  atRest := Machine.atRest_of_not_started hstopped
  idle leaf n hactive := by
    rw [hstopped] at hactive
    cases hactive

variable {bound : Nat} (hprompt : s₀.chart.Prompt bound)
  (hceiling : bound < s₀.settings.maxEventlessSteps)

include hprompt hceiling

/-- **An order is carried out** with at most one task. -/
lemma exists_drive (h : Ready s₀ s) (order : Order) (env : Env) :
    ∃ enough s' env', Ready s₀ s' ∧ ∀ budget rounds, enough ≤ budget →
      s.drive budget (rounds + 2) env order = some (s', env') ∧
        (ranIn (s.driveTrace budget (rounds + 2) env order)).length ≤ 1 := by
  have htree := hprompt.isTree
  cases hrefuses : s.refuses order with
  | true =>
      refine ⟨0, s, env, h, fun budget rounds _ => ?_⟩
      rw [Session.drive_eq, Session.driveTrace, if_pos hrefuses, if_pos hrefuses]
      exact ⟨rfl, Nat.zero_le _⟩
  | false =>
      obtain ⟨episodes, hbefore⟩ := h.attended
      have hrest := h.atRest
      have hsettles := hprompt.toSettlesWithin
      have hlimit := hceiling
      rw [← hbefore.chart] at hrest hsettles
      rw [← h.settings] at hlimit
      obtain ⟨enough, s₁, hcall, hto, -⟩ := Session.exists_settled hsettles hlimit
        s.chart.steady_true hrest trivial (c := order.call) fun _ _ => trivial
      have hpermits : HandedOutOnly episodes order.call := by cases order <;> trivial
      have hcalled := hbefore.call htree hstopped hempty hpermits order.call_ne_handOut hcall
      have hwaits : s₁.machine.Idle s₀.chart ∨ ∃ p, s₁.machine.invocations.queue = [p] := by
        refine or_iff_not_imp_left.2 fun hbusy => ?_
        simp only [Machine.Idle, not_forall, exists_prop] at hbusy
        obtain ⟨leaf, n, hactive, hn, hinvoke⟩ := hbusy
        exact hbefore.queue_eq_singleton h.idle hcalled
          (s.handedOut_notMem_episodes enough order.call_ne_handOut) hactive hn
          (Option.isSome_iff_ne_none.2 hinvoke)
      obtain ⟨enough', s', env', hready, hdone⟩ := hcalled.exists_runPending htree hstopped hempty
        hprompt hceiling (hto.settings.trans h.settings) (hbefore.chart ▸ hto.atRest) hwaits env
      refine ⟨max enough enough', s', env', hready, fun budget rounds hle => ?_⟩
      have hcall' := Session.call_mono hcall ((Nat.le_max_left _ _).trans hle)
      obtain ⟨hpending, hran⟩ := hdone budget rounds ((Nat.le_max_right _ _).trans hle)
      rw [Session.drive_eq, Session.driveTrace, hrefuses, hcall']
      exact ⟨by simpa using hpending, by simpa using hran⟩

/-- **Sessions that are driven are ready** between the orders. -/
lemma of_driven (h : Driven s₀ s) : Ready s₀ s := by
  induction h with
  | nil => exact nil hstopped hempty
  | @order s s' env env' budget rounds order _ hdrive ih =>
      obtain ⟨enough, s'', env'', hready, hdone⟩ :=
        ih.exists_drive hstopped hempty hprompt hceiling order env
      -- the budgets of the order were enough, so they have given the same result
      have hlarge := (hdone (max budget enough) rounds (Nat.le_max_right _ _)).1
      rw [Session.drive_mono (Nat.le_max_left _ _) (Nat.le_add_right _ _) hdrive,
        Option.some.injEq, Prod.mk.injEq] at hlarge
      rwa [hlarge.1]

end Ready

end FormChart
