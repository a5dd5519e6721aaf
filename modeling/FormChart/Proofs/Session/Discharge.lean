import FormChart.Proofs.Session.Fates

/-!
# What carrying out an order comes down to

The trace of an order names the tasks that are run.  Here the names are tied to what is done
(`Discharges`): **each task that is named is that of its node, it is applied once to the environment
that the task before it has left, and its outcome is what is delivered**.  The environment of a task
is a parameter of the session, so this holds of environments that count how often a task is applied.

* `settlements` and `environmentAfter` run a list of tasks, without a session.
* `Discharges` compares a session that is driven with them, and `Discharges.trans` joins one part of
  an order to the next.
* `Driven.exists_discharges` is the result for a whole order.
-/

namespace FormChart

variable {C Env S : Type}

/-! ## Lists of tasks -/

/-- What is delivered by a call. -/
def Call.settlement? : Call → Option Settlement
  | .deliver settlement => some settlement
  | .start | .startAt _ | .send _ | .handOut | .wait _ => none

/-- The environment after some tasks, each of which is applied once. -/
def environmentAfter (tasks : List (PendingTask Env)) (env : Env) : Env :=
  tasks.foldl (fun env p => (p.task env).2) env

/-- The outcomes of some tasks that are run one after the other, under their tokens. -/
def settlements : List (PendingTask Env) → Env → List Settlement
  | [], _ => []
  | p :: rest, env => ⟨p.token, (p.task env).1⟩ :: settlements rest (p.task env).2

lemma environmentAfter_append (first rest : List (PendingTask Env)) (env : Env) :
    environmentAfter (first ++ rest) env = environmentAfter rest (environmentAfter first env) :=
  List.foldl_append

lemma settlements_append (first rest : List (PendingTask Env)) (env : Env) :
    settlements (first ++ rest) env =
      settlements first env ++ settlements rest (environmentAfter first env) := by
  induction first generalizing env with
  | nil => rfl
  | cons p first ih =>
      rw [List.cons_append, settlements, settlements, ih, List.cons_append]
      rfl

/-- Whether a task is the one that the node of its token invokes, in some context. -/
def Chart.Invokes (chart : Chart C Env) (p : PendingTask Env) : Prop :=
  ∃ n v context, chart.node? p.token.node = some n ∧ n.invoke = some v ∧ p.task = v.task context

/-- No order begins with the delivery of an outcome. -/
lemma Order.settlement?_call (order : Order) : order.call.settlement? = none := by
  cases order <;> rfl

/-! ## Parts of an order -/

variable [Model C] [Storage S]

/-- Whether what is done between two moments comes down to running some tasks: there are calls that
lead from one session to the other, they deliver the outcomes of the tasks and no others, and the
environment is that after the tasks. -/
structure Discharges (chart : Chart C Env) (budget : Nat) (tasks : List (PendingTask Env))
    (s : Session C Env S) (env : Env) (s' : Session C Env S) (env' : Env) : Prop where
  invoked : ∀ p ∈ tasks, chart.Invokes p
  environment : env' = environmentAfter tasks env
  calls : ∃ calls : List Call, calls.foldlM (·.call budget ·) s = some s' ∧
    calls.filterMap Call.settlement? = settlements tasks env

namespace Discharges

variable {chart : Chart C Env} {budget : Nat} {tasks more : List (PendingTask Env)}
  {s s₁ s' : Session C Env S} {env env₁ env' : Env}

lemma refl (chart : Chart C Env) (budget : Nat) (s : Session C Env S) (env : Env) :
    Discharges chart budget [] s env s env :=
  ⟨nofun, rfl, [], rfl, rfl⟩

/-- **One part of an order after another.** -/
lemma trans (h : Discharges chart budget tasks s env s₁ env₁)
    (h' : Discharges chart budget more s₁ env₁ s' env') :
    Discharges chart budget (tasks ++ more) s env s' env' := by
  obtain ⟨hinvoked, rfl, calls, hcalls, hdelivered⟩ := h
  obtain ⟨hinvoked', rfl, calls', hcalls', hdelivered'⟩ := h'
  refine ⟨fun p hp => (List.mem_append.1 hp).elim (hinvoked p) (hinvoked' p),
    (environmentAfter_append tasks more env).symm, calls ++ calls', ?_, ?_⟩
  · rw [List.foldlM_append, hcalls]
    exact hcalls'
  · rw [List.filterMap_append, hdelivered, hdelivered', settlements_append]

/-- A call that delivers nothing. -/
lemma of_call {c : Call} (hc : c.settlement? = none) (h : s.call budget c = some s') (env : Env) :
    Discharges chart budget [] s env s' env := by
  refine ⟨nofun, rfl, [c], ?_, ?_⟩
  · rw [List.foldlM_cons, h]
    rfl
  · rw [List.filterMap_cons_none hc, List.filterMap_nil, settlements]

/-- A task that is run. -/
lemma of_run {p : PendingTask Env} (hp : chart.Invokes p)
    (h : s.deliver budget (p.run env).1 = some s') :
    Discharges chart budget [p] s env s' (p.run env).2 := by
  have hcall : s.call budget (.deliver (p.run env).1) = some s' := h
  refine ⟨by simpa using hp, rfl, [.deliver (p.run env).1], ?_, rfl⟩
  rw [List.foldlM_cons, hcall]
  rfl

/-- Tasks that are run one after the other. -/
lemma of_runAll (htasks : ∀ p ∈ tasks, chart.Invokes p)
    (h : Session.runAll budget tasks s env = some (s', env')) :
    Discharges chart budget tasks s env s' env' := by
  induction tasks generalizing s env with
  | nil =>
      cases h
      exact refl chart budget _ _
  | cons p rest ih =>
      rw [Session.runAll_cons, Option.bind_eq_some_iff] at h
      obtain ⟨s₁, hdeliver, hrest⟩ := h
      exact (of_run (htasks p List.mem_cons_self) hdeliver).trans
        (ih (fun q hq => htasks q (List.mem_cons_of_mem _ hq)) hrest)

end Discharges

/-! ## Orders -/

namespace Attended

variable {s₀ s s' : Session C Env S} {episodes : List (Episode C)} {budget rounds : Nat}
  {env env' : Env}

variable (htree : s₀.chart.IsTree) (hstopped : s₀.machine.leaf = none)
  (hempty : s₀.machine.invocations = {})

include htree hstopped hempty

/-- **The rounds of tasks** run those that the trace names. -/
lemma exists_discharges_runPending (h : Attended s₀ episodes [] s)
    (hrun : s.runPending budget rounds env = some (s', env')) :
    ∃ tasks : List (PendingTask Env),
      tasks.map (·.token) = ranIn (s.pendingTrace budget rounds env) ∧
        Discharges s₀.chart budget tasks s env s' env' := by
  induction rounds generalizing s env episodes with
  | zero => cases hrun
  | succ rounds ih =>
      have htaken := h.handOut htree hstopped hempty budget
      have hhandOut : Discharges s₀.chart budget [] s env s.handOut.2 env :=
        .of_call (c := .handOut) rfl rfl env
      rw [Session.runPending_succ] at hrun
      rw [Session.pendingTrace]
      dsimp only
      split at hrun
      next hnone =>
          cases hrun
          rw [if_pos hnone]
          exact ⟨[], by simp, hhandOut⟩
      next hsome =>
          obtain ⟨⟨s₁, env₁⟩, htasks, hrun⟩ := Option.bind_eq_some_iff.1 hrun
          obtain ⟨hall, hran, -⟩ := htaken.runAll htree hstopped hempty htasks
          obtain ⟨more, hmore, hdischarges⟩ := ih hall hrun
          have hround : Discharges s₀.chart budget s.machine.invocations.queue s.handOut.2 env
              s₁ env₁ := .of_runAll h.accounted.task htasks
          rw [if_neg hsome, htasks]
          exact ⟨s.machine.invocations.queue ++ more, by simp [hran, hmore],
            hhandOut.trans (hround.trans hdischarges)⟩

/-- **An order** runs the tasks that its trace names. -/
lemma exists_discharges (h : Attended s₀ episodes [] s) {order : Order}
    (hdrive : s.drive budget rounds env order = some (s', env')) :
    ∃ tasks : List (PendingTask Env),
      tasks.map (·.token) = ranIn (s.driveTrace budget rounds env order) ∧
        Discharges s₀.chart budget tasks s env s' env' := by
  rw [Session.drive_eq] at hdrive
  rw [Session.driveTrace]
  split at hdrive
  next hrefused =>
      cases hdrive
      rw [if_pos hrefused]
      exact ⟨[], rfl, .refl _ _ _ _⟩
  next haccepted =>
      obtain ⟨s₁, hcall, hrun⟩ := Option.bind_eq_some_iff.1 hdrive
      have hpermits : HandedOutOnly episodes order.call := by cases order <;> trivial
      have hcalled := h.call htree hstopped hempty hpermits order.call_ne_handOut hcall
      obtain ⟨tasks, htasks, hdischarges⟩ :=
        hcalled.exists_discharges_runPending htree hstopped hempty hrun
      rw [if_neg haccepted, hcall]
      exact ⟨tasks, by simpa using htasks,
        (Discharges.of_call order.settlement?_call hcall env).trans hdischarges⟩

end Attended

/-- **What carrying out an order comes down to**, for any new session that is driven: the tasks that
the trace names, each applied once, and the delivery of their outcomes. -/
lemma Driven.exists_discharges {b : Blueprint C Env} {s₀ s s' : Session C Env S}
    (hbuild : b.build = .ok s₀.chart) (hstopped : s₀.machine.leaf = none)
    (hempty : s₀.machine.invocations = {}) (h : Driven s₀ s) {budget rounds : Nat} {order : Order}
    {env env' : Env} (hdrive : s.drive budget rounds env order = some (s', env')) :
    ∃ tasks : List (PendingTask Env),
      tasks.map (·.token) = ranIn (s.driveTrace budget rounds env order) ∧
        Discharges s₀.chart budget tasks s env s' env' := by
  have htree := Blueprint.isTree_of_build hbuild
  obtain ⟨episodes, hattended, -⟩ := Attended.of_driven htree hstopped hempty h
  exact hattended.exists_discharges htree hstopped hempty hdrive

/-! ## A purchase -/

/-- A small chart whose two tasks are run one after the other and count what they cost. -/
def purchase : Blueprint Tally Nat :=
  { key := "purchase", kind := .compound, initial := some "home"
    children := [
      { key := "home", kind := .atomic, on := [("go", .goto "shop")] },
      { key := "shop", kind := .atomic
        invoke := some { id := "choose", task := fun _ cost => (.ok .null, cost + 1),
                         onDone := [.goto "till"] } },
      { key := "till", kind := .atomic
        invoke := some { id := "pay", task := fun _ cost => (.ok .null, cost + 10),
                         onDone := [.goto "home"] } }] }

/-- The purchase before its start. -/
def purchaseSession : Session Tally Nat Memory := .new purchase.outline.chart {}

lemma purchase_build : purchase.build = .ok purchaseSession.chart :=
  Blueprint.build_of_defects_eq_nil (by decide +kernel)

end FormChart
