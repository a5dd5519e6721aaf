import FormChart.Proofs.Session.Prompt
import FormChart.Proofs.Session.Queue
import FormChart.Proofs.Session.Effects
import FormChart.Proofs.Session.Contexts

/-!
# What an event comes to

If a chart settles, every macrostep comes to rest **whatever the ceiling is**: a ceiling that is too
low cuts a row of automatic transitions short, but then the queue is turned to, and nothing in it is
heard (`Macrostep.exists_comesTo`).  So there is always a session that an event comes to.

Where an event leads to a leaf without automatic transitions, the session is known: nothing happens
after the transition, and what the plan asks for is done (`Session.exists_send_landing`).  What a
plan asks for is read off its actions (`effectsOf`), as its context is.
-/

namespace FormChart

variable {C Env S : Type}

/-! ## What actions ask for -/

/-- The effect that an action asks for. -/
def Action.effect? : Action C → Option Effect
  | .effect e => some e
  | .assign .. | .forward | .raise _ => none

/-- The effects that some actions ask for, in their order. -/
def effectsOf (actions : List (Action C)) : List Effect := actions.filterMap Action.effect?

@[simp] lemma effectsOf_append (first rest : List (Action C)) :
    effectsOf (first ++ rest) = effectsOf first ++ effectsOf rest := List.filterMap_append

namespace Macrostep

variable [Model C]

section Effects

variable {chart : Chart C Env} {event : Event} {m : Macrostep C Env}

variable (chart event) in
lemma performAll_effects (actions : List (Action C)) :
    (m.performAll chart event actions).effects = m.effects ++ effectsOf actions := by
  have hwrite : ∀ (k : Macrostep C Env) (patch : Patch) (mode : MergeMode),
      (k.write chart patch mode).effects = k.effects := by
    intro k patch mode
    unfold write
    split <;> rfl
  unfold performAll
  induction actions generalizing m with
  | nil => exact (List.append_nil _).symm
  | cons a rest ih =>
      rw [List.foldl_cons, ih]
      cases a with
      | assign patch remarks => rw [perform, hwrite]; rfl
      | forward => rw [perform, hwrite]; rfl
      | raise name => rfl
      | effect e => simp [perform, effectsOf, Action.effect?]

lemma move_effects (part : Move C) :
    (m.move chart event part).effects = m.effects ++ effectsOf (part.actions chart) := by
  cases part with
  | act actions => exact performAll_effects chart event actions
  | leave i =>
      rw [move, Move.actions]
      cases hn : chart.node? i with
      | none => exact (List.append_nil _).symm
      | some n =>
          rw [Option.elim_some, Option.elim_some, leave, ← performAll_effects chart]
          cases n.invoke <;> rfl
  | arrive i =>
      rw [move, Move.actions]
      cases hn : chart.node? i with
      | none => exact (List.append_nil _).symm
      | some n =>
          have hreport : ∀ k : Macrostep C Env, (report chart k n).effects = k.effects := by
            intro k
            unfold report
            split <;> rfl
          rw [Option.elim_some, Option.elim_some, arrive, change, hreport, invoke,
            ← performAll_effects chart]
          cases n.invoke <;> rfl

/-- **What a plan asks for** is what its actions ask for, one after the other. -/
lemma take_effects (plan : List (Move C)) :
    (m.take chart event plan).effects = m.effects ++ effectsOf (chart.actionsOf plan) := by
  change (plan.foldl (move chart event) m).effects = _
  induction plan generalizing m with
  | nil => exact (List.append_nil _).symm
  | cons part rest ih =>
      rw [List.foldl_cons, ih, move_effects, Chart.actionsOf, Chart.actionsOf, List.flatMap_cons,
        effectsOf_append, List.append_assoc]

end Effects

/-! ## Coming to rest under any ceiling -/

/-- Whether a macrostep comes to rest as another one, given that its budget is large enough. -/
def ComesTo (chart : Chart C Env) (ceiling : Nat) (m final : Macrostep C Env) : Prop :=
  ∃ enough, ∀ budget, enough ≤ budget → m.toRest chart ceiling budget = some final

variable {chart : Chart C Env} {ceiling bound : Nat} {m final : Macrostep C Env} {leaf : NodeId}
  {t : Transition C}

lemma comesTo_of_running {m' : Macrostep C Env} (h : m.next chart ceiling = .running m')
    (hrest : m'.ComesTo chart ceiling final) : m.ComesTo chart ceiling final := by
  obtain ⟨enough, henough⟩ := hrest
  refine ⟨enough + 1, fun budget hle => ?_⟩
  obtain ⟨budget, rfl⟩ := Nat.exists_eq_add_of_le' hle
  exact toRest_of_running h (henough _ (Nat.le_add_left enough budget))

lemma comesTo_of_atRest (h : m.next chart ceiling = .atRest final) :
    m.ComesTo chart ceiling final := by
  refine ⟨1, fun budget hle => ?_⟩
  obtain ⟨budget, rfl⟩ := Nat.exists_eq_add_of_le' hle
  rw [toRest, h]

/-- An automatic transition below the ceiling. -/
lemma comesTo_of_choose? (hactive : m.machine.leaf = some leaf)
    (ht : chart.choose? leaf m.machine.context Event.eventless.name = some t)
    (hstreak : m.streak ≠ ceiling)
    (hrest : ({ m.take chart .eventless (chart.moves leaf t) with
      streak := m.streak + 1 } : Macrostep C Env).ComesTo chart ceiling final) :
    m.ComesTo chart ceiling final := by
  refine comesTo_of_running ?_ hrest
  rw [next, if_neg hstreak]
  simp [handle?, hactive, ht]

/-- Where no automatic transition is taken, the queue is turned to, perhaps with a notice.  An event
that is not heard is dropped. -/
lemma exists_next_of_handle?_eq_none (hactive : m.machine.leaf = some leaf)
    (hraised : ∀ e ∈ m.raised, chart.Unheard e.name)
    (h : m.streak = ceiling ∨ m.handle? chart .eventless = none) :
    ∃ told, m.next chart ceiling =
      match m.raised with
      | [] => .atRest (m.tell told)
      | _ :: rest =>
        .running { m with raised := rest, streak := 0, notices := m.notices ++ told } := by
  obtain ⟨told, hnext⟩ : ∃ told, m.next chart ceiling = (m.tell told).dequeue chart := by
    unfold next
    by_cases hstreak : m.streak = ceiling
    · exact ⟨_, if_pos hstreak⟩
    · refine ⟨[], ?_⟩
      rw [if_neg hstreak, h.resolve_left hstreak, tell, List.append_nil]
  refine ⟨told, ?_⟩
  rw [hnext, dequeue, tell]
  cases hqueue : m.raised with
  | nil => rfl
  | cons e rest =>
      have hunheard := (hraised e (hqueue ▸ List.mem_cons_self)).choose?_eq_none leaf
        m.machine.context
      simp [handle?, hactive, hunheard]

section Unheard

variable (hchart : chart.SettlesWithin bound)

include hchart

/-- A transition that is chosen raises no event that is heard. -/
lemma unheard_take {event : Event} (hraised : ∀ e ∈ m.raised, chart.Unheard e.name)
    (ht : chart.choose? leaf m.machine.context event.name = some t) :
    ∀ e ∈ (m.take chart event (chart.moves leaf t)).raised, chart.Unheard e.name := by
  obtain ⟨i, n, hn, hmem⟩ := Chart.mem_on_of_choose? ht
  have hactions : ∀ {actions : List (Action C)}, (∀ a ∈ actions, a.Mild chart.Unheard) →
      ∀ e ∈ raisedBy actions, chart.Unheard e.name := by
    intro actions hmild e he
    obtain ⟨a, ha, hraises⟩ := List.mem_filterMap.1 he
    cases a with
    | raise name =>
        cases hraises
        exact hmild _ ha
    | assign | forward | effect => cases hraises
  have hreport : ∀ {j k}, chart.node? j = some k →
      ∀ e ∈ chart.reportOf k, chart.Unheard e.name := by
    intro j k hk e he
    unfold Chart.reportOf at he
    split at he
    next p hkind hp =>
        obtain rfl := List.mem_singleton.1 he
        exact hchart.reports hk hkind hp
    next => cases he
  intro e he
  change e ∈ ((chart.moves leaf t).foldl (move chart event) m).raised at he
  rw [foldl_move_raised chart event m fun _ => Chart.act_mem_moves, List.mem_append] at he
  rcases he with he | he
  · exact hraised e he
  obtain ⟨d, -, he⟩ := List.mem_flatMap.1 he
  cases d with
  | started | handedOut | resolved => cases he
  | acted =>
      exact hactions (fun a ha => hchart.mild hn a
        (List.mem_append_right _ (List.mem_flatMap.2 ⟨_, hmem, ha⟩))) e he
  | left j =>
      rw [Deed.raises] at he
      cases hk : chart.node? j with
      | none => simp [hk] at he
      | some k =>
          rw [hk] at he
          exact hactions (fun a ha => hchart.mild hk a (by simp [Node.actions, ha])) e he
  | entered j =>
      rw [Deed.raises] at he
      cases hk : chart.node? j with
      | none => simp [hk] at he
      | some k =>
          rw [hk, Option.elim_some, List.mem_append] at he
          exact he.elim
            (hactions (fun a ha => hchart.mild hk a (by simp [Node.actions, ha])) e) (hreport hk e)

variable (ceiling) in
/-- **Whatever the ceiling is, a macrostep comes to rest.**  What automatic transitions sustain of
the machine and of the effects still holds then. -/
theorem exists_comesTo {P : Machine C Env → List Effect → Prop}
    (hP : ∀ (k : Macrostep C Env) (leaf : NodeId) (t : Transition C), P k.machine k.effects →
      k.machine.leaf = some leaf → chart.IsLeaf leaf →
      chart.choose? leaf k.machine.context Event.eventless.name = some t →
      P (k.take chart .eventless (chart.moves leaf t)).machine
        (k.take chart .eventless (chart.moves leaf t)).effects)
    {steps : Nat} (hactive : m.machine.leaf = some leaf) (hleaf : chart.IsLeaf leaf)
    (hrest : chart.comesToRest steps leaf = true)
    (hraised : ∀ e ∈ m.raised, chart.Unheard e.name) (hm : P m.machine m.effects) :
    ∃ final, m.ComesTo chart ceiling final ∧ P final.machine final.effects := by
  -- an automatic transition comes closer to rest, and otherwise the queue gets shorter
  induction steps using Nat.strongRecOn generalizing m leaf with
  | ind steps ih =>
      have hautomatic : ∀ {k : Macrostep C Env}, k.machine.leaf = some leaf → k.streak ≠ ceiling →
          k.handle? chart .eventless ≠ none → (∀ e ∈ k.raised, chart.Unheard e.name) →
          P k.machine k.effects →
          ∃ final, k.ComesTo chart ceiling final ∧ P final.machine final.effects := by
        intro k hactive hstreak hhandle hraised hk
        obtain ⟨taken, htaken⟩ := Option.ne_none_iff_exists'.1 hhandle
        obtain ⟨leaf', t, hactive', ht, -, -⟩ := handle?_cases htaken
        obtain rfl := Option.some.inj (hactive.symm.trans hactive')
        have hmem := Chart.mem_declared_of_choose? ht
        rcases Chart.comesToRest_cases hrest with hnone | ⟨fewer, rfl, -, hleads⟩
        · change t ∈ chart.declared leaf Event.eventless.name at hmem
          rw [hnone] at hmem
          cases hmem
        obtain ⟨hinternal, target, htarget, hrest'⟩ := hleads t hmem
        obtain ⟨hlanding, hleaf'⟩ := take_landing hchart.isTree hleaf ht htarget hinternal
        set taken : Macrostep C Env :=
          { k.take chart .eventless (chart.moves leaf t) with streak := k.streak + 1 }
        have hlanding : taken.machine.leaf = some (chart.landing target) := hlanding
        obtain ⟨final, hfinal, hlast⟩ := ih fewer (Nat.lt_succ_self fewer) hlanding hleaf' hrest'
          (unheard_take hchart hraised ht) (hP k leaf t hk hactive hleaf ht)
        exact ⟨final, comesTo_of_choose? hactive ht hstreak hfinal, hlast⟩
      obtain ⟨raised, hqueue⟩ : ∃ raised, m.raised = raised := ⟨_, rfl⟩
      induction raised generalizing m with
      | nil =>
          by_cases hends : m.streak = ceiling ∨ m.handle? chart .eventless = none
          · obtain ⟨told, hnext⟩ := exists_next_of_handle?_eq_none hactive hraised hends
            rw [hqueue] at hnext
            exact ⟨m.tell told, comesTo_of_atRest hnext, hm⟩
          · exact hautomatic hactive (not_or.1 hends).1 (not_or.1 hends).2 hraised hm
      | cons e rest ihqueue =>
          by_cases hends : m.streak = ceiling ∨ m.handle? chart .eventless = none
          · obtain ⟨told, hnext⟩ := exists_next_of_handle?_eq_none hactive hraised hends
            rw [hqueue] at hnext
            obtain ⟨final, hfinal, hlast⟩ := ihqueue
              (m := { m with raised := rest, streak := 0, notices := m.notices ++ told }) hactive
              (fun e he => hraised e (hqueue ▸ List.mem_cons_of_mem _ he)) hm rfl
            exact ⟨final, comesTo_of_running hnext hfinal, hlast⟩
          · exact hautomatic hactive (not_or.1 hends).1 (not_or.1 hends).2 hraised hm

variable (ceiling) in
/-- In a leaf without automatic transitions nothing happens any more. -/
lemma exists_comesTo_of_declared_eq_nil (hactive : m.machine.leaf = some leaf)
    (hleaf : chart.IsLeaf leaf) (hnone : chart.declared leaf Event.eventless.name = [])
    (hraised : ∀ e ∈ m.raised, chart.Unheard e.name) :
    ∃ final, m.ComesTo chart ceiling final ∧ final.machine = m.machine ∧
      final.effects = m.effects := by
  have hrest : chart.comesToRest 0 leaf = true := by rw [Chart.comesToRest, hnone]; rfl
  refine exists_comesTo ceiling hchart
    (P := fun machine effects => machine = m.machine ∧ effects = m.effects) ?_ hactive hleaf hrest
    hraised ⟨rfl, rfl⟩
  intro k leaf' t hk hactive' _ ht
  rw [hk.1, hactive] at hactive'
  cases hactive'
  have hmem := Chart.mem_declared_of_choose? ht
  rw [hnone] at hmem
  cases hmem

end Unheard

end Macrostep

/-! ## What is live and what waits after a passage -/

lemma Invocations.cancel_of_live_eq_nil {i : Invocations Env} (h : i.live = []) (node : NodeId) :
    i.cancel node = i := by
  simp [cancel, find?, h]

lemma Invocations.queue_cancel_eq_nil {i : Invocations Env} (h : i.queue = []) (node : NodeId) :
    (i.cancel node).queue = [] := by
  unfold cancel
  split <;> simp [h]

namespace Macrostep

variable [Model C] {chart : Chart C Env} {event : Event} {m : Macrostep C Env}

/-- What remains of the invocations when some nodes were left. -/
def remaining (chart : Chart C Env) (event : Event) (m : Macrostep C Env) (nodes : List NodeId) :
    Invocations Env :=
  ((nodes.map .leave).foldl (move chart event) m).machine.invocations

/-- Where nothing is live, nothing ends. -/
lemma remaining_of_live_eq_nil {nodes : List NodeId} (hlive : m.machine.invocations.live = []) :
    m.remaining chart event nodes = m.machine.invocations := by
  unfold remaining
  induction nodes generalizing m with
  | nil => rfl
  | cons i rest ih =>
      have hleft : (m.move chart event (.leave i)).machine.invocations =
          m.machine.invocations := by
        cases hn : chart.node? i with
        | none => rw [move, hn, Option.elim_none]
        | some n =>
            rw [move_leave_invocations event hn]
            cases n.invoke with
            | none => rfl
            | some v => exact Invocations.cancel_of_live_eq_nil hlive i
      rw [List.map_cons, List.foldl_cons, ih (hleft ▸ hlive), hleft]

/-- Where nothing waits, nothing waits after leaving. -/
lemma queue_remaining_eq_nil {nodes : List NodeId} (hqueue : m.machine.invocations.queue = []) :
    (m.remaining chart event nodes).queue = [] := by
  unfold remaining
  induction nodes generalizing m with
  | nil => exact hqueue
  | cons i rest ih =>
      rw [List.map_cons, List.foldl_cons]
      refine ih ?_
      cases hn : chart.node? i with
      | none => rwa [move, hn, Option.elim_none]
      | some n =>
          rw [move_leave_invocations event hn]
          cases n.invoke with
          | none => exact hqueue
          | some v => exact Invocations.queue_cancel_eq_nil hqueue i

/-- **The invocations after a passage**: what remains of those before it, and that of the new leaf,
which is started with the new context. -/
lemma take_passage_invocations (hchart : chart.IsTree) {leaf landing : NodeId}
    {up down : List NodeId} (hpass : chart.Passage leaf up down landing) {n : Node C Env}
    (hn : chart.node? landing = some n) {actions : List (Action C)} {machine : Machine C Env}
    (hmachine : machine = (m.take chart event ((leaf :: up).map .leave ++ .act actions ::
      (down ++ [landing]).map .arrive)).machine) :
    machine.invocations = n.invoke.elim (m.remaining chart event (leaf :: up)) fun v =>
      (m.remaining chart event (leaf :: up)).start landing v.id (v.task machine.context) := by
  subst hmachine
  obtain ⟨base, -, hline⟩ := hpass.above
  set left := (((leaf :: up).map .leave).foldl (move chart event) m).move chart event
    (.act actions) with hleft
  set before := (down.map .arrive).foldl (move chart event) left with hbefore
  have hremaining : before.machine.invocations = m.remaining chart event (leaf :: up) := by
    rw [hbefore, foldl_arrive_invocations (invoke_down hchart hn hline), hleft,
      move_act_invocations]
    rfl
  have hlast : List.foldl (move chart event) m
      ((leaf :: up).map .leave ++ .act actions :: (down ++ [landing]).map .arrive) =
        before.move chart event (.arrive landing) := by
    rw [List.foldl_append, List.foldl_cons, List.map_append, List.foldl_append]
    rfl
  have hcontext : (before.performAll chart event n.entry).machine.context =
      Action.outcomes event n.entry before.machine.context := performAll_context n.entry
  rw [take_invocations, take_context, hlast, move_arrive_invocations event hn, hremaining,
    move_arrive_context hn, ← hcontext]

end Macrostep

/-! ## A single task that waits -/

/-- A live token is claimed for the id of its invocation, which ends by that. -/
lemma Invocations.claim_of_find? {i : Invocations Env} {token : Token} {id : String}
    (h : i.find? token.node = some ⟨token, id⟩) :
    i.claim token = some (id, { i with live := i.others token.node }) := by
  simp [claim, h]

/-- Whether a machine awaits, in a leaf, the outcome of the one task that waits. -/
structure Machine.Awaits (machine : Machine C Env) (i : NodeId) (id : String) (task : Task Env)
    (token : Token) : Prop where
  leaf : machine.leaf = some i
  node : token.node = i
  live : machine.invocations.find? i = some ⟨token, id⟩
  queue : machine.invocations.queue = [⟨token, id, task⟩]

/-- The start of the only task. -/
lemma Machine.awaits_of_start {machine : Machine C Env} {i : NodeId} (hleaf : machine.leaf = some i)
    {left : Invocations Env} (hqueue : left.queue = []) {id : String} {task : Task Env}
    (hstart : machine.invocations = left.start i id task) :
    machine.Awaits i id task (left.nextToken i) where
  leaf := hleaf
  node := rfl
  live := by simp [hstart, Invocations.start, Invocations.find?, Invocations.nextToken]
  queue := by simp [hstart, Invocations.start, hqueue]

/-! ## Events -/

namespace Session

/-- The session after what waits was handed out and the live invocation of a node has ended. -/
def answered (s : Session C Env S) (i : NodeId) : Session C Env S :=
  { s with machine := { s.machine with
      invocations := { s.machine.invocations with
        live := s.machine.invocations.others i, queue := [] } } }

variable [Model C] [Storage S] {s : Session C Env S} {event : Event} {leaf : NodeId}
  {t : Transition C} {bound : Nat}

/-- The outcome of the task that waits is an event. -/
lemma deliver_of_awaits {i : NodeId} {id : String} {task : Task Env} {token : Token}
    (h : s.machine.Awaits i id task token) (outcome : Outcome) (budget : Nat) :
    s.handOut.2.deliver budget ⟨token, outcome⟩ =
      (s.answered i).send budget (Event.ofOutcome id outcome) := by
  obtain rfl := h.node
  have hclaim := Invocations.claim_of_find? (i := s.handOut.2.machine.invocations) h.live
  rw [deliver, hclaim]
  rfl

/-- Driving the session runs the task in the queue, and no other if the queue is empty after its
outcome was delivered. -/
lemma runPending_of_awaits {i : NodeId} {id : String} {task : Task Env} {token : Token}
    (h : s.machine.Awaits i id task token) {env env' : Env} {outcome : Outcome}
    (htask : task env = (outcome, env')) {s' : Session C Env S} {budget rounds : Nat}
    (hsend : (s.answered i).send budget (Event.ofOutcome id outcome) = some s')
    (hqueue : s'.machine.invocations.queue = []) (hrounds : 2 ≤ rounds) :
    s.runPending budget rounds env = some (s', env') := by
  obtain ⟨rounds, rfl⟩ := Nat.exists_eq_add_of_le' hrounds
  have hrun : PendingTask.run ⟨token, id, task⟩ env = (⟨token, outcome⟩, env') := by
    simp only [PendingTask.run, htask]
  have hdeliver :
      s.handOut.2.deliver budget (PendingTask.run ⟨token, id, task⟩ env).1 = some s' := by
    rw [hrun, deliver_of_awaits h, hsend]
  rw [(runPending_of_queue_eq_singleton rounds h.queue hdeliver hqueue).1, hrun]

/-- The macrostep of a transition leads from one session to another. -/
lemma exists_send_of_comesTo (hactive : s.machine.leaf = some leaf)
    (ht : s.chart.choose? leaf s.machine.context event.name = some t) {final : Macrostep C Env}
    (h : (Macrostep.take s.chart event { machine := s.machine } (s.chart.moves leaf t)).ComesTo
      s.chart s.settings.maxEventlessSteps final) :
    ∃ enough, ∀ budget, enough ≤ budget → s.send budget event = some (s.rest event final) := by
  obtain ⟨enough, henough⟩ := h
  refine ⟨enough, fun budget hle => ?_⟩
  simp [send, isStarted, hactive, Macrostep.handle?, ht, finish, henough budget hle, rest]

variable (hchart : s.chart.SettlesWithin bound) (hactive : s.machine.leaf = some leaf)
  (hleaf : s.chart.IsLeaf leaf)

include hchart hactive hleaf

variable (event) in
/-- **Every event comes to something**, whatever the ceiling is.  What its transition and the
automatic ones after it sustain still holds then. -/
theorem exists_send {P : Machine C Env → Prop} (hs : P s.machine)
    (hevent : ∀ t, s.chart.choose? leaf s.machine.context event.name = some t →
      P (Macrostep.take s.chart event { machine := s.machine } (s.chart.moves leaf t)).machine)
    (hP : ∀ (k : Macrostep C Env) (leaf : NodeId) (t : Transition C), P k.machine →
      k.machine.leaf = some leaf → s.chart.IsLeaf leaf →
      s.chart.choose? leaf k.machine.context Event.eventless.name = some t →
      P (k.take s.chart .eventless (s.chart.moves leaf t)).machine) :
    ∃ enough s', (∀ budget, enough ≤ budget → s.send budget event = some s') ∧ P s'.machine := by
  cases ht : s.chart.choose? leaf s.machine.context event.name with
  | none => exact ⟨0, s, fun budget _ => send_of_choose?_eq_none event hactive ht budget, hs⟩
  | some t =>
      obtain ⟨leaf', hactive', hleaf'⟩ := Macrostep.exists_leaf_of_choice
        (m := { machine := s.machine }) hchart.isTree hactive hleaf ht
      obtain ⟨n, hn, -⟩ := id hleaf'
      have hraised := Macrostep.unheard_take (m := { machine := s.machine }) hchart nofun ht
      obtain ⟨final, hfinal, hlast⟩ := Macrostep.exists_comesTo
        s.settings.maxEventlessSteps hchart (P := fun machine _ => P machine) hP hactive'
        hleaf' (hchart.comesToRest hn) hraised (hevent t ht)
      obtain ⟨enough, henough⟩ := exists_send_of_comesTo hactive ht hfinal
      exact ⟨enough, _, henough, by rwa [rest_machine]⟩

/-- **An event that leads to a leaf without automatic transitions** comes to a session with the
machine that its transition makes, in which what the plan asks for was done. -/
theorem exists_send_landing (ht : s.chart.choose? leaf s.machine.context event.name = some t)
    {target : NodeId} (htarget : t.target = some target) (hinternal : t.isInternal = false)
    (hnone : s.chart.declared (s.chart.landing target) Event.eventless.name = []) :
    ∃ enough final, (∀ budget, enough ≤ budget → s.send budget event = some (s.rest event final)) ∧
      final.machine =
        (Macrostep.take s.chart event { machine := s.machine } (s.chart.moves leaf t)).machine ∧
      final.effects = effectsOf (s.chart.actionsOf (s.chart.moves leaf t)) := by
  obtain ⟨hlanding, hleaf'⟩ := Macrostep.take_landing (m := { machine := s.machine })
    hchart.isTree hleaf ht htarget hinternal
  have hraised := Macrostep.unheard_take (m := { machine := s.machine }) hchart nofun ht
  obtain ⟨final, hfinal, hmachine, heffects⟩ := Macrostep.exists_comesTo_of_declared_eq_nil
    s.settings.maxEventlessSteps hchart hlanding hleaf' hnone hraised
  obtain ⟨enough, henough⟩ := exists_send_of_comesTo hactive ht hfinal
  exact ⟨enough, final, henough, hmachine, by rw [heffects, Macrostep.take_effects]; rfl⟩

/-- **An event that leads on**, by way of a leaf from which an automatic transition is taken, to one
without automatic transitions. -/
theorem exists_send_through (hceiling : s.settings.maxEventlessSteps ≠ 0)
    (ht : s.chart.choose? leaf s.machine.context event.name = some t) {target : NodeId}
    (htarget : t.target = some target) (hinternal : t.isInternal = false)
    {between : Macrostep C Env}
    (hbetween : between =
      Macrostep.take s.chart event { machine := s.machine } (s.chart.moves leaf t))
    {t' : Transition C}
    (ht' : s.chart.choose? (s.chart.landing target) between.machine.context
      Event.eventless.name = some t')
    {target' : NodeId} (htarget' : t'.target = some target') (hinternal' : t'.isInternal = false)
    {last : Macrostep C Env}
    (hlast : last =
      between.take s.chart .eventless (s.chart.moves (s.chart.landing target) t'))
    (hnone : s.chart.declared (s.chart.landing target') Event.eventless.name = []) :
    ∃ enough final, (∀ budget, enough ≤ budget → s.send budget event = some (s.rest event final)) ∧
      final.machine = last.machine ∧ final.effects = last.effects := by
  obtain ⟨hlanding, hleaf'⟩ := Macrostep.take_landing (m := { machine := s.machine })
    hchart.isTree hleaf ht htarget hinternal
  have hraised := Macrostep.unheard_take (m := { machine := s.machine }) hchart nofun ht
  have hstreak := (Macrostep.foldl_move_aside s.chart event { machine := s.machine }
    (s.chart.moves leaf t)).1
  change (Macrostep.take s.chart event { machine := s.machine }
    (s.chart.moves leaf t)).streak = 0 at hstreak
  rw [← hbetween] at hlanding hraised hstreak
  obtain ⟨hlanding', hleaf''⟩ := Macrostep.take_landing (m := between) hchart.isTree hleaf' ht'
    htarget' hinternal'
  obtain ⟨final, hfinal, hmachine, heffects⟩ := Macrostep.exists_comesTo_of_declared_eq_nil
    (m := { between.take s.chart .eventless (s.chart.moves (s.chart.landing target) t') with
      streak := between.streak + 1 })
    s.settings.maxEventlessSteps hchart hlanding' hleaf'' hnone
    (Macrostep.unheard_take hchart hraised ht')
  have hcomesTo := Macrostep.comesTo_of_choose? hlanding ht' (hstreak ▸ hceiling.symm) hfinal
  rw [hbetween] at hcomesTo
  obtain ⟨enough, henough⟩ := exists_send_of_comesTo hactive ht hcomesTo
  subst hlast
  exact ⟨enough, final, henough, hmachine, heffects⟩

end Session

end FormChart
