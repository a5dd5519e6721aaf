import FormChart.Proofs.Session.Ceiling
import FormChart.Proofs.Session.Driving

/-!
# The queue of raised events

Events are raised while transitions are taken: by actions, and by the arrival at a final node, which
is reported to its parent.  What an episode raises is read off its deeds (`Episode.raises`), so it
can be compared with what the decisions of a macrostep take from the queue (`dequeued`).

* A decision **conserves** the events: what was in the queue and what it raises is what it takes
  from the queue and what is left there (`Macrostep.next_queue`).
* A macrostep that comes to rest has an empty queue.  So **the events are handled in the order in
  which they were raised, each of them once** (`Session.dequeued_eq_raised`).
* At rest no automatic transition is enabled, unless the last row of them has reached the ceiling
  (`rowAfter`).
-/

namespace FormChart

variable {C Env S : Type}

/-! ## What is raised, and what is taken from the queue -/

/-- The event that an action raises. -/
def Action.raised? : Action C → Option Event
  | .raise name => some { name }
  | .assign .. | .forward | .effect _ => none

/-- The events that some actions raise. -/
def raisedBy (actions : List (Action C)) : List Event := actions.filterMap Action.raised?

/-- The report of the arrival at a node. -/
def Chart.reportOf (chart : Chart C Env) (n : Node C Env) : List Event :=
  match n.kind, n.parent? with
  | .final, some parent => [{ name := Event.doneState (chart.pathOf parent) }]
  | _, _ => []

/-- The events that a deed raises, in an episode with a transition that has certain actions. -/
def Deed.raises (chart : Chart C Env) (actions : List (Action C)) : Deed → List Event
  | .left i => (chart.node? i).elim [] fun n => raisedBy n.exit
  | .acted => raisedBy actions
  | .entered i => (chart.node? i).elim [] fun n => raisedBy n.entry ++ chart.reportOf n
  | .started _ | .handedOut _ | .resolved _ => []

/-- The events that an episode raises, the oldest first. -/
def Episode.raises (chart : Chart C Env) : Episode C → List Event
  | .entry deeds => deeds.flatMap (Deed.raises chart [])
  | .transition _ t deeds => deeds.flatMap (Deed.raises chart t.actions)
  | .handOut _ | .claim _ => []

/-- The event that a decision takes from the queue. -/
def Decision.event? : Decision → Option Event
  | .automatic => none
  | .raised event _ => some event

/-- The events that some decisions take from the queue, in order. -/
def dequeued (decisions : List Decision) : List Event := decisions.filterMap Decision.event?

/-- How long the row of automatic transitions is at the end of some decisions, when a row of a
certain length was under way before them. -/
def rowAfter : Nat → List Decision → Nat
  | streak, [] => streak
  | streak, .automatic :: rest => rowAfter (streak + 1) rest
  | _, .raised _ _ :: rest => rowAfter 0 rest

@[simp] lemma dequeued_append (first rest : List Decision) :
    dequeued (first ++ rest) = dequeued first ++ dequeued rest := List.filterMap_append

lemma rowAfter_append (streak : Nat) (first rest : List Decision) :
    rowAfter streak (first ++ rest) = rowAfter (rowAfter streak first) rest := by
  induction first generalizing streak with
  | nil => rfl
  | cons d first ih => cases d <;> exact ih _

namespace Macrostep

variable [Model C]

/-! ## What a transition adds to the queue -/

section Parts

variable (chart : Chart C Env) (event : Event) (m : Macrostep C Env)

lemma performAll_raised (actions : List (Action C)) :
    (m.performAll chart event actions).raised = m.raised ++ raisedBy actions := by
  have hwrite : ∀ (k : Macrostep C Env) (patch : Patch) (mode : MergeMode),
      (k.write chart patch mode).raised = k.raised := by
    intro k patch mode
    unfold write
    split <;> rfl
  unfold performAll
  induction actions generalizing m with
  | nil => exact (List.append_nil _).symm
  | cons a rest ih =>
      rw [List.foldl_cons, ih]
      cases a with
      | assign patch remarks => rw [perform, hwrite]; rfl
      | forward => rw [perform, hwrite]; rfl
      | raise name => simp [perform, raise, raisedBy, Action.raised?]
      | effect e => rfl

/-- **One part of a plan** adds to the queue what its deeds raise. -/
lemma move_raised {actions : List (Action C)} {part : Move C}
    (hpart : ∀ more, part = .act more → more = actions) :
    (m.move chart event part).raised =
      m.raised ++ (m.deed chart part).flatMap (Deed.raises chart actions) := by
  cases part with
  | act more =>
      obtain rfl := hpart more rfl
      rw [move, deed, List.flatMap_singleton, Deed.raises, performAll_raised]
  | leave i =>
      rw [move, deed]
      cases hn : chart.node? i with
      | none => simp
      | some n =>
          have hexit := performAll_raised chart event m n.exit
          simp only [Option.elim_some, List.flatMap_singleton, Deed.raises, hn, leave]
          cases n.invoke <;> exact hexit
  | arrive i =>
      rw [move, deed]
      cases hn : chart.node? i with
      | none => simp
      | some n =>
          have hinvoke : ((m.performAll chart event n.entry).invoke i n).raised =
              m.raised ++ raisedBy n.entry := by
            rw [invoke, ← performAll_raised chart event]
            cases n.invoke <;> rfl
          have hreport : ∀ k : Macrostep C Env,
              (k.report chart n).raised = k.raised ++ chart.reportOf n := by
            intro k
            cases hkind : n.kind <;> cases hparent : n.parent? <;>
              simp [report, Chart.reportOf, hkind, hparent, raise]
          have hstarted : (n.invoke.elim [] fun _ =>
              [Deed.started (m.machine.invocations.nextToken i)]).flatMap
                (Deed.raises chart actions) = [] := by
            cases n.invoke <;> rfl
          simp only [Option.elim_some, arrive, change, hreport, hinvoke, List.flatMap_cons,
            hstarted, Deed.raises, hn, List.append_nil, List.append_assoc]

lemma foldl_move_raised {actions : List (Action C)} {plan : List (Move C)}
    (hplan : ∀ more, .act more ∈ plan → more = actions) :
    (plan.foldl (move chart event) m).raised =
      m.raised ++ (m.deeds chart event plan).flatMap (Deed.raises chart actions) := by
  induction plan generalizing m with
  | nil => exact (List.append_nil _).symm
  | cons part rest ih =>
      rw [List.foldl_cons, ih _ fun more hmore => hplan more (List.mem_cons_of_mem _ hmore),
        move_raised chart event m fun more hmore => hplan more (hmore ▸ List.mem_cons_self), deeds,
        List.flatMap_append, List.append_assoc]

/-- **The first entry** raises what its episode does. -/
lemma take_entry_raised (target : NodeId) :
    (m.take chart event (chart.firstMoves target)).raised =
      m.raised ++
        (Episode.entry (m.deeds chart event (chart.firstMoves target))).raises chart :=
  foldl_move_raised chart event m (by simp [Chart.firstMoves])

/-- **A transition** raises what its episode does. -/
lemma handle?_raised {m m' : Macrostep C Env} (h : m.handle? chart event = some m') :
    m'.raised = m.raised ++ (m.episodes chart event).flatMap (Episode.raises chart) := by
  obtain ⟨leaf, t, -, -, rfl, hepisodes⟩ := handle?_cases h
  rw [hepisodes, List.flatMap_singleton]
  exact foldl_move_raised chart event m fun _ => Chart.act_mem_moves

/-- A machine that is in a leaf stays in one. -/
lemma take_isSome_leaf (h : m.machine.leaf.isSome) (plan : List (Move C)) :
    (m.take chart event plan).machine.leaf.isSome := by
  rw [take_leaf]
  induction plan generalizing m with
  | nil => exact h
  | cons part rest ih =>
      refine ih (m.move chart event part) ?_
      cases part with
      | act actions => rwa [move_act_leaf]
      | leave i =>
          cases hn : chart.node? i with
          | none => rwa [move, hn]
          | some n => rwa [move_leave_leaf event hn]
      | arrive i =>
          cases hn : chart.node? i with
          | none => rwa [move, hn]
          | some n => rw [move_arrive_leaf event hn]; rfl

end Parts

/-! ## One decision -/

variable (chart : Chart C Env) (ceiling : Nat)

/-- What one decision does to the queue and to the row: what was raised is either taken from the
queue or still there. -/
structure Conserves (m m' : Macrostep C Env) : Prop where
  queue : m.raised ++ (m.nextEpisodes chart ceiling).flatMap (Episode.raises chart) =
    dequeued (m.decision? chart ceiling).toList ++ m'.raised
  row : m'.streak = rowAfter m.streak (m.decision? chart ceiling).toList

/-- What is known of a macrostep that ends: nothing is in the queue, nothing happens, and either the
row has reached the ceiling, or no automatic transition is enabled. -/
structure Exhausted (m m' : Macrostep C Env) : Prop where
  machine : m'.machine = m.machine
  queue : m.raised = []
  episodes : m.nextEpisodes chart ceiling = []
  disabled : m.streak ≠ ceiling → m.handle? chart .eventless = none

/-- A decision that turns to the queue conserves the events, or there are none. -/
lemma dequeue_queue {m : Macrostep C Env} (notices : List Notice)
    (hnot : ¬(m.streak ≠ ceiling ∧ (m.handle? chart .eventless).isSome))
    (hnext : m.next chart ceiling = (m.tell notices).dequeue chart)
    (hepisodes : m.nextEpisodes chart ceiling = (m.tell notices).dequeueEpisodes chart) :
    (∃ m', m.next chart ceiling = .running m' ∧ m.Conserves chart ceiling m') ∨
      ∃ m', m.next chart ceiling = .atRest m' ∧ m.Exhausted chart ceiling m' := by
  have hdecision : m.decision? chart ceiling =
      m.raised.head?.map fun event => .raised event (m.handle? chart event).isSome := by
    rw [decision?, if_neg hnot]
    cases m.raised <;> rfl
  cases hraised : m.raised with
  | nil =>
      rw [tell, dequeueEpisodes, hraised] at hepisodes
      refine .inr ⟨m.tell notices, by rw [hnext, tell, dequeue, hraised], rfl, hraised, hepisodes,
        fun hne => ?_⟩
      simpa [hne] using hnot
  | cons event rest =>
      set k : Macrostep C Env :=
        { m with raised := rest, notices := m.notices ++ notices, streak := 0 }
      rw [tell, dequeueEpisodes, hraised] at hepisodes
      have hdone : ∀ m' : Macrostep C Env, m'.streak = 0 →
          m'.raised = rest ++ (k.episodes chart event).flatMap (Episode.raises chart) →
          m.Conserves chart ceiling m' := by
        intro m' hstreak hqueue
        constructor
        case queue => simp [hepisodes, hdecision, hraised, hqueue, dequeued, Decision.event?, k]
        case row => rw [hstreak, hdecision, hraised]; rfl
      refine .inl ⟨(k.handle? chart event).getD k, by rw [hnext, tell, dequeue, hraised], ?_⟩
      cases hhandle : k.handle? chart event with
      | none => exact hdone k rfl (by simp [episodes_of_handle?_eq_none hhandle, k])
      | some taken =>
          exact hdone taken (handle?_aside chart event hhandle).1
            (handle?_raised chart event hhandle)

/-- So does an automatic transition, which takes nothing from the queue. -/
lemma automatic_queue {m taken : Macrostep C Env} (hne : m.streak ≠ ceiling)
    (hhandle : m.handle? chart .eventless = some taken) :
    m.Conserves chart ceiling { taken with streak := m.streak + 1 } := by
  obtain ⟨leaf, t, hleaf, hchoose, -⟩ := handle?_cases hhandle
  have hepisodes : m.nextEpisodes chart ceiling = m.episodes chart .eventless := by
    rw [nextEpisodes, if_neg hne, taken?_eq_some.2 ⟨hleaf, hchoose⟩]
  have hdecision : m.decision? chart ceiling = some .automatic := by
    rw [decision?, hhandle, if_pos ⟨hne, rfl⟩]
  constructor
  case queue =>
    rw [hepisodes, hdecision]
    exact (handle?_raised chart .eventless hhandle).symm
  case row =>
    rw [hdecision]
    rfl

/-- **A decision conserves the events.** -/
lemma next_queue (m : Macrostep C Env) :
    (∃ m', m.next chart ceiling = .running m' ∧ m.Conserves chart ceiling m') ∨
      ∃ m', m.next chart ceiling = .atRest m' ∧ m.Exhausted chart ceiling m' := by
  rcases Nat.decEq m.streak ceiling with hne | heq
  · cases hhandle : m.handle? chart .eventless with
    | none =>
        have htaken : m.taken? chart .eventless = none := by
          rwa [handle?_eq, Option.map_eq_none_iff] at hhandle
        refine dequeue_queue chart ceiling [] (by simp [hhandle]) ?_ ?_
        · rw [next, if_neg hne, hhandle]
          simp [tell]
        · rw [nextEpisodes, if_neg hne, htaken]
          simp [tell]
    | some taken =>
        exact .inl ⟨{ taken with streak := m.streak + 1 }, by rw [next, if_neg hne, hhandle],
          automatic_queue chart ceiling hne hhandle⟩
  · refine dequeue_queue chart ceiling [.unsettled (m.machine.leafPath chart) ceiling]
      (fun h => h.1 heq) ?_ ?_
    · rw [next, if_pos heq]
    · rw [nextEpisodes, if_pos heq]

/-! ## Coming to rest -/

/-- A machine that is in a leaf is in one after a decision. -/
lemma next_isSome_leaf {m : Macrostep C Env} (h : m.machine.leaf.isSome) :
    (m.next chart ceiling).machine.leaf.isSome := by
  rcases next_cases chart ceiling m with ⟨hmachine, -⟩ | ⟨event, k, leaf, t, hk, -, -, hmachine, -⟩
  · rwa [hmachine]
  · rw [hmachine]
    exact take_isSome_leaf chart event k (hk ▸ h) _

/-- **A macrostep that comes to rest** has taken from the queue what was there and what was raised,
in this order.  Then no automatic transition is enabled, unless the last row has reached the
ceiling. -/
lemma toRest_queue {budget : Nat} {m final : Macrostep C Env}
    (h : m.toRest chart ceiling budget = some final) :
    m.raised ++ (m.restEpisodes chart ceiling budget).flatMap (Episode.raises chart) =
      dequeued (m.decisions chart ceiling budget) ∧
    (rowAfter m.streak (m.decisions chart ceiling budget) ≠ ceiling → ∀ leaf,
      final.machine.leaf = some leaf →
        chart.choose? leaf final.machine.context Event.eventless.name = none) ∧
    (m.machine.leaf.isSome → final.machine.leaf.isSome) := by
  induction budget generalizing m with
  | zero => cases h
  | succ budget ih =>
      rw [toRest] at h
      rw [restEpisodes, decisions]
      have hstays : m.machine.leaf.isSome → (m.next chart ceiling).machine.leaf.isSome :=
        next_isSome_leaf chart ceiling
      rcases next_queue chart ceiling m with ⟨m', hnext, hstep⟩ | ⟨m', hnext, hend⟩
      · rw [hnext] at h hstays ⊢
        obtain ⟨hqueue, hdisabled, hleaf⟩ := ih h
        refine ⟨?_, ?_, fun hsome => hleaf (hstays hsome)⟩
        · rw [List.flatMap_append, ← List.append_assoc, hstep.queue, List.append_assoc, hqueue,
            dequeued_append]
        · rwa [rowAfter_append, ← hstep.row]
      · rw [hnext] at h hstays ⊢
        obtain rfl := Option.some.inj h
        refine ⟨by simp [hend.queue, hend.episodes, dequeued], fun hrow leaf hactive => ?_, hstays⟩
        have hdisabled := hend.disabled hrow
        rw [hend.machine] at hactive ⊢
        refine Option.eq_none_iff_forall_ne_some.2 ?_
        simpa [handle?, hactive] using hdisabled

end Macrostep

/-! ## Calls -/

variable [Model C]

/-- The decisions of a macrostep under way. -/
def Moment.decisions (budget : Nat) : Moment C Env S → List Decision
  | .quiet _ => []
  | .under s m _ => m.decisions s.chart s.settings.maxEventlessSteps budget

namespace Session

/-- The decisions of a call. -/
def callDecisions (s : Session C Env S) (budget : Nat) (c : Call) : List Decision :=
  (s.begin c).2.decisions budget

/-- Whether a call sets off a macrostep: by the first entry, or by a transition. -/
def fires (s : Session C Env S) (c : Call) : Bool :=
  match (s.begin c).2 with
  | .quiet _ => false
  | .under .. => true

/-- What a macrostep begins with: what its first episodes raise is in the queue, the machine is in a
leaf, and no row is under way. -/
structure Begun (s : Session C Env S) (episodes : List (Episode C)) (s₁ : Session C Env S)
    (m : Macrostep C Env) : Prop where
  chart : s₁.chart = s.chart
  settings : s₁.settings = s.settings
  streak : m.streak = 0
  leaf : m.machine.leaf.isSome
  queue : m.raised = episodes.flatMap (Episode.raises s.chart)

variable {s s₁ : Session C Env S} {m : Macrostep C Env} {trigger : Event}

lemma beginEntry_begun (htree : s.chart.IsTree) {target : NodeId}
    (htarget : ∃ n, s.chart.node? target = some n)
    (h : (s.beginEntry target).2 = .under s₁ m trigger) :
    s.Begun (s.beginEntry target).1 s₁ m := by
  cases h
  obtain ⟨n, hn⟩ := htarget
  obtain ⟨down, -, hplan⟩ := htree.firstMoves_eq hn
  obtain ⟨l, hl, -⟩ := htree.isLeaf_landing hn
  constructor
  case chart | settings => rfl
  case streak => exact (Macrostep.take_aside s.chart .init _ _).1
  case leaf =>
    rw [Macrostep.take_leaf, hplan, Macrostep.foldl_entry_leaf hl]
    rfl
  case queue =>
    rw [Macrostep.take_entry_raised, List.nil_append, beginEntry, List.flatMap_singleton]

lemma beginSend_begun {event : Event} (h : (s.beginSend event).2 = .under s₁ m trigger) :
    s.Begun (s.beginSend event).1 s₁ m := by
  unfold beginSend at h ⊢
  split at h
  next => cases h
  next hstarted =>
      rw [if_neg hstarted]
      dsimp only at h ⊢
      cases hhandle : Macrostep.handle? s.chart event { machine := s.machine } with
      | none =>
          rw [hhandle] at h
          cases h
      | some taken =>
          rw [hhandle] at h
          cases h
          obtain ⟨leaf, t, hleaf, -, htaken, -⟩ := Macrostep.handle?_cases hhandle
          constructor
          case chart | settings => rfl
          case streak => exact (Macrostep.handle?_aside s.chart trigger hhandle).1
          case leaf =>
            rw [htaken]
            refine Macrostep.take_isSome_leaf s.chart trigger _ ?_ _
            rw [hleaf]
            rfl
          case queue => exact Macrostep.handle?_raised s.chart trigger hhandle

/-- **How a macrostep begins**, whatever call has set it off. -/
lemma begin_begun (htree : s.chart.IsTree) {c : Call} (h : (s.begin c).2 = .under s₁ m trigger) :
    s.Begun (s.begin c).1 s₁ m := by
  cases c with
  | start =>
      rw [begin] at h ⊢
      split at h
      next => cases h
      next hstopped =>
          rw [if_neg hstopped]
          exact beginEntry_begun htree (htree.exists_of_entry (.inl rfl)) h
  | startAt reference =>
      rw [begin] at h ⊢
      cases hlookup : s.chart.lookup? reference with
      | none =>
          rw [hlookup] at h
          cases h
      | some target =>
          rw [hlookup] at h
          dsimp only at h ⊢
          split at h
          next => cases h
          next hstopped =>
              rw [if_neg hstopped]
              exact beginEntry_begun htree (Chart.node?_of_lookup? hlookup) h
  | send event => exact beginSend_begun h
  | deliver settlement =>
      rw [begin] at h ⊢
      cases hclaim : s.machine.invocations.claim settlement.token with
      | none =>
          rw [hclaim] at h
          cases h
      | some claimed =>
          rw [hclaim] at h
          have hsend := beginSend_begun (s := { s with
            machine := { s.machine with invocations := claimed.2 } }) h
          exact ⟨hsend.chart, hsend.settings, hsend.streak, hsend.leaf, hsend.queue⟩
  | handOut => cases h
  | wait clock => cases h

variable [Storage S]

/-- An event that no transition is enabled for changes nothing. -/
lemma send_of_choose?_eq_none (event : Event) {leaf : NodeId} (hleaf : s.machine.leaf = some leaf)
    (hnone : s.chart.choose? leaf s.machine.context event.name = none) (budget : Nat) :
    s.send budget event = some s := by
  have hhandle : Macrostep.handle? s.chart event { machine := s.machine } = none := by
    rw [Macrostep.handle?_eq, Macrostep.taken?, hleaf]
    simp [hnone]
  simp [send, isStarted, hleaf, hhandle]

/-- **The queue of raised events.**  In a call that sets off a macrostep and returns

* the events are taken from the queue in the order in which they are raised, each of them once, and
  none is left;
* if the last row of automatic transitions has not reached the ceiling, the session is in a leaf of
  which no automatic transition is enabled, so the event without a name changes nothing. -/
theorem dequeued_eq_raised {b : Blueprint C Env} {s s' : Session C Env S} {budget : Nat} {c : Call}
    (hbuild : b.build = .ok s.chart) (hcall : s.call budget c = some s')
    (hfires : s.fires c = true) :
    dequeued (s.callDecisions budget c) =
      (s.episodes budget c).flatMap (Episode.raises s.chart) ∧
    (rowAfter 0 (s.callDecisions budget c) ≠ s.settings.maxEventlessSteps →
      ∃ leaf, s'.machine.leaf = some leaf ∧
        (∀ t ∈ s.chart.declared leaf Event.eventless.name,
          t.isEnabled s'.machine.context = false) ∧
        ∀ larger data, s'.send larger { name := Event.eventless.name, data } = some s') := by
  rw [call_eq_finish] at hcall
  rw [fires] at hfires
  rw [callDecisions, episodes]
  cases hmoment : (s.begin c).2 with
  | quiet s₁ =>
      rw [hmoment] at hfires
      cases hfires
  | under s₁ m trigger =>
      have hbegun := begin_begun (Blueprint.isTree_of_build hbuild) hmoment
      rw [hmoment] at hcall
      simp only [Moment.finish, finish, Option.bind_eq_bind, Option.bind_eq_some_iff,
        Option.some.injEq] at hcall
      obtain ⟨final, hrest, hs'⟩ := hcall
      have hmachine : s'.machine = final.machine := hs' ▸ rest_machine s₁ trigger final
      have hchart : s'.chart = s.chart := hs' ▸ (rest_chart s₁ trigger final).trans hbegun.chart
      obtain ⟨hqueue, hdisabled, hleaf⟩ := Macrostep.toRest_queue _ _ hrest
      rw [hbegun.streak, hbegun.settings, hbegun.chart] at hdisabled
      rw [hbegun.queue, hbegun.settings, hbegun.chart] at hqueue
      rw [Moment.decisions, Moment.episodes, hbegun.settings, hbegun.chart, List.flatMap_append]
      refine ⟨hqueue.symm, fun hrow => ?_⟩
      obtain ⟨leaf, hactive⟩ := Option.isSome_iff_exists.1 (hleaf hbegun.leaf)
      have hnone := hdisabled hrow leaf hactive
      rw [← hmachine, ← hchart] at hnone
      rw [← hmachine] at hactive
      refine ⟨leaf, hactive, fun t ht => ?_, fun larger data =>
        send_of_choose?_eq_none { name := Event.eventless.name, data } hactive hnone larger⟩
      rw [Chart.choose?_eq, List.find?_eq_none, hchart] at hnone
      exact Bool.eq_false_iff.2 (hnone t ht)

end Session

/-! ## Some stairs -/

/-- A small chart: a step creaks and leads on by itself, the landing is reported, and the report
leads to the top, from where one falls down again if one is careless. -/
def stairs : Blueprint Tally Unit :=
  { key := "stairs", kind := .compound, initial := some "foot"
    children := [
      { key := "foot", kind := .atomic, on := [("climb", .goto "flight")] },
      { key := "flight", kind := .compound, initial := some "step"
        on := [(Event.doneState "flight", .goto "top")]
        children := [
          { key := "step", kind := .atomic, entry := [.raise "creak"],
            on := [(Event.eventless.name, .goto "landing")] },
          { key := "landing", kind := .final }] },
      { key := "top", kind := .atomic, on := [(Event.eventless.name, .gotoIf "foot" (·.flag))] }] }

/-- The stairs before the start. -/
def stairsSession : Session Tally Unit Memory := .new stairs.outline.chart {}

namespace Session

/-- Two events are raised on the way up, and at the top one stays. -/
theorem dequeued_eq_raised_stairs :
    ∃ s s', stairs.build = .ok s.chart ∧ stairsSession.call 9 .start = some s ∧
      s.call 9 (.send { name := "climb" }) = some s' ∧ s.fires (.send { name := "climb" }) = true ∧
      s.callDecisions 9 (.send { name := "climb" }) = [.automatic,
        .raised { name := "creak" } false, .raised { name := "done.state.flight" } true] ∧
      (s.episodes 9 (.send { name := "climb" })).flatMap (Episode.raises s.chart) =
        [{ name := "creak" }, { name := "done.state.flight" }] ∧
      s'.machine.leaf = some 5 ∧ s'.send 9 Event.eventless = some s' := by
  have hbuild : stairs.build = .ok stairsSession.chart :=
    Blueprint.build_of_defects_eq_nil (by decide +kernel)
  have hrun : ((stairsSession.call 9 .start).bind fun s =>
      (s.call 9 (.send { name := "climb" })).map fun s' =>
        (s.fires (.send { name := "climb" }), s.callDecisions 9 (.send { name := "climb" }),
          s.settings.maxEventlessSteps, s'.machine.leaf)) =
      some (true, [.automatic, .raised { name := "creak" } false,
        .raised { name := "done.state.flight" } true], 1000, some 5) := by decide +kernel
  obtain ⟨s, hs, hclimb⟩ := Option.bind_eq_some_iff.1 hrun
  obtain ⟨s', hs', hfacts⟩ := Option.map_eq_some_iff.1 hclimb
  simp only [Prod.mk.injEq] at hfacts
  obtain ⟨hfires, hdecisions, hceiling, hleaf⟩ := hfacts
  have hchart : stairs.build = .ok s.chart := by
    rw [hbuild, (Run.nil.snoc 9 .start hs).chart_eq]
  obtain ⟨hqueue, hrest⟩ := dequeued_eq_raised hchart hs' hfires
  rw [hdecisions, hceiling] at hrest
  rw [hdecisions] at hqueue
  obtain ⟨-, -, -, hsend⟩ := hrest (by decide)
  exact ⟨s, s', hchart, hs, hs', hfires, hdecisions, hqueue.symm, hleaf, hsend 9 .null⟩

end Session

end FormChart
