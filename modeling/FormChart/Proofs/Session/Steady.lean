import FormChart.Proofs.Session.Settling

/-!
# Calls on a session at rest

If a chart settles below the ceiling, every call on a session at rest returns with a session at rest
(`Session.exists_settled`): some budget is enough for it, and every larger one gives the same result
(`Session.call_mono`).

So events always find the machine at rest, and only automatic transitions do not.  `Chart.Steady`
says what has to be shown of the single steps under this condition, and **what is steady holds after
every call and at the end of every run** (`Run.settled`).
-/

namespace FormChart

variable {C Env S : Type}

/-- Whether a call would enter a chart at a node. -/
def Call.Enters (chart : Chart C Env) (c : Call) (target : NodeId) : Prop :=
  (c = .start ∧ target = Chart.root) ∨
    ∃ reference, c = .startAt reference ∧ chart.lookup? reference = some target

/-- Charts are entered at their nodes. -/
lemma Call.Enters.exists_node {chart : Chart C Env} {c : Call} {target : NodeId}
    (h : c.Enters chart target) (htree : chart.IsTree) : ∃ n, chart.node? target = some n := by
  rcases h with ⟨-, rfl⟩ | ⟨reference, -, hfound⟩
  · exact htree.exists_of_entry (.inl rfl)
  · exact Chart.node?_of_lookup? hfound

/-- Whether a call comes with an event. -/
def Call.Brings (c : Call) (event : Event) : Prop :=
  c = .send event ∨
    ∃ settlement id, c = .deliver settlement ∧ event = Event.ofOutcome id settlement.outcome

lemma Call.Brings.payload {c : Call} {event : Event} (h : c.Brings event) :
    event.payload = c.payload := by
  rcases h with rfl | ⟨settlement, id, rfl, rfl⟩
  · rfl
  · exact payload_ofOutcome id settlement.outcome

/-- What every step sustains that is taken by a session at rest: the first entry at a permitted
node, the transition that an event takes in a leaf at rest, and the automatic transitions after
either.
Invocations and time play no part. -/
structure Chart.Steady [Model C] (chart : Chart C Env) (permits : NodeId → Prop)
    (P : Machine C Env → Prop) : Prop where
  entry : ∀ (machine : Machine C Env) (target : NodeId), P machine → permits target →
    P (Macrostep.take chart .init { machine } (chart.firstMoves target)).machine
  event : ∀ (m : Macrostep C Env) (event : Event) (leaf : NodeId) (t : Transition C),
    P m.machine → m.machine.leaf = some leaf → chart.IsLeaf leaf →
    chart.declared leaf Event.eventless.name = [] →
    chart.choose? leaf m.machine.context event.name = some t →
    P (m.take chart event (chart.moves leaf t)).machine
  eventless : ∀ (m : Macrostep C Env) (leaf : NodeId) (t : Transition C),
    P m.machine → m.machine.leaf = some leaf → chart.IsLeaf leaf →
    chart.choose? leaf m.machine.context Event.eventless.name = some t →
    P (m.take chart .eventless (chart.moves leaf t)).machine
  idle : ∀ (machine : Machine C Env) (invocations : Invocations Env) (clock : Timestamp),
    P machine → P { machine with invocations, clock }

/-- Nothing need be sustained. -/
lemma Chart.steady_true [Model C] (chart : Chart C Env) :
    chart.Steady (fun _ => True) fun _ => True :=
  ⟨fun _ _ _ _ => trivial, fun _ _ _ _ _ _ _ _ _ => trivial, fun _ _ _ _ _ _ _ => trivial,
    fun _ _ _ _ => trivial⟩

namespace Session

/-! ## The beginning of a call -/

/-- Whether nothing happens but to the invocations and the clock, and perhaps an event is
ignored. -/
def IdlesTo (s s' : Session C Env S) : Prop :=
  ∃ invocations clock new, Mild new ∧
    s' = { s with machine := { s.machine with invocations, clock }, notices := s.notices ++ new }

lemma IdlesTo.refl (s : Session C Env S) : s.IdlesTo s :=
  ⟨s.machine.invocations, s.machine.clock, [], mild_nil, by simp⟩

variable [Model C]

/-- A macrostep that begins with a transition for an event, once the invocations have changed. -/
def underway (s : Session C Env S) (invocations : Invocations Env) (event : Event) (leaf : NodeId)
    (t : Transition C) : Moment C Env S :=
  let machine := { s.machine with invocations }
  .under { s with machine } (Macrostep.take s.chart event { machine } (s.chart.moves leaf t)) event

/-- **How a call can begin**: with nothing, with the first entry or with a transition. -/
lemma begin_cases (s : Session C Env S) (c : Call) :
    (∃ s', (s.begin c).2 = .quiet s' ∧ s.IdlesTo s' ∧
      ∀ target, c.Enters s.chart target → s.isStarted = true) ∨
      (∃ target, c.Enters s.chart target ∧ (s.begin c).2 = (s.beginEntry target).2) ∨
      ∃ invocations event leaf t, c.Brings event ∧ s.machine.leaf = some leaf ∧
        s.chart.choose? leaf s.machine.context event.name = some t ∧
        (s.begin c).2 = s.underway invocations event leaf t := by
  have hsend : ∀ (invocations : Invocations Env) (event : Event),
      let moment := ({ s with machine := { s.machine with invocations } }.beginSend event).2
      (∃ s', moment = .quiet s' ∧ s.IdlesTo s') ∨
        ∃ leaf t, s.machine.leaf = some leaf ∧
          s.chart.choose? leaf s.machine.context event.name = some t ∧
          moment = s.underway invocations event leaf t := by
    intro invocations event
    set s₁ : Session C Env S := { s with machine := { s.machine with invocations } }
    dsimp only
    unfold beginSend
    split
    next => exact .inl ⟨_, rfl, invocations, s.machine.clock, [.notStarted event.name],
        by simp [Mild, Notice.level], rfl⟩
    next =>
        dsimp only
        cases hhandle : Macrostep.handle? s₁.chart event { machine := s₁.machine } with
        | none => exact .inl ⟨s₁, rfl, invocations, s.machine.clock, [], mild_nil, by simp [s₁]⟩
        | some taken =>
            obtain ⟨leaf, t, hleaf, hchoose, rfl, -⟩ := Macrostep.handle?_cases hhandle
            exact .inr ⟨leaf, t, hleaf, hchoose, rfl⟩
  cases c with
  | start =>
      rw [begin]
      split
      next hstarted => exact .inl ⟨s, rfl, .refl s, fun _ _ => hstarted⟩
      next => exact .inr (.inl ⟨Chart.root, .inl ⟨rfl, rfl⟩, rfl⟩)
  | startAt reference =>
      rw [begin]
      cases hlookup : s.chart.lookup? reference with
      | none =>
          refine .inl ⟨s, rfl, .refl s, fun target htarget => ?_⟩
          rcases htarget with ⟨⟨⟩, -⟩ | ⟨_, ⟨⟩, hfound⟩
          rw [hlookup] at hfound
          cases hfound
      | some target =>
          dsimp only
          split
          next hstarted => exact .inl ⟨s, rfl, .refl s, fun _ _ => hstarted⟩
          next => exact .inr (.inl ⟨target, .inr ⟨reference, rfl, hlookup⟩, rfl⟩)
  | send event =>
      rcases hsend s.machine.invocations event with ⟨s', hs', hidle⟩ | ⟨leaf, t, htaken⟩
      · exact .inl ⟨s', hs', hidle, by simp [Call.Enters]⟩
      · exact .inr (.inr ⟨s.machine.invocations, event, leaf, t, .inl rfl, htaken⟩)
  | deliver settlement =>
      rw [begin]
      cases hclaim : s.machine.invocations.claim settlement.token with
      | none => exact .inl ⟨s, rfl, .refl s, by simp [Call.Enters]⟩
      | some claimed =>
          rcases hsend claimed.2 (Event.ofOutcome claimed.1 settlement.outcome) with
            ⟨s', hs', hidle⟩ | ⟨leaf, t, htaken⟩
          · exact .inl ⟨s', hs', hidle, by simp [Call.Enters]⟩
          · exact .inr (.inr ⟨claimed.2, _, leaf, t, .inr ⟨settlement, _, rfl, rfl⟩, htaken⟩)
  | handOut =>
      exact .inl ⟨_, rfl, ⟨s.machine.invocations.handOut.2, s.machine.clock, [], mild_nil,
        by simp [Session.handOut]⟩, by simp [Call.Enters]⟩
  | wait clock =>
      exact .inl ⟨_, rfl, ⟨s.machine.invocations, clock, [], mild_nil, by simp⟩,
        by simp [Call.Enters]⟩

end Session

/-! ## From the beginning to the end -/

variable [Model C] [Storage S]

/-- Ends a call that has led to a moment. -/
def Moment.finish (budget : Nat) : Moment C Env S → Option (Session C Env S)
  | .quiet s => some s
  | .under s m trigger => s.finish budget m trigger

namespace Slot

lemma mild_keep (slot : Slot S) (context : C) (payload : Patch) :
    Mild (slot.keep context payload).2 := by
  unfold keep
  split
  next =>
      dsimp only
      split <;> simp [Mild, Notice.level]
  next => exact mild_nil

omit [Model C] in
lemma mild_forget (slot : Slot S) : Mild slot.forget.2 := by
  unfold forget
  split <;> simp [Mild, Notice.level]

end Slot

namespace Session

/-- What a call comes to, from its beginning to its end. -/
lemma call_eq_finish (s : Session C Env S) (budget : Nat) (c : Call) :
    s.call budget c = (s.begin c).2.finish budget := by
  have hsend : ∀ (s : Session C Env S) (event : Event),
      s.send budget event = (s.beginSend event).2.finish budget := by
    intro s event
    unfold send beginSend
    split
    next => rfl
    next =>
        dsimp only
        cases Macrostep.handle? s.chart event { machine := s.machine } <;> rfl
  cases c with
  | start =>
      rw [call, start, begin]
      split <;> rfl
  | startAt reference =>
      rw [call, startAt, begin]
      cases s.chart.lookup? reference with
      | none => rfl
      | some target =>
          dsimp only
          split <;> rfl
  | send event => exact hsend s event
  | deliver settlement =>
      rw [call, deliver, begin]
      cases s.machine.invocations.claim settlement.token with
      | none => rfl
      | some claimed => exact hsend _ _
  | handOut => rfl
  | wait clock => rfl

/-- A larger budget gives the same result. -/
lemma call_mono {s s' : Session C Env S} {budget : Nat} {c : Call}
    (h : s.call budget c = some s') {larger : Nat} (hle : budget ≤ larger) :
    s.call larger c = some s' := by
  rw [call_eq_finish] at h ⊢
  cases hmoment : (s.begin c).2 with
  | quiet s₁ =>
      rw [hmoment] at h
      exact h
  | under s₁ m trigger =>
      rw [hmoment] at h
      simp only [Moment.finish, finish, Option.bind_eq_bind, Option.bind_eq_some_iff] at h ⊢
      obtain ⟨final, hfinal, hrest⟩ := h
      exact ⟨final, Macrostep.toRest_mono hfinal hle, hrest⟩

/-! ## Coming to rest again -/

lemma rest_settings (s : Session C Env S) (trigger : Event) (m : Macrostep C Env) :
    (s.rest trigger m).settings = s.settings := by
  obtain ⟨slot, notices, h⟩ :=
    carryOutAll_eq ({ s with machine := m.machine }.tell m.notices) m.effects trigger
  rw [rest, h]
  rfl

/-- Effects are carried out without an error. -/
lemma exists_notices_rest (s : Session C Env S) (trigger : Event) (m : Macrostep C Env) :
    ∃ new, (s.rest trigger m).notices = s.notices ++ m.notices ++ new ∧ Mild new := by
  have hslot : ∀ (s : Session C Env S) (f : Slot S → Slot S × List Notice),
      (∀ slot, Mild (f slot).2) → ∃ new, (s.withSlot f).notices = s.notices ++ new ∧ Mild new := by
    intro s f hf
    unfold withSlot
    split
    next => exact ⟨[], (List.append_nil _).symm, mild_nil⟩
    next slot _ => exact ⟨(f slot).2, rfl, hf slot⟩
  have hone : ∀ (s : Session C Env S) (e : Effect),
      ∃ new, (s.carryOut trigger.payload e).notices = s.notices ++ new ∧ Mild new := by
    intro s e
    cases e with
    | keep => exact hslot s _ fun slot => slot.mild_keep _ _
    | forget => exact hslot s _ Slot.mild_forget
    | log message => exact ⟨_, rfl, by simp [Mild, Notice.level]⟩
  have hall : ∀ (effects : List Effect) (s : Session C Env S),
      ∃ new, (effects.foldl (carryOut trigger.payload) s).notices = s.notices ++ new ∧
        Mild new := by
    intro effects
    induction effects with
    | nil => exact fun s => ⟨[], (List.append_nil _).symm, mild_nil⟩
    | cons e rest ih =>
        intro s
        obtain ⟨first, hfirst, hmild⟩ := hone s e
        obtain ⟨new, hnew, hmild'⟩ := ih (s.carryOut trigger.payload e)
        refine ⟨first ++ new, ?_, hmild.append hmild'⟩
        rw [List.foldl_cons, hnew, hfirst, List.append_assoc]
  exact hall (coalesce m.effects) ({ s with machine := m.machine }.tell m.notices)

/-- Whether a call has left a session at rest again, after a bounded number of automatic transitions
and without an error. -/
structure SettlesTo (bound : Nat) (s s' : Session C Env S) : Prop where
  chart : s'.chart = s.chart
  settings : s'.settings = s.settings
  atRest : s'.machine.AtRest s.chart
  visits : ∃ new, s'.machine.history.visits = s.machine.history.visits ++ new ∧
    new.countP Visit.isEventless ≤ bound
  notices : ∃ new, s'.notices = s.notices ++ new ∧ Mild new

variable {bound : Nat} {permits : NodeId → Prop} {P : Machine C Env → Prop}
  {s : Session C Env S}

omit [Model C] [Storage S] in
/-- At the beginning of a macrostep nothing has happened. -/
lemma since_begin {machine : Machine C Env} (h : machine.history = s.machine.history) :
    Macrostep.Since s.chart s.machine.history.visits [] 0 { machine } :=
  ⟨⟨[], by rw [h, List.append_nil], rfl⟩, ⟨[], rfl, mild_nil⟩, nofun, Nat.le_refl 0⟩

section

variable (hchart : s.chart.SettlesWithin bound) (hceiling : bound < s.settings.maxEventlessSteps)
  (hP : ∀ (m : Macrostep C Env) (leaf : NodeId) (t : Transition C), P m.machine →
    m.machine.leaf = some leaf → s.chart.IsLeaf leaf →
    s.chart.choose? leaf m.machine.context Event.eventless.name = some t →
    P (m.take s.chart .eventless (s.chart.moves leaf t)).machine)

include hchart hceiling hP

/-- A macrostep that begins with a leaf to be in is brought to rest. -/
lemma exists_finish {m : Macrostep C Env} {leaf : NodeId} (hactive : m.machine.leaf = some leaf)
    (hleaf : s.chart.IsLeaf leaf)
    (hsince : m.Since s.chart s.machine.history.visits [] 0) (hm : P m.machine)
    (invocations : Invocations Env) (trigger : Event) :
    let s₁ : Session C Env S := { s with machine := { s.machine with invocations } }
    ∃ enough s', s₁.finish enough m trigger = some s' ∧ s.SettlesTo bound s' ∧ P s'.machine ∧
      s'.isStarted = true := by
  intro s₁
  obtain ⟨n, hn, -⟩ := id hleaf
  obtain ⟨enough, final, hfinal, hatRest, hsome, ⟨total, htotal, hafter⟩, hfinally⟩ :=
    Macrostep.exists_toRest hchart hceiling hP hactive hleaf (hchart.comesToRest hn)
      hsince (Nat.le_of_eq (Nat.zero_add bound)) hm
  refine ⟨enough, s₁.rest trigger final, ?_, ?_, ?_, ?_⟩
  · rw [finish, hfinal]
    rfl
  · obtain ⟨visits, hvisits, hcount⟩ := hafter.visits
    obtain ⟨told, htold, hmild⟩ := hafter.notices
    obtain ⟨new, hnew, hmild'⟩ := exists_notices_rest s₁ trigger final
    constructor
    case chart => exact rest_chart s₁ trigger final
    case settings => exact rest_settings s₁ trigger final
    case atRest => rwa [rest_machine]
    case visits => exact ⟨visits, by rw [rest_machine, hvisits], hcount ▸ htotal⟩
    case notices =>
      refine ⟨told ++ new, ?_, hmild.append hmild'⟩
      rw [hnew, htold, List.nil_append, List.append_assoc]
  · rwa [rest_machine]
  · rwa [isStarted, rest_machine]

/-- So is one that begins with a transition of a leaf at rest. -/
lemma exists_finish_underway (hrest : s.machine.AtRest s.chart) {leaf : NodeId}
    (hactive : s.machine.leaf = some leaf) {event : Event} {t : Transition C}
    (hchoose : s.chart.choose? leaf s.machine.context event.name = some t)
    (invocations : Invocations Env)
    (htaken : P (Macrostep.take s.chart event { machine := { s.machine with invocations } }
      (s.chart.moves leaf t)).machine) :
    ∃ enough s', (s.underway invocations event leaf t).finish enough = some s' ∧
      s.SettlesTo bound s' ∧ P s'.machine ∧ s'.isStarted = true := by
  obtain ⟨hleaf, hnone⟩ := hrest leaf hactive
  have hevent : event.isEventless = false := by
    by_contra htrue
    have hname : event.name = Event.eventless.name := by
      simpa [Event.isEventless, Event.eventless] using htrue
    simp [Chart.choose?_eq, hname, hnone] at hchoose
  set machine : Machine C Env := { s.machine with invocations }
  have hbegin : Macrostep.Since s.chart s.machine.history.visits [] 0 { machine } := since_begin rfl
  have hsince := hbegin.take_choice hchart hchoose
  rw [hevent] at hsince
  obtain ⟨leaf', hactive', hleaf'⟩ := Macrostep.exists_leaf_of_choice (m := { machine })
    hchart.isTree hactive hleaf hchoose
  exact exists_finish hchart hceiling hP hactive' hleaf' hsince htaken invocations event

end

/-- **A call on a session at rest returns with a session at rest.** -/
theorem exists_settled (hchart : s.chart.SettlesWithin bound)
    (hceiling : bound < s.settings.maxEventlessSteps) (hsteady : s.chart.Steady permits P)
    (hrest : s.machine.AtRest s.chart) (hs : P s.machine) {c : Call}
    (hc : ∀ target, c.Enters s.chart target → permits target) :
    ∃ enough s', s.call enough c = some s' ∧ s.SettlesTo bound s' ∧ P s'.machine ∧
      (s.isStarted = true ∨ (∃ target, c.Enters s.chart target) → s'.isStarted = true) := by
  simp only [call_eq_finish]
  rcases s.begin_cases c with ⟨s', hmoment, hidle, hstarted⟩ | ⟨target, htarget, hmoment⟩ |
      ⟨invocations, event, leaf, t, -, hactive, hchoose, hmoment⟩ <;> rw [hmoment]
  · obtain ⟨invocations, clock, new, hmild, rfl⟩ := hidle
    refine ⟨0, _, rfl, ⟨rfl, rfl, hrest, ⟨[], (List.append_nil _).symm, Nat.zero_le _⟩,
      ⟨new, rfl, hmild⟩⟩, hsteady.idle _ _ _ hs, ?_⟩
    rintro (h | ⟨target, htarget⟩)
    · exact h
    · exact hstarted target htarget
  · obtain ⟨n, hn⟩ := htarget.exists_node hchart.isTree
    obtain ⟨down, -, hplan⟩ := hchart.isTree.firstMoves_eq hn
    obtain ⟨l, hl, hkind⟩ := hchart.isTree.isLeaf_landing hn
    have hentered : (Macrostep.take s.chart .init { machine := s.machine }
        (s.chart.firstMoves target)).machine.leaf = some (s.chart.landing target) := by
      rw [Macrostep.take_leaf, hplan, Macrostep.foldl_entry_leaf hl]
    have hsince : (Macrostep.take s.chart .init { machine := s.machine }
        (s.chart.firstMoves target)).Since s.chart s.machine.history.visits []
        (0 + Event.init.isEventless.toNat) :=
      (since_begin rfl).take hchart (by simp [Chart.firstMoves])
    obtain ⟨enough, s', hfinish, hsettles, hP, hsome⟩ := exists_finish hchart hceiling
      hsteady.eventless hentered ⟨l, hl, hkind⟩ hsince (hsteady.entry _ _ hs (hc target htarget))
      s.machine.invocations .init
    exact ⟨enough, s', hfinish, hsettles, hP, fun _ => hsome⟩
  · obtain ⟨hleaf, hnone⟩ := hrest leaf hactive
    obtain ⟨enough, s', hfinish, hsettles, hP, hsome⟩ :=
      exists_finish_underway hchart hceiling hsteady.eventless hrest hactive hchoose invocations
        (hsteady.event { machine := { s.machine with invocations } } event leaf t
          (hsteady.idle _ _ _ hs) hactive hleaf hnone hchoose)
    exact ⟨enough, s', hfinish, hsettles, hP, fun _ => hsome⟩

end Session

/-! ## Runs -/

/-- **What is steady holds at the end of every run** that begins with a session at rest, and the
session is at rest there. -/
theorem Run.settled {bound : Nat} {permits : NodeId → Prop} {P : Machine C Env → Prop}
    {s₀ s : Session C Env S} {calls : List Call} (hchart : s₀.chart.SettlesWithin bound)
    (hceiling : bound < s₀.settings.maxEventlessSteps) (hsteady : s₀.chart.Steady permits P)
    (hrest : s₀.machine.AtRest s₀.chart) (hs₀ : P s₀.machine)
    (hcalls : ∀ c ∈ calls, ∀ target, c.Enters s₀.chart target → permits target)
    (run : Run s₀ calls s) :
    s.chart = s₀.chart ∧ s.settings = s₀.settings ∧ s.machine.AtRest s₀.chart ∧ P s.machine := by
  induction run with
  | nil => exact ⟨rfl, rfl, hrest, hs₀⟩
  | @snoc calls s s' budget c run hcall ih =>
      obtain ⟨hsame, hsettings, hrest', hs⟩ :=
        ih fun d hd => hcalls d (List.mem_append_left _ hd)
      have hc := hcalls c (List.mem_append_right _ List.mem_cons_self)
      rw [← hsame] at hchart hsteady hrest' hc
      rw [← hsettings] at hceiling
      obtain ⟨enough, s'', henough, hsettles, hP, -⟩ :=
        Session.exists_settled hchart hceiling hsteady hrest' hs hc
      -- the budget of the run was enough, so it has given the same result
      have heq : s' = s'' := Option.some.inj
        ((Session.call_mono hcall (Nat.le_max_left budget enough)).symm.trans
          (Session.call_mono henough (Nat.le_max_right budget enough)))
      rw [heq]
      exact ⟨hsettles.chart.trans hsame, hsettles.settings.trans hsettings,
        hsame ▸ hsettles.atRest, hP⟩

end FormChart
