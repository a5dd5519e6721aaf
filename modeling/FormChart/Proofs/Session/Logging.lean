import FormChart.Proofs.Session.Reaching

/-!
# What is logged

The logs that a call asks for are read off the actions of its episodes (`askedIn`).  A macrostep
collects just these effects, in their order, while no log is emitted before it has come to rest
(`Macrostep.toRest_collects`).

**A log is emitted unless it is a repetition**: of equal logs that are asked for one right after
another, only one is (`Session.repeated_logs_are_dropped`).  So all logs are emitted just if none
repeats the one before; a transition that asks for the same log twice in a row emits it once
(`Session.doorbell_is_heard_once`).
-/

namespace FormChart

variable {C Env S : Type}

/-! ## Logs among effects -/

/-- The message of a log. -/
def Effect.log? : Effect → Option String
  | .log message => some message
  | .keep | .forget => none

/-- The messages of the logs among some effects. -/
def logsIn (effects : List Effect) : List String := effects.filterMap Effect.log?

/-- The messages of the logs among some effects, without those that directly repeat the effect
before; the first argument is the effect before all of them. -/
def freshLogs : Option Effect → List Effect → List String
  | _, [] => []
  | before, e :: rest =>
    (if before = some e then [] else e.log?.toList) ++ freshLogs (some e) rest

/-- Whether no log directly repeats the effect before. -/
def NoLogRepeats (effects : List Effect) : Prop :=
  effects.IsChain fun e f => e = f → f.log? = none

lemma logsIn_cons (e : Effect) (rest : List Effect) :
    logsIn (e :: rest) = e.log?.toList ++ logsIn rest := by
  cases h : e.log? <;> simp [logsIn, h]

/-- **Coalescing leaves the fresh logs.** -/
lemma logsIn_coalesce (effects : List Effect) :
    logsIn (coalesce effects) = freshLogs none effects := by
  induction effects using coalesce.induct with
  | case1 => rfl
  | case2 e => rw [coalesce, logsIn_cons]; simp [freshLogs, logsIn]
  | case3 e rest ih =>
      rw [coalesce, if_pos rfl, ih]
      simp [freshLogs]
  | case4 e f rest hne ih =>
      rw [coalesce, if_neg hne, logsIn_cons, ih]
      simp [freshLogs, hne]

lemma length_freshLogs_le (before : Option Effect) (effects : List Effect) :
    (freshLogs before effects).length ≤ (logsIn effects).length := by
  induction effects generalizing before with
  | nil => exact Nat.le_refl 0
  | cons e rest ih =>
      have hrest := ih (some e)
      rw [freshLogs, logsIn_cons, List.length_append, List.length_append]
      split
      · exact Nat.le_trans (Nat.le_of_eq (Nat.zero_add _)) (Nat.le_add_left_of_le hrest)
      · exact Nat.add_le_add_left hrest _

/-- All logs are fresh just if none repeats the effect before. -/
lemma freshLogs_eq_logsIn_iff (before : Option Effect) (effects : List Effect) :
    freshLogs before effects = logsIn effects ↔
      (∀ e ∈ effects.head?, before = some e → e.log? = none) ∧ NoLogRepeats effects := by
  induction effects generalizing before with
  | nil => simp [freshLogs, logsIn, NoLogRepeats]
  | cons e rest ih =>
      have hchain : NoLogRepeats (e :: rest) ↔
          (∀ f ∈ rest.head?, some e = some f → f.log? = none) ∧ NoLogRepeats rest := by
        simp only [NoLogRepeats, List.isChain_cons, Option.some.injEq]
      rw [hchain, ← ih (some e), freshLogs, logsIn_cons, List.head?_cons]
      by_cases hbefore : before = some e
      · -- a log that is left out is missing, since the rest has no more than its own
        cases hlog : e.log? with
        | none => simp [hbefore, hlog]
        | some message =>
            have hshort := length_freshLogs_le (some e) rest
            refine iff_of_false (fun heq => ?_) (fun h => ?_)
            · have hlength := congrArg List.length heq
              simp [hbefore] at hlength
              omega
            · simpa [hlog] using h.1 e rfl hbefore
      · simp [hbefore]

/-! ## What episodes ask for -/

/-- The actions that a deed performs, in an episode with a transition that has certain actions. -/
def Deed.actions (chart : Chart C Env) (actions : List (Action C)) : Deed → List (Action C)
  | .left i => (chart.node? i).elim [] (·.exit)
  | .acted => actions
  | .entered i => (chart.node? i).elim [] (·.entry)
  | .started _ | .handedOut _ | .resolved _ => []

/-- The actions that are performed in an episode, in their order. -/
def Episode.actions (chart : Chart C Env) : Episode C → List (Action C)
  | .entry deeds => deeds.flatMap (Deed.actions chart [])
  | .transition _ t deeds => deeds.flatMap (Deed.actions chart t.actions)
  | .handOut _ | .claim _ => []

/-- The effects that are asked for in some episodes, in their order. -/
def askedIn (chart : Chart C Env) (episodes : List (Episode C)) : List Effect :=
  effectsOf (episodes.flatMap (Episode.actions chart))

@[simp] lemma askedIn_nil (chart : Chart C Env) : askedIn chart [] = [] := rfl

@[simp] lemma askedIn_append (chart : Chart C Env) (first rest : List (Episode C)) :
    askedIn chart (first ++ rest) = askedIn chart first ++ askedIn chart rest := by
  simp [askedIn]

lemma askedIn_singleton (chart : Chart C Env) (e : Episode C) :
    askedIn chart [e] = effectsOf (e.actions chart) := by
  simp [askedIn]

/-! ## Notices that are logs -/

/-- Whether a notice comes from a log. -/
def Notice.isLog : Notice → Bool
  | .logged .. => true
  | _ => false

/-- Whether what an action has to remark never passes for a log. -/
def Action.Discreet : Action C → Prop
  | .assign _ remarks => ∀ context event, (remarks context event).filter Notice.isLog = []
  | .forward | .raise _ | .effect _ => True

@[simp] lemma Action.discreet_effect (e : Effect) : (Action.effect e : Action C).Discreet := trivial

/-- Whether no action in a chart has a remark that passes for a log. -/
def Chart.Discreet (chart : Chart C Env) : Prop :=
  ∀ i n, chart.node? i = some n → ∀ a ∈ n.actions, a.Discreet

/-- Whether notices are told of after others; if everyone is discreet, no log is among them. -/
def Adds (discreet : Prop) (old new : List Notice) : Prop :=
  ∃ more, new = old ++ more ∧ (discreet → more.filter Notice.isLog = [])

lemma Adds.refl (discreet : Prop) (notices : List Notice) : Adds discreet notices notices :=
  ⟨[], (List.append_nil _).symm, fun _ => rfl⟩

lemma Adds.trans {discreet : Prop} {first second third : List Notice}
    (h : Adds discreet first second) (h' : Adds discreet second third) :
    Adds discreet first third := by
  obtain ⟨more, rfl, hmore⟩ := h
  obtain ⟨more', rfl, hmore'⟩ := h'
  refine ⟨more ++ more', List.append_assoc _ _ _, fun hd => ?_⟩
  rw [List.filter_append, hmore hd, hmore' hd, List.append_nil]

lemma Adds.mono {discreet discreet' : Prop} {old new : List Notice} (h : Adds discreet old new)
    (himp : discreet' → discreet) : Adds discreet' old new := by
  obtain ⟨more, hmore, hdiscreet⟩ := h
  exact ⟨more, hmore, fun hd => hdiscreet (himp hd)⟩

namespace Macrostep

variable [Model C] {chart : Chart C Env} {event : Event}

/-- A patch that does not fit is told of, and that is no log. -/
lemma write_adds (discreet : Prop) (m : Macrostep C Env) (patch : Patch) (mode : MergeMode) :
    Adds discreet m.notices (m.write chart patch mode).notices := by
  unfold write
  split
  · exact .refl _ _
  · exact ⟨_, rfl, fun _ => rfl⟩

lemma perform_adds (m : Macrostep C Env) (a : Action C) :
    Adds a.Discreet m.notices (m.perform chart event a).notices := by
  cases a with
  | assign patch remarks =>
      exact Adds.trans ⟨remarks m.machine.context event, rfl, fun h => h _ _⟩ (write_adds _ _ _ _)
  | forward => exact write_adds _ m _ _
  | raise name => exact .refl _ _
  | effect e => exact .refl _ _

omit [Model C] in
lemma foldl_adds {α : Type} {f : Macrostep C Env → α → Macrostep C Env} {Q : α → Prop}
    (hf : ∀ m a, Adds (Q a) m.notices (f m a).notices) (m : Macrostep C Env) (items : List α) :
    Adds (∀ a ∈ items, Q a) m.notices (items.foldl f m).notices := by
  induction items generalizing m with
  | nil => exact .refl _ _
  | cons a rest ih =>
      exact ((hf m a).mono fun h => h a List.mem_cons_self).trans
        ((ih (f m a)).mono fun h b hb => h b (List.mem_cons_of_mem _ hb))

lemma performAll_adds (m : Macrostep C Env) (actions : List (Action C)) :
    Adds (∀ a ∈ actions, a.Discreet) m.notices (m.performAll chart event actions).notices :=
  foldl_adds perform_adds m actions

lemma move_adds (m : Macrostep C Env) (part : Move C) :
    Adds (∀ a ∈ part.actions chart, a.Discreet) m.notices (m.move chart event part).notices := by
  cases part with
  | act actions => exact performAll_adds m actions
  | leave i =>
      rw [move, Move.actions]
      cases hn : chart.node? i with
      | none => exact .refl _ _
      | some n =>
          have hexit : Adds _ m.notices (m.performAll chart event n.exit).notices :=
            performAll_adds m n.exit
          rw [Option.elim_some, Option.elim_some, leave]
          cases n.invoke <;> exact hexit
  | arrive i =>
      rw [move, Move.actions]
      cases hn : chart.node? i with
      | none => exact .refl _ _
      | some n =>
          have hentry : Adds _ m.notices (m.performAll chart event n.entry).notices :=
            performAll_adds m n.entry
          have hreport : ∀ k : Macrostep C Env, (report chart k n).notices = k.notices := by
            intro k
            unfold report
            split <;> rfl
          rw [Option.elim_some, Option.elim_some, arrive, change, hreport, invoke]
          cases n.invoke <;> exact hentry

lemma take_adds (m : Macrostep C Env) (plan : List (Move C)) :
    Adds (∀ a ∈ chart.actionsOf plan, a.Discreet) m.notices
      (m.take chart event plan).notices :=
  (foldl_adds move_adds m plan).mono fun h part hpart a ha =>
    h a (List.mem_flatMap.2 ⟨part, hpart, ha⟩)

/-! ## What decisions collect -/

/-- Whether a macrostep has got, by some episodes, the effects that they ask for, and no log among
the notices. -/
structure Collects (chart : Chart C Env) (episodes : List (Episode C)) (m m' : Macrostep C Env) :
    Prop where
  effects : m'.effects = m.effects ++ askedIn chart episodes
  notices : Adds chart.Discreet m.notices m'.notices

omit [Model C] in
lemma Collects.trans {first rest : List (Episode C)} {m m' m'' : Macrostep C Env}
    (h : m.Collects chart first m') (h' : m'.Collects chart rest m'') :
    m.Collects chart (first ++ rest) m'' :=
  ⟨by rw [h'.effects, h.effects, askedIn_append, List.append_assoc], h.notices.trans h'.notices⟩

omit [Model C] in
lemma Collects.refl (m : Macrostep C Env) : m.Collects chart [] m :=
  ⟨(List.append_nil _).symm, .refl _ _⟩

/-- The actions of a plan are those of its deeds. -/
lemma actionsOf_eq (m : Macrostep C Env) {actions : List (Action C)} {plan : List (Move C)}
    (hplan : ∀ more, .act more ∈ plan → more = actions) :
    chart.actionsOf plan = (m.deeds chart event plan).flatMap (Deed.actions chart actions) := by
  induction plan generalizing m with
  | nil => rfl
  | cons part rest ih =>
      have hpart : part.actions chart =
          (m.deed chart part).flatMap (Deed.actions chart actions) := by
        cases part with
        | act more =>
            obtain rfl := hplan more List.mem_cons_self
            simp [Move.actions, deed, Deed.actions]
        | leave i => cases hn : chart.node? i <;> simp [Move.actions, deed, Deed.actions, hn]
        | arrive i =>
            cases hn : chart.node? i with
            | none => simp [Move.actions, deed, hn]
            | some n => cases hv : n.invoke <;> simp [Move.actions, deed, Deed.actions, hn, hv]
      rw [Chart.actionsOf, List.flatMap_cons, deeds, List.flatMap_append, ← hpart,
        ← ih (m.move chart event part) fun more hmore => hplan more (List.mem_cons_of_mem _ hmore),
        Chart.actionsOf]

lemma take_collects (m : Macrostep C Env) {plan : List (Move C)} {e : Episode C}
    (hactions : e.actions chart = chart.actionsOf plan)
    (hdiscreet : chart.Discreet → ∀ actions, .act actions ∈ plan → ∀ a ∈ actions, a.Discreet) :
    m.Collects chart [e] (m.take chart event plan) := by
  refine ⟨?_, (take_adds m plan).mono fun hd a ha => ?_⟩
  · rw [take_effects, askedIn_singleton, hactions]
  · rcases chart.mem_actionsOf ha with ⟨actions, hpart, ha⟩ | ⟨i, n, hn, ha⟩
    · exact hdiscreet hd actions hpart a ha
    · exact hd i n hn a ha

variable (chart event) in
/-- **The first entry** collects what its episode asks for. -/
lemma take_entry_collects (m : Macrostep C Env) (target : NodeId) :
    m.Collects chart [.entry (m.deeds chart event (chart.firstMoves target))]
      (m.take chart event (chart.firstMoves target)) :=
  take_collects m (actionsOf_eq m (by simp [Chart.firstMoves])).symm (by simp [Chart.firstMoves])

/-- **A transition** collects what its episode asks for. -/
lemma handle?_collects {m m' : Macrostep C Env} (h : m.handle? chart event = some m') :
    m.Collects chart (m.episodes chart event) m' := by
  obtain ⟨leaf, t, -, hchoose, rfl, hepisodes⟩ := handle?_cases h
  obtain ⟨i, n, hn, ht⟩ := Chart.mem_on_of_choose? hchoose
  rw [hepisodes]
  refine take_collects m (actionsOf_eq m fun _ => Chart.act_mem_moves).symm
    fun hd actions hpart a ha => hd i n hn a (List.mem_append_right _ ?_)
  rw [Chart.act_mem_moves hpart] at ha
  exact List.mem_flatMap.2 ⟨_, ht, ha⟩

end Macrostep

/-- The macrostep after a decision. -/
def Progress.macrostep : Progress C Env → Macrostep C Env
  | .running m | .atRest m => m

namespace Macrostep

variable [Model C] (chart : Chart C Env) (ceiling : Nat)

lemma dequeue_collects (m : Macrostep C Env) :
    m.Collects chart (m.dequeueEpisodes chart) (m.dequeue chart).macrostep := by
  unfold dequeue dequeueEpisodes
  cases m.raised with
  | nil => exact .refl m
  | cons event rest =>
      set k : Macrostep C Env := { m with raised := rest, streak := 0 }
      have hk : k.Collects chart (k.episodes chart event) ((k.handle? chart event).getD k) := by
        cases hhandle : k.handle? chart event with
        | none => rw [episodes_of_handle?_eq_none hhandle]; exact .refl k
        | some taken => exact handle?_collects hhandle
      exact ⟨hk.effects, hk.notices⟩

/-- **A decision collects** what is asked for in it. -/
lemma next_collects (m : Macrostep C Env) :
    m.Collects chart (m.nextEpisodes chart ceiling) (m.next chart ceiling).macrostep := by
  unfold next nextEpisodes
  split
  next =>
      have htold : m.Collects chart [] (m.tell [.unsettled (m.machine.leafPath chart) ceiling]) :=
        ⟨(List.append_nil _).symm, _, rfl, fun _ => rfl⟩
      exact htold.trans (dequeue_collects chart _)
  next =>
      cases hhandle : m.handle? chart .eventless with
      | none =>
          rw [handle?_eq, Option.map_eq_none_iff] at hhandle
          rw [hhandle]
          exact dequeue_collects chart m
      | some taken =>
          have htaken := handle?_collects hhandle
          obtain ⟨leaf, t, hleaf, hchoose, -⟩ := handle?_cases hhandle
          rw [taken?_eq_some.2 ⟨hleaf, hchoose⟩]
          exact ⟨htaken.effects, htaken.notices⟩

/-- **A macrostep that comes to rest** has collected what was asked for on the way. -/
lemma toRest_collects {budget : Nat} {m final : Macrostep C Env}
    (h : m.toRest chart ceiling budget = some final) :
    m.Collects chart (m.restEpisodes chart ceiling budget) final := by
  induction budget generalizing m with
  | zero => cases h
  | succ budget ih =>
      have hnext := next_collects chart ceiling m
      rw [toRest] at h
      rw [restEpisodes]
      cases hp : m.next chart ceiling with
      | running m' =>
          rw [hp] at h hnext
          exact hnext.trans (ih h)
      | atRest m' =>
          rw [hp] at h hnext
          cases h
          rwa [List.append_nil]

end Macrostep

/-! ## Calls -/

/-- The notices up to a moment. -/
def Moment.told : Moment C Env S → List Notice
  | .quiet s => s.notices
  | .under s m _ => s.notices ++ m.notices

/-- The effects that wait at a moment to be carried out. -/
def Moment.asked : Moment C Env S → List Effect
  | .quiet _ => []
  | .under _ m _ => m.effects

namespace Slot

variable [Storage S]

lemma filter_keep [Model C] (slot : Slot S) (context : C) (payload : Patch) :
    (slot.keep context payload).2.filter Notice.isLog = [] := by
  unfold keep
  split
  next =>
      dsimp only
      split <;> rfl
  next => rfl

lemma filter_forget (slot : Slot S) : slot.forget.2.filter Notice.isLog = [] := by
  unfold forget
  split <;> rfl

end Slot

namespace Session

variable [Model C]

/-- What a moment within a call has collected. -/
structure Opens (s : Session C Env S) (episodes : List (Episode C)) (moment : Moment C Env S) :
    Prop where
  chart : moment.session.chart = s.chart
  asked : moment.asked = askedIn s.chart episodes
  told : Adds s.chart.Discreet s.notices moment.told

variable (s : Session C Env S)

lemma beginEntry_opens (target : NodeId) :
    s.Opens (s.beginEntry target).1 (s.beginEntry target).2 := by
  have hentry := Macrostep.take_entry_collects s.chart .init { machine := s.machine } target
  obtain ⟨more, hmore, hdiscreet⟩ := hentry.notices
  exact ⟨rfl, hentry.effects, more, congrArg (s.notices ++ ·) hmore, hdiscreet⟩

lemma beginSend_opens (event : Event) :
    s.Opens (s.beginSend event).1 (s.beginSend event).2 := by
  unfold beginSend
  split
  next => exact ⟨rfl, rfl, _, rfl, fun _ => rfl⟩
  next =>
      dsimp only
      cases hhandle : Macrostep.handle? s.chart event { machine := s.machine } with
      | none => exact ⟨rfl, rfl, .refl _ _⟩
      | some taken =>
          have htaken := Macrostep.handle?_collects hhandle
          obtain ⟨more, hmore, hdiscreet⟩ := htaken.notices
          exact ⟨rfl, htaken.effects, more, congrArg (s.notices ++ ·) hmore, hdiscreet⟩

/-- **How a call begins.** -/
lemma begin_opens (c : Call) : s.Opens (s.begin c).1 (s.begin c).2 := by
  have hquiet : s.Opens [] (.quiet s) := ⟨rfl, rfl, .refl _ _⟩
  cases c with
  | start =>
      rw [begin]
      split
      next => exact hquiet
      next => exact s.beginEntry_opens Chart.root
  | startAt reference =>
      rw [begin]
      split
      next => exact hquiet
      next target _ =>
          split
          next => exact hquiet
          next => exact s.beginEntry_opens target
  | send event => exact s.beginSend_opens event
  | deliver settlement =>
      rw [begin]
      split
      next => exact hquiet
      next id invocations _ =>
          have hsend := beginSend_opens
            { s with machine := { s.machine with invocations } }
            (Event.ofOutcome id settlement.outcome)
          exact ⟨hsend.chart, hsend.asked, hsend.told⟩
  | handOut => exact ⟨rfl, rfl, .refl _ _⟩
  | wait clock => exact ⟨rfl, rfl, .refl _ _⟩

variable {s} [Storage S]

/-- What carrying out an effect tells: of a log just that, and otherwise of no log. -/
lemma carryOut_notices (payload : Patch) (s : Session C Env S) (e : Effect) :
    ∃ new, (s.carryOut payload e).notices = s.notices ++ new ∧
      new.filter Notice.isLog = e.log?.toList.map (.logged s.leafPath) := by
  have hslot : ∀ f : Slot S → Slot S × List Notice,
      (∀ slot, (f slot).2.filter Notice.isLog = []) →
      ∃ new, (s.withSlot f).notices = s.notices ++ new ∧ new.filter Notice.isLog = [] := by
    intro f hf
    unfold withSlot
    split
    next => exact ⟨[], (List.append_nil _).symm, rfl⟩
    next slot _ => exact ⟨(f slot).2, rfl, hf slot⟩
  cases e with
  | keep => exact hslot _ fun slot => slot.filter_keep _ _
  | forget => exact hslot _ Slot.filter_forget
  | log message => exact ⟨[.logged s.leafPath message], rfl, rfl⟩

lemma foldl_carryOut_notices (payload : Patch) (s : Session C Env S) (effects : List Effect) :
    ∃ new, (effects.foldl (carryOut payload) s).notices = s.notices ++ new ∧
      new.filter Notice.isLog = (logsIn effects).map (.logged s.leafPath) := by
  induction effects generalizing s with
  | nil => exact ⟨[], (List.append_nil _).symm, rfl⟩
  | cons e rest ih =>
      obtain ⟨first, hfirst, hlogged⟩ := carryOut_notices payload s e
      obtain ⟨new, hnew, hlogged'⟩ := ih (s.carryOut payload e)
      obtain ⟨slot, notices, he⟩ := carryOut_eq payload s e
      have hleaf : (s.carryOut payload e).leafPath = s.leafPath := by rw [he]; rfl
      refine ⟨first ++ new, by rw [List.foldl_cons, hnew, hfirst, List.append_assoc], ?_⟩
      rw [List.filter_append, hlogged, hlogged', hleaf, logsIn_cons, List.map_append]

/-- What is told of once a macrostep is at rest: the logs that are asked for, unless they are
repetitions. -/
lemma rest_notices (s : Session C Env S) (trigger : Event) (m : Macrostep C Env) :
    ∃ carried, (s.rest trigger m).notices = s.notices ++ m.notices ++ carried ∧
      carried.filter Notice.isLog =
        (freshLogs none m.effects).map (.logged (s.rest trigger m).leafPath) := by
  have hleaf : (s.rest trigger m).leafPath = m.machine.leafPath s.chart := by
    rw [leafPath, rest_machine, rest_chart]
  obtain ⟨carried, hnotices, hlogged⟩ := foldl_carryOut_notices trigger.payload
    ({ s with machine := m.machine }.tell m.notices) (coalesce m.effects)
  rw [logsIn_coalesce] at hlogged
  exact ⟨carried, hnotices, hleaf ▸ hlogged⟩

/-- **Repeated logs are dropped.**  In every call that returns, of all the effects that the actions
ask for,

* no log is emitted on the way to rest, if no remark passes for one;
* at rest the logs are emitted in their order, with the leaf at rest, except those that equal the
  effect that was asked for directly before;
* so all logs are emitted just if no log directly repeats another. -/
theorem repeated_logs_are_dropped {s s' : Session C Env S} {budget : Nat} {c : Call}
    (h : s.call budget c = some s') :
    let asked := askedIn s.chart (s.episodes budget c)
    (∃ told carried, s'.notices = s.notices ++ told ++ carried ∧
      (s.chart.Discreet → told.filter Notice.isLog = []) ∧
      carried.filter Notice.isLog = (freshLogs none asked).map (.logged s'.leafPath)) ∧
    (freshLogs none asked = logsIn asked ↔ NoLogRepeats asked) := by
  refine ⟨?_, by simp [freshLogs_eq_logsIn_iff]⟩
  rw [call_eq_finish] at h
  have hbegin := s.begin_opens c
  obtain ⟨told, htold, hdiscreet⟩ := hbegin.told
  rw [episodes, askedIn_append, ← hbegin.asked]
  cases hmoment : (s.begin c).2 with
  | quiet s₁ =>
      rw [hmoment] at h htold
      cases h
      exact ⟨told, [], by rw [List.append_nil]; exact htold, hdiscreet, rfl⟩
  | under s₁ m trigger =>
      rw [hmoment] at h htold hbegin
      simp only [Moment.finish, finish, Option.bind_eq_bind, Option.bind_eq_some_iff,
        Option.some.injEq] at h
      obtain ⟨final, hrest, hs'⟩ := h
      change s₁.rest trigger final = s' at hs'
      have hchart : s₁.chart = s.chart := hbegin.chart
      rw [hchart] at hrest
      have hfinal := Macrostep.toRest_collects _ _ hrest
      obtain ⟨more, hmore, hdiscreet'⟩ := hfinal.notices
      obtain ⟨carried, hnotices, hlogged⟩ := rest_notices s₁ trigger final
      have hepisodes : Moment.episodes budget (.under s₁ m trigger) =
          m.restEpisodes s.chart s₁.settings.maxEventlessSteps budget := by
        rw [Moment.episodes, hchart]
      rw [hepisodes, Moment.asked, ← hfinal.effects, ← hs']
      refine ⟨told ++ more, carried, ?_, fun hd => ?_, hlogged⟩
      · rw [hnotices, hmore, ← List.append_assoc, ← List.append_assoc, ← htold, Moment.told]
      · rw [List.filter_append, hdiscreet hd, hdiscreet' hd, List.append_nil]

end Session

/-! ## A doorbell -/

/-- A small chart with two transitions without targets.  For `ring` the same log is asked for twice
in a row, for `knock` there is another effect in between. -/
def doorbell : Blueprint Tally Unit :=
  { key := "house", kind := .compound, initial := some "door"
    children := [
      { key := "door", kind := .atomic
        on := [("ring", { actions := [.log "ding", .log "ding"] }),
          ("knock", { actions := [.log "knock", .keep, .log "knock"] })] }] }

/-- The doorbell before the start. -/
def doorbellSession : Session Tally Unit Memory := .new doorbell.outline.chart {}

lemma doorbell_build : doorbell.build = .ok doorbellSession.chart :=
  Blueprint.build_of_defects_eq_nil (by decide +kernel)

/-- At the door there are no remarks. -/
lemma discreet_doorbell : doorbellSession.chart.Discreet := by
  have hall : doorbell.Everywhere fun b => ∀ a ∈ b.actions, a.Discreet := by
    simp [doorbell, Blueprint.everywhere_mk, Blueprint.forall_actions_iff, Action.log, Action.keep,
      -Prod.forall]
  intro i n hn a ha
  obtain ⟨m, rfl, hm, -⟩ := Blueprint.exists_subtree hn
  rw [Outline.actions_node] at ha
  exact hall m.blueprint hm a ha

namespace Session

/-- Equal logs with another effect between them are both emitted. -/
theorem repeated_logs_are_dropped_knocking :
    ∃ s s', doorbellSession.call 9 .start = some s ∧
      s.call 9 (.send { name := "knock" }) = some s' ∧ s.chart.Discreet ∧
      askedIn s.chart (s.episodes 9 (.send { name := "knock" })) =
        [.log "knock", .keep, .log "knock"] ∧
      s'.notices.filter Notice.isLog =
        s.notices.filter Notice.isLog ++ [.logged "door" "knock", .logged "door" "knock"] := by
  have hrun : ((doorbellSession.call 9 .start).bind fun s =>
      (s.call 9 (.send { name := "knock" })).map fun s' =>
        (askedIn s.chart (s.episodes 9 (.send { name := "knock" })), s'.leafPath)) =
      some ([.log "knock", .keep, .log "knock"], "door") := by decide +kernel
  obtain ⟨s, hs, hknock⟩ := Option.bind_eq_some_iff.1 hrun
  obtain ⟨s', hs', hfacts⟩ := Option.map_eq_some_iff.1 hknock
  obtain ⟨hasked, hleaf⟩ := Prod.mk.inj hfacts
  have hchart : s.chart.Discreet := by
    rw [(Run.nil.snoc 9 .start hs).chart_eq]
    exact discreet_doorbell
  obtain ⟨⟨told, carried, hnotices, htold, hcarried⟩, -⟩ := repeated_logs_are_dropped hs'
  refine ⟨s, s', hs, hs', hchart, hasked, ?_⟩
  rw [hnotices, List.filter_append, List.filter_append, htold hchart, hcarried, hasked, hleaf]
  simp [freshLogs, Effect.log?]

/-- **Equal logs with nothing between them are emitted once**. -/
theorem doorbell_is_heard_once :
    doorbell.build = .ok doorbellSession.chart ∧
    ∃ s s', doorbellSession.call 9 .start = some s ∧
      s.call 9 (.send { name := "ring" }) = some s' ∧
      askedIn s.chart (s.episodes 9 (.send { name := "ring" })) = [.log "ding", .log "ding"] ∧
      s.notices = [] ∧ s'.notices = [.logged "door" "ding"] := by
  have hrun : ((doorbellSession.call 9 .start).bind fun s =>
      (s.call 9 (.send { name := "ring" })).map fun s' =>
        (askedIn s.chart (s.episodes 9 (.send { name := "ring" })), s.notices, s'.notices)) =
      some ([.log "ding", .log "ding"], [], [.logged "door" "ding"]) := by decide +kernel
  obtain ⟨s, hs, hring⟩ := Option.bind_eq_some_iff.1 hrun
  obtain ⟨s', hs', hfacts⟩ := Option.map_eq_some_iff.1 hring
  simp only [Prod.mk.injEq] at hfacts
  exact ⟨doorbell_build, s, s', hs, hs', hfacts⟩

end Session

end FormChart
