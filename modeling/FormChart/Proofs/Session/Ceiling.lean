import FormChart.Proofs.Session.Runs

/-!
# What the ceiling bounds

A macrostep decides again and again: it takes an automatic transition (`Decision.automatic`) or
turns to the oldest raised event (`Decision.raised`), until it is at rest.  The ceiling bounds the
automatic transitions **between two turns to the queue**, and that is all it bounds:

* No more automatic transitions follow one another than the ceiling allows, unless an event is
  taken from the queue between them (`Session.send_within_ceiling`).  An event that nothing is
  taken for counts as well, so the transitions around it may still follow one another directly.
* A macrostep ends exactly if only so many events are taken from the queue, and then the number of
  decisions is bounded by the number of these events and the ceiling.  Automatic transitions that
  raise an event each keep it from ending, though nobody listens for these events
  (`settling_unbounded`).

The invariant is `Paced`: what is left of the ceiling, along the decisions that are still to come.
-/

namespace FormChart

variable {C Env S : Type}

/-- What a decision does. -/
inductive Decision where
  /-- Takes an automatic transition. -/
  | automatic
  /-- Takes an event from the queue, and a transition for it if there is one. -/
  | raised (event : Event) (isTaken : Bool)
  deriving DecidableEq

namespace Decision

/-- Whether a decision turns to the queue. -/
def isRaised : Decision → Bool
  | .automatic => false
  | .raised _ _ => true

/-- The event of the transition that a decision takes, if it takes one. -/
def record? : Decision → Option String
  | .automatic => some Event.eventless.name
  | .raised event isTaken => if isTaken then some event.name else none

end Decision

/-- Whether no row of automatic transitions is longer than a ceiling, when a row of a certain length
is under way. -/
def Paced (ceiling : Nat) : Nat → List Decision → Prop
  | _, [] => True
  | streak, .automatic :: rest => streak < ceiling ∧ Paced ceiling (streak + 1) rest
  | _, .raised _ _ :: rest => Paced ceiling 0 rest

namespace Paced

variable {ceiling streak : Nat} {decisions : List Decision}

/-- What comes later is paced too. -/
lemma drop {before : List Decision} (h : Paced ceiling streak (before ++ decisions)) :
    ∃ streak, Paced ceiling streak decisions := by
  induction before generalizing streak with
  | nil => exact ⟨streak, h⟩
  | cons d before ih =>
      cases d with
      | automatic => exact ih h.2
      | raised event isTaken => exact ih h

/-- A row at the beginning stays below the ceiling. -/
lemma length_row {row after : List Decision} (h : Paced ceiling streak (row ++ after))
    (hrow : ∀ d ∈ row, d = .automatic) : row.length ≤ ceiling - streak := by
  induction row generalizing streak with
  | nil => exact Nat.zero_le _
  | cons d row ih =>
      obtain rfl := hrow d List.mem_cons_self
      have hrest := ih h.2 fun d hd => hrow d (List.mem_cons_of_mem _ hd)
      have hlt := h.1
      rw [List.length_cons]
      omega

/-- **No row is longer than the ceiling.** -/
lemma length_row_le {before row after : List Decision}
    (h : Paced ceiling streak (before ++ row ++ after)) (hrow : ∀ d ∈ row, d = .automatic) :
    row.length ≤ ceiling := by
  rw [List.append_assoc] at h
  obtain ⟨streak, hrest⟩ := h.drop
  exact Nat.le_trans (hrest.length_row hrow) (Nat.sub_le _ _)

/-- Every turn to the queue makes room for one more row. -/
lemma length_le (h : Paced ceiling streak decisions) (hstreak : streak ≤ ceiling) :
    streak + decisions.length ≤
      (decisions.countP Decision.isRaised + 1) * ceiling + decisions.countP Decision.isRaised := by
  induction decisions generalizing streak with
  | nil => simpa using hstreak
  | cons d rest ih =>
      cases d with
      | automatic =>
          have hrest := ih h.2 h.1
          rw [List.countP_cons_of_neg (by simp [Decision.isRaised]), List.length_cons]
          omega
      | raised event isTaken =>
          have hrest := ih h (Nat.zero_le _)
          rw [List.countP_cons_of_pos rfl, List.length_cons, Nat.add_mul _ 1, Nat.one_mul]
          omega

/-- So a bound on the turns bounds the number of decisions. -/
lemma length_lt (h : Paced ceiling streak decisions) (hstreak : streak ≤ ceiling) {turns : Nat}
    (hturns : decisions.countP Decision.isRaised ≤ turns) :
    decisions.length < (turns + 1) * (ceiling + 1) := by
  have hlength := h.length_le hstreak
  have hrows := Nat.mul_le_mul_right ceiling (Nat.add_le_add_right hturns 1)
  rw [Nat.mul_add, Nat.mul_one]
  omega

end Paced

/-- The events of the transitions that were taken, the oldest first. -/
def Machine.events (m : Machine C Env) : List String := m.history.visits.map Visit.event

namespace Macrostep

variable [Model C]

/-- The next decision; none if the machine is at rest. -/
def decision? (chart : Chart C Env) (ceiling : Nat) (m : Macrostep C Env) : Option Decision :=
  if m.streak ≠ ceiling ∧ (m.handle? chart .eventless).isSome then some .automatic
  else
    match m.raised with
    | [] => none
    | event :: _ => some (.raised event (m.handle? chart event).isSome)

/-- The next decisions, at most a number of them. -/
def decisions (chart : Chart C Env) (ceiling : Nat) : Nat → Macrostep C Env → List Decision
  | 0, _ => []
  | n + 1, m =>
    match m.next chart ceiling with
    | .running m' => (m.decision? chart ceiling).toList ++ decisions chart ceiling n m'
    | .atRest _ => []

/-! ## What a transition adds to the macrostep -/

section Parts

variable (chart : Chart C Env) (event : Event) (m : Macrostep C Env)

lemma performAll_streak (actions : List (Action C)) :
    (m.performAll chart event actions).streak = m.streak := by
  have hwrite : ∀ (k : Macrostep C Env) (patch : Patch) (mode : MergeMode),
      (k.write chart patch mode).streak = k.streak := by
    intro k patch mode
    unfold write
    split <;> rfl
  unfold performAll
  induction actions generalizing m with
  | nil => rfl
  | cons a rest ih =>
      rw [List.foldl_cons, ih]
      cases a with
      | assign patch remarks => exact hwrite _ _ _
      | forward => exact hwrite _ _ _
      | raise name => rfl
      | effect e => rfl

lemma performAll_history (actions : List (Action C)) :
    (m.performAll chart event actions).machine.history = m.machine.history := by
  obtain ⟨context, h⟩ := performAll_machine chart event m actions
  rw [h]

lemma move_aside (part : Move C) :
    (m.move chart event part).streak = m.streak ∧
      (m.move chart event part).machine.history = m.machine.history := by
  cases part with
  | leave i =>
      rw [move]
      cases chart.node? i with
      | none => exact ⟨rfl, rfl⟩
      | some n =>
          rw [Option.elim_some, leave]
          cases n.invoke <;>
            exact ⟨performAll_streak chart event m _, performAll_history chart event m _⟩
  | act actions =>
      exact ⟨performAll_streak chart event m actions, performAll_history chart event m actions⟩
  | arrive i =>
      rw [move]
      cases chart.node? i with
      | none => exact ⟨rfl, rfl⟩
      | some n =>
          rw [Option.elim_some, arrive, report, invoke]
          cases n.invoke <;> split <;>
            exact ⟨performAll_streak chart event m _, performAll_history chart event m _⟩

lemma foldl_move_aside (plan : List (Move C)) :
    (plan.foldl (move chart event) m).streak = m.streak ∧
      (plan.foldl (move chart event) m).machine.history = m.machine.history := by
  induction plan generalizing m with
  | nil => exact ⟨rfl, rfl⟩
  | cons part rest ih =>
      obtain ⟨hstreak, hhistory⟩ := move_aside chart event m part
      rw [List.foldl_cons, ← hstreak, ← hhistory]
      exact ih _

/-- A plan is recorded by the leaves before and after it. -/
lemma take_visits (plan : List (Move C)) :
    (m.take chart event plan).machine.history.visits = m.machine.history.visits ++
      [⟨m.machine.leafPath chart, (m.take chart event plan).machine.leafPath chart, event.name,
        (m.take chart event plan).machine.clock⟩] := by
  rw [← (foldl_move_aside chart event m plan).2]
  rfl

/-- A transition makes one record, and is no part of a row by itself. -/
lemma take_aside (plan : List (Move C)) :
    (m.take chart event plan).streak = m.streak ∧
      (m.take chart event plan).machine.events = m.machine.events ++ [event.name] := by
  refine ⟨(foldl_move_aside chart event m plan).1, ?_⟩
  rw [Machine.events, take_visits, List.map_append]
  rfl

lemma handle?_aside {m m' : Macrostep C Env} (h : m.handle? chart event = some m') :
    m'.streak = m.streak ∧ m'.machine.events = m.machine.events ++ [event.name] := by
  obtain ⟨leaf, t, -, -, rfl, -⟩ := handle?_cases h
  exact take_aside chart event m _

omit m in
/-- Whether an event is taken depends on the machine only. -/
lemma isSome_handle?_congr {k m : Macrostep C Env} (h : k.machine = m.machine) :
    (k.handle? chart event).isSome = (m.handle? chart event).isSome := by
  simp only [handle?_eq, Option.isSome_map, taken?, h]

end Parts

/-! ## Decisions -/

variable (chart : Chart C Env) (ceiling : Nat)

/-- **What a decision does**: it takes an automatic transition below the ceiling, or an event from
the queue, or it ends the macrostep. -/
lemma decision_cases (m : Macrostep C Env) :
    (∃ m', m.next chart ceiling = .running m' ∧ m.decision? chart ceiling = some .automatic ∧
      m.streak ≠ ceiling ∧ m'.streak = m.streak + 1 ∧
      m'.machine.events = m.machine.events ++ [Event.eventless.name]) ∨
    (∃ m' event isTaken, m.next chart ceiling = .running m' ∧
      m.decision? chart ceiling = some (.raised event isTaken) ∧ m'.streak = 0 ∧
      m'.machine.events =
        m.machine.events ++ (Decision.raised event isTaken).record?.toList) ∨
    (∃ m', m.next chart ceiling = .atRest m' ∧ m'.machine = m.machine) := by
  have hdequeue : ∀ notices,
      ¬(m.streak ≠ ceiling ∧ (m.handle? chart .eventless).isSome) →
      m.next chart ceiling = (m.tell notices).dequeue chart →
      (∃ m' event isTaken, m.next chart ceiling = .running m' ∧
        m.decision? chart ceiling = some (.raised event isTaken) ∧ m'.streak = 0 ∧
        m'.machine.events =
          m.machine.events ++ (Decision.raised event isTaken).record?.toList) ∨
      (∃ m', m.next chart ceiling = .atRest m' ∧ m'.machine = m.machine) := by
    intro notices hnot hnext
    rw [hnext, dequeue, decision?, if_neg hnot, tell]
    cases m.raised with
    | nil => exact .inr ⟨_, rfl, rfl⟩
    | cons event rest =>
        set k : Macrostep C Env :=
          { m with raised := rest, notices := m.notices ++ notices, streak := 0 }
        refine .inl ⟨_, event, _, rfl, rfl, ?_⟩
        have hsame := isSome_handle?_congr chart event (show k.machine = m.machine from rfl)
        cases hhandle : k.handle? chart event with
        | none =>
            rw [hhandle] at hsame
            exact ⟨rfl, by simp [← hsame, Decision.record?]⟩
        | some taken =>
            obtain ⟨hstreak, hevents⟩ := handle?_aside chart event hhandle
            rw [hhandle] at hsame
            exact ⟨hstreak, by simp [← hsame, Decision.record?, hevents, k]⟩
  rcases Nat.decEq m.streak ceiling with hne | heq
  · cases hhandle : m.handle? chart .eventless with
    | none =>
        refine .inr (hdequeue [] (by simp [hhandle]) ?_)
        rw [next, if_neg hne, hhandle]
        simp [tell]
    | some taken =>
        obtain ⟨-, hevents⟩ := handle?_aside chart .eventless hhandle
        refine .inl ⟨{ taken with streak := m.streak + 1 }, ?_, ?_, hne, rfl, hevents⟩
        · rw [next, if_neg hne, hhandle]
        · rw [decision?, hhandle, if_pos ⟨hne, rfl⟩]
  · refine .inr (hdequeue [.unsettled (m.machine.leafPath chart) ceiling] (fun h => h.1 heq) ?_)
    rw [next, if_pos heq]

/-- The decisions of a macrostep are paced from where its row stands. -/
lemma paced_decisions (n : Nat) {m : Macrostep C Env} (hstreak : m.streak ≤ ceiling) :
    Paced ceiling m.streak (m.decisions chart ceiling n) := by
  induction n generalizing m with
  | zero => trivial
  | succ n ih =>
      rw [decisions]
      rcases decision_cases chart ceiling m with
        ⟨m', hnext, hdecision, hne, hstreak', -⟩ |
        ⟨m', event, isTaken, hnext, hdecision, hstreak', -⟩ |
        ⟨m', hnext, -⟩
      · have hlt : m.streak < ceiling := Nat.lt_of_le_of_ne hstreak hne
        have hrest := ih (m := m') (hstreak' ▸ hlt)
        rw [hstreak'] at hrest
        rw [hnext, hdecision]
        exact ⟨hlt, hrest⟩
      · have hrest := ih (m := m') (hstreak' ▸ Nat.zero_le _)
        rw [hstreak'] at hrest
        rw [hnext, hdecision]
        exact hrest
      · rw [hnext]
        trivial

/-- A macrostep that makes fewer decisions than it might comes to rest. -/
lemma exists_toRest_of_decisions {n : Nat} {m : Macrostep C Env}
    (h : (m.decisions chart ceiling n).length < n) :
    ∃ final, m.toRest chart ceiling n = some final := by
  induction n generalizing m with
  | zero => cases h
  | succ n ih =>
      have hgoes : ∀ m' d, m.next chart ceiling = .running m' →
          m.decision? chart ceiling = some d →
          ∃ final, m.toRest chart ceiling (n + 1) = some final := by
        intro m' d hnext hdecision
        simp only [decisions, hnext, hdecision, Option.toList_some, List.singleton_append,
          List.length_cons] at h
        rw [toRest, hnext]
        exact ih (Nat.lt_of_succ_lt_succ h)
      rcases decision_cases chart ceiling m with
        ⟨m', hnext, hdecision, -⟩ | ⟨m', event, isTaken, hnext, hdecision, -⟩ | ⟨m', hnext, -⟩
      · exact hgoes m' _ hnext hdecision
      · exact hgoes m' _ hnext hdecision
      · exact ⟨m', by rw [toRest, hnext]⟩

/-- **A macrostep that comes to rest** makes fewer decisions than its budget, however long one waits
for more, and what it has taken is recorded. -/
lemma decisions_of_toRest {budget : Nat} {m final : Macrostep C Env}
    (h : m.toRest chart ceiling budget = some final) :
    (∀ n, (m.decisions chart ceiling n).length < budget) ∧
      final.machine.events =
        m.machine.events ++ (m.decisions chart ceiling budget).filterMap Decision.record? := by
  induction budget generalizing m with
  | zero => cases h
  | succ budget ih =>
      have hgoes : ∀ m' d, m.next chart ceiling = .running m' →
          m.decision? chart ceiling = some d →
          m'.machine.events = m.machine.events ++ d.record?.toList →
          (∀ n, (m.decisions chart ceiling n).length < budget + 1) ∧
            final.machine.events = m.machine.events ++
              (m.decisions chart ceiling (budget + 1)).filterMap Decision.record? := by
        intro m' d hnext hdecision hevents
        rw [toRest, hnext] at h
        obtain ⟨hlength, hrest⟩ := ih h
        refine ⟨fun n => ?_, ?_⟩
        · cases n with
          | zero => exact Nat.succ_pos _
          | succ n =>
              simp only [decisions, hnext, hdecision, Option.toList_some, List.singleton_append,
                List.length_cons]
              exact Nat.succ_lt_succ (hlength n)
        · rw [hrest, hevents, decisions, hnext, hdecision]
          cases hentry : d.record? <;> simp [hentry]
      rcases decision_cases chart ceiling m with
        ⟨m', hnext, hdecision, -, -, hevents⟩ | ⟨m', event, isTaken, hnext, hdecision, -, hevents⟩ |
        ⟨m', hnext, hmachine⟩
      · exact hgoes m' .automatic hnext hdecision hevents
      · exact hgoes m' _ hnext hdecision hevents
      · rw [toRest, hnext] at h
        cases h
        refine ⟨fun n => ?_, by simp [decisions, hnext, hmachine]⟩
        cases n with
        | zero => exact Nat.succ_pos _
        | succ n => simp [decisions, hnext]

end Macrostep

/-! ## Events -/

namespace Session

variable [Model C] [Storage S]

/-- The decisions after the transition that an event takes, at most a number of them. -/
def decisions (s : Session C Env S) (event : Event) (n : Nat) : List Decision :=
  ((Macrostep.handle? s.chart event { machine := s.machine }).map
    (·.decisions s.chart s.settings.maxEventlessSteps n)).getD []

/-- **The ceiling bounds what happens between two turns to the queue**, for any session and any
event.

* No row of automatic transitions is longer.
* If only so many events are taken from the queue, the call returns, after a number of decisions
  that these and the ceiling bound.
* A call that returns has taken only so many, and the decisions were all of its transitions, after
  that for the event itself. -/
theorem send_within_ceiling (s : Session C Env S) (event : Event) :
    (∀ n before row after, s.decisions event n = before ++ row ++ after →
      (∀ d ∈ row, d = .automatic) → row.length ≤ s.settings.maxEventlessSteps) ∧
    (∀ turns, (∀ n, (s.decisions event n).countP Decision.isRaised ≤ turns) →
      ∃ s', s.send ((turns + 1) * (s.settings.maxEventlessSteps + 1)) event = some s') ∧
    ∀ budget s', s.send budget event = some s' →
      (∀ n, (s.decisions event n).length ≤ budget) ∧
      s'.machine.events = s.machine.events ++
        if (Macrostep.handle? s.chart event { machine := s.machine }).isSome then
          event.name :: (s.decisions event budget).filterMap Decision.record?
        else [] := by
  set ceiling := s.settings.maxEventlessSteps with hceiling
  cases hhandle : Macrostep.handle? s.chart event { machine := s.machine } with
  | none =>
      have hnothing : ∀ n, s.decisions event n = [] := fun n => by simp [decisions, hhandle]
      have hsend : ∀ budget, ∃ s', s.send budget event = some s' ∧ s'.machine = s.machine := by
        intro budget
        by_cases hstarted : s.isStarted
        · exact ⟨s, by simp [send, hstarted, hhandle], rfl⟩
        · exact ⟨s.tell [.notStarted event.name], by simp [send, hstarted], rfl⟩
      refine ⟨fun n before row after h _ => ?_, fun turns _ => ?_, fun budget s' h => ?_⟩
      · rw [hnothing, List.append_assoc, List.nil_eq_append_iff, List.append_eq_nil_iff] at h
        simp [h.2.1]
      · obtain ⟨s', h, -⟩ := hsend ((turns + 1) * (ceiling + 1))
        exact ⟨s', h⟩
      · obtain ⟨s'', h', hmachine⟩ := hsend budget
        obtain rfl := Option.some.inj (h.symm.trans h')
        exact ⟨fun n => by simp [hnothing], by simp [hmachine]⟩
  | some m =>
      obtain ⟨hstreak, hevents⟩ := Macrostep.handle?_aside s.chart event hhandle
      have hdecisions : ∀ n, s.decisions event n = m.decisions s.chart ceiling n := fun n => by
        simp [decisions, hhandle, hceiling]
      have hpaced : ∀ n, Paced ceiling m.streak (m.decisions s.chart ceiling n) := fun n =>
        Macrostep.paced_decisions s.chart ceiling n (hstreak ▸ Nat.zero_le _)
      obtain ⟨leaf, t, hleaf, -⟩ := Macrostep.handle?_cases hhandle
      have hsend : ∀ budget, s.send budget event = s.finish budget m event := fun budget => by
        simp [send, isStarted, show s.machine.leaf = some leaf from hleaf, hhandle]
      refine ⟨fun n before row after h hrow => ?_, fun turns hturns => ?_, fun budget s' h => ?_⟩
      · have hrows := hpaced n
        rw [← hdecisions, h] at hrows
        exact hrows.length_row_le hrow
      · -- every turn makes room for one row and itself, and one decision is left to see the end
        set enough := (turns + 1) * (ceiling + 1)
        have hfew : (m.decisions s.chart ceiling enough).length < enough :=
          (hpaced enough).length_lt (hstreak ▸ Nat.zero_le _) (hdecisions enough ▸ hturns enough)
        obtain ⟨final, hfinal⟩ := Macrostep.exists_toRest_of_decisions s.chart ceiling hfew
        exact ⟨s.rest event final, by rw [hsend, finish, hfinal]; rfl⟩
      · rw [hsend, finish, Option.bind_eq_bind, Option.bind_eq_some_iff] at h
        obtain ⟨final, hfinal, hs'⟩ := h
        obtain rfl : s.rest event final = s' := Option.some.inj hs'
        obtain ⟨hlength, htaken⟩ := Macrostep.decisions_of_toRest s.chart ceiling hfinal
        refine ⟨fun n => hdecisions n ▸ Nat.le_of_lt (hlength n), ?_⟩
        rw [rest_machine, htaken, hevents, hdecisions, Option.isSome_some, if_pos rfl,
          List.append_assoc, List.singleton_append]

end Session

/-! ## What the ceiling does not bound -/

/-- A small chart: one automatic transition after another, and in between an event is raised for
which there is no transition. -/
def relay : Blueprint Tally Unit :=
  { key := "relay", kind := .compound, initial := some "idle"
    children := [
      { key := "idle", kind := .atomic, on := [("go", .goto "first")] },
      { key := "first", kind := .atomic, on := [(Event.eventless.name, .goto "second")] },
      { key := "second", kind := .atomic, entry := [.raise "ping"],
        on := [(Event.eventless.name, .goto "third")] },
      { key := "third", kind := .atomic }] }

/-- A small chart: after `push` there is a cycle of two automatic transitions, and each of them
raises an event for which there is no transition. -/
def wheel : Blueprint Tally Unit :=
  { key := "wheel", kind := .compound, initial := some "still"
    children := [
      { key := "still", kind := .atomic, on := [("push", .goto "left")] },
      { key := "left", kind := .atomic, entry := [.raise "creak"],
        on := [(Event.eventless.name, .goto "right")] },
      { key := "right", kind := .atomic, entry := [.raise "creak"],
        on := [(Event.eventless.name, .goto "left")] }] }

/-- The relay before its start, with a ceiling of one. -/
def relaySession : Session Tally Unit Memory :=
  { Session.new relay.outline.chart {} with settings := { maxEventlessSteps := 1 } }

/-- The wheel before its start, with a ceiling of one. -/
def wheelSession : Session Tally Unit Memory :=
  { Session.new wheel.outline.chart {} with settings := { maxEventlessSteps := 1 } }

section Wheel

/-- Whether a macrostep is in the cycle of the wheel, with only ignored events in the queue. -/
structure Turning (m : Macrostep Tally Unit) : Prop where
  leaf : m.machine.leaf = some 2 ∨ m.machine.leaf = some 3
  raised : ∀ event ∈ m.raised, event = { name := "creak" }
  /-- The last automatic transition of a row has raised an event. -/
  queue : m.streak = 0 ∨ m.raised ≠ []

variable {m : Macrostep Tally Unit}

/-- An automatic transition leads to the other node of the cycle, and raises an event. -/
lemma handle?_wheel (hleaf : m.machine.leaf = some 2 ∨ m.machine.leaf = some 3) :
    ∃ m', m.handle? wheelSession.chart .eventless = some m' ∧
      (m'.machine.leaf = some 2 ∨ m'.machine.leaf = some 3) ∧
      m'.raised = m.raised ++ [{ name := "creak" }] := by
  have hleft : ∀ context, wheelSession.chart.choose? 2 context Event.eventless.name =
      some { target := some 3, guard := none, actions := [], isInternal := false } :=
    fun _ => rfl
  have hright : ∀ context, wheelSession.chart.choose? 3 context Event.eventless.name =
      some { target := some 2, guard := none, actions := [], isInternal := false } :=
    fun _ => rfl
  rcases hleaf with hleaf | hleaf
  · simp only [Macrostep.handle?, hleaf, hleft, Option.bind_eq_bind, Option.bind_some]
    exact ⟨_, rfl, .inr rfl, rfl⟩
  · simp only [Macrostep.handle?, hleaf, hright, Option.bind_eq_bind, Option.bind_some]
    exact ⟨_, rfl, .inl rfl, rfl⟩

/-- An event that is taken from the queue is ignored. -/
lemma dequeue_wheel (h : Turning m) (hqueue : m.raised ≠ []) :
    ∃ m', m.dequeue wheelSession.chart = .running m' ∧ Turning m' := by
  obtain ⟨event, rest, hraised⟩ := List.exists_cons_of_ne_nil hqueue
  have hcreaks := h.raised
  rw [hraised] at hcreaks
  obtain rfl := hcreaks event List.mem_cons_self
  have hignored : ∀ context, wheelSession.chart.choose? 2 context "creak" = none ∧
      wheelSession.chart.choose? 3 context "creak" = none := fun _ => ⟨rfl, rfl⟩
  set k : Macrostep Tally Unit := { m with raised := rest, streak := 0 }
  have hnone : k.handle? wheelSession.chart { name := "creak" } = none := by
    have hleaf : k.machine.leaf = some 2 ∨ k.machine.leaf = some 3 := h.leaf
    rcases hleaf with hleaf | hleaf <;>
      simp only [Macrostep.handle?, hleaf, hignored, Option.bind_eq_bind, Option.bind_some,
        Option.bind_none]
  refine ⟨k, ?_, h.leaf, fun e he => hcreaks e (List.mem_cons_of_mem _ he), .inl rfl⟩
  simp only [Macrostep.dequeue, hraised, hnone, Option.getD_none, k]

/-- The cycle does not come to rest, whatever the budget and any ceiling but zero. -/
lemma toRest_wheel {ceiling : Nat} (hceiling : ceiling ≠ 0) (budget : Nat) (h : Turning m) :
    m.toRest wheelSession.chart ceiling budget = none := by
  induction budget generalizing m with
  | zero => rfl
  | succ budget ih =>
      have hnext : ∃ m', m.next wheelSession.chart ceiling = .running m' ∧ Turning m' := by
        unfold Macrostep.next
        split
        next hrow =>
            exact dequeue_wheel ⟨h.leaf, h.raised, h.queue⟩
              (h.queue.resolve_left fun hzero => hceiling (hrow ▸ hzero))
        next =>
            obtain ⟨m', hhandle, hleaf, hraised⟩ := handle?_wheel h.leaf
            rw [hhandle]
            refine ⟨_, rfl, hleaf, fun event hevent => ?_, .inr (by simp [hraised])⟩
            rw [hraised] at hevent
            exact (List.mem_append.1 hevent).elim (h.raised event) List.mem_singleton.1
      obtain ⟨m', hnext, hturning⟩ := hnext
      rw [Macrostep.toRest, hnext]
      exact ih hturning

end Wheel

/-- **The ceiling does not bound the transitions themselves.**  An event that is taken from the
queue begins a new row, also if no transition is taken for it.  So with a ceiling of one the relay
takes two automatic transitions directly after one another, and the wheel never comes to rest. -/
theorem settling_unbounded :
    relay.build = .ok relaySession.chart ∧ relaySession.settings.maxEventlessSteps = 1 ∧
    (∃ s s', relaySession.call 9 .start = some s ∧ s.send 9 { name := "go" } = some s' ∧
      s'.machine.events = ["init", "go", Event.eventless.name, Event.eventless.name]) ∧
    wheel.build = .ok wheelSession.chart ∧ wheelSession.settings.maxEventlessSteps = 1 ∧
    ∃ s, wheelSession.call 9 .start = some s ∧
      ∀ budget, s.send budget { name := "push" } = none := by
  have hrelay : relay.build = .ok relaySession.chart :=
    Blueprint.build_of_defects_eq_nil (by decide +kernel)
  have hwheel : wheel.build = .ok wheelSession.chart :=
    Blueprint.build_of_defects_eq_nil (by decide +kernel)
  have hgo : ((relaySession.call 9 .start).bind (·.send 9 { name := "go" })).map
      (·.machine.events) = some ["init", "go", "", ""] := by decide +kernel
  obtain ⟨s', hs', hevents⟩ := Option.map_eq_some_iff.1 hgo
  obtain ⟨s, hs, hsend⟩ := Option.bind_eq_some_iff.1 hs'
  refine ⟨hrelay, rfl, ⟨s, s', hs, hsend, hevents⟩, hwheel, rfl, ?_⟩
  have hstill : (wheelSession.call 9 .start).map (fun w =>
      (w.machine.leaf, w.settings.maxEventlessSteps)) = some (some 1, 1) := by decide +kernel
  obtain ⟨w, hw, hfacts⟩ := Option.map_eq_some_iff.1 hstill
  obtain ⟨hleaf, hceiling⟩ := Prod.mk.inj hfacts
  refine ⟨w, hw, fun budget => ?_⟩
  have hchart : w.chart = wheelSession.chart := (Run.nil.snoc 9 .start hw).chart_eq
  have hpush : ∀ context, wheelSession.chart.choose? 1 context "push" =
      some { target := some 2, guard := none, actions := [], isInternal := false } :=
    fun _ => rfl
  obtain ⟨m, hhandle, hturning⟩ : ∃ m,
      Macrostep.handle? wheelSession.chart { name := "push" } { machine := w.machine } = some m ∧
        Turning m := by
    simp only [Macrostep.handle?, hleaf, hpush, Option.bind_eq_bind, Option.bind_some]
    exact ⟨_, rfl, .inl rfl, fun event hevent => List.mem_singleton.1 hevent, .inl rfl⟩
  have hrest := toRest_wheel (hceiling ▸ Nat.one_ne_zero) budget hturning
  simp [Session.send, Session.isStarted, hleaf, hchart, hhandle, Session.finish, hrest]

end FormChart
