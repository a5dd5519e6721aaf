import FormChart.Proofs.Session.Effects

/-!
# Runs

A run is a list of calls that all return, seen from outside: `Run s₀ calls s` says that it leads
from `s₀` to `s`.  Runs are journeys (`Run.journey`), so what is invariant along journeys holds at
the end of every run.

The context of a machine is changed by patches and by nothing else.  So **what every patch preserves
is preserved by every journey** (`Journey.preserves`).

What a run leaves in the slot **goes back to one of its calls** (`Run.kept_cases`): to the context
at rest after that call, and to the payload of the event that it has set off.
-/

namespace FormChart

/-- The fields that come with the event of a call. -/
def Call.payload : Call → Patch
  | .send event => event.payload
  | .deliver settlement => (Event.ofOutcome "" settlement.outcome).payload
  | .start | .startAt _ | .handOut | .wait _ => Event.init.payload

/-- The payload of an outcome does not depend on whose it is. -/
lemma payload_ofOutcome (id : String) (outcome : Outcome) :
    (Event.ofOutcome id outcome).payload = (Event.ofOutcome "" outcome).payload := by
  cases outcome <;> rfl

variable {C Env S : Type} [Model C]

/-! ## What patches preserve -/

/-- Whether a property of contexts is preserved by every patch that can be applied. -/
def Preserved (Q : C → Prop) : Prop :=
  ∀ (c c' : C) (patch : Patch) (mode : MergeMode), Q c → apply c patch mode = .ok c' → Q c'

namespace Preserved

variable {Q : C → Prop} (hQ : Preserved Q) (chart : Chart C Env) (event : Event)

include hQ

lemma write {m : Macrostep C Env} (h : Q m.machine.context) (patch : Patch) (mode : MergeMode) :
    Q (m.write chart patch mode).machine.context := by
  unfold Macrostep.write
  cases happly : apply m.machine.context patch mode with
  | ok next => exact hQ _ _ _ _ h happly
  | error cause => exact h

lemma perform {m : Macrostep C Env} (h : Q m.machine.context) (action : Action C) :
    Q (m.perform chart event action).machine.context := by
  cases action with
  | assign patch remarks =>
      have htold : Q (m.tell (remarks m.machine.context event)).machine.context := h
      exact hQ.write chart htold _ _
  | forward => exact hQ.write chart h _ _
  | raise name => exact h
  | effect e => exact h

lemma performAll {m : Macrostep C Env} (h : Q m.machine.context) (actions : List (Action C)) :
    Q (m.performAll chart event actions).machine.context := by
  unfold Macrostep.performAll
  induction actions generalizing m with
  | nil => exact h
  | cons action rest ih => exact ih (hQ.perform chart event h action)

/-- Leaving and entering nodes runs their actions; invocations and reports leave the context
alone. -/
lemma move {m : Macrostep C Env} (h : Q m.machine.context) (part : Move C) :
    Q (m.move chart event part).machine.context := by
  cases part with
  | leave i =>
      rw [Macrostep.move]
      cases chart.node? i with
      | none => exact h
      | some n =>
          have hexit := hQ.performAll chart event h n.exit
          rw [Option.elim_some, Macrostep.leave]
          cases n.invoke <;> exact hexit
  | act actions => exact hQ.performAll chart event h actions
  | arrive i =>
      rw [Macrostep.move]
      cases chart.node? i with
      | none => exact h
      | some n =>
          have hentry := hQ.performAll chart event h n.entry
          rw [Option.elim_some, Macrostep.arrive, Macrostep.report]
          rw [Macrostep.invoke]
          cases n.invoke <;> split <;> exact hentry

lemma take {m : Macrostep C Env} (h : Q m.machine.context) (plan : List (Move C)) :
    Q (m.take chart event plan).machine.context := by
  change Q (plan.foldl (Macrostep.move chart event) m).machine.context
  induction plan generalizing m with
  | nil => exact h
  | cons part rest ih => exact ih (hQ.move chart event h part)

lemma sustained (permits : List (Episode C) → Call → Prop) :
    Sustained permits chart fun _ machine => Q machine.context where
  entry _ machine target h _ _ := hQ.take chart .init (m := { machine }) h (chart.firstMoves target)
  transition _ _ event leaf t h _ _ := hQ.take chart event h (chart.moves leaf t)
  claim _ _ _ _ _ h _ _ := h
  handOut _ _ h := h
  wait _ _ _ h := h

end Preserved

variable [Storage S]

/-- **What every patch preserves** holds of the context all along a journey. -/
theorem Journey.preserves {permits : List (Episode C) → Call → Prop} {s₀ : Session C Env S}
    {episodes : List (Episode C)} {moment : Moment C Env S} {Q : C → Prop} (hQ : Preserved Q)
    (init : Q s₀.machine.context) (run : Journey permits s₀ episodes moment) :
    Q moment.machine.context :=
  (run.invariant (hQ.sustained s₀.chart permits) init).2

/-! ## Calls -/

namespace Session

/-- The macrostep that an event sets off, at rest; none if no transition is taken for the event, or
the budget does not suffice. -/
def macrostep? (s : Session C Env S) (budget : Nat) (event : Event) : Option (Macrostep C Env) := do
  let m ← Macrostep.handle? s.chart event { machine := s.machine }
  m.toRest s.chart s.settings.maxEventlessSteps budget

omit [Storage S] in
lemma isStarted_of_macrostep? {s : Session C Env S} {budget : Nat} {event : Event}
    {m : Macrostep C Env} (h : s.macrostep? budget event = some m) : s.isStarted = true := by
  simp only [macrostep?, Option.bind_eq_bind, Option.bind_eq_some_iff] at h
  obtain ⟨taken, hhandle, -⟩ := h
  obtain ⟨leaf, t, hleaf, -⟩ := Macrostep.handle?_cases hhandle
  rw [isStarted, show s.machine.leaf = some leaf from hleaf]
  rfl

/-- An event that is taken ends with its macrostep at rest. -/
lemma send_of_macrostep? {s : Session C Env S} {budget : Nat} {event : Event} {m : Macrostep C Env}
    (h : s.macrostep? budget event = some m) : s.send budget event = some (s.rest event m) := by
  have hstarted := isStarted_of_macrostep? h
  simp only [macrostep?, Option.bind_eq_bind, Option.bind_eq_some_iff] at h
  obtain ⟨taken, hhandle, hrest⟩ := h
  simp [send, hstarted, hhandle, finish, hrest, rest]

/-- An event that is not taken changes nothing but the notices. -/
lemma send_cases {s s' : Session C Env S} {budget : Nat} {event : Event}
    (h : s.send budget event = some s') :
    (s'.slot = s.slot ∧ s'.machine = s.machine) ∨
      ∃ m, s.macrostep? budget event = some m ∧ s' = s.rest event m := by
  unfold send at h
  split at h
  next =>
      cases h
      exact .inl ⟨rfl, rfl⟩
  next hstarted =>
      dsimp only at h
      cases hhandle : Macrostep.handle? s.chart event { machine := s.machine } with
      | none =>
          rw [hhandle] at h
          cases h
          exact .inl ⟨rfl, rfl⟩
      | some taken =>
          rw [hhandle] at h
          simp only [finish, Option.bind_eq_bind, Option.bind_eq_some_iff,
            Option.some.injEq] at h
          obtain ⟨m, hrest, rfl⟩ := h
          exact .inr ⟨m, by simp [macrostep?, hhandle, hrest], rfl⟩

/-- **What a call can do to the slot**: leave it alone, or carry out the effects of one macrostep
whose event has the payload of the call. -/
lemma call_cases {s s' : Session C Env S} {budget : Nat} {c : Call}
    (h : s.call budget c = some s') :
    s'.slot = s.slot ∨
      ∃ (s₁ : Session C Env S) (trigger : Event) (m : Macrostep C Env),
        s₁.slot = s.slot ∧ trigger.payload = c.payload ∧ s' = s₁.rest trigger m := by
  have henter : ∀ target : NodeId, s.enter budget target = some s' →
      ∃ (s₁ : Session C Env S) (trigger : Event) (m : Macrostep C Env),
        s₁.slot = s.slot ∧ trigger.payload = Event.init.payload ∧ s' = s₁.rest trigger m := by
    intro target h
    simp only [enter, finish, Option.bind_eq_bind, Option.bind_eq_some_iff, Option.some.injEq] at h
    obtain ⟨m, -, rfl⟩ := h
    exact ⟨s, .init, m, rfl, rfl, rfl⟩
  cases c with
  | start =>
      simp only [call, start] at h
      split at h
      next =>
          cases h
          exact .inl rfl
      next => exact .inr (henter _ h)
  | startAt reference =>
      simp only [call, startAt] at h
      split at h
      next =>
          cases h
          exact .inl rfl
      next =>
          split at h
          next =>
              cases h
              exact .inl rfl
          next => exact .inr (henter _ h)
  | send event =>
      rcases send_cases h with ⟨hslot, -⟩ | ⟨m, -, rfl⟩
      · exact .inl hslot
      · exact .inr ⟨s, event, m, rfl, rfl, rfl⟩
  | deliver settlement =>
      simp only [call, deliver] at h
      split at h
      next =>
          cases h
          exact .inl rfl
      next id invocations hclaim =>
          rcases send_cases h with ⟨hslot, -⟩ | ⟨m, -, rfl⟩
          · exact .inl hslot
          · exact .inr ⟨_, _, m, rfl, payload_ofOutcome id settlement.outcome, rfl⟩
  | handOut =>
      cases h
      exact .inl rfl
  | wait clock =>
      cases h
      exact .inl rfl

end Session

/-! ## Runs -/

/-- A run: calls one after the other, all of which return. -/
inductive Run (s₀ : Session C Env S) : List Call → Session C Env S → Prop
  | nil : Run s₀ [] s₀
  | snoc {calls : List Call} {s s' : Session C Env S} (budget : Nat) (c : Call) :
      Run s₀ calls s → s.call budget c = some s' → Run s₀ (calls ++ [c]) s'

namespace Run

variable {s₀ s : Session C Env S} {calls : List Call}

/-- Calls that all return within one budget. -/
lemma of_foldlM {budget : Nat} (h : calls.foldlM (·.call budget ·) s₀ = some s) :
    Run s₀ calls s := by
  induction calls using List.reverseRecOn generalizing s with
  | nil =>
      cases h
      exact .nil
  | append_singleton calls c ih =>
      rw [List.foldlM_append] at h
      obtain ⟨s₁, hcalls, hcall⟩ := Option.bind_eq_some_iff.1 h
      rw [List.foldlM_cons] at hcall
      obtain ⟨s₂, hcall, hlast⟩ := Option.bind_eq_some_iff.1 hcall
      cases hlast
      exact (ih hcalls).snoc budget c hcall

/-- A run is a journey of a caller who may do anything. -/
lemma journey (run : Run s₀ calls s) :
    ∃ episodes, Journey (fun _ _ => True) s₀ episodes (.quiet s) := by
  induction run with
  | nil => exact ⟨[], .nil⟩
  | snoc budget c _ hcall ih =>
      obtain ⟨episodes, hjourney⟩ := ih
      obtain ⟨more, hmore⟩ := hjourney.of_call trivial hcall
      exact ⟨episodes ++ more, hmore⟩

/-- Runs stay on their chart. -/
lemma chart_eq (run : Run s₀ calls s) : s.chart = s₀.chart := by
  obtain ⟨episodes, hjourney⟩ := run.journey
  have hnothing : Preserved fun _ : C => True := fun _ _ _ _ _ _ => trivial
  exact (hjourney.invariant (hnothing.sustained s₀.chart _) trivial).1

lemma preserves {Q : C → Prop} (hQ : Preserved Q) (init : Q s₀.machine.context)
    (run : Run s₀ calls s) : Q s.machine.context := by
  obtain ⟨episodes, hjourney⟩ := run.journey
  exact hjourney.preserves hQ init

lemma isSome_slot (run : Run s₀ calls s) : s.slot.isSome = s₀.slot.isSome := by
  induction run with
  | nil => rfl
  | snoc budget c _ hcall ih =>
      rcases Session.call_cases hcall with hslot | ⟨s₁, trigger, m, hslot, -, rfl⟩
      · rw [hslot, ih]
      · rw [Session.isSome_slot_rest, hslot, ih]

/-- **What is kept at the end of a run**: nothing, what was kept at first, or the text of the
context at rest after one of the calls, with the payload of that call. -/
theorem kept_cases [WorkingStorage S] (run : Run s₀ calls s) :
    s.kept = none ∨ s.kept = s₀.kept ∨
      ∃ before c after s₁, calls = before ++ c :: after ∧ Run s₀ (before ++ [c]) s₁ ∧
        s.kept = some (Slot.text s₁.machine.context c.payload) := by
  induction run with
  | nil => exact .inr (.inl rfl)
  | @snoc calls s s' budget c run hcall ih =>
      have hbefore : s'.kept = s.kept →
          s'.kept = none ∨ s'.kept = s₀.kept ∨
            ∃ before d after s₁, calls ++ [c] = before ++ d :: after ∧
              Run s₀ (before ++ [d]) s₁ ∧
              s'.kept = some (Slot.text s₁.machine.context d.payload) := by
        intro hkept
        rw [hkept]
        rcases ih with h | h | ⟨before, d, after, s₁, rfl, hrun, h⟩
        · exact .inl h
        · exact .inr (.inl h)
        · exact .inr (.inr ⟨before, d, after ++ [c], s₁, by simp, hrun, h⟩)
      rcases Session.call_cases hcall with hslot | ⟨s₁, trigger, m, hslot, hpayload, hrest⟩
      · exact hbefore (by rw [Session.kept, hslot, Session.kept])
      · have hmachine : s'.machine = m.machine := by rw [hrest, Session.rest_machine]
        have hkept : s₁.kept = s.kept := by rw [Session.kept, hslot, Session.kept]
        have hcases := s₁.kept_rest_cases trigger m
        rw [← hrest, hkept, hpayload, ← hmachine] at hcases
        rcases hcases with h | h | h
        · exact hbefore h
        · exact .inl h
        · exact .inr (.inr ⟨calls, c, [], s', rfl, run.snoc budget c hcall, h⟩)

end Run

end FormChart
