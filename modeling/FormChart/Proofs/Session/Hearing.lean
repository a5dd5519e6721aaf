import FormChart.Proofs.Session.Steady

/-!
# What callers may say

Some invariants hold only as long as callers do not bring certain things up.  `Chart.Maintains` says
what has to be shown of single steps if only certain events are heard.  Events that are raised on
the way bring nothing, so **it is enough to watch the events of the calls** (`Run.maintains`).

Other than `Chart.Steady`, this asks nothing of the chart and of the ceiling.
-/

namespace FormChart

variable {C Env S : Type} [Model C]

/-- What every step maintains, if certain events are heard: the first entry and every transition.
Invocations and time play no part. -/
structure Chart.Maintains (chart : Chart C Env) (hears : Event → Prop) (P : Machine C Env → Prop) :
    Prop where
  entry : ∀ (machine : Machine C Env) (target : NodeId) (n : Node C Env), P machine →
    machine.leaf = none → chart.node? target = some n →
    P (Macrostep.take chart .init { machine } (chart.firstMoves target)).machine
  transition : ∀ (m : Macrostep C Env) (event : Event) (leaf : NodeId) (t : Transition C),
    hears event → P m.machine → m.machine.leaf = some leaf →
    chart.choose? leaf m.machine.context event.name = some t →
    P (m.take chart event (chart.moves leaf t)).machine
  idle : ∀ (machine : Machine C Env) (invocations : Invocations Env) (clock : Timestamp),
    P machine → P { machine with invocations, clock }

/-! ## Events that are raised -/

/-- Whether certain events are heard, those without data among them. -/
def HearsSilence (hears : Event → Prop) : Prop := ∀ name, hears { name }

namespace Macrostep

/-- Whether all events that were raised are heard. -/
def AllHeard (hears : Event → Prop) (m : Macrostep C Env) : Prop := ∀ event ∈ m.raised, hears event

section

variable {chart : Chart C Env} {event : Event} {m : Macrostep C Env} {hears : Event → Prop}

namespace AllHeard

omit [Model C] in
/-- At the beginning nothing was raised. -/
lemma begin (machine : Machine C Env) : AllHeard hears { machine } :=
  fun _ h => absurd h List.not_mem_nil

omit [Model C] in
lemma raise (hsilence : HearsSilence hears) (h : m.AllHeard hears) (name : String) :
    (m.raise name).AllHeard hears := by
  intro e he
  rcases List.mem_append.1 he with he | he
  · exact h e he
  · rw [List.mem_singleton.1 he]
    exact hsilence name

lemma performAll (hsilence : HearsSilence hears) (h : m.AllHeard hears)
    (actions : List (Action C)) : (m.performAll chart event actions).AllHeard hears := by
  have hwrite : ∀ (k : Macrostep C Env) (patch : Patch) (mode : MergeMode), k.AllHeard hears →
      (k.write chart patch mode).AllHeard hears := by
    intro k patch mode hk
    unfold write
    split <;> exact hk
  unfold Macrostep.performAll
  induction actions generalizing m with
  | nil => exact h
  | cons a rest ih =>
      refine ih ?_
      cases a with
      | assign patch remarks =>
          exact hwrite (m.tell (remarks m.machine.context event)) _ _ h
      | forward => exact hwrite _ _ _ h
      | raise name => exact h.raise hsilence name
      | effect e => exact h

lemma move (hsilence : HearsSilence hears) (h : m.AllHeard hears) (part : Move C) :
    (m.move chart event part).AllHeard hears := by
  cases part with
  | act actions => exact h.performAll hsilence actions
  | leave i =>
      rw [Macrostep.move]
      cases chart.node? i with
      | none => exact h
      | some n =>
          have hexit : (m.performAll chart event n.exit).AllHeard hears := h.performAll hsilence _
          rw [Option.elim_some, Macrostep.leave]
          cases n.invoke <;> exact hexit
  | arrive i =>
      rw [Macrostep.move]
      cases chart.node? i with
      | none => exact h
      | some n =>
          have hentry : (m.performAll chart event n.entry).AllHeard hears :=
            h.performAll hsilence _
          have hinvoke : ((m.performAll chart event n.entry).invoke i n).AllHeard hears := by
            rw [Macrostep.invoke]
            cases n.invoke <;> exact hentry
          rw [Option.elim_some, Macrostep.arrive, Macrostep.report]
          split
          next => exact hinvoke.raise hsilence _
          next => exact hinvoke

lemma take (hsilence : HearsSilence hears) (h : m.AllHeard hears) (plan : List (Move C)) :
    (m.take chart event plan).AllHeard hears := by
  change (plan.foldl (Macrostep.move chart event) m).AllHeard hears
  induction plan generalizing m with
  | nil => exact h
  | cons part rest ih => exact ih (h.move hsilence part)

end AllHeard

end

/-! ## To rest -/

end Macrostep

/-- Whether a decision has left something as it should be. -/
def Progress.Upholds (hears : Event → Prop) (P : Machine C Env → Prop) : Progress C Env → Prop
  | .running m => P m.machine ∧ m.AllHeard hears
  | .atRest m => P m.machine

namespace Macrostep

section

variable {chart : Chart C Env} {hears : Event → Prop} {P : Machine C Env → Prop}
  (hmaintains : chart.Maintains hears P) (hsilence : HearsSilence hears)

include hmaintains hsilence

/-- Whatever comes of an event that is heard. -/
lemma maintains_handle {m : Macrostep C Env} {event : Event} (hevent : hears event)
    (hP : P m.machine) (hm : m.AllHeard hears) :
    P ((m.handle? chart event).getD m).machine ∧
      ((m.handle? chart event).getD m).AllHeard hears := by
  cases hhandle : m.handle? chart event with
  | none => exact ⟨hP, hm⟩
  | some taken =>
      obtain ⟨leaf, t, hleaf, hchoose, rfl, -⟩ := handle?_cases hhandle
      exact ⟨hmaintains.transition m event leaf t hevent hP hleaf hchoose, hm.take hsilence _⟩

lemma maintains_dequeue {m : Macrostep C Env} (hP : P m.machine) (hm : m.AllHeard hears) :
    (m.dequeue chart).Upholds hears P := by
  unfold dequeue
  split
  next => exact hP
  next event rest hraised =>
      have hrest : ∀ e ∈ rest, hears e := fun e he => hm e (hraised ▸ List.mem_cons_of_mem _ he)
      exact maintains_handle hmaintains hsilence (m := { m with raised := rest, streak := 0 })
        (hm event (hraised ▸ List.mem_cons_self)) hP hrest

/-- **A decision maintains** what its steps do. -/
lemma maintains_next (ceiling : Nat) {m : Macrostep C Env} (hP : P m.machine)
    (hm : m.AllHeard hears) : (m.next chart ceiling).Upholds hears P := by
  unfold next
  split
  next => exact maintains_dequeue hmaintains hsilence (m := m.tell _) hP hm
  next =>
      have hhandled := maintains_handle hmaintains hsilence (hsilence "") hP hm
      cases hhandle : m.handle? chart .eventless with
      | none => exact maintains_dequeue hmaintains hsilence hP hm
      | some taken =>
          rw [Event.eventless] at hhandle
          rwa [hhandle] at hhandled

lemma maintains_toRest {ceiling budget : Nat} {m final : Macrostep C Env}
    (h : m.toRest chart ceiling budget = some final) (hP : P m.machine) (hm : m.AllHeard hears) :
    P final.machine := by
  induction budget generalizing m with
  | zero => cases h
  | succ budget ih =>
      have hnext := maintains_next hmaintains hsilence ceiling hP hm
      rw [toRest] at h
      cases hp : m.next chart ceiling with
      | running m' =>
          rw [hp] at h hnext
          exact ih h hnext.1 hnext.2
      | atRest m' =>
          rw [hp] at h hnext
          cases h
          exact hnext

end

end Macrostep

/-! ## Calls and runs -/

variable [Storage S] {s₀ s s' : Session C Env S} {hears : Event → Prop} {P : Machine C Env → Prop}

omit [Storage S] in
/-- A session that was started is not entered again. -/
lemma Session.begin_of_started (hstarted : s.isStarted = true) {c : Call} {target : NodeId}
    (hc : c.Enters s.chart target) : (s.begin c).2 = .quiet s := by
  rcases hc with ⟨rfl, -⟩ | ⟨reference, rfl, hfound⟩
  · simp [begin, hstarted]
  · simp [begin, hfound, hstarted]

/-- **A call that returns maintains** what its steps do, if its event is heard. -/
lemma Session.maintains_call (htree : s.chart.IsTree) (hmaintains : s.chart.Maintains hears P)
    (hsilence : HearsSilence hears) (hs : P s.machine) {c : Call}
    (hc : ∀ event, c.Brings event → hears event) {budget : Nat} (h : s.call budget c = some s') :
    s'.chart = s.chart ∧ P s'.machine := by
  have hfinish : ∀ (s₁ : Session C Env S) (m : Macrostep C Env) (trigger : Event),
      s₁.chart = s.chart → P m.machine → m.AllHeard hears →
      s₁.finish budget m trigger = some s' → s'.chart = s.chart ∧ P s'.machine := by
    intro s₁ m trigger hchart hP hm hfinish
    simp only [finish, Option.bind_eq_bind, Option.bind_eq_some_iff, Option.some.injEq] at hfinish
    obtain ⟨final, hrest, rfl⟩ := hfinish
    rw [hchart] at hrest
    have hfinal := Macrostep.maintains_toRest hmaintains hsilence hrest hP hm
    have hmachine := rest_machine s₁ trigger final
    exact ⟨(rest_chart s₁ trigger final).trans hchart, hmachine.symm ▸ hfinal⟩
  rw [call_eq_finish] at h
  rcases s.begin_cases c with ⟨s₁, hmoment, hidle, -⟩ | ⟨target, htarget, hmoment⟩ |
      ⟨invocations, event, leaf, t, hbrings, hactive, hchoose, hmoment⟩ <;> rw [hmoment] at h
  · obtain ⟨invocations, clock, new, -, rfl⟩ := hidle
    cases h
    exact ⟨rfl, hmaintains.idle _ _ _ hs⟩
  · by_cases hstarted : s.isStarted
    · -- such a call is refused
      rw [← hmoment, begin_of_started hstarted htarget] at h
      cases h
      exact ⟨rfl, hs⟩
    · obtain ⟨n, hn⟩ := htarget.exists_node htree
      have hnone : s.machine.leaf = none := by simpa [isStarted] using hstarted
      refine hfinish s _ _ rfl (hmaintains.entry s.machine target n hs hnone hn) ?_ h
      exact (Macrostep.AllHeard.begin _).take hsilence _
  · refine hfinish _ _ event rfl ?_ ?_ h
    · exact hmaintains.transition _ event leaf t (hc event hbrings) (hmaintains.idle _ _ _ hs)
        hactive hchoose
    · exact (Macrostep.AllHeard.begin _).take hsilence _

/-- **What is maintained holds at the end of every run** whose events are heard. -/
theorem Run.maintains {calls : List Call} (htree : s₀.chart.IsTree)
    (hmaintains : s₀.chart.Maintains hears P) (hsilence : HearsSilence hears)
    (hs₀ : P s₀.machine) (hcalls : ∀ c ∈ calls, ∀ event, c.Brings event → hears event)
    (run : Run s₀ calls s) : s.chart = s₀.chart ∧ P s.machine := by
  induction run with
  | nil => exact ⟨rfl, hs₀⟩
  | @snoc calls s s' budget c run hcall ih =>
      obtain ⟨hsame, hs⟩ := ih fun d hd => hcalls d (List.mem_append_left _ hd)
      rw [← hsame] at htree hmaintains
      obtain ⟨hsame', hs'⟩ := s.maintains_call htree hmaintains hsilence hs
        (hcalls c (List.mem_append_right _ List.mem_cons_self)) hcall
      exact ⟨hsame'.trans hsame, hs'⟩

end FormChart
