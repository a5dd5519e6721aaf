import FormChart.Proofs.Chart.Subtrees
import FormChart.Proofs.Session.Plan
import FormChart.Proofs.Session.Runs

/-!
# Settling

Nothing in a macrostep bounds the events that are raised on the way to rest, and only the ceiling
bounds the automatic transitions.  A chart **settles within a bound** (`Chart.SettlesWithin`) if
neither matters: automatic transitions lead from every node to rest within that many steps, in every
context, and no event that is raised on the way is heard.

If the ceiling is above the bound, every macrostep of such a chart comes to rest
(`Macrostep.exists_toRest`), after at most so many automatic transitions and without an error.  How
many decisions that takes is of no interest: some budget is enough, and every larger one gives the
same result (`Macrostep.toRest_mono`).
-/

namespace FormChart

variable {C Env S : Type}

/-! ## Charts that settle -/

/-- Whether none of the notices tells of an error. -/
def Mild (notices : List Notice) : Prop := ∀ notice ∈ notices, notice.level ≠ .error

lemma mild_nil : Mild [] := fun _ h => absurd h List.not_mem_nil

lemma Mild.append {first rest : List Notice} (hfirst : Mild first) (hrest : Mild rest) :
    Mild (first ++ rest) := by
  intro notice hnotice
  exact (List.mem_append.1 hnotice).elim (hfirst notice) (hrest notice)

/-- Whether an action never tells of an error, and raises no event but unheard ones. -/
def Action.Mild (unheard : String → Prop) : Action C → Prop
  | .assign _ remarks => ∀ context event, FormChart.Mild (remarks context event)
  | .raise event => unheard event
  | .forward | .effect _ => True

/-- Whether no node has transitions for an event. -/
def Chart.Unheard (chart : Chart C Env) (event : String) : Prop :=
  ∀ i n, chart.node? i = some n → n.candidates event = []

/-- Whether a chart comes to rest by itself, within a number of automatic transitions from wherever
it is, and without an error. -/
structure Chart.SettlesWithin (chart : Chart C Env) (bound : Nat) : Prop where
  isTree : chart.IsTree
  comesToRest : ∀ {i n}, chart.node? i = some n → chart.comesToRest bound i = true
  mild : ∀ {i n}, chart.node? i = some n → ∀ a ∈ n.actions, a.Mild chart.Unheard
  /-- There is no transition for the arrival at a final node. -/
  reports : ∀ {i n p}, chart.node? i = some n → n.kind = .final → n.parent? = some p →
    chart.Unheard (Event.doneState (chart.pathOf p))

/-- Whether a machine has not been started, or is in a leaf without automatic transitions. -/
def Machine.AtRest (chart : Chart C Env) (machine : Machine C Env) : Prop :=
  ∀ leaf, machine.leaf = some leaf →
    chart.IsLeaf leaf ∧ chart.declared leaf Event.eventless.name = []

lemma Machine.atRest_of_not_started {chart : Chart C Env} {machine : Machine C Env}
    (h : machine.leaf = none) : machine.AtRest chart := by
  intro leaf hleaf
  rw [h] at hleaf
  cases hleaf

/-- An unheard event takes no transition. -/
lemma Chart.Unheard.choose?_eq_none {chart : Chart C Env} {event : String}
    (h : chart.Unheard event) (leaf : NodeId) (context : C) :
    chart.choose? leaf context event = none := by
  by_contra hne
  obtain ⟨t, ht⟩ := Option.ne_none_iff_exists'.1 hne
  obtain ⟨i, n, hn, hmem⟩ := Chart.mem_on_of_choose? ht
  have hcandidate : t ∈ n.candidates event :=
    List.mem_map.2 ⟨(event, t), List.mem_filter.2 ⟨hmem, beq_self_eq_true _⟩, rfl⟩
  rw [h i n hn] at hcandidate
  cases hcandidate

namespace Macrostep

/-- What has happened since there were certain visits and notices: a number of automatic
transitions, at most so many of them in a row, nothing that is an error, and no event was raised
that is heard. -/
structure Since (chart : Chart C Env) (visits : List Visit) (notices : List Notice) (count : Nat)
    (m : Macrostep C Env) : Prop where
  visits : ∃ new, m.machine.history.visits = visits ++ new ∧
    new.countP Visit.isEventless = count
  notices : ∃ new, m.notices = notices ++ new ∧ Mild new
  raised : ∀ event ∈ m.raised, chart.Unheard event.name
  streak : m.streak ≤ count

section Since

variable {chart : Chart C Env} {visits : List Visit} {notices : List Notice} {count : Nat}
  {m : Macrostep C Env}

namespace Since

lemma tell (h : m.Since chart visits notices count) {more : List Notice} (hmore : Mild more) :
    (m.tell more).Since chart visits notices count := by
  obtain ⟨new, hnew, hmild⟩ := h.notices
  refine ⟨h.visits, ⟨new ++ more, ?_, hmild.append hmore⟩, h.raised, h.streak⟩
  rw [Macrostep.tell, hnew, List.append_assoc]

lemma raise (h : m.Since chart visits notices count) {event : String}
    (hevent : chart.Unheard event) : (m.raise event).Since chart visits notices count := by
  refine ⟨h.visits, h.notices, fun e he => ?_, h.streak⟩
  rcases List.mem_append.1 he with he | he
  · exact h.raised e he
  · rw [List.mem_singleton.1 he]
    exact hevent

lemma change (h : m.Since chart visits notices count) {f : Machine C Env → Machine C Env}
    (hf : (f m.machine).history = m.machine.history) :
    (m.change f).Since chart visits notices count :=
  ⟨by rw [Macrostep.change, hf]; exact h.visits, h.notices, h.raised, h.streak⟩

variable [Model C]

lemma write (h : m.Since chart visits notices count) (patch : Patch) (mode : MergeMode) :
    (m.write chart patch mode).Since chart visits notices count := by
  unfold Macrostep.write
  split
  next next _ => exact h.change rfl
  next cause _ => exact h.tell (by simp [Mild, Notice.level])

variable {event : Event}

lemma perform (h : m.Since chart visits notices count) {a : Action C}
    (ha : a.Mild chart.Unheard) : (m.perform chart event a).Since chart visits notices count := by
  cases a with
  | assign patch remarks => exact (h.tell (ha _ _)).write _ _
  | forward => exact h.write _ _
  | raise name => exact h.raise ha
  | effect e => exact ⟨h.visits, h.notices, h.raised, h.streak⟩

lemma performAll (h : m.Since chart visits notices count) {actions : List (Action C)}
    (hactions : ∀ a ∈ actions, a.Mild chart.Unheard) :
    (m.performAll chart event actions).Since chart visits notices count := by
  unfold Macrostep.performAll
  induction actions generalizing m with
  | nil => exact h
  | cons a rest ih =>
      exact ih (h.perform (hactions a List.mem_cons_self))
        fun b hb => hactions b (List.mem_cons_of_mem _ hb)

variable {bound : Nat} (hchart : chart.SettlesWithin bound)

include hchart

/-- Leaving and entering nodes runs their actions, and may report an arrival that nobody listens
for. -/
lemma move (h : m.Since chart visits notices count) {part : Move C}
    (hpart : ∀ actions, part = .act actions → ∀ a ∈ actions, a.Mild chart.Unheard) :
    (m.move chart event part).Since chart visits notices count := by
  cases part with
  | act actions => exact h.performAll (hpart actions rfl)
  | leave i =>
      rw [Macrostep.move]
      cases hn : chart.node? i with
      | none => exact h
      | some n =>
          have hexit : (m.performAll chart event n.exit).Since chart visits notices count :=
            h.performAll fun a ha => hchart.mild hn a (by simp [Node.actions, ha])
          rw [Option.elim_some, Macrostep.leave]
          cases n.invoke with
          | none => exact hexit
          | some v => exact hexit.change rfl
  | arrive i =>
      rw [Macrostep.move]
      cases hn : chart.node? i with
      | none => exact h
      | some n =>
          have hentry : (m.performAll chart event n.entry).Since chart visits notices count :=
            h.performAll fun a ha => hchart.mild hn a (by simp [Node.actions, ha])
          have hinvoke : ((m.performAll chart event n.entry).invoke i n).Since chart visits notices
              count := by
            rw [Macrostep.invoke]
            cases n.invoke with
            | none => exact hentry
            | some v => exact hentry.change rfl
          rw [Option.elim_some, Macrostep.arrive, Macrostep.report]
          split
          next p hkind hp => exact (hinvoke.raise (hchart.reports hn hkind hp)).change rfl
          next => exact hinvoke.change rfl

/-- **Taking a transition** adds one visit. -/
lemma take (h : m.Since chart visits notices count) {plan : List (Move C)}
    (hplan : ∀ actions, .act actions ∈ plan → ∀ a ∈ actions, a.Mild chart.Unheard) :
    (m.take chart event plan).Since chart visits notices (count + event.isEventless.toNat) := by
  have hmoved : (plan.foldl (Macrostep.move chart event) m).Since chart visits notices count := by
    induction plan generalizing m with
    | nil => exact h
    | cons part rest ih =>
        refine ih (h.move hchart ?_) fun actions hmem => hplan actions (List.mem_cons_of_mem _ hmem)
        rintro actions rfl
        exact hplan actions List.mem_cons_self
  set moved := plan.foldl (Macrostep.move chart event) m
  let visit : Visit :=
    ⟨m.machine.leafPath chart, moved.machine.leafPath chart, event.name, moved.machine.clock⟩
  have hvisit : (m.take chart event plan).machine.history.visits =
      moved.machine.history.visits ++ [visit] := rfl
  obtain ⟨new, hnew, hcount⟩ := hmoved.visits
  refine ⟨⟨new ++ [visit], ?_, ?_⟩, hmoved.notices, hmoved.raised,
    hmoved.streak.trans (Nat.le_add_right _ _)⟩
  · rw [hvisit, hnew, List.append_assoc]
  · rw [List.countP_append, hcount, List.countP_singleton,
      show visit.isEventless = event.isEventless from rfl]
    cases event.isEventless <;> rfl

end Since

end Since

/-! ## Coming to rest -/

variable [Model C] {chart : Chart C Env} {bound : Nat}

section Choice

variable {m : Macrostep C Env} {event : Event} {leaf : NodeId} {t : Transition C}

/-- A transition that is chosen makes one visit. -/
lemma Since.take_choice {visits : List Visit} {notices : List Notice} {count : Nat}
    (h : m.Since chart visits notices count) (hchart : chart.SettlesWithin bound)
    (ht : chart.choose? leaf m.machine.context event.name = some t) :
    (m.take chart event (chart.moves leaf t)).Since chart visits notices
      (count + event.isEventless.toNat) := by
  refine h.take hchart fun actions hactions a ha => ?_
  obtain ⟨i, n, hn, hmem⟩ := Chart.mem_on_of_choose? ht
  rw [Chart.act_mem_moves hactions] at ha
  refine hchart.mild hn a (List.mem_append_right _ (List.mem_flatMap.2 ⟨_, hmem, ha⟩))

/-- A transition that is chosen leads to a leaf. -/
lemma exists_leaf_of_choice (hchart : chart.IsTree) (hactive : m.machine.leaf = some leaf)
    (hleaf : chart.IsLeaf leaf)
    (ht : chart.choose? leaf m.machine.context event.name = some t) :
    ∃ leaf', (m.take chart event (chart.moves leaf t)).machine.leaf = some leaf' ∧
      chart.IsLeaf leaf' := by
  rcases hchart.moves_cases hleaf ht with ⟨-, hmoves⟩ | ⟨up, down, landing, -, hpass, hmoves⟩
  · refine ⟨leaf, ?_, hleaf⟩
    rw [take_leaf, hmoves, List.foldl_cons, List.foldl_nil, move_act_leaf, hactive]
  · obtain ⟨n, hn, -⟩ := id hpass.target
    exact ⟨landing, hmoves ▸ take_passage_leaf hn t.actions m, hpass.target⟩

/-- A transition that leads on ends where the entry of its target lands. -/
lemma take_landing (hchart : chart.IsTree) (hleaf : chart.IsLeaf leaf)
    (ht : chart.choose? leaf m.machine.context event.name = some t) {target : NodeId}
    (htarget : t.target = some target) (hinternal : t.isInternal = false) :
    (m.take chart event (chart.moves leaf t)).machine.leaf = some (chart.landing target) ∧
      chart.IsLeaf (chart.landing target) := by
  obtain ⟨i, n, hn, hmem⟩ := Chart.mem_on_of_choose? ht
  have hgoes : t.stays chart leaf = false := by simp [Transition.stays, htarget, hinternal]
  obtain ⟨up, down, hpass, hmoves⟩ := hchart.moves_passage hleaf hn hmem htarget hgoes
  obtain ⟨n, hn, -⟩ := id hpass.target
  exact ⟨hmoves ▸ take_passage_leaf hn t.actions m, hpass.target⟩

end Choice

variable {ceiling : Nat}

/-- A larger budget gives the same result. -/
lemma toRest_mono {budget : Nat} {m final : Macrostep C Env}
    (h : m.toRest chart ceiling budget = some final) {larger : Nat} (hle : budget ≤ larger) :
    m.toRest chart ceiling larger = some final := by
  induction budget generalizing m larger with
  | zero => cases h
  | succ budget ih =>
      obtain ⟨larger, rfl⟩ := Nat.exists_eq_add_of_le' (Nat.lt_of_lt_of_le (Nat.succ_pos _) hle)
      rw [toRest] at h ⊢
      cases hnext : m.next chart ceiling with
      | running m' =>
          rw [hnext] at h
          exact ih h (Nat.le_of_succ_le_succ hle)
      | atRest m' =>
          rw [hnext] at h
          exact h

/-- One decision. -/
lemma toRest_of_running {m m' final : Macrostep C Env} (h : m.next chart ceiling = .running m')
    {budget : Nat} (hrest : m'.toRest chart ceiling budget = some final) :
    m.toRest chart ceiling (budget + 1) = some final := by
  rw [toRest, h]
  exact hrest

/-- In a leaf without automatic transitions unheard events are dropped, one after the other. -/
lemma toRest_drop {leaf : NodeId} {m : Macrostep C Env} (hactive : m.machine.leaf = some leaf)
    (hnone : chart.declared leaf Event.eventless.name = []) (hstreak : m.streak < ceiling)
    (hraised : ∀ event ∈ m.raised, chart.Unheard event.name) :
    ∃ streak ≤ m.streak, m.toRest chart ceiling (m.raised.length + 1) =
      some { m with raised := [], streak } := by
  have hnext : ∀ k : Macrostep C Env, k.machine.leaf = some leaf → k.streak < ceiling →
      k.next chart ceiling = k.dequeue chart := by
    intro k hk hstreak
    rw [next, if_neg (Nat.ne_of_lt hstreak)]
    simp [handle?, hk, Chart.choose?_eq, hnone]
  obtain ⟨raised, hm⟩ : ∃ raised, m.raised = raised := ⟨_, rfl⟩
  induction raised generalizing m with
  | nil =>
      refine ⟨m.streak, Nat.le_refl _, ?_⟩
      rw [hm, List.length_nil, toRest, hnext m hactive hstreak]
      cases m
      cases hm
      rfl
  | cons event rest ih =>
      have hdropped : m.next chart ceiling = .running { m with raised := rest, streak := 0 } := by
        have hunheard := (hraised event (hm ▸ List.mem_cons_self)).choose?_eq_none leaf
          m.machine.context
        rw [hnext m hactive hstreak, dequeue, hm]
        simp [handle?, hactive, hunheard]
      obtain ⟨streak, hle, hrest⟩ := ih (m := { m with raised := rest, streak := 0 }) hactive
        (Nat.zero_lt_of_lt hstreak)
        (fun e he => hraised e (hm ▸ List.mem_cons_of_mem _ he)) rfl
      refine ⟨streak, hle.trans (Nat.zero_le _), ?_⟩
      rw [hm, List.length_cons]
      exact toRest_of_running hdropped hrest

/-- **A machine comes to rest** in as many automatic transitions as its leaf is away from rest at
most.  What these transitions sustain still holds then. -/
theorem exists_toRest (hchart : chart.SettlesWithin bound) (hceiling : bound < ceiling)
    {P : Machine C Env → Prop}
    (hP : ∀ (m : Macrostep C Env) (leaf : NodeId) (t : Transition C), P m.machine →
      m.machine.leaf = some leaf → chart.IsLeaf leaf →
      chart.choose? leaf m.machine.context Event.eventless.name = some t →
      P (m.take chart .eventless (chart.moves leaf t)).machine)
    {visits : List Visit} {notices : List Notice} {steps count : Nat} {m : Macrostep C Env}
    {leaf : NodeId} (hactive : m.machine.leaf = some leaf) (hleaf : chart.IsLeaf leaf)
    (hrest : chart.comesToRest steps leaf = true)
    (hsince : m.Since chart visits notices count) (hcount : count + steps ≤ bound)
    (hm : P m.machine) :
    ∃ enough final, m.toRest chart ceiling enough = some final ∧ final.machine.AtRest chart ∧
      final.machine.leaf.isSome = true ∧
      (∃ total ≤ bound, final.Since chart visits notices total) ∧ P final.machine := by
  -- the leaf is at rest or comes closer to it, so the steps that are left go down
  induction steps using Nat.strongRecOn generalizing m count leaf with
  | ind steps ih =>
      have hstreak : m.streak < ceiling := by have := hsince.streak; omega
      rcases Chart.comesToRest_cases hrest with hnone | ⟨k, rfl, ⟨free, hfree, hguard⟩, hleads⟩
      · obtain ⟨streak, hle, hdrop⟩ := toRest_drop hactive hnone hstreak hsince.raised
        refine ⟨_, _, hdrop, ?_, by simp [hactive], ⟨count, by omega, ?_⟩, hm⟩
        · intro leaf' hleaf'
          obtain rfl := Option.some.inj (hactive.symm.trans hleaf')
          exact ⟨hleaf, hnone⟩
        · exact ⟨hsince.visits, hsince.notices, nofun, hle.trans hsince.streak⟩
      · obtain ⟨t, ht⟩ := Chart.exists_choose? hfree hguard m.machine.context
        obtain ⟨hinternal, target, htarget, hrest'⟩ := hleads t (Chart.mem_declared_of_choose? ht)
        have hchoose : chart.choose? leaf m.machine.context Event.eventless.name = some t := ht
        set taken : Macrostep C Env :=
          { m.take chart .eventless (chart.moves leaf t) with streak := m.streak + 1 }
        have hnext : m.next chart ceiling = .running taken := by
          rw [next, if_neg (Nat.ne_of_lt hstreak)]
          simp [handle?, hactive, hchoose, taken]
        obtain ⟨hlanding, hleaf'⟩ := take_landing hchart.isTree hleaf hchoose htarget hinternal
        have hsince' : taken.Since chart visits notices (count + 1) := by
          have htaken := hsince.take_choice hchart hchoose
          exact ⟨htaken.visits, htaken.notices, htaken.raised, Nat.succ_le_succ hsince.streak⟩
        have hlanding : taken.machine.leaf = some (chart.landing target) := hlanding
        obtain ⟨enough, final, hfinal, hfinally⟩ :=
          ih k (Nat.lt_succ_self k) hlanding hleaf' hrest' hsince' (by omega)
            (hP m leaf t hm hactive hleaf ht)
        exact ⟨enough + 1, final, toRest_of_running hnext hfinal, hfinally⟩

end Macrostep

end FormChart
