import Mathlib.Data.List.Chain
import FormChart.Proofs.Session.Ceiling
import FormChart.Proofs.Session.Driving

/-!
# The history is the way that was taken

The steps of a session are the first entry and the transitions.  Where they lead is read off the
episodes (`leavesFrom`): the leaf after some deeds is the node that was entered last, so a
transition that enters nothing leads to the leaf from which it was taken.

Each step adds one record, with the paths of the leaves before and after it.  So **the records form
a chain from the first entry to the active leaf** (`Journey.isChronicle`), **each call adds one
record for each of its steps** (`Session.exists_visits_call`), and the path of the history is the
sequence of the leaves that were visited (`Journey.history_is_the_way`).
-/

namespace FormChart

variable {C Env S : Type}

/-! ## Where steps lead -/

/-- The leaf after some deeds: the node that was entered last. -/
def leafAfter (leaf : Option NodeId) : List Deed → Option NodeId
  | [] => leaf
  | .entered i :: deeds => leafAfter (some i) deeds
  | .left _ :: deeds | .acted :: deeds | .started _ :: deeds | .handedOut _ :: deeds
  | .resolved _ :: deeds => leafAfter leaf deeds

/-- Whether an episode is a step: the first entry or a transition. -/
def Episode.isStep : Episode C → Bool
  | .entry _ | .transition .. => true
  | .handOut _ | .claim _ => false

/-- The leaves after the steps in some episodes. -/
def leavesFrom (leaf : Option NodeId) : List (Episode C) → List (Option NodeId)
  | [] => []
  | e :: episodes =>
    (if e.isStep then [leafAfter leaf e.deeds] else []) ++
      leavesFrom (leafAfter leaf e.deeds) episodes

/-- The path of a leaf; empty if there is none. -/
def Chart.pathOf? (chart : Chart C Env) (leaf : Option NodeId) : String :=
  (leaf.map chart.pathOf).getD ""

section

variable (leaf : Option NodeId)

lemma leafAfter_append (first rest : List Deed) :
    leafAfter leaf (first ++ rest) = leafAfter (leafAfter leaf first) rest := by
  induction first generalizing leaf with
  | nil => rfl
  | cons d first ih => cases d <;> exact ih _

lemma leafAfter_handedOut (tokens : List Token) :
    leafAfter leaf (tokens.map .handedOut) = leaf := by
  induction tokens with
  | nil => rfl
  | cons token tokens ih => exact ih

lemma leavesFrom_snoc (episodes : List (Episode C)) (e : Episode C) :
    leavesFrom leaf (episodes ++ [e]) = leavesFrom leaf episodes ++
      if e.isStep then [leafAfter leaf (deedsOf (episodes ++ [e]))] else [] := by
  induction episodes generalizing leaf with
  | nil => simp [leavesFrom]
  | cons e' episodes ih =>
      have hdeeds : ∀ more, leafAfter leaf (deedsOf (e' :: more)) =
          leafAfter (leafAfter leaf e'.deeds) (deedsOf more) := fun more => by
        rw [← leafAfter_append]
        rfl
      rw [List.cons_append, leavesFrom, ih, leavesFrom, List.append_assoc, hdeeds]

lemma length_leavesFrom (episodes : List (Episode C)) :
    (leavesFrom leaf episodes).length = episodes.countP Episode.isStep := by
  induction episodes generalizing leaf with
  | nil => rfl
  | cons e episodes ih =>
      rw [leavesFrom, List.length_append, ih, List.countP_cons, Nat.add_comm]
      split <;> rfl

end

variable [Model C]

namespace Macrostep

variable {chart : Chart C Env} {event : Event}

/-- **The leaf after a plan** is known from its deeds. -/
lemma take_leaf_eq (m : Macrostep C Env) (plan : List (Move C)) :
    (m.take chart event plan).machine.leaf =
      leafAfter m.machine.leaf (m.deeds chart event plan) := by
  rw [take_leaf]
  induction plan generalizing m with
  | nil => rfl
  | cons part plan ih =>
      rw [List.foldl_cons, ih, deeds, leafAfter_append]
      congr 1
      cases part with
      | leave i =>
          cases hn : chart.node? i with
          | none => simp [move, deed, hn, leafAfter]
          | some n => rw [move_leave_leaf event hn, deed_leave hn]; rfl
      | act actions => rw [move_act_leaf]; rfl
      | arrive i =>
          cases hn : chart.node? i with
          | none => simp [move, deed, hn, leafAfter]
          | some n =>
              rw [move_arrive_leaf event hn, deed_arrive hn]
              cases n.invoke <;> rfl

end Macrostep

/-! ## What is recorded -/

/-- Whether the history of a machine has been continued as the episodes tell. -/
structure Continues (chart : Chart C Env) (old : List Visit) (start : Option NodeId)
    (episodes : List (Episode C)) (machine : Machine C Env) : Prop where
  leaf : machine.leaf = leafAfter start (deedsOf episodes)
  visits : ∃ new, machine.history.visits = old ++ new ∧
    new.map Visit.target = (leavesFrom start episodes).map chart.pathOf?

/-- Whether the history of a machine leads from its first entry to its active leaf. -/
structure IsChronicle (chart : Chart C Env) (machine : Machine C Env) : Prop where
  nonempty : machine.leaf ≠ none → machine.history.visits ≠ []
  first : ∀ v, machine.history.visits.head? = some v → v.source = "" ∧ v.event = Event.init.name
  chain : machine.history.visits.IsChain fun v w => v.target = w.source
  last : ∀ v, machine.history.visits.getLast? = some v → v.target = machine.leafPath chart

section

variable {chart : Chart C Env} {m : Macrostep C Env} {event : Event} {old : List Visit}
  {start : Option NodeId} {episodes : List (Episode C)} {plan : List (Move C)}

/-- A step continues the history by one record. -/
lemma Continues.step (h : Continues chart old start episodes m.machine) {e : Episode C}
    (hstep : e.isStep = true) (hdeeds : e.deeds = m.deeds chart event plan) :
    Continues chart old start (episodes ++ [e]) (m.take chart event plan).machine := by
  have hleaf : (m.take chart event plan).machine.leaf =
      leafAfter start (deedsOf (episodes ++ [e])) := by
    rw [Macrostep.take_leaf_eq, h.leaf, deedsOf_append, leafAfter_append, deedsOf_singleton, hdeeds]
  obtain ⟨new, hvisits, hnew⟩ := h.visits
  have htaken := Macrostep.take_visits chart event m plan
  rw [hvisits, List.append_assoc] at htaken
  refine ⟨hleaf, _, htaken, ?_⟩
  rw [List.map_append, hnew, leavesFrom_snoc, if_pos hstep, List.map_append, ← hleaf]
  rfl

omit [Model C] in
/-- Other episodes add nothing to it. -/
lemma Continues.aside {machine machine' : Machine C Env}
    (h : Continues chart old start episodes machine) {e : Episode C} (haside : e.isStep = false)
    (hdeeds : ∀ leaf, leafAfter leaf e.deeds = leaf) (hleaf : machine'.leaf = machine.leaf)
    (hhistory : machine'.history = machine.history) :
    Continues chart old start (episodes ++ [e]) machine' := by
  refine ⟨?_, ?_⟩
  · rw [hleaf, h.leaf, deedsOf_append, leafAfter_append, deedsOf_singleton, hdeeds]
  · obtain ⟨new, hvisits, hnew⟩ := h.visits
    refine ⟨new, hhistory ▸ hvisits, ?_⟩
    rw [hnew, leavesFrom_snoc, haside]
    simp

omit [Model C] in
/-- There are as many new records as steps. -/
lemma Continues.exists_visits {machine : Machine C Env}
    (h : Continues chart old start episodes machine) :
    ∃ new, machine.history.visits = old ++ new ∧ new.length = episodes.countP Episode.isStep ∧
      new.map Visit.target = (leavesFrom start episodes).map chart.pathOf? := by
  obtain ⟨new, hvisits, hnew⟩ := h.visits
  refine ⟨new, hvisits, ?_, hnew⟩
  rw [← length_leavesFrom start, ← List.length_map Visit.target, hnew, List.length_map]

variable (chart old start) in
/-- **The history is continued** along every journey. -/
lemma Continues.sustained (permits : List (Episode C) → Call → Prop) :
    Sustained permits chart (Continues chart old start) where
  entry _ machine _ h _ _ := h.step (m := { machine }) rfl rfl
  transition _ _ _ _ _ h _ _ := h.step rfl rfl
  claim _ _ _ _ _ h _ _ := h.aside rfl (fun _ => rfl) rfl rfl
  handOut _ _ h := h.aside rfl (fun leaf => leafAfter_handedOut leaf _) rfl rfl
  wait _ _ _ h := ⟨h.leaf, h.visits⟩

/-- A step leads the chronicle on, if it is the first entry or taken from a leaf. -/
lemma IsChronicle.take (h : IsChronicle chart m.machine)
    (hfirst : m.machine.leaf ≠ none ∨ event = .init) :
    IsChronicle chart (m.take chart event plan).machine := by
  have hvisits := Macrostep.take_visits chart event m plan
  set v : Visit := ⟨m.machine.leafPath chart, _, event.name, _⟩
  constructor
  case nonempty => simp [hvisits]
  case first =>
    intro w hw
    rw [hvisits] at hw
    cases hold : m.machine.history.visits with
    | nil =>
        have hnone : m.machine.leaf = none := by
          by_contra hsome
          exact h.nonempty hsome hold
        obtain rfl : v = w := by simpa [hold] using hw
        have hinit : event = .init := hfirst.resolve_left (not_not_intro hnone)
        exact ⟨by simp [v, Machine.leafPath, hnone], by simp [v, hinit]⟩
    | cons u rest =>
        obtain rfl : u = w := by simpa [hold] using hw
        exact h.first u (by rw [hold, List.head?_cons])
  case chain =>
    rw [hvisits, List.isChain_append]
    refine ⟨h.chain, List.isChain_singleton _, fun u hu w hw => ?_⟩
    obtain rfl : v = w := by simpa using hw
    exact h.last u hu
  case last =>
    intro w hw
    rw [hvisits, List.getLast?_concat] at hw
    obtain rfl := Option.some.inj hw
    rfl

variable (chart) in
lemma IsChronicle.sustained (permits : List (Episode C) → Call → Prop) :
    Sustained permits chart fun _ machine => IsChronicle chart machine where
  entry _ machine _ h _ _ := h.take (m := { machine }) (.inr rfl)
  transition _ _ _ _ _ h hleaf _ := h.take (.inl (by rw [hleaf]; nofun))
  claim _ _ _ _ _ h _ _ := ⟨h.nonempty, h.first, h.chain, h.last⟩
  handOut _ _ h := ⟨h.nonempty, h.first, h.chain, h.last⟩
  wait _ _ _ h := ⟨h.nonempty, h.first, h.chain, h.last⟩

end

/-! ## Calls and journeys -/

variable [Storage S]

/-- **A call adds one record for each of its steps**, and none if there is none. -/
theorem Session.exists_visits_call {s s' : Session C Env S} {budget : Nat} {c : Call}
    (h : s.call budget c = some s') :
    ∃ new, s'.machine.history.visits = s.machine.history.visits ++ new ∧
      new.length = (s.episodes budget c).countP Episode.isStep ∧
      new.map Visit.target =
        (leavesFrom s.machine.leaf (s.episodes budget c)).map s.chart.pathOf? := by
  have run : Journey (fun _ _ => True) s ([] ++ s.episodes budget c) (.quiet s') :=
    Journey.nil.record trivial h
  rw [List.nil_append] at run
  obtain ⟨-, hcontinues⟩ := run.invariant
    (Continues.sustained s.chart s.machine.history.visits s.machine.leaf _)
    ⟨rfl, [], (List.append_nil _).symm, rfl⟩
  exact hcontinues.exists_visits

namespace Journey

variable {permits : List (Episode C) → Call → Prop} {s₀ : Session C Env S}
  {episodes : List (Episode C)} {moment : Moment C Env S}

/-- A session whose history is empty goes by the book from its start on. -/
lemma isChronicle (hnew : s₀.machine.leaf = none) (hempty : s₀.machine.history.visits = [])
    (run : Journey permits s₀ episodes moment) : IsChronicle s₀.chart moment.machine :=
  (run.invariant (IsChronicle.sustained s₀.chart permits) ⟨fun h => absurd hnew h,
    by simp [hempty], by simp [hempty], by simp [hempty]⟩).2

/-- **The history is the way that was taken.**  Along any journey of a new session:

* once the chart was entered, there is a first record, from nowhere and for this entry, and the path
  of the history is the sequence of the leaves after all steps so far;
* each record begins where the one before has ended, and the last one ends at the active leaf;
* a call adds as many records as it takes steps: transitions that enter nothing count, and where
  nothing is taken nothing is added. -/
theorem history_is_the_way {s : Session C Env S} (hnew : s₀.machine.leaf = none)
    (hempty : s₀.machine.history.visits = []) (run : Journey permits s₀ episodes (.quiet s)) :
    (s.isStarted = true ∨ (∃ deeds, .entry deeds ∈ episodes) →
      ∃ first rest, s.machine.history.visits = first :: rest ∧
        first.source = "" ∧ first.event = "init" ∧
        s.machine.history.path = "" :: (leavesFrom none episodes).map s.chart.pathOf?) ∧
    s.machine.history.visits.IsChain (fun v w => v.target = w.source) ∧
    (∀ last, s.machine.history.visits.getLast? = some last → last.target = s.leafPath) ∧
    ∀ budget c s', s.call budget c = some s' →
      ∃ new, s'.machine.history.visits = s.machine.history.visits ++ new ∧
        new.length = (s.episodes budget c).countP Episode.isStep ∧
        new.map Visit.target =
          (leavesFrom s.machine.leaf (s.episodes budget c)).map s.chart.pathOf? := by
  have hchronicle : IsChronicle s₀.chart s.machine := run.isChronicle hnew hempty
  obtain ⟨hchart, hcontinues⟩ := run.invariant (Continues.sustained s₀.chart [] none permits)
    ⟨hnew, [], hempty, rfl⟩
  change s.chart = s₀.chart at hchart
  obtain ⟨visits, hvisits, hlength, htargets⟩ := hcontinues.exists_visits
  change s.machine.history.visits = visits at hvisits
  have hnonempty : s.isStarted = true ∨ (∃ deeds, .entry deeds ∈ episodes) →
      s.machine.history.visits ≠ [] := by
    rintro (hstarted | ⟨deeds, hentry⟩)
    · exact hchronicle.nonempty (Option.isSome_iff_ne_none.1 hstarted)
    · rw [hvisits, ← List.length_pos_iff, hlength]
      exact List.countP_pos_iff.2 ⟨_, hentry, rfl⟩
  refine ⟨fun hentered => ?_, hchronicle.chain, fun last hlast => ?_,
    fun budget c s' hcall => Session.exists_visits_call hcall⟩
  · obtain ⟨first, rest, hsplit⟩ := List.exists_cons_of_ne_nil (hnonempty hentered)
    obtain ⟨hsource, hevent⟩ := hchronicle.first first (by rw [hsplit, List.head?_cons])
    refine ⟨first, rest, hsplit, hsource, hevent, ?_⟩
    simp [hchart, ← htargets, ← hvisits, History.path, hsplit, hsource]
  · rw [hchronicle.last last hlast, Session.leafPath, hchart]

/-- Three calls on the chart of the errand: its start, an event that leads to the shop, and one
whose transition has no target.  Each of them adds one record. -/
theorem history_is_the_way_errand : ∃ s episodes,
    Journey (fun _ _ => True) errandSession episodes (.quiet s) ∧
      s.machine.history.path = ["", "home", "away.shop", "away.shop"] ∧
      (leavesFrom none episodes).map s.chart.pathOf? = ["home", "away.shop", "away.shop"] := by
  have hcomputed : (((errandSession.call 9 .start).bind
      (·.call 9 (.send { name := "go" }))).bind (·.call 9 (.send { name := "stay" }))).any
        (fun s => s.isStarted &&
          s.machine.history.path == ["", "home", "away.shop", "away.shop"]) = true := by
    decide +kernel
  obtain ⟨s, hs, h⟩ := (Option.any_eq_true _ _).1 hcomputed
  obtain ⟨hstarted, hpath⟩ := Bool.and_eq_true_iff.1 h
  obtain ⟨s₂, hs₂, hstay⟩ := Option.bind_eq_some_iff.1 hs
  obtain ⟨s₁, hstart, hgo⟩ := Option.bind_eq_some_iff.1 hs₂
  have before : Journey (fun _ _ => True) errandSession [] (.quiet errandSession) := .nil
  have run := ((before.record trivial hstart).record trivial hgo).record trivial hstay
  obtain ⟨-, -, -, -, -, hway⟩ := (history_is_the_way rfl rfl run).1 (.inl hstarted)
  have hpath := beq_iff_eq.1 hpath
  exact ⟨s, _, run, hpath, (List.cons.inj (hway.symm.trans hpath)).2⟩

end Journey

end FormChart
