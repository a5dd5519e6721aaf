import FormChart.Proofs.Chart.Lineage

/-!
# What a leaf can choose from

Which transition an event takes is decided in two steps.  The innermost node with transitions for
the event offers them all (`Chart.declared`), and the first that is enabled is taken
(`Chart.choose?_eq`).  Only the second step looks at the context, so much can be said of a chart
without one:

* `Chart.comesToRest` — automatic transitions lead from a leaf to one that has none within a number
  of steps, **whatever the context**.
* `Chart.waysTo` — where the transitions are written down that end in a certain leaf.

Tasks play no part in any of this.  `Chart.withoutTasks` drops them, and what is asked here of a
chart has the same answer without its tasks, so the answer can be computed once for all environments
in which tasks may be run.
-/

namespace FormChart

variable {C Env : Type}

namespace Chart

/-- The transitions of a node for an event, if it has any. -/
def offered? (chart : Chart C Env) (event : String) (i : NodeId) : Option (List (Transition C)) :=
  match (chart.node? i).map (·.candidates event) with
  | none | some [] => none
  | some ts => some ts

/-- The transitions that a leaf offers for an event: those of the innermost node that has any. -/
def declared (chart : Chart C Env) (leaf : NodeId) (event : String) : List (Transition C) :=
  ((chart.lineage leaf).filterMap (chart.offered? event)).head?.getD []

/-- Whether automatic transitions lead from a leaf to rest within a number of steps, in every
context: the leaf has none, or one of them needs no guard and all of them lead to such leaves. -/
def comesToRest (chart : Chart C Env) : Nat → NodeId → Bool
  | 0, leaf => (chart.declared leaf Event.eventless.name).isEmpty
  | bound + 1, leaf =>
    let ts := chart.declared leaf Event.eventless.name
    ts.isEmpty || (ts.any (·.guard.isNone) && ts.all fun t =>
      !t.isInternal && t.target.any fun target => chart.comesToRest bound (chart.landing target))

/-- The key of a node. -/
def keyOf (chart : Chart C Env) (i : NodeId) : String := ((chart.node? i).map (·.key)).getD ""

/-- The transitions that end in a leaf with a certain key, each by the key of its owner and its
position there. -/
def waysTo (chart : Chart C Env) (key : String) : List (String × Nat) :=
  chart.nodes.flatMap fun n => n.on.zipIdx.filterMap fun e =>
    if e.1.2.target.any fun target => chart.keyOf (chart.landing target) == key then
      some (n.key, e.2)
    else none

/-- Whether a transition is taken from a leaf that is written down at a certain position of a
certain node: it is enabled there, and no earlier one for the event is. -/
structure TakenAt (chart : Chart C Env) (leaf : NodeId) (context : C) (event : String)
    (t : Transition C) (i : NodeId) (n : Node C Env) (k : Nat) : Prop where
  above : i ∈ chart.lineage leaf
  node : chart.node? i = some n
  position : n.on[k]? = some (event, t)
  enabled : t.isEnabled context = true
  first : ∀ j < k, ∀ t', n.on[j]? = some (event, t') → t'.isEnabled context = false

section

variable {chart : Chart C Env} {leaf : NodeId} {event : String}

/-! ## Offers and choices -/

lemma offered?_eq_some {i : NodeId} {ts : List (Transition C)} :
    chart.offered? event i = some ts ↔
      ∃ n, chart.node? i = some n ∧ n.candidates event = ts ∧ ts ≠ [] := by
  unfold offered?
  cases chart.node? i with
  | none => simp
  | some n => cases hts : n.candidates event <;> grind

lemma keyOf_of_node {i : NodeId} {n : Node C Env} (hn : chart.node? i = some n) :
    chart.keyOf i = n.key := by
  rw [keyOf, hn, Option.map_some, Option.getD_some]

lemma pathOf_of_node {i : NodeId} {n : Node C Env} (hn : chart.node? i = some n) :
    chart.pathOf i = n.path := by
  rw [pathOf, hn, Option.map_some, Option.getD_some]

/-- **Of what a leaf offers, the first that is enabled is taken.** -/
lemma choose?_eq (chart : Chart C Env) (leaf : NodeId) (context : C) (event : String) :
    chart.choose? leaf context event =
      (chart.declared leaf event).find? (·.isEnabled context) := by
  change ((chart.lineage leaf).filterMap (chart.offered? event)).head?.bind _ = _
  unfold declared
  cases (chart.lineage leaf).filterMap (chart.offered? event) <;> rfl

lemma mem_declared_of_choose? {context : C} {t : Transition C}
    (h : chart.choose? leaf context event = some t) : t ∈ chart.declared leaf event := by
  rw [choose?_eq] at h
  exact List.mem_of_find?_eq_some h

/-- A transition without a guard is always there to be taken, if no other one is. -/
lemma exists_choose? {t : Transition C} (ht : t ∈ chart.declared leaf event)
    (hguard : t.guard = none) (context : C) : ∃ t', chart.choose? leaf context event = some t' := by
  rw [← Option.isSome_iff_exists, choose?_eq, List.find?_isSome]
  exact ⟨t, ht, by simp [Transition.isEnabled, hguard]⟩

/-- What is offered belongs to a node of the lineage. -/
lemma exists_owner {t : Transition C} (h : t ∈ chart.declared leaf event) :
    ∃ i ∈ chart.lineage leaf, ∃ n, chart.node? i = some n ∧
      chart.declared leaf event = n.candidates event := by
  unfold declared at h ⊢
  cases hoffers : (chart.lineage leaf).filterMap (chart.offered? event) with
  | nil => simp [hoffers] at h
  | cons ts rest =>
      obtain ⟨i, hi, hts⟩ := List.mem_filterMap.1 (hoffers ▸ List.mem_cons_self :
        ts ∈ (chart.lineage leaf).filterMap (chart.offered? event))
      obtain ⟨n, hn, hcandidates, -⟩ := offered?_eq_some.1 hts
      exact ⟨i, hi, n, hn, hcandidates.symm⟩

/-- **A chosen transition is taken at some place.** -/
lemma exists_takenAt {context : C} {t : Transition C}
    (h : chart.choose? leaf context event = some t) :
    ∃ i n k, chart.TakenAt leaf context event t i n k := by
  obtain ⟨i, hi, n, hn, hdeclared⟩ := exists_owner (mem_declared_of_choose? h)
  rw [choose?_eq, hdeclared, Node.candidates, List.find?_map, List.find?_filter] at h
  obtain ⟨⟨name, t⟩, hfound, rfl⟩ := Option.map_eq_some_iff.1 h
  obtain ⟨henabled, k, hk, hget, hearlier⟩ := List.find?_eq_some_iff_getElem.1 hfound
  simp only [Function.comp_apply, decide_eq_true_eq, beq_iff_eq] at henabled
  obtain ⟨rfl, henabled⟩ := henabled
  refine ⟨i, n, k, hi, hn, List.getElem?_eq_some_iff.2 ⟨hk, hget⟩, henabled, fun j hj t' ht' => ?_⟩
  obtain ⟨hlt, hget'⟩ := List.getElem?_eq_some_iff.1 ht'
  simpa [hget'] using hearlier j hj

/-- A leaf that offers nothing has nothing of its own. -/
lemma candidates_of_declared_eq_nil {n : Node C Env} (hn : chart.node? leaf = some n)
    (h : chart.declared leaf event = []) : n.candidates event = [] := by
  by_contra hne
  have hoffered : chart.offered? event leaf = some (n.candidates event) :=
    offered?_eq_some.2 ⟨n, hn, rfl, hne⟩
  rw [declared, lineage_of_node hn, List.filterMap_cons_some hoffered] at h
  exact hne h

/-- What it takes to come to rest: nothing is left to do, or whatever is chosen leads on to a leaf
that comes to rest one step sooner. -/
lemma comesToRest_cases {bound : Nat} (h : chart.comesToRest bound leaf = true) :
    chart.declared leaf Event.eventless.name = [] ∨
      ∃ k, bound = k + 1 ∧
        (∃ t ∈ chart.declared leaf Event.eventless.name, t.guard = none) ∧
        ∀ t ∈ chart.declared leaf Event.eventless.name, t.isInternal = false ∧
          ∃ target, t.target = some target ∧ chart.comesToRest k (chart.landing target) = true := by
  cases bound with
  | zero => exact .inl (by simpa [comesToRest] using h)
  | succ k =>
      simp only [comesToRest, Bool.or_eq_true, List.isEmpty_iff, Bool.and_eq_true, List.any_eq_true,
        List.all_eq_true, Bool.not_eq_true', Option.isNone_iff_eq_none, Option.any_eq_true] at h
      exact h.imp_right fun hleads => ⟨k, rfl, hleads.1, hleads.2⟩

/-- A transition is one of the ways to where it ends. -/
lemma TakenAt.mem_waysTo {context : C} {t : Transition C} {i target : NodeId} {n : Node C Env}
    {k : Nat} (h : chart.TakenAt leaf context event t i n k) (htarget : t.target = some target) :
    (n.key, k) ∈ chart.waysTo (chart.keyOf (chart.landing target)) := by
  refine List.mem_flatMap.2 ⟨n, List.mem_of_getElem? h.node, List.mem_filterMap.2 ?_⟩
  exact ⟨((event, t), k), List.mk_mem_zipIdx_iff_getElem?.2 h.position, by simp [htarget]⟩

end

end Chart

/-! ## Charts without tasks -/

/-- A node whose invocation has nothing to do. -/
def Node.withoutTask (n : Node C Env) : Node C Unit :=
  { n with invoke := n.invoke.map fun v => ⟨v.id, fun _ => Task.succeed .null⟩ }

namespace Chart

/-- A chart whose invocations have nothing to do. -/
def withoutTasks (chart : Chart C Env) : Chart C Unit := ⟨chart.nodes.map Node.withoutTask⟩

variable (chart : Chart C Env)

@[simp] lemma size_withoutTasks : chart.withoutTasks.size = chart.size := by
  simp [withoutTasks, size]

@[simp] lemma node?_withoutTasks (i : NodeId) :
    chart.withoutTasks.node? i = (chart.node? i).map Node.withoutTask := by
  simp [withoutTasks, node?]

@[simp] lemma skeleton_withoutTasks : chart.withoutTasks.skeleton = chart.skeleton := by
  simp [withoutTasks, skeleton, Function.comp_def, Node.withoutTask]

@[simp] lemma lookup?_withoutTasks (reference : String) :
    chart.withoutTasks.lookup? reference = chart.lookup? reference := by
  simp [lookup?]

@[simp] lemma keyOf_withoutTasks (i : NodeId) : chart.withoutTasks.keyOf i = chart.keyOf i := by
  simp [keyOf, Function.comp_def, Node.withoutTask]

@[simp] lemma pathOf_withoutTasks (i : NodeId) :
    chart.withoutTasks.pathOf i = chart.pathOf i := by
  simp [pathOf, Function.comp_def, Node.withoutTask]

@[simp] lemma lineage_withoutTasks (i : NodeId) :
    chart.withoutTasks.lineage i = chart.lineage i := by
  simp [lineage, Function.comp_def, Node.withoutTask]

lemma initialDescentWithin_withoutTasks (fuel : Nat) (i : NodeId) :
    chart.withoutTasks.initialDescentWithin fuel i = chart.initialDescentWithin fuel i := by
  induction fuel generalizing i with
  | zero => rfl
  | succ fuel ih =>
      cases hn : chart.node? i <;> simp [initialDescentWithin, hn, ih, Node.withoutTask]

@[simp] lemma initialDescent_withoutTasks (i : NodeId) :
    chart.withoutTasks.initialDescent i = chart.initialDescent i := by
  rw [initialDescent, size_withoutTasks, initialDescentWithin_withoutTasks, initialDescent]

@[simp] lemma landing_withoutTasks (i : NodeId) :
    chart.withoutTasks.landing i = chart.landing i := by
  simp [landing]

@[simp] lemma encloses_withoutTasks (ancestor i : NodeId) :
    chart.withoutTasks.encloses ancestor i = chart.encloses ancestor i := by
  simp [encloses]

@[simp] lemma domain_withoutTasks (leaf target : NodeId) :
    chart.withoutTasks.domain leaf target = chart.domain leaf target := by
  simp [domain]

@[simp] lemma exitSet_withoutTasks (leaf domain : NodeId) :
    chart.withoutTasks.exitSet leaf domain = chart.exitSet leaf domain := by
  simp [exitSet]

@[simp] lemma entrySet_withoutTasks (domain target : NodeId) :
    chart.withoutTasks.entrySet domain target = chart.entrySet domain target := by
  simp [entrySet]

@[simp] lemma declared_withoutTasks (leaf : NodeId) (event : String) :
    chart.withoutTasks.declared leaf event = chart.declared leaf event := by
  have hoffered : chart.withoutTasks.offered? event = chart.offered? event := by
    funext i
    simp [offered?, Function.comp_def, Node.withoutTask, Node.candidates]
  rw [declared, declared, lineage_withoutTasks, hoffered]

@[simp] lemma comesToRest_withoutTasks (bound : Nat) (leaf : NodeId) :
    chart.withoutTasks.comesToRest bound leaf = chart.comesToRest bound leaf := by
  induction bound generalizing leaf with
  | zero => simp [comesToRest]
  | succ bound ih => simp [comesToRest, ih]

@[simp] lemma waysTo_withoutTasks (key : String) :
    chart.withoutTasks.waysTo key = chart.waysTo key := by
  simp only [waysTo, keyOf_withoutTasks, landing_withoutTasks]
  exact List.flatMap_map _ _ _

end Chart

end FormChart
