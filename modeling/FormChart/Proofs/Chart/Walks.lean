import Mathlib.Logic.Relation
import FormChart.Proofs.Chart.Subtrees

/-!
# Walks along links

A node of a chart has two links: one upwards, to its parent, and one downwards, to the child that is
entered with it.  A walk follows links of one kind until a node has none; `Follows next i l` says
that it comes to an end, and that it meets the nodes of `l`.  Only the table keeps it from going on
for ever.

In a tree **both walks end**, and what `Chart` computes without walking, or with a bound on the
number of steps, is what they meet: a lineage is the walk upwards from a node
(`IsTree.follows_lineage`), and it ends at the root; an initial descent is the walk downwards
(`IsTree.follows_initialDescent`), and it ends at a node without children.

So a lineage holds exactly the nodes that upward links lead to (`IsTree.mem_lineage_iff`).
-/

namespace FormChart

/-- What a walk meets that follows links from a node until there is none. -/
inductive Follows (next : NodeId → Option NodeId) : NodeId → List NodeId → Prop
  | stop {i : NodeId} : next i = none → Follows next i [i]
  | step {i j : NodeId} {l : List NodeId} : next i = some j → Follows next j l →
      Follows next i (i :: l)

namespace Chart

variable {C Env : Type} {chart : Chart C Env} {i j a : NodeId} {n : Node C Env}

/-- The child that is entered with a node. -/
def initial? (chart : Chart C Env) (i : NodeId) : Option NodeId :=
  (chart.node? i).bind (·.initial)

/-- Whether a node lies strictly above another one: links to parents lead there, one at least. -/
def Above (chart : Chart C Env) (a i : NodeId) : Prop :=
  Relation.TransGen (fun i j => chart.parent? i = some j) i a

/-- Whether a node is another one or lies above it. -/
def AtOrAbove (chart : Chart C Env) (a i : NodeId) : Prop :=
  Relation.ReflTransGen (fun i j => chart.parent? i = some j) i a

/-- The walk downwards ends where an entry ends. -/
lemma getLast?_initialDescent (chart : Chart C Env) (i : NodeId) :
    (i :: chart.initialDescent i).getLast? = some (chart.landing i) := by
  rw [List.getLast?_cons, landing, List.getLastD_eq_getLast?]

namespace IsTree

variable (h : chart.IsTree)

include h

/-! ## Upwards -/

/-- The same step up, for a node whose parent is known. -/
lemma lineage_of_parent? (hp : chart.parent? i = some j) :
    (∃ m, chart.node? j = some m) ∧ chart.lineage i = i :: chart.lineage j := by
  obtain ⟨n, hn, -⟩ := Option.bind_eq_some_iff.1 hp
  have hi : i ≠ root := by
    rintro rfl
    simp [h.parent?_root] at hp
  obtain ⟨p, q, hq, -, hp', hline, -⟩ := h.lineage_step hn hi
  obtain rfl := Option.some.inj (hp.symm.trans hp')
  exact ⟨⟨q, hq⟩, hline⟩

/-- **The walk upwards meets the lineage.** -/
lemma follows_lineage (hn : chart.node? i = some n) :
    Follows chart.parent? i (chart.lineage i) := by
  refine h.induct (fun i => Follows chart.parent? i (chart.lineage i)) ?_ ?_ hn
  · rw [h.lineage_root]
    exact .stop h.parent?_root
  · intro i p _ _ _ hp hline _ ih
    rw [hline]
    exact .step hp ih

/-- It ends at the root. -/
lemma getLast?_lineage (hn : chart.node? i = some n) :
    (chart.lineage i).getLast? = some root := by
  refine h.induct (fun i => (chart.lineage i).getLast? = some root) ?_ ?_ hn
  · rw [h.lineage_root]
    rfl
  · intro i p _ _ _ _ hline _ ih
    obtain ⟨above, hp⟩ := chart.lineage_eq_cons p
    rw [hp] at hline ih
    rw [hline, List.getLast?_cons_cons, ih]

/-- **A lineage holds what links lead up to.** -/
lemma mem_lineage_iff (hn : chart.node? i = some n) :
    a ∈ chart.lineage i ↔ chart.AtOrAbove a i := by
  constructor
  · refine h.induct (fun i => a ∈ chart.lineage i → chart.AtOrAbove a i) ?_ ?_ hn
    · intro ha
      rw [h.lineage_root, List.mem_singleton] at ha
      exact ha ▸ .refl
    · intro i p _ _ _ hp hline _ ih ha
      rw [hline] at ha
      rcases List.mem_cons.1 ha with rfl | ha
      · exact .refl
      · exact .head hp (ih ha)
  · intro ha
    induction ha using Relation.ReflTransGen.head_induction_on generalizing n with
    | refl => exact List.mem_cons_self
    | head hp _ ih =>
        obtain ⟨⟨m, hm⟩, hline⟩ := h.lineage_of_parent? hp
        rw [hline]
        exact List.mem_cons_of_mem _ (ih hm)

/-- Above a node there is the rest of its lineage. -/
lemma mem_tail_lineage_iff (hn : chart.node? i = some n) :
    a ∈ (chart.lineage i).tail ↔ chart.Above a i := by
  rw [Above, Relation.TransGen.head'_iff]
  by_cases hi : i = root
  · subst hi
    simp [h.lineage_root, h.parent?_root]
  · obtain ⟨p, q, hq, -, hp, hline, -⟩ := h.lineage_step hn hi
    simp only [hline, List.tail_cons, hp, Option.some.injEq, exists_eq_left']
    exact h.mem_lineage_iff hq

/-- Nothing lies above itself. -/
lemma not_above_self (hn : chart.node? i = some n) : ¬ chart.Above i i := by
  rw [← h.mem_tail_lineage_iff hn]
  exact (List.nodup_cons.1 (h.lineage_nodup hn)).1

/-! ## Downwards -/

lemma follows_initialDescentWithin :
    ∀ (fuel : Nat) {i : Nat} {n : Node C Env}, chart.node? i = some n → chart.size ≤ i + fuel →
      Follows chart.initial? i (i :: chart.initialDescentWithin fuel i)
  | 0, i, n, hn, hfuel => absurd (lt_size_of_node hn) (Nat.not_lt.2 hfuel)
  | fuel + 1, i, n, hn, hfuel => by
      by_cases hk : n.kind = .compound
      · obtain ⟨c, m, hc, hm, hparent⟩ := h.initial hn hk
        have hlink : chart.initial? i = some c := by rw [initial?, hn, Option.bind_some, hc]
        have hlt : i < c := h.lt_child hm hparent
        have hdescent : chart.initialDescentWithin (fuel + 1) i =
            c :: chart.initialDescentWithin fuel c := by
          simp [initialDescentWithin, hn, hc]
        rw [hdescent]
        exact .step hlink (follows_initialDescentWithin fuel hm (by omega))
      · have hlink : chart.initial? i = none := by
          rw [initial?, hn, Option.bind_some, h.noInitial hn hk]
        have hdescent : chart.initialDescentWithin (fuel + 1) i = [] := by
          simp [initialDescentWithin, hn, h.noInitial hn hk]
        rw [hdescent]
        exact .stop hlink

/-- **The walk downwards meets the initial descent**, whose bound is never reached. -/
lemma follows_initialDescent (hn : chart.node? i = some n) :
    Follows chart.initial? i (i :: chart.initialDescent i) :=
  h.follows_initialDescentWithin chart.size hn (Nat.le_add_left _ _)

end IsTree

/-! ## Nodes without children -/

section Build

variable {b : Blueprint C Env} (h : b.build = .ok chart)

include h

/-- **Links to children and to parents are the same links.** -/
lemma mem_children_iff (hn : chart.node? i = some n) :
    j ∈ n.children ↔ chart.parent? j = some i := by
  obtain rfl := Blueprint.chart_of_build h
  obtain ⟨m, -, rfl⟩ := Outline.node?_chart_eq_some.1 hn
  have hchildren : (b.outline.node i m).children = b.outline.skeleton.childrenOf i := rfl
  rw [hchildren, Skeleton.mem_childrenOf, parent?, Option.bind_eq_some_iff, Outline.node?_chart,
    Outline.getElem?_skeleton]
  cases b.outline[j]? with
  | none => simp
  | some o => simp [Outline.node]

/-- The leaves are the nodes without children. -/
lemma childless_iff (hn : chart.node? i = some n) : n.children = [] ↔ chart.IsLeaf i := by
  have htree := Blueprint.isTree_of_build h
  rw [isLeaf_iff hn, List.eq_nil_iff_forall_not_mem]
  constructor
  · intro hnone hk
    obtain ⟨c, m, -, hm, hparent⟩ := htree.initial hn hk
    exact hnone c ((mem_children_iff h hn).2 (by rw [parent?, hm, Option.bind_some, hparent]))
  · intro hk c hc
    obtain ⟨m, hm, hparent⟩ := Option.bind_eq_some_iff.1 ((mem_children_iff h hn).1 hc)
    have hbelow : c ≠ root := by
      rintro rfl
      have hnone := htree.parent?_root
      rw [parent?, hm, Option.bind_some, hparent] at hnone
      cases hnone
    obtain ⟨p, q, hq, hanc, -, hkind⟩ := htree.parent hm hbelow
    rw [Place.parent?, hanc, List.head?_cons, Option.some.injEq] at hparent
    subst hparent
    obtain rfl := Option.some.inj (hq.symm.trans hn)
    exact hk hkind

/-- An entry ends at a node without children. -/
lemma childless_landing (hn : chart.node? i = some n) :
    ∃ m, chart.node? (chart.landing i) = some m ∧ m.children = [] := by
  have hleaf := (Blueprint.isTree_of_build h).isLeaf_landing hn
  obtain ⟨m, hm, -⟩ := id hleaf
  exact ⟨m, hm, (childless_iff h hm).2 hleaf⟩

end Build

end Chart

end FormChart
