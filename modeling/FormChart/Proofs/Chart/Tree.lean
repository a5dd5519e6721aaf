import Mathlib.Data.List.Basic
import Mathlib.Tactic.Lemma
import FormChart.Chart.Build

/-!
# The table of a built chart is a tree

`Blueprint.outline` flattens a tree of nodes into a table and writes down, for every node, the nodes
above it.  This file says what a table that passed `Outline.defects` is like, in the form in which
the rest of the theory uses it: **`Chart.IsTree`**.

* Every node but the root has a parent *in the table and before it*, and what the node holds as its
  ancestors is the parent followed by the parent's own ancestors (`Outline.parent_in_table`).  This
  one fact makes all walks towards the root agree with each other.
* Only compound nodes are parents, and a compound node leads on to an initial child of its own.
* Targets of transitions are nodes of the table other than the root.

`Blueprint.isTree_of_build` is the result: every chart that `Blueprint.build` accepts is a tree.
-/

namespace FormChart

variable {C Env : Type}

/-- What holds of the table of every chart that was built from a blueprint. -/
structure Chart.IsTree (chart : Chart C Env) : Prop where
  /-- The root is there and stands below nothing. -/
  hasRoot : ∃ n, chart.node? Chart.root = some n ∧ n.ancestors = []
  /-- Any other node stands below a compound node, which comes earlier in the table. -/
  parent : ∀ {i n}, chart.node? i = some n → i ≠ Chart.root →
    ∃ p q, chart.node? p = some q ∧ n.ancestors = p :: q.ancestors ∧ p < i ∧ q.kind = .compound
  /-- A compound node leads on to one of its children. -/
  initial : ∀ {i n}, chart.node? i = some n → n.kind = .compound →
    ∃ c m, n.initial = some c ∧ chart.node? c = some m ∧ m.parent? = some i
  /-- No other node leads on. -/
  noInitial : ∀ {i n}, chart.node? i = some n → n.kind ≠ .compound → n.initial = none
  /-- Only atomic nodes invoke. -/
  invoke : ∀ {i n}, chart.node? i = some n → n.invoke.isSome → n.kind = .atomic
  /-- Transitions lead to nodes of the table, and never to the root. -/
  target : ∀ {i n event t target}, chart.node? i = some n → (event, t) ∈ n.on →
    t.target = some target → target ≠ Chart.root ∧ ∃ m, chart.node? target = some m

/-! ## The outline of a tree -/

namespace Blueprint

/-- Where a node of an outline stands: right below the node that the walk came from, or right below
an earlier node of the same outline.  `index` is the place of the outline's first node in the whole
table. -/
def Hangs (o : Outline C Env) (index : Nat) (above : List NodeId) (j : Nat)
    (n : Outlined C Env) : Prop :=
  n.ancestors = above ∨
    ∃ (p : Nat) (q : Outlined C Env), o[p]? = some q ∧
      n.ancestors = (index + p) :: q.ancestors ∧ p < j ∧ q.blueprint.children ≠ []

lemma Hangs.append_left {o : Outline C Env} {index : Nat} {above : List NodeId} {j : Nat}
    {n : Outlined C Env} (h : Hangs o index above j n) (rest : Outline C Env) :
    Hangs (o ++ rest) index above j n := by
  rcases h with h | ⟨p, q, hq, hn, hp, hc⟩
  · exact .inl h
  · have hlt : p < o.length := (List.getElem?_eq_some_iff.1 hq).1
    exact .inr ⟨p, q, by rw [List.getElem?_append_left hlt, hq], hn, hp, hc⟩

lemma Hangs.append_right {o : Outline C Env} {index : Nat} {above : List NodeId} {j : Nat}
    {n : Outlined C Env} (first : Outline C Env)
    (h : Hangs o (index + first.length) above j n) :
    Hangs (first ++ o) index above (first.length + j) n := by
  rcases h with h | ⟨p, q, hq, hn, hp, hc⟩
  · exact .inl h
  · refine .inr ⟨first.length + p, q, ?_, ?_, by omega, hc⟩
    · rw [List.getElem?_append_right (by omega), Nat.add_sub_cancel_left, hq]
    · rw [hn, Nat.add_assoc]

mutual

/-- The first node of an outline is the tree's own root, and every node hangs somewhere. -/
lemma outlineFrom_hangs (above : List NodeId) (path : String) (index : Nat) :
    ∀ b : Blueprint C Env,
      (∃ rest, outlineFrom above path index b = ⟨⟨b.key, path, b.id, above⟩, b⟩ :: rest) ∧
      ∀ j n, (outlineFrom above path index b)[j]? = some n → j ≠ 0 →
        ∃ (p : Nat) (q : Outlined C Env), (outlineFrom above path index b)[p]? = some q ∧
          n.ancestors = (index + p) :: q.ancestors ∧ p < j ∧ q.blueprint.children ≠ []
  | ⟨key, kind, id, initial, entry, exit, on, invoke, route, children⟩ => by
      have ih := outlineChildren_hangs (index :: above) path (index + 1) children
      rw [outlineFrom]
      refine ⟨⟨_, rfl⟩, fun j n hj hne => ?_⟩
      obtain ⟨k, rfl⟩ := Nat.exists_eq_succ_of_ne_zero hne
      rw [List.getElem?_cons_succ] at hj
      rcases ih k n hj with hn | ⟨p, q, hq, hn, hp, hc⟩
      · -- a child of the root: the walk came from the root itself
        refine ⟨0, _, rfl, hn, by omega, ?_⟩
        rintro rfl
        simp [outlineChildren] at hj
      · exact ⟨p + 1, q, by rw [List.getElem?_cons_succ, hq],
          by rw [hn]; congr 1; omega, by omega, hc⟩

/-- Every node of the outlines of some children hangs somewhere. -/
lemma outlineChildren_hangs (above : List NodeId) (path : String) (index : Nat) :
    ∀ bs : List (Blueprint C Env), ∀ j n,
      (outlineChildren above path index bs)[j]? = some n →
        Hangs (outlineChildren above path index bs) index above j n
  | [] => by simp [outlineChildren]
  | b :: rest => by
      intro j n hj
      have hb := outlineFrom_hangs above (Place.childPath path b.key) index b
      have hrest := outlineChildren_hangs above path
        (index + (outlineFrom above (Place.childPath path b.key) index b).length) rest
      rw [outlineChildren] at hj ⊢
      set first := outlineFrom above (Place.childPath path b.key) index b
      by_cases hlt : j < first.length
      · rw [List.getElem?_append_left hlt] at hj
        refine Hangs.append_left ?_ _
        by_cases h0 : j = 0
        · obtain ⟨tail, htail⟩ := hb.1
          subst h0
          rw [htail] at hj
          cases hj
          exact .inl rfl
        · exact .inr (hb.2 j n hj h0)
      · obtain ⟨k, rfl⟩ := Nat.exists_eq_add_of_le (Nat.not_lt.1 hlt)
        rw [List.getElem?_append_right (by omega), Nat.add_sub_cancel_left] at hj
        exact (hrest k n hj).append_right first

end

end Blueprint

namespace Outline

/-- **Every node but the first has its parent in the table**, before it, and knows exactly the
nodes above the parent besides the parent itself. -/
lemma parent_in_table (b : Blueprint C Env) {i : NodeId} {n : Outlined C Env}
    (h : b.outline[i]? = some n) (hi : i ≠ 0) :
    ∃ p q, b.outline[p]? = some q ∧ n.ancestors = p :: q.ancestors ∧ p < i ∧
      q.blueprint.children ≠ [] := by
  simpa [Blueprint.outline, Skeleton.root] using
    (Blueprint.outlineFrom_hangs [] "" Skeleton.root b).2 i n h hi

/-- The first node of the table is the root of the tree, below nothing. -/
lemma root_in_table (b : Blueprint C Env) :
    b.outline[0]? = some ⟨⟨b.key, "", b.id, []⟩, b⟩ := by
  obtain ⟨rest, h⟩ := (Blueprint.outlineFrom_hangs [] "" Skeleton.root b).1
  rw [Blueprint.outline, h]
  rfl

end Outline

/-! ## Finding nodes by name -/

namespace Skeleton

lemma mem_childrenOf {s : Skeleton} {node i : NodeId} :
    i ∈ s.childrenOf node ↔ ∃ p, s[i]? = some p ∧ p.parent? = some node := by
  simp only [childrenOf, List.mem_filter, List.mem_range, beq_iff_eq, Option.bind_eq_some_iff]
  constructor
  · rintro ⟨_, h⟩
    exact h
  · rintro ⟨p, hp, hparent⟩
    exact ⟨(List.getElem?_eq_some_iff.1 hp).1, p, hp, hparent⟩

/-- A child that is found by its key is a child. -/
lemma parent_of_child? {s : Skeleton} {node i : NodeId} {key : String}
    (h : s.child? node key = some i) : ∃ p, s[i]? = some p ∧ p.parent? = some node :=
  mem_childrenOf.1 (List.mem_of_find?_eq_some h)

lemma descend?_lt {s : Skeleton} {keys : List String} :
    ∀ {node i : NodeId}, node < s.length → s.descend? node keys = some i → i < s.length := by
  induction keys with
  | nil =>
      intro node i hnode h
      simp only [descend?, List.foldlM_nil, Option.pure_def, Option.some.injEq] at h
      exact h ▸ hnode
  | cons key rest ih =>
      intro node i _ h
      simp only [descend?, List.foldlM_cons, Option.bind_eq_bind, Option.bind_eq_some_iff] at h
      obtain ⟨child, hchild, hrest⟩ := h
      obtain ⟨p, hp, _⟩ := parent_of_child? hchild
      exact ih (List.getElem?_eq_some_iff.1 hp).1 hrest

lemma withId?_lt {s : Skeleton} {id : String} {i : NodeId} (h : s.withId? id = some i) :
    i < s.length := by
  have := List.mem_of_find?_eq_some h
  simpa using this

lemma withPath?_lt {s : Skeleton} {path : String} {i : NodeId} (h : s.withPath? path = some i) :
    i < s.length := by
  have := List.mem_of_find?_eq_some h
  simpa using this

/-- A global id with keys after it names a node of the table, if it names one. -/
lemma resolve?_id_lt {s : Skeleton} {owner i : NodeId} {target : String} {cs : List Char}
    (htarget : target.toList = '#' :: cs) (h : s.resolve? owner target = some i) :
    i < s.length := by
  simp only [resolve?, htarget] at h
  split at h
  · simp at h
  · simp only [Option.bind_eq_bind, Option.bind_eq_some_iff] at h
    obtain ⟨start, hstart, hrest⟩ := h
    exact descend?_lt (withId?_lt hstart) hrest

/-- A target that resolves is a node of the table. -/
lemma resolve?_lt {s : Skeleton} {owner i : NodeId} {target : String} (howner : owner < s.length)
    (hparent : ∀ p, s[owner]?.bind Place.parent? = some p → p < s.length)
    (h : s.resolve? owner target = some i) : i < s.length := by
  have hid := h
  unfold resolve? at h
  split at h
  next cs htarget => exact resolve?_id_lt htarget hid
  · exact descend?_lt howner h
  · simp only [Option.bind_eq_bind, Option.bind_eq_some_iff] at h
    obtain ⟨p, hp, hrest⟩ := h
    exact descend?_lt (hparent p (by simpa [Option.bind_eq_some_iff] using hp)) hrest

/-- A reference that is found is a node of the table. -/
lemma lookup?_lt {s : Skeleton} {reference : String} {i : NodeId}
    (h : s.lookup? reference = some i) : i < s.length := by
  unfold lookup? at h
  split at h
  next cs hreference => exact resolve?_id_lt hreference h
  · exact withPath?_lt h

end Skeleton

lemma Chart.node?_of_lookup? {chart : Chart C Env} {reference : String} {i : NodeId}
    (h : chart.lookup? reference = some i) : ∃ n, chart.node? i = some n := by
  have hlt : i < chart.nodes.length := by simpa [Chart.skeleton] using Skeleton.lookup?_lt h
  exact ⟨_, List.getElem?_eq_getElem hlt⟩

/-! ## What having no defects means -/

namespace Outline

variable {o : Outline C Env}

@[simp] lemma defect_unless_eq_nil {ok : Bool} {d : Defect} :
    Defect.unless ok d = [] ↔ ok = true := by
  cases ok <;> simp [Defect.unless]

lemma shapeDefects_eq_nil (h : o.defects = []) {i : NodeId} {n : Outlined C Env}
    (hn : o[i]? = some n) : n.shapeDefects = [] := by
  simp only [defects, List.append_eq_nil_iff, List.flatMap_eq_nil_iff] at h
  exact h.1.1 n (List.mem_of_getElem? hn)

lemma referenceDefects_eq_nil (h : o.defects = []) {i : NodeId} {n : Outlined C Env}
    (hn : o[i]? = some n) : o.referenceDefects i n = [] := by
  simp only [defects, List.append_eq_nil_iff, List.flatMap_eq_nil_iff] at h
  exact h.2 (n, i) (List.mk_mem_zipIdx_iff_getElem?.2 hn)

/-- Only compound nodes have children. -/
lemma compound_of_children (h : o.defects = []) {i : NodeId} {n : Outlined C Env}
    (hn : o[i]? = some n) (hc : n.blueprint.children ≠ []) : n.blueprint.kind = .compound := by
  have hs := shapeDefects_eq_nil h hn
  by_contra hk
  simp [Outlined.shapeDefects, hk, hc] at hs

/-- Only compound nodes name an initial child, and that child is found. -/
lemma exists_initial (h : o.defects = []) {i : NodeId} {n : Outlined C Env}
    (hn : o[i]? = some n) (hk : n.blueprint.kind = .compound) :
    ∃ c p, o.initial? i n = some c ∧ o.skeleton[c]? = some p ∧ p.parent? = some i := by
  have hr := referenceDefects_eq_nil h hn
  simp only [referenceDefects, List.append_eq_nil_iff, initialDefects, if_pos hk] at hr
  cases hi : n.blueprint.initial with
  | none => simp [hi] at hr
  | some key =>
      simp only [hi, defect_unless_eq_nil] at hr
      obtain ⟨c, hc⟩ := Option.isSome_iff_exists.1 hr.1
      obtain ⟨p, hp, hparent⟩ := Skeleton.parent_of_child? hc
      exact ⟨c, p, by simp [initial?, hk, hi, hc], hp, hparent⟩

lemma atomic_of_invoke (h : o.defects = []) {i : NodeId} {n : Outlined C Env}
    (hn : o[i]? = some n) (hv : n.blueprint.invoke.isSome) : n.blueprint.kind = .atomic := by
  have hs := shapeDefects_eq_nil h hn
  obtain ⟨v, hv⟩ := Option.isSome_iff_exists.1 hv
  simp only [Outlined.shapeDefects, List.append_eq_nil_iff, defect_unless_eq_nil] at hs
  simpa [hv] using hs.1.2

/-- Targets resolve, and not to the root. -/
lemma exists_target (h : o.defects = []) {i : NodeId} {n : Outlined C Env}
    (hn : o[i]? = some n) {a : String × Arrow C} (ha : a ∈ n.blueprint.arrows) {name : String}
    (hname : a.2.target = some name) :
    ∃ target, o.skeleton.resolve? i name = some target ∧ target ≠ Skeleton.root := by
  have hr := referenceDefects_eq_nil h hn
  simp only [referenceDefects, List.append_eq_nil_iff, List.flatMap_eq_nil_iff] at hr
  have ht := hr.2 a ha
  simp only [targetDefects, hname] at ht
  cases hres : o.skeleton.resolve? i name with
  | none => simp [hres] at ht
  | some target => exact ⟨target, rfl, by simpa [hres] using ht⟩

/-! ## The chart of an outline -/

lemma node?_chart (o : Outline C Env) (i : NodeId) :
    o.chart.node? i = (o[i]?).map (o.node i) := by
  simp [chart, Chart.node?, List.getElem?_map, List.getElem?_zipIdx]
  rfl

lemma node?_chart_eq_some {i : NodeId} {n : Node C Env} :
    o.chart.node? i = some n ↔ ∃ m, o[i]? = some m ∧ o.node i m = n := by
  rw [node?_chart, Option.map_eq_some_iff]

lemma getElem?_skeleton (o : Outline C Env) (i : NodeId) :
    o.skeleton[i]? = (o[i]?).map Outlined.toPlace := by
  simp [skeleton]

end Outline

/-- **Every chart that is built is a tree.** -/
theorem Blueprint.isTree_of_build {b : Blueprint C Env} {chart : Chart C Env}
    (h : b.build = .ok chart) : chart.IsTree := by
  have hd : b.outline.defects = [] ∧ chart = b.outline.chart := by
    unfold Blueprint.build at h
    split at h
    next hd => exact ⟨hd, by cases h; rfl⟩
    next => cases h
  obtain ⟨hd, rfl⟩ := hd
  have hparent : ∀ i p : Nat, b.outline.skeleton[i]?.bind Place.parent? = some p →
      p < b.outline.skeleton.length := by
    intro i p hp
    simp only [Outline.getElem?_skeleton, Option.bind_eq_some_iff, Option.map_eq_some_iff] at hp
    obtain ⟨_, ⟨n, hn, rfl⟩, hp⟩ := hp
    by_cases hi : i = 0
    · subst hi
      rw [Outline.root_in_table] at hn
      cases hn
      simp [Place.parent?] at hp
    · obtain ⟨p', q, hq, hanc, -, -⟩ := Outline.parent_in_table b hn hi
      simp only [Place.parent?, hanc, List.head?_cons, Option.some.injEq] at hp
      subst hp
      simpa [Outline.skeleton] using (List.getElem?_eq_some_iff.1 hq).1
  refine ⟨?_, ?_, ?_, ?_, ?_, ?_⟩
  · refine ⟨_, Outline.node?_chart_eq_some.2 ⟨_, Outline.root_in_table b, rfl⟩, rfl⟩
  · intro i n hn hi
    obtain ⟨m, hm, rfl⟩ := Outline.node?_chart_eq_some.1 hn
    obtain ⟨p, q, hq, hanc, hlt, hc⟩ := Outline.parent_in_table b hm hi
    exact ⟨p, _, Outline.node?_chart_eq_some.2 ⟨q, hq, rfl⟩, hanc, hlt,
      Outline.compound_of_children hd hq hc⟩
  · intro i n hn hk
    obtain ⟨m, hm, rfl⟩ := Outline.node?_chart_eq_some.1 hn
    obtain ⟨c, p, hc, hp, hparent⟩ := Outline.exists_initial hd hm hk
    rw [Outline.getElem?_skeleton, Option.map_eq_some_iff] at hp
    obtain ⟨q, hq, rfl⟩ := hp
    exact ⟨c, _, hc, Outline.node?_chart_eq_some.2 ⟨q, hq, rfl⟩, hparent⟩
  · intro i n hn hk
    obtain ⟨m, -, rfl⟩ := Outline.node?_chart_eq_some.1 hn
    exact if_neg hk
  · intro i n hn hv
    obtain ⟨m, hm, rfl⟩ := Outline.node?_chart_eq_some.1 hn
    exact Outline.atomic_of_invoke hd hm (by simpa [Outline.node] using hv)
  · intro i n event t target hn ht htarget
    obtain ⟨m, hm, rfl⟩ := Outline.node?_chart_eq_some.1 hn
    simp only [Outline.node, List.mem_map, Prod.mk.injEq] at ht
    obtain ⟨a, ha, -, rfl⟩ := ht
    simp only [Outline.transition, Option.bind_eq_some_iff] at htarget
    obtain ⟨name, hname, hres⟩ := htarget
    obtain ⟨target', hres', hne⟩ := Outline.exists_target hd hm ha hname
    rw [hres] at hres'
    cases hres'
    have hi : i < b.outline.skeleton.length := by
      simpa [Outline.skeleton] using (List.getElem?_eq_some_iff.1 hm).1
    have hlt := Skeleton.resolve?_lt hi (hparent i) hres
    have hlt' : target < b.outline.length := by simpa [Outline.skeleton] using hlt
    exact ⟨hne, _, Outline.node?_chart_eq_some.2 ⟨_, List.getElem?_eq_getElem hlt', rfl⟩⟩

end FormChart
