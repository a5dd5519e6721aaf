import FormChart.Proofs.Chart.Growth
import FormChart.Proofs.Chart.Paths
import FormChart.Proofs.Chart.Walks

/-!
# A chart is its blueprint, laid flat

The nodes of a blueprint form a tree, and those of a chart a table.  **`Chart.Flattens`** says what
it means that the table is the tree: the nodes stand in preorder, each at the index of its address
and with all that is written down there; links between them are those of the tree; and references
have been replaced by the nodes that they name.

`Chart.flattens_of_build` is the result.  What is at stake for the machine is that nothing it
follows leads out of the table or round in circles.
-/

namespace FormChart

variable {C Env : Type}

/-- Whether a node is what is written down at the root of a tree, references apart. -/
structure Node.Copies (n : Node C Env) (s : Blueprint C Env) : Prop where
  key : n.key = s.key
  id : n.id = s.id
  kind : n.kind = s.kind
  entry : n.entry = s.entry
  exit : n.exit = s.exit
  invoke : n.invoke = s.invoke.map fun v => ⟨v.id, v.task⟩
  route : n.route = s.route

/-- Whether a node is what has been collected in a row. -/
structure Node.Fills (n : Node C Env) (r : Row C Env) : Prop where
  copies : n.Copies r.blueprint
  path : n.path = r.path
  parent : n.parent? = r.parent
  children : n.children = r.children

/-- The transitions at the root of a tree for an event: those that are declared for it, followed by
those for the end of the invocation, if this is what the event reports. -/
def Blueprint.candidates (b : Blueprint C Env) (event : String) : List (Arrow C) :=
  (b.on.filter (·.1 == event)).map (·.2) ++ (b.invoke.map fun v =>
    (if Event.doneInvoke v.id = event then v.onDone else []) ++
      (if Event.errorInvoke v.id = event then v.onError else [])).getD []

namespace Chart

/-- Whether a transition is what is written down at an address, with the target found. -/
structure Resolves (chart : Chart C Env) (b : Blueprint C Env) (owner : List Nat) (a : Arrow C)
    (t : Transition C) : Prop where
  guard : t.guard = a.guard
  actions : t.actions = a.actions
  isInternal : t.isInternal = a.isInternal
  stays : a.target = none → t.target = none
  leads : ∀ {name}, a.target = some name → ∃ i, t.target = some i ∧ i ≠ root ∧ i < chart.size ∧
    ∃ v, b.Names owner name v ∧ b.index v = i

/-- Whether the table of a chart is the tree of a blueprint. -/
structure Flattens (chart : Chart C Env) (b : Blueprint C Env) : Prop where
  /-- The nodes are those of the tree, each before the nodes below it. -/
  preorder : List.Forall₂ Node.Copies chart.nodes b.subtrees
  /-- They are what a single pass over the tree collects. -/
  grown : List.Forall₂ Node.Fills chart.nodes (b.grow none []).2
  /-- The root comes first, and it alone has no parent. -/
  root : b.index [] = root ∧
    ∀ {i n}, chart.node? i = some n → (chart.parent? i = none ↔ i = root)
  /-- The node with an address stands at its index, and leads to its children in their order. -/
  address : ∀ {w s}, b.at? w = some s → ∃ n, chart.node? (b.index w) = some n ∧ n.Copies s ∧
    n.path = b.pathAt w ∧
    n.children = (List.range s.children.length).map fun k => b.index (w ++ [k])
  /-- There is nothing else in the table, and it has the order of the addresses. -/
  onto : ∀ {i n}, chart.node? i = some n → ∃ w s, b.at? w = some s ∧ b.index w = i
  order : ∀ {v w m n}, b.at? v = some m → b.at? w = some n → (b.index v < b.index w ↔ v < w)
  /-- Links to children and links to parents are inverse to each other. -/
  links : ∀ {i n j}, chart.node? i = some n → (j ∈ n.children ↔ chart.parent? j = some i)
  /-- A parent is in the table, before its children. -/
  parent : ∀ {i j}, chart.parent? j = some i → i < j ∧ ∃ n, chart.node? i = some n
  /-- A compound node leads on to the child that it names, and no other node leads on. -/
  initial : ∀ {w s n}, b.at? w = some s → chart.node? (b.index w) = some n → n.kind = .compound →
    ∃ k c, s.children[k]? = some c ∧ s.initial = some c.key ∧
      n.initial = some (b.index (w ++ [k])) ∧ b.index (w ++ [k]) ∈ n.children
  noInitial : ∀ {i n}, chart.node? i = some n → n.kind ≠ .compound → n.initial = none
  /-- Walks upwards end at the root. -/
  upwards : ∀ {i n}, chart.node? i = some n →
    Follows chart.parent? i (chart.lineage i) ∧ (chart.lineage i).getLast? = some Chart.root
  /-- Walks downwards end at nodes without children. -/
  downwards : ∀ {i n}, chart.node? i = some n →
    Follows chart.initial? i (i :: chart.initialDescent i) ∧
      ∃ l m, (i :: chart.initialDescent i).getLast? = some l ∧ chart.node? l = some m ∧
        m.children = []
  /-- Every event has the transitions that are written down for it, in their order. -/
  candidates : ∀ {w s n}, b.at? w = some s → chart.node? (b.index w) = some n → ∀ event,
    List.Forall₂ (chart.Resolves b w) (s.candidates event) (n.candidates event)

end Chart

/-! ## Rows -/

namespace Blueprint

variable {b s n : Blueprint C Env} {w : List Nat}

/-- Where a child is listed, beside its parent. -/
lemma index_concat (hn : b.at? w = some n) {k : Nat} (hk : k < n.children.length) :
    b.index (w ++ [k]) = b.index w + 1 + offset n.children k := by
  induction w generalizing b with
  | nil =>
      obtain rfl : b = n := by simpa using hn
      rw [List.nil_append, index_cons (List.getElem?_eq_getElem hk), Blueprint.index,
        Blueprint.index]
      omega
  | cons l w ih =>
      obtain ⟨c, hc, hn⟩ := at?_cons_eq_some.1 hn
      rw [List.cons_append, index_cons hc, index_cons hc, ih hn]
      omega

/-- The children of a node follow it one after the other, each at the head of its subtree. -/
lemma childrenOf_eq_rootsFrom {i : NodeId} {m : Outlined C Env} (hm : b.outline[i]? = some m) :
    b.outline.skeleton.childrenOf i = rootsFrom (i + 1) m.blueprint.children := by
  obtain ⟨w, n, hn, rfl, rfl⟩ := exists_address hm
  rw [childrenOf_index hn, rootsFrom]
  exact List.map_congr_left fun k hk => index_concat hn (List.mem_range.1 hk)

lemma copies_node (b n : Blueprint C Env) (w : List Nat) (i : NodeId) :
    (b.outline.node i (b.entryAt n w)).Copies n :=
  ⟨rfl, rfl, rfl, rfl, rfl, rfl, rfl⟩

/-- **The nodes of the chart fill the rows of the table that grows.** -/
lemma fills_grow (b : Blueprint C Env) :
    List.Forall₂ Node.Fills b.outline.chart.nodes (b.grow none []).2 := by
  rw [grow_root, List.forall₂_iff_get]
  have hlength : b.outline.chart.nodes.length = b.outline.length := by
    rw [Outline.chart, List.length_map, List.length_zipIdx]
  refine ⟨by rw [hlength, length_rows], fun i hi hi' => ?_⟩
  have hlt : i < b.outline.length := hlength ▸ hi
  obtain ⟨w, n, hn, hindex, hm⟩ := exists_address (List.getElem?_eq_getElem hlt)
  have hnode : b.outline.chart.nodes.get ⟨i, hi⟩ = b.outline.node i (b.entryAt n w) := by
    simp [Outline.chart, ← hm]
  have hrow : (rows Skeleton.root b.outline).get ⟨i, hi'⟩ =
      ⟨n, b.pathAt w, (b.entryAt n w).parent?, rootsFrom (i + 1) n.children⟩ := by
    simp [rows, hm, entryAt, Skeleton.root]
  have hchildren := childrenOf_eq_rootsFrom (List.getElem?_eq_getElem hlt)
  rw [hm] at hchildren
  rw [hnode, hrow]
  exact ⟨copies_node b n w i, rfl, rfl, hchildren⟩

lemma map_blueprint_rows (index : NodeId) (o : Outline C Env) :
    (rows index o).map (·.blueprint) = o.map (·.blueprint) := by
  induction o generalizing index with
  | nil => rfl
  | cons m o ih => rw [rows_cons, List.map_cons, ih, List.map_cons]

/-- **The nodes of the chart are the subtrees in preorder.** -/
lemma copies_subtrees (b : Blueprint C Env) :
    List.Forall₂ Node.Copies b.outline.chart.nodes b.subtrees := by
  have hrows : b.subtrees = (b.grow none []).2.map (·.blueprint) := by
    rw [grow_root, map_blueprint_rows, map_blueprint_outline]
  rw [hrows, List.forall₂_map_right_iff]
  exact (fills_grow b).imp fun _ _ hfills => hfills.copies

/-! ## Transitions -/

/-- The transitions for an event among all those of a node. -/
lemma filter_arrows (s : Blueprint C Env) (event : String) :
    (s.arrows.filter (·.1 == event)).map (·.2) = s.candidates event := by
  have hhandlers : ∀ (name : String) (l : List (Arrow C)),
      ((l.map (name, ·)).filter (·.1 == event)).map (·.2) = if name = event then l else [] := by
    intro name l
    by_cases hname : name = event <;> simp [List.filter_map, Function.comp_def, hname]
  rw [arrows, List.filter_append, List.map_append, candidates]
  congr 1
  cases s.invoke with
  | none => rfl
  | some v =>
      simp only [Option.map_some, Option.getD_some, Invoke.handlers, List.filter_append,
        List.map_append, hhandlers]

/-- A node has the transitions for an event that its blueprint has, in the same order. -/
lemma candidates_node (o : Outline C Env) (i : NodeId) (m : Outlined C Env) (event : String) :
    (o.node i m).candidates event = (m.blueprint.candidates event).map (o.transition i) := by
  rw [← filter_arrows, Node.candidates, Outline.node, List.filter_map, List.map_map, List.map_map]
  rfl

lemma mem_arrows_of_mem_candidates {event : String} {a : Arrow C} (ha : a ∈ s.candidates event) :
    (event, a) ∈ s.arrows := by
  rw [← filter_arrows, List.mem_map] at ha
  obtain ⟨⟨name, a⟩, hkept, rfl⟩ := ha
  obtain ⟨hmem, hname⟩ := List.mem_filter.1 hkept
  obtain rfl : name = event := beq_iff_eq.1 hname
  exact hmem

/-- **Targets of a sound blueprint are found**, and none of them is the root. -/
lemma resolves_transition (hsound : b.IsSound) (hs : b.at? w = some s) {event : String}
    {a : Arrow C} (ha : (event, a) ∈ s.arrows) :
    b.outline.chart.Resolves b w a (b.outline.transition (b.index w) a) where
  guard := rfl
  actions := rfl
  isInternal := rfl
  stays := fun hnone => by rw [Outline.transition, hnone, Option.bind_none]
  leads := by
    intro name hname
    obtain ⟨v, hv, hne⟩ := hsound.target hs ha hname
    obtain ⟨m, hm⟩ := exists_of_names hs hv
    have hfound : b.outline.skeleton.resolve? (b.index w) name = some (b.index v) :=
      (resolve?_index hs).2 ⟨v, hv, rfl⟩
    refine ⟨b.index v, ?_, fun hroot => hne ((index_eq_root hm).1 hroot), ?_, v, hv, rfl⟩
    · rw [Outline.transition, hname, Option.bind_some, hfound]
    · exact Chart.lt_size_of_node (Outline.node?_chart_eq_some.2 ⟨_, getElem?_outline hm, rfl⟩)

end Blueprint

/-! ## Charts that are built -/

namespace Chart

section Build

variable {b s : Blueprint C Env} {chart : Chart C Env} (h : b.build = .ok chart) {w : List Nat}
  {i j : NodeId} {n : Node C Env}

include h

/-- The node of a chart with an address. -/
lemma node?_index (hs : b.at? w = some s) :
    chart.node? (b.index w) = some (b.outline.node (b.index w) (b.entryAt s w)) := by
  obtain rfl := Blueprint.chart_of_build h
  exact Outline.node?_chart_eq_some.2 ⟨_, Blueprint.getElem?_outline hs, rfl⟩

/-- Only the root has no parent. -/
lemma parent?_eq_none_iff (hn : chart.node? i = some n) : chart.parent? i = none ↔ i = root := by
  have htree := Blueprint.isTree_of_build h
  constructor
  · intro hnone
    by_contra hi
    obtain ⟨p, -, -, -, hp, -⟩ := htree.lineage_step hn hi
    rw [hnone] at hp
    cases hp
  · rintro rfl
    exact htree.parent?_root

lemma lt_of_parent? (hp : chart.parent? j = some i) : i < j ∧ ∃ n, chart.node? i = some n := by
  have htree := Blueprint.isTree_of_build h
  obtain ⟨m, hm, hparent⟩ := Option.bind_eq_some_iff.1 hp
  exact ⟨htree.lt_child hm hparent, (htree.lineage_of_parent? hp).1⟩

/-- The child that is entered with a compound node is the one that is named. -/
lemma exists_initial (hs : b.at? w = some s) (hn : chart.node? (b.index w) = some n)
    (hk : n.kind = .compound) : ∃ k c, s.children[k]? = some c ∧ s.initial = some c.key ∧
      n.initial = some (b.index (w ++ [k])) ∧ b.index (w ++ [k]) ∈ n.children := by
  obtain rfl := Option.some.inj ((node?_index h hs).symm.trans hn)
  obtain ⟨-, key, hinitial, hchild⟩ := (Blueprint.isSound_of_build h).compound hs hk
  obtain ⟨v, hv⟩ := Option.isSome_iff_exists.1 ((Blueprint.isSome_child? hs).2 hchild)
  obtain ⟨k, c, rfl, hc, rfl⟩ := Blueprint.exists_of_child? hv
  have hkind : (b.entryAt s w).blueprint.kind = .compound := hk
  have hentry : (b.entryAt s w).blueprint = s := rfl
  refine ⟨k, c, (Blueprint.at?_concat hs k).symm.trans hc, hinitial, ?_,
    (mem_children_iff h hn).2 ?_⟩
  · rw [Outline.node, Outline.initial?, if_pos hkind, hentry, hinitial, Option.bind_some,
      Blueprint.child?_index hs, hv, Option.map_some]
  · rw [parent?, node?_index h hc, Option.bind_some]
    exact Blueprint.parent?_concat hc

/-- The transitions of a node for an event, one by one. -/
lemma resolves_candidates (hs : b.at? w = some s) (hn : chart.node? (b.index w) = some n)
    (event : String) :
    List.Forall₂ (chart.Resolves b w) (s.candidates event) (n.candidates event) := by
  obtain rfl := Option.some.inj ((node?_index h hs).symm.trans hn)
  rw [Blueprint.candidates_node, List.forall₂_map_right_iff]
  refine List.forall₂_same.2 fun a ha => ?_
  exact Blueprint.chart_of_build h ▸ Blueprint.resolves_transition (Blueprint.isSound_of_build h) hs
    (Blueprint.mem_arrows_of_mem_candidates ha)

end Build

/-- **Every chart that is built is its blueprint, laid flat.** -/
theorem flattens_of_build {b : Blueprint C Env} {chart : Chart C Env} (h : b.build = .ok chart) :
    chart.Flattens b := by
  have htree := Blueprint.isTree_of_build h
  have hchart := Blueprint.chart_of_build h
  exact {
    preorder := hchart ▸ Blueprint.copies_subtrees b
    grown := hchart ▸ Blueprint.fills_grow b
    root := ⟨(Blueprint.index_eq_root (Blueprint.at?_nil b)).2 rfl, parent?_eq_none_iff h⟩
    address := fun hs => ⟨_, node?_index h hs, Blueprint.copies_node _ _ _ _, rfl,
      Blueprint.childrenOf_index hs⟩
    onto := by
      intro i n hn
      obtain ⟨w, s, hs, hi, -⟩ := Blueprint.exists_address_of_node (hchart ▸ hn)
      exact ⟨w, s, hs, hi⟩
    order := fun hm hn => lt_iff_lt_of_le_iff_le (Blueprint.index_le_index hn hm)
    links := mem_children_iff h
    parent := lt_of_parent? h
    initial := exists_initial h
    noInitial := htree.noInitial
    upwards := fun hn => ⟨htree.follows_lineage hn, htree.getLast?_lineage hn⟩
    downwards := fun hn => ⟨htree.follows_initialDescent hn, chart.landing _,
      (childless_landing h hn).imp fun _ hm => ⟨chart.getLast?_initialDescent _, hm⟩⟩
    candidates := resolves_candidates h }

end Chart

/-! ## A ferry -/

/-- A chart with transitions of its own and some for the end of an invocation, one event in both. -/
def ferry : Blueprint Tally Unit :=
  { key := "ferry", kind := .compound, initial := some "shore"
    children := [
      { key := "shore", kind := .compound, id := some "shore", initial := some "gate"
        children := [
          { key := "gate", kind := .atomic
            on := [("board", .gotoIf "#boat" (·.flag)), ("board", { actions := [.log "wait"] })] },
          { key := "hut", kind := .atomic }] },
      { key := "boat", kind := .compound, id := some "boat", initial := some "deck"
        children := [
          { key := "deck", kind := .atomic
            on := [("done.invoke.wind", .gotoIf "cabin" (·.flag))]
            invoke := some { id := "wind", task := Tally.fieldTask "count"
                             onDone := [.goto "#shore.hut"], onError := [{}] } },
          { key := "cabin", kind := .atomic }] }] }

lemma build_ferry : ferry.build = .ok ferry.outline.chart :=
  Blueprint.build_of_defects_eq_nil (by decide +kernel)

namespace Chart

/-- The ferry in seven rows: what is declared on deck for the wind comes before what the wind's
invocation adds. -/
theorem flattens_of_build_ferry :
    ferry.build = .ok ferry.outline.chart ∧ ferry.outline.chart.Flattens ferry ∧
      ferry.outline.chart.nodes.map (·.key) =
        ["ferry", "shore", "gate", "hut", "boat", "deck", "cabin"] ∧
      ferry.outline.chart.nodes.map (·.children) = [[1, 4], [2, 3], [], [], [5, 6], [], []] ∧
      ferry.outline.chart.lineage 5 = [5, 4, 0] ∧ ferry.outline.chart.initialDescent 0 = [1, 2] ∧
      (ferry.outline.chart.node? 5).map (fun n =>
        (n.candidates "done.invoke.wind").map (·.target)) = some [some 6, some 3] ∧
      (ferry.outline.chart.node? 2).map (fun n => (n.candidates "board").map (·.target)) =
        some [some 4, none] := by
  refine ⟨build_ferry, flattens_of_build build_ferry, ?_, ?_, ?_, ?_, ?_, ?_⟩ <;> decide +kernel

end Chart

end FormChart
