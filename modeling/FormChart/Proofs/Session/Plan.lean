import FormChart.Proofs.Chart.Lineage
import FormChart.Proofs.Session.Deeds

/-!
# Plans of a tree

What a plan does to the active leaf, told by lineages.  In a tree there are only two kinds of plan
for a transition (`IsTree.moves_cases`): those that stay where they are, and those that pass from
one leaf to another (`Chart.Passage`).  A passage replaces the lower part of the lineage of the old
leaf by that of the new leaf.

The deeds of either follow: the nodes of the old part from the inside out, the actions, the nodes of
the new part from the outside in, and the invocation of the new leaf, **which is the only one that
can start**, since all other nodes on the way are compound (`IsTree.deeds_passage`).
-/

namespace FormChart

variable {C Env : Type}

/-- Whether a transition stays in the leaf: it has no target, or is internal and its target contains
the leaf. -/
def Transition.stays (t : Transition C) (chart : Chart C Env) (leaf : NodeId) : Bool :=
  t.target.all fun target => t.isInternal && chart.encloses target leaf

namespace Chart

variable {chart : Chart C Env}

/-- A way from one leaf to another: up from the first by way of some nodes above it, and down to the
second by way of others.  What lies above all of them is not touched. -/
structure Passage (chart : Chart C Env) (leaf : NodeId) (up down : List NodeId)
    (landing : NodeId) : Prop where
  above : ∃ base, chart.lineage leaf = leaf :: (up ++ base) ∧
    chart.lineage landing = landing :: (down.reverse ++ base)
  source : chart.IsLeaf leaf
  target : chart.IsLeaf landing

/-- A transition that is chosen is declared somewhere. -/
lemma mem_on_of_choose? {leaf : NodeId} {context : C} {event : String} {t : Transition C}
    (h : chart.choose? leaf context event = some t) :
    ∃ i n, chart.node? i = some n ∧ (event, t) ∈ n.on := by
  simp only [choose?, Option.bind_eq_some_iff] at h
  obtain ⟨ts, hts, ht⟩ := h
  have hts := List.mem_of_mem_head? hts
  rw [List.mem_filterMap] at hts
  obtain ⟨i, -, hi⟩ := hts
  cases hn : chart.node? i with
  | none => simp [hn] at hi
  | some n =>
      have hcandidates : n.candidates event = ts := by
        rw [hn, Option.map_some] at hi
        split at hi
        · cases hi
        · cases hi
        · next heq _ => simp_all
      have ht := List.mem_of_find?_eq_some ht
      rw [← hcandidates, Node.candidates, List.mem_map] at ht
      obtain ⟨⟨name, t'⟩, hmem, rfl⟩ := ht
      rw [List.mem_filter, beq_iff_eq] at hmem
      exact ⟨i, n, hn, hmem.2 ▸ hmem.1⟩

/-- The actions of a plan for a transition are those of the transition. -/
lemma act_mem_moves {leaf : NodeId} {t : Transition C} {actions : List (Action C)}
    (h : .act actions ∈ chart.moves leaf t) : actions = t.actions := by
  unfold moves at h
  split at h
  · simpa using h
  · dsimp only at h
    split at h
    · simpa using h
    · simpa using h

namespace IsTree

variable (h : chart.IsTree)

include h

/-- Nodes above another one invoke nothing. -/
lemma invoke_above {i j : NodeId} {n : Node C Env} (hn : chart.node? i = some n)
    (hj : j ∈ chart.lineage i) (hne : j ≠ i) :
    ∃ m, chart.node? j = some m ∧ m.invoke = none := by
  obtain ⟨m, hm, hk⟩ := h.compound_of_mem_lineage hn j hj hne
  refine ⟨m, hm, ?_⟩
  by_contra hinvoke
  have hatomic := h.invoke hm (Option.isSome_iff_ne_none.2 hinvoke)
  rw [hk] at hatomic
  cases hatomic

/-- A transition that does not stay replaces what lies below its domain. -/
lemma moves_cut {leaf i target : NodeId} (hleaf : chart.IsLeaf leaf) {n : Node C Env}
    (hn : chart.node? i = some n) {event : String} {t : Transition C} (hmem : (event, t) ∈ n.on)
    (htarget : t.target = some target) (hgoes : t.stays chart leaf = false) :
    ∃ up down,
      chart.lineage leaf = leaf :: (up ++ chart.lineage (chart.domain leaf target)) ∧
      chart.lineage (chart.landing target) =
        chart.landing target :: (down.reverse ++ chart.lineage (chart.domain leaf target)) ∧
      chart.lineage (chart.domain leaf target) <:+ (chart.lineage target).tail ∧
      chart.moves leaf t = (leaf :: up).map .leave ++ .act t.actions ::
        (down ++ [chart.landing target]).map .arrive := by
  have hgoes : ¬ (t.isInternal && chart.encloses target leaf) = true := by
    simpa [Transition.stays, htarget] using hgoes
  obtain ⟨hroot, m, hm⟩ := h.target hn hmem htarget
  obtain ⟨up, hup⟩ := h.exitSet_eq_cons hleaf hm hroot
  obtain ⟨down, hdown⟩ := h.entrySet_eq_append hleaf hm hroot
  refine ⟨up, down, ?_, ?_, h.lineage_domain_suffix hleaf hm hroot, ?_⟩
  · rw [h.lineage_leaf hleaf hm hroot, hup, List.cons_append]
  · rw [h.cut hleaf hm hroot, hdown, List.reverse_append, List.reverse_singleton,
      List.append_assoc, List.singleton_append]
  · simp only [moves, htarget, hgoes, if_false, hup, hdown, Bool.false_eq_true]

/-- So it passes from the leaf to the one in which the entry of its target lands. -/
lemma moves_passage {leaf i target : NodeId} (hleaf : chart.IsLeaf leaf) {n : Node C Env}
    (hn : chart.node? i = some n) {event : String} {t : Transition C} (hmem : (event, t) ∈ n.on)
    (htarget : t.target = some target) (hgoes : t.stays chart leaf = false) :
    ∃ up down, chart.Passage leaf up down (chart.landing target) ∧
      chart.moves leaf t = (leaf :: up).map .leave ++ .act t.actions ::
        (down ++ [chart.landing target]).map .arrive := by
  obtain ⟨up, down, hup, hdown, -, hmoves⟩ := h.moves_cut hleaf hn hmem htarget hgoes
  obtain ⟨-, m, hm⟩ := h.target hn hmem htarget
  exact ⟨up, down, ⟨⟨_, hup, hdown⟩, hleaf, h.isLeaf_landing hm⟩, hmoves⟩

/-- **A transition that is chosen stays or passes** from the leaf to another one. -/
lemma moves_cases {leaf : NodeId} (hleaf : chart.IsLeaf leaf) {context : C} {event : String}
    {t : Transition C} (ht : chart.choose? leaf context event = some t) :
    (t.stays chart leaf = true ∧ chart.moves leaf t = [.act t.actions]) ∨
      ∃ up down landing, t.stays chart leaf = false ∧ chart.Passage leaf up down landing ∧
        chart.moves leaf t = (leaf :: up).map .leave ++ .act t.actions ::
          (down ++ [landing]).map .arrive := by
  obtain ⟨i, n, hn, hmem⟩ := mem_on_of_choose? ht
  cases hstays : t.stays chart leaf with
  | true =>
      refine .inl ⟨rfl, ?_⟩
      unfold moves
      cases htarget : t.target with
      | none => rfl
      | some target =>
          have hinternal : (t.isInternal && chart.encloses target leaf) = true := by
            simpa [Transition.stays, htarget] using hstays
          simp only [hinternal, if_true]
  | false =>
      cases htarget : t.target with
      | none => simp [Transition.stays, htarget] at hstays
      | some target =>
          obtain ⟨up, down, hpass, hmoves⟩ := h.moves_passage hleaf hn hmem htarget hstays
          exact .inr ⟨up, down, _, rfl, hpass, hmoves⟩

/-- The first entry walks down the lineage of the leaf in which it lands. -/
lemma firstMoves_eq {target : NodeId} {n : Node C Env} (hn : chart.node? target = some n) :
    ∃ down, chart.lineage (chart.landing target) = chart.landing target :: down.reverse ∧
      chart.firstMoves target = (down ++ [chart.landing target]).map .arrive := by
  obtain ⟨above, habove⟩ := chart.lineage_eq_cons (chart.landing target)
  refine ⟨above.reverse, by rw [habove, List.reverse_reverse], ?_⟩
  rw [firstMoves, ← List.reverse_cons, ← habove, h.lineage_landing hn, List.reverse_append,
    List.reverse_reverse]

end IsTree

end Chart

/-! ## What is done along a plan -/

lemma Invocations.cancel_nextSerial (i : Invocations Env) (node : NodeId) :
    (i.cancel node).nextSerial = i.nextSerial := by
  unfold cancel
  split <;> rfl

namespace Macrostep

variable [Model C] {chart : Chart C Env} {event : Event}

/-- Leaving nodes of the table. -/
lemma deeds_leave {nodes : List NodeId} (hnodes : ∀ i ∈ nodes, ∃ n, chart.node? i = some n)
    (m : Macrostep C Env) : m.deeds chart event (nodes.map .leave) = nodes.map .left := by
  induction nodes generalizing m with
  | nil => rfl
  | cons i rest ih =>
      obtain ⟨n, hn⟩ := hnodes i List.mem_cons_self
      rw [List.map_cons, deeds, deed_leave hn,
        ih (fun j hj => hnodes j (List.mem_cons_of_mem _ hj)), List.map_cons, List.singleton_append]

/-- Entering nodes that invoke nothing. -/
lemma deeds_arrive {nodes : List NodeId}
    (hnodes : ∀ i ∈ nodes, ∃ n, chart.node? i = some n ∧ n.invoke = none) (m : Macrostep C Env) :
    m.deeds chart event (nodes.map .arrive) = nodes.map .entered := by
  induction nodes generalizing m with
  | nil => rfl
  | cons i rest ih =>
      obtain ⟨n, hn, hinvoke⟩ := hnodes i List.mem_cons_self
      rw [List.map_cons, deeds, deed_arrive hn, hinvoke,
        ih (fun j hj => hnodes j (List.mem_cons_of_mem _ hj)), List.map_cons]
      rfl

lemma foldl_arrive_invocations {nodes : List NodeId}
    (hnodes : ∀ i ∈ nodes, ∃ n, chart.node? i = some n ∧ n.invoke = none) (m : Macrostep C Env) :
    ((nodes.map .arrive).foldl (move chart event) m).machine.invocations =
      m.machine.invocations := by
  induction nodes generalizing m with
  | nil => rfl
  | cons i rest ih =>
      obtain ⟨n, hn, hinvoke⟩ := hnodes i List.mem_cons_self
      rw [List.map_cons, List.foldl_cons, ih (fun j hj => hnodes j (List.mem_cons_of_mem _ hj)),
        move_arrive_invocations event hn, hinvoke, Option.elim_none]

/-- Leaving nodes that invoke nothing. -/
lemma foldl_leave_invocations {nodes : List NodeId}
    (hnodes : ∀ i ∈ nodes, ∃ n, chart.node? i = some n ∧ n.invoke = none) (m : Macrostep C Env) :
    ((nodes.map .leave).foldl (move chart event) m).machine.invocations =
      m.machine.invocations := by
  induction nodes generalizing m with
  | nil => rfl
  | cons i rest ih =>
      obtain ⟨n, hn, hinvoke⟩ := hnodes i List.mem_cons_self
      rw [List.map_cons, List.foldl_cons, ih (fun j hj => hnodes j (List.mem_cons_of_mem _ hj)),
        move_leave_invocations event hn, hinvoke, Option.elim_none]

/-- Leaving nodes does not touch the numbers of the tokens. -/
lemma foldl_leave_nextSerial {nodes : List NodeId}
    (hnodes : ∀ i ∈ nodes, ∃ n, chart.node? i = some n) (m : Macrostep C Env) :
    ((nodes.map .leave).foldl (move chart event) m).machine.invocations.nextSerial =
      m.machine.invocations.nextSerial := by
  induction nodes generalizing m with
  | nil => rfl
  | cons i rest ih =>
      obtain ⟨n, hn⟩ := hnodes i List.mem_cons_self
      rw [List.map_cons, List.foldl_cons, ih (fun j hj => hnodes j (List.mem_cons_of_mem _ hj)),
        move_leave_invocations event hn]
      cases n.invoke with
      | none => rfl
      | some v => exact Invocations.cancel_nextSerial _ i

/-- The start of the invocation of a node, if it has one. -/
def starts (n : Node C Env) (i : NodeId) (serial : Nat) : List Deed :=
  n.invoke.elim [] fun _ => [.started ⟨i, serial⟩]

section Entry

variable {landing : NodeId} {down base : List NodeId} {n : Node C Env} (h : chart.IsTree)
  (hn : chart.node? landing = some n)
  (hline : chart.lineage landing = landing :: (down.reverse ++ base))

include h hn hline

omit [Model C] in
/-- What is entered before the leaf lies above it. -/
lemma mem_lineage_of_down {i : NodeId} (hi : i ∈ down) :
    i ∈ chart.lineage landing ∧ i ≠ landing := by
  have hnd := h.lineage_nodup hn
  rw [hline, List.nodup_cons] at hnd
  have hmem : i ∈ down.reverse ++ base := List.mem_append_left _ (List.mem_reverse.2 hi)
  refine ⟨?_, ?_⟩
  · rw [hline]
    exact List.mem_cons_of_mem _ hmem
  · rintro rfl
    exact hnd.1 hmem

omit [Model C] in
lemma invoke_down : ∀ i ∈ down, ∃ k, chart.node? i = some k ∧ k.invoke = none := by
  intro i hi
  obtain ⟨hmem, hne⟩ := mem_lineage_of_down h hn hline hi
  exact h.invoke_above hn hmem hne

/-- Going down to a leaf: only the invocation of the leaf starts. -/
lemma deeds_entry (m : Macrostep C Env) :
    m.deeds chart event ((down ++ [landing]).map .arrive) =
      (down ++ [landing]).map .entered ++
        starts n landing m.machine.invocations.nextSerial := by
  have hdown := invoke_down h hn hline
  rw [List.map_append, deeds_append, deeds_arrive hdown, List.map_append, List.append_assoc]
  congr 1
  rw [List.map_singleton, deeds, deeds, deed_arrive hn, foldl_arrive_invocations hdown,
    List.append_nil]
  rfl

omit h hline in
lemma foldl_entry_leaf (m : Macrostep C Env) :
    (((down ++ [landing]).map .arrive).foldl (move chart event) m).machine.leaf =
      some landing := by
  rw [List.map_append, List.foldl_append]
  exact move_arrive_leaf event hn

variable (event) in
lemma foldl_entry_invocations (m : Macrostep C Env) :
    ∃ context, (((down ++ [landing]).map .arrive).foldl (move chart event) m).machine.invocations =
      n.invoke.elim m.machine.invocations fun v =>
        m.machine.invocations.start landing v.id (v.task context) := by
  have hdown := invoke_down h hn hline
  set before := (down.map .arrive).foldl (move chart event) m with hbefore
  have hlast := move_arrive_invocations (m := before) event hn
  rw [hbefore, foldl_arrive_invocations hdown, ← hbefore] at hlast
  refine ⟨(before.performAll chart event n.entry).machine.context, ?_⟩
  rw [List.map_append, List.foldl_append]
  exact hlast

end Entry

section Passage

/-! ### Passages -/

variable {leaf landing : NodeId} {up down : List NodeId} {n : Node C Env} (h : chart.IsTree)
  (hpass : chart.Passage leaf up down landing) (hn : chart.node? landing = some n)
  (actions : List (Action C))

include h hpass

omit [Model C] in
lemma node_of_up : ∀ i ∈ leaf :: up, ∃ k, chart.node? i = some k := by
  obtain ⟨base, hleaf, -⟩ := hpass.above
  obtain ⟨l, hl, -⟩ := hpass.source
  intro i hi
  refine h.node_of_mem_lineage hl (j := i) ?_
  rw [hleaf, ← List.cons_append]
  exact List.mem_append_left _ hi

omit [Model C] in
/-- Of the nodes that are left only the leaf can invoke anything. -/
lemma invoke_up : ∀ i ∈ up, ∃ k, chart.node? i = some k ∧ k.invoke = none := by
  obtain ⟨base, hleaf, -⟩ := hpass.above
  obtain ⟨l, hl, -⟩ := hpass.source
  have hnd := h.lineage_nodup hl
  intro i hi
  have hmem : i ∈ up ++ base := List.mem_append_left _ hi
  rw [hleaf, List.nodup_cons] at hnd
  refine h.invoke_above hl ?_ ?_
  · rw [hleaf]
    exact List.mem_cons_of_mem _ hmem
  · rintro rfl
    exact hnd.1 hmem

include hn

/-- **The deeds of a passage**: out, act, in, and perhaps one invocation. -/
lemma deeds_passage (m : Macrostep C Env) :
    m.deeds chart event
        ((leaf :: up).map .leave ++ .act actions :: (down ++ [landing]).map .arrive) =
      (leaf :: up).map .left ++ .acted :: ((down ++ [landing]).map .entered ++
        starts n landing m.machine.invocations.nextSerial) := by
  have hup := node_of_up h hpass
  obtain ⟨base, -, hline⟩ := hpass.above
  rw [deeds_append, deeds_leave hup, deeds, deeds_entry h hn hline, move_act_invocations,
    foldl_leave_nextSerial hup]
  rfl

omit h hpass in
lemma take_passage_leaf (m : Macrostep C Env) :
    (m.take chart event
      ((leaf :: up).map .leave ++ .act actions :: (down ++ [landing]).map .arrive)).machine.leaf =
      some landing := by
  rw [take_leaf, List.foldl_append, List.foldl_cons, foldl_entry_leaf hn]

end Passage

end Macrostep

end FormChart
