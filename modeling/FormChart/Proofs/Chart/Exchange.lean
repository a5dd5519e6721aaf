import FormChart.Proofs.Chart.Flattening

/-!
# What a transition leaves and enters

A transition from a leaf to a target takes away one end of a lineage and puts another in its place.
`Chart.Exchanges` says where the two are joined, what is left and what is entered, in terms of
**parents and initial children alone**: the domain is the innermost node that lies strictly above
the target and is the leaf or above it; everything below the domain that the leaf lies in is left;
and what is entered goes down from the domain to the target, and on to a node without children.

`Chart.exchanges_of_build` shows it for all leaves and targets of a chart that is built.  The walks
that are computed agree because a lineage contains the lineage of each of its members as its end
(`IsTree.lineage_of_append`), so all of them stop at the same node.
-/

namespace FormChart

namespace Chart

variable {C Env : Type}

/-- Whether a transition from a leaf to a target turns at a domain, leaves some nodes and enters
others, the last of which is the new leaf. -/
structure Exchanges (chart : Chart C Env) (leaf target domain : NodeId)
    (left entered : List NodeId) (last : NodeId) : Prop where
  /-- The domain lies strictly above the target, and the leaf is the domain or below it. -/
  above : chart.Above domain target ∧ chart.AtOrAbove domain leaf
  /-- There is no other such node further in. -/
  innermost : ∀ {i}, chart.Above i target → chart.AtOrAbove i leaf → chart.AtOrAbove i domain
  compound : ∃ n, chart.node? domain = some n ∧ n.kind = .compound
  /-- What is left lies between the leaf and the domain, each node followed by its parent. -/
  mem_left : ∀ {i}, i ∈ left ↔ chart.AtOrAbove i leaf ∧ chart.Above domain i
  upwards : left.IsChain fun i j => chart.parent? i = some j
  /-- What is entered begins right below the domain, and each node is the parent of the next. -/
  first : ∃ i, entered.head? = some i ∧ chart.parent? i = some domain
  downwards : entered.IsChain fun i j => chart.parent? j = some i
  /-- It goes through the target, and from there on follows initial children as far as they lead. -/
  through : ∃ before after, entered = before ++ target :: after ∧
    Follows chart.initial? target (target :: after)
  childless : entered.getLast? = some last ∧ ∃ n, chart.node? last = some n ∧ n.children = []
  /-- Without what is left, and with what is entered, the lineage of the leaf is that of the last
  node, which holds every node above it once. -/
  exchange : entered.reverse ++ (chart.lineage leaf).filter (· ∉ left) = chart.lineage last
  lineages : ∀ {i}, (i ∈ chart.lineage leaf ↔ chart.AtOrAbove i leaf) ∧
    (i ∈ chart.lineage last ↔ chart.AtOrAbove i last)
  nodup : (chart.lineage last).Nodup

namespace IsTree

variable {chart : Chart C Env} (h : chart.IsTree) {i j : NodeId} {n : Node C Env}

include h

/-- **From any of its members on, a lineage is that of the member.** -/
lemma lineage_of_append (hn : chart.node? j = some n) {below above : List NodeId}
    (hline : chart.lineage j = below ++ i :: above) : chart.lineage i = i :: above := by
  have hmem : i ∈ chart.lineage j := by simp [hline]
  have hnot : ∀ k ∈ below, (k != i) = true := by
    have hnd := h.lineage_nodup hn
    rw [hline] at hnd
    intro k hk
    rw [bne_iff_ne]
    exact (List.nodup_append.1 hnd).2.2 k hk i List.mem_cons_self
  have hcut := h.lineage_eq_append hn hmem
  rw [hline, List.takeWhile_append_of_pos hnot, List.takeWhile_cons_of_neg (by simp),
    List.append_nil] at hcut
  exact (List.append_cancel_left hcut).symm

/-- What is found first on the way up lies below everything else that passes the test. -/
lemma mem_lineage_of_find? (hn : chart.node? j = some n) {test : NodeId → Bool} {d : NodeId}
    (hd : (chart.lineage j).find? test = some d) (hi : i ∈ chart.lineage j) (htest : test i) :
    i ∈ chart.lineage d := by
  obtain ⟨-, below, above, hline, hfail⟩ := List.find?_eq_some_iff_append.1 hd
  rw [h.lineage_of_append hn hline]
  rw [hline] at hi
  refine (List.mem_append.1 hi).resolve_left fun hbelow => ?_
  simpa [htest] using hfail i hbelow

section

variable {leaf target : NodeId} (hleaf : chart.IsLeaf leaf) (ht : chart.node? target = some n)
  (hroot : target ≠ root)

include hleaf ht hroot

/-- The domain lies strictly above the target. -/
lemma above_domain : chart.Above (chart.domain leaf target) target := by
  obtain ⟨-, hmem, -, hne⟩ := h.domain_mem_lineage hleaf ht hroot
  rw [← h.mem_tail_lineage_iff ht]
  exact (List.mem_cons.1 hmem).resolve_left hne

omit hleaf in
/-- Of all such nodes that the leaf lies in, it is the innermost. -/
lemma mem_lineage_domain (hi : chart.Above i target) (hi' : i ∈ chart.lineage leaf) :
    i ∈ chart.lineage (chart.domain leaf target) := by
  obtain ⟨p, q, hq, -, -, hline, -⟩ := h.lineage_step ht hroot
  have hmem : i ∈ chart.lineage p := by
    have htail := (h.mem_tail_lineage_iff ht).2 hi
    rwa [hline] at htail
  have htest : chart.encloses i leaf = true := List.contains_iff_mem.2 hi'
  obtain ⟨d, hd⟩ : ∃ d, (chart.lineage p).find? (chart.encloses · leaf) = some d :=
    Option.isSome_iff_exists.1 (List.find?_isSome.2 ⟨i, hmem, htest⟩)
  have hdomain : chart.domain leaf target = d := by
    rw [domain, hline, List.tail_cons, hd, Option.getD_some]
  rw [hdomain]
  exact h.mem_lineage_of_find? hq hd hmem htest

/-- **What is left lies in the lineage of the leaf, below the domain.** -/
lemma mem_exitSet_iff : i ∈ chart.exitSet leaf (chart.domain leaf target) ↔
    chart.AtOrAbove i leaf ∧ chart.Above (chart.domain leaf target) i := by
  obtain ⟨l, hl, -⟩ := id hleaf
  have hline := h.lineage_leaf hleaf ht hroot
  rw [← h.mem_lineage_iff hl]
  constructor
  · intro hi
    have hmem : i ∈ chart.lineage leaf := hline ▸ List.mem_append_left _ hi
    obtain ⟨m, hm⟩ := h.node_of_mem_lineage hl hmem
    obtain ⟨below, above, hleft⟩ := List.append_of_mem hi
    rw [hleft, List.append_assoc, List.cons_append] at hline
    refine ⟨hmem, (h.mem_tail_lineage_iff hm).1 ?_⟩
    rw [h.lineage_of_append hl hline, List.tail_cons]
    exact List.mem_append_right _ List.mem_cons_self
  · rintro ⟨hmem, habove⟩
    obtain ⟨m, hm⟩ := h.node_of_mem_lineage hl hmem
    rw [hline] at hmem
    refine (List.mem_append.1 hmem).resolve_right fun hi => ?_
    obtain ⟨d, hd⟩ := h.node_of_mem_lineage ht (h.domain_mem_lineage hleaf ht hroot).2.1
    exact h.not_above_self hm (habove.trans_left ((h.mem_lineage_iff hd).1 hi))

/-- Without what is left there remains the lineage of the domain. -/
lemma filter_lineage :
    (chart.lineage leaf).filter (· ∉ chart.exitSet leaf (chart.domain leaf target)) =
      chart.lineage (chart.domain leaf target) := by
  obtain ⟨l, hl, -⟩ := id hleaf
  have hnd := h.lineage_nodup hl
  have hline := h.lineage_leaf hleaf ht hroot
  rw [hline] at hnd
  have hdisjoint := List.disjoint_of_nodup_append hnd
  have hleft : ∀ i ∈ chart.exitSet leaf (chart.domain leaf target),
      ¬ decide (i ∉ chart.exitSet leaf (chart.domain leaf target)) = true := by
    simp
  have hkept : ∀ i ∈ chart.lineage (chart.domain leaf target),
      decide (i ∉ chart.exitSet leaf (chart.domain leaf target)) = true := by
    intro i hi
    exact decide_eq_true fun hi' => hdisjoint hi' hi
  rw [hline, List.filter_append, List.filter_eq_nil_iff.2 hleft, List.filter_eq_self.2 hkept,
    List.nil_append]

/-- **What is entered goes through the target** and on along initial children. -/
lemma entrySet_through : ∃ before, chart.entrySet (chart.domain leaf target) target =
    before ++ target :: chart.initialDescent target := by
  obtain ⟨above, habove⟩ := chart.lineage_eq_cons target
  have hne : target ≠ chart.domain leaf target := (h.domain_mem_lineage hleaf ht hroot).2.2.2.symm
  refine ⟨(above.takeWhile (· != chart.domain leaf target)).reverse, ?_⟩
  rw [entrySet, habove, List.takeWhile_cons_of_pos (by simpa using hne), List.reverse_cons,
    List.append_assoc, List.singleton_append]

/-- What is entered begins right below the domain and goes down from parent to child. -/
lemma entrySet_downwards :
    (∃ i, (chart.entrySet (chart.domain leaf target) target).head? = some i ∧
      chart.parent? i = some (chart.domain leaf target)) ∧
    (chart.entrySet (chart.domain leaf target) target).IsChain
      fun i j => chart.parent? j = some i := by
  obtain ⟨m, hm, -⟩ := h.isLeaf_landing ht
  obtain ⟨rest, hrest⟩ := chart.lineage_eq_cons (chart.domain leaf target)
  have hchain := h.isChain_lineage hm
  rw [h.cut hleaf ht hroot, hrest, List.isChain_append] at hchain
  obtain ⟨hdown, -, hborder⟩ := hchain
  obtain ⟨i, more, hentered⟩ : ∃ i more,
      chart.entrySet (chart.domain leaf target) target = i :: more := by
    obtain ⟨before, hthrough⟩ := h.entrySet_through hleaf ht hroot
    exact List.exists_cons_of_ne_nil (by simp [hthrough])
  refine ⟨⟨i, by rw [hentered, List.head?_cons], ?_⟩, List.isChain_reverse.1 hdown⟩
  exact hborder i (by simp [hentered]) _ (by simp)

end

end IsTree

/-- **What every transition of a chart that is built leaves and enters.** -/
theorem exchanges_of_build {b : Blueprint C Env} {chart : Chart C Env} (h : b.build = .ok chart)
    {leaf target : NodeId} {n m : Node C Env} (hleaf : chart.node? leaf = some n)
    (hchildless : n.children = []) (htarget : chart.node? target = some m) (hroot : target ≠ root) :
    ∃ last, chart.Exchanges leaf target (chart.domain leaf target)
      (chart.exitSet leaf (chart.domain leaf target))
      (chart.entrySet (chart.domain leaf target) target) last := by
  have htree := Blueprint.isTree_of_build h
  have hend : chart.IsLeaf leaf := (childless_iff h hleaf).1 hchildless
  obtain ⟨hmem, hmem', -, hne⟩ := htree.domain_mem_lineage hend htarget hroot
  obtain ⟨d, hdomain⟩ := htree.node_of_mem_lineage hleaf hmem
  obtain ⟨l, hlast, hlast'⟩ := childless_landing h htarget
  obtain ⟨first, hfirst⟩ := htree.entrySet_eq_append hend htarget hroot
  obtain ⟨before, hthrough⟩ := htree.entrySet_through hend htarget hroot
  have hdown := htree.entrySet_downwards hend htarget hroot
  have hline := htree.lineage_leaf hend htarget hroot
  refine ⟨chart.landing target, ?_⟩
  exact {
    above := ⟨htree.above_domain hend htarget hroot, (htree.mem_lineage_iff hleaf).1 hmem⟩
    innermost := fun hi hi' => (htree.mem_lineage_iff hdomain).1
      (htree.mem_lineage_domain htarget hroot hi ((htree.mem_lineage_iff hleaf).2 hi'))
    compound := htree.compound_of_mem_lineage htarget _ hmem' hne
    mem_left := htree.mem_exitSet_iff hend htarget hroot
    upwards := (List.isChain_append.1 (hline ▸ htree.isChain_lineage hleaf)).1
    first := hdown.1
    downwards := hdown.2
    through := ⟨before, _, hthrough, htree.follows_initialDescent htarget⟩
    childless := ⟨by rw [hfirst, List.getLast?_concat], l, hlast, hlast'⟩
    exchange := by
      rw [htree.filter_lineage hend htarget hroot, htree.cut hend htarget hroot]
    lineages := ⟨htree.mem_lineage_iff hleaf, htree.mem_lineage_iff hlast⟩
    nodup := htree.lineage_nodup hlast }

/-- On the ferry, from the deck: to the cabin beside it, to the boat that it is part of, and to the
shore. -/
theorem exchanges_of_build_ferry :
    ferry.build = .ok ferry.outline.chart ∧
      (ferry.outline.chart.node? 5).map (·.children) = some [] ∧
      ferry.outline.chart.Exchanges 5 6 4 [5] [6] 6 ∧
      ferry.outline.chart.Exchanges 5 4 root [5, 4] [4, 5] 5 ∧
      ferry.outline.chart.Exchanges 5 1 root [5, 4] [1, 2] 2 := by
  obtain ⟨deck, hdeck, hchildless⟩ : ∃ n, ferry.outline.chart.node? 5 = some n ∧ n.children = [] :=
    ⟨_, rfl, by decide +kernel⟩
  have hexchanges : ∀ {target domain last : NodeId} {left entered : List NodeId},
      (∃ m, ferry.outline.chart.node? target = some m) → target ≠ root →
      ferry.outline.chart.domain 5 target = domain →
      ferry.outline.chart.exitSet 5 domain = left →
      ferry.outline.chart.entrySet domain target = entered → entered.getLast? = some last →
      ferry.outline.chart.Exchanges 5 target domain left entered last := by
    rintro target _ last _ _ ⟨m, hm⟩ hroot rfl rfl rfl hlast
    obtain ⟨l, hl⟩ := exchanges_of_build build_ferry hdeck hchildless hm hroot
    rwa [Option.some.inj (hl.childless.1.symm.trans hlast)] at hl
  refine ⟨build_ferry, by rw [hdeck, Option.map_some, hchildless],
    hexchanges ⟨_, rfl⟩ ?_ ?_ ?_ ?_ rfl, hexchanges ⟨_, rfl⟩ ?_ ?_ ?_ ?_ rfl,
    hexchanges ⟨_, rfl⟩ ?_ ?_ ?_ ?_ rfl⟩ <;> decide +kernel

end Chart

end FormChart
