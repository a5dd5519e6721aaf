import Mathlib.Data.List.Chain
import FormChart.Proofs.Chart.Tree

/-!
# Lineages, and where a transition cuts them

The lineage of a node is the node and everything above it, innermost first.  In a tree a lineage
contains the lineages of all its members as its ends (`IsTree.lineage_eq_append`), and that is all
there is to the geometry of transitions: the domain of a transition lies on the lineage of the
active leaf *and* on that of the target, so it cuts both at the same node.

* `IsTree.induct` — what holds of the root, and of a node whenever it holds of its parent, holds
  of every node of the table.
* `landing` — the leaf in which an entry ends; its lineage is the initial descent on top of the
  lineage of the node that was entered (`IsTree.lineage_landing`).
* **`IsTree.cut`** — leaving `exitSet` and entering `entrySet` turns the lineage of the old leaf
  into the lineage of the new one, and leaves the lineage of the domain alone.
-/

namespace FormChart

namespace Chart

variable {C Env : Type} {chart : Chart C Env}

/-- The node right above a node. -/
def parent? (chart : Chart C Env) (i : NodeId) : Option NodeId := (chart.node? i).bind (·.parent?)

/-- Whether a node of the table is a leaf, that is, atomic or final. -/
def IsLeaf (chart : Chart C Env) (i : NodeId) : Prop :=
  ∃ n, chart.node? i = some n ∧ (n.kind = .atomic ∨ n.kind = .final)

/-- The leaf in which an entry of a node ends. -/
def landing (chart : Chart C Env) (i : NodeId) : NodeId := (chart.initialDescent i).getLastD i

lemma isLeaf_iff {i : NodeId} {n : Node C Env} (hn : chart.node? i = some n) :
    chart.IsLeaf i ↔ n.kind ≠ .compound := by
  unfold IsLeaf
  cases hk : n.kind <;> simp [hn, hk]

lemma lineage_of_node {i : NodeId} {n : Node C Env} (hn : chart.node? i = some n) :
    chart.lineage i = i :: n.ancestors := by
  simp [lineage, hn]

lemma lineage_eq_cons (chart : Chart C Env) (i : NodeId) :
    ∃ above, chart.lineage i = i :: above := ⟨_, rfl⟩

lemma lt_size_of_node {i : NodeId} {n : Node C Env} (hn : chart.node? i = some n) :
    i < chart.size := (List.getElem?_eq_some_iff.1 hn).1

namespace IsTree

variable (h : chart.IsTree)

include h

lemma lineage_root : chart.lineage root = [root] := by
  obtain ⟨n, hn, hanc⟩ := h.hasRoot
  rw [lineage_of_node hn, hanc]

lemma parent?_root : chart.parent? root = none := by
  obtain ⟨n, hn, hanc⟩ := h.hasRoot
  simp [parent?, hn, Place.parent?, hanc]

/-- The first entry goes to the root or to a node that a reference names; either is in the table. -/
lemma exists_of_entry {target : NodeId}
    (htarget : target = root ∨ ∃ n, chart.node? target = some n) :
    ∃ n, chart.node? target = some n := by
  rcases htarget with rfl | hnode
  · obtain ⟨n, hn, -⟩ := h.hasRoot
    exact ⟨n, hn⟩
  · exact hnode

/-- One step up: a node other than the root, its parent, and how their lineages compare. -/
lemma lineage_step {i : NodeId} {n : Node C Env} (hn : chart.node? i = some n) (hi : i ≠ root) :
    ∃ p q, chart.node? p = some q ∧ q.kind = .compound ∧ chart.parent? i = some p ∧
      chart.lineage i = i :: chart.lineage p ∧ p < i := by
  obtain ⟨p, q, hq, hanc, hlt, hk⟩ := h.parent hn hi
  refine ⟨p, q, hq, hk, ?_, ?_, hlt⟩
  · simp [parent?, hn, Place.parent?, hanc]
  · rw [lineage_of_node hn, lineage_of_node hq, hanc]

/-- What holds of the root and passes on from a parent to its children holds of every node. -/
lemma induct (P : NodeId → Prop) (base : P root)
    (step : ∀ i p q, chart.node? p = some q → q.kind = .compound → chart.parent? i = some p →
      chart.lineage i = i :: chart.lineage p → p < i → P p → P i) :
    ∀ {i n}, chart.node? i = some n → P i := by
  intro i
  induction i using Nat.strong_induction_on with
  | h i ih =>
      intro n hn
      by_cases hi : i = root
      · exact hi ▸ base
      · obtain ⟨p, q, hq, hk, hparent, hline, hlt⟩ := h.lineage_step hn hi
        exact step i p q hq hk hparent hline hlt (ih p hlt hq)

/-- Going up, the places in the table get smaller. -/
lemma lineage_descending {i : NodeId} {n : Node C Env} (hn : chart.node? i = some n) :
    (chart.lineage i).Pairwise fun a b => b < a := by
  refine h.induct (fun i => (chart.lineage i).Pairwise fun a b => b < a) ?_ ?_ hn
  · rw [h.lineage_root]
    exact List.pairwise_singleton _ _
  · intro i p q _ _ _ hline hlt ih
    obtain ⟨above, hp⟩ := chart.lineage_eq_cons p
    rw [hline, List.pairwise_cons]
    refine ⟨fun b hb => ?_, ih⟩
    rw [hp] at hb ih
    rcases List.mem_cons.1 hb with rfl | hb
    · exact hlt
    · exact lt_trans ((List.pairwise_cons.1 ih).1 b hb) hlt

lemma lineage_nodup {i : NodeId} {n : Node C Env} (hn : chart.node? i = some n) :
    (chart.lineage i).Nodup :=
  (h.lineage_descending hn).imp fun hlt => (Nat.ne_of_lt hlt).symm

lemma root_mem_lineage {i : NodeId} {n : Node C Env} (hn : chart.node? i = some n) :
    root ∈ chart.lineage i := by
  refine h.induct (fun i => root ∈ chart.lineage i) ?_ ?_ hn
  · rw [h.lineage_root]
    exact List.mem_singleton_self _
  · intro i p q _ _ _ hline _ ih
    rw [hline]
    exact List.mem_cons_of_mem _ ih

/-- Whatever lies above a node is in the table and compound. -/
lemma compound_of_mem_lineage {i : NodeId} {n : Node C Env} (hn : chart.node? i = some n) :
    ∀ j ∈ chart.lineage i, j ≠ i → ∃ m, chart.node? j = some m ∧ m.kind = .compound := by
  refine h.induct (fun i => ∀ j ∈ chart.lineage i, j ≠ i →
    ∃ m, chart.node? j = some m ∧ m.kind = .compound) ?_ ?_ hn
  · intro j hj hne
    rw [h.lineage_root, List.mem_singleton] at hj
    exact absurd hj hne
  · intro i p q hq hk _ hline _ ih j hj hne
    rw [hline] at hj
    have hj : j ∈ chart.lineage p := (List.mem_cons.1 hj).resolve_left hne
    by_cases hjp : j = p
    · exact ⟨q, hjp ▸ hq, hk⟩
    · exact ih j hj hjp

lemma node_of_mem_lineage {i j : NodeId} {n : Node C Env} (hn : chart.node? i = some n)
    (hj : j ∈ chart.lineage i) : ∃ m, chart.node? j = some m := by
  by_cases hji : j = i
  · exact ⟨n, hji ▸ hn⟩
  · obtain ⟨m, hm, -⟩ := h.compound_of_mem_lineage hn j hj hji
    exact ⟨m, hm⟩

/-- The lineage of a node above is the end of the lineage. -/
lemma lineage_suffix {i : NodeId} {n : Node C Env} (hn : chart.node? i = some n) :
    ∀ j ∈ chart.lineage i, chart.lineage j <:+ chart.lineage i := by
  refine h.induct (fun i => ∀ j ∈ chart.lineage i, chart.lineage j <:+ chart.lineage i) ?_ ?_ hn
  · intro j hj
    rw [h.lineage_root, List.mem_singleton] at hj
    exact hj ▸ List.suffix_rfl
  · intro i p q _ _ _ hline _ ih j hj
    rw [hline] at hj
    rcases List.mem_cons.1 hj with rfl | hj
    · exact List.suffix_rfl
    · rw [hline]
      exact (ih j hj).trans (List.suffix_cons i _)

/-- **A lineage is cut at any of its members** into what lies below the member and the member's own
lineage. -/
lemma lineage_eq_append {i j : NodeId} {n : Node C Env} (hn : chart.node? i = some n)
    (hj : j ∈ chart.lineage i) :
    chart.lineage i = (chart.lineage i).takeWhile (· != j) ++ chart.lineage j := by
  obtain ⟨below, hbelow⟩ := h.lineage_suffix hn j hj
  obtain ⟨above, habove⟩ := chart.lineage_eq_cons j
  have hnot : j ∉ below := by
    have hnd := h.lineage_nodup hn
    rw [← hbelow, habove] at hnd
    exact fun hmem => (List.nodup_append.1 hnd).2.2 j hmem j List.mem_cons_self rfl
  have htake : (below ++ j :: above).takeWhile (· != j) = below := by
    have hne : ∀ a ∈ below, (a != j) = true := by
      intro a ha
      rw [bne_iff_ne]
      rintro rfl
      exact hnot ha
    rw [List.takeWhile_append_of_pos hne, List.takeWhile_cons_of_neg (by simp), List.append_nil]
  rw [← hbelow, habove, htake]

/-- Along a lineage every node is followed by its parent. -/
lemma isChain_lineage {i : NodeId} {n : Node C Env} (hn : chart.node? i = some n) :
    (chart.lineage i).IsChain fun a b => chart.parent? a = some b := by
  refine h.induct (fun i => (chart.lineage i).IsChain fun a b => chart.parent? a = some b)
    ?_ ?_ hn
  · rw [h.lineage_root]
    exact List.isChain_singleton _
  · intro i p q _ _ hparent hline _ ih
    obtain ⟨above, hp⟩ := chart.lineage_eq_cons p
    rw [hp] at hline ih
    rw [hline]
    exact List.isChain_cons_cons.2 ⟨hparent, ih⟩

/-! ## Where an entry ends -/

lemma lineage_child {i c : NodeId} {m : Node C Env} (hm : chart.node? c = some m)
    (hparent : m.parent? = some i) : chart.lineage c = c :: chart.lineage i := by
  have hp : chart.parent? c = some i := by simp [parent?, hm, hparent]
  have hc : c ≠ root := by
    rintro rfl
    simp [h.parent?_root] at hp
  obtain ⟨p, q, -, -, hp', hline, -⟩ := h.lineage_step hm hc
  rw [hp, Option.some.injEq] at hp'
  rw [hline, hp']

lemma lt_child {i c : NodeId} {m : Node C Env} (hm : chart.node? c = some m)
    (hparent : m.parent? = some i) : i < c := by
  have hdesc := h.lineage_descending hm
  obtain ⟨above, hi⟩ := chart.lineage_eq_cons i
  rw [h.lineage_child hm hparent, hi] at hdesc
  exact (List.pairwise_cons.1 hdesc).1 i List.mem_cons_self

/-- The bound of the descent suffices: places grow on the way down and end with the table. -/
lemma initialDescentWithin_spec :
    ∀ (fuel : Nat) {i : Nat} {n : Node C Env}, chart.node? i = some n → chart.size ≤ i + fuel →
      let descent := chart.initialDescentWithin fuel i
      chart.lineage (descent.getLastD i) = descent.reverse ++ chart.lineage i ∧
        chart.IsLeaf (descent.getLastD i)
  | 0, i, n, hn, hfuel => absurd (lt_size_of_node hn) (Nat.not_lt.2 hfuel)
  | fuel + 1, i, n, hn, hfuel => by
      by_cases hk : n.kind = .compound
      · obtain ⟨c, m, hc, hm, hparent⟩ := h.initial hn hk
        have hlt : i < c := h.lt_child hm hparent
        obtain ⟨hline, hleaf⟩ := initialDescentWithin_spec fuel hm (by omega)
        have hdescent : chart.initialDescentWithin (fuel + 1) i =
            c :: chart.initialDescentWithin fuel c := by
          simp [initialDescentWithin, hn, hc]
        simp only [hdescent, List.getLastD_cons, List.reverse_cons, List.append_assoc,
          List.singleton_append]
        exact ⟨by rw [hline, h.lineage_child hm hparent], hleaf⟩
      · have hdescent : chart.initialDescentWithin (fuel + 1) i = [] := by
          simp [initialDescentWithin, hn, h.noInitial hn hk]
        simp only [hdescent, List.getLastD_nil, List.reverse_nil, List.nil_append, true_and]
        exact (isLeaf_iff hn).2 hk

lemma lineage_landing {i : NodeId} {n : Node C Env} (hn : chart.node? i = some n) :
    chart.lineage (chart.landing i) = (chart.initialDescent i).reverse ++ chart.lineage i :=
  (h.initialDescentWithin_spec chart.size hn (Nat.le_add_left _ _)).1

/-- An entry ends in a leaf. -/
lemma isLeaf_landing {i : NodeId} {n : Node C Env} (hn : chart.node? i = some n) :
    chart.IsLeaf (chart.landing i) :=
  (h.initialDescentWithin_spec chart.size hn (Nat.le_add_left _ _)).2

/-! ## Where a transition cuts -/

section Cut

variable {leaf target : NodeId} {n : Node C Env} (hleaf : chart.IsLeaf leaf)
  (ht : chart.node? target = some n) (hroot : target ≠ root)

include hleaf ht hroot

/-- The domain lies on both lineages, and strictly above both the leaf and the target. -/
lemma domain_mem_lineage :
    chart.domain leaf target ∈ chart.lineage leaf ∧
      chart.domain leaf target ∈ chart.lineage target ∧
      chart.domain leaf target ≠ leaf ∧ chart.domain leaf target ≠ target := by
  obtain ⟨l, hl, hkind⟩ := hleaf
  obtain ⟨p, q, hq, hk, -, hline, hlt⟩ := h.lineage_step ht hroot
  have hfound : ∃ d, (chart.lineage p).find? (chart.encloses · leaf) = some d := by
    rw [← Option.isSome_iff_exists, List.find?_isSome]
    exact ⟨root, h.root_mem_lineage hq, by simpa [encloses] using h.root_mem_lineage hl⟩
  obtain ⟨d, hd⟩ := hfound
  have hdomain : chart.domain leaf target = d := by rw [domain, hline, List.tail_cons, hd]; rfl
  have hdp : d ∈ chart.lineage p := List.mem_of_find?_eq_some hd
  have hdleaf : d ∈ chart.lineage leaf := by simpa [encloses] using List.find?_some hd
  rw [hdomain, hline]
  refine ⟨hdleaf, List.mem_cons_of_mem _ hdp, ?_, ?_⟩
  · rintro rfl
    have hcompound : l.kind = .compound := by
      by_cases hdp' : d = p
      · subst hdp'
        rw [hq] at hl
        cases hl
        exact hk
      · obtain ⟨m, hm, hmk⟩ := h.compound_of_mem_lineage hq d hdp hdp'
        rw [hm] at hl
        cases hl
        exact hmk
    rw [hcompound] at hkind
    exact hkind.elim nofun nofun
  · have hnd := h.lineage_nodup ht
    rw [hline, List.nodup_cons] at hnd
    rintro rfl
    exact hnd.1 hdp

/-- What a transition does not touch lies strictly above its target. -/
lemma lineage_domain_suffix :
    chart.lineage (chart.domain leaf target) <:+ (chart.lineage target).tail := by
  obtain ⟨-, hmem, -, hne⟩ := h.domain_mem_lineage hleaf ht hroot
  obtain ⟨above, habove⟩ := chart.lineage_eq_cons target
  obtain ⟨rest, hrest⟩ := chart.lineage_eq_cons (chart.domain leaf target)
  have hsuffix := h.lineage_suffix ht _ hmem
  rw [habove, hrest] at hsuffix ⊢
  rcases List.suffix_cons_iff.1 hsuffix with heq | hsuffix
  · exact absurd (List.cons.inj heq).1 hne
  · exact hsuffix

/-- What is left lies on top of the lineage of the domain. -/
lemma lineage_leaf :
    chart.lineage leaf =
      chart.exitSet leaf (chart.domain leaf target) ++
        chart.lineage (chart.domain leaf target) := by
  obtain ⟨l, hl, -⟩ := id hleaf
  exact h.lineage_eq_append hl (h.domain_mem_lineage hleaf ht hroot).1

/-- **What is entered takes its place**: it ends in the leaf where the entry of the target lands,
and lies on top of the same lineage. -/
lemma cut :
    chart.lineage (chart.landing target) =
      (chart.entrySet (chart.domain leaf target) target).reverse ++
        chart.lineage (chart.domain leaf target) := by
  rw [h.lineage_landing ht, entrySet, List.reverse_append, List.reverse_reverse, List.append_assoc,
    ← h.lineage_eq_append ht (h.domain_mem_lineage hleaf ht hroot).2.1]

/-- Every transition with a target leaves something, the active leaf first. -/
lemma exitSet_eq_cons :
    ∃ rest, chart.exitSet leaf (chart.domain leaf target) = leaf :: rest := by
  obtain ⟨above, habove⟩ := chart.lineage_eq_cons leaf
  have hne : leaf ≠ chart.domain leaf target :=
    (h.domain_mem_lineage hleaf ht hroot).2.2.1.symm
  refine ⟨above.takeWhile (· != chart.domain leaf target), ?_⟩
  rw [exitSet, habove, List.takeWhile_cons_of_pos (by simpa using hne)]

/-- Every transition with a target enters something, the new leaf last. -/
lemma entrySet_eq_append :
    ∃ first, chart.entrySet (chart.domain leaf target) target =
      first ++ [chart.landing target] := by
  obtain ⟨above, habove⟩ := chart.lineage_eq_cons target
  have hne : target ≠ chart.domain leaf target :=
    (h.domain_mem_lineage hleaf ht hroot).2.2.2.symm
  rw [entrySet, habove, List.takeWhile_cons_of_pos (by simpa using hne), List.reverse_cons,
    List.append_assoc, List.singleton_append, landing]
  rcases List.eq_nil_or_concat' (chart.initialDescent target) with hd | ⟨descent, last, hd⟩
  · rw [hd]
    exact ⟨_, rfl⟩
  · rw [hd, List.getLastD_concat, ← List.cons_append, ← List.append_assoc]
    exact ⟨_, rfl⟩

end Cut

end IsTree

end Chart

end FormChart
