import Mathlib.Data.List.Lex
import Mathlib.Data.List.Sort
import FormChart.Proofs.Chart.Subtrees

/-!
# Addresses

An address says where a node stands in a blueprint: the position of each node on the way down among
its siblings (`Blueprint.at?`).  Addresses know nothing of tables, so what a chart should be like
can be said with them, independently of how it is made.

The table of a blueprint lists the nodes by their addresses **in lexicographic order**:
`Blueprint.index` is where the node with an address is listed.  Every entry of the table belongs to
exactly one address (`Blueprint.exists_address`, `Blueprint.index_lt_index`), and everything that
can be found in the table by number has its counterpart by address: children
(`Blueprint.childrenOf_index`), parents (`Blueprint.parent?_index`), keys and paths.
-/

namespace FormChart

variable {C Env : Type}

namespace Blueprint

/-- The node at an address. -/
def at? : Blueprint C Env → List Nat → Option (Blueprint C Env)
  | b, [] => some b
  | b, k :: w => b.children[k]?.bind (at? · w)

/-- The path of the node at an address, given that of the root. -/
def pathFrom (path : String) : Blueprint C Env → List Nat → String
  | _, [] => path
  | b, k :: w => b.children[k]?.elim path fun c => pathFrom (Place.childPath path c.key) c w

/-- The path of the node at an address. -/
def pathAt (b : Blueprint C Env) (w : List Nat) : String := b.pathFrom "" w

/-- How many nodes come before the one with a certain position, among some trees. -/
def offset (bs : List (Blueprint C Env)) (k : Nat) : Nat := (subtreesOfAll (bs.take k)).length

/-- Where the node with an address is listed, in preorder. -/
def index : Blueprint C Env → List Nat → Nat
  | _, [] => 0
  | b, k :: w => 1 + offset b.children k + b.children[k]?.elim 0 (index · w)

/-- The nodes above an address, the parent first, given those above the root and where the root is
listed. -/
def aboveFrom (above : List NodeId) (index : NodeId) : Blueprint C Env → List Nat → List NodeId
  | _, [] => above
  | b, k :: w => b.children[k]?.elim above fun c =>
      aboveFrom (index :: above) (index + 1 + offset b.children k) c w

@[simp] lemma at?_nil (b : Blueprint C Env) : b.at? [] = some b := by rw [at?]

lemma at?_cons (b : Blueprint C Env) (k : Nat) (w : List Nat) :
    b.at? (k :: w) = b.children[k]?.bind (·.at? w) := by rw [at?]

lemma at?_cons_eq_some {b n : Blueprint C Env} {k : Nat} {w : List Nat} :
    b.at? (k :: w) = some n ↔ ∃ c, b.children[k]? = some c ∧ c.at? w = some n := by
  rw [at?_cons, Option.bind_eq_some_iff]

/-- Descending along an address and then along another one. -/
lemma at?_append (b : Blueprint C Env) (v w : List Nat) :
    b.at? (v ++ w) = (b.at? v).bind (·.at? w) := by
  induction v generalizing b with
  | nil => rw [List.nil_append, at?_nil, Option.bind_some]
  | cons k v ih =>
      rw [List.cons_append, at?_cons, at?_cons]
      cases b.children[k]? with
      | none => rfl
      | some c => exact ih c

/-- The nodes below a node are its children by their positions. -/
lemma at?_concat {b n : Blueprint C Env} {w : List Nat} (hn : b.at? w = some n) (k : Nat) :
    b.at? (w ++ [k]) = n.children[k]? := by
  rw [at?_append, hn, Option.bind_some, at?_cons]
  cases n.children[k]? <;> simp

/-- Where there is a node, there is one above it. -/
lemma exists_at?_of_concat {b n : Blueprint C Env} {w : List Nat} {k : Nat}
    (hn : b.at? (w ++ [k]) = some n) : ∃ p, b.at? w = some p ∧ p.children[k]? = some n := by
  have h := hn
  rw [at?_append, Option.bind_eq_some_iff] at h
  obtain ⟨p, hp, -⟩ := h
  exact ⟨p, hp, (at?_concat hp k).symm.trans hn⟩

section Cons

variable {b c : Blueprint C Env} {k : Nat} (hc : b.children[k]? = some c) (w : List Nat)

include hc

lemma index_cons : b.index (k :: w) = 1 + offset b.children k + c.index w := by
  rw [index, hc, Option.elim_some]

lemma pathFrom_cons (path : String) :
    b.pathFrom path (k :: w) = c.pathFrom (Place.childPath path c.key) w := by
  rw [pathFrom, hc, Option.elim_some]

lemma aboveFrom_cons (above : List NodeId) (index : NodeId) :
    b.aboveFrom above index (k :: w) =
      c.aboveFrom (index :: above) (index + 1 + offset b.children k) w := by
  rw [aboveFrom, hc, Option.elim_some]

end Cons

/-! ## The table by addresses -/

mutual

/-- An outline has an entry for every subtree. -/
lemma length_outlineFrom (above : List NodeId) (path : String) (index : NodeId) :
    ∀ b : Blueprint C Env, (outlineFrom above path index b).length = b.subtrees.length
  | ⟨key, kind, id, initial, entry, exit, on, invoke, route, children⟩ => by
      rw [outlineFrom, subtrees, List.length_cons, List.length_cons,
        length_outlineChildren _ _ _ children]

lemma length_outlineChildren (above : List NodeId) (path : String) (index : NodeId) :
    ∀ bs : List (Blueprint C Env),
      (outlineChildren above path index bs).length = (subtreesOfAll bs).length
  | [] => rfl
  | b :: rest => by
      rw [outlineChildren, subtreesOfAll, List.length_append, List.length_append,
        length_outlineFrom _ _ _ b, length_outlineChildren _ _ _ rest]

end

@[simp] lemma offset_zero (bs : List (Blueprint C Env)) : offset bs 0 = 0 := by
  rw [offset, List.take_zero, subtreesOfAll, List.length_nil]

lemma offset_succ (b : Blueprint C Env) (bs : List (Blueprint C Env)) (k : Nat) :
    offset (b :: bs) (k + 1) = b.subtrees.length + offset bs k := by
  rw [offset, offset, List.take_succ_cons, subtreesOfAll, List.length_append]

/-- Outlines of children stand one after the other. -/
lemma getElem?_outlineChildren {above : List NodeId} {path : String} {index : NodeId}
    {bs : List (Blueprint C Env)} {k : Nat} {c : Blueprint C Env} (hc : bs[k]? = some c) {j : Nat}
    {n : Outlined C Env}
    (hn : (outlineFrom above (Place.childPath path c.key) (index + offset bs k) c)[j]? = some n) :
    (outlineChildren above path index bs)[offset bs k + j]? = some n := by
  induction bs generalizing index k with
  | nil => simp at hc
  | cons b rest ih =>
      rw [outlineChildren]
      set first := outlineFrom above (Place.childPath path b.key) index b with hfirst
      have hlength : first.length = b.subtrees.length := length_outlineFrom _ _ _ _
      cases k with
      | zero =>
          obtain rfl : b = c := by simpa using hc
          rw [offset_zero, Nat.add_zero, ← hfirst] at hn
          rw [offset_zero, Nat.zero_add,
            List.getElem?_append_left (List.getElem?_eq_some_iff.1 hn).1, hn]
      | succ k =>
          rw [offset_succ, ← hlength, ← Nat.add_assoc] at hn
          rw [offset_succ, ← hlength, List.getElem?_append_right (by omega),
            show first.length + offset rest k + j - first.length = offset rest k + j by omega]
          exact ih hc hn

/-- And there is nothing between them. -/
lemma exists_child_of_getElem? {above : List NodeId} {path : String} {index : NodeId}
    {bs : List (Blueprint C Env)} {i : Nat} {n : Outlined C Env}
    (hn : (outlineChildren above path index bs)[i]? = some n) :
    ∃ k c j, bs[k]? = some c ∧ i = offset bs k + j ∧
      (outlineFrom above (Place.childPath path c.key) (index + offset bs k) c)[j]? = some n := by
  induction bs generalizing index i with
  | nil => simp [outlineChildren] at hn
  | cons b rest ih =>
      rw [outlineChildren] at hn
      set first := outlineFrom above (Place.childPath path b.key) index b with hfirst
      have hlength : first.length = b.subtrees.length := length_outlineFrom _ _ _ _
      by_cases hlt : i < first.length
      · rw [List.getElem?_append_left hlt] at hn
        exact ⟨0, b, i, rfl, by simp, by simpa [← hfirst] using hn⟩
      · rw [List.getElem?_append_right (Nat.not_lt.1 hlt)] at hn
        obtain ⟨k, c, j, hc, hj, hentry⟩ := ih hn
        refine ⟨k + 1, c, j, hc, ?_, ?_⟩
        · rw [offset_succ]
          omega
        · rw [offset_succ, ← hlength, ← Nat.add_assoc]
          exact hentry

/-- **The node at an address is listed at its index**, with its path and what is above it. -/
lemma getElem?_outlineFrom (above : List NodeId) (path : String) (index : NodeId)
    {b n : Blueprint C Env} {w : List Nat} (hn : b.at? w = some n) :
    (outlineFrom above path index b)[b.index w]? =
      some ⟨⟨n.key, b.pathFrom path w, n.id, b.aboveFrom above index w⟩, n⟩ := by
  induction w generalizing above path index b with
  | nil =>
      obtain rfl : b = n := by simpa using hn
      rcases b with ⟨key, kind, id, initial, entry, exit, on, invoke, route, children⟩
      rw [outlineFrom]
      rfl
  | cons k w ih =>
      obtain ⟨c, hc, hn⟩ := at?_cons_eq_some.1 hn
      rw [index_cons hc, pathFrom_cons hc, aboveFrom_cons hc]
      have hentry := getElem?_outlineChildren hc
        (ih (index :: above) (Place.childPath path c.key) (index + 1 + offset b.children k) hn)
      rcases b with ⟨key, kind, id, initial, entry, exit, on, invoke, route, children⟩
      rw [outlineFrom, Nat.add_assoc, Nat.add_comm 1, List.getElem?_cons_succ]
      exact hentry

/-- **Every entry belongs to an address.** -/
lemma exists_address_from {above : List NodeId} {path : String} {index : NodeId} {i : Nat}
    {b : Blueprint C Env} {n : Outlined C Env}
    (hn : (outlineFrom above path index b)[i]? = some n) :
    ∃ w, b.at? w = some n.blueprint ∧ b.index w = i := by
  induction i using Nat.strongRecOn generalizing above path index b with
  | ind i ih =>
      rcases b with ⟨key, kind, id, initial, entry, exit, on, invoke, route, children⟩
      rw [outlineFrom] at hn
      cases i with
      | zero =>
          cases hn
          exact ⟨[], by simp, by rw [Blueprint.index]⟩
      | succ i =>
          rw [List.getElem?_cons_succ] at hn
          obtain ⟨k, c, j, hc, hi, hentry⟩ := exists_child_of_getElem? hn
          obtain ⟨w, hw, hj⟩ := ih j (by omega) hentry
          refine ⟨k :: w, at?_cons_eq_some.2 ⟨c, hc, hw⟩, ?_⟩
          rw [index_cons hc, hj, hi, Nat.add_assoc, Nat.add_comm 1]

/-! ## The order of addresses -/

section Order

variable {b n : Blueprint C Env} {v w : List Nat}

lemma index_lt_length (hn : b.at? w = some n) : b.index w < b.subtrees.length := by
  have hentry := getElem?_outlineFrom [] "" 0 hn
  rw [← length_outlineFrom [] "" 0 b]
  exact (List.getElem?_eq_some_iff.1 hentry).1

/-- The subtree of a child comes before the later children. -/
lemma offset_add_length_le {bs : List (Blueprint C Env)} {c : Blueprint C Env} {k l : Nat}
    (hc : bs[k]? = some c) (hlt : k < l) : offset bs k + c.subtrees.length ≤ offset bs l := by
  induction bs generalizing k l with
  | nil => simp at hc
  | cons b rest ih =>
      obtain ⟨l, rfl⟩ := Nat.exists_eq_add_of_le' (Nat.lt_of_le_of_lt (Nat.zero_le k) hlt)
      cases k with
      | zero =>
          obtain rfl : b = c := by simpa using hc
          rw [offset_zero, offset_succ]
          omega
      | succ k =>
          have hrest := ih hc (Nat.lt_of_succ_lt_succ hlt)
          rw [offset_succ, offset_succ]
          omega

/-- **The table is in lexicographic order.** -/
lemma index_lt_index {m : Blueprint C Env} (hm : b.at? v = some m) (hn : b.at? w = some n)
    (hlt : v < w) : b.index v < b.index w := by
  induction w generalizing b v with
  | nil => exact absurd hlt (List.not_lt_nil v)
  | cons l w ih =>
      obtain ⟨d, hd, hn⟩ := at?_cons_eq_some.1 hn
      rw [index_cons hd]
      cases v with
      | nil =>
          rw [index]
          omega
      | cons k v =>
          obtain ⟨c, hc, hm⟩ := at?_cons_eq_some.1 hm
          rw [index_cons hc]
          rcases List.cons_lt_cons_iff.1 hlt with hless | ⟨rfl, hless⟩
          · have hbefore := offset_add_length_le hc hless
            have hinside := index_lt_length hm
            omega
          · obtain rfl : c = d := Option.some.inj (hc.symm.trans hd)
            exact Nat.add_lt_add_left (ih hm hn hless) _

lemma index_inj {m : Blueprint C Env} (hm : b.at? v = some m) (hn : b.at? w = some n) :
    b.index v = b.index w ↔ v = w := by
  refine ⟨fun h => ?_, fun h => h ▸ rfl⟩
  rcases lt_trichotomy v w with hlt | heq | hlt
  · exact absurd h (Nat.ne_of_lt (index_lt_index hm hn hlt))
  · exact heq
  · exact absurd h.symm (Nat.ne_of_lt (index_lt_index hn hm hlt))

lemma index_le_index {m : Blueprint C Env} (hm : b.at? v = some m) (hn : b.at? w = some n) :
    b.index v ≤ b.index w ↔ v ≤ w := by
  refine ⟨fun h => le_of_not_gt fun hlt => ?_, fun h => ?_⟩
  · exact absurd h (Nat.not_le.2 (index_lt_index hn hm hlt))
  · rcases lt_or_eq_of_le h with hlt | rfl
    · exact Nat.le_of_lt (index_lt_index hm hn hlt)
    · exact Nat.le_refl _

/-- The root is listed first. -/
lemma index_eq_root (hn : b.at? w = some n) : b.index w = Skeleton.root ↔ w = [] := by
  have hroot : b.index [] = Skeleton.root := by rw [index, Skeleton.root]
  rw [← hroot, index_inj hn (at?_nil b)]

lemma concat_lt_concat (w : List Nat) {k l : Nat} (h : k < l) : w ++ [k] < w ++ [l] := by
  induction w with
  | nil => exact List.cons_lt_cons_iff.2 (.inl h)
  | cons j w ih => exact List.cons_lt_cons_iff.2 (.inr ⟨rfl, ih⟩)

end Order

/-! ## The whole table -/

section Table

variable {b n : Blueprint C Env} {w : List Nat} {k : Nat}

/-- The entry of a node in the table. -/
def entryAt (b n : Blueprint C Env) (w : List Nat) : Outlined C Env :=
  ⟨⟨n.key, b.pathAt w, n.id, b.aboveFrom [] Skeleton.root w⟩, n⟩

lemma getElem?_outline (hn : b.at? w = some n) :
    b.outline[b.index w]? = some (b.entryAt n w) :=
  getElem?_outlineFrom _ _ _ hn

/-- **Every entry of the table is that of a node at an address.** -/
lemma exists_address {i : NodeId} {m : Outlined C Env} (hm : b.outline[i]? = some m) :
    ∃ w n, b.at? w = some n ∧ b.index w = i ∧ m = b.entryAt n w := by
  obtain ⟨w, hw, rfl⟩ := exists_address_from hm
  exact ⟨w, m.blueprint, hw, rfl, Option.some.inj (hm.symm.trans (getElem?_outline hw))⟩

lemma getElem?_skeleton (hn : b.at? w = some n) :
    b.outline.skeleton[b.index w]? = some (b.entryAt n w).toPlace := by
  rw [Outline.getElem?_skeleton, getElem?_outline hn, Option.map_some]

lemma exists_address_of_skeleton {i : NodeId} {p : Place} (hp : b.outline.skeleton[i]? = some p) :
    ∃ w n, b.at? w = some n ∧ b.index w = i ∧ p = (b.entryAt n w).toPlace := by
  rw [Outline.getElem?_skeleton, Option.map_eq_some_iff] at hp
  obtain ⟨m, hm, rfl⟩ := hp
  obtain ⟨w, n, hn, hi, rfl⟩ := exists_address hm
  exact ⟨w, n, hn, hi, rfl⟩

/-- What is right above a node is listed where the address without its last position says. -/
lemma head?_aboveFrom {above : List NodeId} {index : NodeId}
    (hn : b.at? (w ++ [k]) = some n) :
    (b.aboveFrom above index (w ++ [k])).head? = some (index + b.index w) := by
  induction w generalizing b above index with
  | nil =>
      obtain ⟨c, hc, -⟩ := at?_cons_eq_some.1 hn
      rw [List.nil_append, aboveFrom_cons hc, aboveFrom, List.head?_cons, Blueprint.index,
        Nat.add_zero]
  | cons l w ih =>
      obtain ⟨c, hc, hn⟩ := at?_cons_eq_some.1 hn
      rw [List.cons_append, aboveFrom_cons hc, ih hn, index_cons hc,
        ← Nat.add_assoc, ← Nat.add_assoc]

lemma parent?_root : (b.entryAt n []).parent? = none := by
  rw [entryAt, Place.parent?, aboveFrom, List.head?_nil]

/-- **The parent of a node** is the node at the address without its last position. -/
lemma parent?_concat (hn : b.at? (w ++ [k]) = some n) :
    (b.entryAt n (w ++ [k])).parent? = some (b.index w) := by
  rw [entryAt, Place.parent?, head?_aboveFrom hn, Skeleton.root, Nat.zero_add]

/-- **The children of a node** in the table are those of the blueprint, in their order. -/
lemma childrenOf_index (hn : b.at? w = some n) :
    b.outline.skeleton.childrenOf (b.index w) =
      (List.range n.children.length).map fun k => b.index (w ++ [k]) := by
  have hchild : ∀ k < n.children.length, ∃ c, b.at? (w ++ [k]) = some c := fun k hk =>
    ⟨n.children[k], (at?_concat hn k).trans (List.getElem?_eq_getElem hk)⟩
  refine List.Pairwise.eq_of_mem_iff (r := (· < ·)) ?_ ?_ fun i => ?_
  · exact List.pairwise_lt_range.filter _
  · rw [List.pairwise_map]
    refine List.pairwise_lt_range.imp_of_mem fun {k l} hk hl hlt => ?_
    obtain ⟨c, hc⟩ := hchild k (List.mem_range.1 hk)
    obtain ⟨d, hd⟩ := hchild l (List.mem_range.1 hl)
    exact index_lt_index hc hd (concat_lt_concat w hlt)
  · rw [Skeleton.mem_childrenOf, List.mem_map]
    constructor
    · rintro ⟨p, hp, hparent⟩
      obtain ⟨v, m, hm, rfl, rfl⟩ := exists_address_of_skeleton hp
      rcases List.eq_nil_or_concat' v with rfl | ⟨u, k, rfl⟩
      · rw [parent?_root] at hparent
        cases hparent
      · rw [parent?_concat hm] at hparent
        obtain ⟨q, hq, hk⟩ := exists_at?_of_concat hm
        obtain rfl := (index_inj hq hn).1 (Option.some.inj hparent)
        obtain rfl := Option.some.inj (hq.symm.trans hn)
        exact ⟨k, List.mem_range.2 (List.getElem?_eq_some_iff.1 hk).1, rfl⟩
    · rintro ⟨k, hk, rfl⟩
      obtain ⟨c, hc⟩ := hchild k (List.mem_range.1 hk)
      exact ⟨_, getElem?_skeleton hc, parent?_concat hc⟩

end Table

end Blueprint

end FormChart
