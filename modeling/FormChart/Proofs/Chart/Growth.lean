import FormChart.Proofs.Chart.Addresses

/-!
# A table that grows

The table of a tree can be filled in a single pass.  A node is put at the end of the table, without
children; then its subtrees are added one after the other, and **each child is noted down with its
parent once the whole subtree of the child is there** (`Blueprint.grow`).  So rows that are in the
table already are changed on the way, and every path is read off the row of the parent.

What comes out is the outline (`Blueprint.grow_root`): no row is lost or overwritten, and a node
ends up with its children in their order.  The induction is on the tree, for all tables that the
pass may find.  What stands there is left as it is, but for the row of the parent, which gains the
children (`Blueprint.growChildren_eq`).
-/

namespace FormChart

variable {C Env : Type}

/-- A row of a table that is being filled. -/
structure Row (C Env : Type) where
  blueprint : Blueprint C Env
  path : String
  parent : Option NodeId
  /-- The children that have been noted down so far. -/
  children : List NodeId

namespace Row

/-- Notes down children after the others. -/
def gain (children : List NodeId) (r : Row C Env) : Row C Env :=
  { r with children := r.children ++ children }

/-- The path of a node whose parent is in the table. -/
def pathBelow (table : List (Row C Env)) (key : String) : Option NodeId → String
  | none => ""
  | some p => Place.childPath ((table[p]?.map (·.path)).getD "") key

@[simp] lemma path_gain (children : List NodeId) (r : Row C Env) :
    (r.gain children).path = r.path := rfl

lemma gain_nil : (gain [] : Row C Env → Row C Env) = id := by
  funext r
  rw [gain, List.append_nil, id]

lemma gain_comp (first rest : List NodeId) :
    (gain rest ∘ gain first : Row C Env → Row C Env) = gain (first ++ rest) := by
  funext r
  simp [gain]

end Row

namespace Blueprint

mutual

/-- Puts a tree at the end of a table, below a parent, and tells the place of its root. -/
def grow (parent : Option NodeId) (table : List (Row C Env)) :
    Blueprint C Env → NodeId × List (Row C Env)
  | ⟨key, kind, id, initial, entry, exit, on, invoke, route, children⟩ =>
    (table.length,
      growChildren table.length
        (table ++ [⟨⟨key, kind, id, initial, entry, exit, on, invoke, route, children⟩,
          Row.pathBelow table key parent, parent, []⟩]) children)

/-- Puts some trees at the end of a table, and notes their roots down with the parent. -/
def growChildren (parent : NodeId) (table : List (Row C Env)) :
    List (Blueprint C Env) → List (Row C Env)
  | [] => table
  | b :: rest =>
    let (child, grown) := grow (some parent) table b
    growChildren parent (grown.modify parent (Row.gain [child])) rest

end

/-- Where the roots of some trees are listed, if they are listed from a place on. -/
def rootsFrom (index : NodeId) (bs : List (Blueprint C Env)) : List NodeId :=
  (List.range bs.length).map fun k => index + offset bs k

/-- The rows of an outline that is listed from a place on. -/
def rows (index : NodeId) (o : Outline C Env) : List (Row C Env) :=
  o.mapIdx fun j m =>
    ⟨m.blueprint, m.path, m.parent?, rootsFrom (index + j + 1) m.blueprint.children⟩

lemma rootsFrom_cons (index : NodeId) (b : Blueprint C Env) (bs : List (Blueprint C Env)) :
    rootsFrom index (b :: bs) = index :: rootsFrom (index + b.subtrees.length) bs := by
  rw [rootsFrom, List.length_cons, List.range_succ_eq_map, List.map_cons, offset_zero, Nat.add_zero,
    List.map_map, rootsFrom]
  refine congrArg (index :: ·) (List.map_congr_left fun k _ => ?_)
  rw [Function.comp_apply, offset_succ, Nat.add_assoc]

lemma rows_cons (index : NodeId) (m : Outlined C Env) (o : Outline C Env) :
    rows index (m :: o) =
      ⟨m.blueprint, m.path, m.parent?, rootsFrom (index + 1) m.blueprint.children⟩ ::
        rows (index + 1) o := by
  simp only [rows, List.mapIdx_cons, Nat.add_assoc, Nat.add_comm, Nat.add_left_comm]

lemma rows_append (index : NodeId) (first rest : Outline C Env) :
    rows index (first ++ rest) = rows index first ++ rows (index + first.length) rest := by
  simp only [rows, List.mapIdx_append, Nat.add_assoc, Nat.add_comm, Nat.add_left_comm]

lemma length_rows (index : NodeId) (o : Outline C Env) : (rows index o).length = o.length :=
  List.length_mapIdx

section Tables

variable {table : List (Row C Env)} {parent : NodeId} (hlt : parent < table.length)

include hlt

/-- A row that is in a table gains children, whatever comes after the table. -/
lemma modify_append (children : List NodeId) (more : List (Row C Env)) :
    (table ++ more).modify parent (Row.gain children) =
      table.modify parent (Row.gain children) ++ more := by
  obtain ⟨first, a, later, rfl, rfl, hmodify⟩ := List.exists_of_modify (Row.gain children) hlt
  rw [hmodify, List.append_assoc, List.append_assoc, List.cons_append, List.cons_append,
    List.modify_eq_take_drop, List.take_left, List.drop_left, List.modifyHead_cons]

/-- It may gain some more later. -/
lemma modify_modify_append (children later : List NodeId) (more : List (Row C Env)) :
    (table.modify parent (Row.gain children) ++ more).modify parent (Row.gain later) =
      table.modify parent (Row.gain (children ++ later)) ++ more := by
  rw [modify_append (by rwa [List.length_modify]), List.modify_modify_eq, Row.gain_comp]

end Tables

/-- The row at the end of a table gains children. -/
lemma modify_concat (table : List (Row C Env)) (r : Row C Env) (children : List NodeId) :
    (table ++ [r]).modify table.length (Row.gain children) = table ++ [r.gain children] := by
  rw [List.modify_eq_take_drop, List.take_left, List.drop_left, List.modifyHead_cons]

mutual

/-- **A tree that is put at the end of a table leaves the table alone**, and adds the rows of its
outline. -/
lemma grow_eq (above : List NodeId) (table : List (Row C Env)) :
    ∀ b : Blueprint C Env, (∀ p, above.head? = some p → p < table.length) →
      grow above.head? table b = (table.length, table ++ rows table.length
        (outlineFrom above (Row.pathBelow table b.key above.head?) table.length b))
  | ⟨key, kind, id, initial, entry, exit, on, invoke, route, children⟩, hparent => by
      rw [grow, outlineFrom, rows_cons]
      set own : Row C Env := ⟨⟨key, kind, id, initial, entry, exit, on, invoke, route, children⟩,
        Row.pathBelow table key above.head?, above.head?, []⟩
      have hown : (table ++ [own])[table.length]? = some own := by simp
      rw [growChildren_eq (table.length :: above) (table ++ [own]) children rfl hown,
        List.length_append, List.length_singleton, modify_concat, List.append_assoc,
        List.singleton_append]
      rfl

/-- The rows of some subtrees are added, and **the parent gains their roots**. -/
lemma growChildren_eq {parent : NodeId} (above : List NodeId) (table : List (Row C Env))
    {r : Row C Env} :
    ∀ bs : List (Blueprint C Env), above.head? = some parent → table[parent]? = some r →
      growChildren parent table bs =
        table.modify parent (Row.gain (rootsFrom table.length bs)) ++
          rows table.length (outlineChildren above r.path table.length bs)
  | [], _, _ => by simp [growChildren, rootsFrom, Row.gain_nil, outlineChildren, rows]
  | b :: rest, habove, hr => by
      have hlt : parent < table.length := (List.getElem?_eq_some_iff.1 hr).1
      set first := outlineFrom above (Place.childPath r.path b.key) table.length b with hfirst
      have hsize : first.length = b.subtrees.length := length_outlineFrom _ _ _ _
      have hgrow : grow (some parent) table b =
          (table.length, table ++ rows table.length first) := by
        have hpath : Row.pathBelow table b.key (some parent) = Place.childPath r.path b.key := by
          simp [Row.pathBelow, hr]
        rw [hfirst, ← hpath, ← habove]
        exact grow_eq above table b fun p hp => Option.some.inj (habove.symm.trans hp) ▸ hlt
      -- the table when the subtree is there and its root has been noted down
      set noted := table.modify parent (Row.gain [table.length]) ++ rows table.length first
        with hnoted
      have hlength : noted.length = table.length + b.subtrees.length := by
        rw [hnoted, List.length_append, List.length_modify, length_rows, hsize]
      have hrow : noted[parent]? = some (r.gain [table.length]) := by
        rw [hnoted, List.getElem?_append_left (by rwa [List.length_modify]),
          List.getElem?_modify_eq, hr]
        rfl
      calc growChildren parent table (b :: rest)
          = growChildren parent noted rest := by
            simp only [growChildren, hgrow, modify_append hlt, ← hnoted]
        _ = noted.modify parent (Row.gain (rootsFrom noted.length rest)) ++
              rows noted.length (outlineChildren above r.path noted.length rest) := by
            rw [growChildren_eq above noted rest habove hrow, Row.path_gain]
        _ = table.modify parent (Row.gain (rootsFrom table.length (b :: rest))) ++
              rows table.length (outlineChildren above r.path table.length (b :: rest)) := by
            rw [hlength, hnoted, modify_modify_append hlt, List.singleton_append, ← rootsFrom_cons,
              List.append_assoc, outlineChildren, ← hfirst, rows_append, hsize]

end

/-- **What grows from the empty table is the outline**, with the children of every node. -/
theorem grow_root (b : Blueprint C Env) :
    grow none [] b = (Skeleton.root, rows Skeleton.root b.outline) :=
  grow_eq [] [] b nofun

end Blueprint

end FormChart
