import FormChart.Proofs.Chart.Choices

/-!
# The nodes of a blueprint

A chart is made of the subtrees of its blueprint, in preorder (`Blueprint.subtrees`): every node has
the kind and the actions of one of them, and its transitions in their order
(`Blueprint.exists_subtree`).  So what is said of all actions of a chart can be read off the
blueprint, where they are written down.

The tasks of invocations do not matter for the rest of a chart: **they may be dropped** before or
after it is made (`Blueprint.chart_withoutTasks`).
-/

namespace FormChart

variable {C Env : Type}

/-- All actions of a node. -/
def Node.actions (n : Node C Env) : List (Action C) :=
  n.entry ++ n.exit ++ n.on.flatMap (·.2.actions)

namespace Blueprint

/-- All actions at the root of a tree. -/
def actions (b : Blueprint C Env) : List (Action C) :=
  b.entry ++ b.exit ++ b.arrows.flatMap (·.2.actions)

mutual

/-- A tree and all trees below its root, in preorder. -/
def subtrees : Blueprint C Env → List (Blueprint C Env)
  | ⟨key, kind, id, initial, entry, exit, on, invoke, route, children⟩ =>
    ⟨key, kind, id, initial, entry, exit, on, invoke, route, children⟩ :: subtreesOfAll children

/-- Some trees and all trees below their roots. -/
def subtreesOfAll : List (Blueprint C Env) → List (Blueprint C Env)
  | [] => []
  | b :: rest => subtrees b ++ subtreesOfAll rest

end

lemma mem_subtreesOfAll {s : Blueprint C Env} {bs : List (Blueprint C Env)} :
    s ∈ subtreesOfAll bs ↔ ∃ b ∈ bs, s ∈ b.subtrees := by
  induction bs with
  | nil => simp [subtreesOfAll]
  | cons b rest ih => simp [subtreesOfAll, ih]

lemma mem_subtrees {s b : Blueprint C Env} :
    s ∈ b.subtrees ↔ s = b ∨ ∃ child ∈ b.children, s ∈ child.subtrees := by
  rcases b with ⟨key, kind, id, initial, entry, exit, on, invoke, route, children⟩
  rw [subtrees, List.mem_cons, mem_subtreesOfAll]

/-- Whether something holds of a tree and of all trees below its root. -/
def Everywhere (Q : Blueprint C Env → Prop) (b : Blueprint C Env) : Prop := ∀ s ∈ b.subtrees, Q s

lemma everywhere_iff {Q : Blueprint C Env → Prop} {b : Blueprint C Env} :
    b.Everywhere Q ↔ Q b ∧ ∀ child ∈ b.children, child.Everywhere Q := by
  constructor
  · exact fun h => ⟨h b (mem_subtrees.2 (.inl rfl)), fun child hchild s hs =>
      h s (mem_subtrees.2 (.inr ⟨child, hchild, hs⟩))⟩
  · rintro ⟨hroot, hchildren⟩ s hs
    rcases mem_subtrees.1 hs with rfl | ⟨child, hchild, hs⟩
    · exact hroot
    · exact hchildren child hchild s hs

/-- The same for a tree that is written out. -/
lemma everywhere_mk {Q : Blueprint C Env → Prop} {key : String} {kind : NodeKind}
    {id initial route : Option String} {entry exit : List (Action C)}
    {on : List (String × Arrow C)} {invoke : Option (Invoke C Env)}
    {children : List (Blueprint C Env)} :
    Everywhere Q ⟨key, kind, id, initial, entry, exit, on, invoke, route, children⟩ ↔
      Q ⟨key, kind, id, initial, entry, exit, on, invoke, route, children⟩ ∧
        ∀ child ∈ children, child.Everywhere Q := everywhere_iff

/-- Where the actions at the root of a tree come from. -/
lemma forall_actions {Q : Action C → Prop} {b : Blueprint C Env} (hentry : ∀ a ∈ b.entry, Q a)
    (hexit : ∀ a ∈ b.exit, Q a) (hon : ∀ e ∈ b.on, ∀ a ∈ e.2.actions, Q a)
    (hinvoke : ∀ v ∈ b.invoke, ∀ arrow ∈ v.onDone ++ v.onError, ∀ a ∈ arrow.actions, Q a) :
    ∀ a ∈ b.actions, Q a := by
  intro a ha
  rcases List.mem_append.1 ha with ha | ha
  · exact (List.mem_append.1 ha).elim (hentry a) (hexit a)
  · obtain ⟨e, he, ha⟩ := List.mem_flatMap.1 ha
    rcases List.mem_append.1 he with he | he
    · exact hon e he a ha
    · cases hv : b.invoke with
      | none => simp [hv] at he
      | some v =>
          rw [hv] at he
          rcases List.mem_append.1 he with hdone | herror
          · obtain ⟨arrow, harrow, rfl⟩ := List.mem_map.1 hdone
            exact hinvoke v hv arrow (List.mem_append_left _ harrow) a ha
          · obtain ⟨arrow, harrow, rfl⟩ := List.mem_map.1 herror
            exact hinvoke v hv arrow (List.mem_append_right _ harrow) a ha

lemma forall_actions_iff {Q : Action C → Prop} {b : Blueprint C Env} :
    (∀ a ∈ b.actions, Q a) ↔
      (∀ a ∈ b.entry, Q a) ∧ (∀ a ∈ b.exit, Q a) ∧ (∀ e ∈ b.on, ∀ a ∈ e.2.actions, Q a) ∧
        ∀ v ∈ b.invoke, ∀ arrow ∈ v.onDone ++ v.onError, ∀ a ∈ arrow.actions, Q a := by
  constructor
  · intro h
    have harrows : ∀ e ∈ b.arrows, ∀ a ∈ e.2.actions, Q a := fun e he a ha =>
      h a (List.mem_append_right _ (List.mem_flatMap.2 ⟨e, he, ha⟩))
    refine ⟨fun a ha => h a (by simp [actions, ha]), fun a ha => h a (by simp [actions, ha]),
      fun e he => harrows e (List.mem_append_left _ he), fun v hv arrow harrow => ?_⟩
    have hinvoke : b.invoke = some v := hv
    rcases List.mem_append.1 harrow with hdone | herror
    · exact harrows (Event.doneInvoke v.id, arrow)
        (by simp [arrows, hinvoke, Invoke.handlers, hdone])
    · exact harrows (Event.errorInvoke v.id, arrow)
        (by simp [arrows, hinvoke, Invoke.handlers, herror])
  · rintro ⟨hentry, hexit, hon, hinvoke⟩
    exact forall_actions hentry hexit hon hinvoke

mutual

/-- An outline lists the subtrees in their order, each under its own key. -/
lemma map_outlineFrom (above : List NodeId) (path : String) (index : NodeId) :
    ∀ b : Blueprint C Env, (outlineFrom above path index b).map (fun m => (m.key, m.blueprint)) =
      b.subtrees.map fun s => (s.key, s)
  | ⟨key, kind, id, initial, entry, exit, on, invoke, route, children⟩ => by
      rw [outlineFrom, List.map_cons, map_outlineChildren, subtrees, List.map_cons]

lemma map_outlineChildren (above : List NodeId) (path : String) (index : NodeId) :
    ∀ bs : List (Blueprint C Env),
      (outlineChildren above path index bs).map (fun m => (m.key, m.blueprint)) =
        (subtreesOfAll bs).map fun s => (s.key, s)
  | [] => rfl
  | b :: rest => by
      rw [outlineChildren, List.map_append, map_outlineFrom, map_outlineChildren, subtreesOfAll,
        List.map_append]

end

lemma map_blueprint_outline (b : Blueprint C Env) : b.outline.map (·.blueprint) = b.subtrees := by
  have h := congrArg (List.map Prod.snd) (map_outlineFrom [] "" Skeleton.root b)
  simpa [outline, Function.comp_def] using h

/-- **Every node of the chart is made from a subtree** of the blueprint. -/
lemma exists_subtree {b : Blueprint C Env} {i : NodeId} {n : Node C Env}
    (hn : b.outline.chart.node? i = some n) :
    ∃ m, b.outline.node i m = n ∧ m.blueprint ∈ b.subtrees ∧ n.key = m.blueprint.key := by
  obtain ⟨m, hm, rfl⟩ := Outline.node?_chart_eq_some.1 hn
  have hlisted := List.mem_map_of_mem (f := fun m : Outlined C Env => (m.key, m.blueprint))
    (List.mem_of_getElem? hm)
  rw [outline, map_outlineFrom] at hlisted
  obtain ⟨s, hs, heq⟩ := List.mem_map.1 hlisted
  obtain ⟨hkey, rfl⟩ := Prod.mk.inj heq
  exact ⟨m, rfl, hs, hkey.symm⟩

lemma chart_of_build {b : Blueprint C Env} {chart : Chart C Env} (h : b.build = .ok chart) :
    chart = b.outline.chart := by
  unfold build at h
  split at h
  next =>
      cases h
      rfl
  next => cases h

end Blueprint

namespace Outline

lemma actions_node (o : Outline C Env) (i : NodeId) (m : Outlined C Env) :
    (o.node i m).actions = m.blueprint.actions := by
  simp [Node.actions, Blueprint.actions, node, transition, List.flatMap_map]

/-- The transitions of a node are those of its blueprint, in their order. -/
lemma getElem?_on_node (o : Outline C Env) (i : NodeId) (m : Outlined C Env) (k : Nat) :
    (o.node i m).on[k]? = (m.blueprint.arrows[k]?).map fun a => (a.1, o.transition i a.2) :=
  List.getElem?_map

end Outline

/-! ## Blueprints without tasks -/

/-- An invocation that has nothing to do. -/
def Invoke.withoutTask (v : Invoke C Env) : Invoke C Unit :=
  { v with task := fun _ => Task.succeed .null }

namespace Blueprint

mutual

/-- A tree whose invocations have nothing to do. -/
def withoutTasks : Blueprint C Env → Blueprint C Unit
  | ⟨key, kind, id, initial, entry, exit, on, invoke, route, children⟩ =>
    ⟨key, kind, id, initial, entry, exit, on, invoke.map Invoke.withoutTask, route,
      withoutTasksOfAll children⟩

/-- Some trees whose invocations have nothing to do. -/
def withoutTasksOfAll : List (Blueprint C Env) → List (Blueprint C Unit)
  | [] => []
  | b :: rest => withoutTasks b :: withoutTasksOfAll rest

end

@[simp] lemma key_withoutTasks (b : Blueprint C Env) : b.withoutTasks.key = b.key := by
  rcases b with ⟨key, kind, id, initial, entry, exit, on, invoke, route, children⟩
  rfl

end Blueprint

/-- A node of a blueprint in its place, without its tasks. -/
def Outlined.withoutTasks (m : Outlined C Env) : Outlined C Unit :=
  ⟨m.toPlace, m.blueprint.withoutTasks⟩

namespace Blueprint

mutual

lemma outlineFrom_withoutTasks (above : List NodeId) (path : String) (index : NodeId) :
    ∀ b : Blueprint C Env, outlineFrom above path index b.withoutTasks =
      (outlineFrom above path index b).map Outlined.withoutTasks
  | ⟨key, kind, id, initial, entry, exit, on, invoke, route, children⟩ => by
      rw [withoutTasks, outlineFrom, outlineFrom, List.map_cons,
        outlineChildren_withoutTasks _ _ _ children]
      rfl

lemma outlineChildren_withoutTasks (above : List NodeId) (path : String) (index : NodeId) :
    ∀ bs : List (Blueprint C Env), outlineChildren above path index (withoutTasksOfAll bs) =
      (outlineChildren above path index bs).map Outlined.withoutTasks
  | [] => rfl
  | b :: rest => by
      rw [withoutTasksOfAll, outlineChildren, outlineChildren, key_withoutTasks,
        outlineFrom_withoutTasks _ _ _ b, outlineChildren_withoutTasks _ _ _ rest, List.length_map,
        List.map_append]

end

lemma outline_withoutTasks (b : Blueprint C Env) :
    b.withoutTasks.outline = b.outline.map Outlined.withoutTasks :=
  outlineFrom_withoutTasks [] "" Skeleton.root b

/-- **Tasks may be dropped** before or after a chart is made. -/
lemma chart_withoutTasks (b : Blueprint C Env) :
    b.withoutTasks.outline.chart = b.outline.chart.withoutTasks := by
  set o := b.outline
  have hskeleton : Outline.skeleton (o.map Outlined.withoutTasks) = o.skeleton := by
    rw [Outline.skeleton, List.map_map]
    rfl
  have hnode : ∀ (i : NodeId) (m : Outlined C Env),
      Outline.node (o.map Outlined.withoutTasks) i m.withoutTasks = (o.node i m).withoutTask := by
    rintro i ⟨place, key, kind, id, initial, entry, exit, on, invoke, route, children⟩
    simp only [Outlined.withoutTasks, withoutTasks, Outline.node, Outline.initial?,
      Outline.transition, hskeleton, Node.withoutTask, arrows]
    cases invoke <;> simp [Invoke.handlers, Invoke.withoutTask]
  rw [outline_withoutTasks]
  refine congrArg Chart.mk ?_
  have hitems : (o.map Outlined.withoutTasks).zipIdx =
      o.zipIdx.map fun p => (p.1.withoutTasks, p.2) := List.zipIdx_map
  rw [hitems, List.map_map, Outline.chart, List.map_map]
  exact List.map_congr_left fun p _ => hnode p.2 p.1

end Blueprint

end FormChart
