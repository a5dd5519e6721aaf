import FormChart.Chart.Basic
import FormChart.Chart.Defect

/-!
# From a blueprint to a chart

`Blueprint.outline` lists the nodes of a blueprint in preorder with their places.  On the outline
all defects are found (`Outline.defects`), in three rounds: the shape of every node, then global
ids that are declared twice, then initial children and targets that lead nowhere.  A blueprint
without defects becomes a chart (`Blueprint.build`), **and only such a one does**.

The outline is what `flatten` makes of a tree of node builders; the rounds are its shape checks, the
duplicate ids, and what `resolve_initial` and `resolve_transition` report.
-/

namespace FormChart

/-- A node of a blueprint with its place. -/
structure Outlined (C Env : Type) extends Place where
  blueprint : Blueprint C Env

/-- The nodes of a blueprint in preorder. -/
abbrev Outline (C Env : Type) := List (Outlined C Env)

namespace Blueprint

variable {C Env : Type}

mutual

/-- The nodes of a tree in preorder, given the nodes above it, the path of its parent and the
    place of its root in the table. -/
def outlineFrom (ancestors : List NodeId) (path : String) (index : NodeId) :
    Blueprint C Env → Outline C Env
  | ⟨key, kind, id, initial, entry, exit, on, invoke, route, children⟩ =>
    ⟨⟨key, path, id, ancestors⟩,
      ⟨key, kind, id, initial, entry, exit, on, invoke, route, children⟩⟩ ::
      outlineChildren (index :: ancestors) path (index + 1) children

/-- The nodes of some children, one tree after the other. -/
def outlineChildren (ancestors : List NodeId) (path : String) (index : NodeId) :
    List (Blueprint C Env) → Outline C Env
  | [] => []
  | b :: rest =>
    let first := outlineFrom ancestors (Place.childPath path b.key) index b
    first ++ outlineChildren ancestors path (index + first.length) rest

end

/-- The nodes of a blueprint in preorder; the root has the empty path. -/
def outline (b : Blueprint C Env) : Outline C Env := outlineFrom [] "" Skeleton.root b

end Blueprint

/-- The items of a list that occurred before, in order. -/
def repeats : List String → List String → List String
  | _, [] => []
  | seen, s :: rest => if seen.contains s then s :: repeats seen rest else repeats (s :: seen) rest

/-- A defect, if a condition does not hold. -/
def Defect.unless (ok : Bool) (d : Defect) : List Defect := if ok then [] else [d]

namespace Outlined

variable {C Env : Type}

/-- What is wrong with the shape of a node. -/
def shapeDefects (o : Outlined C Env) : List Defect :=
  let b := o.blueprint
  let name := o.display
  (if b.kind = .compound then Defect.unless (!b.children.isEmpty) (.noChildren name)
    else
      Defect.unless b.children.isEmpty (.leafChildren name) ++
        Defect.unless b.initial.isNone (.leafInitial name)) ++
    Defect.unless (b.invoke.isNone || b.kind == .atomic) (.misplacedInvoke name) ++
    (repeats [] (b.children.map (·.key))).map (.repeatedKey name)

end Outlined

namespace Outline

variable {C Env : Type}

/-- The places of the nodes. -/
def skeleton (o : Outline C Env) : Skeleton := o.map Outlined.toPlace

/-- What is wrong with global ids. -/
def idDefects (o : Outline C Env) : List Defect :=
  (repeats [] (o.filterMap (·.id))).map .repeatedId

/-- The child that is entered with a node. -/
def initial? (o : Outline C Env) (owner : NodeId) (n : Outlined C Env) : Option NodeId :=
  if n.blueprint.kind = .compound then n.blueprint.initial.bind (o.skeleton.child? owner) else none

/-- What is wrong with the initial child of a node. -/
def initialDefects (o : Outline C Env) (owner : NodeId) (n : Outlined C Env) : List Defect :=
  if n.blueprint.kind = .compound then
    match n.blueprint.initial with
    | none => [.noInitial n.display]
    | some key =>
      Defect.unless (o.skeleton.child? owner key).isSome (.unknownInitial n.display key)
  else []

/-- What is wrong with the target of a transition. -/
def targetDefects (o : Outline C Env) (owner : NodeId) (n : Outlined C Env)
    (a : String × Arrow C) : List Defect :=
  let event := if a.1 = "" then "(always)" else a.1
  match a.2.target with
  | none => []
  | some target =>
    match o.skeleton.resolve? owner target with
    | none => [.unknownTarget n.display event target]
    | some i => Defect.unless (i != Skeleton.root) (.targetIsRoot n.display event)

/-- What is wrong with the references of a node. -/
def referenceDefects (o : Outline C Env) (owner : NodeId) (n : Outlined C Env) : List Defect :=
  o.initialDefects owner n ++ n.blueprint.arrows.flatMap (o.targetDefects owner n)

/-- Everything that is wrong. -/
def defects (o : Outline C Env) : List Defect :=
  o.flatMap Outlined.shapeDefects ++ o.idDefects ++
    o.zipIdx.flatMap fun (n, owner) => o.referenceDefects owner n

/-- A transition with its target resolved. -/
def transition (o : Outline C Env) (owner : NodeId) (a : Arrow C) : Transition C :=
  { target := a.target.bind (o.skeleton.resolve? owner)
    guard := a.guard
    actions := a.actions
    isInternal := a.isInternal }

/-- A node with its references resolved. -/
def node (o : Outline C Env) (owner : NodeId) (n : Outlined C Env) : Node C Env :=
  { toPlace := n.toPlace
    kind := n.blueprint.kind
    children := o.skeleton.childrenOf owner
    initial := o.initial? owner n
    entry := n.blueprint.entry
    exit := n.blueprint.exit
    on := n.blueprint.arrows.map fun a => (a.1, o.transition owner a.2)
    invoke := n.blueprint.invoke.map fun i => ⟨i.id, i.task⟩
    route := n.blueprint.route }

/-- The chart of an outline. -/
def chart (o : Outline C Env) : Chart C Env := ⟨o.zipIdx.map fun (n, owner) => o.node owner n⟩

end Outline

/-- The chart of a blueprint, or everything that is wrong with it. -/
def Blueprint.build {C Env : Type} (b : Blueprint C Env) : Except (List Defect) (Chart C Env) :=
  match b.outline.defects with
  | [] => .ok b.outline.chart
  | defects => .error defects

/-- A blueprint without defects makes the chart of its outline. -/
theorem Blueprint.build_of_defects_eq_nil {C Env : Type} {b : Blueprint C Env}
    (h : b.outline.defects = []) : b.build = .ok b.outline.chart := by
  simp only [build, h]

end FormChart
