import FormChart.Invocations

/-!
# Skeletons

The skeleton of a chart is what is needed to find one's way in it: the table of its nodes in
preorder (a node before its children, and those in their order), with keys, paths, global ids and
ancestors.  A node is named by its place in the table; the root comes first.

Every node knows its ancestors, so walks towards the root need no recursion.  The children of a
node are the nodes whose parent it is (`childrenOf`), in the order of the table.

References are looked up here: `lookup?` takes an id or a path from the root, and `resolve?` is
`resolve_target`, which begins at the owner of a transition.
-/

namespace FormChart

/-- Where a node stands in a chart. -/
structure Place where
  key : String
  /-- The keys from below the root to the node, with points between them; empty for the root. -/
  path : String
  /-- A name that is known in the whole chart. -/
  id : Option String
  /-- The nodes above, the parent first and the root last. -/
  ancestors : List NodeId
  deriving DecidableEq, Repr, Inhabited

namespace Place

/-- The node right above. -/
def parent? (p : Place) : Option NodeId := p.ancestors.head?

/-- The name under which a node is mentioned in messages. -/
def display (p : Place) : String := if p.path = "" then p.key else p.path

/-- The path of a child. -/
def childPath (parentPath key : String) : String :=
  if parentPath = "" then key else parentPath ++ "." ++ key

end Place

/-- The places of all nodes in preorder. -/
abbrev Skeleton := List Place

/-- The keys of a path of keys. -/
def segments (cs : List Char) : List String := (cs.splitOn '.').map String.ofList

namespace Skeleton

/-- The root of every chart. -/
def root : NodeId := 0

/-- The children of a node in their order. -/
def childrenOf (s : Skeleton) (node : NodeId) : List NodeId :=
  (List.range s.length).filter fun i => (s[i]?.bind Place.parent?) == some node

/-- The first child with a key. -/
def child? (s : Skeleton) (node : NodeId) (key : String) : Option NodeId :=
  (s.childrenOf node).find? fun i => s[i]?.any (·.key == key)

/-- The node that is reached by going down from child to child. -/
def descend? (s : Skeleton) (node : NodeId) (keys : List String) : Option NodeId :=
  keys.foldlM s.child? node

/-- The last node that passes a test. -/
def findLast? (s : Skeleton) (test : Place → Bool) : Option NodeId :=
  (List.range s.length).reverse.find? fun i => s[i]?.any test

/-- The node with a global id; the last one, if it is declared more than once. -/
def withId? (s : Skeleton) (id : String) : Option NodeId := s.findLast? (·.id == some id)

/-- The node with a path; the last one, if several have it. -/
def withPath? (s : Skeleton) (path : String) : Option NodeId := s.findLast? (·.path == path)

/-- The node that the target of a transition names, seen from the owner of the transition. -/
def resolve? (s : Skeleton) (owner : NodeId) (target : String) : Option NodeId :=
  match target.toList with
  | '#' :: cs =>
    match segments cs with
    | [] => none
    | id :: keys => do s.descend? (← s.withId? id) keys
  | '.' :: cs => s.descend? owner (segments cs)
  | cs => do s.descend? (← s[owner]?.bind Place.parent?) (segments cs)

/-- The node that a reference names: a global id with keys after it, or a path. -/
def lookup? (s : Skeleton) (reference : String) : Option NodeId :=
  match reference.toList with
  | '#' :: _ => s.resolve? root reference
  | _ => s.withPath? reference

end Skeleton

end FormChart
