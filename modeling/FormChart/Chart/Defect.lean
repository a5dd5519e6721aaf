/-!
# Defects of a blueprint

Everything that may be wrong with a blueprint, each with the node where it is wrong.
-/

namespace FormChart

/-- Something that is wrong with a blueprint. -/
inductive Defect where
  | noInitial (node : String)
  | unknownInitial (node initial : String)
  | leafInitial (node : String)
  | unknownTarget (node event target : String)
  | targetIsRoot (node event : String)
  | repeatedId (id : String)
  | repeatedKey (node key : String)
  | noChildren (node : String)
  | leafChildren (node : String)
  | misplacedInvoke (node : String)
  deriving DecidableEq, Repr

/-- A name between quotes. -/
def inQuotes (s : String) : String := "'" ++ s ++ "'"

namespace Defect

/-- The wording of a defect. -/
def message : Defect → String
  | .noInitial node =>
    "Compound node " ++ inQuotes node ++ " has no initial child. Call .initial(key)"
  | .unknownInitial node initial =>
    "Initial child " ++ inQuotes initial ++ " of " ++ inQuotes node ++ " does not exist"
  | .leafInitial node => "Leaf node " ++ inQuotes node ++ " declares an initial child"
  | .unknownTarget node event target =>
    "Transition on " ++ inQuotes event ++ " from " ++ inQuotes node ++ " targets unknown node " ++
      inQuotes target
  | .targetIsRoot node event =>
    "Transition on " ++ inQuotes event ++ " from " ++ inQuotes node ++ " targets the root node"
  | .repeatedId id => "Global id " ++ inQuotes ("#" ++ id) ++ " is declared more than once"
  | .repeatedKey node key =>
    "Node " ++ inQuotes node ++ " has more than one child keyed " ++ inQuotes key
  | .noChildren node => "Compound node " ++ inQuotes node ++ " has no children"
  | .leafChildren node => "Leaf node " ++ inQuotes node ++ " has children"
  | .misplacedInvoke node =>
    "Only atomic nodes may invoke; " ++ inQuotes node ++ " is not atomic"

/-- The wording of a list of defects. -/
def report (defects : List Defect) : String :=
  "Chart definition is invalid (" ++ toString defects.length ++ " problem(s)): " ++
    "; ".intercalate (defects.map message)

end Defect

end FormChart
