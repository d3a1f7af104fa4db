/-!
Trees drawn with lines. The root stands alone; below it, every node has a connector in front, and a
rail goes down to its last child.
-/

namespace LineCensus.Report

/-- A node with a label, further lines below it, and children. -/
inductive Branch where
  | mk (label : String) (details : List String) (children : List Branch)

namespace Branch

def connector (isLast : Bool) : String := if isLast then "└── " else "├── "

/-- What stands in front of everything below a node. -/
def rail (isLast : Bool) : String := if isLast then "    " else "│   "

def detailRail (hasChildren : Bool) : String := if hasChildren then "│ " else "  "

def detailLines (lead : String) (details : List String) (hasChildren : Bool) : String :=
  String.join (details.map fun detail => lead ++ detailRail hasChildren ++ detail ++ "\n")

mutual

/-- A node below another, behind what the nodes above it put in front. -/
def drawBelow (lead : String) (isLast : Bool) : Branch → String
  | mk label details children =>
    let inner := lead ++ rail isLast
    lead ++ connector isLast ++ label ++ "\n" ++ detailLines inner details (!children.isEmpty)
      ++ drawChildren inner children

/-- The children of a node, of which the last one ends the rail. -/
def drawChildren (lead : String) : List Branch → String
  | [] => ""
  | child :: rest => drawBelow lead rest.isEmpty child ++ drawChildren lead rest

end

/-- A whole tree: its root stands behind `lead`, and everything below the root begins its lines
anew. -/
def drawRoot (lead : String) : Branch → String
  | mk label details children =>
    lead ++ label ++ "\n" ++ detailLines "" details (!children.isEmpty) ++ drawChildren "" children

def draw (root : Branch) : String := root.drawRoot ""

end Branch

end LineCensus.Report
