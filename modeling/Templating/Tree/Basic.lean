import Templating.Arena

/-!
Nodes with their children in place of the ids of these. A node of an arena has such a view unless
an id on the way down is not in use or the way leads back to itself.
-/
namespace Templating

inductive Tree where
  | branch (id : NodeId) (node : Node) (children : List Tree)
  deriving Repr

def Arena.treeWithin? (arena : Arena) : Nat → NodeId → Option Tree
  | 0, _ => none
  | depth + 1, id => do
      let node ← arena.get? id
      let children ← node.children.mapM (arena.treeWithin? depth)
      some (.branch id node children)

/- A way down an arena that does not lead back to itself has no more levels than there are nodes. -/
def Arena.tree? (arena : Arena) (id : NodeId) : Option Tree := arena.treeWithin? arena.size id

def Arena.forest? (arena : Arena) (ids : List NodeId) : Option (List Tree) := ids.mapM arena.tree?

namespace Tree

def id : Tree → NodeId
  | .branch id _ _ => id

mutual

def preorder : Tree → List NodeId
  | .branch id _ children => id :: preorderAll children

def preorderAll : List Tree → List NodeId
  | [] => []
  | tree :: trees => tree.preorder ++ preorderAll trees

end

end Tree
end Templating
