import Templating.Node.Basic

/-!
The store of a template's nodes. Nodes refer to each other by their place in the order of
allocation and are never removed, so an id once given stays good.
-/
namespace Templating

structure Arena where
  nodes : Array Node
  deriving DecidableEq, Repr

namespace Arena

def empty : Arena := ⟨#[]⟩

instance : Inhabited Arena := ⟨empty⟩

def size (arena : Arena) : Nat := arena.nodes.size

def isEmpty (arena : Arena) : Bool := arena.nodes.isEmpty

def get? (arena : Arena) (id : NodeId) : Option Node := arena.nodes[id.index]?

def element? (arena : Arena) (id : NodeId) : Option Element := (arena.get? id).bind Node.element?

def nextId (arena : Arena) : NodeId := NodeId.ofIndex arena.size

def push (arena : Arena) (node : Node) : Arena := ⟨arena.nodes.push node⟩

def modify (arena : Arena) (id : NodeId) (f : Node → Node) : Arena := ⟨arena.nodes.modify id.index f⟩

def modifyElement (arena : Arena) (id : NodeId) (f : Element → Element) : Arena := arena.modify id (Node.mapElement f)

def toList (arena : Arena) : List (NodeId × Node) :=
  arena.nodes.toList.zipIdx.map fun entry => (NodeId.ofIndex entry.2, entry.1)

/-- Makes `children` the children of the element `id`, and that element their parent. Other nodes
have no children to replace. -/
def adopt (arena : Arena) (id : NodeId) (children : List NodeId) : Arena :=
  if (arena.element? id).isSome then
    children.foldl (fun arena child => arena.modify child fun node => { node with parent := some id })
      (arena.modifyElement id fun e => { e with children })
  else arena

@[simp] theorem sizePush (arena : Arena) (node : Node) : (arena.push node).size = arena.size + 1 := Array.size_push ..

@[simp] theorem sizeModify (arena : Arena) (id : NodeId) (f : Node → Node) : (arena.modify id f).size = arena.size :=
  Array.size_modify ..

theorem getModify (arena : Arena) (id other : NodeId) (f : Node → Node) :
    (arena.modify id f).get? other =
      if id.index = other.index then (arena.get? other).map f else arena.get? other :=
  Array.getElem?_modify

theorem getPush (arena : Arena) (id : NodeId) (node : Node) :
    (arena.push node).get? id = if id.index = arena.size then some node else arena.get? id :=
  Array.getElem?_push

end Arena
end Templating
