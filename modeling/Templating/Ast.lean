import Templating.Tree.Listing
import Templating.Tree.Encode

/-!
A finished template: its nodes and the one at the top.
-/
namespace Templating

structure Ast where
  arena : Arena
  root : NodeId
  deriving DecidableEq, Repr

namespace Ast

def tree? (ast : Ast) : Option Tree := ast.arena.tree? ast.root

def follow? (arena : Arena) (id : NodeId) (path : List Nat) : Option NodeId :=
  path.foldlM (fun id place => (arena.get? id).bind fun node => node.children[place]?) id

def idAt? (ast : Ast) (path : List Nat) : Option NodeId := follow? ast.arena ast.root path

def at? (ast : Ast) (path : List Nat) : Option Node := (ast.idAt? path).bind ast.arena.get?

def node? (ast : Ast) (id : NodeId) : Option Node := ast.arena.get? id

def parent? (ast : Ast) (id : NodeId) : Option Node := (ast.node? id).bind fun node => node.parent.bind ast.node?

def children (ast : Ast) (id : NodeId) : List Node := ((ast.node? id).map Node.children |>.getD []).filterMap ast.node?

def listing? (ast : Ast) : Option String := ast.tree?.map fun tree => Tree.listing [tree]

def json? (ast : Ast) : Option Json := ast.tree?.map Tree.json

end Ast
end Templating
