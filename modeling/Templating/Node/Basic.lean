import Templating.Node.Element
import Templating.Source.Position

/-!
Nodes: elements, comments and doctypes, each with its place in the template.
-/
namespace Templating

inductive Content where
  | element (element : Element)
  | comment (body : String)
  | doctype (body : String)
  deriving DecidableEq, Repr

structure Node where
  content : Content
  /- The end has been read; a node without an end of its own is done as it is opened. -/
  done : Bool := false
  parent : Option NodeId := none
  root : Bool := false
  span : Span
  deriving DecidableEq, Repr

namespace Node

def typeName (node : Node) : String :=
  match node.content with
  | .element e => e.tag
  | .comment _ => "COMMENT"
  | .doctype _ => "DOCTYPE"

def element? (node : Node) : Option Element :=
  match node.content with
  | .element e => some e
  | _ => none

def isElement (node : Node) : Bool := node.element?.isSome

def isElementNamed (node : Node) (tag : String) : Bool := node.element?.any (·.tag == tag)

def hasCondition (node : Node) : Bool := node.element?.any Element.hasCondition

def body? (node : Node) : Option String :=
  match node.content with
  | .element _ => none
  | .comment body => some body
  | .doctype body => some body

def children (node : Node) : List NodeId :=
  match node.content with
  | .element e => e.children
  | _ => []

def mapElement (f : Element → Element) (node : Node) : Node :=
  match node.content with
  | .element e => { node with content := .element (f e) }
  | _ => node

end Node
end Templating
