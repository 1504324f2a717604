import Templating.Tree.Basic
import Templating.Text.Quoted

/-!
Trees as indented listings: a line a node, two spaces a level. An element's line has its attributes
inside the tag and what its directives resolved to behind it; its text follows in quotes, and each
interpolated expression on a line of its own.
-/
namespace Templating

def AttributeValue.listed (name : String) : AttributeValue → String
  | .flag => s!" {name}"
  | .text value => s!" {name}=\"" ++ value ++ "\""

def Table.listed (table : Table AttributeValue) : String :=
  String.join (table.entries.map fun entry => entry.2.listed entry.1)

def listedField (label : String) : Option String → String
  | none => ""
  | some value => s!" {label}={value}"

def Loop.listed (loop : Loop) : String := " for=(" ++ loop.item ++ " " ++ loop.keyword.word ++ " " ++ loop.items ++ ")"

def Binding.listed (binding : Binding) : String :=
  match binding.value with
  | .flag => " " ++ binding.rawName
  | .text value => " " ++ binding.rawName ++ "=" ++ value

namespace Element

def listedTag (e : Element) : String :=
  "<" ++ e.tag ++ e.attributes.listed ++ (e.pending.map Table.listed).getD "" ++ ">"

def listedDirectives (e : Element) : String :=
  listedField "if" e.ifCondition ++ listedField "else-if" e.elseIfCondition ++
    (if e.isElse then " else" else "") ++ (e.loop.map Loop.listed).getD "" ++
    listedField "key" e.key ++ listedField "show" e.showCondition ++ listedField "once" e.once ++
    listedField "ref" e.ref ++ listedField "slot" e.slot ++ listedField "slot-name" e.slotName ++
    (if e.pre then " pre" else "") ++ String.join (e.bindings.map Binding.listed)

def listedText (e : Element) : List String :=
  (e.text.map fun text => String.ofList (Text.quoted text.toList)).toList ++
    ((e.data.map Table.names).getD []).map fun expression => "\x7b\x7b " ++ expression ++ " \x7d\x7d"

end Element

def Node.listed (node : Node) : List String :=
  match node.content with
  | .comment body => ["<!--" ++ body ++ "-->"]
  | .doctype body => ["<!DOCTYPE " ++ body ++ ">"]
  | .element e => [e.listedTag ++ e.listedDirectives]

def Node.listedBelow (node : Node) : List String := (node.element?.map Element.listedText).getD []

namespace Tree

def indented (depth : Nat) (line : String) : String := String.ofList (List.replicate (2 * depth) ' ') ++ line

mutual

def lines (depth : Nat) : Tree → List String
  | .branch _ node children =>
      node.listed.map (indented depth) ++ node.listedBelow.map (indented (depth + 1)) ++ linesAll (depth + 1) children

def linesAll (depth : Nat) : List Tree → List String
  | [] => []
  | tree :: trees => tree.lines depth ++ linesAll depth trees

end

def listing (trees : List Tree) : String := String.join ((linesAll 0 trees).map (· ++ "\n"))

end Tree
end Templating
