import Templating.Tree.Basic
import Templating.Json.Basic

/-!
Trees as JSON, nested like the nodes. Fields come in a fixed order; one that is unset is left out,
and neither ids nor parents are written.
-/
namespace Templating

def AttributeValue.json : AttributeValue → Json
  | .flag => .bool true
  | .text value => .string value

def Table.json {α : Type} (item : α → Json) (table : Table α) : Json :=
  .object (table.entries.map fun entry => (entry.1, item entry.2))

def Json.ofOption : Option String → Json
  | none => .null
  | some value => .string value

def Loop.json (loop : Loop) : Json :=
  .object [("iteratorType", .string loop.keyword.word), ("result", .string loop.item), ("iterator", .string loop.items)]

def Interpolation.json (data : Interpolation) : Json :=
  .object [("rawToken", .string data.rawToken), ("value", .ofOption data.value)]

def Binding.json (binding : Binding) : Json :=
  .object [("rawName", .string binding.rawName), ("name", .string binding.name), ("arg", .ofOption binding.arg),
    ("modifiers", .array (binding.modifiers.map .string)), ("value", binding.value.json)]

def Json.field {α : Type} (name : String) (item : α → Json) (value : Option α) : List (String × Json) :=
  (value.map fun value => (name, item value)).toList

def Json.mark (name : String) (holds : Bool) : List (String × Json) := if holds then [(name, .bool true)] else []

def Element.json (e : Element) (children : List Json) : List (String × Json) :=
  [("attribute", e.attributes.json AttributeValue.json)] ++
    Json.field "vAttribute" (Table.json AttributeValue.json) e.pending ++
    [("children", .array children)] ++
    Json.field "text" .string e.text ++
    Json.field "data" (Table.json Interpolation.json) e.data ++
    Json.field "if" .string e.ifCondition ++
    Json.field "elseIf" .string e.elseIfCondition ++
    Json.mark "else" e.isElse ++
    Json.field "for" Loop.json e.loop ++
    Json.field "key" .string e.key ++
    Json.field "show" .string e.showCondition ++
    Json.field "once" .string e.once ++
    Json.field "ref" .string e.ref ++
    Json.field "slot" .string e.slot ++
    Json.field "slotName" .string e.slotName ++
    Json.mark "pre" e.pre ++
    (if e.bindings.isEmpty then [] else [("bindings", .array (e.bindings.map Binding.json))])

def Node.json (node : Node) (children : List Json) : Json :=
  .object ([("type", .string node.typeName), ("done", .bool node.done), ("root", .bool node.root)] ++
    match node.content with
    | .element e => e.json children
    | .comment body => [("value", .string body)]
    | .doctype body => [("value", .string body)])

namespace Tree

mutual

def json : Tree → Json
  | .branch _ node children => node.json (jsonAll children)

def jsonAll : List Tree → List Json
  | [] => []
  | tree :: trees => tree.json :: jsonAll trees

end

end Tree
end Templating
