import Templating.Ast
import Templating.Proofs.Preorder
import Templating.Proofs.Unambiguous
import Mathlib.Data.List.Perm.Subperm
import Mathlib.Logic.Relation

/-!
The JSON text of a tree tells the tree, up to ids, places and parents: a field is there or it is not, and
where it is there it tells what it was written from. What has a text is every node under which no way down
leads back to itself, and so every node of a forest.
-/
namespace Templating

theorem AttributeValue.jsonTells : Function.Injective AttributeValue.json := by
  intro a b same
  cases a <;> cases b <;> cases same <;> rfl

theorem Json.ofOptionTells : Function.Injective Json.ofOption := by
  intro a b same
  cases a <;> cases b <;> cases same <;> rfl

theorem Json.stringTells : Function.Injective Json.string := fun _ _ same => Json.string.inj same

theorem LoopKeyword.wordTells : Function.Injective LoopKeyword.word := by
  intro a b same
  cases a <;> cases b <;> first | rfl | contradiction

theorem Loop.jsonTells : Function.Injective Loop.json := by
  rintro ⟨keyword, item, items⟩ ⟨other, one, all⟩ same
  simp only [Loop.json, Json.object.injEq, List.cons.injEq, Prod.mk.injEq, Json.string.injEq, true_and, and_true] at same
  obtain ⟨word, rfl, rfl⟩ := same
  rw [LoopKeyword.wordTells word]

theorem Interpolation.jsonTells : Function.Injective Interpolation.json := by
  rintro ⟨rawToken, value⟩ ⟨token, other⟩ same
  simp only [Interpolation.json, Json.object.injEq, List.cons.injEq, Prod.mk.injEq, Json.string.injEq, true_and,
    and_true] at same
  obtain ⟨rfl, value⟩ := same
  rw [Json.ofOptionTells value]

theorem Binding.jsonTells : Function.Injective Binding.json := by
  rintro ⟨rawName, name, arg, modifiers, value⟩ ⟨raw, other, argument, more, written⟩ same
  simp only [Binding.json, Json.object.injEq, List.cons.injEq, Prod.mk.injEq, Json.string.injEq, Json.array.injEq,
    true_and, and_true] at same
  obtain ⟨rfl, rfl, arg, modifiers, value⟩ := same
  rw [Json.ofOptionTells arg, List.map_injective_iff.mpr Json.stringTells modifiers, AttributeValue.jsonTells value]

theorem Table.jsonTells {α : Type} {item : α → Json} (tells : Function.Injective item) :
    Function.Injective (Table.json item) := by
  intro table other same
  refine Table.entriesInjective (List.map_injective_iff.mpr ?_ (Json.object.inj same))
  intro entry twin same
  obtain ⟨names, values⟩ := Prod.mk.inj same
  exact Prod.ext names (tells values)

theorem Json.lookupField {α : Type} (name sought : String) (item : α → Json) (value : Option α) :
    (Json.field name item value).lookup sought = if sought = name then value.map item else none := by
  unfold Json.field
  cases value with
  | none => simp
  | some value => by_cases same : sought = name <;> simp [List.lookup_cons, same, beq_eq_false_iff_ne.mpr]

theorem Json.lookupMark (name sought : String) (holds : Bool) :
    (Json.mark name holds).lookup sought = if sought = name ∧ holds = true then some (.bool true) else none := by
  unfold Json.mark
  cases holds with
  | false => simp
  | true => by_cases same : sought = name <;> simp [List.lookup_cons, same, beq_eq_false_iff_ne.mpr]

namespace Element
variable {e f : Element} {children others : List Json}

structure Told (e : Element) (children : List Json) (find : String → Option Json) : Prop where
  attributes : find "attribute" = some (e.attributes.json AttributeValue.json)
  pending : find "vAttribute" = e.pending.map (Table.json AttributeValue.json)
  children : find "children" = some (.array children)
  text : find "text" = e.text.map .string
  data : find "data" = e.data.map (Table.json Interpolation.json)
  ifCondition : find "if" = e.ifCondition.map .string
  elseIfCondition : find "elseIf" = e.elseIfCondition.map .string
  isElse : find "else" = if e.isElse = true then some (.bool true) else none
  loop : find "for" = e.loop.map Loop.json
  key : find "key" = e.key.map .string
  showCondition : find "show" = e.showCondition.map .string
  once : find "once" = e.once.map .string
  ref : find "ref" = e.ref.map .string
  slot : find "slot" = e.slot.map .string
  slotName : find "slotName" = e.slotName.map .string
  pre : find "pre" = if e.pre = true then some (.bool true) else none
  bindings : find "bindings" = if e.bindings = [] then none else some (.array (e.bindings.map Binding.json))

theorem lookupBindings (bindings : List Binding) (sought : String) :
    (if bindings = [] then [] else [("bindings", Json.array (bindings.map Binding.json))]).lookup sought =
      if sought = "bindings" ∧ bindings ≠ [] then some (.array (bindings.map Binding.json)) else none := by
  cases bindings with
  | nil => simp
  | cons => by_cases same : sought = "bindings" <;> simp [List.lookup_cons, same, beq_eq_false_iff_ne.mpr]

theorem told (e : Element) (children : List Json) : e.Told children fun name => (e.json children).lookup name := by
  constructor <;>
    simp [Element.json, List.lookup_append, Json.lookupField, Json.lookupMark, List.lookup_cons, lookupBindings]

theorem markTells {holds other : Bool} {json : Json}
    (same : (if holds = true then some json else none) = if other = true then some json else none) : holds = other := by
  cases holds <;> cases other <;> first | rfl | contradiction

theorem bindingsTell {bindings others : List Binding}
    (same : (if bindings = [] then none else some (Json.array (bindings.map Binding.json))) =
      if others = [] then none else some (Json.array (others.map Binding.json))) : bindings = others := by
  cases bindings <;> cases others
  · rfl
  · contradiction
  · contradiction
  · exact List.map_injective_iff.mpr Binding.jsonTells (Json.array.inj (Option.some.inj same))

theorem jsonTells (same : e.json children = f.json others) (tag : e.tag = f.tag) :
    { e with children := [] } = { f with children := [] } ∧ children = others := by
  have left := e.told children
  have right := f.told others
  rw [same] at left
  have attributes := Table.jsonTells AttributeValue.jsonTells (Option.some.inj (left.attributes.symm.trans right.attributes))
  have pending := Option.map_injective (Table.jsonTells AttributeValue.jsonTells) (left.pending.symm.trans right.pending)
  have text := Option.map_injective Json.stringTells (left.text.symm.trans right.text)
  have data := Option.map_injective (Table.jsonTells Interpolation.jsonTells) (left.data.symm.trans right.data)
  have ifCondition := Option.map_injective Json.stringTells (left.ifCondition.symm.trans right.ifCondition)
  have elseIfCondition := Option.map_injective Json.stringTells (left.elseIfCondition.symm.trans right.elseIfCondition)
  have isElse := markTells (left.isElse.symm.trans right.isElse)
  have loop := Option.map_injective Loop.jsonTells (left.loop.symm.trans right.loop)
  have key := Option.map_injective Json.stringTells (left.key.symm.trans right.key)
  have showCondition := Option.map_injective Json.stringTells (left.showCondition.symm.trans right.showCondition)
  have once := Option.map_injective Json.stringTells (left.once.symm.trans right.once)
  have ref := Option.map_injective Json.stringTells (left.ref.symm.trans right.ref)
  have slot := Option.map_injective Json.stringTells (left.slot.symm.trans right.slot)
  have slotName := Option.map_injective Json.stringTells (left.slotName.symm.trans right.slotName)
  have pre := markTells (left.pre.symm.trans right.pre)
  have bindings := bindingsTell (left.bindings.symm.trans right.bindings)
  refine ⟨?_, Json.array.inj (Option.some.inj (left.children.symm.trans right.children))⟩
  rw [tag, attributes, pending, text, data, ifCondition, elseIfCondition, isElse, loop, key, showCondition, once, ref,
    slot, slotName, pre, bindings]

end Element

/- A node for itself: without the ids of others, and wherever it stands. -/
def Node.unlinked (node : Node) : Node :=
  { node.mapElement fun e => { e with children := [] } with parent := none, span := ⟨0, 0⟩ }

namespace Node
variable {node twin : Node} {children others : List Json}

theorem jsonUnlinked (node : Node) (children : List Json) : node.unlinked.json children = node.json children := by
  cases node with
  | mk content => cases content <;> rfl

theorem jsonTells (same : node.json children = twin.json others) :
    node.unlinked = twin.unlinked ∧ (node.isElement = true → children = others) := by
  obtain ⟨content, done, parent, root, span⟩ := node
  obtain ⟨other, finished, above, top, place⟩ := twin
  have fields := Json.object.inj same
  simp only [List.cons_append, List.nil_append, List.cons.injEq, Prod.mk.injEq, Json.string.injEq, Json.bool.injEq,
    true_and] at fields
  obtain ⟨type, rfl, rfl, rest⟩ := fields
  cases content with
  | element e =>
    cases other with
    | element f =>
      obtain ⟨parts, below⟩ := Element.jsonTells rest type
      refine ⟨?_, fun _ => below⟩
      unfold unlinked mapElement
      dsimp only
      rw [parts]
    | comment | doctype => simp [Element.json] at rest
  | comment body =>
    cases other with
    | element f => simp [Element.json] at rest
    | comment text =>
      cases rest
      exact ⟨rfl, fun impossible => by contradiction⟩
    | doctype text =>
      have types : "COMMENT" = "DOCTYPE" := type
      contradiction
  | doctype body =>
    cases other with
    | element f => simp [Element.json] at rest
    | comment text =>
      have types : "DOCTYPE" = "COMMENT" := type
      contradiction
    | doctype text =>
      cases rest
      exact ⟨rfl, fun impossible => by contradiction⟩

end Node

namespace Tree

mutual

def unlinked : Tree → Tree
  | .branch _ node children => .branch ⟨0⟩ node.unlinked (unlinkedAll children)

def unlinkedAll : List Tree → List Tree
  | [] => []
  | tree :: trees => tree.unlinked :: unlinkedAll trees

end

mutual

theorem jsonUnlinked : (tree : Tree) → tree.unlinked.json = tree.json
  | .branch _ node children => by
    rw [unlinked, json, json, jsonUnlinkedAll children, node.jsonUnlinked]

theorem jsonUnlinkedAll : (trees : List Tree) → jsonAll (unlinkedAll trees) = jsonAll trees
  | [] => rfl
  | tree :: trees => by rw [unlinkedAll, jsonAll, jsonAll, jsonUnlinked tree, jsonUnlinkedAll trees]

end

end Tree

namespace Arena
variable {arena other : Arena}

end Arena

end Templating
