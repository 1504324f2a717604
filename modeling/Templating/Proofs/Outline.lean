import Templating.Proofs.Steps

/-!
The outline of a node is what a build reads and writes of it: what kind of node it is, its tag or
body, its children, its text, whether it is done and where it stands. Arenas with the same outlines
are alike to a build: from either it goes the same way and fails for the same cause.
-/
namespace Templating

inductive Shape where
  | element (tag : String) (children : List NodeId) (text : Option String)
  | comment (body : String)
  | doctype (body : String)
  deriving DecidableEq, Repr

def Element.shape (e : Element) : Shape := .element e.tag e.children e.text

def Content.shape : Content → Shape
  | .element e => e.shape
  | .comment body => .comment body
  | .doctype body => .doctype body

structure Outline where
  shape : Shape
  done : Bool
  span : Span
  deriving DecidableEq, Repr

namespace Node

def outline (node : Node) : Outline := ⟨node.content.shape, node.done, node.span⟩

theorem contentCases (node : Node) : (∃ e, node.content = .element e) ∨ ∀ e, node.content ≠ .element e := by
  cases node.content with
  | element e => exact Or.inl ⟨e, rfl⟩
  | comment | doctype => exact Or.inr (by simp)

theorem leafElement {node : Node} (leaf : ∀ e, node.content ≠ .element e) : node.element? = none := by
  unfold element?
  cases content : node.content with
  | element e => exact absurd content (leaf e)
  | comment | doctype => rfl

theorem leafIsElement {node : Node} (leaf : ∀ e, node.content ≠ .element e) : node.isElement = false := by
  rw [isElement, leafElement leaf]
  rfl

theorem outlineCases {a b : Node} (same : a.outline = b.outline) :
    a.done = b.done ∧ a.span = b.span ∧
    ((∃ e f, a.content = .element e ∧ b.content = .element f ∧ e.tag = f.tag ∧ e.children = f.children ∧
        e.text = f.text) ∨
      (a.content = b.content ∧ ∀ e, a.content ≠ .element e)) := by
  simp only [outline, Outline.mk.injEq] at same
  obtain ⟨shape, done, span⟩ := same
  refine ⟨done, span, ?_⟩
  cases ha : a.content with
  | element e =>
    cases hb : b.content with
    | element f =>
      simp only [ha, hb, Content.shape, Element.shape, Shape.element.injEq] at shape
      exact Or.inl ⟨e, f, rfl, rfl, shape⟩
    | comment | doctype => simp [ha, hb, Content.shape, Element.shape] at shape
  | comment body =>
    cases hb : b.content <;> simp [ha, hb, Content.shape, Element.shape] at shape
    exact Or.inr ⟨by rw [shape], by simp⟩
  | doctype body =>
    cases hb : b.content <;> simp [ha, hb, Content.shape, Element.shape] at shape
    exact Or.inr ⟨by rw [shape], by simp⟩

theorem outlineIsElement {a b : Node} (same : a.outline = b.outline) : a.isElement = b.isElement := by
  obtain ⟨_, _, ⟨e, f, ha, hb, _⟩ | ⟨content, _⟩⟩ := outlineCases same
  · simp [isElement, element?, ha, hb]
  · simp [isElement, element?, content]

theorem outlineIsElementNamed {a b : Node} (same : a.outline = b.outline) (tag : String) :
    a.isElementNamed tag = b.isElementNamed tag := by
  obtain ⟨_, _, ⟨e, f, ha, hb, named, _⟩ | ⟨content, _⟩⟩ := outlineCases same
  · simp [isElementNamed, element?, ha, hb, named]
  · simp [isElementNamed, element?, content]

theorem outlineChildren {a b : Node} (same : a.outline = b.outline) : a.children = b.children := by
  obtain ⟨_, _, ⟨e, f, ha, hb, _, nested, _⟩ | ⟨content, _⟩⟩ := outlineCases same
  · simp [children, ha, hb, nested]
  · simp [children, content]

theorem outlineTypeName {a b : Node} (same : a.outline = b.outline) : a.typeName = b.typeName := by
  obtain ⟨_, _, ⟨e, f, ha, hb, named, _⟩ | ⟨content, _⟩⟩ := outlineCases same
  · simp [typeName, ha, hb, named]
  · simp [typeName, content]

theorem outlineText {a b : Node} (same : a.outline = b.outline) :
    a.element?.map Element.text = b.element?.map Element.text := by
  obtain ⟨_, _, ⟨e, f, ha, hb, _, _, text⟩ | ⟨content, _⟩⟩ := outlineCases same
  · simp [element?, ha, hb, text]
  · simp [element?, content]

theorem outlineMapElement {a b : Node} {change other : Element → Element} (same : a.outline = b.outline)
    (alike : ∀ e f : Element, e.tag = f.tag → e.children = f.children → e.text = f.text →
      (change e).shape = (other f).shape) :
    (a.mapElement change).outline = (b.mapElement other).outline := by
  obtain ⟨done, span, ⟨e, f, ha, hb, named, nested, text⟩ | ⟨content, noElement⟩⟩ := outlineCases same
  · have shape := alike e f named nested text
    simp only [outline, mapElement, ha, hb, Content.shape, done, span, shape]
  · cases ha : a.content with
    | element e => exact absurd ha (noElement e)
    | comment | doctype =>
      simp only [mapElement, ha, ← content]
      exact same

theorem outlineMapElementSelf {node : Node} {change : Element → Element}
    (same : ∀ e : Element, (change e).shape = e.shape) : (node.mapElement change).outline = node.outline := by
  unfold outline mapElement
  cases content : node.content with
  | element e => simp only [Content.shape, same]
  | comment | doctype => simp only [content]

theorem outlineClose {a b : Node} (same : a.outline = b.outline) (children : List NodeId) (stop : Nat) :
    (a.close children stop).outline = (b.close children stop).outline := by
  have mapped : (a.mapElement fun e => { e with children }).outline =
      (b.mapElement fun e => { e with children }).outline :=
    outlineMapElement same fun e f named _ text => by simp [Element.shape, named, text]
  have span := (outlineCases same).2.1
  simp only [outline, Outline.mk.injEq] at mapped
  simp only [close, outline, mapped.1, span]

theorem outlineAppendText {a b : Node} (same : a.outline = b.outline) (run : String) :
    (a.mapElement fun e => e.appendText run).outline = (b.mapElement fun e => e.appendText run).outline := by
  refine outlineMapElement same fun e f named nested text => ?_
  unfold Element.appendText
  rw [text]
  cases f.text <;> simp [Element.shape, named, nested]

end Node

theorem bindAlike {α β γ : Type} {view : α → β} {first second : Option α} {left right : α → Option γ}
    (same : first.map view = second.map view) (alike : ∀ a b, view a = view b → left a = right b) :
    first.bind left = second.bind right := by
  cases first with
  | none =>
    cases second with
    | none => rfl
    | some => contradiction
  | some a =>
    cases second with
    | none => contradiction
    | some b => exact alike a b (Option.some.inj same)

namespace Arena

section Views
variable {α : Type} {view : Node → α} {p q : Arena}

def Agree (view : Node → α) (p q : Arena) : Prop := p.nodes.map view = q.nodes.map view

theorem agreeSize (agree : p.Agree view q) : p.size = q.size := by
  have := congrArg Array.size agree
  simpa [size] using this

theorem agreeGet (agree : p.Agree view q) (id : NodeId) : (p.get? id).map view = (q.get? id).map view := by
  have := congrArg (fun views => views[id.index]?) agree
  simpa [get?] using this

theorem agreeSeen (agree : p.Agree view q) {id : NodeId} {node : Node} (got : q.get? id = some node) :
    ∃ seen, p.get? id = some seen ∧ view seen = view node := by
  have views := agreeGet agree id
  rw [got] at views
  exact Option.map_eq_some_iff.mp views

theorem agreeMap {β : Type} {read : Node → β} (agree : p.Agree view q)
    (same : ∀ a b : Node, view a = view b → read a = read b) (id : NodeId) :
    (p.get? id).map read = (q.get? id).map read := by
  rw [Option.map_eq_bind, Option.map_eq_bind]
  exact bindAlike (agreeGet agree id) fun a b views => congrArg some (same a b views)

theorem agreeAny {test : Node → Bool} (agree : p.Agree view q)
    (same : ∀ a b : Node, view a = view b → test a = test b) (id : NodeId) :
    (p.get? id).any test = (q.get? id).any test := by
  have told := congrArg (Option.any fun holds : Bool => holds) (agreeMap agree same id)
  rw [Option.any_map, Option.any_map] at told
  exact told

theorem agreeIff : p.Agree view q ↔ ∀ i : Nat, p.nodes[i]?.map view = q.nodes[i]?.map view := by
  constructor
  · intro agree i
    have := congrArg (fun views => views[i]?) agree
    simpa using this
  · intro same
    refine Array.ext_getElem? fun i => ?_
    simpa using same i

theorem agreePush (agree : p.Agree view q) {node other : Node} (same : view node = view other) :
    (p.push node).Agree view (q.push other) := by
  unfold Agree push
  rw [Array.map_push, Array.map_push, same]
  exact congrArg (fun views => views.push (view other)) agree

theorem agreeModify (agree : p.Agree view q) (id : NodeId) {change other : Node → Node}
    (same : ∀ a b : Node, view a = view b → view (change a) = view (other b)) :
    (p.modify id change).Agree view (q.modify id other) := by
  rw [agreeIff] at agree ⊢
  intro i
  simp only [modify, Array.getElem?_modify]
  split
  · rw [Option.map_map, Option.map_map, Option.map_eq_bind, Option.map_eq_bind]
    exact bindAlike (agree i) fun a b views => congrArg some (same a b views)
  · exact agree i

theorem agreeModifySelf {id : NodeId} {change : Node → Node}
    (same : ∀ node, p.get? id = some node → view (change node) = view node) : (p.modify id change).Agree view p := by
  rw [agreeIff]
  intro i
  simp only [modify, Array.getElem?_modify]
  split
  · rename_i here
    subst here
    cases got : p.nodes[id.index]? with
    | none => rfl
    | some node => simpa using same node got
  · rfl

end Views

def Alike (p q : Arena) : Prop := p.nodes.map Node.outline = q.nodes.map Node.outline

theorem alikeSize {p q : Arena} (alike : p.Alike q) : p.size = q.size := agreeSize alike

theorem alikeGet {p q : Arena} (alike : p.Alike q) (id : NodeId) :
    (p.get? id).map Node.outline = (q.get? id).map Node.outline := agreeGet alike id

theorem alikeSeen {p q : Arena} (alike : p.Alike q) {id : NodeId} {node : Node} (got : q.get? id = some node) :
    ∃ seen, p.get? id = some seen ∧ seen.outline = node.outline := agreeSeen alike got

theorem alikeText {p q : Arena} (alike : p.Alike q) (id : NodeId) :
    (p.element? id).map Element.text = (q.element? id).map Element.text := by
  have texts : (p.get? id).map (fun node => node.element?.map Element.text) =
      (q.get? id).map fun node => node.element?.map Element.text :=
    agreeMap alike (fun _ _ => Node.outlineText) id
  unfold element?
  cases ha : p.get? id <;> cases hb : q.get? id <;> simp [ha, hb] at texts ⊢
  exact texts

theorem alikeIff {p q : Arena} :
    p.Alike q ↔ ∀ i : Nat, p.nodes[i]?.map Node.outline = q.nodes[i]?.map Node.outline := agreeIff

theorem alikeSymm {p q : Arena} (alike : p.Alike q) : q.Alike p := Eq.symm alike

theorem alikePush {p q : Arena} (alike : p.Alike q) (node : Node) : (p.push node).Alike (q.push node) :=
  agreePush alike rfl

theorem alikeModify {p q : Arena} (alike : p.Alike q) (id : NodeId) {change other : Node → Node}
    (same : ∀ a b : Node, a.outline = b.outline → (change a).outline = (other b).outline) :
    (p.modify id change).Alike (q.modify id other) := agreeModify alike id same

theorem alikeModifySelf {arena : Arena} {id : NodeId} {change : Node → Node}
    (same : ∀ node, arena.get? id = some node → (change node).outline = node.outline) :
    (arena.modify id change).Alike arena := agreeModifySelf same

end Arena

namespace Builder

structure Alike (p q : Builder) : Prop where
  scanner : p.scanner = q.scanner
  stack : p.stack = q.stack
  arena : p.arena.Alike q.arena

theorem alikeSelf (b : Builder) : b.Alike b := ⟨rfl, rfl, rfl⟩

theorem alikeSymm {p q : Builder} (alike : p.Alike q) : q.Alike p :=
  ⟨alike.scanner.symm, alike.stack.symm, Arena.alikeSymm alike.arena⟩

theorem alikeAny {p q : Builder} (alike : p.Alike q) {test : Node → Bool}
    (same : ∀ a b : Node, a.outline = b.outline → test a = test b) (id : NodeId) :
    (p.arena.get? id).any test = (q.arena.get? id).any test := Arena.agreeAny alike.arena same id

theorem alikeIsElement {p q : Builder} (alike : p.Alike q) (id : NodeId) : p.isElement id = q.isElement id :=
  alikeAny alike (fun _ _ same => Node.outlineIsElement same) id

theorem alikeIsOpenElement {p q : Builder} (alike : p.Alike q) (id : NodeId) :
    p.isOpenElement id = q.isOpenElement id :=
  alikeAny alike (fun a b same => by rw [Node.outlineIsElement same, (Node.outlineCases same).1]) id

theorem alikeIsOpenNamed {p q : Builder} (alike : p.Alike q) (tag : String) (id : NodeId) :
    p.isOpenNamed tag id = q.isOpenNamed tag id :=
  alikeAny alike (fun a b same => by rw [Node.outlineIsElementNamed same, (Node.outlineCases same).1]) id

theorem alikeSplitStack {p q : Builder} (alike : p.Alike q) (tag : String) : p.splitStack? tag = q.splitStack? tag := by
  unfold splitStack?
  rw [alike.stack, funext (alikeIsOpenNamed alike tag)]

theorem alikeTextOwner {p q : Builder} (alike : p.Alike q) : p.textOwner? = q.textOwner? := by
  unfold textOwner?
  rw [alike.stack, funext (alikeIsOpenElement alike), funext (alikeIsElement alike)]

theorem alikeSkipBlank {p q : Builder} (alike : p.Alike q) : p.skipBlank.Alike q.skipBlank :=
  ⟨congrArg Markup.Scanner.skipBlank alike.scanner, alike.stack, alike.arena⟩

inductive StepsAlike (p q : Builder) :
    Except CompileError (Builder × Option Event) → Except CompileError (Builder × Option Event) → Prop where
  | failed (cause : CompileError) : StepsAlike p q (.error cause) (.error cause)
  | moved {next other : Builder} (event : Option Event) (alike : next.Alike other)
      (opened : ∀ id, event = some (.opened id) →
        ∃ node, next.arena = p.arena.push node ∧ other.arena = q.arena.push node) :
      StepsAlike p q (.ok (next, event)) (.ok (other, event))

theorem openNodeAlike {p q : Builder} (alike : p.Alike q) (scanner : Markup.Scanner) (node : Node) :
    StepsAlike p q (.ok (p.openNode scanner node)) (.ok (q.openNode scanner node)) := by
  have next : p.arena.nextId = q.arena.nextId := congrArg NodeId.ofIndex (Arena.alikeSize alike.arena)
  unfold openNode
  rw [next, alike.stack]
  exact .moved _ ⟨rfl, rfl, Arena.alikePush alike.arena node⟩ fun _ _ => ⟨node, rfl, rfl⟩

theorem readStartTagAlike {p q : Builder} (alike : p.Alike q) (name covered : List Char) :
    StepsAlike p q (p.readStartTag name covered) (q.readStartTag name covered) := by
  unfold readStartTag
  rw [alike.scanner]
  cases (q.scanner.pass covered).readAttributes q.scanner.offset (Element.ofTag (String.ofList name)) with
  | error cause => exact .failed cause
  | ok result => exact openNodeAlike alike result.1 _

theorem readEndTagAlike {p q : Builder} (alike : p.Alike q) (name covered : List Char) :
    StepsAlike p q (p.readEndTag name covered) (q.readEndTag name covered) := by
  unfold readEndTag
  rw [alikeSplitStack alike, alike.scanner]
  cases q.splitStack? (String.ofList name) with
  | none => exact .failed _
  | some sides =>
    obtain ⟨above, id, outer⟩ := sides
    refine .moved _ ⟨rfl, rfl, ?_⟩ fun _ same => by cases same
    exact Arena.alikeModify alike.arena id fun a b same => Node.outlineClose same above.reverse _

theorem readTextAlike {p q : Builder} (alike : p.Alike q) (run covered : List Char) :
    StepsAlike p q (p.readText run covered) (q.readText run covered) := by
  unfold readText
  rw [alikeTextOwner alike, alike.scanner]
  cases q.textOwner? with
  | none => exact .failed _
  | some owner =>
    refine .moved _ ⟨rfl, alike.stack, ?_⟩ fun _ same => by cases same
    exact Arena.alikeModify alike.arena owner fun a b same => Node.outlineAppendText same _

theorem stepAlike {p q : Builder} (alike : p.Alike q) (comments : Bool) :
    StepsAlike p q (p.step comments) (q.step comments) := by
  unfold step
  rw [alike.scanner]
  split
  · exact .failed _
  · unfold readLeaf
    rw [alike.scanner]
    exact openNodeAlike alike _ _
  · split
    · unfold readLeaf
      rw [alike.scanner]
      exact openNodeAlike alike _ _
    · exact .moved _ ⟨rfl, alike.stack, alike.arena⟩ fun _ same => by cases same
  · exact readStartTagAlike alike _ _
  · exact readEndTagAlike alike _ _
  · exact readTextAlike alike _ _

end Builder
end Templating
