import Templating.Proofs.Layout
import Templating.Proofs.Running
import Templating.Proofs.StartTags
import Templating.Compile
import Mathlib.Data.List.Find

/-!
Reading back what is written. A build whose source begins with a document gets behind it with the
nodes of that document behind those it had, its top nodes on the stack, and its runs of text given to
the innermost open element.
-/
namespace Templating
open Markup Document Templating.Tree

namespace StartTag

def node (tag : StartTag) (start : Nat) (done : Bool) : Node where
  content := .element tag.element
  done
  span := Span.ofOffsets start (start + Text.byteLength tag.print)

theorem splitBehindName (tag : StartTag) (after : List Char) :
    isPaired (tag.print ++ after) tag.name.chars =
      match Text.splitFirst ['>'] (tag.behindName ++ after) with
      | some sides => Text.occursIn tag.printEnd sides.2
      | none => false := by
  have length : 1 + Text.byteLength tag.name.chars = Text.byteLength ('<' :: tag.name.chars) := rfl
  have printed : tag.print ++ after = ('<' :: tag.name.chars) ++ (tag.behindName ++ after) := by
    simp [print]
  unfold isPaired
  rw [length, printed, Text.dropBytesAppend]
  rfl

theorem voidUnpaired (tag : StartTag) {after : List Char}
    (unended : ∀ before later, tag.behindName ++ after = before ++ '>' :: later →
      Text.occursIn tag.printEnd later = false) : isPaired (tag.print ++ after) tag.name.chars = false := by
  rw [splitBehindName]
  cases found : Text.splitFirst ['>'] (tag.behindName ++ after) with
  | none => rfl
  | some sides => exact unended sides.1 sides.2 (Text.splitFirstSides found)

theorem endedPaired (tag : StartTag) (inner after : List Char) :
    isPaired (tag.print ++ (inner ++ (tag.printEnd ++ after))) tag.name.chars = true := by
  have behind : tag.behindName ++ (inner ++ (tag.printEnd ++ after)) =
      tag.attributes.flatMap WrittenAttribute.print ++ '>' :: (inner ++ (tag.printEnd ++ after)) := by
    simp [behindName]
  obtain ⟨before, more, found⟩ :=
    Text.splitFirstBehind '>' (tag.attributes.flatMap WrittenAttribute.print)
  rw [splitBehindName, behind, found]
  exact Text.occursInIff.mpr ⟨more ++ inner, after, by simp⟩

end StartTag

namespace Builder

def grow (b : Builder) (covered : List Char) (nodes : List Node) : Builder :=
  ⟨b.scanner.pass covered, b.arena.extend nodes, b.arena.nextId :: b.stack⟩

theorem stepComment (body : CommentBody) {b : Builder} {after : List Char} (rest : b.scanner.rest = body.print ++ after) :
    b.step true = .ok (b.grow body.print
      (leaf b.arena.size b.scanner.offset (.comment (String.ofList body.chars)) body.print).nodes, some (.opened b.arena.nextId)) := by
  unfold step
  rw [rest, constructComment]
  simp only [if_true, readLeaf, openNode, grow, Arena.pushExtend]
  rfl

theorem stepDoctype (body : DoctypeBody) {b : Builder} {after : List Char} (rest : b.scanner.rest = body.print ++ after) :
    b.step true = .ok (b.grow body.print
      (leaf b.arena.size b.scanner.offset (.doctype (String.ofList body.chars)) body.print).nodes, some (.opened b.arena.nextId)) := by
  unfold step
  rw [rest, constructDoctype]
  simp only [readLeaf, openNode, grow, Arena.pushExtend]
  rfl

theorem stepStart (tag : StartTag) {b : Builder} {after : List Char} (rest : b.scanner.rest = tag.print ++ after) :
    b.step true = .ok (b.grow tag.print [tag.node b.scanner.offset (!isPaired (tag.print ++ after) tag.name.chars)],
      some (.opened b.arena.nextId)) := by
  have attributes : tag.behindName ++ after = tag.attributes.flatMap WrittenAttribute.print ++ '>' :: after := by
    simp [StartTag.behindName]
  have printed : tag.print ++ after = '<' :: (tag.name.chars ++ (tag.behindName ++ after)) := by
    simp [StartTag.print]
  have stops : ∀ c, (tag.behindName ++ after).head? = some c → isTagName c = false := by
    intro c same
    rw [attributes] at same
    obtain ⟨r, behind⟩ | ⟨d, r, behind, _⟩ := WrittenAttribute.endsAttributes tag.attributes after
    · rw [behind] at same
      cases same
      decide
    · rw [behind] at same
      cases same
      decide
  have left : (b.scanner.pass ('<' :: tag.name.chars)).rest =
      tag.attributes.flatMap WrittenAttribute.print ++ '>' :: after := by
    refine Scanner.restPass ?_
    rw [rest, printed, attributes, List.cons_append]
  have read := Scanner.readAttributesExact b.scanner.offset tag.attributes (Element.ofTag (String.ofList tag.name.chars)) left
  rw [Scanner.passPass, StartTag.elementExact] at read
  unfold step
  rw [rest, printed, constructStartTag tag.name stops]
  simp only [readStartTag, read, rest]
  rw [printed]
  rfl

theorem stepEnd (tag : StartTag) {b : Builder} {after : List Char} (rest : b.scanner.rest = tag.printEnd ++ after)
    {above outer : List NodeId} {id : NodeId}
    (split : b.splitStack? (String.ofList tag.name.chars) = some (above, id, outer)) :
    b.step true = .ok (⟨b.scanner.pass tag.printEnd,
      b.arena.modify id (Node.close above.reverse (b.scanner.offset + Text.byteLength tag.printEnd)), id :: outer⟩,
      some (.closed id)) := by
  unfold step
  rw [rest, constructEndTag]
  simp only [readEndTag, split]
  rfl

def withText (b : Builder) (run : TextRun) (owner : NodeId) : Builder :=
  { b with
    scanner := b.scanner.pass run.chars
    arena := b.arena.modifyElement owner fun e => e.appendText (String.ofList run.chars) }

theorem stepText (run : TextRun) {b : Builder} {after : List Char} (rest : b.scanner.rest = run.chars ++ after)
    (stops : ∀ c, after.head? = some c → c = '<') {owner : NodeId} (owned : b.textOwner? = some owner) :
    b.step true = .ok (b.withText run owner, none) := by
  unfold step
  rw [rest, constructText run stops]
  simp only [readText, owned]
  rfl

theorem skipBlankStill {b : Builder} (visible : ∀ c, b.scanner.rest.head? = some c → Text.isBlank c = false) :
    (Build.mk b ()).skipBlank = ⟨b, ()⟩ := by
  unfold Build.skipBlank Builder.skipBlank
  rw [Scanner.skipBlankNone visible]

theorem runStep {comments : Bool} {b next : Builder} {event : Option Event} {c : Char}
    (head : b.scanner.rest.head? = some c) (visible : Text.isBlank c = false)
    (stepped : b.step comments = .ok (next, event)) :
    Build.run comments Receiver.silent ⟨b, ()⟩ = Build.run comments Receiver.silent ⟨next, ()⟩ := by
  have here : (Build.mk b ()).skipBlank = ⟨b, ()⟩ := by
    refine skipBlankStill fun d same => ?_
    rw [head] at same
    cases same
    exact visible
  have more : b.atEnd = false := by
    unfold atEnd Scanner.atEnd
    cases rest : b.scanner.rest with
    | nil =>
      rw [rest] at head
      contradiction
    | cons => rfl
  have turned : (Build.mk b ()).turn comments Receiver.silent = .ok ⟨next, ()⟩ := by
    unfold Build.turn
    rw [stepped]
    cases event <;> rfl
  rw [Build.run.eq_def]
  rw [here, more, if_neg (by decide)]
  split
  · rename_i failed
    rw [turned] at failed
    contradiction
  · rename_i ok
    rw [turned] at ok
    cases ok
    rfl

theorem runAtEnd {comments : Bool} {b : Builder} (used : b.scanner.rest = []) :
    Build.run comments Receiver.silent ⟨b, ()⟩ = .ok ⟨b, ()⟩ := by
  have here : (Build.mk b ()).skipBlank = ⟨b, ()⟩ := skipBlankStill (by simp [used])
  have done : b.atEnd = true := by
    unfold atEnd Scanner.atEnd
    rw [used]
    rfl
  rw [Build.run.eq_def, here]
  exact if_pos done

/- The state behind a document, whose runs of text are for `owner`. -/
def behind (b : Builder) (d : Document) (owner : NodeId) : Builder :=
  ⟨b.scanner.pass d.print, (b.arena.give owner d.runs).extend (nodesAll (d.trees b.arena.size b.scanner.offset)),
    (d.tops b.arena.size b.scanner.offset).reverse ++ b.stack⟩

theorem behindEmpty (b : Builder) (owner : NodeId) : b.behind .empty owner = b := by
  unfold behind
  rw [Document.trees, nodesAll, Arena.extendNil]
  rfl

theorem growBehind {b : Builder} {d rest : Document} {owner : NodeId} {covered : List Char} {tree : Tree}
    (printed : d.print = covered ++ rest.print) (runs : d.runs = rest.runs)
    (trees : d.trees b.arena.size b.scanner.offset =
      tree :: rest.trees (b.arena.size + tree.nodes.length) (b.scanner.offset + Text.byteLength covered))
    (id : tree.id = b.arena.nextId) (owned : d.runs = [] ∨ owner.index < b.arena.size) :
    (b.grow covered tree.nodes).behind rest owner = b.behind d owner := by
  have texts : (b.arena.extend tree.nodes).give owner rest.runs = (b.arena.give owner rest.runs).extend tree.nodes := by
    rcases owned with none | inside
    · rw [← runs, none]
      rfl
    · exact Arena.giveExtend inside tree.nodes rest.runs
  have size : (b.arena.extend tree.nodes).size = b.arena.size + tree.nodes.length := Arena.sizeExtend ..
  have offset : (b.scanner.pass covered).offset = b.scanner.offset + Text.byteLength covered := rfl
  unfold behind grow Document.tops
  dsimp only
  rw [texts, size, offset, trees, printed, runs, Scanner.passPass, Arena.extendExtend, nodesAll, List.map_cons, id]
  simp

theorem behindText (b : Builder) (run : TextRun) (rest : Document) (owner : NodeId) :
    (b.withText run owner).behind rest owner = b.behind (.text run rest) owner := by
  have size : (b.arena.modifyElement owner fun e => e.appendText (String.ofList run.chars)).size = b.arena.size :=
    Arena.sizeModify ..
  have offset : (b.scanner.pass run.chars).offset = b.scanner.offset + Text.byteLength run.chars := rfl
  unfold behind withText Document.tops
  dsimp only
  rw [size, offset, Scanner.passPass]
  rfl

def Within (b : Builder) : Prop := ∀ id ∈ b.stack, id.index < b.arena.size

theorem withinGrow {b : Builder} (within : b.Within) (small : b.arena.size < UInt32.size) (covered : List Char) (node : Node)
    (nodes : List Node) : (b.grow covered (node :: nodes)).Within := by
  have index : b.arena.nextId.index = b.arena.size := NodeId.indexOfIndex small
  intro id member
  have size : (b.grow covered (node :: nodes)).arena.size = b.arena.size + (nodes.length + 1) := Arena.sizeExtend ..
  rcases List.mem_cons.mp member with rfl | earlier
  · omega
  · have := within id earlier
    omega

theorem getGrow {b : Builder} (covered : List Char) (nodes : List Node) {id : NodeId} (before : id.index < b.arena.size) :
    (b.grow covered nodes).arena.get? id = b.arena.get? id := by
  rw [grow, Arena.getExtend, if_pos before]

theorem getGrowHead {b : Builder} (small : b.arena.size < UInt32.size) (covered : List Char) (node : Node) (nodes : List Node) :
    (b.grow covered (node :: nodes)).arena.get? b.arena.nextId = some node := by
  have index : b.arena.nextId.index = b.arena.size := NodeId.indexOfIndex small
  rw [grow, Arena.getExtend, if_neg (by omega), index, Nat.sub_self]
  rfl

theorem openGrow {b : Builder} (within : b.Within) (small : b.arena.size < UInt32.size) (covered : List Char) {node : Node}
    (done : node.done = true) (nodes : List Node) :
    (b.grow covered (node :: nodes)).stack.find? (b.grow covered (node :: nodes)).isOpenElement =
      b.stack.find? b.isOpenElement := by
  have top : (b.grow covered (node :: nodes)).isOpenElement b.arena.nextId = false := by
    unfold isOpenElement
    rw [getGrowHead small]
    simp [done]
  have stack : (b.grow covered (node :: nodes)).stack = b.arena.nextId :: b.stack := rfl
  rw [stack, List.find?_cons_of_neg (by simp [top])]
  refine List.find?_congr fun id member => ?_
  unfold isOpenElement
  rw [getGrow covered _ (within id member)]

theorem openStart {b : Builder} (small : b.arena.size < UInt32.size) (covered : List Char) {node : Node}
    (element : node.isElement = true) (waiting : node.done = false) :
    (b.grow covered [node]).stack.find? (b.grow covered [node]).isOpenElement = some b.arena.nextId := by
  have top : (b.grow covered [node]).isOpenElement b.arena.nextId = true := by
    unfold isOpenElement
    rw [getGrowHead small]
    simp [element, waiting]
  exact List.find?_cons_of_pos top

theorem behindInner {b : Builder} (small : b.arena.size < UInt32.size) (covered : List Char) {node : Node} {e : Element}
    (content : node.content = .element e) (blank : e.text = none) (inner : Document) :
    (b.grow covered [node]).behind inner b.arena.nextId =
      ⟨b.scanner.pass (covered ++ inner.print),
        b.arena.extend ({ node with content := .element { e with text := joined inner.runs } } ::
          nodesAll (inner.trees (b.arena.size + 1) (b.scanner.offset + Text.byteLength covered))),
        (inner.tops (b.arena.size + 1) (b.scanner.offset + Text.byteLength covered)).reverse ++
          b.arena.nextId :: b.stack⟩ := by
  have index : b.arena.nextId.index = b.arena.size := NodeId.indexOfIndex small
  have size : (b.arena.extend [node]).size = b.arena.size + 1 := Arena.sizeExtend ..
  have offset : (b.scanner.pass covered).offset = b.scanner.offset + Text.byteLength covered := rfl
  unfold behind grow
  dsimp only
  rw [Arena.giveHead index, mapTexts _ _ content, appendTextJoined _ blank, size, offset, Scanner.passPass,
    Arena.extendExtend]
  rfl

theorem splitInner {b : Builder} (small : b.arena.size < UInt32.size) (s : Scanner) {tag : String} (node : Node)
    (named : node.isElementNamed tag = true) (waiting : node.done = false) {nodes : List Node}
    (done : ∀ node ∈ nodes, node.done = true) {above : List NodeId} (outer : List NodeId) (later : ∀ id ∈ above, b.arena.size + 1 ≤ id.index) :
    splitStack? ⟨s, b.arena.extend (node :: nodes), above ++ b.arena.nextId :: outer⟩ tag =
      some (above, b.arena.nextId, outer) := by
  have index : b.arena.nextId.index = b.arena.size := NodeId.indexOfIndex small
  have here : isOpenNamed ⟨s, b.arena.extend (node :: nodes), above ++ b.arena.nextId :: outer⟩ tag b.arena.nextId = true := by
    unfold isOpenNamed
    rw [Arena.getExtend, if_neg (by omega), index, Nat.sub_self]
    simp [named, waiting]
  refine splitStackExact rfl here fun id member => ?_
  have bound := later id member
  have place : id.index - b.arena.size = (id.index - b.arena.size - 1) + 1 := by omega
  unfold isOpenNamed
  rw [Arena.getExtend, if_neg (by omega), place, List.getElem?_cons_succ]
  cases got : nodes[id.index - b.arena.size - 1]? with
  | none => rfl
  | some child => simp [done child (List.mem_of_getElem? got)]

theorem stepClose (tag : StartTag) (inner : Document) {b : Builder} {after : List Char}
    (room : b.arena.size + inner.size + 1 < UInt32.size)
    (rest : b.scanner.rest = tag.print ++ (inner.print ++ (tag.printEnd ++ after))) :
    ((b.grow tag.print [tag.node b.scanner.offset false]).behind inner b.arena.nextId).step true =
      .ok (b.grow (tag.print ++ (inner.print ++ tag.printEnd))
        (branch tag inner.runs (inner.trees (b.arena.size + 1) (b.scanner.offset + Text.byteLength tag.print)) b.arena.size
          b.scanner.offset (b.scanner.offset + Text.byteLength (tag.print ++ (inner.print ++ tag.printEnd)))).nodes,
        some (.closed b.arena.nextId)) := by
  have index : b.arena.nextId.index = b.arena.size := NodeId.indexOfIndex (by omega)
  rw [behindInner (by omega) tag.print rfl rfl inner]
  have left : (b.scanner.pass (tag.print ++ inner.print)).rest = tag.printEnd ++ after := by
    refine Scanner.restPass ?_
    rw [rest, List.append_assoc]
  have length : b.scanner.offset + Text.byteLength (tag.print ++ inner.print) + Text.byteLength tag.printEnd =
      b.scanner.offset + Text.byteLength (tag.print ++ (inner.print ++ tag.printEnd)) := by
    simp only [Text.byteLengthAppend]
    omega
  have later : ∀ id ∈ (inner.tops (b.arena.size + 1) (b.scanner.offset + Text.byteLength tag.print)).reverse,
      b.arena.size + 1 ≤ id.index := by
    intro id member
    exact topsAbove inner _ _ (by omega) id (List.mem_reverse.mp member)
  have done := nodesDone inner (b.arena.size + 1) (b.scanner.offset + Text.byteLength tag.print)
  have named : Node.isElementNamed
      { tag.node b.scanner.offset false with content := .element { tag.element with text := joined inner.runs } }
      (String.ofList tag.name.chars) = true := by
    simp [Node.isElementNamed, Node.element?, StartTag.element]
  have split := splitInner (by omega) (b.scanner.pass (tag.print ++ inner.print)) _ named rfl done b.stack later
  refine Eq.trans (stepEnd tag left split) ?_
  rw [Arena.modifyExtendHead index, Scanner.passPass, List.append_assoc, List.reverse_reverse]
  have offset : (b.scanner.pass (tag.print ++ inner.print)).offset + Text.byteLength tag.printEnd =
      b.scanner.offset + Text.byteLength (tag.print ++ (inner.print ++ tag.printEnd)) := length
  rw [offset]
  rfl

end Builder

theorem Document.printHead {d : Document} (other : d.startsWithText = false) {after : List Char}
    (stops : ∀ c, after.head? = some c → c = '<') : ∀ c, (d.print ++ after).head? = some c → c = '<' := by
  cases d with
  | empty => exact stops
  | comment body rest | doctype body rest | void tag rest | paired tag inner rest =>
    intro c same
    cases same
    rfl
  | text run rest => contradiction

theorem TextRun.headVisible (run : TextRun) : Text.isBlank run.head = false := by
  cases blank : Text.isBlank run.head with
  | false => rfl
  | true =>
    have trimmed := run.trimmed
    rw [Text.trimBlank blank] at trimmed
    have shorter : (Text.trim run.tail).length ≤ run.tail.length := by
      unfold Text.trim Text.trimEnd
      have first := Text.trimStartLength run.tail
      have second := Text.trimStartLength (Text.trimStart run.tail).reverse
      rw [List.length_reverse] at second
      rw [List.length_reverse]
      exact Nat.le_trans second first
    rw [trimmed, List.length_cons] at shorter
    omega

theorem runItem {b : Builder} {d : Document} (rest : Document) {owner : NodeId} {covered after : List Char} {tree : Tree} {node : Node}
    {nodes : List Node} (shape : tree.nodes = node :: nodes) (done : node.done = true)
    (first : Build.run true Receiver.silent ⟨b, ()⟩ = Build.run true Receiver.silent ⟨b.grow covered tree.nodes, ()⟩)
    (printed : d.print = covered ++ rest.print) (runs : d.runs = rest.runs)
    (trees : d.trees b.arena.size b.scanner.offset =
      tree :: rest.trees (b.arena.size + tree.nodes.length) (b.scanner.offset + Text.byteLength covered))
    (top : tree.id = b.arena.nextId) (source : b.scanner.rest = d.print ++ after)
    (room : b.arena.size + tree.nodes.length + rest.size < UInt32.size) (within : b.Within)
    (owned : d.runs = [] ∨ b.stack.find? b.isOpenElement = some owner)
    (follows : ∀ b : Builder, b.scanner.rest = rest.print ++ after → b.arena.size + rest.size < UInt32.size → b.Within →
      (rest.runs = [] ∨ b.stack.find? b.isOpenElement = some owner) →
      Build.run true Receiver.silent ⟨b, ()⟩ = Build.run true Receiver.silent ⟨b.behind rest owner, ()⟩) :
    Build.run true Receiver.silent ⟨b, ()⟩ = Build.run true Receiver.silent ⟨b.behind d owner, ()⟩ := by
  have inside : d.runs = [] ∨ owner.index < b.arena.size := by
    refine owned.imp id fun found => ?_
    exact within owner (List.mem_of_find?_eq_some found)
  have size : (b.grow covered tree.nodes).arena.size = b.arena.size + tree.nodes.length := Arena.sizeExtend ..
  rw [first, ← Builder.growBehind printed runs trees top inside]
  refine follows _ ?_ ?_ ?_ ?_
  · refine Scanner.restPass ?_
    rw [source, printed, List.append_assoc]
  · rw [size]
    exact room
  · rw [shape]
    exact Builder.withinGrow within (by omega) covered node nodes
  · rw [← runs, shape, Builder.openGrow within (by omega) covered done nodes]
    exact owned

theorem runLeaf {b : Builder} {d : Document} (rest : Document) {owner : NodeId} {covered after : List Char}
    {content : Content} {event : Option Event}
    (stepped : b.step true = .ok (b.grow covered (leaf b.arena.size b.scanner.offset content covered).nodes, event))
    (head : b.scanner.rest.head? = some '<') (printed : d.print = covered ++ rest.print) (runs : d.runs = rest.runs)
    (trees : d.trees b.arena.size b.scanner.offset = leaf b.arena.size b.scanner.offset content covered ::
      rest.trees (b.arena.size + 1) (b.scanner.offset + Text.byteLength covered))
    (source : b.scanner.rest = d.print ++ after) (room : b.arena.size + (rest.size + 1) < UInt32.size) (within : b.Within)
    (owned : d.runs = [] ∨ b.stack.find? b.isOpenElement = some owner)
    (follows : ∀ b : Builder, b.scanner.rest = rest.print ++ after → b.arena.size + rest.size < UInt32.size → b.Within →
      (rest.runs = [] ∨ b.stack.find? b.isOpenElement = some owner) →
      Build.run true Receiver.silent ⟨b, ()⟩ = Build.run true Receiver.silent ⟨b.behind rest owner, ()⟩) :
    Build.run true Receiver.silent ⟨b, ()⟩ = Build.run true Receiver.silent ⟨b.behind d owner, ()⟩ := by
  have first := Builder.runStep head (by decide) stepped
  have single : (leaf b.arena.size b.scanner.offset content covered).nodes.length = 1 := rfl
  refine runItem rest rfl rfl first printed runs trees rfl source ?_ within owned follows
  omega

theorem runDocument (d : Document) (owner : NodeId) {b : Builder} {after : List Char}
    (rest : b.scanner.rest = d.print ++ after) (stops : ∀ c, after.head? = some c → c = '<') (parted : d.parted = true)
    (unended : d.unended after) (room : b.arena.size + d.size < UInt32.size) (within : b.Within)
    (owned : d.runs = [] ∨ b.stack.find? b.isOpenElement = some owner) :
    Build.run true Receiver.silent ⟨b, ()⟩ = Build.run true Receiver.silent ⟨b.behind d owner, ()⟩ := by
  induction d generalizing b after owner with
  | empty => rw [Builder.behindEmpty]
  | comment body d ih =>
    have split : b.scanner.rest = body.print ++ (d.print ++ after) := by rw [rest, Document.print, List.append_assoc]
    refine runLeaf d (Builder.stepComment body split) (by rw [split]; rfl) rfl rfl rfl rest room within owned
      fun b rest room within owned => ?_
    exact ih owner rest stops parted unended room within owned
  | doctype body d ih =>
    have split : b.scanner.rest = body.print ++ (d.print ++ after) := by rw [rest, Document.print, List.append_assoc]
    refine runLeaf d (Builder.stepDoctype body split) (by rw [split]; rfl) rfl rfl rfl rest room within owned
      fun b rest room within owned => ?_
    exact ih owner rest stops parted unended room within owned
  | void tag d ih =>
    have split : b.scanner.rest = tag.print ++ (d.print ++ after) := by rw [rest, Document.print, List.append_assoc]
    have stepped := Builder.stepStart tag split
    rw [tag.voidUnpaired unended.1] at stepped
    refine runLeaf d stepped (by rw [split]; rfl) rfl rfl rfl rest room within owned fun b rest room within owned => ?_
    exact ih owner rest stops parted unended.2 room within owned
  | paired tag inner d inside ih =>
    have split : b.scanner.rest = tag.print ++ (inner.print ++ (tag.printEnd ++ (d.print ++ after))) := by
      rw [rest, Document.print]
      simp only [List.append_assoc]
    simp only [Document.size] at room
    obtain ⟨partedInner, partedRest⟩ := Bool.and_eq_true_iff.mp parted
    have stepped := Builder.stepStart tag split
    rw [tag.endedPaired] at stepped
    have opened : Build.run true Receiver.silent ⟨b, ()⟩ =
        Build.run true Receiver.silent ⟨b.grow tag.print [tag.node b.scanner.offset false], ()⟩ :=
      Builder.runStep (by rw [split]; rfl) (by decide) stepped
    have behindStart : (b.grow tag.print [tag.node b.scanner.offset false]).scanner.rest =
        inner.print ++ (tag.printEnd ++ (d.print ++ after)) := Scanner.restPass split
    have size : (b.grow tag.print [tag.node b.scanner.offset false]).arena.size = b.arena.size + 1 := Arena.sizeExtend ..
    have read := inside b.arena.nextId behindStart (fun c same => by cases same; rfl) partedInner unended.1
      (by omega) (Builder.withinGrow within (by omega) tag.print _ [])
      (Or.inr (Builder.openStart (by omega) tag.print rfl rfl))
    have behindInner : ((b.grow tag.print [tag.node b.scanner.offset false]).behind inner b.arena.nextId).scanner.rest =
        tag.printEnd ++ (d.print ++ after) := Scanner.restPass behindStart
    have closed := Builder.runStep (by rw [behindInner]; rfl) (by decide)
      (Builder.stepClose tag inner (by omega) split)
    have length := nodesLength inner (b.arena.size + 1) (b.scanner.offset + Text.byteLength tag.print)
    refine runItem d rfl rfl (opened.trans (read.trans closed)) ?_ rfl ?_ rfl rest ?_ within owned
      fun b rest room within owned => ?_
    · simp only [Document.print, List.append_assoc]
    · rw [Document.branch, nodes, List.length_cons, length, Nat.add_comm inner.size 1, ← Nat.add_assoc]
      rfl
    · rw [Document.branch, nodes, List.length_cons, length]
      omega
    · exact ih owner rest stops partedRest unended.2 room within owned
  | text run d ih =>
    have split : b.scanner.rest = run.chars ++ (d.print ++ after) := by rw [rest, Document.print, List.append_assoc]
    obtain ⟨other, partedRest⟩ := Bool.and_eq_true_iff.mp parted
    have found : b.stack.find? b.isOpenElement = some owner := by
      rcases owned with none | found
      · contradiction
      · exact found
    have textOwner : b.textOwner? = some owner := by
      unfold Builder.textOwner?
      rw [found]
      rfl
    have stepped := Builder.stepText run split (Document.printHead (by simpa using other) stops) textOwner
    obtain ⟨stack, size, same⟩ := Builder.stepQuiet (Builder.stepCases stepped)
    have first := Builder.runStep (by rw [split]; rfl) run.headVisible stepped
    have inside : (b.withText run owner).Within := by
      intro id member
      rw [size]
      exact within id member
    have still : (b.withText run owner).stack.find? (b.withText run owner).isOpenElement = some owner := by
      rw [← found]
      exact List.find?_congr fun id _ => same id
    rw [first, ih owner (Scanner.restPass split) stops partedRest unended (by rw [size]; exact room) inside (Or.inr still),
      Builder.behindText]

namespace Document

def Bracketed (written : List Char) : Prop := ∃ lead, written = lead ++ ['>']

theorem bracketedAppend (first : List Char) {second : List Char} (closed : Bracketed second) :
    Bracketed (first ++ second) := by
  obtain ⟨lead, rfl⟩ := closed
  exact ⟨first ++ lead, (List.append_assoc ..).symm⟩

theorem bracketedComment (body : CommentBody) : Bracketed body.print := by
  unfold CommentBody.print
  exact bracketedAppend _ (bracketedAppend _ ⟨['-', '-'], rfl⟩)

theorem bracketedDoctype (body : DoctypeBody) : Bracketed body.print := by
  unfold DoctypeBody.print
  exact bracketedAppend _ ⟨' ' :: body.chars, rfl⟩

theorem bracketedStart (tag : StartTag) : Bracketed tag.print := by
  refine bracketedAppend ('<' :: tag.name.chars) ?_
  exact ⟨tag.attributes.flatMap WrittenAttribute.print, rfl⟩

theorem bracketedEnd (tag : StartTag) : Bracketed tag.printEnd := ⟨'<' :: '/' :: tag.name.chars, rfl⟩

theorem bracketedLength {written : List Char} (closed : Bracketed written) : 0 < written.length := by
  obtain ⟨lead, rfl⟩ := closed
  rw [List.length_append, List.length_singleton]
  omega

theorem unendedVoid {tag : StartTag} {rest : Document} {after : List Char}
    (none : Text.occursIn tag.printEnd (tag.behindName ++ (rest.print ++ after)) = false)
    (later : rest.unended after) : (Document.void tag rest).unended after := by
  refine ⟨fun before behind split => ?_, later⟩
  cases found : Text.occursIn tag.printEnd behind with
  | false => rfl
  | true =>
    obtain ⟨more, less, same⟩ := Text.occursInIff.mp found
    have there : Text.occursIn tag.printEnd (tag.behindName ++ (rest.print ++ after)) = true :=
      Text.occursInIff.mpr ⟨before ++ '>' :: more, less, by rw [split, same]; simp⟩
    rw [there] at none
    contradiction

theorem sizeLength (d : Document) : d.size ≤ d.print.length := by
  induction d with
  | empty => exact Nat.le_refl 0
  | comment body rest ih =>
    have item := bracketedLength (bracketedComment body)
    rw [size, print, List.length_append]
    omega
  | doctype body rest ih =>
    have item := bracketedLength (bracketedDoctype body)
    rw [size, print, List.length_append]
    omega
  | void tag rest ih =>
    have item := bracketedLength (bracketedStart tag)
    rw [size, print, List.length_append]
    omega
  | paired tag inner rest inside ih =>
    have item := bracketedLength (bracketedStart tag)
    rw [size, print, List.length_append, List.length_append, List.length_append]
    omega
  | text run rest ih =>
    rw [size, print, List.length_append]
    omega

theorem printBracketed {d : Document} (top : d.runs = []) : d.print = [] ∨ Bracketed d.print := by
  have behind {item : List Char} (closed : Bracketed item) {rest : Document}
      (sofar : rest.print = [] ∨ Bracketed rest.print) : Bracketed (item ++ rest.print) := by
    rcases sofar with none | last
    · rw [none, List.append_nil]
      exact closed
    · exact bracketedAppend item last
  induction d with
  | empty => exact Or.inl rfl
  | comment body rest ih => exact Or.inr (behind (bracketedComment body) (ih top))
  | doctype body rest ih => exact Or.inr (behind (bracketedDoctype body) (ih top))
  | void tag rest ih => exact Or.inr (behind (bracketedStart tag) (ih top))
  | paired tag inner rest inside ih =>
    exact Or.inr (bracketedAppend _ (bracketedAppend _ (behind (bracketedEnd tag) (ih top))))
  | text run rest ih => contradiction

theorem printScanned {d : Document} (top : d.runs = []) : Scanner.ofSource d.print = ⟨d.print, 0, d.print⟩ := by
  have head : ∀ c, d.print.head? = some c → Text.isBlank c = false := by
    intro c same
    have first : d.startsWithText = false := by
      cases d with
      | text run rest => contradiction
      | _ => rfl
    rw [← List.append_nil d.print] at same
    rw [printHead first (by simp) c same]
    decide
  rcases printBracketed top with none | ⟨lead, last⟩
  · rw [none]
    rfl
  · exact Scanner.ofSourceSigns head last

end Document

/-
A document that is written and then read is there again, node by node: its trees with their kinds,
names, values, attributes, texts, places and order, and no node besides.
-/
theorem printedReadsBack {d : Document} (top : d.runs = []) (parted : d.parted = true) (unended : d.unended [])
    (short : (String.ofList d.print).utf8ByteSize < UInt32.size) :
    ∃ forest, readForest Options.standard (String.ofList d.print) = .ok forest ∧
      forest.trees? = some (d.trees 0 0) ∧ forest.arena.size = d.size := by
  rw [← Text.byteLengthOfList] at short
  have room : d.size < UInt32.size := Nat.lt_of_le_of_lt (Nat.le_trans d.sizeLength (Text.lengthLeByteLength d.print)) short
  have source : Builder.ofSource d.print = ⟨⟨d.print, 0, d.print⟩, Arena.empty, []⟩ := by
    rw [Builder.ofSource, Document.printScanned top]
  have split : (⟨⟨d.print, 0, d.print⟩, Arena.empty, []⟩ : Builder).scanner.rest = d.print ++ [] := (List.append_nil _).symm
  have read := runDocument d (NodeId.ofIndex 0) split (by simp) parted unended
    (by rw [show Arena.empty.size = 0 from rfl, Nat.zero_add]; exact room) (by intro id member; contradiction) (Or.inl top)
  have used : (Builder.behind ⟨⟨d.print, 0, d.print⟩, Arena.empty, []⟩ d (NodeId.ofIndex 0)).scanner.rest = [] :=
    Scanner.restPass split
  rw [Builder.runAtEnd used] at read
  refine ⟨⟨Arena.empty.extend (nodesAll (d.trees 0 0)), d.tops 0 0⟩, ?_, ?_, ?_⟩
  · unfold readForest buildWith Build.ofSource
    rw [String.toList_ofList, source, show Options.standard.comments = true from rfl, read, forestOf, Build.forest,
      Builder.roots, Builder.behind]
    simp only [top]
    rw [List.append_nil, List.reverse_reverse]
    rfl
  · have size : (Arena.empty.extend (nodesAll (d.trees 0 0))).size = d.size := by
      rw [Arena.sizeExtend, nodesLength, show Arena.empty.size = 0 from rfl, Nat.zero_add]
    exact treesLaid d (Nat.le_of_eq size.symm) (laidExtend (by rw [nodesLength]; exact room))
  · rw [Arena.sizeExtend, nodesLength, show Arena.empty.size = 0 from rfl, Nat.zero_add]

def samplePage : Document :=
  let p : StartTag :=
    { name := ⟨'p', [], rfl, List.all_eq_true.mp rfl⟩
      attributes :=
        [⟨⟨'i', ['d'], rfl, List.all_eq_true.mp rfl⟩, some ⟨['a', '>'], rfl, by decide⟩⟩,
          ⟨⟨'@', ['x'], rfl, List.all_eq_true.mp rfl⟩, none⟩]
      distinct := by decide }
  let br : StartTag := ⟨⟨'b', ['r'], rfl, List.all_eq_true.mp rfl⟩, [], List.nodup_nil⟩
  .doctype ⟨"html".toList, rfl, by decide⟩
    (.paired p
      (.text ⟨'H', ['i'], rfl, List.all_eq_true.mp rfl⟩
        (.void br (.text ⟨'y', ['o', 'u'], rfl, List.all_eq_true.mp rfl⟩ .empty)))
      .empty)

theorem samplePageReadsBack :
    String.ofList samplePage.print = "<!DOCTYPE html><p id=\"a>\" @x>Hi<br>you</p>" ∧
    samplePage.runs = [] ∧ samplePage.parted = true ∧ samplePage.unended [] ∧
    (String.ofList samplePage.print).utf8ByteSize < UInt32.size ∧
    ∃ forest, readForest Options.standard (String.ofList samplePage.print) = .ok forest ∧
      forest.trees? = some (samplePage.trees 0 0) ∧ forest.arena.size = 3 := by
  have unended : samplePage.unended [] := ⟨unendedVoid (by decide) trivial, trivial⟩
  have short : (String.ofList samplePage.print).utf8ByteSize < UInt32.size := by decide
  exact ⟨by decide, rfl, rfl, unended, short, printedReadsBack rfl rfl unended short⟩

end Templating
