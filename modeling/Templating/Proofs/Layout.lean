import Templating.Proofs.Document
import Templating.Proofs.Footing

/-!
How the trees of a document lie in an arena: node behind node in preorder, so an arena that holds
them in this way shows them again.
-/
namespace Templating

namespace Arena

def extend (arena : Arena) (nodes : List Node) : Arena := ⟨arena.nodes ++ nodes.toArray⟩

theorem sizeExtend (arena : Arena) (nodes : List Node) : (arena.extend nodes).size = arena.size + nodes.length := by
  simp [extend, size]

theorem extendNil (arena : Arena) : arena.extend [] = arena := by
  simp [extend]

theorem extendExtend (arena : Arena) (nodes more : List Node) :
    (arena.extend nodes).extend more = arena.extend (nodes ++ more) := by
  simp [extend, Array.append_assoc]

theorem pushExtend (arena : Arena) (node : Node) : arena.push node = arena.extend [node] := by
  simp [extend, push]

theorem getExtend (arena : Arena) (nodes : List Node) (id : NodeId) :
    (arena.extend nodes).get? id =
      if id.index < arena.size then arena.get? id else nodes[id.index - arena.size]? := by
  unfold extend get? size
  rw [Array.getElem?_append]
  split <;> simp

theorem modifyExtend {arena : Arena} {id : NodeId} (before : id.index < arena.size) (nodes : List Node)
    (change : Node → Node) : (arena.extend nodes).modify id change = (arena.modify id change).extend nodes := by
  unfold extend modify
  congr 1
  refine Array.ext_getElem? fun i => ?_
  rw [Array.getElem?_modify, Array.getElem?_append, Array.getElem?_append, Array.size_modify, Array.getElem?_modify]
  unfold size at before
  by_cases same : id.index = i
  · subst same
    simp [before]
  · simp [same]

theorem modifyExtendHead {arena : Arena} {id : NodeId} (here : id.index = arena.size) (node : Node) (nodes : List Node)
    (change : Node → Node) : (arena.extend (node :: nodes)).modify id change = arena.extend (change node :: nodes) := by
  unfold extend modify
  congr 1
  refine Array.ext_getElem? fun i => ?_
  rw [Array.getElem?_modify, Array.getElem?_append, Array.getElem?_append]
  unfold size at here
  by_cases same : id.index = i
  · subst same
    simp [here]
  · by_cases earlier : i < arena.nodes.size
    · simp [same, earlier]
    · have later : i - arena.nodes.size = (i - arena.nodes.size - 1) + 1 := by omega
      rw [if_neg same, if_neg earlier, if_neg earlier, List.getElem?_toArray, List.getElem?_toArray, later]
      rfl

def give (arena : Arena) (owner : NodeId) (runs : List String) : Arena :=
  runs.foldl (fun arena run => arena.modifyElement owner fun e => e.appendText run) arena

theorem giveExtend {arena : Arena} {owner : NodeId} (before : owner.index < arena.size) (nodes : List Node)
    (runs : List String) : (arena.extend nodes).give owner runs = (arena.give owner runs).extend nodes := by
  induction runs generalizing arena with
  | nil => rfl
  | cons run runs ih =>
    have still : owner.index < (arena.modifyElement owner fun e => e.appendText run).size := by
      rw [modifyElement, sizeModify]
      exact before
    rw [give, List.foldl_cons, modifyElement, modifyExtend before]
    exact ih still

theorem giveHead {arena : Arena} {id : NodeId} (here : id.index = arena.size) (node : Node) (nodes : List Node)
    (runs : List String) :
    (arena.extend (node :: nodes)).give id runs =
      arena.extend (runs.foldl (fun node run => node.mapElement fun e => e.appendText run) node :: nodes) := by
  induction runs generalizing node with
  | nil => rfl
  | cons run runs ih =>
    rw [give, List.foldl_cons, modifyElement, modifyExtendHead here]
    exact ih _

end Arena

namespace Tree

mutual

def nodes : Tree → List Node
  | .branch _ node children => node :: nodesAll children

def nodesAll : List Tree → List Node
  | [] => []
  | tree :: trees => tree.nodes ++ nodesAll trees

end

end Tree

namespace Document
open Templating.Tree

def tops (d : Document) (index offset : Nat) : List NodeId := (d.trees index offset).map Tree.id

theorem nodesLength (d : Document) (index offset : Nat) : (nodesAll (d.trees index offset)).length = d.size := by
  induction d generalizing index offset with
  | empty => rfl
  | comment body rest ih | doctype body rest ih =>
    simp only [trees, leaf, nodesAll, nodes, List.length_append, List.length_cons, List.length_nil, ih, size]
    omega
  | void tag rest ih =>
    simp only [trees, leaf, nodesAll, nodes, List.length_append, List.length_cons, List.length_nil, ih, size]
    omega
  | paired tag inner rest inside ih =>
    simp only [trees, branch, nodesAll, nodes, List.length_append, List.length_cons, inside, ih, size]
    omega
  | text run rest ih => exact ih _ _

theorem nodesDone (d : Document) (index offset : Nat) : ∀ node ∈ nodesAll (d.trees index offset), node.done = true := by
  induction d generalizing index offset with
  | empty =>
    intro node member
    contradiction
  | comment body rest ih | doctype body rest ih | void tag rest ih =>
    intro node member
    rcases List.mem_append.mp member with here | later
    · rw [List.mem_singleton.mp here]
    · exact ih _ _ node later
  | paired tag inner rest inside ih =>
    intro node member
    rcases List.mem_append.mp member with here | later
    · rcases List.mem_cons.mp here with rfl | inner
      · rfl
      · exact inside _ _ node inner
    · exact ih _ _ node later
  | text run rest ih => exact ih _ _

theorem topsAbove (d : Document) (index offset : Nat) (room : index + d.size < UInt32.size) :
    ∀ id ∈ d.tops index offset, index ≤ id.index := by
  induction d generalizing index offset with
  | empty =>
    intro id member
    contradiction
  | comment body rest ih | doctype body rest ih | void tag rest ih =>
    simp only [size] at room
    intro id member
    rcases List.mem_cons.mp member with rfl | later
    · exact Nat.le_of_eq (NodeId.indexOfIndex (by omega)).symm
    · have := ih _ _ (by omega) id later
      omega
  | paired tag inner rest inside ih =>
    simp only [size] at room
    intro id member
    rcases List.mem_cons.mp member with rfl | later
    · exact Nat.le_of_eq (NodeId.indexOfIndex (by omega)).symm
    · have := ih _ _ (by omega) id later
      omega
  | text run rest ih => exact ih _ _ room

theorem appendTextSome (runs : List String) (e : Element) {text : String} (written : e.text = some text) :
    runs.foldl Element.appendText e = { e with text := some (String.intercalate " " (text :: runs)) } := by
  induction runs generalizing e text with
  | nil =>
    rw [List.foldl_nil, show String.intercalate " " [text] = text from rfl, ← written]
  | cons run runs ih =>
    have next : e.appendText run = { e with text := some (text ++ " " ++ run) } := by
      unfold Element.appendText
      rw [written]
    rw [List.foldl_cons, next, ih _ rfl]
    rfl

theorem appendTextJoined (runs : List String) {e : Element} (blank : e.text = none) :
    runs.foldl Element.appendText e = { e with text := joined runs } := by
  cases runs with
  | nil =>
    rw [List.foldl_nil, joined, if_pos rfl, ← blank]
  | cons run runs =>
    have next : e.appendText run = { e with text := some run } := by
      unfold Element.appendText
      rw [blank]
    rw [List.foldl_cons, next, appendTextSome runs _ rfl, joined, if_neg (by simp)]

theorem appendTextSnoc {runs : List String} {e : Element} (text : e.text = joined runs) (run : String) :
    e.appendText run = { e with text := joined (runs ++ [run]) } := by
  have before := appendTextJoined runs (e := { e with text := none }) rfl
  have after := appendTextJoined (runs ++ [run]) (e := { e with text := none }) rfl
  rw [List.foldl_append, before, ← text] at after
  exact after

theorem mapTexts (runs : List String) (node : Node) {e : Element} (content : node.content = .element e) :
    runs.foldl (fun node run => node.mapElement fun e => e.appendText run) node =
      { node with content := .element (runs.foldl Element.appendText e) } := by
  induction runs generalizing node e with
  | nil =>
    rw [List.foldl_nil, List.foldl_nil, ← content]
  | cons run runs ih =>
    have next : node.mapElement (fun e => e.appendText run) = { node with content := .element (e.appendText run) } := by
      unfold Node.mapElement
      rw [content]
    rw [List.foldl_cons, List.foldl_cons, next, ih _ rfl]

def Laid (arena : Arena) (index : Nat) (nodes : List Node) : Prop :=
  ∀ k, k < nodes.length → arena.get? (NodeId.ofIndex (index + k)) = nodes[k]?

theorem laidAppend {arena : Arena} {index : Nat} (nodes : List Node) {more : List Node}
    (laid : Laid arena index (nodes ++ more)) :
    Laid arena index nodes ∧ Laid arena (index + nodes.length) more := by
  refine ⟨fun k inside => ?_, fun k inside => ?_⟩
  · have here := laid k (by rw [List.length_append]; omega)
    rw [List.getElem?_append_left inside] at here
    exact here
  · have here := laid (nodes.length + k) (by rw [List.length_append]; omega)
    rw [List.getElem?_append_right (by omega), Nat.add_sub_cancel_left] at here
    rw [Nat.add_assoc]
    exact here

theorem laidHead {arena : Arena} {index : Nat} {node : Node} {nodes : List Node} (laid : Laid arena index (node :: nodes)) :
    arena.get? (NodeId.ofIndex index) = some node :=
  laid 0 (by simp)

theorem laidExtend {nodes : List Node} (room : nodes.length < UInt32.size) : Laid (Arena.empty.extend nodes) 0 nodes := by
  intro k inside
  have index : (NodeId.ofIndex (0 + k)).index = k := by
    rw [Nat.zero_add]
    exact NodeId.indexOfIndex (by omega)
  rw [Arena.getExtend, show Arena.empty.size = 0 from rfl, if_neg (Nat.not_lt_zero _), index, Nat.sub_zero]

theorem branchShown {arena : Arena} {id : NodeId} {node : Node} {depth : Nat} {children : List Tree}
    (got : arena.get? id = some node) (below : node.children.mapM (arena.treeWithin? depth) = some children) :
    arena.treeWithin? (depth + 1) id = some (.branch id node children) := by
  simp [Arena.treeWithin?, got, below]

theorem mapConsShown {arena : Arena} {depth : Nat} {tree : Tree} {ids : List NodeId} {trees : List Tree}
    (here : arena.treeWithin? depth tree.id = some tree) (later : ids.mapM (arena.treeWithin? depth) = some trees) :
    (tree.id :: ids).mapM (arena.treeWithin? depth) = some (tree :: trees) := by
  simp [here, later]

theorem treesLaid (d : Document) {arena : Arena} {index offset depth : Nat} (deep : d.size ≤ depth)
    (laid : Laid arena index (nodesAll (d.trees index offset))) :
    (d.tops index offset).mapM (arena.treeWithin? depth) = some (d.trees index offset) := by
  induction d generalizing index offset depth with
  | empty => rfl
  | comment body rest ih | doctype body rest ih | void tag rest ih =>
    simp only [size] at deep
    obtain ⟨here, later⟩ := laidAppend _ laid
    obtain ⟨depth, rfl⟩ : ∃ below, depth = below + 1 := ⟨depth - 1, by omega⟩
    exact mapConsShown (branchShown (laidHead here) rfl) (ih (by omega) later)
  | paired tag inner rest inside ih =>
    simp only [size] at deep
    obtain ⟨here, later⟩ := laidAppend _ laid
    obtain ⟨first, within⟩ := laidAppend [_] here
    obtain ⟨depth, rfl⟩ : ∃ below, depth = below + 1 := ⟨depth - 1, by omega⟩
    have length := nodesLength inner (index + 1) (offset + Text.byteLength tag.print)
    simp only [branch, nodes, List.length_cons, length, Nat.add_comm inner.size 1, ← Nat.add_assoc] at later
    exact mapConsShown (branchShown (laidHead first) (inside (by omega) within)) (ih (by omega) later)
  | text run rest ih => exact ih deep laid

end Document
end Templating
