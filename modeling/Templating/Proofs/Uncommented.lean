import Templating.Proofs.Footing
import Templating.Compile

/-!
An arena without its comments. The other nodes keep their order and are numbered anew, each by how many
of them come before it, in the child lists and as parents too. Reading a node, adding one and changing
one come to the same before and after the comments have been left out.
-/
namespace Templating

def Node.isComment (node : Node) : Bool :=
  match node.content with
  | .comment _ => true
  | _ => false

namespace Arena

def isComment (arena : Arena) (id : NodeId) : Bool := (arena.get? id).any Node.isComment

/- The id that a node has once no comments come before it. -/
def number (arena : Arena) (id : NodeId) : NodeId :=
  NodeId.ofIndex ((arena.nodes.toList.take id.index).countP fun node => !node.isComment)

def kept (arena : Arena) (ids : List NodeId) : List NodeId :=
  (ids.filter fun id => !arena.isComment id).map arena.number

def renumber (arena : Arena) (node : Node) : Node :=
  { node.mapElement fun e => { e with children := arena.kept e.children } with
    parent := node.parent.map arena.number }

def withoutComments (arena : Arena) : Arena :=
  ⟨((arena.nodes.toList.filter fun node => !node.isComment).map arena.renumber).toArray⟩

end Arena

def Forest.withoutComments (forest : Forest) : Forest := ⟨forest.arena.withoutComments, forest.arena.kept forest.roots⟩

def Ast.withoutComments (ast : Ast) : Ast := ⟨ast.arena.withoutComments, ast.arena.number ast.root⟩

section
variable {α : Type} (keep : α → Bool) {list : List α} {i : Nat} {a : α}

theorem getFilter (got : list[i]? = some a) (kept : keep a = true) :
    (list.filter keep)[(list.take i).countP keep]? = some a := by
  induction list generalizing i with
  | nil => simp at got
  | cons first rest ih =>
    cases i with
    | zero =>
      cases got
      simp [kept]
    | succ i =>
      have later := ih (i := i) (by simpa using got)
      cases here : keep first with
      | true => simpa [List.filter_cons, List.countP_cons, here] using later
      | false => simpa [List.filter_cons, List.countP_cons, here] using later

theorem filterModifyKept (got : list[i]? = some a) (kept : keep a = true) {change : α → α} (still : keep (change a) = true) :
    (list.modify i change).filter keep = (list.filter keep).modify ((list.take i).countP keep) change := by
  induction list generalizing i with
  | nil => simp at got
  | cons first rest ih =>
    cases i with
    | zero =>
      cases got
      simp [kept, still]
    | succ i =>
      have later := ih (i := i) (by simpa using got)
      cases here : keep first with
      | true => simp [here, later]
      | false => simp [here, later]

theorem filterModifyDropped (got : list[i]? = some a) (dropped : keep a = false) {change : α → α}
    (still : keep (change a) = false) : (list.modify i change).filter keep = list.filter keep := by
  induction list generalizing i with
  | nil => simp at got
  | cons first rest ih =>
    cases i with
    | zero =>
      cases got
      simp [dropped, still]
    | succ i =>
      have later := ih (i := i) (by simpa using got)
      simp [List.filter_cons, later]

theorem countBefore (got : list[i]? = some a) (kept : keep a = true) {j : Nat} (before : i < j) :
    (list.take i).countP keep < (list.take j).countP keep := by
  induction list generalizing i j with
  | nil => simp at got
  | cons first rest ih =>
    cases j with
    | zero => contradiction
    | succ j =>
      cases i with
      | zero =>
        cases got
        simp [kept]
      | succ i =>
        have later := ih (i := i) (by simpa using got) (j := j) (by omega)
        simp only [List.take_succ_cons, List.countP_cons]
        exact Nat.add_lt_add_right later _

theorem modifyMap {β : Type} {view : α → β} {change : α → α} (other : β → β) (got : list[i]? = some a)
    (commutes : view (change a) = other (view a)) : (list.modify i change).map view = (list.map view).modify i other := by
  refine List.ext_getElem? fun j => ?_
  rw [List.getElem?_map, List.getElem?_modify, List.getElem?_modify, List.getElem?_map]
  split
  · rename_i here
    rw [← here, got]
    simp [commutes]
  · simp

end

theorem Node.mapElementComment (change : Element → Element) (node : Node) :
    (node.mapElement change).isComment = node.isComment := by
  unfold mapElement isComment
  cases content : node.content <;> simp [content]

theorem Node.mapElementParent (change : Element → Element) (node : Node) :
    (node.mapElement change).parent = node.parent := by
  unfold mapElement
  cases node.content <;> rfl

theorem Node.commentElement {node : Node} (comment : node.isComment = true) : node.element? = none := by
  unfold isComment at comment
  unfold element?
  split at comment
  · rename_i content
    rw [content]
  · contradiction

theorem Node.outlineComment {a b : Node} (same : a.outline = b.outline) : a.isComment = b.isComment := by
  unfold isComment
  obtain ⟨_, _, ⟨e, f, content, other, _⟩ | ⟨content, _⟩⟩ := outlineCases same
  · rw [content, other]
  · rw [content]

theorem Node.closeComment (children : List NodeId) (stop : Nat) (node : Node) :
    (node.close children stop).isComment = node.isComment := Node.mapElementComment _ node

namespace Arena
variable {arena changed : Arena} {id other : NodeId} {node : Node}

theorem getList (arena : Arena) (id : NodeId) : arena.nodes.toList[id.index]? = arena.get? id := by
  unfold get?
  rw [Array.getElem?_toList]

theorem getMember (small : arena.size < UInt32.size) (member : node ∈ arena.nodes.toList) :
    ∃ id, arena.get? id = some node := by
  obtain ⟨i, bound, here⟩ := List.mem_iff_getElem.mp member
  have whole : arena.nodes.toList.length = arena.size := Array.length_toList
  refine ⟨NodeId.ofIndex i, ?_⟩
  rw [← getList, NodeId.indexOfIndex (by omega)]
  exact List.getElem?_eq_some_iff.mpr ⟨bound, here⟩

theorem isCommentOf (got : arena.get? id = some node) : arena.isComment id = node.isComment := by
  rw [isComment, got, Option.any_some]

theorem numberIndex (small : arena.size < UInt32.size) (id : NodeId) :
    (arena.number id).index = (arena.nodes.toList.take id.index).countP fun node => !node.isComment := by
  refine NodeId.indexOfIndex ?_
  have counted := List.countP_le_length (p := fun node => !node.isComment) (l := arena.nodes.toList.take id.index)
  have taken := List.length_take_le id.index arena.nodes.toList
  have whole : arena.nodes.toList.length = arena.size := Array.length_toList
  have shorter := List.length_take_le' id.index arena.nodes.toList
  omega

theorem getNumber (small : arena.size < UInt32.size) (got : arena.get? id = some node) (plain : node.isComment = false) :
    arena.withoutComments.get? (arena.number id) = some (arena.renumber node) := by
  have place := getFilter (fun node => !node.isComment) ((arena.getList id).trans got) (by simp [plain])
  rw [← numberIndex small] at place
  rw [← getList]
  simp [withoutComments, place]

theorem numberInjective (small : arena.size < UInt32.size) {seen : Node} (got : arena.get? id = some node)
    (plain : node.isComment = false) (gotOther : arena.get? other = some seen) (plainOther : seen.isComment = false)
    (same : arena.number id = arena.number other) : id = other := by
  have counts := congrArg NodeId.index same
  rw [numberIndex small, numberIndex small] at counts
  refine NodeId.indexInjective ?_
  rcases Nat.lt_trichotomy id.index other.index with before | equal | after
  · have fewer := countBefore (fun node => !node.isComment) ((arena.getList id).trans got) (by simp [plain]) before
    omega
  · exact equal
  · have fewer := countBefore (fun node => !node.isComment) ((arena.getList other).trans gotOther)
      (by simp [plainOther]) after
    omega

theorem numberSame (kinds : changed.nodes.toList.map Node.isComment = arena.nodes.toList.map Node.isComment) :
    changed.isComment = arena.isComment ∧ changed.number = arena.number ∧ changed.kept = arena.kept ∧
      changed.renumber = arena.renumber := by
  have comment : changed.isComment = arena.isComment := by
    funext id
    have at_ := congrArg (fun list => list[id.index]?) kinds
    simp only [List.getElem?_map, getList] at at_
    unfold isComment
    cases before : arena.get? id <;> cases after : changed.get? id <;> simp [before, after] at at_ ⊢
    exact at_
  have number : changed.number = arena.number := by
    funext id
    have counted (arena : Arena) : (arena.nodes.toList.take id.index).countP (fun node => !node.isComment) =
        ((arena.nodes.toList.map Node.isComment).take id.index).countP fun flag => !flag := by
      rw [← List.map_take, List.countP_map]
      rfl
    unfold Arena.number
    rw [counted, counted, kinds]
  have kept : changed.kept = arena.kept := by
    unfold Arena.kept
    rw [comment, number]
  refine ⟨comment, number, kept, ?_⟩
  unfold renumber
  rw [kept, number]

theorem kindsModify {change : Node → Node} (got : arena.get? id = some node)
    (still : (change node).isComment = node.isComment) :
    (arena.modify id change).nodes.toList.map Node.isComment = arena.nodes.toList.map Node.isComment := by
  unfold modify
  rw [Array.toList_modify, modifyMap (fun flag => flag) ((arena.getList id).trans got) still]
  exact List.modify_id _ _

theorem withoutCommentsModify {change other : Node → Node} (small : arena.size < UInt32.size)
    (got : arena.get? id = some node) (plain : node.isComment = false) (still : (change node).isComment = false)
    (commutes : arena.renumber (change node) = other (arena.renumber node)) :
    (arena.modify id change).withoutComments = arena.withoutComments.modify (arena.number id) other := by
  have place := (arena.getList id).trans got
  have same := (numberSame (kindsModify got (still.trans plain.symm))).2.2.2
  unfold withoutComments
  rw [same]
  unfold modify
  have there := getFilter (fun node => !node.isComment) place (by simp [plain])
  rw [Array.toList_modify, filterModifyKept _ place (by simp [plain]) (by simp [still]), numberIndex small,
    modifyMap other there commutes, List.modify_toArray]

theorem withoutCommentsModifyComment {change : Node → Node} (got : arena.get? id = some node)
    (comment : node.isComment = true) (still : (change node).isComment = true) :
    (arena.modify id change).withoutComments = arena.withoutComments := by
  have place := (arena.getList id).trans got
  have same := (numberSame (kindsModify got (still.trans comment.symm))).2.2.2
  unfold withoutComments
  rw [same]
  unfold modify
  rw [Array.toList_modify, filterModifyDropped _ place (by simp [comment]) (by simp [still])]

theorem isCommentPush (inside : id.index < arena.size) (node : Node) :
    (arena.push node).isComment id = arena.isComment id := by
  unfold isComment
  rw [getPush, if_neg (by omega)]

theorem numberPush (inside : id.index ≤ arena.size) (node : Node) : (arena.push node).number id = arena.number id := by
  have listed : (arena.push node).nodes.toList = arena.nodes.toList ++ [node] := by simp [push]
  have whole : arena.nodes.toList.length = arena.size := Array.length_toList
  unfold number
  rw [listed, List.take_append_of_le_length (by omega)]

theorem keptPush {ids : List NodeId} (inside : ∀ id ∈ ids, id.index < arena.size) (node : Node) :
    (arena.push node).kept ids = arena.kept ids := by
  unfold kept
  rw [List.filter_congr fun id member => by rw [isCommentPush (inside id member)]]
  refine List.map_congr_left fun id member => ?_
  exact numberPush (Nat.le_of_lt (inside id (List.mem_filter.mp member).1)) node

structure Referring (arena : Arena) : Prop where
  children : ∀ id node, arena.get? id = some node → ∀ child ∈ node.children, child.index < arena.size
  parent : ∀ id node, arena.get? id = some node → ∀ p, node.parent = some p → p.index < arena.size

theorem renumberPush (referring : arena.Referring) (got : arena.get? id = some node) (new : Node) :
    (arena.push new).renumber node = arena.renumber node := by
  have parent : node.parent.map (arena.push new).number = node.parent.map arena.number :=
    Option.map_congr fun p up => numberPush (Nat.le_of_lt (referring.parent id node got p up)) new
  have children : (arena.push new).kept node.children = arena.kept node.children :=
    keptPush (referring.children id node got) new
  unfold renumber
  rw [parent]
  unfold Node.mapElement
  cases content : node.content with
  | element e =>
    have listed : node.children = e.children := by simp [Node.children, content]
    rw [listed] at children
    simp only [children]
  | comment | doctype => rfl

theorem withoutCommentsPush (small : arena.size < UInt32.size) (referring : arena.Referring) (new : Node) :
    (arena.push new).withoutComments =
      if new.isComment then arena.withoutComments else arena.withoutComments.push ((arena.push new).renumber new) := by
  have listed : (arena.push new).nodes.toList = arena.nodes.toList ++ [new] := by simp [push]
  have earlier : (arena.nodes.toList.filter fun node => !node.isComment).map (arena.push new).renumber =
      (arena.nodes.toList.filter fun node => !node.isComment).map arena.renumber := by
    refine List.map_congr_left fun node member => ?_
    obtain ⟨id, got⟩ := getMember small (List.mem_filter.mp member).1
    exact renumberPush referring got new
  unfold withoutComments
  rw [listed, List.filter_append, List.map_append, earlier]
  cases comment : new.isComment with
  | true => simp [comment]
  | false => simp [comment, push]

theorem referringPush (referring : arena.Referring) (parent : node.parent = none) (children : node.children = []) :
    (arena.push node).Referring := by
  refine ⟨?_, ?_⟩
  · intro id seen got child member
    rw [getPush] at got
    rw [sizePush]
    split at got
    · cases got
      rw [children] at member
      contradiction
    · exact Nat.lt_succ_of_lt (referring.children id seen got child member)
  · intro id seen got p up
    rw [getPush] at got
    rw [sizePush]
    split at got
    · cases got
      rw [parent] at up
      contradiction
    · exact Nat.lt_succ_of_lt (referring.parent id seen got p up)

theorem referringModify (referring : arena.Referring) {change : Node → Node}
    (children : ∀ node, arena.get? id = some node → ∀ child ∈ (change node).children, child.index < arena.size)
    (parent : ∀ node, arena.get? id = some node → ∀ p, (change node).parent = some p → p.index < arena.size) :
    (arena.modify id change).Referring := by
  have cases {other : NodeId} {seen : Node} (got : (arena.modify id change).get? other = some seen) :
      arena.get? other = some seen ∨ ∃ node, arena.get? id = some node ∧ seen = change node := by
    by_cases here : other = id
    · subst here
      rw [getModify, if_pos rfl] at got
      obtain ⟨node, before, same⟩ := Option.map_eq_some_iff.mp got
      exact Or.inr ⟨node, before, same.symm⟩
    · rw [getModifyOther here] at got
      exact Or.inl got
  refine ⟨?_, ?_⟩
  · intro other seen got child member
    rw [sizeModify]
    rcases cases got with before | ⟨node, before, rfl⟩
    · exact referring.children other seen before child member
    · exact children node before child member
  · intro other seen got p up
    rw [sizeModify]
    rcases cases got with before | ⟨node, before, rfl⟩
    · exact referring.parent other seen before p up
    · exact parent node before p up

theorem renumberElement (node : Node) :
    (arena.renumber node).element? = node.element?.map fun e => { e with children := arena.kept e.children } :=
  Node.elementMapElement _ node

theorem renumberDone (node : Node) : (arena.renumber node).done = node.done := Node.mapElementDone _ node

theorem renumberIsElement (node : Node) : (arena.renumber node).isElement = node.isElement := by
  unfold Node.isElement
  rw [renumberElement, Option.isSome_map]

theorem renumberIsElementNamed (tag : String) (node : Node) :
    (arena.renumber node).isElementNamed tag = node.isElementNamed tag := by
  unfold Node.isElementNamed
  rw [renumberElement]
  cases node.element? <;> rfl

theorem renumberCondition (node : Node) : (arena.renumber node).hasCondition = node.hasCondition := by
  unfold Node.hasCondition
  rw [renumberElement]
  cases node.element? <;> rfl

theorem renumberChildless (children : node.children = []) :
    arena.renumber node = { node with parent := node.parent.map arena.number } := by
  obtain ⟨content, done, up, root, span⟩ := node
  unfold renumber Node.mapElement
  cases content with
  | element e =>
    cases e
    cases children
    rfl
  | comment | doctype => rfl

theorem renumberLone (parent : node.parent = none) (children : node.children = []) : arena.renumber node = node := by
  rw [renumberChildless children, parent]
  obtain ⟨⟩ := node
  cases parent
  rfl

theorem renumberMapElement {change : Element → Element}
    (apart : ∀ (e : Element) children, change { e with children } = { change e with children })
    (same : ∀ e : Element, (change e).children = e.children) (node : Node) :
    arena.renumber (node.mapElement change) = (arena.renumber node).mapElement change := by
  have moved (e : Element) : change { e with children := arena.kept e.children } =
      { change e with children := arena.kept (change e).children } := by
    rw [same]
    exact apart e _
  unfold renumber Node.mapElement
  cases content : node.content with
  | element e =>
    dsimp only
    rw [moved]
  | comment | doctype => simp only [content]

theorem keptReverse (ids : List NodeId) : arena.kept ids.reverse = (arena.kept ids).reverse := by
  unfold kept
  rw [List.filter_reverse, List.map_reverse]

theorem renumberClose (children : List NodeId) (stop : Nat) (node : Node) :
    arena.renumber (node.close children.reverse stop) =
      (arena.renumber node).close (arena.kept children).reverse stop := by
  unfold renumber Node.close Node.mapElement
  rw [← keptReverse]
  cases content : node.content with
  | element e => rfl
  | comment | doctype => simp [content]

theorem keptAppend (ids more : List NodeId) : arena.kept (ids ++ more) = arena.kept ids ++ arena.kept more := by
  unfold kept
  rw [List.filter_append, List.map_append]

theorem keptPlain (plain : arena.isComment id = false) (ids : List NodeId) :
    arena.kept (id :: ids) = arena.number id :: arena.kept ids := by
  unfold kept
  rw [List.filter_cons, plain]
  rfl

theorem keptComment (comment : arena.isComment id = true) (ids : List NodeId) : arena.kept (id :: ids) = arena.kept ids := by
  unfold kept
  rw [List.filter_cons, comment]
  rfl

theorem numberNext (small : arena.size < UInt32.size) (node : Node) :
    (arena.push node).number arena.nextId = arena.withoutComments.nextId := by
  have index : arena.nextId.index = arena.size := NodeId.indexOfIndex small
  have whole : arena.nodes.toList.length = arena.size := Array.length_toList
  have counted : arena.withoutComments.size = arena.nodes.toList.countP fun node => !node.isComment := by
    simp [withoutComments, size, List.countP_eq_length_filter]
  rw [numberPush (Nat.le_of_eq index), number, index, ← whole, List.take_length, ← counted]
  rfl

end Arena
end Templating
