import Templating.Proofs.Footing
import Templating.Proofs.Notices
import Templating.Proofs.Preorder

/-!
The notices of a build beside the build itself. The open elements told from the notices are the
unfinished elements on the stack, and the elements told of are those of the arena, in their order.
-/
namespace Templating

def Arena.written (arena : Arena) : List (NodeId × String × Table AttributeValue) :=
  arena.ids.filterMap fun id => (arena.element? id).map fun e => (id, e.tag, e.attributes)

def Node.written? (node : Node) : Option (String × Table AttributeValue) :=
  node.element?.map fun e => (e.tag, e.attributes)

theorem Arena.writtenMember {arena : Arena} {id : NodeId} {e : Element} (got : arena.element? id = some e) :
    (id, e.tag, e.attributes) ∈ arena.written := by
  obtain ⟨node, there, _⟩ := Option.bind_eq_some_iff.mp got
  have given : id ∈ arena.ids := List.mem_map.mpr ⟨id.index, List.mem_range.mpr (getInside there), id.ofIndexIndex⟩
  exact List.mem_filterMap.mpr ⟨id, given, by rw [got]; rfl⟩

theorem Arena.writtenEq (arena : Arena) :
    arena.written = arena.ids.filterMap fun id => ((arena.get? id).bind Node.written?).map fun seen => (id, seen) := by
  unfold written element? Node.written?
  congr 1
  funext id
  cases arena.get? id with
  | none => rfl
  | some node => simp [Function.comp_def]

theorem Arena.writtenKept {arena changed : Arena} (size : changed.size = arena.size)
    (same : ∀ id seen, (arena.get? id).map Node.written? = some seen → (changed.get? id).map Node.written? = some seen) :
    changed.written = arena.written := by
  have ids : changed.ids = arena.ids := by unfold ids; rw [size]
  rw [writtenEq, writtenEq, ids]
  refine List.filterMap_congr fun id _ => ?_
  cases got : arena.get? id with
  | none =>
    have missing := getNone.mp got
    rw [← size] at missing
    rw [getNone.mpr missing]
  | some node =>
    have kept := same id (node.written?) (by rw [got]; rfl)
    obtain ⟨other, found, seen⟩ := Option.map_eq_some_iff.mp kept
    rw [found, Option.bind_some, Option.bind_some, seen]

theorem Arena.writtenPush {arena : Arena} (small : arena.size < UInt32.size) (node : Node) :
    (arena.push node).written = arena.written ++ (node.written?.map fun seen => (arena.nextId, seen)).toList := by
  have index : arena.nextId.index = arena.size := NodeId.indexOfIndex small
  rw [writtenEq, writtenEq, idsPush, List.filterMap_append]
  congr 1
  · refine List.filterMap_congr fun id member => ?_
    have bound := memIds small member
    rw [getPush, if_neg (by omega)]
  · rw [List.filterMap_cons, List.filterMap_nil, getPush, if_pos index, Option.bind_some]
    cases node.written? <;> rfl

theorem Builder.stepWritten {b next : Builder} {event : Option Event} (h : b.Step next event) {id : NodeId}
    {seen : Option (String × Table AttributeValue)} (got : (b.arena.get? id).map Node.written? = some seen) :
    (next.arena.get? id).map Node.written? = some seen := by
  refine stepView Node.written? ?_ ?_ h got
  · intro children stop node
    unfold Node.written?
    rw [Node.elementClose, Option.map_map]
    rfl
  · intro run node
    unfold Node.written?
    rw [Node.elementMapElement, Option.map_map]
    congr 1
    funext e
    simp only [Function.comp_def, Element.appendText]
    split <;> rfl

def Opening.written (o : Opening) : NodeId × String × Table AttributeValue := (o.id, o.element.tag, o.element.attributes)

theorem unfinishedIds {past : List (Entry Unit)} {entry : Entry Unit} {id : NodeId} {node : Node}
    (event : entry.event = .opened id) (here : entry.node = some node) :
    (entry.unfinished? past).toList.map Opening.id = if node.isElement && !node.done then [id] else [] := by
  unfold Entry.unfinished?
  rcases node.contentCases with ⟨e, content⟩ | leaf
  · have isElement : node.isElement = true := by simp [Node.isElement, Node.element?, content]
    rw [openingElement event here content, isElement]
    cases waiting : node.done <;> simp [Option.filter, waiting]
  · rw [openingLeaf here leaf, Node.leafIsElement leaf]
    rfl

theorem openingWritten {past : List (Entry Unit)} {entry : Entry Unit} {id : NodeId} {node : Node}
    (event : entry.event = .opened id) (here : entry.node = some node) :
    (entry.opening? past).toList.map Opening.written = (node.written?.map fun seen => (id, seen)).toList := by
  rcases node.contentCases with ⟨e, content⟩ | leaf
  · rw [openingElement event here content]
    simp [Node.written?, Node.element?, content, Opening.written]
  · rw [openingLeaf here leaf, Node.written?, Node.leafElement leaf]
    rfl

structure Recorded (past : List (Entry Unit)) (b : Builder) : Prop where
  known : ∀ entry ∈ past, entry.event.id.index < b.arena.size
  once : OpensOnce past
  within : ∀ id ∈ b.stack, id.index < b.arena.size
  stack : (openElements past).map Opening.id = b.stack.filter b.isOpenElement
  elements : (openings past).map Opening.written = b.arena.written

namespace Recorded

theorem start (source : List Char) : Recorded [] (Builder.ofSource source) := by
  refine ⟨?_, List.Pairwise.nil, ?_, rfl, rfl⟩
  · intro entry member
    contradiction
  · intro id member
    contradiction

theorem quiet {past : List (Entry Unit)} {b next : Builder} (recorded : Recorded past b) (h : b.Step next none) :
    Recorded past next := by
  obtain ⟨stack, size, same⟩ := Builder.stepQuiet h
  refine ⟨?_, recorded.once, ?_, ?_, ?_⟩
  · rw [size]
    exact recorded.known
  · rw [size, stack]
    exact recorded.within
  · rw [stack, recorded.stack]
    exact List.filter_congr fun id _ => (same id).symm
  · rw [recorded.elements, Arena.writtenKept size fun id seen => Builder.stepWritten h]

theorem opened {source : List Char} {past : List (Entry Unit)} {b next : Builder} {id : NodeId} {entry : Entry Unit}
    (sound : b.Sound source) (recorded : Recorded past b) (h : b.Step next (some (.opened id)))
    (event : entry.event = .opened id) (here : entry.node = next.arena.get? id) : Recorded (entry :: past) next := by
  obtain ⟨node, arena, stack, index, got, fresh, _⟩ := Builder.stepOpens sound h
  have size : next.arena.size = b.arena.size + 1 := by rw [arena, Arena.sizePush]
  refine ⟨?_, ?_, ?_, ?_, ?_⟩
  · intro other member
    rcases List.mem_cons.mp member with rfl | earlier
    · rw [event, size]
      simp only [Event.id]
      omega
    · have bound := recorded.known other earlier
      omega
  · refine List.pairwise_cons.mpr ⟨?_, recorded.once⟩
    intro other earlier twice same again
    have bound := recorded.known other earlier
    cases event.symm.trans same
    rw [again] at bound
    simp only [Event.id] at bound
    omega
  · intro other member
    rw [stack] at member
    rcases List.mem_cons.mp member with rfl | earlier
    · omega
    · have bound := recorded.within other earlier
      omega
  · have before : b.stack.filter next.isOpenElement = b.stack.filter b.isOpenElement := by
      refine List.filter_congr fun other member => ?_
      have bound := recorded.within other member
      unfold Builder.isOpenElement
      rw [arena, Arena.getPush, if_neg (by omega)]
    have top : next.isOpenElement id = (node.isElement && !node.done) := by
      unfold Builder.isOpenElement
      rw [got, Option.any_some]
    rw [openElementsOpened event, List.map_append, unfinishedIds event (here.trans got), recorded.stack, stack,
      List.filter_cons, before, top]
    split <;> rfl
  · have room := sound.room
    have next : b.arena.nextId = id :=
      NodeId.indexInjective ((NodeId.indexOfIndex (by omega)).trans index.symm)
    rw [openings, List.map_append, openingWritten event (here.trans got), recorded.elements, arena,
      Arena.writtenPush (by omega), next]

theorem closed {past : List (Entry Unit)} {b next : Builder} {id : NodeId} {entry : Entry Unit}
    (recorded : Recorded past b) (h : b.Step next (some (.closed id))) (event : entry.event = .closed id) :
    Recorded (entry :: past) next ∧
    ∃ inner outer o, openElements past = inner ++ o :: outer ∧ o.id = id ∧ openElements (entry :: past) = outer := by
  obtain ⟨above, outside, node, stack, nextStack, got, isElement, waiting, arena⟩ := Builder.stepCloses h
  have size : next.arena.size = b.arena.size := by rw [arena, Arena.sizeModify]
  have openThere : b.isOpenElement id = true := by
    unfold Builder.isOpenElement
    simp [got, isElement, waiting]
  have ids := recorded.stack
  rw [stack, List.filter_append, List.filter_cons, if_pos openThere] at ids
  obtain ⟨inner, rest, split, _, tail⟩ := List.map_eq_append_iff.mp ids
  obtain ⟨o, outer, rfl, rfl, outerIds⟩ := List.map_eq_cons_iff.mp tail
  have remaining := openElementsClosed event recorded.once split
  have distinct : ((openElements past).map Opening.id).Nodup := openSinceDistinct recorded.once
  have apart : o.id ∉ outside := by
    intro again
    rw [split, List.map_append, List.map_cons, outerIds] at distinct
    have twice := (List.nodup_cons.mp (List.nodup_append.mp distinct).2.1).1
    exact twice (List.mem_filter.mpr ⟨again, openThere⟩)
  refine ⟨⟨?_, ?_, ?_, ?_, ?_⟩, inner, outer, o, split, rfl, remaining⟩
  · rw [size]
    intro other member
    rcases List.mem_cons.mp member with rfl | earlier
    · rw [event]
      exact recorded.within o.id (by rw [stack]; simp)
    · exact recorded.known other earlier
  · refine List.pairwise_cons.mpr ⟨?_, recorded.once⟩
    intro other _ twice same
    cases event.symm.trans same
  · intro other member
    rw [size]
    rw [nextStack] at member
    exact recorded.within other (by rw [stack]; exact List.mem_append_right _ member)
  · have done : next.isOpenElement o.id = false := by
      unfold Builder.isOpenElement
      rw [arena, Arena.getModify, if_pos rfl, got]
      simp [Node.close]
    rw [remaining, outerIds, nextStack, List.filter_cons, if_neg (by simp [done])]
    refine List.filter_congr fun other member => ?_
    have differs : other ≠ o.id := fun same => apart (same ▸ member)
    unfold Builder.isOpenElement
    rw [arena, Arena.getModifyOther differs]
  · rw [openings, openingClosed event, Option.toList_none, List.append_nil, recorded.elements,
      Arena.writtenKept size fun id seen => Builder.stepWritten h]

end Recorded
end Templating
