import Templating.Proofs.Undisturbed
import Mathlib.Control.Monad.Basic
import Mathlib.Data.List.Nodup

/-!
Document order. Walking the forest from its roots, each node before its children, meets the nodes in
the order in which they were opened, and each of them once. During a build the same holds of the
walk from the stack, as long as what is still open has no children.
-/
namespace Templating

namespace Arena

inductive Walk (arena : Arena) : List NodeId → List NodeId → Prop where
  | nil : Walk arena [] []
  | cons {id node ids within after} (got : arena.get? id = some node) (inner : Walk arena node.children within)
      (outer : Walk arena ids after) : Walk arena (id :: ids) (id :: (within ++ after))

theorem walkAppend {arena : Arena} {ids more order rest : List NodeId} (left : arena.Walk ids order)
    (right : arena.Walk more rest) : arena.Walk (ids ++ more) (order ++ rest) := by
  induction left with
  | nil => exact right
  | cons got inner outer _ ih =>
    have tail := Walk.cons got inner ih
    simpa using tail

theorem walkSplit {arena : Arena} {ids more order : List NodeId} (walk : arena.Walk (ids ++ more) order) :
    ∃ first second, order = first ++ second ∧ arena.Walk ids first ∧ arena.Walk more second := by
  induction ids generalizing order with
  | nil => exact ⟨[], order, rfl, .nil, walk⟩
  | cons id ids ih =>
    cases walk with
    | cons got inner outer =>
      obtain ⟨first, second, split, left, right⟩ := ih outer
      exact ⟨_, second, by simp [split], .cons got inner left, right⟩

theorem walkFrame {arena changed : Arena} {ids order : List NodeId} (walk : arena.Walk ids order)
    (same : ∀ id ∈ order, (changed.get? id).map Node.children = (arena.get? id).map Node.children) :
    changed.Walk ids order := by
  induction walk with
  | nil => exact .nil
  | @cons id node ids within after got inner outer left right =>
    have here := same id List.mem_cons_self
    rw [got] at here
    obtain ⟨other, found, children⟩ := Option.map_eq_some_iff.mp here
    refine .cons found ?_ ?_
    · rw [children]
      exact left fun id member => same id (List.mem_cons_of_mem _ (List.mem_append_left _ member))
    · exact right fun id member => same id (List.mem_cons_of_mem _ (List.mem_append_right _ member))

theorem walkTrees {arena : Arena} {ids order : List NodeId} (walk : arena.Walk ids order) (depth : Nat)
    (deep : order.length ≤ depth) :
    ∃ trees, ids.mapM (arena.treeWithin? depth) = some trees ∧ Tree.preorderAll trees = order := by
  induction walk generalizing depth with
  | nil => exact ⟨[], rfl, rfl⟩
  | @cons id node ids within after got inner outer left right =>
    simp only [List.length_cons, List.length_append] at deep
    obtain ⟨trees, rest, after⟩ := right depth (by omega)
    cases depth with
    | zero => omega
    | succ depth =>
      obtain ⟨children, below, within⟩ := left depth (by omega)
      refine ⟨.branch id node children :: trees, ?_, ?_⟩
      · have here : arena.treeWithin? (depth + 1) id = some (.branch id node children) := by
          simp [treeWithin?, got, below]
        simp [here, rest]
      · rw [Tree.preorderAll, Tree.preorder, within, after]
        rfl

def childrenOf (arena : Arena) (id : NodeId) : List NodeId := ((arena.get? id).map Node.children).getD []

theorem walkPlaces {arena : Arena} {ids order : List NodeId} (walk : arena.Walk ids order) :
    (ids ++ order.flatMap arena.childrenOf).Perm order := by
  induction walk with
  | nil => exact .nil
  | @cons id node ids within after got inner outer left right =>
    have here : arena.childrenOf id = node.children := by simp [childrenOf, got]
    rw [List.cons_append, List.flatMap_cons, here, List.flatMap_append]
    refine List.Perm.cons id ?_
    have parts := left.append right
    refine List.Perm.trans ?_ parts
    rw [List.append_assoc]
    have swap := List.perm_append_comm_assoc ids node.children
      (within.flatMap arena.childrenOf ++ after.flatMap arena.childrenOf)
    refine swap.trans (List.Perm.append_left _ ?_)
    exact List.perm_append_comm_assoc ids (within.flatMap arena.childrenOf) (after.flatMap arena.childrenOf)

def ids (arena : Arena) : List NodeId := (List.range arena.size).map NodeId.ofIndex

theorem memIds {arena : Arena} (small : arena.size < UInt32.size) {id : NodeId} (member : id ∈ arena.ids) :
    id.index < arena.size := by
  obtain ⟨n, inside, rfl⟩ := List.mem_map.mp member
  have bound := List.mem_range.mp inside
  rw [NodeId.indexOfIndex (by omega)]
  exact bound

theorem idsIndex {arena : Arena} (small : arena.size < UInt32.size) :
    arena.ids.map NodeId.index = List.range arena.size := by
  unfold ids
  rw [List.map_map]
  conv_rhs => rw [← List.map_id (List.range arena.size)]
  refine List.map_congr_left fun n inside => ?_
  have bound := List.mem_range.mp inside
  exact NodeId.indexOfIndex (by omega)

theorem idsDistinct (arena : Arena) (small : arena.size < UInt32.size) : arena.ids.Nodup := by
  have numbers : (arena.ids.map NodeId.index).Nodup := by
    rw [idsIndex small]
    exact List.nodup_range
  exact List.Nodup.of_map NodeId.index numbers

theorem idsPush (arena : Arena) (node : Node) : (arena.push node).ids = arena.ids ++ [arena.nextId] := by
  unfold ids
  rw [sizePush, List.range_succ, List.map_append]
  rfl

end Arena

namespace Builder

structure Ordered (b : Builder) : Prop where
  walk : b.arena.Walk b.roots b.arena.ids
  childless : ∀ id node, b.arena.get? id = some node → node.done = false → node.children = []

theorem orderedOfSource (source : List Char) : (ofSource source).Ordered := by
  refine ⟨.nil, ?_⟩
  intro id node got
  simp [ofSource, Arena.empty, Arena.get?] at got

theorem orderedAlike {p q : Builder} (alike : p.Alike q) (ordered : p.Ordered) : q.Ordered := by
  have size := Arena.alikeSize alike.arena
  have ids : q.arena.ids = p.arena.ids := by unfold Arena.ids; rw [size]
  have roots : q.roots = p.roots := congrArg List.reverse alike.stack.symm
  refine ⟨?_, ?_⟩
  · rw [ids, roots]
    refine Arena.walkFrame ordered.walk fun id _ => ?_
    have outlines := Arena.alikeGet alike.arena id
    cases left : p.arena.get? id with
    | none =>
      rw [left] at outlines
      cases right : q.arena.get? id <;> simp [right] at outlines ⊢
    | some a =>
      rw [left] at outlines
      cases right : q.arena.get? id with
      | none => simp [right] at outlines
      | some b =>
        have same : a.outline = b.outline := by simpa [right] using outlines
        simp [Node.outlineChildren same]
  · intro id node got waiting
    have outlines := Arena.alikeGet alike.arena id
    rw [got] at outlines
    obtain ⟨other, found, same⟩ := Option.map_eq_some_iff.mp outlines
    rw [← Node.outlineChildren same]
    exact ordered.childless id other found ((Node.outlineCases same).1.trans waiting)

theorem orderedOpen {source : List Char} {b : Builder} (sound : b.Sound source) (ordered : b.Ordered)
    (scanner : Markup.Scanner) {node : Node} (fresh : node.Fresh) : (b.openNode scanner node).1.Ordered := by
  have room := sound.room
  have index : b.arena.nextId.index = b.arena.size := NodeId.indexOfIndex (by omega)
  have roots : (b.openNode scanner node).1.roots = b.roots ++ [b.arena.nextId] := by
    simp [openNode, Builder.roots]
  refine ⟨?_, ?_⟩
  · rw [roots]
    have got : (b.arena.push node).get? b.arena.nextId = some node := by
      rw [Arena.getPush, if_pos index]
    have here : (b.arena.push node).Walk [b.arena.nextId] [b.arena.nextId] := by
      have childless : (b.arena.push node).Walk node.children [] := by
        rw [Node.freshChildren fresh]
        exact .nil
      exact .cons got childless .nil
    have before : (b.arena.push node).Walk b.roots b.arena.ids := by
      refine Arena.walkFrame ordered.walk fun id member => ?_
      have bound := Arena.memIds (by omega) member
      rw [Arena.getPush, if_neg (by omega)]
    have whole := Arena.walkAppend before here
    rw [← Arena.idsPush] at whole
    exact whole
  · intro id other got waiting
    simp only [openNode, Arena.getPush] at got
    split at got
    · cases got
      exact Node.freshChildren fresh
    · exact ordered.childless id other got waiting

theorem childrenClose {node : Node} {e : Element} (content : node.content = .element e) (children : List NodeId)
    (stop : Nat) : (node.close children stop).children = children := by
  simp [Node.close, Node.mapElement, Node.children, content]

theorem orderedClose {source : List Char} {b : Builder} (sound : b.Sound source) (ordered : b.Ordered)
    {scanner : Markup.Scanner} {tag : String} {above outer : List NodeId} {id : NodeId} (stop : Nat)
    (split : b.splitStack? tag = some (above, id, outer)) :
    (Builder.mk scanner (b.arena.modify id (Node.close above.reverse stop)) (id :: outer)).Ordered := by
  have room := sound.room
  obtain ⟨stack, opened, _⟩ := splitStackSides split
  obtain ⟨node, e, got, content, _, waiting⟩ := openNamedGet opened
  have walk := ordered.walk
  have roots : b.roots = outer.reverse ++ id :: above.reverse := by simp [Builder.roots, stack]
  rw [roots] at walk
  obtain ⟨first, second, order, left, right⟩ := Arena.walkSplit walk
  have distinct := Arena.idsDistinct b.arena (by omega)
  cases right with
  | @cons _ other _ within after found inner rest =>
    cases got.symm.trans found
    rw [ordered.childless id node got waiting] at inner
    cases inner
    rw [List.nil_append] at order
    rw [order, List.nodup_append] at distinct
    obtain ⟨_, tail, apart⟩ := distinct
    -- the element closed stands on neither side of itself, so both sides are walked as before
    have untouched (other : NodeId) (differs : other ≠ id) :
        ((b.arena.modify id (Node.close above.reverse stop)).get? other).map Node.children =
          (b.arena.get? other).map Node.children := by
      rw [Arena.getModifyOther differs]
    have earlier : (b.arena.modify id (Node.close above.reverse stop)).Walk outer.reverse first :=
      Arena.walkFrame left fun other member => untouched other (apart other member id List.mem_cons_self)
    have below : (b.arena.modify id (Node.close above.reverse stop)).Walk above.reverse after :=
      Arena.walkFrame rest fun other member => untouched other fun same =>
        (List.nodup_cons.mp tail).1 (same ▸ member)
    have closed : (b.arena.modify id (Node.close above.reverse stop)).get? id = some (node.close above.reverse stop) := by
      rw [Arena.getModify, if_pos rfl, got]
      rfl
    refine ⟨?_, ?_⟩
    · have inside : (b.arena.modify id (Node.close above.reverse stop)).Walk
          (node.close above.reverse stop).children after := by
        rw [childrenClose content]
        exact below
      have here := Arena.Walk.cons closed inside .nil
      have whole := Arena.walkAppend earlier here
      rw [List.append_nil, ← order] at whole
      simpa [Builder.roots, Arena.ids] using whole
    · intro other changed got waiting
      rw [Arena.getModify] at got
      split at got
      · obtain ⟨before, _, rfl⟩ := Option.map_eq_some_iff.mp got
        simp [Node.close] at waiting
      · exact ordered.childless other changed got waiting

theorem mapElementChildren {node : Node} {change : Element → Element}
    (same : ∀ e : Element, (change e).children = e.children) :
    (node.mapElement change).children = node.children ∧ (node.mapElement change).done = node.done := by
  unfold Node.mapElement Node.children
  cases content : node.content with
  | element e => exact ⟨same e, rfl⟩
  | comment | doctype => simp [content]

theorem orderedText {b : Builder} (ordered : b.Ordered) (scanner : Markup.Scanner) (owner : NodeId) (run : String) :
    ({ b with scanner, arena := b.arena.modifyElement owner fun e => e.appendText run } : Builder).Ordered := by
  have same (e : Element) : (e.appendText run).children = e.children := by
    unfold Element.appendText
    split <;> rfl
  refine ⟨?_, ?_⟩
  · have walk : (b.arena.modifyElement owner fun e => e.appendText run).Walk b.roots b.arena.ids := by
      refine Arena.walkFrame ordered.walk fun id _ => ?_
      rw [Arena.modifyElement, Arena.getModify]
      split
      · cases b.arena.get? id with
        | none => rfl
        | some node => simp [(mapElementChildren same).1]
      · rfl
    simpa [Builder.roots, Arena.ids, Arena.modifyElement] using walk
  · intro id node got waiting
    rw [Arena.modifyElement, Arena.getModify] at got
    split at got
    · obtain ⟨before, found, rfl⟩ := Option.map_eq_some_iff.mp got
      rw [(mapElementChildren same).2] at waiting
      rw [(mapElementChildren same).1]
      exact ordered.childless id before found waiting
    · exact ordered.childless id node got waiting

theorem orderedStep {source : List Char} {b next : Builder} {event : Option Event} (sound : b.Sound source)
    (ordered : b.Ordered) (h : b.Step next event) : next.Ordered := by
  cases h with
  | opened moved fresh => exact orderedOpen sound ordered _ fresh
  | passed => exact ⟨ordered.walk, ordered.childless⟩
  | closed moved split => exact orderedClose sound ordered _ split
  | text run moved owned => exact orderedText ordered _ _ run

end Builder

theorem Build.orderedRun {σ : Type} {options : Options} {source : List Char} {receiver : Receiver σ} {state : σ}
    {last : Build σ} (short : Text.byteLength source < UInt32.size)
    (keeps : ∀ event state after arena changed, receiver event state arena = .ok (after, changed) → changed.Alike arena)
    (ran : buildWith options receiver state source = .ok last) :
    last.builder.Ordered ∧ last.builder.Sound source := by
  refine runInvariant (I := fun b : Build σ => b.builder.Ordered ∧ b.builder.Sound source) ?_ ?_
    ⟨Builder.orderedOfSource source, Builder.soundOfSource short⟩ ran
  · intro b kept
    exact ⟨⟨kept.1.walk, kept.1.childless⟩, Builder.soundSkipBlank kept.2⟩
  · intro b next kept turned
    obtain ⟨builder, event, stepped, alike⟩ := turnStep keeps turned
    have step := Builder.stepCases stepped
    have back := Builder.alikeSymm alike
    exact ⟨Builder.orderedAlike back (Builder.orderedStep kept.2 kept.1 step),
      Builder.soundAlike back (Builder.soundStep kept.2 step)⟩

theorem Builder.orderedForest {source : List Char} {b : Builder} (ordered : b.Ordered) (sound : b.Sound source) :
    (∃ trees, b.arena.forest? b.roots = some trees ∧
      (Tree.preorderAll trees).map NodeId.index = List.range b.arena.size) ∧
    ((b.roots ++ b.arena.ids.flatMap b.arena.childrenOf).map NodeId.index).Perm (List.range b.arena.size) := by
  have room := sound.room
  have numbers : b.arena.ids.map NodeId.index = List.range b.arena.size := Arena.idsIndex (by omega)
  refine ⟨?_, ?_⟩
  · obtain ⟨trees, seen, order⟩ := Arena.walkTrees ordered.walk b.arena.size (by simp [Arena.ids])
    refine ⟨trees, seen, ?_⟩
    rw [order, numbers]
  · have places := (Arena.walkPlaces ordered.walk).map NodeId.index
    rwa [numbers] at places

theorem forestOfOk {σ : Type} {result : Except (Halt (Build σ)) (Build σ)} {forest : Forest}
    (h : forestOf result = .ok forest) : ∃ last, result = .ok last ∧ forest = last.forest := by
  cases result with
  | ok last =>
    cases h
    exact ⟨last, rfl, rfl⟩
  | error halt => contradiction

/-
The forest walked in preorder gives the ids 0, 1, … up to the last one given, each of them once. So
the roots and the child lists of all nodes together hold every node in one place.
-/
theorem preorderIsAllocationOrder {options : Options} {template : String} {forest : Forest}
    (short : template.utf8ByteSize < UInt32.size)
    (built : readForest options template = .ok forest ∨ analyse options template = .ok forest) :
    (∃ trees, forest.trees? = some trees ∧
      (Tree.preorderAll trees).map NodeId.index = List.range forest.arena.size) ∧
    ((forest.roots ++ forest.arena.ids.flatMap forest.arena.childrenOf).map NodeId.index).Perm
      (List.range forest.arena.size) := by
  rw [← Text.byteLengthToList] at short
  rcases built with built | built
  · obtain ⟨last, ran, rfl⟩ := forestOfOk built
    obtain ⟨ordered, sound⟩ := Build.orderedRun short (fun _ _ _ _ _ told => by cases told; rfl) ran
    exact Builder.orderedForest ordered sound
  · obtain ⟨last, ran, rfl⟩ := forestOfOk built
    obtain ⟨ordered, sound⟩ := Build.orderedRun short (Analysis.receiverAlike options template.toList) ran
    exact Builder.orderedForest ordered sound

def sampleForest : String := "<!--top--><ul><li>one<li><b>two</ul><br>"

theorem preorderUnclosed :
    sampleForest.utf8ByteSize < UInt32.size ∧
    ∃ forest, readForest Options.standard sampleForest = .ok forest ∧
      forest.roots.map NodeId.index = [0, 1, 5] ∧
      ∃ trees, forest.trees? = some trees ∧ (Tree.preorderAll trees).map NodeId.index = [0, 1, 2, 3, 4, 5] := by
  have short : sampleForest.utf8ByteSize < UInt32.size := by decide
  have read : (readForest Options.standard sampleForest).map
      (fun forest => (forest.roots.map NodeId.index, forest.arena.size)) = .ok ([0, 1, 5], 6) := by decide +kernel
  cases built : readForest Options.standard sampleForest with
  | error cause =>
    rw [built] at read
    contradiction
  | ok forest =>
    rw [built] at read
    obtain ⟨roots, size⟩ := Prod.mk.inj (Except.ok.inj read)
    obtain ⟨⟨trees, seen, order⟩, _⟩ := preorderIsAllocationOrder short (.inl built)
    rw [size] at order
    exact ⟨short, forest, rfl, roots, trees, seen, order⟩

end Templating
