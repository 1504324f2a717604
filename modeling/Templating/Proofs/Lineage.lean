import Templating.Proofs.Acceptance
import Templating.Proofs.Attributes
import Templating.Proofs.Kinship

/-!
Parent links and child lists of a template. The analyser gives a node its parent from the elements
that it holds to be open, the builder gives an element its children from the stack; all along, the
first are what is open of the second.
-/
namespace Templating

namespace Node

def kinship (node : Node) : Kinship where
  isElement := node.isElement
  done := node.done
  children := node.children
  parent := node.parent
  root := node.root
  pre := node.element?.any Element.pre

theorem kinshipMapElement {change : Element → Element} (children : ∀ e, (change e).children = e.children)
    (pre : ∀ e, (change e).pre = e.pre) (node : Node) : (node.mapElement change).kinship = node.kinship := by
  cases content : node.content with
  | element e => simp [kinship, mapElement, content, isElement, element?, Node.children, children, pre]
  | comment | doctype => simp [mapElement, content]

theorem kinshipClose {node : Node} (element : node.isElement = true) (children : List NodeId) (stop : Nat) :
    (node.close children stop).kinship = node.kinship.close children := by
  obtain ⟨e, content⟩ | leaf := node.contentCases
  · simp [kinship, Kinship.close, close, mapElement, content, isElement, element?, Node.children]
  · rw [leafIsElement leaf] at element
    contradiction

end Node

namespace Arena

def kin (arena : Arena) : Kindred := fun id => (arena.get? id).map Node.kinship

theorem kinSome {arena : Arena} {id : NodeId} {k : Kinship} (known : arena.kin id = some k) :
    ∃ node, arena.get? id = some node ∧ node.kinship = k := Option.map_eq_some_iff.mp known

theorem kinOf {arena : Arena} {id : NodeId} {node : Node} (got : arena.get? id = some node) :
    arena.kin id = some node.kinship := by
  unfold kin
  rw [got]
  rfl

theorem kinSeen {p q : Arena} (same : p.kin = q.kin) {id : NodeId} {node : Node} (got : q.get? id = some node) :
    ∃ seen, p.get? id = some seen ∧ seen.kinship = node.kinship := kinSome (by rw [same, kinOf got])

theorem kinNone {arena : Arena} {id : NodeId} (new : id.index = arena.size) : arena.kin id = none := by
  unfold kin
  rw [getNone.mpr (Nat.le_of_eq new.symm)]
  rfl

theorem kinModify (arena : Arena) (id : NodeId) (change : Node → Node) :
    (arena.modify id change).kin =
      Function.update arena.kin id ((arena.get? id).map fun node => (change node).kinship) := by
  funext other
  unfold kin
  by_cases same : other = id
  · subst same
    rw [Function.update_self, getModify, if_pos rfl, Option.map_map]
    rfl
  · rw [Function.update_of_ne same, getModifyOther same]

theorem kinModifySame {arena : Arena} {id : NodeId} {change : Node → Node}
    (same : ∀ node, (change node).kinship = node.kinship) : (arena.modify id change).kin = arena.kin := by
  rw [kinModify, funext same]
  exact Function.update_eq_self id arena.kin

end Arena

namespace Builder

theorem stackOfRoots {b : Builder} {root : NodeId} (single : b.roots = [root]) : b.stack = [root] := by
  unfold roots at single
  rw [← List.reverse_reverse b.stack, single]
  rfl

theorem stepQuietKin {b next : Builder} (h : b.Step next none) : next.arena.kin = b.arena.kin := by
  have fields (e : Element) (run : String) :
      (e.appendText run).children = e.children ∧ (e.appendText run).pre = e.pre := by
    unfold Element.appendText
    split <;> exact ⟨rfl, rfl⟩
  funext id
  exact stepQuietView Node.kinship
    (fun run => Node.kinshipMapElement (fun e => (fields e run).1) fun e => (fields e run).2) h id

theorem stepClosesKin {b next : Builder} {id : NodeId} (h : b.Step next (some (.closed id))) :
    ∃ above outer, b.stack = above ++ id :: outer ∧ next.stack = id :: outer ∧ b.arena.kin.isOpen id = true ∧
      next.arena.kin = b.arena.kin.close id above.reverse := by
  obtain ⟨above, outer, node, stack, nextStack, got, isElement, waiting, arena⟩ := stepCloses h
  refine ⟨above, outer, stack, nextStack, ?_, ?_⟩
  · exact Kindred.isOpenIff.mpr ⟨_, Arena.kinOf got, isElement, waiting⟩
  · rw [arena, Arena.kinModify, Kindred.close, Arena.kinOf got, got]
    simp only [Option.map_some, Node.kinshipClose isElement]

end Builder

namespace Analysis

theorem openedPlaces {options : Options} {source : List Char} {id : NodeId} {a after : Analysis}
    {arena changed : Arena} {node : Node} (got : arena.get? id = some node)
    (told : opened options source id a arena = .ok (after, changed)) :
    (∃ content : Content, content.shape = node.content.shape ∧
      changed = arena.modify id fun _ =>
        { node with content, parent := a.parents.head?, root := a.parents.isEmpty }) ∧
    after.parents = if node.isElement && !node.done then id :: a.parents else a.parents := by
  obtain ⟨e, content⟩ | leaf := node.contentCases
  · have isElement : node.isElement = true := by simp [Node.isElement, Node.element?, content]
    obtain ⟨rfl, rfl⟩ := openedElement got content told
    refine ⟨⟨.element (letIn options a.inVerbatim e), ?_, rfl⟩, ?_⟩
    · rw [content]
      exact Directive.letInShape options a.inVerbatim e
    · rw [isElement]
      unfold noteOpened
      cases node.done with
      | true => exact (finishParents _ id).trans (enterParents a id e)
      | false => exact congrArg (List.cons id) (enterParents a id e)
  · rw [openedLeaf a options source got leaf] at told
    cases told
    refine ⟨⟨node.content, rfl, rfl⟩, ?_⟩
    rw [Node.leafIsElement leaf]
    split
    · exact finishParents a id
    · rfl

theorem closedKin (options : Options) (id : NodeId) (a : Analysis) (arena : Arena) :
    (closed options id a arena).2.kin = arena.kin := by
  have collected (e : Element) : (if options.isRawText e.tag then e else collectData options.delimiters e).children =
      e.children ∧ (if options.isRawText e.tag then e else collectData options.delimiters e).pre = e.pre := by
    unfold collectData
    split
    · exact ⟨rfl, rfl⟩
    · split <;> exact ⟨rfl, rfl⟩
  unfold closed
  dsimp only
  split
  · rfl
  · exact Arena.kinModifySame (Node.kinshipMapElement (fun e => (collected e).1) fun e => (collected e).2)

end Analysis

structure Coupled (a : Analysis) (b : Builder) : Prop where
  linked : Linked b.arena.kin b.stack
  below : ∀ id ∈ b.stack, id.index < b.arena.size
  parents : a.parents = b.stack.filter b.arena.kin.isOpen

namespace Coupled

theorem start (source : List Char) : Coupled Analysis.start (Builder.ofSource source) := by
  have nobody : (Builder.ofSource source).arena.kin = fun _ => none := rfl
  refine ⟨?_, ?_, rfl⟩
  · rw [nobody]
    exact Linked.start
  · intro id member
    contradiction

theorem quiet {a : Analysis} {b next : Builder} (coupled : Coupled a b) (h : b.Step next none) : Coupled a next := by
  obtain ⟨stack, size, _⟩ := Builder.stepQuiet h
  have kin := Builder.stepQuietKin h
  refine ⟨?_, ?_, ?_⟩
  · rw [kin, stack]
    exact coupled.linked
  · rw [size, stack]
    exact coupled.below
  · rw [kin, stack]
    exact coupled.parents

theorem openedKin {options : Options} {source : List Char} {a after : Analysis} {b next : Builder} {id : NodeId}
    {changed : Arena} (sound : b.Sound source) (coupled : Coupled a b) (h : b.Step next (some (.opened id)))
    (told : Analysis.opened options source id a next.arena = .ok (after, changed)) :
    ∃ isElement done pre, changed.kin = b.arena.kin.add id (b.arena.kin.opened b.stack isElement done pre) ∧
      after.parents = if isElement && !done then id :: a.parents else a.parents := by
  obtain ⟨node, arena, _, index, got, fresh, _⟩ := Builder.stepOpens sound h
  obtain ⟨⟨content, shape, rfl⟩, parents⟩ := Analysis.openedPlaces got told
  have outline : (⟨content, node.done, a.parents.head?, a.parents.isEmpty, node.span⟩ : Node).outline = node.outline := by
    simp only [Node.outline, shape]
  have isElement := Node.outlineIsElement outline
  have children := (Node.outlineChildren outline).trans (Node.freshChildren fresh)
  have innermost : a.parents.head? = b.stack.find? b.arena.kin.isOpen := by
    rw [coupled.parents, List.head?_filter]
  have outermost : a.parents.isEmpty = (b.stack.find? b.arena.kin.isOpen).isNone := by
    rw [← innermost]
    cases a.parents <;> rfl
  refine ⟨node.isElement, node.done,
    (⟨content, node.done, a.parents.head?, a.parents.isEmpty, node.span⟩ : Node).element?.any Element.pre, ?_, parents⟩
  funext other
  rw [Arena.kinModify, got, arena]
  by_cases same : other = id
  · subst same
    rw [Function.update_self, Kindred.addHere, Kindred.opened, ← outermost, ← innermost, ← isElement]
    exact congrArg (fun ids => some { Node.kinship _ with children := ids }) children
  · have differs : other.index ≠ b.arena.size := fun equal =>
      same (NodeId.indexInjective (equal.trans index.symm))
    rw [Function.update_of_ne same, Kindred.addOther same]
    unfold Arena.kin
    rw [Arena.getPush, if_neg differs]

theorem opened {options : Options} {source : List Char} {a after : Analysis} {b next : Builder} {id : NodeId}
    {changed : Arena} (sound : b.Sound source) (coupled : Coupled a b) (h : b.Step next (some (.opened id)))
    (told : Analysis.opened options source id a next.arena = .ok (after, changed)) :
    Coupled after { next with arena := changed } := by
  obtain ⟨node, arena, stack, index, _⟩ := Builder.stepOpens sound h
  obtain ⟨isElement, done, pre, kin, parents⟩ := openedKin sound coupled h told
  have size : changed.size = b.arena.size + 1 := by
    rw [Arena.alikeSize (Analysis.openedAlike told), arena, Arena.sizePush]
  have new := Arena.kinNone index
  have later (other : NodeId) (member : other ∈ b.stack) : other.index < id.index := by
    rw [index]
    exact coupled.below other member
  refine ⟨?_, ?_, ?_⟩
  · rw [kin, stack]
    exact coupled.linked.opened new later isElement done pre
  · rw [stack]
    intro other member
    rw [size]
    rcases List.mem_cons.mp member with rfl | earlier
    · omega
    · exact Nat.lt_succ_of_lt (coupled.below other earlier)
  · have kept (other : NodeId) (member : other ∈ b.stack) :
        b.arena.kin.add id (b.arena.kin.opened b.stack isElement done pre) other = b.arena.kin other := by
      refine Kindred.addOther ?_ _
      rintro rfl
      exact absurd (later other member) (Nat.lt_irrefl _)
    have top : Kindred.isOpen (b.arena.kin.add id (b.arena.kin.opened b.stack isElement done pre)) id =
        (isElement && !done) := by
      unfold Kindred.isOpen
      rw [Kindred.addHere]
      rfl
    rw [kin, stack, List.filter_cons, top, Kindred.filterOpenSame kept, parents, coupled.parents]

theorem closedParents {a : Analysis} {b : Builder} {id : NodeId} {above outer : List NodeId} (coupled : Coupled a b)
    (stack : b.stack = above ++ id :: outer) (waiting : b.arena.kin.isOpen id = true) :
    Analysis.outside id a.parents = outer.filter b.arena.kin.isOpen := by
  have linked := coupled.linked
  rw [stack] at linked
  have apart : id ∉ above.filter b.arena.kin.isOpen := fun inside =>
    linked.offStack (List.mem_filter.mp inside).1 List.mem_cons_self
  rw [coupled.parents, stack, List.filter_append, List.filter_cons, if_pos waiting, Followed.outsideSplit apart]

theorem closed {a : Analysis} {b next : Builder} {id : NodeId} (coupled : Coupled a b)
    (h : b.Step next (some (.closed id))) (options : Options) :
    Coupled (Analysis.closed options id a next.arena).1
      { next with arena := (Analysis.closed options id a next.arena).2 } := by
  obtain ⟨above, outer, stack, nextStack, waiting, kin⟩ := Builder.stepClosesKin h
  have size : (Analysis.closed options id a next.arena).2.size = b.arena.size := by
    obtain ⟨_, _, _, _, _, _, _, _, arena⟩ := Builder.stepCloses h
    rw [Arena.alikeSize (Analysis.closedAlike options id a next.arena), arena, Arena.sizeModify]
  have left := coupled.closedParents stack waiting
  have linked := coupled.linked
  rw [stack] at linked
  obtain ⟨k, got, _⟩ := Kindred.isOpenIff.mp waiting
  refine ⟨?_, ?_, ?_⟩
  · rw [Analysis.closedKin, kin, nextStack]
    exact linked.closed waiting
  · rw [nextStack, size]
    intro other member
    exact coupled.below other (by rw [stack]; exact List.mem_append_right _ member)
  · have kept (other : NodeId) (member : other ∈ outer) : b.arena.kin.close id above.reverse other = b.arena.kin other := by
      refine Kindred.closeOther ?_
      rintro rfl
      exact linked.notOuter member
    have ended : Kindred.isOpen (b.arena.kin.close id above.reverse) id = false := by
      unfold Kindred.isOpen
      rw [Kindred.closeHere got]
      simp [Kinship.isOpen, Kinship.close]
    rw [Followed.closedState, Analysis.closedKin, kin, nextStack, List.filter_cons, ended,
      Kindred.filterOpenSame kept, left]
    rfl

theorem turn {options : Options} {source : List Char} {b next : Build Analysis} (sound : b.builder.Sound source)
    (coupled : Coupled b.state b.builder)
    (turned : b.turn options.comments (Analysis.receiver options source) = .ok next) :
    Coupled next.state next.builder := by
  rcases Build.turnOk turned with ⟨stepped, same⟩ | ⟨event, builder, arena, stepped, told, same⟩
  · rw [same]
    exact coupled.quiet (Builder.stepCases stepped)
  · rw [same]
    cases event with
    | opened id => exact coupled.opened sound (Builder.stepCases stepped) told
    | closed id =>
      have result : Analysis.closed options id b.state builder.arena = (next.state, arena) := Except.ok.inj told
      have kept := coupled.closed (Builder.stepCases stepped) options
      rw [result] at kept
      exact kept

end Coupled

namespace Build
variable {options : Options} {source : List Char} {b next last : Build Analysis}

theorem coupledSkip (coupled : Coupled b.state b.builder) : Coupled b.skipBlank.state b.skipBlank.builder :=
  ⟨coupled.linked, coupled.below, coupled.parents⟩

structure Analysed (source : List Char) (b : Build Analysis) : Prop where
  sound : b.builder.Sound source
  coupled : Coupled b.state b.builder

theorem Analysed.start (short : Text.byteLength source < UInt32.size) : (ofSource source Analysis.start).Analysed source :=
  ⟨Builder.soundOfSource short, Coupled.start source⟩

theorem Analysed.skip (analysed : b.Analysed source) : b.skipBlank.Analysed source :=
  ⟨Builder.soundSkipBlank analysed.sound, coupledSkip analysed.coupled⟩

theorem Analysed.turn (analysed : b.Analysed source)
    (turned : b.turn options.comments (Analysis.receiver options source) = .ok next) : next.Analysed source := by
  obtain ⟨builder, event, stepped, alike⟩ := turnStep (Analysis.receiverAlike options source) turned
  exact ⟨Builder.soundAlike (Builder.alikeSymm alike) (Builder.soundStep analysed.sound (Builder.stepCases stepped)),
    analysed.coupled.turn analysed.sound turned⟩

theorem coupledRun (short : Text.byteLength source < UInt32.size)
    (ran : buildWith options (Analysis.receiver options source) Analysis.start source = .ok last) :
    Coupled last.state last.builder :=
  (runInvariant (I := Analysed source) (fun _ analysed => analysed.skip) (fun _ _ analysed turned => analysed.turn turned)
    (Analysed.start short) ran).coupled

end Build

/-- Parent links and child lists of a template are about the same tree, as far as its elements are done. -/
structure Ast.Lineal (ast : Ast) : Prop where
  top : ∃ node, ast.arena.get? ast.root = some node ∧ node.parent = none ∧ node.root = true
  onlyTop : ∀ id node, ast.arena.get? id = some node → node.parent = none ∨ node.root = true → id = ast.root
  parent : ∀ id node p, ast.arena.get? id = some node → node.parent = some p →
    ∃ outer, ast.arena.get? p = some outer ∧ outer.isElement = true ∧ p.index < id.index ∧
      (id ∈ outer.children ∨ outer.done = false)
  child : ∀ id q outer, ast.arena.get? q = some outer → id ∈ outer.children →
    ∃ node, ast.arena.get? id = some node ∧
      (node.parent = some q ∨ ∃ p between, node.parent = some p ∧ ast.arena.get? p = some between ∧
        between.isElement = true ∧ between.done = false ∧ [p, id].Sublist outer.children)
  closed : (∀ id node, ast.arena.get? id = some node → node.done = true) →
    ∀ id node p, ast.arena.get? id = some node →
      (node.parent = some p ↔ ∃ outer, ast.arena.get? p = some outer ∧ id ∈ outer.children)

theorem Linked.lineal {ast : Ast} (linked : Linked ast.arena.kin [ast.root]) : ast.Lineal := by
  have parent (id : NodeId) (node : Node) (p : NodeId) (got : ast.arena.get? id = some node)
      (up : node.parent = some p) :
      ∃ outer, ast.arena.get? p = some outer ∧ outer.isElement = true ∧ p.index < id.index ∧
        (id ∈ outer.children ∨ outer.done = false) := by
    obtain ⟨o, known, isElement, before, belongs⟩ := linked.upward id node.kinship p (Arena.kinOf got) up
    obtain ⟨outer, there, rfl⟩ := Arena.kinSome known
    exact ⟨outer, there, isElement, before, belongs.imp_right And.left⟩
  have child (id q : NodeId) (outer : Node) (got : ast.arena.get? q = some outer) (member : id ∈ outer.children) :
      ∃ node, ast.arena.get? id = some node ∧
        (node.parent = some q ∨ ∃ p between, node.parent = some p ∧ ast.arena.get? p = some between ∧
          between.isElement = true ∧ between.done = false ∧ [p, id].Sublist outer.children) := by
    obtain ⟨k, known, _, belongs⟩ := linked.downward q outer.kinship id (Arena.kinOf got) member
    obtain ⟨node, there, rfl⟩ := Arena.kinSome known
    refine ⟨node, there, belongs.imp_right ?_⟩
    rintro ⟨p, up, waiting, _, order⟩
    obtain ⟨l, inner, isElement, unfinished⟩ := Kindred.isOpenIff.mp waiting
    obtain ⟨between, found, rfl⟩ := Arena.kinSome inner
    exact ⟨p, between, up, found, isElement, unfinished, order⟩
  refine ⟨?_, ?_, parent, child, ?_⟩
  · obtain ⟨k, known⟩ := linked.used ast.root List.mem_cons_self
    obtain ⟨node, got, rfl⟩ := Arena.kinSome known
    have up : node.parent = none := linked.stacked [] ast.root [] node.kinship rfl known
    have root : node.root = node.parent.isNone := linked.root ast.root node.kinship known
    exact ⟨node, got, up, by rw [root, up]; rfl⟩
  · intro id node got outermost
    have root : node.root = node.parent.isNone := linked.root id node.kinship (Arena.kinOf got)
    have up : node.parent = none := by
      rcases outermost with alone | marked
      · exact alone
      · rw [root] at marked
        exact Option.isNone_iff_eq_none.mp marked
    exact List.mem_singleton.mp (linked.orphan id node.kinship (Arena.kinOf got) up)
  · intro done id node p got
    constructor
    · intro up
      obtain ⟨outer, there, _, _, member | unfinished⟩ := parent id node p got up
      · exact ⟨outer, there, member⟩
      · rw [done p outer there] at unfinished
        contradiction
    · rintro ⟨outer, there, member⟩
      obtain ⟨other, found, direct | ⟨q, between, _, inside, _, unfinished, _⟩⟩ := child id p outer there member
      · cases got.symm.trans found
        exact direct
      · rw [done q between inside] at unfinished
        contradiction

/-
A parent is an element opened before, which has the node among its children or was never done itself;
a child has the element as its parent, or an unfinished one that stands before it among the children.
-/
theorem parentsMatchChildren {options : Options} {template : String} {ast : Ast}
    (short : template.utf8ByteSize < UInt32.size) (accepted : parseWith options template = .ok ast) : ast.Lineal := by
  rw [← Text.byteLengthToList] at short
  obtain ⟨forest, analysed, roots, arena⟩ := parsedForest accepted
  obtain ⟨last, ran, rfl⟩ := forestOfOk analysed
  have stack : last.builder.stack = [ast.root] := Builder.stackOfRoots roots
  have linked := (Build.coupledRun short ran).linked
  rw [stack, show last.builder.arena = ast.arena from arena] at linked
  exact linked.lineal

def nestedItems : String := "<ul><li>one<li><b>two</b></li></ul>"

theorem parentSwallowed :
    nestedItems.utf8ByteSize < UInt32.size ∧
    ∃ ast, parseWith Options.standard nestedItems = .ok ast ∧
      (∃ top, ast.arena.get? ast.root = some top ∧ top.parent = none ∧ top.root = true) ∧
      ∃ list, ast.arena.get? ⟨0⟩ = some list ∧ [(⟨1⟩ : NodeId), ⟨2⟩].Sublist list.children := by
  have short : nestedItems.utf8ByteSize < UInt32.size := by decide
  have shape : (parseWith Options.standard nestedItems).map (fun ast =>
      ((ast.arena.get? ⟨0⟩).map Node.children, (ast.arena.get? ⟨2⟩).map Node.parent)) =
        .ok (some [⟨1⟩, ⟨2⟩], some (some ⟨1⟩)) := by decide +kernel
  cases parsed : parseWith Options.standard nestedItems with
  | error cause =>
    rw [parsed] at shape
    contradiction
  | ok ast =>
    rw [parsed] at shape
    obtain ⟨above, below⟩ := Prod.mk.inj (Except.ok.inj shape)
    obtain ⟨list, got, children⟩ := Option.map_eq_some_iff.mp above
    have lineal := parentsMatchChildren short parsed
    obtain ⟨item, found, belongs⟩ := lineal.child ⟨2⟩ ⟨0⟩ list got (by rw [children]; decide)
    rw [found] at below
    refine ⟨short, ast, rfl, lineal.top, list, got, ?_⟩
    rcases belongs with direct | ⟨p, _, up, _, _, _, order⟩
    · exact absurd (direct.symm.trans (Option.some.inj below)) (by decide)
    · cases up.symm.trans (Option.some.inj below)
      exact order

end Templating
