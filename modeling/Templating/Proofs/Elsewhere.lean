import Templating.Ast
import Templating.Proofs.Analysing
import Templating.Proofs.Tokens

/-!
Nodes that are the same but for where they stand. Where a node stands goes into the position of an error
and into nothing else: builds that read the same tokens at other places come to the same nodes elsewhere,
the analyser resolves and refuses them alike, and what is shown of the trees is the same.
-/
namespace Templating

namespace CompileError

def moveTo (position : Position) : CompileError → CompileError
  | .illegalTemplate reason _ => .illegalTemplate reason position
  | .rootNodeCount count => .rootNodeCount count
  | .illegalRef tag _ => .illegalRef tag position
  | .illegalForExpression tag expression _ => .illegalForExpression tag expression position
  | .elseWithoutIf tag previous _ => .elseWithoutIf tag previous position
  | .elseIfWithoutIf tag previous _ => .elseIfWithoutIf tag previous position

end CompileError

namespace Node
variable {a b : Node}

def unplaced (node : Node) : Node := { node with span := ⟨0, 0⟩ }

theorem unplacedSame (same : a.unplaced = b.unplaced) : ∃ span, b = { a with span } := by
  refine ⟨b.span, ?_⟩
  cases a
  cases b
  simp only [unplaced, Node.mk.injEq] at same
  obtain ⟨rfl, rfl, rfl, rfl, _⟩ := same
  rfl

theorem unplacedMapElement (change : Element → Element) (same : a.unplaced = b.unplaced) :
    (a.mapElement change).unplaced = (b.mapElement change).unplaced := by
  obtain ⟨_, rfl⟩ := unplacedSame same
  cases a with
  | mk content => cases content <;> rfl

theorem unplacedClose (children : List NodeId) (stop other : Nat) (same : a.unplaced = b.unplaced) :
    (a.close children stop).unplaced = (b.close children other).unplaced := by
  have mapped : (a.mapElement fun e => { e with children }).unplaced = (b.mapElement fun e => { e with children }).unplaced :=
    unplacedMapElement _ same
  exact congrArg (fun node : Node => { node with done := true }) mapped

theorem unplacedElement (same : a.unplaced = b.unplaced) : a.element? = b.element? := by
  obtain ⟨_, rfl⟩ := unplacedSame same
  rfl

end Node

namespace Arena

abbrev Elsewhere (p q : Arena) : Prop := p.Agree Node.unplaced q

theorem elsewhereElement {p q : Arena} (elsewhere : p.Elsewhere q) (id : NodeId) : p.element? id = q.element? id := by
  have told := agreeMap elsewhere (fun _ _ same => Node.unplacedElement same) id
  unfold element?
  cases ha : p.get? id <;> cases hb : q.get? id <;> simp [ha, hb] at told ⊢
  exact told

end Arena

namespace Builder
open Markup

structure Elsewhere (p q : Builder) : Prop where
  stack : p.stack = q.stack
  arena : p.arena.Elsewhere q.arena

variable {p q : Builder}

inductive PutsAlike (p q : Builder) (behind beyond : Scanner) :
    Except CompileError (Builder × Option Event) → Except CompileError (Builder × Option Event) → Prop where
  | refused (reason : IllegalReason) :
      PutsAlike p q behind beyond (.error (p.scanner.illegal reason p.scanner.offset))
        (.error (q.scanner.illegal reason q.scanner.offset))
  | taken {next other : Builder} (event : Option Event) (elsewhere : next.Elsewhere other) (left : next.scanner = behind)
      (right : other.scanner = beyond) : PutsAlike p q behind beyond (.ok (next, event)) (.ok (other, event))

theorem elsewhereSplitStack (elsewhere : p.Elsewhere q) (tag : String) : p.splitStack? tag = q.splitStack? tag := by
  have opens : p.isOpenNamed tag = q.isOpenNamed tag := by
    funext id
    refine Arena.agreeAny elsewhere.arena (fun a b same => ?_) id
    obtain ⟨_, rfl⟩ := Node.unplacedSame same
    rfl
  unfold splitStack?
  rw [elsewhere.stack, opens]

theorem elsewhereTextOwner (elsewhere : p.Elsewhere q) : p.textOwner? = q.textOwner? := by
  have elements : p.isElement = q.isElement := by
    funext id
    refine Arena.agreeAny elsewhere.arena (fun a b same => ?_) id
    obtain ⟨_, rfl⟩ := Node.unplacedSame same
    rfl
  have opens : p.isOpenElement = q.isOpenElement := by
    funext id
    refine Arena.agreeAny elsewhere.arena (fun a b same => ?_) id
    obtain ⟨_, rfl⟩ := Node.unplacedSame same
    rfl
  unfold textOwner?
  rw [elsewhere.stack, elements, opens]

theorem openElsewhere (elsewhere : p.Elsewhere q) (behind beyond : Scanner) {node other : Node}
    (same : node.unplaced = other.unplaced) :
    PutsAlike p q behind beyond (.ok (p.openNode behind node)) (.ok (q.openNode beyond other)) := by
  have next : p.arena.nextId = q.arena.nextId := congrArg NodeId.ofIndex (Arena.agreeSize elsewhere.arena)
  unfold openNode
  rw [next, elsewhere.stack]
  exact .taken _ ⟨rfl, Arena.agreePush elsewhere.arena same⟩ rfl rfl

theorem putElsewhere (elsewhere : p.Elsewhere q) (comments : Bool) (behind beyond : Scanner) (token : Token) :
    PutsAlike p q behind beyond (p.put comments behind token) (q.put comments beyond token) := by
  cases token with
  | doctype body => exact openElsewhere elsewhere behind beyond rfl
  | comment body =>
    cases comments with
    | true => exact openElsewhere elsewhere behind beyond rfl
    | false => exact .taken none ⟨elsewhere.stack, elsewhere.arena⟩ rfl rfl
  | startTag e paired => exact openElsewhere elsewhere behind beyond rfl
  | endTag name =>
    unfold put
    dsimp only
    rw [elsewhereSplitStack elsewhere]
    cases q.splitStack? (String.ofList name) with
    | none => exact .refused _
    | some sides =>
      obtain ⟨above, id, outer⟩ := sides
      refine .taken _ ⟨rfl, ?_⟩ rfl rfl
      exact Arena.agreeModify elsewhere.arena id fun a b same => Node.unplacedClose _ _ _ same
  | text run =>
    unfold put
    dsimp only
    rw [elsewhereTextOwner elsewhere]
    cases q.textOwner? with
    | none => exact .refused _
    | some owner =>
      refine .taken _ ⟨elsewhere.stack, ?_⟩ rfl rfl
      exact Arena.agreeModify elsewhere.arena owner fun a b same => Node.unplacedMapElement _ same

end Builder

namespace Directive

theorem faultMoved {around other : Surroundings} (previous : other.previous = around.previous)
    (loop : other.parentHasLoop = around.parentHasLoop) (e : Element) :
    fault? other e = (fault? around e).map (CompileError.moveTo other.position) := by
  unfold fault? orphaned unreachable Surroundings.followsCondition Surroundings.previousName
  rw [previous, loop]
  split
  · rfl
  split
  · rfl
  cases illegalLoop? e with
  | some written => rfl
  | none =>
    dsimp only
    split <;> rfl

end Directive

namespace Analysis
variable {p q : Arena} {node twin : Node} {source beside : List Char}

theorem surroundingsElsewhere (a : Analysis) (elsewhere : p.Elsewhere q) :
    (a.surroundings beside q twin).previous = (a.surroundings source p node).previous ∧
      (a.surroundings beside q twin).parentHasLoop = (a.surroundings source p node).parentHasLoop := by
  have previous (id : NodeId) : previousOf q id = previousOf p id := by
    refine (Arena.agreeMap elsewhere (fun a b same => ?_) id).symm
    obtain ⟨_, rfl⟩ := Node.unplacedSame same
    rfl
  unfold surroundings
  dsimp only
  rw [funext previous, funext fun id => Arena.elsewhereElement elsewhere id]
  exact ⟨rfl, rfl⟩

theorem refusesElsewhere (a : Analysis) (options : Options) (elsewhere : p.Elsewhere q) (e : Element) :
    a.refuses? options beside q twin e =
      (a.refuses? options source p node e).map
        (CompileError.moveTo (Position.locate beside twin.span.start.toNat)) := by
  unfold refuses?
  split
  · rfl
  · exact Directive.faultMoved (surroundingsElsewhere a elsewhere).1 (surroundingsElsewhere a elsewhere).2 e

theorem openedElsewhere (a : Analysis) (options : Options) {id : NodeId} (elsewhere : p.Elsewhere q)
    (got : p.get? id = some node) (gotTwin : q.get? id = some twin) :
    (∃ h k, opened options source id a p = .error h ∧ opened options beside id a q = .error k ∧
      h.cause.position? = some (Position.locate source node.span.start.toNat) ∧
      k.cause = h.cause.moveTo (Position.locate beside twin.span.start.toNat)) ∨
    ∃ after left right, opened options source id a p = .ok (after, left) ∧ opened options beside id a q = .ok (after, right) ∧
      left.Elsewhere right := by
  have same : node.unplaced = twin.unplaced := by
    have views := Arena.agreeGet elsewhere id
    rw [got, gotTwin] at views
    exact Option.some.inj views
  obtain ⟨span, rfl⟩ := Node.unplacedSame same
  rcases node.contentCases with ⟨e, content⟩ | leaf
  · have moved : a.refuses? options beside q { node with span } e = (a.refuses? options source p node e).map
        (CompileError.moveTo (Position.locate beside span.start.toNat)) := refusesElsewhere a options elsewhere e
    cases refused : a.refuses? options source p node e with
    | none =>
      rw [refused] at moved
      have left := openedAs got content refused
      have right := openedAs gotTwin content moved
      refine Or.inr ⟨_, _, _, left, right, ?_⟩
      exact Arena.agreeModify elsewhere id fun _ _ _ => rfl
    | some cause =>
      rw [refused] at moved
      obtain ⟨left, failed⟩ := openedRefused got content refused
      obtain ⟨right, failedTwin⟩ := openedRefused gotTwin content moved
      refine Or.inl ⟨_, _, failed, failedTwin, ?_, rfl⟩
      unfold refuses? at refused
      split at refused
      · contradiction
      · exact (Directive.faultPosition refused).2
  · have left := openedLeaf a options source got leaf
    have right := openedLeaf a options beside gotTwin leaf
    refine Or.inr ⟨_, _, _, left, right, ?_⟩
    exact Arena.agreeModify elsewhere id fun _ _ _ => rfl

theorem closedElsewhere (a : Analysis) (options : Options) (id : NodeId) (elsewhere : p.Elsewhere q) :
    (closed options id a p).1 = (closed options id a q).1 ∧ (closed options id a p).2.Elsewhere (closed options id a q).2 := by
  refine ⟨rfl, ?_⟩
  unfold closed
  dsimp only
  split
  · exact elsewhere
  · exact Arena.agreeModify elsewhere id fun _ _ same => Node.unplacedMapElement _ same

end Analysis

namespace Tree

mutual

def unplaced : Tree → Tree
  | .branch id node children => .branch id node.unplaced (unplacedAll children)

def unplacedAll : List Tree → List Tree
  | [] => []
  | tree :: trees => tree.unplaced :: unplacedAll trees

end

mutual

theorem jsonUnplaced : (tree : Tree) → tree.unplaced.json = tree.json
  | .branch _ node children => by
    rw [unplaced, json, json, jsonUnplacedAll children]
    rfl

theorem jsonUnplacedAll : (trees : List Tree) → jsonAll (unplacedAll trees) = jsonAll trees
  | [] => rfl
  | tree :: trees => by rw [unplacedAll, jsonAll, jsonAll, jsonUnplaced tree, jsonUnplacedAll trees]

end

mutual

theorem linesUnplaced (depth : Nat) : (tree : Tree) → tree.unplaced.lines depth = tree.lines depth
  | .branch _ node children => by
    rw [unplaced, lines, lines, linesUnplacedAll (depth + 1) children]
    rfl

theorem linesUnplacedAll (depth : Nat) : (trees : List Tree) → linesAll depth (unplacedAll trees) = linesAll depth trees
  | [] => rfl
  | tree :: trees => by rw [unplacedAll, linesAll, linesAll, linesUnplaced depth tree, linesUnplacedAll depth trees]

end

end Tree

namespace Arena
variable {p q : Arena}

theorem unplacedMap {left right : NodeId → Option Tree}
    (same : ∀ id, (left id).map Tree.unplaced = (right id).map Tree.unplaced) (ids : List NodeId) :
    (ids.mapM left).map Tree.unplacedAll = (ids.mapM right).map Tree.unplacedAll := by
  induction ids with
  | nil => rfl
  | cons id ids ih =>
    rw [List.mapM_cons, List.mapM_cons, Option.bind_eq_bind, Option.bind_eq_bind, Option.map_bind, Option.map_bind]
    refine bindAlike (same id) fun tree other head => ?_
    dsimp only [Function.comp]
    rw [Option.map_bind, Option.map_bind]
    refine bindAlike ih fun trees others tail => ?_
    exact congrArg some (congrArg₂ List.cons head tail)

theorem elsewhereTree (elsewhere : p.Elsewhere q) (depth : Nat) (id : NodeId) :
    (p.treeWithin? depth id).map Tree.unplaced = (q.treeWithin? depth id).map Tree.unplaced := by
  induction depth generalizing id with
  | zero => rfl
  | succ depth ih =>
    unfold treeWithin?
    rw [Option.bind_eq_bind, Option.bind_eq_bind, Option.map_bind, Option.map_bind]
    refine bindAlike (agreeGet elsewhere id) fun node other same => ?_
    have children : other.children = node.children := by
      obtain ⟨_, rfl⟩ := Node.unplacedSame same
      rfl
    dsimp only [Function.comp]
    rw [children, Option.map_bind, Option.map_bind]
    refine bindAlike (unplacedMap ih node.children) fun trees others below => ?_
    exact congrArg some (congrArg₂ (Tree.branch id) same below)

end Arena

end Templating
