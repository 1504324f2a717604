import Templating.Proofs.Preorder
import Templating.Proofs.Uncommented
import Mathlib.Data.List.Find

/-!
Two builds of one source, one that drops comments and one that keeps them. They take the same turns: a
comment that is kept is a node that nothing else of the build depends on. So what the first comes to is
what the second comes to without its comments.
-/
namespace Templating

namespace Builder

structure Pruned (p q : Builder) : Prop where
  scanner : p.scanner = q.scanner
  arena : p.arena = q.arena.withoutComments
  stack : p.stack = q.arena.kept q.stack

structure Referring (b : Builder) : Prop where
  arena : b.arena.Referring
  stack : ∀ id ∈ b.stack, id.index < b.arena.size

inductive StepsPruned :
    Except CompileError (Builder × Option Event) → Except CompileError (Builder × Option Event) → Prop where
  | failed (cause : CompileError) : StepsPruned (.error cause) (.error cause)
  | quiet {next other : Builder} (pruned : next.Pruned other) : StepsPruned (.ok (next, none)) (.ok (other, none))
  | dropped {next other : Builder} {id : NodeId} (pruned : next.Pruned other)
      (comment : other.arena.isComment id = true) :
      StepsPruned (.ok (next, none)) (.ok (other, some (.opened id)))
  | opened {next other : Builder} {id : NodeId} (pruned : next.Pruned other)
      (plain : other.arena.isComment id = false) :
      StepsPruned (.ok (next, some (.opened (other.arena.number id)))) (.ok (other, some (.opened id)))
  | closed {next other : Builder} {id : NodeId} (pruned : next.Pruned other)
      (plain : other.arena.isComment id = false) :
      StepsPruned (.ok (next, some (.closed (other.arena.number id)))) (.ok (other, some (.closed id)))

namespace Referring
variable {source : List Char} {b next : Builder} {event : Option Event}

theorem ofSource (source : List Char) : (Builder.ofSource source).Referring := by
  refine ⟨⟨?_, ?_⟩, ?_⟩
  · intro id node got
    simp [Builder.ofSource, Arena.empty, Arena.get?] at got
  · intro id node got
    simp [Builder.ofSource, Arena.empty, Arena.get?] at got
  · intro id member
    contradiction

theorem step (referring : b.Referring) (sound : b.Sound source) (h : b.Step next event) : next.Referring := by
  match event with
  | none =>
    obtain ⟨stack, size, _⟩ := stepQuiet h
    refine ⟨?_, by rw [stack, size]; exact referring.stack⟩
    rcases stepQuietCases h with same | ⟨owner, run, _, arena⟩
    · rw [same]
      exact referring.arena
    · rw [arena]
      refine Arena.referringModify referring.arena ?_ ?_
      · intro node got child member
        have same (e : Element) : (e.appendText run).children = e.children := by
          unfold Element.appendText
          split <;> rfl
        rw [(mapElementChildren same).1] at member
        exact referring.arena.children owner node got child member
      · intro node got p up
        rw [Node.mapElementParent] at up
        exact referring.arena.parent owner node got p up
  | some (.opened id) =>
    obtain ⟨node, arena, stack, index, _, fresh, _⟩ := stepOpens sound h
    refine ⟨?_, ?_⟩
    · rw [arena]
      exact Arena.referringPush referring.arena fresh.parent (Node.freshChildren fresh)
    · rw [arena, stack, Arena.sizePush]
      intro other member
      rcases List.mem_cons.mp member with rfl | earlier
      · omega
      · exact Nat.lt_succ_of_lt (referring.stack other earlier)
  | some (.closed id) =>
    obtain ⟨above, outer, node, stack, nextStack, got, isElement, _, arena⟩ := stepCloses h
    have inside (other : NodeId) (member : other ∈ above ∨ other ∈ id :: outer) : other.index < b.arena.size :=
      referring.stack other (by rw [stack]; exact List.mem_append.mpr member)
    refine ⟨?_, ?_⟩
    · rw [arena]
      refine Arena.referringModify referring.arena ?_ ?_
      · intro seen there child member
        cases got.symm.trans there
        obtain ⟨e, content⟩ | leaf := node.contentCases
        · rw [childrenClose content] at member
          exact inside child (Or.inl (List.mem_reverse.mp member))
        · rw [Node.leafIsElement leaf] at isElement
          contradiction
      · intro seen there p up
        rw [Node.close, Node.mapElementParent] at up
        exact referring.arena.parent id seen there p up
    · rw [arena, nextStack, Arena.sizeModify]
      exact fun other member => inside other (Or.inr member)

end Referring

namespace Pruned
variable {p q : Builder}

theorem any (pruned : p.Pruned q) (small : q.arena.size < UInt32.size) (test : Node → Bool)
    (same : ∀ node, test (q.arena.renumber node) = test node) (comment : ∀ node, node.isComment = true → test node = false)
    {id : NodeId} (inside : id.index < q.arena.size) :
    decide ((!q.arena.isComment id) = true ∧ (p.arena.get? (q.arena.number id)).any test = true) =
      (q.arena.get? id).any test := by
  cases got : q.arena.get? id with
  | none =>
    rw [Arena.getNone] at got
    omega
  | some node =>
    rw [Arena.isCommentOf got, Option.any_some]
    cases kind : node.isComment with
    | true => simp [comment node kind]
    | false =>
      rw [pruned.arena, Arena.getNumber small got kind, Option.any_some, same]
      simp

theorem find (pruned : p.Pruned q) (small : q.arena.size < UInt32.size) (referring : q.Referring) (test : Node → Bool)
    (same : ∀ node, test (q.arena.renumber node) = test node)
    (comment : ∀ node, node.isComment = true → test node = false) :
    (p.stack.find? fun id => (p.arena.get? id).any test) =
      (q.stack.find? fun id => (q.arena.get? id).any test).map q.arena.number := by
  rw [pruned.stack, Arena.kept, List.find?_map, List.find?_filter]
  refine congrArg (Option.map q.arena.number) (List.find?_congr fun id member => ?_)
  exact pruned.any small test same comment (referring.stack id member)

theorem textOwner (pruned : p.Pruned q) (small : q.arena.size < UInt32.size) (referring : q.Referring) :
    p.textOwner? = q.textOwner?.map q.arena.number := by
  have open_ := pruned.find small referring (fun node => node.isElement && !node.done)
    (fun node => by rw [Arena.renumberIsElement, Arena.renumberDone])
    (fun node comment => by simp [Node.isElement, Node.commentElement comment])
  have any := pruned.find small referring Node.isElement Arena.renumberIsElement
    (fun node comment => by simp [Node.isElement, Node.commentElement comment])
  unfold textOwner? isOpenElement isElement
  rw [open_, any, ← Option.map_or]

theorem openNamed (pruned : p.Pruned q) (small : q.arena.size < UInt32.size) (tag : String) {id : NodeId}
    (inside : id.index < q.arena.size) :
    decide ((!q.arena.isComment id) = true ∧ p.isOpenNamed tag (q.arena.number id) = true) = q.isOpenNamed tag id :=
  pruned.any small (fun node => node.isElementNamed tag && !node.done)
    (fun node => by rw [Arena.renumberIsElementNamed, Arena.renumberDone])
    (fun node comment => by simp [Node.isElementNamed, Node.commentElement comment]) inside

theorem keptClosed (pruned : p.Pruned q) (small : q.arena.size < UInt32.size) (tag : String) {ids : List NodeId}
    (inside : ∀ id ∈ ids, id.index < q.arena.size) (closed : ∀ id ∈ ids, q.isOpenNamed tag id = false) :
    ∀ id ∈ q.arena.kept ids, p.isOpenNamed tag id = false := by
  intro other member
  obtain ⟨id, survives, rfl⟩ := List.mem_map.mp member
  obtain ⟨known, plain⟩ := List.mem_filter.mp survives
  have same := pruned.openNamed small tag (inside id known)
  rw [closed id known] at same
  simpa [plain] using same

theorem splitStack (pruned : p.Pruned q) (small : q.arena.size < UInt32.size) (referring : q.Referring) (tag : String) :
    p.splitStack? tag = (q.splitStack? tag).map fun sides =>
      (q.arena.kept sides.1, q.arena.number sides.2.1, q.arena.kept sides.2.2) := by
  cases split : q.splitStack? tag with
  | none =>
    rw [Option.map_none, splitStackNone, pruned.stack]
    exact pruned.keptClosed small tag referring.stack (splitStackNone.mp split)
  | some sides =>
    obtain ⟨above, id, outer⟩ := sides
    obtain ⟨stack, opened, closed⟩ := splitStackSides split
    have inside (other : NodeId) (member : other ∈ above ∨ other ∈ id :: outer) : other.index < q.arena.size :=
      referring.stack other (by rw [stack]; exact List.mem_append.mpr member)
    have here := pruned.openNamed small tag (inside id (Or.inr List.mem_cons_self))
    rw [opened, decide_eq_true_eq, Bool.not_eq_true'] at here
    refine splitStackExact ?_ here.2 (pruned.keptClosed small tag (fun other member => inside other (Or.inl member)) closed)
    rw [pruned.stack, stack, Arena.keptAppend, Arena.keptPlain here.1]

theorem openNode (pruned : p.Pruned q) (small : q.arena.size < UInt32.size) (referring : q.Referring)
    (scanner : Markup.Scanner) {node : Node} (parent : node.parent = none) (children : node.children = [])
    (plain : node.isComment = false) :
    StepsPruned (.ok (p.openNode scanner node)) (.ok (q.openNode scanner node)) := by
  have index : q.arena.nextId.index = q.arena.size := NodeId.indexOfIndex small
  have got : (q.arena.push node).get? q.arena.nextId = some node := by rw [Arena.getPush, if_pos index]
  have here : (q.arena.push node).isComment q.arena.nextId = false := (Arena.isCommentOf got).trans plain
  have number : p.arena.nextId = (q.arena.push node).number q.arena.nextId := by
    rw [Arena.numberNext small, pruned.arena]
  have opened : Pruned ⟨scanner, p.arena.push node, (q.arena.push node).number q.arena.nextId :: p.stack⟩
      ⟨scanner, q.arena.push node, q.arena.nextId :: q.stack⟩ := by
    refine ⟨rfl, ?_, ?_⟩
    · rw [Arena.withoutCommentsPush small referring.arena, plain, if_neg Bool.false_ne_true,
        Arena.renumberLone parent children, pruned.arena]
    · rw [Arena.keptPlain here, Arena.keptPush referring.stack, pruned.stack]
  unfold Builder.openNode
  rw [number]
  exact .opened opened here

theorem comment (pruned : p.Pruned q) (small : q.arena.size < UInt32.size) (referring : q.Referring)
    (body : String) (covered : List Char) :
    StepsPruned (.ok ({ p with scanner := p.scanner.pass covered }, none)) (.ok (q.readLeaf (.comment body) covered)) := by
  have index : q.arena.nextId.index = q.arena.size := NodeId.indexOfIndex small
  unfold Builder.readLeaf Builder.openNode
  refine .dropped ⟨?_, ?_, ?_⟩ ?_
  · rw [pruned.scanner]
  · rw [Arena.withoutCommentsPush small referring.arena]
    exact pruned.arena
  · have here (node : Node) (comment : node.isComment = true) : (q.arena.push node).isComment q.arena.nextId = true := by
      rw [Arena.isComment, Arena.getPush, if_pos index]
      exact comment
    rw [Arena.keptComment (here _ rfl), Arena.keptPush referring.stack]
    exact pruned.stack
  · rw [Arena.isComment, Arena.getPush, if_pos index]
    rfl

theorem readStartTag (pruned : p.Pruned q) (small : q.arena.size < UInt32.size) (referring : q.Referring)
    (name covered : List Char) : StepsPruned (p.readStartTag name covered) (q.readStartTag name covered) := by
  unfold Builder.readStartTag
  rw [pruned.scanner]
  cases read : (q.scanner.pass covered).readAttributes q.scanner.offset (Element.ofTag (String.ofList name)) with
  | error cause => exact .failed cause
  | ok result =>
    have bare : result.2.Bare := (Element.bareReadAttributes (Element.bareOfTag _) read).1
    refine pruned.openNode small referring result.1 rfl ?_ rfl
    show result.2.children = []
    rw [bare]

theorem readEndTag (pruned : p.Pruned q) (small : q.arena.size < UInt32.size) (referring : q.Referring)
    (name covered : List Char) : StepsPruned (p.readEndTag name covered) (q.readEndTag name covered) := by
  unfold Builder.readEndTag
  rw [pruned.splitStack small referring, pruned.scanner]
  cases split : q.splitStack? (String.ofList name) with
  | none => exact .failed _
  | some sides =>
    obtain ⟨above, id, outer⟩ := sides
    obtain ⟨_, opened, _⟩ := splitStackSides split
    obtain ⟨node, e, got, content, _, _⟩ := openNamedGet opened
    have plain : node.isComment = false := by simp [Node.isComment, content]
    have still (children : List NodeId) (stop : Nat) : (node.close children stop).isComment = node.isComment :=
      Node.closeComment children stop node
    obtain ⟨comment, number, kept, _⟩ := Arena.numberSame (Arena.kindsModify got (still above.reverse
      (q.scanner.pass covered).offset))
    have here : (q.arena.modify id (Node.close above.reverse (q.scanner.pass covered).offset)).isComment id = false := by
      rw [comment, Arena.isCommentOf got, plain]
    have closed : Pruned ⟨q.scanner.pass covered, p.arena.modify (q.arena.number id)
        (Node.close (q.arena.kept above).reverse (q.scanner.pass covered).offset),
          q.arena.number id :: q.arena.kept outer⟩
        ⟨q.scanner.pass covered, q.arena.modify id (Node.close above.reverse (q.scanner.pass covered).offset),
          id :: outer⟩ := by
      refine ⟨rfl, ?_, ?_⟩
      · rw [pruned.arena]
        exact (Arena.withoutCommentsModify small got plain ((still _ _).trans plain)
          (Arena.renumberClose above _ node)).symm
      · rw [Arena.keptPlain here, number, kept]
    have told := StepsPruned.closed closed here
    rw [number] at told
    exact told

theorem readText (pruned : p.Pruned q) (small : q.arena.size < UInt32.size) (referring : q.Referring)
    (run covered : List Char) : StepsPruned (p.readText run covered) (q.readText run covered) := by
  unfold Builder.readText
  rw [pruned.textOwner small referring, pruned.scanner]
  cases owned : q.textOwner? with
  | none => exact .failed _
  | some owner =>
    obtain ⟨node, e, got, content⟩ := textOwnerElement owned
    have plain : node.isComment = false := by simp [Node.isComment, content]
    have still := Node.mapElementComment (fun e => e.appendText (String.ofList run)) node
    obtain ⟨_, _, kept, _⟩ := Arena.numberSame (Arena.kindsModify got still)
    refine .quiet ⟨rfl, ?_, ?_⟩
    · rw [pruned.arena]
      refine (Arena.withoutCommentsModify small got plain (still.trans plain)
        (Arena.renumberMapElement ?_ ?_ node)).symm
      · intro e children
        unfold Element.appendText
        cases e.text <;> rfl
      · intro e
        unfold Element.appendText
        split <;> rfl
    · exact pruned.stack.trans (congrFun kept q.stack).symm

theorem step (pruned : p.Pruned q) (small : q.arena.size < UInt32.size) (referring : q.Referring) :
    StepsPruned (p.step false) (q.step true) := by
  unfold Builder.step
  rw [pruned.scanner]
  split
  · exact .failed _
  · unfold Builder.readLeaf
    rw [pruned.scanner]
    exact pruned.openNode small referring _ rfl rfl rfl
  · rw [if_neg Bool.false_ne_true, if_pos rfl]
    have dropped := pruned.comment small referring
    rw [pruned.scanner] at dropped
    exact dropped _ _
  · exact pruned.readStartTag small referring _ _
  · exact pruned.readEndTag small referring _ _
  · exact pruned.readText small referring _ _

end Pruned

end Builder

namespace Build
variable {σ τ : Type} {source : List Char}

structure Prunes (source : List Char) (p : Build σ) (q : Build τ) : Prop where
  pruned : p.builder.Pruned q.builder
  sound : q.builder.Sound source
  referring : q.builder.Referring

theorem prunesStart (short : Text.byteLength source < UInt32.size) (state : σ) (other : τ) :
    Prunes source (ofSource source state) (ofSource source other) :=
  ⟨⟨rfl, rfl, rfl⟩, Builder.soundOfSource short, Builder.Referring.ofSource source⟩

theorem prunesSkip {p : Build σ} {q : Build τ} (prunes : Prunes source p q) : Prunes source p.skipBlank q.skipBlank :=
  ⟨⟨congrArg Markup.Scanner.skipBlank prunes.pruned.scanner, prunes.pruned.arena, prunes.pruned.stack⟩,
    Builder.soundSkipBlank prunes.sound, ⟨prunes.referring.arena, prunes.referring.stack⟩⟩

theorem prunesStep {p : Build σ} {q : Build τ} (prunes : Prunes source p q) :
    Builder.StepsPruned (p.builder.step false) (q.builder.step true) ∧
    ∀ next event, q.builder.step true = .ok (next, event) →
      q.builder.Step next event ∧ next.Sound source ∧ next.Referring := by
  have room := prunes.sound.room
  refine ⟨prunes.pruned.step (by omega) prunes.referring, ?_⟩
  intro next event stepped
  have step := Builder.stepCases stepped
  exact ⟨step, Builder.soundStep prunes.sound step, prunes.referring.step prunes.sound step⟩

theorem prunesTurn {p q : Build Unit} (prunes : Prunes source p q) :
    TurnsAgree (Prunes source) (fun _ _ => False) (p.turn false Receiver.silent) (q.turn true Receiver.silent) := by
  obtain ⟨steps, after⟩ := prunesStep prunes
  unfold turn
  generalize p.builder.step false = left at steps ⊢
  generalize q.builder.step true = right at steps after ⊢
  cases steps with
  | failed cause => exact .failed rfl
  | quiet pruned | dropped pruned | opened pruned | closed pruned =>
    obtain ⟨_, sound, referring⟩ := after _ _ rfl
    exact .together ⟨pruned, sound, referring⟩

end Build
end Templating
