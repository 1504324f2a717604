import Templating.Proofs.Acceptance
import Templating.Proofs.Elsewhere
import Templating.Proofs.Spacing

/-!
Blanks put in between the constructs of a template. The two builds take their turns side by side, whoever
listens: the cursors read the same tokens, the nodes are the same but for where they stand, and the analyser
comes to the same state. So the templates come to the same tree, or to the same error at the place where the
blanks leave it.
-/
namespace Templating
open Markup

/-- An error of a template, and what it is with `width` bytes put in at `place`: the same, but for the offset
of its position. -/
def CompileError.Displaced (place width : Nat) (error moved : CompileError) : Prop :=
  match error.position? with
  | none => moved = error
  | some before =>
      ∃ after, moved = error.moveTo after ∧ after.offset.toNat = Text.displaced place width before.offset.toNat

theorem CompileError.displacedAt {place width offset other : Nat} {error : CompileError} {source beside : List Char}
    (position : error.position? = some (Position.locate source offset))
    (here : (Position.locate source offset).offset.toNat = offset)
    (there : (Position.locate beside other).offset.toNat = other) (moves : other = Text.displaced place width offset) :
    error.Displaced place width (error.moveTo (Position.locate beside other)) := by
  unfold Displaced
  rw [position]
  exact ⟨_, rfl, by rw [there, here, moves]⟩

namespace Build
variable {σ : Type}

/-- Where the cursor stands as the turns of a run begin, the last one included, which finds nothing more. -/
def visits (comments : Bool) (receiver : Receiver σ) (b : Build σ) : List Nat :=
  if b.skipBlank.builder.atEnd then [b.builder.scanner.offset] else
  match _taken : b.skipBlank.turn comments receiver with
  | .error _ => [b.builder.scanner.offset]
  | .ok next => b.builder.scanner.offset :: visits comments receiver next
termination_by b.builder.scanner.rest.length
decreasing_by exact Nat.lt_of_lt_of_le (turnShortens _taken) b.builder.scanner.restSkipBlankLength

end Build

theorem Build.turnReads {σ : Type} {comments : Bool} {receiver : Receiver σ} {b next : Build σ}
    (turned : b.turn comments receiver = .ok next) :
    ∃ token, b.builder.scanner.token = .ok (token, next.builder.scanner) := by
  rcases turnOk turned with ⟨stepped, _⟩ | ⟨event, builder, arena, stepped, _, same⟩
  · exact Builder.stepReads stepped
  · obtain ⟨token, read⟩ := Builder.stepReads stepped
    rw [same]
    exact ⟨token, read⟩

theorem Build.visitsStop {σ : Type} {comments : Bool} {receiver : Receiver σ} {place : Nat} (b : Build σ)
    (member : place ∈ b.visits comments receiver) : b.builder.scanner.Stops place := by
  fun_induction visits comments receiver b with
  | case1 b ended => exact .here (List.mem_singleton.mp member).symm
  | case2 b more halt taken => exact .here (List.mem_singleton.mp member).symm
  | case3 b more next taken ih =>
    rcases List.mem_cons.mp member with same | later
    · exact .here same.symm
    · obtain ⟨token, read⟩ := turnReads taken
      exact .later read (ih later)

namespace Builder

structure Spaced (place : Nat) (blanks source beside : List Char) (p q : Builder) : Prop where
  apart : p.scanner.Apart place blanks q.scanner
  nodes : p.Elsewhere q
  sound : p.Sound source
  soundBeside : q.Sound beside

theorem Spaced.told {place : Nat} {blanks source beside : List Char} {p q : Builder}
    (spaced : Spaced place blanks source beside p q) {left right : Arena} (elsewhere : left.Elsewhere right)
    (alike : left.Alike p.arena) (alikeBeside : right.Alike q.arena) :
    Spaced place blanks source beside { p with arena := left } { q with arena := right } := by
  have same : p.Alike { p with arena := left } := ⟨rfl, rfl, Arena.alikeSymm alike⟩
  have sameBeside : q.Alike { q with arena := right } := ⟨rfl, rfl, Arena.alikeSymm alikeBeside⟩
  exact ⟨spaced.apart, ⟨spaced.nodes.stack, elsewhere⟩, soundAlike same spaced.sound, soundAlike sameBeside spaced.soundBeside⟩

end Builder

namespace Markup.Scanner
variable {s t : Scanner} {place width : Nat}

theorem illegalDisplaced (placed : s.Placed) (placedBeside : t.Placed) (short : Text.byteLength s.source < UInt32.size)
    (shortBeside : Text.byteLength t.source < UInt32.size) (moves : t.offset = Text.displaced place width s.offset)
    (reason : IllegalReason) : (s.illegal reason s.offset).Displaced place width (t.illegal reason t.offset) :=
  CompileError.displacedAt rfl (placedLocate placed short) (placedLocate placedBeside shortBeside) moves

theorem refusedDisplaced {cause moved : CompileError} (placed : s.Placed) (placedBeside : t.Placed)
    (short : Text.byteLength s.source < UInt32.size) (shortBeside : Text.byteLength t.source < UInt32.size)
    (level : Level place width s t) (refused : Refused s t cause moved) : cause.Displaced place width moved := by
  obtain ⟨reason, covered, more, rest, signs, rfl, rfl⟩ := refused
  have reaches := reachesPass rest
  have reachesBeside := reachesPass (level.rest.trans rest)
  exact illegalDisplaced (placedReaches placed reaches) (placedReaches placedBeside reachesBeside) short shortBeside
    (levelOffset level rest signs) reason

end Markup.Scanner

namespace Build
variable {options : Options} {place : Nat} {blanks source beside : List Char}

structure Spaced (place : Nat) (blanks source beside : List Char) (p q : Build Analysis) : Prop where
  builder : Builder.Spaced place blanks source beside p.builder q.builder
  state : p.state = q.state

abbrev SpacedTurns (place : Nat) (blanks source beside : List Char) :
    Except (Halt (Build Analysis)) (Build Analysis) → Except (Halt (Build Analysis)) (Build Analysis) → Prop :=
  Outcomes (Spaced place blanks source beside) (CompileError.Displaced place (Text.byteLength blanks)) fun _ _ => False

theorem spacedClosed {next other : Builder} (options : Options) (spaced : Builder.Spaced place blanks source beside next other)
    (id : NodeId) (a : Analysis) :
    SpacedTurns place blanks source beside (tell (Analysis.receiver options source) (.closed id) ⟨next, a⟩)
      (tell (Analysis.receiver options beside) (.closed id) ⟨other, a⟩) := by
  obtain ⟨state, nodes⟩ := Analysis.closedElsewhere a options id spaced.nodes.arena
  exact .together ⟨spaced.told nodes (Analysis.closedAlike options id a _) (Analysis.closedAlike options id a _), state⟩

theorem spacedOpened {next other : Builder} {node twin : Node} {id : NodeId} (options : Options)
    (spaced : Builder.Spaced place blanks source beside next other) (a : Analysis) (got : next.arena.get? id = some node)
    (gotTwin : other.arena.get? id = some twin)
    (moved : ∀ error : CompileError, error.position? = some (Position.locate source node.span.start.toNat) →
      error.Displaced place (Text.byteLength blanks) (error.moveTo (Position.locate beside twin.span.start.toNat))) :
    SpacedTurns place blanks source beside (tell (Analysis.receiver options source) (.opened id) ⟨next, a⟩)
      (tell (Analysis.receiver options beside) (.opened id) ⟨other, a⟩) := by
  unfold tell Analysis.receiver
  dsimp only
  rcases a.openedElsewhere options spaced.nodes.arena got gotTwin with
    ⟨h, k, failed, failedTwin, position, cause⟩ | ⟨after, left, right, told, toldTwin, elsewhere⟩
  · rw [failed, failedTwin]
    have displaced := moved h.cause position
    rw [← cause] at displaced
    exact .failed displaced
  · rw [told, toldTwin]
    exact .together ⟨spaced.told elsewhere (Analysis.openedAlike told) (Analysis.openedAlike toldTwin), rfl⟩

theorem spacedTold {p q next other : Builder} {event : Event} (options : Options) (sound : p.Sound source)
    (soundBeside : q.Sound beside) (step : p.Step next (some event)) (stepBeside : q.Step other (some event))
    (moves : q.scanner.offset = Text.displaced place (Text.byteLength blanks) p.scanner.offset)
    (spaced : Builder.Spaced place blanks source beside next other) (a : Analysis) :
    SpacedTurns place blanks source beside (tell (Analysis.receiver options source) event ⟨next, a⟩)
      (tell (Analysis.receiver options beside) event ⟨other, a⟩) := by
  cases event with
  | closed id => exact spacedClosed options spaced id a
  | opened id =>
    obtain ⟨node, _, _, _, got, _, start⟩ := Builder.stepOpens sound step
    obtain ⟨twin, _, _, _, gotTwin, _, startTwin⟩ := Builder.stepOpens soundBeside stepBeside
    refine spacedOpened options spaced a got gotTwin fun error position => ?_
    rw [start] at position
    rw [startTwin]
    exact CompileError.displacedAt position (Builder.soundLocate sound) (Builder.soundLocate soundBeside) moves

theorem spacedTurn (options : Options) (blank : ∀ c ∈ blanks, Text.isBlank c = true) {p q : Build Analysis}
    (spaced : Spaced place blanks source beside p q) (more : p.skipBlank.builder.atEnd = false) :
    SpacedTurns place blanks source beside (p.skipBlank.turn options.comments (Analysis.receiver options source))
      (q.skipBlank.turn options.comments (Analysis.receiver options beside)) := by
  have facing := Scanner.apartSkip blank spaced.builder.apart
  have signs : p.skipBlank.builder.scanner.rest ≠ [] := by
    intro empty
    unfold Builder.atEnd Scanner.atEnd at more
    rw [empty] at more
    contradiction
  have sound := Builder.soundSkipBlank spaced.builder.sound
  have soundBeside := Builder.soundSkipBlank spaced.builder.soundBeside
  have nodes : p.skipBlank.builder.Elsewhere q.skipBlank.builder := ⟨spaced.builder.nodes.stack, spaced.builder.nodes.arena⟩
  have moves : q.skipBlank.builder.scanner.offset = Text.displaced place (Text.byteLength blanks) p.skipBlank.builder.scanner.offset :=
    Scanner.facingOffset facing signs
  have short : Text.byteLength p.skipBlank.builder.scanner.source < UInt32.size := sound.source ▸ sound.short
  have shortBeside : Text.byteLength q.skipBlank.builder.scanner.source < UInt32.size := soundBeside.source ▸ soundBeside.short
  unfold turn
  rcases Scanner.facingTokens blank facing signs with
    ⟨token, behind, beyond, read, readBeside, apart⟩ | ⟨cause, moved, failed, failedBeside, refused, level⟩
  · have puts := Builder.putElsewhere nodes options.comments behind beyond token
    have taken : p.skipBlank.builder.step options.comments = p.skipBlank.builder.put options.comments behind token :=
      Builder.stepTaken read _
    have takenBeside : q.skipBlank.builder.step options.comments = q.skipBlank.builder.put options.comments beyond token :=
      Builder.stepTaken readBeside _
    rw [← taken, ← takenBeside] at puts
    generalize left : p.skipBlank.builder.step options.comments = first at puts ⊢
    generalize right : q.skipBlank.builder.step options.comments = second at puts ⊢
    cases puts with
    | refused reason =>
      exact .failed (Scanner.illegalDisplaced sound.placed soundBeside.placed short shortBeside moves reason)
    | @taken next other event elsewhere behindNext behindOther =>
      have step := Builder.stepCases left
      have stepBeside := Builder.stepCases right
      have spacedNext : Builder.Spaced place blanks source beside next other :=
        ⟨by rw [behindNext, behindOther]; exact apart, elsewhere, Builder.soundStep sound step,
          Builder.soundStep soundBeside stepBeside⟩
      cases event with
      | none => exact .together ⟨spacedNext, spaced.state⟩
      | some event =>
        have told := spacedTold options sound soundBeside step stepBeside moves spacedNext p.skipBlank.state
        have same : q.skipBlank.state = p.skipBlank.state := spaced.state.symm
        dsimp only
        rw [same]
        exact told
  · have left : p.skipBlank.builder.step options.comments = .error cause := Builder.stepRefused failed _
    have right : q.skipBlank.builder.step options.comments = .error moved := Builder.stepRefused failedBeside _
    rw [left, right]
    exact .failed (Scanner.refusedDisplaced sound.placed soundBeside.placed short shortBeside level refused)

abbrev analysed (options : Options) (source : List Char) : Except (Halt (Build Analysis)) (Build Analysis) :=
  buildWith options (Analysis.receiver options source) Analysis.start source

theorem spacedRun {first blanks second : List Char} (options : Options)
    (short : Text.byteLength (first ++ (blanks ++ second)) < UInt32.size)
    (blank : ∀ c ∈ blanks, Text.isBlank c = true)
    (stops : Text.trimStart first ≠ [] → Text.trimEnd second ≠ [] →
      (Scanner.ofSource (first ++ second)).Stops (Text.byteLength first)) :
    (∃ last other, analysed options (first ++ second) = .ok last ∧
      analysed options (first ++ (blanks ++ second)) = .ok other ∧ last.builder.Elsewhere other.builder) ∨
    ∃ h k, analysed options (first ++ second) = .error h ∧ analysed options (first ++ (blanks ++ second)) = .error k ∧
      h.cause.Displaced (Text.byteLength first) (Text.byteLength blanks) k.cause := by
  have shorter : Text.byteLength (first ++ second) < UInt32.size := by
    simp only [Text.byteLengthAppend] at short ⊢
    omega
  have start : Spaced (Text.byteLength first) blanks (first ++ second) (first ++ (blanks ++ second))
      (ofSource (first ++ second) Analysis.start) (ofSource (first ++ (blanks ++ second)) Analysis.start) :=
    ⟨⟨Scanner.apartStart blank stops, ⟨rfl, rfl⟩, Builder.soundOfSource shorter, Builder.soundOfSource short⟩, rfl⟩
  rcases runsCorrespond options.comments options.comments
      (fun p q spaced => Scanner.facingAtEnd (Scanner.apartSkip blank spaced.builder.apart))
      (fun p q spaced more => spacedTurn options blank spaced more) start with
    ⟨last, other, ran, ranBeside, spaced⟩ | failed | ⟨_, _, _, _, impossible⟩
  · exact Or.inl ⟨_, _, ran, ranBeside, spaced.builder.nodes.stack, spaced.builder.nodes.arena⟩
  · exact Or.inr failed
  · exact absurd impossible id

end Build

namespace Ast

theorem elsewhereShown {ast other : Ast} (root : ast.root = other.root) (elsewhere : ast.arena.Elsewhere other.arena) :
    ast.json? = other.json? ∧ ast.listing? = other.listing? := by
  have trees : ast.tree?.map Tree.unplaced = other.tree?.map Tree.unplaced := by
    unfold tree? Arena.tree?
    rw [root, Arena.agreeSize elsewhere]
    exact Arena.elsewhereTree elsewhere _ _
  unfold json? listing?
  rw [Option.map_eq_bind, Option.map_eq_bind, Option.map_eq_bind, Option.map_eq_bind]
  refine ⟨bindAlike trees fun a b same => congrArg some ?_, bindAlike trees fun a b same => congrArg some ?_⟩
  · rw [← a.jsonUnplaced, same, b.jsonUnplaced]
  · have lines : Tree.linesAll 0 [a] = Tree.linesAll 0 [b] := by
      rw [← Tree.linesUnplacedAll 0 [a], ← Tree.linesUnplacedAll 0 [b], Tree.unplacedAll, same]
      rfl
    exact congrArg (fun lines => String.join (lines.map (· ++ "\n"))) lines

theorem shownOfForest {arena : Arena} {root : NodeId} {trees : List Tree} (shown : arena.forest? [root] = some trees) :
    ∃ json listing, (Ast.mk arena root).json? = some json ∧ (Ast.mk arena root).listing? = some listing := by
  obtain ⟨tree, seen⟩ : ∃ tree, arena.tree? root = some tree := by
    unfold Arena.forest? at shown
    rw [List.mapM_cons, Option.bind_eq_bind, Option.bind_eq_some_iff] at shown
    obtain ⟨tree, seen, _⟩ := shown
    exact ⟨tree, seen⟩
  have whole : (Ast.mk arena root).tree? = some tree := seen
  exact ⟨tree.json, Tree.listing [tree], congrArg (Option.map Tree.json) whole,
    congrArg (Option.map fun tree => Tree.listing [tree]) whole⟩

end Ast

theorem parsedElsewhere {options : Options} {template beside : String} {left right : Forest}
    (analysed : analyse options template = .ok left) (analysedBeside : analyse options beside = .ok right)
    (roots : left.roots = right.roots) :
    (∃ root, left.roots = [root] ∧ parseWith options template = .ok ⟨left.arena, root⟩ ∧
      parseWith options beside = .ok ⟨right.arena, root⟩) ∨
    ∃ count, parseWith options template = .error (.rootNodeCount count) ∧
      parseWith options beside = .error (.rootNodeCount count) := by
  rcases parseAnalysed analysed with ⟨root, single, parsed⟩ | ⟨several, failed⟩
  · rcases parseAnalysed analysedBeside with ⟨other, singleBeside, parsedBeside⟩ | ⟨several, _⟩
    · obtain rfl := List.singleton_inj.mp (single.symm.trans (roots.trans singleBeside))
      exact Or.inl ⟨root, single, parsed, parsedBeside⟩
    · rw [← roots, single] at several
      exact absurd rfl several
  · rcases parseAnalysed analysedBeside with ⟨other, singleBeside, _⟩ | ⟨_, failedBeside⟩
    · rw [roots, singleBeside] at several
      exact absurd rfl several
    · rw [← roots] at failedBeside
      exact Or.inr ⟨_, failed, failedBeside⟩

theorem compiledElsewhere {plain spaced : String} {last other : Build Analysis} (short : plain.utf8ByteSize < UInt32.size)
    (ran : Build.analysed Options.standard plain.toList = .ok last)
    (ranBeside : Build.analysed Options.standard spaced.toList = .ok other) (nodes : last.builder.Elsewhere other.builder) :
    (∃ compiled beside json listing, compile plain = .ok compiled ∧ compile spaced = .ok beside ∧
      compiled.json? = some json ∧ beside.json? = some json ∧
      compiled.ast.listing? = some listing ∧ beside.ast.listing? = some listing) ∨
    ∃ count, compile plain = .error (.rootNodeCount count) ∧ compile spaced = .error (.rootNodeCount count) := by
  have analysed : analyse Options.standard plain = .ok last.forest := congrArg forestOf ran
  have analysedBeside : analyse Options.standard spaced = .ok other.forest := congrArg forestOf ranBeside
  have roots : last.forest.roots = other.forest.roots := congrArg List.reverse nodes.stack
  unfold compile parse
  rcases parsedElsewhere analysed analysedBeside roots with ⟨root, single, parsed, parsedBeside⟩ | ⟨count, left, right⟩
  · rw [← Text.byteLengthToList] at short
    obtain ⟨ordered, sound⟩ := Build.orderedRun short (Analysis.receiverAlike _ _) ran
    obtain ⟨⟨trees, shown, _⟩, _⟩ := Builder.orderedForest ordered sound
    have top : last.builder.arena.forest? [root] = some trees := by
      rw [← single]
      exact shown
    obtain ⟨json, listing, encoded, listed⟩ := Ast.shownOfForest top
    have same : (Ast.mk last.forest.arena root).json? = (Ast.mk other.forest.arena root).json? ∧
        (Ast.mk last.forest.arena root).listing? = (Ast.mk other.forest.arena root).listing? :=
      Ast.elsewhereShown rfl nodes.arena
    rw [parsed, parsedBeside]
    exact Or.inl ⟨_, _, _, listing, rfl, rfl, congrArg (Option.map _) encoded,
      congrArg (Option.map _) (same.1.symm.trans encoded), listed, same.2.symm.trans listed⟩
  · rw [left, right]
    exact Or.inr ⟨count, rfl, rfl⟩

theorem compileFailed {template : String} {h : Halt (Build Analysis)}
    (failed : Build.analysed Options.standard template.toList = .error h) : compile template = .error h.cause := by
  have analysed : analyse Options.standard template = .error h.cause := congrArg forestOf failed
  unfold compile parse parseWith
  rw [analysed]
  rfl

/-
Blanks between two constructs are insignificant. Put in where the cursor comes to stand as some turn of the
build begins, whoever listens to it, or in front of the template or behind it, they make no difference to the
tree that is compiled, as it is encoded and as it is listed; and a template that is refused is refused for the
same error, with its offset moved along where it is not before the blanks.
-/
theorem blanksInsignificant {σ : Type} (receiver : Receiver σ) (state : σ) {first blanks second : String}
    (short : (first ++ blanks ++ second).utf8ByteSize < UInt32.size) (blank : ∀ c ∈ blanks.toList, Text.isBlank c = true)
    (between : first = "" ∨ second = "" ∨
      first.utf8ByteSize ∈ (Build.ofSource (first ++ second).toList state).visits true receiver) :
    (∃ plain spaced json listing, compile (first ++ second) = .ok plain ∧ compile (first ++ blanks ++ second) = .ok spaced ∧
      plain.json? = some json ∧ spaced.json? = some json ∧
      plain.ast.listing? = some listing ∧ spaced.ast.listing? = some listing) ∨
    ∃ error moved, compile (first ++ second) = .error error ∧ compile (first ++ blanks ++ second) = .error moved ∧
      error.Displaced first.utf8ByteSize blanks.utf8ByteSize moved := by
  have source : (first ++ second).toList = first.toList ++ second.toList := String.toList_append
  have beside : (first ++ blanks ++ second).toList = first.toList ++ (blanks.toList ++ second.toList) := by
    rw [String.toList_append, String.toList_append, List.append_assoc]
  have stops : Text.trimStart first.toList ≠ [] → Text.trimEnd second.toList ≠ [] →
      (Scanner.ofSource (first.toList ++ second.toList)).Stops (Text.byteLength first.toList) := by
    intro leading trailing
    rcases between with rfl | rfl | member
    · exact absurd rfl leading
    · exact absurd rfl trailing
    · have stops := Build.visitsStop _ member
      rw [source] at stops
      rw [Text.byteLengthToList]
      exact stops
  have shorter : (first ++ second).utf8ByteSize < UInt32.size := by
    simp only [String.utf8ByteSize_append] at short ⊢
    omega
  rw [← Text.byteLengthToList, beside] at short
  have runs := Build.spacedRun Options.standard short blank stops
  rw [← source, ← beside, Text.byteLengthToList, Text.byteLengthToList] at runs
  rcases runs with ⟨last, other, ran, ranBeside, nodes⟩ | ⟨h, k, failed, failedBeside, displaced⟩
  · rcases compiledElsewhere shorter ran ranBeside nodes with compiled | ⟨count, left, right⟩
    · exact Or.inl compiled
    · exact Or.inr ⟨_, _, left, right, rfl⟩
  · exact Or.inr ⟨_, _, compileFailed failed, compileFailed failedBeside, displaced⟩

def openRun : String := "<p>a"

def lineEnd : String := " \n"

def paragraphEnd : String := "</p>"

def strayEnd : String := "</b></p>"

theorem blanksBehindText :
    (openRun ++ lineEnd ++ paragraphEnd).utf8ByteSize < UInt32.size ∧
    (∃ plain spaced json, compile (openRun ++ paragraphEnd) = .ok plain ∧ compile (openRun ++ lineEnd ++ paragraphEnd) = .ok spaced ∧
      plain.json? = some json ∧ spaced.json? = some json) ∧
    ∃ error moved, compile (openRun ++ strayEnd) = .error error ∧ compile (openRun ++ lineEnd ++ strayEnd) = .error moved ∧
      error.Displaced 4 2 moved := by
  have short : (openRun ++ lineEnd ++ paragraphEnd).utf8ByteSize < UInt32.size := by decide
  have blank : ∀ c ∈ lineEnd.toList, Text.isBlank c = true := List.all_eq_true.mp (by decide)
  have visits : openRun.utf8ByteSize ∈ (Build.ofSource (openRun ++ paragraphEnd).toList Analysis.start).visits true
      (Analysis.receiver Options.standard (openRun ++ paragraphEnd).toList) := by decide +kernel
  have visitsWrong : openRun.utf8ByteSize ∈ (Build.ofSource (openRun ++ strayEnd).toList Analysis.start).visits true
      (Analysis.receiver Options.standard (openRun ++ strayEnd).toList) := by decide +kernel
  have accepted : (compile (openRun ++ paragraphEnd)).isOk = true := by decide +kernel
  have refused : (compile (openRun ++ strayEnd)).isOk = false := by decide +kernel
  refine ⟨short, ?_, ?_⟩
  · rcases blanksInsignificant _ _ short blank (Or.inr (Or.inr visits)) with
      ⟨plain, spaced, json, _, left, right, encoded, encodedSpaced, _⟩ | ⟨error, _, left, _⟩
    · exact ⟨plain, spaced, json, left, right, encoded, encodedSpaced⟩
    · rw [left] at accepted
      exact absurd accepted Bool.false_ne_true
  · rcases blanksInsignificant _ _ (by decide) blank (Or.inr (Or.inr visitsWrong)) with
      ⟨plain, _, _, _, left, _⟩ | ⟨error, moved, left, right, displaced⟩
    · rw [left] at refused
      exact absurd refused.symm Bool.false_ne_true
    · exact ⟨error, moved, left, right, displaced⟩

end Templating
