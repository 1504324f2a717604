import Templating.Proofs.Following
import Templating.Proofs.Undisturbed

/-!
Which templates are accepted, told from the notices of a build that is not analysed: those with one
root in which every element that is not raw keeps the rules. Where one does not, the first such rule
of the first such element is the error.
-/
namespace Templating

namespace Journal

theorem watches : (Journal.receiver none Receiver.silent).Watches := by
  intro event journal arena
  exact ⟨journal.record event () arena none, rfl⟩

end Journal

namespace Build

structure Tracks (options : Options) (source : List Char) (p : Build (Journal Unit)) (q : Build Analysis) : Prop where
  alike : p.builder.Alike q.builder
  sound : p.builder.Sound source
  recorded : Recorded p.state.latest p.builder
  followed : Followed p.state.latest q.state
  judged : Judged options p.state.latest q.builder.arena
  lawful : (openings p.state.latest).findSome? (Opening.fault? options source) = none

def FaultFound (options : Options) (source : List Char) (p : Build (Journal Unit)) (cause : CompileError) : Prop :=
  (openings p.state.latest).findSome? (Opening.fault? options source) = some cause

theorem tracksStart (options : Options) {source : List Char} (short : Text.byteLength source < UInt32.size) :
    Tracks options source (ofSource source (Journal.ofState ())) (ofSource source Analysis.start) :=
  ⟨⟨rfl, rfl, rfl⟩, Builder.soundOfSource short, Recorded.start source, Followed.start, Judged.start options source, rfl⟩

variable {comments : Bool} {options : Options} {source : List Char} {p : Build (Journal Unit)} {q : Build Analysis}

theorem tracksQuiet (tracks : Tracks options source p q) {next other : Builder} (stepped : p.builder.Step next none)
    (steppedOther : q.builder.Step other none) (alike : next.Alike other) :
    Tracks options source ⟨next, p.state⟩ ⟨other, q.state⟩ :=
  ⟨alike, Builder.soundStep tracks.sound stepped, tracks.recorded.quiet stepped, tracks.followed,
    tracks.judged.kept (Builder.stepTraits steppedOther), tracks.lawful⟩

theorem tracksSkip (tracks : Tracks options source p q) : Tracks options source p.skipBlank q.skipBlank :=
  ⟨Builder.alikeSkipBlank tracks.alike, Builder.soundSkipBlank tracks.sound,
    ⟨tracks.recorded.known, tracks.recorded.once, tracks.recorded.within, tracks.recorded.stack,
      tracks.recorded.elements⟩, tracks.followed, tracks.judged, tracks.lawful⟩

theorem openedBoth (tracks : Tracks options source p q) {next other : Builder} {id : NodeId}
    (stepped : p.builder.Step next (some (.opened id)))
    (pushed : ∃ node, next.arena = p.builder.arena.push node ∧ other.arena = q.builder.arena.push node) :
    ∃ node, next.arena.get? id = some node ∧ other.arena.get? id = some node ∧ node.Fresh := by
  obtain ⟨node, left, right⟩ := pushed
  obtain ⟨opened, _, _, index, got, fresh, _⟩ := Builder.stepOpens tracks.sound stepped
  rw [left, Arena.getPush, if_pos index] at got
  cases got
  have size := Arena.alikeSize tracks.alike.arena
  refine ⟨node, ?_, ?_, fresh⟩
  · rw [left, Arena.getPush, if_pos index]
  · rw [right, Arena.getPush, if_pos (by omega)]

theorem lawfulAppend {past : List (Entry Unit)} (entry : Entry Unit)
    (lawful : (openings past).findSome? (Opening.fault? options source) = none) :
    (openings (entry :: past)).findSome? (Opening.fault? options source) =
      (entry.opening? past).bind (Opening.fault? options source) := by
  rw [openings, List.findSome?_append, lawful, Option.none_or]
  cases entry.opening? past <;> simp

theorem tracksClosed (entry : Entry Unit) (tracks : Tracks options source p q) {next other : Builder} {id : NodeId}
    (stepped : p.builder.Step next (some (.closed id))) (steppedOther : q.builder.Step other (some (.closed id)))
    (alike : next.Alike other) (event : entry.event = .closed id) (here : entry.node = next.arena.get? id) :
    Tracks options source ⟨next, ⟨(), entry :: p.state.latest⟩⟩
      ⟨{ other with arena := (Analysis.closed options id q.state other.arena).2 },
        (Analysis.closed options id q.state other.arena).1⟩ := by
  obtain ⟨recorded, inner, outer, o, split, rfl, remaining⟩ := tracks.recorded.closed stepped event
  have member : o ∈ openings p.state.latest := openElementsMember (by rw [split]; simp)
  have judged := tracks.judged.kept (Builder.stepTraits steppedOther)
  -- the node told of has the name of the element that was opened
  obtain ⟨analysed, found, traits⟩ := Option.map_eq_some_iff.mp (judged.openings o member)
  have outlines := Arena.alikeGet alike.arena o.id
  rw [found] at outlines
  obtain ⟨node, got, same⟩ := Option.map_eq_some_iff.mp outlines
  have typeName : node.typeName = o.element.tag :=
    (Node.outlineTypeName same).trans (congrArg Traits.typeName traits)
  have kept := Analysis.closedAlike options o.id q.state other.arena
  refine ⟨⟨alike.scanner, alike.stack, alike.arena.trans kept.symm⟩, Builder.soundStep tracks.sound stepped, recorded,
    ?_, ?_, ?_⟩
  · exact tracks.followed.closed event (here.trans got) (openSinceDistinct tracks.recorded.once) split remaining
      options other.arena
  · exact (judged.closed member event (here.trans got) typeName).kept (Analysis.closedTraits options o.id q.state other.arena)
  · rw [lawfulAppend entry tracks.lawful, openingClosed event]
    rfl

theorem tracksOpened (entry : Entry Unit) (tracks : Tracks options source p q) {next other : Builder} {id : NodeId}
    (stepped : p.builder.Step next (some (.opened id))) (steppedOther : q.builder.Step other (some (.opened id)))
    (alike : next.Alike other)
    (pushed : ∃ node, next.arena = p.builder.arena.push node ∧ other.arena = q.builder.arena.push node)
    (event : entry.event = .opened id) (here : entry.node = next.arena.get? id) :
    (∃ after arena, Analysis.opened options source id q.state other.arena = .ok (after, arena) ∧
      Tracks options source ⟨next, ⟨(), entry :: p.state.latest⟩⟩ ⟨{ other with arena }, after⟩) ∨
    ∃ halt, Analysis.opened options source id q.state other.arena = .error halt ∧
      FaultFound options source ⟨next, ⟨(), entry :: p.state.latest⟩⟩ halt.cause := by
  obtain ⟨node, got, gotOther, fresh⟩ := openedBoth tracks stepped pushed
  obtain ⟨_, _, _, index, _, _, _⟩ := Builder.stepOpens tracks.sound stepped
  have others : ∀ entry ∈ p.state.latest, entry.event.id ≠ id := by
    intro entry member same
    have known := tracks.recorded.known entry member
    rw [same] at known
    omega
  have outside : q.state.verbatim ≠ some id := by
    intro inside
    obtain ⟨o, member, same⟩ := tracks.followed.verbatimOpen inside
    exact Judged.openingsOther others o (openElementsMember member) same
  have sound := Builder.soundStep tracks.sound stepped
  have recorded := tracks.recorded.opened tracks.sound stepped event here
  have judged := tracks.judged.kept (Builder.stepTraits steppedOther)
  have told := here.trans got
  have still {after : Analysis} {arena : Arena}
      (ok : Analysis.opened options source id q.state other.arena = .ok (after, arena)) :
      next.Alike { other with arena } :=
    ⟨alike.scanner, alike.stack, alike.arena.trans (Analysis.openedAlike ok).symm⟩
  rcases node.contentCases with ⟨e, content⟩ | leaf
  · have rule := judged.refuses tracks.followed source id node e
    have first := lawfulAppend entry tracks.lawful
    rw [openingElement event told content, Option.bind_some, ← rule] at first
    cases refused : q.state.refuses? options source other.arena node e with
    | some cause =>
      obtain ⟨state, failed⟩ := Analysis.openedRefused gotOther content refused
      rw [refused] at first
      exact Or.inr ⟨⟨cause, state⟩, failed, first⟩
    | none =>
      obtain ⟨f, ok, admitted⟩ := Analysis.openedAdmitted gotOther content refused
      rw [refused] at first
      rw [rule] at refused
      rw [tracks.followed.takesLiterally options id node e] at admitted
      have lawful (plain : (Opening.mk p.state.latest id node e).raw options = false) :
          Directive.fault? ((Opening.mk p.state.latest id node e).surroundings options source) e = none := by
        rw [Opening.fault?, plain] at refused
        exact refused
      obtain ⟨tag, conditional, looping⟩ := Judged.admittedTraits (fresh.element e content) admitted lawful
      exact Or.inl ⟨_, _, ok, still ok, sound, recorded, tracks.followed.element event told content outside,
        judged.element others event told content gotOther rfl tag conditional looping, first⟩
  · have ok := Analysis.openedLeaf q.state options source gotOther leaf
    have done : node.done = true := fresh.leaf (Node.leafIsElement leaf)
    rw [if_pos done] at ok
    refine Or.inl ⟨_, _, ok, still ok, sound, recorded, tracks.followed.leaf event told leaf done outside,
      judged.leaf others event told leaf done gotOther rfl, ?_⟩
    rw [lawfulAppend entry tracks.lawful, openingLeaf told leaf]
    rfl

theorem tracksTurn (tracks : Tracks options source p q) :
    TurnsAgree (Tracks options source) (FaultFound options source)
      (p.turn comments (Journal.receiver none Receiver.silent)) (q.turn comments (Analysis.receiver options source)) := by
  rcases turnsSideBySide comments (Analysis.receiver options source) Journal.watches
      tracks.alike with
    ⟨cause, _, left, right⟩ | ⟨next, other, stepped, steppedOther, alike, left, right⟩ |
    ⟨next, other, event, state, stepped, steppedOther, alike, pushed, told, left, right⟩
  · rw [left, right]
    exact .failed rfl
  · rw [left, right]
    exact .together (tracksQuiet tracks (Builder.stepCases stepped) (Builder.stepCases steppedOther) alike)
  · have entry : state = p.state.record event () next.arena none := by
      cases told
      rfl
    rw [left, right, entry]
    unfold tell
    cases event with
    | opened id =>
      rcases tracksOpened ⟨.opened id, next.arena.get? id, (), none⟩ tracks (Builder.stepCases stepped)
          (Builder.stepCases steppedOther) alike (pushed id rfl) rfl rfl with
        ⟨after, arena, ok, related⟩ | ⟨halt, failed, found⟩
      · simp only [Analysis.receiver, ok]
        exact .together related
      · simp only [Analysis.receiver, failed]
        exact .stopped found
    | closed id =>
      exact .together (tracksClosed ⟨.closed id, next.arena.get? id, (), none⟩ tracks (Builder.stepCases stepped)
        (Builder.stepCases steppedOther) alike rfl rfl)

end Build

theorem singleRootCases (roots : List NodeId) :
    (∃ root, roots = [root] ∧ singleRoot roots = .ok root) ∨
    roots.length ≠ 1 ∧ singleRoot roots = .error (.rootNodeCount roots.length) := by
  match roots with
  | [] => exact Or.inr ⟨by simp, rfl⟩
  | [root] => exact Or.inl ⟨root, rfl, rfl⟩
  | first :: second :: rest => exact Or.inr ⟨by simp, rfl⟩

theorem parseAnalysed {options : Options} {template : String} {forest : Forest}
    (analysed : analyse options template = .ok forest) :
    (∃ root, forest.roots = [root] ∧ parseWith options template = .ok ⟨forest.arena, root⟩) ∨
    forest.roots.length ≠ 1 ∧ parseWith options template = .error (.rootNodeCount forest.roots.length) := by
  unfold parseWith
  rw [analysed]
  rcases singleRootCases forest.roots with ⟨root, roots, single⟩ | ⟨several, failed⟩
  · exact Or.inl ⟨root, roots, by simp only [bind, Except.bind, single]; rfl⟩
  · exact Or.inr ⟨several, by simp only [bind, Except.bind, failed]⟩

theorem parsedForest {options : Options} {template : String} {ast : Ast} (accepted : parseWith options template = .ok ast) :
    ∃ forest, analyse options template = .ok forest ∧ forest.roots = [ast.root] ∧ forest.arena = ast.arena := by
  cases analysed : analyse options template with
  | error cause =>
    simp only [parseWith, analysed, bind, Except.bind] at accepted
    contradiction
  | ok forest =>
    rcases parseAnalysed analysed with ⟨root, roots, parsed⟩ | ⟨_, failed⟩
    · cases parsed.symm.trans accepted
      exact ⟨forest, rfl, roots, rfl⟩
    · rw [failed] at accepted
      contradiction

end Templating
