import Templating.Proofs.Dropping
import Templating.Proofs.Settling

/-!
Comments and the analysis. Where the build that keeps comments tells the analyser of one, the other tells
it of nothing; and the analyser takes a comment for the node finished last, which is a thing that only the
rules for conditional chains ask about, and which then breaks them. So what is let in with the comments is
let in without them, as the same, and the tree that comes out is the other one with its comments left out.
-/
namespace Templating

namespace Arena
variable {arena changed : Arena} {id other : NodeId} {node : Node}

def Retains (arena : Arena) (id : NodeId) : Prop := id.index < arena.size ∧ arena.isComment id = false

theorem retainsGet (retains : arena.Retains id) : ∃ node, arena.get? id = some node ∧ node.isComment = false := by
  cases got : arena.get? id with
  | none => exact absurd retains.1 (Nat.not_lt.mpr (getNone.mp got))
  | some node => exact ⟨node, rfl, (isCommentOf got).symm.trans retains.2⟩

theorem retainsOf (got : arena.get? id = some node) (plain : node.isComment = false) : arena.Retains id :=
  ⟨getInside got, (isCommentOf got).trans plain⟩

theorem numberRetained (small : arena.size < UInt32.size) (here : arena.Retains id) (there : arena.Retains other) :
    arena.number other = arena.number id ↔ other = id := by
  obtain ⟨node, got, plain⟩ := retainsGet here
  obtain ⟨seen, gotOther, plainOther⟩ := retainsGet there
  exact ⟨numberInjective small gotOther plainOther got plain, congrArg arena.number⟩

theorem elementNumber (small : arena.size < UInt32.size) (retains : arena.Retains id) :
    arena.withoutComments.element? (arena.number id) =
      (arena.element? id).map fun e => { e with children := arena.kept e.children } := by
  obtain ⟨node, got, plain⟩ := retainsGet retains
  unfold element?
  rw [getNumber small got plain, got]
  exact renumberElement node

/- The nodes that there were have the ids that they had, with the comments and without them. -/
structure NumberedAlike (arena changed : Arena) : Prop where
  size : arena.size ≤ changed.size
  comment : ∀ id, id.index < arena.size → changed.isComment id = arena.isComment id
  number : ∀ id, id.index < arena.size → changed.number id = arena.number id

theorem NumberedAlike.ofKinds (kinds : changed.nodes.toList.map Node.isComment = arena.nodes.toList.map Node.isComment) :
    arena.NumberedAlike changed := by
  obtain ⟨comment, number, _⟩ := numberSame kinds
  refine ⟨?_, fun id _ => congrFun comment id, fun id _ => congrFun number id⟩
  have length := congrArg List.length kinds
  rw [List.length_map, List.length_map, Array.length_toList, Array.length_toList] at length
  exact Nat.le_of_eq length.symm

theorem NumberedAlike.push (arena : Arena) (node : Node) : arena.NumberedAlike (arena.push node) :=
  ⟨by rw [sizePush]; omega, fun _ inside => isCommentPush inside node,
    fun _ inside => numberPush (Nat.le_of_lt inside) node⟩

theorem NumberedAlike.retains (alike : arena.NumberedAlike changed) (retains : arena.Retains id) : changed.Retains id :=
  ⟨Nat.lt_of_lt_of_le retains.1 alike.size, (alike.comment id retains.1).trans retains.2⟩

end Arena

theorem Builder.stepNumbered {source : List Char} {b next : Builder} {event : Option Event} (sound : b.Sound source)
    (h : b.Step next event) : b.arena.NumberedAlike next.arena := by
  match event with
  | none =>
    rcases stepQuietCases h with same | ⟨owner, run, owned, arena⟩
    · rw [same]
      exact .ofKinds rfl
    · obtain ⟨node, e, got, _⟩ := textOwnerElement owned
      rw [arena]
      exact .ofKinds (Arena.kindsModify got (Node.mapElementComment _ node))
  | some (.opened id) =>
    obtain ⟨node, arena, _⟩ := stepOpens sound h
    rw [arena]
    exact .push b.arena node
  | some (.closed id) =>
    obtain ⟨above, _, node, _, _, got, _, _, arena⟩ := stepCloses h
    rw [arena]
    exact .ofKinds (Arena.kindsModify got (Node.closeComment above.reverse next.scanner.offset node))

namespace Analysis

structure Pruned (a c : Analysis) (arena : Arena) : Prop where
  parents : a.parents = c.parents.map arena.number
  verbatim : a.verbatim = c.verbatim.map arena.number
  previous : ∀ m, c.previous = some m → arena.isComment m = false → a.previous = some (arena.number m)
  above : ∀ id ∈ c.parents, arena.Retains id
  owner : ∀ id, c.verbatim = some id → arena.Retains id
  finished : ∀ m, c.previous = some m → m.index < arena.size

theorem openedKinds {options : Options} {source : List Char} {id : NodeId} {c after : Analysis} {arena changed : Arena}
    {node : Node} (got : arena.get? id = some node)
    (told : opened options source id c arena = .ok (after, changed)) :
    changed.nodes.toList.map Node.isComment = arena.nodes.toList.map Node.isComment := by
  obtain ⟨⟨content, shape, rfl⟩, _⟩ := openedPlaces got told
  refine Arena.kindsModify got (Node.outlineComment ?_)
  simp only [Node.outline, shape]

theorem closedKinds (options : Options) (id : NodeId) (c : Analysis) {arena : Arena} (retains : arena.Retains id) :
    (closed options id c arena).2.nodes.toList.map Node.isComment = arena.nodes.toList.map Node.isComment := by
  obtain ⟨node, got, _⟩ := Arena.retainsGet retains
  rw [closedArena]
  split
  · rfl
  · exact Arena.kindsModify got (Node.mapElementComment _ node)

theorem closedReferring (options : Options) (id : NodeId) (c : Analysis) {arena : Arena} (referring : arena.Referring) :
    (closed options id c arena).2.Referring := by
  have same (e : Element) : (if options.isRawText e.tag then e else collectData options.delimiters e).children =
      e.children := by
    unfold collectData
    split
    · rfl
    · split <;> rfl
  rw [closedArena]
  split
  · exact referring
  · refine Arena.referringModify referring ?_ ?_
    · intro node got child member
      rw [(Builder.mapElementChildren same).1] at member
      exact referring.children id node got child member
    · intro node got p up
      rw [Node.mapElementParent] at up
      exact referring.parent id node got p up

namespace Pruned
variable {options : Options} {source : List Char} {a c : Analysis} {arena changed : Arena} {id : NodeId} {node : Node}
  {e : Element} {after : Analysis}

theorem start (source : List Char) : Pruned Analysis.start Analysis.start (Builder.ofSource source).arena := by
  refine ⟨rfl, rfl, ?_, ?_, ?_, ?_⟩
  · intro m impossible
    contradiction
  · intro id impossible
    contradiction
  · intro id impossible
    contradiction
  · intro m impossible
    contradiction

theorem kept (pruned : Pruned a c arena) (alike : arena.NumberedAlike changed) : Pruned a c changed := by
  refine ⟨?_, ?_, ?_, fun id member => alike.retains (pruned.above id member),
    fun id same => alike.retains (pruned.owner id same),
    fun m same => Nat.lt_of_lt_of_le (pruned.finished m same) alike.size⟩
  · rw [pruned.parents]
    exact List.map_congr_left fun id member => (alike.number id (pruned.above id member).1).symm
  · rw [pruned.verbatim]
    exact Option.map_congr fun id same => (alike.number id (pruned.owner id same).1).symm
  · intro m same plain
    have inside := pruned.finished m same
    rw [alike.number m inside]
    exact pruned.previous m same ((alike.comment m inside).symm.trans plain)

theorem inVerbatim (pruned : Pruned a c arena) : a.inVerbatim = c.inVerbatim := by
  unfold Analysis.inVerbatim
  rw [pruned.verbatim, Option.isSome_map]

theorem enter (pruned : Pruned a c arena) (here : arena.Retains id) (e : Element) :
    Pruned (a.enter (arena.number id) e) (c.enter id e) arena := by
  unfold Analysis.enter
  rw [pruned.inVerbatim]
  split
  · refine ⟨pruned.parents, rfl, pruned.previous, pruned.above, ?_, pruned.finished⟩
    intro owner same
    cases same
    exact here
  · exact pruned

theorem finish (pruned : Pruned a c arena) (small : arena.size < UInt32.size) (here : arena.Retains id) :
    Pruned (a.finish (arena.number id)) (c.finish id) arena := by
  have reading : a.verbatim = some (arena.number id) ↔ c.verbatim = some id := by
    rw [pruned.verbatim, Option.map_eq_some_iff]
    constructor
    · rintro ⟨owner, same, number⟩
      rw [same, (Arena.numberRetained small here (pruned.owner owner same)).mp number]
    · intro same
      exact ⟨id, same, rfl⟩
  have latest (m : NodeId) (same : some id = some m) : some (arena.number id) = some (arena.number m) :=
    congrArg (Option.map arena.number) same
  have inside (m : NodeId) (same : some id = some m) : m.index < arena.size := by
    cases same
    exact here.1
  unfold Analysis.finish leave
  by_cases ends : c.verbatim = some id
  · rw [if_pos ends, if_pos (reading.mpr ends)]
    exact ⟨pruned.parents, rfl, fun m same _ => latest m same, pruned.above, fun _ impossible => by contradiction, inside⟩
  · rw [if_neg ends, if_neg fun same => ends (reading.mp same)]
    exact ⟨pruned.parents, pruned.verbatim, fun m same _ => latest m same, pruned.above, pruned.owner, inside⟩

theorem finishComment (pruned : Pruned a c arena) (inside : id.index < arena.size) (comment : arena.isComment id = true) :
    Pruned a (c.finish id) arena := by
  have other : c.verbatim ≠ some id := fun same => by
    have retained := (pruned.owner id same).2
    rw [comment] at retained
    contradiction
  rw [finishFresh other]
  refine ⟨pruned.parents, pruned.verbatim, ?_, pruned.above, pruned.owner, ?_⟩
  · intro m same plain
    cases same
    rw [comment] at plain
    contradiction
  · intro m same
    cases same
    exact inside

theorem noteOpened (pruned : Pruned a c arena) (small : arena.size < UInt32.size) (here : arena.Retains id) (node : Node) :
    Pruned (a.noteOpened (arena.number id) node) (c.noteOpened id node) arena := by
  unfold Analysis.noteOpened
  split
  · exact pruned.finish small here
  · refine ⟨?_, pruned.verbatim, pruned.previous, ?_, pruned.owner, pruned.finished⟩
    · rw [List.map_cons, pruned.parents]
    · intro other member
      rcases List.mem_cons.mp member with rfl | before
      · exact here
      · exact pruned.above other before

theorem parentHasLoop (pruned : Pruned a c arena) (small : arena.size < UInt32.size) (node : Node) :
    (a.surroundings source arena.withoutComments node).parentHasLoop = (c.surroundings source arena node).parentHasLoop := by
  unfold surroundings
  dsimp only
  rw [pruned.parents, List.head?_map]
  cases around : c.parents.head? with
  | none => rfl
  | some p =>
    rw [Option.map_some, Option.bind_some, Option.bind_some,
      Arena.elementNumber small (pruned.above p (List.mem_of_head? around))]
    cases arena.element? p <;> rfl

theorem followsCondition (pruned : Pruned a c arena) (small : arena.size < UInt32.size)
    (follows : (c.surroundings source arena node).followsCondition = true) :
    (a.surroundings source arena.withoutComments node).followsCondition = true := by
  obtain ⟨last, known, conditional⟩ := (Option.any_eq_true _ _).mp follows
  obtain ⟨m, latest, seen⟩ := Option.bind_eq_some_iff.mp known
  obtain ⟨before, got, rfl⟩ := Option.map_eq_some_iff.mp seen
  have plain : before.isComment = false := by
    refine Bool.eq_false_iff.mpr fun comment => ?_
    have condition : before.hasCondition = true := conditional
    rw [Node.hasCondition, Node.commentElement comment] at condition
    contradiction
  refine (Option.any_eq_true _ _).mpr ⟨⟨(arena.renumber before).typeName, (arena.renumber before).hasCondition⟩, ?_, ?_⟩
  · refine Option.bind_eq_some_iff.mpr
      ⟨arena.number m, pruned.previous m latest ((Arena.isCommentOf got).trans plain), ?_⟩
    rw [previousOf, Arena.getNumber small got plain]
    rfl
  · exact (Arena.renumberCondition before).trans conditional

theorem lawful (pruned : Pruned a c arena) (small : arena.size < UInt32.size)
    (lawful : c.refuses? options source arena node e = none) :
    a.refuses? options source arena.withoutComments node e = none := by
  have literal : a.takesLiterally options e = c.takesLiterally options e := by
    unfold takesLiterally
    rw [pruned.inVerbatim]
  unfold refuses? at lawful ⊢
  rw [literal]
  split
  · rfl
  · rename_i resolves
    rw [if_neg resolves, Directive.faultNone] at lawful
    obtain ⟨follows, alsoFollows, loops, reachable⟩ := lawful
    refine Directive.faultNone _ e |>.mpr ⟨?_, ?_, loops, ?_⟩
    · exact fun carried => pruned.followsCondition small (follows carried)
    · exact fun carried => pruned.followsCondition small (alsoFollows carried)
    · rw [pruned.parentHasLoop small]
      exact reachable

theorem outside (pruned : Pruned a c arena) (small : arena.size < UInt32.size) (here : arena.Retains id) :
    Analysis.outside (arena.number id) a.parents = (Analysis.outside id c.parents).map arena.number := by
  have absent {ids : List NodeId} (known : ∀ other ∈ ids, other ∈ c.parents) (apart : id ∉ ids) :
      arena.number id ∉ ids.map arena.number := by
    intro member
    obtain ⟨other, on, number⟩ := List.mem_map.mp member
    exact apart ((Arena.numberRetained small here (pruned.above other (known other on))).mp number ▸ on)
  rw [pruned.parents]
  by_cases member : id ∈ c.parents
  · obtain ⟨inner, outer, split, apart⟩ := List.eq_append_cons_of_mem member
    have known (other : NodeId) (on : other ∈ inner) : other ∈ c.parents := by
      rw [split]
      exact List.mem_append_left _ on
    rw [split, Followed.outsideSplit apart, List.map_append, List.map_cons, Followed.outsideSplit (absent known apart)]
  · unfold Analysis.outside
    rw [if_neg member, if_neg (absent (fun _ on => on) member)]

theorem memberOutside (pruned : Pruned a c arena) (small : arena.size < UInt32.size) {owner : NodeId}
    (there : arena.Retains owner) :
    arena.number owner ∈ (Analysis.outside id c.parents).map arena.number ↔ owner ∈ Analysis.outside id c.parents := by
  rw [List.mem_map]
  constructor
  · rintro ⟨other, member, number⟩
    rwa [← (Arena.numberRetained small there (pruned.above other ((outsideSublist id _).subset member))).mp number]
  · exact fun member => ⟨owner, member, rfl⟩

theorem closed (options : Options) (pruned : Pruned a c arena) (small : arena.size < UInt32.size)
    (here : arena.Retains id) :
    Pruned (Analysis.closed options (arena.number id) a arena.withoutComments).1 (Analysis.closed options id c arena).1
      arena := by
  rw [Followed.closedState, Followed.closedState]
  refine ⟨pruned.outside small here, ?_, ?_, ?_, ?_, ?_⟩
  · rw [pruned.verbatim, pruned.outside small here]
    cases reading : c.verbatim with
    | none => rfl
    | some owner =>
      have there := pruned.owner owner reading
      simp only [Option.map_some, Option.filter, ne_eq, Arena.numberRetained small here there,
        pruned.memberOutside small there]
      split <;> rfl
  · intro m same plain
    exact congrArg (Option.map arena.number) same
  · exact fun other member => pruned.above other ((outsideSublist id _).subset member)
  · intro owner same
    exact pruned.owner owner (Option.filter_eq_some_iff.mp same).1
  · intro m same
    cases same
    exact here.1

theorem closesInside (pruned : Pruned a c arena) (small : arena.size < UInt32.size) (here : arena.Retains id) :
    a.closesInside (arena.number id) = c.closesInside id := by
  unfold Analysis.closesInside
  rw [pruned.verbatim, pruned.outside small here]
  cases reading : c.verbatim with
  | none => rfl
  | some owner =>
    have there := pruned.owner owner reading
    simp only [Option.map_some, Option.any_some, Arena.numberRetained small here there, pruned.memberOutside small there]

theorem closedNodes (options : Options) (pruned : Pruned a c arena) (small : arena.size < UInt32.size)
    (here : arena.Retains id) :
    (Analysis.closed options (arena.number id) a arena.withoutComments).2 =
      (Analysis.closed options id c arena).2.withoutComments := by
  have apart (e : Element) (children : List NodeId) : collectData options.delimiters { e with children } =
      { collectData options.delimiters e with children } := by
    unfold collectData
    dsimp only
    cases e.text.bind (Interpolation.extract options.delimiters) <;> rfl
  have same (e : Element) : (collectData options.delimiters e).children = e.children := by
    unfold collectData
    split <;> rfl
  rw [closedArena, closedArena, pruned.closesInside small here]
  split
  · rfl
  · obtain ⟨node, got, plain⟩ := Arena.retainsGet here
    refine (Arena.withoutCommentsModify small got plain ((Node.mapElementComment _ node).trans plain)
      (Arena.renumberMapElement ?_ ?_ node)).symm
    · intro e children
      split
      · rfl
      · exact apart e children
    · intro e
      split
      · rfl
      · exact same e

theorem placed (pruned : Pruned a c arena) (small : arena.size < UInt32.size) (got : arena.get? id = some node)
    (fresh : node.Fresh) (plain : node.isComment = false) {content : Content} (shape : content.shape = node.content.shape) :
    arena.withoutComments.modify (arena.number id)
        (fun _ => { node with content, parent := a.parents.head?, root := a.parents.isEmpty }) =
      (arena.modify id fun _ =>
        { node with content, parent := c.parents.head?, root := c.parents.isEmpty }).withoutComments := by
  have outline (parent : Option NodeId) (root : Bool) : ({ node with content, parent, root } : Node).outline = node.outline := by
    simp only [Node.outline, shape]
  refine (Arena.withoutCommentsModify small got plain ((Node.outlineComment (outline _ _)).trans plain) ?_).symm
  rw [Arena.renumberChildless ((Node.outlineChildren (outline _ _)).trans (Node.freshChildren fresh)), pruned.parents,
    List.head?_map, List.isEmpty_map]

theorem opened (pruned : Pruned a c arena) (small : arena.size < UInt32.size) (got : arena.get? id = some node)
    (fresh : node.Fresh) (plain : node.isComment = false)
    (told : Analysis.opened options source id c arena = .ok (after, changed)) :
    ∃ before, Analysis.opened options source (arena.number id) a arena.withoutComments =
        .ok (before, changed.withoutComments) ∧ Pruned before after changed := by
  have here := Arena.retainsOf got plain
  have there : arena.withoutComments.get? (arena.number id) = some node := by
    rw [Arena.getNumber small got plain, Arena.renumberLone fresh.parent (Node.freshChildren fresh)]
  have numbered : arena.NumberedAlike changed := .ofKinds (openedKinds got told)
  rcases node.contentCases with ⟨e, content⟩ | leaf
  · obtain ⟨rfl, rfl⟩ := openedElement got content told
    have lawful := pruned.lawful small (openedLawful got content told)
    refine ⟨_, (openedAs there content lawful).trans ?_, ((pruned.enter here e).noteOpened small here node).kept numbered⟩
    rw [pruned.inVerbatim, pruned.placed small got fresh plain]
    rw [content]
    exact Directive.letInShape options c.inVerbatim e
  · have done := fresh.leaf (Node.leafIsElement leaf)
    rw [openedLeaf c options source got leaf, if_pos done] at told
    cases told
    refine ⟨_, (openedLeaf a options source there leaf).trans ?_, (pruned.finish small here).kept numbered⟩
    rw [if_pos done, pruned.placed small got fresh plain rfl]

theorem openedReferring (pruned : Pruned a c arena) (referring : arena.Referring) (got : arena.get? id = some node)
    (fresh : node.Fresh) (told : Analysis.opened options source id c arena = .ok (after, changed)) :
    changed.Referring := by
  obtain ⟨⟨content, shape, rfl⟩, _⟩ := openedPlaces got told
  have children : ({ node with content, parent := c.parents.head?, root := c.parents.isEmpty } : Node).children = [] := by
    refine (Node.outlineChildren ?_).trans (Node.freshChildren fresh)
    simp only [Node.outline, shape]
  refine Arena.referringModify referring ?_ ?_
  · intro seen _ child member
    rw [children] at member
    contradiction
  · intro seen _ p up
    exact (pruned.above p (List.mem_of_head? up)).1

theorem openedComment (pruned : Pruned a c arena) (got : arena.get? id = some node) (fresh : node.Fresh)
    (comment : node.isComment = true) (told : Analysis.opened options source id c arena = .ok (after, changed)) :
    Pruned a after changed ∧ changed.withoutComments = arena.withoutComments := by
  have leaf (e : Element) : node.content ≠ .element e := by
    intro content
    rw [Node.isComment, content] at comment
    contradiction
  have numbered : arena.NumberedAlike changed := .ofKinds (openedKinds got told)
  rw [openedLeaf c options source got leaf, if_pos (fresh.leaf (Node.leafIsElement leaf))] at told
  cases told
  exact ⟨(pruned.finishComment (Arena.getInside got) ((Arena.isCommentOf got).trans comment)).kept numbered,
    Arena.withoutCommentsModifyComment got comment comment⟩

end Pruned

end Analysis

namespace Build
variable {options : Options} {source : List Char} {p q : Build Analysis}

structure Erases (source : List Char) (p q : Build Analysis) : Prop where
  prunes : Prunes source p q
  state : Analysis.Pruned p.state q.state q.builder.arena

theorem prunesTold {next other : Builder} {first second : Arena} (pruned : next.Pruned other) (sound : other.Sound source)
    (referring : other.Referring) (same : first = second.withoutComments) (alike : second.Alike other.arena)
    (kinds : second.nodes.toList.map Node.isComment = other.arena.nodes.toList.map Node.isComment)
    (refers : second.Referring) (a c : Analysis) :
    Prunes source ⟨{ next with arena := first }, a⟩ ⟨{ other with arena := second }, c⟩ := by
  obtain ⟨_, _, kept, _⟩ := Arena.numberSame kinds
  refine ⟨⟨pruned.scanner, same, pruned.stack.trans (congrFun kept other.stack).symm⟩,
    Builder.soundAlike (p := other) ⟨rfl, rfl, Arena.alikeSymm alike⟩ sound, ⟨refers, ?_⟩⟩
  rw [Arena.alikeSize alike]
  exact referring.stack

theorem erasesClosed {next other : Builder} {a c : Analysis} {id : NodeId} (pruned : next.Pruned other)
    (sound : other.Sound source) (referring : other.Referring) (state : Analysis.Pruned a c other.arena)
    (here : other.arena.Retains id) :
    Outcomes (Erases source) (fun _ _ => True) (fun _ _ => True)
      (tell (Analysis.receiver options source) (.closed (other.arena.number id)) ⟨next, a⟩)
      (tell (Analysis.receiver options source) (.closed id) ⟨other, c⟩) := by
  have room := sound.room
  have small : other.arena.size < UInt32.size := by omega
  have nodes := state.closedNodes options small here
  rw [← pruned.arena] at nodes
  have kinds := Analysis.closedKinds options id c here
  have closed := (state.closed options small here).kept (.ofKinds kinds)
  rw [← pruned.arena] at closed
  exact .together ⟨prunesTold pruned sound referring nodes (Analysis.closedAlike options id c other.arena) kinds
    (Analysis.closedReferring options id c referring.arena) _ _, closed⟩

theorem outcomesOk {Related : Build Analysis → Build Analysis → Prop}
    {left right : Except (Halt (Build Analysis)) (Build Analysis)}
    (goesOn : ∀ q, right = .ok q → ∃ p, left = .ok p ∧ Related p q) :
    Outcomes Related (fun _ _ => True) (fun _ _ => True) left right := by
  cases right with
  | ok q =>
    obtain ⟨p, rfl, related⟩ := goesOn q rfl
    exact .together related
  | error k =>
    cases left with
    | ok p => exact .stopped trivial
    | error h => exact .failed trivial

theorem erasesOpened {next other : Builder} {a c : Analysis} {id : NodeId} {node : Node} (pruned : next.Pruned other)
    (sound : other.Sound source) (referring : other.Referring) (state : Analysis.Pruned a c other.arena)
    (got : other.arena.get? id = some node) (fresh : node.Fresh) (plain : node.isComment = false) :
    Outcomes (Erases source) (fun _ _ => True) (fun _ _ => True)
      (tell (Analysis.receiver options source) (.opened (other.arena.number id)) ⟨next, a⟩)
      (tell (Analysis.receiver options source) (.opened id) ⟨other, c⟩) := by
  have room := sound.room
  have small : other.arena.size < UInt32.size := by omega
  refine outcomesOk fun q ok => ?_
  unfold tell at ok
  split at ok
  · rename_i after changed told
    cases ok
    obtain ⟨before, result, settled⟩ := state.opened small got fresh plain told
    rw [← pruned.arena] at result
    refine ⟨⟨{ next with arena := changed.withoutComments }, before⟩, ?_, ?_, settled⟩
    · have here : Analysis.receiver options source (.opened (other.arena.number id)) a next.arena =
          .ok (before, changed.withoutComments) := result
      unfold tell
      dsimp only
      rw [here]
    · exact prunesTold pruned sound referring rfl (Analysis.openedAlike told) (Analysis.openedKinds got told)
        (state.openedReferring referring.arena got fresh told) _ _
  · contradiction

theorem erasesDropped {next other : Builder} {a c : Analysis} {id : NodeId} {node : Node} (pruned : next.Pruned other)
    (sound : other.Sound source) (referring : other.Referring) (state : Analysis.Pruned a c other.arena)
    (got : other.arena.get? id = some node) (fresh : node.Fresh) (comment : node.isComment = true) :
    Outcomes (Erases source) (fun _ _ => True) (fun _ _ => True) (.ok ⟨next, a⟩)
      (tell (Analysis.receiver options source) (.opened id) ⟨other, c⟩) := by
  refine outcomesOk fun q ok => ?_
  unfold tell at ok
  split at ok
  · rename_i after changed told
    cases ok
    obtain ⟨settled, same⟩ := state.openedComment got fresh comment told
    refine ⟨_, rfl, ?_, settled⟩
    exact prunesTold pruned sound referring (pruned.arena.trans same.symm) (Analysis.openedAlike told)
      (Analysis.openedKinds got told) (state.openedReferring referring.arena got fresh told) _ _
  · contradiction

theorem erasesTurn (options : Options) (erases : Erases source p q) :
    Outcomes (Erases source) (fun _ _ => True) (fun _ _ => True) (p.turn false (Analysis.receiver options source))
      (q.turn true (Analysis.receiver options source)) := by
  obtain ⟨steps, after⟩ := prunesStep erases.prunes
  unfold turn
  generalize p.builder.step false = left at steps ⊢
  generalize q.builder.step true = right at steps after ⊢
  cases steps with
  | failed cause => exact .failed trivial
  | quiet pruned =>
    obtain ⟨stepped, sound, referring⟩ := after _ _ rfl
    exact .together ⟨⟨pruned, sound, referring⟩, erases.state.kept (Builder.stepNumbered erases.prunes.sound stepped)⟩
  | dropped pruned comment =>
    obtain ⟨stepped, sound, referring⟩ := after _ _ rfl
    obtain ⟨node, _, _, _, got, fresh, _⟩ := Builder.stepOpens erases.prunes.sound stepped
    exact erasesDropped pruned sound referring (erases.state.kept (Builder.stepNumbered erases.prunes.sound stepped)) got
      fresh ((Arena.isCommentOf got).symm.trans comment)
  | opened pruned plain =>
    obtain ⟨stepped, sound, referring⟩ := after _ _ rfl
    obtain ⟨node, _, _, _, got, fresh, _⟩ := Builder.stepOpens erases.prunes.sound stepped
    exact erasesOpened pruned sound referring (erases.state.kept (Builder.stepNumbered erases.prunes.sound stepped)) got
      fresh ((Arena.isCommentOf got).symm.trans plain)
  | closed pruned plain =>
    obtain ⟨stepped, sound, referring⟩ := after _ _ rfl
    obtain ⟨_, _, node, _, nextStack, _⟩ := Builder.stepCloses stepped
    exact erasesClosed pruned sound referring (erases.state.kept (Builder.stepNumbered erases.prunes.sound stepped))
      ⟨referring.stack _ (by rw [nextStack]; exact List.mem_cons_self), plain⟩

theorem erasesSkip (erases : Erases source p q) : Erases source p.skipBlank q.skipBlank :=
  ⟨prunesSkip erases.prunes, erases.state⟩

end Build

theorem Build.prunesForest {σ τ : Type} {source : List Char} {p : Build σ} {q : Build τ} (prunes : Prunes source p q) :
    p.forest = q.forest.withoutComments := by
  have roots : p.builder.roots = q.builder.arena.kept q.builder.roots := by
    unfold Builder.roots
    rw [prunes.pruned.stack, Arena.keptReverse]
  unfold Build.forest Forest.withoutComments
  rw [prunes.pruned.arena, roots]

theorem readForestErased {template : String} (short : template.utf8ByteSize < UInt32.size) (options : Options) :
    readForest { options with comments := false } template =
      (readForest { options with comments := true } template).map Forest.withoutComments := by
  rw [← Text.byteLengthToList] at short
  have start : Build.Prunes template.toList (Build.ofSource template.toList ()) (Build.ofSource template.toList ()) :=
    Build.prunesStart short () ()
  unfold readForest buildWith
  dsimp only
  rcases Build.runsCorrespond false true
      (fun p q prunes => congrArg Markup.Scanner.atEnd (Build.prunesSkip prunes).pruned.scanner)
      (fun p q prunes _ => Build.prunesTurn (Build.prunesSkip prunes)) start with
    ⟨last, beside, ran, ranBeside, prunes⟩ | ⟨h, k, ran, ranBeside, cause⟩ | ⟨_, _, _, _, impossible⟩
  · rw [ran, ranBeside]
    exact congrArg Except.ok (Build.prunesForest (Build.prunesSkip prunes))
  · rw [ran, ranBeside]
    exact congrArg Except.error cause
  · contradiction

theorem analyseErased {options : Options} {template : String} {forest : Forest}
    (short : template.utf8ByteSize < UInt32.size)
    (analysed : analyse { options with comments := true } template = .ok forest) :
    analyse { options with comments := false } template = .ok forest.withoutComments := by
  rw [← Text.byteLengthToList] at short
  obtain ⟨last, ran, rfl⟩ := forestOfOk analysed
  have start : Build.Erases template.toList (Build.ofSource template.toList Analysis.start)
      (Build.ofSource template.toList Analysis.start) :=
    ⟨Build.prunesStart short _ _, Analysis.Pruned.start _⟩
  rcases Build.runsCorrespond false true
      (fun p q erases => congrArg Markup.Scanner.atEnd (Build.prunesSkip erases.prunes).pruned.scanner)
      (fun p q erases _ => Build.erasesTurn options (Build.erasesSkip erases)) start with
    ⟨next, beside, left, right, erases⟩ | ⟨_, _, _, failed, _⟩ | ⟨_, _, _, failed, _⟩
  · cases right.symm.trans ran
    exact (congrArg forestOf left).trans (congrArg Except.ok (Build.prunesForest (Build.prunesSkip erases.prunes)))
  · cases failed.symm.trans ran
  · cases failed.symm.trans ran

/-
Leaving comments out as a template is read is leaving them out afterwards: the nodes that are no comments
keep their order, are numbered anew, and are otherwise the same. For a template that is analysed this holds
where it is accepted with its comments and these do not stand in the place of the root.
-/
theorem commentsLeftOut {template : String} (short : template.utf8ByteSize < UInt32.size) (options : Options) :
    readForest { options with comments := false } template =
      (readForest { options with comments := true } template).map Forest.withoutComments ∧
    ∀ ast, parseWith { options with comments := true } template = .ok ast → ast.arena.isComment ast.root = false →
      parseWith { options with comments := false } template = .ok ast.withoutComments := by
  refine ⟨readForestErased short options, fun ast accepted plain => ?_⟩
  obtain ⟨forest, analysed, roots, arena⟩ := parsedForest accepted
  have erased := analyseErased short analysed
  have single : forest.withoutComments.roots = [ast.arena.number ast.root] := by
    rw [Forest.withoutComments, roots, arena, Arena.keptPlain plain]
    rfl
  rcases parseAnalysed erased with ⟨root, same, parsed⟩ | ⟨several, _⟩
  · rw [parsed]
    obtain rfl := List.singleton_inj.mp (single.symm.trans same)
    rw [Forest.withoutComments, arena]
    rfl
  · rw [single] at several
    exact absurd rfl several

def commentedChain : String := "<p><!--a--><b v-if=\"x\">\x7b\x7by\x7d\x7d</b><i v-else>z</i><!--c--></p>"

theorem commentsAroundChain :
    commentedChain.utf8ByteSize < UInt32.size ∧
    ∃ ast, parseWith { Options.standard with comments := true }
        commentedChain = .ok ast ∧
      ast.arena.isComment ast.root = false ∧ ast.arena.size = 5 ∧ ast.withoutComments.arena.size = 3 ∧
      parseWith { Options.standard with comments := false }
        commentedChain = .ok ast.withoutComments := by
  have short : commentedChain.utf8ByteSize < UInt32.size := by decide
  have shape : (parseWith { Options.standard with comments := true }
      commentedChain).map (fun ast =>
        (ast.arena.isComment ast.root, ast.arena.size, ast.withoutComments.arena.size)) = .ok (false, 5, 3) := by
    decide +kernel
  cases parsed : parseWith { Options.standard with comments := true }
      commentedChain with
  | error cause =>
    rw [parsed] at shape
    contradiction
  | ok ast =>
    rw [parsed] at shape
    have seen := Except.ok.inj shape
    simp only [Prod.mk.injEq] at seen
    obtain ⟨plain, whole, left⟩ := seen
    exact ⟨short, ast, rfl, plain, whole, left, (commentsLeftOut short Options.standard).2 ast parsed plain⟩

end Templating
