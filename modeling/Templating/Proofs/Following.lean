import Templating.Proofs.Analysing
import Templating.Proofs.Recording

/-!
The analyser beside the notices that it is told. Its state is what these say: the open elements, the
node finished last, and the outermost open element marked as verbatim. What it has resolved of the
elements so far is what the rules for later ones ask of them.
-/
namespace Templating
open Analysis

namespace Analysis

theorem finishFresh {a : Analysis} {id : NodeId} (fresh : a.verbatim ≠ some id) :
    a.finish id = { a with previous := some id } := by
  simp [finish, leave, fresh]

theorem finishEntered {a : Analysis} {id : NodeId} (e : Element) (fresh : a.verbatim ≠ some id) :
    (a.enter id e).finish id = { a with previous := some id } := by
  unfold enter
  split
  · rename_i entered
    have outside : a.verbatim = none := by
      simp only [Bool.and_eq_true, Bool.not_eq_true', inVerbatim, Option.isSome_eq_false_iff] at entered
      exact Option.isNone_iff_eq_none.mp entered.1
    simp [finish, leave, outside]
  · exact finishFresh fresh

end Analysis

structure Followed (past : List (Entry Unit)) (a : Analysis) : Prop where
  parents : a.parents = (openElements past).map Opening.id
  verbatim : a.verbatim = ((openElements past).reverse.find? Opening.marked).map Opening.id
  previous : a.previous = (past.findSome? Entry.finished?).map Prod.fst

namespace Followed

theorem start : Followed [] Analysis.start := ⟨rfl, rfl, rfl⟩

theorem verbatimOpen {past : List (Entry Unit)} {a : Analysis} (followed : Followed past a) {owner : NodeId}
    (h : a.verbatim = some owner) : ∃ o ∈ openElements past, o.id = owner := by
  rw [followed.verbatim] at h
  obtain ⟨o, found, same⟩ := Option.map_eq_some_iff.mp h
  exact ⟨o, List.mem_reverse.mp (List.mem_of_find?_eq_some found), same⟩

theorem inVerbatim {past : List (Entry Unit)} {a : Analysis} (followed : Followed past a) :
    a.inVerbatim = (openElements past).any Opening.marked := by
  unfold Analysis.inVerbatim
  rw [followed.verbatim, Option.isSome_map, Bool.eq_iff_iff, List.find?_isSome, List.any_eq_true]
  simp

theorem takesLiterally {past : List (Entry Unit)} {a : Analysis} (followed : Followed past a) (options : Options)
    (id : NodeId) (node : Node) (e : Element) :
    a.takesLiterally options e = (Opening.mk past id node e).raw options := by
  have marked : (Opening.mk past id node e).marked = e.carries "v-pre" := rfl
  unfold Analysis.takesLiterally Opening.raw
  rw [followed.inVerbatim, marked, Bool.or_assoc, Bool.or_comm, Bool.or_comm (e.carries "v-pre")]

theorem leaf {past : List (Entry Unit)} {a : Analysis} {entry : Entry Unit} {id : NodeId} {node : Node}
    (followed : Followed past a) (event : entry.event = .opened id) (here : entry.node = some node)
    (leaf : ∀ e, node.content ≠ .element e) (done : node.done = true) (fresh : a.verbatim ≠ some id) :
    Followed (entry :: past) (a.finish id) := by
  have state := finishFresh fresh
  have still : openElements (entry :: past) = openElements past := by
    rw [openElementsOpened event, Entry.unfinished?, openingLeaf here leaf]
    rfl
  rw [state]
  refine ⟨?_, ?_, ?_⟩
  · rw [still]
    exact followed.parents
  · rw [still]
    exact followed.verbatim
  · simp [Entry.finished?, event, here, done]

theorem element {past : List (Entry Unit)} {a : Analysis} {entry : Entry Unit} {id : NodeId} {node : Node} {e : Element}
    (followed : Followed past a) (event : entry.event = .opened id) (here : entry.node = some node)
    (content : node.content = .element e) (fresh : a.verbatim ≠ some id) :
    Followed (entry :: past) ((a.enter id e).noteOpened id node) := by
  have opened := openElementsOpened event past
  unfold Entry.unfinished? at opened
  rw [openingElement event here content] at opened
  unfold Analysis.noteOpened
  cases done : node.done with
  | true =>
    rw [if_pos rfl, finishEntered e fresh]
    simp only [Option.filter, done, Bool.not_true, Bool.false_eq_true, if_false, Option.toList_none,
      List.nil_append] at opened
    refine ⟨?_, ?_, ?_⟩
    · rw [opened]
      exact followed.parents
    · rw [opened]
      exact followed.verbatim
    · simp [Entry.finished?, event, here, done]
  | false =>
    simp only [Option.filter, done, Bool.not_false, if_true, Option.toList_some, List.singleton_append] at opened
    rw [if_neg (by decide)]
    refine ⟨?_, ?_, ?_⟩
    · simp [opened, enterParents, followed.parents]
    · rw [opened, List.reverse_cons, List.find?_append, Option.map_or, ← followed.verbatim]
      unfold Analysis.enter Analysis.inVerbatim Opening.marked
      cases outer : a.verbatim with
      | some owner => simp [outer]
      | none => cases marked : e.carries "v-pre" <;> simp [outer, marked]
    · simp [Entry.finished?, event, here, done, enterPrevious, followed.previous]

theorem outsideSplit {inner outer : List NodeId} {id : NodeId} (apart : id ∉ inner) :
    outside id (inner ++ id :: outer) = outer := by
  have member : id ∈ inner ++ id :: outer := by simp
  have others : ∀ other ∈ inner, decide (other ≠ id) = true := by
    intro other inside
    simpa using fun same : other = id => apart (same ▸ inside)
  unfold outside
  rw [if_pos member, List.dropWhile_append_of_pos others]
  simp

theorem closedState (options : Options) (id : NodeId) (a : Analysis) (arena : Arena) :
    (Analysis.closed options id a arena).1 =
      ⟨outside id a.parents, some id, a.verbatim.filter fun owner => owner ≠ id ∧ owner ∈ outside id a.parents⟩ := by
  unfold Analysis.closed Analysis.settle Analysis.leave
  cases a.verbatim with
  | none => simp
  | some owner =>
    by_cases same : owner = id
    · simp [same, Option.filter]
    · by_cases inside : owner ∈ outside id a.parents <;> simp [same, inside, Option.filter]

theorem closed {past : List (Entry Unit)} {a : Analysis} {entry : Entry Unit} {node : Node} {inner outer : List Opening}
    {o : Opening} (followed : Followed past a) (event : entry.event = .closed o.id) (here : entry.node = some node)
    (distinct : ((openElements past).map Opening.id).Nodup) (split : openElements past = inner ++ o :: outer)
    (remaining : openElements (entry :: past) = outer) (options : Options) (arena : Arena) :
    Followed (entry :: past) (Analysis.closed options o.id a arena).1 := by
  have parents := followed.parents
  rw [split, List.map_append, List.map_cons] at parents distinct
  obtain ⟨_, tail, apart⟩ := List.nodup_append.mp distinct
  have notInner : o.id ∉ inner.map Opening.id := fun inside => apart _ inside o.id List.mem_cons_self rfl
  have left : outside o.id a.parents = outer.map Opening.id := by rw [parents, outsideSplit notInner]
  rw [closedState, left]
  refine ⟨by rw [remaining], ?_, by simp [Entry.finished?, event, here]⟩
  rw [remaining, followed.verbatim, split, List.reverse_append, List.reverse_cons, List.append_assoc,
    List.find?_append]
  cases found : outer.reverse.find? Opening.marked with
  | some m =>
    -- it stands outside of what is closed
    have member : m.id ∈ outer.map Opening.id :=
      List.mem_map_of_mem (List.mem_reverse.mp (List.mem_of_find?_eq_some found))
    have differs : m.id ≠ o.id := fun same => (List.nodup_cons.mp tail).1 (same ▸ member)
    simp [Option.filter, differs, member]
  | none =>
    rw [Option.none_or]
    cases within : ([o] ++ inner.reverse).find? Opening.marked with
    | none => rfl
    | some m =>
      have gone : ¬(m.id ≠ o.id ∧ m.id ∈ outer.map Opening.id) := by
        rintro ⟨differs, beyond⟩
        rcases List.mem_append.mp (List.mem_of_find?_eq_some within) with here | inside
        · exact differs (by rw [List.mem_singleton.mp here])
        · have innerId : m.id ∈ inner.map Opening.id := List.mem_map_of_mem (List.mem_reverse.mp inside)
          exact apart _ innerId m.id (List.mem_cons_of_mem _ beyond) rfl
      rw [Option.map_some, Option.filter, if_neg (by simpa using gone)]
      rfl

end Followed

structure Traits where
  typeName : String
  conditional : Bool
  looping : Bool
  deriving DecidableEq

def Node.traits (node : Node) : Traits :=
  ⟨node.typeName, node.hasCondition, node.element?.any fun e => e.loop.isSome⟩

theorem Node.traitsElement {node : Node} {e : Element} (content : node.content = .element e) :
    node.traits = ⟨e.tag, e.hasCondition, e.loop.isSome⟩ := by
  simp [traits, typeName, Node.hasCondition, element?, content]

theorem Node.traitsLeaf {node : Node} (leaf : ∀ e, node.content ≠ .element e) :
    node.traits = ⟨node.typeName, false, false⟩ := by
  simp [traits, Node.hasCondition, leafElement leaf]

theorem Node.traitsMapElement {change : Element → Element} (tag : ∀ e, (change e).tag = e.tag)
    (condition : ∀ e, (change e).hasCondition = e.hasCondition) (loop : ∀ e, (change e).loop = e.loop) (node : Node) :
    (node.mapElement change).traits = node.traits := by
  cases content : node.content with
  | element e =>
    have changed : (node.mapElement change).content = .element (change e) := by simp [mapElement, content]
    rw [traitsElement changed, traitsElement content, tag, condition, loop]
  | comment | doctype => simp [mapElement, content]

def Arena.KeepsTraits (arena changed : Arena) : Prop :=
  ∀ id seen, (arena.get? id).map Node.traits = some seen → (changed.get? id).map Node.traits = some seen

theorem Builder.stepTraits {b next : Builder} {event : Option Event} (h : b.Step next event) :
    b.arena.KeepsTraits next.arena := by
  intro id seen got
  refine stepView Node.traits ?_ ?_ h got
  · intro children stop node
    have inner : (node.mapElement fun e => { e with children }).traits = node.traits :=
      Node.traitsMapElement (by intro e; rfl) (by intro e; rfl) (by intro e; rfl) node
    exact inner
  · intro run node
    have fields (e : Element) : (e.appendText run).tag = e.tag ∧ (e.appendText run).hasCondition = e.hasCondition ∧
        (e.appendText run).loop = e.loop := by
      unfold Element.appendText
      split <;> exact ⟨rfl, rfl, rfl⟩
    exact Node.traitsMapElement (fun e => (fields e).1) (fun e => (fields e).2.1) (fun e => (fields e).2.2) node

theorem Analysis.closedTraits (options : Options) (id : NodeId) (a : Analysis) (arena : Arena) :
    arena.KeepsTraits (Analysis.closed options id a arena).2 := by
  intro other seen got
  have collected (e : Element) : (collectData options.delimiters e).tag = e.tag ∧
      (collectData options.delimiters e).hasCondition = e.hasCondition ∧
      (collectData options.delimiters e).loop = e.loop := by
    unfold collectData
    split <;> exact ⟨rfl, rfl, rfl⟩
  have fields (e : Element) (f : Element) (same : f = if options.isRawText e.tag then e else collectData options.delimiters e) :
      f.tag = e.tag ∧ f.hasCondition = e.hasCondition ∧ f.loop = e.loop := by
    rw [same]
    split
    · exact ⟨rfl, rfl, rfl⟩
    · exact collected e
  unfold Analysis.closed
  dsimp only
  split
  · exact got
  · rw [Arena.modifyElement, Arena.getModify]
    split
    · rw [Option.map_map]
      rw [← got]
      congr 1
      funext node
      exact Node.traitsMapElement (fun e => (fields e _ rfl).1) (fun e => (fields e _ rfl).2.1)
        (fun e => (fields e _ rfl).2.2) node
    · exact got

structure Judged (options : Options) (past : List (Entry Unit)) (arena : Arena) : Prop where
  openings : ∀ o ∈ openings past,
    (arena.get? o.id).map Node.traits = some ⟨o.element.tag, o.conditional options, o.looping options⟩
  finished : ∀ id node, past.findSome? Entry.finished? = some (id, node) →
    ∃ seen, (arena.get? id).map Node.traits = some seen ∧ seen.typeName = node.typeName ∧
      seen.conditional = (Templating.openings past).any fun o => o.id == id && o.conditional options

namespace Judged

theorem start (options : Options) (source : List Char) : Judged options [] (Builder.ofSource source).arena := by
  refine ⟨?_, ?_⟩
  · intro o member
    contradiction
  · intro id node found
    contradiction

theorem kept {options : Options} {past : List (Entry Unit)} {arena changed : Arena} (judged : Judged options past arena)
    (keeps : arena.KeepsTraits changed) : Judged options past changed := by
  refine ⟨fun o member => keeps _ _ (judged.openings o member), ?_⟩
  intro id node found
  obtain ⟨seen, got, traits⟩ := judged.finished id node found
  exact ⟨seen, keeps _ _ got, traits⟩

theorem surroundings {options : Options} {past : List (Entry Unit)} {arena : Arena} {a : Analysis}
    (judged : Judged options past arena) (followed : Followed past a) (source : List Char) (id : NodeId) (node : Node)
    (e : Element) :
    a.surroundings source arena node = (Opening.mk past id node e).surroundings options source := by
  have previous : a.previous.bind (previousOf arena) =
      (past.findSome? Entry.finished?).map fun finished =>
        ⟨finished.2.typeName, (Opening.mk past id node e).followsCondition options⟩ := by
    unfold Opening.followsCondition Opening.finishedBefore?
    rw [followed.previous]
    dsimp only
    cases found : past.findSome? Entry.finished? with
    | none => rfl
    | some finished =>
      obtain ⟨seen, got, typeName, conditional⟩ := judged.finished _ _ found
      obtain ⟨other, here, rfl⟩ := Option.map_eq_some_iff.mp got
      simp only [Option.map_some, Option.bind_some, previousOf, here, Option.any_some, ← conditional, ← typeName]
      rfl
  have loop : ((a.parents.head?.bind arena.element?).any fun e => e.loop.isSome) =
      (openElements past).head?.any (Opening.looping options) := by
    rw [followed.parents]
    cases inside : openElements past with
    | nil => rfl
    | cons o outer =>
      have traits := judged.openings o (openElementsMember (by rw [inside]; exact List.mem_cons_self))
      obtain ⟨other, here, same⟩ := Option.map_eq_some_iff.mp traits
      have looping := congrArg Traits.looping same
      simp only [List.map_cons, List.head?_cons, Option.bind_some, Option.any_some, Arena.element?, here]
      exact looping
  unfold Analysis.surroundings Opening.surroundings Opening.finishedBefore? Opening.insideLoop
  rw [previous, loop]

theorem refuses {options : Options} {past : List (Entry Unit)} {arena : Arena} {a : Analysis}
    (judged : Judged options past arena) (followed : Followed past a) (source : List Char) (id : NodeId) (node : Node)
    (e : Element) :
    a.refuses? options source arena node e = (Opening.mk past id node e).fault? options source := by
  unfold Analysis.refuses? Opening.fault?
  rw [followed.takesLiterally options id node e, judged.surroundings followed source id node e]

theorem admittedTraits {around : Surroundings} {e f : Element} {literal : Bool} (bare : e.Bare)
    (admitted : if literal then Directive.Keeps e f else f = Directive.resolved e)
    (lawful : literal = false → Directive.fault? around e = none) :
    f.tag = e.tag ∧ f.hasCondition = (!literal && (e.carries "v-if" || e.carries "v-else-if")) ∧
    f.loop.isSome = (!literal && e.carries "v-for") := by
  have blank : e.ifCondition = none ∧ e.elseIfCondition = none ∧ e.loop = none := by
    rw [bare]
    exact ⟨rfl, rfl, rfl⟩
  cases literal with
  | true =>
    have keeps : Directive.Keeps e f := admitted
    refine ⟨Element.shapeTag keeps.shape, ?_, ?_⟩
    · simp [Element.hasCondition, keeps.ifCondition, keeps.elseIfCondition, blank]
    · simp [keeps.loop, blank]
  | false =>
    have resolved : f = Directive.resolved e := admitted
    obtain ⟨shape, ifCondition, elseIfCondition, loop⟩ := Directive.resolvedFields e
    rw [← resolved] at shape ifCondition elseIfCondition loop
    refine ⟨Element.shapeTag shape, ?_, ?_⟩
    · simp [Element.hasCondition, Element.carries, ifCondition, elseIfCondition, blank]
    · have legal := ((Directive.faultNone around e).mp (lawful rfl)).2.2.1
      rw [loop, blank.2.2]
      unfold Element.carries
      cases written : e.written? "v-for" with
      | none => rfl
      | some expression =>
        obtain ⟨parsed, same⟩ := legal expression written
        simp [same]

theorem findFinished {past : List (Entry Unit)} {id : NodeId} {node : Node}
    (found : past.findSome? Entry.finished? = some (id, node)) : ∃ entry ∈ past, entry.event.id = id := by
  obtain ⟨entry, member, same⟩ := List.exists_of_findSome?_eq_some found
  refine ⟨entry, member, ?_⟩
  unfold Entry.finished? at same
  split at same
  · rename_i event _
    split at same
    · cases same
      rw [event]
      rfl
    · contradiction
  · rename_i event _
    cases same
    rw [event]
    rfl
  · contradiction

theorem openingsOther {past : List (Entry Unit)} {id : NodeId} (fresh : ∀ entry ∈ past, entry.event.id ≠ id) :
    ∀ o ∈ Templating.openings past, o.id ≠ id := by
  intro o member
  obtain ⟨entry, inside, event⟩ := openingsOpened member
  have other := fresh entry inside
  rwa [event] at other

theorem unjudged {options : Options} {past : List (Entry Unit)} {id : NodeId}
    (fresh : ∀ entry ∈ past, entry.event.id ≠ id) :
    (Templating.openings past).any (fun o => o.id == id && o.conditional options) = false := by
  refine List.any_eq_false.mpr fun o member => ?_
  simp [openingsOther fresh o member]

theorem leaf {options : Options} {past : List (Entry Unit)} {arena : Arena} {entry : Entry Unit} {id : NodeId}
    {node placed : Node} (judged : Judged options past arena) (fresh : ∀ entry ∈ past, entry.event.id ≠ id)
    (event : entry.event = .opened id) (here : entry.node = some node) (leaf : ∀ e, node.content ≠ .element e)
    (done : node.done = true) (got : arena.get? id = some node) (content : placed.content = node.content) :
    Judged options (entry :: past) (arena.modify id fun _ => placed) := by
  have same : Templating.openings (entry :: past) = Templating.openings past := by
    rw [Templating.openings, openingLeaf here leaf]
    exact List.append_nil _
  have finished : (entry :: past).findSome? Entry.finished? = some (id, node) := by
    simp [Entry.finished?, event, here, done]
  refine ⟨?_, ?_⟩
  · intro o member
    rw [same] at member
    rw [Arena.getModifyOther (openingsOther fresh o member)]
    exact judged.openings o member
  · intro other last found
    rw [finished] at found
    cases found
    refine ⟨placed.traits, ?_, ?_, ?_⟩
    · rw [Arena.getModify, if_pos rfl, got]
      rfl
    · rw [Node.traitsLeaf (by rw [content]; exact leaf)]
      simp [Node.typeName, content]
    · rw [same, unjudged fresh, Node.traitsLeaf (by rw [content]; exact leaf)]

theorem element {options : Options} {past : List (Entry Unit)} {arena : Arena} {entry : Entry Unit} {id : NodeId}
    {node placed : Node} {e f : Element} (judged : Judged options past arena)
    (fresh : ∀ entry ∈ past, entry.event.id ≠ id) (event : entry.event = .opened id) (here : entry.node = some node)
    (content : node.content = .element e) (got : arena.get? id = some node) (result : placed.content = .element f)
    (tag : f.tag = e.tag) (conditional : f.hasCondition = (Opening.mk past id node e).conditional options)
    (looping : f.loop.isSome = (Opening.mk past id node e).looping options) :
    Judged options (entry :: past) (arena.modify id fun _ => placed) := by
  have opened : Templating.openings (entry :: past) = Templating.openings past ++ [⟨past, id, node, e⟩] := by
    rw [Templating.openings, openingElement event here content]
    rfl
  have traits : ((arena.modify id fun _ => placed).get? id).map Node.traits =
      some ⟨e.tag, (Opening.mk past id node e).conditional options, (Opening.mk past id node e).looping options⟩ := by
    rw [Arena.getModify, if_pos rfl, got, Option.map_some, Option.map_some, Node.traitsElement result, tag,
      conditional, looping]
  refine ⟨?_, ?_⟩
  · intro o member
    rw [opened] at member
    rcases List.mem_append.mp member with earlier | latest
    · rw [Arena.getModifyOther (openingsOther fresh o earlier)]
      exact judged.openings o earlier
    · rw [List.mem_singleton.mp latest]
      exact traits
  · intro other last found
    rw [opened, List.any_append]
    cases done : node.done with
    | true =>
      have finished : (entry :: past).findSome? Entry.finished? = some (id, node) := by
        simp [Entry.finished?, event, here, done]
      rw [finished] at found
      cases found
      refine ⟨_, traits, ?_, ?_⟩
      · simp [Node.typeName, content]
      · rw [unjudged fresh]
        simp
    | false =>
      have unfinished : (entry :: past).findSome? Entry.finished? = past.findSome? Entry.finished? := by
        simp [Entry.finished?, event, here, done]
      rw [unfinished] at found
      obtain ⟨earlier, inside, same⟩ := findFinished found
      have differs : other ≠ id := same ▸ fresh earlier inside
      obtain ⟨seen, there, typeName, conditional⟩ := judged.finished other last found
      refine ⟨seen, ?_, typeName, ?_⟩
      · rw [Arena.getModifyOther differs]
        exact there
      · rw [conditional]
        simp [Ne.symm differs]

theorem closed {options : Options} {past : List (Entry Unit)} {arena : Arena} {entry : Entry Unit} {node : Node}
    {o : Opening} (judged : Judged options past arena) (member : o ∈ Templating.openings past)
    (event : entry.event = .closed o.id) (here : entry.node = some node) (typeName : node.typeName = o.element.tag) :
    Judged options (entry :: past) arena := by
  have same : Templating.openings (entry :: past) = Templating.openings past := by
    rw [Templating.openings, openingClosed event]
    exact List.append_nil _
  have traits := judged.openings o member
  refine ⟨by rw [same]; exact judged.openings, ?_⟩
  intro other last found
  have finished : (entry :: past).findSome? Entry.finished? = some (o.id, node) := by
    simp [Entry.finished?, event, here]
  rw [finished] at found
  cases found
  refine ⟨_, traits, typeName.symm, ?_⟩
  rw [same]
  -- all openings of this node are judged by the one node there is
  have agree : ∀ other ∈ Templating.openings past, other.id = o.id → other.conditional options = o.conditional options := by
    intro other inside sameId
    have others := judged.openings other inside
    rw [sameId, traits] at others
    exact (congrArg Traits.conditional (Option.some.inj others)).symm
  cases conditional : o.conditional options with
  | true => exact (List.any_eq_true.mpr ⟨o, member, by simp [conditional]⟩).symm
  | false =>
    refine (List.any_eq_false.mpr fun other inside => ?_).symm
    intro both
    simp only [Bool.and_eq_true, beq_iff_eq] at both
    rw [agree other inside both.1, conditional] at both
    exact absurd both.2 (by decide)

end Judged
end Templating
