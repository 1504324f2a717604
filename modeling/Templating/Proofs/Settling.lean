import Templating.Proofs.Ancestry
import Templating.Proofs.Attributes
import Templating.Proofs.Lineage

/-!
What becomes of each element. The analyser keeps the one element whose verbatim subtree is being read;
that the elements opened meanwhile are those below it, along the parents, holds since it is one of the
open elements, the only one with the mark, until it is closed or swallowed. So each element is settled
as it is opened: it is let in as one inside of a verbatim subtree, or as one outside, and what is done
to it later is no more than to give it children, a text and data.
-/
namespace Templating

def Opening.inside (o : Opening) : Bool := (openElements o.past).any Opening.marked

theorem Opening.rawCases (options : Options) (o : Opening) :
    o.raw options = true ↔ (o.inside = true ∨ o.marked = true) ∨ options.isRawText o.element.tag = true := by
  unfold raw inside
  simp only [Bool.or_eq_true]
  constructor
  · rintro ((rawText | marked) | inside)
    · exact Or.inr rawText
    · exact Or.inl (Or.inr marked)
    · exact Or.inl (Or.inl inside)
  · rintro ((inside | marked) | rawText)
    · exact Or.inr inside
    · exact Or.inl (Or.inr marked)
    · exact Or.inl (Or.inl rawText)

theorem Builder.stepElement {α : Type} (view : Element → α) (closes : ∀ e children, view { e with children } = view e)
    (appends : ∀ (e : Element) run, view (e.appendText run) = view e) {b next : Builder} {event : Option Event}
    (h : b.Step next event) {id : NodeId} {seen : α} (got : (b.arena.element? id).map view = some seen) :
    (next.arena.element? id).map view = some seen := by
  have through (arena : Arena) :
      (arena.element? id).map view = some seen ↔
        (arena.get? id).map (fun node => node.element?.map view) = some (some seen) := by
    unfold Arena.element?
    cases arena.get? id <;> simp
  rw [through] at got ⊢
  refine stepView (fun node => node.element?.map view) ?_ ?_ h got
  · intro children stop node
    rw [Node.elementClose, Option.map_map]
    exact congrArg (fun change => node.element?.map change) (funext fun e => closes e children)
  · intro run node
    rw [Node.elementMapElement, Option.map_map]
    exact congrArg (fun change => node.element?.map change) (funext fun e => appends e run)

theorem Element.openingAppends (e : Element) (run : String) :
    (e.appendText run).opening = e.opening ∧ (e.appendText run).data = e.data := by
  unfold appendText
  split <;> exact ⟨rfl, rfl⟩

theorem Arena.marksPre {arena : Arena} {id : NodeId} {f : Element} (found : arena.element? id = some f) :
    arena.kin.marks id = f.pre := by
  unfold Kindred.marks kin Node.kinship
  obtain ⟨node, got, element⟩ := Option.bind_eq_some_iff.mp found
  rw [got, Option.map_some, Option.any_some, element, Option.any_some]

/-- An element as written, and what the analyser has made of it. -/
structure Settled (options : Options) (plain analysed : Arena) (o : Opening) : Prop where
  bare : o.element.Bare
  filed : o.element.Filed
  written : (plain.element? o.id).map Element.opening = some o.element
  result : ∃ f, analysed.element? o.id = some f ∧ f.opening = Analysis.letIn options o.inside o.element ∧
    (o.raw options = true → f.data = none)
  inside : o.inside = true ↔ analysed.kin.Inside o.id

namespace Settled
variable {options : Options} {plain analysed : Arena} {o : Opening}

theorem marked (settled : Settled options plain analysed o) :
    analysed.kin.marks o.id = true ↔ o.inside = false ∧ o.marked = true := by
  obtain ⟨f, found, opening, _⟩ := settled.result
  have pre : f.pre = (!o.inside && o.marked) := by
    have same : f.opening.pre = (!o.inside && o.marked) := by
      rw [opening, Directive.letInPre options o.inside settled.bare settled.filed]
      rfl
    exact same
  rw [Arena.marksPre found, pre, Bool.and_eq_true, Bool.not_eq_true']

theorem tag (settled : Settled options plain analysed o) {f : Element} (found : analysed.element? o.id = some f) :
    f.tag = o.element.tag := by
  obtain ⟨e, same, opening, _⟩ := settled.result
  cases found.symm.trans same
  have tags : f.opening.tag = (Analysis.letIn options o.inside o.element).tag := congrArg Element.tag opening
  exact tags.trans (Element.shapeTag (Directive.letInShape options o.inside o.element))

theorem covered (settled : Settled options plain analysed o) :
    analysed.kin.Covered o.id ↔ o.inside = true ∨ o.marked = true := by
  rw [Kindred.coveredCases, ← settled.inside, settled.marked]
  cases o.inside <;> simp

theorem kept {nextPlain nextAnalysed : Arena} (settled : Settled options plain analysed o)
    (written : ∀ seen, (plain.element? o.id).map Element.opening = some seen →
      (nextPlain.element? o.id).map Element.opening = some seen)
    (result : ∀ seen, (analysed.element? o.id).map Element.opening = some seen →
      (nextAnalysed.element? o.id).map Element.opening = some seen)
    (data : o.raw options = true → ∀ seen, (analysed.element? o.id).map Element.data = some seen →
      (nextAnalysed.element? o.id).map Element.data = some seen)
    (inside : nextAnalysed.kin.Inside o.id ↔ analysed.kin.Inside o.id) : Settled options nextPlain nextAnalysed o := by
  obtain ⟨f, found, opening, noData⟩ := settled.result
  obtain ⟨g, there, same⟩ := Option.map_eq_some_iff.mp (result f.opening (by rw [found]; rfl))
  refine ⟨settled.bare, settled.filed, written _ settled.written, ⟨g, there, same.trans opening, ?_⟩,
    settled.inside.trans inside.symm⟩
  intro raw
  have still := data raw f.data (by rw [found]; rfl)
  rw [there, Option.map_some, noData raw] at still
  exact Option.some.inj still

end Settled

namespace Analysis

theorem collectDataOpening (delimiters : Delimiters) (e : Element) : (collectData delimiters e).opening = e.opening := by
  unfold collectData
  split <;> rfl

theorem closedOthers {id other : NodeId} (differs : other ≠ id) (options : Options) (a : Analysis) (arena : Arena) :
    (closed options id a arena).2.get? other = arena.get? other := by
  unfold closed
  dsimp only
  split
  · rfl
  · rw [Arena.modifyElement, Arena.getModifyOther differs]

theorem closedOther {id other : NodeId} (differs : other ≠ id) (options : Options) (a : Analysis) (arena : Arena) :
    (closed options id a arena).2.element? other = arena.element? other :=
  congrArg (·.bind Node.element?) (closedOthers differs options a arena)

theorem closedOpening (options : Options) (id other : NodeId) (a : Analysis) (arena : Arena) :
    ((closed options id a arena).2.element? other).map Element.opening = (arena.element? other).map Element.opening := by
  by_cases same : other = id
  · subst same
    unfold closed
    dsimp only
    split
    · rfl
    · unfold Arena.modifyElement Arena.element?
      rw [Arena.getModify, if_pos rfl]
      cases arena.get? other with
      | none => rfl
      | some node =>
        rw [Option.map_some, Option.bind_some, Option.bind_some, Node.elementMapElement, Option.map_map]
        refine congrArg (fun view => node.element?.map view) (funext fun e => ?_)
        rw [Function.comp_apply]
        split
        · rfl
        · exact collectDataOpening options.delimiters e
  · rw [closedOther same]

def closesInside (a : Analysis) (id : NodeId) : Bool :=
  a.verbatim.any fun owner => owner = id ∨ owner ∈ outside id a.parents

theorem closesInsideIff {a : Analysis} {id : NodeId} :
    a.closesInside id = true ↔ ∃ owner, a.verbatim = some owner ∧ (owner = id ∨ owner ∈ outside id a.parents) := by
  unfold closesInside
  rw [Option.any_eq_true]
  simp only [decide_eq_true_eq]

theorem closedArena (options : Options) (id : NodeId) (a : Analysis) (arena : Arena) :
    (closed options id a arena).2 =
      if a.closesInside id then arena
      else arena.modifyElement id fun e => if options.isRawText e.tag then e else collectData options.delimiters e := by
  have inside : inVerbatim (settle { a with parents := outside id a.parents, previous := some id } id) =
      a.closesInside id := by
    unfold settle inVerbatim closesInside
    cases a.verbatim with
    | none => rfl
    | some owner =>
      by_cases gone : owner ≠ id ∧ owner ∉ outside id a.parents
      · simp [gone]
      · have within : owner = id ∨ owner ∈ outside id a.parents := by
          by_cases same : owner = id
          · exact Or.inl same
          · exact Or.inr (not_not.mp fun beyond => gone ⟨same, beyond⟩)
        simp only [ne_eq, gone, if_false, Option.any_some, decide_eq_true within, Option.isSome_some]
  unfold closed
  dsimp only
  rw [inside]

theorem closedVerbatim {options : Options} {id owner : NodeId} {a : Analysis} {arena : Arena}
    (reading : a.verbatim = some owner) (within : owner = id ∨ owner ∈ outside id a.parents) :
    (closed options id a arena).2 = arena := by
  rw [closedArena, if_pos (closesInsideIff.mpr ⟨owner, reading, within⟩)]

theorem closedRawText {options : Options} {id : NodeId} {e : Element} {arena : Arena} (got : arena.element? id = some e)
    (rawText : options.isRawText e.tag = true) (a : Analysis) :
    (closed options id a arena).2.element? id = some e := by
  rw [closedArena]
  split
  · exact got
  · obtain ⟨node, there, element⟩ := Option.bind_eq_some_iff.mp got
    rw [Arena.modifyElement, Arena.element?, Arena.getModify, if_pos rfl, there, Option.map_some, Option.bind_some,
      Node.elementMapElement, element, Option.map_some, if_pos rawText]

end Analysis

/-- The element whose verbatim subtree is being read is the one open element that is marked. -/
structure Shielded (options : Options) (past : List (Entry Unit)) (plain : Arena) (a : Analysis) (analysed : Arena) :
    Prop where
  owner : ∀ id, a.verbatim = some id ↔ id ∈ a.parents ∧ analysed.kin.marks id = true
  settled : ∀ o ∈ openings past, Settled options plain analysed o

namespace Shielded
variable {options : Options} {past : List (Entry Unit)} {entry : Entry Unit} {a after : Analysis} {id : NodeId}
  {p next q other : Builder}

theorem start (source : List Char) :
    Shielded options [] (Builder.ofSource source).arena Analysis.start (Builder.ofSource source).arena := by
  refine ⟨?_, ?_⟩
  · intro id
    constructor
    · intro impossible
      contradiction
    · rintro ⟨impossible, _⟩
      contradiction
  · intro o member
    contradiction

theorem steppedWritten {event : Option Event} (stepped : p.Step next event) (o : Opening) (seen : Element)
    (got : (p.arena.element? o.id).map Element.opening = some seen) :
    (next.arena.element? o.id).map Element.opening = some seen :=
  Builder.stepElement Element.opening (fun _ _ => rfl) (fun e run => (e.openingAppends run).1) stepped got

theorem steppedData {event : Option Event} (stepped : p.Step next event) (o : Opening) (seen : Option (Table Interpolation))
    (got : (p.arena.element? o.id).map Element.data = some seen) :
    (next.arena.element? o.id).map Element.data = some seen :=
  Builder.stepElement Element.data (fun _ _ => rfl) (fun e run => (e.openingAppends run).2) stepped got

theorem steppedTag {event : Option Event} (stepped : q.Step other event) {plain : Arena} {o : Opening} {f : Element}
    (settled : Settled options plain q.arena o) (there : other.arena.element? o.id = some f) :
    f.tag = o.element.tag := by
  obtain ⟨e, found, _⟩ := settled.result
  have after := steppedWritten stepped o e.opening (by rw [found]; rfl)
  rw [there, Option.map_some, Option.some.injEq] at after
  have tags : f.tag = e.tag := by simpa only [Element.opening] using congrArg Element.tag after
  exact tags.trans (settled.tag found)

theorem quiet (shielded : Shielded options past p.arena a q.arena) (stepped : p.Step next none)
    (steppedOther : q.Step other none) : Shielded options past next.arena a other.arena := by
  have kin := Builder.stepQuietKin steppedOther
  refine ⟨?_, ?_⟩
  · rw [kin]
    exact shielded.owner
  · intro o member
    exact (shielded.settled o member).kept (steppedWritten stepped o) (steppedWritten steppedOther o)
      (fun _ => steppedData steppedOther o) (by rw [kin])

theorem coveredReading (shielded : Shielded options past p.arena a q.arena) (coupled : Coupled a q)
    {above outer : List NodeId} (stack : q.stack = above ++ id :: outer) (waiting : q.arena.kin.isOpen id = true) :
    q.arena.kin.Covered id ↔
      ∃ owner, a.verbatim = some owner ∧ (owner = id ∨ owner ∈ Analysis.outside id a.parents) := by
  have innermost : (id :: outer).find? q.arena.kin.isOpen = some id := by rw [List.find?_cons, waiting]
  -- what is open from there on outwards is what the way up leads through
  have around (owner : NodeId) :
      Ancestor q.arena.kin.parent? id owner ↔ owner = id ∨ owner ∈ outer.filter q.arena.kin.isOpen := by
    rw [coupled.linked.openAncestors ⟨above, stack⟩ id owner innermost, List.filter_cons, if_pos waiting, List.mem_cons]
  have known (owner : NodeId) (on : owner = id ∨ owner ∈ outer.filter q.arena.kin.isOpen) : owner ∈ a.parents := by
    rw [coupled.parents, stack, List.filter_append, List.filter_cons, if_pos waiting]
    exact List.mem_append_right _ (List.mem_cons.mpr on)
  rw [coupled.closedParents stack waiting]
  refine exists_congr fun owner => ?_
  rw [around, shielded.owner]
  constructor
  · rintro ⟨on, marked⟩
    exact ⟨⟨known owner on, marked⟩, on⟩
  · rintro ⟨⟨_, marked⟩, on⟩
    exact ⟨on, marked⟩

theorem closedOwner (shielded : Shielded options past p.arena a q.arena) (coupled : Coupled a q)
    (steppedOther : q.Step other (some (.closed id))) (owner : NodeId) :
    (Analysis.closed options id a other.arena).1.verbatim = some owner ↔
      owner ∈ (Analysis.closed options id a other.arena).1.parents ∧
        (Analysis.closed options id a other.arena).2.kin.marks owner = true := by
  obtain ⟨above, outer, stack, _, waiting, kin⟩ := Builder.stepClosesKin steppedOther
  have linked := coupled.linked
  rw [stack] at linked
  have beyond : owner ∈ outer.filter q.arena.kin.isOpen → owner ≠ id ∧ owner ∈ a.parents := by
    intro member
    refine ⟨?_, ?_⟩
    · rintro rfl
      exact linked.notOuter (List.mem_filter.mp member).1
    · rw [coupled.parents, stack, List.filter_append, List.filter_cons, if_pos waiting]
      exact List.mem_append_right _ (List.mem_cons_of_mem _ member)
  rw [Followed.closedState, Analysis.closedKin, kin, Kindred.marksClose, coupled.closedParents stack waiting,
    Option.filter_eq_some_iff, shielded.owner]
  simp only [decide_eq_true_eq]
  constructor
  · rintro ⟨⟨_, marked⟩, _, member⟩
    exact ⟨member, marked⟩
  · rintro ⟨member, marked⟩
    obtain ⟨differs, before⟩ := beyond member
    exact ⟨⟨before, marked⟩, differs, member⟩

theorem closedData (shielded : Shielded options past p.arena a q.arena) (coupled : Coupled a q)
    (steppedOther : q.Step other (some (.closed id))) {o : Opening} (settled : Settled options p.arena q.arena o)
    (raw : o.raw options = true) (seen : Option (Table Interpolation))
    (got : (q.arena.element? o.id).map Element.data = some seen) :
    ((Analysis.closed options id a other.arena).2.element? o.id).map Element.data = some seen := by
  obtain ⟨above, outer, stack, _, waiting, _⟩ := Builder.stepClosesKin steppedOther
  have before := steppedData steppedOther o seen got
  by_cases here : o.id = id
  · subst here
    rcases (o.rawCases options).mp raw with within | rawText
    · obtain ⟨owner, reading, around⟩ := (shielded.coveredReading coupled stack waiting).mp (settled.covered.mpr within)
      rw [Analysis.closedVerbatim reading around]
      exact before
    · obtain ⟨e, there, data⟩ := Option.map_eq_some_iff.mp before
      rw [Analysis.closedRawText there (steppedTag steppedOther settled there ▸ rawText), Option.map_some, data]
  · rw [Analysis.closedOther here]
    exact before

theorem closed (shielded : Shielded options past p.arena a q.arena) (coupled : Coupled a q)
    (stepped : p.Step next (some (.closed id))) (steppedOther : q.Step other (some (.closed id)))
    (event : entry.event = .closed id) :
    Shielded options (entry :: past) next.arena (Analysis.closed options id a other.arena).1
      (Analysis.closed options id a other.arena).2 := by
  refine ⟨shielded.closedOwner coupled steppedOther, ?_⟩
  intro o member
  rw [openings, openingClosed event, Option.toList_none, List.append_nil] at member
  have settled := shielded.settled o member
  refine settled.kept (steppedWritten stepped o) ?_ (shielded.closedData coupled steppedOther settled) ?_
  · intro seen got
    rw [Analysis.closedOpening]
    exact steppedWritten steppedOther o seen got
  · obtain ⟨_, _, _, _, _, kin⟩ := Builder.stepClosesKin steppedOther
    rw [Analysis.closedKin, kin]
    exact Kindred.insideClose

theorem reading (shielded : Shielded options past p.arena a q.arena) (coupled : Coupled a q) :
    a.inVerbatim = true ↔ ∃ outer ∈ q.stack.filter q.arena.kin.isOpen, q.arena.kin.marks outer = true := by
  unfold Analysis.inVerbatim
  rw [Option.isSome_iff_exists, ← coupled.parents]
  exact exists_congr shielded.owner

theorem newParent (coupled : Coupled a q) (index : id.index = q.arena.size) : id ∉ a.parents := by
  intro member
  rw [coupled.parents] at member
  have below := coupled.below id (List.mem_filter.mp member).1
  omega

theorem newOwner (shielded : Shielded options past p.arena a q.arena) (coupled : Coupled a q)
    (index : id.index = q.arena.size) : a.verbatim ≠ some id := fun same =>
  newParent coupled index ((shielded.owner id).mp same).1

section Opened
variable {source : List Char} {node : Node} {changed : Arena}
  (sound : q.Sound source) (shielded : Shielded options past p.arena a q.arena) (coupled : Coupled a q)
  (steppedOther : q.Step other (some (.opened id)))
  (told : Analysis.opened options source id a other.arena = .ok (after, changed))
include sound coupled steppedOther told

theorem openedMarks {outer : NodeId} (differs : outer ≠ id) : changed.kin.marks outer = q.arena.kin.marks outer := by
  obtain ⟨_, _, _, kin, _⟩ := coupled.openedKin sound steppedOther told
  rw [kin, Kindred.marksAdd differs]

theorem openedEarlier (stepped : p.Step next (some (.opened id))) (gotOther : other.arena.get? id = some node)
    {o : Opening} (differs : o.id ≠ id) (settled : Settled options p.arena q.arena o) :
    Settled options next.arena changed o := by
  obtain ⟨_, _, _, kin, _⟩ := coupled.openedKin sound steppedOther told
  obtain ⟨_, _, _, index, _⟩ := Builder.stepOpens sound steppedOther
  obtain ⟨⟨content, _, rfl⟩, _⟩ := Analysis.openedPlaces gotOther told
  refine settled.kept (steppedWritten stepped o) ?_ ?_ ?_
  · intro seen got
    unfold Arena.element?
    rw [Arena.getModifyOther differs]
    exact steppedWritten steppedOther o seen got
  · intro _ seen got
    unfold Arena.element?
    rw [Arena.getModifyOther differs]
    exact steppedData steppedOther o seen got
  · rw [kin]
    exact Kindred.insideAdd differs (coupled.linked.parentKnown (Arena.kinNone index)) _

include shielded

theorem openedSettled {e : Element} (followed : Followed past a) (got : next.arena.get? id = some node)
    (gotOther : other.arena.get? id = some node) (fresh : node.Fresh) (content : node.content = .element e) :
    Settled options next.arena changed ⟨past, id, node, e⟩ := by
  have bare := fresh.element e content
  have element : node.element? = some e := by simp [Node.element?, content]
  have inside : (Opening.mk past id node e).inside = a.inVerbatim := followed.inVerbatim.symm
  obtain ⟨_, _, _, index, _⟩ := Builder.stepOpens sound steppedOther
  refine ⟨bare, fresh.filed e content, ?_, ?_, ?_⟩
  · unfold Arena.element?
    rw [got, Option.bind_some, element, Option.map_some, Element.openingBare bare]
  · obtain ⟨_, rfl⟩ := Analysis.openedElement gotOther content told
    have opening := Directive.letInOpening options a.inVerbatim bare
    refine ⟨Analysis.letIn options a.inVerbatim e, ?_, by rw [inside]; exact opening, ?_⟩
    · unfold Arena.element?
      rw [Arena.getModify, if_pos rfl, gotOther]
      rfl
    · intro _
      rw [← opening]
      rfl
  · obtain ⟨isElement, done, pre, kin, _⟩ := coupled.openedKin sound steppedOther told
    rw [inside, shielded.reading coupled, kin]
    exact (coupled.linked.openedInside (Arena.kinNone index) isElement done pre).symm

theorem openedLeafOwner (gotOther : other.arena.get? id = some node) (fresh : node.Fresh)
    (leaf : ∀ e, node.content ≠ .element e) (owner : NodeId) :
    after.verbatim = some owner ↔ owner ∈ after.parents ∧ changed.kin.marks owner = true := by
  obtain ⟨_, _, _, index, _⟩ := Builder.stepOpens sound steppedOther
  have marks (outer : NodeId) (differs : outer ≠ id) := openedMarks sound coupled steppedOther told differs
  rw [Analysis.openedLeaf a options source gotOther leaf, if_pos (fresh.leaf (Node.leafIsElement leaf)),
    Analysis.finishFresh (shielded.newOwner coupled index)] at told
  cases told
  refine (shielded.owner owner).trans (and_congr_right fun member => ?_)
  rw [marks owner]
  rintro rfl
  exact newParent coupled index member

theorem openedElementOwner {e : Element} (gotOther : other.arena.get? id = some node) (content : node.content = .element e)
    (settled : Settled options next.arena changed ⟨past, id, node, e⟩) (followed : Followed past a) (owner : NodeId) :
    after.verbatim = some owner ↔ owner ∈ after.parents ∧ changed.kin.marks owner = true := by
  obtain ⟨_, _, _, index, _⟩ := Builder.stepOpens sound steppedOther
  have here := settled.marked
  have inside : (Opening.mk past id node e).inside = a.inVerbatim := followed.inVerbatim.symm
  have same : (Opening.mk past id node e).marked = e.carries "v-pre" := rfl
  rw [inside, same] at here
  -- for the elements open before, nothing has changed
  have earlier : (a.verbatim = some owner) ↔ owner ∈ a.parents ∧ changed.kin.marks owner = true := by
    refine (shielded.owner owner).trans (and_congr_right fun member => ?_)
    rw [openedMarks sound coupled steppedOther told]
    rintro rfl
    exact newParent coupled index member
  rw [(Analysis.openedElement gotOther content told).1, Analysis.noteOpened]
  cases node.done with
  | true =>
    rw [if_pos rfl, Analysis.finishEntered e (shielded.newOwner coupled index)]
    exact earlier
  | false =>
    rw [if_neg (by decide)]
    unfold Analysis.enter
    split
    · rename_i entered
      simp only [Bool.and_eq_true, Bool.not_eq_true'] at entered
      have nobody : a.verbatim = none := Option.isNone_iff_eq_none.mp (Option.isSome_eq_false_iff.mp entered.1)
      constructor
      · intro self
        cases self
        exact ⟨List.mem_cons_self, here.mpr entered⟩
      · rintro ⟨member, marked⟩
        rcases List.mem_cons.mp member with rfl | before
        · rfl
        · have reading := earlier.mpr ⟨before, marked⟩
          rw [nobody] at reading
          contradiction
    · rename_i stays
      constructor
      · intro reading
        obtain ⟨before, marked⟩ := earlier.mp reading
        exact ⟨List.mem_cons_of_mem _ before, marked⟩
      · rintro ⟨member, marked⟩
        rcases List.mem_cons.mp member with rfl | before
        · simp [here.mp marked] at stays
        · exact earlier.mpr ⟨before, marked⟩

end Opened

theorem opened {source : List Char} {node : Node} {changed : Arena} (sound : q.Sound source)
    (shielded : Shielded options past p.arena a q.arena) (coupled : Coupled a q) (followed : Followed past a)
    (others : ∀ entry ∈ past, entry.event.id ≠ id) (stepped : p.Step next (some (.opened id)))
    (steppedOther : q.Step other (some (.opened id))) (got : next.arena.get? id = some node)
    (gotOther : other.arena.get? id = some node) (fresh : node.Fresh) (event : entry.event = .opened id)
    (here : entry.node = some node)
    (told : Analysis.opened options source id a other.arena = .ok (after, changed)) :
    Shielded options (entry :: past) next.arena after changed := by
  have earlier (o : Opening) (member : o ∈ openings past) : Settled options next.arena changed o :=
    openedEarlier sound coupled steppedOther told stepped gotOther (Judged.openingsOther others o member)
      (shielded.settled o member)
  rcases node.contentCases with ⟨e, content⟩ | leaf
  · have settled := openedSettled sound shielded coupled steppedOther told followed got gotOther fresh content
    refine ⟨openedElementOwner sound shielded coupled steppedOther told gotOther content settled followed, ?_⟩
    intro o member
    rw [openings, openingElement event here content] at member
    rcases List.mem_append.mp member with before | latest
    · exact earlier o before
    · rw [List.mem_singleton.mp latest]
      exact settled
  · refine ⟨openedLeafOwner sound shielded coupled steppedOther told gotOther fresh leaf, ?_⟩
    intro o member
    rw [openings, openingLeaf here leaf] at member
    exact earlier o (by simpa using member)

end Shielded
namespace Build
variable {comments : Bool} {options : Options} {source : List Char} {p next : Build (Journal Unit)}
  {q other : Build Analysis}

structure Reads (options : Options) (source : List Char) (p : Build (Journal Unit)) (q : Build Analysis) : Prop where
  tracks : Tracks options source p q
  coupled : Coupled q.state q.builder
  shielded : Shielded options p.state.latest p.builder.arena q.state q.builder.arena

theorem shieldedTurn (reads : Reads options source p q)
    (taken : p.turn comments (Journal.receiver none Receiver.silent) = .ok next)
    (takenOther : q.turn comments (Analysis.receiver options source) = .ok other) :
    Shielded options next.state.latest next.builder.arena other.state other.builder.arena := by
  obtain ⟨tracks, coupled, shielded⟩ := reads
  have sound := Builder.soundAlike tracks.alike tracks.sound
  rcases turnsSideBySide comments (Analysis.receiver options source) Journal.watches tracks.alike with
    ⟨cause, _, left, _⟩ | ⟨plain, analysed, stepped, steppedOther, _, left, right⟩ |
    ⟨plain, analysed, event, state, stepped, steppedOther, _, pushed, recorded, left, right⟩
  · rw [left] at taken
    contradiction
  · cases left.symm.trans taken
    cases right.symm.trans takenOther
    exact shielded.quiet (Builder.stepCases stepped) (Builder.stepCases steppedOther)
  · have entry : p.state.record event () plain.arena none = state := congrArg Prod.fst (Except.ok.inj recorded)
    cases left.symm.trans taken
    rw [right] at takenOther
    rw [← entry]
    cases event with
    | closed id =>
      cases takenOther
      exact shielded.closed coupled (Builder.stepCases stepped) (Builder.stepCases steppedOther) rfl
    | opened id =>
      obtain ⟨node, got, gotOther, fresh⟩ := openedBoth tracks (Builder.stepCases stepped) (pushed id rfl)
      obtain ⟨_, _, _, index, _⟩ := Builder.stepOpens tracks.sound (Builder.stepCases stepped)
      have others : ∀ entry ∈ p.state.latest, entry.event.id ≠ id := by
        intro entry member same
        have known := tracks.recorded.known entry member
        rw [same] at known
        omega
      unfold tell at takenOther
      split at takenOther
      · rename_i after arena told
        cases takenOther
        exact shielded.opened sound coupled tracks.followed others (Builder.stepCases stepped)
          (Builder.stepCases steppedOther) got gotOther fresh rfl got told
      · contradiction

theorem Reads.skipBlank (reads : Reads options source p q) : Reads options source p.skipBlank q.skipBlank :=
  ⟨tracksSkip reads.tracks, coupledSkip reads.coupled, ⟨reads.shielded.owner, reads.shielded.settled⟩⟩

theorem readsAgree (reads : Reads options source p q) :
    TurnsAgree (Reads options source) (FaultFound options source)
      (p.turn options.comments (Journal.receiver none Receiver.silent))
      (q.turn options.comments (Analysis.receiver options source)) := by
  have agree : TurnsAgree _ _ (p.turn options.comments _) (q.turn options.comments _) := tracksTurn reads.tracks
  have sound := Builder.soundAlike reads.tracks.alike reads.tracks.sound
  generalize taken : p.turn options.comments (Journal.receiver none Receiver.silent) = left at agree ⊢
  generalize takenOther : q.turn options.comments (Analysis.receiver options source) = right at agree ⊢
  cases agree with
  | together tracks =>
    exact .together ⟨tracks, reads.coupled.turn sound takenOther, shieldedTurn reads taken takenOther⟩
  | failed fails => exact .failed fails
  | stopped reason => exact .stopped reason

theorem readsTurn (reads : Reads options source p q)
    (taken : p.turn options.comments (Journal.receiver none Receiver.silent) = .ok next)
    (takenOther : q.turn options.comments (Analysis.receiver options source) = .ok other) :
    Reads options source next other := by
  have agree := readsAgree reads
  rw [taken, takenOther] at agree
  cases agree with
  | together after => exact after

theorem readsRun (short : Text.byteLength source < UInt32.size) {last : Build (Journal Unit)} {analysed : Build Analysis}
    (ran : buildWith options (Journal.receiver none Receiver.silent) (Journal.ofState ()) source = .ok last)
    (ranOther : buildWith options (Analysis.receiver options source) Analysis.start source = .ok analysed) :
    Reads options source last analysed := by
  refine runsInvariant (I := Reads options source) ?_ ?_ ?_
    ⟨tracksStart options short, Coupled.start source, Shielded.start source⟩ ran ranOther
  · intro p q reads
    exact reads.skipBlank
  · intro p q reads
    exact congrArg Markup.Scanner.atEnd reads.tracks.alike.scanner
  · intro p q next other reads taken takenOther
    exact readsTurn reads taken takenOther

end Build

/- The elements of an accepted template are those of the plain build, each settled as it was opened. -/
theorem parsedSettled {options : Options} {template : String} {ast : Ast} (short : template.utf8ByteSize < UInt32.size)
    (accepted : parseWith options template = .ok ast) :
    ∃ plain, readForest options template = .ok plain ∧
      (∀ o ∈ openings (notices options template), Settled options plain.arena ast.arena o ∧
        (o.raw options = false → o.Lawful options)) ∧
      ∀ id f, ast.arena.element? id = some f → ∃ o ∈ openings (notices options template), o.id = id := by
  rw [← Text.byteLengthToList] at short
  obtain ⟨forest, analysed, _, arena⟩ := parsedForest accepted
  obtain ⟨other, ranOther, rfl⟩ := forestOfOk analysed
  obtain ⟨last, ran, alike⟩ := Build.watchedBeside (Journal.ofState ()) Journal.watches ranOther
  have reads := Build.readsRun short ran ranOther
  have latest : notices options template = last.state.latest := by
    unfold notices
    rw [ran]
  -- the build that nobody looks at has the nodes of the one that keeps the journal
  obtain ⟨plain, silent, builders⟩ : ∃ plain, buildWith options Receiver.silent () template.toList = .ok plain ∧
      plain.builder = last.builder := by
    rcases Build.watchersAgree options.comments Receiver.silentWatches Journal.watches
        (p := Build.ofSource template.toList ()) (q := Build.ofSource template.toList (Journal.ofState ())) rfl with
      ⟨plain, journal, ranPlain, ranJournal, same⟩ | ⟨_, _, _, failed, _⟩
    · cases ranJournal.symm.trans ran
      exact ⟨plain, ranPlain, same⟩
    · rw [buildWith, failed] at ran
      contradiction
  have nodes : plain.forest.arena = last.builder.arena := congrArg Builder.arena builders
  refine ⟨plain.forest, by rw [readForest, silent]; rfl, ?_, ?_⟩
  · intro o member
    rw [latest] at member
    rw [nodes, ← arena]
    refine ⟨reads.shielded.settled o member, fun plain => ?_⟩
    exact (o.lawfulFault options template.toList).mp (List.findSome?_eq_none_iff.mp reads.tracks.lawful o member) plain
  · intro id f found
    rw [latest]
    rw [← arena] at found
    obtain ⟨node, there, element⟩ := Option.bind_eq_some_iff.mp found
    obtain ⟨seen, got, same⟩ := Arena.alikeSeen alike.arena there
    have isElement : seen.isElement = true := by
      rw [Node.outlineIsElement same, Node.isElement, element]
      rfl
    obtain ⟨e, content⟩ := Option.isSome_iff_exists.mp isElement
    have written : (id, e.tag, e.attributes) ∈ (openings last.state.latest).map Opening.written := by
      rw [reads.tracks.recorded.elements]
      refine Arena.writtenMember ?_
      rw [Arena.element?, got]
      exact content
    obtain ⟨o, member, here⟩ := List.mem_map.mp written
    exact ⟨o, member, congrArg Prod.fst here⟩

end Templating
