import Templating.Proofs.Stretches

/-!
The markup of a source as a build comes by it. Each token of it stands behind the one before, and opens a node or is
the end tag of an element; where no node is left out, these are the events of the build in their order.
-/
namespace Templating
open Markup

namespace Markup
variable {source covered signs : List Char} {offset : Nat} {token other : Token}

theorem Scanner.reachesOnce {start s t : Scanner} {lead further : List Char} (first : start.Reaches lead s)
    (second : start.Reaches further t) (same : s.offset = t.offset) : s = t := by
  have before := first.offset
  have behind := second.offset
  obtain ⟨more, longer, rest⟩ := Text.splitWithin (first.rest.symm.trans second.rest) (by omega)
  have none : more = [] := by
    by_contra signs
    have positive := Text.byteLengthPositive signs
    rw [longer, Text.byteLengthAppend] at before
    omega
  rw [none, List.nil_append] at rest
  have source := first.source.trans second.source.symm
  cases s
  cases t
  cases same
  cases rest
  cases source
  rfl

theorem tokenAtOnce (here : TokenAt source offset token covered) (there : TokenAt source offset other signs) :
    covered = signs := by
  obtain ⟨lead, s, behind, reaches, rfl, read, taken⟩ := here
  obtain ⟨further, t, after, also, place, again, passed⟩ := there
  cases Scanner.reachesOnce reaches also place.symm
  cases read.symm.trans again
  exact List.append_cancel_right (taken.rest.symm.trans passed.rest)

end Markup

/-- The token stands in the source: it opens the node that is told of, or it is the end tag of that element. Where
an element has no end tag, its span ends with the token that opens it. -/
inductive Mark.Stands (source : List Char) (shut : List NodeId) (arena : Arena) : Mark → Prop where
  | opening {id node token covered start} (got : arena.get? id = some node) (read : TokenAt source start token covered)
      (written : token.Written covered) (opens : node.content.OpenedBy token) (place : node.span.start.toNat = start)
      (whole : id ∉ shut → node.span.stop.toNat = start + Text.byteLength covered) :
      Stands source shut arena ⟨.opened id, start, start + Text.byteLength covered⟩
  | ending {id node e covered start} (got : arena.get? id = some node) (content : node.content = .element e)
      (read : TokenAt source start (.endTag e.tag.toList) covered) (written : (Token.endTag e.tag.toList).Written covered)
      (place : node.span.stop.toNat = start + Text.byteLength covered) (closed : id ∈ shut) :
      Stands source shut arena ⟨.closed id, start, start + Text.byteLength covered⟩

namespace Mark
variable {source covered : List Char} {shut : List NodeId} {arena changed : Arena} {mark other : Mark} {b next : Builder}
  {id : NodeId} {earlier node : Node} {e : Element} {above outer : List NodeId}

theorem standsForward (stands : mark.Stands source shut arena) : mark.start < mark.stop := by
  cases stands with
  | opening got read written opens place whole =>
    have positive := Text.byteLengthPositive (writtenSigns written (Content.openedMarked opens))
    dsimp only
    omega
  | ending got content read written place closed =>
    have positive := Text.byteLengthPositive (writtenSigns written fun run => by simp)
    dsimp only
    omega

theorem standsOnce (stands : mark.Stands source shut arena) (also : other.Stands source shut arena)
    (same : mark.event = other.event) : mark = other := by
  cases stands with
  | opening got read written opens place whole =>
    cases also with
    | opening there again _ _ start _ =>
      cases same
      cases got.symm.trans there
      cases place.symm.trans start
      rw [tokenAtOnce read again]
    | ending => cases same
  | ending got content read written place closed =>
    cases also with
    | opening => cases same
    | ending there element again signs stop _ =>
      cases same
      cases got.symm.trans there
      cases content.symm.trans element
      -- both end tags are written alike and end at one place
      cases Eq.trans written signs.symm
      have start := place.symm.trans stop
      rw [Nat.add_right_cancel start]

theorem standsKept (stands : mark.Stands source shut arena) (sites : arena.Agree Node.site changed) :
    mark.Stands source shut changed := by
  cases stands with
  | opening got read written opens place whole =>
    obtain ⟨twin, there, site⟩ := Arena.agreeSeen sites.symm got
    have span : twin.span = _ := congrArg Site.span site
    have sign : twin.content.sign = _ := congrArg Site.sign site
    exact .opening there read written (Content.openedBySign sign.symm opens) (span ▸ place) (span ▸ whole)
  | ending got content read written place closed =>
    obtain ⟨twin, there, site⟩ := Arena.agreeSeen sites.symm got
    have span : twin.span = _ := congrArg Site.span site
    have sign : twin.content.sign = _ := congrArg Site.sign site
    obtain ⟨f, element, tag⟩ := Content.elementSign sign.symm content
    rw [← tag] at read written
    exact .ending there element read written (span ▸ place) closed

theorem standsPushed (stands : mark.Stands source shut arena) (node : Node) : mark.Stands source shut (arena.push node) := by
  cases stands with
  | opening got read written opens place whole =>
    exact .opening (Arena.getPushKept got node) read written opens place whole
  | ending got content read written place closed =>
    exact .ending (Arena.getPushKept got node) content read written place closed

theorem standsClosed (stands : mark.Stands source shut b.arena) (never : id ∉ shut)
    (closes : b.Closes next id earlier node e above outer covered) : mark.Stands source (shut ++ [id]) next.arena := by
  cases stands with
  | @opening other seen token signs start got read written opens place whole =>
    by_cases here : other = id
    · subst here
      cases got.symm.trans closes.found
      refine .opening closes.got read written ?_ ?_ fun waiting => ?_
      · obtain ⟨f, paired, told, tag⟩ := closes.before ▸ opens
        rw [closes.content]
        exact ⟨f, paired, told, tag⟩
      · rw [closes.start]
        exact place
      · exact absurd (List.mem_append_right shut List.mem_cons_self) waiting
    · refine .opening ((closes.others other here).trans got) read written opens place fun waiting => whole fun shut => ?_
      exact waiting (List.mem_append_left _ shut)
  | @ending other seen f signs start got content read written place closed =>
    have here : other ≠ id := by
      rintro rfl
      exact never closed
    exact .ending ((closes.others other here).trans got) content read written place (List.mem_append_left _ closed)

end Mark

structure Marked {σ : Type} (source : List Char) (entries : List (Entry σ)) (arena : Arena) (marks : List Mark) : Prop where
  told : marks.map Mark.event = entries.map Entry.event
  stands : ∀ mark ∈ marks, mark.Stands source (closedIds entries) arena
  ordered : marks.Pairwise fun mark later => mark.stop ≤ later.start
  first : ∀ id node, arena.get? id = some node → ∃ mark ∈ marks, mark.event = .opened id

namespace Marked
variable {σ : Type} {source covered : List Char} {entries : List (Entry σ)} {entry : Entry σ} {arena changed : Arena}
  {marks others : List Mark} {b next : Builder} {id : NodeId} {earlier node : Node} {token : Token} {e : Element}
  {above outer : List NodeId}

theorem start (source : List Char) : Marked source ([] : List (Entry σ)) (Builder.ofSource source).arena [] := by
  refine ⟨rfl, fun mark none => by contradiction, .nil, ?_⟩
  intro id node got
  simp [Builder.ofSource, Arena.empty, Arena.get?] at got

theorem once (marked : Marked source entries arena marks) (also : Marked source entries arena others) : others = marks := by
  have told := also.told.trans marked.told.symm
  refine List.ext_getElem (by simpa using congrArg List.length told) fun i inside bound => ?_
  have event : others[i].event = marks[i].event := by
    have here := congrArg (fun events => events[i]?) told
    simpa [inside, bound] using here
  exact Mark.standsOnce (also.stands _ (List.getElem_mem inside)) (marked.stands _ (List.getElem_mem bound)) event

theorem waits (marked : Marked source entries arena marks) (never : id ∉ closedIds entries) :
    .closed id ∉ marks.map Mark.event := by
  rw [marked.told]
  intro member
  obtain ⟨entry, inside, event⟩ := List.mem_map.mp member
  refine never (List.mem_filterMap.mpr ⟨entry, inside, ?_⟩)
  unfold Entry.closed?
  rw [event]

theorem entered (marked : Marked source entries arena marks) (got : arena.get? id = some node)
    (never : id ∉ closedIds entries) : ∃ first, marks.find? (fun mark => mark.event = .opened id) = some first ∧
      first.stop = (arena.place id).stop.toNat := by
  obtain ⟨mark, member, event⟩ := marked.first id node got
  have there : (marks.find? fun mark => mark.event = .opened id).isSome = true :=
    List.find?_isSome.mpr ⟨mark, member, decide_eq_true event⟩
  obtain ⟨first, found⟩ := Option.isSome_iff_exists.mp there
  have opened : first.event = .opened id := by simpa using List.find?_some found
  refine ⟨first, found, ?_⟩
  cases marked.stands first (List.mem_of_find?_eq_some found) with
  | opening there read written opens place whole =>
    cases opened
    rw [Arena.placeGot there, whole never]
  | ending => cases opened

theorem kept (marked : Marked source entries arena marks) (sites : arena.Agree Node.site changed) :
    Marked source entries changed marks := by
  refine ⟨marked.told, fun mark member => Mark.standsKept (marked.stands mark member) sites, marked.ordered, ?_⟩
  intro id node got
  obtain ⟨twin, there, _⟩ := Arena.agreeSeen sites got
  exact marked.first id twin there

theorem opened (marked : Marked source entries b.arena marks) (cursor : ∃ lead, (Scanner.ofSource source).Reaches lead b.scanner)
    (behind : ∀ mark ∈ marks, mark.stop ≤ b.scanner.offset) (event : entry.event = .opened id)
    (opens : b.Opens next id node token covered) :
    Marked source (entries ++ [entry]) next.arena (marks ++ [⟨.opened id, b.scanner.offset, next.scanner.offset⟩]) := by
  refine ⟨?_, ?_, ?_, ?_⟩
  · rw [List.map_append, List.map_append, marked.told, List.map_singleton, List.map_singleton, event]
  · rw [closedIdsOpened event]
    intro mark member
    rcases List.mem_append.mp member with before | new
    · rw [opens.arena]
      exact Mark.standsPushed (marked.stands mark before) node
    · obtain ⟨lead, reaches⟩ := cursor
      rw [List.mem_singleton.mp new, opens.reaches.offset]
      refine .opening opens.got ⟨lead, b.scanner, next.scanner, reaches, rfl, opens.read, opens.reaches⟩ opens.written
        opens.content opens.start fun _ => ?_
      rw [opens.stop, opens.reaches.offset]
  · refine List.pairwise_append.mpr ⟨marked.ordered, List.pairwise_singleton _ _, fun mark before later new => ?_⟩
    rw [List.mem_singleton.mp new]
    exact behind mark before
  · intro other seen got
    rw [opens.arena] at got
    rcases Arena.getPushCases got with ⟨place, _⟩ | before
    · rw [NodeId.indexInjective (place.trans opens.index.symm)]
      exact ⟨_, List.mem_append_right marks List.mem_cons_self, rfl⟩
    · obtain ⟨mark, member, told⟩ := marked.first other seen before
      exact ⟨mark, List.mem_append_left _ member, told⟩

theorem closed (marked : Marked source entries b.arena marks) (cursor : ∃ lead, (Scanner.ofSource source).Reaches lead b.scanner)
    (behind : ∀ mark ∈ marks, mark.stop ≤ b.scanner.offset) (event : entry.event = .closed id) (never : id ∉ closedIds entries)
    (closes : b.Closes next id earlier node e above outer covered) :
    Marked source (entries ++ [entry]) next.arena (marks ++ [⟨.closed id, b.scanner.offset, next.scanner.offset⟩]) := by
  refine ⟨?_, ?_, ?_, ?_⟩
  · rw [List.map_append, List.map_append, marked.told, List.map_singleton, List.map_singleton, event]
  · rw [closedIdsClosed event]
    intro mark member
    rcases List.mem_append.mp member with before | new
    · exact Mark.standsClosed (marked.stands mark before) never closes
    · obtain ⟨lead, reaches⟩ := cursor
      rw [List.mem_singleton.mp new, closes.reaches.offset]
      refine .ending closes.got closes.content ⟨lead, b.scanner, next.scanner, reaches, rfl, closes.read, closes.reaches⟩
        closes.written ?_ (List.mem_append_right _ List.mem_cons_self)
      rw [closes.stop, closes.reaches.offset]
  · refine List.pairwise_append.mpr ⟨marked.ordered, List.pairwise_singleton _ _, fun mark before later new => ?_⟩
    rw [List.mem_singleton.mp new]
    exact behind mark before
  · intro other seen got
    have before : ∃ seen, b.arena.get? other = some seen := by
      by_cases here : other = id
      · exact ⟨earlier, here ▸ closes.found⟩
      · exact ⟨seen, (closes.others other here).symm.trans got⟩
    obtain ⟨twin, there⟩ := before
    obtain ⟨mark, member, told⟩ := marked.first other twin there
    exact ⟨mark, List.mem_append_left _ member, told⟩

end Marked

end Templating
