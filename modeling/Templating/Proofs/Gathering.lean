import Templating.Proofs.Unclosed
import Templating.Proofs.Verbatim

/-!
Interpolations beside the text they were found in. They are collected once, as the end tag of an element
is read, and a text may still grow after that; but only where no element on the stack is open any more,
and what has its place there has it to the end. So in an accepted template it is the root alone whose
text may be longer than the one its data are from.
-/
namespace Templating

def Extends (before after : Option String) : Prop := ∀ seen, before = some seen → ∃ more, after = some (seen ++ more)

theorem extendsSelf (text : Option String) : Extends text text := fun seen here => ⟨"", by rw [here, String.append_empty]⟩

theorem extendsAppend {before : Option String} {e : Element} (growth : Extends before e.text) (run : String) :
    Extends before (e.appendText run).text := by
  intro seen here
  obtain ⟨more, text⟩ := growth seen here
  refine ⟨more ++ (" " ++ run), ?_⟩
  unfold Element.appendText
  rw [text]
  simp only [String.append_assoc]

def Entry.text? (entry : Entry Unit) : Option String := (entry.node.bind Node.element?).bind Element.text

theorem Table.emptyExtend {α : Type} (table : Table α) : Table.empty.extend table = table := by
  refine entriesInjective ?_
  have entries : (Table.empty.extend table).entries = Table.empty.entries ++ table.entries :=
    Table.insertAllNew table.distinct fun _ _ => List.not_mem_nil
  exact entries.trans (List.nil_append _)

namespace Builder
variable {b next p q : Builder} {id : NodeId}

/- On the stack, with nothing open from there on outwards. -/
def Exposed (b : Builder) (id : NodeId) : Prop :=
  ∃ above outer, b.stack = above ++ id :: outer ∧ ∀ other ∈ id :: outer, b.isOpenElement other = false

theorem exposedSingle {root : NodeId} (stack : b.stack = [root]) (exposed : b.Exposed id) : id = root := by
  obtain ⟨above, outer, split, _⟩ := exposed
  have member : id ∈ b.stack := by rw [split]; simp
  rw [stack] at member
  exact List.mem_singleton.mp member

theorem textOwnerCases {owner : NodeId} (owned : b.textOwner? = some owner) :
    b.isOpenElement owner = true ∨ b.Exposed owner := by
  unfold textOwner? at owned
  rcases Option.or_eq_some_iff.mp owned with found | ⟨none, found⟩
  · exact Or.inl (List.find?_some found)
  · obtain ⟨above, outer, split⟩ := List.append_of_mem (List.mem_of_find?_eq_some found)
    refine Or.inr ⟨above, outer, split, fun other member => ?_⟩
    have closed := List.find?_eq_none.mp none other (by rw [split]; exact List.mem_append_right _ member)
    exact Bool.not_eq_true _ ▸ closed

theorem exposedQuiet (h : b.Step next none) (exposed : b.Exposed id) : next.Exposed id := by
  obtain ⟨stack, _, same⟩ := stepQuiet h
  obtain ⟨above, outer, split, closed⟩ := exposed
  exact ⟨above, outer, stack.trans split, fun other member => (same other).trans (closed other member)⟩

theorem exposedOpened {source : List Char} {new : NodeId} (sound : b.Sound source)
    (within : ∀ other ∈ b.stack, other.index < b.arena.size) (h : b.Step next (some (.opened new)))
    (exposed : b.Exposed id) : next.Exposed id := by
  obtain ⟨node, arena, stack, _, _, _, _⟩ := stepOpens sound h
  obtain ⟨above, outer, split, closed⟩ := exposed
  refine ⟨new :: above, outer, by rw [stack, split]; rfl, fun other member => ?_⟩
  have bound := within other (by rw [split]; exact List.mem_append_right _ member)
  rw [← closed other member]
  unfold isOpenElement
  rw [arena, Arena.getPush, if_neg (by omega)]

theorem exposedClosed {new : NodeId} (h : b.Step next (some (.closed new))) (exposed : b.Exposed id) :
    next.Exposed id := by
  obtain ⟨above, outside, node, stack, nextStack, got, isElement, waiting, arena⟩ := stepCloses h
  obtain ⟨inner, outer, split, closed⟩ := exposed
  have open_ : b.isOpenElement new = true := by
    unfold isOpenElement
    simp [got, isElement, waiting]
  have differs (other : NodeId) (member : other ∈ id :: outer) : other ≠ new := by
    rintro rfl
    rw [closed other member] at open_
    contradiction
  -- the element closed is further in than the node, which so stays on the stack
  obtain ⟨between, tail⟩ : ∃ between, outside = between ++ id :: outer := by
    rcases stackSplits (stack.symm.trans split) (differs id List.mem_cons_self) with below | ⟨between, _, rest⟩
    · exact below
    · have member : new ∈ id :: outer := by rw [rest]; simp
      exact absurd rfl (differs new member)
  refine ⟨new :: between, outer, by rw [nextStack, tail]; rfl, fun other member => ?_⟩
  rw [← closed other member]
  unfold isOpenElement
  rw [arena, Arena.getModifyOther (differs other member)]

end Builder

structure Texts (past : List (Entry Unit)) (b : Builder) : Prop where
  once : past.Pairwise fun later earlier => ∀ id, later.Finishes id → ¬ earlier.Finishes id
  blank : ∀ entry ∈ past, ∀ id, entry.event = .opened id → entry.text? = none
  finished : ∀ entry ∈ past, ∀ id, entry.Finishes id → ∀ f, b.arena.element? id = some f →
    f.text = entry.text? ∨ b.Exposed id ∧ Extends entry.text? f.text

theorem Reported.unfinished {past : List (Entry Unit)} {b : Builder} (reported : Reported past b) {id : NodeId}
    {node : Node} (got : b.arena.get? id = some node) (waiting : node.done = false) :
    ∀ entry ∈ past, ¬ entry.Finishes id := by
  intro entry member finishes
  rw [(reported.done id node got).mpr ⟨entry, member, finishes⟩] at waiting
  contradiction

namespace Texts
variable {source : List Char} {past : List (Entry Unit)} {entry : Entry Unit} {b next : Builder} {id : NodeId}

theorem start (source : List Char) : Texts [] (Builder.ofSource source) := by
  refine ⟨.nil, ?_, ?_⟩
  · intro entry member
    contradiction
  · intro entry member
    contradiction

theorem quiet (texts : Texts past b) (reported : Reported past b) (h : b.Step next none) : Texts past next := by
  refine ⟨texts.once, texts.blank, ?_⟩
  intro entry member id finishes f found
  have kept (before : b.arena.element? id = some f) :
      f.text = entry.text? ∨ next.Exposed id ∧ Extends entry.text? f.text :=
    (texts.finished entry member id finishes f before).imp_right fun grown => ⟨Builder.exposedQuiet h grown.1, grown.2⟩
  rcases Builder.stepQuietCases h with same | ⟨owner, run, owned, arena⟩
  · exact kept (same ▸ found)
  · by_cases here : id = owner
    · subst here
      rw [arena, Arena.modifyElement, Arena.element?, Arena.getModify, if_pos rfl] at found
      cases got : b.arena.get? id with
      | none => simp [got] at found
      | some node =>
        rw [got, Option.map_some, Option.bind_some, Node.elementMapElement] at found
        obtain ⟨e, element, rfl⟩ := Option.map_eq_some_iff.mp found
        have before : b.arena.element? id = some e := by rw [Arena.element?, got]; exact element
        -- what is finished is not open
        have exposed : b.Exposed id := by
          refine (Builder.textOwnerCases owned).resolve_left fun open_ => ?_
          have done := (reported.done id node got).mpr ⟨entry, member, finishes⟩
          unfold Builder.isOpenElement at open_
          simp [got, done] at open_
        refine Or.inr ⟨Builder.exposedQuiet h exposed, extendsAppend ?_ run⟩
        rcases texts.finished entry member id finishes e before with same | grown
        · exact same ▸ extendsSelf _
        · exact grown.2
    · refine kept ?_
      rw [arena, Arena.modifyElement, Arena.element?, Arena.getModifyOther here] at found
      exact found

theorem opened (sound : b.Sound source) (texts : Texts past b) (reported : Reported past b)
    (within : ∀ other ∈ b.stack, other.index < b.arena.size) (h : b.Step next (some (.opened id)))
    (event : entry.event = .opened id) (here : entry.node = next.arena.get? id) : Texts (entry :: past) next := by
  obtain ⟨node, arena, _, index, got, fresh, _⟩ := Builder.stepOpens sound h
  have told := here.trans got
  have blank : entry.text? = none := by
    unfold Entry.text?
    rw [told, Option.bind_some]
    cases element : node.element? with
    | none => rfl
    | some e =>
      obtain ⟨f, content⟩ | leaf := node.contentCases
      · have bare := fresh.element f content
        have same : e = f := by simpa [Node.element?, content] using element.symm
        rw [same, Option.bind_some, bare]
      · rw [Node.leafElement leaf] at element
        contradiction
  refine ⟨List.pairwise_cons.mpr ⟨?_, texts.once⟩, ?_, ?_⟩
  · intro earlier member other finishes again
    have known := reported.known earlier member
    have same := finishesId finishes
    rw [event] at same
    rw [finishesId again, ← same] at known
    exact absurd known (by simp only [Event.id, index]; omega)
  · intro other member new same
    rcases List.mem_cons.mp member with rfl | earlier
    · exact blank
    · exact texts.blank other earlier new same
  · intro other member new finishes f found
    rcases List.mem_cons.mp member with rfl | earlier
    · have same : id = new := by
        have named := finishesId finishes
        rw [event] at named
        exact named
      subst same
      refine Or.inl ?_
      rw [Entry.text?, told, Option.bind_some]
      rw [Arena.element?, got, Option.bind_some] at found
      rw [found, Option.bind_some]
    · have bound := reported.known other earlier
      rw [finishesId finishes] at bound
      rw [arena, Arena.element?, Arena.getPush, if_neg (by omega)] at found
      exact (texts.finished other earlier new finishes f found).imp_right fun grown =>
        ⟨Builder.exposedOpened sound within h grown.1, grown.2⟩

theorem closed (texts : Texts past b) (reported : Reported past b) (h : b.Step next (some (.closed id)))
    (event : entry.event = .closed id) (here : entry.node = next.arena.get? id) : Texts (entry :: past) next := by
  obtain ⟨above, outside, node, stack, nextStack, got, isElement, waiting, arena⟩ := Builder.stepCloses h
  refine ⟨List.pairwise_cons.mpr ⟨?_, texts.once⟩, ?_, ?_⟩
  · intro earlier member other finishes
    have same := finishesId finishes
    rw [event] at same
    cases same
    exact reported.unfinished got waiting earlier member
  · intro other member new same
    rcases List.mem_cons.mp member with rfl | earlier
    · rw [event] at same
      contradiction
    · exact texts.blank other earlier new same
  · intro other member new finishes f found
    rcases List.mem_cons.mp member with rfl | earlier
    · have same := finishesId finishes
      rw [event] at same
      cases same
      refine Or.inl ?_
      unfold Arena.element? at found
      rw [Entry.text?, here]
      exact congrArg (fun e => e.bind Element.text) found.symm
    · have differs : new ≠ id := by
        rintro rfl
        exact reported.unfinished got waiting other earlier finishes
      rw [arena, Arena.element?, Arena.getModifyOther differs] at found
      exact (texts.finished other earlier new finishes f found).imp_right fun grown =>
        ⟨Builder.exposedClosed h grown.1, grown.2⟩

theorem finishedOnce (texts : Texts past b) {other : Entry Unit} (member : entry ∈ past) (also : other ∈ past)
    (finishes : entry.Finishes id) (again : other.Finishes id) : entry = other := by
  have once := texts.once
  clear texts
  induction past with
  | nil => contradiction
  | cons latest past ih =>
    obtain ⟨apart, once⟩ := List.pairwise_cons.mp once
    rcases List.mem_cons.mp member with rfl | earlier
    · rcases List.mem_cons.mp also with rfl | before
      · rfl
      · exact absurd again (apart other before id finishes)
    · rcases List.mem_cons.mp also with rfl | before
      · exact absurd finishes (apart entry earlier id again)
      · exact ih earlier before once

theorem openedDone (texts : Texts past b) {other : Entry Unit} (member : entry ∈ past) (also : other ∈ past)
    (event : entry.event = .opened id) (finishes : entry.Finishes id) : other.event ≠ .closed id := by
  intro closed
  have same := texts.finishedOnce member also finishes (Or.inl closed)
  rw [same, closed] at event
  contradiction

end Texts

namespace Analysis

theorem closedCollects {options : Options} {id : NodeId} {a : Analysis} {arena : Arena} {e : Element}
    (free : ¬ ∃ owner, a.verbatim = some owner ∧ (owner = id ∨ owner ∈ outside id a.parents))
    (got : arena.element? id = some e) (plain : options.isRawText e.tag = false) :
    (closed options id a arena).2.element? id = some (collectData options.delimiters e) := by
  obtain ⟨node, there, element⟩ := Option.bind_eq_some_iff.mp got
  rw [closedArena, if_neg (closesInsideIff.not.mpr free), Arena.modifyElement, Arena.element?, Arena.getModify,
    if_pos rfl, there, Option.map_some, Option.bind_some, Node.elementMapElement, element, Option.map_some, plain,
    if_neg Bool.false_ne_true]

theorem collectDataFirst {delimiters : Delimiters} {e : Element} (nothing : e.data = none) :
    (collectData delimiters e).data = e.text.bind (Interpolation.extract delimiters) := by
  unfold collectData
  cases e.text.bind (Interpolation.extract delimiters) with
  | none => exact nothing
  | some found =>
    rw [nothing, Option.getD_none]
    exact congrArg some found.emptyExtend

end Analysis

structure Gathered (options : Options) (past : List (Entry Unit)) (id : NodeId) (e : Element) : Prop where
  closed : ∀ entry ∈ past, entry.event = .closed id → e.data = entry.text?.bind (Interpolation.extract options.delimiters)
  unclosed : (∀ entry ∈ past, entry.event ≠ .closed id) → e.data = none

namespace Gathered
variable {options : Options} {past : List (Entry Unit)} {entry : Entry Unit} {id : NodeId} {e : Element}

theorem start (none : e.data = none) (others : ∀ entry ∈ past, entry.event ≠ .closed id) : Gathered options past id e :=
  ⟨fun entry member event => absurd event (others entry member), fun _ => none⟩

theorem kept (gathered : Gathered options past id e) (other : entry.event ≠ .closed id) {f : Element}
    (same : f.data = e.data) : Gathered options (entry :: past) id f := by
  refine ⟨?_, ?_⟩
  · intro one member event
    rw [same]
    rcases List.mem_cons.mp member with rfl | earlier
    · exact absurd event other
    · exact gathered.closed one earlier event
  · intro nobody
    rw [same]
    exact gathered.unclosed fun one member => nobody one (List.mem_cons_of_mem _ member)

end Gathered

namespace Build
variable {comments : Bool} {options : Options} {source : List Char} {p next : Build (Journal Unit)}
  {q other : Build Analysis}

structure Gathers (options : Options) (source : List Char) (p : Build (Journal Unit)) (q : Build Analysis) : Prop where
  reads : Reads options source p q
  reported : Reported p.state.latest p.builder
  texts : Texts p.state.latest p.builder
  data : ∀ o ∈ openings p.state.latest, o.raw options = false →
    ∃ e, q.builder.arena.element? o.id = some e ∧ Gathered options p.state.latest o.id e

namespace Gathers

theorem quiet (gathers : Gathers options source p q) {next : Builder} (stepped : q.builder.Step next none) {o : Opening}
    (member : o ∈ openings p.state.latest) (resolves : o.raw options = false) :
    ∃ e, next.arena.element? o.id = some e ∧ Gathered options p.state.latest o.id e := by
  obtain ⟨e, found, gathered⟩ := gathers.data o member resolves
  obtain ⟨f, there, same⟩ := Option.map_eq_some_iff.mp (Shielded.steppedData stepped o e.data (by rw [found]; rfl))
  exact ⟨f, there, ⟨fun entry inside event => same.trans (gathered.closed entry inside event),
    fun nobody => same.trans (gathered.unclosed nobody)⟩⟩

theorem opened (gathers : Gathers options source p q) {next other : Builder} {id : NodeId} {entry : Entry Unit}
    {after : Analysis} {changed : Arena} (stepped : p.builder.Step next (some (.opened id)))
    (steppedOther : q.builder.Step other (some (.opened id)))
    (pushed : ∃ node, next.arena = p.builder.arena.push node ∧ other.arena = q.builder.arena.push node)
    (event : entry.event = .opened id) (here : entry.node = next.arena.get? id)
    (told : Analysis.opened options source id q.state other.arena = .ok (after, changed)) {o : Opening}
    (member : o ∈ openings (entry :: p.state.latest)) (resolves : o.raw options = false) :
    ∃ e, changed.element? o.id = some e ∧ Gathered options (entry :: p.state.latest) o.id e := by
  obtain ⟨node, got, gotOther, fresh⟩ := openedBoth gathers.reads.tracks stepped pushed
  obtain ⟨_, _, _, index, _⟩ := Builder.stepOpens gathers.reads.tracks.sound stepped
  have others : ∀ entry ∈ p.state.latest, entry.event.id ≠ id := by
    intro entry member same
    have known := gathers.reported.known entry member
    rw [same] at known
    omega
  have elsewhere (id : NodeId) : entry.event ≠ .closed id := by rw [event]; exact fun impossible => by cases impossible
  rcases List.mem_append.mp member with earlier | latest
  · have differs := Judged.openingsOther others o earlier
    obtain ⟨e, found, gathered⟩ := gathers.data o earlier resolves
    obtain ⟨f, there, same⟩ :=
      Option.map_eq_some_iff.mp (Shielded.steppedData steppedOther o e.data (by rw [found]; rfl))
    obtain ⟨⟨content, _, rfl⟩, _⟩ := Analysis.openedPlaces gotOther told
    refine ⟨f, ?_, gathered.kept (elsewhere o.id) same⟩
    unfold Arena.element?
    rw [Arena.getModifyOther differs]
    exact there
  · obtain ⟨same, sameNode, content, _⟩ := openingSome (Option.mem_toList.mp latest)
    cases event.symm.trans same
    cases (here.trans got).symm.trans sameNode
    have opening := Directive.letInOpening options q.state.inVerbatim (fresh.element _ content)
    obtain ⟨_, rfl⟩ := Analysis.openedElement gotOther content told
    refine ⟨Analysis.letIn options q.state.inVerbatim o.element, ?_, .start (by rw [← opening]; rfl) ?_⟩
    · unfold Arena.element?
      rw [Arena.getModify, if_pos rfl, gotOther]
      rfl
    · intro one inside closed
      rcases List.mem_cons.mp inside with rfl | earlier
      · exact elsewhere o.id closed
      · exact others one earlier (by rw [closed]; rfl)

theorem closed (gathers : Gathers options source p q) {next other : Builder} {id : NodeId} {entry : Entry Unit}
    (stepped : p.builder.Step next (some (.closed id))) (steppedOther : q.builder.Step other (some (.closed id)))
    (alike : next.Alike other) (event : entry.event = .closed id) (here : entry.node = next.arena.get? id)
    {o : Opening} (member : o ∈ openings (entry :: p.state.latest)) (resolves : o.raw options = false) :
    ∃ e, (Analysis.closed options id q.state other.arena).2.element? o.id = some e ∧
      Gathered options (entry :: p.state.latest) o.id e := by
  rw [openings, openingClosed event, Option.toList_none, List.append_nil] at member
  obtain ⟨e, found, gathered⟩ := gathers.data o member resolves
  have settled := gathers.reads.shielded.settled o member
  obtain ⟨f, there, same⟩ :=
    Option.map_eq_some_iff.mp (Shielded.steppedData steppedOther o e.data (by rw [found]; rfl))
  by_cases differs : o.id = id
  · subst differs
    obtain ⟨_, _, _, _, _, got, _, waiting, _⟩ := Builder.stepCloses stepped
    have nobody : ∀ entry ∈ p.state.latest, entry.event ≠ .closed o.id := fun entry inside closed =>
      gathers.reported.unfinished got waiting entry inside (Or.inl closed)
    -- it is neither in a verbatim subtree nor of a raw-text tag
    have free := (o.rawCases options).not.mp (by simp [resolves])
    rw [not_or, ← settled.covered, Bool.not_eq_true] at free
    obtain ⟨above, outer, stack, _, unfinished, _⟩ := Builder.stepClosesKin steppedOther
    have outside := (gathers.reads.shielded.coveredReading gathers.reads.coupled stack unfinished).not.mp free.1
    have plain : options.isRawText f.tag = false := Shielded.steppedTag steppedOther settled there ▸ free.2
    -- both builds have the same text of it
    have texts := Arena.alikeText alike.arena o.id
    rw [there, Option.map_some] at texts
    obtain ⟨written, found, sameText⟩ := Option.map_eq_some_iff.mp texts
    have text : entry.text? = f.text := by
      rw [Entry.text?, here, ← sameText]
      exact congrArg (fun e => e.bind Element.text) found
    refine ⟨_, Analysis.closedCollects outside there plain, ?_, ?_⟩
    · intro one inside closed
      rw [Analysis.collectDataFirst (same.trans (gathered.unclosed nobody))]
      rcases List.mem_cons.mp inside with rfl | earlier
      · rw [text]
      · exact absurd closed (nobody one earlier)
    · intro never
      exact absurd event (never entry List.mem_cons_self)
  · refine ⟨f, (Analysis.closedOther differs options q.state other.arena).trans there, gathered.kept ?_ same⟩
    rw [event]
    exact fun same => differs (by cases same; rfl)

theorem turn (gathers : Gathers options source p q)
    (taken : p.turn options.comments (Journal.receiver none Receiver.silent) = .ok next)
    (takenOther : q.turn options.comments (Analysis.receiver options source) = .ok other) :
    Gathers options source next other := by
  have reads := readsTurn gathers.reads taken takenOther
  have tracks := gathers.reads.tracks
  rcases turnsSideBySide options.comments (Analysis.receiver options source) Journal.watches tracks.alike with
    ⟨cause, _, left, _⟩ | ⟨plain, analysed, stepped, steppedOther, _, left, right⟩ |
    ⟨plain, analysed, event, state, stepped, steppedOther, alike, pushed, recorded, left, right⟩
  · rw [left] at taken
    contradiction
  · cases left.symm.trans taken
    cases right.symm.trans takenOther
    have step := Builder.stepCases stepped
    exact ⟨reads, gathers.reported.quiet step, gathers.texts.quiet gathers.reported step,
      fun o => gathers.quiet (Builder.stepCases steppedOther)⟩
  · have entry : p.state.record event () plain.arena none = state := congrArg Prod.fst (Except.ok.inj recorded)
    cases left.symm.trans taken
    rw [right] at takenOther
    subst entry
    have step := Builder.stepCases stepped
    have stepOther := Builder.stepCases steppedOther
    cases event with
    | closed id =>
      cases takenOther
      exact ⟨reads, gathers.reported.closed step rfl, gathers.texts.closed gathers.reported step rfl rfl,
        fun o => gathers.closed step stepOther alike rfl rfl⟩
    | opened id =>
      unfold tell at takenOther
      split at takenOther
      · rename_i after arena told
        cases takenOther
        exact ⟨reads, gathers.reported.opened step rfl rfl,
          gathers.texts.opened tracks.sound gathers.reported tracks.recorded.within step rfl rfl,
          fun o => gathers.opened step stepOther (pushed id rfl) rfl rfl told⟩
      · contradiction

theorem run (short : Text.byteLength source < UInt32.size) {last : Build (Journal Unit)} {analysed : Build Analysis}
    (ran : buildWith options (Journal.receiver none Receiver.silent) (Journal.ofState ()) source = .ok last)
    (ranOther : buildWith options (Analysis.receiver options source) Analysis.start source = .ok analysed) :
    Gathers options source last analysed := by
  refine runsInvariant (I := Gathers options source) ?_ ?_ ?_
    ⟨⟨tracksStart options short, Coupled.start source, Shielded.start source⟩, Reported.start source,
      Texts.start source, ?_⟩ ran ranOther
  · intro p q gathers
    exact ⟨gathers.reads.skipBlank, ⟨gathers.reported.known, gathers.reported.done⟩,
      ⟨gathers.texts.once, gathers.texts.blank, gathers.texts.finished⟩, gathers.data⟩
  · intro p q gathers
    exact congrArg Markup.Scanner.atEnd gathers.reads.tracks.alike.scanner
  · intro p q next other gathers taken takenOther
    exact gathers.turn taken takenOther
  · intro o member
    contradiction

end Gathers
end Build

/- The element has an end tag of its own, and is neither of a verbatim subtree nor of a raw-text tag. -/
def Ast.Collects (ast : Ast) (options : Options) (past : List (Entry Unit)) (id : NodeId) (f : Element) : Prop :=
  (∃ entry ∈ past, entry.event = .closed id) ∧ ¬ ast.arena.kin.Covered id ∧ options.isRawText f.tag = false

/-- The data of each element beside its text. The text of the root may be longer than it was as the root ended. -/
structure Ast.Interpolated (ast : Ast) (options : Options) (past : List (Entry Unit)) : Prop where
  inner : ∀ id f, ast.arena.element? id = some f → id ≠ ast.root → ast.Collects options past id f →
    f.data = f.text.bind (Interpolation.extract options.delimiters)
  bare : ∀ id f, ast.arena.element? id = some f → ¬ ast.Collects options past id f → f.data = none
  void : ∀ id f, ast.arena.element? id = some f → (∃ entry ∈ past, entry.event = .opened id ∧ entry.Finishes id) →
    f.data = none ∧ (id ≠ ast.root → f.text = none)
  top : ∀ f, ast.arena.element? ast.root = some f → ∀ entry ∈ past, entry.event = .closed ast.root →
    Extends entry.text? f.text ∧ (ast.Collects options past ast.root f →
      f.data = entry.text?.bind (Interpolation.extract options.delimiters))
  topMarked : ∀ f, ast.arena.element? ast.root = some f → (ast.arena.kin.Covered ast.root ↔ f.pre = true)

theorem parsedGathers {options : Options} {template : String} {ast : Ast} (short : template.utf8ByteSize < UInt32.size)
    (accepted : parseWith options template = .ok ast) :
    ∃ p q, Build.Gathers options template.toList p q ∧ p.state.latest = notices options template ∧
      p.builder.stack = [ast.root] ∧ q.builder.arena = ast.arena := by
  rw [← Text.byteLengthToList] at short
  obtain ⟨forest, analysed, roots, arena⟩ := parsedForest accepted
  obtain ⟨other, ranOther, rfl⟩ := forestOfOk analysed
  obtain ⟨last, ran, alike⟩ := Build.watchedBeside (Journal.ofState ()) Journal.watches ranOther
  have latest : notices options template = last.state.latest := by
    unfold notices
    rw [ran]
  exact ⟨last, other, Build.Gathers.run short ran ranOther, latest.symm,
    alike.stack.trans (Builder.stackOfRoots roots), arena⟩

section Accepted
variable {options : Options} {template : String} {ast : Ast} {id : NodeId} {f : Element}

theorem finishedText (short : template.utf8ByteSize < UInt32.size) (accepted : parseWith options template = .ok ast)
    (found : ast.arena.element? id = some f) {entry : Entry Unit} (member : entry ∈ notices options template)
    (finishes : entry.Finishes id) : f.text = entry.text? ∨ id = ast.root ∧ Extends entry.text? f.text := by
  obtain ⟨p, q, gathers, latest, stack, arena⟩ := parsedGathers short accepted
  have same := Arena.alikeText gathers.reads.tracks.alike.arena id
  rw [arena, found, Option.map_some] at same
  obtain ⟨e, written, text⟩ := Option.map_eq_some_iff.mp same
  rw [← text]
  exact (gathers.texts.finished entry (latest ▸ member) id finishes e written).imp_right fun grown =>
    ⟨Builder.exposedSingle stack grown.1, grown.2⟩

theorem gatheredData (short : template.utf8ByteSize < UInt32.size) (accepted : parseWith options template = .ok ast)
    (found : ast.arena.element? id = some f) (free : ¬ ast.arena.kin.Covered id) (plain : options.isRawText f.tag = false) :
    Gathered options (notices options template) id f := by
  obtain ⟨_, _, settles, elements⟩ := parsedSettled short accepted
  obtain ⟨p, q, gathers, latest, _, arena⟩ := parsedGathers short accepted
  obtain ⟨o, member, rfl⟩ := elements id f found
  have settled := (settles o member).1
  have tag : f.tag = o.element.tag := settled.tag found
  have resolves : o.raw options = false := by
    rw [← Bool.not_eq_true, settled.raw, ← tag, plain]
    simp [free]
  obtain ⟨e, same, data⟩ := gathers.data o (latest ▸ member) resolves
  rw [arena] at same
  cases found.symm.trans same
  exact latest ▸ data

theorem uncollectedData (short : template.utf8ByteSize < UInt32.size) (accepted : parseWith options template = .ok ast)
    (found : ast.arena.element? id = some f) (never : ¬ ast.Collects options (notices options template) id f) :
    f.data = none := by
  by_cases free : ¬ ast.arena.kin.Covered id ∧ options.isRawText f.tag = false
  · refine (gatheredData short accepted found free.1 free.2).unclosed fun entry member event => ?_
    exact never ⟨⟨entry, member, event⟩, free⟩
  · obtain ⟨_, _, settles, elements⟩ := parsedSettled short accepted
    obtain ⟨o, member, rfl⟩ := elements id f found
    have settled := (settles o member).1
    obtain ⟨g, same, _, noData⟩ := settled.result
    cases found.symm.trans same
    refine noData (settled.raw.mpr ?_)
    rw [← settled.tag found, ← Bool.not_eq_false]
    exact Classical.not_and_iff_not_or_not.mp free |>.imp_left not_not.mp

theorem rootMarked (short : template.utf8ByteSize < UInt32.size) (accepted : parseWith options template = .ok ast)
    (found : ast.arena.element? ast.root = some f) : ast.arena.kin.Covered ast.root ↔ f.pre = true := by
  obtain ⟨p, q, gathers, _, stack, arena⟩ := parsedGathers short accepted
  have linked := gathers.reads.coupled.linked
  rw [← gathers.reads.tracks.alike.stack, stack, arena] at linked
  rw [Kindred.coveredCases, Arena.marksPre found]
  refine or_iff_left ?_
  rintro ⟨above, up, _⟩
  obtain ⟨k, known, parent⟩ := Option.bind_eq_some_iff.mp up
  rw [linked.stacked [] ast.root [] k rfl known] at parent
  contradiction

end Accepted

/-
In an accepted template the data of an element are the interpolations of its text, and there are none
for one without an end tag of its own, in a verbatim subtree or of a raw-text tag. For the root it is
the text that it had as its end tag was read; only there may more follow.
-/
theorem interpolationsGathered {options : Options} {template : String} {ast : Ast}
    (short : template.utf8ByteSize < UInt32.size) (accepted : parseWith options template = .ok ast) :
    ast.Interpolated options (notices options template) := by
  obtain ⟨p, q, gathers, latest, _, _⟩ := parsedGathers short accepted
  have texts := gathers.texts
  rw [latest] at texts
  refine ⟨?_, fun id f found never => uncollectedData short accepted found never, ?_, ?_,
    fun f found => rootMarked short accepted found⟩
  · rintro id f found inside ⟨⟨entry, member, event⟩, free, plain⟩
    rw [(gatheredData short accepted found free plain).closed entry member event]
    rcases finishedText short accepted found member (Or.inl event) with same | ⟨root, _⟩
    · rw [same]
    · exact absurd root inside
  · rintro id f found ⟨entry, member, event, finishes⟩
    refine ⟨uncollectedData short accepted found ?_, fun inside => ?_⟩
    · rintro ⟨⟨other, also, closed⟩, _⟩
      exact texts.openedDone member also event finishes closed
    · rcases finishedText short accepted found member finishes with same | ⟨root, _⟩
      · rw [same, texts.blank entry member id event]
      · exact absurd root inside
  · intro f found entry member event
    refine ⟨?_, fun collects => (gatheredData short accepted found collects.2.1 collects.2.2).closed entry member event⟩
    rcases finishedText short accepted found member (Or.inl event) with same | ⟨_, grown⟩
    · rw [same]
      exact extendsSelf _
    · exact grown

def tokenBehindRoot : String := "<p>\x7b\x7ba\x7d\x7d</p>\x7b\x7bb\x7d\x7d"

theorem textBehindTheRoot :
    tokenBehindRoot.utf8ByteSize < UInt32.size ∧
    ∃ ast, parseWith Options.standard tokenBehindRoot = .ok ast ∧
      ∃ f, ast.arena.element? ast.root = some f ∧ f.text = some "\x7b\x7ba\x7d\x7d \x7b\x7bb\x7d\x7d" ∧
        f.data = Interpolation.extract Options.standard.delimiters "\x7b\x7ba\x7d\x7d" := by
  have short : tokenBehindRoot.utf8ByteSize < UInt32.size := by decide
  have shape : (parseWith Options.standard tokenBehindRoot).map (fun ast =>
      (ast.root, (ast.arena.element? ast.root).map fun f => (f.tag, f.pre, f.text))) =
        .ok (⟨0⟩, some ("p", false, some "\x7b\x7ba\x7d\x7d \x7b\x7bb\x7d\x7d")) := by decide +kernel
  have told : (notices Options.standard tokenBehindRoot).map
      (fun entry => (entry.event, entry.text?)) =
        [(.closed ⟨0⟩, some "\x7b\x7ba\x7d\x7d"), (.opened ⟨0⟩, none)] := by decide +kernel
  cases parsed : parseWith Options.standard tokenBehindRoot with
  | error cause =>
    rw [parsed] at shape
    contradiction
  | ok ast =>
    rw [parsed] at shape
    obtain ⟨root, seen⟩ := Prod.mk.inj (Except.ok.inj shape)
    obtain ⟨f, found, fields⟩ := Option.map_eq_some_iff.mp seen
    simp only [Prod.mk.injEq] at fields
    obtain ⟨tag, plain, text⟩ := fields
    obtain ⟨entry, rest, split, closing, _⟩ := List.map_eq_cons_iff.mp told
    obtain ⟨event, before⟩ := Prod.mk.inj closing
    have member : entry ∈ notices Options.standard tokenBehindRoot := by
      rw [split]
      exact List.mem_cons_self
    rw [← root] at event
    have interpolated := interpolationsGathered short parsed
    have free : ¬ ast.arena.kin.Covered ast.root := by
      rw [interpolated.topMarked f found, plain]
      exact Bool.false_ne_true
    have data := (interpolated.top f found entry member event).2
      ⟨⟨entry, member, event⟩, free, by rw [tag]; decide⟩
    refine ⟨short, ast, rfl, f, found, text, ?_⟩
    rw [data, before]
    rfl

end Templating
