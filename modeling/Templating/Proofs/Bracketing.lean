import Templating.Proofs.Trails
import Templating.Proofs.Unclosed

/-!
The events of a build are bracketed, with whatever receiver that leaves outlines as they are, and be it
that the build fails: the entries of its journal leave a trail.
-/
namespace Templating
variable {σ : Type}

structure Traced (entries : List (Entry σ)) (b : Builder) : Prop where
  trail : Trail entries b.stack
  size : (openedIds entries).length = b.arena.size
  waits : ∀ id node, b.arena.get? id = some node → node.done = false →
    (∃ opening ∈ entries, opening.Begins id) ∧ id ∉ closedIds entries

namespace Traced
variable {entries : List (Entry σ)} {b next : Builder} {entry : Entry σ} {id : NodeId}

theorem start (source : List Char) : Traced ([] : List (Entry σ)) (Builder.ofSource source) := by
  refine ⟨.start, rfl, ?_⟩
  intro id node got
  simp [Builder.ofSource, Arena.empty, Arena.get?] at got

theorem newUnclosed (traced : Traced entries b) (new : id.index = b.arena.size) : id ∉ closedIds entries := by
  intro before
  have bound := traced.trail.openedBound (traced.trail.closedOpened id before)
  rw [traced.size] at bound
  omega

theorem alike {c : Builder} (traced : Traced entries b) (alike : b.Alike c) : Traced entries c := by
  refine ⟨alike.stack ▸ traced.trail, traced.size.trans (Arena.alikeSize alike.arena), ?_⟩
  intro id node got waiting
  obtain ⟨seen, found, same⟩ := Arena.alikeSeen alike.arena got
  exact traced.waits id seen found ((Node.outlineCases same).1.trans waiting)

theorem quiet (traced : Traced entries b) (h : b.Step next none) : Traced entries next := by
  obtain ⟨stack, size, _⟩ := Builder.stepQuiet h
  refine ⟨stack ▸ traced.trail, traced.size.trans size.symm, ?_⟩
  intro id node got waiting
  obtain ⟨earlier, found, same⟩ := Arena.kinSeen (Builder.stepQuietKin h).symm got
  have done : earlier.done = node.done := congrArg Kinship.done same
  exact traced.waits id earlier found (done.trans waiting)

theorem openedTrail {source : List Char} (sound : b.Sound source) (traced : Traced entries b)
    (h : b.Step next (some (.opened id))) (event : entry.event = .opened id) : Trail (entries ++ [entry]) next.stack := by
  obtain ⟨node, arena, stack, index, got, fresh, _⟩ := Builder.stepOpens sound h
  rw [stack]
  exact .opened traced.trail event (index.trans traced.size.symm)

theorem opened {source : List Char} (sound : b.Sound source) (traced : Traced entries b)
    (h : b.Step next (some (.opened id))) (event : entry.event = .opened id)
    (here : entry.node.map Node.outline = (next.arena.get? id).map Node.outline) : Traced (entries ++ [entry]) next := by
  have trail := traced.openedTrail sound h event
  obtain ⟨node, arena, stack, index, got, fresh, _⟩ := Builder.stepOpens sound h
  refine ⟨trail, ?_, ?_⟩
  · rw [openedIdsOpened event, List.length_append, traced.size, arena, Arena.sizePush, List.length_singleton]
  · intro other seen found waiting
    rw [closedIdsOpened event]
    by_cases same : other = id
    · subst same
      cases got.symm.trans found
      rw [got] at here
      obtain ⟨told, there, outline⟩ := Option.map_eq_some_iff.mp here
      have isElement : node.isElement = true := by
        cases leaf : node.isElement with
        | true => rfl
        | false =>
          rw [fresh.leaf leaf] at waiting
          contradiction
      refine ⟨⟨entry, by simp, event, told, there, ?_, ?_⟩, ?_⟩
      · rw [Node.outlineIsElement outline, isElement]
      · rw [(Node.outlineCases outline).1, waiting]
      · exact traced.newUnclosed index
    · have old : b.arena.get? other = some seen := by
        rw [arena] at found
        rcases Arena.getPushCases found with ⟨new, _⟩ | old
        · exact absurd (NodeId.indexInjective (new.trans index.symm)) same
        · exact old
      obtain ⟨⟨opening, member, begins⟩, never⟩ := traced.waits other seen old waiting
      exact ⟨⟨opening, List.mem_append_left _ member, begins⟩, never⟩

theorem closed (traced : Traced entries b) (h : b.Step next (some (.closed id))) (event : entry.event = .closed id)
    (here : entry.node.map Node.outline = (next.arena.get? id).map Node.outline) : Traced (entries ++ [entry]) next := by
  obtain ⟨above, outer, node, stack, nextStack, got, isElement, waiting, arena⟩ := Builder.stepCloses h
  obtain ⟨begun, never⟩ := traced.waits id node got waiting
  have now : next.arena.get? id = some (node.close above.reverse next.scanner.offset) := by
    rw [arena, Arena.getModify, if_pos rfl, got]
    rfl
  rw [now] at here
  obtain ⟨told, there, outline⟩ := Option.map_eq_some_iff.mp here
  obtain ⟨e, content⟩ | leaf := node.contentCases
  · refine ⟨?_, ?_, ?_⟩
    · have trail := traced.trail
      rw [stack] at trail
      rw [nextStack]
      refine .closed trail event begun never there ?_ ?_ ?_
      · rw [Node.outlineIsElement outline, ← isElement]
        simp [Node.close, Node.mapElement, Node.isElement, Node.element?, content]
      · rw [(Node.outlineCases outline).1]
        rfl
      · rw [Node.outlineChildren outline, Builder.childrenClose content]
    · rw [openedIdsClosed event, traced.size, arena, Arena.sizeModify]
    · intro other seen found open_
      have differs : other ≠ id := by
        rintro rfl
        cases now.symm.trans found
        contradiction
      rw [arena, Arena.getModifyOther differs] at found
      obtain ⟨⟨opening, member, begins⟩, before⟩ := traced.waits other seen found open_
      refine ⟨⟨opening, List.mem_append_left _ member, begins⟩, ?_⟩
      rw [closedIdsClosed event]
      simp [before, differs]
  · rw [Node.leafIsElement leaf] at isElement
    contradiction

theorem told {source : List Char} {event : Event} (sound : b.Sound source) (traced : Traced entries b)
    (h : b.Step next (some event)) (same : entry.event = event)
    (here : entry.node.map Node.outline = (next.arena.get? event.id).map Node.outline) :
    Traced (entries ++ [entry]) next := by
  cases event with
  | opened id => exact traced.opened sound h same here
  | closed id => exact traced.closed h same here

end Traced

namespace Journal

theorem entriesRecord (journal : Journal σ) (event : Event) (state : σ) (arena : Arena) (failure : Option CompileError) :
    (journal.record event state arena failure).entries =
      journal.entries ++ [⟨event, arena.get? event.id, state, failure⟩] := List.reverse_cons ..

theorem receiverOk {inner : Receiver σ} {event : Event} {journal after : Journal σ} {arena changed : Arena}
    (told : receiver none inner event journal arena = .ok (after, changed)) :
    ∃ state, inner event journal.state arena = .ok (state, changed) ∧ after = journal.record event state changed none := by
  unfold receiver at told
  split at told
  · contradiction
  · rename_i state arena heard
    cases told
    exact ⟨state, heard, rfl⟩

theorem receiverError {inner : Receiver σ} {event : Event} {journal : Journal σ} {arena : Arena}
    {halt : Halt (Journal σ × Arena)} (failed : receiver none inner event journal arena = .error halt) :
    ∃ state, inner event journal.state arena = .error ⟨halt.cause, state, halt.state.2⟩ ∧
      halt.state.1 = journal.record event state halt.state.2 (some halt.cause) := by
  unfold receiver at failed
  split at failed
  · rename_i cause state arena heard
    cases failed
    exact ⟨state, heard, rfl⟩
  · contradiction

end Journal
namespace Receiver

structure Orderly (receiver : Receiver σ) : Prop where
  keeps : ∀ event state after arena changed, receiver event state arena = .ok (after, changed) → changed.Alike arena
  closes : ∀ id state arena halt, receiver (.closed id) state arena ≠ .error halt

theorem silentOrderly : silent.Orderly :=
  ⟨fun _ _ _ _ _ told => by cases told; rfl, fun _ _ _ _ => by simp [silent]⟩

theorem analysisOrderly (options : Options) (source : List Char) : (Analysis.receiver options source).Orderly :=
  ⟨Analysis.receiverAlike options source, fun _ _ _ _ => by simp [Analysis.receiver]⟩

def Rules (receiver : Receiver σ) : Prop :=
  ∀ event state arena halt, receiver event state arena = .error halt → halt.cause.kind = .semantic

theorem silentRules : silent.Rules := fun _ _ _ _ failed => by contradiction

theorem analysisRules (options : Options) (source : List Char) : (Analysis.receiver options source).Rules := by
  intro event state arena halt failed
  cases event with
  | opened id =>
    obtain ⟨_, _, _, _, refused⟩ := Analysis.openedError failed
    unfold Analysis.refuses? at refused
    split at refused
    · contradiction
    · exact (Directive.faultPosition refused).1
  | closed id => exact absurd failed ((analysisOrderly options source).closes id _ _ _)

end Receiver

namespace Build

theorem turnError {comments : Bool} {receiver : Receiver σ} {b : Build σ} {halt : Halt (Build σ)}
    (h : b.turn comments receiver = .error halt) :
    (b.builder.step comments = .error halt.cause ∧ halt.state = b) ∨
    ∃ event builder state arena, b.builder.step comments = .ok (builder, some event) ∧
      receiver event b.state builder.arena = .error ⟨halt.cause, state, arena⟩ ∧
      halt.state = ⟨{ builder with arena }, state⟩ := by
  unfold turn at h
  split at h
  · rename_i failed
    cases h
    exact Or.inl ⟨failed, rfl⟩
  · contradiction
  · rename_i builder event stepped
    unfold tell at h
    split at h
    · contradiction
    · rename_i cause state arena told
      cases h
      exact Or.inr ⟨event, builder, state, arena, stepped, told, rfl⟩

variable {inner : Receiver σ} {comments : Bool} {source : List Char} {b next : Build (Journal σ)}

theorem journalTurn (orderly : inner.Orderly) (turned : b.turn comments (Journal.receiver none inner) = .ok next) :
    (b.builder.step comments = .ok (next.builder, none) ∧ next.state = b.state) ∨
    ∃ builder entry, b.builder.step comments = .ok (builder, some entry.event) ∧ builder.Alike next.builder ∧
      next.state.entries = b.state.entries ++ [entry] ∧
      entry.node.map Node.outline = (builder.arena.get? entry.event.id).map Node.outline := by
  rcases turnOk turned with ⟨stepped, state⟩ | ⟨event, builder, arena, stepped, told, same⟩
  · exact Or.inl ⟨stepped, state⟩
  · obtain ⟨state, heard, after⟩ := Journal.receiverOk told
    have alike : arena.Alike builder.arena := orderly.keeps _ _ _ _ _ heard
    refine Or.inr ⟨builder, ⟨event, arena.get? event.id, state, none⟩, stepped, ?_, ?_, Arena.alikeGet alike event.id⟩
    · rw [same]
      exact ⟨rfl, rfl, alike.symm⟩
    · rw [after, Journal.entriesRecord]

structure Journalled (source : List Char) (b : Build (Journal σ)) : Prop where
  sound : b.builder.Sound source
  traced : Traced b.state.entries b.builder

namespace Journalled

theorem start (state : σ) (short : Text.byteLength source < UInt32.size) :
    (ofSource source (Journal.ofState state)).Journalled source :=
  ⟨Builder.soundOfSource short, Traced.start source⟩

theorem skip (journalled : b.Journalled source) : b.skipBlank.Journalled source :=
  ⟨Builder.soundSkipBlank journalled.sound,
    ⟨journalled.traced.trail, journalled.traced.size, journalled.traced.waits⟩⟩

theorem turn (orderly : inner.Orderly) (journalled : b.Journalled source)
    (turned : b.turn comments (Journal.receiver none inner) = .ok next) : next.Journalled source := by
  obtain ⟨sound, traced⟩ := journalled
  rcases journalTurn orderly turned with ⟨stepped, state⟩ | ⟨builder, entry, stepped, alike, entries, here⟩
  · have step := Builder.stepCases stepped
    exact ⟨Builder.soundStep sound step, state ▸ traced.quiet step⟩
  · have step := Builder.stepCases stepped
    exact ⟨Builder.soundAlike alike (Builder.soundStep sound step),
      entries ▸ (traced.told sound step rfl here).alike alike⟩

end Journalled

theorem trailError (orderly : inner.Orderly) (journalled : b.Journalled source) {halt : Halt (Build (Journal σ))}
    (failed : b.turn comments (Journal.receiver none inner) = .error halt) :
    ∃ stack, Trail halt.state.state.entries stack := by
  obtain ⟨sound, traced⟩ := journalled
  rcases turnError failed with ⟨_, same⟩ | ⟨event, builder, journal, arena, stepped, told, same⟩
  · rw [same]
    exact ⟨_, traced.trail⟩
  · obtain ⟨state, heard, after⟩ := Journal.receiverError told
    have recorded : halt.state.state = b.state.record event state arena (some halt.cause) := by rw [same]; exact after
    rw [recorded, Journal.entriesRecord]
    cases event with
    | opened id => exact ⟨_, traced.openedTrail sound (Builder.stepCases stepped) rfl⟩
    | closed id => exact absurd heard (orderly.closes id _ _ _)

end Build

/- The entries of a build before a receiver, in their order, be it that the build fails. -/
def entriesOf (options : Options) (receiver : Receiver σ) (state : σ) (template : String) : List (Entry σ) :=
  match buildWith options (Journal.receiver none receiver) (Journal.ofState state) template.toList with
  | .ok last => last.state.entries
  | .error halt => halt.state.state.entries

theorem entriesTrail (options : Options) {receiver : Receiver σ} (orderly : receiver.Orderly) (state : σ)
    {template : String} (short : template.utf8ByteSize < UInt32.size) :
    ∃ stack, Trail (entriesOf options receiver state template) stack := by
  rw [← Text.byteLengthToList] at short
  have start := Build.Journalled.start state short
  have skip (b : Build (Journal σ)) (kept : b.Journalled template.toList) : b.skipBlank.Journalled template.toList :=
    kept.skip
  have turn (b next : Build (Journal σ)) (kept : b.Journalled template.toList)
      (turned : b.turn options.comments (Journal.receiver none receiver) = .ok next) : next.Journalled template.toList :=
    kept.turn orderly turned
  unfold entriesOf
  cases ran : buildWith options (Journal.receiver none receiver) (Journal.ofState state) template.toList with
  | ok last => exact ⟨_, (Build.runInvariant skip turn start ran).traced.trail⟩
  | error halt =>
    obtain ⟨before, kept, failed⟩ := Build.runError skip turn start ran
    exact Build.trailError orderly kept failed

namespace Build

structure Journals (p : Build (Journal σ)) (q : Build σ) : Prop where
  builder : p.builder = q.builder
  state : p.state.state = q.state

theorem journalsTurn (comments : Bool) (receiver : Receiver σ) {p : Build (Journal σ)} {q : Build σ}
    (same : Journals p q) :
    TurnsAgree Journals (fun _ _ => False) (p.turn comments (Journal.receiver none receiver))
      (q.turn comments receiver) := by
  obtain ⟨builder, heard⟩ := same
  unfold turn
  rw [builder]
  split
  · exact .failed rfl
  · exact .together ⟨rfl, heard⟩
  · rename_i next event _
    simp only [tell, Journal.receiver, heard]
    cases receiver event q.state next.arena with
    | ok result => exact .together ⟨rfl, rfl⟩
    | error halt => exact .failed rfl

theorem journalsSkip {p : Build (Journal σ)} {q : Build σ} (same : Journals p q) : Journals p.skipBlank q.skipBlank :=
  ⟨congrArg Builder.skipBlank same.builder, same.state⟩

end Build

theorem journalForest (options : Options) (receiver : Receiver σ) (state : σ) (source : List Char) :
    forestOf (buildWith options (Journal.receiver none receiver) (Journal.ofState state) source) =
      forestOf (buildWith options receiver state source) := by
  rcases Build.runsAgree options.comments (fun p q => Build.journalsSkip)
      (fun p q same => congrArg Builder.atEnd same.builder) (fun p q => Build.journalsTurn options.comments receiver)
      (p := Build.ofSource source (Journal.ofState state)) (q := Build.ofSource source state) ⟨rfl, rfl⟩ with
    ⟨last, other, left, right, same⟩ | ⟨h, k, left, right, same⟩ | ⟨_, _, _, _, impossible⟩
  · rw [buildWith, left, buildWith, right, forestOf, forestOf, Build.forest, Build.forest, same.builder]
  · rw [buildWith, left, buildWith, right, forestOf, forestOf, same]
  · exact absurd impossible id

/-
The events of a build are well bracketed, be it analysed or not and whether it succeeds or fails.
-/
theorem eventsBracketed {options : Options} {template : String} (short : template.utf8ByteSize < UInt32.size) :
    WellBracketed (entriesOf options Receiver.silent () template) ∧
    WellBracketed (entriesOf options (Analysis.receiver options template.toList) Analysis.start template) := by
  obtain ⟨_, trail⟩ := entriesTrail options Receiver.silentOrderly () short
  obtain ⟨_, analysed⟩ :=
    entriesTrail options (Receiver.analysisOrderly options template.toList) Analysis.start short
  exact ⟨trail.bracketed, analysed.bracketed⟩

def crossedTags : String := "<p><b><br></p></b>"

theorem swallowedNeverCloses :
    crossedTags.utf8ByteSize < UInt32.size ∧
    readForest Options.standard crossedTags = .error (.illegalTemplate (.unmatchedEndTag "b") ⟨14, 1, 15⟩) ∧
    (entriesOf Options.standard Receiver.silent () crossedTags).map Entry.event =
      [.opened ⟨0⟩, .opened ⟨1⟩, .opened ⟨2⟩, .closed ⟨0⟩] ∧
    WellBracketed (entriesOf Options.standard Receiver.silent () crossedTags) := by
  have short : crossedTags.utf8ByteSize < UInt32.size := by decide
  refine ⟨short, ?_, ?_, (eventsBracketed short).1⟩
  · decide +kernel
  · decide +kernel

end Templating
