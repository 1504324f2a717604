import Templating.Proofs.Bracketing
import Templating.Proofs.Progress

/-!
Looking ahead for end tags. An element is done as it is opened if no end tag of its name stands behind the
first sign that may end its start tag; and then no end tag of that name is read in the rest of the build. So
where an end tag comes without its element, the elements of that name had all been opened to be closed, and
have been closed or taken along by an end tag further out.
-/
namespace Templating
open Markup
variable {σ : Type}

namespace Markup

def endSigns (name : List Char) : List Char := '<' :: '/' :: (name ++ ['>'])

theorem unpairedBehind {text name more behind : List Char} (split : text = '<' :: (name ++ (more ++ '>' :: behind)))
    (unpaired : isPaired text name = false) : ¬endSigns name <:+: behind := by
  obtain ⟨before, inner, found⟩ := Text.splitFirstBehind '>' more
  intro within
  have occurs : Text.occursIn (endSigns name) (inner ++ behind) = true :=
    Text.occursInInfix.mpr (within.trans (List.suffix_append inner behind).isInfix)
  have ahead : Text.dropBytes (1 + Text.byteLength name) text = more ++ '>' :: behind := by
    rw [split]
    exact lookaheadBehindName
  rw [isPaired, ahead, found] at unpaired
  exact absurd (occurs.symm.trans unpaired) (by decide)

theorem constructCloses {text name covered : List Char} (found : construct? text = some ⟨covered, .endTag name⟩) :
    endSigns name <:+: text := by
  obtain ⟨_, after, split⟩ := constructHeads found
  have written : covered = endSigns name := constructWritten found
  exact ⟨[], after, by simp [split, written]⟩

end Markup

namespace Builder
variable {comments : Bool} {b next : Builder} {event : Option Event} {id : NodeId} {node : Node} {token : Token}
  {covered : List Char} {e : Element}

theorem stepSuffix (h : b.Step next event) : next.scanner.rest <:+ b.scanner.rest := by
  obtain ⟨covered, _, reaches⟩ := stepAdvances h
  exact ⟨covered, reaches.rest.symm⟩

theorem Opens.foreseen (opens : b.Opens next id node token covered) (content : node.content = .element e) :
    node.done = !isPaired b.scanner.rest e.tag.toList := by
  have told := opens.content
  simp only [content, Content.OpenedBy] at told
  obtain ⟨f, paired, rfl, tag⟩ := told
  obtain ⟨_, name, _, named, foreseen⟩ := Scanner.tokenStarts opens.read
  rw [opens.ahead f paired rfl, foreseen, ← tag, named, String.toList_ofList]

theorem Opens.unended (opens : b.Opens next id node token covered) (content : node.content = .element e)
    (void : node.done = true) : ¬endSigns e.tag.toList <:+: next.scanner.rest := by
  have unpaired := opens.foreseen content
  have told := opens.content
  simp only [content, Content.OpenedBy] at told
  obtain ⟨f, paired, rfl, tag⟩ := told
  obtain ⟨more, whole⟩ := opens.written
  have split : b.scanner.rest = '<' :: (e.tag.toList ++ (more ++ '>' :: next.scanner.rest)) := by
    rw [opens.reaches.rest, whole, tag]
    simp
  exact unpairedBehind split (by simpa [void] using unpaired.symm)

end Builder

namespace Build
variable {comments : Bool} {receiver : Receiver σ} {source : List Char} {b next last : Build σ}

theorem skipSuffix (b : Build σ) : b.skipBlank.builder.scanner.rest <:+ b.builder.scanner.rest :=
  ⟨_, b.builder.scanner.reachesSkipBlank.rest.symm⟩

theorem turnSuffix (turned : b.turn comments receiver = .ok next) :
    next.builder.scanner.rest <:+ b.builder.scanner.rest := by
  rcases turnOk turned with ⟨stepped, _⟩ | ⟨_, builder, arena, stepped, _, same⟩
  · exact Builder.stepSuffix (Builder.stepCases stepped)
  · have suffix := Builder.stepSuffix (Builder.stepCases stepped)
    rw [same]
    exact suffix

theorem turnsSuffix {n : Nat} (turns : Turns comments receiver n b last) :
    last.builder.scanner.rest <:+ b.builder.scanner.rest := by
  induction turns with
  | none b => exact List.suffix_rfl
  | more left turned later ih => exact ih.trans ((turnSuffix turned).trans (skipSuffix _))

theorem soundTurns (orderly : receiver.Orderly) {n : Nat} (sound : b.builder.Sound source)
    (turns : Turns comments receiver n b last) : last.builder.Sound source := by
  refine turnsKeep (I := fun b => b.builder.Sound source) (fun b next sound turned => ?_) sound turns
  obtain ⟨builder, event, stepped, alike⟩ := turnStep orderly.keeps turned
  exact Builder.soundAlike (Builder.alikeSymm alike)
    (Builder.soundStep (Builder.soundSkipBlank sound) (Builder.stepCases stepped))

theorem voidUnended (orderly : receiver.Orderly) {state : σ} (short : Text.byteLength source < UInt32.size)
    {n m : Nat} {later : Build σ} {builder : Builder} {id : NodeId} {node : Node} {e : Element}
    (turns : Turns comments receiver n (ofSource source state) b)
    (stepped : b.skipBlank.builder.step comments = .ok (builder, some (.opened id)))
    (got : builder.arena.get? id = some node) (content : node.content = .element e) (void : node.done = true)
    (turned : b.skipBlank.turn comments receiver = .ok next) (after : Turns comments receiver m next later)
    {covered : List Char} : construct? later.skipBlank.builder.scanner.rest ≠ some ⟨covered, .endTag e.tag.toList⟩ := by
  intro found
  have sound := Builder.soundSkipBlank (soundTurns orderly (Builder.soundOfSource short) turns)
  obtain ⟨other, token, whole, opens⟩ := Builder.stepOpened sound stepped
  cases opens.got.symm.trans got
  obtain ⟨_, _, again, alike⟩ := turnStep orderly.keeps turned
  cases stepped.symm.trans again
  have left : later.skipBlank.builder.scanner.rest <:+ builder.scanner.rest := by
    rw [← alike.scanner]
    exact (skipSuffix later).trans (turnsSuffix after)
  exact opens.unended content void ((constructCloses found).trans left.isInfix)

end Build

theorem Node.namedContent {node : Node} {tag : String} (named : node.isElementNamed tag = true) :
    ∃ e, node.content = .element e ∧ e.tag = tag := by
  unfold isElementNamed element? at named
  cases content : node.content with
  | element e => exact ⟨e, rfl, by simpa [content] using named⟩
  | comment | doctype => simp [content] at named

theorem Node.openAppendText (tag run : String) (node : Node) :
    ((node.mapElement fun e => e.appendText run).isElementNamed tag && !(node.mapElement fun e => e.appendText run).done) =
      (node.isElementNamed tag && !node.done) := by
  have kept (e : Element) : (e.appendText run).tag = e.tag := by
    unfold Element.appendText
    cases e.text <;> rfl
  simp [isElementNamed, elementMapElement, mapElementDone, Option.any_map, kept]

theorem Builder.openNamedSeen {b : Builder} {tag : String} {id : NodeId} :
    b.isOpenNamed tag id = true ↔ (b.arena.get? id).map (fun node => node.isElementNamed tag && !node.done) = some true := by
  unfold isOpenNamed
  cases b.arena.get? id <;> simp

def Entry.Brings (entry : Entry σ) (id : NodeId) (done : Bool) (tag : String) : Prop :=
  entry.event = .opened id ∧
    ∃ node, entry.node = some node ∧ node.isElementNamed tag = true ∧ node.done = done

structure Recalls (entries : List (Entry σ)) (b : Builder) : Prop where
  void : ∀ entry ∈ entries, ∀ id tag, entry.Brings id true tag → ¬endSigns tag.toList <:+: b.scanner.rest
  waits : ∀ entry ∈ entries, ∀ id tag, entry.Brings id false tag → id ∉ closedIds entries → b.isOpenNamed tag id = true

namespace Recalls
variable {entries : List (Entry σ)} {b next : Builder} {entry : Entry σ} {id : NodeId} {node : Node} {token : Token}
  {covered : List Char}

theorem forward (recalls : Recalls entries b) (left : next.scanner.rest <:+ b.scanner.rest)
    (opens : ∀ tag id, b.isOpenNamed tag id = true → next.isOpenNamed tag id = true) : Recalls entries next :=
  ⟨fun entry member id tag brings within => recalls.void entry member id tag brings (within.trans left.isInfix),
    fun entry member id tag brings open_ => opens tag id (recalls.waits entry member id tag brings open_)⟩

theorem alike (recalls : Recalls entries b) (alike : b.Alike next) : Recalls entries next := by
  refine recalls.forward (alike.scanner ▸ List.suffix_rfl) fun tag id open_ => ?_
  rw [← Builder.alikeIsOpenNamed alike]
  exact open_

theorem quiet (recalls : Recalls entries b) (h : b.Step next none) : Recalls entries next := by
  refine recalls.forward (Builder.stepSuffix h) fun tag id open_ => ?_
  have seen := Builder.stepQuietView (fun node => node.isElementNamed tag && !node.done)
    (fun run node => Node.openAppendText tag run node) h id
  exact Builder.openNamedSeen.mpr (seen.trans (Builder.openNamedSeen.mp open_))

theorem opened (recalls : Recalls entries b) (opens : b.Opens next id node token covered)
    (event : entry.event = .opened id) (here : entry.node.map Node.outline = (next.arena.get? id).map Node.outline) :
    Recalls (entries ++ [entry]) next := by
  have earlier : Recalls entries next := by
    refine recalls.forward ⟨_, opens.reaches.rest.symm⟩ fun tag other open_ => ?_
    obtain ⟨seen, found, named⟩ := Option.map_eq_some_iff.mp (Builder.openNamedSeen.mp open_)
    rw [Builder.openNamedSeen, opens.arena, Arena.getPushKept found, Option.map_some, named]
  have brought {other : NodeId} {done : Bool} {tag : String} (brings : entry.Brings other done tag) :
      other = id ∧ node.isElementNamed tag = true ∧ node.done = done := by
    obtain ⟨told, seen, noted, named, state⟩ := brings
    cases event.symm.trans told
    have outline : seen.outline = node.outline := by simpa [noted, opens.got] using here
    exact ⟨rfl, (Node.outlineIsElementNamed outline tag).symm.trans named, (Node.outlineCases outline).1.symm.trans state⟩
  refine ⟨fun opening member other tag brings => ?_, fun opening member other tag brings open_ => ?_⟩
  · rcases List.mem_append.mp member with before | last
    · exact earlier.void opening before other tag brings
    · cases List.mem_singleton.mp last
      obtain ⟨rfl, named, void⟩ := brought brings
      obtain ⟨e, content, rfl⟩ := Node.namedContent named
      exact opens.unended content void
  · rw [closedIdsOpened event] at open_
    rcases List.mem_append.mp member with before | last
    · exact earlier.waits opening before other tag brings open_
    · cases List.mem_singleton.mp last
      obtain ⟨rfl, named, waiting⟩ := brought brings
      simp [Builder.isOpenNamed, opens.got, named, waiting]

theorem closed (recalls : Recalls entries b) (h : b.Step next (some (.closed id))) (event : entry.event = .closed id) :
    Recalls (entries ++ [entry]) next := by
  obtain ⟨_, _, _, _, _, _, _, _, arena⟩ := Builder.stepCloses h
  have left := Builder.stepSuffix h
  have old {opening : Entry σ} {other : NodeId} {done : Bool} {tag : String} (member : opening ∈ entries ++ [entry])
      (brings : opening.Brings other done tag) : opening ∈ entries := by
    rcases List.mem_append.mp member with before | last
    · exact before
    · cases List.mem_singleton.mp last
      cases event.symm.trans brings.1
  refine ⟨fun opening member other tag brings within => ?_, fun opening member other tag brings open_ => ?_⟩
  · exact recalls.void opening (old member brings) other tag brings (within.trans left.isInfix)
  · rw [closedIdsClosed event, List.mem_append, List.mem_singleton, not_or] at open_
    have before := recalls.waits opening (old member brings) other tag brings open_.1
    rw [Builder.isOpenNamed, arena, Arena.getModifyOther open_.2]
    exact before

end Recalls

namespace Build
variable {inner : Receiver σ} {comments : Bool} {source : List Char}

structure Recorded (source : List Char) (b : Build (Journal σ)) : Prop where
  journalled : b.Journalled source
  recalls : Recalls b.state.entries b.builder

theorem Recorded.skip {b : Build (Journal σ)} (recorded : b.Recorded source) : b.skipBlank.Recorded source :=
  ⟨recorded.journalled.skip, recorded.recalls.forward (skipSuffix b) fun _ _ open_ => open_⟩

theorem Recorded.turn {b next : Build (Journal σ)} (orderly : inner.Orderly) (recorded : b.Recorded source)
    (turned : b.turn comments (Journal.receiver none inner) = .ok next) : next.Recorded source := by
  refine ⟨recorded.journalled.turn orderly turned, ?_⟩
  rcases journalTurn orderly turned with ⟨stepped, state⟩ | ⟨builder, entry, stepped, alike, entries, here⟩
  · exact state ▸ recorded.recalls.quiet (Builder.stepCases stepped)
  · rw [entries]
    cases told : entry.event with
    | opened id =>
      rw [told] at stepped here
      obtain ⟨_, _, _, opens⟩ := Builder.stepOpened recorded.journalled.sound stepped
      exact (recorded.recalls.opened opens told here).alike alike
    | closed id =>
      rw [told] at stepped
      exact (recorded.recalls.closed (Builder.stepCases stepped) told).alike alike

theorem unmatchedSettled (orderly : inner.Orderly) (rules : inner.Rules) {state : σ}
    (short : Text.byteLength source < UInt32.size) {halt : Halt (Build (Journal σ))} {tag : String} {position : Position}
    (ran : (ofSource source (Journal.ofState state)).run comments (Journal.receiver none inner) = .error halt)
    (unmatched : halt.cause = .illegalTemplate (.unmatchedEndTag tag) position) {entry : Entry σ} {id : NodeId}
    {done : Bool} (member : entry ∈ halt.state.state.entries) (brings : entry.Brings id done tag) :
    done = false ∧ (id ∈ closedIds halt.state.state.entries ∨ id ∈ takenIds halt.state.state.entries) := by
  have start : (ofSource source (Journal.ofState state)).Recorded source :=
    ⟨Journalled.start state short, fun _ none => by contradiction, fun _ none => by contradiction⟩
  obtain ⟨b, recorded, failed⟩ := runError (I := Recorded source) (fun _ recorded => recorded.skip)
    (fun _ _ recorded turned => recorded.turn orderly turned) start ran
  rcases turnError failed with ⟨stepped, same⟩ | ⟨event, builder, journal, arena, _, told, _⟩
  · obtain ⟨reason, t, fails, cause⟩ := Builder.stepFails stepped
    rw [unmatched, Scanner.illegal] at cause
    cases cause
    rw [same] at member ⊢
    cases fails with
    | @unmatched covered name found none =>
      cases done with
      | true =>
        have within := constructCloses found
        exact absurd within (by simpa using recorded.recalls.void entry member id _ brings)
      | false =>
        refine ⟨rfl, or_iff_not_imp_left.mpr fun open_ => ?_⟩
        by_contra free
        have standing := recorded.journalled.traced.trail.standing (memOpenedIds.mpr ⟨entry, member, brings.1⟩) free
        have waits := recorded.recalls.waits entry member id _ brings open_
        exact absurd (waits.symm.trans (Builder.splitStackNone.mp none id standing)) (by decide)
  · obtain ⟨state, heard, _⟩ := Journal.receiverError told
    have semantic := rules _ _ _ _ heard
    simp [unmatched, CompileError.kind, CompileError.code, ErrorCode.kind] at semantic

structure Enters (comments : Bool) (receiver : Receiver σ) (first b : Build σ) (id : NodeId) (node : Node)
    (e : Element) : Prop where
  turns : ∃ n, Turns comments receiver n first b
  step : ∃ builder, b.skipBlank.builder.step comments = .ok (builder, some (.opened id)) ∧
    builder.arena.get? id = some node
  content : node.content = .element e

end Build

/-- What the look ahead for end tags promises of the builds of a template before a receiver. An element for which
none is found is done at once, and none is read in a later turn; and for an end tag that has no element, all
elements of its name had been opened to be closed, and have been closed or taken by another one. -/
structure Foresees (options : Options) (receiver : Receiver σ) (state : σ) (template : String) : Prop where
  ahead : ∀ b id node e, Build.Enters options.comments receiver (Build.ofSource template.toList state) b id node e →
    node.done = !isPaired b.skipBlank.builder.scanner.rest e.tag.toList
  void : ∀ b id node e, Build.Enters options.comments receiver (Build.ofSource template.toList state) b id node e →
    node.done = true → ∀ next n later, b.skipBlank.turn options.comments receiver = .ok next →
      Build.Turns options.comments receiver n next later → ∀ covered,
        construct? later.skipBlank.builder.scanner.rest ≠ some ⟨covered, .endTag e.tag.toList⟩
  unmatched : ∀ tag position, forestOf (buildWith options receiver state template.toList) =
      .error (.illegalTemplate (.unmatchedEndTag tag) position) →
    ∀ entry ∈ entriesOf options receiver state template, ∀ id done, entry.Brings id done tag →
      done = false ∧ (id ∈ closedIds (entriesOf options receiver state template) ∨
        id ∈ takenIds (entriesOf options receiver state template))

theorem foresees {options : Options} {receiver : Receiver σ} {state : σ} {template : String} (orderly : receiver.Orderly)
    (rules : receiver.Rules) (short : Text.byteLength template.toList < UInt32.size) :
    Foresees options receiver state template := by
  refine ⟨?_, ?_, ?_⟩
  · rintro b id node e ⟨⟨n, turns⟩, ⟨builder, stepped, got⟩, content⟩
    have sound := Builder.soundSkipBlank (Build.soundTurns orderly (Builder.soundOfSource short) turns)
    obtain ⟨other, token, covered, opens⟩ := Builder.stepOpened sound stepped
    cases opens.got.symm.trans got
    exact opens.foreseen content
  · rintro b id node e ⟨⟨n, turns⟩, ⟨builder, stepped, got⟩, content⟩ void next m later turned after covered
    exact Build.voidUnended orderly short turns stepped got content void turned after
  · intro tag position failed entry member id done brings
    have journal := journalForest options receiver state template.toList
    rw [failed] at journal
    unfold entriesOf at member ⊢
    cases ran : buildWith options (Journal.receiver none receiver) (Journal.ofState state) template.toList with
    | ok last => simp [ran, forestOf] at journal
    | error halt =>
      rw [ran] at member journal
      have cause : halt.cause = .illegalTemplate (.unmatchedEndTag tag) position := by simpa [forestOf] using journal
      exact Build.unmatchedSettled orderly rules short ran cause member brings

/-
The look ahead for end tags can be relied on, whatever the options, for a template shorter than 2^32 bytes, be its
build analysed or not.
-/
theorem voidsForeseen {options : Options} {template : String} (short : template.utf8ByteSize < UInt32.size) :
    Foresees options Receiver.silent () template ∧
    Foresees options (Analysis.receiver options template.toList) Analysis.start template := by
  rw [← Text.byteLengthToList] at short
  exact ⟨foresees Receiver.silentOrderly Receiver.silentRules short,
    foresees (Receiver.analysisOrderly options template.toList) (Receiver.analysisRules options template.toList) short⟩

def doubledBold : String := "<p><b></p><b></b></b>"

theorem endTagTooMany :
    doubledBold.utf8ByteSize < UInt32.size ∧
    readForest Options.standard doubledBold = .error (.illegalTemplate (.unmatchedEndTag "b") ⟨17, 1, 18⟩) ∧
    (closedIds (entriesOf Options.standard Receiver.silent () doubledBold) = [⟨0⟩, ⟨2⟩] ∧
      takenIds (entriesOf Options.standard Receiver.silent () doubledBold) = [⟨1⟩]) ∧
    Foresees Options.standard Receiver.silent () doubledBold := by
  have short : doubledBold.utf8ByteSize < UInt32.size := by decide
  refine ⟨short, ?_, ⟨?_, ?_⟩, (voidsForeseen short).1⟩
  · decide +kernel
  · decide +kernel
  · decide +kernel

end Templating
