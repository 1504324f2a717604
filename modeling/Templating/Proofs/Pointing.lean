import Templating.Proofs.Bracketing
import Templating.Proofs.Progress

/-!
Where errors point. An error with a position names what is wrong in a template; what stands at that
position, in the whole template with the blanks around it, is what the error is about.
-/
namespace Templating
open Markup

/-- The position of what stands behind `before`: so many bytes, in the line that its last line break begins. -/
structure Position.Behind (p : Position) (before : List Char) : Prop where
  offset : p.offset.toNat = Text.byteLength before
  line : p.line.toNat = before.count '\n' + 1
  column : ∃ above last, before = above ++ last ∧ (∀ c, above.getLast? = some c → c = '\n') ∧ '\n' ∉ last ∧
    p.column.toNat = last.length + 1

def BeginsTag (name : String) (text : List Char) : Prop :=
  ∃ after, text = '<' :: (name.toList ++ after) ∧ ∀ c, after.head? = some c → isTagName c = false

def IllegalReason.At (text : List Char) : IllegalReason → Prop
  | .unmatchedEndTag name => ∃ after, text = '<' :: '/' :: (name.toList ++ '>' :: after)
  | .unterminatedTag name => BeginsTag name text
  | .malformedAttribute => ∃ c after, text = c :: after ∧ Text.isBlank c = false ∧ c ≠ '>' ∧
      isAttributeStart c = false ∧ ¬['/', '>'] <+: text
  | .strayText => ∃ c after, text = c :: after ∧ Text.isBlank c = false ∧ c ≠ '<' ∧ c ≠ '/'
  | .unexpectedContent => ∃ c after, text = c :: after ∧ (c = '<' ∨ c = '/')

/-- What stands where an error points: a broken rule is one about an element, so that element's start tag. -/
def CompileError.At (text : List Char) : CompileError → Prop
  | .illegalTemplate reason _ => reason.At text
  | .rootNodeCount _ => False
  | .illegalRef tag _ => BeginsTag tag text
  | .illegalForExpression tag _ _ => BeginsTag tag text
  | .elseWithoutIf tag _ _ => BeginsTag tag text
  | .elseIfWithoutIf tag _ _ => BeginsTag tag text

namespace Position

theorem lastLine (before : List Char) : ∃ above last, before = above ++ last ∧
    (∀ c, above.getLast? = some c → c = '\n') ∧ '\n' ∉ last ∧
    last.length = (before.reverse.takeWhile (· ≠ '\n')).length := by
  have whole : before.reverse.takeWhile (· ≠ '\n') ++ before.reverse.dropWhile (· ≠ '\n') = before.reverse :=
    List.takeWhile_append_dropWhile
  have inside := List.all_eq_true.mp (List.all_takeWhile (l := before.reverse) (p := (· ≠ '\n')))
  have head := List.head?_dropWhile_not (· ≠ '\n') before.reverse
  refine ⟨(before.reverse.dropWhile (· ≠ '\n')).reverse, (before.reverse.takeWhile (· ≠ '\n')).reverse, ?_, ?_, ?_, ?_⟩
  · rw [← List.reverse_append, whole, List.reverse_reverse]
  · intro c last
    rw [List.getLast?_reverse] at last
    rw [last] at head
    simpa using head
  · intro member
    simpa using inside '\n' (List.mem_reverse.mp member)
  · exact List.length_reverse

theorem locateBehind {before after : List Char} (short : Text.byteLength (before ++ after) < UInt32.size)
    (signs : after ≠ []) : (locate (before ++ after) (Text.byteLength before)).Behind before := by
  obtain ⟨above, last, split, breaks, whole, length⟩ := lastLine before
  have chars := Text.lengthLeByteLength before
  have further := Text.byteLengthPositive signs
  have lines : before.count '\n' ≤ before.length := List.count_le_length
  have columns : last.length ≤ before.length := by simp [split]
  rw [Text.byteLengthAppend] at short
  have located : locate (before ++ after) (Text.byteLength before) =
      ⟨UInt32.ofNat (Text.byteLength before), UInt32.ofNat (before.count '\n' + 1), UInt32.ofNat (last.length + 1)⟩ := by
    simp only [locate, Text.takeBytesBefore, length]
  rw [located]
  exact ⟨UInt32.toNat_ofNat_of_lt' (by omega), UInt32.toNat_ofNat_of_lt' (by omega),
    above, last, split, breaks, whole, UInt32.toNat_ofNat_of_lt' (by omega)⟩

end Position

section
variable {name : String} {text trail : List Char}

theorem BeginsTag.append (begins : BeginsTag name text) (blank : ∀ c ∈ trail, Text.isBlank c = true) :
    BeginsTag name (text ++ trail) := by
  obtain ⟨after, rfl, stops⟩ := begins
  refine ⟨after ++ trail, by simp, ?_⟩
  cases after with
  | nil => exact fun c head => blankTagName (blank c (List.mem_of_mem_head? head))
  | cons d after => exact stops

theorem IllegalReason.At.append {reason : IllegalReason} (stands : reason.At text)
    (blank : ∀ c ∈ trail, Text.isBlank c = true) : reason.At (text ++ trail) := by
  cases reason with
  | unmatchedEndTag name =>
    obtain ⟨after, rfl⟩ := stands
    exact ⟨after ++ trail, by simp⟩
  | unterminatedTag name => exact BeginsTag.append stands blank
  | malformedAttribute =>
    obtain ⟨c, after, rfl, visible, open_, other, unclosed⟩ := stands
    refine ⟨c, after ++ trail, rfl, visible, open_, other, ?_⟩
    rintro ⟨rest, closes⟩
    cases after with
    | nil =>
      -- the sign that ends the tag would be one of the blanks
      obtain ⟨d, trail, rfl⟩ : ∃ d r, trail = d :: r := by
        cases trail with
        | nil => simp at closes
        | cons d r => exact ⟨d, r, rfl⟩
      obtain ⟨rfl, rfl, -⟩ : '/' = c ∧ '>' = d ∧ rest = trail := by simpa using closes
      exact absurd (blank '>' List.mem_cons_self) (by decide)
    | cons d after =>
      obtain ⟨rfl, rfl, -⟩ : '/' = c ∧ '>' = d ∧ rest = after ++ trail := by simpa using closes
      exact unclosed ⟨after, rfl⟩
  | strayText =>
    obtain ⟨c, after, rfl, visible⟩ := stands
    exact ⟨c, after ++ trail, rfl, visible⟩
  | unexpectedContent =>
    obtain ⟨c, after, rfl, sign⟩ := stands
    exact ⟨c, after ++ trail, rfl, sign⟩

theorem CompileError.At.append {cause : CompileError} (stands : cause.At text)
    (blank : ∀ c ∈ trail, Text.isBlank c = true) : cause.At (text ++ trail) := by
  cases cause with
  | illegalTemplate => exact IllegalReason.At.append stands blank
  | rootNodeCount => contradiction
  | illegalRef | illegalForExpression | elseWithoutIf | elseIfWithoutIf => exact BeginsTag.append stands blank

end

namespace Markup

theorem constructBegins {text name covered : List Char} (found : construct? text = some ⟨covered, .startTag name⟩) :
    BeginsTag (String.ofList name) text := by
  obtain ⟨_, after, split⟩ := constructHeads found
  have starts := constructStarts found
  have stops := startTagStops starts split
  obtain ⟨written, same⟩ := startTagWritten starts
  cases same
  exact ⟨after, by simpa using split, stops⟩

theorem tokenBegins {s behind : Scanner} {e : Element} {paired : Bool}
    (read : s.token = .ok (.startTag e paired, behind)) : BeginsTag e.tag s.rest := by
  obtain ⟨covered, name, found, tag, _⟩ := Scanner.tokenStarts read
  rw [tag]
  exact constructBegins found

end Markup

namespace Builder

theorem failsAt {b : Builder} {reason : IllegalReason} {t : Scanner} (fails : b.Fails reason t)
    (left : b.scanner.rest ≠ []) (visible : ∀ c, b.scanner.rest.head? = some c → Text.isBlank c = false) :
    t.rest ≠ [] ∧ reason.At t.rest := by
  obtain ⟨c, r, rest⟩ := List.exists_cons_of_ne_nil left
  cases fails with
  | unexpected none =>
    refine ⟨left, c, r, rest, ?_⟩
    by_contra other
    have plain : isText c = true := by simpa [isText] using other
    simp [rest, constructElsewhere plain, text?, plain] at none
  | unterminated found => exact ⟨left, constructBegins found⟩
  | @malformed _ t reaches unclosed more none =>
    obtain ⟨d, after, here⟩ := List.exists_cons_of_ne_nil more
    have seen : Text.isBlank d = false := Text.trimStartHeadNotBlank (t.restSkipBlank.symm.trans here)
    rw [here] at unclosed none
    refine ⟨more, d, after, here, seen, ?_, ?_, ?_⟩
    · rintro rfl
      simp [tagClose?] at unclosed
    · by_contra starts
      rw [attribute?, if_pos (by simpa using starts)] at none
      split at none <;> contradiction
    · rw [here]
      rintro ⟨rest, closes⟩
      rw [← closes] at unclosed
      simp [tagClose?] at unclosed
  | unmatched found =>
    obtain ⟨_, after, split⟩ := constructHeads found
    have written := constructWritten found
    simp only [Construct.Written] at written
    exact ⟨left, after, by simp [split, written]⟩
  | stray found =>
    obtain ⟨signs, after, split⟩ := constructHeads found
    have run := (constructEnds found split (by simp)).2 _ rfl
    have plain : isText c = true := by
      obtain ⟨d, more, same⟩ := List.exists_cons_of_ne_nil signs
      rw [split, same] at rest
      obtain ⟨rfl, _⟩ := List.cons.inj rest
      exact run.plain d (same ▸ List.mem_cons_self)
    have signs : c ≠ '<' ∧ c ≠ '/' := by simpa [isText] using plain
    exact ⟨left, c, r, rest, visible c (by simp [rest]), signs⟩

theorem unowned {b : Builder} (none : b.textOwner? = none) : ∀ id ∈ b.stack, b.isElement id = false := by
  have all := List.find?_eq_none.mp (Option.or_eq_none_iff.mp none).2
  exact fun id member => Bool.not_eq_true _ ▸ all id member

theorem stepIsElement {b next : Builder} {event : Option Event} {id : NodeId} (h : b.Step next event)
    (element : b.isElement id = true) : next.isElement id = true := by
  have seen (arena : Arena) : (arena.get? id).any Node.isElement = true ↔ (arena.get? id).map Node.isElement = some true := by
    cases arena.get? id <;> simp
  refine (seen next.arena).mpr (stepView Node.isElement ?_ ?_ h ((seen b.arena).mp element))
  · intro children stop node
    simp [Node.isElement, Node.elementClose]
  · intro run node
    simp [Node.isElement, Node.elementMapElement]

end Builder

theorem Directive.faultAt {around : Surroundings} {e : Element} {cause : CompileError} {text : List Char}
    (broken : fault? around e = some cause) (begins : BeginsTag e.tag text) : cause.At text := by
  unfold fault? at broken
  split at broken
  · cases broken
    exact begins
  split at broken
  · cases broken
    exact begins
  split at broken
  · cases broken
    exact begins
  split at broken
  · cases broken
    exact begins
  · contradiction

theorem CompileError.semanticReason {cause : CompileError} (semantic : cause.kind = .semantic) : cause.reason? = none := by
  cases cause with
  | illegalTemplate => contradiction
  | rootNodeCount | illegalRef | illegalForExpression | elseWithoutIf | elseIfWithoutIf => rfl

namespace Markup.Scanner

theorem insideBehind {source : List Char} {s : Scanner} (inside : s.Inside source)
    (short : Text.byteLength source < UInt32.size) (left : s.rest ≠ []) :
    ∃ before trail, source = before ++ (s.rest ++ trail) ∧ (∀ c ∈ trail, Text.isBlank c = true) ∧
      (Position.locate source s.offset).Behind before := by
  obtain ⟨read, trail, split, _, blank, offset⟩ := inside.place
  have whole : source = (source.takeWhile Text.isBlank ++ read) ++ (s.rest ++ trail) := by simpa using split
  have behind := Position.locateBehind (whole ▸ short) (List.append_ne_nil_of_left_ne_nil left trail)
  rw [← whole, ← offset] at behind
  exact ⟨_, trail, whole, blank, behind⟩

end Markup.Scanner

structure CompileError.PointsTo (source : List Char) (cause : CompileError) (t : Scanner) : Prop where
  inside : t.Inside source
  left : t.rest ≠ []
  stands : cause.At t.rest
  position : cause.position? = some (Position.locate source t.offset)

theorem CompileError.PointsTo.found {source : List Char} {cause : CompileError} {t : Scanner} {position : Position}
    (points : cause.PointsTo source t) (short : Text.byteLength source < UInt32.size)
    (named : cause.position? = some position) :
    ∃ before after, source = before ++ after ∧ position.Behind before ∧ cause.At after := by
  obtain ⟨before, trail, split, blank, behind⟩ := Scanner.insideBehind points.inside short points.left
  cases points.position.symm.trans named
  exact ⟨before, t.rest ++ trail, split, behind, points.stands.append blank⟩

namespace Build
variable {σ : Type} {inner : Receiver σ} {comments : Bool} {options : Options} {source : List Char}

def Begun (b : Build (Journal σ)) : Prop :=
  (∃ id ∈ b.builder.stack, b.builder.isElement id = true) ∨
    ∀ entry ∈ b.state.entries, ∀ node, entry.node = some node → node.isElement = false

theorem begunTurn {b next : Build (Journal σ)} (orderly : inner.Orderly) (sound : b.builder.Sound source)
    (begun : b.Begun) (turned : b.turn comments (Journal.receiver none inner) = .ok next) : next.Begun := by
  rcases journalTurn orderly turned with ⟨stepped, state⟩ | ⟨builder, entry, stepped, alike, entries, here⟩
  · have step := Builder.stepCases stepped
    rcases begun with ⟨id, member, element⟩ | none
    · exact Or.inl ⟨id, (Builder.stepQuiet step).1 ▸ member, Builder.stepIsElement step element⟩
    · exact Or.inr (state ▸ none)
  · have step := Builder.stepCases stepped
    have left (first : ∃ id ∈ builder.stack, builder.isElement id = true) : next.Begun := by
      obtain ⟨id, member, element⟩ := first
      exact Or.inl ⟨id, alike.stack ▸ member, (Builder.alikeIsElement alike id) ▸ element⟩
    cases told : entry.event with
    | closed id =>
      rw [told] at step
      obtain ⟨above, outer, node, _, stack, got, element, _⟩ := Builder.stepCloses step
      have here : b.builder.isElement id = true := by simp [Builder.isElement, got, element]
      exact left ⟨id, by simp [stack], Builder.stepIsElement step here⟩
    | opened id =>
      rw [told] at step here
      obtain ⟨node, _, stack, _, got, _⟩ := Builder.stepOpens sound step
      cases element : node.isElement with
      | true => exact left ⟨id, by simp [stack], by simp [Builder.isElement, got, element]⟩
      | false =>
        rcases begun with ⟨other, member, before⟩ | none
        · exact left ⟨other, by simp [stack, member], Builder.stepIsElement step before⟩
        · refine Or.inr fun opening member seen same => ?_
          rw [entries] at member
          rcases List.mem_append.mp member with earlier | last
          · exact none opening earlier seen same
          · cases List.mem_singleton.mp last
            have outline : seen.outline = node.outline := by simpa [same, got, Event.id] using here
            exact (Node.outlineIsElement outline).trans element

theorem failsPoints {b : Builder} {reason : IllegalReason} {t : Scanner} (inside : b.scanner.Inside source)
    (left : b.scanner.rest ≠ []) (visible : ∀ c, b.scanner.rest.head? = some c → Text.isBlank c = false)
    (fails : b.Fails reason t) : (t.illegal reason t.offset).PointsTo source t := by
  obtain ⟨covered, reaches⟩ := Builder.failsReaches fails
  obtain ⟨more, stands⟩ := Builder.failsAt fails left visible
  have there := Scanner.insideReaches inside reaches
  exact ⟨there, more, stands, by simp [Scanner.illegal, CompileError.position?, there.source]⟩

theorem refusedPoints {b next : Builder} {id : NodeId} {state : Analysis} {halt : Halt (Analysis × Arena)}
    (inside : b.scanner.Inside source) (sound : b.Sound source) (left : b.scanner.rest ≠ [])
    (stepped : b.step comments = .ok (next, some (.opened id)))
    (failed : Analysis.opened options source id state next.arena = .error halt) :
    halt.cause.PointsTo source b.scanner ∧ halt.cause.reason? = none := by
  obtain ⟨node, e, got, content, refused⟩ := Analysis.openedError failed
  obtain ⟨other, token, covered, opens⟩ := Builder.stepOpened sound stepped
  cases opens.got.symm.trans got
  have begins : BeginsTag e.tag b.scanner.rest := by
    have told := opens.content
    simp only [content, Content.OpenedBy] at told
    obtain ⟨f, paired, rfl, tag⟩ := told
    exact tag ▸ tokenBegins opens.read
  unfold Analysis.refuses? at refused
  split at refused
  · contradiction
  · obtain ⟨kind, position⟩ := Directive.faultPosition refused
    rw [Surroundings.position, Analysis.surroundings, opens.start] at position
    exact ⟨⟨inside, left, Directive.faultAt refused begins, position⟩, CompileError.semanticReason kind⟩

theorem turnPoints {b : Build (Journal Analysis)} {halt : Halt (Build (Journal Analysis))}
    (inside : b.builder.scanner.Inside source) (sound : b.builder.Sound source) (left : b.builder.scanner.rest ≠ [])
    (visible : ∀ c, b.builder.scanner.rest.head? = some c → Text.isBlank c = false)
    (failed : b.turn comments (Journal.receiver none (Analysis.receiver options source)) = .error halt) :
    ∃ t, halt.cause.PointsTo source t ∧
      (halt.cause.reason? = some .strayText → b.builder.textOwner? = none ∧ halt.state = b) := by
  rcases turnError failed with ⟨stepped, same⟩ | ⟨event, builder, journal, arena, stepped, told, _⟩
  · obtain ⟨reason, t, fails, cause⟩ := Builder.stepFails stepped
    refine ⟨t, cause ▸ failsPoints inside left visible fails, fun stray => ?_⟩
    simp only [cause, Scanner.illegal, CompileError.reason?, Option.some.injEq] at stray
    subst stray
    cases fails with
    | stray found none => exact ⟨none, same⟩
  · obtain ⟨state, heard, _⟩ := Journal.receiverError told
    cases event with
    | opened id =>
      obtain ⟨points, reason⟩ := refusedPoints inside sound left stepped heard
      exact ⟨_, points, fun stray => by simp [reason] at stray⟩
    | closed id => exact absurd heard ((Receiver.analysisOrderly options source).closes id _ _ _)

structure Reading (source : List Char) (b : Build (Journal σ)) : Prop where
  inside : b.builder.scanner.Inside source
  sound : b.builder.Sound source
  begun : b.Begun

theorem Reading.skip {b : Build (Journal σ)} (reading : b.Reading source) : b.skipBlank.Reading source :=
  ⟨Scanner.insideReaches reading.inside b.builder.scanner.reachesSkipBlank, Builder.soundSkipBlank reading.sound,
    reading.begun⟩

theorem Reading.turn {b next : Build (Journal σ)} (orderly : inner.Orderly) (reading : b.Reading source)
    (turned : b.turn comments (Journal.receiver none inner) = .ok next) : next.Reading source := by
  have begun := begunTurn orderly reading.sound reading.begun turned
  rcases journalTurn orderly turned with ⟨stepped, _⟩ | ⟨builder, entry, stepped, alike, _⟩
  · have step := Builder.stepCases stepped
    obtain ⟨_, _, reaches⟩ := Builder.stepAdvances step
    exact ⟨Scanner.insideReaches reading.inside reaches, Builder.soundStep reading.sound step, begun⟩
  · have step := Builder.stepCases stepped
    obtain ⟨_, _, reaches⟩ := Builder.stepAdvances step
    exact ⟨alike.scanner ▸ Scanner.insideReaches reading.inside reaches,
      Builder.soundAlike alike (Builder.soundStep reading.sound step), begun⟩

theorem haltedTurn (orderly : inner.Orderly) {state : σ} (short : Text.byteLength source < UInt32.size)
    {halt : Halt (Build (Journal σ))}
    (ran : (ofSource source (Journal.ofState state)).run comments (Journal.receiver none inner) = .error halt) :
    ∃ b : Build (Journal σ), b.Reading source ∧ b.builder.scanner.rest ≠ [] ∧
      (∀ c, b.builder.scanner.rest.head? = some c → Text.isBlank c = false) ∧
      b.turn comments (Journal.receiver none inner) = .error halt := by
  obtain ⟨n, last, turns, ends⟩ := runTurns comments (Journal.receiver none inner) (ofSource source (Journal.ofState state))
  rw [ran] at ends
  cases ends with
  | halted left failed =>
    have start : (ofSource source (Journal.ofState state)).Reading source :=
      ⟨Scanner.insideOfSource source, Builder.soundOfSource short, Or.inr fun entry none => by contradiction⟩
    have reading := turnsKeep (fun _ _ kept turned => kept.skip.turn orderly turned) start turns
    refine ⟨last.skipBlank, reading.skip, ?_, ?_, failed⟩
    · intro none
      simp [Builder.atEnd, Scanner.atEnd, none] at left
    · intro c head
      have rest : last.skipBlank.builder.scanner.rest = Text.trimStart last.builder.scanner.rest :=
        last.builder.scanner.restSkipBlank
      obtain ⟨more, whole⟩ := List.head?_eq_some_iff.mp head
      exact Text.trimStartHeadNotBlank (rest.symm.trans whole)

end Build

theorem parseFails {options : Options} {template : String} {cause : CompileError} {position : Position}
    (failed : parseWith options template = .error cause) (named : cause.position? = some position) :
    ∃ halt, buildWith options (Journal.receiver none (Analysis.receiver options template.toList))
      (Journal.ofState Analysis.start) template.toList = .error halt ∧ halt.cause = cause := by
  have journal := journalForest options (Analysis.receiver options template.toList) Analysis.start template.toList
  cases analysed : analyse options template with
  | error other =>
    have stopped : other = cause := by simpa [parseWith, analysed, bind, Except.bind] using failed
    rw [show forestOf (buildWith options (Analysis.receiver options template.toList) Analysis.start template.toList) =
      .error other from analysed] at journal
    cases ran : buildWith options (Journal.receiver none (Analysis.receiver options template.toList))
        (Journal.ofState Analysis.start) template.toList with
    | ok last => simp [ran, forestOf] at journal
    | error halt =>
      have same : halt.cause = other := by simpa [ran, forestOf] using journal
      exact ⟨halt, rfl, same.trans stopped⟩
  | ok forest =>
    rcases parseAnalysed analysed with ⟨root, _, parsed⟩ | ⟨_, count⟩
    · simp [parsed] at failed
    · cases count.symm.trans failed
      contradiction

/-
Whatever the template, if it is shorter than 2^32 bytes: what an error with a position is about stands there in
the whole template, and text is only stray where no element has been opened before it.
-/
theorem errorsPoint {options : Options} {template : String} {cause : CompileError} {position : Position}
    (short : template.utf8ByteSize < UInt32.size) (failed : parseWith options template = .error cause)
    (named : cause.position? = some position) :
    (∃ before after, template.toList = before ++ after ∧ position.Behind before ∧ cause.At after) ∧
    (cause.reason? = some .strayText →
      ∀ entry ∈ entriesOf options (Analysis.receiver options template.toList) Analysis.start template,
        ∀ node, entry.node = some node → node.isElement = false) := by
  rw [← Text.byteLengthToList] at short
  obtain ⟨halt, ran, rfl⟩ := parseFails failed named
  obtain ⟨b, reading, left, visible, halted⟩ :=
    Build.haltedTurn (Receiver.analysisOrderly options template.toList) short ran
  obtain ⟨t, points, stray⟩ := Build.turnPoints reading.inside reading.sound left visible halted
  refine ⟨points.found short named, fun reason => ?_⟩
  obtain ⟨none, stopped⟩ := stray reason
  have entries : entriesOf options (Analysis.receiver options template.toList) Analysis.start template = b.state.entries := by
    rw [entriesOf, ran, ← stopped]
  rw [entries]
  rcases reading.begun with ⟨id, member, element⟩ | nothing
  · simp [Builder.unowned none id member] at element
  · exact nothing

def commentThenText : String := "\n<!-- a --> b "

theorem textBehindComment :
    commentThenText.utf8ByteSize < UInt32.size ∧
    parseWith Options.standard commentThenText = .error (.illegalTemplate .strayText ⟨12, 2, 12⟩) ∧
    (∃ before after, commentThenText.toList = before ++ after ∧ (Position.mk 12 2 12).Behind before ∧
      IllegalReason.strayText.At after) ∧
    ∀ entry ∈ entriesOf Options.standard (Analysis.receiver Options.standard commentThenText.toList) Analysis.start
        commentThenText,
      ∀ node, entry.node = some node → node.isElement = false := by
  have short : commentThenText.utf8ByteSize < UInt32.size := by decide
  have failed : parseWith Options.standard commentThenText = .error (.illegalTemplate .strayText ⟨12, 2, 12⟩) := by
    decide +kernel
  obtain ⟨place, stray⟩ := errorsPoint short failed rfl
  exact ⟨short, failed, place, stray rfl⟩

example : parseWith Options.standard "<div>\n  <p></span>\n</div>" =
    .error (.illegalTemplate (.unmatchedEndTag "span") ⟨11, 2, 6⟩) := by decide +kernel

end Templating
