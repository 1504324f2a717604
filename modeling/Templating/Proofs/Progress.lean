import Templating.Proofs.Following
import Templating.Proofs.Signs

/-!
The way through a text. Each matcher covers part of what is left, and no two of those that a step tries
match at once; so every turn of a build moves the cursor on, and keeps it between the blanks that the text
begins and ends with. A build comes to its end after no more turns than the text has signs.
-/
namespace Templating
open Markup

namespace Text

theorem trimInfix (cs : List Char) : trim cs <:+: cs := by
  obtain ⟨lead, _, split⟩ := blankAppendTrimStart cs
  obtain ⟨trail, _, rest⟩ := trimEndAppendBlank (trimStart cs)
  exact ⟨lead, trail, by rw [trim, List.append_assoc, ← rest, ← split]⟩

end Text

namespace Markup

structure Match.Fits {α : Type} (m : Match α) (text : List Char) : Prop where
  positive : 1 ≤ m.byteLength
  bounded : m.byteLength ≤ Text.byteLength text
  boundary : ∃ after, text = m.covered ++ after
  unclamped : ∀ s : Scanner, s.rest = text →
    s.advance m.byteLength = s.pass m.covered ∧ (s.advance m.byteLength).offset = s.offset + m.byteLength

theorem Match.Heads.fits {α : Type} {m : Match α} {text : List Char} (heads : m.Heads text) : m.Fits text := by
  obtain ⟨signs, after, split⟩ := heads
  have length : m.byteLength = Text.byteLength m.covered := rfl
  refine ⟨Text.byteLengthPositive signs, ?_, ⟨after, split⟩, ?_⟩
  · rw [split, Text.byteLengthAppend, length]
    omega
  · intro s rest
    have taken : s.rest.take (s.rest.length - (Text.dropBytes m.byteLength s.rest).length) = m.covered := by
      rw [rest, split, length, Text.dropBytesAppend, List.length_append, Nat.add_sub_cancel]
      exact List.take_left
    rw [Scanner.advance, taken]
    exact ⟨rfl, rfl⟩

def standing (text : List Char) : List Bool :=
  [(doctype? text).isSome, (comment? text).isSome, (startTag? text).isSome, (endTag? text).isSome, (text? text).isSome]

theorem doctypeComment (r : List Char) : doctype? ('<' :: '!' :: '-' :: r) = none := by
  refine if_neg fun same => ?_
  have third : '-'.toUpper = 'D' := (List.cons.inj (List.cons.inj (List.cons.inj same).2).2).1
  exact absurd third (by decide)

theorem standingOnce (text : List Char) : (standing text).count true ≤ 1 := by
  unfold standing
  match text with
  | [] => decide
  | c :: r =>
    by_cases sign : c = '<'
    · subst sign
      have noText : text? ('<' :: r) = none := rfl
      rw [noText]
      match r with
      | [] => decide
      | d :: r =>
        by_cases bang : d = '!'
        · subst bang
          have startTag : startTag? ('<' :: '!' :: r) = none := rfl
          have endTag : endTag? ('<' :: '!' :: r) = none := rfl
          rw [startTag, endTag]
          cases r with
          | nil => decide
          | cons e r =>
            by_cases dash : e = '-'
            · subst dash
              rw [doctypeComment]
              generalize (comment? ('<' :: '!' :: '-' :: r)).isSome = found
              cases found <;> decide
            · have comment : comment? ('<' :: '!' :: e :: r) = none := by simp [comment?, Text.strip, Ne.symm dash]
              rw [comment]
              generalize (doctype? ('<' :: '!' :: e :: r)).isSome = found
              cases found <;> decide
        · rw [doctypeOther bang, commentOther bang]
          by_cases slash : d = '/'
          · subst slash
            have startTag : startTag? ('<' :: '/' :: r) = none := rfl
            rw [startTag]
            generalize (endTag? ('<' :: '/' :: r)).isSome = found
            cases found <;> decide
          · have endTag : endTag? ('<' :: d :: r) = none := by
              unfold endTag?
              split
              · rename_i same
                exact absurd (List.cons.inj (List.cons.inj same).2).1 slash
              · rfl
            rw [endTag]
            generalize (startTag? ('<' :: d :: r)).isSome = found
            cases found <;> decide
    · rw [doctypeElsewhere sign, commentElsewhere sign, startTagElsewhere sign, endTagElsewhere sign]
      generalize (text? (c :: r)).isSome = found
      cases found <;> decide

theorem commentInside {text : List Char} {m : Match (List Char)} (found : comment? text = some m) :
    m.value <:+: m.covered := by
  obtain ⟨body, rfl⟩ := commentWritten found
  exact ⟨"<!--".toList, "-->".toList, List.append_assoc ..⟩

theorem doctypeInside {text : List Char} {m : Match (List Char)} (found : doctype? text = some m) :
    m.value <:+: m.covered := by
  obtain ⟨keyword, inner, covered, _, _, value⟩ := doctypeWritten found
  rw [value, covered]
  exact (Text.trimInfix inner).trans ⟨keyword, ['>'], List.append_assoc ..⟩

theorem valueInside {text : List Char} {m : Match (List Char)} (found : attributeValue? text = some m) :
    m.value <:+: m.covered := by
  unfold attributeValue? at found
  split at found
  · rename_i afterSign _
    split at found
    · rename_i quote quoted _
      split at found
      · obtain ⟨sides, _, rfl⟩ := Option.map_eq_some_iff.mp found
        have quotedText : sides.1 <:+: quote :: (sides.1 ++ [quote]) := ⟨[quote], [quote], rfl⟩
        have behindSign := quotedText.trans (List.suffix_append (afterSign.takeWhile Text.isBlank) _).isInfix
        have whole := (behindSign.trans (List.suffix_cons '=' _).isInfix).trans
          (List.suffix_append (text.takeWhile Text.isBlank) _).isInfix
        exact (Text.trimInfix sides.1).trans whole
      · contradiction
    · contradiction
  · contradiction

theorem attributeInside {text : List Char} {m : Match Attribute} (found : attribute? text = some m) :
    m.value.name <+: m.covered ∧ ∀ value, m.value.value = some value → value <:+: m.covered := by
  cases text with
  | nil => contradiction
  | cons c r =>
    simp only [attribute?] at found
    split at found
    · split at found
      · rename_i value assigned
        cases found
        refine ⟨List.prefix_append _ _, ?_⟩
        intro text same
        cases same
        exact (valueInside assigned).trans (List.suffix_append _ _).isInfix
      · cases found
        exact ⟨List.prefix_refl _, fun value none => by contradiction⟩
    · contradiction

theorem lookaheadBehindName {name after : List Char} :
    Text.dropBytes (1 + Text.byteLength name) ('<' :: name ++ after) = after :=
  Text.dropBytesAppend ('<' :: name) after

/-- What the matchers give at one place: at most one of those that a step tries matches, all of them cover what
stands there, and what they give as text is cut from what they cover. -/
structure MatchersFit (text : List Char) : Prop where
  once : (standing text).count true ≤ 1
  doctype : ∀ m, doctype? text = some m → m.Fits text ∧ m.value <:+: m.covered
  comment : ∀ m, comment? text = some m → m.Fits text ∧ m.value <:+: m.covered
  startTag : ∀ m, startTag? text = some m → m.Fits text ∧ m.covered = '<' :: m.value ∧
    text = m.covered ++ Text.dropBytes (1 + Text.byteLength m.value) text
  endTag : ∀ m, endTag? text = some m → m.Fits text ∧ m.covered = '<' :: '/' :: (m.value ++ ['>'])
  run : ∀ m, text? text = some m → m.Fits text ∧ m.value <:+: m.covered
  tagClose : ∀ m, tagClose? text = some m → m.Fits text
  attr : ∀ m, attribute? text = some m → m.Fits text ∧ m.value.name <+: m.covered ∧
    ∀ value, m.value.value = some value → value <:+: m.covered

theorem matchersFit (text : List Char) : MatchersFit text where
  once := standingOnce text
  doctype _ found := ⟨(doctypeHeads found).fits, doctypeInside found⟩
  comment _ found := ⟨(commentHeads found).fits, commentInside found⟩
  startTag m found := by
    have heads := startTagHeads found
    refine ⟨heads.fits, ?_⟩
    obtain ⟨name, rfl⟩ := startTagWritten found
    obtain ⟨_, after, split⟩ := heads
    refine ⟨rfl, ?_⟩
    rw [split]
    exact congrArg (_ ++ ·) lookaheadBehindName.symm
  endTag m found := by
    refine ⟨(endTagHeads found).fits, ?_⟩
    obtain ⟨tag, rfl⟩ := endTagWritten found
    rfl
  run m found := by
    refine ⟨(textHeads found).fits, ?_⟩
    rw [textExact found]
    exact Text.trimInfix m.covered
  tagClose _ found := (tagCloseHeads found).fits
  attr _ found := ⟨(attributeHeads found).fits, attributeInside found⟩

namespace Scanner
variable {source covered : List Char} {s t : Scanner}

structure Inside (source : List Char) (s : Scanner) : Prop where
  place : ∃ before trail, source = source.takeWhile Text.isBlank ++ (before ++ (s.rest ++ trail)) ∧
    before ++ s.rest = Text.trim source ∧ (∀ c ∈ trail, Text.isBlank c = true) ∧
    s.offset = Text.byteLength (source.takeWhile Text.isBlank ++ before)
  source : s.source = source

theorem insideOfSource (source : List Char) : (ofSource source).Inside source := by
  obtain ⟨trail, blank, split⟩ := ofSourceSides source
  exact ⟨⟨[], trail, split, rfl, blank, by rw [List.append_nil]; rfl⟩, rfl⟩

theorem insideReaches (inside : s.Inside source) (reaches : s.Reaches covered t) : t.Inside source := by
  obtain ⟨before, trail, split, trimmed, blank, offset⟩ := inside.place
  rw [reaches.rest] at split trimmed
  refine ⟨⟨before ++ covered, trail, ?_, ?_, blank, ?_⟩, reaches.source.trans inside.source⟩
  · simpa only [List.append_assoc] using split
  · simpa only [List.append_assoc] using trimmed
  · rw [reaches.offset, offset, ← Text.byteLengthAppend, List.append_assoc]

inductive AttributeRead (s : Scanner) : Scanner → Prop where
  | read {m : Match Attribute} (unclosed : tagClose? s.skipBlank.rest = none)
      (found : attribute? s.skipBlank.rest = some m) : AttributeRead s (s.skipBlank.pass m.covered)

theorem attributeAdvances (read : s.AttributeRead t) : s.Advances t := by
  obtain ⟨_, found⟩ := read
  rename_i m
  have heads := attributeHeads found
  refine ⟨_, ?_, reachesTrans s.reachesSkipBlank (reachesMatch heads)⟩
  exact List.append_ne_nil_of_right_ne_nil _ heads.1

theorem insideAttribute (inside : s.Inside source) (read : s.AttributeRead t) : t.Inside source ∧ s.offset < t.offset := by
  have advances := attributeAdvances read
  obtain ⟨_, _, reaches⟩ := advances
  exact ⟨insideReaches inside reaches, advancesOffset (attributeAdvances read)⟩

inductive AttributesRead : Nat → Scanner → Scanner → Prop where
  | none (s : Scanner) : AttributesRead 0 s s
  | more {n s next last} (read : s.AttributeRead next) (later : AttributesRead n next last) : AttributesRead (n + 1) s last

theorem attributesEnd (start : Nat) (s : Scanner) (e : Element) :
    ∃ n last f, AttributesRead n s last ∧ s.readAttributes start e = last.readAttributes start f ∧
      ∀ t, ¬last.AttributeRead t := by
  induction s, e using readAttributes.induct with
  | case1 s e here close found =>
    refine ⟨0, s, e, .none s, rfl, ?_⟩
    rintro t ⟨unclosed, _⟩
    exact absurd (found.symm.trans unclosed) (by simp)
  | case2 s e here noClose ended =>
    refine ⟨0, s, e, .none s, rfl, ?_⟩
    rintro t ⟨_, found⟩
    have used : s.skipBlank.rest = [] := List.isEmpty_iff.mp ended
    rw [used] at found
    contradiction
  | case3 s e here noClose more written found ih =>
    obtain ⟨n, last, f, reads, same, none⟩ := ih
    exact ⟨n + 1, last, f, .more (.read noClose found) reads, (readAttributesNext noClose found).trans same, none⟩
  | case4 s e here noClose more none =>
    refine ⟨0, s, e, .none s, rfl, ?_⟩
    rintro t ⟨_, found⟩
    exact absurd (none.symm.trans found) (by simp)

theorem attributesBound {n : Nat} (reads : AttributesRead n s t) : n + t.rest.length ≤ s.rest.length := by
  induction reads with
  | none s => omega
  | more read later ih =>
    have shorter := advancesLength (attributeAdvances read)
    omega

theorem insideAttributes {n : Nat} (inside : s.Inside source) (reads : AttributesRead n s t) : t.Inside source := by
  induction reads with
  | none s => exact inside
  | more read later ih => exact ih (insideAttribute inside read).1

/-- Attributes are read behind the name of a start tag until there are no more, each of them moving the cursor
on inside of the text. -/
structure AttributesProgress (source : List Char) (s : Scanner) : Prop where
  ends : ∀ start e, ∃ n last f, n ≤ s.rest.length ∧ AttributesRead n s last ∧
    s.readAttributes start e = last.readAttributes start f ∧ ∀ t, ¬last.AttributeRead t
  inside : ∀ n t, AttributesRead n s t → t.Inside source ∧ t.skipBlank.Inside source
  forward : ∀ n t next, AttributesRead n s t → t.AttributeRead next → t.offset < next.offset

theorem attributesProgress (inside : s.Inside source) : s.AttributesProgress source where
  ends start e := by
    obtain ⟨n, last, f, reads, same, none⟩ := attributesEnd start s e
    have bound := attributesBound reads
    exact ⟨n, last, f, by omega, reads, same, none⟩
  inside n t reads := by
    have there := insideAttributes inside reads
    exact ⟨there, insideReaches there t.reachesSkipBlank⟩
  forward n t next reads read := (insideAttribute (insideAttributes inside reads) read).2

end Scanner
end Markup

namespace Build
variable {σ : Type} {comments : Bool} {receiver : Receiver σ} {ids : σ → List NodeId} {source : List Char}
  {b next last : Build σ}

inductive Turns (comments : Bool) (receiver : Receiver σ) : Nat → Build σ → Build σ → Prop where
  | none (b : Build σ) : Turns comments receiver 0 b b
  | more {n b next last} (left : b.skipBlank.builder.atEnd = false)
      (turned : b.skipBlank.turn comments receiver = .ok next) (later : Turns comments receiver n next last) :
      Turns comments receiver (n + 1) b last

inductive Ends (comments : Bool) (receiver : Receiver σ) (b : Build σ) : Except (Halt (Build σ)) (Build σ) → Prop where
  | used (none : b.skipBlank.builder.atEnd = true) : Ends comments receiver b (.ok b.skipBlank)
  | halted {halt} (left : b.skipBlank.builder.atEnd = false)
      (failed : b.skipBlank.turn comments receiver = .error halt) : Ends comments receiver b (.error halt)

theorem runTurns (comments : Bool) (receiver : Receiver σ) (b : Build σ) :
    ∃ n last, Turns comments receiver n b last ∧ Ends comments receiver last (b.run comments receiver) := by
  fun_induction run comments receiver b with
  | case1 b used => exact ⟨0, b, .none b, .used used⟩
  | case2 b more halt failed => exact ⟨0, b, .none b, .halted (Bool.not_eq_true _ ▸ more) failed⟩
  | case3 b more next turned ih =>
    obtain ⟨n, last, turns, ends⟩ := ih
    exact ⟨n + 1, last, .more (Bool.not_eq_true _ ▸ more) turned turns, ends⟩

theorem turnsBound {n : Nat} (turns : Turns comments receiver n b last) :
    n + last.builder.scanner.rest.length ≤ b.builder.scanner.rest.length := by
  induction turns with
  | none b => omega
  | @more n b next last left turned later ih =>
    have shorter := turnShortens turned
    have skipped : b.skipBlank.builder.scanner.rest.length ≤ b.builder.scanner.rest.length :=
      b.builder.scanner.restSkipBlankLength
    omega

theorem turnsKeep {I : Build σ → Prop} (turn : ∀ b next, I b → b.skipBlank.turn comments receiver = .ok next → I next)
    {n : Nat} (start : I b) (turns : Turns comments receiver n b last) : I last := by
  induction turns with
  | none b => exact start
  | more left turned later ih => exact ih (turn _ _ start turned)

theorem turnsBeside {τ : Type} {other : Bool} {first : Receiver τ} {Related : Build τ → Build σ → Prop}
    {Fails : CompileError → CompileError → Prop} {Stops : Build τ → CompileError → Prop}
    (atEnd : ∀ p q, Related p q → p.skipBlank.builder.atEnd = q.skipBlank.builder.atEnd)
    (turn : ∀ p q, Related p q →
      Outcomes Related Fails Stops (p.skipBlank.turn other first) (q.skipBlank.turn comments receiver))
    {n : Nat} {p : Build τ} (start : Related p b) (turns : Turns comments receiver n b last) :
    ∃ beside, Turns other first n p beside ∧ Related beside last := by
  induction turns generalizing p with
  | none b => exact ⟨p, .none p, start⟩
  | @more n b next last left turned later ih =>
    have outcome := turn p b start
    rw [turned] at outcome
    cases taken : p.skipBlank.turn other first with
    | error halt =>
      rw [taken] at outcome
      cases outcome
    | ok after =>
      rw [taken] at outcome
      cases outcome with
      | together related =>
        obtain ⟨beside, turns, ends⟩ := ih related
        exact ⟨beside, .more ((atEnd p b start).trans left) taken turns, ends⟩

theorem runEnds (ran : b.run comments receiver = .ok next) :
    ∃ n last, Turns comments receiver n b last ∧ next = last.skipBlank ∧ next.builder.atEnd = true := by
  obtain ⟨n, last, turns, ends⟩ := runTurns comments receiver b
  rw [ran] at ends
  cases ends with
  | used none => exact ⟨n, last, turns, rfl, none⟩

/- What holds before every turn: the cursor stands inside of the text, the nodes opened so far have words for
ids, and every id that the build or the receiver refers to is that of a node. -/
structure Steady (source : List Char) (ids : σ → List NodeId) (b : Build σ) : Prop where
  inside : b.builder.scanner.Inside source
  sound : b.builder.Sound source
  stack : ∀ id ∈ b.builder.stack, id.index < b.builder.arena.size
  known : ∀ id ∈ ids b.state, id.index < b.builder.arena.size

end Build

def Receiver.Minds {σ : Type} (receiver : Receiver σ) (ids : σ → List NodeId) : Prop :=
  ∀ event state after arena changed, receiver event state arena = .ok (after, changed) →
    changed.size = arena.size ∧ ∀ id ∈ ids after, id = event.id ∨ id ∈ ids state

theorem Receiver.silentMinds : Receiver.silent.Minds fun _ => [] := by
  intro event state after arena changed told
  cases told
  exact ⟨rfl, fun id none => by contradiction⟩

namespace Analysis
variable {a after : Analysis} {arena changed : Arena} {id other : NodeId}

def ids (a : Analysis) : List NodeId := a.parents ++ (a.previous.toList ++ a.verbatim.toList)

theorem memIds : other ∈ a.ids ↔ other ∈ a.parents ∨ a.previous = some other ∨ a.verbatim = some other := by
  simp [ids]

theorem idsFinish (member : other ∈ (a.finish id).ids) : other = id ∨ other ∈ a.ids := by
  rw [memIds] at member ⊢
  unfold finish leave at member
  split at member
  · rcases member with inside | last | none
    · exact Or.inr (Or.inl inside)
    · exact Or.inl (Option.some.inj last).symm
    · contradiction
  · rcases member with inside | last | verbatim
    · exact Or.inr (Or.inl inside)
    · exact Or.inl (Option.some.inj last).symm
    · exact Or.inr (Or.inr (Or.inr verbatim))

theorem idsEnter {e : Element} (member : other ∈ (a.enter id e).ids) : other = id ∨ other ∈ a.ids := by
  unfold enter at member
  split at member
  · rw [memIds] at member ⊢
    rcases member with inside | last | verbatim
    · exact Or.inr (Or.inl inside)
    · exact Or.inr (Or.inr (Or.inl last))
    · exact Or.inl (Option.some.inj verbatim).symm
  · exact Or.inr member

theorem idsNoteOpened {node : Node} (member : other ∈ (a.noteOpened id node).ids) : other = id ∨ other ∈ a.ids := by
  unfold noteOpened at member
  split at member
  · exact idsFinish member
  · rw [memIds] at member ⊢
    rcases member with inside | last
    · exact (List.mem_cons.mp inside).imp_right Or.inl
    · exact Or.inr (Or.inr last)

theorem idsOpened {options : Options} {source : List Char}
    (told : opened options source id a arena = .ok (after, changed)) (member : other ∈ after.ids) :
    other = id ∨ other ∈ a.ids := by
  cases got : arena.get? id with
  | none =>
    simp only [opened, got] at told
    cases told
    exact Or.inr member
  | some node =>
    rcases node.contentCases with ⟨e, content⟩ | leaf
    · rw [(openedElement got content told).1] at member
      rcases idsNoteOpened member with same | entered
      · exact Or.inl same
      · exact idsEnter entered
    · rw [openedLeaf a options source got leaf] at told
      cases told
      split at member
      · exact idsFinish member
      · exact Or.inr member

theorem idsClosed (options : Options) (member : other ∈ (closed options id a arena).1.ids) :
    other = id ∨ other ∈ a.ids := by
  rw [Followed.closedState, memIds] at member
  rw [memIds]
  rcases member with inside | last | verbatim
  · exact Or.inr (Or.inl ((outsideSublist id a.parents).mem inside))
  · exact Or.inl (Option.some.inj last).symm
  · exact Or.inr (Or.inr (Or.inr (Option.filter_eq_some_iff.mp verbatim).1))

theorem receiverMinds (options : Options) (source : List Char) : (receiver options source).Minds ids := by
  intro event state after arena changed told
  refine ⟨Arena.alikeSize (receiverAlike options source event state after arena changed told), ?_⟩
  intro id member
  cases event with
  | opened opening => exact idsOpened told member
  | closed closing =>
    cases told
    exact @idsClosed state arena closing id options member

end Analysis

namespace Build
variable {σ : Type} {comments : Bool} {receiver : Receiver σ} {ids : σ → List NodeId} {source : List Char}
  {b next : Build σ}

theorem steadySkip (steady : b.Steady source ids) : b.skipBlank.Steady source ids :=
  ⟨Scanner.insideReaches steady.inside b.builder.scanner.reachesSkipBlank, Builder.soundSkipBlank steady.sound,
    steady.stack, steady.known⟩

theorem steadyStep {builder : Builder} {event : Option Event} (steady : b.Steady source ids)
    (stepped : b.builder.step comments = .ok (builder, event)) :
    Steady source ids ⟨builder, b.state⟩ ∧ b.builder.scanner.offset < builder.scanner.offset ∧
      ∀ told, event = some told → told.id.index < builder.arena.size := by
  have step := Builder.stepCases stepped
  obtain ⟨_, _, reaches⟩ := Builder.stepAdvances step
  have inside := Scanner.insideReaches steady.inside reaches
  have sound := Builder.soundStep steady.sound step
  have forward := Scanner.advancesOffset (Builder.stepAdvances step)
  cases event with
  | none =>
    obtain ⟨stack, size, _⟩ := Builder.stepQuiet step
    refine ⟨⟨inside, sound, ?_, ?_⟩, forward, fun told none => by contradiction⟩
    · rw [size, stack]
      exact steady.stack
    · rw [size]
      exact steady.known
  | some event =>
    cases event with
    | opened id =>
      obtain ⟨node, arena, stack, index, _⟩ := Builder.stepOpens steady.sound step
      have size : builder.arena.size = b.builder.arena.size + 1 := by rw [arena, Arena.sizePush]
      refine ⟨⟨inside, sound, ?_, ?_⟩, forward, ?_⟩
      · intro other member
        show other.index < builder.arena.size
        rw [stack] at member
        rcases List.mem_cons.mp member with rfl | before
        · omega
        · have := steady.stack other before
          omega
      · intro other member
        show other.index < builder.arena.size
        have := steady.known other member
        omega
      · intro told same
        cases same
        show id.index < builder.arena.size
        omega
    | closed id =>
      obtain ⟨above, outer, node, stack, left, got, _, _, arena⟩ := Builder.stepCloses step
      have size : builder.arena.size = b.builder.arena.size := by rw [arena, Arena.sizeModify]
      have place := Arena.getInside got
      refine ⟨⟨inside, sound, ?_, ?_⟩, forward, ?_⟩
      · intro other member
        rw [left] at member
        rw [size]
        exact steady.stack other (by rw [stack]; exact List.mem_append_right _ member)
      · rw [size]
        exact steady.known
      · intro told same
        cases same
        rw [size]
        exact place

theorem steadyTurn (minds : receiver.Minds ids) (steady : b.Steady source ids)
    (turned : b.turn comments receiver = .ok next) : next.Steady source ids := by
  rcases turnOk turned with ⟨stepped, state⟩ | ⟨event, builder, arena, stepped, told, same⟩
  · obtain ⟨after, _⟩ := steadyStep steady stepped
    refine ⟨after.inside, after.sound, after.stack, ?_⟩
    rw [state]
    exact after.known
  · obtain ⟨after, _, place⟩ := steadyStep steady stepped
    obtain ⟨size, known⟩ := minds _ _ _ _ _ told
    obtain ⟨current, state⟩ := next
    subst same
    refine ⟨after.inside, ⟨after.sound.short, after.sound.source, after.sound.placed, ?_⟩, ?_, ?_⟩
    · show arena.size + builder.scanner.rest.length < UInt32.size
      rw [size]
      exact after.sound.room
    · intro id member
      show id.index < arena.size
      rw [size]
      exact after.stack id member
    · intro id member
      show id.index < arena.size
      rw [size]
      rcases known id member with rfl | before
      · exact place event rfl
      · exact after.known id before

/-- A build comes to its end, and so does every start tag that it reads. Before each of its turns the cursor
stands inside of the text, and each of its steps moves it on. -/
structure Progresses (options : Options) (receiver : Receiver σ) (ids : σ → List NodeId) (state : σ)
    (source : List Char) : Prop where
  ends : ∃ n last, n ≤ (Text.trim source).length ∧ Turns options.comments receiver n (ofSource source state) last ∧
    Ends options.comments receiver last (buildWith options receiver state source)
  steady : ∀ n b, Turns options.comments receiver n (ofSource source state) b →
    b.Steady source ids ∧ b.skipBlank.Steady source ids
  steps : ∀ n b builder event, Turns options.comments receiver n (ofSource source state) b →
    b.skipBlank.builder.step options.comments = .ok (builder, event) →
    Steady source ids ⟨builder, b.state⟩ ∧ b.skipBlank.builder.scanner.offset < builder.scanner.offset ∧
      ∀ told, event = some told → told.id.index < builder.arena.size
  attributes : ∀ n b m, Turns options.comments receiver n (ofSource source state) b →
    startTag? b.skipBlank.builder.scanner.rest = some m →
    (b.skipBlank.builder.scanner.pass m.covered).AttributesProgress source

theorem steadyOfSource {state : σ} (short : Text.byteLength source < UInt32.size) (none : ids state = []) :
    (ofSource source state).Steady source ids := by
  refine ⟨Scanner.insideOfSource source, Builder.soundOfSource short, ?_, ?_⟩
  · intro id member
    contradiction
  · rw [show ids (ofSource source state).state = [] from none]
    intro id member
    contradiction

theorem progresses {options : Options} {state : σ} (minds : receiver.Minds ids)
    (short : Text.byteLength source < UInt32.size) (none : ids state = []) :
    Progresses options receiver ids state source := by
  have steady (n : Nat) (b : Build σ) (turns : Turns options.comments receiver n (ofSource source state) b) :
      b.Steady source ids :=
    turnsKeep (fun _ _ steady turned => steadyTurn minds (steadySkip steady) turned) (steadyOfSource short none) turns
  refine ⟨?_, ?_, ?_, ?_⟩
  · obtain ⟨n, last, turns, ends⟩ := runTurns options.comments receiver (ofSource source state)
    have bound : n + _ ≤ (Text.trim source).length := turnsBound turns
    exact ⟨n, last, by omega, turns, ends⟩
  · intro n b turns
    exact ⟨steady n b turns, steadySkip (steady n b turns)⟩
  · intro n b builder event turns stepped
    exact steadyStep (steadySkip (steady n b turns)) stepped
  · intro n b m turns found
    have here := (steadySkip (steady n b turns)).inside
    exact Scanner.attributesProgress (Scanner.insideReaches here (Scanner.reachesMatch (startTagHeads found)))

end Build

/-
Whatever the template, every matcher covers part of what it is given and at most one of those tried matches; and
a build of it, be it analysed or not, goes on inside of the text until it comes to its end.
-/
theorem buildsProgress {options : Options} {template : String} (short : template.utf8ByteSize < UInt32.size) :
    (∀ text, MatchersFit text) ∧
    Build.Progresses options Receiver.silent (fun _ => []) () template.toList ∧
    Build.Progresses options (Analysis.receiver options template.toList) Analysis.ids Analysis.start template.toList := by
  rw [← Text.byteLengthToList] at short
  exact ⟨matchersFit, Build.progresses Receiver.silentMinds short rfl,
    Build.progresses (Analysis.receiverMinds options template.toList) short rfl⟩

def accentedParagraph : String := "  <p :a='é'>x<br></p> \n"

theorem accentedProgress :
    accentedParagraph.utf8ByteSize < UInt32.size ∧
    ((buildWith Options.standard (Analysis.receiver Options.standard accentedParagraph.toList) Analysis.start
      accentedParagraph.toList).toOption.map fun b => b.builder.scanner.offset) = some 22 ∧
    Build.Progresses Options.standard (Analysis.receiver Options.standard accentedParagraph.toList) Analysis.ids
      Analysis.start accentedParagraph.toList := by
  have short : accentedParagraph.utf8ByteSize < UInt32.size := by decide
  refine ⟨short, ?_, (buildsProgress short).2.2⟩
  decide +kernel

end Templating
