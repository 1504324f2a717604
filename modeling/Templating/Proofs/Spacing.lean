import Templating.Proofs.Seams

/-!
Two cursors, the second over the same text but for blanks that were put in at one place, where the first
comes to stand as a turn begins. Up to that place both see the same signs and read the same tokens; behind
it they see the same text, the second further on by what the blanks take up.
-/
namespace Templating

namespace Text

variable {blanks cs more : List Char}

theorem trimStartBlanks (blank : ∀ c ∈ blanks, isBlank c = true) (cs : List Char) :
    trimStart (blanks ++ cs) = trimStart cs := List.dropWhile_append_of_pos blank

theorem trimStartKept (signs : trimStart cs ≠ []) (more : List Char) : trimStart (cs ++ more) = trimStart cs ++ more := by
  unfold trimStart at signs ⊢
  rw [List.dropWhile_append, if_neg (by simpa using signs)]

theorem leadingKept (signs : trimStart cs ≠ []) (more : List Char) :
    (cs ++ more).takeWhile isBlank = cs.takeWhile isBlank := by
  have whole : (cs ++ more).takeWhile isBlank ++ trimStart (cs ++ more) = cs.takeWhile isBlank ++ trimStart cs ++ more :=
    List.takeWhile_append_dropWhile.trans (congrArg (· ++ more) List.takeWhile_append_dropWhile.symm)
  rw [trimStartKept signs, List.append_assoc] at whole
  exact List.append_cancel_right whole

theorem leadingLength (cs : List Char) : byteLength (cs.takeWhile isBlank) + byteLength (trimStart cs) = byteLength cs := by
  rw [← byteLengthAppend]
  exact congrArg byteLength List.takeWhile_append_dropWhile

theorem trimStartEmpty (empty : trimStart cs = []) : ∀ c ∈ cs, isBlank c = true := by
  obtain ⟨lead, blank, split⟩ := blankAppendTrimStart cs
  rw [empty, List.append_nil] at split
  rw [split]
  exact blank

theorem trimEndBlanks (blank : ∀ c ∈ blanks, isBlank c = true) (cs : List Char) : trimEnd (cs ++ blanks) = trimEnd cs := by
  unfold trimEnd
  rw [List.reverse_append, List.dropWhile_append_of_pos fun c member => blank c (List.mem_reverse.mp member)]

theorem trimEndKept (signs : trimEnd more ≠ []) (cs : List Char) : trimEnd (cs ++ more) = cs ++ trimEnd more := by
  unfold trimEnd at signs ⊢
  rw [List.reverse_append, List.dropWhile_append, if_neg (by simpa using signs), List.reverse_append, List.reverse_reverse]

theorem trimEndEmpty (empty : trimEnd cs = []) : ∀ c ∈ cs, isBlank c = true := by
  obtain ⟨trail, blank, split⟩ := trimEndAppendBlank cs
  rw [empty, List.nil_append] at split
  rw [split]
  exact blank

theorem trimBlanksBehind (blank : ∀ c ∈ blanks, isBlank c = true) (cs : List Char) : trim (cs ++ blanks) = trim cs := by
  unfold trim
  by_cases empty : trimStart cs = []
  · have none := trimStartBlanks blank []
    rw [List.append_nil] at none
    rw [trimStartBlanks (trimStartEmpty empty), none, empty]
    rfl
  · rw [trimStartKept empty, trimEndBlanks blank]

theorem blankText {c : Char} (blank : isBlank c = true) : Markup.isText c = true := by
  have differs (d : Char) (visible : isBlank d = false) : c ≠ d := by
    rintro rfl
    rw [blank] at visible
    contradiction
  simp [Markup.isText, differs '<' (by decide), differs '/' (by decide)]

def displaced (place width offset : Nat) : Nat := if place ≤ offset then offset + width else offset

end Text

namespace Markup

theorem seamBehind {covered more behind : List Char} (ends : Ends covered (more ++ behind))
    (seam : Seam more behind) : Seam (covered ++ more) behind := by
  intro c last
  cases more with
  | nil =>
    rw [List.append_nil] at last
    exact seamOfEnds ends c last
  | cons d more =>
    refine seam c ?_
    rw [List.getLast?_append] at last
    simpa [List.getLast?_cons] using last

namespace Scanner
variable {s p q behind : Scanner} {place : Nat} {blanks first rest : List Char}

inductive Stops (place : Nat) : Scanner → Prop where
  | here {s : Scanner} (same : s.offset = place) : Stops place s
  | later {s behind : Scanner} {token : Token} (read : s.skipBlank.token = .ok (token, behind)) (stops : Stops place behind) :
      Stops place s

theorem stopsBound (stops : s.Stops place) : s.offset ≤ place := by
  induction stops with
  | here same => exact Nat.le_of_eq same
  | @later s behind token read stops ih =>
    obtain ⟨covered, reading⟩ := tokenRead read
    have blank := s.reachesSkipBlank.offset
    have token := reading.reaches.offset
    omega

theorem stopsSeam (stops : s.Stops place) (split : s.rest = first ++ rest)
    (reaches : s.offset + Text.byteLength first = place) : Seam first rest := by
  induction stops generalizing first with
  | @here s same =>
    have none : first = [] := by
      by_contra signs
      have positive := Text.byteLengthPositive signs
      omega
    rw [none]
    intro c last
    contradiction
  | @later s behind token read stops ih =>
    obtain ⟨covered, reading⟩ := tokenRead read
    have passed := reachesTrans s.reachesSkipBlank reading.reaches
    have bound := stopsBound stops
    have offset := passed.offset
    obtain ⟨more, rfl, tail⟩ := Text.splitWithin (split.symm.trans passed.rest) (by omega)
    rw [Text.byteLengthAppend] at reaches
    have seam := ih tail (by omega)
    have ends := reading.ends
    rw [tail] at ends
    intro c last
    rw [List.append_assoc, List.getLast?_append] at last
    refine seamBehind ends seam c ?_
    cases ending : (covered ++ more).getLast? with
    | none => exact absurd (List.getLast?_eq_none_iff.mp ending) (List.append_ne_nil_of_left_ne_nil reading.signs more)
    | some d =>
      rw [ending] at last
      exact last

structure Level (place width : Nat) (p q : Scanner) : Prop where
  rest : q.rest = p.rest
  offset : q.offset = p.offset + width ∧ place ≤ p.offset ∨ q.offset = p.offset ∧ p.offset + Text.byteLength p.rest ≤ place

inductive Apart (place : Nat) (blanks : List Char) (p q : Scanner) : Prop where
  | before (first rest : List Char) (signs : first ≠ []) (plain : p.rest = first ++ rest)
      (spaced : q.rest = first ++ (blanks ++ rest)) (offset : q.offset = p.offset)
      (reaches : p.offset + Text.byteLength first = place) (stops : p.Stops place)
  | level (level : Level place (Text.byteLength blanks) p.skipBlank q.skipBlank)

inductive Facing (place : Nat) (blanks : List Char) (p q : Scanner) : Prop where
  | before (first rest : List Char) (signs : first ≠ []) (plain : p.rest = first ++ rest)
      (spaced : q.rest = first ++ (blanks ++ rest)) (offset : q.offset = p.offset)
      (reaches : p.offset + Text.byteLength first = place) (token : Token) (behind : Scanner)
      (read : p.token = .ok (token, behind)) (stops : behind.Stops place)
  | level (level : Level place (Text.byteLength blanks) p q)

theorem skipBlankKept (split : s.rest = first ++ rest) (signs : Text.trimStart first ≠ []) :
    s.skipBlank.rest = Text.trimStart first ++ rest ∧
      s.skipBlank.offset = s.offset + Text.byteLength (first.takeWhile Text.isBlank) := by
  refine ⟨by rw [restSkipBlank, split, Text.trimStartKept signs], ?_⟩
  rw [s.reachesSkipBlank.offset, split, Text.leadingKept signs]

theorem skipBlankBlanks (blank : ∀ c ∈ first, Text.isBlank c = true) (split : s.rest = first ++ rest) :
    s.skipBlank.rest = Text.trimStart rest ∧
      s.skipBlank.offset = s.offset + (Text.byteLength first + Text.byteLength (rest.takeWhile Text.isBlank)) := by
  refine ⟨by rw [restSkipBlank, split, Text.trimStartBlanks blank], ?_⟩
  rw [s.reachesSkipBlank.offset, split, List.takeWhile_append_of_pos blank, Text.byteLengthAppend]

theorem apartSkip (blank : ∀ c ∈ blanks, Text.isBlank c = true) (apart : Apart place blanks p q) :
    Facing place blanks p.skipBlank q.skipBlank := by
  cases apart with
  | level level => exact .level level
  | before first rest signs plain spaced offset reaches stops =>
    by_cases empty : Text.trimStart first = []
    · have inside := Text.trimStartEmpty empty
      have left := skipBlankBlanks inside plain
      have around : ∀ c ∈ first ++ blanks, Text.isBlank c = true := fun c member =>
        (List.mem_append.mp member).elim (inside c) (blank c)
      have right := skipBlankBlanks around (spaced.trans (List.append_assoc ..).symm)
      rw [Text.byteLengthAppend] at right
      refine .level ⟨right.1.trans left.1.symm, Or.inl ⟨?_, ?_⟩⟩
      · have := left.2
        have := right.2
        omega
      · have := left.2
        omega
    · obtain ⟨leftRest, leftOffset⟩ := skipBlankKept plain empty
      obtain ⟨rightRest, rightOffset⟩ := skipBlankKept spaced empty
      have length := Text.leadingLength first
      cases stops with
      | here same =>
        have := Text.byteLengthPositive signs
        omega
      | later read stops =>
        exact .before (Text.trimStart first) rest empty leftRest rightRest (by omega) (by omega) _ _ read stops

theorem facingAtEnd (facing : Facing place blanks p q) : p.atEnd = q.atEnd := by
  unfold atEnd
  cases facing with
  | before first rest _ plain spaced =>
    rw [plain, spaced]
    cases first with
    | nil => contradiction
    | cons => rfl
  | level level => rw [level.rest]

theorem levelOffset {width : Nat} {covered more : List Char} (level : Level place width p q)
    (split : p.rest = covered ++ more) (signs : more ≠ []) :
    q.offset + Text.byteLength covered = Text.displaced place width (p.offset + Text.byteLength covered) := by
  have positive := Text.byteLengthPositive signs
  have length := congrArg Text.byteLength split
  rw [Text.byteLengthAppend] at length
  unfold Text.displaced
  rcases level.offset with ⟨further, above⟩ | ⟨same, below⟩
  · rw [if_pos (by omega)]
    omega
  · rw [if_neg (by omega)]
    omega

theorem facingOffset (facing : Facing place blanks p q) (more : p.rest ≠ []) :
    q.offset = Text.displaced place (Text.byteLength blanks) p.offset := by
  cases facing with
  | before first rest signs plain spaced offset reaches =>
    have positive := Text.byteLengthPositive signs
    rw [Text.displaced, if_neg (by omega), offset]
  | level level => exact by simpa using levelOffset level (List.nil_append p.rest).symm more

theorem levelSkip {width : Nat} (level : Level place width p q) : Level place width p.skipBlank q.skipBlank := by
  have left := p.reachesSkipBlank
  have right := q.reachesSkipBlank
  rw [level.rest] at right
  have length := congrArg Text.byteLength left.rest
  rw [Text.byteLengthAppend] at length
  refine ⟨by rw [restSkipBlank, restSkipBlank, level.rest], ?_⟩
  have := left.offset
  have := right.offset
  rcases level.offset with ⟨further, above⟩ | ⟨same, below⟩
  · exact Or.inl ⟨by omega, by omega⟩
  · exact Or.inr ⟨by omega, by omega⟩

theorem levelToken {width : Nat} {token : Token} (level : Level place width p q) (read : p.token = .ok (token, behind)) :
    ∃ beyond, q.token = .ok (token, beyond) ∧ Level place width behind beyond := by
  obtain ⟨covered, reading⟩ := tokenRead read
  have split := level.rest.trans reading.reaches.rest
  refine ⟨q.pass covered, reading.again q behind.rest split ?_ ?_, ?_⟩
  · rintro ⟨run, rfl⟩
    exact (reading.text run rfl).stops
  · intro name _ _ _
    rw [level.rest]
  · have length := congrArg Text.byteLength reading.reaches.rest
    rw [Text.byteLengthAppend] at length
    have left := reading.reaches.offset
    have right : (q.pass covered).offset = q.offset + Text.byteLength covered := rfl
    refine ⟨restPass split, ?_⟩
    rcases level.offset with ⟨further, above⟩ | ⟨same, below⟩
    · exact Or.inl ⟨by omega, by omega⟩
    · exact Or.inr ⟨by omega, by omega⟩

theorem lastToken {token : Token} {covered : List Char} (blank : ∀ c ∈ blanks, Text.isBlank c = true)
    (reading : TokenRead p token covered behind) (spaced : q.rest = covered ++ (blanks ++ behind.rest))
    (offset : q.offset = p.offset) (reaches : behind.offset = place) :
    ∃ beyond, q.token = .ok (token, beyond) ∧ Apart place blanks behind beyond := by
  have plain := reading.reaches.rest
  have passed := reading.reaches.offset
  by_cases text : ∃ run, token = .text run
  · obtain ⟨run, rfl⟩ := text
    obtain ⟨trimmed, inside, stops⟩ := reading.text run rfl
    -- the blanks are read with the text, and are not part of what it comes to
    have whole := spaced.trans (List.append_assoc ..).symm
    have around : ∀ c ∈ covered ++ blanks, isText c = true := fun c member =>
      (List.mem_append.mp member).elim (inside c) fun later => Text.blankText (blank c later)
    have read := tokenText whole (List.append_ne_nil_of_left_ne_nil reading.signs blanks) around stops
    rw [Text.trimBlanksBehind blank, ← trimmed] at read
    refine ⟨_, read, .level (levelSkip ⟨restPass whole, Or.inl ⟨?_, Nat.le_of_eq reaches.symm⟩⟩)⟩
    have right : (q.pass (covered ++ blanks)).offset = q.offset + Text.byteLength (covered ++ blanks) := rfl
    rw [right, Text.byteLengthAppend]
    omega
  · have read : q.token = .ok (token, q.pass covered) := by
      refine reading.again q (blanks ++ behind.rest) spaced (fun run => absurd run text) ?_
      intro name inner written named
      have seam := seamOfEnds reading.ends
      rw [written, ← List.append_nil ('<' :: (name ++ (inner ++ ['>'])))] at seam
      have paired := pairedSpaced named seam blank
      rw [spaced, plain, written]
      exact paired
    refine ⟨_, read, .level ?_⟩
    have left : behind.rest = [] ++ behind.rest := rfl
    obtain ⟨leftRest, leftOffset⟩ := skipBlankBlanks (fun c member => absurd member List.not_mem_nil) left
    obtain ⟨rightRest, rightOffset⟩ := skipBlankBlanks blank (restPass spaced)
    have right : (q.pass covered).offset = q.offset + Text.byteLength covered := rfl
    rw [Text.byteLengthNil] at leftOffset
    exact ⟨rightRest.trans leftRest.symm, Or.inl ⟨by omega, by omega⟩⟩

theorem earlierToken {token : Token} {covered more : List Char} (blank : ∀ c ∈ blanks, Text.isBlank c = true)
    (reading : TokenRead p token covered behind) (signs : more ≠ []) (tail : behind.rest = more ++ rest)
    (spaced : q.rest = covered ++ (more ++ (blanks ++ rest))) (offset : q.offset = p.offset)
    (reaches : behind.offset + Text.byteLength more = place) (stops : behind.Stops place) :
    ∃ beyond, q.token = .ok (token, beyond) ∧ Apart place blanks behind beyond := by
  have plain := reading.reaches.rest
  rw [tail] at plain
  have read : q.token = .ok (token, q.pass covered) := by
    refine reading.again q _ spaced ?_ ?_
    · rintro ⟨run, rfl⟩ c head
      refine (reading.text run rfl).stops c ?_
      rw [tail]
      cases more with
      | nil => contradiction
      | cons => exact head
    · intro name inner written named
      have ends := reading.ends
      rw [tail] at ends
      have seam := seamBehind ends (stopsSeam stops tail reaches)
      rw [written] at seam
      have paired := pairedSpaced named seam blank
      rw [spaced, plain, written]
      exact paired
  have passed := reading.reaches.offset
  have right : (q.pass covered).offset = q.offset + Text.byteLength covered := rfl
  exact ⟨_, read, .before more rest signs tail (restPass spaced) (by omega) reaches stops⟩

theorem facingTokens (blank : ∀ c ∈ blanks, Text.isBlank c = true) (facing : Facing place blanks p q) (more : p.rest ≠ []) :
    (∃ token behind beyond, p.token = .ok (token, behind) ∧ q.token = .ok (token, beyond) ∧
      Apart place blanks behind beyond) ∨
    ∃ cause moved, p.token = .error cause ∧ q.token = .error moved ∧ Refused p q cause moved ∧
      Level place (Text.byteLength blanks) p q := by
  cases facing with
  | level level =>
    cases read : p.token with
    | error cause =>
      obtain ⟨moved, failed, refused⟩ := tokenFails read level.rest more
      exact Or.inr ⟨cause, moved, rfl, failed, refused, level⟩
    | ok result =>
      obtain ⟨token, behind⟩ := result
      obtain ⟨beyond, other, level⟩ := levelToken level read
      exact Or.inl ⟨token, behind, beyond, rfl, other, .level (levelSkip level)⟩
  | before first rest signs plain spaced offset reaches token behind read stops =>
    obtain ⟨covered, reading⟩ := tokenRead read
    have bound := stopsBound stops
    have passed := reading.reaches.offset
    obtain ⟨more, rfl, tail⟩ := Text.splitWithin (plain.symm.trans reading.reaches.rest) (by omega)
    rw [Text.byteLengthAppend] at reaches
    rw [List.append_assoc] at spaced
    have other : ∃ beyond, q.token = .ok (token, beyond) ∧ Apart place blanks behind beyond := by
      by_cases none : more = []
      · subst none
        rw [Text.byteLengthNil] at reaches
        rw [List.nil_append] at spaced tail
        rw [← tail] at spaced
        exact lastToken blank reading spaced offset (by omega)
      · exact earlierToken blank reading none tail spaced offset (by omega) stops
    obtain ⟨beyond, readOther, apart⟩ := other
    exact Or.inl ⟨token, behind, beyond, read, readOther, apart⟩

theorem apartStart {second : List Char} (blank : ∀ c ∈ blanks, Text.isBlank c = true)
    (stops : Text.trimStart first ≠ [] → Text.trimEnd second ≠ [] →
      (ofSource (first ++ second)).Stops (Text.byteLength first)) :
    Apart (Text.byteLength first) blanks (ofSource (first ++ second)) (ofSource (first ++ (blanks ++ second))) := by
  by_cases empty : Text.trimStart first = []
  · have inside := Text.trimStartEmpty empty
    refine .level (levelSkip ⟨?_, Or.inl ⟨?_, ?_⟩⟩)
    · simp only [ofSource, Text.trimStartBlanks inside, Text.trimStartBlanks blank]
    · simp only [ofSource, List.takeWhile_append_of_pos inside, List.takeWhile_append_of_pos blank, Text.byteLengthAppend]
      omega
    · simp only [ofSource, List.takeWhile_append_of_pos inside, Text.byteLengthAppend]
      omega
  · have leading := Text.leadingKept empty
    have length := Text.leadingLength first
    by_cases none : Text.trimEnd second = []
    · have behind := Text.trimEndEmpty none
      have around : ∀ c ∈ blanks ++ second, Text.isBlank c = true := fun c member =>
        (List.mem_append.mp member).elim (blank c) (behind c)
      refine .level (levelSkip ⟨?_, Or.inr ⟨?_, ?_⟩⟩)
      · simp only [ofSource, Text.trimStartKept empty, Text.trimEndBlanks behind, Text.trimEndBlanks around]
      · simp only [ofSource, leading]
      · obtain ⟨trail, _, whole⟩ := Text.trimEndAppendBlank (Text.trimStart first)
        have inner := congrArg Text.byteLength whole
        rw [Text.byteLengthAppend] at inner
        simp only [ofSource, leading, Text.trimStartKept empty, Text.trimEndBlanks behind]
        omega
    · refine .before (Text.trimStart first) (Text.trimEnd second) empty ?_ ?_ ?_ ?_ (stops empty none)
      · simp only [ofSource, Text.trimStartKept empty, Text.trimEndKept none]
      · have kept := Text.trimEndKept none blanks
        simp only [ofSource, Text.trimStartKept empty]
        rw [Text.trimEndKept (by rw [kept]; exact List.append_ne_nil_of_right_ne_nil blanks none), kept]
      · simp only [ofSource, leading]
      · simp only [ofSource, leading]
        exact length

end Scanner

end Markup

end Templating
