import Templating.Proofs.Locality

/-!
A step in two halves: what stands at the cursor is read to its end, and the builder is told of it. The
first half knows of the text only, the second of the nodes only. Where the cursor comes to stand is up to
the text, so it is the same whoever builds, as far as the build goes.
-/
namespace Templating

namespace Markup

inductive Token where
  | doctype (body : List Char)
  | comment (body : List Char)
  | startTag (e : Element) (paired : Bool)
  | endTag (name : List Char)
  | text (run : List Char)

namespace Scanner

def token (s : Scanner) : Except CompileError (Token × Scanner) :=
  match construct? s.rest with
  | none => .error (s.illegal .unexpectedContent s.offset)
  | some ⟨covered, .doctype body⟩ => .ok (.doctype body, s.pass covered)
  | some ⟨covered, .comment body⟩ => .ok (.comment body, s.pass covered)
  | some ⟨covered, .startTag name⟩ =>
      ((s.pass covered).readAttributes s.offset (Element.ofTag (String.ofList name))).map fun read =>
        (.startTag read.2 (isPaired s.rest name), read.1)
  | some ⟨covered, .endTag name⟩ => .ok (.endTag name, s.pass covered)
  | some ⟨covered, .text run⟩ => .ok (.text run, s.pass covered)

end Scanner

end Markup

open Markup

namespace Builder

def put (comments : Bool) (b : Builder) (behind : Scanner) : Token → Except CompileError (Builder × Option Event)
  | .doctype body => .ok (b.openNode behind
      { content := .doctype (String.ofList body), done := true, span := Span.ofOffsets b.scanner.offset behind.offset })
  | .comment body => .ok (if comments then b.openNode behind
      { content := .comment (String.ofList body), done := true, span := Span.ofOffsets b.scanner.offset behind.offset }
      else ({ b with scanner := behind }, none))
  | .startTag e paired => .ok (b.openNode behind
      { content := .element e, done := !paired, span := Span.ofOffsets b.scanner.offset behind.offset })
  | .endTag name =>
      match b.splitStack? (String.ofList name) with
      | none => .error (b.scanner.illegal (.unmatchedEndTag (String.ofList name)) b.scanner.offset)
      | some (above, id, outer) =>
          .ok (⟨behind, b.arena.modify id (Node.close above.reverse behind.offset), id :: outer⟩, some (.closed id))
  | .text run =>
      match b.textOwner? with
      | none => .error (b.scanner.illegal .strayText b.scanner.offset)
      | some owner =>
          .ok ({ b with
            scanner := behind
            arena := b.arena.modifyElement owner fun e => e.appendText (String.ofList run) }, none)

theorem stepToken (comments : Bool) (b : Builder) :
    b.step comments = b.scanner.token.bind fun read => b.put comments read.2 read.1 := by
  unfold step Scanner.token
  cases construct? b.scanner.rest with
  | none => rfl
  | some found =>
    obtain ⟨covered, construct⟩ := found
    cases construct with
    | startTag name =>
      dsimp only
      unfold readStartTag
      cases (b.scanner.pass covered).readAttributes b.scanner.offset (Element.ofTag (String.ofList name)) <;> rfl
    | doctype | comment | endTag | text => rfl

theorem putScanner {comments : Bool} {b next : Builder} {behind : Scanner} {token : Token} {event : Option Event}
    (taken : b.put comments behind token = .ok (next, event)) : next.scanner = behind := by
  cases token with
  | doctype body | startTag e paired =>
    cases taken
    rfl
  | comment body => cases comments <;> cases taken <;> rfl
  | endTag name =>
    unfold put at taken
    dsimp only at taken
    split at taken
    · contradiction
    · cases taken
      rfl
  | text run =>
    unfold put at taken
    dsimp only at taken
    split at taken
    · contradiction
    · cases taken
      rfl

theorem stepTaken {b : Builder} {behind : Scanner} {token : Token} (read : b.scanner.token = .ok (token, behind))
    (comments : Bool) : b.step comments = b.put comments behind token :=
  (stepToken comments b).trans (congrArg (Except.bind · _) read)

theorem stepRefused {b : Builder} {cause : CompileError} (failed : b.scanner.token = .error cause) (comments : Bool) :
    b.step comments = .error cause :=
  (stepToken comments b).trans (congrArg (Except.bind · _) failed)

theorem stepReads {comments : Bool} {b next : Builder} {event : Option Event}
    (stepped : b.step comments = .ok (next, event)) : ∃ token, b.scanner.token = .ok (token, next.scanner) := by
  cases read : b.scanner.token with
  | error cause =>
    rw [stepRefused read] at stepped
    contradiction
  | ok result =>
    obtain ⟨token, behind⟩ := result
    rw [stepTaken read] at stepped
    exact ⟨token, by rw [putScanner stepped]⟩

end Builder

namespace Markup

def Ends (covered rest : List Char) : Prop :=
  (∃ inner, covered = inner ++ ['>']) ∨ (∀ c ∈ covered, isText c = true) ∧ ∀ c, rest.head? = some c → isText c = false

theorem doctypeEnds {text : List Char} {m : Match (List Char)} (found : doctype? text = some m) :
    ∃ inner, m.covered = inner ++ ['>'] := by
  unfold doctype? at found
  split at found
  · obtain ⟨sides, _, rfl⟩ := Option.map_eq_some_iff.mp found
    exact ⟨text.take 9 ++ sides.1, (List.append_assoc ..).symm⟩
  · contradiction

theorem commentEnds {text : List Char} {m : Match (List Char)} (found : comment? text = some m) :
    ∃ inner, m.covered = inner ++ ['>'] := by
  obtain ⟨body, rfl⟩ := commentWritten found
  exact ⟨"<!--".toList ++ (body.chars ++ ['-', '-']), by simp [CommentBody.print]⟩

theorem endTagEnds {text : List Char} {m : Match (List Char)} (found : endTag? text = some m) :
    ∃ inner, m.covered = inner ++ ['>'] := by
  obtain ⟨tag, rfl⟩ := endTagWritten found
  exact ⟨'<' :: '/' :: tag.name.chars, rfl⟩

theorem textExact {text : List Char} {m : Match (List Char)} (found : text? text = some m) :
    m.value = Text.trim m.covered := by
  unfold text? at found
  split at found
  · contradiction
  · cases found
    rfl

theorem textEnds {text rest : List Char} {m : Match (List Char)} (found : text? text = some m)
    (split : text = m.covered ++ rest) : ∀ c, rest.head? = some c → isText c = false := by
  unfold text? at found
  split at found
  · contradiction
  · cases found
    have same : text.dropWhile isText = rest :=
      List.append_cancel_left ((List.takeWhile_append_dropWhile (p := isText) (l := text)).trans split)
    intro c head
    have first := List.head?_dropWhile_not isText text
    rw [same, head] at first
    simpa using first

theorem startTagStops {text rest : List Char} {m : Match (List Char)} (found : startTag? text = some m)
    (split : text = m.covered ++ rest) : ∀ c, rest.head? = some c → isTagName c = false := by
  unfold startTag? at found
  split at found
  · rename_i r
    split at found
    · contradiction
    · rename_i named
      cases found
      cases r with
      | nil => contradiction
      | cons d r =>
        have word : isWord d = true := by
          by_contra other
          simp [tagName, other] at named
        rw [tagName, if_pos word] at split
        have same : r.dropWhile isTagName = rest := by
          have whole : d :: r = d :: (r.takeWhile isTagName ++ rest) := (List.cons.inj split).2
          exact List.append_cancel_left
            ((List.takeWhile_append_dropWhile (p := isTagName) (l := r)).trans (List.cons.inj whole).2)
        intro c head
        have first := List.head?_dropWhile_not isTagName r
        rw [same, head] at first
        simpa using first
  · contradiction

structure TextRead (run covered rest : List Char) : Prop where
  trimmed : run = Text.trim covered
  plain : ∀ c ∈ covered, isText c = true
  stops : ∀ c, rest.head? = some c → isText c = false

theorem constructEnds {text rest : List Char} {m : Match Construct} (found : construct? text = some m)
    (split : text = m.covered ++ rest) (other : ∀ name, m.value ≠ .startTag name) :
    Ends m.covered rest ∧ ∀ run, m.value = .text run → TextRead run m.covered rest := by
  simp only [construct?, Option.or_eq_some_iff, Option.map_eq_some_iff] at found
  rcases found with ⟨n, found, rfl⟩ | ⟨_, ⟨n, found, rfl⟩ | ⟨_, ⟨n, found, rfl⟩ | ⟨_, ⟨n, found, rfl⟩ | ⟨_, n, found, rfl⟩⟩⟩⟩
  · exact ⟨Or.inl (doctypeEnds found), fun run same => by cases same⟩
  · exact ⟨Or.inl (commentEnds found), fun run same => by cases same⟩
  · exact absurd rfl (other n.value)
  · exact ⟨Or.inl (endTagEnds found), fun run same => by cases same⟩
  · have stops := textEnds found split
    refine ⟨Or.inr ⟨textHead found, stops⟩, fun run same => ?_⟩
    cases same
    exact ⟨textExact found, textHead found, stops⟩

theorem constructStarts {text name covered : List Char} (found : construct? text = some ⟨covered, .startTag name⟩) :
    startTag? text = some ⟨covered, name⟩ := by
  simp only [construct?, Option.or_eq_some_iff, Option.map_eq_some_iff] at found
  rcases found with ⟨n, found, same⟩ | ⟨_, ⟨n, found, same⟩ | ⟨_, ⟨n, found, same⟩ | ⟨_, ⟨n, found, same⟩ | ⟨_, n, found, same⟩⟩⟩⟩
  · cases same
  · cases same
  · cases same
    exact found
  · cases same
  · cases same

/- How a token is read. It is read again wherever its characters stand, if a run of text ends there and the
end tag is to come there too. -/
structure TokenRead (s : Scanner) (token : Token) (covered : List Char) (behind : Scanner) : Prop where
  signs : covered ≠ []
  reaches : s.Reaches covered behind
  ends : Ends covered behind.rest
  text : ∀ run, token = .text run → TextRead run covered behind.rest
  again : ∀ (t : Scanner) after, t.rest = covered ++ after →
    ((∃ run, token = .text run) → ∀ c, after.head? = some c → isText c = false) →
    (∀ name inner, covered = '<' :: (name ++ (inner ++ ['>'])) → (∀ c ∈ name, isTagName c = true) →
      isPaired t.rest name = isPaired s.rest name) →
    t.token = .ok (token, t.pass covered)

namespace Scanner
variable {s behind : Scanner}

theorem tokenReadStart {name covered : List Char} {e : Element}
    (found : construct? s.rest = some ⟨covered, .startTag name⟩)
    (read : (s.pass covered).readAttributes s.offset (Element.ofTag (String.ofList name)) = .ok (behind, e)) :
    ∃ whole, TokenRead s (.startTag e (isPaired s.rest name)) whole behind := by
  have starts := constructStarts found
  have head := reachesMatch (constructHeads found)
  obtain ⟨more, reaches, again⟩ := readAttributesLocal read
  obtain ⟨inner, ending⟩ := again.ends
  have whole := reachesTrans head reaches
  refine ⟨covered ++ more, ?_, whole, Or.inl ⟨covered ++ inner, by rw [ending, List.append_assoc]⟩,
    fun run same => (by cases same), ?_⟩
  · exact List.append_ne_nil_of_left_ne_nil (constructHeads found).1 more
  · intro t after rest _ paired
    rw [List.append_assoc] at rest
    -- the name ends where its attributes begin, here as there
    have stops : ∀ c, (more ++ after).head? = some c → isTagName c = false := by
      obtain ⟨c, r, first⟩ := unassignedHead again.unassigned
      intro d same
      refine startTagStops starts (reaches.rest ▸ head.rest) d ?_
      rw [first] at same ⊢
      exact same
    obtain ⟨written, same⟩ := startTagWritten starts
    cases same
    have told : isPaired t.rest written.chars = isPaired s.rest written.chars := by
      refine paired written.chars inner ?_ ?_
      · rw [ending]
        rfl
      · intro c member
        rcases List.mem_cons.mp member with rfl | tail
        · simp [isTagName, written.headStarts]
        · exact written.tailContinues c tail
    have recognised : construct? t.rest = some ⟨'<' :: written.chars, .startTag written.chars⟩ := by
      rw [rest]
      exact constructStartTag written stops
    unfold token
    rw [recognised]
    dsimp only
    rw [again.again t.offset _ after (restPass rest), told, passPass]
    rfl

theorem tokenRead {token : Token} (read : s.token = .ok (token, behind)) : ∃ covered, TokenRead s token covered behind := by
  unfold Scanner.token at read
  cases found : construct? s.rest with
  | none =>
    rw [found] at read
    contradiction
  | some m =>
    obtain ⟨covered, construct⟩ := m
    rw [found] at read
    have head := reachesMatch (constructHeads found)
    have signs := (constructHeads found).1
    have ends := constructEnds found head.rest
    dsimp only at ends
    have again (t : Scanner) (after : List Char) (rest : t.rest = covered ++ after)
        (stops : construct.StopsBefore after) : construct? t.rest = some ⟨covered, construct⟩ := by
      rw [rest]
      exact constructLocal found stops
    cases construct with
    | startTag name =>
      cases attributes : (s.pass covered).readAttributes s.offset (Element.ofTag (String.ofList name)) with
      | error cause =>
        dsimp only at read
        rw [attributes] at read
        contradiction
      | ok result =>
        dsimp only at read
        rw [attributes] at read
        cases read
        exact tokenReadStart found attributes
    | doctype body | comment body | endTag name =>
      cases read
      refine ⟨covered, signs, head, (ends (by simp)).1, fun run same => (by cases same), ?_⟩
      intro t after rest _ _
      unfold token
      rw [again t after rest trivial]
    | text run =>
      cases read
      refine ⟨covered, signs, head, (ends (by simp)).1, ?_, ?_⟩
      · intro other same
        cases same
        exact (ends (by simp)).2 run rfl
      intro t after rest stops _
      unfold token
      rw [again t after rest (stops ⟨run, rfl⟩)]

theorem tokenText {run after : List Char} (split : s.rest = run ++ after) (signs : run ≠ [])
    (plain : ∀ c ∈ run, isText c = true) (stops : ∀ c, after.head? = some c → isText c = false) :
    s.token = .ok (.text (Text.trim run), s.pass run) := by
  have taken : s.rest.takeWhile isText = run := by
    rw [split]
    exact Text.takeWhileExact plain stops
  have found : construct? s.rest = some ⟨run, .text (Text.trim run)⟩ := by
    have text : text? s.rest = some ⟨run, Text.trim run⟩ := by
      unfold text?
      rw [taken, if_neg signs]
    cases run with
    | nil => contradiction
    | cons c run =>
      rw [List.cons_append] at split
      rw [split] at text ⊢
      rw [constructElsewhere (plain c List.mem_cons_self), text]
      rfl
  unfold token
  rw [found]

inductive Refused (s t : Scanner) (cause other : CompileError) : Prop where
  | at (reason : IllegalReason) (covered more : List Char) (rest : s.rest = covered ++ more) (signs : more ≠ [])
      (here : cause = s.illegal reason (s.offset + Text.byteLength covered))
      (there : other = t.illegal reason (t.offset + Text.byteLength covered))

theorem refusedBehind {t u v : Scanner} {covered : List Char} {cause other : CompileError} (left : s.Reaches covered u)
    (right : t.Reaches covered v) (refused : Refused u v cause other) : Refused s t cause other := by
  obtain ⟨reason, inner, more, rest, signs, here, there⟩ := refused
  refine .at reason (covered ++ inner) more ?_ signs ?_ ?_
  · rw [left.rest, rest, List.append_assoc]
  · rw [here, illegal, illegal, left.source, left.offset, Text.byteLengthAppend, Nat.add_assoc]
  · rw [there, illegal, illegal, right.source, right.offset, Text.byteLengthAppend, Nat.add_assoc]

theorem skipBlankSame {t : Scanner} (same : t.rest = s.rest) :
    t.skipBlank.rest = s.skipBlank.rest ∧ t.Reaches (s.rest.takeWhile Text.isBlank) t.skipBlank := by
  refine ⟨by rw [restSkipBlank, restSkipBlank, same], ?_⟩
  rw [← same]
  exact t.reachesSkipBlank

theorem atEndSame {t : Scanner} (same : t.rest = s.rest) : t.atEnd = s.atEnd := congrArg List.isEmpty same

theorem readAttributesFails {start : Nat} {e : Element} {cause : CompileError}
    (failed : s.readAttributes start e = .error cause) (other : Nat) : ∀ t : Scanner, t.rest = s.rest →
      ∃ moved, t.readAttributes other e = .error moved ∧
        ((∃ reason, cause = s.illegal reason start ∧ moved = t.illegal reason other) ∨ Refused s t cause moved) := by
  fun_induction readAttributes start s e with
  | case1 => contradiction
  | case2 s e here noClose ended =>
    cases failed
    intro t same
    obtain ⟨rest, _⟩ := skipBlankSame same
    refine ⟨t.illegal (.unterminatedTag e.tag) other, ?_, Or.inl ⟨_, rfl, rfl⟩⟩
    rw [readAttributes, rest, noClose]
    dsimp only
    rw [atEndSame rest, if_pos ended]
    rfl
  | case3 s e here noClose more written found ih =>
    intro t same
    obtain ⟨rest, blanks⟩ := skipBlankSame same
    have heads : written.Heads t.skipBlank.rest := by
      rw [rest]
      exact attributeHeads found
    have behind : (t.skipBlank.pass written.covered).rest = (s.skipBlank.pass written.covered).rest := by
      rw [pass, pass, rest]
    obtain ⟨moved, result, reason⟩ := ih failed _ behind
    have next : t.readAttributes other e =
        (t.skipBlank.pass written.covered).readAttributes other (e.setAttribute written.value) :=
      readAttributesNext (by rw [rest]; exact noClose) (by rw [rest]; exact found)
    refine ⟨moved, next.trans result, reason.imp_right fun refused => ?_⟩
    have left := reachesTrans s.reachesSkipBlank (reachesMatch (attributeHeads found))
    exact refusedBehind left (reachesTrans blanks (reachesMatch heads)) refused
  | case4 s e here noClose more none =>
    cases failed
    intro t same
    obtain ⟨rest, blanks⟩ := skipBlankSame same
    refine ⟨t.skipBlank.illegal .malformedAttribute t.skipBlank.offset, ?_, Or.inr ?_⟩
    · rw [readAttributes, rest, noClose]
      dsimp only
      rw [atEndSame rest, if_neg more]
      split
      · rename_i found
        rw [none] at found
        contradiction
      · rfl
    · refine refusedBehind s.reachesSkipBlank blanks (.at .malformedAttribute [] s.skipBlank.rest rfl ?_ rfl rfl)
      intro empty
      exact more (congrArg List.isEmpty empty)

theorem tokenFails {t : Scanner} {cause : CompileError} (failed : s.token = .error cause) (same : t.rest = s.rest)
    (signs : s.rest ≠ []) : ∃ moved, t.token = .error moved ∧ Refused s t cause moved := by
  unfold token at failed ⊢
  rw [same]
  cases found : construct? s.rest with
  | none =>
    rw [found] at failed
    cases failed
    exact ⟨_, rfl, .at .unexpectedContent [] s.rest rfl signs rfl rfl⟩
  | some m =>
    obtain ⟨covered, construct⟩ := m
    rw [found] at failed
    cases construct with
    | startTag name =>
      have head := reachesMatch (constructHeads found)
      have other : t.Reaches covered (t.pass covered) := reachesPass (same.trans head.rest)
      dsimp only at failed ⊢
      cases attributes : (s.pass covered).readAttributes s.offset (Element.ofTag (String.ofList name)) with
      | ok result =>
        rw [attributes] at failed
        contradiction
      | error reason =>
        rw [attributes] at failed
        cases failed
        have behind : (t.pass covered).rest = (s.pass covered).rest := by rw [pass, pass, same]
        obtain ⟨moved, result, refused⟩ := readAttributesFails attributes t.offset _ behind
        refine ⟨moved, by rw [result]; rfl, ?_⟩
        rcases refused with ⟨reason, here, there⟩ | refused
        · exact .at reason [] s.rest rfl signs here there
        · exact refusedBehind head other refused
    | doctype | comment | endTag | text => contradiction

end Scanner

end Markup

end Templating
