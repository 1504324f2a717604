import Templating.Proofs.StartTags

/-!
What is recognised at the head of a text is told from what it covers. A construct that has a last sign of
its own is the same whatever follows it; a name and a run of text end where something follows that cannot
continue them; and an attribute without a value is followed by no equals sign.
-/
namespace Templating

namespace Text

theorem splitFirstBefore {needle cs before after : List Char} (signs : needle ≠ [])
    (found : splitFirst needle cs = some (before, after)) : occursIn needle before = false := by
  induction cs generalizing before with
  | nil =>
    obtain ⟨_, _, same⟩ := Option.map_eq_some_iff.mp found
    cases same
    cases needle with
    | nil => contradiction
    | cons => rfl
  | cons c r ih =>
    simp only [splitFirst] at found
    split at found
    · cases found
      cases needle with
      | nil => contradiction
      | cons => rfl
    · rename_i absent
      obtain ⟨⟨start, rest⟩, later, same⟩ := Option.map_eq_some_iff.mp found
      cases same
      have here : strip needle (c :: start) = none := by
        refine Option.eq_none_iff_forall_ne_some.mpr fun tail stripped => ?_
        have longer : c :: r = needle ++ (tail ++ (needle ++ rest)) := by
          rw [← List.append_assoc, ← stripIff.mp stripped, splitFirstSides later]
          rfl
        rw [stripIff.mpr longer] at absent
        contradiction
      rw [occursIn, here, ih later]
      rfl

theorem splitFirstAbsent {c : Char} {cs before after : List Char} (found : splitFirst [c] cs = some (before, after)) :
    c ∉ before := by
  intro member
  obtain ⟨lead, tail, split⟩ := List.append_of_mem member
  have occurs : occursIn [c] before = true := occursInIff.mpr ⟨lead, tail, split⟩
  rw [splitFirstBefore (by simp) found] at occurs
  contradiction

end Text

namespace Markup

theorem tagNameWritten {text : List Char} (named : tagName text ≠ []) :
    ∃ name : WrittenName isWord isTagName, name.chars = tagName text := by
  cases text with
  | nil => contradiction
  | cons c r =>
    cases word : isWord c with
    | true =>
      refine ⟨⟨c, r.takeWhile isTagName, word, List.all_eq_true.mp List.all_takeWhile⟩, ?_⟩
      rw [tagName, if_pos word]
      rfl
    | false => simp [tagName, word] at named

theorem doctypeLocal {text : List Char} {m : Match (List Char)} (found : doctype? text = some m) (after : List Char) :
    doctype? (m.covered ++ after) = some m := by
  unfold doctype? at found
  split at found
  · rename_i keyword
    obtain ⟨⟨body, rest⟩, closed, rfl⟩ := Option.map_eq_some_iff.mp found
    have nine : (text.take 9).length = 9 := by
      have length := congrArg List.length keyword
      rw [List.length_map] at length
      exact length
    have split : text.take 9 ++ (body ++ ['>']) ++ after = text.take 9 ++ (body ++ '>' :: after) := by simp
    unfold doctype?
    dsimp only
    rw [split, List.take_left' nine, List.drop_left' nine, if_pos keyword,
      Text.splitFirstChar (Text.splitFirstAbsent closed)]
    rfl
  · contradiction

theorem commentWritten {text : List Char} {m : Match (List Char)} (found : comment? text = some m) :
    ∃ body : CommentBody, m = ⟨body.print, body.chars⟩ := by
  obtain ⟨_, _, closed⟩ := Option.bind_eq_some_iff.mp found
  obtain ⟨⟨body, rest⟩, ended, rfl⟩ := Option.map_eq_some_iff.mp closed
  have whole : Text.occursIn "-->".toList body = false := Text.splitFirstBefore (by decide) ended
  exact ⟨⟨body, whole⟩, rfl⟩

theorem startTagWritten {text : List Char} {m : Match (List Char)} (found : startTag? text = some m) :
    ∃ name : WrittenName isWord isTagName, m = ⟨'<' :: name.chars, name.chars⟩ := by
  unfold startTag? at found
  split at found
  · split at found
    · contradiction
    · rename_i named
      cases found
      obtain ⟨name, same⟩ := tagNameWritten named
      exact ⟨name, by rw [same]⟩
  · contradiction

theorem endTagWritten {text : List Char} {m : Match (List Char)} (found : endTag? text = some m) :
    ∃ tag : StartTag, m = ⟨tag.printEnd, tag.name.chars⟩ := by
  unfold endTag? at found
  split at found
  · split at found
    · contradiction
    · rename_i named
      split at found
      · cases found
        obtain ⟨name, same⟩ := tagNameWritten named
        refine ⟨⟨name, [], List.nodup_nil⟩, ?_⟩
        rw [StartTag.printEnd, same]
      · contradiction
  · contradiction

theorem textLocal {text : List Char} {m : Match (List Char)} (found : text? text = some m) {after : List Char}
    (stops : ∀ c, after.head? = some c → isText c = false) : text? (m.covered ++ after) = some m := by
  unfold text? at found
  split at found
  · contradiction
  · rename_i run
    cases found
    have inside : ∀ c ∈ text.takeWhile isText, isText c = true := List.all_eq_true.mp List.all_takeWhile
    unfold text?
    dsimp only
    rw [Text.takeWhileExact inside stops, if_neg run]

theorem startTagElsewhere {c : Char} (other : c ≠ '<') (r : List Char) : startTag? (c :: r) = none := by
  unfold startTag?
  split
  · rename_i same
    exact absurd (List.cons.inj same).1 other
  · rfl

theorem endTagElsewhere {c : Char} (other : c ≠ '<') (r : List Char) : endTag? (c :: r) = none := by
  unfold endTag?
  split
  · rename_i same
    exact absurd (List.cons.inj same).1 other
  · rfl

theorem constructElsewhere {c : Char} (plain : isText c = true) (r : List Char) :
    construct? (c :: r) = (text? (c :: r)).map (Match.map .text) := by
  have other : c ≠ '<' := by
    rintro rfl
    exact absurd plain (by decide)
  unfold construct?
  rw [doctypeElsewhere other, commentElsewhere other, startTagElsewhere other, endTagElsewhere other]
  rfl

theorem textHead {text : List Char} {m : Match (List Char)} (found : text? text = some m) :
    ∀ c ∈ m.covered, isText c = true := by
  unfold text? at found
  split at found
  · contradiction
  · cases found
    exact List.all_eq_true.mp List.all_takeWhile

def Construct.StopsBefore (after : List Char) : Construct → Prop
  | .startTag _ => ∀ c, after.head? = some c → isTagName c = false
  | .text _ => ∀ c, after.head? = some c → isText c = false
  | _ => True

theorem constructLocal {text : List Char} {m : Match Construct} (found : construct? text = some m) {after : List Char}
    (stops : m.value.StopsBefore after) : construct? (m.covered ++ after) = some m := by
  simp only [construct?, Option.or_eq_some_iff, Option.map_eq_some_iff] at found
  rcases found with ⟨n, found, rfl⟩ | ⟨_, ⟨n, found, rfl⟩ | ⟨_, ⟨n, found, rfl⟩ | ⟨_, ⟨n, found, rfl⟩ | ⟨_, n, found, rfl⟩⟩⟩⟩
  · have doctype := doctypeLocal found after
    unfold construct?
    dsimp only [Match.map]
    rw [doctype]
    rfl
  · obtain ⟨body, rfl⟩ := commentWritten found
    exact constructComment body after
  · obtain ⟨name, rfl⟩ := startTagWritten found
    exact constructStartTag name stops
  · obtain ⟨tag, rfl⟩ := endTagWritten found
    exact constructEndTag tag after
  · obtain ⟨some, _⟩ := textHeads found
    have inside := textHead found
    have local_ := textLocal found stops
    obtain ⟨covered, run⟩ := n
    cases covered with
    | nil => contradiction
    | cons c r =>
      dsimp only [Match.map] at *
      rw [List.cons_append] at *
      rw [constructElsewhere (inside c List.mem_cons_self), local_]
      rfl

theorem valueLocal {text : List Char} {m : Match (List Char)} (found : attributeValue? text = some m) (after : List Char) :
    attributeValue? (m.covered ++ after) = some m := by
  have blanks (cs : List Char) : ∀ c ∈ cs.takeWhile Text.isBlank, Text.isBlank c = true :=
    List.all_eq_true.mp List.all_takeWhile
  unfold attributeValue? at found
  split at found
  · rename_i afterSign sign
    split at found
    · rename_i quote quoted opened
      split at found
      · rename_i isQuote
        obtain ⟨⟨value, rest⟩, closed, rfl⟩ := Option.map_eq_some_iff.mp found
        have visible : Text.isBlank quote = false := by
          have head := List.head?_dropWhile_not Text.isBlank afterSign
          rw [opened] at head
          simpa using head
        have split : text.takeWhile Text.isBlank ++ '=' :: (afterSign.takeWhile Text.isBlank ++ quote :: (value ++ [quote])) ++
            after = text.takeWhile Text.isBlank ++ '=' :: (afterSign.takeWhile Text.isBlank ++
              (quote :: (value ++ quote :: after))) := by simp
        have first : ∀ c, ('=' :: (afterSign.takeWhile Text.isBlank ++ (quote :: (value ++ quote :: after)))).head? = some c →
            Text.isBlank c = false := by
          intro c same
          cases same
          decide
        have second : ∀ c, (quote :: (value ++ quote :: after)).head? = some c → Text.isBlank c = false := by
          intro c same
          cases same
          exact visible
        unfold attributeValue?
        dsimp only
        rw [split, Text.dropWhileExact (blanks text) first, Text.takeWhileExact (blanks text) first]
        simp only [Text.dropWhileExact (blanks afterSign) second, Text.takeWhileExact (blanks afterSign) second]
        rw [if_pos isQuote,
          Text.splitFirstChar (Text.splitFirstAbsent closed)]
        rfl
      · contradiction
    · contradiction
  · contradiction

def Unassigned (text : List Char) : Prop := ∃ c r, text.dropWhile Text.isBlank = c :: r ∧ c ≠ '='

theorem unassignedAppend {text : List Char} (unassigned : Unassigned text) (after : List Char) :
    attributeValue? (text ++ after) = none := by
  obtain ⟨c, r, visible, other⟩ := unassigned
  have behind : (text ++ after).dropWhile Text.isBlank = c :: (r ++ after) := by
    rw [List.dropWhile_append, visible]
    rfl
  unfold attributeValue?
  rw [behind]
  split
  · rename_i same
    exact absurd (List.cons.inj same).1 other
  · rfl

theorem unassignedHead {text : List Char} (unassigned : Unassigned text) : ∃ c r, text = c :: r := by
  obtain ⟨c, r, visible, _⟩ := unassigned
  cases text with
  | nil => contradiction
  | cons d r => exact ⟨d, r, rfl⟩

theorem attributeLocal {text behind rest : List Char} {m : Match Attribute} (found : attribute? text = some m)
    (split : text = m.covered ++ (behind ++ rest)) (unassigned : Unassigned behind) (after : List Char) :
    attribute? (m.covered ++ (behind ++ after)) = some m := by
  cases text with
  | nil => contradiction
  | cons c r =>
    simp only [attribute?] at found
    split at found
    · rename_i starts
      have inside : ∀ x ∈ r.takeWhile isAttributeName, isAttributeName x = true :=
        List.all_eq_true.mp List.all_takeWhile
      have ended {lead : List Char} (more : List Char) (same : r.dropWhile isAttributeName = lead ++ more)
          (some : lead ≠ []) (tail : List Char) :
          ∀ x, (lead ++ tail).head? = Option.some x → isAttributeName x = false := by
        intro x head
        have first := List.head?_dropWhile_not isAttributeName r
        rw [same] at first
        cases lead with
        | nil => contradiction
        | cons d lead =>
          cases head
          simpa using first
      split at found
      · rename_i value valued
        cases found
        obtain ⟨some, more, same⟩ := attributeValueHeads valued
        have stops := ended more same some (behind ++ after)
        simp only [List.cons_append, List.append_assoc, attribute?, if_pos starts]
        rw [Text.dropWhileExact inside stops, Text.takeWhileExact inside stops, valueLocal valued]
      · rename_i unvalued
        cases found
        have same : r.dropWhile isAttributeName = behind ++ rest := by
          have whole := List.takeWhile_append_dropWhile (p := isAttributeName) (l := r)
          rw [List.cons_append] at split
          exact List.append_cancel_left (whole.trans (List.cons.inj split).2)
        obtain ⟨d, tail, head⟩ := unassignedHead unassigned
        have stops := ended rest same (by rw [head]; exact List.cons_ne_nil d tail) after
        simp only [List.cons_append, attribute?, if_pos starts]
        rw [Text.dropWhileExact inside stops, Text.takeWhileExact inside stops, unassignedAppend unassigned]
    · contradiction

theorem tagCloseEnds {text : List Char} {close : Match Bool} (found : tagClose? text = some close) :
    ∃ inner, close.covered = inner ++ ['>'] := by
  unfold tagClose? at found
  split at found
  · cases found
    exact ⟨['/'], rfl⟩
  · cases found
    exact ⟨[], rfl⟩
  · contradiction

theorem tagCloseLocal {text : List Char} {close : Match Bool} (found : tagClose? text = some close) (after : List Char) :
    tagClose? (close.covered ++ after) = some close := by
  unfold tagClose? at found
  split at found
  · cases found
    rfl
  · cases found
    rfl
  · contradiction

structure TagRead (covered : List Char) (e f : Element) : Prop where
  ends : ∃ inner, covered = inner ++ ['>']
  unassigned : Unassigned covered
  again : ∀ (start : Nat) (s : Scanner) after, s.rest = covered ++ after →
    s.readAttributes start e = .ok (s.pass covered, f)

namespace Scanner

theorem skipBlankAppend {s : Scanner} {blanks behind : List Char} (rest : s.rest = blanks ++ behind)
    (blank : ∀ c ∈ blanks, Text.isBlank c = true) (visible : ∀ c, behind.head? = some c → Text.isBlank c = false) :
    s.skipBlank = s.pass blanks := by
  rw [skipBlank, rest, Text.takeWhileExact blank visible]

theorem tagReadEnd {blanks : List Char} (close : Match Bool) (blank : ∀ c ∈ blanks, Text.isBlank c = true)
    (found : ∀ after, tagClose? (close.covered ++ after) = some close) (e : Element) :
    TagRead (blanks ++ close.covered) e e := by
  have closes := found []
  rw [List.append_nil] at closes
  have sign : ∃ c r, close.covered = c :: r ∧ Text.isBlank c = false ∧ c ≠ '=' := by
    unfold tagClose? at closes
    split at closes
    · rename_i covered
      exact ⟨_, _, covered, by decide, by decide⟩
    · rename_i covered
      exact ⟨_, _, covered, by decide, by decide⟩
    · contradiction
  obtain ⟨c, r, covered, visible, other⟩ := sign
  have stops (after : List Char) : ∀ d, (close.covered ++ after).head? = some d → Text.isBlank d = false := by
    intro d same
    rw [covered] at same
    cases same
    exact visible
  refine ⟨?_, ⟨c, r, ?_, other⟩, ?_⟩
  · obtain ⟨inner, ending⟩ := tagCloseEnds closes
    exact ⟨_ ++ inner, by rw [ending, List.append_assoc]⟩
  · have behind := Text.dropWhileExact blank (stops [])
    rw [List.append_nil] at behind
    rw [behind, covered]
  · intro start t after rest
    rw [List.append_assoc] at rest
    have skipped := skipBlankAppend rest blank (stops after)
    have closed : tagClose? t.skipBlank.rest = some close := by
      rw [skipped, restPass rest]
      exact found after
    rw [readAttributes, closed]
    dsimp only
    rw [skipped, passPass]

theorem attributeStarts {text : List Char} {m : Match Attribute} (found : attribute? text = some m) :
    ∃ c r, m.covered = c :: r ∧ isAttributeStart c = true := by
  cases text with
  | nil => contradiction
  | cons c r =>
    simp only [attribute?] at found
    split at found
    · rename_i starts
      split at found
      · cases found
        exact ⟨_, _, rfl, starts⟩
      · cases found
        exact ⟨_, _, rfl, starts⟩
    · contradiction

theorem tagReadNext {blanks covered : List Char} {e f : Element} (written : Match Attribute)
    (blank : ∀ c ∈ blanks, Text.isBlank c = true)
    (found : ∀ after, attribute? (written.covered ++ (covered ++ after)) = some written)
    (behind : TagRead covered (e.setAttribute written.value) f) :
    TagRead (blanks ++ (written.covered ++ covered)) e f := by
  obtain ⟨c, r, name, starts⟩ := attributeStarts (found [])
  have bounds := attributeStartBounds starts
  have visible := notBlank (by omega : 33 ≤ c.toNat) bounds.2.1
  have stops (after : List Char) : ∀ d, (written.covered ++ after).head? = some d → Text.isBlank d = false := by
    intro d same
    rw [name] at same
    cases same
    exact visible
  refine ⟨?_, ⟨c, r ++ covered, ?_, bounds.2.2.1⟩, ?_⟩
  · obtain ⟨inner, ending⟩ := behind.ends
    refine ⟨blanks ++ (written.covered ++ inner), ?_⟩
    rw [ending]
    simp only [List.append_assoc]
  · rw [Text.dropWhileExact blank (stops covered), name]
    rfl
  · intro start t after text
    have whole : t.rest = blanks ++ (written.covered ++ (covered ++ after)) := by
      simpa only [List.append_assoc] using text
    have skipped := skipBlankAppend whole blank (stops _)
    have here : t.skipBlank.rest = written.covered ++ (covered ++ after) := by
      rw [skipped, restPass whole]
    have again : attribute? t.skipBlank.rest = some written := by
      rw [here]
      exact found after
    have unclosed : tagClose? t.skipBlank.rest = none := by
      rw [here, name]
      exact unclosedAttribute starts _
    rw [readAttributesNext unclosed again, behind.again start _ after (restPass here), skipped, passPass, passPass]

theorem readAttributesLocal {start : Nat} {s t : Scanner} {e f : Element} (read : s.readAttributes start e = .ok (t, f)) :
    ∃ covered, s.Reaches covered t ∧ TagRead covered e f := by
  have blanks (text : List Char) : ∀ c ∈ text.takeWhile Text.isBlank, Text.isBlank c = true :=
    List.all_eq_true.mp List.all_takeWhile
  fun_induction readAttributes start s e with
  | case1 s e here close found =>
    cases read
    exact ⟨_, reachesTrans s.reachesSkipBlank (reachesMatch (tagCloseHeads found)),
      tagReadEnd _ (blanks s.rest) (tagCloseLocal found) _⟩
  | case2 => contradiction
  | case3 s e here noClose more written found ih =>
    obtain ⟨covered, tail, behind⟩ := ih read
    have head := reachesMatch (attributeHeads found)
    have whole := reachesTrans head tail
    have split : s.skipBlank.rest = written.covered ++ (covered ++ t.rest) := by
      rw [← List.append_assoc]
      exact whole.rest
    exact ⟨_, reachesTrans s.reachesSkipBlank whole,
      tagReadNext _ (blanks s.rest) (attributeLocal found split behind.unassigned) behind⟩
  | case4 => contradiction

end Scanner

end Markup
end Templating
