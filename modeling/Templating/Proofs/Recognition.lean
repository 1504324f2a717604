import Templating.Proofs.Document

/-!
What is recognised at the head of what is written: each part of a document is recognised as what it
is, whatever follows, as long as its end can be told from that.
-/
namespace Templating.Text

theorem takeWhileExact {α : Type} {test : α → Bool} {run after : List α} (inside : ∀ x ∈ run, test x = true)
    (stops : ∀ x, after.head? = some x → test x = false) : (run ++ after).takeWhile test = run := by
  rw [List.takeWhile_append_of_pos inside]
  cases after with
  | nil => simp
  | cons x after => simp [stops x rfl]

theorem dropWhileExact {α : Type} {test : α → Bool} {run after : List α} (inside : ∀ x ∈ run, test x = true)
    (stops : ∀ x, after.head? = some x → test x = false) : (run ++ after).dropWhile test = after := by
  rw [List.dropWhile_append_of_pos inside]
  cases after with
  | nil => rfl
  | cons x after => simp [stops x rfl]

theorem splitFirstChar {c : Char} {before : List Char} (absent : c ∉ before) (after : List Char) :
    splitFirst [c] (before ++ c :: after) = some (before, after) := by
  induction before with
  | nil => simp [splitFirst, strip]
  | cons d before ih =>
    have differs : c ≠ d := fun same => absent (same ▸ List.mem_cons_self)
    have rest := ih fun member => absent (List.mem_cons_of_mem d member)
    rw [List.cons_append, splitFirst, strip, if_neg differs, rest]
    rfl

theorem splitFirstEnd {body : List Char} (whole : occursIn ['-', '-', '>'] body = false) (after : List Char) :
    splitFirst ['-', '-', '>'] (body ++ (['-', '-', '>'] ++ after)) = some (body, after) := by
  induction body with
  | nil => simp [splitFirst, strip]
  | cons c body ih =>
    have parts : strip ['-', '-', '>'] (c :: body) = none ∧ occursIn ['-', '-', '>'] body = false := by
      simpa [occursIn] using whole
    have early : strip ['-', '-', '>'] (c :: (body ++ (['-', '-', '>'] ++ after))) = none := by
      refine Option.eq_none_iff_forall_ne_some.mpr fun tail found => ?_
      have split := stripIff.mp found
      have noneHere := parts.1
      rcases body with - | ⟨d, - | ⟨e, body⟩⟩
      · simp at split
      · simp at split
      · simp only [List.cons_append, List.cons.injEq] at split
        obtain ⟨rfl, rfl, rfl, _⟩ := split
        simp [strip] at noneHere
    rw [List.cons_append, splitFirst, early, ih parts.2]
    rfl

theorem splitFirstBehind (c : Char) (lead : List Char) :
    ∃ before more, ∀ rest, splitFirst [c] (lead ++ c :: rest) = some (before, more ++ rest) := by
  induction lead with
  | nil => exact ⟨[], [], fun rest => by simp [splitFirst, strip]⟩
  | cons d lead ih =>
    obtain ⟨before, more, found⟩ := ih
    by_cases same : c = d
    · refine ⟨[], lead ++ [c], fun rest => ?_⟩
      rw [List.cons_append, splitFirst, strip, if_pos same, strip]
      simp
    · refine ⟨d :: before, more, fun rest => ?_⟩
      rw [List.cons_append, splitFirst, strip, if_neg same, found]
      rfl

theorem trimBlank {c : Char} (blank : isBlank c = true) (cs : List Char) : trim (c :: cs) = trim cs := by
  simp [trim, trimStart, blank]

end Templating.Text

namespace Templating.Markup

theorem wordRanges {c : Char} (word : isWord c = true) :
    65 ≤ c.toNat ∧ c.toNat ≤ 90 ∨ 97 ≤ c.toNat ∧ c.toNat ≤ 122 ∨ 48 ≤ c.toNat ∧ c.toNat ≤ 57 ∨ c.toNat = 95 := by
  have test : isWord c =
      ((decide (65 ≤ c.val ∧ c.val ≤ 90) || 97 ≤ c.val && c.val ≤ 122) || 48 ≤ c.val && c.val ≤ 57 || c == '_') := rfl
  simp only [test, Bool.or_eq_true, Bool.and_eq_true, decide_eq_true_eq, beq_iff_eq, UInt32.le_iff_toNat_le] at word
  rcases word with ((upper | lower) | digit) | rfl
  · exact Or.inl upper
  · exact Or.inr (Or.inl lower)
  · exact Or.inr (Or.inr (Or.inl digit))
  · exact Or.inr (Or.inr (Or.inr rfl))

theorem notBlank {c : Char} (above : 33 ≤ c.toNat) (below : c.toNat ≤ 122) : Text.isBlank c = false := by
  simp only [Text.isBlank]
  generalize c.toNat = n at *
  simp only [Bool.or_eq_false_iff, Bool.and_eq_false_iff, decide_eq_false_iff_not, beq_eq_false_iff_ne]
  omega

theorem wordBounds {c : Char} (word : isWord c = true) : 48 ≤ c.toNat ∧ c.toNat ≤ 122 ∧ c ≠ '=' ∧ c ≠ '>' := by
  have ranges := wordRanges word
  refine ⟨by omega, by omega, ?_, ?_⟩
  · rintro rfl
    exact absurd word (by decide)
  · rintro rfl
    exact absurd word (by decide)

theorem attributeStartBounds {c : Char} (starts : isAttributeStart c = true) :
    48 ≤ c.toNat ∧ c.toNat ≤ 122 ∧ c ≠ '=' ∧ c ≠ '>' := by
  simp only [isAttributeStart, Bool.or_eq_true, beq_iff_eq] at starts
  rcases starts with (word | rfl) | rfl
  · exact wordBounds word
  · decide
  · decide

theorem blankAttributeName {c : Char} (blank : Text.isBlank c = true) : isAttributeName c = false := by
  cases named : isAttributeName c with
  | false => rfl
  | true =>
    have visible : Text.isBlank c = false := by
      simp only [isAttributeName, Bool.or_eq_true, beq_iff_eq] at named
      rcases named with ((word | rfl) | rfl) | rfl
      · have bounds := wordBounds word
        exact notBlank (by omega) bounds.2.1
      all_goals decide
    simp [blank] at visible

theorem blankTagName {c : Char} (blank : Text.isBlank c = true) : isTagName c = false := by
  have other := blankAttributeName blank
  simp only [isAttributeName, Bool.or_eq_false_iff] at other
  simp [isTagName, other]

theorem upperSign {c d : Char} (sign : c.toUpper = d) (other : d.toNat < 65) : c = d := by
  unfold Char.toUpper at sign
  split at sign
  · rename_i lower
    have value := congrArg (fun d => d.val.toNat) sign
    have bounds := lower
    have number : d.val.toNat = d.toNat := rfl
    simp only [UInt32.le_iff_toNat_le, UInt32.toNat_add, UInt32.toNat_sub, Char.reduceVal, UInt32.reduceToNat, number]
      at value bounds
    omega
  · exact sign

theorem doctypeElsewhere {c : Char} (other : c ≠ '<') (r : List Char) : doctype? (c :: r) = none := by
  refine if_neg fun same => other ?_
  have first : c.toUpper = '<' := (List.cons.inj same).1
  exact upperSign first (by decide)

theorem doctypeOther {c : Char} (other : c ≠ '!') (r : List Char) : doctype? ('<' :: c :: r) = none := by
  refine if_neg fun same => other ?_
  have second : c.toUpper = '!' := (List.cons.inj (List.cons.inj same).2).1
  exact upperSign second (by decide)

theorem commentElsewhere {c : Char} (other : c ≠ '<') (r : List Char) : comment? (c :: r) = none := by
  simp [comment?, Text.strip, Ne.symm other]

theorem commentOther {c : Char} (other : c ≠ '!') (r : List Char) : comment? ('<' :: c :: r) = none := by
  simp [comment?, Text.strip, Ne.symm other]

theorem tagNameExact (name : WrittenName isWord isTagName) {after : List Char}
    (stops : ∀ c, after.head? = some c → isTagName c = false) : tagName (name.chars ++ after) = name.chars := by
  unfold WrittenName.chars
  rw [List.cons_append, tagName, if_pos name.headStarts, Text.takeWhileExact name.tailContinues stops]

theorem constructComment (body : CommentBody) (after : List Char) :
    construct? (body.print ++ after) = some ⟨body.print, .comment body.chars⟩ := by
  have printed : body.print ++ after = '<' :: '!' :: '-' :: '-' :: (body.chars ++ (['-', '-', '>'] ++ after)) := by
    simp [CommentBody.print]
  have doctype : doctype? (body.print ++ after) = none := by
    rw [printed]
    refine if_neg fun same => ?_
    have third : '-'.toUpper = 'D' := (List.cons.inj (List.cons.inj (List.cons.inj same).2).2).1
    exact absurd third (by decide)
  have comment : comment? (body.print ++ after) = some ⟨body.print, body.chars⟩ := by
    have whole := body.whole
    rw [printed]
    unfold comment?
    rw [show "<!--".toList = ['<', '!', '-', '-'] from rfl, show "-->".toList = ['-', '-', '>'] from rfl] at *
    simp only [Text.strip, if_true, Option.bind_some, Text.splitFirstEnd whole, Option.map_some]
    rfl
  unfold construct?
  rw [doctype, comment]
  rfl

theorem constructDoctype (body : DoctypeBody) (after : List Char) :
    construct? (body.print ++ after) = some ⟨body.print, .doctype body.chars⟩ := by
  have doctype : doctype? (body.print ++ after) = some ⟨body.print, body.chars⟩ := by
    have printed : body.print ++ after = "<!DOCTYPE".toList ++ ((' ' :: body.chars) ++ '>' :: after) := by
      unfold DoctypeBody.print
      rw [List.append_assoc]
      refine congrArg (fun tail => "<!DOCTYPE".toList ++ tail) ?_
      simp
    have nine : "<!DOCTYPE".toList.length = 9 := by decide
    have keyword : (body.print ++ after).take 9 = "<!DOCTYPE".toList := by
      rw [printed, List.take_left' nine]
    have behind : (body.print ++ after).drop 9 = (' ' :: body.chars) ++ '>' :: after := by
      rw [printed, List.drop_left' nine]
    have inside : '>' ∉ ' ' :: body.chars := by
      intro member
      rcases List.mem_cons.mp member with same | member
      · exact absurd same (by decide)
      · exact body.whole member
    have upper : "<!DOCTYPE".toList.map Char.toUpper = "<!DOCTYPE".toList := by decide
    unfold doctype?
    rw [keyword, behind, if_pos upper, Text.splitFirstChar inside, Option.map_some, Text.trimBlank (by decide),
      body.trimmed]
    rfl
  unfold construct?
  rw [doctype]
  rfl

theorem constructStartTag (name : WrittenName isWord isTagName) {after : List Char}
    (stops : ∀ c, after.head? = some c → isTagName c = false) :
    construct? ('<' :: (name.chars ++ after)) = some ⟨'<' :: name.chars, .startTag name.chars⟩ := by
  have head : name.head ≠ '!' := by
    intro same
    have starts := name.headStarts
    rw [same] at starts
    exact absurd starts (by decide)
  have startTag : startTag? ('<' :: (name.chars ++ after)) = some ⟨'<' :: name.chars, name.chars⟩ := by
    simp only [startTag?]
    rw [tagNameExact name stops]
    exact if_neg (by simp [WrittenName.chars])
  have doctype := doctypeOther head (name.tail ++ after)
  have comment := commentOther head (name.tail ++ after)
  unfold construct?
  rw [startTag]
  unfold WrittenName.chars
  rw [List.cons_append, doctype, comment]
  rfl

theorem constructEndTag (tag : StartTag) (after : List Char) :
    construct? (tag.printEnd ++ after) = some ⟨tag.printEnd, .endTag tag.name.chars⟩ := by
  have printed : tag.printEnd ++ after = '<' :: '/' :: (tag.name.chars ++ '>' :: after) := by
    simp [StartTag.printEnd]
  have name : tagName (tag.name.chars ++ '>' :: after) = tag.name.chars := by
    refine tagNameExact tag.name fun c same => ?_
    cases same
    decide
  have endTag : endTag? ('<' :: '/' :: (tag.name.chars ++ '>' :: after)) = some ⟨tag.printEnd, tag.name.chars⟩ := by
    simp only [endTag?]
    rw [name, List.drop_left, if_neg (by simp [WrittenName.chars])]
    rfl
  have startTag : startTag? ('<' :: '/' :: (tag.name.chars ++ '>' :: after)) = none := rfl
  unfold construct?
  rw [printed, doctypeOther (by decide), commentOther (by decide), startTag, endTag]
  rfl

theorem constructText (run : TextRun) {after : List Char} (stops : ∀ c, after.head? = some c → c = '<') :
    construct? (run.chars ++ after) = some ⟨run.chars, .text run.chars⟩ := by
  have plain : isText run.head = true := run.plain run.head List.mem_cons_self
  have head : run.head ≠ '<' := by
    intro same
    rw [same] at plain
    exact absurd plain (by decide)
  have taken : (run.chars ++ after).takeWhile isText = run.chars := by
    refine Text.takeWhileExact run.plain fun c same => ?_
    rw [stops c same]
    decide
  have text : text? (run.chars ++ after) = some ⟨run.chars, run.chars⟩ := by
    unfold text?
    rw [taken, if_neg (by simp [TextRun.chars]), TextRun.chars, run.trimmed]
  have startTag : startTag? (run.head :: (run.tail ++ after)) = none := by
    unfold startTag?
    split
    · rename_i same
      exact absurd (List.cons.inj same).1 head
    · rfl
  have endTag : endTag? (run.head :: (run.tail ++ after)) = none := by
    unfold endTag?
    split
    · rename_i same
      exact absurd (List.cons.inj same).1 head
    · rfl
  unfold construct?
  rw [text]
  unfold TextRun.chars
  rw [List.cons_append, doctypeElsewhere head, commentElsewhere head, startTag, endTag]
  rfl

end Templating.Markup
