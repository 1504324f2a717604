import Templating.Proofs.Running
import Templating.Proofs.Tokens

/-!
Where two tokens meet. The cursor comes to stand at such a seam as a turn begins; what stands before it
ends with the last sign of markup, or as a text that what stands behind it ends. So no end tag reaches beyond
a seam, and blanks put there make no difference to whether a start tag has its end tag.
-/
namespace Templating

namespace Text

theorem splitWithin {first behind covered rest : List Char} (same : first ++ behind = covered ++ rest)
    (within : byteLength covered ≤ byteLength first) : ∃ more, first = covered ++ more ∧ rest = more ++ behind := by
  rcases List.append_eq_append_iff.mp same with ⟨more, longer, split⟩ | split
  · have none : more = [] := by
      by_contra signs
      have positive := byteLengthPositive signs
      rw [longer, byteLengthAppend] at within
      omega
    subst none
    exact ⟨[], by simpa using longer.symm, by simpa using split.symm⟩
  · exact split

theorem occursApart {needle : List Char} {c : Char} (signs : needle ≠ []) (absent : c ∉ needle) (first behind : List Char) :
    occursIn needle (first ++ c :: behind) = (occursIn needle first || occursIn needle behind) := by
  rw [Bool.eq_iff_iff, Bool.or_eq_true, occursInIff, occursInIff, occursInIff]
  constructor
  · rintro ⟨before, after, split⟩
    rcases List.append_eq_append_iff.mp split with ⟨more, rfl, found⟩ | ⟨more, rfl, found⟩
    · cases more with
      | nil =>
        cases needle with
        | nil => contradiction
        | cons d needle =>
          cases found
          exact absurd List.mem_cons_self absent
      | cons d more =>
        cases found
        exact Or.inr ⟨more, after, rfl⟩
    · rcases List.append_eq_append_iff.mp found with ⟨part, rfl, _⟩ | ⟨part, same, found⟩
      · exact Or.inl ⟨before, part, rfl⟩
      · cases part with
        | nil => exact Or.inl ⟨before, [], by simp [same]⟩
        | cons d part =>
          cases found
          rw [same] at absent
          exact absurd (List.mem_append_right more List.mem_cons_self) absent
  · rintro (⟨before, after, rfl⟩ | ⟨before, after, rfl⟩)
    · exact ⟨before, after ++ c :: behind, by simp⟩
    · exact ⟨first ++ c :: before, after, by simp⟩

theorem occursBetween {needle blanks : List Char} (signs : needle ≠ []) (apart : ∀ c ∈ blanks, c ∉ needle)
    (some : blanks ≠ []) (first behind : List Char) :
    occursIn needle (first ++ (blanks ++ behind)) = (occursIn needle first || occursIn needle behind) := by
  induction blanks generalizing first with
  | nil => contradiction
  | cons c blanks ih =>
    rw [List.cons_append, occursApart signs (apart c List.mem_cons_self)]
    cases blanks with
    | nil => rfl
    | cons d blanks =>
      have rest := ih (fun x member => apart x (List.mem_cons_of_mem c member)) (List.cons_ne_nil d blanks) []
      have none : occursIn needle [] = false := by
        cases needle with
        | nil => contradiction
        | cons => rfl
      rw [List.nil_append, none, Bool.false_or] at rest
      rw [rest]

end Text

namespace Markup

/- What stands before has ended: with the last sign of markup, or as a text that what stands behind ends. -/
def Seam (first behind : List Char) : Prop :=
  ∀ c, first.getLast? = some c → c = '>' ∨ isText c = true ∧ ∀ d, behind.head? = some d → isText d = false

theorem seamOfEnds {covered rest : List Char} (ends : Ends covered rest) : Seam covered rest := by
  intro c last
  rcases ends with ⟨inner, rfl⟩ | ⟨plain, stops⟩
  · rw [List.getLast?_concat] at last
    cases last
    exact Or.inl rfl
  · exact Or.inr ⟨plain c (List.mem_of_getLast? last), stops⟩

theorem seamSuffix {first behind lead more : List Char} (seam : Seam first behind) (split : first = lead ++ more) :
    Seam more behind := by
  intro c last
  refine seam c ?_
  rw [split, List.getLast?_append, last]
  rfl

theorem tagNameText {c : Char} (name : isTagName c = true) : isText c = true ∧ c ≠ '>' := by
  have differs (d : Char) (other : isTagName d = false) : c ≠ d := by
    rintro rfl
    rw [name] at other
    contradiction
  have less := differs '<' (by decide)
  have slash := differs '/' (by decide)
  exact ⟨by simp [isText, less, slash], differs '>' (by decide)⟩

theorem endTagWithin {name before behind part tail : List Char} (named : ∀ c ∈ name, isTagName c = true)
    (seam : Seam part behind) (split : '<' :: '/' :: (name ++ ['>']) = part ++ tail) (signs : tail ≠ [])
    (starts : behind = tail ++ before) : part = [] := by
  match part with
  | [] => rfl
  | [c] =>
    cases split
    rcases seam '<' rfl with impossible | ⟨impossible, _⟩
    · exact absurd impossible (by decide)
    · exact absurd impossible (by decide)
  | [c, d] =>
    cases split
    rcases seam '/' rfl with impossible | ⟨impossible, _⟩
    · exact absurd impossible (by decide)
    · exact absurd impossible (by decide)
  | c :: d :: e :: part =>
    have inner : name ++ ['>'] = (e :: part) ++ tail := (List.cons.inj (List.cons.inj split).2).2
    obtain ⟨last, ending, inside⟩ : ∃ last, (c :: d :: e :: part).getLast? = some last ∧ last ∈ e :: part := by
      refine ⟨(e :: part).getLast (List.cons_ne_nil e part), ?_, List.getLast_mem _⟩
      simp [List.getLast?_eq_some_getLast]
    obtain rfl | ⟨more, x, rfl⟩ := List.eq_nil_or_concat' tail
    · contradiction
    · rw [← List.append_assoc] at inner
      obtain ⟨rfl, sign⟩ := List.append_inj' inner rfl
      cases sign
      obtain ⟨plain, other⟩ := tagNameText (named last (List.mem_append_left more inside))
      rcases seam last ending with same | ⟨_, stops⟩
      · exact absurd same other
      · -- the name goes on behind the seam, or the tag ends there; neither ends a text
        have next : ∃ x, behind.head? = some x ∧ isText x = true := by
          rw [starts]
          cases more with
          | nil => exact ⟨'>', rfl, by decide⟩
          | cons x more => exact ⟨x, rfl, (tagNameText (named x (by simp))).1⟩
        obtain ⟨x, head, text⟩ := next
        rw [stops x head] at text
        contradiction

theorem endTagSigns {name : List Char} (named : ∀ c ∈ name, isTagName c = true) :
    ∀ c ∈ '<' :: '/' :: (name ++ ['>']), Text.isBlank c = false := by
  intro c member
  simp only [List.mem_cons, List.mem_append, List.not_mem_nil, or_false] at member
  rcases member with rfl | rfl | inside | rfl
  · decide
  · decide
  · have part := named c inside
    simp only [isTagName, Bool.or_eq_true, beq_iff_eq] at part
    rcases part with word | rfl
    · have bounds := wordBounds word
      exact notBlank (by omega) bounds.2.1
    · decide
  · decide

theorem endTagOccurs {name first behind : List Char} (named : ∀ c ∈ name, isTagName c = true) (seam : Seam first behind) :
    Text.occursIn ('<' :: '/' :: (name ++ ['>'])) (first ++ behind) =
      (Text.occursIn ('<' :: '/' :: (name ++ ['>'])) first || Text.occursIn ('<' :: '/' :: (name ++ ['>'])) behind) := by
  rw [Bool.eq_iff_iff, Bool.or_eq_true, Text.occursInIff, Text.occursInIff, Text.occursInIff]
  constructor
  · rintro ⟨before, after, split⟩
    rcases List.append_eq_append_iff.mp split with ⟨more, rfl, found⟩ | ⟨part, rfl, found⟩
    · exact Or.inr ⟨more, after, found⟩
    · rcases List.append_eq_append_iff.mp found with ⟨more, rfl, _⟩ | ⟨tail, whole, rest⟩
      · exact Or.inl ⟨before, more, rfl⟩
      · by_cases none : tail = []
        · rw [none, List.append_nil] at whole
          exact Or.inl ⟨before, [], by rw [whole, List.append_nil]⟩
        · have nothing := endTagWithin named (seamSuffix seam rfl) whole none rest
          rw [nothing, List.nil_append] at whole
          exact Or.inr ⟨[], after, by rw [rest, whole]; rfl⟩
  · rintro (⟨before, after, rfl⟩ | ⟨before, after, rfl⟩)
    · exact ⟨before, after ++ behind, by simp⟩
    · exact ⟨first ++ before, after, by simp⟩

theorem endTagSpaced {name first behind blanks : List Char} (named : ∀ c ∈ name, isTagName c = true)
    (seam : Seam first behind) (blank : ∀ c ∈ blanks, Text.isBlank c = true) :
    Text.occursIn ('<' :: '/' :: (name ++ ['>'])) (first ++ (blanks ++ behind)) =
      Text.occursIn ('<' :: '/' :: (name ++ ['>'])) (first ++ behind) := by
  by_cases none : blanks = []
  · rw [none, List.nil_append]
  · have apart : ∀ c ∈ blanks, c ∉ '<' :: '/' :: (name ++ ['>']) := by
      intro c member sign
      have visible := endTagSigns named c sign
      rw [blank c member] at visible
      contradiction
    rw [endTagOccurs named seam, Text.occursBetween (List.cons_ne_nil _ _) apart none]

theorem pairedSpaced {name inner more behind blanks : List Char} (named : ∀ c ∈ name, isTagName c = true)
    (seam : Seam ('<' :: (name ++ (inner ++ ['>'])) ++ more) behind) (blank : ∀ c ∈ blanks, Text.isBlank c = true) :
    isPaired ('<' :: (name ++ (inner ++ ['>'])) ++ (more ++ (blanks ++ behind))) name =
      isPaired ('<' :: (name ++ (inner ++ ['>'])) ++ (more ++ behind)) name := by
  have length : 1 + Text.byteLength name = Text.byteLength ('<' :: name) := rfl
  obtain ⟨before, rest, found⟩ := Text.splitFirstBehind '>' inner
  have searched (after : List Char) : isPaired ('<' :: (name ++ (inner ++ ['>'])) ++ after) name =
      Text.occursIn ('<' :: '/' :: (name ++ ['>'])) (rest ++ after) := by
    have written : '<' :: (name ++ (inner ++ ['>'])) ++ after = ('<' :: name) ++ (inner ++ '>' :: after) := by simp
    unfold isPaired
    rw [length, written, Text.dropBytesAppend, found after]
  have behindFirst : inner ++ ['>'] = (before ++ ['>']) ++ rest := by
    have sides := Text.splitFirstSides (found [])
    simpa using sides
  have split : '<' :: (name ++ (inner ++ ['>'])) ++ more = '<' :: (name ++ (before ++ ['>'])) ++ (rest ++ more) := by
    rw [behindFirst]
    simp
  have spaced := endTagSpaced named (seamSuffix seam split) blank
  rw [List.append_assoc, List.append_assoc] at spaced
  rw [searched, searched, spaced]

end Markup
end Templating
