import Templating.Directive.Loop
import Templating.Proofs.Recognition

/-!
The words of a text, and loop expressions told by their words. A loop expression divides at its first
word `in` or `of` that is neither the first word nor the last; what stands before it and behind it is
taken as written, with the blanks inside.
-/
namespace Templating

namespace Text

def words (cs : List Char) : List (List Char) := (cs.splitOnP isBlank).filter (· ≠ [])

theorem wordsBlank {c : Char} (blank : isBlank c = true) (before after : List Char) :
    words (before ++ c :: after) = words before ++ words after := by
  unfold words
  rw [List.splitOnP_append_cons before after blank, List.filter_append]

theorem wordsBlanks {blanks : List Char} (blank : ∀ c ∈ blanks, isBlank c = true) (after : List Char) :
    words (blanks ++ after) = words after := by
  induction blanks with
  | nil => rfl
  | cons c blanks ih =>
    have behind := wordsBlank (blank c List.mem_cons_self) [] (blanks ++ after)
    rw [List.cons_append]
    exact behind.trans (ih fun d member => blank d (List.mem_cons_of_mem _ member))

theorem wordsApart {blanks : List Char} (signs : blanks ≠ []) (blank : ∀ c ∈ blanks, isBlank c = true)
    (before after : List Char) : words (before ++ (blanks ++ after)) = words before ++ words after := by
  cases blanks with
  | nil => contradiction
  | cons c blanks =>
    rw [List.cons_append, wordsBlank (blank c List.mem_cons_self),
      wordsBlanks fun d member => blank d (List.mem_cons_of_mem _ member)]

theorem wordsVisible {word : List Char} (signs : word ≠ []) (visible : ∀ c ∈ word, isBlank c = false) :
    words word = [word] := by
  unfold words
  rw [List.splitOnP_eq_singleton visible]
  simp [signs]

theorem wordsThen {word after : List Char} (signs : word ≠ []) (visible : ∀ c ∈ word, isBlank c = false)
    (ends : ∀ c, after.head? = some c → isBlank c = true) : words (word ++ after) = word :: words after := by
  cases after with
  | nil =>
    rw [List.append_nil, wordsVisible signs visible]
    rfl
  | cons c after =>
    have blank := ends c rfl
    rw [wordsBlank blank, wordsVisible signs visible]
    exact congrArg (List.cons word) (wordsBlank blank [] after).symm

theorem wordsFirst {c : Char} (visible : isBlank c = false) (r : List Char) :
    ∃ word after, c :: r = word ++ after ∧ word ≠ [] ∧ (∀ d ∈ word, isBlank d = false) ∧
      ∀ d, after.head? = some d → isBlank d = true := by
  have split := (List.takeWhile_append_dropWhile (p := fun d => !isBlank d) (l := c :: r)).symm
  refine ⟨_, _, split, by simp [visible], ?_, ?_⟩
  · intro d member
    simpa using List.all_eq_true.mp List.all_takeWhile d member
  · intro d head
    have first := List.head?_dropWhile_not (fun d => !isBlank d) (c :: r)
    rw [head] at first
    simpa using first

theorem wordsSome {cs : List Char} (signs : cs ≠ []) (visible : ∀ c, cs.head? = some c → isBlank c = false) :
    words cs ≠ [] := by
  cases cs with
  | nil => contradiction
  | cons c r =>
    obtain ⟨_, _, parts, signs, plain, ends⟩ := wordsFirst (visible c rfl) r
    rw [parts, wordsThen signs plain ends]
    exact List.cons_ne_nil _ _

theorem wordsAt {cs word : List Char} {left right : List (List Char)} (listed : words cs = left ++ word :: right) :
    ∃ before after, cs = before ++ (word ++ after) ∧ words before = left ∧ words after = right ∧ word ≠ [] ∧
      (∀ c ∈ word, isBlank c = false) ∧ (∀ c, before.getLast? = some c → isBlank c = true) ∧
      ∀ c, after.head? = some c → isBlank c = true := by
  induction left generalizing cs with
  | nil =>
    obtain ⟨lead, blank, split⟩ := blankAppendTrimStart cs
    rw [split, wordsBlanks blank] at listed
    cases rest : trimStart cs with
    | nil =>
      rw [rest] at listed
      contradiction
    | cons c r =>
      obtain ⟨first, after, parts, signs, visible, ends⟩ := wordsFirst (trimStartHeadNotBlank rest) r
      rw [rest, parts, wordsThen signs visible ends] at listed
      obtain ⟨rfl, rfl⟩ := List.cons.inj listed
      refine ⟨lead, after, by rw [split, rest, parts], ?_, rfl, signs, visible, ?_, ends⟩
      · have none := wordsBlanks blank []
        rwa [List.append_nil] at none
      · intro d last
        exact blank d (List.mem_of_getLast? last)
  | cons other left ih =>
    obtain ⟨lead, blank, split⟩ := blankAppendTrimStart cs
    rw [split, wordsBlanks blank] at listed
    cases rest : trimStart cs with
    | nil =>
      rw [rest] at listed
      contradiction
    | cons c r =>
      obtain ⟨first, behind, parts, signs, visible, ends⟩ := wordsFirst (trimStartHeadNotBlank rest) r
      rw [rest, parts, wordsThen signs visible ends] at listed
      obtain ⟨rfl, later⟩ := List.cons.inj listed
      obtain ⟨before, after, inner, wordsBefore, wordsAfter, signed, plain, last, head⟩ := ih later
      -- a blank ends the first word, so there is something before the word looked for
      cases before with
      | nil =>
        cases word with
        | nil => exact absurd rfl signed
        | cons d word =>
          have sign := ends d (by rw [inner]; rfl)
          rw [plain d List.mem_cons_self] at sign
          cases sign
      | cons d before =>
        have sign := ends d (by rw [inner]; rfl)
        refine ⟨lead ++ (first ++ d :: before), after, ?_, ?_, wordsAfter, signed, plain, ?_, head⟩
        · rw [split, rest, parts, inner]
          simp
        · rw [wordsBlanks blank, wordsThen signs visible (by simpa using sign), wordsBefore]
        · intro e ending
          refine last e ?_
          rw [← List.append_assoc, List.getLast?_append] at ending
          simpa using ending

theorem trimStartHead {cs : List Char} {c : Char} (head : (trimStart cs).head? = some c) : isBlank c = false := by
  have first := List.head?_dropWhile_not isBlank cs
  rw [← trimStart, head] at first
  simpa using first

theorem trimHead {cs : List Char} {c : Char} (head : (trim cs).head? = some c) : isBlank c = false := by
  obtain ⟨trail, _, split⟩ := trimEndAppendBlank (trimStart cs)
  have same : (trimStart cs).head? = some c := by
    rw [split, ← trim, List.head?_append, head]
    rfl
  exact trimStartHead same

theorem trimExact {cs : List Char} (first : ∀ c, cs.head? = some c → isBlank c = false)
    (last : ∀ c, cs.getLast? = some c → isBlank c = false) : trim cs = cs := by
  have start : ([] ++ cs).dropWhile isBlank = cs := dropWhileExact (by simp) first
  have stop : ([] ++ cs.reverse).dropWhile isBlank = cs.reverse :=
    dropWhileExact (by simp) (by rw [List.head?_reverse]; exact last)
  rw [List.nil_append] at start stop
  rw [trim, trimStart, start, trimEnd, stop, List.reverse_reverse]

theorem trimEndLast {cs : List Char} {c : Char} (last : (trimEnd cs).getLast? = some c) : isBlank c = false := by
  rw [trimEnd, List.getLast?_reverse] at last
  have first := List.head?_dropWhile_not isBlank cs.reverse
  rw [last] at first
  simpa using first

structure Gap (blanks : List Char) : Prop where
  signs : blanks ≠ []
  blank : ∀ c ∈ blanks, isBlank c = true

theorem gapHead {blanks : List Char} (gap : Gap blanks) (rest : List Char) :
    (blanks ++ rest).head?.any isBlank = true := by
  cases blanks with
  | nil => exact absurd rfl gap.signs
  | cons c blanks => exact gap.blank c List.mem_cons_self

theorem gapLeading {cs : List Char} (opened : cs.head?.any isBlank = true) : Gap (cs.takeWhile isBlank) := by
  refine ⟨?_, List.all_eq_true.mp List.all_takeWhile⟩
  cases cs with
  | nil => contradiction
  | cons c r =>
    have blank : isBlank c = true := opened
    simp [blank]

theorem gapBehind {before : List Char} (named : words before ≠ [])
    (last : ∀ c, before.getLast? = some c → isBlank c = true) : ∃ gap, before = trimEnd before ++ gap ∧ Gap gap := by
  obtain ⟨gap, blank, split⟩ := trimEndAppendBlank before
  refine ⟨gap, split, ?_, blank⟩
  rintro rfl
  rw [List.append_nil] at split
  cases ends : before.getLast? with
  | none =>
    rw [List.getLast?_eq_none_iff.mp ends] at named
    exact named rfl
  | some c =>
    have sign := last c ends
    rw [split] at ends
    rw [trimEndLast ends] at sign
    cases sign

theorem gapBefore {after : List Char} (named : words after ≠ [])
    (head : ∀ c, after.head? = some c → isBlank c = true) :
    ∃ gap, after = gap ++ trimStart after ∧ Gap gap ∧ trimStart after ≠ [] := by
  have split := (List.takeWhile_append_dropWhile (p := isBlank) (l := after)).symm
  have opened : after.head?.any isBlank = true := by
    cases after with
    | nil => exact absurd rfl named
    | cons c r => exact head c rfl
  have gap := gapLeading opened
  refine ⟨_, split, gap, fun empty => ?_⟩
  rw [split, ← trimStart, wordsBlanks gap.blank, empty] at named
  exact named rfl

end Text

namespace Loop
open Text

variable {text item items : List Char} {keyword : LoopKeyword}

structure Divides (text before : List Char) (keyword : LoopKeyword) (behind items : List Char) : Prop where
  split : text = before ++ (keyword.word.toList ++ (behind ++ items))
  before : Gap before
  behind : Gap behind
  collection : items ≠ []
  starts : ∀ c, items.head? = some c → isBlank c = false

theorem keywordVisible (keyword : LoopKeyword) (rest : List Char) :
    ∀ c, (keyword.word.toList ++ rest).head? = some c → isBlank c = false := by
  intro c head
  cases keyword <;> cases head <;> decide

theorem collectionBlank {parts : LoopKeyword × List Char} (found : collection? text = some parts) :
    text.head?.any isBlank = true := by
  unfold collection? at found
  dsimp only at found
  split at found
  · assumption
  · contradiction

theorem collectionDivides (found : collection? text = some (keyword, items)) :
    ∃ before behind, Divides text before keyword behind items := by
  have blank := collectionBlank found
  have parts := (List.takeWhile_append_dropWhile (p := isBlank) (l := text)).symm
  unfold collection? at found
  dsimp only at found
  rw [if_pos blank] at found
  have told : ∃ word, (strip word.word.toList (trimStart text)).bind (fun after =>
      if after.head?.any isBlank && !(trimStart after).isEmpty then some (word, trimStart after) else none) =
        some (keyword, items) := by
    rcases Option.or_eq_some_iff.mp found with here | ⟨_, here⟩
    · exact ⟨.inWord, here⟩
    · exact ⟨.ofWord, here⟩
  obtain ⟨word, here⟩ := told
  obtain ⟨after, stripped, here⟩ := Option.bind_eq_some_iff.mp here
  split at here
  · rename_i both
    cases here
    obtain ⟨gap, signs⟩ := Bool.and_eq_true_iff.mp both
    have rest := (List.takeWhile_append_dropWhile (p := isBlank) (l := after)).symm
    refine ⟨text.takeWhile isBlank, after.takeWhile isBlank, ?_, gapLeading blank, gapLeading gap, ?_, ?_⟩
    · rw [trimStart, ← rest, ← stripIff.mp stripped]
      exact parts
    · simpa using signs
    · exact fun c => trimStartHead
  · contradiction

theorem collectionExact {before behind : List Char} (divides : Divides text before keyword behind items) :
    collection? text = some (keyword, items) := by
  obtain ⟨split, gap, gapAfter, collection, starts⟩ := divides
  have opened : text.head?.any isBlank = true := by rw [split]; exact gapHead gap _
  have word : trimStart text = keyword.word.toList ++ (behind ++ items) := by
    rw [split]
    exact dropWhileExact gap.blank (keywordVisible keyword _)
  have rest : trimStart (behind ++ items) = items := dropWhileExact gapAfter.blank starts
  have signs : items.isEmpty = false := by simp [collection]
  unfold collection?
  dsimp only
  rw [if_pos opened, word]
  cases keyword with
  | inWord =>
    rw [stripAppend, Option.bind_some, gapHead gapAfter, rest, signs]
    rfl
  | ofWord =>
    rw [stripAppend, Option.bind_some, gapHead gapAfter, rest, signs]
    rfl

theorem splitFinds {rest : List Char} (found : collection? rest = some (keyword, items)) (first : Char) (more : List Char) :
    ∃ item parts, split? (first :: more ++ rest) = some (item, parts) ∧ item.length ≤ (first :: more).length := by
  induction more generalizing first with
  | nil => exact ⟨[first], _, by rw [List.cons_append, List.nil_append, split?, found], Nat.le_refl _⟩
  | cons second more ih =>
    obtain ⟨item, parts, later, shorter⟩ := ih second
    rw [List.cons_append, split?]
    cases here : collection? (second :: more ++ rest) with
    | some other => exact ⟨[first], other, rfl, by simp⟩
    | none =>
      refine ⟨first :: item, parts, ?_, Nat.succ_le_succ shorter⟩
      dsimp only
      rw [later]
      rfl

theorem splitParts (found : split? text = some (item, keyword, items)) :
    ∃ rest, text = item ++ rest ∧ item ≠ [] ∧ collection? rest = some (keyword, items) ∧
      ∀ before behind, item = before ++ behind → before ≠ [] → behind ≠ [] → collection? (behind ++ rest) = none := by
  induction text generalizing item with
  | nil => contradiction
  | cons c r ih =>
    rw [split?] at found
    split at found
    · rename_i parts here
      cases found
      refine ⟨r, rfl, List.cons_ne_nil c [], here, ?_⟩
      intro before behind split signs more
      have length := congrArg List.length split
      have := List.length_pos_iff.mpr signs
      have := List.length_pos_iff.mpr more
      simp only [List.length_cons, List.length_nil, List.length_append] at length
      omega
    · rename_i none
      obtain ⟨⟨inner, parts⟩, later, same⟩ := Option.map_eq_some_iff.mp found
      cases same
      obtain ⟨rest, split, signs, here, earlier⟩ := ih later
      refine ⟨rest, by rw [split]; rfl, List.cons_ne_nil c inner, here, ?_⟩
      intro before behind cut signs more
      cases before with
      | nil => contradiction
      | cons d before =>
        have inside : inner = before ++ behind := (List.cons.inj cut).2
        cases before with
        | nil =>
          rw [split, inside] at none
          exact none
        | cons e before => exact earlier (e :: before) behind inside (List.cons_ne_nil e before) more

/- Among the words of a text, number `n` is a keyword, and neither the first word nor the last. -/
structure KeywordAt (words : List (List Char)) (n : Nat) : Prop where
  inside : 0 < n ∧ n + 1 < words.length
  keyword : words[n]? = some "in".toList ∨ words[n]? = some "of".toList

instance (words : List (List Char)) (n : Nat) : Decidable (KeywordAt words n) :=
  decidable_of_iff ((0 < n ∧ n + 1 < words.length) ∧ (words[n]? = some "in".toList ∨ words[n]? = some "of".toList))
    ⟨fun both => ⟨both.1, both.2⟩, fun found => ⟨found.inside, found.keyword⟩⟩

/- A loop divides its text at word number `n`: between the words before it and those behind it, without
the blanks around it. -/
structure DividesAt (text : List Char) (n : Nat) (loop : Loop) : Prop where
  word : (words text)[n]? = some loop.keyword.word.toList
  split : ∃ before behind, Gap before ∧ Gap behind ∧
    text = loop.item.toList ++ (before ++ (loop.keyword.word.toList ++ (behind ++ loop.items.toList)))
  itemWords : words loop.item.toList = (words text).take n
  itemsWords : words loop.items.toList = (words text).drop (n + 1)
  itemEnds : ∀ c, loop.item.toList.getLast? = some c → isBlank c = false
  itemsStart : ∀ c, loop.items.toList.head? = some c → isBlank c = false

theorem keywordPlain (keyword : LoopKeyword) :
    keyword.word.toList ≠ [] ∧ ∀ c ∈ keyword.word.toList, isBlank c = false := by
  have plain : keyword.word.toList.all (fun c => !isBlank c) = true := by cases keyword <;> decide
  refine ⟨by cases keyword <;> decide, ?_⟩
  intro c member
  simpa using List.all_eq_true.mp plain c member

theorem dividesWords {before behind : List Char} (divides : Divides text before keyword behind items)
    (item : List Char) : words (item ++ text) = words item ++ keyword.word.toList :: words items := by
  obtain ⟨signs, plain⟩ := keywordPlain keyword
  rw [divides.split, wordsApart divides.before.signs divides.before.blank, wordsThen signs plain,
    wordsBlanks divides.behind.blank]
  intro c head
  have blank := gapHead divides.behind items
  rw [head] at blank
  exact blank

theorem keywordDivides {n : Nat} (stands : KeywordAt (words text) n) :
    ∃ item rest keyword items before behind, text = item ++ rest ∧ item ≠ [] ∧
      Divides rest before keyword behind items ∧ words item = (words text).take n := by
  obtain ⟨⟨positive, bound⟩, keyword⟩ := stands
  obtain ⟨word, got⟩ : ∃ word : LoopKeyword, (words text)[n]? = some word.word.toList := by
    rcases keyword with got | got
    · exact ⟨.inWord, got⟩
    · exact ⟨.ofWord, got⟩
  have parts : words text = (words text).take n ++ word.word.toList :: (words text).drop (n + 1) := by
    obtain ⟨_, here⟩ := List.getElem?_eq_some_iff.mp got
    rw [← here, List.getElem_cons_drop, List.take_append_drop]
  obtain ⟨before, after, split, left, right, _, _, last, head⟩ := wordsAt parts
  have namedBefore : words before ≠ [] := by
    intro none
    have length := congrArg List.length (left.symm.trans none)
    rw [List.length_take, List.length_nil] at length
    omega
  have namedAfter : words after ≠ [] := by
    intro none
    have length := congrArg List.length (right.symm.trans none)
    rw [List.length_drop, List.length_nil] at length
    omega
  obtain ⟨gap, item, blanks⟩ := gapBehind namedBefore last
  obtain ⟨lead, items, blanksAfter, collection⟩ := gapBefore namedAfter head
  have itemWords : words (trimEnd before) = words before := by
    have whole := wordsApart blanks.signs blanks.blank (trimEnd before) []
    rw [List.append_nil, ← item] at whole
    exact (whole.trans (List.append_nil _)).symm
  refine ⟨trimEnd before, gap ++ (word.word.toList ++ (lead ++ trimStart after)), word, trimStart after, gap, lead,
    ?_, ?_, ⟨rfl, blanks, blanksAfter, collection, ?_⟩, itemWords.trans left⟩
  · rw [← items, ← List.append_assoc, ← item]
    exact split
  · intro none
    rw [none] at itemWords
    exact namedBefore itemWords.symm
  · exact fun c => trimStartHead

theorem foundDivides (visible : ∀ c, text.head? = some c → isBlank c = false)
    (found : split? text = some (item, keyword, items)) :
    KeywordAt (words text) (words item).length ∧
      DividesAt text (words item).length ⟨keyword, String.ofList item, String.ofList items⟩ := by
  obtain ⟨rest, split, signs, here, earlier⟩ := splitParts found
  obtain ⟨before, behind, divides⟩ := collectionDivides here
  have listed := dividesWords divides item
  rw [← split] at listed
  have itemStarts : ∀ c, item.head? = some c → isBlank c = false := by
    intro c head
    refine visible c ?_
    rw [split, List.head?_append, head]
    rfl
  have named := List.length_pos_iff.mpr (wordsSome signs itemStarts)
  have namedBehind := List.length_pos_iff.mpr (wordsSome divides.collection divides.starts)
  have word : (words text)[(words item).length]? = some keyword.word.toList := by
    rw [listed, List.getElem?_append_right (Nat.le_refl _), Nat.sub_self]
    rfl
  refine ⟨⟨⟨named, ?_⟩, ?_⟩, ?_⟩
  · rw [listed, List.length_append, List.length_cons]
    omega
  · rw [word]
    cases keyword
    · exact Or.inl rfl
    · exact Or.inr rfl
  · refine ⟨word, ⟨before, behind, divides.before, divides.behind, ?_⟩, ?_, ?_, ?_, ?_⟩
    · rw [String.toList_ofList, String.toList_ofList, ← divides.split, ← split]
    · rw [String.toList_ofList, listed, List.take_left]
    · rw [String.toList_ofList, listed, ← List.drop_drop, List.drop_left]
      rfl
    · -- a blank at its end would have been left to the gap, for a shorter item
      intro c last
      rw [String.toList_ofList] at last
      obtain ⟨start, ending⟩ := List.getLast?_eq_some_iff.mp last
      refine Bool.eq_false_iff.mpr fun blank => ?_
      by_cases alone : start = []
      · rw [ending, alone] at itemStarts
        rw [itemStarts c rfl] at blank
        contradiction
      · have none := earlier start [c] ending alone (List.cons_ne_nil c [])
        have longer : Gap (c :: before) := by
          refine ⟨List.cons_ne_nil c before, fun d member => ?_⟩
          rcases List.mem_cons.mp member with rfl | inside
          · exact blank
          · exact divides.before.blank d inside
        have again : Divides (c :: rest) (c :: before) keyword behind items :=
          ⟨congrArg (List.cons c) divides.split, longer, divides.behind, divides.collection, divides.starts⟩
        rw [List.cons_append, List.nil_append, collectionExact again] at none
        contradiction
    · rw [String.toList_ofList]
      exact divides.starts

theorem foundBy {n : Nat} (stands : KeywordAt (words text) n) :
    ∃ item keyword items, split? text = some (item, keyword, items) ∧ (words item).length ≤ n := by
  obtain ⟨longer, rest, keyword, items, before, behind, split, signs, divides, named⟩ := keywordDivides stands
  have bound := stands.inside.2
  have length : (words longer).length = n := by
    rw [named, List.length_take]
    omega
  obtain ⟨first, more, rfl⟩ := List.exists_cons_of_ne_nil signs
  obtain ⟨item, ⟨word, collection⟩, found, shorter⟩ := splitFinds (collectionExact divides) first more
  rw [← split] at found
  refine ⟨item, word, collection, found, ?_⟩
  obtain ⟨tail, again, _, here, _⟩ := splitParts found
  rcases List.append_eq_append_iff.mp (again.symm.trans split) with ⟨between, whole, left⟩ | ⟨between, whole, left⟩
  · -- what is found ends before a blank
    cases between with
    | nil =>
      rw [List.append_nil] at whole
      exact Nat.le_of_eq (by rw [← length, whole])
    | cons c between =>
      have blank := collectionBlank here
      rw [left] at blank
      have sign : isBlank c = true := blank
      rw [← length, whole, wordsBlank sign, List.length_append]
      omega
  · have none : between = [] := by
      have long := congrArg List.length whole
      rw [List.length_append] at long
      exact List.eq_nil_of_length_eq_zero (by omega)
    rw [none, List.append_nil] at whole
    exact Nat.le_of_eq (by rw [whole, length])

/- Neither part of a loop is empty, or has blanks around it: to trim or to examine them again would change nothing. -/
theorem partsTrimmed {expression : String} {loop : Loop} (parsed : parse? expression = some loop) :
    (loop.item ≠ "" ∧ trim loop.item.toList = loop.item.toList) ∧
      loop.items ≠ "" ∧ trim loop.items.toList = loop.items.toList := by
  obtain ⟨⟨item, keyword, items⟩, found, rfl⟩ := Option.map_eq_some_iff.mp parsed
  obtain ⟨rest, split, signs, here, _⟩ := splitParts found
  obtain ⟨before, behind, divides⟩ := collectionDivides here
  have itemEnds := (foundDivides (fun _ => trimHead) found).2.itemEnds
  have itemStarts : ∀ c, item.head? = some c → isBlank c = false := by
    intro c head
    have leads : (trim expression.toList).head? = some c := by
      rw [split, List.head?_append, head]
      rfl
    exact trimHead leads
  have itemsEnd : ∀ c, items.getLast? = some c → isBlank c = false := by
    intro c last
    have ends : (trim expression.toList).getLast? = some c := by
      rw [split, divides.split]
      simp [List.getLast?_append, last]
    exact trimEndLast ends
  rw [String.toList_ofList] at itemEnds
  have named (cs : List Char) (more : cs ≠ []) : String.ofList cs ≠ "" := fun empty => more (String.ofList_injective empty)
  refine ⟨⟨named item signs, ?_⟩, named items divides.collection, ?_⟩
  · rw [String.toList_ofList]
    exact trimExact itemStarts itemEnds
  · rw [String.toList_ofList]
    exact trimExact divides.starts itemsEnd

end Loop

/-
A loop expression is one if a keyword stands among its words, neither first nor last; and the first such
keyword divides it. What is on either side is taken as written, without the blanks around the keyword.
-/
theorem loopAtFirstKeyword (expression : String) :
    ((Loop.parse? expression).isSome = true ↔
      ∃ n, Loop.KeywordAt (Text.words (Text.trim expression.toList)) n) ∧
    ∀ n, Loop.KeywordAt (Text.words (Text.trim expression.toList)) n →
      (∀ m < n, ¬ Loop.KeywordAt (Text.words (Text.trim expression.toList)) m) →
        ∃ loop, Loop.parse? expression = some loop ∧ Loop.DividesAt (Text.trim expression.toList) n loop := by
  have visible : ∀ c, (Text.trim expression.toList).head? = some c → Text.isBlank c = false := fun _ => Text.trimHead
  refine ⟨⟨?_, ?_⟩, ?_⟩
  · intro parsed
    obtain ⟨loop, parsed⟩ := Option.isSome_iff_exists.mp parsed
    obtain ⟨⟨item, keyword, items⟩, found, _⟩ := Option.map_eq_some_iff.mp parsed
    exact ⟨_, (Loop.foundDivides visible found).1⟩
  · rintro ⟨n, stands⟩
    obtain ⟨item, keyword, items, found, _⟩ := Loop.foundBy stands
    rw [Loop.parse?, found]
    rfl
  · intro n stands first
    obtain ⟨item, keyword, items, found, early⟩ := Loop.foundBy stands
    obtain ⟨here, divides⟩ := Loop.foundDivides visible found
    rcases Nat.lt_or_eq_of_le early with earlier | same
    · exact absurd here (first _ earlier)
    · rw [same] at divides
      exact ⟨_, by rw [Loop.parse?, found]; rfl, divides⟩

def manyKeywords : String := " in of\t of  in x "

theorem loopOfSecondKeyword :
    Loop.KeywordAt (Text.words (Text.trim manyKeywords.toList)) 1 ∧
    ∃ loop, Loop.parse? manyKeywords = some loop ∧ loop.item = "in" ∧ loop.keyword = .ofWord ∧
      loop.items = "of  in x" ∧ Loop.DividesAt (Text.trim manyKeywords.toList) 1 loop := by
  have stands : Loop.KeywordAt (Text.words (Text.trim manyKeywords.toList)) 1 := by decide +kernel
  have first : ∀ m < 1, ¬ Loop.KeywordAt (Text.words (Text.trim manyKeywords.toList)) m := by decide +kernel
  obtain ⟨loop, parsed, divides⟩ := (loopAtFirstKeyword manyKeywords).2 1 stands first
  have read : Loop.parse? manyKeywords = some ⟨.ofWord, "in", "of  in x"⟩ := by decide +kernel
  cases read.symm.trans parsed
  exact ⟨stands, _, read, rfl, rfl, rfl, divides⟩

end Templating
