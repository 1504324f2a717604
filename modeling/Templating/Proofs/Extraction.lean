import Templating.Directive.Interpolation
import Templating.Proofs.Spacing

/-!
The interpolations of a text. A text is gaps and interpolations by turns: no interpolation holds a delimiter,
and no gap an opening one with a closing one behind it. What is filed is each expression where it occurs
first, with the token that it is written in last.
-/
namespace Templating

namespace Text
variable {needle cs before after : List Char}

theorem trimEmpty : trim cs = [] ↔ ∀ c ∈ cs, isBlank c = true := by
  constructor
  · intro empty
    obtain ⟨lead, blank, split⟩ := blankAppendTrimStart cs
    have rest := trimEndEmpty empty
    intro c member
    rw [split] at member
    exact (List.mem_append.mp member).elim (blank c) (rest c)
  · intro blank
    have none := trimBlanksBehind blank []
    rwa [List.nil_append] at none

theorem splitFirstNone (absent : splitFirst needle cs = none) : ¬ needle <:+: cs := by
  rw [← occursInInfix]
  induction cs with
  | nil =>
    cases needle with
    | nil => contradiction
    | cons => exact Bool.false_ne_true
  | cons c r ih =>
    simp only [splitFirst] at absent
    split at absent
    · contradiction
    · rename_i here
      rw [occursIn, here, Bool.or_eq_true]
      rintro (found | later)
      · contradiction
      · exact ih (Option.map_eq_none_iff.mp absent) later

theorem splitFirstLeast {lead rest : List Char} (found : splitFirst needle cs = some (before, after))
    (split : cs = lead ++ (needle ++ rest)) : ∃ more, lead = before ++ more := by
  induction cs generalizing before lead with
  | nil =>
    obtain ⟨_, _, same⟩ := Option.map_eq_some_iff.mp found
    cases same
    exact ⟨lead, rfl⟩
  | cons c r ih =>
    simp only [splitFirst] at found
    split at found
    · cases found
      exact ⟨lead, rfl⟩
    · rename_i absent
      obtain ⟨⟨start, tail⟩, later, same⟩ := Option.map_eq_some_iff.mp found
      cases same
      cases lead with
      | nil =>
        rw [split, List.nil_append, stripAppend] at absent
        contradiction
      | cons d lead =>
        obtain ⟨rfl, inside⟩ := List.cons.inj split
        obtain ⟨more, rfl⟩ := ih later inside
        exact ⟨more, rfl⟩

theorem splitLastNone (absent : splitLast needle cs = none) : ¬ needle <:+: cs := by
  rw [← occursInInfix]
  induction cs with
  | nil =>
    cases needle with
    | nil => contradiction
    | cons => exact Bool.false_ne_true
  | cons c r ih =>
    simp only [splitLast] at absent
    split at absent
    · contradiction
    · rename_i none
      rw [occursIn, Option.map_eq_none_iff.mp absent, Bool.or_eq_true]
      rintro (found | later)
      · contradiction
      · exact ih none later

theorem splitLastBehind (signs : needle ≠ []) (found : splitLast needle cs = some (before, after)) :
    ¬ needle <:+: after := by
  induction cs generalizing before with
  | nil =>
    obtain ⟨tail, stripped, same⟩ := Option.map_eq_some_iff.mp found
    cases same
    have empty := stripIff.mp stripped
    exact absurd (List.append_eq_nil_iff.mp empty.symm).1 signs
  | cons c r ih =>
    simp only [splitLast] at found
    split at found
    · rename_i sides later
      cases found
      exact ih later
    · rename_i none
      obtain ⟨tail, stripped, same⟩ := Option.map_eq_some_iff.mp found
      cases same
      have split := stripIff.mp stripped
      cases needle with
      | nil => contradiction
      | cons d needle =>
        have inside : r = needle ++ after := (List.cons.inj split).2
        rw [inside] at none
        exact fun again => splitLastNone none (again.trans (List.suffix_append needle after).isInfix)

theorem splitFirstApart (signs : needle ≠ []) (apart : ∀ c ∈ before, c ∉ needle) (after : List Char) :
    splitFirst needle (before ++ (needle ++ after)) = some (before, after) := by
  induction before with
  | nil =>
    cases needle with
    | nil => contradiction
    | cons d needle =>
      have here := stripAppend (d :: needle) after
      rw [List.cons_append] at here
      rw [List.nil_append, List.cons_append, splitFirst, here]
  | cons c before ih =>
    have rest := ih fun x member => apart x (List.mem_cons_of_mem c member)
    cases needle with
    | nil => contradiction
    | cons d needle =>
      have differs : d ≠ c := fun same => apart c List.mem_cons_self (same ▸ List.mem_cons_self)
      rw [List.cons_append, splitFirst, strip, if_neg differs, rest]
      rfl

theorem infixApart (signs : needle ≠ []) (apart : ∀ c ∈ cs, c ∉ needle) : ¬ needle <:+: cs := by
  intro inside
  cases needle with
  | nil => contradiction
  | cons d needle => exact apart d (inside.subset List.mem_cons_self) List.mem_cons_self

end Text

namespace Interpolation
open Text
variable {opening closing text : List Char}

structure Part where
  body : List Char
  gap : List Char
  deriving DecidableEq, Repr

def written (opening closing first : List Char) (parts : List Part) : List Char :=
  first ++ parts.flatMap fun part => opening ++ (part.body ++ (closing ++ part.gap))

/- An opening delimiter with a closing one behind it. -/
def Encloses (opening closing text : List Char) : Prop :=
  ∃ before between after, text = before ++ (opening ++ (between ++ (closing ++ after)))

structure Divided (opening closing text first : List Char) (parts : List Part) : Prop where
  whole : text = written opening closing first parts
  plain : ∀ part ∈ parts, ¬ opening <:+: part.body ∧ ¬ closing <:+: part.body
  quiet : ∀ gap ∈ first :: parts.map Part.gap, ¬ Encloses opening closing gap

theorem writtenNext (opening closing first : List Char) (part : Part) (parts : List Part) :
    written opening closing first (part :: parts) =
      first ++ (opening ++ (part.body ++ (closing ++ written opening closing part.gap parts))) := by
  simp [written]

theorem bodiesNone (signs : opening ≠ []) (absent : splitFirst opening text = none) :
    bodies opening closing signs text = [] := by
  rw [bodies]
  split
  · rfl
  · rename_i found
    rw [absent] at found
    contradiction

theorem bodiesNext (signs : opening ≠ []) {before inside whole after : List Char}
    (opened : splitFirst opening text = some (before, inside)) (closed : splitFirst closing inside = some (whole, after)) :
    bodies opening closing signs text =
      ((Text.splitLast opening whole).map Prod.snd).getD whole :: bodies opening closing signs after := by
  rw [bodies]
  split
  · rename_i found
    rw [opened] at found
    contradiction
  · rename_i found
    cases opened.symm.trans found
    split
    · rename_i found
      rw [closed] at found
      contradiction
    · rename_i found
      cases closed.symm.trans found
      cases Text.splitLast opening whole <;> rfl

theorem closesBehind {before inside lead between after : List Char}
    (least : ∃ more, lead = before ++ more)
    (same : before ++ (opening ++ inside) = lead ++ (opening ++ (between ++ (closing ++ after)))) :
    closing <:+: inside := by
  obtain ⟨more, rfl⟩ := least
  rw [List.append_assoc] at same
  have behind := List.append_cancel_left same
  have parted : (more ++ opening) ++ (between ++ (closing ++ after)) = opening ++ inside := by
    rw [List.append_assoc, behind]
  obtain ⟨rest, _, rfl⟩ := splitWithin parted (by rw [byteLengthAppend]; omega)
  exact ⟨rest ++ between, after, by simp⟩

theorem innermost (signs : opening ≠ []) (whole : List Char) :
    ∃ lead body, ((Text.splitLast opening whole).map Prod.snd).getD whole = body ∧ ¬ opening <:+: body ∧ body <:+: whole ∧
      opening ++ whole = lead ++ (opening ++ body) ∧ (lead = [] ∨ ∃ inner, lead = opening ++ inner ∧ inner <:+: whole) := by
  cases found : Text.splitLast opening whole with
  | none => exact ⟨[], whole, rfl, splitLastNone found, List.infix_refl whole, rfl, Or.inl rfl⟩
  | some sides =>
    obtain ⟨inner, body⟩ := sides
    have split : whole = inner ++ (opening ++ body) := splitLastSides found
    refine ⟨opening ++ inner, body, rfl, splitLastBehind signs found, ?_, ?_, Or.inr ⟨inner, rfl, ?_⟩⟩
    · exact ⟨inner ++ opening, [], by rw [split, List.append_nil, List.append_assoc]⟩
    · rw [split, List.append_assoc]
    · exact ⟨[], opening ++ body, by rw [split, List.nil_append]⟩

theorem gapQuiet {before inside whole after body lead : List Char} (signs : opening ≠ []) (ends : closing ≠ [])
    (opened : splitFirst opening text = some (before, inside)) (closed : splitFirst closing inside = some (whole, after))
    (split : opening ++ whole = lead ++ (opening ++ body))
    (outer : lead = [] ∨ ∃ inner, lead = opening ++ inner ∧ inner <:+: whole) :
    ¬ Encloses opening closing (before ++ lead) := by
  rintro ⟨start, between, rest, encloses⟩
  rcases outer with rfl | ⟨inner, rfl, inside⟩
  · rw [List.append_nil] at encloses
    have absent := splitFirstBefore signs opened
    rw [occursInIff.mpr ⟨start, _, encloses⟩] at absent
    contradiction
  · have cut : text = start ++ (opening ++ (between ++ (closing ++ rest) ++ (opening ++ (body ++ (closing ++ after))))) := by
      have joined : text = (before ++ (opening ++ inner)) ++ (opening ++ (body ++ (closing ++ after))) := by
        rw [splitFirstSides opened, splitFirstSides closed, ← List.append_assoc opening, split]
        simp only [List.append_assoc]
      rw [joined, encloses]
      simp only [List.append_assoc]
    have behind := closesBehind (splitFirstLeast opened cut) encloses
    have absent := splitFirstBefore ends closed
    rw [occursInInfix.mpr (behind.trans inside)] at absent
    contradiction

theorem bodiesDivide (signs : opening ≠ []) (ends : closing ≠ []) (text : List Char) :
    ∃ first parts, Divided opening closing text first parts ∧
      parts.map Part.body = bodies opening closing signs text := by
  have undivided {text : List Char} (quiet : ¬ Encloses opening closing text) : Divided opening closing text text [] := by
    refine ⟨(List.append_nil text).symm, fun part none => by contradiction, ?_⟩
    intro gap member
    rw [List.mem_singleton.mp member]
    exact quiet
  fun_induction bodies opening closing signs text with
  | case1 text absent =>
    refine ⟨text, [], undivided ?_, rfl⟩
    rintro ⟨before, between, after, split⟩
    exact splitFirstNone absent ⟨before, between ++ (closing ++ after), by rw [split, List.append_assoc]⟩
  | case2 text before inside opened unclosed =>
    refine ⟨text, [], undivided ?_, rfl⟩
    rintro ⟨lead, between, after, split⟩
    exact splitFirstNone unclosed (closesBehind (splitFirstLeast opened split) ((splitFirstSides opened).symm.trans split))
  | case3 text before inside opened whole after closed body ih =>
    obtain ⟨lead, inner, same, plain, within, split, outer⟩ := innermost signs whole
    have here : body = inner := by
      rw [← same]
      unfold body
      cases Text.splitLast opening whole <;> rfl
    obtain ⟨first, parts, divided, bodies⟩ := ih
    refine ⟨before ++ lead, ⟨inner, first⟩ :: parts, ⟨?_, ?_, ?_⟩, by rw [List.map_cons, bodies, here]⟩
    · rw [writtenNext, ← divided.whole, splitFirstSides opened, splitFirstSides closed, ← List.append_assoc opening, split]
      simp only [List.append_assoc]
    · intro part member
      rcases List.mem_cons.mp member with rfl | later
      · refine ⟨plain, fun found => ?_⟩
        have absent := splitFirstBefore ends closed
        rw [occursInInfix.mpr (found.trans within)] at absent
        contradiction
      · exact divided.plain part later
    · intro gap member
      rcases List.mem_cons.mp member with rfl | later
      · exact gapQuiet signs ends opened closed split outer
      · exact divided.quiet gap later

theorem bodiesWritten (signs : opening ≠ []) (ends : closing ≠ []) {first : List Char} {parts : List Part}
    (apart : ∀ c ∈ first ++ parts.flatMap fun part => part.body ++ part.gap, c ∉ opening ∧ c ∉ closing) :
    bodies opening closing signs (written opening closing first parts) = parts.map Part.body := by
  induction parts generalizing first with
  | nil =>
    simp only [List.flatMap_nil, List.append_nil] at apart
    have absent : splitFirst opening first = none := by
      cases found : splitFirst opening first with
      | none => rfl
      | some sides =>
        exact absurd ⟨sides.1, sides.2, by rw [List.append_assoc, ← splitFirstSides found]⟩
          (infixApart signs fun c member => (apart c member).1)
    rw [written, List.flatMap_nil, List.append_nil, bodiesNone signs absent, List.map_nil]
  | cons part parts ih =>
    simp only [List.flatMap_cons, List.mem_append, List.mem_flatMap] at apart ih
    have opened := splitFirstApart signs (fun c member => (apart c (Or.inl member)).1)
      (part.body ++ (closing ++ written opening closing part.gap parts))
    have closed := splitFirstApart ends (fun c member => (apart c (Or.inr (Or.inl (Or.inl member)))).2)
      (written opening closing part.gap parts)
    have plain : Text.splitLast opening part.body = none := by
      cases found : Text.splitLast opening part.body with
      | none => rfl
      | some sides =>
        exact absurd ⟨sides.1, sides.2, by rw [List.append_assoc, ← splitLastSides found]⟩
          (infixApart signs fun c member => (apart c (Or.inr (Or.inl (Or.inl member)))).1)
    have later := @ih part.gap fun c member => apart c <| member.elim (fun gap => Or.inr (Or.inl (Or.inr gap)))
      fun further => Or.inr (Or.inr further)
    rw [writtenNext, bodiesNext signs opened closed, plain, later, List.map_cons]
    rfl

def expression? (body : List Char) : Option String := if trim body = [] then none else some (String.ofList (trim body))

/- What is filed of the interpolations with these bodies. -/
structure Filed (delimiters : Delimiters) (bodies : List (List Char)) (found : Option (Table Interpolation)) : Prop where
  none : found = none ↔ ∀ body ∈ bodies, ∀ c ∈ body, isBlank c = true
  names : ∀ table, found = some table → table.names = (bodies.filterMap expression?).eraseDups
  last : ∀ table, found = some table → ∀ before body after name, bodies = before ++ body :: after →
    expression? body = some name → (∀ later ∈ after, expression? later ≠ some name) →
    table.find? name = some ⟨delimiters.opening ++ String.ofList body ++ delimiters.closing, Option.none⟩

def filing? (opening closing body : List Char) : Option (String × Interpolation) :=
  (expression? body).map fun name => (name, ⟨String.ofList (opening ++ (body ++ closing)), none⟩)

theorem expressionNone {body : List Char} : expression? body = none ↔ ∀ c ∈ body, isBlank c = true := by
  rw [← trimEmpty, expression?]
  split <;> simp [*]

theorem collectEntries (opening closing : List Char) (found : List (List Char)) (table : Table Interpolation) :
    found.foldl (collect opening closing) table = table.insertAll (found.filterMap (filing? opening closing)) := by
  induction found generalizing table with
  | nil => rfl
  | cons body rest ih =>
    rw [List.foldl_cons, ih, collect, List.filterMap_cons, filing?, expression?]
    split <;> rfl

theorem entryNames (opening closing : List Char) (found : List (List Char)) :
    (found.filterMap (filing? opening closing)).map Prod.fst = found.filterMap expression? := by
  rw [List.map_filterMap]
  refine congrArg (List.filterMap · found) (funext fun body => ?_)
  unfold filing?
  cases expression? body <;> rfl

theorem noExpressions (found : List (List Char)) :
    (found.filterMap expression?).eraseDups = [] ↔ ∀ body ∈ found, ∀ c ∈ body, isBlank c = true := by
  have empty (names : List String) : names.eraseDups = [] ↔ names = [] := by
    cases names with
    | nil => exact iff_of_true rfl rfl
    | cons name names => simp [List.eraseDups_cons]
  rw [empty, List.filterMap_eq_nil_iff]
  exact forall₂_congr fun body _ => expressionNone

theorem findEntry {opening closing body : List Char} {before after : List (List Char)} {name : String}
    (named : expression? body = some name) (last : ∀ later ∈ after, expression? later ≠ some name) :
    (Table.ofList ((before ++ body :: after).filterMap (filing? opening closing))).find? name =
      some ⟨String.ofList (opening ++ (body ++ closing)), none⟩ := by
  have entry : filing? opening closing body = some (name, ⟨String.ofList (opening ++ (body ++ closing)), none⟩) := by
    rw [filing?, named]
    rfl
  rw [Table.ofList, List.filterMap_append, List.filterMap_cons, entry]
  refine Table.findInsertLast _ ?_ _
  rw [entryNames, List.mem_filterMap]
  rintro ⟨later, member, again⟩
  exact last later member again

theorem extractFiles {delimiters : Delimiters} (signs : delimiters.opening.toList ≠ []) (ends : delimiters.closing.toList ≠ [])
    (text : String) : Filed delimiters (bodies delimiters.opening.toList delimiters.closing.toList signs text.toList)
      (extract delimiters text) := by
  have collected := collectEntries delimiters.opening.toList delimiters.closing.toList
    (bodies delimiters.opening.toList delimiters.closing.toList signs text.toList) Table.empty
  rw [extract, dif_pos signs, if_neg ends, collected, ← Table.ofList]
  dsimp only
  generalize bodies delimiters.opening.toList delimiters.closing.toList signs text.toList = found
  have names := Table.namesOfList (found.filterMap (filing? delimiters.opening.toList delimiters.closing.toList))
  rw [entryNames] at names
  have empty (table : Table Interpolation) : table.isEmpty = true ↔ table.names = [] := by
    rw [Table.isEmpty, Table.names, List.isEmpty_iff, List.map_eq_nil_iff]
  refine ⟨?_, ?_, ?_⟩
  · rw [← noExpressions, ← names, ← empty]
    simp
  · intro table filed
    split at filed
    · contradiction
    · cases filed
      exact names
  · intro table filed before body after name split named last
    split at filed
    · contradiction
    · cases filed
      rw [split, findEntry named last]
      simp [String.ofList_append, String.append_assoc]

end Interpolation

/-
Every text is divided by its interpolations into gaps and bodies: the bodies hold no delimiter, the gaps
enclose nothing more, and what is extracted is what is filed of the bodies.
-/
theorem interpolationsDivide {delimiters : Delimiters} (opening : delimiters.opening ≠ "") (closing : delimiters.closing ≠ "")
    (text : String) : ∃ first parts,
      Interpolation.Divided delimiters.opening.toList delimiters.closing.toList text.toList first parts ∧
      Interpolation.Filed delimiters (parts.map Interpolation.Part.body) (Interpolation.extract delimiters text) := by
  have signs : delimiters.opening.toList ≠ [] := by simpa using opening
  have ends : delimiters.closing.toList ≠ [] := by simpa using closing
  obtain ⟨first, parts, divided, bodies⟩ := Interpolation.bodiesDivide signs ends text.toList
  refine ⟨first, parts, divided, ?_⟩
  rw [bodies]
  exact Interpolation.extractFiles signs ends text

def brackets : Delimiters := ⟨"[[", "]]"⟩

def bracketedText : String := "[[ a [[b]]]] [[ ]] [[b ]] [["

theorem laterTokenFiled :
    brackets.opening ≠ "" ∧ brackets.closing ≠ "" ∧
    (Interpolation.extract brackets bracketedText).map Table.entries = some [("b", ⟨"[[b ]]", none⟩)] ∧
    ∃ first parts,
      Interpolation.Divided brackets.opening.toList brackets.closing.toList bracketedText.toList first parts ∧
      Interpolation.Filed brackets (parts.map Interpolation.Part.body) (Interpolation.extract brackets bracketedText) :=
  ⟨by decide, by decide, by decide +kernel, interpolationsDivide (by decide) (by decide) bracketedText⟩

/-
What is written with interpolations is extracted again, as long as the gaps and bodies have no sign in
common with the delimiters.
-/
theorem interpolationsReadBack {delimiters : Delimiters} (opening : delimiters.opening ≠ "")
    (closing : delimiters.closing ≠ "") (first : List Char) (parts : List Interpolation.Part)
    (apart : ∀ c ∈ first ++ parts.flatMap fun part => part.body ++ part.gap,
      c ∉ delimiters.opening.toList ∧ c ∉ delimiters.closing.toList) :
    Interpolation.Filed delimiters (parts.map Interpolation.Part.body) (Interpolation.extract delimiters
      (String.ofList (Interpolation.written delimiters.opening.toList delimiters.closing.toList first parts))) := by
  have signs : delimiters.opening.toList ≠ [] := by simpa using opening
  have ends : delimiters.closing.toList ≠ [] := by simpa using closing
  have filed := Interpolation.extractFiles signs ends
    (String.ofList (Interpolation.written delimiters.opening.toList delimiters.closing.toList first parts))
  rwa [String.toList_ofList, Interpolation.bodiesWritten signs ends apart] at filed

def sharedSigns : Delimiters := ⟨"%a", "a%"⟩

def sharedParts : List Interpolation.Part := [⟨" n ".toList, []⟩, ⟨"n".toList, []⟩, ⟨" ".toList, "y".toList⟩]

theorem sharedSignsReadBack :
    sharedSigns.opening ≠ "" ∧ sharedSigns.closing ≠ "" ∧
    (∀ c ∈ "x ".toList ++ sharedParts.flatMap fun part => part.body ++ part.gap,
      c ∉ sharedSigns.opening.toList ∧ c ∉ sharedSigns.closing.toList) ∧
    (Interpolation.extract sharedSigns "x %a n a%%ana%%a a%y").map Table.entries = some [("n", ⟨"%ana%", none⟩)] ∧
    Interpolation.Filed sharedSigns (sharedParts.map Interpolation.Part.body)
      (Interpolation.extract sharedSigns "x %a n a%%ana%%a a%y") := by
  have apart : ∀ c ∈ "x ".toList ++ sharedParts.flatMap fun part => part.body ++ part.gap,
      c ∉ sharedSigns.opening.toList ∧ c ∉ sharedSigns.closing.toList := by
    simp [sharedParts, sharedSigns]
  exact ⟨by decide, by decide, apart, by decide +kernel,
    interpolationsReadBack (by decide) (by decide) "x ".toList sharedParts apart⟩

end Templating
