import Templating.Directive.BindingName
import Templating.Proofs.Recognition

/-!
How names of bindings are spelled. Written out in the long form a name reads back as it was, if and only
if no part of it is empty or holds a sign that ends it. The short forms are read as the long forms they
stand for, and a name is none of a binding unless it begins in one of these ways.
-/
namespace Templating
namespace BindingName

def longForm (b : BindingName) : String :=
  "v-" ++ b.name ++ (b.arg.map (":" ++ ·)).getD "" ++ String.join (b.modifiers.map ("." ++ ·))

def OnePart (part : String) : Prop := part ≠ "" ∧ '.' ∉ part.toList

/-- No part is empty, and none holds a sign that would end it. -/
structure Plain (b : BindingName) : Prop where
  name : b.name ≠ "" ∧ ∀ c ∈ b.name.toList, c ≠ ':' ∧ c ≠ '.'
  arg : ∀ arg, b.arg = some arg → OnePart arg
  modifiers : ∀ modifier ∈ b.modifiers, OnePart modifier

def dotted (parts : List (List Char)) : List Char := parts.flatMap ('.' :: ·)

theorem dottedIntercalate (first : List Char) (parts : List (List Char)) :
    first ++ dotted parts = ['.'].intercalate (first :: parts) := by
  induction parts generalizing first with
  | nil => simp [dotted]
  | cons part parts ih =>
    rw [List.intercalate_cons_cons, ← ih part]
    simp [dotted]

theorem dottedRead {parts : List (List Char)} (apart : ∀ part ∈ parts, '.' ∉ part) :
    (dotted parts).splitOn '.' = [] :: parts := by
  have whole := dottedIntercalate [] parts
  rw [List.nil_append] at whole
  rw [whole]
  apply List.splitOn_intercalate
  · simpa using apart
  · simp

theorem dottedHead {parts : List (List Char)} {c : Char} (head : (dotted parts).head? = some c) : c = '.' := by
  cases parts with
  | nil => simp [dotted] at head
  | cons part parts => simpa [dotted] using head.symm

theorem partsApart (text : List Char) : ∀ part ∈ text.splitOn '.', '.' ∉ part := by
  induction text with
  | nil => simp [List.splitOn]
  | cons c text ih =>
    rw [List.splitOn_cons_eq_if_modifyHead]
    split
    · simpa using ih
    · rename_i other
      have differs : '.' ≠ c := fun same => other (beq_iff_eq.mpr same.symm)
      cases parts : text.splitOn '.' with
      | nil => simp
      | cons first rest =>
        rw [parts, List.forall_mem_cons] at ih
        rw [List.modifyHead_cons, List.forall_mem_cons]
        exact ⟨by simp [differs, ih.1], ih.2⟩

theorem modifiersRead {modifiers : List String} (plain : ∀ modifier ∈ modifiers, OnePart modifier) :
    modifiersOf (dotted (modifiers.map String.toList)) = modifiers := by
  have apart : ∀ part ∈ modifiers.map String.toList, '.' ∉ part := by
    intro part member
    obtain ⟨modifier, listed, rfl⟩ := List.mem_map.mp member
    exact (plain modifier listed).2
  have some : (modifiers.map String.toList).filter (· ≠ []) = modifiers.map String.toList := by
    apply List.filter_eq_self.mpr
    intro part member
    obtain ⟨modifier, listed, rfl⟩ := List.mem_map.mp member
    simpa using (plain modifier listed).1
  unfold modifiersOf
  rw [dottedRead apart, List.filter_cons_of_neg (by simp), some, List.map_map]
  simp

theorem modifiersPlain (tail : List Char) : ∀ modifier ∈ modifiersOf tail, OnePart modifier := by
  intro modifier member
  obtain ⟨part, listed, rfl⟩ := List.mem_map.mp member
  obtain ⟨inside, some⟩ := List.mem_filter.mp listed
  refine ⟨?_, ?_⟩
  · simpa using some
  · rw [String.toList_ofList]
    exact partsApart tail part inside

theorem withArgumentRead {name : List Char} {arg : String} {modifiers : List String}
    (plain : OnePart arg) (further : ∀ modifier ∈ modifiers, OnePart modifier) :
    withArgument name (arg.toList ++ dotted (modifiers.map String.toList)) = ⟨String.ofList name, some arg, modifiers⟩ := by
  have inside : ∀ c ∈ arg.toList, decide (c ≠ '.') = true := by
    intro c member
    have differs : c ≠ '.' := fun same => plain.2 (same ▸ member)
    simpa using differs
  have stops : ∀ c, (dotted (modifiers.map String.toList)).head? = some c → decide (c ≠ '.') = false := by
    intro c head
    simp [dottedHead head]
  unfold withArgument
  rw [Text.takeWhileExact inside stops, Text.dropWhileExact inside stops, modifiersRead further]
  simp [plain.1]

theorem withArgumentPlain {name : List Char} (tail : List Char) (some : name ≠ []) (apart : ∀ c ∈ name, c ≠ ':' ∧ c ≠ '.') :
    (withArgument name tail).Plain := by
  refine ⟨⟨?_, ?_⟩, ?_, modifiersPlain _⟩
  · simpa [withArgument] using some
  · simpa [withArgument] using apart
  · intro arg written
    simp only [withArgument] at written
    split at written
    · contradiction
    · rename_i some
      cases written
      refine ⟨by simpa using some, ?_⟩
      rw [String.toList_ofList]
      intro member
      simpa using List.all_eq_true.mp List.all_takeWhile '.' member

def behindName (name : List Char) : List Char → BindingName
  | ':' :: argument => withArgument name argument
  | modifiers => ⟨String.ofList name, none, modifiersOf modifiers⟩

theorem parseLongEq (tail : List Char) :
    parseLong? tail =
      if tail.takeWhile (fun c => c ≠ ':' && c ≠ '.') = [] then none
      else some (behindName (tail.takeWhile fun c => c ≠ ':' && c ≠ '.') (tail.dropWhile fun c => c ≠ ':' && c ≠ '.')) := by
  unfold parseLong?
  dsimp only
  split
  · rfl
  · split
    · rename_i colon
      rw [colon]
      rfl
    · rename_i other
      rw [behindName]
      exact other

theorem behindNamePlain {name : List Char} (rest : List Char) (signs : name ≠ []) (apart : ∀ c ∈ name, c ≠ ':' ∧ c ≠ '.') :
    (behindName name rest).Plain := by
  unfold behindName
  split
  · exact withArgumentPlain _ signs apart
  · refine ⟨⟨?_, ?_⟩, ?_, modifiersPlain _⟩
    · simpa using signs
    · simpa using apart
    · intro arg written
      contradiction

theorem parseLongName {name rest : List Char} (signs : name ≠ []) (apart : ∀ c ∈ name, c ≠ ':' ∧ c ≠ '.')
    (ends : ∀ c, rest.head? = some c → c = ':' ∨ c = '.') : parseLong? (name ++ rest) = some (behindName name rest) := by
  have inside : ∀ c ∈ name, (decide (c ≠ ':') && decide (c ≠ '.')) = true := by
    intro c member
    simpa using apart c member
  have stops : ∀ c, rest.head? = some c → (decide (c ≠ ':') && decide (c ≠ '.')) = false := by
    intro c head
    rcases ends c head with rfl | rfl <;> rfl
  rw [parseLongEq, Text.takeWhileExact inside stops, Text.dropWhileExact inside stops, if_neg signs]

theorem behindNameDotted (name : List Char) {modifiers : List String}
    (further : ∀ modifier ∈ modifiers, OnePart modifier) :
    behindName name (dotted (modifiers.map String.toList)) = ⟨String.ofList name, none, modifiers⟩ := by
  unfold behindName
  split
  · rename_i colon
    have head := dottedHead (congrArg List.head? colon)
    contradiction
  · rw [modifiersRead further]

theorem longFormSigns (b : BindingName) :
    b.longForm.toList = 'v' :: '-' :: (b.name.toList ++ ((b.arg.map fun arg => ':' :: arg.toList).getD [] ++
      dotted (b.modifiers.map String.toList))) := by
  have dots : (String.join (b.modifiers.map ("." ++ ·))).toList = dotted (b.modifiers.map String.toList) := by
    simp [dotted, List.flatMap_map]
  unfold longForm
  cases b.arg <;> simp [dots]

theorem longFormReads {b : BindingName} (plain : b.Plain) : parse? b.longForm = some b := by
  have signs : b.name.toList ≠ [] := by simpa using plain.name.1
  have read (rest : List Char) (ends : ∀ c, rest.head? = some c → c = ':' ∨ c = '.') :
      parseLong? (b.name.toList ++ rest) = some (behindName b.name.toList rest) :=
    parseLongName signs plain.name.2 ends
  have written := b.longFormSigns
  rw [parse?, written]
  obtain ⟨name, arg, modifiers⟩ := b
  cases arg with
  | none =>
    have ends : ∀ c, (dotted (modifiers.map String.toList)).head? = some c → c = ':' ∨ c = '.' :=
      fun c head => Or.inr (dottedHead head)
    calc parseLong? (name.toList ++ dotted (modifiers.map String.toList))
        = some (behindName name.toList (dotted (modifiers.map String.toList))) := read _ ends
      _ = some ⟨name, none, modifiers⟩ := by rw [behindNameDotted _ plain.modifiers, String.ofList_toList]
  | some arg =>
    have ends : ∀ c, (':' :: (arg.toList ++ dotted (modifiers.map String.toList))).head? = some c → c = ':' ∨ c = '.' :=
      fun c head => Or.inl (Option.some.inj head).symm
    calc parseLong? (name.toList ++ ':' :: (arg.toList ++ dotted (modifiers.map String.toList)))
        = some (withArgument name.toList (arg.toList ++ dotted (modifiers.map String.toList))) := read _ ends
      _ = some ⟨name, some arg, modifiers⟩ := by
          rw [withArgumentRead (plain.arg arg rfl) plain.modifiers, String.ofList_toList]

theorem parsedPlain {raw : String} {b : BindingName} (read : parse? raw = some b) : b.Plain := by
  unfold parse? at read
  split at read
  · cases read
    exact withArgumentPlain _ (by decide) (by simp)
  · cases read
    exact withArgumentPlain _ (by decide) (by simp)
  · rename_i tail _
    rw [parseLongEq] at read
    split at read
    · contradiction
    · rename_i signs
      cases read
      apply behindNamePlain _ signs
      intro c member
      simpa using List.all_eq_true.mp List.all_takeWhile c member
  · contradiction

theorem parseLongNone (tail : List Char) :
    parseLong? tail = none ↔ ¬∃ c rest, tail = c :: rest ∧ c ≠ ':' ∧ c ≠ '.' := by
  rw [parseLongEq]
  cases tail with
  | nil => simp
  | cons c rest =>
    by_cases ends : c = ':' ∨ c = '.'
    · rcases ends with rfl | rfl <;> simp
    · rw [not_or] at ends
      simp [ends.1, ends.2]

theorem parseNone (raw : String) :
    parse? raw = none ↔ raw.toList.head? ≠ some ':' ∧ raw.toList.head? ≠ some '@' ∧
      ¬∃ c rest, raw.toList = 'v' :: '-' :: c :: rest ∧ c ≠ ':' ∧ c ≠ '.' := by
  unfold parse?
  split
  · rename_i tail written
    simp [written]
  · rename_i tail written
    simp [written]
  · rename_i tail written
    rw [parseLongNone, written]
    simp
  · rename_i short also long
    refine ⟨fun _ => ⟨?_, ?_, ?_⟩, fun _ => rfl⟩
    · intro head
      obtain ⟨tail, written⟩ := List.head?_eq_some_iff.mp head
      exact short tail written
    · intro head
      obtain ⟨tail, written⟩ := List.head?_eq_some_iff.mp head
      exact also tail written
    · intro ⟨c, rest, written, _⟩
      exact long (c :: rest) written

theorem longFormArgument {name : List Char} (signs : name ≠ []) (apart : ∀ c ∈ name, c ≠ ':' ∧ c ≠ '.') {raw : String}
    {tail : List Char} (written : raw.toList = 'v' :: '-' :: (name ++ ':' :: tail)) :
    parse? raw = some (withArgument name tail) := by
  rw [parse?, written]
  exact parseLongName signs apart fun c head => Or.inl (Option.some.inj head).symm

theorem shortForms (tail : String) :
    parse? (":" ++ tail) = parse? ("v-bind:" ++ tail) ∧ parse? ("@" ++ tail) = parse? ("v-on:" ++ tail) := by
  have bind : parse? ("v-bind:" ++ tail) = some (withArgument "bind".toList tail.toList) :=
    longFormArgument (by decide) (by simp) (by simp)
  have on : parse? ("v-on:" ++ tail) = some (withArgument "on".toList tail.toList) :=
    longFormArgument (by decide) (by simp) (by simp)
  refine ⟨?_, ?_⟩
  · rw [bind, parse?, show (":" ++ tail).toList = ':' :: tail.toList by simp]
    rfl
  · rw [on, parse?, show ("@" ++ tail).toList = '@' :: tail.toList by simp]
    rfl

end BindingName

/-
A name of a binding reads back from its long form exactly if its parts are plain. The short forms are read as the
long ones they stand for, with anything behind them; and not the name of a binding is what begins neither with the
sign of a short form nor with `v-` and a sign that may stand in a name.
-/
theorem bindingNamesReadBack :
    (∀ b : BindingName, BindingName.parse? b.longForm = some b ↔ b.Plain) ∧
    (∀ tail : String, BindingName.parse? (":" ++ tail) = BindingName.parse? ("v-bind:" ++ tail) ∧
      BindingName.parse? ("@" ++ tail) = BindingName.parse? ("v-on:" ++ tail)) ∧
    ∀ raw : String, BindingName.parse? raw = none ↔ raw.toList.head? ≠ some ':' ∧ raw.toList.head? ≠ some '@' ∧
      ¬∃ c rest, raw.toList = 'v' :: '-' :: c :: rest ∧ c ≠ ':' ∧ c ≠ '.' :=
  ⟨fun _ => ⟨BindingName.parsedPlain, BindingName.longFormReads⟩, BindingName.shortForms, BindingName.parseNone⟩

example : BindingName.parse? "v-on:key:up.enter..stop" = some ⟨"on", some "key:up", ["enter", "stop"]⟩ := by decide

end Templating
