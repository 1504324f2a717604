import Templating.Proofs.Recognition
import Mathlib.Data.List.Induction

/-!
Reading a start tag as it is written: its attributes one by one, each to its own end, and the element
that they make. Names that differ never take each other's place, so the attributes stay in order.
-/
namespace Templating
open Markup

namespace Markup.Scanner

theorem passNil (s : Scanner) : s.pass [] = s := rfl

theorem passPass (s : Scanner) (first second : List Char) : (s.pass first).pass second = s.pass (first ++ second) := by
  simp [pass, Nat.add_assoc]

theorem skipBlankNone {s : Scanner} (visible : ∀ c, s.rest.head? = some c → Text.isBlank c = false) : s.skipBlank = s := by
  have none : s.rest.takeWhile Text.isBlank = [] := by
    cases rest : s.rest with
    | nil => rfl
    | cons c r =>
      rw [rest] at visible
      simp [visible c rfl]
  rw [skipBlank, none, passNil]

theorem ofSourceSigns {source inner : List Char} (head : ∀ c, source.head? = some c → Text.isBlank c = false)
    (last : source = inner ++ ['>']) : ofSource source = ⟨source, 0, source⟩ := by
  obtain ⟨c, r, signs⟩ := List.exists_cons_of_ne_nil (show source ≠ [] by simp [last])
  have visible : Text.isBlank c = false := head c (by simp [signs])
  have start : Text.trimStart source = source := by simp [Text.trimStart, signs, visible]
  have lead : source.takeWhile Text.isBlank = [] := by simp [signs, visible]
  have stop : Text.trimEnd source = source := by
    simp [Text.trimEnd, last, show Text.isBlank '>' = false by decide]
  unfold ofSource
  rw [lead, start, stop]
  rfl

end Markup.Scanner

def EndsAttribute (after : List Char) : Prop :=
  (∃ r, after = '>' :: r) ∨ ∃ c r, after = ' ' :: c :: r ∧ isAttributeStart c = true

namespace WrittenAttribute

theorem writtenHead (a : WrittenAttribute) : ∃ more, a.written = a.name.head :: more := by
  unfold written WrittenName.chars
  cases a.value with
  | none => exact ⟨_, rfl⟩
  | some value => exact ⟨_, rfl⟩

theorem endsAttributes (attributes : List WrittenAttribute) (after : List Char) :
    EndsAttribute (attributes.flatMap print ++ '>' :: after) := by
  cases attributes with
  | nil => exact Or.inl ⟨after, rfl⟩
  | cons a attributes =>
    obtain ⟨more, written⟩ := a.writtenHead
    refine Or.inr ⟨a.name.head, more ++ (attributes.flatMap print ++ '>' :: after), ?_, a.name.headStarts⟩
    rw [List.flatMap_cons, print, written]
    simp

theorem endsName {after : List Char} (ends : EndsAttribute after) :
    ∀ c, after.head? = some c → isAttributeName c = false := by
  intro c same
  rcases ends with ⟨r, rfl⟩ | ⟨d, r, rfl, _⟩
  · cases same
    decide
  · cases same
    decide

theorem noValue {after : List Char} (ends : EndsAttribute after) : attributeValue? after = none := by
  rcases ends with ⟨r, rfl⟩ | ⟨c, r, rfl, starts⟩
  · rfl
  · have bounds := attributeStartBounds starts
    have visible := notBlank (by omega : 33 ≤ c.toNat) bounds.2.1
    have behind : (' ' :: c :: r).dropWhile Text.isBlank = c :: r := by
      rw [List.dropWhile_cons_of_pos (by decide), List.dropWhile_cons_of_neg (by simp [visible])]
    unfold attributeValue?
    rw [behind]
    split
    · rename_i same
      exact absurd (List.cons.inj same).1 bounds.2.2.1
    · rfl

theorem valueExact (value : QuotedValue) (after : List Char) :
    attributeValue? ('=' :: '"' :: (value.chars ++ '"' :: after)) =
      some ⟨'=' :: '"' :: (value.chars ++ ['"']), value.chars⟩ := by
  have sign : ('=' :: '"' :: (value.chars ++ '"' :: after)).dropWhile Text.isBlank =
      '=' :: '"' :: (value.chars ++ '"' :: after) := List.dropWhile_cons_of_neg (by decide)
  have quote : ('"' :: (value.chars ++ '"' :: after)).dropWhile Text.isBlank = '"' :: (value.chars ++ '"' :: after) :=
    List.dropWhile_cons_of_neg (by decide)
  unfold attributeValue?
  simp only [sign, quote]
  rw [if_pos (by decide), Text.splitFirstChar value.unquoted, Option.map_some, value.trimmed]
  rfl

theorem attributeExact (a : WrittenAttribute) {after : List Char} (ends : EndsAttribute after) :
    attribute? (a.written ++ after) = some ⟨a.written, a.read⟩ := by
  unfold written read WrittenName.chars
  cases a.value with
  | none =>
    have stops := endsName ends
    rw [List.cons_append, attribute?, if_pos a.name.headStarts, Text.takeWhileExact a.name.tailContinues stops,
      Text.dropWhileExact a.name.tailContinues stops, noValue ends]
    rfl
  | some value =>
    have stops : ∀ c, ('=' :: '"' :: (value.chars ++ '"' :: after)).head? = some c → isAttributeName c = false := by
      intro c same
      cases same
      decide
    have printed : (a.name.head :: a.name.tail ++ '=' :: '"' :: (value.chars ++ ['"'])) ++ after =
        a.name.head :: (a.name.tail ++ '=' :: '"' :: (value.chars ++ '"' :: after)) := by
      simp
    dsimp only
    rw [printed, attribute?, if_pos a.name.headStarts, Text.takeWhileExact a.name.tailContinues stops,
      Text.dropWhileExact a.name.tailContinues stops, valueExact]
    rfl

end WrittenAttribute

namespace Markup.Scanner

theorem skipBlankSpace {s : Scanner} {c : Char} {r : List Char} (rest : s.rest = ' ' :: c :: r)
    (visible : Text.isBlank c = false) : s.skipBlank = s.pass [' '] := by
  have blank : s.rest.takeWhile Text.isBlank = [' '] := by
    rw [rest]
    simp [visible, show Text.isBlank ' ' = true by decide]
  rw [skipBlank, blank]

theorem unclosedAttribute {c : Char} (starts : isAttributeStart c = true) (r : List Char) : tagClose? (c :: r) = none := by
  have bounds := attributeStartBounds starts
  unfold tagClose?
  split
  · rename_i same
    have slash : c = '/' := (List.cons.inj same).1
    rw [slash] at bounds
    exact absurd bounds.1 (by decide)
  · rename_i same
    exact absurd (List.cons.inj same).1 bounds.2.2.2
  · rfl

theorem readAttributesNext {start : Nat} {s : Scanner} {e : Element} {m : Match Attribute}
    (unclosed : tagClose? s.skipBlank.rest = none) (found : attribute? s.skipBlank.rest = some m) :
    s.readAttributes start e = (s.skipBlank.pass m.covered).readAttributes start (e.setAttribute m.value) := by
  have more : s.skipBlank.atEnd = false := by
    unfold atEnd
    cases rest : s.skipBlank.rest with
    | nil =>
      rw [rest] at found
      contradiction
    | cons => rfl
  rw [readAttributes, unclosed, more]
  dsimp only
  rw [if_neg (by decide)]
  split
  · rename_i same
    cases found.symm.trans same
    rfl
  · rename_i same
    cases found.symm.trans same

theorem readAttributesExact (start : Nat) (attributes : List WrittenAttribute) {after : List Char}
    {s : Scanner} (e : Element) (rest : s.rest = attributes.flatMap WrittenAttribute.print ++ '>' :: after) :
    s.readAttributes start e =
      .ok (s.pass (attributes.flatMap WrittenAttribute.print ++ ['>']),
        attributes.foldl (fun e a => e.setAttribute a.read) e) := by
  induction attributes generalizing s e with
  | nil =>
    have visible : s.skipBlank = s := by
      refine skipBlankNone fun c same => ?_
      rw [rest] at same
      cases same
      decide
    rw [readAttributes, visible, rest]
    rfl
  | cons a attributes ih =>
    obtain ⟨more, written⟩ := a.writtenHead
    have bounds := attributeStartBounds a.name.headStarts
    have split : s.rest = [' '] ++ (a.written ++ (attributes.flatMap WrittenAttribute.print ++ '>' :: after)) := by
      rw [rest, List.flatMap_cons, WrittenAttribute.print]
      simp
    have here : s.skipBlank = s.pass [' '] := by
      rw [written] at split
      exact skipBlankSpace split (notBlank (by omega) bounds.2.1)
    have left := restPass split
    have unclosed : tagClose? (s.pass [' ']).rest = none := by
      rw [left, written]
      exact unclosedAttribute a.name.headStarts _
    have found : attribute? (s.pass [' ']).rest = some ⟨a.written, a.read⟩ := by
      rw [left]
      exact a.attributeExact (WrittenAttribute.endsAttributes attributes after)
    rw [← here] at unclosed found
    have printed : [' '] ++ (a.written ++ (attributes.flatMap WrittenAttribute.print ++ ['>'])) =
        (a :: attributes).flatMap WrittenAttribute.print ++ ['>'] := by
      rw [List.flatMap_cons, WrittenAttribute.print]
      simp
    rw [readAttributesNext unclosed found, here, ih (e.setAttribute a.read) (restPass left), passPass, passPass, printed]
    rfl

end Markup.Scanner

theorem WrittenAttribute.writtenValue (a : WrittenAttribute) : AttributeValue.ofWritten a.read.value = a.entry.2 := by
  unfold read entry
  cases a.value <;> rfl

namespace StartTag

theorem entriesLonger {tag longer : StartTag} {a : WrittenAttribute} (attributes : longer.attributes = tag.attributes ++ [a])
    (binding : Bool) :
    longer.entries binding =
      tag.entries binding ++ if isBindingName a.name.chars == binding then [a.entry] else [] := by
  unfold entries
  rw [attributes, List.filter_append, List.map_append]
  congr 1
  cases binds : isBindingName a.name.chars == binding <;> simp [binds]

theorem entriesFresh {tag longer : StartTag} {a : WrittenAttribute} (attributes : longer.attributes = tag.attributes ++ [a])
    (binding : Bool) : a.entry.1 ∉ (tag.entries binding).map Prod.fst := by
  intro member
  obtain ⟨entry, inside, same⟩ := List.mem_map.mp member
  obtain ⟨other, among, rfl⟩ := List.mem_map.mp inside
  have distinct := longer.distinct
  rw [attributes, List.map_append, List.nodup_append] at distinct
  refine distinct.2.2 _ (List.mem_map_of_mem (List.mem_filter.mp among).1) a.name.chars (by simp) ?_
  exact String.ofList_injective same

theorem tableKept {tag longer : StartTag} {a : WrittenAttribute} (attributes : longer.attributes = tag.attributes ++ [a])
    {binding : Bool} (other : isBindingName a.name.chars ≠ binding) : longer.table binding = tag.table binding := by
  have same := entriesLonger attributes binding
  rw [if_neg (by simpa using other), List.append_nil] at same
  exact Table.entriesInjective same

theorem tableSet {tag longer : StartTag} {a : WrittenAttribute} (attributes : longer.attributes = tag.attributes ++ [a])
    (table : Table AttributeValue) (sofar : table.entries = tag.entries (isBindingName a.name.chars)) :
    table.insert a.entry.1 a.entry.2 = longer.table (isBindingName a.name.chars) := by
  have same := entriesLonger attributes (isBindingName a.name.chars)
  rw [if_pos (by simp)] at same
  refine Table.entriesInjective ?_
  rw [Table.insertEntries, sofar, Table.placeAbsent _ (entriesFresh attributes _)]
  exact same.symm

theorem pendingEntries (tag : StartTag) : (tag.element.pending.getD Table.empty).entries = tag.entries true := by
  unfold element
  cases entries : tag.entries true with
  | nil => rfl
  | cons entry more => exact entries

theorem elementSet {tag longer : StartTag} {a : WrittenAttribute} (name : longer.name = tag.name)
    (attributes : longer.attributes = tag.attributes ++ [a]) : tag.element.setAttribute a.read = longer.element := by
  have read : a.read.name = a.name.chars := rfl
  unfold Element.setAttribute
  rw [read, a.writtenValue]
  cases binds : isBindingName a.name.chars with
  | true =>
    have literal := tableKept attributes (show isBindingName a.name.chars ≠ false by simp [binds])
    have pending := tableSet attributes _ (binds.symm ▸ pendingEntries tag)
    rw [binds] at pending
    have present : longer.entries true ≠ [] := by
      rw [entriesLonger attributes true, binds]
      simp
    have whole : longer.element = { tag.element with pending := some (longer.table true) } := by
      unfold element
      rw [name, literal, if_neg present]
    rw [whole, ← pending]
    rfl
  | false =>
    have unchanged := tableKept attributes (show isBindingName a.name.chars ≠ true by simp [binds])
    have entries : longer.entries true = tag.entries true := congrArg Table.entries unchanged
    have literal := tableSet attributes (tag.table false) (binds.symm ▸ rfl)
    rw [binds] at literal
    have whole : longer.element = { tag.element with attributes := longer.table false } := by
      unfold element
      rw [name, unchanged, entries]
    rw [whole, ← literal]
    rfl

theorem elementExact (tag : StartTag) :
    tag.attributes.foldl (fun e a => e.setAttribute a.read) (Element.ofTag (String.ofList tag.name.chars)) = tag.element := by
  obtain ⟨name, attributes, distinct⟩ := tag
  induction attributes using List.reverseRecOn with
  | nil => rfl
  | append_singleton attributes a ih =>
    have before : (attributes.map fun a => a.name.chars).Nodup := by
      rw [List.map_append] at distinct
      exact (List.nodup_append.mp distinct).1
    rw [List.foldl_append, List.foldl_cons, List.foldl_nil]
    have sofar := ih before
    dsimp only at sofar ⊢
    rw [sofar]
    exact elementSet rfl rfl

end StartTag
end Templating
