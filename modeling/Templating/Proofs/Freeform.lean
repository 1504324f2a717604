import Templating.Proofs.Locality
import Templating.Proofs.Reading

/-!
Start tags written freely. Blanks may stand before each attribute, around each equals sign and before
the end; a value may be in quotes of either kind and hold any sign but that quote; names may come again.
However it is written, one element is read, with what was written last under each name.
-/
namespace Templating
open Markup

structure Blanks where
  chars : List Char
  blank : ∀ c ∈ chars, Text.isBlank c = true

def Blanks.ofAll (chars : List Char) (blank : chars.all Text.isBlank = true) : Blanks := ⟨chars, List.all_eq_true.mp blank⟩

structure FreeValue where
  before : Blanks
  behind : Blanks
  quote : Char
  isQuote : isQuote quote = true
  chars : List Char
  unquoted : quote ∉ chars

structure FreeAttribute where
  lead : Blanks
  apart : lead.chars ≠ []
  name : WrittenName isAttributeStart isAttributeName
  value : Option FreeValue

structure FreeTag where
  name : WrittenName isWord isTagName
  attributes : List FreeAttribute
  trail : Blanks
  selfClosing : Bool

def FreeValue.print (value : FreeValue) : List Char :=
  value.before.chars ++ '=' :: (value.behind.chars ++ value.quote :: (value.chars ++ [value.quote]))

namespace FreeAttribute

def written (a : FreeAttribute) : List Char := a.name.chars ++ (a.value.map FreeValue.print).getD []

def print (a : FreeAttribute) : List Char := a.lead.chars ++ a.written

def read (a : FreeAttribute) : Attribute := ⟨a.name.chars, a.value.map fun value => Text.trim value.chars⟩

def entry (a : FreeAttribute) : String × AttributeValue :=
  (String.ofList a.name.chars,
    match a.value with
    | none => .flag
    | some value => .text (String.ofList (Text.trim value.chars)))

def entries (attributes : List FreeAttribute) (binding : Bool) : List (String × AttributeValue) :=
  (attributes.filter fun a => isBindingName a.name.chars == binding).map entry

end FreeAttribute

namespace FreeTag

def close (tag : FreeTag) : List Char := tag.trail.chars ++ if tag.selfClosing then ['/', '>'] else ['>']

def behindName (tag : FreeTag) : List Char := tag.attributes.flatMap FreeAttribute.print ++ tag.close

def print (tag : FreeTag) : List Char := '<' :: (tag.name.chars ++ tag.behindName)

def title (tag : FreeTag) : String := String.ofList tag.name.chars

end FreeTag

/-- The table has each name of the entries once, in the order in which they come first, with the value that comes
last under it. -/
structure Table.Gathers {α : Type} (table : Table α) (entries : List (String × α)) : Prop where
  names : table.names = (entries.map Prod.fst).eraseDups
  last : ∀ before name value after, entries = before ++ (name, value) :: after → name ∉ after.map Prod.fst →
    table.find? name = some value

theorem Table.gathersOfList {α : Type} (entries : List (String × α)) : (Table.ofList entries).Gathers entries := by
  refine ⟨namesOfList entries, ?_⟩
  rintro before name value after rfl last
  exact findInsertLast value last empty

theorem Table.ofListSnoc {α : Type} (entries : List (String × α)) (entry : String × α) :
    Table.ofList (entries ++ [entry]) = (Table.ofList entries).insert entry.1 entry.2 := by
  simp [ofList, insertAll]

namespace FreeAttribute
variable {after : List Char}

theorem valueRead (value : FreeValue) (after : List Char) :
    attributeValue? (value.print ++ after) = some ⟨value.print, Text.trim value.chars⟩ := by
  obtain ⟨⟨before, first⟩, ⟨behind, second⟩, quote, quotes, chars, unquoted⟩ := value
  have sign : ∀ c, ('=' :: (behind ++ quote :: (chars ++ quote :: after))).head? = some c → Text.isBlank c = false := by
    intro c same
    cases same
    decide
  have opening : ∀ c, (quote :: (chars ++ quote :: after)).head? = some c → Text.isBlank c = false := by
    intro c same
    cases same
    simp only [Markup.isQuote, Bool.or_eq_true, beq_iff_eq] at quotes
    rcases quotes with rfl | rfl
    · decide
    · decide
  have whole : FreeValue.print ⟨⟨before, first⟩, ⟨behind, second⟩, quote, quotes, chars, unquoted⟩ ++ after =
      before ++ '=' :: (behind ++ quote :: (chars ++ quote :: after)) := by
    simp [FreeValue.print]
  rw [whole, attributeValue?, Text.dropWhileExact first sign, Text.takeWhileExact first sign]
  simp only [Text.dropWhileExact second opening, Text.takeWhileExact second opening, if_pos quotes,
    Text.splitFirstChar unquoted]
  rfl

theorem valueStops (value : FreeValue) : ∀ c, (value.print ++ after).head? = some c → isAttributeName c = false := by
  intro c same
  cases chars : value.before.chars with
  | nil =>
    simp only [FreeValue.print, chars, List.nil_append, List.cons_append, List.head?_cons, Option.some.injEq] at same
    subst same
    decide
  | cons d r =>
    simp only [FreeValue.print, chars, List.cons_append, List.head?_cons, Option.some.injEq] at same
    subst same
    exact blankAttributeName (value.before.blank d (by simp [chars]))

theorem attributeRead (a : FreeAttribute) {behind : List Char} (unassigned : Unassigned behind)
    (stops : ∀ c, behind.head? = some c → isAttributeName c = false) (after : List Char) :
    attribute? (a.written ++ (behind ++ after)) = some ⟨a.written, a.read⟩ := by
  obtain ⟨lead, apart, name, value⟩ := a
  cases value with
  | none =>
    obtain ⟨d, r, head⟩ := unassignedHead unassigned
    have ends : ∀ c, (behind ++ after).head? = some c → isAttributeName c = false := by
      rw [head] at stops ⊢
      exact stops
    simp only [written, read, WrittenName.chars, Option.map_none, Option.getD_none, List.append_nil, List.cons_append,
      attribute?, if_pos name.headStarts, Text.takeWhileExact name.tailContinues ends,
      Text.dropWhileExact name.tailContinues ends, unassignedAppend unassigned]
  | some value =>
    have ends : ∀ c, (value.print ++ (behind ++ after)).head? = some c → isAttributeName c = false := valueStops value
    simp only [written, read, WrittenName.chars, Option.map_some, Option.getD_some, List.cons_append, List.append_assoc,
      attribute?, if_pos name.headStarts, Text.takeWhileExact name.tailContinues ends,
      Text.dropWhileExact name.tailContinues ends, valueRead]

theorem writtenValue (a : FreeAttribute) : AttributeValue.ofWritten a.read.value = a.entry.2 := by
  unfold read entry
  cases a.value <;> rfl

theorem entriesSnoc (attributes : List FreeAttribute) (a : FreeAttribute) (binding : Bool) :
    entries (attributes ++ [a]) binding =
      entries attributes binding ++ if isBindingName a.name.chars == binding then [a.entry] else [] := by
  unfold entries
  cases kind : isBindingName a.name.chars == binding <;> simp [kind]

def element (title : String) (attributes : List FreeAttribute) : Element where
  tag := title
  attributes := Table.ofList (entries attributes false)
  pending := if entries attributes true = [] then none else some (Table.ofList (entries attributes true))

theorem pendingTable (title : String) (attributes : List FreeAttribute) :
    (element title attributes).pending.getD Table.empty = Table.ofList (entries attributes true) := by
  unfold element
  cases entries attributes true <;> rfl

theorem elementSnoc (title : String) (attributes : List FreeAttribute) (a : FreeAttribute) :
    (element title attributes).setAttribute a.read = element title (attributes ++ [a]) := by
  have name : a.read.name = a.name.chars := rfl
  have literal := entriesSnoc attributes a false
  have pending := entriesSnoc attributes a true
  unfold Element.setAttribute
  rw [pendingTable, writtenValue, name]
  cases kind : isBindingName a.name.chars with
  | true =>
    have same : entries (attributes ++ [a]) false = entries attributes false := by simpa [kind] using literal
    have longer : entries (attributes ++ [a]) true = entries attributes true ++ [a.entry] := by simpa [kind] using pending
    simp [element, same, longer, Table.ofListSnoc, entry]
  | false =>
    have same : entries (attributes ++ [a]) true = entries attributes true := by simpa [kind] using pending
    have longer : entries (attributes ++ [a]) false = entries attributes false ++ [a.entry] := by
      simpa [kind] using literal
    simp [element, same, longer, Table.ofListSnoc, entry]

theorem elementExact (title : String) (attributes : List FreeAttribute) :
    attributes.foldl (fun e a => e.setAttribute a.read) (Element.ofTag title) = element title attributes := by
  induction attributes using List.reverseRecOn with
  | nil => rfl
  | append_singleton attributes a ih => simp [ih, elementSnoc]

end FreeAttribute

namespace FreeTag

theorem closeStops (tag : FreeTag) : ∃ c r, tag.close = c :: r ∧ isAttributeName c = false ∧ isTagName c = false := by
  cases chars : tag.trail.chars with
  | nil =>
    cases closing : tag.selfClosing with
    | true => exact ⟨'/', ['>'], by simp [close, chars, closing], by decide, by decide⟩
    | false => exact ⟨'>', [], by simp [close, chars, closing], by decide, by decide⟩
  | cons c r =>
    have blank := tag.trail.blank c (by simp [chars])
    exact ⟨c, _, by simp [close, chars]; rfl, blankAttributeName blank, blankTagName blank⟩

theorem behindStops (tag : FreeTag) (attributes : List FreeAttribute) :
    ∃ c r, attributes.flatMap FreeAttribute.print ++ tag.close = c :: r ∧
      isAttributeName c = false ∧ isTagName c = false := by
  cases attributes with
  | nil => exact tag.closeStops
  | cons a attributes =>
    obtain ⟨c, r, lead⟩ := List.exists_cons_of_ne_nil a.apart
    have blank := a.lead.blank c (by simp [lead])
    exact ⟨c, _, by simp [FreeAttribute.print, lead]; rfl, blankAttributeName blank, blankTagName blank⟩

theorem tagRead (tag : FreeTag) (attributes : List FreeAttribute) (e : Element) :
    TagRead (attributes.flatMap FreeAttribute.print ++ tag.close) e (attributes.foldl (fun e a => e.setAttribute a.read) e) := by
  induction attributes generalizing e with
  | nil =>
    cases closing : tag.selfClosing with
    | true =>
      have closes := Scanner.tagReadEnd ⟨['/', '>'], true⟩ tag.trail.blank (fun _ => rfl) e
      simpa [close, closing] using closes
    | false =>
      have closes := Scanner.tagReadEnd ⟨['>'], false⟩ tag.trail.blank (fun _ => rfl) e
      simpa [close, closing] using closes
  | cons a attributes ih =>
    have behind := ih (e.setAttribute a.read)
    obtain ⟨c, r, head, stops, _⟩ := tag.behindStops attributes
    have found := a.attributeRead behind.unassigned (by simp [head, stops])
    have next := Scanner.tagReadNext ⟨a.written, a.read⟩ a.lead.blank found behind
    simpa [FreeAttribute.print] using next

theorem printEnds (tag : FreeTag) : ∃ inner, tag.print = inner ++ ['>'] := by
  obtain ⟨inner, ending⟩ := (tag.tagRead tag.attributes (Element.ofTag tag.title)).ends
  exact ⟨'<' :: (tag.name.chars ++ inner), by simp [print, behindName, ending]⟩

theorem printScanned (tag : FreeTag) : Scanner.ofSource tag.print = ⟨tag.print, 0, tag.print⟩ := by
  obtain ⟨inner, ending⟩ := tag.printEnds
  refine Scanner.ofSourceSigns ?_ ending
  intro c same
  cases same
  decide

def node (tag : FreeTag) : Node where
  content := .element (FreeAttribute.element tag.title tag.attributes)
  done := !isPaired tag.print tag.name.chars
  span := Span.ofOffsets 0 (Text.byteLength tag.print)

theorem stepTag (comments : Bool) (tag : FreeTag) :
    (⟨⟨tag.print, 0, tag.print⟩, Arena.empty, []⟩ : Builder).step comments =
      .ok (⟨(Scanner.mk tag.print 0 tag.print).pass tag.print, ⟨#[tag.node]⟩, [⟨0⟩]⟩, some (.opened ⟨0⟩)) := by
  obtain ⟨c, r, head, _, stops⟩ := tag.behindStops tag.attributes
  have ends : ∀ d, tag.behindName.head? = some d → isTagName d = false := by simp [behindName, head, stops]
  have left : ((Scanner.mk tag.print 0 tag.print).pass ('<' :: tag.name.chars)).rest = tag.behindName ++ [] :=
    Scanner.restPass (by simp [print])
  have read := (tag.tagRead tag.attributes (Element.ofTag tag.title)).again 0 _ [] left
  have whole : '<' :: tag.name.chars ++ (tag.attributes.flatMap FreeAttribute.print ++ tag.close) = tag.print := rfl
  rw [FreeAttribute.elementExact, Scanner.passPass, whole] at read
  have construct : construct? tag.print = some ⟨'<' :: tag.name.chars, .startTag tag.name.chars⟩ :=
    constructStartTag tag.name ends
  have offset : ((Scanner.mk tag.print 0 tag.print).pass tag.print).offset = Text.byteLength tag.print := Nat.zero_add _
  unfold Builder.step Builder.readStartTag
  rw [construct]
  dsimp only
  rw [show Element.ofTag (String.ofList tag.name.chars) = Element.ofTag tag.title from rfl, read]
  simp only [bind, Except.bind, pure, Except.pure, Builder.openNode, offset]
  rfl

end FreeTag

/-
A start tag, however freely it is written, is one element of that name. Its attributes are those that are not named
like bindings, and those that are stand beside them as pending, or none are pending; each name stands where it is
written first, with what is written of it last.
-/
theorem freeTagsRead (options : Options) (tag : FreeTag) :
    ∃ node e, readForest options (String.ofList tag.print) = .ok ⟨⟨#[node]⟩, [⟨0⟩]⟩ ∧ node.content = .element e ∧
      e.tag = tag.title ∧ e.Bare ∧ e.attributes.Gathers (FreeAttribute.entries tag.attributes false) ∧
      if FreeAttribute.entries tag.attributes true = [] then e.pending = none
      else ∃ table, e.pending = some table ∧ table.Gathers (FreeAttribute.entries tag.attributes true) := by
  have stepped := tag.stepTag options.comments
  have first := Builder.runStep (c := '<') rfl (by decide) stepped
  have used : ((Scanner.mk tag.print 0 tag.print).pass tag.print).rest = [] :=
    Scanner.restPass (List.append_nil _).symm
  have ran : readForest options (String.ofList tag.print) = .ok ⟨⟨#[tag.node]⟩, [⟨0⟩]⟩ := by
    unfold readForest buildWith Build.ofSource Builder.ofSource
    rw [String.toList_ofList, tag.printScanned, first, Builder.runAtEnd used]
    rfl
  refine ⟨tag.node, _, ran, rfl, rfl, rfl, Table.gathersOfList _, ?_⟩
  unfold FreeAttribute.element
  split
  · rfl
  · exact ⟨_, rfl, Table.gathersOfList _⟩

def sampleTag : FreeTag where
  name := ⟨'e', ['m'], rfl, List.all_eq_true.mp rfl⟩
  attributes :=
    [{ lead := .ofAll ['\u2003'] rfl
       apart := List.cons_ne_nil _ _
       name := ⟨'a', [], rfl, List.all_eq_true.mp rfl⟩
       value := some ⟨.ofAll [' '] rfl, .ofAll [' '] rfl, '\'', rfl, " 1>\" ".toList, by decide⟩ },
      { lead := .ofAll [' '] rfl
        apart := List.cons_ne_nil _ _
        name := ⟨':', ['b'], rfl, List.all_eq_true.mp rfl⟩
        value := none },
      { lead := .ofAll [' '] rfl
        apart := List.cons_ne_nil _ _
        name := ⟨'a', [], rfl, List.all_eq_true.mp rfl⟩
        value := some ⟨.ofAll [] rfl, .ofAll [] rfl, '\'', rfl, ['2'], by decide⟩ },
      { lead := .ofAll ['\n'] rfl
        apart := List.cons_ne_nil _ _
        name := ⟨':', ['b'], rfl, List.all_eq_true.mp rfl⟩
        value := some ⟨.ofAll [] rfl, .ofAll [] rfl, '"', rfl, "<i/>".toList, by decide⟩ },
      { lead := .ofAll [' '] rfl
        apart := List.cons_ne_nil _ _
        name := ⟨'c', [], rfl, List.all_eq_true.mp rfl⟩
        value := none }]
  trail := .ofAll ['\t'] rfl
  selfClosing := true

example : String.ofList sampleTag.print = "<em\u2003a = ' 1>\" ' :b a='2'\n:b=\"<i/>\" c\t/>" := by decide

example :
    ((readForest Options.standard (String.ofList sampleTag.print)).toOption.bind fun forest =>
      forest.arena.element? ⟨0⟩).map (fun e => (e.attributes.entries, e.pending.map Table.entries)) =
    some ([("a", .text "2"), ("c", .flag)], some [(":b", .text "<i/>")]) := by decide +kernel

end Templating
