import Templating.Proofs.Cursor

/-!
What a step of a build can do. It opens a node at the top of the stack, closes an open element over
what lies above it, gives a run of text to an element, or leaves out a comment; in each case the
cursor moves. Everything proved of builds rests on these four cases.
-/
namespace Templating
open Markup

def Element.Bare (e : Element) : Prop :=
  e = { tag := e.tag, attributes := e.attributes, pending := e.pending }

theorem Element.bareOfTag (tag : String) : (Element.ofTag tag).Bare := rfl

theorem Element.bareSetAttribute {e : Element} (bare : e.Bare) (written : Attribute) : (e.setAttribute written).Bare := by
  unfold Bare at bare
  rw [bare]
  unfold setAttribute
  dsimp only
  split <;> rfl

theorem Element.tagSetAttribute (e : Element) (written : Attribute) : (e.setAttribute written).tag = e.tag := by
  unfold setAttribute
  dsimp only
  split <;> rfl

/- Attributes are filed by their names: those named like bindings are pending, the others literal. -/
structure Element.Filed (e : Element) : Prop where
  literal : ∀ name ∈ e.attributes.names, isBindingName name.toList = false
  pending : ∀ name ∈ (e.pending.getD Table.empty).names, isBindingName name.toList = true

theorem Element.filedOfTag (tag : String) : (Element.ofTag tag).Filed := by
  refine ⟨?_, ?_⟩
  · intro name member
    contradiction
  · intro name member
    contradiction

theorem Element.filedSetAttribute {e : Element} (filed : e.Filed) (written : Attribute) :
    (e.setAttribute written).Filed := by
  have spelled : (String.ofList written.name).toList = written.name := String.toList_ofList
  unfold setAttribute
  dsimp only
  split
  · rename_i binds
    refine ⟨filed.literal, ?_⟩
    intro name member
    rcases Table.memNamesInsert.mp member with rfl | before
    · rw [spelled, binds]
    · exact filed.pending name before
  · rename_i plain
    refine ⟨?_, filed.pending⟩
    intro name member
    rcases Table.memNamesInsert.mp member with rfl | before
    · rw [spelled]
      exact Bool.eq_false_iff.mpr plain
    · exact filed.literal name before

theorem Element.readAttributesKeeps {P : Element → Prop} (keeps : ∀ e written, P e → P (e.setAttribute written))
    {start : Nat} {s t : Scanner} {e f : Element} (holds : P e) (h : s.readAttributes start e = .ok (t, f)) : P f := by
  fun_induction Scanner.readAttributes start s e with
  | case1 => cases h; exact holds
  | case2 => contradiction
  | case3 s e here noClose more written found ih => exact ih (keeps e written.value holds) h
  | case4 => contradiction

theorem Element.bareReadAttributes {start : Nat} {s t : Scanner} {e f : Element} (bare : e.Bare)
    (h : s.readAttributes start e = .ok (t, f)) : f.Bare ∧ f.tag = e.tag := by
  refine readAttributesKeeps (P := fun g => g.Bare ∧ g.tag = e.tag) ?_ ⟨bare, rfl⟩ h
  intro g written kept
  exact ⟨bareSetAttribute kept.1 written, (tagSetAttribute g written).trans kept.2⟩

structure Node.Fresh (node : Node) : Prop where
  parent : node.parent = none
  root : node.root = false
  element : ∀ e, node.content = .element e → e.Bare
  filed : ∀ e, node.content = .element e → e.Filed
  leaf : node.isElement = false → node.done = true

theorem Node.freshChildren {node : Node} (fresh : node.Fresh) : node.children = [] := by
  unfold children
  split
  · rename_i e content
    have bare : e.Bare := fresh.element e content
    rw [bare]
  · rfl

theorem Node.elementMapElement (change : Element → Element) (node : Node) :
    (node.mapElement change).element? = node.element?.map change := by
  unfold mapElement element?
  cases content : node.content <;> simp [content]

theorem Node.mapElementDone (change : Element → Element) (node : Node) : (node.mapElement change).done = node.done := by
  unfold mapElement
  cases node.content <;> rfl

theorem Node.elementClose (children : List NodeId) (stop : Nat) (node : Node) :
    (node.close children stop).element? = node.element?.map fun e => { e with children } :=
  elementMapElement _ node

def Markup.Scanner.Advances (s t : Scanner) : Prop := ∃ covered, covered ≠ [] ∧ s.Reaches covered t

theorem Markup.Scanner.advancesLength {s t : Scanner} (h : s.Advances t) : t.rest.length < s.rest.length := by
  obtain ⟨covered, some, reaches⟩ := h
  have length := Scanner.reachesLength reaches
  have := List.length_pos_iff.mpr some
  omega

theorem Markup.Scanner.advancesOffset {s t : Scanner} (h : s.Advances t) : s.offset < t.offset := by
  obtain ⟨covered, some, reaches⟩ := h
  have := Text.byteLengthPositive some
  rw [reaches.offset]
  omega

theorem Markup.Scanner.placedAdvances {s t : Scanner} (placed : s.Placed) (h : s.Advances t) : t.Placed := by
  obtain ⟨_, _, reaches⟩ := h
  exact Scanner.placedReaches placed reaches

theorem Markup.Scanner.advancesMatch {s : Scanner} {α : Type} {m : Match α} (heads : m.Heads s.rest) :
    s.Advances (s.pass m.covered) :=
  ⟨m.covered, heads.1, Scanner.reachesMatch heads⟩

theorem Markup.Scanner.advancesTrans {s t u : Scanner} {covered : List Char} (left : s.Advances t)
    (right : t.Reaches covered u) : s.Advances u := by
  obtain ⟨head, some, reaches⟩ := left
  exact ⟨head ++ covered, by simp [some], Scanner.reachesTrans reaches right⟩

namespace Builder

inductive Step (b : Builder) : Builder → Option Event → Prop where
  | opened {scanner node} (moved : b.scanner.Advances scanner) (fresh : node.Fresh)
      (span : node.span = Span.ofOffsets b.scanner.offset scanner.offset) :
      Step b (b.openNode scanner node).1 (b.openNode scanner node).2
  | passed {scanner} (moved : b.scanner.Advances scanner) : Step b { b with scanner } none
  | closed {scanner tag above id outer} (moved : b.scanner.Advances scanner)
      (split : b.splitStack? tag = some (above, id, outer)) :
      Step b ⟨scanner, b.arena.modify id (Node.close above.reverse scanner.offset), id :: outer⟩ (some (.closed id))
  | text {scanner owner} (run : String) (moved : b.scanner.Advances scanner)
      (owned : b.textOwner? = some owner) :
      Step b { b with scanner, arena := b.arena.modifyElement owner fun e => e.appendText run } none

theorem stepLeaf {b : Builder} {covered : List Char} {content : Content}
    (moved : b.scanner.Advances (b.scanner.pass covered)) (leaf : ∀ e, content ≠ .element e) :
    b.Step (b.readLeaf content covered).1 (b.readLeaf content covered).2 :=
  .opened moved ⟨rfl, rfl, fun e same => absurd same (leaf e), fun e same => absurd same (leaf e), fun _ => rfl⟩ rfl

theorem stepStartTag {b next : Builder} {name covered : List Char} {event : Option Event}
    (moved : b.scanner.Advances (b.scanner.pass covered)) (h : b.readStartTag name covered = .ok (next, event)) :
    b.Step next event := by
  unfold readStartTag at h
  cases read : (b.scanner.pass covered).readAttributes b.scanner.offset (Element.ofTag (String.ofList name)) with
  | error cause => simp [read, bind, Except.bind] at h
  | ok result =>
    obtain ⟨scanner, element⟩ := result
    simp only [read, bind, Except.bind, pure, Except.pure] at h
    cases h
    obtain ⟨_, reaches⟩ := Scanner.reachesAttributes read
    have bare := (Element.bareReadAttributes (Element.bareOfTag _) read).1
    have filed := Element.readAttributesKeeps (P := Element.Filed)
      (fun _ written kept => Element.filedSetAttribute kept written) (Element.filedOfTag _) read
    refine .opened (Scanner.advancesTrans moved reaches) ⟨rfl, rfl, ?_, ?_, fun none => by contradiction⟩ rfl
    · intro e same
      cases same
      exact bare
    · intro e same
      cases same
      exact filed

theorem stepCases {comments : Bool} {b next : Builder} {event : Option Event}
    (h : b.step comments = .ok (next, event)) : b.Step next event := by
  unfold step at h
  split at h
  · contradiction
  · rename_i covered body found
    cases h
    exact stepLeaf (Scanner.advancesMatch (constructHeads found)) (by simp)
  · rename_i covered body found
    have moved := Scanner.advancesMatch (constructHeads found)
    split at h
    · cases h; exact stepLeaf moved (by simp)
    · cases h; exact .passed moved
  · rename_i covered name found
    exact stepStartTag (Scanner.advancesMatch (constructHeads found)) h
  · rename_i covered name found
    unfold readEndTag at h
    split at h
    · contradiction
    · rename_i above id outer split
      cases h
      exact .closed (Scanner.advancesMatch (constructHeads found)) split
  · rename_i covered run found
    unfold readText at h
    split at h
    · contradiction
    · rename_i owner owned
      cases h
      exact .text _ (Scanner.advancesMatch (constructHeads found)) owned

theorem readAttributesError {start : Nat} {s : Scanner} {e : Element} {cause : CompileError}
    (h : s.readAttributes start e = .error cause) :
    cause = s.illegal (.unterminatedTag e.tag) start ∨
    ∃ (covered : List Char) (t : Scanner), s.Reaches covered t.skipBlank ∧ tagClose? t.skipBlank.rest = none ∧ t.skipBlank.rest ≠ [] ∧
      attribute? t.skipBlank.rest = none ∧ cause = t.skipBlank.illegal .malformedAttribute t.skipBlank.offset := by
  fun_induction Scanner.readAttributes start s e with
  | case1 => contradiction
  | case2 s e here noClose ended =>
    cases h
    exact Or.inl rfl
  | case3 s e here noClose more written found ih =>
    have head := Scanner.reachesTrans s.reachesSkipBlank (Scanner.reachesMatch (attributeHeads found))
    rcases ih h with same | ⟨covered, t, reaches, rest⟩
    · rw [Element.tagSetAttribute] at same
      exact Or.inl same
    · exact Or.inr ⟨_, t, Scanner.reachesTrans head reaches, rest⟩
  | case4 s e here noClose more none =>
    cases h
    exact Or.inr ⟨_, s, s.reachesSkipBlank, noClose, fun empty => more (List.isEmpty_iff.mpr empty), none, rfl⟩

/-- How a step fails, and where: with no construct at the cursor, with a start tag not read to its end, with an end
tag for no open element, or with text that no element takes. -/
inductive Fails (b : Builder) : IllegalReason → Scanner → Prop where
  | unexpected (none : construct? b.scanner.rest = none) : Fails b .unexpectedContent b.scanner
  | unterminated {covered name} (found : construct? b.scanner.rest = some ⟨covered, .startTag name⟩) :
      Fails b (.unterminatedTag (String.ofList name)) b.scanner
  | malformed {covered} {t : Scanner} (reaches : b.scanner.Reaches covered t.skipBlank)
      (unclosed : tagClose? t.skipBlank.rest = none) (left : t.skipBlank.rest ≠ [])
      (none : attribute? t.skipBlank.rest = none) : Fails b .malformedAttribute t.skipBlank
  | unmatched {covered name} (found : construct? b.scanner.rest = some ⟨covered, .endTag name⟩)
      (none : b.splitStack? (String.ofList name) = none) : Fails b (.unmatchedEndTag (String.ofList name)) b.scanner
  | stray {covered run} (found : construct? b.scanner.rest = some ⟨covered, .text run⟩) (none : b.textOwner? = none) :
      Fails b .strayText b.scanner

theorem stepFails {comments : Bool} {b : Builder} {cause : CompileError} (h : b.step comments = .error cause) :
    ∃ reason t, b.Fails reason t ∧ cause = t.illegal reason t.offset := by
  unfold step at h
  split at h
  · rename_i none
    cases h
    exact ⟨_, _, .unexpected none, rfl⟩
  · contradiction
  · contradiction
  · rename_i covered name found
    unfold readStartTag at h
    cases read : (b.scanner.pass covered).readAttributes b.scanner.offset (Element.ofTag (String.ofList name)) with
    | ok result => simp [read, bind, Except.bind, pure, Except.pure] at h
    | error other =>
      simp only [read, bind, Except.bind] at h
      cases h
      have head := Scanner.reachesMatch (constructHeads found)
      rcases readAttributesError read with same | ⟨more, t, reaches, unclosed, left, none, same⟩
      · exact ⟨_, _, .unterminated found, same⟩
      · exact ⟨_, _, .malformed (Scanner.reachesTrans head reaches) unclosed left none, same⟩
  · rename_i covered name found
    unfold readEndTag at h
    split at h
    · rename_i none
      cases h
      exact ⟨_, _, .unmatched found none, rfl⟩
    · contradiction
  · rename_i covered run found
    unfold readText at h
    split at h
    · rename_i none
      cases h
      exact ⟨_, _, .stray found none, rfl⟩
    · contradiction

theorem failsReaches {b : Builder} {reason : IllegalReason} {t : Scanner} (fails : b.Fails reason t) :
    ∃ covered, b.scanner.Reaches covered t := by
  cases fails with
  | malformed reaches => exact ⟨_, reaches⟩
  | unexpected | unterminated | unmatched | stray => exact ⟨[], b.scanner.reachesSelf⟩

theorem stepAdvances {b next : Builder} {event : Option Event} (h : b.Step next event) :
    b.scanner.Advances next.scanner := by
  cases h <;> assumption

theorem splitStackSides {b : Builder} {tag : String} {above outer : List NodeId} {id : NodeId}
    (h : b.splitStack? tag = some (above, id, outer)) :
    b.stack = above ++ id :: outer ∧ b.isOpenNamed tag id = true ∧ ∀ a ∈ above, b.isOpenNamed tag a = false := by
  unfold splitStack? at h
  split at h
  · contradiction
  · rename_i found outside dropped
    cases h
    have split := (List.takeWhile_append_dropWhile (p := fun id => !b.isOpenNamed tag id) (l := b.stack)).symm
    rw [dropped] at split
    refine ⟨split, ?_, ?_⟩
    · have head := List.head?_dropWhile_not (fun id => !b.isOpenNamed tag id) b.stack
      rw [dropped] at head
      simpa using head
    · intro a member
      have all := List.all_eq_true.mp (List.all_takeWhile (l := b.stack) (p := fun id => !b.isOpenNamed tag id)) a member
      simpa using all

theorem splitStackExact {b : Builder} {tag : String} {above outer : List NodeId} {id : NodeId}
    (stack : b.stack = above ++ id :: outer) (opened : b.isOpenNamed tag id = true)
    (closed : ∀ a ∈ above, b.isOpenNamed tag a = false) : b.splitStack? tag = some (above, id, outer) := by
  have inside : ∀ a ∈ above, (!b.isOpenNamed tag a) = true := fun a member => by rw [closed a member]; rfl
  unfold splitStack?
  rw [stack, List.dropWhile_append_of_pos inside, List.takeWhile_append_of_pos inside]
  simp [opened]

theorem splitStackNone {b : Builder} {tag : String} :
    b.splitStack? tag = none ↔ ∀ id ∈ b.stack, b.isOpenNamed tag id = false := by
  have whole := List.takeWhile_append_dropWhile (p := fun id => !b.isOpenNamed tag id) (l := b.stack)
  have passed := List.all_eq_true.mp (List.all_takeWhile (l := b.stack) (p := fun id => !b.isOpenNamed tag id))
  unfold splitStack?
  constructor
  · intro nothing
    split at nothing
    · rename_i dropped
      rw [dropped, List.append_nil] at whole
      intro id member
      rw [← whole] at member
      simpa using passed id member
    · contradiction
  · intro closed
    have all : ∀ id ∈ b.stack, (!b.isOpenNamed tag id) = true := fun id member => by rw [closed id member]; rfl
    rw [← List.append_nil b.stack, List.dropWhile_append_of_pos all]
    rfl

theorem stackSplits {inner above outer further : List NodeId} {id other : NodeId}
    (both : above ++ id :: outer = inner ++ other :: further) (differs : other ≠ id) :
    (∃ between, outer = between ++ other :: further) ∨
      ∃ between, above = inner ++ other :: between ∧ further = between ++ id :: outer := by
  rcases List.append_eq_append_iff.mp both with ⟨more, _, rest⟩ | ⟨more, split, rest⟩
  · cases more with
    | nil => exact absurd (List.cons.inj rest).1.symm differs
    | cons first between => exact Or.inl ⟨between, (List.cons.inj rest).2⟩
  · cases more with
    | nil => exact absurd (List.cons.inj rest).1 differs
    | cons first between =>
      obtain ⟨rfl, below⟩ := List.cons.inj rest
      exact Or.inr ⟨between, split, below⟩

theorem openNamedGet {b : Builder} {tag : String} {id : NodeId} (h : b.isOpenNamed tag id = true) :
    ∃ node e, b.arena.get? id = some node ∧ node.content = .element e ∧ e.tag = tag ∧ node.done = false := by
  unfold isOpenNamed at h
  cases got : b.arena.get? id with
  | none => simp [got] at h
  | some node =>
    simp only [got, Option.any_some, Bool.and_eq_true, Bool.not_eq_true'] at h
    obtain ⟨named, waiting⟩ := h
    unfold Node.isElementNamed Node.element? at named
    split at named
    · rename_i e content
      exact ⟨node, e, rfl, content, by simpa using named, waiting⟩
    · simp at named

theorem openGet {b : Builder} {id : NodeId} (open_ : b.isOpenElement id = true) :
    ∃ node, b.arena.get? id = some node ∧ node.isElement = true ∧ node.done = false := by
  unfold isOpenElement at open_
  cases got : b.arena.get? id with
  | none => simp [got] at open_
  | some node =>
    rw [got, Option.any_some, Bool.and_eq_true, Bool.not_eq_true'] at open_
    exact ⟨node, rfl, open_⟩

theorem openIsElement {b : Builder} {id : NodeId} (open_ : b.isOpenElement id = true) : b.isElement id = true := by
  obtain ⟨node, got, element, _⟩ := openGet open_
  rw [isElement, got]
  exact element

theorem ownerIsElement {b : Builder} {owner : NodeId} (owned : b.textOwner? = some owner) : b.isElement owner = true := by
  unfold textOwner? at owned
  rcases Option.or_eq_some_iff.mp owned with found | ⟨_, found⟩
  · exact openIsElement (List.find?_some found)
  · exact List.find?_some found

theorem textOwnerElement {b : Builder} {owner : NodeId} (owned : b.textOwner? = some owner) :
    ∃ node e, b.arena.get? owner = some node ∧ node.content = .element e := by
  have element := ownerIsElement owned
  unfold isElement at element
  cases got : b.arena.get? owner with
  | none => simp [got] at element
  | some node =>
    simp only [got, Option.any_some, Node.isElement, Node.element?] at element
    cases content : node.content with
    | element e => exact ⟨node, e, rfl, content⟩
    | comment | doctype => simp [content] at element

theorem stepView {α : Type} (view : Node → α)
    (closes : ∀ children stop node, view (Node.close children stop node) = view node)
    (appends : ∀ run node, view (Node.mapElement (fun e => e.appendText run) node) = view node)
    {b next : Builder} {event : Option Event} (h : b.Step next event) {id : NodeId} {seen : α}
    (got : (b.arena.get? id).map view = some seen) : (next.arena.get? id).map view = some seen := by
  obtain ⟨node, here, rfl⟩ := Option.map_eq_some_iff.mp got
  cases h with
  | opened =>
    have inside : id.index < b.arena.size := (Array.getElem?_eq_some_iff.mp here).1
    rw [openNode, Arena.getPush, if_neg (by omega), here]
    rfl
  | passed => exact got
  | closed =>
    rw [Arena.getModify]
    split
    · rw [here, Option.map_some, Option.map_some, closes]
    · exact got
  | text =>
    rw [Arena.modifyElement, Arena.getModify]
    split
    · rw [here, Option.map_some, Option.map_some, appends]
    · exact got

theorem stepQuietCases {b next : Builder} (h : b.Step next none) :
    next.arena = b.arena ∨ ∃ owner run, b.textOwner? = some owner ∧
      next.arena = b.arena.modifyElement owner fun e => e.appendText run := by
  generalize told : (none : Option Event) = event at h
  cases h with
  | opened => contradiction
  | passed => exact Or.inl rfl
  | closed => contradiction
  | text run moved owned => exact Or.inr ⟨_, run, owned, rfl⟩

theorem stepQuietView {α : Type} (view : Node → α)
    (appends : ∀ run node, view (Node.mapElement (fun e => e.appendText run) node) = view node)
    {b next : Builder} (h : b.Step next none) (id : NodeId) :
    (next.arena.get? id).map view = (b.arena.get? id).map view := by
  generalize told : (none : Option Event) = event at h
  cases h with
  | opened => contradiction
  | passed => rfl
  | closed => contradiction
  | text run moved owned =>
    rw [Arena.modifyElement, Arena.getModify]
    split
    · rw [Option.map_map]
      exact congrArg (fun change => (b.arena.get? id).map change) (funext (appends run))
    · rfl

theorem stepQuiet {b next : Builder} (h : b.Step next none) :
    next.stack = b.stack ∧ next.arena.size = b.arena.size ∧
    ∀ id, next.isOpenElement id = b.isOpenElement id := by
  generalize told : (none : Option Event) = event at h
  cases h with
  | opened => contradiction
  | passed => exact ⟨rfl, rfl, fun _ => rfl⟩
  | closed => contradiction
  | text run moved owned =>
    refine ⟨rfl, by simp [Arena.modifyElement], ?_⟩
    intro id
    unfold isOpenElement Arena.modifyElement
    rw [Arena.getModify]
    split
    · cases b.arena.get? id with
      | none => rfl
      | some node =>
        unfold Node.mapElement
        cases content : node.content <;> simp [Node.isElement, Node.element?, content]
    · rfl

theorem stepCloses {b next : Builder} {id : NodeId} (h : b.Step next (some (.closed id))) :
    ∃ above outer node, b.stack = above ++ id :: outer ∧ next.stack = id :: outer ∧
      b.arena.get? id = some node ∧ node.isElement = true ∧ node.done = false ∧
      next.arena = b.arena.modify id (Node.close above.reverse next.scanner.offset) := by
  generalize told : some (Event.closed id) = event at h
  cases h with
  | opened => cases told
  | passed => cases told
  | closed moved split =>
    cases told
    obtain ⟨stack, opened, _⟩ := splitStackSides split
    obtain ⟨node, e, got, content, _, waiting⟩ := openNamedGet opened
    exact ⟨_, _, node, stack, rfl, got, by simp [Node.isElement, Node.element?, content], waiting, rfl⟩
  | text => cases told

end Builder
end Templating
