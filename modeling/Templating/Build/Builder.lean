import Templating.Build.Event
import Templating.Markup.Scanner

/-!
Building a forest construct by construct. Open elements and finished nodes share one stack, the
innermost first: an end tag takes what lies above its element as that element's children, and what
is on the stack at the end is the forest. A step depends on no receiver.
-/
namespace Templating
open Markup

def AttributeValue.ofWritten : Option (List Char) → AttributeValue
  | none => .flag
  | some value => .text (String.ofList value)

/- A later value takes the place of an earlier one of that name. -/
def Element.setAttribute (e : Element) (written : Attribute) : Element :=
  let name := String.ofList written.name
  let value := AttributeValue.ofWritten written.value
  if isBindingName written.name then { e with pending := some ((e.pending.getD Table.empty).insert name value) }
  else { e with attributes := e.attributes.insert name value }

def Node.close (children : List NodeId) (stop : Nat) (node : Node) : Node :=
  { node.mapElement fun e => { e with children } with
    done := true, span := ⟨node.span.start, UInt32.ofNat stop⟩ }

def Markup.Scanner.readAttributes (start : Nat) (s : Scanner) (e : Element) : Except CompileError (Scanner × Element) :=
  let here := s.skipBlank
  match tagClose? here.rest with
  | some close => .ok (here.pass close.covered, e)
  | none =>
      if here.atEnd then .error (here.illegal (.unterminatedTag e.tag) start) else
      match _found : attribute? here.rest with
      | some written => readAttributes start (here.pass written.covered) (e.setAttribute written.value)
      | none => .error (here.illegal .malformedAttribute here.offset)
termination_by s.rest.length
decreasing_by exact Nat.lt_of_lt_of_le (Scanner.restPassMatch (attributeHeads _found)) s.restSkipBlankLength

structure Builder where
  scanner : Scanner
  arena : Arena
  stack : List NodeId
  deriving DecidableEq, Repr

namespace Builder

def ofSource (source : List Char) : Builder := ⟨Scanner.ofSource source, Arena.empty, []⟩

def skipBlank (b : Builder) : Builder := { b with scanner := b.scanner.skipBlank }

def atEnd (b : Builder) : Bool := b.scanner.atEnd

def roots (b : Builder) : List NodeId := b.stack.reverse

def isElement (b : Builder) (id : NodeId) : Bool := (b.arena.get? id).any Node.isElement

def isOpenElement (b : Builder) (id : NodeId) : Bool := (b.arena.get? id).any fun node => node.isElement && !node.done

def isOpenNamed (b : Builder) (tag : String) (id : NodeId) : Bool :=
  (b.arena.get? id).any fun node => node.isElementNamed tag && !node.done

def openNode (b : Builder) (scanner : Scanner) (node : Node) : Builder × Option Event :=
  (⟨scanner, b.arena.push node, b.arena.nextId :: b.stack⟩, some (.opened b.arena.nextId))

def readLeaf (b : Builder) (content : Content) (covered : List Char) : Builder × Option Event :=
  b.openNode (b.scanner.pass covered)
    { content, done := true, span := Span.ofOffsets b.scanner.offset (b.scanner.pass covered).offset }

/- An element with no end tag to come is done as it is opened. -/
def readStartTag (b : Builder) (name covered : List Char) : Except CompileError (Builder × Option Event) := do
  let (scanner, element) ← (b.scanner.pass covered).readAttributes b.scanner.offset (Element.ofTag (String.ofList name))
  return b.openNode scanner {
    content := .element element
    done := !isPaired b.scanner.rest name
    span := Span.ofOffsets b.scanner.offset scanner.offset }

def splitStack? (b : Builder) (tag : String) : Option (List NodeId × NodeId × List NodeId) :=
  match b.stack.dropWhile fun id => !b.isOpenNamed tag id with
  | [] => none
  | id :: outer => some (b.stack.takeWhile fun id => !b.isOpenNamed tag id, id, outer)

/- A finished element of the same name is passed over; it becomes a child like the rest. -/
def readEndTag (b : Builder) (name covered : List Char) : Except CompileError (Builder × Option Event) :=
  match b.splitStack? (String.ofList name) with
  | none => .error (b.scanner.illegal (.unmatchedEndTag (String.ofList name)) b.scanner.offset)
  | some (above, id, outer) =>
      .ok (⟨b.scanner.pass covered, b.arena.modify id (Node.close above.reverse (b.scanner.pass covered).offset),
        id :: outer⟩, some (.closed id))

/- Text belongs to the innermost element still open, and where all are closed to the innermost of
those. -/
def textOwner? (b : Builder) : Option NodeId := (b.stack.find? b.isOpenElement).or (b.stack.find? b.isElement)

def readText (b : Builder) (run covered : List Char) : Except CompileError (Builder × Option Event) :=
  match b.textOwner? with
  | none => .error (b.scanner.illegal .strayText b.scanner.offset)
  | some owner =>
      .ok ({ b with
        scanner := b.scanner.pass covered
        arena := b.arena.modifyElement owner fun e => e.appendText (String.ofList run) }, none)

def step (comments : Bool) (b : Builder) : Except CompileError (Builder × Option Event) :=
  match construct? b.scanner.rest with
  | none => .error (b.scanner.illegal .unexpectedContent b.scanner.offset)
  | some ⟨covered, .doctype body⟩ => .ok (b.readLeaf (.doctype (String.ofList body)) covered)
  | some ⟨covered, .comment body⟩ =>
      .ok (if comments then b.readLeaf (.comment (String.ofList body)) covered
        else ({ b with scanner := b.scanner.pass covered }, none))
  | some ⟨covered, .startTag name⟩ => b.readStartTag name covered
  | some ⟨covered, .endTag name⟩ => b.readEndTag name covered
  | some ⟨covered, .text run⟩ => b.readText run covered

theorem readAttributesLength {start : Nat} {s t : Scanner} {e f : Element}
    (h : s.readAttributes start e = .ok (t, f)) : t.rest.length ≤ s.rest.length := by
  fun_induction Scanner.readAttributes start s e with
  | case1 s e here close found =>
    cases h
    exact Nat.le_trans (Nat.le_of_lt (Scanner.restPassMatch (tagCloseHeads found))) s.restSkipBlankLength
  | case2 => contradiction
  | case3 s e here noClose more written found ih =>
    exact Nat.le_trans (ih h) (Nat.le_trans (Nat.le_of_lt (Scanner.restPassMatch (attributeHeads found)))
      s.restSkipBlankLength)
  | case4 => contradiction

theorem stepShortens {comments : Bool} {b next : Builder} {event : Option Event}
    (h : b.step comments = .ok (next, event)) : next.scanner.rest.length < b.scanner.rest.length := by
  unfold step at h
  split at h
  · contradiction
  · rename_i covered body found
    cases h
    exact Scanner.restPassMatch (constructHeads found)
  · rename_i covered body found
    have shorter := Scanner.restPassMatch (constructHeads found)
    split at h <;> cases h <;> exact shorter
  · rename_i covered name found
    have shorter := Scanner.restPassMatch (constructHeads found)
    unfold readStartTag at h
    cases read : (b.scanner.pass covered).readAttributes b.scanner.offset (Element.ofTag (String.ofList name)) with
    | error e => simp [read, bind, Except.bind] at h
    | ok result =>
      simp only [read, bind, Except.bind, pure, Except.pure, openNode] at h
      cases h
      exact Nat.lt_of_le_of_lt (readAttributesLength read) shorter
  · rename_i covered name found
    have shorter := Scanner.restPassMatch (constructHeads found)
    unfold readEndTag at h
    split at h
    · contradiction
    · cases h; exact shorter
  · rename_i covered run found
    have shorter := Scanner.restPassMatch (constructHeads found)
    unfold readText at h
    split at h
    · contradiction
    · cases h; exact shorter

end Builder
end Templating
