import Templating.Proofs.Steps
import Templating.Tree.Basic
import Mathlib.Data.List.Nodup

/-!
Documents, as they are written and as they are to be read. A document is a sequence of comments,
doctypes, elements and runs of text; an element is void, or it is paired and has a document inside.
Their parts are texts that can be written as they stand, by their types.
-/
namespace Templating
open Markup

structure WrittenName (starts continues : Char → Bool) where
  head : Char
  tail : List Char
  headStarts : starts head = true
  tailContinues : ∀ c ∈ tail, continues c = true

def WrittenName.chars {starts continues : Char → Bool} (name : WrittenName starts continues) : List Char :=
  name.head :: name.tail

structure QuotedValue where
  chars : List Char
  trimmed : Text.trim chars = chars
  unquoted : '"' ∉ chars

structure WrittenAttribute where
  name : WrittenName isAttributeStart isAttributeName
  value : Option QuotedValue

namespace WrittenAttribute

def written (a : WrittenAttribute) : List Char :=
  match a.value with
  | none => a.name.chars
  | some value => a.name.chars ++ '=' :: '"' :: (value.chars ++ ['"'])

def print (a : WrittenAttribute) : List Char := ' ' :: a.written

def read (a : WrittenAttribute) : Attribute := ⟨a.name.chars, a.value.map QuotedValue.chars⟩

def entry (a : WrittenAttribute) : String × AttributeValue :=
  (String.ofList a.name.chars,
    match a.value with
    | none => .flag
    | some value => .text (String.ofList value.chars))

end WrittenAttribute

structure StartTag where
  name : WrittenName isWord isTagName
  attributes : List WrittenAttribute
  distinct : (attributes.map fun a => a.name.chars).Nodup

namespace StartTag

def behindName (tag : StartTag) : List Char := tag.attributes.flatMap WrittenAttribute.print ++ ['>']

def print (tag : StartTag) : List Char := '<' :: (tag.name.chars ++ tag.behindName)

def printEnd (tag : StartTag) : List Char := '<' :: '/' :: (tag.name.chars ++ ['>'])

def entries (tag : StartTag) (binding : Bool) : List (String × AttributeValue) :=
  (tag.attributes.filter fun a => isBindingName a.name.chars == binding).map WrittenAttribute.entry

theorem entriesDistinct (tag : StartTag) (binding : Bool) : ((tag.entries binding).map Prod.fst).Nodup := by
  have names : (tag.entries binding).map Prod.fst =
      ((tag.attributes.filter fun a => isBindingName a.name.chars == binding).map fun a => a.name.chars).map
        String.ofList := by
    unfold entries
    rw [List.map_map, List.map_map]
    rfl
  rw [names]
  refine List.Nodup.map (fun _ _ same => String.ofList_injective same) ?_
  exact tag.distinct.sublist (List.filter_sublist.map _)

def table (tag : StartTag) (binding : Bool) : Table AttributeValue := ⟨tag.entries binding, tag.entriesDistinct binding⟩

def element (tag : StartTag) : Element where
  tag := String.ofList tag.name.chars
  attributes := tag.table false
  pending := if tag.entries true = [] then none else some (tag.table true)

end StartTag

structure CommentBody where
  chars : List Char
  whole : Text.occursIn "-->".toList chars = false

def CommentBody.print (body : CommentBody) : List Char := "<!--".toList ++ (body.chars ++ "-->".toList)

structure DoctypeBody where
  chars : List Char
  trimmed : Text.trim chars = chars
  whole : '>' ∉ chars

def DoctypeBody.print (body : DoctypeBody) : List Char := "<!DOCTYPE".toList ++ ' ' :: (body.chars ++ ['>'])

structure TextRun where
  head : Char
  tail : List Char
  trimmed : Text.trim (head :: tail) = head :: tail
  plain : ∀ c ∈ head :: tail, isText c = true

def TextRun.chars (run : TextRun) : List Char := run.head :: run.tail

inductive Document where
  | empty
  | comment (body : CommentBody) (rest : Document)
  | doctype (body : DoctypeBody) (rest : Document)
  | void (tag : StartTag) (rest : Document)
  | paired (tag : StartTag) (inner rest : Document)
  | text (run : TextRun) (rest : Document)

namespace Document

def print : Document → List Char
  | .empty => []
  | .comment body rest => body.print ++ rest.print
  | .doctype body rest => body.print ++ rest.print
  | .void tag rest => tag.print ++ rest.print
  | .paired tag inner rest => tag.print ++ (inner.print ++ (tag.printEnd ++ rest.print))
  | .text run rest => run.chars ++ rest.print

def startsWithText : Document → Bool
  | .text _ _ => true
  | _ => false

def parted : Document → Bool
  | .empty => true
  | .comment _ rest | .doctype _ rest | .void _ rest => rest.parted
  | .paired _ inner rest => inner.parted && rest.parted
  | .text _ rest => !rest.startsWithText && rest.parted

/- No end tag for a void element is written later than its name, `after` included: none, in any case, that
a closing angle bracket stands before. An end tag is looked for behind the first such bracket, and that
may be one in a value of the element itself. -/
def unended (after : List Char) : Document → Prop
  | .empty => True
  | .comment _ rest | .doctype _ rest | .text _ rest => rest.unended after
  | .void tag rest =>
    (∀ before later, tag.behindName ++ (rest.print ++ after) = before ++ '>' :: later →
      Text.occursIn tag.printEnd later = false) ∧ rest.unended after
  | .paired tag inner rest => inner.unended (tag.printEnd ++ (rest.print ++ after)) ∧ rest.unended after

def size : Document → Nat
  | .empty => 0
  | .comment _ rest | .doctype _ rest | .void _ rest => rest.size + 1
  | .paired _ inner rest => inner.size + rest.size + 1
  | .text _ rest => rest.size

def runs : Document → List String
  | .empty => []
  | .comment _ rest | .doctype _ rest | .void _ rest | .paired _ _ rest => rest.runs
  | .text run rest => String.ofList run.chars :: rest.runs

def joined (runs : List String) : Option String := if runs = [] then none else some (String.intercalate " " runs)

def leaf (index offset : Nat) (content : Content) (written : List Char) : Tree :=
  .branch (NodeId.ofIndex index)
    { content, done := true, span := Span.ofOffsets offset (offset + Text.byteLength written) } []

def branch (tag : StartTag) (runs : List String) (children : List Tree) (index start stop : Nat) : Tree :=
  .branch (NodeId.ofIndex index)
    { content := .element { tag.element with children := children.map Tree.id, text := joined runs }
      done := true, span := Span.ofOffsets start stop } children

/- The document as a forest, its first node at `index` and its first character at `offset`. -/
def trees : Document → Nat → Nat → List Tree
  | .empty, _, _ => []
  | .comment body rest, index, offset =>
    leaf index offset (.comment (String.ofList body.chars)) body.print ::
      rest.trees (index + 1) (offset + Text.byteLength body.print)
  | .doctype body rest, index, offset =>
    leaf index offset (.doctype (String.ofList body.chars)) body.print ::
      rest.trees (index + 1) (offset + Text.byteLength body.print)
  | .void tag rest, index, offset =>
    leaf index offset (.element tag.element) tag.print :: rest.trees (index + 1) (offset + Text.byteLength tag.print)
  | .paired tag inner rest, index, offset =>
    let stop := offset + Text.byteLength (tag.print ++ (inner.print ++ tag.printEnd))
    branch tag inner.runs (inner.trees (index + 1) (offset + Text.byteLength tag.print)) index offset stop ::
      rest.trees (index + 1 + inner.size) stop
  | .text run rest, index, offset => rest.trees index (offset + Text.byteLength run.chars)

end Document
end Templating
