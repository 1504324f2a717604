import Templating.Node.Element
import Templating.Text.Blank
import Templating.Text.Search

/-!
Loop expressions: `item in items` or `item of items`. The keyword is the first one that stands
between blanks with something on either side; both sides are taken as written. To trim a side again, or
to refuse it where it is empty, would change nothing: the text is trimmed, the item ends before all the
blanks in front of the keyword, and the collection begins behind all of those that follow it.
-/
namespace Templating.Loop

def collection? (text : List Char) : Option (LoopKeyword × List Char) :=
  let behind (keyword : LoopKeyword) : Option (LoopKeyword × List Char) :=
    (Text.strip keyword.word.toList (Text.trimStart text)).bind fun after =>
      if after.head?.any Text.isBlank && !(Text.trimStart after).isEmpty then some (keyword, Text.trimStart after)
      else none
  if text.head?.any Text.isBlank then (behind .inWord).or (behind .ofWord) else none

def split? : List Char → Option (List Char × LoopKeyword × List Char)
  | [] => none
  | c :: r =>
      match collection? r with
      | some found => some ([c], found)
      | none => (split? r).map fun parts => (c :: parts.1, parts.2)

def parse? (expression : String) : Option Loop :=
  (split? (Text.trim expression.toList)).map fun (item, keyword, items) =>
    ⟨keyword, String.ofList item, String.ofList items⟩

end Templating.Loop
