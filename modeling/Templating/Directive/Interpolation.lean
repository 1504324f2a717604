import Templating.Node.Element
import Templating.Options
import Templating.Text.Blank
import Templating.Text.Search

/-!
Interpolations in a text: what stands between an opening delimiter and the next closing one. They do
not nest; an opening delimiter inside one starts it anew.
-/
namespace Templating.Interpolation

def bodies (opening closing : List Char) (hasOpening : opening ≠ []) (text : List Char) : List (List Char) :=
  match _opened : Text.splitFirst opening text with
  | none => []
  | some (_, inside) =>
      match _closed : Text.splitFirst closing inside with
      | none => []
      | some (whole, after) =>
          let body := match Text.splitLast opening whole with
            | some (_, last) => last
            | none => whole
          body :: bodies opening closing hasOpening after
termination_by text.length
decreasing_by
  have first := congrArg List.length (Text.splitFirstSides _opened)
  have second := congrArg List.length (Text.splitFirstSides _closed)
  have := List.length_pos_iff.mpr hasOpening
  simp only [List.length_append] at first second
  omega

/- A body that is blank is no expression. The last token of an expression stands for it. -/
def collect (opening closing : List Char) (table : Table Interpolation) (body : List Char) : Table Interpolation :=
  if Text.trim body = [] then table
  else table.insert (String.ofList (Text.trim body)) ⟨String.ofList (opening ++ (body ++ closing)), none⟩

def extract (delimiters : Delimiters) (text : String) : Option (Table Interpolation) :=
  if hasOpening : delimiters.opening.toList ≠ [] then
    if delimiters.closing.toList = [] then none else
    let table := (bodies delimiters.opening.toList delimiters.closing.toList hasOpening text.toList).foldl
      (collect delimiters.opening.toList delimiters.closing.toList) Table.empty
    if table.isEmpty then none else some table
  else none

end Templating.Interpolation
