import Templating.Tag

/-!
What a caller may choose about reading templates: what interpolations stand between, whether
comments are kept as nodes, and the tags whose content is literal.
-/
namespace Templating

structure Delimiters where
  opening : String
  closing : String
  deriving DecidableEq, Repr

structure Options where
  delimiters : Delimiters := ⟨"\x7b\x7b", "\x7d\x7d"⟩
  comments : Bool := true
  isRawText : String → Bool := Tag.isRawText

def Options.standard : Options := {}

end Templating
